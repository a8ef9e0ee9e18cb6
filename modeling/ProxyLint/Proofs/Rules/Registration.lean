import ProxyLint.Proofs.Text.ByteOrder
import ProxyLint.Proofs.Text.Keyed
import ProxyLint.Rules.Registry

/-!
# Rules from a history of registrations

A registry is what a sequence of registrations has left of it.  It lists every
type that was registered, once and in the order of bytes, and it has the latest
factory of each.

Making the rules of some settings either gives one rule for each of them or
fails as a whole.  The faults of the settings themselves come first, also if an
earlier rule could not be made.  Only then the rules are made in order, up to
the first one whose type is unknown or whose factory fails.
-/

namespace ProxyLint

namespace Registry

/-- The registry after some registrations, the earliest of which is first. -/
def ofHistory (history : List (String × RuleFactory)) : Registry :=
  history.foldl (fun registry entry => registry.register entry.1 entry.2) empty

/-- A factory is the one that was registered last for a type of rules. -/
def IsLatest (history : List (String × RuleFactory)) (name : String)
    (factory : RuleFactory) : Prop :=
  ∃ before after, history = before ++ (name, factory) :: after ∧
    ∀ entry ∈ after, entry.1 ≠ name

/-- The registry shows what has been registered. -/
structure Shows (registry : Registry) (history : List (String × RuleFactory)) :
    Prop where
  increasing : (registry.names.map Text.utf8).Pairwise (· < ·)
  mem_names_iff : ∀ name, name ∈ registry.names ↔ name ∈ history.map Prod.fst
  contains_iff : ∀ name, registry.contains name = true ↔ name ∈ registry.names
  find?_iff : ∀ name factory,
    registry.find? name = some factory ↔ IsLatest history name factory

/-- What comes of making one rule. -/
inductive Makes (history : List (String × RuleFactory))
    (settings : RuleSettings) : Except LintError Rule → Prop where
  | unknown (unregistered : settings.typeName ∉ history.map Prod.fst) :
      Makes history settings
        (.error (.settings (.unknownRuleType settings.typeName)))
  | latest {factory : RuleFactory}
      (latest : IsLatest history settings.typeName factory) :
      Makes history settings (factory settings)

/-- Each of some rules can be made from its settings. -/
def MakesEach (history : List (String × RuleFactory)) :
    List RuleSettings → List Rule → Prop :=
  List.Forall₂ fun settings rule => Makes history settings (.ok rule)

/-- What comes of making all rules of some settings. -/
inductive MakesAll (history : List (String × RuleFactory)) :
    List RuleSettings → Except LintError (List Rule) → Prop where
  | none : MakesAll history [] (.error (.settings .noRules))
  | invalid {before after : List RuleSettings} {settings : RuleSettings}
      {fault : SettingsFault}
      (valid : ∀ earlier ∈ before, earlier.validate = .ok ())
      (rejected : settings.validate = .error fault) :
      MakesAll history (before ++ settings :: after) (.error (.settings fault))
  | failed {before after : List RuleSettings} {settings : RuleSettings}
      {rules : List Rule} {error : LintError}
      (valid : ∀ every ∈ before ++ settings :: after, every.validate = .ok ())
      (made : MakesEach history before rules)
      (fails : Makes history settings (.error error)) :
      MakesAll history (before ++ settings :: after) (.error error)
  | made {all : List RuleSettings} {rules : List Rule} (nonempty : all ≠ [])
      (valid : ∀ every ∈ all, every.validate = .ok ())
      (made : MakesEach history all rules) : MakesAll history all (.ok rules)

theorem isLatest_concat {history : List (String × RuleFactory)}
    {entry : String × RuleFactory} {name : String} {factory : RuleFactory} :
    IsLatest (history ++ [entry]) name factory ↔
      if entry.1 = name then entry.2 = factory
      else IsLatest history name factory := by
  constructor
  · rintro ⟨before, after, split, superseded⟩
    rcases List.eq_nil_or_concat after with rfl | ⟨later, last, rfl⟩
    · obtain ⟨_, same⟩ := List.append_inj' split rfl
      obtain rfl := List.singleton_inj.1 same
      simp
    · rw [List.concat_eq_append] at split superseded
      have whole : history ++ [entry] =
          (before ++ (name, factory) :: later) ++ [last] := by
        simpa using split
      obtain ⟨rfl, same⟩ := List.append_inj' whole rfl
      obtain rfl := List.singleton_inj.1 same
      rw [if_neg (superseded entry (by simp))]
      exact ⟨before, later, rfl, fun other member =>
        superseded other (List.mem_append_left _ member)⟩
  · intro latest
    split at latest
    next same =>
      exact ⟨history, [], by rw [← same, ← latest], by simp⟩
    next different =>
      obtain ⟨before, after, rfl, superseded⟩ := latest
      refine ⟨before, after ++ [entry], by simp, fun other member => ?_⟩
      rcases List.mem_append.1 member with earlier | newest
      · exact superseded other earlier
      · rwa [List.mem_singleton.1 newest]

theorem ofHistory_concat (history : List (String × RuleFactory))
    (entry : String × RuleFactory) :
    ofHistory (history ++ [entry]) =
      (ofHistory history).register entry.1 entry.2 := by
  rw [ofHistory, List.foldl_append]
  rfl

/-- By induction on the registrations: the latest one counts. -/
theorem find?_ofHistory {history : List (String × RuleFactory)} {name : String}
    {factory : RuleFactory} :
    (ofHistory history).find? name = some factory ↔
      IsLatest history name factory := by
  induction history using List.reverseRecOn with
  | nil => simp [ofHistory, empty, find?, Keyed.find?, IsLatest]
  | append_singleton history entry ih =>
      rw [isLatest_concat, ← ih, ofHistory_concat, find?, register]
      split
      next same =>
        rw [same, Keyed.find?_put_self, Option.some_inj]
      next different =>
        rw [Keyed.find?_put_of_ne (Ne.symm different)]
        rfl

theorem exists_isLatest_iff {history : List (String × RuleFactory)}
    {name : String} :
    (∃ factory, IsLatest history name factory) ↔
      name ∈ history.map Prod.fst := by
  induction history using List.reverseRecOn with
  | nil => simp [IsLatest]
  | append_singleton history entry ih =>
      simp only [isLatest_concat, List.map_append, List.mem_append, ← ih]
      by_cases same : entry.1 = name
      · simp [same]
      · simp [same, Ne.symm same]

theorem increasing_ofHistory (history : List (String × RuleFactory)) :
    Keyed.Increasing (ofHistory history).factories := by
  induction history using List.reverseRecOn with
  | nil => exact .nil
  | append_singleton history entry ih =>
      rw [ofHistory_concat]
      exact ih.put

theorem shows_ofHistory (history : List (String × RuleFactory)) :
    (ofHistory history).Shows history where
  increasing := by
    rw [names, List.map_map, List.pairwise_map]
    exact (increasing_ofHistory history).imp Text.utf8_lt_utf8
  mem_names_iff name := by
    rw [names, ← Keyed.isSome_find?_iff, Option.isSome_iff_exists,
      ← exists_isLatest_iff]
    exact exists_congr fun factory => find?_ofHistory
  contains_iff name := Keyed.isSome_find?_iff
  find?_iff _ _ := find?_ofHistory

theorem createRule_ofHistory_iff {history : List (String × RuleFactory)}
    {settings : RuleSettings} {outcome : Except LintError Rule} :
    (ofHistory history).createRule settings = outcome ↔
      Makes history settings outcome := by
  rw [createRule]
  cases found : (ofHistory history).find? settings.typeName with
  | none =>
      have unregistered : settings.typeName ∉ history.map Prod.fst := by
        rw [← exists_isLatest_iff]
        rintro ⟨factory, latest⟩
        rw [find?_ofHistory.2 latest] at found
        cases found
      constructor
      · rintro rfl
        exact .unknown unregistered
      · intro makes
        cases makes with
        | unknown _ => rfl
        | latest latest =>
            exact absurd (exists_isLatest_iff.1 ⟨_, latest⟩) unregistered
  | some factory =>
      have latest := find?_ofHistory.1 found
      constructor
      · rintro rfl
        exact .latest latest
      · intro makes
        cases makes with
        | unknown unregistered =>
            exact absurd (exists_isLatest_iff.1 ⟨_, latest⟩) unregistered
        | latest other =>
            rw [find?_ofHistory.2 other] at found
            rw [Option.some.inj found]

/-- Values can be chosen for all elements of a list if there is one for each
of them. -/
theorem exists_forall₂_iff {α β : Type} {related : α → β → Prop}
    {list : List α} :
    (∃ values, List.Forall₂ related list values) ↔
      ∀ element ∈ list, ∃ value, related element value := by
  induction list with
  | nil => exact ⟨fun _ => by simp, fun _ => ⟨[], .nil⟩⟩
  | cons element list ih =>
      rw [List.forall_mem_cons, ← ih]
      constructor
      · rintro ⟨_, _ | ⟨here, later⟩⟩
        exact ⟨⟨_, here⟩, _, later⟩
      · rintro ⟨⟨value, here⟩, values, later⟩
        exact ⟨value :: values, .cons here later⟩

/-- A function succeeds on all elements of a list, or there is a first element
on which it fails. -/
theorem forall_ok_or_exists_first_error {α β ε : Type} (f : α → Except ε β)
    (list : List α) :
    (∀ element ∈ list, ∃ value, f element = .ok value) ∨
      ∃ before element after error, list = before ++ element :: after ∧
        (∀ earlier ∈ before, ∃ value, f earlier = .ok value) ∧
        f element = .error error := by
  induction list with
  | nil => exact .inl (by simp)
  | cons element list ih =>
      cases outcome : f element with
      | error error =>
          exact .inr ⟨[], element, list, error, rfl, by simp, outcome⟩
      | ok value =>
          rcases ih with succeeds | ⟨before, other, after, error, rfl, succeeds,
            fails⟩
          · exact .inl (List.forall_mem_cons.2 ⟨⟨value, outcome⟩, succeeds⟩)
          · exact .inr ⟨element :: before, other, after, error, rfl,
              List.forall_mem_cons.2 ⟨⟨value, outcome⟩, succeeds⟩, fails⟩

theorem validate_eq_ok_of_exists {all : List RuleSettings}
    (accepted : ∀ every ∈ all, ∃ value, every.validate = .ok value) :
    ∀ every ∈ all, every.validate = .ok () := by
  intro every member
  obtain ⟨_, valid⟩ := accepted every member
  exact valid

theorem validateRules_append {before : List RuleSettings}
    (valid : ∀ earlier ∈ before, earlier.validate = .ok ())
    (rest : List RuleSettings) :
    LintSettings.validateRules (before ++ rest) =
      LintSettings.validateRules rest := by
  induction before with
  | nil => rfl
  | cons settings before ih =>
      obtain ⟨here, valid⟩ := List.forall_mem_cons.1 valid
      rw [List.cons_append, LintSettings.validateRules, here]
      exact ih valid

theorem validate_eq_ok {settings : LintSettings} (nonempty : settings.rules ≠ [])
    (valid : ∀ every ∈ settings.rules, every.validate = .ok ()) :
    settings.validate = .ok () := by
  have all := validateRules_append valid []
  rw [List.append_nil] at all
  rw [LintSettings.validate, if_neg (by simpa using nonempty), all]
  rfl

/-- The rules that can be made are made before the others are tried. -/
theorem createAll_append {history : List (String × RuleFactory)}
    {before : List RuleSettings} {rules : List Rule}
    (made : MakesEach history before rules) (rest : List RuleSettings) :
    (ofHistory history).createAll (before ++ rest) =
      (rules ++ ·) <$> (ofHistory history).createAll rest := by
  induction made with
  | nil =>
      cases outcome : (ofHistory history).createAll rest <;>
        simp [outcome]
  | cons here _ ih =>
      rw [List.cons_append, createAll, createRule_ofHistory_iff.2 here, ih]
      cases (ofHistory history).createAll rest <;> rfl

theorem createRules_of_makesAll {history : List (String × RuleFactory)}
    {settings : LintSettings} {outcome : Except LintError (List Rule)}
    (makes : MakesAll history settings.rules outcome) :
    (ofHistory history).createRules settings = outcome := by
  rw [createRules]
  generalize all : settings.rules = rules at makes
  cases makes with
  | none => rw [LintSettings.validate, all]; rfl
  | @invalid before after rule fault valid rejected =>
      have faulty : settings.validate = .error fault := by
        rw [LintSettings.validate, all, if_neg (by simp),
          validateRules_append valid, LintSettings.validateRules, rejected]
      rw [faulty]
  | @failed before after rule rules error valid made fails =>
      rw [validate_eq_ok (by simp [all]) (all ▸ valid)]
      simp only [createAll_append made]
      rw [createAll, createRule_ofHistory_iff.2 fails]
      rfl
  | made nonempty valid made =>
      rw [validate_eq_ok (all ▸ nonempty) (all ▸ valid)]
      have created := createAll_append made []
      rw [List.append_nil] at created
      simp only [created]
      exact congrArg _ (List.append_nil _)

/-- There is a case for any settings. -/
theorem exists_makesAll (history : List (String × RuleFactory))
    (all : List RuleSettings) : ∃ outcome, MakesAll history all outcome := by
  rcases forall_ok_or_exists_first_error RuleSettings.validate all with
    valid | ⟨before, settings, after, fault, rfl, valid, rejected⟩
  · have valid := validate_eq_ok_of_exists valid
    rcases forall_ok_or_exists_first_error (ofHistory history).createRule all
      with made | ⟨before, settings, after, error, rfl, made, fails⟩
    · rcases eq_or_ne all [] with rfl | nonempty
      · exact ⟨_, .none⟩
      · simp only [createRule_ofHistory_iff] at made
        obtain ⟨rules, made⟩ := exists_forall₂_iff.2 made
        exact ⟨_, .made nonempty valid made⟩
    · simp only [createRule_ofHistory_iff] at made fails
      obtain ⟨rules, made⟩ := exists_forall₂_iff.2 made
      exact ⟨_, .failed valid made fails⟩
  · exact ⟨_, .invalid (validate_eq_ok_of_exists valid) rejected⟩

theorem createRules_ofHistory_iff {history : List (String × RuleFactory)}
    {settings : LintSettings} {outcome : Except LintError (List Rule)} :
    (ofHistory history).createRules settings = outcome ↔
      MakesAll history settings.rules outcome := by
  constructor
  · rintro rfl
    obtain ⟨outcome, makes⟩ := exists_makesAll history settings.rules
    rwa [createRules_of_makesAll makes]
  · exact createRules_of_makesAll

/-- A rule can be made from settings of a registered type that the latest
factory of this type accepts. -/
theorem exists_makes_ok_iff {history : List (String × RuleFactory)}
    {settings : RuleSettings} :
    (∃ rule, Makes history settings (.ok rule)) ↔
      ∃ factory, IsLatest history settings.typeName factory ∧
        ∃ rule, factory settings = .ok rule := by
  constructor
  · rintro ⟨rule, makes⟩
    generalize made : Except.ok rule = outcome at makes
    cases makes with
    | unknown _ => cases made
    | latest latest => exact ⟨_, latest, rule, made.symm⟩
  · rintro ⟨factory, latest, rule, accepted⟩
    exact ⟨rule, accepted ▸ .latest latest⟩

theorem exists_createRules_iff {history : List (String × RuleFactory)}
    {settings : LintSettings} :
    (∃ rules, (ofHistory history).createRules settings = .ok rules) ↔
      settings.rules ≠ [] ∧ ∀ every ∈ settings.rules,
        every.validate = .ok () ∧
        ∃ factory, IsLatest history every.typeName factory ∧
          ∃ rule, factory every = .ok rule := by
  simp only [createRules_ofHistory_iff, ← exists_makes_ok_iff]
  constructor
  · rintro ⟨rules, makes⟩
    generalize made : Except.ok rules = outcome at makes
    generalize settings.rules = all at makes ⊢
    cases makes with
    | made nonempty valid each =>
        have all := exists_forall₂_iff.1 ⟨_, each⟩
        exact ⟨nonempty, fun every member =>
          ⟨valid every member, all every member⟩⟩
    | none | invalid | failed => cases made
  · rintro ⟨nonempty, all⟩
    obtain ⟨rules, each⟩ := exists_forall₂_iff.2
      fun every member => (all every member).2
    exact ⟨rules, .made nonempty (fun every member => (all every member).1)
      each⟩

/-- Whatever was registered, the registry shows it, and the rules of any
settings come from the latest factories or fail with the first error. -/
theorem registry_of_registrations (history : List (String × RuleFactory))
    (settings : LintSettings) (outcome : Except LintError (List Rule)) :
    (ofHistory history).Shows history ∧
    ((∃ rules, (ofHistory history).createRules settings = .ok rules) ↔
      settings.rules ≠ [] ∧ ∀ every ∈ settings.rules,
        every.validate = .ok () ∧
        ∃ factory, IsLatest history every.typeName factory ∧
          ∃ rule, factory every = .ok rule) ∧
    ((ofHistory history).createRules settings = outcome ↔
      MakesAll history settings.rules outcome) :=
  ⟨shows_ofHistory history, exists_createRules_iff, createRules_ofHistory_iff⟩

end Registry

end ProxyLint
