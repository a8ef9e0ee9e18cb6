import ProxyLint.Proofs.Variables.Dependency

/-!
# Shadowed variables

Reading a variable leads from one assignment to the next.  Each of them is seen
from the one before, so the way goes outwards, and a name that was met before
may belong to another assignment there.  A way that never comes back to an
assignment has an end, and the variable has the value that is found there.
Folding agrees with that value unless the way comes back to a name.
-/

namespace ProxyLint

namespace ConfigTree

/-- Reading a variable from a directive leads over some variables, each with
the assignment that counts for it, to a variable that is read from the last of
these assignments. -/
inductive LeadsTo (tree : ConfigTree) :
    String → Nat → List (String × Nat) → String → Nat → Prop where
  | here {name : String} {scope : Nat} : LeadsTo tree name scope [] name scope
  | through {name next last text : String} {scope assignment seen : Nat}
      {visits : List (String × Nat)}
      (governs : tree.Governs name scope assignment)
      (given : tree.assignedText? assignment = some text)
      (mentioned : Script.Mentions text next)
      (rest : LeadsTo tree next assignment visits last seen) :
      LeadsTo tree name scope ((name, assignment) :: visits) last seen

/-- No way from a variable meets a name twice. -/
def MeetsNamesOnce (tree : ConfigTree) (name : String) (scope : Nat) : Prop :=
  ∀ visits last seen, tree.LeadsTo name scope visits last seen →
    (visits.map Prod.fst ++ [last]).Nodup

/-- The ways from a variable come back to no assignment, are short enough to be
followed, and end at texts that are known. -/
structure Traceable (tree : ConfigTree) (name : String) (scope : Nat) :
    Prop where
  distinct : ∀ visits last seen assignment,
    tree.LeadsTo name scope visits last seen →
      tree.Governs last seen assignment →
        (visits.map Prod.snd ++ [assignment]).Nodup
  short : ∀ visits last seen, tree.LeadsTo name scope visits last seen →
    (visits.map Prod.fst ++ [last]).length ≤ 8
  settled : ∀ visits last seen, tree.LeadsTo name scope visits last seen →
    ¬ tree.Unknowable last seen

variable {tree : ConfigTree} {name : String} {scope : Nat}

theorem exists_governs
    (assigned : ∃ block ∈ tree.enclosing scope, ∃ assignment,
      tree.AssignsIn name block assignment) :
    ∃ assignment, tree.Governs name scope assignment := by
  obtain ⟨block, around, assignment, assigns⟩ := assigned
  rcases nearest_assigning_block tree name (tree.enclosing scope) with
    none | ⟨nearer, nearest, outer, split, unassigned, found⟩
  · exact absurd assigns (assignmentsIn_eq_nil.1 (none block around) assignment)
  · obtain ⟨last, isLast⟩ :=
      Option.isSome_iff_exists.1 (List.getLast?_isSome.2 found)
    refine ⟨last, assignment?_eq_some_iff.1 ?_⟩
    rw [assignment?_of_nearest split unassigned found, isLast]

/-- A variable is followed further exactly if it has a readable text. -/
theorem not_unknowable_iff :
    ¬ tree.Unknowable name scope ↔ Variable.Assignable name ∧
      ∃ assignment text parts, tree.Governs name scope assignment ∧
        tree.assignedText? assignment = some text ∧
        segments text = .ok parts := by
  constructor
  · intro settled
    have notBuiltin : Variable.isBuiltin name = false :=
      Bool.eq_false_iff.2 fun builtin =>
        settled (.request (Variable.isBuiltin_iff.1 builtin))
    have notCapture : Variable.isCapture name = false :=
      Bool.eq_false_iff.2 fun capture =>
        settled (.capture (List.all_eq_true.1 capture))
    obtain ⟨assignment, governs⟩ : ∃ assignment,
        tree.Governs name scope assignment := by
      apply exists_governs
      by_contra nowhere
      exact settled (.unassigned fun block around assignment assigns =>
        nowhere ⟨block, around, assignment, assigns⟩)
    refine ⟨⟨notBuiltin, notCapture⟩, assignment, ?_⟩
    cases given : tree.assignedText? assignment with
    | none => exact absurd (.valueless governs given) settled
    | some text =>
        cases cut : segments text with
        | error error => exact absurd (.unreadable governs given cut) settled
        | ok parts => exact ⟨text, parts, governs, rfl, cut⟩
  · rintro ⟨assignable, assignment, text, parts, governs, given, cut⟩
    exact not_unknowable_of_governs assignable governs given cut

/-- A way leads nowhere, or on from a variable of the assigned text. -/
theorem LeadsTo.cases_of_governs {last text : String}
    {assignment seen : Nat} {parts : List Segment}
    {visits : List (String × Nat)}
    (leads : tree.LeadsTo name scope visits last seen)
    (governs : tree.Governs name scope assignment)
    (given : tree.assignedText? assignment = some text)
    (cut : segments text = .ok parts) :
    (visits = [] ∧ last = name ∧ seen = scope) ∨
      ∃ next later, .variable next ∈ parts ∧
        visits = (name, assignment) :: later ∧
        tree.LeadsTo next assignment later last seen := by
  cases leads with
  | here => exact .inl ⟨rfl, rfl, rfl⟩
  | through otherGoverns otherGiven mentioned rest =>
      obtain rfl := governs.unique otherGoverns
      obtain rfl := Option.some.inj (given.symm.trans otherGiven)
      obtain ⟨pieces, mentionCut, member⟩ := mentioned
      obtain rfl := Except.ok.inj (cut.symm.trans mentionCut)
      exact .inr ⟨_, _, member, rfl, rest⟩

end ConfigTree

/-- A script has a derivation if all variables in it have one. -/
theorem exists_scriptDerivation {tree : ConfigTree} {scope bound : Nat}
    {parts : List Segment}
    (derivations : ∀ name, .variable name ∈ parts →
      ∃ value, ∃ derivation : Derivation tree name scope value,
        derivation.height ≤ bound) :
    ∃ value, ∃ script : ScriptDerivation tree scope parts value,
      script.height ≤ bound := by
  induction parts with
  | nil => exact ⟨"", .done, Nat.zero_le _⟩
  | cons part parts ih =>
      obtain ⟨value, rest, restBounded⟩ := ih fun name member =>
        derivations name (List.mem_cons_of_mem _ member)
      rcases part with fragment | name
      · exact ⟨_, .literal fragment rest, restBounded⟩
      · obtain ⟨headValue, head, headBounded⟩ :=
          derivations name List.mem_cons_self
        exact ⟨_, .mention head rest,
          Nat.max_le.2 ⟨headBounded, restBounded⟩⟩

/-- The branches of a script are those of the variables in it. -/
theorem ScriptDerivation.exists_derivation_of_mem {tree : ConfigTree}
    {scope : Nat} {parts : List Segment} {value name : String} :
    (script : ScriptDerivation tree scope parts value) →
      .variable name ∈ parts →
        ∃ headValue, ∃ head : Derivation tree name scope headValue,
          ∀ branch ∈ head.branches, branch ∈ script.branches
  | .done, member => by cases member
  | .literal _ rest, member => by
      rcases List.mem_cons.1 member with other | member
      · cases other
      · exact rest.exists_derivation_of_mem member
  | .mention head rest, member => by
      rcases List.mem_cons.1 member with same | member
      · cases same
        exact ⟨_, head, fun branch found => List.mem_append_left _ found⟩
      · obtain ⟨_, later, included⟩ := rest.exists_derivation_of_mem member
        exact ⟨_, later, fun branch found =>
          List.mem_append_right _ (included branch found)⟩

mutual

/-- Every branch of a derivation has the names on some way. -/
theorem Derivation.exists_leadsTo {tree : ConfigTree} {name value : String}
    {scope : Nat} :
    (derivation : Derivation tree name scope value) →
      ∀ branch ∈ derivation.branches, ∃ visits last seen,
        tree.LeadsTo name scope visits last seen ∧
          branch = visits.map Prod.fst ++ [last]
  | .assigned _ governs given cut script => by
      rw [Derivation.branches]
      intro branch member
      split at member
      next leaf =>
        obtain rfl := List.mem_singleton.1 member
        exact ⟨[], _, _, .here, rfl⟩
      next =>
        obtain ⟨later, inScript, rfl⟩ := List.mem_map.1 member
        obtain ⟨next, mentioned, visits, last, seen, leads, rfl⟩ :=
          script.exists_leadsTo later inScript
        exact ⟨_, last, seen, .through governs given ⟨_, cut, mentioned⟩ leads,
          rfl⟩

theorem ScriptDerivation.exists_leadsTo {tree : ConfigTree} {scope : Nat}
    {parts : List Segment} {value : String} :
    (script : ScriptDerivation tree scope parts value) →
      ∀ branch ∈ script.branches, ∃ name, .variable name ∈ parts ∧
        ∃ visits last seen, tree.LeadsTo name scope visits last seen ∧
          branch = visits.map Prod.fst ++ [last]
  | .done => by
      rw [ScriptDerivation.branches]
      exact List.forall_mem_nil _
  | .literal _ rest => by
      rw [ScriptDerivation.branches]
      intro branch member
      obtain ⟨name, mentioned, way⟩ := rest.exists_leadsTo branch member
      exact ⟨name, List.mem_cons_of_mem _ mentioned, way⟩
  | .mention head rest => by
      rw [ScriptDerivation.branches]
      intro branch member
      rcases List.mem_append.1 member with inHead | inRest
      · exact ⟨_, List.mem_cons_self, head.exists_leadsTo branch inHead⟩
      · obtain ⟨name, mentioned, way⟩ := rest.exists_leadsTo branch inRest
        exact ⟨name, List.mem_cons_of_mem _ mentioned, way⟩

end

namespace ConfigTree

variable {tree : ConfigTree} {name : String} {scope : Nat}

/-- The names on a way begin some branch of every derivation. -/
theorem LeadsTo.exists_branch {last : String} {seen : Nat}
    {visits : List (String × Nat)}
    (leads : tree.LeadsTo name scope visits last seen) {value : String}
    (derivation : Derivation tree name scope value) :
    ∃ branch ∈ derivation.branches,
      visits.map Prod.fst ++ [last] <+: branch := by
  induction leads generalizing value with
  | here =>
      cases derivation with
      | assigned assignable governs given cut script =>
          rw [Derivation.branches]
          split
          next leaf => exact ⟨_, List.mem_cons_self, List.prefix_rfl⟩
          next nonempty =>
            obtain ⟨branch, member⟩ := List.exists_mem_of_ne_nil _ nonempty
            exact ⟨_, List.mem_map_of_mem member,
              List.prefix_append [_] branch⟩
  | through governs given mentioned rest ih =>
      cases derivation with
      | assigned _ otherGoverns otherGiven cut script =>
          obtain rfl := governs.unique otherGoverns
          obtain rfl := Option.some.inj (given.symm.trans otherGiven)
          obtain ⟨pieces, mentionCut, member⟩ := mentioned
          obtain rfl := Except.ok.inj (mentionCut.symm.trans cut)
          obtain ⟨_, head, included⟩ := script.exists_derivation_of_mem member
          obtain ⟨branch, inHead, begins⟩ := ih head
          have inScript := included branch inHead
          rw [Derivation.branches]
          split
          next leaf =>
            rw [leaf] at inScript
            cases inScript
          next =>
            exact ⟨_, List.mem_map_of_mem inScript,
              List.cons_prefix_cons.2 ⟨rfl, begins⟩⟩

/-- Branches without repeats are ways without repeats. -/
theorem branches_nodup_iff {value : String}
    (derivation : Derivation tree name scope value) :
    (∀ branch ∈ derivation.branches, branch.Nodup) ↔
      tree.MeetsNamesOnce name scope := by
  constructor
  · intro nodup visits last seen leads
    obtain ⟨branch, member, begins⟩ := leads.exists_branch derivation
    exact (nodup branch member).sublist begins.sublist
  · intro once branch member
    obtain ⟨visits, last, seen, leads, rfl⟩ :=
      derivation.exists_leadsTo branch member
    exact once visits last seen leads

/-- Following short ways to known texts gives a derivation, by induction on
the number of variables that may still be met. -/
theorem exists_derivation (bound : Nat)
    (short : ∀ visits last seen, tree.LeadsTo name scope visits last seen →
      (visits.map Prod.fst ++ [last]).length ≤ bound)
    (settled : ∀ visits last seen, tree.LeadsTo name scope visits last seen →
      ¬ tree.Unknowable last seen) :
    ∃ value, ∃ derivation : Derivation tree name scope value,
      derivation.height ≤ bound := by
  induction bound generalizing name scope with
  | zero =>
      have nowhere := short [] name scope .here
      simp at nowhere
  | succ bound ih =>
      obtain ⟨assignable, assignment, text, parts, governs, given, cut⟩ :=
        not_unknowable_iff.1 (settled [] name scope .here)
      have through {next : String} (member : .variable next ∈ parts)
          {visits : List (String × Nat)} {last : String} {seen : Nat}
          (leads : tree.LeadsTo next assignment visits last seen) :
          tree.LeadsTo name scope ((name, assignment) :: visits) last seen :=
        .through governs given ⟨parts, cut, member⟩ leads
      obtain ⟨value, script, bounded⟩ := exists_scriptDerivation
        fun next member => ih
          (fun visits last seen leads => by
            have longer := short _ last seen (through member leads)
            simpa using longer)
          (fun visits last seen leads =>
            settled _ last seen (through member leads))
      exact ⟨value, .assigned assignable governs given cut script,
        Nat.succ_le_succ bounded⟩

/-- If the ways from a variable come back to no assignment, are no longer than
eight variables and end at known texts, then the variable has one value that
following them gives.  A script that mentions the variable is compiled with
this value if no way meets a name twice, and without a value otherwise. -/
theorem compile_traceable_variable {text : String} {parts : List Segment}
    (cut : segments text = .ok parts) (mentioned : .variable name ∈ parts)
    (traceable : tree.Traceable name scope) :
    ∃ value, tree.Folds name scope value ∧
      (∀ other, tree.Folds name scope other → other = value) ∧
      ∃ compiled, tree.compile scope text = .ok compiled ∧
        (∃ known, ⟨.variable name, known⟩ ∈ compiled) ∧
        ∀ known, ⟨.variable name, known⟩ ∈ compiled →
          (known = some value ↔ tree.MeetsNamesOnce name scope) ∧
          (known = none ↔ ¬ tree.MeetsNamesOnce name scope) := by
  obtain ⟨value, derivation, bounded⟩ :=
    exists_derivation 8 traceable.short traceable.settled
  have folds : tree.Folds name scope value := ⟨derivation⟩
  have found : tree.variableValue scope name = some value ↔
      tree.MeetsNamesOnce name scope := by
    rw [variableValue_eq_some_iff]
    constructor
    · rintro ⟨other, _, nodup⟩
      exact (branches_nodup_iff other).1 nodup
    · intro once
      exact ⟨derivation, bounded, (branches_nodup_iff derivation).2 once⟩
  have missed : tree.variableValue scope name = none ↔
      ¬ tree.MeetsNamesOnce name scope := by
    rw [← found]
    cases outcome : tree.variableValue scope name with
    | none => simp
    | some other =>
        obtain ⟨otherDerivation, _⟩ :=
          (variableValue_eq_some_iff tree scope name other).1 outcome
        simp [otherDerivation.value_unique derivation]
  refine ⟨value, folds, fun other otherFolds => otherFolds.unique folds, _,
    compile_of_segments cut, ⟨_, List.mem_map_of_mem mentioned⟩, ?_⟩
  intro known member
  obtain ⟨segment, _, same⟩ := List.mem_map.1 member
  cases same
  exact ⟨found, missed⟩

/-- What it takes for the variable at the end of a way to be followed. -/
structure Continues (tree : ConfigTree) (visits : List (String × Nat))
    (last : String) (seen assignment : Nat) (text : String)
    (parts : List Segment) : Prop where
  assignable : Variable.Assignable last
  found : tree.assignment? last seen = some assignment
  given : tree.assignedText? assignment = some text
  cut : segments text = .ok parts
  distinct : (visits.map Prod.snd ++ [assignment]).Nodup
  short : (visits.map Prod.fst ++ [last]).length ≤ 8

theorem traceable_of_continues
    (continues : ∀ visits last seen, tree.LeadsTo name scope visits last seen →
      ∃ assignment text parts,
        tree.Continues visits last seen assignment text parts) :
    tree.Traceable name scope where
  distinct visits last seen assignment leads governs := by
    obtain ⟨other, text, parts, further⟩ := continues visits last seen leads
    obtain rfl := governs.unique (assignment?_eq_some_iff.1 further.found)
    exact further.distinct
  short visits last seen leads := by
    obtain ⟨assignment, text, parts, further⟩ := continues visits last seen leads
    exact further.short
  settled visits last seen leads := by
    obtain ⟨assignment, text, parts, further⟩ := continues visits last seen leads
    exact not_unknowable_of_governs further.assignable
      (assignment?_eq_some_iff.1 further.found) further.given further.cut

/-- A location with a zone of its own, which the backend around it does not
use. -/
def zonedLocation : ConfigTree where
  directives := #[
    ⟨0, "set", ["$zone", "example.com"], false, none⟩,
    ⟨0, "set", ["$backend", "api.$zone"], false, none⟩,
    ⟨0, "location", ["/"], true, none⟩,
    ⟨3, "set", ["$zone", "internal"], false, none⟩,
    ⟨3, "proxy_pass", ["http://$backend"], false, none⟩]
  rootLine := none
  parent_le := by decide

theorem ways_zonedLocation {visits : List (String × Nat)} {last : String}
    {seen : Nat} (leads : zonedLocation.LeadsTo "backend" 5 visits last seen) :
    (visits, last, seen) ∈
      [([], "backend", 5), ([("backend", 2)], "zone", 2)] := by
  have backend : zonedLocation.Governs "backend" 5 2 :=
    assignment?_eq_some_iff.1 (by decide +kernel)
  have zone : zonedLocation.Governs "zone" 2 1 :=
    assignment?_eq_some_iff.1 (by decide +kernel)
  have backendCut : segments "api.$zone" =
      .ok [.literal "api.", .variable "zone"] := by
    decide +kernel
  have zoneCut : segments "example.com" = .ok [.literal "example.com"] := by
    decide +kernel
  rcases leads.cases_of_governs backend rfl backendCut with
    ⟨rfl, rfl, rfl⟩ | ⟨next, later, member, rfl, leads⟩
  · simp
  · obtain rfl : next = "zone" := by simpa using member
    rcases leads.cases_of_governs zone rfl zoneCut with
      ⟨rfl, rfl, rfl⟩ | ⟨next, later, member, rfl, leads⟩
    · simp
    · simp at member

theorem traceable_zonedLocation : zonedLocation.Traceable "backend" 5 := by
  refine traceable_of_continues fun visits last seen leads => ?_
  have way := ways_zonedLocation leads
  simp only [List.mem_cons, Prod.mk.injEq, List.not_mem_nil, or_false] at way
  rcases way with ⟨rfl, rfl, rfl⟩ | ⟨rfl, rfl, rfl⟩
  · exact ⟨2, "api.$zone", [.literal "api.", .variable "zone"],
      by constructor <;> decide +kernel⟩
  · exact ⟨1, "example.com", [.literal "example.com"],
      by constructor <;> decide +kernel⟩

theorem backend_of_zonedLocation :
    segments "$backend" = .ok [.variable "backend"] ∧
      zonedLocation.Traceable "backend" 5 ∧
      zonedLocation.MeetsNamesOnce "backend" 5 ∧
      zonedLocation.compile 5 "$backend" =
        .ok [⟨.variable "backend", some "api.example.com"⟩] ∧
      zonedLocation.Folds "backend" 5 "api.example.com" := by
  have cut : segments "$backend" = .ok [.variable "backend"] := by
    decide +kernel
  have evaluated : zonedLocation.compile 5 "$backend" =
      .ok [⟨.variable "backend", some "api.example.com"⟩] := by
    decide +kernel
  obtain ⟨value, folds, _, compiled, known, _, values⟩ :=
    compile_traceable_variable cut List.mem_cons_self traceable_zonedLocation
  obtain rfl := Except.ok.inj (known.symm.trans evaluated)
  have once : zonedLocation.MeetsNamesOnce "backend" 5 := by
    by_contra repeated
    have missing := (values _ List.mem_cons_self).2.2 repeated
    cases missing
  have same := (values _ List.mem_cons_self).1.2 once
  obtain rfl := Option.some.inj same
  exact ⟨cut, traceable_zonedLocation, once, evaluated, folds⟩

/-- A location that takes its backend from the assignments around it, under the
name that these use themselves. -/
def shadowedBackend : ConfigTree where
  directives := #[
    ⟨0, "set", ["$backend", "api.example.com"], false, none⟩,
    ⟨0, "set", ["$target", "$backend"], false, none⟩,
    ⟨0, "location", ["/"], true, none⟩,
    ⟨3, "set", ["$backend", "$target"], false, none⟩,
    ⟨3, "proxy_pass", ["http://$backend"], false, none⟩]
  rootLine := none
  parent_le := by decide

theorem governs_shadowedBackend :
    shadowedBackend.Governs "backend" 5 4 ∧
      shadowedBackend.Governs "target" 4 2 ∧
      shadowedBackend.Governs "backend" 2 1 := by
  simp only [← assignment?_eq_some_iff]
  decide +kernel

theorem segments_shadowedBackend :
    segments "$target" = .ok [.variable "target"] ∧
      segments "$backend" = .ok [.variable "backend"] ∧
      segments "api.example.com" = .ok [.literal "api.example.com"] := by
  decide +kernel

theorem ways_shadowedBackend {visits : List (String × Nat)} {last : String}
    {seen : Nat}
    (leads : shadowedBackend.LeadsTo "backend" 5 visits last seen) :
    (visits, last, seen) ∈
      [([], "backend", 5), ([("backend", 4)], "target", 4),
        ([("backend", 4), ("target", 2)], "backend", 2)] := by
  obtain ⟨inner, target, outer⟩ := governs_shadowedBackend
  obtain ⟨innerCut, targetCut, outerCut⟩ := segments_shadowedBackend
  rcases leads.cases_of_governs inner rfl innerCut with
    ⟨rfl, rfl, rfl⟩ | ⟨next, later, member, rfl, leads⟩
  · simp
  · obtain rfl : next = "target" := by simpa using member
    rcases leads.cases_of_governs target rfl targetCut with
      ⟨rfl, rfl, rfl⟩ | ⟨next, later, member, rfl, leads⟩
    · simp
    · obtain rfl : next = "backend" := by simpa using member
      rcases leads.cases_of_governs outer rfl outerCut with
        ⟨rfl, rfl, rfl⟩ | ⟨next, later, member, rfl, leads⟩
      · simp
      · simp at member

theorem traceable_shadowedBackend : shadowedBackend.Traceable "backend" 5 := by
  refine traceable_of_continues fun visits last seen leads => ?_
  have way := ways_shadowedBackend leads
  simp only [List.mem_cons, Prod.mk.injEq, List.not_mem_nil, or_false] at way
  rcases way with ⟨rfl, rfl, rfl⟩ | ⟨rfl, rfl, rfl⟩ | ⟨rfl, rfl, rfl⟩
  · exact ⟨4, "$target", [.variable "target"],
      by constructor <;> decide +kernel⟩
  · exact ⟨2, "$backend", [.variable "backend"],
      by constructor <;> decide +kernel⟩
  · exact ⟨1, "api.example.com", [.literal "api.example.com"],
      by constructor <;> decide +kernel⟩

theorem folds_shadowedBackend :
    shadowedBackend.Folds "backend" 5 "api.example.com" := by
  obtain ⟨inner, target, outer⟩ := governs_shadowedBackend
  obtain ⟨innerCut, targetCut, outerCut⟩ := segments_shadowedBackend
  have backend : Variable.Assignable "backend" := by decide +kernel
  have renamed : Variable.Assignable "target" := by decide +kernel
  have derivation : shadowedBackend.Folds "backend" 5 _ :=
    ⟨.assigned backend inner rfl innerCut <| .mention
      (.assigned renamed target rfl targetCut <| .mention
        (.assigned backend outer rfl outerCut <|
          .literal "api.example.com" .done) .done) .done⟩
  simpa using derivation

/-- No way comes back to an assignment, and the value can be followed, but the
name is met twice and so nothing is known of the variable. -/
theorem shadowedBackend_unknown :
    segments "$backend" = .ok [.variable "backend"] ∧
      shadowedBackend.Traceable "backend" 5 ∧
      shadowedBackend.Folds "backend" 5 "api.example.com" ∧
      shadowedBackend.compile 5 "$backend" =
        .ok [⟨.variable "backend", none⟩] :=
  ⟨segments_shadowedBackend.2.1, traceable_shadowedBackend,
    folds_shadowedBackend, by decide +kernel⟩

end ConfigTree

end ProxyLint
