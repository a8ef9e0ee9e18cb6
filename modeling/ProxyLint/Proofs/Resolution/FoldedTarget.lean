import ProxyLint.Proofs.Hosts.TargetCut
import ProxyLint.Proofs.Resolution.Judgement
import ProxyLint.Proofs.Variables.Expansion

/-!
# Cutting a target and replacing its variables

A directive is judged by what the host of its target becomes when variables are
replaced.  The text of the whole target with its variables replaced need not be
cut at the same places: a value may bring in a scheme, a port or a path.  The
host of that text is the one that is judged exactly if the cut has stayed where
it was.
-/

namespace ProxyLint

open Script

namespace ProxyTarget

theorem dollar_not_mem_of_isBracketedText {host : List Char}
    (form : IsBracketedText host) : '$' ∉ host := by
  obtain ⟨inside, _, rfl, bracketed⟩ := form
  intro member
  simp only [List.mem_cons, List.mem_append, List.not_mem_nil, or_false]
    at member
  rcases member with impossible | member | impossible
  · cases impossible
  · exact absurd (bracketed '$' member) (by decide)
  · cases impossible

theorem dollar_not_mem_of_isScheme {scheme : List Char}
    (form : IsScheme scheme) : '$' ∉ scheme := by
  obtain ⟨first, later, rfl, starts, inside⟩ := form
  intro member
  rcases List.mem_cons.1 member with rfl | member
  · exact absurd starts (by decide)
  · exact absurd (inside '$' member) (by decide)

theorem endsVariable_of_endsHost {character : Char}
    (ends : endsHost character = true) : EndsVariable character := by
  have listed := endsHost_iff.1 ends
  simp only [List.mem_cons, List.not_mem_nil, or_false] at listed
  rcases listed with rfl | rfl | rfl | rfl <;> unfold EndsVariable <;> decide

variable {variableValue : String → Option String}

/-- The host of a target is replaced on its own, and is still followed by what
ends a host unless it is in brackets. -/
theorem HostCut.exists_expands {host after expanded : List Char}
    (cut : HostCut host after)
    (expands : Expands variableValue (host ++ after) expanded) :
    ∃ judged behind, expanded = judged ++ behind ∧
      Expands variableValue host judged ∧ (IsBracketedText judged ∨
        ∀ character ∈ behind.head?, endsHost character = true) := by
  cases cut with
  | bracketed form =>
      have plain := dollar_not_mem_of_isBracketedText form
      obtain ⟨behind, rfl, _⟩ := expands.of_plain_append plain
      exact ⟨host, behind, rfl, expands_of_plain plain, .inl form⟩
  | plain _ stops _ =>
      obtain ⟨judged, behind, rfl, head, tail⟩ := expands.cut
        fun character first => endsVariable_of_endsHost (stops character first)
      have unmentioned : after.head? ≠ some '$' := by
        intro first
        exact absurd (stops '$' first) (by decide)
      refine ⟨judged, behind, rfl, head, .inr ?_⟩
      rwa [tail.head?_eq unmentioned]

/-- The parts of a target after its variables have been replaced. -/
structure FoldedParts (target : ProxyTarget)
    (judged behind folded : List Char) : Prop where
  whole : folded = target.schemeText ++ (judged ++ behind)
  scheme_form : ∀ scheme, target.scheme = some scheme → IsScheme scheme.toList
  stops : IsBracketedText judged ∨
    ∀ character ∈ behind.head?, endsHost character = true

theorem IsCut.exists_foldedParts {text folded rest : List Char}
    {target : ProxyTarget} (cut : IsCut text target rest)
    (expands : Expands variableValue text folded) :
    ∃ judged behind, Expands variableValue target.host.toList judged ∧
      FoldedParts target judged behind folded := by
  have scheme_form : ∀ scheme, target.scheme = some scheme →
      IsScheme scheme.toList :=
    fun scheme given => ((cut.scheme_iff scheme).1 given).1
  have plain : '$' ∉ target.schemeText := by
    unfold schemeText
    split
    next => exact List.not_mem_nil
    next scheme given =>
      simpa using dollar_not_mem_of_isScheme (scheme_form scheme given)
  rw [cut.whole] at expands
  obtain ⟨inner, rfl, expandsInner⟩ := expands.of_plain_append plain
  obtain ⟨judged, behind, rfl, head, stops⟩ :=
    cut.host_cut.exists_expands expandsInner
  exact ⟨judged, behind, head, rfl, scheme_form, stops⟩

theorem schemeText_congr {target other : ProxyTarget}
    (same : target.scheme = other.scheme) :
    target.schemeText = other.schemeText := by
  rw [schemeText, schemeText, same]

theorem schemeText_of_some {target : ProxyTarget} {scheme : String}
    (given : target.scheme = some scheme) :
    target.schemeText = scheme.toList ++ [':', '/', '/'] := by
  rw [schemeText, given]

theorem schemeText_of_none {target : ProxyTarget}
    (missing : target.scheme = none) : target.schemeText = [] := by
  rw [schemeText, missing]

/-- The host that is judged is the one that the folded text is cut to.  Either
the folded text has the same scheme and its host is cut off behind the judged
part, or a variable has brought in a scheme which is the judged part and is
also the name of the host behind it. -/
def KeepsHost (target found : ProxyTarget) (judged behind : List Char) : Prop :=
  (found.scheme = target.scheme ∧ HostCut judged behind) ∨
    (target.scheme = none ∧ IsScheme judged ∧ ∃ after,
      behind = ':' :: '/' :: '/' :: (judged ++ after) ∧ HostCut judged after)

namespace FoldedParts

variable {target found : ProxyTarget} {judged behind folded rest : List Char}

/-- A scheme in front of a host stays the scheme. -/
theorem scheme_eq (parts : FoldedParts target judged behind folded)
    (cut : IsCut folded found rest) {after : List Char}
    (hosted : HostCut judged after) {scheme : String}
    (given : target.scheme = some scheme) : found.scheme = some scheme := by
  obtain ⟨first, later, rfl, begins⟩ := hosted.exists_cons
  refine (cut.scheme_iff scheme).2
    ⟨parts.scheme_form scheme given, first, later ++ behind, ?_, begins⟩
  rw [parts.whole, schemeText_of_some given]
  simp

/-- If a variable brings in a scheme that is followed by the judged host, then
the host and the scheme are the same word. -/
theorem eq_scheme (parts : FoldedParts target judged behind folded)
    (missing : target.scheme = none) {scheme after : List Char}
    (form : IsScheme scheme) (hosted : HostCut judged after)
    (whole : folded = scheme ++ ':' :: '/' :: '/' :: (judged ++ after)) :
    judged = scheme ∧ behind = ':' :: '/' :: '/' :: (judged ++ after) := by
  have split : judged ++ behind =
      scheme ++ ':' :: '/' :: '/' :: (judged ++ after) := by
    rw [← whole, parts.whole, schemeText_of_none missing, List.nil_append]
  have unbracketed : ¬ IsBracketedText judged := by
    rintro ⟨inside, _, rfl, _⟩
    obtain ⟨first, later, rfl, starts, _⟩ := form
    obtain ⟨rfl, _⟩ := List.cons.inj split
    exact absurd starts (by decide)
  have inside : ∀ character ∈ judged, endsHost character = false := by
    cases hosted with
    | bracketed bracketed => exact absurd bracketed unbracketed
    | plain plain _ _ => exact plain.2
  have stops := parts.stops.resolve_left unbracketed
  have marked : ∀ character ∈
      (':' :: '/' :: '/' :: (judged ++ after)).head?,
      endsHost character = true := by
    rintro character first
    obtain rfl := Option.some.inj first
    decide
  obtain ⟨taken, dropped⟩ := cut_at_endsHost inside stops
  obtain ⟨takenScheme, droppedScheme⟩ :=
    cut_at_endsHost (endsHost_of_isScheme form) marked
  rw [split] at taken dropped
  exact ⟨taken.symm.trans takenScheme, dropped.symm.trans droppedScheme⟩

/-- The folded text is cut to the host that is judged exactly if the cut has
stayed where it was. -/
theorem host_eq_iff (parts : FoldedParts target judged behind folded)
    (cut : IsCut folded found rest) :
    found.host.toList = judged ↔ KeepsHost target found judged behind := by
  have split := cut.whole
  constructor
  · intro same
    have hosted := cut.host_cut
    rw [same] at split hosted
    by_cases kept : found.scheme = target.scheme
    · rw [parts.whole, schemeText_congr kept] at split
      have after := List.append_cancel_left (List.append_cancel_left split)
      exact .inl ⟨kept, by rwa [after]⟩
    · cases given : target.scheme with
      | some scheme =>
          exact absurd ((parts.scheme_eq cut hosted given).trans given.symm)
            kept
      | none =>
          cases brought : found.scheme with
          | none => exact absurd (brought.trans given.symm) kept
          | some scheme =>
              have form := ((cut.scheme_iff scheme).1 brought).1
              rw [schemeText_of_some brought, List.append_assoc] at split
              obtain ⟨rfl, after⟩ :=
                parts.eq_scheme given form hosted split
              exact .inr ⟨given, form, _, after, hosted⟩
  · rintro (⟨kept, hosted⟩ | ⟨missing, form, after, rfl, hosted⟩)
    · rw [parts.whole, schemeText_congr kept] at split
      exact (hosted.unique cut.host_cut
        (List.append_cancel_left split)).1.symm
    · obtain ⟨first, later, same, begins⟩ := hosted.exists_cons
      have whole := parts.whole
      rw [schemeText_of_none missing, List.nil_append] at whole
      have brought : found.scheme = some (String.ofList judged) := by
        rw [cut.scheme_iff, String.toList_ofList]
        have begun : judged ++ after = first :: (later ++ after) := by
          rw [same, List.cons_append]
        exact ⟨form, first, later ++ after, by rw [whole, begun], begins⟩
      rw [whole, schemeText_of_some brought, String.toList_ofList,
        List.append_assoc] at split
      have tails := List.append_cancel_left split
      simp only [List.cons_append, List.nil_append, List.cons.injEq,
        true_and] at tails
      exact (hosted.unique cut.host_cut tails).1.symm

end FoldedParts

end ProxyTarget

open ProxyTarget

namespace ConfigTree

/-- The host that is judged is the host part of the target with its variables
replaced.  It stands behind the scheme of the target in the folded text, and it
is the host of that text exactly if the cut has stayed where it was. -/
theorem judge_folded_target (tree : ConfigTree) (id : Nat)
    (raw folded : String) (target : ProxyTarget)
    (argument : tree.firstArgument? id = some raw)
    (extracted : extract raw = .ok target)
    (folds : tree.resolveHost id raw = .resolved folded) :
    ∃ judged behind,
      tree.resolveHost id target.host = .resolved judged ∧
      tree.judge id = tree.judgeHost id raw target judged ∧
      folded.toList = target.schemeText ++ (judged.toList ++ behind) ∧
      ∀ found, extract folded = .ok found →
        (found.host = judged ↔
          KeepsHost target found judged.toList behind) := by
  obtain ⟨rest, cut⟩ :=
    ofCharacters?_eq_some_iff.1 (extract_eq_ok_iff.1 extracted).2
  obtain ⟨characters, behind, expands, parts⟩ := cut.exists_foldedParts
    (resolveHost_eq_resolved_iff_expands.1 folds)
  obtain ⟨judged, rfl⟩ : ∃ judged, characters = String.toList judged :=
    ⟨String.ofList characters, String.toList_ofList.symm⟩
  have resolved : tree.resolveHost id target.host = .resolved judged :=
    resolveHost_eq_resolved_iff_expands.2 expands
  refine ⟨judged, behind, resolved,
    judge_eq_judgeHost argument extracted resolved, parts.whole, ?_⟩
  intro found recut
  obtain ⟨later, cutAgain⟩ :=
    ofCharacters?_eq_some_iff.1 (extract_eq_ok_iff.1 recut).2
  rw [← parts.host_eq_iff cutAgain]
  exact String.toList_inj.symm

/-- A backend with its port in one variable, and an address in brackets whose
inside is assigned to another one. -/
def variableBackends : ConfigTree where
  directives := #[
    ⟨0, "set", ["$backend", "api.example.com:8080"], false, some 1⟩,
    ⟨0, "set", ["$six", "::1"], false, some 2⟩,
    ⟨0, "proxy_pass", ["http://$backend"], false, some 3⟩,
    ⟨0, "proxy_pass", ["https://[$six]:8443/$six"], false, some 4⟩]
  rootLine := none
  parent_le := by decide

/-- Brackets around a variable hold an address once it is replaced. -/
theorem variableBackends_judged_in_brackets :
    variableBackends.judge 4 = variableBackends.judgeHost 4
        "https://[$six]:8443/$six" ⟨some "https", "[$six]", some "8443"⟩
        "[::1]" ∧
      ∃ behind, "https://[::1]:8443/::1".toList =
          "https://".toList ++ ("[::1]".toList ++ behind) ∧
        KeepsHost ⟨some "https", "[$six]", some "8443"⟩
          ⟨some "https", "[::1]", some "8443"⟩ "[::1]".toList behind := by
  obtain ⟨judged, behind, resolved, judgement, whole, kept⟩ :=
    judge_folded_target variableBackends 4 "https://[$six]:8443/$six"
      "https://[::1]:8443/::1" ⟨some "https", "[$six]", some "8443"⟩
      (by decide +kernel) (by decide +kernel) (by decide +kernel)
  have evaluated : variableBackends.resolveHost 4 "[$six]" =
      .resolved "[::1]" := by decide +kernel
  obtain rfl := HostResolution.resolved.inj (resolved.symm.trans evaluated)
  exact ⟨judgement, behind, whole, (kept _ (by decide +kernel)).1 rfl⟩

/-- A port that a variable brings in is judged as a part of the host. -/
theorem variableBackends_judged_with_port :
    variableBackends.firstArgument? 3 = some "http://$backend" ∧
      extract "http://$backend" = .ok ⟨some "http", "$backend", none⟩ ∧
      variableBackends.resolveHost 3 "http://$backend" =
        .resolved "http://api.example.com:8080" ∧
      extract "http://api.example.com:8080" =
        .ok ⟨some "http", "api.example.com", some "8080"⟩ ∧
      variableBackends.resolveHost 3 "$backend" ≠
        .resolved "api.example.com" := by
  refine ⟨?_, ?_, ?_, ?_, ?_⟩ <;> decide +kernel

end ConfigTree

end ProxyLint
