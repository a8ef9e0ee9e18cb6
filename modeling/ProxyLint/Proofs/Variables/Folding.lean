import ProxyLint.Proofs.Variables.Derivation

/-!
# Folding finds the derivable values

Folding follows assignments through a bounded number of variables and keeps a
list of the variables in progress.  The main statement is that a variable gets
a value exactly when there is a derivation of that value of height at most
eight in which no branch mentions a variable twice.
-/

namespace ProxyLint

namespace ConfigTree

/-- If variables fold as their bounded derivations say, so do scripts. -/
theorem concatenate?_eq_some_iff {tree : ConfigTree} {scope depth : Nat}
    {visiting : List String} {variableValue : String → Option String}
    (exact_variables : ∀ name value, variableValue name = some value ↔
      ∃ derivation : Derivation tree name scope value,
        derivation.height ≤ depth ∧
          AvoidsRepeats visiting derivation.branches)
    (parts : List Segment) (value : String) :
    concatenate? (parts.map (Segment.value? variableValue)) = some value ↔
      ∃ script : ScriptDerivation tree scope parts value,
        script.height ≤ depth ∧ AvoidsRepeats visiting script.branches := by
  induction parts generalizing value with
  | nil =>
      constructor
      · intro joined
        obtain rfl : "" = value := Option.some.inj joined
        exact ⟨.done, Nat.zero_le _, by simp [ScriptDerivation.branches,
          AvoidsRepeats]⟩
      · rintro ⟨script, _⟩
        cases script
        rfl
  | cons part parts ih =>
      rcases part with fragment | name
      · simp only [List.map_cons, Segment.value?, concatenate?,
          Option.map_eq_map, Option.map_eq_some_iff, ih]
        constructor
        · rintro ⟨rest, ⟨script, bounded, avoids⟩, rfl⟩
          exact ⟨.literal fragment script, bounded, avoids⟩
        · rintro ⟨script, bounded, avoids⟩
          cases script with
          | literal _ rest => exact ⟨_, ⟨rest, bounded, avoids⟩, rfl⟩
      · constructor
        · intro joined
          cases known : variableValue name with
          | none => simp [Segment.value?, known, concatenate?] at joined
          | some headValue =>
              simp only [List.map_cons, Segment.value?, known, concatenate?,
                Option.map_eq_map, Option.map_eq_some_iff, ih] at joined
              obtain ⟨rest, ⟨script, bounded, avoids⟩, rfl⟩ := joined
              obtain ⟨head, headBounded, headAvoids⟩ :=
                (exact_variables name headValue).1 known
              exact ⟨.mention head script,
                Nat.max_le.2 ⟨headBounded, bounded⟩,
                avoidsRepeats_append.2 ⟨headAvoids, avoids⟩⟩
        · rintro ⟨script, bounded, avoids⟩
          cases script with
          | mention head rest =>
              have bounds := Nat.max_le.1 bounded
              have avoidsBoth := avoidsRepeats_append.1 avoids
              have known := (exact_variables name _).2
                ⟨head, bounds.1, avoidsBoth.1⟩
              have joined := (ih _).2 ⟨rest, bounds.2, avoidsBoth.2⟩
              simp only [List.map_cons, Segment.value?, known, concatenate?,
                joined, Option.map_eq_map, Option.map_some]

/-- Folding with a bound and a list of variables in progress finds a value
exactly if there is a derivation within the bound that avoids them. -/
theorem foldVariable_eq_some_iff (tree : ConfigTree) (depth : Nat)
    (visiting : List String) (scope : Nat) (name value : String) :
    tree.foldVariable depth visiting scope name = some value ↔
      ∃ derivation : Derivation tree name scope value,
        derivation.height ≤ depth ∧
          AvoidsRepeats visiting derivation.branches := by
  induction depth generalizing visiting scope name value with
  | zero =>
      constructor
      · intro found
        simp [foldVariable] at found
      · rintro ⟨derivation, bounded, _⟩
        cases derivation
        simp [Derivation.height] at bounded
  | succ depth ih =>
      rw [foldVariable]
      split
      next unknown =>
        constructor
        · intro found
          cases found
        · rintro ⟨derivation, _, avoids⟩
          cases derivation with
          | assigned assignable governs given cut script =>
              have unvisited :=
                ((Derivation.avoidsRepeats_assigned ..).1 avoids).1
              simp [assignable.1, assignable.2, unvisited] at unknown
      next known =>
        simp only [Bool.or_eq_true, not_or, Bool.not_eq_true,
          List.contains_eq_mem, decide_eq_false_iff_not] at known
        obtain ⟨⟨notBuiltin, notCapture⟩, unvisited⟩ := known
        -- In the assigned text this variable is one of those in progress.
        have scripts (assignment : Nat) (parts : List Segment)
            (value : String) :
            concatenate? (parts.map (Segment.value?
              (tree.foldVariable depth (name :: visiting) assignment))) =
                some value ↔
              ∃ script : ScriptDerivation tree assignment parts value,
                script.height ≤ depth ∧
                  AvoidsRepeats (name :: visiting) script.branches :=
          concatenate?_eq_some_iff
            (fun other value => ih (name :: visiting) assignment other value)
            parts value
        simp only [Option.bind_eq_bind, Option.bind_eq_some_iff,
          assignment?_eq_some_iff, toOption_segments, scripts]
        constructor
        · rintro ⟨assignment, governs, text, given, parts, cut, script,
            bounded, avoids⟩
          exact ⟨.assigned ⟨notBuiltin, notCapture⟩ governs given cut script,
            Nat.succ_le_succ bounded,
            (Derivation.avoidsRepeats_assigned ..).2 ⟨unvisited, avoids⟩⟩
        · rintro ⟨derivation, bounded, avoids⟩
          cases derivation with
          | assigned assignable governs given cut script =>
              exact ⟨_, governs, _, given, _, cut, script,
                Nat.le_of_succ_le_succ bounded,
                ((Derivation.avoidsRepeats_assigned ..).1 avoids).2⟩

theorem variableValue_eq_some_iff (tree : ConfigTree) (scope : Nat)
    (name value : String) :
    tree.variableValue scope name = some value ↔
      ∃ derivation : Derivation tree name scope value,
        derivation.height ≤ 8 ∧
          ∀ branch ∈ derivation.branches, branch.Nodup := by
  simp [variableValue, foldVariable_eq_some_iff, Variable.chainLimit,
    AvoidsRepeats]

theorem compile_of_segments {tree : ConfigTree} {scope : Nat} {text : String}
    {parts : List Segment} (cut : segments text = .ok parts) :
    tree.compile scope text = .ok (parts.map fun segment =>
      ⟨segment, segment.value? (tree.variableValue scope)⟩) := by
  simp [compile, cut]

theorem resolveHost_eq_resolved_iff {tree : ConfigTree} {scope : Nat}
    {text host : String} {compiled : List FoldedSegment}
    (known : tree.compile scope text = .ok compiled) :
    tree.resolveHost scope text = .resolved host ↔
      concatenate? (compiled.map FoldedSegment.value) = some host := by
  simp only [resolveHost, known]
  cases concatenate? (compiled.map FoldedSegment.value) <;> simp

/-- A text without variables is taken as it is written. -/
theorem resolveHost_of_no_dollar {tree : ConfigTree} {scope : Nat}
    {text : String} (plain : '$' ∉ text.toList) (nonempty : text ≠ "") :
    tree.resolveHost scope text = .resolved text := by
  have cut := segments_of_no_dollar plain nonempty
  rw [resolveHost_eq_resolved_iff (compile_of_segments cut)]
  simp [concatenate?, Segment.value?]

/-- A host is known exactly if its script has a bounded derivation. -/
theorem resolveHost_iff_derivation {tree : ConfigTree} {scope : Nat}
    {text host : String} {parts : List Segment}
    (cut : segments text = .ok parts) :
    tree.resolveHost scope text = .resolved host ↔
      ∃ script : ScriptDerivation tree scope parts host,
        script.height ≤ 8 ∧ AvoidsRepeats [] script.branches := by
  rw [resolveHost_eq_resolved_iff (compile_of_segments cut), List.map_map]
  exact concatenate?_eq_some_iff
    (fun name value => tree.foldVariable_eq_some_iff 8 [] scope name value)
    parts host

end ConfigTree

/-- A script has a text if all its segments have values. -/
theorem concatenate?_eq_join_iff {values : List (Option String)}
    {text : String} :
    concatenate? values = some text ↔
      ∃ known : List String,
        values = known.map some ∧ text = String.join known := by
  induction values generalizing text with
  | nil =>
      constructor
      · intro joined
        exact ⟨[], rfl, (Option.some.inj joined).symm⟩
      · rintro ⟨known, same, rfl⟩
        rw [List.map_eq_nil_iff.1 same.symm]
        rfl
  | cons value values ih =>
      cases value with
      | none =>
          constructor
          · intro joined
            cases joined
          · rintro ⟨_ | ⟨head, known⟩, same, _⟩ <;> cases same
      | some value =>
          simp only [concatenate?, Option.map_eq_map, Option.map_eq_some_iff,
            ih]
          constructor
          · rintro ⟨_, ⟨known, rfl, rfl⟩, rfl⟩
            exact ⟨value :: known, rfl, String.join_cons.symm⟩
          · rintro ⟨_ | ⟨head, known⟩, same, rfl⟩
            · cases same
            · cases same
              exact ⟨_, ⟨known, rfl, rfl⟩, String.join_cons.symm⟩

namespace ConfigTree

/-- Folding the variables of a script.  Every literal fragment has itself as
its value.  A variable has a value exactly if that value has a derivation of
height at most eight without repeats, and no two values can be derived.  A
host is known exactly if all its segments are, and then it is their
concatenation, in which no dollar sign is left. -/
theorem compile_eq_bounded_derivations (tree : ConfigTree) (scope : Nat)
    (text : String) (parts : List Segment) (cut : segments text = .ok parts) :
    ∃ compiled, tree.compile scope text = .ok compiled ∧
      compiled.map FoldedSegment.segment = parts ∧
      (∀ fragment value, ⟨.literal fragment, value⟩ ∈ compiled →
        value = some fragment) ∧
      (∀ name known, ⟨.variable name, known⟩ ∈ compiled →
        (∀ value, known = some value ↔
          ∃ derivation : Derivation tree name scope value,
            derivation.height ≤ 8 ∧
              ∀ branch ∈ derivation.branches, branch.Nodup) ∧
        (known = none ↔
          ∀ value (derivation : Derivation tree name scope value),
            derivation.height ≤ 8 →
              ∃ branch ∈ derivation.branches, ¬ branch.Nodup) ∧
        ∀ value other, tree.Folds name scope value →
          tree.Folds name scope other → value = other) ∧
      (∀ name value (derivation : Derivation tree name scope value),
        derivation.height ≤ 8 ↔
          ∀ branch ∈ derivation.branches, branch.length ≤ 8) ∧
      (∀ host, tree.resolveHost scope text = .resolved host ↔
        ∃ values, compiled.map FoldedSegment.value = values.map some ∧
          host = String.join values) ∧
      ∀ host, tree.resolveHost scope text = .resolved host →
        '$' ∉ host.toList := by
  have known : tree.compile scope text = .ok _ := compile_of_segments cut
  refine ⟨_, known, ?_, ?_, ?_, ?_, ?_, ?_⟩
  · rw [List.map_map]
    exact List.map_id parts
  · intro fragment value member
    obtain ⟨segment, _, same⟩ := List.mem_map.1 member
    cases same
    rfl
  · intro name known member
    obtain ⟨segment, _, same⟩ := List.mem_map.1 member
    cases same
    have exact_value := tree.variableValue_eq_some_iff scope name
    refine ⟨exact_value, ?_, fun value other => Folds.unique⟩
    rw [Segment.value?, Option.eq_none_iff_forall_not_mem]
    simp only [Option.mem_def, exact_value, not_exists, not_and, not_forall]
    simp only [exists_prop]
  · exact fun name value derivation => derivation.height_le_iff 8
  · intro host
    rw [resolveHost_eq_resolved_iff known, concatenate?_eq_join_iff]
  · intro host resolved
    obtain ⟨script, _⟩ := (resolveHost_iff_derivation cut).1 resolved
    exact script.no_dollar (freeOfDollar_of_segments cut)

/-- A backend whose host is assigned in two steps, and a directive that passes
requests on to it. -/
def relayedBackend : ConfigTree where
  directives := #[
    ⟨0, "set", ["$zone", "example.com"], false, none⟩,
    ⟨0, "set", ["$backend", "api.$zone"], false, none⟩,
    ⟨0, "proxy_pass", ["http://$backend"], false, none⟩]
  rootLine := none
  parent_le := by decide

theorem relayedBackend_derivation :
    segments "$backend" = .ok [.variable "backend"] ∧
      ∃ derivation : Derivation relayedBackend "backend" 3 "api.example.com",
        derivation.height ≤ 8 ∧
          ∀ branch ∈ derivation.branches, branch.Nodup := by
  have cut : segments "$backend" = .ok [.variable "backend"] := by
    decide +kernel
  refine ⟨cut, ?_⟩
  obtain ⟨compiled, known, _, _, mentions, _⟩ :=
    compile_eq_bounded_derivations relayedBackend 3 "$backend" _ cut
  have evaluated : relayedBackend.compile 3 "$backend" =
      .ok [⟨.variable "backend", some "api.example.com"⟩] := by
    decide +kernel
  obtain rfl := Except.ok.inj (known.symm.trans evaluated)
  exact ((mentions "backend" _ List.mem_cons_self).1 _).1 rfl

end ConfigTree

end ProxyLint
