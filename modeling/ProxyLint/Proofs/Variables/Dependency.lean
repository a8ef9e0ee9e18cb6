import ProxyLint.Proofs.Variables.Folding

/-!
# What a text depends on

A text depends on the variables that it mentions, and on the variables that
are mentioned in the assigned texts of variables it depends on.  A single
variable of unknown value anywhere among them leaves the whole text unknown,
however long the way to it is.
-/

namespace ProxyLint

/-- A text mentions a variable. -/
def Script.Mentions (text name : String) : Prop :=
  ∃ parts, segments text = .ok parts ∧ .variable name ∈ parts

namespace Variable

/-- The value of a variable comes with the request: its name, whatever the
case of its letters, is a listed name or begins as a family of names does. -/
inductive IsRequestVariable (name : String) : Prop where
  | single {known : String} (listed : known ∈ requestNames)
      (same : Text.lowerAscii name = known)
  | member {family rest : String} (listed : family ∈ requestFamilies)
      (begins : Text.lowerAscii name = family ++ rest)

theorem isBuiltin_iff {name : String} :
    isBuiltin name = true ↔ IsRequestVariable name := by
  simp only [isBuiltin, Bool.or_eq_true, List.contains_eq_mem,
    decide_eq_true_eq, List.any_eq_true, List.isPrefixOf_iff_prefix]
  constructor
  · rintro (listed | ⟨family, listed, rest, begins⟩)
    · exact .single listed rfl
    · have written : Text.lowerAscii name = family ++ String.ofList rest :=
        String.toList_inj.1 (by simp [← begins])
      exact .member listed written
  · rintro (⟨listed, rfl⟩ | @⟨family, rest, listed, begins⟩)
    · exact .inl listed
    · exact .inr ⟨family, listed, rest.toList, by simp [begins]⟩

end Variable

namespace ConfigTree

/-- A text that is seen from a directive depends on a variable, which is seen
from that directive or from an assignment on the way. -/
inductive DependsOn (tree : ConfigTree) (scope : Nat) (text : String) :
    String → Nat → Prop where
  | mention {name : String} (mentioned : Script.Mentions text name) :
      DependsOn tree scope text name scope
  | assigned {name middle value : String} {seen assignment : Nat}
      (depends : DependsOn tree scope text middle seen)
      (assignable : Variable.Assignable middle)
      (governs : tree.Governs middle seen assignment)
      (given : tree.assignedText? assignment = some value)
      (mentioned : Script.Mentions value name) :
      DependsOn tree scope text name assignment

/-- The reasons why a variable has no value before a request. -/
inductive Unknowable (tree : ConfigTree) (name : String) (seen : Nat) :
    Prop where
  | request (provided : Variable.IsRequestVariable name)
  | capture (numbered : ∀ character ∈ name.toList, character.isDigit = true)
  | unassigned (nowhere : ∀ block ∈ tree.enclosing seen, ∀ assignment,
      ¬ tree.AssignsIn name block assignment)
  | valueless {assignment : Nat} (governs : tree.Governs name seen assignment)
      (missing : tree.assignedText? assignment = none)
  | unreadable {assignment : Nat} {value : String} {error : ScriptError}
      (governs : tree.Governs name seen assignment)
      (given : tree.assignedText? assignment = some value)
      (broken : segments value = .error error)

end ConfigTree

/-- If a script has a text, all variables in it have values. -/
theorem ScriptDerivation.folds_of_mem {tree : ConfigTree} {scope : Nat}
    {parts : List Segment} {value name : String} :
    ScriptDerivation tree scope parts value → .variable name ∈ parts →
      ∃ folded, tree.Folds name scope folded
  | .done, member => by cases member
  | .literal _ rest, member => by
      rcases List.mem_cons.1 member with other | member
      · cases other
      · exact rest.folds_of_mem member
  | .mention head rest, member => by
      rcases List.mem_cons.1 member with same | member
      · cases same
        exact ⟨_, ⟨head⟩⟩
      · exact rest.folds_of_mem member

namespace ConfigTree

variable {tree : ConfigTree} {scope seen : Nat} {text name : String}

/-- If a text is known, so are all variables that it depends on, because a
derivation of its value has derivations for them as parts. -/
theorem DependsOn.folds {parts : List Segment} {value : String}
    (depends : tree.DependsOn scope text name seen)
    (cut : segments text = .ok parts)
    (script : ScriptDerivation tree scope parts value) :
    ∃ folded, tree.Folds name seen folded := by
  induction depends with
  | mention mentioned =>
      obtain ⟨same, sameCut, member⟩ := mentioned
      obtain rfl := Except.ok.inj (cut.symm.trans sameCut)
      exact script.folds_of_mem member
  | assigned _ _ governs given mentioned ih =>
      obtain ⟨_, ⟨derivation⟩⟩ := ih
      obtain ⟨pieces, mentionCut, member⟩ := mentioned
      cases derivation with
      | assigned _ otherGoverns otherGiven otherCut inner =>
          obtain rfl := governs.unique otherGoverns
          obtain rfl := Option.some.inj (given.symm.trans otherGiven)
          obtain rfl := Except.ok.inj (mentionCut.symm.trans otherCut)
          exact inner.folds_of_mem member

/-- A variable has a text if an assignment with a readable text counts for
it. -/
theorem not_unknowable_of_governs {assignment : Nat} {value : String}
    {parts : List Segment} (assignable : Variable.Assignable name)
    (governs : tree.Governs name seen assignment)
    (given : tree.assignedText? assignment = some value)
    (cut : segments value = .ok parts) : ¬ tree.Unknowable name seen := by
  intro unknowable
  cases unknowable with
  | request provided =>
      rw [← Variable.isBuiltin_iff, assignable.1] at provided
      cases provided
  | capture numbered =>
      have capture : Variable.isCapture name = true :=
        List.all_eq_true.2 numbered
      rw [assignable.2] at capture
      cases capture
  | unassigned nowhere =>
      obtain ⟨nearer, block, outer, around, _, assigns, _⟩ := governs
      refine nowhere block ?_ _ assigns
      rw [around]
      exact List.mem_append_right _ List.mem_cons_self
  | valueless otherGoverns missing =>
      obtain rfl := governs.unique otherGoverns
      rw [missing] at given
      cases given
  | unreadable otherGoverns otherGiven broken =>
      obtain rfl := governs.unique otherGoverns
      obtain rfl := Option.some.inj (given.symm.trans otherGiven)
      rw [broken] at cut
      cases cut

theorem Unknowable.not_folds {value : String}
    (unknowable : tree.Unknowable name seen) :
    ¬ tree.Folds name seen value := by
  rintro ⟨derivation⟩
  cases derivation with
  | assigned assignable governs given cut _ =>
      exact not_unknowable_of_governs assignable governs given cut unknowable

/-- A host is not known if its text cannot be read or depends on a variable
that has no value before a request. -/
theorem resolveHost_ne_resolved
    (unknown : (∃ error, segments text = .error error) ∨
      ∃ name seen, tree.DependsOn scope text name seen ∧
        tree.Unknowable name seen) (host : String) :
    tree.resolveHost scope text ≠ .resolved host := by
  intro resolved
  rcases unknown with ⟨error, broken⟩ | ⟨name, seen, depends, unknowable⟩
  · simp [resolveHost, compile, broken] at resolved
  · cases cut : segments text with
    | error error => simp [resolveHost, compile, cut] at resolved
    | ok parts =>
        obtain ⟨script, _⟩ := (resolveHost_iff_derivation cut).1 resolved
        obtain ⟨_, folds⟩ := depends.folds cut script
        exact unknowable.not_folds folds

end ConfigTree

end ProxyLint
