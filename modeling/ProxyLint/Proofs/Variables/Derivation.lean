import ProxyLint.Proofs.Variables.Assignment
import ProxyLint.Proofs.Variables.Script

/-!
# Derivations of variable values

What a variable stands for is said here without any search: its value is
derived from the assignment that counts, together with derivations for all
variables that the assigned text mentions.  Derivations may be of any height
and may use a variable on the way to its own value.  All derivations for one
variable give the same value, and no value has a dollar sign.
-/

namespace ProxyLint

/-- Whether a name can be assigned a value that is known before any request. -/
def Variable.Assignable (name : String) : Prop :=
  isBuiltin name = false ∧ isCapture name = false

instance (name : String) : Decidable (Variable.Assignable name) :=
  inferInstanceAs (Decidable (_ ∧ _))

mutual

/-- A derivation of the value of a variable as seen from a directive. -/
inductive Derivation (tree : ConfigTree) : String → Nat → String → Type where
  | assigned {name : String} {scope assignment : Nat} {text value : String}
      {parts : List Segment} (assignable : Variable.Assignable name)
      (governs : tree.Governs name scope assignment)
      (given : tree.assignedText? assignment = some text)
      (cut : segments text = .ok parts)
      (script : ScriptDerivation tree assignment parts value) :
      Derivation tree name scope value

/-- A derivation of the text of a script as seen from a directive. -/
inductive ScriptDerivation (tree : ConfigTree) :
    Nat → List Segment → String → Type where
  | done {scope : Nat} : ScriptDerivation tree scope [] ""
  | literal {scope : Nat} {parts : List Segment} {value : String}
      (fragment : String) (rest : ScriptDerivation tree scope parts value) :
      ScriptDerivation tree scope (.literal fragment :: parts)
        (fragment ++ value)
  | mention {scope : Nat} {parts : List Segment}
      {name headValue value : String}
      (head : Derivation tree name scope headValue)
      (rest : ScriptDerivation tree scope parts value) :
      ScriptDerivation tree scope (.variable name :: parts)
        (headValue ++ value)

end

mutual

/-- The number of variables on the longest branch. -/
def Derivation.height {tree : ConfigTree} {name value : String} {scope : Nat} :
    Derivation tree name scope value → Nat
  | .assigned _ _ _ _ script => script.height + 1

def ScriptDerivation.height {tree : ConfigTree} {scope : Nat}
    {parts : List Segment} {value : String} :
    ScriptDerivation tree scope parts value → Nat
  | .done => 0
  | .literal _ rest => rest.height
  | .mention head rest => max head.height rest.height

end

mutual

/-- The names on the way from the variable to each leaf of a derivation. -/
def Derivation.branches {tree : ConfigTree} {name value : String}
    {scope : Nat} : Derivation tree name scope value → List (List String)
  | .assigned _ _ _ _ script =>
      match script.branches with
      | [] => [[name]]
      | branches => branches.map (name :: ·)

def ScriptDerivation.branches {tree : ConfigTree} {scope : Nat}
    {parts : List Segment} {value : String} :
    ScriptDerivation tree scope parts value → List (List String)
  | .done => []
  | .literal _ rest => rest.branches
  | .mention head rest => head.branches ++ rest.branches

end

namespace ConfigTree

/-- A variable folds to a value, through assignments in any number. -/
def Folds (tree : ConfigTree) (name : String) (scope : Nat) (value : String) :
    Prop :=
  Nonempty (Derivation tree name scope value)

end ConfigTree

mutual

theorem Derivation.value_unique {tree : ConfigTree} {name : String}
    {scope : Nat} {value other : String} :
    Derivation tree name scope value → Derivation tree name scope other →
      value = other
  | .assigned _ governs given cut script,
    .assigned _ otherGoverns otherGiven otherCut otherScript => by
      obtain rfl := governs.unique otherGoverns
      obtain rfl := Option.some.inj (given.symm.trans otherGiven)
      obtain rfl := Except.ok.inj (cut.symm.trans otherCut)
      exact script.value_unique otherScript

theorem ScriptDerivation.value_unique {tree : ConfigTree} {scope : Nat}
    {parts : List Segment} {value other : String} :
    ScriptDerivation tree scope parts value →
      ScriptDerivation tree scope parts other → value = other
  | .done, .done => rfl
  | .literal fragment rest, .literal _ otherRest =>
      congrArg (fragment ++ ·) (rest.value_unique otherRest)
  | .mention head rest, .mention otherHead otherRest => by
      rw [head.value_unique otherHead, rest.value_unique otherRest]

end

/-- A variable folds to one value only. -/
theorem ConfigTree.Folds.unique {tree : ConfigTree} {name : String}
    {scope : Nat} {value other : String} (folds : tree.Folds name scope value)
    (otherFolds : tree.Folds name scope other) : value = other := by
  obtain ⟨derivation⟩ := folds
  obtain ⟨otherDerivation⟩ := otherFolds
  exact derivation.value_unique otherDerivation

/-- No branch mentions a variable twice or one of the given variables. -/
def AvoidsRepeats (visiting : List String) (branches : List (List String)) :
    Prop :=
  ∀ branch ∈ branches, branch.Nodup ∧ ∀ name ∈ branch, name ∉ visiting

theorem avoidsRepeats_append {visiting : List String}
    {first second : List (List String)} :
    AvoidsRepeats visiting (first ++ second) ↔
      AvoidsRepeats visiting first ∧ AvoidsRepeats visiting second := by
  simp only [AvoidsRepeats, List.forall_mem_append]

/-- Putting a variable in front of all branches makes it one of the variables
to avoid further down. -/
theorem avoidsRepeats_map_cons {visiting : List String} {name : String}
    {branches : List (List String)} (nonempty : branches ≠ []) :
    AvoidsRepeats visiting (branches.map (name :: ·)) ↔
      name ∉ visiting ∧ AvoidsRepeats (name :: visiting) branches := by
  simp only [AvoidsRepeats, List.forall_mem_map, List.nodup_cons,
    List.forall_mem_cons]
  simp only [List.mem_cons, not_or]
  constructor
  · intro avoids
    obtain ⟨branch, member⟩ := List.exists_mem_of_ne_nil branches nonempty
    refine ⟨(avoids branch member).2.1, fun branch member => ?_⟩
    obtain ⟨⟨fresh, distinct⟩, _, unvisited⟩ := avoids branch member
    refine ⟨distinct, fun other mentioned => ⟨?_, unvisited other mentioned⟩⟩
    rintro rfl
    exact fresh mentioned
  · rintro ⟨unvisited, avoids⟩ branch member
    obtain ⟨distinct, avoided⟩ := avoids branch member
    exact ⟨⟨fun mentioned => (avoided name mentioned).1 rfl, distinct⟩,
      unvisited, fun other mentioned => (avoided other mentioned).2⟩

/-- The branches of a derivation avoid a list of variables if the branches of
its script also avoid the variable itself. -/
theorem Derivation.avoidsRepeats_assigned {tree : ConfigTree}
    {visiting : List String} {name : String} {scope assignment : Nat}
    {text value : String} {parts : List Segment}
    (assignable : Variable.Assignable name)
    (governs : tree.Governs name scope assignment)
    (given : tree.assignedText? assignment = some text)
    (cut : segments text = .ok parts)
    (script : ScriptDerivation tree assignment parts value) :
    AvoidsRepeats visiting
        (Derivation.assigned assignable governs given cut script).branches ↔
      name ∉ visiting ∧ AvoidsRepeats (name :: visiting) script.branches := by
  rw [Derivation.branches]
  split
  next leaf => simp [AvoidsRepeats, leaf]
  next nonempty => exact avoidsRepeats_map_cons nonempty

mutual

/-- The height is the length of the longest branch. -/
theorem Derivation.height_le_iff {tree : ConfigTree} {name value : String}
    {scope : Nat} (bound : Nat) :
    (derivation : Derivation tree name scope value) →
      (derivation.height ≤ bound ↔
        ∀ branch ∈ derivation.branches, branch.length ≤ bound)
  | .assigned assignable governs given cut script => by
      rw [Derivation.height, Derivation.branches]
      cases bound with
      | zero =>
          split
          next leaf => simp
          next nonempty =>
            obtain ⟨branch, member⟩ := List.exists_mem_of_ne_nil _ nonempty
            simp only [Nat.le_zero, Nat.add_one_ne_zero, false_iff]
            intro short
            have := short _ (List.mem_map_of_mem member)
            simp at this
      | succ bound =>
          rw [Nat.add_le_add_iff_right, script.height_le_iff bound]
          split
          next leaf => simp [leaf]
          next nonempty => simp

theorem ScriptDerivation.height_le_iff {tree : ConfigTree} {scope : Nat}
    {parts : List Segment} {value : String} (bound : Nat) :
    (script : ScriptDerivation tree scope parts value) →
      (script.height ≤ bound ↔
        ∀ branch ∈ script.branches, branch.length ≤ bound)
  | .done => by simp [ScriptDerivation.height, ScriptDerivation.branches]
  | .literal _ rest => by
      rw [ScriptDerivation.height, ScriptDerivation.branches]
      exact rest.height_le_iff bound
  | .mention head rest => by
      rw [ScriptDerivation.height, ScriptDerivation.branches, Nat.max_le,
        List.forall_mem_append, head.height_le_iff bound,
        rest.height_le_iff bound]

end

mutual

/-- Values are put together from literal fragments, which have no dollar
sign. -/
theorem Derivation.no_dollar {tree : ConfigTree} {name value : String}
    {scope : Nat} : Derivation tree name scope value → '$' ∉ value.toList
  | .assigned _ _ _ cut script =>
      script.no_dollar (freeOfDollar_of_segments cut)

theorem ScriptDerivation.no_dollar {tree : ConfigTree} {scope : Nat}
    {parts : List Segment} {value : String} :
    ScriptDerivation tree scope parts value →
      (∀ segment ∈ parts, Script.FreeOfDollar segment) → '$' ∉ value.toList
  | .done, _ => by simp
  | .literal fragment rest, free => by
      have plain : '$' ∉ fragment.toList := free (.literal fragment) (by simp)
      have later := rest.no_dollar fun segment member =>
        free segment (List.mem_cons_of_mem _ member)
      simp [plain, later]
  | .mention head rest, free => by
      have later := rest.no_dollar fun segment member =>
        free segment (List.mem_cons_of_mem _ member)
      simp [head.no_dollar, later]

end

end ProxyLint
