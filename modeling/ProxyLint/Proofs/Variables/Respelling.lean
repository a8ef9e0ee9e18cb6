import ProxyLint.Proofs.Configuration.Layout
import ProxyLint.Proofs.Variables.RespelledScript
import ProxyLint.Proofs.Variables.Transfer

/-!
# The case of letters in the names of variables

Whether a variable comes with the request does not depend on the case of the
letters in its name.  Names of other variables are compared letter by letter,
with the names that assignments declare and with those of the variables whose
values are being worked out.

The main statement compares two configurations and two texts that differ only
in the case of the names of variables.  If every assignment declares a changed
name in one configuration exactly when it declares it in the other, all values
are the same.  Without this they need not be.
-/

namespace ProxyLint

/-- The arguments of an assignment: the declared name may have other letters,
and so may the names in the assigned text. -/
inductive RespelledAssignment (changed : String → String → Prop) :
    List String → List String → Prop where
  | empty : RespelledAssignment changed [] []
  | assigns {declared spelled : String} {texts others : List String}
      (same : Text.lowerAscii declared = Text.lowerAscii spelled)
      (alike : List.Forall₂ (fun text other : String =>
        Script.Respelled changed text.toList other.toList) texts others) :
      RespelledAssignment changed (declared :: texts) (spelled :: others)

/-- The same directive, or an assignment with other letters in names. -/
structure Directive.Respelled (changed : String → String → Prop)
    (directive other : Directive) : Prop where
  same : other = { directive with arguments := other.arguments }
  arguments : if directive.name = "set" then
      RespelledAssignment changed directive.arguments other.arguments
    else other.arguments = directive.arguments

namespace Directive

variable {changed : String → String → Prop}

theorem respelled_assignment {arguments others : List String}
    (alike : RespelledAssignment changed arguments others) (parent : Nat)
    (opensBlock : Bool) (line : Option Nat) :
    Respelled changed ⟨parent, "set", arguments, opensBlock, line⟩
      ⟨parent, "set", others, opensBlock, line⟩ where
  same := rfl
  arguments := by rwa [if_pos rfl]

theorem respelled_self {directive : Directive}
    (unassigned : directive.name ≠ "set") :
    Respelled changed directive directive where
  same := rfl
  arguments := by rw [if_neg unassigned]

end Directive

namespace ConfigTree

/-- Two configurations that differ in the case of letters in the names of
variables. -/
def Respelled (changed : String → String → Prop) (tree other : ConfigTree) :
    Prop :=
  other.rootLine = tree.rootLine ∧
    List.Forall₂ (Directive.Respelled changed) tree.directives.toList
      other.directives.toList

/-- Each assignment declares a changed name in one configuration exactly if it
declares the name in the other. -/
def DeclaresAlike (changed : String → String → Prop)
    (tree other : ConfigTree) : Prop :=
  ∀ id, tree.name id = "set" → ∀ name spelled, changed name spelled →
    (tree.firstArgument? id = some ("$" ++ name) ↔
      other.firstArgument? id = some ("$" ++ spelled))

section Respelled

variable {changed : String → String → Prop} {tree other : ConfigTree}

theorem Respelled.size_eq (trees : tree.Respelled changed other) :
    other.size = tree.size := by
  simpa [size] using trees.2.length_eq.symm

theorem Respelled.find?_cases (trees : tree.Respelled changed other)
    (id : Nat) :
    (tree.find? id = none ∧ other.find? id = none) ∨
      ∃ directive respelled, tree.find? id = some directive ∧
        other.find? id = some respelled ∧
        directive.Respelled changed respelled := by
  cases id with
  | zero => exact .inl ⟨rfl, rfl⟩
  | succ index =>
      simp only [find?, ← Array.getElem?_toList]
      obtain ⟨length, each⟩ := List.forall₂_iff_get.1 trees.2
      by_cases bound : index < tree.directives.toList.length
      · have otherBound := length ▸ bound
        exact .inr ⟨_, _, List.getElem?_eq_getElem bound,
          List.getElem?_eq_getElem otherBound, each index bound otherBound⟩
      · have otherBound := length ▸ bound
        exact .inl ⟨List.getElem?_eq_none (Nat.le_of_not_lt bound),
          List.getElem?_eq_none (Nat.le_of_not_lt otherBound)⟩

theorem Respelled.parent?_eq (trees : tree.Respelled changed other)
    (id : Nat) : other.parent? id = tree.parent? id := by
  rcases trees.find?_cases id with ⟨missing, otherMissing⟩ |
    ⟨directive, respelled, found, otherFound, same, _⟩
  · rw [parent?, parent?, missing, otherMissing]
  · rw [parent?, parent?, found, otherFound, same]
    rfl

theorem Respelled.name_eq (trees : tree.Respelled changed other)
    (id : Nat) : other.name id = tree.name id := by
  rcases trees.find?_cases id with ⟨missing, otherMissing⟩ |
    ⟨directive, respelled, found, otherFound, same, _⟩
  · rw [name, name, missing, otherMissing]
  · rw [name, name, found, otherFound, same]
    rfl

theorem Respelled.enclosing_eq (trees : tree.Respelled changed other)
    (id : Nat) : other.enclosing id = tree.enclosing id := by
  rw [enclosing, enclosing.eq_def tree, trees.parent?_eq id]
  cases tree.parent? id with
  | none => rfl
  | some parent =>
      by_cases older : parent < id
      · simp [older, trees.enclosing_eq parent]
      · simp [older]
termination_by id

theorem Respelled.visible_eq (trees : tree.Respelled changed other)
    (kind : String) (scope : Nat) :
    other.visible kind scope = tree.visible kind scope := by
  have declared (block : Nat) :
      other.declaredIn kind block = tree.declaredIn kind block := by
    simp only [declaredIn, children, trees.size_eq, trees.parent?_eq,
      trees.name_eq]
  rw [visible, visible, trees.enclosing_eq, funext declared]

/-- The texts that an assignment gives differ in the letters of names only. -/
theorem Respelled.assignedText?_cases (trees : tree.Respelled changed other)
    {assignment : Nat} (kind : tree.name assignment = "set") :
    (tree.assignedText? assignment = none ∧
      other.assignedText? assignment = none) ∨
      ∃ text respelled, tree.assignedText? assignment = some text ∧
        other.assignedText? assignment = some respelled ∧
        Script.Respelled changed text.toList respelled.toList := by
  rcases trees.find?_cases assignment with ⟨missing, otherMissing⟩ |
    ⟨directive, respelled, found, otherFound, _, arguments⟩
  · left
    simp [assignedText?, ConfigTree.arguments, missing, otherMissing]
  · rw [name_of_find? found] at kind
    rw [if_pos kind] at arguments
    rw [assignedText?, assignedText?, arguments_of_find? found,
      arguments_of_find? otherFound]
    generalize directive.arguments = listed at arguments ⊢
    generalize respelled.arguments = otherListed at arguments ⊢
    cases arguments with
    | empty => exact .inl ⟨rfl, rfl⟩
    | assigns _ texts =>
        cases texts with
        | nil => exact .inl ⟨rfl, rfl⟩
        | cons first _ => exact .inr ⟨_, _, rfl, rfl, first⟩

/-- A changed name has the assignment that the name has. -/
theorem Respelled.assignment?_eq (trees : tree.Respelled changed other)
    (declares : tree.DeclaresAlike changed other) {name spelled : String}
    (allowed : changed name spelled) (scope : Nat) :
    other.assignment? spelled scope = tree.assignment? name scope := by
  have found : other.assignments spelled scope =
      tree.assignments name scope := by
    rw [assignments, assignments, trees.visible_eq]
    refine List.filter_congr fun declared member => ?_
    obtain ⟨_, _, _, kind⟩ := mem_visible.1 member
    rw [Bool.eq_iff_iff, beq_iff_eq, beq_iff_eq]
    exact (declares declared kind name spelled allowed).symm
  simp only [assignment?, found, trees.parent?_eq]

/-- The names whose values are being worked out are declared by assignments, in
both configurations by the same ones. -/
def VisitedAlike (tree other : ConfigTree) (visited otherVisited : String) :
    Prop :=
  ∃ id, tree.name id = "set" ∧
    tree.firstArgument? id = some ("$" ++ visited) ∧
    other.firstArgument? id = some ("$" ++ otherVisited)

theorem VisitedAlike.eq_iff (declares : tree.DeclaresAlike changed other)
    {visited otherVisited name spelled : String}
    (alike : tree.VisitedAlike other visited otherVisited)
    (allowed : changed name spelled) :
    name = visited ↔ spelled = otherVisited := by
  obtain ⟨id, kind, declared, otherDeclared⟩ := alike
  have same := declares id kind name spelled allowed
  rw [declared, otherDeclared, Option.some_inj, Option.some_inj] at same
  simpa [eq_comm] using same

theorem VisitedAlike.contains_eq (declares : tree.DeclaresAlike changed other)
    {visiting otherVisiting : List String} {name spelled : String}
    (alike : List.Forall₂ (tree.VisitedAlike other) visiting otherVisiting)
    (allowed : changed name spelled) :
    otherVisiting.contains spelled = visiting.contains name := by
  induction alike with
  | nil => rfl
  | cons here _ ih =>
      rw [List.contains_cons, List.contains_cons, ih, Bool.eq_iff_iff]
      simp [here.eq_iff declares allowed]

/-- The assignment that is found declares the name, in both configurations. -/
theorem visitedAlike_of_assignment?
    (declares : tree.DeclaresAlike changed other) {name spelled : String}
    (allowed : changed name spelled) {scope assignment : Nat}
    (found : tree.assignment? name scope = some assignment) :
    tree.VisitedAlike other name spelled := by
  obtain ⟨_, _, _, _, _, ⟨_, kind, declared⟩, _⟩ :=
    assignment?_eq_some_iff.1 found
  exact ⟨assignment, kind, declared,
    (declares assignment kind name spelled allowed).1 declared⟩

/-- By induction on the depth: the same assignments are followed, and the same
names are met again. -/
theorem Respelled.foldVariable_eq (trees : tree.Respelled changed other)
    (declares : tree.DeclaresAlike changed other) (depth : Nat)
    {visiting otherVisiting : List String} (scope : Nat)
    (visits : List.Forall₂ (tree.VisitedAlike other) visiting otherVisiting)
    {name spelled : String}
    (same : Text.lowerAscii name = Text.lowerAscii spelled)
    (allowed : changed name spelled) :
    other.foldVariable depth otherVisiting scope spelled =
      tree.foldVariable depth visiting scope name := by
  induction depth generalizing visiting otherVisiting scope name spelled with
  | zero => rfl
  | succ depth ih =>
      rw [foldVariable, foldVariable, trees.assignment?_eq declares allowed,
        VisitedAlike.contains_eq declares visits allowed,
        Variable.isBuiltin_eq_of_lowerAscii_eq same,
        Variable.isCapture_eq_of_lowerAscii_eq same]
      congr 1
      cases found : tree.assignment? name scope with
      | none => rfl
      | some assignment =>
          have visited := visitedAlike_of_assignment? declares allowed found
          obtain ⟨_, _, _, _, _, ⟨_, kind, _⟩, _⟩ :=
            assignment?_eq_some_iff.1 found
          simp only [Option.bind_eq_bind, Option.bind_some]
          rcases trees.assignedText?_cases kind with ⟨missing, otherMissing⟩ |
            ⟨text, respelled, given, otherGiven, texts⟩
          · rw [missing, otherMissing]
            rfl
          rw [given, otherGiven]
          -- The assigned texts are read from the same assignment, with one
          -- more name in progress.
          rcases texts.segments_cases with
            ⟨parts, others, cut, otherCut, alike⟩ | ⟨fault, cut, otherCut⟩
          · have values := Segment.map_value?_eq alike fun inner innerSpelled same
              allowed => ih assignment (.cons visited visits) same allowed
            simp [cut, otherCut, Except.toOption, values]
          · simp [cut, otherCut, Except.toOption]

theorem Respelled.variableValue_eq (trees : tree.Respelled changed other)
    (declares : tree.DeclaresAlike changed other) (scope : Nat)
    {name spelled : String}
    (same : Text.lowerAscii name = Text.lowerAscii spelled)
    (allowed : changed name spelled) :
    other.variableValue scope spelled = tree.variableValue scope name :=
  trees.foldVariable_eq declares _ scope .nil same allowed

end Respelled

/-- The values of the segments of a script, if it can be cut into segments. -/
def foldedValues (tree : ConfigTree) (scope : Nat) (text : String) :
    Option (List (Option String)) :=
  (tree.compile scope text).toOption.map fun parts =>
    parts.map FoldedSegment.value

theorem foldedValues_eq (tree : ConfigTree) (scope : Nat) (text : String) :
    tree.foldedValues scope text = (segments text).toOption.map fun parts =>
      parts.map (Segment.value? (tree.variableValue scope)) := by
  unfold foldedValues compile
  cases segments text with
  | error fault => rfl
  | ok parts => exact congrArg some List.map_map

/-- Whether a host is known, and which, depends on the values alone. -/
theorem host?_resolveHost (tree : ConfigTree) (scope : Nat) (text : String) :
    (tree.resolveHost scope text).host? =
      (tree.foldedValues scope text).bind concatenate? := by
  unfold foldedValues resolveHost
  cases tree.compile scope text with
  | error fault => rfl
  | ok parts =>
      simp only [Except.toOption, Option.map_some, Option.bind_some]
      cases concatenate? (parts.map FoldedSegment.value) <;> rfl

/-- A known variable is declared, letter by letter, by an assignment that can
be seen. -/
theorem declared_of_variableValue {tree : ConfigTree} {scope : Nat}
    {name value : String} (known : tree.variableValue scope name = some value) :
    ∃ assignment ∈ tree.visible "set" scope,
      tree.firstArgument? assignment = some ("$" ++ name) := by
  rw [variableValue, Variable.chainLimit, foldVariable] at known
  split at known
  · cases known
  · obtain ⟨assignment, found, _⟩ := Option.bind_eq_some_iff.1 known
    obtain ⟨_, _, _, _, _, ⟨_, _, declared⟩, _⟩ :=
      assignment?_eq_some_iff.1 found
    exact ⟨assignment, visible_of_assignment? found, declared⟩

/-- Other letters in the names of variables change no value, as long as each
assignment declares a changed name exactly if it declared the name before.
Request variables are known by their letters in any case, all others by
exactly the letters that an assignment declares. -/
theorem folds_respelled {changed : String → String → Prop}
    {tree other : ConfigTree} {text respelled : String}
    (trees : tree.Respelled changed other)
    (texts : Script.Respelled changed text.toList respelled.toList)
    (declares : tree.DeclaresAlike changed other) (scope : Nat) :
    other.foldedValues scope respelled = tree.foldedValues scope text ∧
      (other.resolveHost scope respelled).host? =
        (tree.resolveHost scope text).host? ∧
      (∀ name spelled, Text.lowerAscii name = Text.lowerAscii spelled →
        Variable.isBuiltin name = Variable.isBuiltin spelled ∧
          Variable.isCapture name = Variable.isCapture spelled) ∧
      ∀ name value, tree.variableValue scope name = some value →
        ∃ assignment ∈ tree.visible "set" scope,
          tree.firstArgument? assignment = some ("$" ++ name) := by
  have values : other.foldedValues scope respelled =
      tree.foldedValues scope text := by
    rw [foldedValues_eq, foldedValues_eq]
    rcases texts.segments_cases with
      ⟨parts, others, cut, otherCut, alike⟩ | ⟨fault, cut, otherCut⟩
    · have valued := Segment.map_value?_eq alike fun _ _ same allowed =>
        trees.variableValue_eq declares scope same allowed
      simp only [cut, otherCut, Except.toOption, Option.map_some, valued]
    · simp only [cut, otherCut, Except.toOption, Option.map_none]
  refine ⟨values, ?_, ?_, ?_⟩
  · rw [host?_resolveHost, host?_resolveHost, values]
  · intro name spelled same
    exact ⟨Variable.isBuiltin_eq_of_lowerAscii_eq same,
      Variable.isCapture_eq_of_lowerAscii_eq same⟩
  · intro name value known
    exact declared_of_variableValue known

/-- A backend that is assigned through another variable. -/
def relayedTarget : ConfigTree where
  directives := #[
    ⟨0, "set", ["$backend", "api.example.com"], false, none⟩,
    ⟨0, "set", ["$target", "$backend:80"], false, none⟩,
    ⟨0, "proxy_pass", ["http://$target"], false, none⟩]
  rootLine := none
  parent_le := by decide

def respelledTarget : ConfigTree where
  directives := #[
    ⟨0, "set", ["$BACKEND", "api.example.com"], false, none⟩,
    ⟨0, "set", ["$Target", "$BACKEND:80"], false, none⟩,
    ⟨0, "proxy_pass", ["http://$target"], false, none⟩]
  rootLine := none
  parent_le := by decide

/-- The names that are written with other letters. -/
def Recased (name spelled : String) : Prop :=
  (name, spelled) ∈ [("backend", "BACKEND"), ("target", "Target"),
    ("host", "HOST")]

theorem relayedTarget_respelled :
    relayedTarget.Respelled Recased respelledTarget := by
  have host : Script.Respelled Recased "api.example.com".toList
      "api.example.com".toList :=
    Script.respelled_of_plain (by decide +kernel)
  have target : Script.Respelled Recased
      ('$' :: ("backend".toList ++ ":80".toList))
      ('$' :: ("BACKEND".toList ++ ":80".toList)) :=
    .bare (Script.bareName_of_checks (by decide +kernel) rfl rfl)
      (by decide +kernel) (by simp [Recased])
      (Script.respelled_of_plain (by decide +kernel))
  have declared : RespelledAssignment Recased
      ["$backend", "api.example.com"] ["$BACKEND", "api.example.com"] :=
    .assigns (by decide +kernel) (.cons host .nil)
  have relayed : RespelledAssignment Recased
      ["$target", "$backend:80"] ["$Target", "$BACKEND:80"] :=
    .assigns (by decide +kernel) (.cons target .nil)
  exact ⟨rfl, .cons (Directive.respelled_assignment declared 0 false none)
    (.cons (Directive.respelled_assignment relayed 0 false none)
      (.cons (Directive.respelled_self (by decide)) .nil))⟩

theorem relayedTarget_declaresAlike :
    relayedTarget.DeclaresAlike Recased respelledTarget := by
  intro id kind name spelled allowed
  simp only [Recased, List.mem_cons, Prod.mk.injEq, List.not_mem_nil,
    or_false] at allowed
  match id with
  | 0 | 3 => exact absurd kind (by decide)
  | 1 | 2 =>
      rcases allowed with ⟨rfl, rfl⟩ | ⟨rfl, rfl⟩ | ⟨rfl, rfl⟩ <;>
        decide +kernel
  | id + 4 => simp [ConfigTree.name, find?, relayedTarget] at kind

/-- The host of a target follows two assignments in other letters, and the
request variable behind it stays unknown. -/
theorem relayedTarget_folds_respelled :
    relayedTarget.Respelled Recased respelledTarget ∧
      Script.Respelled Recased "$target/$host".toList
        "$Target/$HOST".toList ∧
      relayedTarget.DeclaresAlike Recased respelledTarget ∧
      relayedTarget.foldedValues 3 "$target/$host" =
        some [some "api.example.com:80", some "/", none] ∧
      respelledTarget.foldedValues 3 "$Target/$HOST" =
        some [some "api.example.com:80", some "/", none] := by
  have host : Script.Respelled Recased ('$' :: ("host".toList ++ []))
      ('$' :: ("HOST".toList ++ [])) :=
    .bare (Script.bareName_of_checks (by decide +kernel) rfl rfl)
      (by decide +kernel) (by simp [Recased]) .done
  have target : Script.Respelled Recased
      ('$' :: ("target".toList ++ '/' :: '$' :: ("host".toList ++ [])))
      ('$' :: ("Target".toList ++ '/' :: '$' :: ("HOST".toList ++ []))) :=
    .bare (Script.bareName_of_checks (by decide +kernel) rfl rfl)
      (by decide +kernel) (by simp [Recased])
      (.other (by decide) host)
  have texts : Script.Respelled Recased "$target/$host".toList
      "$Target/$HOST".toList := target
  have same := folds_respelled relayedTarget_respelled texts
    relayedTarget_declaresAlike 3
  have known : relayedTarget.foldedValues 3 "$target/$host" =
      some [some "api.example.com:80", some "/", none] := by
    decide +kernel
  exact ⟨relayedTarget_respelled, texts, relayedTarget_declaresAlike, known,
    same.1.trans known⟩

/-- A backend with a capital letter in its name. -/
def capitalBackend : ConfigTree where
  directives := #[
    ⟨0, "set", ["$Backend", "api.example.com"], false, some 1⟩,
    ⟨0, "proxy_pass", ["http://$backend"], false, some 2⟩]
  rootLine := none
  parent_le := by decide

/-- The same variable in other letters is unknown. -/
theorem capitalBackend_unknown :
    capitalBackend.Respelled (fun _ _ => True) capitalBackend ∧
      Script.Respelled (fun _ _ => True) "$Backend".toList
        "$backend".toList ∧
      capitalBackend.foldedValues 2 "$Backend" =
        some [some "api.example.com"] ∧
      capitalBackend.foldedValues 2 "$backend" = some [none] := by
  have host : Script.Respelled (fun _ _ => True) "api.example.com".toList
      "api.example.com".toList :=
    Script.respelled_of_plain (by decide +kernel)
  have text : Script.Respelled (fun _ _ => True)
      ('$' :: ("Backend".toList ++ [])) ('$' :: ("backend".toList ++ [])) :=
    .bare (Script.bareName_of_checks (by decide +kernel) rfl rfl)
      (by decide +kernel) trivial .done
  have declared : RespelledAssignment (fun _ _ => True)
      ["$Backend", "api.example.com"] ["$Backend", "api.example.com"] :=
    .assigns rfl (.cons host .nil)
  refine ⟨⟨rfl, ?_⟩, text, by decide +kernel, by decide +kernel⟩
  exact .cons (Directive.respelled_assignment declared 0 false (some 1))
    (.cons (Directive.respelled_self (by decide)) .nil)

end ConfigTree

end ProxyLint
