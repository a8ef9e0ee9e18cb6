import ProxyLint.Proofs.Configuration.Walk
import ProxyLint.Proofs.Rules.LintPass
import Mathlib.Algebra.Ring.Nat
import Mathlib.Data.List.Perm.Basic

/-!
# Rules side by side

A pass dispatches every directive of the document to the rules that name its
kind.  What a rule contributes to a pass is what a pass with this rule alone
reports, wherever the rule stands and whether or not audits fail, and the
counters are the sums of those of the single rules.
-/

namespace ProxyLint

/-- A directive that a pass hands to the rule at some position of its list. -/
structure Dispatch where
  directive : Nat
  rule : Rule
  position : Nat

def Dispatch.audit (tree : ConfigTree) (dispatch : Dispatch) : Audit :=
  dispatch.rule.audit tree dispatch.directive

def Dispatch.findings (tree : ConfigTree) (dispatch : Dispatch) :
    List Finding :=
  (dispatch.audit tree).findings

def Dispatch.fails (tree : ConfigTree) (dispatch : Dispatch) : Bool :=
  (dispatch.audit tree).failure.isSome

/-- Every directive in document order with every rule that names its kind, in
the order of the rules. -/
def dispatches (rules : List Rule) (tree : ConfigTree) : List Dispatch :=
  tree.walk.flatMap fun id =>
    (rules.zipIdx.filter fun entry =>
      entry.1.directives.contains (tree.name id)).map fun entry =>
        ⟨id, entry.1, entry.2⟩

theorem map_audit_dispatches (rules : List Rule) (tree : ConfigTree) :
    (dispatches rules tree).map (Dispatch.audit tree) =
      tree.walk.flatMap (auditsOf rules tree) := by
  rw [dispatches, List.map_flatMap]
  refine List.flatMap_congr fun id _ => ?_
  conv => rhs; rw [← List.zipIdx_map_fst 0 rules]
  rw [auditsOf, List.filter_map, List.map_map, List.map_map]
  rfl

/-- At one position of a list stands one rule at most. -/
theorem filter_zipIdx (rules : List Rule) (start position : Nat) :
    (rules.zipIdx start).filter (fun entry => entry.2 == start + position) =
      (rules[position]?.map fun rule => (rule, start + position)).toList := by
  induction rules generalizing start position with
  | nil => rfl
  | cons rule rules ih =>
      rw [List.zipIdx_cons, List.filter_cons]
      cases position with
      | zero =>
          have later : (rules.zipIdx (start + 1)).filter
              (fun entry => entry.2 == start) = [] := by
            refine List.filter_eq_nil_iff.2 fun entry member => ?_
            have := List.le_snd_of_mem_zipIdx member
            simp only [beq_iff_eq]
            omega
          simp only [Nat.add_zero, beq_self_eq_true, if_true, later]
          rfl
      | succ position =>
          have shifted : start + (position + 1) = start + 1 + position := by
            omega
          have elsewhere : (start == start + 1 + position) = false := by
            simp only [beq_eq_false_iff_ne]
            omega
          rw [shifted, ih (start + 1) position, elsewhere]
          rfl

/-- The audits for the rule at a position are those of a pass with this rule
alone. -/
theorem audits_at_position {rules : List Rule} {position : Nat} {rule : Rule}
    (placed : rules[position]? = some rule) (tree : ConfigTree) :
    ((dispatches rules tree).filter fun dispatch =>
        dispatch.position == position).map (Dispatch.audit tree) =
      tree.walk.flatMap (auditsOf [rule] tree) := by
  have chosen := filter_zipIdx rules 0 position
  simp only [Nat.zero_add, placed] at chosen
  rw [dispatches, List.filter_flatMap, List.map_flatMap]
  refine List.flatMap_congr fun id _ => ?_
  rw [List.filter_map, List.filter_comm]
  change List.map _ (List.map _ (List.filter _
    (rules.zipIdx.filter fun entry => entry.2 == position))) = _
  rw [chosen, List.map_map, auditsOf]
  change List.map _ (List.filter _ [(rule, position)]) = _
  rw [List.filter_singleton, List.filter_singleton]
  change List.map _ (bif rule.concerns tree id then _ else _) =
    List.map _ (bif rule.concerns tree id then _ else _)
  cases rule.concerns tree id <;> rfl

/-- A pass makes the audits that passes with the single rules make. -/
theorem audits_perm (rules : List Rule) (tree : ConfigTree) :
    (tree.walk.flatMap (auditsOf rules tree)).Perm
      (rules.flatMap fun rule => tree.walk.flatMap (auditsOf [rule] tree)) := by
  induction rules with
  | nil =>
      have none : auditsOf [] tree = fun _ => [] := rfl
      rw [none, List.flatMap_nil, List.flatMap_eq_nil_iff.2 fun _ _ => rfl]
  | cons rule rules ih =>
      have split : auditsOf (rule :: rules) tree = fun id =>
          auditsOf [rule] tree id ++ auditsOf rules tree id :=
        funext (auditsOf_cons rule rules tree)
      rw [split, List.flatMap_cons]
      exact (List.flatMap_append_perm _ _ _).symm.trans (ih.append_left _)

/-- The counters of a pass are those of its audits, in whichever order. -/
theorem LintSummary.ofAudits_perm (visited : Nat) {audits others : List Audit}
    (same : audits.Perm others) :
    ofAudits visited audits = ofAudits visited others := by
  rw [ofAudits, ofAudits, same.length_eq, same.countP_eq,
    (same.flatMap_right Audit.findings).length_eq]

/-- A pass appends the findings of its dispatches, those of failing audits
included, and counts every directive of the document once.  The findings for
the rule at a position are those of a pass with this rule alone, and the
counters of audits, failures and findings are the sums over such passes. -/
theorem lint_isolates_rules (rules : List Rule) (tree : ConfigTree)
    (reported : List Finding) :
    (lint rules tree reported).reported =
        reported ++ (dispatches rules tree).flatMap (Dispatch.findings tree) ∧
      (lint rules tree reported).summary = {
        directivesVisited := tree.walk.length
        auditsRun := (dispatches rules tree).length
        auditsFailed := (dispatches rules tree).countP (Dispatch.fails tree)
        findings :=
          ((dispatches rules tree).flatMap (Dispatch.findings tree)).length } ∧
      tree.walk.Perm ((List.range' 1 tree.size).filter fun id =>
        (tree.enclosing id).contains ConfigTree.root) ∧
      ((∀ id, tree.parent? id ≠ some id) →
        (lint rules tree reported).summary.directivesVisited = tree.size) ∧
      (∀ position rule earlier, rules[position]? = some rule →
        (lint [rule] tree earlier).reported = earlier ++
          ((dispatches rules tree).filter fun dispatch =>
            dispatch.position == position).flatMap (Dispatch.findings tree)) ∧
      (lint rules tree reported).summary.auditsRun =
        (rules.map fun rule => (lint [rule] tree []).summary.auditsRun).sum ∧
      (lint rules tree reported).summary.auditsFailed =
        (rules.map fun rule =>
          (lint [rule] tree []).summary.auditsFailed).sum ∧
      (lint rules tree reported).summary.findings =
        (rules.map fun rule => (lint [rule] tree []).summary.findings).sum := by
  have findings (chosen : List Dispatch) :
      chosen.flatMap (Dispatch.findings tree) =
        (chosen.map (Dispatch.audit tree)).flatMap Audit.findings := by
    rw [List.flatMap_map]
    rfl
  have summary := summary_lint rules tree reported
  have together : (lint rules tree reported).summary = .ofAudits
      tree.walk.length
      (rules.flatMap fun rule => tree.walk.flatMap (auditsOf [rule] tree)) := by
    rw [summary, LintSummary.ofAudits_perm _ (audits_perm rules tree)]
  have alone (rule : Rule) : (lint [rule] tree []).summary = .ofAudits
      tree.walk.length (tree.walk.flatMap (auditsOf [rule] tree)) :=
    summary_lint [rule] tree []
  refine ⟨?_, ?_, tree.walk_perm, ?_, ?_, ?_, ?_, ?_⟩
  · rw [reported_lint, findings, map_audit_dispatches]
  · rw [summary, ← map_audit_dispatches, LintSummary.ofAudits,
      List.length_map, List.countP_map, ← findings]
    rfl
  · intro regular
    rw [summary]
    exact ConfigTree.length_walk regular
  · intro position rule earlier placed
    rw [reported_lint, findings, audits_at_position placed]
  · simp only [together, alone, LintSummary.ofAudits]
    exact List.length_flatMap
  · simp only [together, alone, LintSummary.ofAudits]
    exact List.countP_flatMap
  · simp only [together, alone, LintSummary.ofAudits]
    rw [List.flatMap_assoc]
    exact List.length_flatMap

end ProxyLint
