import ProxyLint.Rules.LintPass

/-!
# What a pass takes in

A pass takes in one audit for every visited directive and every rule that it
concerns, directive by directive and for each directive in the order of the
rules.  The findings that it appends and all its counters are those of these
audits, whether they fail or not.
-/

namespace ProxyLint

namespace LintSummary

/-- The counters of two passes, one after the other. -/
def plus (first second : LintSummary) : LintSummary where
  directivesVisited := first.directivesVisited + second.directivesVisited
  auditsRun := first.auditsRun + second.auditsRun
  auditsFailed := first.auditsFailed + second.auditsFailed
  findings := first.findings + second.findings

/-- The counters after some visits with some audits. -/
def ofAudits (visited : Nat) (audits : List Audit) : LintSummary where
  directivesVisited := visited
  auditsRun := audits.length
  auditsFailed := audits.countP fun audit => audit.failure.isSome
  findings := (audits.flatMap Audit.findings).length

theorem plus_assoc (first second third : LintSummary) :
    (first.plus second).plus third = first.plus (second.plus third) := by
  simp only [plus, Nat.add_assoc]

theorem ofAudits_append (visited further : Nat) (audits others : List Audit) :
    ofAudits (visited + further) (audits ++ others) =
      (ofAudits visited audits).plus (ofAudits further others) := by
  simp [ofAudits, plus]

theorem plus_ofAudits_nil (summary : LintSummary) :
    summary.plus (ofAudits 0 []) = summary :=
  rfl

end LintSummary

/-- The audits of a directive, in the order of the rules. -/
def auditsOf (rules : List Rule) (tree : ConfigTree) (id : Nat) :
    List Audit :=
  (rules.filter fun rule => rule.concerns tree id).map fun rule =>
    rule.audit tree id

theorem auditsOf_cons (rule : Rule) (rules : List Rule) (tree : ConfigTree)
    (id : Nat) :
    auditsOf (rule :: rules) tree id =
      auditsOf [rule] tree id ++ auditsOf rules tree id := by
  rw [auditsOf, ← List.singleton_append, List.filter_append, List.map_append,
    auditsOf, auditsOf]

namespace LintPass

/-- The second pass is the first one after further visits with the given
audits. -/
structure Takes (before after : LintPass) (visited : Nat)
    (audits : List Audit) : Prop where
  reported : after.reported =
    before.reported ++ audits.flatMap Audit.findings
  summary : after.summary =
    before.summary.plus (.ofAudits visited audits)

theorem Takes.none (pass : LintPass) : Takes pass pass 0 [] where
  reported := (List.append_nil _).symm
  summary := (LintSummary.plus_ofAudits_nil _).symm

theorem Takes.trans {before middle after : LintPass} {visited further : Nat}
    {audits others : List Audit} (first : Takes before middle visited audits)
    (second : Takes middle after further others) :
    Takes before after (visited + further) (audits ++ others) where
  reported := by
    rw [second.reported, first.reported, List.append_assoc,
      List.flatMap_append]
  summary := by
    rw [second.summary, first.summary, LintSummary.plus_assoc,
      LintSummary.ofAudits_append]

theorem takes_countVisit (pass : LintPass) :
    Takes pass pass.countVisit 1 [] where
  reported := (List.append_nil _).symm
  summary := rfl

theorem takes_record (pass : LintPass) (rule : Rule) (tree : ConfigTree)
    (id : Nat) (audit : Audit) :
    Takes pass (pass.record rule tree id audit) 0 [audit] where
  reported := by
    rw [record, List.flatMap_singleton]
  summary := by
    simp [record, LintSummary.plus, LintSummary.ofAudits, List.countP_cons]

/-- One rule: it is asked about its own directives and no others. -/
theorem takes_auditWith (tree : ConfigTree) (id : Nat) (pass : LintPass)
    (rule : Rule) :
    Takes pass (auditWith tree id pass rule) 0 (auditsOf [rule] tree id) := by
  rw [auditWith, auditsOf, List.filter_cons, List.filter_nil]
  split
  · exact takes_record pass rule tree id (rule.audit tree id)
  · exact Takes.none pass

theorem takes_foldl_auditWith (rules : List Rule) (tree : ConfigTree)
    (id : Nat) (pass : LintPass) :
    Takes pass (rules.foldl (auditWith tree id) pass) 0
      (auditsOf rules tree id) := by
  induction rules generalizing pass with
  | nil => exact Takes.none pass
  | cons rule rules ih =>
      rw [auditsOf_cons]
      exact (takes_auditWith tree id pass rule).trans (ih _)

/-- One directive. -/
theorem takes_visit (rules : List Rule) (tree : ConfigTree)
    (pass : LintPass) (id : Nat) :
    Takes pass (visit rules tree pass id) 1 (auditsOf rules tree id) :=
  (takes_countVisit pass).trans (takes_foldl_auditWith rules tree id _)

theorem takes_foldl_visit (rules : List Rule) (tree : ConfigTree)
    (ids : List Nat) (pass : LintPass) :
    Takes pass (ids.foldl (visit rules tree) pass) ids.length
      (ids.flatMap (auditsOf rules tree)) := by
  induction ids generalizing pass with
  | nil => exact Takes.none pass
  | cons id ids ih =>
      rw [List.length_cons, Nat.add_comm, List.flatMap_cons]
      exact (takes_visit rules tree pass id).trans (ih _)

end LintPass

theorem lint_takes (rules : List Rule) (tree : ConfigTree)
    (reported : List Finding) :
    LintPass.Takes (LintPass.start reported) (lint rules tree reported)
      tree.walk.length (tree.walk.flatMap (auditsOf rules tree)) := by
  have pass := LintPass.takes_foldl_visit rules tree tree.walk
    (LintPass.start reported)
  exact ⟨pass.reported, pass.summary⟩

/-- A pass appends the findings of its audits in the order of the audits. -/
theorem reported_lint (rules : List Rule) (tree : ConfigTree)
    (reported : List Finding) :
    (lint rules tree reported).reported = reported ++
      (tree.walk.flatMap (auditsOf rules tree)).flatMap Audit.findings :=
  (lint_takes rules tree reported).reported

/-- A pass counts its visits and its audits. -/
theorem summary_lint (rules : List Rule) (tree : ConfigTree)
    (reported : List Finding) :
    (lint rules tree reported).summary =
      .ofAudits tree.walk.length
        (tree.walk.flatMap (auditsOf rules tree)) := by
  rw [(lint_takes rules tree reported).summary]
  simp [LintPass.start, LintSummary.plus, LintSummary.ofAudits]

end ProxyLint
