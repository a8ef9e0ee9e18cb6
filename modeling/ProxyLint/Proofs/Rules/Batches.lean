import ProxyLint.Proofs.Configuration.LineOrder
import ProxyLint.Proofs.Resolution.ServerGroup
import ProxyLint.Proofs.Rules.MissingResolver
import Mathlib.Algebra.Ring.Nat

/-!
# Findings in batches

A pass of the missing resolver rule reports one batch of findings for every
audited directive, in document order.  A batch has one finding at most, except
for a server group with cloud endpoints and with other servers that are looked
up only once: these are the evidence of two findings, the graver one first.
-/

namespace ProxyLint

/-- Two findings of different severity that share no evidence. -/
structure Finding.IsPair (high medium : Finding) : Prop where
  high_severity : high.severity = .high
  medium_severity : medium.severity = .medium
  high_evidence : high.evidence ≠ []
  medium_evidence : medium.evidence ≠ []
  disjoint : ∀ snapshot ∈ high.evidence, ∀ other ∈ medium.evidence,
    snapshot.node ≠ other.node

/-- What may be reported about one directive. -/
def IsBatch (findings : List Finding) : Prop :=
  findings.length ≤ 1 ∨
    ∃ high medium, findings = [high, medium] ∧ high.IsPair medium

theorem countSeverity_add (findings : List Finding) :
    countSeverity .medium findings + countSeverity .high findings =
      findings.length := by
  induction findings with
  | nil => rfl
  | cons finding findings ih =>
      cases severity : finding.severity <;>
        simp_all [countSeverity] <;> omega

/-- Severities that do not occur are not counted. -/
theorem sum_severityCounts (findings : List Finding) :
    ((severityCounts findings).map Prod.snd).sum = findings.length := by
  have dropped (counts : List (Severity × Nat)) :
      ((counts.filter fun entry => entry.2 != 0).map Prod.snd).sum =
        (counts.map Prod.snd).sum := by
    induction counts with
    | nil => rfl
    | cons entry counts ih =>
        rw [List.filter_cons, List.map_cons, List.sum_cons, ← ih]
        by_cases absent : entry.2 = 0 <;> simp [absent]
  rw [severityCounts, dropped, ← countSeverity_add findings]
  rfl

namespace ConfigTree

variable {tree : ConfigTree} {id : Nat} {finding : Finding}

theorem isBatch_groupFindings {host : String} {group : ServerGroup}
    (placed : id ∈ tree.walk)
    (found : tree.serverGroup? id host = some group) :
    IsBatch (tree.groupFindings id group) := by
  have divides := dividesServers_of_records placed
    (fixedServers_of_serverGroup? found)
  have apart := (List.nodup_append.1 divides.nodup).2.2
  rw [groupFindings_eq]
  split
  next =>
    left
    split <;> simp
  next cloud =>
    split
    next =>
      left
      simp
    next plain =>
      right
      refine ⟨_, _, rfl, rfl, rfl, ?_, ?_, ?_⟩
      · simpa [evidence_resolverFinding] using cloud
      · simpa [evidence_resolverFinding] using plain
      · intro snapshot inHigh other inMedium
        rw [evidence_resolverFinding] at inHigh inMedium
        obtain ⟨server, first, rfl⟩ := List.mem_map.1 inHigh
        obtain ⟨_, second, rfl⟩ := List.mem_map.1 inMedium
        exact apart _ first _ second

theorem isBatch_analyze (placed : id ∈ tree.walk) :
    IsBatch (tree.analyze id) := by
  rcases tree.judge_cases id with dismissed | ⟨raw, target, host, known⟩
  · left
    simp [analyze, findingsOf_of_isDismissal dismissed]
  · cases found : tree.serverGroup? id host with
    | some group =>
        rw [known.analyze_of_group found]
        exact isBatch_groupFindings placed found
    | none =>
        left
        by_cases dollar : '$' ∈ raw.toList
        · rw [known.analyze_of_variable found dollar]
          split <;> simp
        · rw [known.analyze_of_static found dollar]
          cases classify host <;> simp [staticFindings]

theorem primary_node_of_mem_flatMap {ids : List Nat}
    (member : finding ∈ ids.flatMap tree.analyze) :
    finding.primary.node ∈ ids ∧
      finding ∈ tree.analyze finding.primary.node := by
  obtain ⟨id, chosen, member⟩ := List.mem_flatMap.1 member
  have node : finding.primary.node = id := by
    rw [primary_of_mem_analyze member]
    rfl
  rw [node]
  exact ⟨chosen, member⟩

/-- The findings about one directive stand together. -/
theorem exists_batch {ids : List Nat} (distinct : ids.Nodup)
    (placed : ∀ id ∈ ids, id ∈ tree.walk) (node : Nat) :
    ∃ before batch after,
      ids.flatMap tree.analyze = before ++ batch ++ after ∧ IsBatch batch ∧
        (∀ finding ∈ batch, finding.primary.node = node) ∧
        ∀ finding ∈ before ++ after, finding.primary.node ≠ node := by
  by_cases chosen : node ∈ ids
  · obtain ⟨earlier, later, rfl⟩ := List.append_of_mem chosen
    refine ⟨earlier.flatMap tree.analyze, tree.analyze node,
      later.flatMap tree.analyze, by simp, ?_, ?_, ?_⟩
    · exact isBatch_analyze (placed node chosen)
    · intro finding member
      rw [primary_of_mem_analyze member]
      rfl
    · intro finding member same
      rw [← List.flatMap_append] at member
      have again := (primary_node_of_mem_flatMap member).1
      rw [same] at again
      exact (List.nodup_middle.1 distinct).notMem again
  · refine ⟨ids.flatMap tree.analyze, [], [], by simp, .inl (by simp),
      by simp, ?_⟩
    intro finding member same
    rw [List.append_nil] at member
    exact chosen (same ▸ (primary_node_of_mem_flatMap member).1)

/-- Batches follow each other as the directives do. -/
theorem pairwise_flatMap_analyze (tree : ConfigTree) {ids : List Nat}
    (increasing : ids.Pairwise (· < ·)) :
    (ids.flatMap tree.analyze).Pairwise fun earlier later =>
      earlier.primary.node ≤ later.primary.node := by
  have node {id : Nat} {finding : Finding}
      (member : finding ∈ tree.analyze id) : finding.primary.node = id := by
    rw [primary_of_mem_analyze member]
    rfl
  refine List.pairwise_flatMap.2 ⟨fun id _ => ?_, ?_⟩
  · refine List.pairwise_of_forall_mem_list fun first inBatch second
      alsoInBatch => ?_
    rw [node inBatch, node alsoInBatch]
  · refine increasing.imp fun {id other} before first inBatch second
      inOther => ?_
    rw [node inBatch, node inOther]
    exact before.le

end ConfigTree

/-- What a pass reports about a parsed configuration. -/
structure LintPass.InOrder (pass : LintPass) (tree : ConfigTree)
    (kinds : List String) : Prop where
  auditsFailed_eq : pass.summary.auditsFailed = 0
  auditsRun_eq : pass.summary.auditsRun =
    (List.range' 1 tree.size).countP fun id => kinds.contains (tree.name id)
  findings_eq : pass.summary.findings = pass.reported.length
  severityCounts_eq :
    ((severityCounts pass.reported).map Prod.snd).sum = pass.reported.length
  nodes_increasing : pass.reported.Pairwise fun earlier later =>
    earlier.primary.node ≤ later.primary.node
  lines_known : ∀ finding ∈ pass.reported,
    ∃ line, finding.primary.line = some line
  lines_increasing : pass.reported.Pairwise fun earlier later =>
    ∀ line laterLine, earlier.primary.line = some line →
      later.primary.line = some laterLine → line ≤ laterLine
  /-- The findings about a directive stand together. -/
  batched : ∀ node, ∃ before batch after,
    pass.reported = before ++ batch ++ after ∧ IsBatch batch ∧
      (∀ finding ∈ batch, finding.primary.node = node) ∧
      ∀ finding ∈ before ++ after, finding.primary.node ≠ node
  audited : ∀ finding ∈ pass.reported,
    0 < finding.primary.node ∧ finding.primary.node ≤ tree.size ∧
      tree.name finding.primary.node ∈ kinds
  evidence_visible : ∀ finding ∈ pass.reported,
    ∀ snapshot ∈ finding.evidence,
      tree.name snapshot.node = "server" ∧
        ∃ group block, tree.parent? snapshot.node = some group ∧
          tree.name group = "upstream" ∧ tree.parent? group = some block ∧
          block ∈ tree.enclosing finding.primary.node
  snapshots_eq : ∀ finding ∈ pass.reported,
    ∀ snapshot ∈ finding.primary :: finding.evidence,
      snapshot.line = tree.line snapshot.node ∧
        snapshot.text = tree.written snapshot.node

namespace ConfigTree

/-- Linting a text with the missing resolver rule gives findings in document
order, none of them without its directive. -/
theorem lint_inOrder (text : String) (kinds : List String) {tree : ConfigTree}
    (parsed : parse text = .ok tree) :
    (lint [MissingResolver.rule kinds] tree []).InOrder tree kinds := by
  have walked := walk_of_parse parsed
  have reported := MissingResolver.reported_lint_rule kinds tree []
  have summary := MissingResolver.summary_lint_rule kinds tree []
  rw [List.nil_append] at reported
  have increasing : (tree.audited kinds).Pairwise (· < ·) := by
    rw [audited, walked]
    exact List.Pairwise.filter _ List.pairwise_lt_range'
  have nodes := tree.pairwise_flatMap_analyze increasing
  have bounds {finding : Finding}
      (member : finding ∈ (tree.audited kinds).flatMap tree.analyze) :
      0 < finding.primary.node ∧ finding.primary.node ≤ tree.size :=
    bounds_of_mem_audited walked (primary_node_of_mem_flatMap member).1
  have line {finding : Finding}
      (member : finding ∈ (tree.audited kinds).flatMap tree.analyze) :
      finding.primary.line = tree.line finding.primary.node := by
    have primary := primary_of_mem_analyze
      (primary_node_of_mem_flatMap member).2
    exact congrArg Snapshot.line primary
  constructor
  case auditsFailed_eq => rw [summary]
  case auditsRun_eq =>
    rw [summary, audited, walked, List.countP_eq_length_filter]
  case findings_eq => rw [summary, reported]
  case severityCounts_eq => exact sum_severityCounts _
  case nodes_increasing => rwa [reported]
  case lines_known =>
    rw [reported]
    intro finding member
    obtain ⟨positive, bound⟩ := bounds member
    obtain ⟨first, _, known, _⟩ :=
      line_le_of_parse parsed positive le_rfl bound
    exact ⟨first, (line member).trans known⟩
  case lines_increasing =>
    rw [reported]
    refine nodes.imp_of_mem fun {earlier later} member laterMember before
      first second known laterKnown => ?_
    obtain ⟨_, _, stored, laterStored, inOrder⟩ := line_le_of_parse parsed
      (bounds member).1 before (bounds laterMember).2
    rw [← line member, known] at stored
    rw [← line laterMember, laterKnown] at laterStored
    cases stored
    cases laterStored
    exact inOrder
  case batched =>
    rw [reported]
    exact exists_batch increasing.nodup fun id member =>
      List.mem_of_mem_filter member
  case audited =>
    rw [reported]
    intro finding member
    obtain ⟨positive, bound⟩ := bounds member
    have chosen := List.of_mem_filter (primary_node_of_mem_flatMap member).1
    exact ⟨positive, bound, List.contains_iff_mem.1 chosen⟩
  case evidence_visible =>
    rw [reported]
    intro finding member snapshot listed
    obtain ⟨_, host, inGroup⟩ := evidence_of_mem_analyze
      (primary_node_of_mem_flatMap member).2 listed
    obtain ⟨block, around, group, ⟨held, kind, _⟩, heldServer, isServer⟩ :=
      mem_groupServers.1 inGroup
    exact ⟨isServer, group, block, heldServer, kind, held, around⟩
  case snapshots_eq =>
    rw [reported]
    intro finding member snapshot listed
    have analyzed := (primary_node_of_mem_flatMap member).2
    have same : snapshot = tree.snapshot snapshot.node := by
      rcases List.mem_cons.1 listed with rfl | listed
      · exact primary_of_mem_analyze analyzed
      · exact (evidence_of_mem_analyze analyzed listed).1
    exact ⟨congrArg Snapshot.line same, congrArg Snapshot.text same⟩

/-- A group with a cloud endpoint and another public host. -/
def mixedSite : ConfigTree where
  directives := #[
    ⟨0, "upstream", ["b"], true, some 1⟩,
    ⟨1, "server", ["b.fly.dev"], false, some 1⟩,
    ⟨1, "server", ["b.org"], false, some 1⟩,
    ⟨0, "proxy_pass", ["http://b"], false, some 2⟩]
  rootLine := none
  parent_le := by decide

theorem mixedSite_inOrder :
    parse ("upstream b \x7b server b.fly.dev; server b.org; \x7d\n" ++
        "proxy_pass http://b;") = .ok mixedSite ∧
      (lint [MissingResolver.rule ["proxy_pass"]] mixedSite []).InOrder
        mixedSite ["proxy_pass"] ∧
      ((lint [MissingResolver.rule ["proxy_pass"]] mixedSite []).reported.map
        fun finding => (finding.severity, finding.primary.node,
          finding.evidence.map Snapshot.node)) =
        [(.high, 4, [2]), (.medium, 4, [3])] := by
  have parsed : parse
      ("upstream b \x7b server b.fly.dev; server b.org; \x7d\n" ++
        "proxy_pass http://b;") = .ok mixedSite := by
    rfl
  exact ⟨parsed, lint_inOrder _ ["proxy_pass"] parsed, by decide +kernel⟩

end ConfigTree

end ProxyLint
