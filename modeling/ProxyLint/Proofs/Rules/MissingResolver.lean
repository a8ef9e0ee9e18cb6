import ProxyLint.Proofs.Configuration.Concatenation
import ProxyLint.Proofs.Resolution.Independence
import ProxyLint.Proofs.Rules.LintPass
import ProxyLint.Rules.MissingResolver

/-!
# Passes of the missing resolver rule

A pass of this rule alone analyzes the directives that the rule names, in
document order.  A configuration may be cut at its top level, provided that
nothing is declared there: the findings of the whole are those of the parts.
-/

namespace ProxyLint

namespace ConfigTree

/-- The directives of some kinds in document order. -/
def audited (tree : ConfigTree) (kinds : List String) : List Nat :=
  tree.walk.filter fun id => kinds.contains (tree.name id)

end ConfigTree

namespace MissingResolver

theorem auditsOf_rule (kinds : List String) (tree : ConfigTree) (id : Nat) :
    auditsOf [rule kinds] tree id =
      if kinds.contains (tree.name id) then [audit tree id] else [] := by
  rw [auditsOf, List.filter_cons, List.filter_nil]
  change List.map _ (if kinds.contains (tree.name id) then _ else _) = _
  split <;> rfl

theorem flatMap_auditsOf_rule (kinds : List String) (tree : ConfigTree)
    (ids : List Nat) :
    ids.flatMap (auditsOf [rule kinds] tree) =
      (ids.filter fun id => kinds.contains (tree.name id)).map
        (audit tree) := by
  induction ids with
  | nil => rfl
  | cons id ids ih =>
      rw [List.flatMap_cons, ih, auditsOf_rule, List.filter_cons]
      split <;> rfl

/-- The findings of a pass, in document order. -/
theorem reported_lint_rule (kinds : List String) (tree : ConfigTree)
    (earlier : List Finding) :
    (lint [rule kinds] tree earlier).reported =
      earlier ++ (tree.audited kinds).flatMap tree.analyze := by
  rw [reported_lint, flatMap_auditsOf_rule, List.flatMap_map]
  rfl

/-- The counters of a pass, in which no audit fails. -/
theorem summary_lint_rule (kinds : List String) (tree : ConfigTree)
    (earlier : List Finding) :
    (lint [rule kinds] tree earlier).summary = {
      directivesVisited := tree.walk.length
      auditsRun := (tree.audited kinds).length
      auditsFailed := 0
      findings := ((tree.audited kinds).flatMap tree.analyze).length } := by
  have unfailing (ids : List Nat) : (ids.map (audit tree)).countP
      (fun audit => audit.failure.isSome) = 0 := by
    rw [List.countP_map]
    exact List.countP_eq_zero.2 fun _ _ => Bool.false_ne_true
  rw [summary_lint, flatMap_auditsOf_rule, LintSummary.ofAudits, unfailing,
    List.length_map, List.flatMap_map]
  rfl

end MissingResolver

namespace ConfigTree

variable {first second : ConfigTree} {lines : Nat}

/-- Numbers in document order go on from the first tree to the second one. -/
theorem range'_size_followedBy :
    List.range' 1 (first.followedBy second lines).size =
      List.range' 1 first.size ++
        (List.range' 1 second.size).map (beyond first.size) := by
  have moved : (List.range' 1 second.size).map (beyond first.size) =
      (List.range' 1 second.size).map (first.size + ·) := by
    refine List.map_congr_left fun id member => ?_
    exact beyond_of_pos first.size (List.mem_range'_1.1 member).1
  rw [size_followedBy, moved, List.map_add_range', ← List.range'_append_1,
    Nat.add_comm first.size 1]

theorem bounds_of_mem_audited {tree : ConfigTree}
    (walked : tree.walk = List.range' 1 tree.size) {kinds : List String}
    {id : Nat} (member : id ∈ tree.audited kinds) :
    0 < id ∧ id ≤ tree.size := by
  have visited := List.mem_of_mem_filter member
  rw [walked, List.mem_range'_1] at visited
  omega

section InOrder

variable (walked : first.walk = List.range' 1 first.size)
  (walkedSecond : second.walk = List.range' 1 second.size)
  (walkedWhole : (first.followedBy second lines).walk =
    List.range' 1 (first.followedBy second lines).size)
  (kinds : List String)

include walked walkedSecond walkedWhole

theorem audited_followedBy :
    (first.followedBy second lines).audited kinds =
      first.audited kinds ++
        (second.audited kinds).map (beyond first.size) := by
  rw [audited, walkedWhole, range'_size_followedBy, List.filter_append,
    List.filter_map, audited, walked, audited, walkedSecond]
  congr 1
  · refine List.filter_congr fun id member => ?_
    have present : id ≤ first.size := by
      have := (List.mem_range'_1.1 member).2
      omega
    rw [(embeds_first first second lines).name_eq id present]
  · congr 1
    refine List.filter_congr fun id _ => ?_
    rw [Function.comp_apply, name_followedBy_beyond]

/-- The parts of a configuration are analyzed one after the other. -/
theorem flatMap_analyze_followedBy (nothing : first.DeclaresNothing)
    (nothingSecond : second.DeclaresNothing) :
    ((first.followedBy second lines).audited kinds).flatMap
        (first.followedBy second lines).analyze =
      (first.audited kinds).flatMap first.analyze ++
        ((second.audited kinds).flatMap second.analyze).map
          (Finding.moved (Snapshot.behind first.size lines)) := by
  rw [audited_followedBy walked walkedSecond walkedWhole kinds,
    List.flatMap_append, List.flatMap_map, List.map_flatMap]
  congr 1
  · refine List.flatMap_congr fun id member => ?_
    obtain ⟨directive, inside⟩ := bounds_of_mem_audited walked member
    exact analyze_followedBy_of_le lines nothing nothingSecond directive inside
  · refine List.flatMap_congr fun id member => ?_
    obtain ⟨directive, inside⟩ := bounds_of_mem_audited walkedSecond member
    exact analyze_followedBy_beyond lines nothing nothingSecond directive inside

end InOrder

/-- Linting a configuration below another one, if neither declares anything at
its top level, gives the findings of the upper one and then those of the lower
one, with larger numbers and on later lines.  The counters add up. -/
theorem lint_below (before after : String) (kinds : List String)
    (earlier : List Finding) (first second : ConfigTree)
    (above : parse before = .ok first) (below : parse after = .ok second)
    (nothing : first.DeclaresNothing)
    (nothingSecond : second.DeclaresNothing) :
    ∃ whole, parse (before ++ "\n" ++ after) = .ok whole ∧
      (lint [MissingResolver.rule kinds] whole earlier).reported =
        (lint [MissingResolver.rule kinds] first earlier).reported ++
          (lint [MissingResolver.rule kinds] second []).reported.map
            (Finding.moved
              (Snapshot.behind first.size (Text.newlines before + 1))) ∧
      (lint [MissingResolver.rule kinds] whole earlier).summary =
        (lint [MissingResolver.rule kinds] first earlier).summary.plus
          (lint [MissingResolver.rule kinds] second []).summary := by
  have joined := parse_append above after
  rw [below] at joined
  have walked := walk_of_parse above
  have walkedSecond := walk_of_parse below
  have walkedWhole := walk_of_parse joined
  have findings := flatMap_analyze_followedBy walked walkedSecond walkedWhole
    kinds nothing nothingSecond
  refine ⟨_, joined, ?_, ?_⟩
  · rw [MissingResolver.reported_lint_rule, findings,
      MissingResolver.reported_lint_rule, MissingResolver.reported_lint_rule,
      List.nil_append, List.append_assoc]
  · have audits := audited_followedBy walked walkedSecond walkedWhole kinds
    rw [MissingResolver.summary_lint_rule, findings, walkedWhole,
      range'_size_followedBy, audits, MissingResolver.summary_lint_rule,
      MissingResolver.summary_lint_rule, walked, walkedSecond]
    simp only [List.length_append, List.length_map]
    rfl

/-- A virtual server that passes requests on to one host. -/
def gatewaySite : ConfigTree where
  directives := #[
    ⟨0, "server", [], true, some 1⟩,
    ⟨1, "proxy_pass", ["http://a.org"], false, some 2⟩]
  rootLine := none
  parent_le := by decide

/-- A site that passes requests on to a group of servers. -/
def balancedSite : ConfigTree where
  directives := #[
    ⟨0, "http", [], true, some 1⟩,
    ⟨1, "upstream", ["b"], true, some 1⟩,
    ⟨2, "server", ["b.org"], false, some 1⟩,
    ⟨1, "proxy_pass", ["http://b"], false, some 2⟩]
  rootLine := none
  parent_le := by decide

theorem balancedSite_below_gatewaySite :
    ∃ whole, parse ("server \x7b\nproxy_pass http://a.org; \x7d" ++ "\n" ++
        "http \x7b upstream b \x7b server b.org; \x7d\nproxy_pass http://b; \x7d") =
          .ok whole ∧
      ((lint [MissingResolver.rule ["proxy_pass"]] whole []).reported.map
        fun finding => (finding.primary.node, finding.primary.line,
          finding.evidence.map Snapshot.node)) =
        [(2, some 2, []), (6, some 4, [5])] ∧
      (lint [MissingResolver.rule ["proxy_pass"]] whole []).summary =
        ⟨6, 2, 0, 2⟩ := by
  have above : parse "server \x7b\nproxy_pass http://a.org; \x7d" =
      .ok gatewaySite := by
    rfl
  have below : parse
      "http \x7b upstream b \x7b server b.org; \x7d\nproxy_pass http://b; \x7d" =
        .ok balancedSite := by
    rfl
  have nothing : gatewaySite.DeclaresNothing := by
    unfold DeclaresNothing
    decide +kernel
  have nothingBelow : balancedSite.DeclaresNothing := by
    unfold DeclaresNothing
    decide +kernel
  obtain ⟨whole, parsed, reported, summary⟩ := lint_below _ _ ["proxy_pass"]
    [] gatewaySite balancedSite above below nothing nothingBelow
  refine ⟨whole, parsed, ?_, ?_⟩
  · rw [reported]
    decide +kernel
  · rw [summary]
    decide +kernel

end ConfigTree

end ProxyLint
