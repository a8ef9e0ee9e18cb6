import ProxyLint.Proofs.CommandLine.FileRun
import ProxyLint.Proofs.Json.Codec
import ProxyLint.Proofs.Reports.Instant
import ProxyLint.Proofs.Resolution.ServerGroup
import ProxyLint.Proofs.Rules.LintPass
import ProxyLint.Reports.Decoding
import ProxyLint.Rules.MissingResolver

/-!
# Reports in range

The numbers of a report fit 64 bits and its time is one of the calendar.  This
is so for every report that is read from a text, and for those that the rule
makes of trees whose numbers fit 64 bits.
-/

namespace ProxyLint

open Json

structure Snapshot.Storable (snapshot : Snapshot) : Prop where
  node : snapshot.node < 2 ^ 64
  line : ∀ line ∈ snapshot.line, line < 2 ^ 64

structure Finding.Storable (finding : Finding) : Prop where
  primary : finding.primary.Storable
  evidence : ∀ snapshot ∈ finding.evidence, snapshot.Storable

structure FileReport.Storable (report : FileReport) : Prop where
  generatedAt : report.generatedAt.Valid
  findings : ∀ finding ∈ report.findings, finding.Storable

/-! ## Whatever is read -/

theorem Snapshot.storable_of_ofDocument? {document : Document}
    {snapshot : Snapshot} (read : ofDocument? document = some snapshot) :
    snapshot.Storable := by
  rw [ofDocument?] at read
  obtain ⟨fields, _, read⟩ := Option.bind_eq_some_iff.1 read
  split at read
  · next node line text _ =>
      obtain ⟨number, nodeRead, read⟩ := Option.bind_eq_some_iff.1 read
      obtain ⟨place, lineRead, read⟩ := Option.bind_eq_some_iff.1 read
      obtain ⟨written, _, read⟩ := Option.bind_eq_some_iff.1 read
      obtain rfl := Option.some.inj read
      obtain ⟨_, _, nodeRead⟩ := Option.bind_eq_some_iff.1 nodeRead
      refine ⟨Document.natural?_lt nodeRead, ?_⟩
      cases line with
      | none =>
          obtain rfl := Option.some.inj lineRead
          rintro line ⟨⟩
      | some line => exact Document.nullable?_lt lineRead
  · cases read

theorem Finding.storable_of_ofDocument? {document : Document}
    {finding : Finding} (read : ofDocument? document = some finding) :
    finding.Storable := by
  rw [ofDocument?] at read
  obtain ⟨fields, _, read⟩ := Option.bind_eq_some_iff.1 read
  split at read
  · next primary evidence _ =>
      obtain ⟨_, _, read⟩ := Option.bind_eq_some_iff.1 read
      obtain ⟨_, _, read⟩ := Option.bind_eq_some_iff.1 read
      obtain ⟨_, _, read⟩ := Option.bind_eq_some_iff.1 read
      obtain ⟨_, _, read⟩ := Option.bind_eq_some_iff.1 read
      obtain ⟨directive, primaryRead, read⟩ := Option.bind_eq_some_iff.1 read
      obtain ⟨others, evidenceRead, read⟩ := Option.bind_eq_some_iff.1 read
      obtain rfl := Option.some.inj read
      obtain ⟨_, _, primaryRead⟩ := Option.bind_eq_some_iff.1 primaryRead
      refine ⟨Snapshot.storable_of_ofDocument? primaryRead, ?_⟩
      intro snapshot member
      cases evidence with
      | none =>
          obtain rfl := Option.some.inj evidenceRead
          cases member
      | some evidence =>
          obtain ⟨item, itemRead⟩ := exists_of_mem_list? evidenceRead member
          exact Snapshot.storable_of_ofDocument? itemRead
  · cases read

theorem FileReport.storable_of_ofDocument? {document : Document}
    {report : FileReport} (read : ofDocument? document = some report) :
    report.Storable := by
  rw [ofDocument?] at read
  obtain ⟨fields, _, read⟩ := Option.bind_eq_some_iff.1 read
  split at read
  · next generatedAt findings _ =>
      obtain ⟨_, _, read⟩ := Option.bind_eq_some_iff.1 read
      obtain ⟨time, timeRead, read⟩ := Option.bind_eq_some_iff.1 read
      obtain ⟨found, findingsRead, read⟩ := Option.bind_eq_some_iff.1 read
      obtain rfl := Option.some.inj read
      obtain ⟨_, _, timeRead⟩ := Option.bind_eq_some_iff.1 timeRead
      obtain ⟨_, _, timeRead⟩ := Option.bind_eq_some_iff.1 timeRead
      obtain ⟨_, _, findingsRead⟩ := Option.bind_eq_some_iff.1 findingsRead
      refine ⟨Instant.valid_of_ofText? timeRead, fun finding member => ?_⟩
      obtain ⟨item, itemRead⟩ := exists_of_mem_list? findingsRead member
      exact Finding.storable_of_ofDocument? itemRead
  · cases read

theorem FileReport.storable_of_listOfText? {text : String} {reports : List FileReport}
    (read : listOfText? text = some reports) :
    ∀ report ∈ reports, report.Storable := by
  intro report member
  obtain ⟨document, _, read⟩ := Option.bind_eq_some_iff.1 read
  obtain ⟨item, itemRead⟩ := exists_of_mem_list? read member
  exact storable_of_ofDocument? itemRead

/-! ## What linting makes -/

/-- The numbers of the directives and their lines fit 64 bits. -/
structure ConfigTree.Addressable (tree : ConfigTree) : Prop where
  size : tree.size < 2 ^ 64
  line : ∀ id line, tree.line id = some line → line < 2 ^ 64

namespace ConfigTree

section Findings

variable {tree : ConfigTree} (addressable : tree.Addressable) {id : Nat}
  (placed : id ≤ tree.size)

include addressable placed

theorem Addressable.snapshot : (tree.snapshot id).Storable where
  node := Nat.lt_of_le_of_lt placed addressable.size
  line := addressable.line id

theorem Addressable.resolverFinding (severity : Severity) (message : String)
    {evidence : List FixedServer}
    (servers : ∀ server ∈ evidence, server.directive ≤ tree.size) :
    (tree.resolverFinding id severity message evidence).Storable where
  primary := addressable.snapshot placed
  evidence := by
    intro snapshot member
    obtain ⟨server, listed, rfl⟩ := List.mem_map.1 member
    exact addressable.snapshot (servers server listed)

theorem Addressable.analyze {finding : Finding}
    (member : finding ∈ tree.analyze id) : finding.Storable := by
  obtain ⟨severity, message, servers, rfl, visible⟩ :=
    eq_resolverFinding_of_mem_analyze member
  refine addressable.resolverFinding placed severity message
    fun server listed => ?_
  obtain ⟨host, inGroup⟩ := visible server listed
  obtain ⟨_, _, _, _, child, _⟩ := mem_groupServers.1 inGroup
  exact le_size_of_parent? child

end Findings

/-- The rule makes findings in range, whatever directives it audits. -/
theorem Addressable.lint {tree : ConfigTree} (addressable : tree.Addressable)
    {rules : List Rule}
    (standard : ∀ rule ∈ rules, ∃ directives,
      rule = MissingResolver.rule directives) :
    ∀ finding ∈ (ProxyLint.lint rules tree []).reported, finding.Storable := by
  intro finding member
  rw [reported_lint, List.nil_append] at member
  obtain ⟨audit, audited, found⟩ := List.mem_flatMap.1 member
  obtain ⟨id, walked, audited⟩ := List.mem_flatMap.1 audited
  obtain ⟨rule, listed, rfl⟩ := List.mem_map.1 audited
  obtain ⟨directives, rfl⟩ := standard rule (List.mem_of_mem_filter listed)
  obtain ⟨_, held, _⟩ := parent_of_mem_walk walked
  exact addressable.analyze (le_size_of_parent? held) found

end ConfigTree

/-- A run over files reports in range at every time of the calendar. -/
theorem FileReport.storable_of_lintFiles {rules : List Rule}
    (standard : ∀ rule ∈ rules, ∃ directives,
      rule = MissingResolver.rule directives)
    {read : String → Except ReadFailure String} {now : Instant}
    (valid : now.Valid) (minimum : Severity) {paths : List String}
    (addressable : ∀ path ∈ paths, ∀ tree ∈ treeOf? read path,
      tree.Addressable) :
    ∀ report ∈ (lintFiles rules read now minimum paths).reports,
      report.Storable := by
  change ∀ report ∈ (FileRun.ofPaths rules read now minimum paths).reports,
    report.Storable
  induction paths with
  | nil => exact List.forall_mem_nil _
  | cons path paths ih =>
      have others := ih fun other member =>
        addressable other (List.mem_cons_of_mem _ member)
      rw [FileRun.ofPaths]
      rcases lintFile_cases rules read path with
        ⟨failure, failed, _⟩ | ⟨tree, linted, found⟩
      · rw [failed]
        exact others
      · rw [linted]
        refine List.forall_mem_cons.2 ⟨⟨valid, fun finding member => ?_⟩, others⟩
        exact (addressable path List.mem_cons_self tree found).lint standard
          finding (List.mem_of_mem_filter member)

end ProxyLint
