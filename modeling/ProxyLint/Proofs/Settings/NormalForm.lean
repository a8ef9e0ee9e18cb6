import ProxyLint.Proofs.Json.Depth
import ProxyLint.Proofs.Reports.Roundtrip
import ProxyLint.Settings.Encoding

/-!
# The normal form of settings

Settings can be spelled in many ways: the tag of a rule may stand anywhere or
in front of an array, keys may be unknown, missing or repeated, and enumerated
values have two forms.  What is written for settings is read back as the same
settings, so that one spelling is chosen for each of them.
-/

namespace ProxyLint

open Json

/-! ## Parts of the report -/

theorem OutputFormat.survives (format : OutputFormat) :
    Survives (fun format => .text format.label) ofDocument? format := by
  refine ⟨.text (unitsOf format.label), by rw [Value.document?], ?_⟩
  rw [ofDocument?, Document.choice?, textOf?_unitsOf]
  cases format with
  | text => rfl
  | json => rfl

theorem ReportSettings.survives (settings : ReportSettings) :
    Survives value ofDocument? settings := by
  obtain ⟨severity, severityEncoded, severityDecoded⟩ :=
    settings.minSeverity.survives
  obtain ⟨format, formatEncoded, formatDecoded⟩ := settings.format.survives
  refine ⟨record [("min_severity", severity), ("format", format)], ?_, ?_⟩
  · exact (writesMembers_cons "min_severity" severityEncoded <|
      writesMembers_cons "format" formatEncoded
        writesMembers_nil).document?_object
  · rw [ofDocument?, fields?_record]
    simp [Document.unique?, Document.optional?, severityDecoded, formatDecoded]

namespace RuleSettings

def integersOnly : RuleSettings → Bool
  | .missingResolver _ => true
  | .custom _ settings => settings.integersOnly

/-- What is left of a rule without its tag is nested no deeper. -/
theorem depth_le_of_tagged? {document fields : Document} {tag : String}
    (tagged : tagged? document = some (tag, fields)) :
    fields.depth ≤ document.depth := by
  unfold tagged? at tagged
  split at tagged
  next first items =>
    obtain ⟨_, _, tagged⟩ := Option.bind_eq_some_iff.1 tagged
    cases tagged
    rw [Document.depth, Document.depth, depthOfItems]
    exact Nat.succ_le_succ (Nat.le_max_right _ _)
  next members =>
    obtain ⟨_, _, tagged⟩ := Option.bind_eq_some_iff.1 tagged
    obtain ⟨_, _, tagged⟩ := Option.bind_eq_some_iff.1 tagged
    obtain ⟨_, _, tagged⟩ := Option.bind_eq_some_iff.1 tagged
    obtain ⟨_, _, tagged⟩ := Option.bind_eq_some_iff.1 tagged
    cases tagged
    rw [Document.depth, Document.depth]
    refine Nat.succ_le_succ (depthOfMembers_le fun member listed => ?_)
    exact depth_le_depthOfMembers (List.mem_of_mem_filter listed)
  next => cases tagged

/-- The value of a custom rule can be written inside the rule. -/
def Nests (depthAround : Nat) : RuleSettings → Prop
  | .missingResolver _ => True
  | .custom _ settings => ∃ bound, settings.Rereads bound ∧
      bound + 1 + depthAround ≤ depthLimit

/-- The value of a custom rule was read inside the rule. -/
theorem exists_of_ofFields?_custom {type factory : String} {fields : Document}
    {settings : Value}
    (read : ofFields? type fields = some (.custom factory settings)) :
    ∃ written : Document, written.value? = some settings ∧
      written.depth < fields.depth := by
  unfold ofFields? at read
  split at read
  next =>
    obtain ⟨_, _, read⟩ := Option.bind_eq_some_iff.1 read
    split at read
    next =>
      obtain ⟨_, _, read⟩ := Option.bind_eq_some_iff.1 read
      cases read
    next => cases read
  next =>
    split at read
    next =>
      obtain ⟨parts, found, read⟩ := Option.bind_eq_some_iff.1 read
      split at read
      next _ config _ =>
        obtain ⟨_, _, read⟩ := Option.bind_eq_some_iff.1 read
        obtain ⟨_, configRead, read⟩ := Option.bind_eq_some_iff.1 read
        cases read
        obtain ⟨written, rfl, valued⟩ := Option.bind_eq_some_iff.1 configRead
        exact ⟨written, valued, Document.depth_lt_of_fields? found
          (List.mem_cons_of_mem _ List.mem_cons_self)⟩
      next => cases read
    next => cases read

theorem nests_of_ofDocument? {depthAround : Nat} {document : Document}
    {rule : RuleSettings}
    (read : ofDocument? depthAround document = some rule) :
    rule.Nests depthAround := by
  unfold ofDocument? at read
  split at read
  next acceptable =>
    obtain ⟨⟨tag, fields⟩, tagged, read⟩ := Option.bind_eq_some_iff.1 read
    have inside := depth_le_of_tagged? tagged
    have shallow : document.depth + depthAround ≤ depthLimit :=
      of_decide_eq_true (Bool.and_eq_true_iff.1 acceptable).1
    cases rule with
    | missingResolver directives => trivial
    | custom factory settings =>
        obtain ⟨written, valued, deeper⟩ := exists_of_ofFields?_custom read
        exact ⟨written.depth, written.rereads valued, by omega⟩
  next => cases read

/-- A record with a tag in front of its members is a rule of this type. -/
theorem ofDocument?_record {depthAround bound : Nat} (tag : String)
    {members : List (String × Document)}
    (untagged : ∀ member ∈ members, member.1 ≠ "type")
    (within : ∀ member ∈ members, member.2.depth ≤ bound)
    (shallow : bound + 1 + depthAround ≤ depthLimit)
    (acceptable : ∀ member ∈ members, member.2.value?.isSome = true) :
    ofDocument? depthAround
        (record (("type", .text (unitsOf tag)) :: members)) =
      ofFields? tag (record members) := by
  have depth : (record (("type", .text (unitsOf tag)) :: members)).depth ≤
      bound + 1 := by
    refine depth_record_le fun member listed => ?_
    rcases List.mem_cons.1 listed with rfl | listed
    · exact Nat.zero_le _
    · exact within member listed
  have valued : (record
      (("type", .text (unitsOf tag)) :: members)).value?.isSome = true := by
    refine isSome_value?_record fun member listed => ?_
    rcases List.mem_cons.1 listed with rfl | listed
    · rw [Document.value?, textOf?_unitsOf]
      rfl
    · exact acceptable member listed
  have tagged : tagged? (record (("type", .text (unitsOf tag)) :: members)) =
      some (tag, record members) := by
    have others : members.filter (fun member => member.1 == "type") = [] := by
      simpa using untagged
    have kept : (members.map fun member =>
        (unitsOf member.1, member.2)).filter
          (fun member => textOf? member.1 != some "type") =
        members.map fun member => (unitsOf member.1, member.2) := by
      refine List.filter_eq_self.2 fun member listed => ?_
      obtain ⟨original, inside, rfl⟩ := List.mem_map.1 listed
      simpa using untagged original inside
    rw [record, tagged?, keyed?_record]
    simp [Document.unique?, others, kept, Document.text?, record]
  rw [ofDocument?, if_pos (by simp [valued]; omega), tagged]
  rfl

theorem Nests.survives {depthAround : Nat}
    (around : depthAround + 2 ≤ depthLimit) {rule : RuleSettings}
    (nests : rule.Nests depthAround) (integers : rule.integersOnly = true) :
    Survives value (ofDocument? depthAround) rule := by
  cases rule with
  | missingResolver directives =>
      obtain ⟨list, encoded, decoded⟩ :=
        survives_list fun text (_ : text ∈ directives) => survives_text text
      obtain ⟨valued, within⟩ := rereads_texts directives list encoded
      refine ⟨record [("type", .text (unitsOf "missing_resolver")),
        ("directives", list)], ?_, ?_⟩
      · exact (writesMembers_cons "type" (by rw [Value.document?]) <|
          writesMembers_cons "directives" encoded
            writesMembers_nil).document?_object
      · rw [ofDocument?_record "missing_resolver" (by simp)
          (by simpa using within) (by omega) (by simp [valued]), ofFields?,
          if_pos rfl, fields?_record]
        simp [Document.unique?, Document.optional?, decoded]
  | custom factory settings =>
      obtain ⟨bound, rereads, shallow⟩ := nests
      obtain ⟨config, encoded⟩ := Option.isSome_iff_exists.1
        (settings.isSome_document?.trans integers)
      obtain ⟨valued, within⟩ := rereads config encoded
      obtain ⟨name, nameEncoded, nameDecoded⟩ := survives_text factory
      obtain ⟨nameValued, nameWithin⟩ := rereads_text factory name nameEncoded
      refine ⟨record [("type", .text (unitsOf "custom")), ("factory", name),
        ("config", config)], ?_, ?_⟩
      · exact (writesMembers_cons "type" (by rw [Value.document?]) <|
          writesMembers_cons "factory" nameEncoded <|
          writesMembers_cons "config" encoded
            writesMembers_nil).document?_object
      · rw [ofDocument?_record "custom" (by simp)
          (by simpa using ⟨nameWithin.trans (Nat.zero_le _), within⟩) shallow
          (by simp [valued, nameValued]), ofFields?, if_neg (by decide),
          if_pos rfl, fields?_record]
        simp [Document.unique?, Document.required?, nameDecoded, valued]

end RuleSettings

namespace LintSettings

/-- Whether all numbers in the values of custom rules are integers. -/
def integersOnly (settings : LintSettings) : Bool :=
  settings.rules.all RuleSettings.integersOnly

theorem nests_of_ofText? {text : String} {settings : LintSettings}
    (read : ofText? text = some settings) {rule : RuleSettings}
    (listed : rule ∈ settings.rules) : rule.Nests depthAroundRules := by
  obtain ⟨document, _, read⟩ := Option.bind_eq_some_iff.1 read
  obtain ⟨fields, _, read⟩ := Option.bind_eq_some_iff.1 read
  split at read
  next rules report =>
    obtain ⟨decoded, rulesRead, read⟩ := Option.bind_eq_some_iff.1 read
    obtain ⟨_, _, read⟩ := Option.bind_eq_some_iff.1 read
    obtain rfl := Option.some.inj read
    obtain ⟨_, _, rulesRead⟩ := Option.bind_eq_some_iff.1 rulesRead
    obtain ⟨item, itemRead⟩ := exists_of_mem_list? rulesRead listed
    exact RuleSettings.nests_of_ofDocument? itemRead
  next => cases read

theorem survives {settings : LintSettings}
    (nests : ∀ rule ∈ settings.rules, rule.Nests depthAroundRules)
    (integers : settings.integersOnly = true) :
    Survives value ofDocument? settings := by
  obtain ⟨rules, rulesEncoded, rulesDecoded⟩ :=
    survives_list fun rule listed => (nests rule listed).survives
      (by decide) (List.all_eq_true.1 integers rule listed)
  obtain ⟨report, reportEncoded, reportDecoded⟩ := settings.report.survives
  refine ⟨record [("rules", rules), ("report", report)], ?_, ?_⟩
  · exact (writesMembers_cons "rules" rulesEncoded <|
      writesMembers_cons "report" reportEncoded
        writesMembers_nil).document?_object
  · rw [ofDocument?, fields?_record]
    simp [Document.unique?, Document.required?, Document.optional?,
      rulesDecoded, reportDecoded]

/-- Settings that were read from any text, without floating-point numbers, are
read back from what is written for them, and give the same text again.  Both
texts load with the same result. -/
theorem render_normal_form {text : String} {settings : LintSettings}
    (read : ofText? text = some settings)
    (integers : settings.integersOnly = true) :
    ofText? settings.render = some settings ∧
      (ofText? settings.render).map render = some settings.render ∧
      load (.ok settings.render) = load (.ok text) := by
  obtain ⟨document, encoded, decoded⟩ :=
    survives (fun _ listed => nests_of_ofText? read listed) integers
  have readBack : ofText? settings.render = some settings := by
    rw [ofText?, render, Value.parse?_render encoded]
    exact decoded
  refine ⟨readBack, congrArg (Option.map render) readBack, ?_⟩
  simp only [load, Except.mapError, bind, Except.bind, readBack, read]

/-- A rule with its tag behind the fields and with a repeated key, and a report
in the array form. -/
def unusualText : String :=
  "\x7b\"rules\":[\x7b\"config\":\x7b\"b\":1,\"a\":2,\"b\":-3\x7d," ++
  "\"factory\":\"f\",\"type\":\"custom\"\x7d],\"report\":[\"HIGH\"]\x7d"

def normalText : String :=
  "\x7b\"rules\":[\x7b\"type\":\"custom\",\"factory\":\"f\"," ++
  "\"config\":\x7b\"a\":2,\"b\":-3\x7d\x7d]," ++
  "\"report\":\x7b\"min_severity\":\"HIGH\",\"format\":\"text\"\x7d\x7d"

theorem unusualText_normal_form :
    ∃ settings, ofText? unusualText = some settings ∧
      settings.integersOnly = true ∧ settings.render = normalText ∧
      ofText? normalText = some settings ∧
      load (.ok normalText) = load (.ok unusualText) := by
  have known : (ofText? unusualText).map
      (fun settings => (settings.integersOnly, settings.render)) =
        some (true, normalText) := by
    decide +kernel
  obtain ⟨settings, read, same⟩ := Option.map_eq_some_iff.1 known
  obtain ⟨integers, rendered⟩ := Prod.mk.inj same
  obtain ⟨readBack, _, loaded⟩ := render_normal_form read integers
  rw [rendered] at readBack loaded
  exact ⟨settings, read, integers, rendered, readBack, loaded⟩

end LintSettings

end ProxyLint
