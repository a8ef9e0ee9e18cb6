import ProxyLint.CommandLine.Program
import ProxyLint.Proofs.Text.Trimming

/-!
# What validation promises

Options are validated once, before anything is read.  Without a settings file
nothing that comes later can reject what validation has let through: the
settings are usable, every rule is registered and its factory accepts it.  The
program then ends as its files demand, and options that are rejected end it
before a file is read.
-/

namespace ProxyLint

/-- The entries of a text that lists them with commas: what each piece between
commas has between blanks, where that is not empty. -/
def IsListOf (text : String) (entries : List String) : Prop :=
  ∃ parts : List (List Char × String), parts ≠ [] ∧
    text.toList = [','].intercalate (parts.map Prod.fst) ∧
    (∀ part ∈ parts, ',' ∉ part.1 ∧ Text.IsCore part.1 part.2.toList) ∧
    entries = (parts.map Prod.snd).filter fun entry => !entry.isEmpty

namespace Options

theorem isListOf_splitList (text : String) : IsListOf text (splitList text) := by
  refine ⟨(Text.pieces ',' text.toList).map fun piece =>
    (piece, Text.trim (String.ofList piece)), ?_, ?_, ?_, ?_⟩
  · simpa using Text.pieces_ne_nil ',' text.toList
  · rw [List.map_map]
    exact (Text.intercalate_pieces ',' text.toList).symm.trans
      (congrArg _ (List.map_id _).symm)
  · intro part member
    obtain ⟨piece, present, rfl⟩ := List.mem_map.1 member
    have core := Text.isCore_trim (String.ofList piece)
    rw [String.toList_ofList] at core
    exact ⟨Text.not_mem_of_mem_pieces present, core⟩
  · rw [List.map_map]
    rfl

theorem isListOf_iff {text : String} {entries : List String} :
    IsListOf text entries ↔ entries = splitList text := by
  constructor
  · rintro ⟨parts, nonempty, joined, cut, rfl⟩
    have pieces : Text.pieces ',' text.toList = parts.map Prod.fst := by
      rw [joined]
      refine Text.pieces_intercalate (by simpa using nonempty) ?_
      intro piece member
      obtain ⟨part, present, rfl⟩ := List.mem_map.1 member
      exact (cut part present).1
    have trimmed : parts.map Prod.snd =
        (parts.map Prod.fst).map fun piece =>
          Text.trim (String.ofList piece) := by
      rw [List.map_map]
      refine List.map_congr_left fun part present => ?_
      refine Text.eq_trim_of_isCore ?_
      rw [String.toList_ofList]
      exact (cut part present).2
    rw [splitList, pieces, trimmed]
  · rintro rfl
    exact isListOf_splitList text

theorem not_isBlankText_of_mem_splitList {text entry : String}
    (member : entry ∈ splitList text) : Text.isBlankText entry = false := by
  obtain ⟨parts, _, _, cut, entries⟩ := isListOf_splitList text
  rw [entries] at member
  obtain ⟨listed, nonempty⟩ := List.mem_filter.1 member
  obtain ⟨part, present, rfl⟩ := List.mem_map.1 listed
  exact (cut part present).2.isBlankText_eq_false (by simpa using nonempty)

/-- What validation has checked when it accepts. -/
structure Accepted (options : Options) (severity : Option Severity)
    (format : Option OutputFormat) : Prop where
  rules_checked : options.checkRules = .ok ()
  severity_eq : options.severity? = .ok severity
  format_eq : options.format? = .ok format

theorem accepted_of_validate {options : Options}
    (valid : options.validate = .ok ()) :
    ∃ severity format, Accepted options severity format := by
  rw [validate] at valid
  split at valid
  · cases valid
  · cases rulesChecked : options.checkRules with
    | error fault =>
        rw [rulesChecked] at valid
        cases valid
    | ok _ =>
        cases severityRead : options.severity? with
        | error fault =>
            rw [rulesChecked, severityRead] at valid
            cases valid
        | ok severity =>
            cases formatRead : options.format? with
            | error fault =>
                rw [rulesChecked, severityRead, formatRead] at valid
                cases valid
            | ok format =>
                exact ⟨severity, format, rulesChecked, severityRead, formatRead⟩

theorem rules_of_checkRules {options : Options}
    (noFile : options.settingsPath = none)
    (checked : options.checkRules = .ok ()) :
    options.rules ≠ [] ∧ ∀ entry ∈ options.rules, entry = Advice.ruleName := by
  rw [checkRules, noFile] at checked
  split at checked
  · contradiction
  · split at checked
    · cases checked
    · next nonempty =>
        split at checked
        · cases checked
        · next supported =>
            refine ⟨by simpa using nonempty, fun entry member => ?_⟩
            have known := List.find?_eq_none.1 supported entry member
            simpa [OptionsFault.supportedRules, Advice.ruleName] using known

/-- The settings that options without a settings file stand for. -/
def ownSettings (options : Options) (severity : Option Severity)
    (format : Option OutputFormat) : LintSettings where
  rules := options.rules.map fun _ => .missingResolver options.directives
  report := {
    minSeverity := severity.getD ReportSettings.default.minSeverity
    format := format.getD ReportSettings.default.format }

theorem validate_ownSettings {options : Options} (severity : Option Severity)
    (format : Option OutputFormat) (nonempty : options.rules ≠ [])
    (named : ∀ directive ∈ options.directives,
      Text.isBlankText directive = false) :
    (options.ownSettings severity format).validate = .ok () := by
  have usable : (RuleSettings.missingResolver options.directives).validate =
      .ok () := by
    have none : options.directives.any Text.isBlankText = false := by
      simpa using named
    rw [RuleSettings.validate, none]
    rfl
  have all (entries : List String) : LintSettings.validateRules
      (entries.map fun _ => .missingResolver options.directives) = .ok () := by
    induction entries with
    | nil => rfl
    | cons entry entries ih =>
        rw [List.map_cons, LintSettings.validateRules, usable]
        exact ih
  rw [LintSettings.validate, if_neg (by simpa [ownSettings] using nonempty)]
  exact all options.rules

theorem settings_eq_ownSettings {options : Options} {severity : Option Severity}
    {format : Option OutputFormat} (noFile : options.settingsPath = none)
    (accepted : Accepted options severity format)
    (valid : (options.ownSettings severity format).validate = .ok ())
    (read : String → Except ReadFailure String) :
    options.settings read = .ok (options.ownSettings severity format) := by
  have base : options.baseSettings read = .ok (.ofRules
      (options.rules.map fun _ => .missingResolver options.directives)) := by
    rw [baseSettings, noFile]
  have overridden : options.override (.ofRules
      (options.rules.map fun _ => .missingResolver options.directives)) =
        .ok (options.ownSettings severity format) := by
    rw [override, accepted.severity_eq, accepted.format_eq]
    rfl
  have checked : (options.ownSettings severity format).validate.mapError
      OptionsFault.settings = .ok () := by
    rw [valid]
    rfl
  rw [settings, base]
  change (options.override _ >>= fun settings =>
    settings.validate.mapError OptionsFault.settings >>= fun _ =>
      .ok settings) = _
  rw [overridden]
  change ((options.ownSettings severity format).validate.mapError
    OptionsFault.settings >>= fun _ => _) = _
  rw [checked]
  rfl

end Options

namespace MissingResolver

/-- The directives that a rule audits if its settings name the given ones. -/
def auditedKinds (directives : List String) : List String :=
  if directives = [] then defaultDirectives else directives

theorem factory_missingResolver (directives : List String) :
    factory (.missingResolver directives) =
      .ok (rule (auditedKinds directives)) := by
  cases directives <;> rfl

end MissingResolver

namespace Registry

theorem createAll_standard (directives entries : List String) :
    standard.createAll
        (entries.map fun _ => .missingResolver directives) =
      .ok (List.replicate entries.length
        (MissingResolver.rule (MissingResolver.auditedKinds directives))) := by
  induction entries with
  | nil => rfl
  | cons entry entries ih =>
      have created : standard.createRule (.missingResolver directives) =
          .ok (MissingResolver.rule
            (MissingResolver.auditedKinds directives)) :=
        MissingResolver.factory_missingResolver directives
      rw [List.map_cons, createAll, created, ih]
      rfl

end Registry

namespace Options

/-- The entries that a variable lists, or the default if it is not set. -/
def Lists (value : Option String) (default entries : List String) : Prop :=
  match value with
  | none => entries = default
  | some text => IsListOf text entries

/-- What a variable means, or the default if it is not set. -/
def Means {α : Type} (value : Option String)
    (read : String → Except SettingsFault α) (default result : α) : Prop :=
  match value with
  | none => result = default
  | some text => read text = .ok result

theorem lists_iff {value : Option String} {default entries : List String} :
    Lists value default entries ↔ entries = (value.map splitList).getD default := by
  cases value with
  | none => rfl
  | some text => exact isListOf_iff

/-- A variable that is not set leaves the default, and any other one has been
read. -/
theorem means_of_read {α : Type} {value : Option String}
    {read : String → Except SettingsFault α} {given : Option α} (default : α)
    (parsed : (value.elim (.ok none) fun text =>
      (some <$> read text).mapError OptionsFault.settings) = .ok given) :
    Means value read default (given.getD default) := by
  cases value with
  | none =>
      cases parsed
      rfl
  | some text =>
      rw [Option.elim_some] at parsed
      cases result : read text with
      | error fault =>
          rw [result] at parsed
          cases parsed
      | ok meant =>
          rw [result] at parsed
          cases parsed
          exact result

theorem Accepted.means_severity {options : Options}
    {severity : Option Severity} {format : Option OutputFormat}
    (accepted : Accepted options severity format) :
    Means options.minSeverity Severity.ofText .medium
      (options.ownSettings severity format).report.minSeverity := by
  refine means_of_read Severity.medium ?_
  rw [← accepted.severity_eq, severity?]
  cases options.minSeverity <;> rfl

theorem Accepted.means_format {options : Options}
    {severity : Option Severity} {format : Option OutputFormat}
    (accepted : Accepted options severity format) :
    Means options.format OutputFormat.ofText .text
      (options.ownSettings severity format).report.format := by
  refine means_of_read OutputFormat.text ?_
  rw [← accepted.format_eq, format?]
  cases options.format <;> rfl

end Options

theorem FileRun.exitStatus_ne_unusableSettings (run : FileRun) :
    run.exitStatus ≠ .unusableSettings := by
  rw [exitStatus]
  split
  · simp
  · split <;> simp

theorem ExitStatus.code_eq_one_iff (status : ExitStatus) :
    status.code = 1 ↔ status = .unusableSettings := by
  cases status <;> simp [code]

section WithoutFile

variable {arguments : List String} {variableValue : String → Option String}
  {options : Options}
  (given : options = .ofEnvironment arguments variableValue)
  (noFile : variableValue "RESOLVELINT_CONFIG" = none)

include given noFile

/-- Options that are accepted stand for usable settings, whose rules can be
made. -/
theorem Options.exists_settings_of_validate
    (valid : options.validate = .ok ()) :
    ∃ severity format, options.Accepted severity format ∧
      (∀ read, options.settings read =
        .ok (options.ownSettings severity format)) ∧
      (options.ownSettings severity format).validate = .ok () ∧
      Registry.standard.createRules (options.ownSettings severity format) =
        .ok (List.replicate options.rules.length (MissingResolver.rule
          (MissingResolver.auditedKinds options.directives))) := by
  obtain ⟨severity, format, accepted⟩ := accepted_of_validate valid
  have fileless : options.settingsPath = none := by
    rw [given]
    exact noFile
  have named : ∀ directive ∈ options.directives,
      Text.isBlankText directive = false := by
    intro directive member
    have listed : directive ∈
        ((variableValue "RESOLVELINT_DIRECTIVES").map splitList).getD [] := by
      rw [given] at member
      exact member
    cases value : variableValue "RESOLVELINT_DIRECTIVES" with
    | none => simp [value] at listed
    | some text =>
        rw [value] at listed
        exact not_isBlankText_of_mem_splitList listed
  have usable := validate_ownSettings severity format
    (rules_of_checkRules fileless accepted.rules_checked).1 named
  refine ⟨severity, format, accepted,
    settings_eq_ownSettings fileless accepted usable, usable, ?_⟩
  rw [Registry.createRules, usable]
  exact Registry.createAll_standard options.directives options.rules

end WithoutFile

theorem runProgram_of_rejected {options : Options} {fault : OptionsFault}
    (rejected : options.validate = .error fault)
    (read : String → Except ReadFailure String) (now : Instant) :
    runProgram options read now = .ofUnusableOptions fault := by
  rw [runProgram, rejected]

theorem runProgram_of_accepted {options : Options} {settings : LintSettings}
    {rules : List Rule} {read : String → Except ReadFailure String}
    (valid : options.validate = .ok ())
    (made : options.settings read = .ok settings)
    (created : Registry.standard.createRules settings = .ok rules)
    (now : Instant) :
    runProgram options read now = .ofRun settings.report.format
      (lintFiles rules read now settings.report.minSeverity options.files) := by
  rw [runProgram, valid, made]
  simp only
  rw [created]

/-- Without a settings file, options that are accepted lead to usable settings
and to one rule for every entry of the list of rules, with which all files are
linted.  Options that are rejected end the program before it reads a file.  So
the program ends with the status of a bad configuration if and only if
validation rejects. -/
theorem validation_complete (arguments : List String)
    (variableValue : String → Option String) (options : Options)
    (given : options = .ofEnvironment arguments variableValue)
    (noFile : variableValue "RESOLVELINT_CONFIG" = none) :
    (options.validate = .ok () →
      ∃ entries directives settings rules,
        (∀ other, Options.Lists (variableValue "RESOLVELINT_RULES")
          ["missing_resolver"] other ↔ other = entries) ∧
        (∀ other, Options.Lists (variableValue "RESOLVELINT_DIRECTIVES") []
          other ↔ other = directives) ∧
        Options.Means (variableValue "RESOLVELINT_MIN_SEVERITY")
          Severity.ofText .medium settings.report.minSeverity ∧
        Options.Means (variableValue "RESOLVELINT_FORMAT")
          OutputFormat.ofText .text settings.report.format ∧
        rules = List.replicate entries.length (MissingResolver.rule
          (MissingResolver.auditedKinds directives)) ∧
        settings.validate = .ok () ∧
        Registry.standard.createRules settings = .ok rules ∧
        ∀ read now, options.settings read = .ok settings ∧
          runProgram options read now = .ofRun settings.report.format
            (lintFiles rules read now settings.report.minSeverity
              arguments)) ∧
    (∀ fault, options.validate = .error fault →
      options.pathsToRead = [] ∧ ∀ read now,
        runProgram options read now = .ofUnusableOptions fault) ∧
    ∀ read now, (runProgram options read now).status.code = 1 ↔
      ∃ fault, options.validate = .error fault := by
  have files : options.files = arguments := by
    rw [given]
    rfl
  refine ⟨?_, ?_, ?_⟩
  · intro valid
    obtain ⟨severity, format, accepted, made, usable, created⟩ :=
      Options.exists_settings_of_validate given noFile valid
    refine ⟨options.rules, options.directives,
      options.ownSettings severity format, _, ?_, ?_, ?_, ?_, rfl, usable,
      created, ?_⟩
    · rw [given]
      exact fun other => Options.lists_iff
    · rw [given]
      exact fun other => Options.lists_iff
    · have meant := accepted.means_severity
      rwa [given] at meant ⊢
    · have meant := accepted.means_format
      rwa [given] at meant ⊢
    · intro read now
      refine ⟨made read, ?_⟩
      rw [← files]
      exact runProgram_of_accepted valid (made read) created now
  · intro fault rejected
    refine ⟨?_, runProgram_of_rejected rejected⟩
    rw [Options.pathsToRead, rejected]
  · intro read now
    rw [ExitStatus.code_eq_one_iff]
    cases checked : options.validate with
    | error fault =>
        rw [runProgram_of_rejected checked]
        exact ⟨fun _ => ⟨fault, rfl⟩, fun _ => rfl⟩
    | ok _ =>
        obtain ⟨severity, format, _, made, _, created⟩ :=
          Options.exists_settings_of_validate given noFile checked
        rw [runProgram_of_accepted checked (made read) created now]
        constructor
        · exact fun ended => absurd ended
            (FileRun.exitStatus_ne_unusableSettings _)
        · rintro ⟨_, rejected⟩
          cases rejected

/-- An environment with blanks and empty entries in its lists. -/
def spacedVariables : String → Option String
  | "RESOLVELINT_RULES" => some " missing_resolver,,missing_resolver\u3000"
  | "RESOLVELINT_DIRECTIVES" => some "proxy_pass,\t"
  | "RESOLVELINT_MIN_SEVERITY" => some "High"
  | _ => none

theorem spacedVariables_make_two_rules :
    (Options.ofEnvironment ["a.conf"] spacedVariables).validate = .ok () ∧
      ∃ settings, settings.report = ⟨.high, .text⟩ ∧
        Registry.standard.createRules settings =
          .ok [MissingResolver.rule ["proxy_pass"],
            MissingResolver.rule ["proxy_pass"]] := by
  have valid : (Options.ofEnvironment ["a.conf"] spacedVariables).validate =
      .ok () := by
    decide +kernel
  refine ⟨valid, ?_⟩
  obtain ⟨accepted, _⟩ := validation_complete ["a.conf"] spacedVariables _
    rfl rfl
  obtain ⟨entries, directives, settings, rules, entriesListed,
    directivesListed, severity, format, rulesMade, _, created, _⟩ :=
      accepted valid
  have entriesFound : ["missing_resolver", "missing_resolver"] = entries :=
    (entriesListed _).1 (Options.lists_iff.2 (by decide +kernel))
  have directivesFound : ["proxy_pass"] = directives :=
    (directivesListed _).1 (Options.lists_iff.2 (by decide +kernel))
  have high : Severity.ofText "High" = .ok settings.report.minSeverity :=
    severity
  have text : settings.report.format = .text := format
  have read : Severity.ofText "High" = .ok .high := by
    decide +kernel
  refine ⟨settings, ?_, ?_⟩
  · rw [← text, ← Except.ok.inj (high.symm.trans read)]
  · rw [created, rulesMade, ← entriesFound, ← directivesFound]
    rfl

end ProxyLint
