import ProxyLint.CommandLine.FileRun
import Mathlib.Data.List.Basic

/-!
# What a run over files reports

A run has one report for every file that can be read and parsed, in the order
of the paths, with the findings of that file that reach the minimal severity.
All other files count as failures, and the exit status follows from the two.
-/

namespace ProxyLint

/-- The tree of a file, if the file can be read and parsed. -/
def treeOf? (read : String → Except ReadFailure String) (path : String) :
    Option ConfigTree :=
  (read path).toOption.bind fun text => (ConfigTree.parse text).toOption

/-- What is reported for a file, if anything: its path and those findings of a
pass over its tree alone that reach a severity. -/
def reported? (rules : List Rule) (read : String → Except ReadFailure String)
    (minimum : Severity) (path : String) : Option (String × List Finding) :=
  (treeOf? read path).map fun tree =>
    (path, findingsAtLeast minimum (lint rules tree []).reported)

/-- A report without its time. -/
def FileReport.content (report : FileReport) : String × List Finding :=
  (report.path, report.findings)

/-- A file fails if it has no tree, and otherwise gives the findings of its
tree. -/
theorem lintFile_cases (rules : List Rule)
    (read : String → Except ReadFailure String) (path : String) :
    (∃ failure, lintFile rules read path = .error failure ∧
      treeOf? read path = none) ∨
    ∃ tree, lintFile rules read path = .ok (lint rules tree []).reported ∧
      treeOf? read path = some tree := by
  cases content : read path with
  | error failure =>
      refine .inl ⟨.unreadable path failure, ?_, ?_⟩
      · rw [lintFile, content]
        rfl
      · rw [treeOf?, content]
        rfl
  | ok text =>
      cases parsed : ConfigTree.parse text with
      | error fault =>
          refine .inl ⟨.malformed fault, ?_, ?_⟩
          · rw [lintFile, content, ConfigTree.load, parsed]
            rfl
          · rw [treeOf?, content]
            change (ConfigTree.parse text).toOption = none
            rw [parsed]
            rfl
      | ok tree =>
          refine .inr ⟨tree, ?_, ?_⟩
          · rw [lintFile, content, ConfigTree.load, parsed]
            rfl
          · rw [treeOf?, content]
            change (ConfigTree.parse text).toOption = some tree
            rw [parsed]
            rfl

namespace FileRun

variable (rules : List Rule) (read : String → Except ReadFailure String)
  (now : Instant) (minimum : Severity)

theorem ofPaths_contents (paths : List String) :
    (ofPaths rules read now minimum paths).reports.map FileReport.content =
      paths.filterMap (reported? rules read minimum) := by
  induction paths with
  | nil => rfl
  | cons path paths ih =>
      rw [ofPaths, List.filterMap_cons, reported?]
      rcases lintFile_cases rules read path with
        ⟨failure, failed, untreed⟩ | ⟨tree, linted, found⟩
      · rw [failed, untreed]
        exact ih
      · rw [linted, found, Option.map_some, ← ih]
        rfl

theorem ofPaths_failures (paths : List String) :
    (ofPaths rules read now minimum paths).failures =
      paths.countP fun path => (treeOf? read path).isNone := by
  induction paths with
  | nil => rfl
  | cons path paths ih =>
      rw [ofPaths, List.countP_cons]
      rcases lintFile_cases rules read path with
        ⟨failure, failed, untreed⟩ | ⟨tree, linted, found⟩
      · rw [failed, untreed, ← ih]
        rfl
      · rw [linted, found, ← ih]
        rfl

/-- The status of a run depends on its failures and on what it reports. -/
theorem code_exitStatus (run : FileRun) :
    run.exitStatus.code =
      if 0 < run.failures then 2
      else if (run.reports.map FileReport.content).any fun content =>
        !content.2.isEmpty then 3
      else 0 := by
  rw [exitStatus, List.any_map]
  split
  · rfl
  · change _ = if (run.reports.any fun report =>
      !report.findings.isEmpty) = true then 3 else 0
    split <;> rfl

end FileRun

end ProxyLint
