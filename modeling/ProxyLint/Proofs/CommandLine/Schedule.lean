import ProxyLint.Proofs.CommandLine.FileRun
import Mathlib.Algebra.Ring.Nat
import Mathlib.Data.List.Induction
import Mathlib.Logic.Relation

/-!
# Files linted side by side

Every file has a task of its own, which reads the file and then lints its text.
The tasks advance in any order, while outcomes are collected in the order of the
paths and each report gets the time at which it is collected.  Whatever the
order, every start can be completed, and what has been collected in the end is
the run over the files one after the other.
-/

namespace ProxyLint

/-- How far the task of a file has come. -/
inductive TaskState where
  | waiting
  | loaded (text : String)
  | finished (outcome : Except LoadFailure (List Finding))

structure FileTask where
  path : String
  state : TaskState

/-- The tasks that have not been collected, in the order of their paths, and
what has been collected. -/
structure TaskPool where
  tasks : List FileTask
  run : FileRun

/-- Add the outcome of a file that comes after all others. -/
def FileRun.add (run : FileRun) (path : String) (now : Instant)
    (minimum : Severity) (outcome : Except LoadFailure (List Finding)) :
    FileRun :=
  match outcome with
  | .ok findings =>
      { run with
        reports := run.reports ++ [.ofFindings path now findings minimum] }
  | .error failure =>
      { run with
        failures := run.failures + 1
        log := run.log ++ [failedEntry path failure] }

section Steps

variable (rules : List Rule) (read : String → Except ReadFailure String)
  (minimum : Severity)

inductive FileTask.Step : FileTask → FileTask → Prop where
  | load {path text : String} (content : read path = .ok text) :
      Step ⟨path, .waiting⟩ ⟨path, .loaded text⟩
  | miss {path : String} {failure : ReadFailure}
      (content : read path = .error failure) :
      Step ⟨path, .waiting⟩
        ⟨path, .finished (.error (.unreadable path failure))⟩
  | lint (path text : String) :
      Step ⟨path, .loaded text⟩
        ⟨path, .finished (lintFile rules (fun _ => .ok text) path)⟩

/-- One step of any task, or the collection of the first outcome. -/
inductive TaskPool.Step : TaskPool → TaskPool → Prop where
  | advance {before after : List FileTask} {task next : FileTask}
      {run : FileRun} (step : FileTask.Step rules read task next) :
      Step ⟨before ++ task :: after, run⟩ ⟨before ++ next :: after, run⟩
  | collect {path : String} {outcome : Except LoadFailure (List Finding)}
      {tasks : List FileTask} {run : FileRun} (now : Instant) :
      Step ⟨⟨path, .finished outcome⟩ :: tasks, run⟩
        ⟨tasks, run.add path now minimum outcome⟩

def TaskPool.Reaches : TaskPool → TaskPool → Prop :=
  Relation.ReflTransGen (TaskPool.Step rules read minimum)

end Steps

/-- One waiting task for every path. -/
def TaskPool.start (rules : List Rule) (paths : List String) : TaskPool where
  tasks := paths.map fun path => ⟨path, .waiting⟩
  run := ⟨[], 0, [FileRun.startedEntry rules paths]⟩

/-- A run that some order of steps ends with. -/
def Completes (rules : List Rule) (read : String → Except ReadFailure String)
    (minimum : Severity) (paths : List String) (run : FileRun) : Prop :=
  TaskPool.Reaches rules read minimum (.start rules paths) ⟨[], run⟩

/-! ## Every start can be completed -/

/-- How many steps a task and its collection take at most. -/
def TaskState.work : TaskState → Nat
  | waiting => 3
  | loaded _ => 2
  | finished _ => 1

def TaskPool.work (pool : TaskPool) : Nat :=
  (pool.tasks.map fun task => task.state.work).sum

section Progress

variable {rules : List Rule} {read : String → Except ReadFailure String}
  {minimum : Severity}

theorem FileTask.Step.work_lt {task next : FileTask}
    (step : FileTask.Step rules read task next) :
    next.state.work < task.state.work := by
  cases step <;> simp [TaskState.work]

/-- No order of steps goes on forever. -/
theorem TaskPool.Step.work_lt {pool next : TaskPool}
    (step : TaskPool.Step rules read minimum pool next) :
    next.work < pool.work := by
  cases step with
  | advance step =>
      have := step.work_lt
      simp only [work, List.map_append, List.map_cons, List.sum_append,
        List.sum_cons]
      omega
  | collect now =>
      simp [work, TaskState.work]

end Progress

section Completion

variable (rules : List Rule) (read : String → Except ReadFailure String)
  (minimum : Severity)

/-- As long as a task is left, there is something to do. -/
theorem TaskPool.exists_step (pool : TaskPool) (left : pool.tasks ≠ []) :
    ∃ next, TaskPool.Step rules read minimum pool next := by
  obtain ⟨tasks, run⟩ := pool
  cases tasks with
  | nil => exact absurd rfl left
  | cons task tasks =>
      have first {next : FileTask} (step : FileTask.Step rules read task next) :
          TaskPool.Step rules read minimum ⟨[] ++ task :: tasks, run⟩
            ⟨[] ++ next :: tasks, run⟩ :=
        .advance step
      obtain ⟨path, state⟩ := task
      cases state with
      | waiting =>
          cases content : read path with
          | ok text => exact ⟨_, first (.load content)⟩
          | error failure => exact ⟨_, first (.miss content)⟩
      | loaded text => exact ⟨_, first (.lint path text)⟩
      | finished outcome => exact ⟨_, .collect .epoch⟩

theorem TaskPool.exists_completion (pool : TaskPool) :
    ∃ run, TaskPool.Reaches rules read minimum pool ⟨[], run⟩ := by
  by_cases left : pool.tasks = []
  · obtain ⟨tasks, run⟩ := pool
    obtain rfl : tasks = [] := left
    exact ⟨run, .refl⟩
  · obtain ⟨next, step⟩ := pool.exists_step rules read minimum left
    have := step.work_lt
    obtain ⟨run, completed⟩ := next.exists_completion
    exact ⟨run, .head step completed⟩
termination_by pool.work

end Completion

/-! ## All orders collect the same -/

namespace FileRun

/-- A run as if everything had been collected at one time. -/
def timeless (run : FileRun) : FileRun :=
  { run with
    reports := run.reports.map fun report =>
      { report with generatedAt := .epoch } }

/-- A run with an entry in front of its log. -/
def after (run : FileRun) (entry : LogEntry) : FileRun :=
  { run with log := entry :: run.log }

theorem contents_timeless (run : FileRun) :
    run.timeless.reports.map FileReport.content =
      run.reports.map FileReport.content := by
  rw [timeless, List.map_map]
  rfl

theorem timeless_add (run : FileRun) (path : String) (now : Instant)
    (minimum : Severity) (outcome : Except LoadFailure (List Finding)) :
    (run.add path now minimum outcome).timeless =
      run.timeless.add path .epoch minimum outcome := by
  cases outcome with
  | ok findings => simp [add, timeless, FileReport.ofFindings]
  | error failure => rfl

theorem after_add (run : FileRun) (entry : LogEntry) (path : String)
    (now : Instant) (minimum : Severity)
    (outcome : Except LoadFailure (List Finding)) :
    (run.add path now minimum outcome).after entry =
      (run.after entry).add path now minimum outcome := by
  cases outcome <;> rfl

theorem cons_add (run : FileRun) (first path : String) (now : Instant)
    (minimum : Severity)
    (firstOutcome outcome : Except LoadFailure (List Finding)) :
    cons first now minimum firstOutcome (run.add path now minimum outcome) =
      (cons first now minimum firstOutcome run).add path now minimum
        outcome := by
  cases firstOutcome with
  | ok findings => cases outcome <;> rfl
  | error failure =>
      cases outcome with
      | ok findings => rfl
      | error other => simp [add, cons]

theorem ofPaths_concat (rules : List Rule)
    (read : String → Except ReadFailure String) (now : Instant)
    (minimum : Severity) (paths : List String) (path : String) :
    ofPaths rules read now minimum (paths ++ [path]) =
      (ofPaths rules read now minimum paths).add path now minimum
        (lintFile rules read path) := by
  induction paths with
  | nil =>
      change cons path now minimum (lintFile rules read path) ⟨[], 0, []⟩ = _
      cases lintFile rules read path <;> rfl
  | cons first paths ih =>
      rw [List.cons_append, ofPaths, ih, cons_add]
      rfl

theorem timeless_ofPaths (rules : List Rule)
    (read : String → Except ReadFailure String) (now : Instant)
    (minimum : Severity) (paths : List String) :
    (ofPaths rules read now minimum paths).timeless =
      ofPaths rules read .epoch minimum paths := by
  induction paths using List.reverseRecOn with
  | nil => rfl
  | append_singleton paths path ih =>
      rw [ofPaths_concat, timeless_add, ih, ofPaths_concat]

end FileRun

/-- What a task has read or found is what its file gives. -/
def FileTask.Sound (rules : List Rule)
    (read : String → Except ReadFailure String) (task : FileTask) : Prop :=
  match task.state with
  | .waiting => True
  | .loaded text => read task.path = .ok text
  | .finished outcome => outcome = lintFile rules read task.path

/-- Some paths at the start have been collected, and the tasks are those of the
other paths. -/
structure TaskPool.Follows (rules : List Rule)
    (read : String → Except ReadFailure String) (minimum : Severity)
    (paths collected : List String) (pool : TaskPool) : Prop where
  paths_eq : collected ++ pool.tasks.map FileTask.path = paths
  run_eq : pool.run.timeless =
    (FileRun.ofPaths rules read .epoch minimum collected).after
      (FileRun.startedEntry rules paths)
  sound : ∀ task ∈ pool.tasks, task.Sound rules read

section Outcome

variable {rules : List Rule} {read : String → Except ReadFailure String}
  {minimum : Severity} {paths : List String}

theorem FileTask.Step.sound {task next : FileTask}
    (step : FileTask.Step rules read task next)
    (sound : task.Sound rules read) :
    next.path = task.path ∧ next.Sound rules read := by
  cases step with
  | load content => exact ⟨rfl, content⟩
  | miss content =>
      refine ⟨rfl, ?_⟩
      change _ = lintFile rules read _
      rw [lintFile, content]
      rfl
  | lint path text =>
      refine ⟨rfl, ?_⟩
      change _ = lintFile rules read path
      have content : read path = .ok text := sound
      rw [lintFile, lintFile, content]

theorem TaskPool.follows_start :
    TaskPool.Follows rules read minimum paths [] (.start rules paths) where
  paths_eq := by
    rw [start, List.map_map]
    exact List.map_id paths
  run_eq := rfl
  sound := by
    intro task member
    obtain ⟨path, _, rfl⟩ := List.mem_map.1 member
    trivial

theorem TaskPool.Follows.step {collected : List String} {pool next : TaskPool}
    (follows : pool.Follows rules read minimum paths collected)
    (step : TaskPool.Step rules read minimum pool next) :
    ∃ collected, next.Follows rules read minimum paths collected := by
  obtain ⟨paths_eq, run_eq, sound⟩ := follows
  cases step with
  | @advance before after task next run step =>
      obtain ⟨samePath, nextSound⟩ := step.sound (sound task (by simp))
      refine ⟨collected, ?_, run_eq, ?_⟩
      · simpa [samePath] using paths_eq
      · intro other member
        rcases List.mem_append.1 member with earlier | later
        · exact sound other (List.mem_append_left _ earlier)
        · rcases List.mem_cons.1 later with rfl | later
          · exact nextSound
          · exact sound other
              (List.mem_append_right _ (List.mem_cons_of_mem _ later))
  | @collect path outcome tasks run now =>
      have found : outcome = lintFile rules read path :=
        sound ⟨path, .finished outcome⟩ List.mem_cons_self
      refine ⟨collected ++ [path], ?_, ?_, ?_⟩
      · simpa using paths_eq
      · rw [FileRun.timeless_add, run_eq, FileRun.ofPaths_concat,
          FileRun.after_add, found]
      · exact fun other member => sound other (List.mem_cons_of_mem _ member)

theorem TaskPool.Reaches.follows {pool : TaskPool}
    (reached : TaskPool.Reaches rules read minimum (.start rules paths) pool) :
    ∃ collected, pool.Follows rules read minimum paths collected := by
  induction reached with
  | refl => exact ⟨[], follows_start⟩
  | tail _ step ih =>
      obtain ⟨collected, follows⟩ := ih
      exact follows.step step

/-- Whatever the order of the steps, what is collected in the end is the run
over the files one after the other. -/
theorem Completes.timeless_eq {run : FileRun}
    (completes : Completes rules read minimum paths run) (now : Instant) :
    run.timeless = (lintFiles rules read now minimum paths).timeless := by
  obtain ⟨collected, paths_eq, run_eq, _⟩ := TaskPool.Reaches.follows completes
  obtain rfl : collected = paths := by simpa using paths_eq
  rw [run_eq, ← FileRun.timeless_ofPaths rules read now]
  rfl

theorem Completes.contents_eq {run : FileRun}
    (completes : Completes rules read minimum paths run) :
    run.reports.map FileReport.content =
      paths.filterMap (reported? rules read minimum) := by
  rw [← FileRun.contents_timeless, completes.timeless_eq .epoch,
    FileRun.contents_timeless]
  exact FileRun.ofPaths_contents rules read .epoch minimum paths

theorem Completes.failures_eq {run : FileRun}
    (completes : Completes rules read minimum paths run) :
    run.failures = paths.countP fun path => (treeOf? read path).isNone := by
  have same := congrArg FileRun.failures (completes.timeless_eq .epoch)
  exact same.trans (FileRun.ofPaths_failures rules read .epoch minimum paths)

end Outcome

/-! ## Other files and other severities -/

theorem findingsAtLeast_of_reaches {minimum raised : Severity}
    (above : raised.reaches minimum = true) (findings : List Finding) :
    findingsAtLeast raised (findingsAtLeast minimum findings) =
      findingsAtLeast raised findings := by
  rw [findingsAtLeast, findingsAtLeast, List.filter_filter, findingsAtLeast]
  refine List.filter_congr fun finding _ => ?_
  have transitive (severity : Severity)
      (reaches : severity.reaches raised = true) :
      severity.reaches minimum = true := by
    cases severity with
    | high => rfl
    | medium =>
        cases raised with
        | medium => exact above
        | high => cases reaches
  rw [Bool.and_eq_left_iff_imp]
  exact transitive finding.severity

theorem reported?_of_reaches {minimum raised : Severity}
    (above : raised.reaches minimum = true) (rules : List Rule)
    (read : String → Except ReadFailure String) (path : String) :
    reported? rules read raised path =
      (reported? rules read minimum path).map fun content =>
        (content.1, findingsAtLeast raised content.2) := by
  rw [reported?, reported?, Option.map_map]
  congr 1
  funext tree
  simp only [Function.comp_apply, findingsAtLeast_of_reaches above]

/-- What is reported for some of the files depends on these files only. -/
theorem filterMap_reported?_congr {read other : String → Except ReadFailure String}
    {kept : String → Bool} {paths : List String}
    (same : ∀ path ∈ paths, kept path = true → other path = read path)
    (rules : List Rule) (minimum : Severity) :
    (paths.filterMap (reported? rules other minimum)).filter
        (fun content => kept content.1) =
      (paths.filterMap (reported? rules read minimum)).filter
        fun content => kept content.1 := by
  rw [List.filter_filterMap, List.filter_filterMap]
  refine List.filterMap_congr fun path member => ?_
  by_cases keeps : kept path = true
  · rw [reported?, reported?, treeOf?, treeOf?, same path member keeps]
  · have dropped (source : String → Except ReadFailure String) :
        (reported? rules source minimum path).filter
          (fun content => kept content.1) = none := by
      rw [reported?]
      cases treeOf? source path with
      | none => rfl
      | some tree => simp [keeps]
    rw [dropped, dropped]

section Status

variable {rules : List Rule} {read : String → Except ReadFailure String}
  {minimum : Severity} {paths : List String} {run : FileRun}

/-- The exit code counts a failed file first and findings next. -/
theorem Completes.code_eq (completes : Completes rules read minimum paths run) :
    run.exitStatus.code =
      if paths.any fun path => (treeOf? read path).isNone then 2
      else if (paths.filterMap (reported? rules read minimum)).any
        fun content => !content.2.isEmpty then 3
      else 0 := by
  have failed : 0 < run.failures ↔
      (paths.any fun path => (treeOf? read path).isNone) = true := by
    rw [completes.failures_eq, List.countP_pos_iff, List.any_eq_true]
  rw [FileRun.code_exitStatus, completes.contents_eq]
  simp only [failed]

theorem Completes.contents_of_reaches {raised : Severity} {raisedRun : FileRun}
    (completes : Completes rules read minimum paths run)
    (above : raised.reaches minimum = true)
    (raisedCompletes : Completes rules read raised paths raisedRun) :
    raisedRun.reports.map FileReport.content =
      run.reports.map fun report =>
        (report.path, findingsAtLeast raised report.findings) := by
  have every : reported? rules read raised = fun path =>
      (reported? rules read minimum path).map fun content =>
        (content.1, findingsAtLeast raised content.2) :=
    funext (reported?_of_reaches above rules read)
  rw [raisedCompletes.contents_eq, every, ← List.map_filterMap,
    ← completes.contents_eq, List.map_map]
  rfl

/-- Raising the minimal severity keeps a clean run clean. -/
theorem Completes.clean_of_reaches {raised : Severity} {raisedRun : FileRun}
    (completes : Completes rules read minimum paths run)
    (above : raised.reaches minimum = true)
    (raisedCompletes : Completes rules read raised paths raisedRun)
    (clean : run.exitStatus.code = 0) : raisedRun.exitStatus.code = 0 := by
  have contents := completes.contents_of_reaches above raisedCompletes
  have failures := raisedCompletes.failures_eq.trans completes.failures_eq.symm
  rw [FileRun.code_exitStatus] at clean ⊢
  rw [failures]
  split at clean
  · cases clean
  · next unfailed =>
      rw [if_neg unfailed]
      split at clean
      · cases clean
      · next unreported =>
          refine if_neg fun found => unreported ?_
          rw [contents, List.any_map] at found
          rw [List.any_map]
          obtain ⟨report, member, reported⟩ := List.any_eq_true.1 found
          refine List.any_eq_true.2 ⟨report, member, ?_⟩
          cases empty : report.findings with
          | nil =>
              rw [Function.comp_apply, empty] at reported
              rw [Function.comp_apply, FileReport.content, empty]
              exact reported
          | cons finding findings =>
              rw [Function.comp_apply, FileReport.content, empty]
              rfl

end Status

/-- Linting files side by side.  Every order of steps can be completed and ends,
and then the outcome is that of the files one after the other, up to the times
of the reports: one report for each file with a tree, a failure for each other
one, and the exit code that follows.  What is reported for a file does not
depend on the other files, and a higher minimal severity only takes findings
away. -/
theorem outcome_independent_of_schedule (rules : List Rule)
    (read : String → Except ReadFailure String) (minimum : Severity)
    (paths : List String) :
    (∀ pool, TaskPool.Reaches rules read minimum (.start rules paths) pool →
      ∃ run, TaskPool.Reaches rules read minimum pool ⟨[], run⟩) ∧
    (∀ pool next, TaskPool.Step rules read minimum pool next →
      next.work < pool.work) ∧
    ∀ run, Completes rules read minimum paths run →
      run.reports.map FileReport.content =
          paths.filterMap (reported? rules read minimum) ∧
        run.failures = (paths.countP fun path => (treeOf? read path).isNone) ∧
        run.exitStatus.code =
          (if paths.any fun path => (treeOf? read path).isNone then 2
          else if (paths.filterMap (reported? rules read minimum)).any
            fun content => !content.2.isEmpty then 3
          else 0) ∧
        (∀ now, run.timeless =
          (lintFiles rules read now minimum paths).timeless) ∧
        (∀ other otherRun (kept : String → Bool),
          Completes rules other minimum paths otherRun →
          (∀ path ∈ paths, kept path = true → other path = read path) →
            (otherRun.reports.map FileReport.content).filter
                (fun content => kept content.1) =
              (run.reports.map FileReport.content).filter
                fun content => kept content.1) ∧
        ∀ raised raisedRun, raised.reaches minimum = true →
          Completes rules read raised paths raisedRun →
            raisedRun.reports.map FileReport.content =
                (run.reports.map fun report =>
                  (report.path, findingsAtLeast raised report.findings)) ∧
              (run.exitStatus.code = 0 → raisedRun.exitStatus.code = 0) ∧
              (raisedRun.exitStatus.code = 2 ↔ run.exitStatus.code = 2) := by
  refine ⟨?_, ?_, ?_⟩
  · exact fun pool _ => pool.exists_completion rules read minimum
  · exact fun pool next step => step.work_lt
  · intro run completes
    refine ⟨completes.contents_eq, completes.failures_eq, completes.code_eq,
      completes.timeless_eq, ?_, ?_⟩
    · intro other otherRun kept otherCompletes same
      rw [otherCompletes.contents_eq, completes.contents_eq]
      exact filterMap_reported?_congr same rules minimum
    · intro raised raisedRun above raisedCompletes
      refine ⟨completes.contents_of_reaches above raisedCompletes,
        completes.clean_of_reaches above raisedCompletes, ?_⟩
      have failures :=
        raisedCompletes.failures_eq.trans completes.failures_eq.symm
      have failed (one : FileRun) :
          one.exitStatus.code = 2 ↔ 0 < one.failures := by
        rw [FileRun.code_exitStatus]
        split
        · simp [*]
        · split <;> simp [*]
      rw [failed, failed, failures]

end ProxyLint
