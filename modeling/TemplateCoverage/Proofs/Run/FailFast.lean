import TemplateCoverage.Proofs.FileSystem.Lookup
import TemplateCoverage.Proofs.Run.Activity
import TemplateCoverage.Proofs.Run.Rendering

/-!
# The first failure ends a coverage run

A coverage run stages and instruments its chart, renders the inputs and reports what they cover. The
renders of `Rendering.lean` are put into their place here.

* **`exec_run`**: a coverage run in terms of its renders.
* **`completes_run`**, **`aborts_run`**, **`exec_run_congr`**: a run where every call reports a trace,
  a run with a first call that fails, and that nothing after such a call matters.
* **`run_failFast`**: there is no third case.
-/

namespace TemplateCoverage

open Activity

/-! ## Coverage runs -/

namespace Engine

/-- What is done before the first render: the chart is staged in a new scratch directory, and the copy
is instrumented. -/
def ready (e : Engine) : Activity CoverageError (Workspace × Discovery) := do
  let w ← Workspace.create
  w.stage e.chart
  let d ← e.prepare w
  pure (w, d)

/-- Without inputs, there is one call without values. -/
theorem inputsOf_eq (inputs : List ValuesInput) :
    inputsOf inputs = if inputs = [] then [⟨none⟩] else inputs := by
  unfold inputsOf
  simp only [List.isEmpty_iff]

/-- The calls that a coverage run would make if none of them ended it. -/
def callsIn (e : Engine) (w : Workspace) (fs : FileSystem) (inputs : List ValuesInput) : List Call :=
  calls e.renderer w.chart e.config.extraArgs 0 fs (inputsOf inputs)

/-- Before the first call no event is seen. -/
theorem quiet_ready (e : Engine) : Quiet e.ready :=
  Quiet.bind Workspace.quiet_create fun w => Quiet.bind (w.quiet_stage e.chart) fun _ =>
    Quiet.bind (e.chart.quiet_process e.config _) fun _ => .pure _

/-- A coverage run on a chart that could be staged and instrumented, in terms of its renders. -/
theorem exec_run {e : Engine} {world staged : World} {w : Workspace} {d : Discovery}
    (hready : e.ready.exec world = (.ok (w, d), staged)) (inputs : List ValuesInput) :
    (e.run inputs).exec world =
      let rendered := renderInputs e.renderer w.chart e.config.extraArgs 0 staged.files
        ((Session.new d.branches).beginSession e.chart.name) (inputsOf inputs)
      let opening := staged.emitted.push
        (.event (.instrumented d.branches.size (inputsOf inputs).length d.notes))
      (rendered.2.1.map fun s => s.endSession.1,
        { files := w.removed rendered.2.2, emitted := opening ++ rendered.1.toArray }) := by
  obtain ⟨w', created, hcreate, hready⟩ := exec_bind_ok hready
  obtain ⟨u, copied, hstage, hready⟩ := exec_bind_ok hready
  obtain ⟨d', prepared, hprepare, hready⟩ := exec_bind_ok hready
  cases hready
  have hrun := Workspace.exec_use hcreate hstage (e.runIn inputs)
  have hrunIn : (e.runIn inputs w).exec copied =
      let rendered := renderInputs e.renderer w.chart e.config.extraArgs 0 staged.files
        ((Session.new d.branches).beginSession e.chart.name) (inputsOf inputs)
      let opening := staged.emitted.push
        (.event (.instrumented d.branches.size (inputsOf inputs).length d.notes))
      (rendered.2.1.map fun s => s.endSession.1,
        { files := rendered.2.2, emitted := opening ++ rendered.1.toArray }) := by
    unfold runIn
    rw [exec_bind_of_ok hprepare, exec_bind_of_ok (exec_emit _ _), exec_bind_of_ok (exec_files _)]
    dsimp only
    -- the rest of the run only looks at the outcome of the renders
    generalize renderInputs e.renderer w.chart e.config.extraArgs 0 staged.files _ _ = rendered
    obtain ⟨emitted, result, after⟩ := rendered
    cases result with
    | ok s => rfl
    | error cause => rfl
  unfold run
  rw [hrun, hrunIn]

/-- What was made known before a coverage run, and its first step, which tells the number of calls. -/
def openingEvents (world : World) (d : Discovery) (all : List Call) : List RunEvent :=
  world.events ++ [.instrumented d.branches.entries.size all.length d.notes]

/-- There is one call for each input. -/
theorem length_callsIn (e : Engine) (w : Workspace) (fs : FileSystem) (inputs : List ValuesInput) :
    (e.callsIn w fs inputs).length = (inputsOf inputs).length := by
  rw [← List.length_map (f := Call.input), callsIn, map_input_calls]

/-- The runs of calls that reported traces, one for each call and in order: it has the label of the input, and
the IDs of the trace that were discovered. -/
structure Records (discovered : BranchIndex) (cs : List Call) (traces : List Trace) (runs : List Run) :
    Prop where
  labels : runs.map Run.label = cs.map fun c => c.label
  covered : List.Forall₂ (fun run t => ∀ id,
    id ∈ run.covered ↔ (id ∈ t.files ∨ id ∈ t.helpers) ∧ id ∈ discovered.entries) runs traces

/-- A coverage run where every call reported a trace. -/
structure Completes (e : Engine) (d : Discovery) (opening : List RunEvent) (all : List Call)
    (traces : List Trace) (outcome : Except CoverageError Report × World) (report : Report) :
    Prop where
  result : outcome.1 = .ok report
  chart : report.chart = e.chart.name
  discovered : report.discovered = d.branches
  runs : Records d.branches all traces report.runs
  covered : ∀ id, id ∈ report.covered ↔ ∃ run ∈ report.runs, id ∈ run.covered
  /-- Each run is made known when it begins and when it is recorded, with the size that it has in the
  report. -/
  events : outcome.2.events = opening ++ runEvents 0 report.runs

/-- A coverage run that was ended by the call `bad` after the calls `done`. There is no report. -/
structure Aborts (d : Discovery) (opening : List RunEvent) (done : List Call) (traces : List Trace)
    (bad : Call) (error : CoverageError) (outcome : Except CoverageError Report × World) :
    Prop where
  result : outcome.1 = .error error
  /-- The runs before it were made known as they were recorded. The last call is made known when it begins, and
  no other call is made known after it. -/
  events : ∃ runs, Records d.branches done traces runs
    ∧ outcome.2.events = opening ++ runEvents 0 runs ++ [.started done.length bad.label]

/-- What the engine makes of calls and their traces are the runs of these. -/
theorem records_runsOf (discovered : BranchIndex) {cs : List Call} {traces : List Trace}
    (h : List.Forall₂ Call.Reports cs traces) :
    Records discovered cs traces (runsOf discovered cs traces) := by
  induction h with
  | nil => exact ⟨rfl, .nil⟩
  | @cons c t cs traces _ _ ih =>
    exact ⟨congrArg (c.label :: ·) ih.labels, .cons (fun id => Trace.mem_known) ih.covered⟩

/-- The runs of calls only have discovered IDs. -/
theorem discovered_of_mem_runsOf {discovered : BranchIndex} {cs : List Call} {traces : List Trace}
    {run : Run} (hrun : run ∈ runsOf discovered cs traces) {id : BranchId} (hid : id ∈ run.covered) :
    discovered.contains id = true := by
  induction cs generalizing traces with
  | nil => cases hrun
  | cons c cs ih =>
    cases traces with
    | nil => cases hrun
    | cons t traces =>
      rcases List.mem_cons.mp hrun with rfl | hrun
      · exact (Trace.mem_known.mp hid).2
      · exact ih hrun

/-- The steps of a coverage run are those of its renders, after the one that the chart is
instrumented. -/
theorem events_run {e : Engine} {world staged : World} {w : Workspace} {d : Discovery}
    (hready : e.ready.exec world = (.ok (w, d), staged)) (inputs : List ValuesInput) :
    ((e.run inputs).exec world).2.events = openingEvents world d (e.callsIn w staged.files inputs)
      ++ eventsOf (renderInputs e.renderer w.chart e.config.extraArgs 0 staged.files
        ((Session.new d.branches).beginSession e.chart.name) (inputsOf inputs)).1 := by
  -- no step was made known before the chart was instrumented
  have hquiet := e.quiet_ready world
  rw [hready] at hquiet
  rw [exec_run hready, openingEvents, length_callsIn, ← hquiet]
  simp only [World.events, Array.toList_append, Array.toList_push, List.filterMap_append]
  rfl

/-- If all calls report traces, then the coverage run completes. -/
theorem completes_run {e : Engine} {world staged : World} {w : Workspace} {d : Discovery}
    (hready : e.ready.exec world = (.ok (w, d), staged)) {inputs : List ValuesInput}
    {traces : List Trace}
    (htraces : List.Forall₂ Call.Reports (e.callsIn w staged.files inputs) traces) :
    (∃ report, Completes e d (openingEvents world d (e.callsIn w staged.files inputs))
        (e.callsIn w staged.files inputs) traces ((e.run inputs).exec world) report)
      ∧ ((e.run inputs).exec world).2.files
        = w.removed (filesAfter staged.files (e.callsIn w staged.files inputs)) := by
  obtain ⟨hevents, hrendered⟩ := renderInputs_of_all e.renderer w.chart e.config.extraArgs
    (s := (Session.new d.branches).beginSession e.chart.name) htraces rfl
  let runs := runsOf d.branches (e.callsIn w staged.files inputs) traces
  -- the runs have discovered IDs only, so the report takes them as they are
  have hknown : ∀ run ∈ runs, ∀ id ∈ run.covered,
      (Report.new e.chart.name d.branches).discovered.contains id = true :=
    fun run hrun id hid => discovered_of_mem_runsOf hrun hid
  obtain ⟨hchart, hdiscovered, hadded, hcovered⟩ := Report.addRuns_eq hknown
  have hadded : (runs.foldl Report.addRun (Report.new e.chart.name d.branches)).runs = runs := hadded
  refine ⟨⟨runs.foldl Report.addRun (Report.new e.chart.name d.branches),
    ?_, hchart, hdiscovered, ?_, ?_, ?_⟩, ?_⟩
  · rw [exec_run hready]
    simp only [hrendered]
    rfl
  · rw [hadded]
    exact records_runsOf d.branches htraces
  · intro id
    rw [hadded, hcovered]
    constructor
    · rintro (hmem | hmem)
      · exact absurd hmem Std.ExtTreeSet.not_mem_empty
      · exact hmem
    · exact .inr
  · rw [events_run hready, hevents, hadded]
    rfl
  · rw [exec_run hready]
    simp only [hrendered]
    rfl

/-- If a call is the first one that fails, then the coverage run is aborted with its error. -/
theorem aborts_run {e : Engine} {world staged : World} {w : Workspace} {d : Discovery}
    (hready : e.ready.exec world = (.ok (w, d), staged)) {inputs : List ValuesInput}
    {done rest : List Call} {bad : Call} {traces : List Trace} {error : CoverageError}
    (hall : e.callsIn w staged.files inputs = done ++ bad :: rest)
    (hdone : List.Forall₂ Call.Reports done traces) (hfails : bad.FailsWith error) :
    Aborts d (openingEvents world d (e.callsIn w staged.files inputs)) done traces bad error
        ((e.run inputs).exec world)
      ∧ ((e.run inputs).exec world).2.files = w.removed bad.after := by
  -- the calls before the failure are made, and then the failing one
  obtain ⟨hevents, hrendered⟩ := renderInputs_of_first e.renderer w.chart e.config.extraArgs
    (s := (Session.new d.branches).beginSession e.chart.name) hdone hfails hall rfl
  refine ⟨⟨?_, _, records_runsOf d.branches hdone, ?_⟩, ?_⟩
  · rw [exec_run hready]
    simp only [hrendered]
    rfl
  · -- no event comes from what is made ready
    rw [events_run hready, hevents, Nat.zero_add, ← List.append_assoc]
    rfl
  · rw [exec_run hready]
    simp only [hrendered]

/-- A renderer that differs only after the first call that fails makes no difference. -/
theorem exec_run_congr {e : Engine} {world staged : World} {w : Workspace} {d : Discovery}
    (hready : e.ready.exec world = (.ok (w, d), staged)) {inputs : List ValuesInput}
    {done rest : List Call} {bad : Call} {traces : List Trace} {error : CoverageError}
    (hall : e.callsIn w staged.files inputs = done ++ bad :: rest)
    (hdone : List.Forall₂ Call.Reports done traces) (hfails : bad.FailsWith error)
    {renderer : Renderer} (hannounce : renderer.announce = e.renderer.announce)
    (hsame : ∀ fs i request, i ≤ done.length →
      renderer.render fs i request = e.renderer.render fs i request) :
    (({ e with renderer } : Engine).run inputs).exec world = (e.run inputs).exec world := by
  -- the renderer plays no role before the first render
  have hready' : ({ e with renderer } : Engine).ready.exec world = (.ok (w, d), staged) := hready
  rw [exec_run hready, exec_run hready', renderInputs_congr w.chart e.config.extraArgs hannounce
    hdone hfails hall (by rwa [Nat.zero_add])]

/-- **Fail-fast.** Let `all` be the calls that the renderer would be asked for, one for each input, or a single
one without values if there are no inputs, with the answers that it would give. If all of them report traces,
the coverage run has a report of them. Otherwise the first one that fails decides: its error is the result, the
files are those that it has left, and what the renderer would answer later makes no difference. There is no
third case. -/
theorem run_failFast {e : Engine} {world staged : World} {w : Workspace} {d : Discovery}
    (hready : e.ready.exec world = (.ok (w, d), staged)) (inputs : List ValuesInput) :
    let all := e.callsIn w staged.files inputs
    let opening := openingEvents world d all
    let outcome := (e.run inputs).exec world
    all.map Call.input = (if inputs = [] then [⟨none⟩] else inputs)
      ∧ (∀ traces, List.Forall₂ Call.Reports all traces →
          (∃ report, Completes e d opening all traces outcome report)
          ∧ outcome.2.files = w.removed (filesAfter staged.files all))
      ∧ (∀ done bad rest traces error, all = done ++ bad :: rest →
          List.Forall₂ Call.Reports done traces → bad.FailsWith error →
          Aborts d opening done traces bad error outcome
          ∧ outcome.2.files = w.removed bad.after
          ∧ ∀ renderer : Renderer, renderer.announce = e.renderer.announce →
              (∀ fs i request, i ≤ done.length →
                renderer.render fs i request = e.renderer.render fs i request) →
              (({ e with renderer } : Engine).run inputs).exec world = outcome)
      ∧ ((∃ traces, List.Forall₂ Call.Reports all traces)
          ∨ ∃ done bad rest traces error, all = done ++ bad :: rest
            ∧ List.Forall₂ Call.Reports done traces ∧ bad.FailsWith error) := by
  intro all opening outcome
  -- the run is named once for all: it must not be carried out to compare it with itself
  have houtcome : outcome = (e.run inputs).exec world := rfl
  refine ⟨(map_input_calls ..).trans (inputsOf_eq inputs), ?_, ?_, calls_cases all⟩
  · intro traces htraces
    rw [houtcome]
    exact completes_run hready htraces
  · intro done bad rest traces error hall hdone hfails
    rw [houtcome]
    obtain ⟨haborts, hfiles⟩ := aborts_run hready hall hdone hfails
    refine ⟨haborts, hfiles, ?_⟩
    intro renderer hannounce hsame
    exact exec_run_congr hready hall hdone hfails hannounce hsame

/-! ## A chart without templates -/

/-- A chart without templates, in the directory `/app`. -/
def bareChart : Chart :=
  { root := "/app", manifest := { name := "demo", version := none, description := none }
    files := [] }

/-- The directory of the bare chart, and the one for scratch directories. -/
def bareFiles : FileSystem :=
  (({} : FileSystem).put ["app"] .directory).put ["tmp"] .directory

/-- The files with a scratch directory. -/
def scratchFiles : FileSystem :=
  bareFiles.put ["tmp", "chartcov-0"] .directory

/-- The files with the staged copy of the bare chart. -/
def stagedFiles : FileSystem :=
  scratchFiles.put ["tmp", "chartcov-0", "chart"] .directory

/-- There is no workspace yet. -/
theorem entry?_bareFiles : bareFiles.entry? ["tmp", "chartcov-0"] = none := by
  simp [bareFiles, FileSystem.entry?_put, FileSystem.entry?_empty]

/-- A search for the first scratch directory ends in the directory where it would stand. -/
theorem walk_bareFiles : bareFiles.walk .keep FileSystem.linkLimit [] ["tmp", "chartcov-0"]
    = .ok ["tmp", "chartcov-0"] := by
  rw [FileSystem.walk_directory (by decide) (by decide) (by simp [bareFiles, FileSystem.entry?_put])]
  exact FileSystem.walk_missing (by decide) (by decide) entry?_bareFiles

/-- First the directory of the workspace is made. -/
theorem makeDirectory_bareFiles : bareFiles.makeDirectory "/tmp/chartcov-0" = .ok scratchFiles := by
  have hlast : (Path.segments "/tmp/chartcov-0").getLast? = some "chartcov-0" := by decide
  exact FileSystem.makeDirectory_of_walk rfl hlast (by decide) walk_bareFiles entry?_bareFiles

/-- Then the one of the chart. -/
theorem makeDirectory_scratchFiles :
    scratchFiles.makeDirectory "/tmp/chartcov-0/chart" = .ok stagedFiles := by
  have hlast : (Path.segments "/tmp/chartcov-0/chart").getLast? = some "chart" := by decide
  have hmissing : scratchFiles.entry? ["tmp", "chartcov-0", "chart"] = none := by
    simp [scratchFiles, bareFiles, FileSystem.entry?_put, FileSystem.entry?_empty]
  refine FileSystem.makeDirectory_of_walk rfl hlast (by decide) ?_ hmissing
  show scratchFiles.walk .keep FileSystem.linkLimit [] ["tmp", "chartcov-0", "chart"] = _
  rw [FileSystem.walk_directory (by decide) (by decide)
      (by simp [scratchFiles, bareFiles, FileSystem.entry?_put]),
    FileSystem.walk_directory (by decide) (by decide)
      (by simp [scratchFiles, bareFiles, FileSystem.entry?_put])]
  exact FileSystem.walk_missing (by decide) (by decide) hmissing

/-- Nothing stands in the way of the first scratch directory. -/
theorem freshPath_bareFiles : Workspace.freshPath bareFiles = "/tmp/chartcov-0" := by
  have hpath : Workspace.numbered 0 = "/tmp/chartcov-0" := by decide
  have hfree : bareFiles.find .keep (Workspace.numbered 0) = .error .notFound := by
    rw [hpath]
    exact FileSystem.find_of_missing rfl walk_bareFiles entry?_bareFiles
  -- the first number is tried first, and it is free
  unfold Workspace.freshPath
  dsimp only
  rw [List.range_succ_eq_map, List.find?_cons_of_pos]
  · exact hpath
  · rw [hfree]
    rfl

/-- The chart is copied there. -/
theorem copyTree_scratchFiles :
    scratchFiles.copyTree "/app" "/tmp/chartcov-0/chart" = (.ok (), stagedFiles) := by
  have hcreated : scratchFiles.createDirectories "/tmp/chartcov-0/chart" = (.ok (), stagedFiles) := by
    unfold FileSystem.createDirectories
    rw [FileSystem.createUnder, if_neg (by decide)]
    simp only [makeDirectory_scratchFiles]
  have happ : stagedFiles.entry? ["app"] = some .directory := by
    simp [stagedFiles, scratchFiles, bareFiles, FileSystem.entry?_put]
  have hfound : stagedFiles.find .follow "/app" = .ok (["app"], .directory) := by
    refine FileSystem.find_of_walk rfl ?_ happ
    show stagedFiles.walk .follow FileSystem.linkLimit [] ["app"] = _
    rw [FileSystem.walk_directory (by decide) (by decide) happ, FileSystem.walk]
    rfl
  -- the chart has no files, so nothing is copied into the new directory
  have hnames : stagedFiles.names ["app"] = [] := by decide
  have hdepth : stagedFiles.depthLimit = 35 + 1 := by decide
  have hwalk : stagedFiles.walkTree true "/app" = {} := by
    unfold FileSystem.walkTree
    rw [hfound]
    dsimp only
    rw [hdepth, FileSystem.walkBelow, hnames]
    rfl
  unfold FileSystem.copyTree
  rw [hcreated]
  simp only [hwalk]
  rfl

theorem exec_create_bareFiles : Workspace.create.exec { files := bareFiles }
    = (.ok ⟨"/tmp/chartcov-0"⟩, { files := scratchFiles }) := by
  have hwrite : (Activity.write CoverageError.scratch fun fs =>
      fs.makeDirectory "/tmp/chartcov-0").exec { files := bareFiles }
        = (.ok (), { files := scratchFiles }) := exec_write_of_ok makeDirectory_bareFiles
  unfold Workspace.create
  rw [exec_bind_of_ok (exec_files _)]
  dsimp only
  rw [freshPath_bareFiles, exec_bind_of_ok hwrite]
  rfl

/-- The engine for the bare chart. -/
def bareEngine (renderer : Renderer) : Engine :=
  { chart := bareChart, config := {}, renderer }

/-- The bare chart can be staged and instrumented. It has no branch. -/
theorem exec_ready_bareEngine (renderer : Renderer) :
    ∃ staged, (bareEngine renderer).ready.exec { files := bareFiles }
      = (.ok (⟨"/tmp/chartcov-0"⟩, {}), staged) := by
  have htarget : Workspace.chart ⟨"/tmp/chartcov-0"⟩ = "/tmp/chartcov-0/chart" := by decide
  have hcopy : (Activity.change CoverageError.ofCopy fun fs =>
      fs.copyTree bareChart.root (Workspace.chart ⟨"/tmp/chartcov-0"⟩)).exec { files := scratchFiles }
        = (.ok (), { files := stagedFiles }) := by
    rw [htarget]
    exact exec_change_of_ok copyTree_scratchFiles
  obtain ⟨copied, hstage⟩ : ∃ copied, (Workspace.stage ⟨"/tmp/chartcov-0"⟩ bareChart).exec
      { files := scratchFiles } = (.ok (), copied) := ⟨_, (exec_bind_of_ok hcopy).trans rfl⟩
  exact ⟨_, (exec_bind_of_ok exec_create_bareFiles).trans ((exec_bind_of_ok hstage).trans rfl)⟩

/-- A renderer that succeeds at its first call only. -/
def onceRenderer : Renderer :=
  { render := fun fs n _ => (.ok (if n = 0 then {} else { stderr := "boom", code := some 1 }), fs) }

/-- A call with an empty trace has one run, which covers nothing. -/
theorem Records.exists_of_empty {discovered : BranchIndex} {c : Call} {runs : List Run}
    (h : Records discovered [c] [{}] runs) :
    ∃ run, runs = [run] ∧ run.label = c.label ∧ run.covered.size = 0 := by
  obtain ⟨hlabels, hcovered⟩ := h
  obtain _ | ⟨hrun, _ | _⟩ := hcovered
  refine ⟨_, rfl, List.head_eq_of_cons_eq hlabels, ?_⟩
  rw [← Std.ExtTreeSet.eq_empty_iff_size_eq_zero, Std.ExtTreeSet.eq_empty_iff_forall_not_mem]
  intro id hid
  rcases ((hrun id).mp hid).1 with hmem | hmem
  · exact Std.ExtTreeSet.not_mem_empty hmem
  · exact Std.ExtTreeSet.not_mem_empty hmem

/-- Of three renders the second one fails: its error is the result, and the third one is not begun. Without
inputs there is one render, without values, and it is reported. -/
theorem run_bareEngine_onceRenderer :
    ∃ staged, (bareEngine onceRenderer).ready.exec { files := bareFiles }
        = (.ok (⟨"/tmp/chartcov-0"⟩, {}), staged)
      ∧ (((bareEngine onceRenderer).run
          [⟨some "a.yaml"⟩, ⟨some "b.yaml"⟩, ⟨some "c.yaml"⟩]).exec { files := bareFiles }).1
        = .error (.renderFailed "b.yaml" "1" "boom")
      ∧ (((bareEngine onceRenderer).run
          [⟨some "a.yaml"⟩, ⟨some "b.yaml"⟩, ⟨some "c.yaml"⟩]).exec { files := bareFiles }).2.events
        = [.instrumented 0 3 [], .started 0 "a.yaml", .finished 0 "a.yaml" 0,
            .started 1 "b.yaml"]
      ∧ (∃ report run, (((bareEngine onceRenderer).run []).exec { files := bareFiles }).1 = .ok report
        ∧ report.runs = [run] ∧ run.label = "<none>")
      ∧ (((bareEngine onceRenderer).run []).exec { files := bareFiles }).2.events
        = [.instrumented 0 1 [], .started 0 "<none>", .finished 0 "<none>" 0] := by
  obtain ⟨staged, hready⟩ := exec_ready_bareEngine onceRenderer
  obtain ⟨-, -, hfirst, -⟩ :=
    run_failFast hready [⟨some "a.yaml"⟩, ⟨some "b.yaml"⟩, ⟨some "c.yaml"⟩]
  have hdone : List.Forall₂ Call.Reports [⟨0, ⟨some "a.yaml"⟩, .ok {}, staged.files⟩] [{}] :=
    .cons ⟨{}, rfl, rfl, rfl⟩ .nil
  have hfails : Call.FailsWith
      ⟨1, ⟨some "b.yaml"⟩, .ok { stderr := "boom", code := some 1 }, staged.files⟩
      (.renderFailed "b.yaml" "1" "boom") := by
    refine .unsuccessful rfl (by decide) ⟨?_, ?_⟩ ⟨?_, ?_⟩
    · intro hnone
      cases hnone
    · intro n hn
      cases hn
      decide
    · intro hblank
      have hb : Text.isBlank 'b' := hblank 'b' List.mem_cons_self
      cases hb
    · exact fun _ => rfl
  obtain ⟨haborts, -, -⟩ := hfirst _ _ _ _ _ rfl hdone hfails
  -- the only call without inputs is the one that succeeds
  obtain ⟨-, hall, -, -⟩ := run_failFast hready []
  obtain ⟨⟨report, hcompletes⟩, -⟩ := hall [{}] (.cons ⟨{}, rfl, rfl, rfl⟩ .nil)
  obtain ⟨run, hrun, hlabel, hsize⟩ := hcompletes.runs.exists_of_empty
  obtain ⟨runs, hrecords, hevents⟩ := haborts.events
  obtain ⟨first, rfl, hlabel', hsize'⟩ := hrecords.exists_of_empty
  refine ⟨staged, hready, haborts.result, ?_, ⟨report, run, hcompletes.result, hrun, hlabel⟩, ?_⟩
  · rw [hevents]
    show [RunEvent.instrumented 0 3 [], .started 0 first.label,
      .finished 0 first.label first.covered.size, .started 1 "b.yaml"] = _
    rw [hlabel', hsize']
    rfl
  · rw [hcompletes.events, hrun]
    show [RunEvent.instrumented 0 1 [], .started 0 run.label,
      .finished 0 run.label run.covered.size] = _
    rw [hlabel, hsize]
    rfl

end Engine

end TemplateCoverage
