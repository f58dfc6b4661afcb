import TemplateCoverage.Workspace

/-!
# Carrying out activities

An activity is followed through its parts: `exec` is its result and the world after it, with one
equation for each way to build an activity.

* **`exec_bind`**, **`exec_bind_ok`**: two activities in a row, and the way back from a success.
* **`Quiet`**: the activity makes no step of a coverage run known. Instrumenting a chart is quiet
  (`quiet_process`), whether it succeeds or not.
* **`exec_use`**: work on a scratch copy, which is removed in the end.
-/

namespace TemplateCoverage

/-- The steps of coverage runs that were made known. -/
def World.events (world : World) : List RunEvent :=
  world.emitted.toList.filterMap Emission.event?

namespace Activity

section

variable {ε δ α β : Type}

/-- The result of an activity, and the world after it. -/
def exec (activity : Activity ε α) (world : World) : Except ε α × World :=
  activity.run.run world

/-- What comes second starts from the world that the first has left, and is not reached if it failed. -/
theorem exec_bind (activity : Activity ε α) (next : α → Activity ε β) (world : World) :
    (activity >>= next).exec world =
      match activity.exec world with
      | (.ok a, after) => (next a).exec after
      | (.error e, after) => (.error e, after) := by
  -- an activity is a state transformer whose result may be an error
  show StateT.run (ExceptT.run activity >>= ExceptT.bindCont next) world = _
  rw [StateT.run_bind]
  show StateT.run (ExceptT.bindCont next (activity.exec world).1) (activity.exec world).2 = _
  cases activity.exec world with
  | mk result after =>
    cases result with
    | error e => rfl
    | ok a => rfl

theorem exec_bind_of_ok {activity : Activity ε α} {next : α → Activity ε β} {world after : World}
    {a : α} (h : activity.exec world = (.ok a, after)) :
    (activity >>= next).exec world = (next a).exec after := by
  rw [exec_bind, h]

/-- If two activities in a row succeed, then both do. -/
theorem exec_bind_ok {activity : Activity ε α} {next : α → Activity ε β} {world last : World}
    {b : β} (h : (activity >>= next).exec world = (.ok b, last)) :
    ∃ a after, activity.exec world = (.ok a, after) ∧ (next a).exec after = (.ok b, last) := by
  rw [exec_bind] at h
  split at h
  · next a after hfirst => exact ⟨a, after, hfirst, h⟩
  · cases h

theorem exec_files (world : World) :
    (files : Activity ε FileSystem).exec world = (.ok world.files, world) := rfl

theorem exec_emit (e : Emission) (world : World) :
    (emit e : Activity ε Unit).exec world
      = (.ok (), { world with emitted := world.emitted.push e }) := rfl

/-- To make several things known is to make them known in order. -/
theorem exec_emitAll (es : List Emission) (world : World) :
    (emitAll es : Activity ε Unit).exec world
      = (.ok (), { world with emitted := world.emitted ++ es.toArray }) := rfl

theorem exec_log (record : LogRecord) (world : World) :
    (log record : Activity ε Unit).exec world
      = (.ok (), { world with emitted := world.emitted.push (.log record) }) := rfl

/-- An operation on the files that succeeds. -/
theorem exec_change_of_ok {wrap : δ → ε} {operation : FileSystem → Except δ Unit × FileSystem}
    {world : World} {after : FileSystem} (h : operation world.files = (.ok (), after)) :
    (change wrap operation).exec world = (.ok (), { world with files := after }) := by
  unfold change
  rw [exec_bind_of_ok (exec_files world), h]
  rfl

theorem exec_write_of_ok {wrap : FileError → ε} {operation : FileSystem → Except FileError FileSystem}
    {world : World} {after : FileSystem} (h : operation world.files = .ok after) :
    (write wrap operation).exec world = (.ok (), { world with files := after }) := by
  unfold write
  rw [exec_bind_of_ok (exec_files world), h]
  rfl

/-- Two activities in a row agree if the first ones do and the second ones agree from there on. -/
theorem exec_bind_congr {first : Activity ε α} {next next' : α → Activity ε β} {world : World}
    (h : ∀ a after, first.exec world = (.ok a, after) → (next a).exec after = (next' a).exec after) :
    (first >>= next).exec world = (first >>= next').exec world := by
  rw [exec_bind, exec_bind]
  split
  · next a after hfirst => exact h a after hfirst
  · rfl

/-! ## Quiet activities -/

/-- The activity makes no step of a coverage run known, whether it succeeds or not. -/
def Quiet (activity : Activity ε α) : Prop :=
  ∀ world, (activity.exec world).2.events = world.events

theorem Quiet.pure (a : α) : Quiet (pure a : Activity ε α) := fun _ => rfl

/-- Two quiet activities are quiet together. -/
theorem Quiet.bind {activity : Activity ε α} {next : α → Activity ε β} (h : Quiet activity)
    (hnext : ∀ a, Quiet (next a)) : Quiet (activity >>= next) := by
  intro world
  have hfirst := h world
  rw [exec_bind]
  split
  · -- the second one is quiet from wherever it goes on
    next a after hexec =>
    rw [hexec] at hfirst
    exact (hnext a after).trans hfirst
  · next e after hexec =>
    rw [hexec] at hfirst
    exact hfirst

theorem Quiet.files : Quiet (files : Activity ε FileSystem) := fun _ => rfl

theorem Quiet.setFiles (fs : FileSystem) : Quiet (setFiles fs : Activity ε Unit) := fun _ => rfl

theorem Quiet.ofExcept (result : Except ε α) : Quiet (ofExcept result) := fun _ => rfl

theorem Quiet.log (record : LogRecord) : Quiet (log record : Activity ε Unit) := by
  intro world
  show (world.emitted.push (.log record)).toList.filterMap Emission.event? = _
  rw [Array.toList_push, List.filterMap_append]
  exact List.append_nil _

/-- The log is no event. -/
theorem Quiet.emitAll_log (records : List LogRecord) :
    Quiet (emitAll (records.map .log) : Activity ε Unit) := by
  intro world
  have hnone : (records.map Emission.log).filterMap Emission.event? = [] := by
    rw [List.filterMap_map]
    exact List.filterMap_eq_nil_iff.mpr fun record _ => rfl
  show (world.emitted ++ (records.map Emission.log).toArray).toList.filterMap Emission.event? = _
  rw [Array.toList_append, List.filterMap_append, hnone]
  exact List.append_nil _

theorem Quiet.change (wrap : δ → ε) (operation : FileSystem → Except δ Unit × FileSystem) :
    Quiet (change wrap operation) :=
  Quiet.bind .files fun _ => Quiet.bind (.setFiles _) fun _ => .ofExcept _

/-- Nothing is made known about a file that is written, whether that works or not. -/
theorem Quiet.write (wrap : FileError → ε)
    (operation : FileSystem → Except FileError FileSystem) : Quiet (write wrap operation) := by
  refine Quiet.bind .files fun fs => ?_
  cases operation fs with
  | ok after => exact .setFiles after
  | error e => exact .ofExcept _

end

end Activity

open Activity

/-! ## Staging and instrumenting -/

/-- A workspace is set up quietly. -/
theorem Workspace.quiet_create : Quiet Workspace.create :=
  Quiet.bind .files fun _ => Quiet.bind (.write _ _) fun _ => .pure _

theorem Workspace.quiet_stage (w : Workspace) (c : Chart) : Quiet (w.stage c) :=
  Quiet.bind (.change _ _) fun _ => .log _

theorem quiet_writeBeneath (root relative text : String) :
    Quiet (writeBeneath root relative text) := by
  unfold writeBeneath
  dsimp only
  cases Path.parent? (Path.joinSegments root relative) with
  | some parent => exact Quiet.bind (.change _ _) fun _ => .write _ _
  | none => exact .write _ _

/-- Instrumenting files only writes to the log. Induction on the files. -/
theorem quiet_processFiles (config : Config) (destination : Option String) (allocator : Allocator)
    (d : Discovery) (files : List TemplateFile) :
    Quiet (processFiles config destination allocator d files) := by
  induction files generalizing allocator d with
  | nil => exact .pure d
  | cons file rest ih =>
    unfold processFiles
    refine Quiet.bind .files fun fs => Quiet.bind (.ofExcept _) fun source => ?_
    -- what is written to the log does not matter
    generalize instrumentFile config allocator file source = instrumented
    obtain ⟨done, allocator⟩ := instrumented
    dsimp only
    refine Quiet.bind (.emitAll_log done.records) fun _ => ?_
    cases destination with
    | none => exact Quiet.bind (.log _) fun _ => ih _ _
    | some root =>
      exact Quiet.bind (quiet_writeBeneath root _ _) fun _ => Quiet.bind (.log _) fun _ => ih _ _

/-- So is a chart processed: what it tells goes to the log. -/
theorem Chart.quiet_process (c : Chart) (config : Config) (destination : Option String) :
    Quiet (c.process config destination) :=
  Quiet.bind (quiet_processFiles _ _ _ _ _) fun _ => Quiet.bind (.log _) fun _ => .pure _

/-- Work on a scratch copy that could be staged: the result is that of the work, and the scratch
directory is removed. -/
theorem Workspace.exec_use {α : Type} {c : Chart} {w : Workspace} {world created staged : World}
    (hcreate : Workspace.create.exec world = (.ok w, created))
    (hstage : (w.stage c).exec created = (.ok (), staged))
    (work : Workspace → Activity CoverageError α) :
    (Workspace.use c work).exec world
      = (((work w).exec staged).1,
          { ((work w).exec staged).2 with files := w.removed ((work w).exec staged).2.files }) := by
  unfold Workspace.use
  rw [exec_bind_of_ok hcreate]
  -- the directory is removed after a failure as well, so only the work itself matters here
  have hbody : (do w.stage c; work w : Activity CoverageError α).exec created
      = (work w).exec staged := exec_bind_of_ok hstage
  rw [← hbody]
  rfl

end TemplateCoverage
