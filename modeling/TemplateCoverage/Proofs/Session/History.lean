import Mathlib.Data.List.Induction
import TemplateCoverage.Proofs.Report.Conservation

/-!
# What a session hands back

A session takes its operations in any order and number. What it holds at any moment is one open report
and one open run; what it hands back in the end can be read off the history of the operations alone.

* **`Operation`**, **`after`**: the operations, and the session after a history of them.
* **`recordings`**: the runs that a history shows: those that were begun and then closed, each with the
  traces recorded in between.
* **`report_after`**: what the operations within an open report make of it. By induction on them, with
  the open run at their beginning.
* **`report_after_idle`**: there is no open report where every session was ended or dropped.
* **`session_follows_history`**: so the report is the one that the history shows.
-/

namespace TemplateCoverage

open List (Forall₂)

namespace Session

/-- What can be done to a session. -/
inductive Operation where
  | beginSession (chart : String)
  | beginRun (label : String)
  | record (t : Trace)
  | endRun
  | endSession
  | abort

/-- The session after one more operation. -/
def apply (s : Session) : Operation → Session
  | .beginSession chart => s.beginSession chart
  | .beginRun label => s.beginRun label
  | .record t => (s.record t).1
  | .endRun => s.endRun
  | .endSession => s.endSession.2
  | .abort => s.abort

/-- The session after a history of operations. -/
def after (s : Session) (history : List Operation) : Session :=
  history.foldl apply s

/-! ## What a history shows -/

namespace Operation

/-- Whether the operation makes the open run part of the report. -/
def closesRun : Operation → Bool
  | .endRun | .endSession => true
  | _ => false

/-- Whether the operation begins, ends or drops a report. -/
def changesReport : Operation → Bool
  | .beginSession _ | .endSession | .abort => true
  | _ => false

end Operation

/-- The traces that are recorded before anything else is done. -/
def leadingTraces : List Operation → List Trace
  | .record t :: rest => t :: leadingTraces rest
  | _ => []

/-- Whether what comes after these traces closes the run. -/
def closesNext : List Operation → Bool
  | .record _ :: rest => closesNext rest
  | op :: _ => op.closesRun
  | [] => false

/-- A run as a history shows it. -/
structure Recording where
  label : String
  traces : List Trace

/-- The runs that were begun and then closed, in order. A run that another operation than a closing one
follows on is replaced or dropped. -/
def recordings : List Operation → List Recording
  | [] => []
  | .beginRun label :: rest =>
    if closesNext rest then ⟨label, leadingTraces rest⟩ :: recordings rest else recordings rest
  | _ :: rest => recordings rest

/-! ## Traces in a run -/

/-- The run after further traces, of which only the discovered IDs are taken. -/
def withTraces (discovered : BranchIndex) (run : Run) (traces : List Trace) : Run :=
  traces.foldl (fun run t =>
    { run with covered := run.covered.insertMany (t.known discovered).toList }) run

theorem label_withTraces (discovered : BranchIndex) (run : Run) (traces : List Trace) :
    (withTraces discovered run traces).label = run.label := by
  induction traces generalizing run with
  | nil => rfl
  | cons t traces ih => exact ih _

/-- A run has what it had, and what the traces report of the known branches. -/
theorem mem_withTraces {discovered : BranchIndex} {run : Run} {traces : List Trace} {id : BranchId} :
    id ∈ (withTraces discovered run traces).covered
      ↔ id ∈ run.covered ∨ ∃ t ∈ traces, id ∈ t.known discovered := by
  induction traces generalizing run with
  | nil => simp [withTraces]
  | cons t traces ih =>
    have hstep : id ∈ (withTraces discovered run (t :: traces)).covered
        ↔ id ∈ run.covered.insertMany (t.known discovered).toList
          ∨ ∃ t' ∈ traces, id ∈ t'.known discovered := ih
    rw [hstep, IdSet.mem_insertMany, Std.ExtTreeSet.mem_toList, or_assoc]
    simp

/-- Without an open run, a trace is not recorded. -/
theorem record_of_closed {s : Session} (h : s.run = none) (t : Trace) : s.record t = (s, 0) := by
  unfold record
  rw [h]

/-- The open run takes the discovered IDs of a trace, and those that are new to it are counted. -/
theorem record_of_open {s : Session} {run : Run} (h : s.run = some run) (t : Trace) :
    ∃ n, s.record t = ({ s with run := some (withTraces s.discovered run [t]) }, n)
      ∧ (withTraces s.discovered run [t]).covered.size = run.covered.size + n := by
  have hrecorded := recorded_foldl s t.all run 0
  unfold record
  rw [h]
  dsimp only
  -- what matters of the recording is the label, the covered IDs and the count
  generalize t.all.foldl s.recordId (run, 0) = state at hrecorded
  obtain ⟨⟨label, covered⟩, n⟩ := state
  obtain ⟨hlabel, hmem, hcount⟩ := hrecorded
  have hlabel : label = run.label := hlabel
  have hcovered : covered = (withTraces s.discovered run [t]).covered := by
    apply Std.ExtTreeSet.ext_mem
    intro id
    rw [mem_withTraces]
    refine (hmem id).trans (or_congr_right ?_)
    rw [Trace.mem_all, ← Trace.mem_known]
    simp
  have hrun : (⟨label, covered⟩ : Run) = withTraces s.discovered run [t] := by
    rw [hlabel, hcovered]
    rfl
  refine ⟨n, by rw [hrun], ?_⟩
  rw [← hrun]
  exact hcount

/-- A trace adds its discovered IDs to the open run, if there is one, and the number of those that the
run did not have is handed back. -/
theorem record_growth (s : Session) (t : Trace) :
    (∀ id, id ∈ (s.record t).1.currentCovered
        ↔ id ∈ s.currentCovered ∨ s.hasRun = true ∧ id ∈ t.known s.discovered)
      ∧ (s.record t).1.currentCovered.size = s.currentCovered.size + (s.record t).2 := by
  cases hrun : s.run with
  | none =>
    rw [record_of_closed hrun]
    simp [hasRun, hrun]
  | some run =>
    -- without a run nothing is recorded; with one, it grows by what is new
    obtain ⟨n, hrecord, hsize⟩ := record_of_open hrun t
    have hbefore : s.currentCovered = run.covered := by
      unfold currentCovered
      rw [hrun]
    have hopen : s.hasRun = true := by
      unfold hasRun
      rw [hrun]
      rfl
    rw [hrecord, hbefore, hopen]
    refine ⟨fun id => ?_, hsize⟩
    show id ∈ (withTraces s.discovered run [t]).covered ↔ _
    rw [mem_withTraces]
    simp

/-! ## Operations within an open report -/

/-- The run that a history shows, with the discovered IDs of its traces. -/
def Recording.run (discovered : BranchIndex) (r : Recording) : Run :=
  withTraces discovered { label := r.label } r.traces

/-- The open run at the beginning of a history, if it is closed there. -/
def openedBefore (discovered : BranchIndex) (run? : Option Run) (history : List Operation) :
    List Run :=
  match run? with
  | none => []
  | some run => if closesNext history then [withTraces discovered run (leadingTraces history)] else []

/-- The runs that become part of the report by a history: the open one, if it is closed, and those that
the history shows. -/
def closedRuns (s : Session) (history : List Operation) : List Run :=
  openedBefore s.discovered s.run history
    ++ (recordings history).map (Recording.run s.discovered)

/-- No operation discovers anything. -/
theorem discovered_apply (s : Session) (op : Operation) : (s.apply op).discovered = s.discovered := by
  cases op with
  | record t =>
    show (s.record t).1.discovered = s.discovered
    cases hrun : s.run with
    | none => rw [record_of_closed hrun]
    | some run =>
      -- recording changes the open run only
      obtain ⟨n, hrecord, -⟩ := record_of_open hrun t
      rw [hrecord]
  | endRun =>
    show s.endRun.discovered = s.discovered
    unfold endRun
    split <;> rfl
  | endSession =>
    show s.endRun.discovered = s.discovered
    unfold endRun
    split <;> rfl
  | _ => rfl

theorem discovered_after (s : Session) (history : List Operation) :
    (s.after history).discovered = s.discovered := by
  induction history generalizing s with
  | nil => rfl
  | cons op history ih => exact (ih _).trans (discovered_apply s op)

/-- One operation within an open report: the report takes the open run if the operation closes it, and
the runs that a history closes from there on are the same. -/
theorem closedRuns_apply {s : Session} {r : Report} (hopen : s.report = some r) {op : Operation}
    (hop : op.changesReport = false) (history : List Operation) :
    ∃ r', (s.apply op).report = some r'
      ∧ (closedRuns s (op :: history)).foldl Report.addRun r
        = (closedRuns (s.apply op) history).foldl Report.addRun r' := by
  obtain ⟨discovered, report, run?⟩ := s
  cases hopen
  cases op with
  | beginSession | endSession | abort => cases hop
  | beginRun label =>
    refine ⟨r, rfl, congrArg (List.foldl Report.addRun r) ?_⟩
    -- the open run is replaced, and the one that is begun comes first among those that are shown
    have hbefore : openedBefore discovered run? (.beginRun label :: history) = [] := by
      cases run? <;> rfl
    have hshown : recordings (.beginRun label :: history)
        = (if closesNext history then [⟨label, leadingTraces history⟩] else [])
          ++ recordings history := by
      rw [recordings]
      split <;> rfl
    show openedBefore discovered run? _ ++ _ = openedBefore discovered (some { label }) history ++ _
    rw [hbefore, hshown, List.map_append, List.nil_append]
    congr 1
    unfold openedBefore
    split <;> rfl
  | record t =>
    cases run? with
    | none => exact ⟨r, rfl, rfl⟩
    | some run =>
      obtain ⟨n, hrecord, -⟩ := record_of_open (s := ⟨discovered, some r, some run⟩) rfl t
      have happly : apply ⟨discovered, some r, some run⟩ (.record t)
          = ⟨discovered, some r, some (withTraces discovered run [t])⟩ := congrArg Prod.fst hrecord
      rw [happly]
      exact ⟨r, rfl, rfl⟩
  | endRun =>
    cases run? with
    | none => exact ⟨r, rfl, rfl⟩
    | some run => exact ⟨r.addRun run, rfl, rfl⟩

/-- The operations within an open report, and a last one that closes the open run. Induction on the
operations, with the report and the run that are open at their beginning. -/
theorem report_after {s : Session} {r : Report} (hopen : s.report = some r)
    {history : List Operation} (h : ∀ op ∈ history, op.changesReport = false) :
    (s.after history).endRun.report
      = some ((closedRuns s (history ++ [.endSession])).foldl Report.addRun r) := by
  induction history generalizing s r with
  | nil =>
    obtain ⟨discovered, report, run?⟩ := s
    cases hopen
    cases run? with
    | none => rfl
    | some run => rfl
  | cons op history ih =>
    -- induction on the history: the report has the runs that were closed so far
    obtain ⟨r', hreport, hruns⟩ := closedRuns_apply hopen (h op (List.mem_cons_self ..))
      (history ++ [.endSession])
    exact (ih hreport fun op' hop' => h op' (List.mem_cons_of_mem _ hop')).trans
      (congrArg some hruns.symm)

/-! ## Without an open report -/

/-- Without a session there is no report, until one begins. -/
theorem report_apply_idle {s : Session} (h : s.report = none) {op : Operation}
    (hop : ∀ chart, op ≠ .beginSession chart) : (s.apply op).report = none := by
  -- a run may be open all the same, but it is never added to a report
  obtain ⟨discovered, report, run?⟩ := s
  cases h
  cases op with
  | beginSession chart => exact absurd rfl (hop chart)
  | record t =>
    cases run? with
    | none => rfl
    | some run =>
      obtain ⟨n, hrecord, -⟩ := record_of_open (s := ⟨discovered, none, some run⟩) rfl t
      exact congrArg (fun state => state.1.report) hrecord
  | endRun => cases run? <;> rfl
  | beginRun | endSession | abort => rfl

/-- No report is open if every session was ended or dropped after its begin. Induction on the history
from its end. -/
theorem report_after_idle (discovered : BranchIndex) {history : List Operation}
    (h : ∀ before chart since, history = before ++ .beginSession chart :: since →
      .endSession ∈ since ∨ .abort ∈ since) :
    ((new discovered).after history).report = none := by
  induction history using List.reverseRecOn with
  | nil => rfl
  | append_singleton history op ih =>
    have happend : (new discovered).after (history ++ [op])
        = ((new discovered).after history).apply op := List.foldl_append
    rw [happend]
    by_cases hends : op = .endSession ∨ op = .abort
    · rcases hends with rfl | rfl <;> rfl
    · apply report_apply_idle
      · apply ih
        intro before chart since hsplit
        have hmem := h before chart (since ++ [op]) (by rw [hsplit, List.append_assoc]; rfl)
        simp only [List.mem_append, List.mem_singleton] at hmem
        grind
      · rintro chart rfl
        -- a session that was begun just now was not ended
        rcases h history chart [] rfl with hmem | hmem <;> cases hmem

/-! ## The report -/

/-- The run is the one that the history shows: its label, and the discovered IDs of the traces that
were recorded in it. -/
def Shows (discovered : BranchIndex) (run : Run) (recording : Recording) : Prop :=
  run.label = recording.label
    ∧ ∀ id, id ∈ run.covered
        ↔ (∃ t ∈ recording.traces, id ∈ t.files ∨ id ∈ t.helpers) ∧ discovered.contains id = true

theorem shows_run (discovered : BranchIndex) (recording : Recording) :
    Shows discovered (recording.run discovered) recording := by
  refine ⟨label_withTraces _ _ _, fun id => mem_withTraces.trans ?_⟩
  simp only [Trace.mem_known]
  constructor
  · rintro (hmem | ⟨t, ht, hid, hknown⟩)
    · exact absurd hmem Std.ExtTreeSet.not_mem_empty
    · exact ⟨⟨t, ht, hid⟩, hknown⟩
  · rintro ⟨⟨t, ht, hid⟩, hknown⟩
    exact .inr ⟨t, ht, hid, hknown⟩

/-- What a session holds and hands back after a history of operations. -/
structure FollowsHistory (discovered : BranchIndex) (history : List Operation) (s : Session) :
    Prop where
  /-- The index never changes. -/
  index : s.discovered = discovered
  /-- If no session was begun, or each one was ended or dropped since, the report is empty. -/
  idle : (∀ before chart since, history = before ++ .beginSession chart :: since →
      .endSession ∈ since ∨ .abort ∈ since) →
    s.endSession.1 = Report.new "" discovered
  /-- Otherwise it belongs to the session that was begun last. Its runs are those that were begun since
  and closed, the last one perhaps by the end of the session itself. -/
  begun : ∀ before chart since, history = before ++ .beginSession chart :: since →
    (∀ op ∈ since, op.changesReport = false) →
    s.endSession.1.chart = chart ∧ s.endSession.1.discovered = discovered
      ∧ Forall₂ (Shows discovered) s.endSession.1.runs (recordings (since ++ [.endSession]))
      ∧ ∀ id, id ∈ s.endSession.1.covered ↔ ∃ run ∈ s.endSession.1.runs, id ∈ run.covered
  /-- A trace adds its discovered IDs to the open run, if there is one. -/
  grown : ∀ t id, id ∈ (s.record t).1.currentCovered
    ↔ id ∈ s.currentCovered
      ∨ s.hasRun = true ∧ (id ∈ t.files ∨ id ∈ t.helpers) ∧ discovered.contains id = true
  /-- The number handed back for a trace is that of the IDs that the run did not have. -/
  counted : ∀ t, (s.record t).1.currentCovered.size = s.currentCovered.size + (s.record t).2

/-- A session hands back the report that is open once its run is closed. -/
theorem endSession_report (s : Session) :
    s.endSession.1 = s.endRun.report.getD (Report.new "" s.endRun.discovered) := rfl

/-- The report of a session that is begun on any other one, with what is done in it. -/
theorem endSession_of_begun (s : Session) (chart : String) {since : List Operation}
    (h : ∀ op ∈ since, op.changesReport = false) :
    ((s.beginSession chart).after since).endSession.1
      = ((recordings (since ++ [.endSession])).map (Recording.run s.discovered)).foldl
          Report.addRun (Report.new chart s.discovered) := by
  rw [endSession_report, report_after rfl h]
  rfl

/-- **The history determines the report.** Whatever was done to a session, in whatever order, the
report that it hands back is the one that the operations since the last `beginSession` show: of every
run that was closed, and of no other one, the discovered IDs of the traces recorded in it. -/
theorem session_follows_history (discovered : BranchIndex) (history : List Operation) :
    FollowsHistory discovered history ((new discovered).after history) := by
  have hindex : ((new discovered).after history).discovered = discovered :=
    discovered_after (new discovered) history
  refine ⟨hindex, ?_, ?_, ?_, ?_⟩
  · intro hidle
    have hreport : (((new discovered).after history).apply .endRun).report = none :=
      report_apply_idle (report_after_idle discovered hidle)
        fun chart hop => Operation.noConfusion hop
    have hended : (((new discovered).after history).apply .endRun).discovered = discovered :=
      (discovered_apply _ .endRun).trans hindex
    rw [endSession_report]
    show (((new discovered).after history).apply .endRun).report.getD
      (Report.new "" (((new discovered).after history).apply .endRun).discovered) = _
    rw [hreport, hended]
    rfl
  · intro before chart since hsplit hwithin
    have hbefore : ((new discovered).after before).discovered = discovered :=
      discovered_after (new discovered) before
    -- what was done before the session was begun leaves no trace
    have hafter : (new discovered).after history
        = (((new discovered).after before).beginSession chart).after since := by
      rw [hsplit]
      exact List.foldl_append
    rw [hafter, endSession_of_begun _ chart hwithin, hbefore]
    -- the runs have discovered IDs only, so the report takes them as they are
    have hknown : ∀ run ∈ (recordings (since ++ [.endSession])).map (Recording.run discovered),
        ∀ id ∈ run.covered, (Report.new chart discovered).discovered.contains id = true := by
      intro run hrun id hid
      obtain ⟨recording, -, rfl⟩ := List.mem_map.mp hrun
      exact (((shows_run discovered recording).2 id).mp hid).2
    obtain ⟨hchart, hdiscovered, hruns, hcovered⟩ := Report.addRuns_eq hknown
    refine ⟨hchart, hdiscovered, ?_, ?_⟩
    · rw [hruns]
      show Forall₂ _ ((recordings _).map _) _
      rw [List.forall₂_map_left_iff]
      exact List.forall₂_same.mpr fun recording _ => shows_run discovered recording
    · intro id
      rw [hcovered, hruns]
      show id ∈ (∅ : IdSet) ∨ _ ↔ ∃ run ∈ [] ++ _, _
      simp
  · intro t id
    rw [(record_growth _ t).1 id, hindex, Trace.mem_known]
  · exact fun t => (record_growth _ t).2

/-- A run that was replaced is not shown, and neither is a trace outside of a run. -/
example (t u : Trace) :
    recordings [.beginRun "replaced", .record t, .beginRun "kept", .record t, .record u, .endRun,
      .record u, .endSession] = [⟨"kept", [t, u]⟩] := rfl

end Session
end TemplateCoverage
