import Mathlib.Data.List.Forall2
import TemplateCoverage.CoverageRun
import TemplateCoverage.Proofs.Session.Record
import TemplateCoverage.Proofs.Text.Trim

/-!
# Rendering the inputs of a coverage run

A coverage run renders its inputs one after another. What the renderer would answer to all of them, one
call after the other, is written down in `calls`, so that the engine can be held against it: it makes
the calls of this list up to the first one that fails, and no other.

* **`Call.Reports`**, **`Call.FailsWith`**: the two ways in which a call can end. `calls_cases` finds
  the first failure.
* **`renderInputs_of_reports`**, **`renderInputs_of_failsWith`**: the step. A call that reports a trace
  becomes a run and two events, and one that fails ends it all.
* **`renderInputs_of_done`**: the induction. After calls that report traces, the rest of the inputs is
  rendered with the report and the files that they left.
-/

namespace TemplateCoverage

/-! ## Calls -/

/-- A call of a renderer with its answer, and the files after it. -/
structure Call where
  index : Nat
  input : ValuesInput
  answer : Except CoverageError RenderOutput
  after : FileSystem

/-- The calls for a list of inputs, of which the first has the given number, if each of them is made
whatever the answers are. Each call finds the files as the one before it has left them. -/
def calls (renderer : Renderer) (chart : String) (extraArgs : List String) (index : Nat)
    (fs : FileSystem) : List ValuesInput → List Call
  | [] => []
  | input :: rest =>
    let (answer, after) := renderer.render fs index { chart, values := input.path, extraArgs }
    ⟨index, input, answer, after⟩ :: calls renderer chart extraArgs (index + 1) after rest

/-- The files after calls. -/
def filesAfter (fs : FileSystem) : List Call → FileSystem
  | [] => fs
  | c :: rest => filesAfter c.after rest

namespace RenderOutput

/-- A code is shown as a number. A renderer that was killed has none. -/
theorem status_eq (o : RenderOutput) :
    (o.code = none → o.status = "signal") ∧ ∀ n, o.code = some n → o.status = toString n := by
  unfold status
  constructor
  · intro h
    rw [h]
  · intro n h
    rw [h]

/-- The error stream speaks for the renderer, unless there is nothing but blanks on it. -/
theorem diagnostic_eq (o : RenderOutput) :
    ((∀ c ∈ o.stderr.toList, Text.isBlank c) → o.diagnostic = o.stdout)
      ∧ ((∃ c ∈ o.stderr.toList, ¬Text.isBlank c) → o.diagnostic = o.stderr) := by
  unfold diagnostic
  constructor
  · intro h
    rw [if_pos (List.isEmpty_iff.mpr (Text.trim_eq_nil_iff.mpr h))]
  · rintro ⟨c, hc, hvisible⟩
    rw [if_neg fun hempty => hvisible (Text.trim_eq_nil_iff.mp (List.isEmpty_iff.mp hempty) c hc)]

end RenderOutput

namespace Call

/-- The label of the run of a call: the path of its values, or the one of a run without values. -/
def label (c : Call) : String :=
  c.input.path.getD "<none>"

theorem label_eq (c : Call) : c.input.label = c.label := rfl

/-- The renderer ended well, and a trace can be read in its output. -/
def Reports (c : Call) (t : Trace) : Prop :=
  ∃ o, c.answer = .ok o ∧ o.code = some 0 ∧ Trace.parse o.stdout = .ok t

/-- The call ends the coverage run with an error. -/
inductive FailsWith (c : Call) : CoverageError → Prop where
  /-- The renderer could not be run. The error is its own. -/
  | unavailable {e : CoverageError} (h : c.answer = .error e) : FailsWith c e
  /-- The renderer ended with a code that is not zero, or was killed. It is quoted as it explains
  itself: with its error stream, or with its output if there is nothing but blanks on that. -/
  | unsuccessful {o : RenderOutput} {status diagnostic : String} (h : c.answer = .ok o)
      (hcode : o.code ≠ some 0)
      (hstatus : (o.code = none → status = "signal") ∧ ∀ n, o.code = some n → status = toString n)
      (hdiagnostic : ((∀ c ∈ o.stderr.toList, Text.isBlank c) → diagnostic = o.stdout)
        ∧ ((∃ c ∈ o.stderr.toList, ¬Text.isBlank c) → diagnostic = o.stderr)) :
      FailsWith c (.renderFailed c.label status diagnostic)
  /-- The renderer ended well, but its output has a sentinel line that cannot be read. -/
  | unreadable {o : RenderOutput} {cause : TraceError} (h : c.answer = .ok o)
      (hcode : o.code = some 0) (htrace : Trace.parse o.stdout = .error cause) :
      FailsWith c (.invalidTrace cause)

/-- The trace is the one that the engine reads in the answer. -/
theorem Reports.exists_trace_eq {c : Call} {t : Trace} (h : c.Reports t) :
    ∃ o, c.answer = .ok o ∧ o.trace c.input.label = .ok t := by
  obtain ⟨o, hanswer, hcode, htrace⟩ := h
  have hsucceeded : o.succeeded = true := decide_eq_true hcode
  refine ⟨o, hanswer, ?_⟩
  rw [RenderOutput.trace, if_pos hsucceeded, htrace]
  rfl

/-- The error is that of the renderer, or the one that the engine finds in the answer. -/
theorem FailsWith.answer_or_trace_eq {c : Call} {e : CoverageError} (h : c.FailsWith e) :
    c.answer = .error e ∨ ∃ o, c.answer = .ok o ∧ o.trace c.input.label = .error e := by
  cases h with
  | unavailable h => exact .inl h
  | @unsuccessful o status diagnostic h hcode hstatus hdiagnostic =>
    have hfailed : ¬o.succeeded = true := fun hsucceeded => hcode (of_decide_eq_true hsucceeded)
    -- the texts are determined, whichever case they are in
    have hstatus : status = o.status := by
      cases hcode : o.code with
      | none => rw [hstatus.1 hcode, o.status_eq.1 hcode]
      | some n => rw [hstatus.2 n hcode, o.status_eq.2 n hcode]
    have hdiagnostic : diagnostic = o.diagnostic := by
      by_cases hblank : ∀ c ∈ o.stderr.toList, Text.isBlank c
      · rw [hdiagnostic.1 hblank, o.diagnostic_eq.1 hblank]
      · have hvisible : ∃ c ∈ o.stderr.toList, ¬Text.isBlank c := by simpa using hblank
        rw [hdiagnostic.2 hvisible, o.diagnostic_eq.2 hvisible]
    refine .inr ⟨o, h, ?_⟩
    rw [RenderOutput.trace, if_neg hfailed, hstatus, hdiagnostic, label_eq]
  | @unreadable o cause h hcode htrace =>
    have hsucceeded : o.succeeded = true := decide_eq_true hcode
    refine .inr ⟨o, h, ?_⟩
    rw [RenderOutput.trace, if_pos hsucceeded, htrace]
    rfl

/-- Every call reports a trace or fails. -/
theorem reports_or_failsWith (c : Call) : (∃ t, c.Reports t) ∨ ∃ e, c.FailsWith e := by
  cases hanswer : c.answer with
  | error e => exact .inr ⟨e, .unavailable hanswer⟩
  | ok o =>
    by_cases hcode : o.code = some 0
    · cases htrace : Trace.parse o.stdout with
      | ok t => exact .inl ⟨t, o, hanswer, hcode, htrace⟩
      | error cause => exact .inr ⟨.invalidTrace cause, .unreadable hanswer hcode htrace⟩
    · exact .inr ⟨_, .unsuccessful hanswer hcode o.status_eq o.diagnostic_eq⟩

end Call

/-- Either all calls report traces, or there is a first one that fails. Induction on the calls. -/
theorem calls_cases (cs : List Call) :
    (∃ traces, List.Forall₂ Call.Reports cs traces)
      ∨ ∃ done bad rest traces e, cs = done ++ bad :: rest
        ∧ List.Forall₂ Call.Reports done traces ∧ bad.FailsWith e := by
  induction cs with
  | nil => exact .inl ⟨[], .nil⟩
  | cons c cs ih =>
    rcases c.reports_or_failsWith with ⟨t, ht⟩ | ⟨e, he⟩
    · rcases ih with ⟨traces, htraces⟩ | ⟨done, bad, rest, traces, e, rfl, htraces, he⟩
      · exact .inl ⟨t :: traces, .cons ht htraces⟩
      · exact .inr ⟨c :: done, bad, rest, t :: traces, e, rfl, .cons ht htraces, he⟩
    · exact .inr ⟨[], c, cs, [], e, rfl, .nil, he⟩

/-- Each input has one call. -/
theorem map_input_calls (renderer : Renderer) (chart : String) (extraArgs : List String)
    (index : Nat) (fs : FileSystem) (inputs : List ValuesInput) :
    (calls renderer chart extraArgs index fs inputs).map Call.input = inputs := by
  induction inputs generalizing index fs with
  | nil => rfl
  | cons input rest ih => exact congrArg (input :: ·) (ih (index + 1) _)

/-! ## Rendering the inputs -/

/-- The steps that are made known of runs, of which the first has the given number. -/
def runEvents (index : Nat) (runs : List Run) : List RunEvent :=
  (runs.zipIdx index).flatMap fun (run, i) =>
    [.started i run.label, .finished i run.label run.covered.size]

/-- The runs of calls with their traces. -/
def runsOf (discovered : BranchIndex) (cs : List Call) (traces : List Trace) : List Run :=
  List.zipWith (fun c t => Session.runOf discovered c.label t) cs traces

/-- The session with runs added to its report. -/
def Session.addRuns (s : Session) (runs : List Run) : Session :=
  { s with report := s.report.map fun r => runs.foldl Report.addRun r }

/-- The steps among what is made known. -/
def eventsOf (emitted : List Emission) : List RunEvent :=
  emitted.filterMap Emission.event?

@[simp] theorem eventsOf_append (a b : List Emission) :
    eventsOf (a ++ b) = eventsOf a ++ eventsOf b :=
  List.filterMap_append

/-- What goes to the log is no event. -/
theorem eventsOf_logs (records : List LogRecord) : eventsOf (records.map .log) = [] := by
  unfold eventsOf
  rw [List.filterMap_map]
  exact List.filterMap_eq_nil_iff.mpr fun record _ => rfl

section

variable (renderer : Renderer) (chart : String) (extraArgs : List String)

/-- What is made known before a call. -/
def begun (index : Nat) (input : ValuesInput) : List Emission :=
  [.event (.started index input.label),
    .log { level := .info, source := .run, message := "rendering"
           fields := [("run", input.label)] }]
    ++ (renderer.announce { chart, values := input.path, extraArgs }).map .log

/-- Before a call its input is announced. -/
theorem eventsOf_begun (index : Nat) (input : ValuesInput) :
    eventsOf (begun renderer chart extraArgs index input) = [.started index input.label] := by
  unfold begun
  rw [eventsOf_append, eventsOf_logs]
  rfl

/-- After a call the size of what is known of its trace is told. -/
theorem eventsOf_recordEmissions (s : Session) (index : Nat) (label rendered : String) (t : Trace) :
    eventsOf (recordEmissions s index label rendered t)
      = [.finished index label (t.known s.discovered).size] := by
  unfold recordEmissions
  rw [Session.record_beginRun, eventsOf_append]
  show eventsOf ([t.record rendered].map .log ++ (s.unknownRecords t).map .log) ++ _ = _
  rw [eventsOf_append, eventsOf_logs, eventsOf_logs]
  rfl

/-- The first of the calls belongs to the first input, and the others go on from its files. -/
theorem calls_eq_cons {index : Nat} {fs : FileSystem} {inputs : List ValuesInput} {c : Call}
    {cs : List Call} (h : calls renderer chart extraArgs index fs inputs = c :: cs) :
    ∃ rest, inputs = c.input :: rest ∧ c.index = index
      ∧ renderer.render fs index { chart, values := c.input.path, extraArgs } = (c.answer, c.after)
      ∧ cs = calls renderer chart extraArgs (index + 1) c.after rest := by
  cases inputs with
  | nil => cases h
  | cons input rest =>
    cases h
    exact ⟨rest, rfl, rfl, rfl, rfl⟩

/-- **A call that fails**: nothing else is rendered, and what was recorded is dropped. -/
theorem renderInputs_of_failsWith {index : Nat} {fs : FileSystem} {s : Session} {c : Call}
    {rest : List ValuesInput} {e : CoverageError}
    (hrender : renderer.render fs index { chart, values := c.input.path, extraArgs }
      = (c.answer, c.after)) (hfails : c.FailsWith e) :
    renderInputs renderer chart extraArgs index fs s (c.input :: rest)
      = (begun renderer chart extraArgs index c.input, .error e, c.after) := by
  rcases hfails.answer_or_trace_eq with hanswer | ⟨o, hanswer, htrace⟩
  · simp only [renderInputs, hrender, hanswer]
    rfl
  · simp only [renderInputs, hrender, hanswer, htrace]
    rfl

/-- **A call that reports a trace**: the trace becomes a run of the report. -/
theorem renderInputs_of_reports {index : Nat} {fs : FileSystem} {s : Session} {c : Call} {t : Trace}
    (rest : List ValuesInput)
    (hrender : renderer.render fs index { chart, values := c.input.path, extraArgs }
      = (c.answer, c.after)) (hreports : c.Reports t) (hrun : s.run = none) :
    ∃ emitted, eventsOf emitted = runEvents index [Session.runOf s.discovered c.label t]
      ∧ renderInputs renderer chart extraArgs index fs s (c.input :: rest)
        = let later := renderInputs renderer chart extraArgs (index + 1) c.after
            (s.addRuns [Session.runOf s.discovered c.label t]) rest
          (emitted ++ later.1, later.2) := by
  obtain ⟨o, hanswer, htrace⟩ := hreports.exists_trace_eq
  -- between the inputs no run is open, so nothing is left of the one that was ended
  have hnext : ((s.beginRun c.input.label).record t).1.endRun
      = s.addRuns [Session.runOf s.discovered c.label t] := by
    rw [Session.endRun_record]
    unfold Session.addRuns
    rw [← hrun]
    rfl
  refine ⟨begun renderer chart extraArgs index c.input
    ++ recordEmissions s index c.input.label o.stdout t, ?_, ?_⟩
  · rw [eventsOf_append, eventsOf_begun, eventsOf_recordEmissions]
    rfl
  · rw [← hnext]
    conv => lhs; unfold renderInputs
    simp only [hrender, hanswer, htrace]
    rfl

/-! ## Runs of calls -/

omit renderer chart extraArgs in
theorem runEvents_cons (index : Nat) (run : Run) (runs : List Run) :
    runEvents index (run :: runs) = runEvents index [run] ++ runEvents (index + 1) runs := rfl

omit renderer chart extraArgs in
theorem Session.addRuns_nil (s : Session) : s.addRuns [] = s := by
  cases s with
  | mk discovered report run => cases report <;> rfl

omit renderer chart extraArgs in
/-- Runs can be added at once or one list after the other. -/
theorem Session.addRuns_append (s : Session) (a b : List Run) :
    (s.addRuns a).addRuns b = s.addRuns (a ++ b) := by
  unfold Session.addRuns
  cases s.report with
  | none => rfl
  | some r =>
    show { s with report := some (b.foldl Report.addRun (a.foldl Report.addRun r)) } = _
    rw [← List.foldl_append]
    rfl

/-- Calls that report traces become runs, in order, and each of them is made known when it begins and
when it is recorded. The rest of the inputs goes on from there. Induction on the calls, with the session
and the files that they go on from. -/
theorem renderInputs_of_done {done tail : List Call} {traces : List Trace}
    (hdone : List.Forall₂ Call.Reports done traces) {index : Nat} {fs : FileSystem} {s : Session}
    {inputs : List ValuesInput}
    (hcalls : calls renderer chart extraArgs index fs inputs = done ++ tail) (hrun : s.run = none) :
    ∃ later emitted,
      calls renderer chart extraArgs (index + done.length) (filesAfter fs done) later = tail
      ∧ eventsOf emitted = runEvents index (runsOf s.discovered done traces)
      ∧ renderInputs renderer chart extraArgs index fs s inputs
        = let last := renderInputs renderer chart extraArgs (index + done.length)
            (filesAfter fs done) (s.addRuns (runsOf s.discovered done traces)) later
          (emitted ++ last.1, last.2) := by
  induction hdone generalizing index fs s inputs with
  | nil =>
    refine ⟨inputs, [], hcalls, rfl, ?_⟩
    rw [show runsOf s.discovered [] [] = [] from rfl, s.addRuns_nil]
    rfl
  | @cons c t done traces hreports _ ih =>
    obtain ⟨rest, rfl, -, hrender, hrest⟩ := calls_eq_cons renderer chart extraArgs hcalls
    obtain ⟨first, hfirst, hstep⟩ :=
      renderInputs_of_reports renderer chart extraArgs rest hrender hreports hrun
    -- the session of the next call differs in its report only
    obtain ⟨later, emitted, hlater, hemitted, hlast⟩ :=
      ih (s := s.addRuns [Session.runOf s.discovered c.label t]) hrest.symm hrun
    have hlength : index + (c :: done).length = index + 1 + done.length := by
      rw [List.length_cons]
      omega
    refine ⟨later, first ++ emitted, ?_, ?_, ?_⟩
    · rw [hlength]
      exact hlater
    · rw [eventsOf_append, hfirst, hemitted]
      exact (runEvents_cons index _ _).symm
    · rw [hstep, hlast, hlength, Session.addRuns_append]
      simp only [List.append_assoc]
      rfl

/-- **The whole list of inputs, if all calls report traces.** -/
theorem renderInputs_of_all {traces : List Trace} {index : Nat} {fs : FileSystem} {s : Session}
    {inputs : List ValuesInput}
    (hall : List.Forall₂ Call.Reports (calls renderer chart extraArgs index fs inputs) traces)
    (hrun : s.run = none) :
    let all := calls renderer chart extraArgs index fs inputs
    let rendered := renderInputs renderer chart extraArgs index fs s inputs
    eventsOf rendered.1 = runEvents index (runsOf s.discovered all traces)
      ∧ rendered.2 = (.ok (s.addRuns (runsOf s.discovered all traces)), filesAfter fs all) := by
  intro all rendered
  -- no call is left over, and so no input
  have hnil : all = all ++ [] := (List.append_nil all).symm
  obtain ⟨later, emitted, hlater, hemitted, hlast⟩ :=
    renderInputs_of_done renderer chart extraArgs hall hnil hrun
  cases later with
  | cons input rest => cases hlater
  | nil =>
    have hrendered : rendered = (emitted ++ [], .ok _, filesAfter fs all) := hlast
    rw [hrendered]
    exact ⟨by rw [List.append_nil]; exact hemitted, rfl⟩

/-- **The list of inputs up to the first call that fails.** -/
theorem renderInputs_of_first {done rest : List Call} {bad : Call} {traces : List Trace}
    {e : CoverageError} (hdone : List.Forall₂ Call.Reports done traces) (hfails : bad.FailsWith e)
    {index : Nat} {fs : FileSystem} {s : Session} {inputs : List ValuesInput}
    (hcalls : calls renderer chart extraArgs index fs inputs = done ++ bad :: rest)
    (hrun : s.run = none) :
    let rendered := renderInputs renderer chart extraArgs index fs s inputs
    eventsOf rendered.1 = runEvents index (runsOf s.discovered done traces)
        ++ [.started (index + done.length) bad.label]
      ∧ rendered.2 = (.error e, bad.after) := by
  intro rendered
  obtain ⟨later, emitted, hlater, hemitted, hlast⟩ :=
    renderInputs_of_done renderer chart extraArgs hdone hcalls hrun
  -- the next input is that of the failing call
  obtain ⟨others, rfl, -, hrender, -⟩ := calls_eq_cons renderer chart extraArgs hlater
  rw [renderInputs_of_failsWith renderer chart extraArgs hrender hfails] at hlast
  have hrendered : rendered = (emitted ++ begun renderer chart extraArgs (index + done.length)
    bad.input, .error e, bad.after) := hlast
  rw [hrendered, eventsOf_append, hemitted, eventsOf_begun]
  exact ⟨rfl, rfl⟩

variable {renderer} in
/-- No call after the first failure is made: a renderer that differs only from there on makes no
difference. -/
theorem renderInputs_congr {renderer' : Renderer} (hannounce : renderer'.announce = renderer.announce)
    {done rest : List Call} {bad : Call} {traces : List Trace} {e : CoverageError}
    (hdone : List.Forall₂ Call.Reports done traces) (hfails : bad.FailsWith e) {index : Nat}
    {fs : FileSystem} {s : Session} {inputs : List ValuesInput}
    (hcalls : calls renderer chart extraArgs index fs inputs = done ++ bad :: rest)
    (hsame : ∀ fs i request, i ≤ index + done.length →
      renderer'.render fs i request = renderer.render fs i request) :
    renderInputs renderer' chart extraArgs index fs s inputs
      = renderInputs renderer chart extraArgs index fs s inputs := by
  induction hdone generalizing index fs s inputs with
  | nil =>
    obtain ⟨others, rfl, -, hrender, -⟩ := calls_eq_cons renderer chart extraArgs hcalls
    have hrender' := (hsame fs index { chart, values := bad.input.path, extraArgs }
      (Nat.le_add_right index _)).trans hrender
    rw [renderInputs_of_failsWith renderer chart extraArgs hrender hfails,
      renderInputs_of_failsWith renderer' chart extraArgs hrender' hfails, begun, hannounce]
    rfl
  | @cons c t done traces hreports _ ih =>
    obtain ⟨others, rfl, -, hrender, hothers⟩ := calls_eq_cons renderer chart extraArgs hcalls
    have hrender' := (hsame fs index { chart, values := c.input.path, extraArgs }
      (Nat.le_add_right index _)).trans hrender
    -- the rest agrees for every session, so it does not matter what this call has recorded
    have hlater : ∀ s : Session, renderInputs renderer' chart extraArgs (index + 1) c.after s others
        = renderInputs renderer chart extraArgs (index + 1) c.after s others := by
      intro s
      apply ih hothers.symm
      intro fs i request hi
      apply hsame
      rw [List.length_cons]
      omega
    obtain ⟨o, hanswer, htrace⟩ := hreports.exists_trace_eq
    simp only [renderInputs, hrender, hrender', hannounce, hanswer, htrace, hlater]

end

end TemplateCoverage
