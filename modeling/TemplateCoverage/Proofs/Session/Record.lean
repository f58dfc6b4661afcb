import TemplateCoverage.Session

/-!
# What a run records

A run between `beginRun` and `endRun` records one trace. It ends up with the reported IDs that were
discovered, and the number that is handed back is how many these are.

* **`record_beginRun`**: the state and the number after a trace. The invariant of the loop over the
  reported IDs is `Recorded`.
* **`endRun_record`**: the run becomes part of the report.
* **`addRuns_eq`**: a report with runs added has these runs, and it covers what one of them covers.
-/

namespace TemplateCoverage

namespace IdSet

theorem mem_filter {s : IdSet} {f : BranchId → Bool} {id : BranchId} :
    id ∈ s.filter f ↔ id ∈ s ∧ f id = true := by
  rw [Std.ExtTreeSet.mem_filter]
  constructor
  · rintro ⟨hmem, hf⟩
    rw [Std.ExtTreeSet.get_eq] at hf
    exact ⟨hmem, hf⟩
  · rintro ⟨hmem, hf⟩
    refine ⟨hmem, ?_⟩
    rw [Std.ExtTreeSet.get_eq]
    exact hf

/-- A set with more IDs has those, and what it had. -/
theorem mem_insertMany {s : IdSet} {ids : List BranchId} {id : BranchId} :
    id ∈ s.insertMany ids ↔ id ∈ s ∨ id ∈ ids := by
  rw [Std.ExtTreeSet.mem_insertMany_list, List.contains_iff_mem]

theorem mem_insert {s : IdSet} {id id' : BranchId} : id ∈ s.insert id' ↔ id = id' ∨ id ∈ s := by
  rw [Std.ExtTreeSet.mem_insert, Std.LawfulEqCmp.compare_eq_iff_eq]
  constructor
  · rintro (rfl | hmem)
    · exact .inl rfl
    · exact .inr hmem
  · rintro (rfl | hmem)
    · exact .inl rfl
    · exact .inr hmem

/-- One more ID is one more if it is new. -/
theorem size_insert_of_not_mem {s : IdSet} {id : BranchId} (h : id ∉ s) :
    (s.insert id).size = s.size + 1 := by
  rw [Std.ExtTreeSet.size_insert, if_neg]
  rwa [← Std.ExtTreeSet.mem_iff_contains]

end IdSet

/-! ## Traces -/

namespace Trace

/-- A trace reports the IDs of both of its parts. -/
theorem mem_all {t : Trace} {id : BranchId} : id ∈ t.all ↔ id ∈ t.files ∨ id ∈ t.helpers := by
  unfold all
  rw [List.mem_append, Std.ExtTreeSet.mem_toList, Std.ExtTreeSet.mem_toList]

/-- The reported IDs that were discovered. -/
def known (t : Trace) (discovered : BranchIndex) : IdSet :=
  (t.files.insertMany t.helpers.toList).filter discovered.contains

/-- Of these the known ones count. -/
theorem mem_known {t : Trace} {discovered : BranchIndex} {id : BranchId} :
    id ∈ t.known discovered
      ↔ (id ∈ t.files ∨ id ∈ t.helpers) ∧ discovered.contains id = true := by
  unfold known
  rw [IdSet.mem_filter, IdSet.mem_insertMany, Std.ExtTreeSet.mem_toList]

end Trace

/-! ## Recording -/

namespace Session

/-- What a run has recorded after some IDs, and the number of those that were new, where `before` is
the run and `n` the number from which the recording went on. -/
structure Recorded (discovered : BranchIndex) (before : Run) (n : Nat) (ids : List BranchId)
    (after : Run × Nat) : Prop where
  label : after.1.label = before.label
  covered : ∀ id, id ∈ after.1.covered
    ↔ id ∈ before.covered ∨ id ∈ ids ∧ discovered.contains id = true
  count : after.1.covered.size + n = before.covered.size + after.2

/-- An ID that was not discovered, or that the run has already, changes nothing. -/
theorem recorded_of_no_gain {discovered : BranchIndex} {run : Run} {id : BranchId}
    (h : discovered.contains id = true → id ∈ run.covered) (n : Nat) :
    Recorded discovered run n [id] (run, n) := by
  refine ⟨rfl, ?_, rfl⟩
  intro id'
  constructor
  · exact .inl
  · rintro (hmem | ⟨hmem, hknown⟩)
    · exact hmem
    · cases List.mem_singleton.mp hmem
      exact h hknown

/-- An ID that was discovered, and that the run does not have, is added and counted. -/
theorem recorded_of_gain {discovered : BranchIndex} {run : Run} {id : BranchId}
    (hknown : discovered.contains id = true) (hnew : id ∉ run.covered) (n : Nat) :
    Recorded discovered run n [id] ({ run with covered := run.covered.insert id }, n + 1) := by
  refine ⟨rfl, ?_, ?_⟩
  · intro id'
    show id' ∈ run.covered.insert id ↔ _
    -- the new ID is the only one that is added
    rw [IdSet.mem_insert]
    constructor
    · rintro (rfl | hmem)
      · exact .inr ⟨List.mem_singleton_self id', hknown⟩
      · exact .inl hmem
    · rintro (hmem | ⟨hmem, -⟩)
      · exact .inr hmem
      · exact .inl (List.mem_singleton.mp hmem)
  · show (run.covered.insert id).size + n = run.covered.size + (n + 1)
    rw [IdSet.size_insert_of_not_mem hnew]
    omega

/-- One ID. It counts if it was discovered and the run does not have it. -/
theorem recorded_recordId (s : Session) (run : Run) (n : Nat) (id : BranchId) :
    Recorded s.discovered run n [id] (s.recordId (run, n) id) := by
  unfold recordId gains
  -- an ID that is not known is dropped, and so is one that was recorded before
  cases hknown : s.discovered.contains id with
  | false => exact recorded_of_no_gain (fun h => absurd (hknown.symm.trans h) Bool.false_ne_true) n
  | true =>
    cases hcontains : run.covered.contains id with
    | true => exact recorded_of_no_gain (fun _ => Std.ExtTreeSet.mem_iff_contains.mpr hcontains) n
    | false =>
      have hnew : id ∉ run.covered := by
        rw [Std.ExtTreeSet.mem_iff_contains, hcontains]
        exact Bool.false_ne_true
      exact recorded_of_gain hknown hnew n

/-- A list of IDs. Induction on the list, with the run and the number that it goes on from. -/
theorem recorded_foldl (s : Session) (ids : List BranchId) (run : Run) (n : Nat) :
    Recorded s.discovered run n ids (ids.foldl s.recordId (run, n)) := by
  induction ids generalizing run n with
  | nil => exact ⟨rfl, fun id => by simp, rfl⟩
  | cons id ids ih =>
    have hfirst := recorded_recordId s run n id
    -- the rest goes on from the run and the number after the first ID
    have hrest : Recorded s.discovered (s.recordId (run, n) id).1 (s.recordId (run, n) id).2 ids
        (ids.foldl s.recordId (s.recordId (run, n) id)) := ih _ _
    refine ⟨hrest.label.trans hfirst.label, ?_, ?_⟩
    · intro id'
      rw [List.foldl_cons, hrest.covered, hfirst.covered, List.mem_singleton, List.mem_cons]
      constructor
      · rintro ((hmem | ⟨rfl, hknown⟩) | ⟨hmem, hknown⟩)
        · exact .inl hmem
        · exact .inr ⟨.inl rfl, hknown⟩
        · exact .inr ⟨.inr hmem, hknown⟩
      · rintro (hmem | ⟨rfl | hmem, hknown⟩)
        · exact .inl (.inl hmem)
        · exact .inl (.inr ⟨rfl, hknown⟩)
        · exact .inr ⟨hmem, hknown⟩
    · have hcount := hrest.count
      have hcount' := hfirst.count
      rw [List.foldl_cons]
      omega

/-- The run of a trace: the reported IDs that were discovered. -/
def runOf (discovered : BranchIndex) (label : String) (t : Trace) : Run :=
  { label, covered := t.known discovered }

/-- A run that had nothing ends up with the discovered IDs of the trace, and their number is what was
counted. -/
theorem Recorded.eq_runOf {discovered : BranchIndex} {label : String} {t : Trace}
    {after : Run × Nat} (h : Recorded discovered { label } 0 t.all after) :
    after = (runOf discovered label t, (t.known discovered).size) := by
  obtain ⟨⟨label', covered⟩, counted⟩ := after
  obtain ⟨hlabel, hmem, hcount⟩ := h
  have hlabel : label' = label := hlabel
  -- a run that began with nothing has what the trace reports, so the count is the size of it
  have hcovered : covered = t.known discovered := by
    apply Std.ExtTreeSet.ext_mem
    intro id
    rw [Trace.mem_known, ← Trace.mem_all]
    refine (hmem id).trans ⟨?_, .inr⟩
    rintro (hempty | hid)
    · exact absurd hempty Std.ExtTreeSet.not_mem_empty
    · exact hid
  have hempty : ({ label } : Run).covered.size = 0 := Std.ExtTreeSet.size_empty
  have hcounted : counted = covered.size := by
    rw [hempty, Nat.zero_add, Nat.add_zero] at hcount
    exact hcount.symm
  rw [hcounted, hcovered, hlabel]
  rfl

/-- A trace that is recorded in a run just begun: the run has the discovered IDs of the trace, and the
number is how many these are. -/
theorem record_beginRun (s : Session) (label : String) (t : Trace) :
    (s.beginRun label).record t
      = ({ s with run := some (runOf s.discovered label t) }, (t.known s.discovered).size) := by
  have hrecorded : t.all.foldl (s.beginRun label).recordId ({ label }, 0)
      = (runOf s.discovered label t, (t.known s.discovered).size) :=
    (recorded_foldl (s.beginRun label) t.all { label } 0).eq_runOf
  unfold record
  show (({ s with run := some (t.all.foldl (s.beginRun label).recordId ({ label }, 0)).1 } : Session),
      (t.all.foldl (s.beginRun label).recordId ({ label }, 0)).2) = _
  rw [hrecorded]

/-- The run becomes part of the report. -/
theorem endRun_record (s : Session) (label : String) (t : Trace) :
    ((s.beginRun label).record t).1.endRun
      = { s with run := none
                 report := s.report.map (·.addRun (runOf s.discovered label t)) } := by
  rw [record_beginRun]
  rfl

end Session

/-! ## Adding runs to a report -/

namespace Report

/-- Runs are added without loss if they only have discovered IDs. -/
theorem addRun_eq {r : Report} {run : Run}
    (h : ∀ id ∈ run.covered, r.discovered.contains id = true) :
    r.addRun run
      = { r with runs := r.runs ++ [run], covered := r.covered.insertMany run.covered.toList } := by
  -- the filter that the report puts in front of a run lets all of it pass
  have hkept : run.covered.filter r.discovered.contains = run.covered := by
    apply Std.ExtTreeSet.ext_mem
    intro id
    rw [IdSet.mem_filter]
    exact ⟨And.left, fun hmem => ⟨hmem, h id hmem⟩⟩
  unfold addRun
  simp only [hkept]

/-- The report has the runs in the order in which they were added, and it covers what it covered or
one of them covers. Induction on the runs. -/
theorem addRuns_eq {r : Report} {runs : List Run}
    (h : ∀ run ∈ runs, ∀ id ∈ run.covered, r.discovered.contains id = true) :
    (runs.foldl addRun r).chart = r.chart ∧ (runs.foldl addRun r).discovered = r.discovered
      ∧ (runs.foldl addRun r).runs = r.runs ++ runs
      ∧ ∀ id, id ∈ (runs.foldl addRun r).covered
          ↔ id ∈ r.covered ∨ ∃ run ∈ runs, id ∈ run.covered := by
  induction runs generalizing r with
  | nil =>
    refine ⟨rfl, rfl, (List.append_nil r.runs).symm, ?_⟩
    intro id
    simp
  | cons run runs ih =>
    -- induction on the runs: all that a run covers is known, so nothing of it is dropped
    rw [List.foldl_cons, addRun_eq (h run (List.mem_cons_self ..))]
    obtain ⟨hchart, hdiscovered, hruns, hcovered⟩ :=
      ih (r := { r with runs := r.runs ++ [run]
                        covered := r.covered.insertMany run.covered.toList })
        fun run' hrun' => h run' (List.mem_cons_of_mem _ hrun')
    refine ⟨hchart, hdiscovered, ?_, ?_⟩
    · rw [hruns, List.append_assoc]
      rfl
    · intro id
      rw [hcovered, IdSet.mem_insertMany, Std.ExtTreeSet.mem_toList, or_assoc]
      constructor
      · rintro (hmem | hmem | ⟨run', hrun', hmem⟩)
        · exact .inl hmem
        · exact .inr ⟨run, List.mem_cons_self .., hmem⟩
        · exact .inr ⟨run', List.mem_cons_of_mem _ hrun', hmem⟩
      · rintro (hmem | ⟨run', hrun', hmem⟩)
        · exact .inl hmem
        · rcases List.mem_cons.mp hrun' with rfl | hrun'
          · exact .inr (.inl hmem)
          · exact .inr (.inr ⟨run', hrun', hmem⟩)

end Report

end TemplateCoverage
