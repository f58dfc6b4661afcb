import TemplateCoverage.Proofs.Branch.Index
import TemplateCoverage.Proofs.Session.Record

/-!
# What a report conserves

A report grows by runs and by other reports. Its covered IDs are kept beside the runs and beside the
index, so they could drift apart from both; they do not.

* **`Reachable`**: the reports that can be built, over any branches, with any runs.
* **`Consistent`**: the invariant. A run preserves it (`Consistent.addRun`), and a report with all its
  runs does (`Consistent.merge`), so it holds of every reachable report (`Reachable.consistent`).
* **`Within`**: one report has lost nothing of another. No operation loses anything.
* **`perm_ids`**: the covered IDs of either kind and the IDs of the uncovered branches are all the
  discovered IDs, each once. The counts of a summary follow from it (`Reachable.conserved`).
-/

namespace TemplateCoverage.Report

/-- The reports that can be built: new ones over any branches, with runs of whatever IDs and with
other such reports added. -/
inductive Reachable : Report → Prop where
  | new (chart : String) (branches : List Branch) :
      Reachable (Report.new chart (BranchIndex.empty.extend branches))
  | addRun {r : Report} (run : Run) (h : Reachable r) : Reachable (r.addRun run)
  | merge {r other : Report} (h : Reachable r) (hother : Reachable other) :
      Reachable (r.merge other)

variable {r other : Report} {id : BranchId}

/-! ## What the operations cover -/

/-- A run covers what it has found of the branches that are known. -/
theorem mem_covered_addRun {run : Run} :
    id ∈ (r.addRun run).covered
      ↔ id ∈ r.covered ∨ id ∈ run.covered ∧ r.discovered.contains id = true := by
  unfold addRun
  rw [IdSet.mem_insertMany, Std.ExtTreeSet.mem_toList, IdSet.mem_filter]

/-- Runs discover nothing. -/
theorem discovered_foldl_addRun (r : Report) (runs : List Run) :
    (runs.foldl addRun r).discovered = r.discovered := by
  induction runs generalizing r with
  | nil => rfl
  | cons run runs ih => exact ih (r.addRun run)

/-- What is covered after several runs was covered before, or by one of them. -/
theorem mem_covered_foldl_addRun {runs : List Run} :
    id ∈ (runs.foldl addRun r).covered
      ↔ id ∈ r.covered
        ∨ (∃ run ∈ runs, id ∈ run.covered) ∧ r.discovered.contains id = true := by
  induction runs generalizing r with
  | nil => simp
  | cons run runs ih =>
    have hruns : (∃ run' ∈ run :: runs, id ∈ run'.covered)
        ↔ id ∈ run.covered ∨ ∃ run' ∈ runs, id ∈ run'.covered := by simp
    rw [List.foldl_cons, ih, mem_covered_addRun, hruns, or_and_right, or_assoc]
    rfl

theorem discovered_merge (r other : Report) :
    (r.merge other).discovered = r.discovered.extend other.discovered.branches :=
  discovered_foldl_addRun _ _

/-- A report covers what it covered, and what the runs of the other one covered, as far as one of the
two has discovered it. -/
theorem mem_covered_merge :
    id ∈ (r.merge other).covered
      ↔ id ∈ r.covered ∨ (∃ run ∈ other.runs, id ∈ run.covered)
        ∧ (r.discovered.extend other.discovered.branches).contains id = true :=
  mem_covered_foldl_addRun

/-! ## The invariant -/

/-- The covered IDs are those of the runs, they were discovered, and each branch is found under its own
ID. -/
structure Consistent (r : Report) : Prop where
  keyed : r.discovered.Keyed
  covered_iff : ∀ id, id ∈ r.covered ↔ ∃ run ∈ r.runs, id ∈ run.covered
  known : ∀ id ∈ r.covered, r.discovered.contains id = true

/-- A new report has no runs and covers nothing. -/
theorem consistent_new (chart : String) (branches : List Branch) :
    (Report.new chart (BranchIndex.empty.extend branches)).Consistent := by
  refine ⟨BranchIndex.keyed_empty.extend branches, ?_, ?_⟩
  · intro id
    constructor
    · intro h
      exact absurd h Std.ExtTreeSet.not_mem_empty
    · rintro ⟨run, hrun, -⟩
      cases hrun
  · intro id h
    exact absurd h Std.ExtTreeSet.not_mem_empty

namespace Consistent

/-- A run is cut down to the discovered IDs before it is added to the runs and to the covered IDs. -/
theorem addRun (h : r.Consistent) (run : Run) : (r.addRun run).Consistent := by
  refine ⟨h.keyed, ?_, ?_⟩
  · intro id
    -- what is covered is what one of the runs has covered, the new one among them
    rw [mem_covered_addRun, h.covered_iff]
    show _ ↔ ∃ run' ∈ r.runs ++ [_], id ∈ run'.covered
    rw [← IdSet.mem_filter]
    constructor
    · rintro (⟨run', hrun', hid⟩ | hid)
      · exact ⟨run', List.mem_append_left _ hrun', hid⟩
      · exact ⟨_, List.mem_append_right _ (List.mem_singleton_self _), hid⟩
    · rintro ⟨run', hrun', hid⟩
      rcases List.mem_append.mp hrun' with hrun' | hrun'
      · exact .inl ⟨run', hrun', hid⟩
      · cases List.mem_singleton.mp hrun'
        exact .inr hid
  · intro id hid
    rcases mem_covered_addRun.mp hid with hid | ⟨-, hknown⟩
    · exact h.known id hid
    · exact hknown

/-- So it is after any number of runs, by induction. -/
theorem foldl_addRun (h : r.Consistent) (runs : List Run) :
    (runs.foldl Report.addRun r).Consistent := by
  induction runs generalizing r with
  | nil => exact h
  | cons run runs ih => exact ih (h.addRun run)

/-- More branches make no covered ID unknown. -/
theorem extend (h : r.Consistent) (branches : List Branch) :
    ({ r with discovered := r.discovered.extend branches } : Report).Consistent :=
  ⟨h.keyed.extend branches, h.covered_iff,
    fun id hid => BranchIndex.contains_extend.mpr (.inl (h.known id hid))⟩

theorem merge (h : r.Consistent) (other : Report) : (r.merge other).Consistent :=
  (h.extend other.discovered.branches).foldl_addRun other.runs

end Consistent

/-- Induction on the way in which the report was built. -/
theorem Reachable.consistent (h : r.Reachable) : r.Consistent := by
  induction h with
  | new chart branches => exact consistent_new chart branches
  | addRun run _ ih => exact ih.addRun run
  | merge _ _ ih _ => exact ih.merge _

/-! ## Nothing is lost -/

/-- The second report has what the first one has discovered and covered. -/
structure Within (r r' : Report) : Prop where
  covered : ∀ id ∈ r.covered, id ∈ r'.covered
  discovered : ∀ id, r.discovered.contains id = true → r'.discovered.contains id = true

theorem within_addRun (r : Report) (run : Run) : r.Within (r.addRun run) :=
  ⟨fun _ hid => mem_covered_addRun.mpr (.inl hid), fun _ hid => hid⟩

/-- A merge keeps what either report has covered. -/
theorem within_merge (r other : Report) : r.Within (r.merge other) := by
  refine ⟨fun id hid => mem_covered_merge.mpr (.inl hid), fun id hid => ?_⟩
  rw [discovered_merge]
  exact BranchIndex.contains_extend.mpr (.inl hid)

/-- The branches of an index bring all of its IDs with them. -/
theorem contains_extend_branches {index index' : BranchIndex} (h : index'.Keyed)
    (hid : index'.contains id = true) : (index.extend index'.branches).contains id = true := by
  obtain ⟨b, hb⟩ := BranchIndex.contains_iff_exists.mp hid
  exact BranchIndex.contains_extend.mpr
    (.inr ⟨b, BranchIndex.mem_branches.mpr ⟨id, hb⟩, h id b hb⟩)

/-- Neither is anything lost of the report that is added. -/
theorem Consistent.within_merge (h : other.Consistent) (r : Report) :
    other.Within (r.merge other) := by
  refine ⟨fun id hid => ?_, fun id hid => ?_⟩
  · exact mem_covered_merge.mpr (.inr ⟨(h.covered_iff id).mp hid,
      contains_extend_branches h.keyed (h.known id hid)⟩)
  · rw [discovered_merge]
    exact contains_extend_branches h.keyed hid

/-! ## Covered and uncovered IDs -/

namespace Consistent

/-- A covered ID is discovered, and the file of its branch is of one of the two kinds. -/
theorem coveredOfKind_perm (h : r.Consistent) :
    (r.coveredOfKind .template ++ r.coveredOfKind .helper).Perm r.covered.toList := by
  have hhelper : r.coveredOfKind .helper = r.covered.toList.filter fun id =>
      !((r.discovered.get? id).any fun b => b.kind = .template) := by
    apply List.filter_congr
    intro id hid
    obtain ⟨b, hb⟩ := BranchIndex.contains_iff_exists.mp
      (h.known id (Std.ExtTreeSet.mem_toList.mp hid))
    rw [hb]
    cases hkind : b.kind <;> simp [hkind]
  rw [hhelper]
  exact List.filter_append_perm _ _

/-- The covered IDs are those that the index lists and the report covers. -/
theorem covered_perm (h : r.Consistent) :
    r.covered.toList.Perm (r.discovered.ids.filter r.isCovered) := by
  rw [List.perm_ext_iff_of_nodup (r.covered.distinct_toList.imp Std.ReflCmp.ne_of_cmp_ne_eq)
    (r.discovered.nodup_ids.filter _)]
  intro id
  rw [Std.ExtTreeSet.mem_toList, List.mem_filter, BranchIndex.mem_ids]
  unfold isCovered
  rw [← Std.ExtTreeSet.mem_iff_contains]
  exact ⟨fun hid => ⟨h.known id hid, hid⟩, And.right⟩

/-- The branches that are left are those of the index that were not covered, in its order. -/
theorem map_id_uncovered (h : r.Consistent) :
    r.uncovered.map (·.id) = r.discovered.ids.filter fun id => !r.isCovered id := by
  rw [← h.keyed.map_id_branches, List.filter_map]
  rfl

/-- The covered IDs of either kind and the IDs of the uncovered branches are the discovered IDs, each
once. -/
theorem perm_ids (h : r.Consistent) :
    (r.coveredOfKind .template ++ r.coveredOfKind .helper ++ r.uncovered.map (·.id)).Perm
      r.discovered.ids := by
  rw [h.map_id_uncovered]
  exact ((h.coveredOfKind_perm.trans h.covered_perm).append_right _).trans
    (List.filter_append_perm _ _)

theorem coveredOfKind_length (h : r.Consistent) :
    (r.coveredOfKind .template).length + (r.coveredOfKind .helper).length = r.covered.size := by
  rw [← List.length_append, h.coveredOfKind_perm.length_eq]
  exact Std.ExtTreeSet.length_toList

/-- Covered or not, each branch is counted once. -/
theorem covered_add_uncovered (h : r.Consistent) :
    r.covered.size + r.uncovered.length = r.discovered.size := by
  have hlength := h.perm_ids.length_eq
  rw [List.length_append, List.length_append, List.length_map, h.coveredOfKind_length,
    BranchIndex.length_ids] at hlength
  exact hlength

end Consistent

/-- Every branch stands in a file of one of the two kinds. -/
theorem countKind_add (index : BranchIndex) :
    index.countKind .template + index.countKind .helper = index.size := by
  have hhelper : index.countKind .helper
      = index.branches.countP fun b => ¬decide (b.kind = .template) = true := by
    apply List.countP_congr
    intro b _
    cases b.kind <;> simp
  rw [hhelper, ← BranchIndex.length_branches]
  exact (List.length_eq_countP_add_countP _).symm

/-- What holds between the parts of a report and the numbers of its summary. -/
structure Conserved (r : Report) : Prop where
  /-- The covered IDs are those of the runs together. -/
  covered_iff : ∀ id, id ∈ r.covered ↔ ∃ run ∈ r.runs, id ∈ run.covered
  /-- Nothing is covered that was not discovered. -/
  known : ∀ id ∈ r.covered, r.discovered.contains id = true
  /-- The index lists every discovered ID, and none twice. -/
  ids : r.discovered.ids.Nodup ∧ ∀ id, id ∈ r.discovered.ids ↔ r.discovered.contains id = true
  /-- Covered in a template file, covered in a helper file, uncovered: each discovered ID is one of
  the three. -/
  partition :
    (r.coveredOfKind .template ++ r.coveredOfKind .helper ++ r.uncovered.map (·.id)).Perm
      r.discovered.ids
  sizes : r.covered.size + r.uncovered.length = r.discovered.size
  totals : r.summary.fileBranchesTotal + r.summary.helperBranchesTotal = r.summary.totalBranches
  coveredTotals :
    r.summary.fileBranchesCovered + r.summary.helperBranchesCovered = r.summary.coveredBranches
  /-- The subtraction of `Summary.uncoveredBranches` has enough to subtract from. -/
  covered_le : r.summary.coveredBranches ≤ r.summary.totalBranches
  uncoveredBranches : r.summary.uncoveredBranches = r.uncovered.length
  /-- No operation loses an ID. -/
  addRun : ∀ run, r.Within (r.addRun run)
  merge : ∀ other, r.Within (r.merge other)
  /-- Nor does a report to which this one is added. -/
  merged : ∀ r' : Report, r.Within (r'.merge r)

/-- **Every report conserves its branches.** However a report was built, its covered IDs are those of
its runs, and together with the uncovered branches they are what was discovered, in sets and in
numbers. -/
theorem conserved_of_reachable (h : r.Reachable) : r.Conserved := by
  have hr := h.consistent
  -- every part of the claim follows from the invariant of reachable reports
  have hsizes := hr.covered_add_uncovered
  exact
    { covered_iff := hr.covered_iff
      known := hr.known
      ids := ⟨r.discovered.nodup_ids, fun _ => BranchIndex.mem_ids⟩
      partition := hr.perm_ids
      sizes := hsizes
      totals := countKind_add r.discovered
      coveredTotals := hr.coveredOfKind_length
      covered_le := by
        show r.covered.size ≤ r.discovered.size
        omega
      uncoveredBranches := by
        show r.discovered.size - r.covered.size = r.uncovered.length
        omega
      addRun := within_addRun r
      merge := within_merge r
      merged := hr.within_merge }

/-- The branch of an `end` on a line of a file, with the line before it as its arm. -/
def endBranch (file : String) (kind : FileKind) (line : Nat) : Branch :=
  Branch.ofArm file kind
    { trigger := .endBlock, define := none, tokenLine := line, column := 0, occurrence := 1
      startLine := line - 1, endLine := line - 1, decisionLine := line - 1, trimLeft := false }

/-- Two reports in one. The first one has a run with an ID that it has not discovered; the second one
knows a branch of the first one as that of a helper file, and has one more branch. -/
def overlappingReports : Report :=
  let first := (Report.new "demo" (.extend .empty
      [endBranch "templates/a.yaml" .template 3, endBranch "templates/c.yaml" .template 2])).addRun
    { label := "one.yaml", covered := .ofList ["templates/a.yaml:L3", "templates/gone.yaml:L1"] }
  let second := (Report.new "demo" (.extend .empty
      [endBranch "templates/a.yaml" .helper 3, endBranch "templates/b.yaml" .template 7])).addRun
    { label := "two.yaml", covered := .ofList ["templates/b.yaml:L7"] }
  first.merge second

/-- Three branches are left, of which two are covered: one of a template file, and the one that
became a helper's. -/
theorem conserved_overlappingReports :
    overlappingReports.Reachable ∧ overlappingReports.Conserved
      ∧ overlappingReports.summary.totalBranches = 3
      ∧ overlappingReports.summary.fileBranchesCovered = 1
      ∧ overlappingReports.summary.helperBranchesCovered = 1
      ∧ overlappingReports.summary.uncoveredBranches = 1 := by
  have h : overlappingReports.Reachable :=
    ((Reachable.new _ _).addRun _).merge ((Reachable.new _ _).addRun _)
  exact ⟨h, conserved_of_reachable h, by decide +kernel, by decide +kernel, by decide +kernel,
    by decide +kernel⟩

end TemplateCoverage.Report
