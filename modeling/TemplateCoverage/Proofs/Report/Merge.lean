import TemplateCoverage.Proofs.Report.Conservation

/-!
# The algebra of merging

Reports of several runs of a chart are merged into one. Merging filters the runs of the second report by
the IDs that the two have discovered together, and a branch of the second report replaces one of the first
that has its ID. On reports that can be built, the filter has nothing to do:

* **`Consistent.merged`**: what a merged report is made of, part by part.
* **`Consistent.merge_assoc`**: reports may be merged in any grouping.
* **`sameCoverage_merge_comm`**: where the reports agree on the branches that both have, the order of
  merging shows in nothing but the runs and the name.
-/

namespace TemplateCoverage

namespace BranchIndex

variable {index index' : BranchIndex}

/-- An index whose branches are added decides first. -/
theorem get?_extend_branches (h : index'.Keyed) (index : BranchIndex) (id : BranchId) :
    (index.extend index'.branches).get? id = (index'.get? id).or (index.get? id) := by
  rw [get?_extend]
  have hfound : ∀ b, b ∈ index'.branches.reverse ∧ b.id = id ↔ index'.get? id = some b := by
    intro b
    rw [List.mem_reverse, mem_branches]
    constructor
    · rintro ⟨⟨id', hb⟩, rfl⟩
      rwa [h id' b hb]
    · exact fun hb => ⟨⟨id, hb⟩, h id b hb⟩
  cases hget : index'.branches.reverse.find? (·.id = id) with
  | some b =>
    have hid : b.id = id := by simpa using List.find?_some hget
    rw [(hfound b).mp ⟨List.mem_of_find?_eq_some hget, hid⟩]
  | none =>
    -- no branch has the ID, so nothing is found under it
    have hnone : index'.get? id = none := by
      refine Option.eq_none_iff_forall_ne_some.mpr fun b hb => ?_
      obtain ⟨hmem, hid⟩ := (hfound b).mpr hb
      exact List.find?_eq_none.mp hget b hmem (by simpa using hid)
    rw [hnone]

/-- Of three indices, the last one that has an ID decides, however they are put together. -/
theorem extend_branches_assoc {index'' : BranchIndex} (h' : index'.Keyed) (h'' : index''.Keyed)
    (index : BranchIndex) :
    (index.extend index'.branches).extend index''.branches
      = index.extend (index'.extend index''.branches).branches := by
  refine ext_get? fun id => ?_
  rw [get?_extend_branches h'', get?_extend_branches h', get?_extend_branches (h'.extend _),
    get?_extend_branches h'', Option.or_assoc]

/-- An index that is extended has the IDs of both, also where one of them is in both. -/
theorem contains_extend_branches_iff (h : index'.Keyed) (index : BranchIndex) (id : BranchId) :
    (index.extend index'.branches).contains id = true
      ↔ index.contains id = true ∨ index'.contains id = true := by
  rw [contains_eq_isSome, get?_extend_branches h, Option.isSome_or, Bool.or_eq_true, or_comm,
    contains_eq_isSome, contains_eq_isSome]

/-- The branches that both indices have under one ID are equal. -/
def Agree (index index' : BranchIndex) : Prop :=
  ∀ b ∈ index.branches, ∀ b' ∈ index'.branches, b.id = b'.id → b = b'

/-- Where the indices agree, it does not matter which one decides. -/
theorem Agree.extend_comm (h : index.Keyed) (h' : index'.Keyed) (hagree : index.Agree index') :
    index.extend index'.branches = index'.extend index.branches := by
  refine ext_get? fun id => ?_
  rw [get?_extend_branches h', get?_extend_branches h]
  cases hb : index.get? id with
  | none => rw [Option.or_none, Option.none_or]
  | some b =>
    cases hb' : index'.get? id with
    | none => rfl
    | some b' =>
      have hid : b.id = b'.id := (h id b hb).trans (h' id b' hb').symm
      rw [hagree b (mem_branches.mpr ⟨id, hb⟩) b' (mem_branches.mpr ⟨id, hb'⟩) hid]

/-- An index brings nothing new to itself. -/
theorem Keyed.extend_self (h : index.Keyed) : index.extend index.branches = index := by
  refine ext_get? fun id => ?_
  rw [get?_extend_branches h, Option.or_self]

end BranchIndex

namespace Report

/-- Two reports with the same parts are equal. The covered IDs are compared one by one. -/
theorem ext_parts {r r' : Report} (hchart : r.chart = r'.chart)
    (hdiscovered : r.discovered = r'.discovered) (hruns : r.runs = r'.runs)
    (hcovered : ∀ id, id ∈ r.covered ↔ id ∈ r'.covered) : r = r' := by
  obtain ⟨chart, discovered, runs, covered⟩ := r
  obtain ⟨chart', discovered', runs', covered'⟩ := r'
  obtain rfl : chart = chart' := hchart
  obtain rfl : discovered = discovered' := hdiscovered
  obtain rfl : runs = runs' := hruns
  obtain rfl : covered = covered' := Std.ExtTreeSet.ext_mem fun id => hcovered id
  rfl

/-! ## The parts of a merged report -/

/-- What a merged report is made of. -/
structure Merged (r other merged : Report) : Prop where
  chart : merged.chart = r.chart
  discovered : merged.discovered = r.discovered.extend other.discovered.branches
  /-- The runs of the second report stand behind those of the first one, as they are. -/
  runs : merged.runs = r.runs ++ other.runs
  covered : ∀ id, id ∈ merged.covered ↔ id ∈ r.covered ∨ id ∈ other.covered

variable {r other : Report}

/-- The runs of a consistent report lose nothing when it is merged into another one, since all of their
IDs come with the index of the report. -/
theorem Consistent.merged (h : other.Consistent) (r : Report) : r.Merged other (r.merge other) := by
  have hknown : ∀ run ∈ other.runs, ∀ id ∈ run.covered,
      (r.discovered.extend other.discovered.branches).contains id = true := by
    intro run hrun id hid
    exact contains_extend_branches h.keyed (h.known id ((h.covered_iff id).mpr ⟨run, hrun, hid⟩))
  obtain ⟨hchart, hdiscovered, hruns, hcovered⟩ := addRuns_eq
    (r := { r with discovered := r.discovered.extend other.discovered.branches }) hknown
  refine ⟨hchart, hdiscovered, hruns, fun id => ?_⟩
  rw [h.covered_iff]
  exact hcovered id

/-! ## Merging three reports -/

/-- Both groupings have the same parts: the runs and the covered IDs are joined, and of the indices the
last one decides. -/
theorem Consistent.merge_assoc {a b c : Report} (hb : b.Consistent) (hc : c.Consistent) :
    (a.merge b).merge c = a.merge (b.merge c) := by
  have hab := hb.merged a
  have hbc := hc.merged b
  have hleft := hc.merged (a.merge b)
  have hright := (hb.merge c).merged a
  refine ext_parts ?_ ?_ ?_ fun id => ?_
  · rw [hleft.chart, hab.chart, hright.chart]
  · rw [hleft.discovered, hab.discovered, hright.discovered, hbc.discovered]
    exact BranchIndex.extend_branches_assoc hb.keyed hc.keyed a.discovered
  · rw [hleft.runs, hab.runs, hright.runs, hbc.runs, List.append_assoc]
  · rw [hleft.covered, hab.covered, hright.covered, hbc.covered, or_assoc]

/-! ## Merging in either order -/

/-- The reports show the same coverage: the same branches, of which the same are covered. -/
structure SameCoverage (r r' : Report) : Prop where
  discovered : r.discovered = r'.discovered
  covered : r.covered = r'.covered
  uncovered : r.uncovered = r'.uncovered
  summary : r.summary = r'.summary

/-- The uncovered branches and the numbers are those of the index and the covered IDs. -/
theorem sameCoverage_of_parts {r r' : Report} (hdiscovered : r.discovered = r'.discovered)
    (hcovered : ∀ id, id ∈ r.covered ↔ id ∈ r'.covered) : r.SameCoverage r' := by
  obtain ⟨chart, discovered, runs, covered⟩ := r
  obtain ⟨chart', discovered', runs', covered'⟩ := r'
  obtain rfl : discovered = discovered' := hdiscovered
  obtain rfl : covered = covered' := Std.ExtTreeSet.ext_mem fun id => hcovered id
  exact ⟨rfl, rfl, rfl, rfl⟩

/-- Where two reports agree on the branches that both have, neither of them takes precedence. -/
theorem sameCoverage_merge_comm {a b : Report} (ha : a.Consistent) (hb : b.Consistent)
    (hagree : a.discovered.Agree b.discovered) : (a.merge b).SameCoverage (b.merge a) := by
  have hab := hb.merged a
  have hba := ha.merged b
  refine sameCoverage_of_parts ?_ fun id => ?_
  · rw [hab.discovered, hba.discovered]
    exact hagree.extend_comm ha.keyed hb.keyed
  · rw [hab.covered, hba.covered, or_comm]

/-- A report that is merged into itself gets its runs twice, and nothing else. -/
theorem sameCoverage_merge_self {a : Report} (ha : a.Consistent) : (a.merge a).SameCoverage a := by
  have haa := ha.merged a
  refine sameCoverage_of_parts ?_ fun id => ?_
  · rw [haa.discovered, ha.keyed.extend_self]
  · rw [haa.covered, or_self]

/-- **Merging is an algebra.** Reports that can be built may be merged in any grouping, with the very same
report as the result. A merged report has discovered and covered what one of the two has, and it has the
runs of both, one after the other. Where the two agree on the branches that both have, the coverage does
not depend on the order of merging, and a report gains no coverage from itself. -/
theorem merge_algebra {a b c : Report} (ha : a.Reachable) (hb : b.Reachable) (hc : c.Reachable) :
    (a.merge b).merge c = a.merge (b.merge c)
      ∧ (∀ id, id ∈ (a.merge b).covered ↔ id ∈ a.covered ∨ id ∈ b.covered)
      ∧ (∀ id, id ∈ (a.merge b).discovered.ids ↔ id ∈ a.discovered.ids ∨ id ∈ b.discovered.ids)
      ∧ (a.merge b).runs = a.runs ++ b.runs
      ∧ (a.discovered.Agree b.discovered → (a.merge b).SameCoverage (b.merge a))
      ∧ (a.merge a).SameCoverage a := by
  have hmerged := hb.consistent.merged a
  refine ⟨hb.consistent.merge_assoc hc.consistent, hmerged.covered, fun id => ?_, hmerged.runs,
    fun hagree => sameCoverage_merge_comm ha.consistent hb.consistent hagree,
    sameCoverage_merge_self ha.consistent⟩
  rw [BranchIndex.mem_ids, BranchIndex.mem_ids, BranchIndex.mem_ids, hmerged.discovered]
  exact BranchIndex.contains_extend_branches_iff hb.consistent.keyed a.discovered id

/-- A report on one file. Its run has an ID that was not discovered. -/
def templateReport : Report :=
  (Report.new "demo" (.extend .empty
      [endBranch "templates/a.yaml" .template 3, endBranch "templates/a.yaml" .template 5])).addRun
    { label := "one.yaml", covered := .ofList ["templates/a.yaml:L3", "templates/_h.tpl:L2"] }

/-- A report that knows one of its branches, and the branch that its run had too many. -/
def helperReport : Report :=
  (Report.new "demo" (.extend .empty
      [endBranch "templates/a.yaml" .template 3, endBranch "templates/_h.tpl" .helper 2])).addRun
    { label := "two.yaml", covered := .ofList ["templates/a.yaml:L3"] }

/-- A report that takes a branch of the two for another one. -/
def clashingReport : Report :=
  (Report.new "other" (.extend .empty [endBranch "templates/a.yaml" .helper 3])).addRun
    { label := "three.yaml", covered := .ofList ["templates/a.yaml:L3"] }

/-- The first two reports agree, and an ID that the first one dropped is not covered when the second one
brings its branch. The third one agrees with neither, and whether it is merged first or last shows. -/
theorem merge_algebra_clashingReport :
    templateReport.Reachable ∧ helperReport.Reachable ∧ clashingReport.Reachable
      ∧ templateReport.discovered.Agree helperReport.discovered
      ∧ (templateReport.merge helperReport).SameCoverage (helperReport.merge templateReport)
      ∧ (templateReport.merge helperReport).summary.coveredBranches = 1
      ∧ (templateReport.merge helperReport).summary.totalBranches = 3
      ∧ (templateReport.merge helperReport).merge clashingReport
        = templateReport.merge (helperReport.merge clashingReport)
      ∧ ¬((templateReport.merge helperReport).merge clashingReport).SameCoverage
        (clashingReport.merge (templateReport.merge helperReport)) := by
  have ha : templateReport.Reachable := (Reachable.new _ _).addRun _
  have hb : helperReport.Reachable := (Reachable.new _ _).addRun _
  have hc : clashingReport.Reachable := (Reachable.new _ _).addRun _
  -- the two reports tell the same of the branches that they share, and the third one does not
  have hagree : templateReport.discovered.Agree helperReport.discovered := by
    unfold BranchIndex.Agree
    decide
  obtain ⟨hassoc, -, -, -, hcomm, -⟩ := merge_algebra ha hb hc
  refine ⟨ha, hb, hc, hagree, hcomm hagree, by decide +kernel, by decide +kernel, hassoc, fun h => ?_⟩
  have hhelpers : ((templateReport.merge helperReport).merge clashingReport).summary.helperBranchesTotal
      ≠ (clashingReport.merge (templateReport.merge helperReport)).summary.helperBranchesTotal := by
    decide
  exact hhelpers (congrArg Summary.helperBranchesTotal h.summary)

end Report

end TemplateCoverage
