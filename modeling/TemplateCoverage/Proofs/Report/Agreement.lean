import TemplateCoverage.Proofs.Decimal.Finite
import TemplateCoverage.Proofs.Report.Conservation
import TemplateCoverage.Proofs.Report.Element
import TemplateCoverage.Proofs.Report.Projection
import TemplateCoverage.Report.Text

/-!
# The three formats agree

A report is shown as an XML document, as a JSON value and as text. The numbers in them are computed in
different ways: the document adds up files, where each branch is looked up again, the summary takes sizes,
and the covered IDs are sorted by the kinds of the files of their branches.

* **`Consistent.tally_branches`**: the sums of the document are the sizes of the summary.
* **`toText_of_nonempty`**, **`toText_eq_iff`**: the text as a text of numbers and lists, and when it is not
  one.
* **`Agreement`**: what the formats say of one report. They say it of every report (`formats_agree`).
-/

namespace TemplateCoverage

namespace Report

/-! ## Sizes -/

variable {r : Report}

theorem Consistent.countP_covered (h : r.Consistent) :
    (r.discovered.branches.countP fun b => r.isCovered b.id) = r.covered.size := by
  have hlength := h.covered_perm.length_eq
  rw [← List.countP_eq_length_filter, ← h.keyed.map_id_branches, List.countP_map] at hlength
  exact hlength.symm.trans Std.ExtTreeSet.length_toList

/-- The totals of the tally are those of the summary. -/
theorem Consistent.tally_branches (h : r.Consistent) :
    r.tally.branchesValid = r.summary.totalBranches
      ∧ r.tally.branchesCovered = r.summary.coveredBranches := by
  rw [tally_eq]
  exact ⟨BranchIndex.length_branches _, h.countP_covered⟩

theorem isEmpty_iff : r.discovered.isEmpty = true ↔ r.discovered.ids = [] := by
  rw [← List.isEmpty_iff]
  exact Iff.of_eq (congrArg (· = true) Std.ExtTreeMap.isEmpty_keys.symm)

/-- There is no percentage exactly if there is nothing to cover. -/
theorem coveragePercent_eq_none_iff : r.coveragePercent = none ↔ r.discovered.ids = [] := by
  rw [← isEmpty_iff]
  unfold coveragePercent
  split <;> simp_all

/-! ## The covered IDs -/

/-- The IDs that are listed come in order, each of them once. -/
theorem pairwise_coveredOfKind (r : Report) (kind : FileKind) :
    (r.coveredOfKind kind).Pairwise (· < ·) := by
  have hsorted : r.covered.toList.Pairwise (· < ·) :=
    r.covered.ordered_toList.imp compare_lt_iff_lt.mp
  exact hsorted.sublist List.filter_sublist

/-- A branch has one kind, so no ID is in both lists. -/
theorem Consistent.disjoint_coveredOfKind (h : r.Consistent) :
    (r.coveredOfKind .template).Disjoint (r.coveredOfKind .helper) := by
  have hnodup := h.coveredOfKind_perm.nodup_iff.mpr
    (r.covered.distinct_toList.imp Std.ReflCmp.ne_of_cmp_ne_eq)
  exact (List.nodup_append'.mp hnodup).2.2

/-- The branch of a covered ID says which of the lists it is in. -/
theorem Consistent.exists_of_mem_coveredOfKind (h : r.Consistent) {kind : FileKind} {id : BranchId}
    (hid : id ∈ r.coveredOfKind kind) : ∃ b ∈ r.discovered.branches, b.id = id ∧ b.kind = kind := by
  obtain ⟨-, hany⟩ := List.mem_filter.mp hid
  obtain ⟨b, hb, hkind⟩ := (Option.any_eq_true _ _).mp hany
  exact ⟨b, BranchIndex.mem_branches.mpr ⟨id, hb⟩, h.keyed id b hb, of_decide_eq_true hkind⟩

/-! ## The classes -/

theorem foldl_add_tally (classes : List (String × ClassCoverage)) (t : Tally) :
    (classes.foldl (fun t c => t.add c.2.tally) t).branchesValid
        = t.branchesValid + (classes.map (·.2.branchesValid)).sum
      ∧ (classes.foldl (fun t c => t.add c.2.tally) t).branchesCovered
        = t.branchesCovered + (classes.map (·.2.branchesCovered)).sum := by
  induction classes generalizing t with
  | nil => exact ⟨rfl, rfl⟩
  | cons c classes ih =>
    obtain ⟨hvalid, hcovered⟩ := ih (t.add c.2.tally)
    rw [List.foldl_cons, hvalid, hcovered, List.map_cons, List.map_cons, List.sum_cons, List.sum_cons,
      ← Nat.add_assoc, ← Nat.add_assoc]
    exact ⟨rfl, rfl⟩

/-- The numbers of the document are summed over the classes. -/
theorem tally_eq_sum (r : Report) :
    r.tally.branchesValid = (r.classes.map (·.2.branchesValid)).sum
      ∧ r.tally.branchesCovered = (r.classes.map (·.2.branchesCovered)).sum := by
  have hsum := foldl_add_tally r.classes ⟨0, 0, 0, 0⟩
  rwa [Nat.zero_add, Nat.zero_add] at hsum

/-- There is a class for each file in which a branch stands. -/
theorem length_classes (r : Report) :
    r.classes.length = (r.discovered.branches.map (·.file)).toFinset.card := by
  have hfiles : (r.discovered.branches.map (·.file)).toFinset = r.discovered.files.toFinset := by
    ext file
    rw [List.mem_toFinset, List.mem_toFinset, List.mem_map, BranchIndex.mem_files]
  rw [hfiles, List.toFinset_card_of_nodup (r.discovered.files_increasing.imp ne_of_lt), classes_eq,
    List.length_map]

/-! ## The text -/

/-- A list of IDs under a title, each on a line of its own. Where there is none, the list says so. -/
def listed (title : String) (ids : List BranchId) : String :=
  "\n" ++ title ++ "\n"
    ++ if ids.isEmpty then "  (none)\n" else String.join (ids.map fun id => "  " ++ id ++ "\n")

/-- The IDs that no run covered, under their number. -/
def listedUncovered (ids : List BranchId) : String :=
  "\nUncovered branches (" ++ toString ids.length ++ "):\n"
    ++ String.join (ids.map fun id => "  " ++ id ++ "\n")

/-- The runs with the numbers of the branches that they covered. -/
def listedRuns (runs : List Run) : String :=
  if runs.isEmpty then ""
  else
    "\nRuns:\n" ++ String.join (runs.map fun run =>
      "  " ++ run.label ++ ": " ++ toString run.covered.size ++ " covered" ++ "\n")

/-- The counts of the text report, up to the percentage. The covered branches of a kind of files are counted by
their list. -/
def countsText (chart : String) (s : Summary) (files helpers : List BranchId) : String :=
  "Chart: " ++ chart ++ "\n"
    ++ "Total branches:    " ++ toString s.totalBranches ++ "\n"
    ++ "Covered branches:  " ++ toString s.coveredBranches ++ "\n"
    ++ "  file branches:   " ++ toString files.length ++ "/" ++ toString s.fileBranchesTotal ++ "\n"
    ++ "  helper branches: " ++ toString helpers.length ++ "/" ++ toString s.helperBranchesTotal ++ "\n"
    ++ "Coverage: "

/-- The text report of a chart with branches: the counts, the percentage, and the lists of IDs. -/
def listingText (chart : String) (s : Summary) (percentage : String) (files helpers : List BranchId) :
    String :=
  countsText chart s files helpers ++ percentage ++ "\n"
    ++ listed "Covered file branches:" files ++ listed "Covered helper branches:" helpers

/-- Without branches there is nothing to list. -/
theorem toText_of_empty (h : r.discovered.ids = []) (options : TextOptions) :
    r.toText options = "Chart: " ++ r.chart ++ "\nNo branches found\n" := by
  unfold toText
  rw [coveragePercent_eq_none_iff.mpr h]
  exact String.toList_injective (by simp [line])

/-- The sections of the report are the lists. -/
theorem coveredSection_eq (r : Report) (kind : FileKind) (title : String) :
    r.coveredSection kind title = listed (title ++ ":") (r.coveredOfKind kind) := by
  unfold coveredSection listed idLines line
  simp only [String.append_assoc]
  rfl

theorem uncoveredSection_eq (r : Report) :
    r.uncoveredSection = listedUncovered (r.uncovered.map (·.id)) := by
  unfold uncoveredSection listedUncovered idLines line
  rw [List.length_map]
  exact String.toList_injective (by simp)

theorem runsSection_eq (r : Report) : r.runsSection = listedRuns r.runs := by
  unfold runsSection listedRuns line
  split
  · rfl
  · exact String.toList_injective (by simp)

/-- A percentage with its word stands on one line. -/
theorem newline_not_mem_percentage (percent : Float) :
    '\n' ∉ (toString (truncatedPercent percent) ++ "% (" ++ statusWord (Status.ofPercent percent)
      ++ ")").toList := by
  have hword : ∀ status, '\n' ∉ (statusWord status).toList := by
    intro status
    cases status <;> decide
  have hnumber := notMem_toString (c := '\n') (by decide) (truncatedPercent percent)
  rw [String.toList_append, String.toList_append, String.toList_append]
  simp only [List.mem_append, not_or]
  exact ⟨⟨⟨hnumber, by decide⟩, hword _⟩, by decide⟩

/-- The text is the counts, the percentage, the two lists, and the sections that are asked for. -/
theorem toText_of_nonempty (h : r.discovered.ids ≠ []) :
    ∃ percentage, '\n' ∉ percentage.toList ∧ ∀ options : TextOptions, r.toText options
      = listingText r.chart r.summary percentage (r.coveredOfKind .template) (r.coveredOfKind .helper)
        ++ (if options.uncovered then listedUncovered (r.uncovered.map (·.id)) else "")
        ++ if options.runs then listedRuns r.runs else "" := by
  obtain ⟨percent, hpercent⟩ := Option.ne_none_iff_exists'.mp (mt coveragePercent_eq_none_iff.mp h)
  refine ⟨_, newline_not_mem_percentage percent, fun options => ?_⟩
  unfold toText
  rw [hpercent]
  dsimp only
  rw [coveredSection_eq, coveredSection_eq, uncoveredSection_eq, runsSection_eq]
  unfold listingText countsText totals share line
  exact String.toList_injective (by simp; rfl)

/-- The text of the totals is no other text. -/
theorem toText_eq_iff (r : Report) (options : TextOptions) :
    r.toText options = "Chart: " ++ r.chart ++ "\nNo branches found\n" ↔ r.discovered.ids = [] := by
  refine ⟨fun htext => ?_, fun h => toText_of_empty h options⟩
  by_contra h
  obtain ⟨percentage, -, hlisting⟩ := toText_of_nonempty h
  rw [hlisting options] at htext
  -- the line below the name of the chart begins differently
  have hchars := congrArg String.toList htext
  unfold listingText countsText at hchars
  simp at hchars

/-! ## Percentages -/

/-- The percentage is a number. The bound on the size is that of a count that the program can hold. -/
theorem Consistent.isFinite_percent (h : r.Consistent) (hsize : r.discovered.size < 2 ^ 64)
    {percent : Float} (hpercent : r.coveragePercent = some percent) : percent.isFinite = true := by
  have hcovered : r.covered.size ≤ r.discovered.size := by
    have := h.covered_add_uncovered
    omega
  have hsome : r.discovered.size ≠ 0 := by
    rw [← BranchIndex.length_ids, ne_eq, List.length_eq_zero_iff, ← coveragePercent_eq_none_iff,
      hpercent]
    exact Option.some_ne_none percent
  unfold coveragePercent at hpercent
  split at hpercent
  · cases hpercent
  · cases hpercent
    exact Decimal.isFinite_percent (hcovered.trans_lt hsize) hsome hsize

/-- A percentage that is there has a number in the JSON value. -/
theorem Consistent.double_percent (h : r.Consistent) (hsize : r.discovered.size < 2 ^ 64) :
    Json.optional .double r.coveragePercent = .null ↔ r.discovered.ids = [] := by
  rw [← coveragePercent_eq_none_iff]
  cases hpercent : r.coveragePercent with
  | none => exact ⟨fun _ => rfl, fun _ => rfl⟩
  | some percent =>
    have hnumber : Json.double percent = .number (Decimal.documentLayout.text percent) :=
      if_pos (h.isFinite_percent hsize hpercent)
    unfold Json.optional
    dsimp only
    rw [hnumber]
    exact ⟨nofun, nofun⟩

/-! ## Agreement -/

/-- What the formats say of a report, whose lists of IDs are given. The XML document is read back, and the JSON
value and the text are written out. -/
structure Agreement (r : Report) (files helpers uncovered : List BranchId) : Prop where
  /-- The numbers of the summary are those of the IDs. -/
  counts : r.summary.totalBranches = r.discovered.entries.keys.length
    ∧ r.summary.coveredBranches = files.length + helpers.length
    ∧ r.summary.fileBranchesCovered = files.length ∧ r.summary.helperBranchesCovered = helpers.length
  totals : r.summary.fileBranchesTotal = r.discovered.entries.values.countP (·.kind = .template)
    ∧ r.summary.helperBranchesTotal = r.discovered.entries.values.countP (·.kind = .helper)
  /-- The one element of the coverage has the numbers of the summary. -/
  xml : ∀ options,
    (Xml.elements (r.toCobertura options) "coverage").map (Xml.attribute? · "branches-valid")
        = [some (toString r.summary.totalBranches)]
      ∧ (Xml.elements (r.toCobertura options) "coverage").map (Xml.attribute? · "branches-covered")
        = [some (toString r.summary.coveredBranches)]
  /-- They are summed over the classes, of which there is one for each file with branches. -/
  classes : r.tally.branchesValid = (r.classes.map (·.2.branchesValid)).sum
    ∧ r.tally.branchesCovered = (r.classes.map (·.2.branchesCovered)).sum
    ∧ ∀ options, (Xml.elements (r.toCobertura options) "class").length
      = (r.discovered.entries.values.map (·.file)).toFinset.card
  /-- The JSON value has the numbers and the lists. If nothing was discovered, it has no percentage. A
  percentage that is there is finite, as sizes are words of 64 bits. -/
  json : ∀ timestamp, ∃ percentage,
    r.document timestamp = .object
        [("version", .string toolVersion), ("chart", .string r.chart), ("timestamp", .string timestamp),
         ("summary", .object
           [("total_branches", .number (toString r.summary.totalBranches)),
            ("covered_branches", .number (toString r.summary.coveredBranches)),
            ("coverage_percent", percentage),
            ("file_branches_covered", .number (toString files.length)),
            ("helper_branches_covered", .number (toString helpers.length))]),
         ("covered", .object
           [("files", .array (files.map .string)), ("helpers", .array (helpers.map .string))])]
      ∧ (r.discovered.entries.size < 2 ^ 64 → (percentage = .null ↔ r.discovered.entries.keys = []))
  increasing : files.Pairwise (· < ·) ∧ helpers.Pairwise (· < ·)
  disjoint : files.Disjoint helpers
  /-- The covered IDs are those of the two lists, -/
  covered : ∀ id, id ∈ r.covered ↔ id ∈ files ∨ id ∈ helpers
  /-- each in the list of the kind of its file. -/
  kinds : (∀ id ∈ files, ∃ b ∈ r.discovered.entries.values, b.id = id ∧ b.kind = .template)
    ∧ ∀ id ∈ helpers, ∃ b ∈ r.discovered.entries.values, b.id = id ∧ b.kind = .helper
  /-- The text report has the same numbers and the same lists, and the third one on request. Its percentage
  is part of one line. -/
  text : r.discovered.entries.keys ≠ [] → ∃ percentage, '\n' ∉ percentage.toList
    ∧ ∀ options : TextOptions, r.toText options
      = listingText r.chart r.summary percentage files helpers
        ++ (if options.uncovered then listedUncovered uncovered else "")
        ++ if options.runs then listedRuns r.runs else ""
  /-- The three lists name each discovered ID once. -/
  partition : (files ++ helpers ++ uncovered).Perm r.discovered.entries.keys ∧ r.discovered.entries.keys.Nodup
  /-- If nothing was discovered, the text report has no lists, -/
  noLists : ∀ options, r.toText options = "Chart: " ++ r.chart ++ "\nNo branches found\n"
    ↔ r.discovered.entries.keys = []
  /-- the XML document counts no branches, -/
  noBranches : ∀ options,
    (Xml.elements (r.toCobertura options) "coverage").map (Xml.attribute? · "branches-valid")
        = [some "0"]
      ↔ r.discovered.entries.keys = []
  /-- and there is no percentage. -/
  noPercentage : r.summary.coveragePercent = none ↔ r.discovered.entries.keys = []

/-- **The three formats agree.** However a report was built, its numbers are the same in the XML
document, the JSON value, the text and the summary, and the covered IDs are listed in the same order.
Each of the formats tells whether there was anything to cover. -/
theorem formats_agree (h : r.Reachable) :
    r.Agreement (r.coveredOfKind .template) (r.coveredOfKind .helper) (r.uncovered.map (·.id)) := by
  have hr := h.consistent
  obtain ⟨hvalid, hcovered⟩ := hr.tally_branches
  -- the counts in the document are those of the tally, which are those of the summary
  have hxml (options : CoberturaOptions) :
      (Xml.elements (r.toCobertura options) "coverage").map (Xml.attribute? · "branches-valid")
          = [some (toString r.summary.totalBranches)]
        ∧ (Xml.elements (r.toCobertura options) "coverage").map (Xml.attribute? · "branches-covered")
          = [some (toString r.summary.coveredBranches)] := by
    rw [← hvalid, ← hcovered]
    exact ⟨map_attribute_coverage r options rfl (Xml.plain_toString _),
      map_attribute_coverage r options rfl (Xml.plain_toString _)⟩
  exact
    { counts := ⟨(BranchIndex.length_ids _).symm, hr.coveredOfKind_length.symm, rfl, rfl⟩
      totals := ⟨rfl, rfl⟩
      xml := hxml
      classes := ⟨(tally_eq_sum r).1, (tally_eq_sum r).2, fun options => by
        rw [elements_class, List.length_map, length_classes]
        rfl⟩
      json := fun _ => ⟨_, rfl, hr.double_percent⟩
      increasing := ⟨pairwise_coveredOfKind r _, pairwise_coveredOfKind r _⟩
      disjoint := hr.disjoint_coveredOfKind
      covered := fun id => by
        rw [← List.mem_append, hr.coveredOfKind_perm.mem_iff, Std.ExtTreeSet.mem_toList]
      kinds := ⟨fun _ => hr.exists_of_mem_coveredOfKind, fun _ => hr.exists_of_mem_coveredOfKind⟩
      text := toText_of_nonempty
      partition := ⟨hr.perm_ids, r.discovered.nodup_ids⟩
      noLists := toText_eq_iff r
      noBranches := fun options => by
        rw [(hxml options).1, ← List.length_eq_zero_iff, Std.ExtTreeMap.length_keys]
        -- a document whose count is zero is one of a report without branches
        refine ⟨fun h => ?_, fun h => ?_⟩
        · exact toString_nat_inj (Option.some.inj (List.cons.inj h).1)
        · show [some (toString r.discovered.entries.size)] = _
          rw [h]
          rfl
      noPercentage := coveragePercent_eq_none_iff }

/-- Two reports in one, with an ID that was not discovered and one whose kind has changed. The text lists each
of the three branches once. -/
theorem formats_agree_overlappingReports :
    overlappingReports.Reachable
      ∧ overlappingReports.Agreement ["templates/b.yaml:L7"] ["templates/a.yaml:L3"] ["templates/c.yaml:L2"]
      ∧ overlappingReports.discovered.ids ≠ []
      ∧ overlappingReports.discovered.size < 2 ^ 64
      ∧ ∃ percentage, '\n' ∉ percentage.toList
        ∧ overlappingReports.toText { uncovered := true, runs := true }
          = "Chart: demo\n" ++ "Total branches:    3\n" ++ "Covered branches:  2\n"
            ++ "  file branches:   1/2\n" ++ "  helper branches: 1/1\n" ++ "Coverage: " ++ percentage ++ "\n"
            ++ "\nCovered file branches:\n" ++ "  templates/b.yaml:L7\n"
            ++ "\nCovered helper branches:\n" ++ "  templates/a.yaml:L3\n"
            ++ "\nUncovered branches (1):\n" ++ "  templates/c.yaml:L2\n"
            ++ "\nRuns:\n" ++ "  one.yaml: 1 covered\n" ++ "  two.yaml: 1 covered\n" := by
  have h : overlappingReports.Reachable :=
    ((Reachable.new _ _).addRun _).merge ((Reachable.new _ _).addRun _)
  have hfiles : overlappingReports.coveredOfKind .template = ["templates/b.yaml:L7"] := by decide +kernel
  have hhelpers : overlappingReports.coveredOfKind .helper = ["templates/a.yaml:L3"] := by decide +kernel
  have huncovered : overlappingReports.uncovered.map (·.id) = ["templates/c.yaml:L2"] := by decide +kernel
  have hids : overlappingReports.discovered.ids ≠ [] := by decide
  -- the general statement, with the lists of this report put in
  have hagree := formats_agree h
  rw [hfiles, hhelpers, huncovered] at hagree
  obtain ⟨percentage, hline, htext⟩ := hagree.text hids
  refine ⟨h, hagree, hids, by decide, percentage, hline, ?_⟩
  have hcounts : countsText overlappingReports.chart overlappingReports.summary ["templates/b.yaml:L7"]
      ["templates/a.yaml:L3"]
      = "Chart: demo\n" ++ "Total branches:    3\n" ++ "Covered branches:  2\n"
        ++ "  file branches:   1/2\n" ++ "  helper branches: 1/1\n" ++ "Coverage: " := by decide +kernel
  have hlistedFiles : listed "Covered file branches:" ["templates/b.yaml:L7"]
      = "\nCovered file branches:\n" ++ "  templates/b.yaml:L7\n" := by decide
  have hlistedHelpers : listed "Covered helper branches:" ["templates/a.yaml:L3"]
      = "\nCovered helper branches:\n" ++ "  templates/a.yaml:L3\n" := by decide
  have hlisted : listedUncovered ["templates/c.yaml:L2"]
      = "\nUncovered branches (1):\n" ++ "  templates/c.yaml:L2\n" := by decide
  have hruns : listedRuns overlappingReports.runs
      = "\nRuns:\n" ++ "  one.yaml: 1 covered\n" ++ "  two.yaml: 1 covered\n" := by decide +kernel
  -- the text is that of the statement, and its pieces are evaluated one by one
  rw [htext { uncovered := true, runs := true }, if_pos rfl, if_pos rfl]
  unfold listingText
  rw [hcounts, hlistedFiles, hlistedHelpers, hlisted, hruns]
  simp only [String.append_assoc]

end Report

end TemplateCoverage
