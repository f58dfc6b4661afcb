import TemplateCoverage.Proofs.Branch.Chart
import TemplateCoverage.Proofs.Report.Projection
import TemplateCoverage.Proofs.Scan.Anchor
import TemplateCoverage.Proofs.Scan.Laminar

/-!
# The lines of a file in a report

A file has a row for each line that one of its branches spans, and for each line of a decision. The
second kind adds nothing where all arms of the file got their branches: on the line of a decision, an
arm begins. It adds a line where the arms that begin there were left out, as their IDs had been handed
out before.

* **`span_subset_of_anchors`**: an arm that begins on the line of a decision spans it.
* **`orphanLines`**: the lines of decisions whose arms that begin there were all left out.
* **`setOf_rows_eq`**: the lines that the branches span and those make up the rows.
* **`rows_anchored`**: for every scan and every allocator, which lines have rows, and how many they are.
* **`rows_orphan_longColonHelper`**: two helpers with an ID in common, and a row that no branch spans.
-/

namespace TemplateCoverage

open Report

/-- The lines that some arm of the branches spans. -/
def spannedLines (bs : List Branch) : Set Nat :=
  ⋃ b ∈ bs, b.toArm.span

theorem mem_spannedLines {bs : List Branch} {n : Nat} :
    n ∈ spannedLines bs ↔ ∃ b ∈ bs, b.Spans n := by
  unfold spannedLines
  rw [Set.mem_iUnion₂]
  exact ⟨fun ⟨b, hb, hn⟩ => ⟨b, hb, hn⟩, fun ⟨b, hb, hn⟩ => ⟨b, hb, hn⟩⟩

/-- If every arm has its branch, the branches span what the arms span. -/
theorem spannedLines_map_ofArm (file : String) (kind : FileKind) (arms : List Arm) :
    spannedLines (arms.map (Branch.ofArm file kind)) = ⋃ e ∈ arms, e.span := by
  ext n
  rw [mem_spannedLines, Set.mem_iUnion₂]
  constructor
  · rintro ⟨b, hb, hn⟩
    obtain ⟨e, he, rfl⟩ := List.mem_map.mp hb
    exact ⟨e, he, hn⟩
  · rintro ⟨e, he, hn⟩
    exact ⟨_, List.mem_map_of_mem he, hn⟩

/-- An arm that begins on the line of its decision spans this line. -/
theorem Arm.Anchors.mem_span {e : Arm} {n : Nat} (h : e.Anchors n) (he : e.Spanned) :
    n ∈ e.span := by
  obtain ⟨rfl, -⟩ := h
  exact Set.left_mem_Icc.mpr (Set.nonempty_Icc.mp he.nonempty_span)

section

variable (a : Allocator) (evaluators : List String) (file : String) (kind : FileKind)
  (source : String)

/-- The lines of decisions of a scanned file whose arms that begin there were all left out, since their
IDs had been handed out before. -/
def orphanLines : Set Nat :=
  {n | (∃ b ∈ scannedBranches a evaluators file kind source, b.decisionLine = n)
    ∧ ∀ e ∈ Finding.arms (scan evaluators file source), e.Anchors n →
      Branch.pointId file kind e ∈ a.issued}

/-- A line of a decision is spanned by a branch, or all arms that begin there were left out. -/
theorem decisionLine_mem {b : Branch} (hb : b ∈ scannedBranches a evaluators file kind source) :
    b.decisionLine ∈ spannedLines (scannedBranches a evaluators file kind source)
      ∪ orphanLines a evaluators file kind source := by
  by_cases hall : ∀ e ∈ Finding.arms (scan evaluators file source), e.Anchors b.decisionLine →
      Branch.pointId file kind e ∈ a.issued
  · exact .inr ⟨⟨b, hb, rfl⟩, hall⟩
  · -- an arm with a new ID has its branch
    push Not at hall
    obtain ⟨e, he, hanchor, hnew⟩ := hall
    have hbranch : Branch.ofArm file kind e ∈ scannedBranches a evaluators file kind source :=
      (Allocator.ofArm_mem_allocate (Branch.nodup_pointId_scan evaluators file kind source) he).mpr
        hnew
    exact .inl (mem_spannedLines.mpr ⟨_, hbranch, hanchor.mem_span (spanned_scan he)⟩)

/-- Where no ID had been handed out before, the lines of decisions are those of arms that have their
branches. -/
theorem orphanLines_of_fresh
    (hfresh : ∀ e ∈ Finding.arms (scan evaluators file source), Branch.pointId file kind e ∉ a.issued) :
    orphanLines a evaluators file kind source = ∅ := by
  refine Set.eq_empty_of_forall_notMem fun n hn => ?_
  obtain ⟨⟨b, hb, rfl⟩, hissued⟩ := hn
  obtain ⟨e, he, hanchor⟩ := exists_anchors_of_mem (mem_arms_of_mem_scannedBranches hb)
  exact hfresh e he (hissued e he hanchor)

end

namespace Report

/-- The rows of a file are on the lines on which its branches show. -/
theorem mem_fst_fileRows {r : Report} {file : String} {n : Nat} :
    n ∈ (r.fileRows file).map Prod.fst ↔ ∃ b ∈ r.discovered.inFile file, b.Touches n :=
  (shows_rows r (r.discovered.inFile file)).numbers n

/-- The number of lines of a file is that of its rows. -/
theorem linesValid_eq_ncard (r : Report) (file : String) :
    (ClassCoverage.ofBranches r (r.discovered.inFile file)).linesValid
      = {n | n ∈ (r.fileRows file).map Prod.fst}.ncard := by
  have hnodup : ((r.fileRows file).map Prod.fst).Nodup :=
    (shows_rows r (r.discovered.inFile file)).increasing.imp ne_of_lt
  have hlength : (ClassCoverage.ofBranches r (r.discovered.inFile file)).linesValid
      = (r.fileRows file).length :=
    Std.ExtTreeMap.length_toList.symm
  rw [hlength, ← List.coe_toFinset, Set.ncard_coe_finset, List.toFinset_card_of_nodup hnodup,
    List.length_map]

variable {a : Allocator} {evaluators : List String} {file : String} {kind : FileKind}
  {source : String} {r : Report}

/-- The rows of a file are the lines that its branches span, and the decision lines whose anchor is not among
the branches. -/
theorem setOf_rows_eq
    (hfile : ∀ b, b ∈ r.discovered.inFile file ↔ b ∈ scannedBranches a evaluators file kind source) :
    {n | n ∈ (r.fileRows file).map Prod.fst}
      = spannedLines (scannedBranches a evaluators file kind source)
        ∪ orphanLines a evaluators file kind source := by
  ext n
  refine mem_fst_fileRows.trans ?_
  simp only [hfile]
  constructor
  · -- a row is there for a line that is spanned or for a decision
    rintro ⟨b, hb, hspans | rfl⟩
    · exact .inl (mem_spannedLines.mpr ⟨b, hb, hspans⟩)
    · exact decisionLine_mem a evaluators file kind source hb
  · rintro (hspanned | ⟨⟨b, hb, hline⟩, -⟩)
    · obtain ⟨b, hb, hspans⟩ := mem_spannedLines.mp hspanned
      exact ⟨b, hb, .inl hspans⟩
    · exact ⟨b, hb, .inr hline⟩

/-- **Decisions are anchored, and rows are spanned.** The decision of each arm of a text is on the line
on which an arm begins that is found no later. So where the branches of a file are those that an
allocator gave its arms, the rows of the file are on the lines that the branches span, and on lines of
decisions whose arms that begin there were all left out. If the allocator had handed out no ID of the
arms, then no arm is left out, and the rows are on the lines that the arms span. -/
theorem rows_anchored (a : Allocator) (evaluators : List String) (file : String) (kind : FileKind)
    (source : String) (r : Report)
    (hfile : ∀ b, b ∈ r.discovered.inFile file ↔ b ∈ scannedBranches a evaluators file kind source) :
    let arms := Finding.arms (scan evaluators file source)
    let branches := scannedBranches a evaluators file kind source
    let rows := {n | n ∈ (r.fileRows file).map Prod.fst}
    (∀ front d back, arms = front ++ d :: back → ∃ e ∈ front ++ [d], e.Anchors d.decisionLine)
      ∧ rows = spannedLines branches ∪ orphanLines a evaluators file kind source
      ∧ (ClassCoverage.ofBranches r (r.discovered.inFile file)).linesValid = rows.ncard
      ∧ ((∀ e ∈ arms, Branch.pointId file kind e ∉ a.issued) →
        branches = arms.map (Branch.ofArm file kind) ∧ rows = ⋃ e ∈ arms, e.span) := by
  intro arms branches rows
  refine ⟨fun front d back harms => anchors_scan harms, setOf_rows_eq hfile,
    r.linesValid_eq_ncard file, fun hfresh => ?_⟩
  -- if no ID of the file was issued before, no branch is dropped, so no anchor is missing
  have hall : branches = arms.map (Branch.ofArm file kind) := by
    refine Allocator.allocate_of_fresh (Branch.nodup_pointId_scan evaluators file kind source)
      fun id hid => ?_
    obtain ⟨e, he, rfl⟩ := List.mem_map.mp hid
    exact hfresh e he
  refine ⟨hall, ?_⟩
  rw [← spannedLines_map_ofArm file kind arms, ← hall]
  refine (setOf_rows_eq hfile).trans ?_
  rw [orphanLines_of_fresh a evaluators file kind source hfresh, Set.union_empty]

/-- A file that begins with an `else` that no block belongs to. -/
def strayElse : SourceFile :=
  ⟨⟨"templates/cm.yaml", "templates/cm.yaml", .template⟩,
    "a: 1\n\x7b\x7b else \x7d\x7d\nb: 2\n\x7b\x7b end \x7d\x7d\n"
      ++ "\x7b\x7b if .c \x7d\x7d\nc: 3\n\x7b\x7b end \x7d\x7d\n"⟩

/-- With a new allocator, the rows of the file are on the lines of its arms. -/
theorem rows_anchored_strayElse :
    let r := Report.new "app" (indexFiles [] [strayElse])
    (r.fileRows strayElse.relative).map Prod.fst = [2, 3, 5, 6]
      ∧ {n | n ∈ (r.fileRows strayElse.relative).map Prod.fst} = ⋃ e ∈ strayElse.arms [], e.span := by
  have hfile : (Report.new "app" (indexFiles [] [strayElse])).discovered.inFile strayElse.relative
      = scannedBranches {} [] strayElse.relative strayElse.kind strayElse.source := by
    decide
  have hrows := rows_anchored {} [] strayElse.relative strayElse.kind strayElse.source
    (Report.new "app" (indexFiles [] [strayElse])) fun b => by rw [hfile]
  exact ⟨by decide, (hrows.2.2.2 fun e _ => Std.ExtTreeSet.not_mem_empty).2⟩

/-- A helper whose only body has an empty name and ends on the third line. -/
def longUnnamedHelper : SourceFile :=
  ⟨⟨"templates/_h.tpl", "templates/_h.tpl", .helper⟩,
    "\x7b\x7b define \"\" \x7d\x7d\nz\n\x7b\x7b end \x7d\x7d\n"⟩

/-- A helper that is called like it, but for a colon at the end. Its first arm ends on the third
line. -/
def longColonHelper : SourceFile :=
  ⟨⟨"templates/_h.tpl:", "templates/_h.tpl:", .helper⟩,
    "\x7b\x7b if .a \x7d\x7d\nx\n\x7b\x7b else \x7d\x7d\ny\n\x7b\x7b end \x7d\x7d\n"⟩

/-- **A decision may lose its anchor.** The first arms of both helpers have the same ID, so the second
helper has a branch for its second arm only. It has a row on the line of the decision, which its branch
does not span, and none on the other line of the first arm. -/
theorem rows_orphan_longColonHelper :
    let r := Report.new "app" (indexFiles [] [longUnnamedHelper, longColonHelper])
    longUnnamedHelper.kind = FileKind.ofPath longUnnamedHelper.relative
      ∧ longColonHelper.kind = FileKind.ofPath longColonHelper.relative
      ∧ (allocateFiles [] {} [longUnnamedHelper, longColonHelper]).map (·.map (·.id))
        = [["templates/_h.tpl::L3"], ["templates/_h.tpl::L5"]]
      ∧ (r.fileRows longColonHelper.relative).map Prod.fst = [1, 3, 4]
      ∧ (∀ b ∈ r.discovered.inFile longColonHelper.relative, ¬b.Spans 1)
      ∧ ∃ e ∈ longColonHelper.arms [], (Branch.ofArm longColonHelper.relative .helper e).Spans 2 := by
  decide

end Report

end TemplateCoverage
