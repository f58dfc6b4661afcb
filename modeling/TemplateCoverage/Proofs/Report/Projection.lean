import Mathlib
import TemplateCoverage.Proofs.Branch.Index
import TemplateCoverage.Proofs.Report.Line
import TemplateCoverage.Proofs.Report.Name

/-!
# The document of a report

The Cobertura document has a class for each file, and the class has a row for each line. This module
says which rows these are, and that the document consists of them and of their numbers.

* **`flatMap_filter_perm`**: grouping loses nothing and repeats nothing. The branches are grouped twice:
  those of a report by their files, those of a file by the lines of their decisions.
* **`Shows`**: the rows of a file against its branches. The rows of any branches are like this
  (`shows_rows`).
* **`tally_eq`**: the numbers of a report are those of all rows and branches.
* **`Projects`**: the document against the rows of all files, read back by the reader of XML. The document of
  every report is like this (`cobertura_projects`).
-/

namespace TemplateCoverage

/-- What is grouped by a key is all there, each once, if the keys are distinct and none is missing. -/
theorem flatMap_filter_perm {α β : Type} [DecidableEq β] (f : α → β) {keys : List β}
    (hkeys : keys.Nodup) {l : List α} (h : ∀ a ∈ l, f a ∈ keys) :
    (keys.flatMap fun k => l.filter fun a => f a = k).Perm l := by
  induction keys generalizing l with
  | nil =>
    cases l with
    | nil => exact .nil
    | cons a l => cases h a List.mem_cons_self
  | cons k keys ih =>
    obtain ⟨hk, hkeys⟩ := List.nodup_cons.mp hkeys
    have hrest : ∀ a ∈ l.filter (fun a => !decide (f a = k)), f a ∈ keys := by
      intro a ha
      obtain ⟨hmem, hne⟩ := List.mem_filter.mp ha
      exact (List.mem_cons.mp (h a hmem)).resolve_left (by simpa using hne)
    -- the groups of the other keys are those of what has another key
    have hgroups : (keys.flatMap fun k' => l.filter fun a => f a = k')
        = keys.flatMap fun k' => (l.filter fun a => !decide (f a = k)).filter fun a => f a = k' := by
      apply List.flatMap_congr
      intro k' hk'
      rw [List.filter_filter]
      apply List.filter_congr
      intro a _
      by_cases ha : f a = k'
      · subst ha
        simp [ne_of_mem_of_not_mem hk' hk]
      · simp [ha]
    rw [List.flatMap_cons, hgroups]
    exact ((ih hkeys hrest).append_left _).trans (List.filter_append_perm _ l)

/-! ## The files of an index -/

namespace BranchIndex

variable {index : BranchIndex} {file : String}

theorem mem_files : file ∈ index.files ↔ ∃ b ∈ index.branches, b.file = file := by
  unfold files
  rw [Std.ExtTreeMap.mem_keys, Std.ExtTreeMap.mem_ofList, List.map_map, List.contains_iff_mem,
    List.mem_map]
  rfl

/-- Files come in order, each of them once. -/
theorem files_increasing (index : BranchIndex) : index.files.Pairwise (· < ·) :=
  Std.ExtTreeMap.ordered_keys.imp compare_lt_iff_lt.mp

/-- Each branch stands in one file. -/
theorem flatMap_inFile_perm (index : BranchIndex) :
    (index.files.flatMap index.inFile).Perm index.branches :=
  flatMap_filter_perm Branch.file (index.files_increasing.imp ne_of_lt)
    fun b hb => mem_files.mpr ⟨b, hb, rfl⟩

end BranchIndex

/-! ## The rows of a file -/

namespace Report

/-- The arms of the decision on a line, the covered ones and all: none if there is no decision. -/
def LineCoverage.arms (l : LineCoverage) : Nat × Nat :=
  l.decision.getD (0, 0)

/-- What the rows of a file show of its branches. -/
structure Shows (r : Report) (bs : List Branch) (rows : List (Nat × LineCoverage)) : Prop where
  /-- The rows stand in the order of their lines, and no line has two. -/
  increasing : (rows.map Prod.fst).Pairwise (· < ·)
  numbers : ∀ n, n ∈ rows.map Prod.fst ↔ ∃ b ∈ bs, b.Touches n
  hit : ∀ n l, (n, l) ∈ rows →
    (l.hit = true ↔ ∃ b ∈ bs, b.id ∈ r.covered ∧ b.Touches n)
  branch : ∀ n l, (n, l) ∈ rows → (l.decision.isSome ↔ ∃ b ∈ bs, b.decisionLine = n)
  condition : ∀ n l covered total, (n, l) ∈ rows → l.decision = some (covered, total) →
    total = (bs.countP fun b => b.decisionLine = n)
      ∧ covered = bs.countP fun b => r.covered.contains b.id && b.decisionLine = n
  /-- Each branch is counted on one line. -/
  total : (rows.map fun row => row.2.arms.2).sum = bs.length
  covered : (rows.map fun row => row.2.arms.1).sum = bs.countP fun b => r.covered.contains b.id

/-- The rows of a file with the given branches. -/
def rows (r : Report) (bs : List Branch) : List (Nat × LineCoverage) :=
  (ClassCoverage.ofBranches r bs).lines.toList

variable {r : Report} {bs : List Branch}

/-- The numbers of the rows are the lines of the class. -/
theorem map_fst_rows (r : Report) (bs : List Branch) :
    (r.rows bs).map Prod.fst = (ClassCoverage.ofBranches r bs).lines.keys :=
  Std.ExtTreeMap.map_fst_toList_eq_keys

/-- A row has the coverage that is read off the branches. -/
theorem eq_lineOf_of_mem_rows {n : Nat} {l : LineCoverage} (h : (n, l) ∈ r.rows bs) :
    l = r.lineOf bs n := by
  rw [← ClassCoverage.line_ofBranches]
  unfold ClassCoverage.line
  rw [Std.ExtTreeMap.mem_toList_iff_getElem?_eq_some.mp h, Option.getD_some]

/-- Without a decision there are no arms, so the arms of a row can be counted in any case. -/
theorem arms_of_mem_rows {n : Nat} {l : LineCoverage} (h : (n, l) ∈ r.rows bs) :
    l.arms = r.armsOf bs n := by
  rw [eq_lineOf_of_mem_rows h]
  show (if _ then some (r.armsOf bs n) else none).getD (0, 0) = _
  split
  · rfl
  · next hnone =>
    symm
    show (_, _) = (0, 0)
    rw [Prod.mk.injEq, List.countP_eq_zero, List.countP_eq_zero]
    exact ⟨fun b hb hline => hnone ⟨b, hb, by simpa using (Bool.and_eq_true_iff.mp hline).2⟩,
      fun b hb hline => hnone ⟨b, hb, of_decide_eq_true hline⟩⟩

/-- Over the rows, each branch is counted once, on the line of its decision. -/
theorem sum_countP_rows (r : Report) (bs : List Branch) (p : Branch → Bool) :
    ((r.rows bs).map fun row => bs.countP fun b => p b && b.decisionLine = row.1).sum
      = bs.countP p := by
  have hperm : ((ClassCoverage.ofBranches r bs).lines.keys.flatMap fun n =>
      bs.filter fun b => b.decisionLine = n).Perm bs := by
    refine flatMap_filter_perm (fun b : Branch => b.decisionLine) Std.ExtTreeMap.nodup_keys
      fun b hb => ?_
    rw [Std.ExtTreeMap.mem_keys, ClassCoverage.mem_lines_ofBranches]
    exact ⟨b, hb, .inr rfl⟩
  rw [← hperm.countP_eq p, List.countP_flatMap, ← map_fst_rows, List.map_map]
  refine congrArg List.sum (List.map_congr_left fun row _ => ?_)
  exact List.countP_filter.symm

/-- The rows of a file show what its branches were: which lines they span or are decided on, and what was
covered. -/
theorem shows_rows (r : Report) (bs : List Branch) : r.Shows bs (r.rows bs) where
  increasing := by
    rw [map_fst_rows]
    exact Std.ExtTreeMap.ordered_keys.imp compare_lt_iff_lt.mp
  numbers n := by
    rw [map_fst_rows, Std.ExtTreeMap.mem_keys]
    exact ClassCoverage.mem_lines_ofBranches
  hit n l h := by
    rw [eq_lineOf_of_mem_rows h]
    exact decide_eq_true_iff
  branch n l h := by
    rw [eq_lineOf_of_mem_rows h]
    show (if _ then _ else _ : Option _).isSome ↔ _
    simp
  condition n l covered total h hd := by
    -- a condition shows the arms of its line
    have harms := arms_of_mem_rows h
    unfold LineCoverage.arms at harms
    rw [hd] at harms
    exact ⟨congrArg Prod.snd harms, congrArg Prod.fst harms⟩
  total := by
    have hrows : (r.rows bs).map (·.2.arms.2)
        = (r.rows bs).map fun row => bs.countP fun b => true && b.decisionLine = row.1 :=
      List.map_congr_left fun _ h => congrArg Prod.snd (arms_of_mem_rows h)
    -- each branch has one decision line, so it is counted in one row
    rw [hrows, sum_countP_rows r bs fun _ => true, List.countP_true]
  covered := by
    have hrows : (r.rows bs).map (·.2.arms.1)
        = (r.rows bs).map fun row => bs.countP fun b => r.covered.contains b.id && b.decisionLine = row.1 :=
      List.map_congr_left fun _ h => congrArg Prod.fst (arms_of_mem_rows h)
    rw [hrows, sum_countP_rows]

/-- A covered arm inside one that was not covered. -/
example :
    let arm (token first last : Nat) : Branch := .ofArm "templates/a.yaml" .template
      { trigger := .endBlock, define := none, tokenLine := token, column := 0, occurrence := 1
        startLine := first, endLine := last, decisionLine := first, trimLeft := false }
    let inner := arm 4 3 3
    let outer := arm 5 2 4
    let r := (Report.new "demo" (.extend .empty [inner, outer])).addRun
      { label := "one.yaml", covered := .ofList [inner.id] }
    r.rows [inner, outer]
      = [(2, { decision := some (0, 1) }), (3, { hit := true, decision := some (1, 1) }), (4, {})] := by
  decide +kernel

/-! ## The numbers -/

/-- The numbers of the given rows, which show the given branches. -/
def tallyOf (r : Report) (bs : List Branch) (rows : List (Nat × LineCoverage)) : Tally :=
  ⟨rows.countP (·.2.hit), rows.length, bs.countP fun b => r.covered.contains b.id, bs.length⟩

/-- The tally of several files is the sum of theirs. -/
theorem tallyOf_append (r : Report) (bs cs : List Branch) (xs ys : List (Nat × LineCoverage)) :
    r.tallyOf (bs ++ cs) (xs ++ ys) = (r.tallyOf bs xs).add (r.tallyOf cs ys) := by
  unfold tallyOf Tally.add
  simp only [List.countP_append, List.length_append]

theorem tally_ofBranches (r : Report) (bs : List Branch) :
    (ClassCoverage.ofBranches r bs).tally = r.tallyOf bs (r.rows bs) := by
  have hvalues : (ClassCoverage.ofBranches r bs).linesCovered = (r.rows bs).countP (·.2.hit) := by
    unfold ClassCoverage.linesCovered
    rw [BranchIndex.values_eq_map_snd, List.countP_map]
    rfl
  unfold ClassCoverage.tally tallyOf
  rw [hvalues, ClassCoverage.branchesCovered_ofBranches, ClassCoverage.branchesValid_ofBranches]
  exact congrArg (Tally.mk _ · _ _) Std.ExtTreeMap.length_toList.symm

/-- The rows of a file of the report. -/
def fileRows (r : Report) (file : String) : List (Nat × LineCoverage) :=
  r.rows (r.discovered.inFile file)

theorem classes_eq (r : Report) :
    r.classes = r.discovered.files.map fun file =>
      (file, ClassCoverage.ofBranches r (r.discovered.inFile file)) :=
  List.map_map

/-- The numbers of the files are added up one after the other. -/
theorem foldl_add_tallyOf (r : Report) (files : List String) (bs : List Branch)
    (xs : List (Nat × LineCoverage)) :
    files.foldl (fun t file => t.add (r.tallyOf (r.discovered.inFile file) (r.fileRows file)))
        (r.tallyOf bs xs)
      = r.tallyOf (bs ++ files.flatMap r.discovered.inFile) (xs ++ files.flatMap r.fileRows) := by
  induction files generalizing bs xs with
  | nil => rw [List.flatMap_nil, List.flatMap_nil, List.append_nil, List.append_nil, List.foldl_nil]
  | cons file files ih =>
    rw [List.foldl_cons, ← tallyOf_append, ih, List.flatMap_cons, List.flatMap_cons,
      List.append_assoc, List.append_assoc]

/-- The numbers of a report are those of all its rows and branches. -/
theorem tally_eq (r : Report) :
    r.tally = r.tallyOf r.discovered.branches (r.discovered.files.flatMap r.fileRows) := by
  have hfiles := foldl_add_tallyOf r r.discovered.files [] []
  have hperm := r.discovered.flatMap_inFile_perm
  unfold tally
  rw [classes_eq, List.foldl_map]
  simp only [tally_ofBranches]
  refine hfiles.trans ?_
  -- the order of the branches does not matter for their number
  unfold tallyOf
  rw [List.nil_append, List.nil_append, hperm.countP_eq, hperm.length_eq]

/-- Nothing is covered that is not there. -/
def Tally.Sound (t : Tally) : Prop :=
  t.linesCovered ≤ t.linesValid ∧ t.branchesCovered ≤ t.branchesValid

/-- No tally has more that is covered than there is. -/
theorem sound_tallyOf (r : Report) (bs : List Branch) (xs : List (Nat × LineCoverage)) :
    (r.tallyOf bs xs).Sound :=
  ⟨List.countP_le_length, List.countP_le_length⟩

/-! ## The document -/

/-- The lines among the given tags, each with its attributes as they are read. -/
def readLines (tags : List String) : List (List (String × String)) :=
  (tags.filter (Xml.tagName · = "line")).map Xml.readAttributes

/-- What the document of a report says, by the rows of its files. The document is read back: nothing is
taken from the functions that print it. -/
structure Projects (r : Report) (rows : String → List (Nat × LineCoverage)) : Prop where
  /-- The classes stand in the order of their paths, and no file has two. -/
  increasing : r.discovered.files.Pairwise (· < ·)
  files : ∀ file, file ∈ r.discovered.files ↔ ∃ b ∈ r.discovered.entries.values, b.file = file
  shows : ∀ file, r.Shows (r.discovered.entries.values.filter (·.file = file)) (rows file)
  /-- There is one element for each file, with the numbers of its rows, and the rows are the lines in it. -/
  classes : ∀ options,
    (Xml.contents "class" (Xml.tags (r.toCobertura options))).map
        (fun c => (Xml.readAttributes c.1, readLines c.2))
      = r.discovered.files.map fun file =>
          (classAttributes file (r.tallyOf (r.discovered.entries.values.filter (·.file = file)) (rows file)),
            (rows file).map fun row => lineAttributes row.1 row.2)
  /-- There are no other lines in the document. -/
  lines : ∀ options, readLines (Xml.tags (r.toCobertura options))
    = (r.discovered.files.flatMap rows).map fun row => lineAttributes row.1 row.2
  /-- The numbers of the document are those of all rows. -/
  numbers : ∀ options,
    (Xml.elements (r.toCobertura options) "coverage").map Xml.readAttributes
      = [coverageAttributes options
          (r.tallyOf r.discovered.entries.values (r.discovered.files.flatMap rows))]
  sound : (r.tallyOf r.discovered.entries.values (r.discovered.files.flatMap rows)).Sound
    ∧ ∀ file, (r.tallyOf (r.discovered.entries.values.filter (·.file = file)) (rows file)).Sound

/-- The lines of the given rows are read as they were written. -/
theorem map_readAttributes_lineTag (rows : List (Nat × LineCoverage)) :
    (rows.map fun row => lineTag row.1 row.2).map Xml.readAttributes
      = rows.map fun row => lineAttributes row.1 row.2 := by
  rw [List.map_map]
  refine List.map_congr_left fun row _ => ?_
  exact Xml.readAttributes_tag_append (by decide) (isName_lineAttributes row.1 row.2) (by decide)

/-- The rows are read from the tags inside of their class. -/
theorem readLines_tagsInside (c : ClassCoverage) :
    readLines (tagsInside c) = c.lines.toList.map fun row => lineAttributes row.1 row.2 := by
  unfold readLines
  rw [filter_tagsInside, map_readAttributes_lineTag]

/-- **The projection onto lines is exact.** Whatever a report has discovered and covered, its document
has one class for each file with branches, in order, and each class has one row for each line on which
one of its branches shows, in order, with what there is to say of the line. -/
theorem cobertura_projects (r : Report) : ∃ rows, r.Projects rows := by
  refine ⟨r.fileRows, ?_⟩
  exact
    { increasing := r.discovered.files_increasing
      files := fun _ => BranchIndex.mem_files
      shows := fun file => shows_rows r _
      classes := fun options => by
        -- the document is read back tag by tag, and each tag says what the rows of its file say
        have hread : ∀ file t, Xml.readAttributes (Xml.tag "class" (classAttributes file t))
            = classAttributes file t :=
          fun file t => Xml.readAttributes_tag (by decide) (isName_classAttributes file t)
        rw [contents_class, classes_eq, List.map_map, List.map_map]
        refine List.map_congr_left fun file _ => ?_
        show (Xml.readAttributes (Xml.tag "class" _), readLines (tagsInside _)) = _
        rw [hread, readLines_tagsInside, tally_ofBranches]
        rfl
      lines := fun options => by
        have hlines := congrArg (List.map Xml.readAttributes) (elements_line r options)
        refine hlines.trans ?_
        rw [classes_eq, List.flatMap_map, ← List.map_flatMap, map_readAttributes_lineTag]
        rfl
      numbers := fun options => by
        rw [map_readAttributes_coverage, tally_eq]
        rfl
      sound := ⟨sound_tallyOf r _ _, fun _ => sound_tallyOf r _ _⟩ }

end Report

end TemplateCoverage
