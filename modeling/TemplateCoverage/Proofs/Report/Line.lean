import TemplateCoverage.Report.Cobertura
import Mathlib.Data.List.Induction
import Mathlib.Data.List.Nodup
import Std.Data.ExtTreeMap.Lemmas

/-!
# Lines read off branches

The coverage of a file is collected in two maps. The first pass goes over the branches and fills both:
the lines that the arms span, and the decisions. The second pass puts the decisions on their lines.
The arms of different branches overlap, and an arm may span no line at all.

* **`lineOf`**: what there is to say of one line, without any map.
* **`Collected`**: what the first pass has collected of the branches that it has seen. One more branch
  preserves it (`Collected.add`), so it holds of every list of branches (`collected_foldl`).
* **`mem_lines_ofBranches`**, **`line_ofBranches`**: after both passes, the lines are those on which a
  branch shows, and each of them has the coverage that is read off the branches.
-/

namespace TemplateCoverage

namespace Branch

/-- The arm of the branch spans the line. -/
def Spans (b : Branch) (n : Nat) : Prop :=
  b.startLine ≤ n ∧ n ≤ b.endLine

/-- The branch shows on the line: its arm spans the line, or its block was opened there. -/
def Touches (b : Branch) (n : Nat) : Prop :=
  b.Spans n ∨ b.decisionLine = n

instance (b : Branch) (n : Nat) : Decidable (b.Spans n) :=
  inferInstanceAs (Decidable (_ ∧ _))

instance (b : Branch) (n : Nat) : Decidable (b.Touches n) :=
  inferInstanceAs (Decidable (_ ∨ _))

theorem mem_lines {b : Branch} {n : Nat} : n ∈ b.lines ↔ b.Spans n := by
  unfold lines Spans
  rw [List.mem_range'_1]
  omega

end Branch

namespace Report

/-! ## One line -/

/-- How many arms of the blocks that were opened on a line were covered, and how many there are. -/
def armsOf (r : Report) (bs : List Branch) (n : Nat) : Nat × Nat :=
  (bs.countP fun b => r.isCovered b.id && b.decisionLine = n, bs.countP fun b => b.decisionLine = n)

/-- The coverage of a line, read off the branches. -/
def lineOf (r : Report) (bs : List Branch) (n : Nat) : LineCoverage where
  hit := decide (∃ b ∈ bs, r.isCovered b.id ∧ b.Touches n)
  decision := if ∃ b ∈ bs, b.decisionLine = n then some (r.armsOf bs n) else none

/-- One more branch counts for the line that it is decided on. -/
theorem armsOf_append (r : Report) (bs : List Branch) (b : Branch) (n : Nat) :
    r.armsOf (bs ++ [b]) n
      = if b.decisionLine = n then
          ((r.armsOf bs n).1 + (r.isCovered b.id).toNat, (r.armsOf bs n).2 + 1)
        else r.armsOf bs n := by
  unfold armsOf
  by_cases h : b.decisionLine = n
  · cases hc : r.isCovered b.id <;> simp [h, hc]
  · simp [h]

/-- Some arm of a decision was covered if the number of the covered ones is not zero. -/
theorem armsOf_pos {r : Report} {bs : List Branch} {n : Nat} :
    0 < (r.armsOf bs n).1 ↔ ∃ b ∈ bs, r.isCovered b.id ∧ b.decisionLine = n := by
  unfold armsOf
  simp [List.countP_pos_iff]

/-- What holds of one of the branches and one more. -/
theorem exists_mem_append_singleton {α : Type} {p : α → Prop} {l : List α} {a : α} :
    (∃ x ∈ l ++ [a], p x) ↔ (∃ x ∈ l, p x) ∨ p a := by
  simp [or_and_right, exists_or]

/-! ## Numbers as keys -/

section Insertion

variable {β : Type} {m : Std.ExtTreeMap Nat β} {k n : Nat}

theorem mem_insert_iff {v : β} : n ∈ m.insert k v ↔ n = k ∨ n ∈ m := by
  rw [Std.ExtTreeMap.mem_insert, Std.LawfulEqCmp.compare_eq_iff_eq]
  exact or_congr_left eq_comm

theorem getD_insert (m : Std.ExtTreeMap Nat β) (k n : Nat) (v default : β) :
    ((m.insert k v)[n]?).getD default = if k = n then v else (m[n]?).getD default := by
  rw [Std.ExtTreeMap.getElem?_insert]
  simp only [Std.LawfulEqCmp.compare_eq_iff_eq]
  split <;> rfl

end Insertion

namespace ClassCoverage

variable {r : Report} {bs : List Branch} {c : ClassCoverage} {n : Nat}

/-- The coverage of a line, which is not hit if nothing is known of it. -/
def line (c : ClassCoverage) (n : Nat) : LineCoverage :=
  (c.lines[n]?).getD {}

theorem mem_lines_update {m : Nat} {f : LineCoverage → LineCoverage} :
    n ∈ (c.update m f).lines ↔ n = m ∨ n ∈ c.lines :=
  mem_insert_iff

/-- An update of a row leaves all other rows alone. -/
theorem line_update (c : ClassCoverage) (m : Nat) (f : LineCoverage → LineCoverage) (n : Nat) :
    (c.update m f).line n = if m = n then f (c.line n) else c.line n := by
  unfold line update
  rw [getD_insert]
  split
  · next h => rw [h]
  · rfl

/-! ## The first pass -/

/-- The lines of an arm become known, and nothing else of the file changes. -/
theorem mem_lines_foldl_span {hit : Bool} {ns : List Nat} :
    n ∈ (ns.foldl (span hit) c).lines ↔ n ∈ ns ∨ n ∈ c.lines := by
  induction ns generalizing c with
  | nil => simp
  | cons m ns ih =>
    rw [List.foldl_cons, ih]
    unfold span
    rw [mem_lines_update, List.mem_cons, or_left_comm, or_assoc]

/-- A branch marks the lines that it spans, and only if it was covered. -/
theorem line_foldl_span (c : ClassCoverage) (hit : Bool) (ns : List Nat) (n : Nat) :
    (ns.foldl (span hit) c).line n
      = { c.line n with hit := (c.line n).hit || (hit && decide (n ∈ ns)) } := by
  induction ns generalizing c with
  | nil => simp
  | cons m ns ih =>
    rw [List.foldl_cons, ih]
    unfold span
    rw [line_update]
    by_cases hm : m = n
    · subst hm
      cases hit <;> simp
    · simp [hm, Ne.symm hm]

/-- A span leaves the numbers of branches alone. -/
theorem branches_foldl_span (c : ClassCoverage) (hit : Bool) (ns : List Nat) :
    (ns.foldl (span hit) c).branchesCovered = c.branchesCovered
      ∧ (ns.foldl (span hit) c).branchesValid = c.branchesValid := by
  induction ns generalizing c with
  | nil => exact ⟨rfl, rfl⟩
  | cons m ns ih => exact ih (span hit c m)

/-- The arms of a decision are counted as its branches are met. -/
theorem getD_meet (decisions : Decisions) (hit : Bool) (m n : Nat) :
    ((decisions.meet hit m)[n]?).getD (0, 0)
      = if m = n then
          (((decisions[n]?).getD (0, 0)).1 + hit.toNat, ((decisions[n]?).getD (0, 0)).2 + 1)
        else (decisions[n]?).getD (0, 0) := by
  unfold Decisions.meet
  rw [getD_insert]
  split
  · next h =>
    rw [h]
    cases hit <;> rfl
  · rfl

/-- What the first pass has collected of the branches. The lines have no decisions yet. -/
structure Collected (r : Report) (bs : List Branch) (p : ClassCoverage × Decisions) : Prop where
  mem_lines : ∀ n, n ∈ p.1.lines ↔ ∃ b ∈ bs, b.Spans n
  line : ∀ n, p.1.line n = { hit := decide (∃ b ∈ bs, r.isCovered b.id ∧ b.Spans n) }
  mem_decisions : ∀ n, n ∈ p.2 ↔ ∃ b ∈ bs, b.decisionLine = n
  decisions : ∀ n, (p.2[n]?).getD (0, 0) = r.armsOf bs n
  branchesCovered : p.1.branchesCovered = bs.countP fun b => r.isCovered b.id
  branchesValid : p.1.branchesValid = bs.length

/-- Nothing is collected of no branches. -/
theorem collected_nil (r : Report) : Collected r [] ({}, ∅) where
  mem_lines n := by simp
  line n := by simp [ClassCoverage.line]
  mem_decisions n := by simp
  decisions n := by simp [armsOf]
  branchesCovered := rfl
  branchesValid := rfl

/-- One more branch is one more arm on its lines and in its decision. -/
theorem Collected.add {p : ClassCoverage × Decisions} (h : Collected r bs p) (b : Branch) :
    Collected r (bs ++ [b]) (add r p b) where
  mem_lines n := by
    rw [exists_mem_append_singleton, ← h.mem_lines, ← Branch.mem_lines, or_comm]
    -- the lines grow by those that the branch spans, the decisions by the line that it is decided on
    exact mem_lines_foldl_span
  line n := by
    have hline := line_foldl_span p.1 (r.isCovered b.id) b.lines n
    rw [h.line] at hline
    refine hline.trans ?_
    simp only [exists_mem_append_singleton, Branch.mem_lines, Bool.decide_or, Bool.decide_and,
      Bool.decide_eq_true]
  mem_decisions n := by
    rw [exists_mem_append_singleton, ← h.mem_decisions, or_comm, eq_comm]
    exact mem_insert_iff
  decisions n := by
    rw [armsOf_append, ← h.decisions]
    exact getD_meet p.2 (r.isCovered b.id) b.decisionLine n
  branchesCovered := by
    have hspan := (branches_foldl_span p.1 (r.isCovered b.id) b.lines).1
    rw [h.branchesCovered] at hspan
    unfold ClassCoverage.add
    cases hc : r.isCovered b.id <;> simp_all
  branchesValid := by
    have hspan := (branches_foldl_span p.1 (r.isCovered b.id) b.lines).2
    rw [h.branchesValid] at hspan
    rw [List.length_append]
    exact congrArg (· + 1) hspan

/-- Induction on the branches from the last one, as the pass has seen all the others before it. -/
theorem collected_foldl (r : Report) (bs : List Branch) :
    Collected r bs (bs.foldl (add r) ({}, ∅)) := by
  induction bs using List.reverseRecOn with
  | nil => exact collected_nil r
  | append_singleton bs b ih =>
    rw [List.foldl_append]
    exact ih.add b

/-! ## The second pass -/

/-- Put decisions on their lines one by one. -/
def setDecisions (c : ClassCoverage) (ds : List (Nat × Nat × Nat)) : ClassCoverage :=
  ds.foldl (fun c d => c.setDecision d.1 d.2) c

theorem mem_lines_setDecisions {ds : List (Nat × Nat × Nat)} :
    n ∈ (c.setDecisions ds).lines ↔ n ∈ ds.map Prod.fst ∨ n ∈ c.lines := by
  induction ds generalizing c with
  | nil => simp [setDecisions]
  | cons d ds ih =>
    show n ∈ ((c.setDecision d.1 d.2).setDecisions ds).lines ↔ _
    rw [ih]
    unfold setDecision
    rw [mem_lines_update, List.map_cons, List.mem_cons, or_left_comm, or_assoc]

/-- Decisions on other lines leave a row alone. -/
theorem line_setDecisions_of_notMem {ds : List (Nat × Nat × Nat)} (h : n ∉ ds.map Prod.fst) :
    (c.setDecisions ds).line n = c.line n := by
  induction ds generalizing c with
  | nil => rfl
  | cons d ds ih =>
    rw [List.map_cons, List.mem_cons, not_or] at h
    show ((c.setDecision d.1 d.2).setDecisions ds).line n = _
    rw [ih h.2]
    unfold setDecision
    rw [line_update, if_neg (Ne.symm h.1)]

/-- No line has two decisions, so the later ones leave a line alone that has one. -/
theorem line_setDecisions_of_mem {ds : List (Nat × Nat × Nat)} {d : Nat × Nat}
    (hnodup : (ds.map Prod.fst).Nodup) (h : (n, d) ∈ ds) :
    (c.setDecisions ds).line n = { hit := (c.line n).hit || 0 < d.1, decision := some d } := by
  induction ds generalizing c with
  | nil => cases h
  | cons d' ds ih =>
    rw [List.map_cons, List.nodup_cons] at hnodup
    show ((c.setDecision d'.1 d'.2).setDecisions ds).line n = _
    -- each line has one decision, so no later one changes the row again
    rcases List.mem_cons.mp h with rfl | h
    · rw [line_setDecisions_of_notMem hnodup.1]
      unfold setDecision
      rw [line_update, if_pos rfl]
    · have hne : d'.1 ≠ n := fun heq =>
        hnodup.1 (heq ▸ List.mem_map_of_mem (f := Prod.fst) h)
      rw [ih hnodup.2 h]
      unfold setDecision
      rw [line_update, if_neg hne]

/-- Decisions leave the numbers of branches alone. -/
theorem branches_setDecisions (c : ClassCoverage) (ds : List (Nat × Nat × Nat)) :
    (c.setDecisions ds).branchesCovered = c.branchesCovered
      ∧ (c.setDecisions ds).branchesValid = c.branchesValid := by
  induction ds generalizing c with
  | nil => exact ⟨rfl, rfl⟩
  | cons d ds ih => exact ih (c.setDecision d.1 d.2)

/-! ## Both passes -/

theorem nodup_map_fst_toList (decisions : Decisions) : (decisions.toList.map Prod.fst).Nodup := by
  rw [Std.ExtTreeMap.map_fst_toList_eq_keys]
  exact Std.ExtTreeMap.nodup_keys

/-- The rows are collected first, and the decisions set in the end. -/
theorem ofBranches_eq (r : Report) (bs : List Branch) :
    ofBranches r bs
      = (bs.foldl (add r) ({}, ∅)).1.setDecisions (bs.foldl (add r) ({}, ∅)).2.toList :=
  Std.ExtTreeMap.foldl_eq_foldl_toList

/-- The lines of a file are those on which one of its branches shows. -/
theorem mem_lines_ofBranches : n ∈ (ofBranches r bs).lines ↔ ∃ b ∈ bs, b.Touches n := by
  have h := collected_foldl r bs
  rw [ofBranches_eq, mem_lines_setDecisions, h.mem_lines,
    Std.ExtTreeMap.map_fst_toList_eq_keys, Std.ExtTreeMap.mem_keys, h.mem_decisions]
  unfold Branch.Touches
  simp only [and_or_left, exists_or]
  exact or_comm

/-- The coverage of a line is the one that is read off the branches. -/
theorem line_ofBranches (r : Report) (bs : List Branch) (n : Nat) :
    (ofBranches r bs).line n = r.lineOf bs n := by
  have h := collected_foldl r bs
  have htouches : (∃ b ∈ bs, r.isCovered b.id ∧ b.Touches n)
      ↔ (∃ b ∈ bs, r.isCovered b.id ∧ b.Spans n)
        ∨ ∃ b ∈ bs, r.isCovered b.id ∧ b.decisionLine = n := by
    unfold Branch.Touches
    simp only [and_or_left, exists_or]
  rw [ofBranches_eq]
  unfold lineOf
  -- a line with a decision has the arms of that decision, any other line has none
  by_cases hn : ∃ b ∈ bs, b.decisionLine = n
  · obtain ⟨d, hd⟩ : ∃ d, (bs.foldl (add r) ({}, ∅)).2[n]? = some d := by
      rw [← Option.isSome_iff_exists, ← Std.ExtTreeMap.mem_iff_isSome_getElem?]
      exact (h.mem_decisions n).mpr hn
    have harms := h.decisions n
    rw [hd, Option.getD_some] at harms
    rw [line_setDecisions_of_mem (nodup_map_fst_toList _)
      (Std.ExtTreeMap.mem_toList_iff_getElem?_eq_some.mpr hd), h.line, harms, if_pos hn]
    simp only [htouches, ← armsOf_pos, Bool.decide_or]
  · have hmem : n ∉ (bs.foldl (add r) ({}, ∅)).2.toList.map Prod.fst := by
      rw [Std.ExtTreeMap.map_fst_toList_eq_keys, Std.ExtTreeMap.mem_keys, h.mem_decisions]
      exact hn
    have hnone : ¬ ∃ b ∈ bs, r.isCovered b.id ∧ b.decisionLine = n :=
      fun ⟨b, hb, _, hline⟩ => hn ⟨b, hb, hline⟩
    rw [line_setDecisions_of_notMem hmem, h.line, if_neg hn]
    simp only [htouches, hnone, or_false]

/-- So are those that were covered. -/
theorem branchesCovered_ofBranches (r : Report) (bs : List Branch) :
    (ofBranches r bs).branchesCovered = bs.countP fun b => r.isCovered b.id := by
  rw [ofBranches_eq, (branches_setDecisions _ _).1]
  exact (collected_foldl r bs).branchesCovered

/-- All branches of the file are counted. -/
theorem branchesValid_ofBranches (r : Report) (bs : List Branch) :
    (ofBranches r bs).branchesValid = bs.length := by
  rw [ofBranches_eq, (branches_setDecisions _ _).2]
  exact (collected_foldl r bs).branchesValid

end ClassCoverage

end Report

end TemplateCoverage
