import Mathlib
import TemplateCoverage.Proofs.Scan.Occurrence

/-!
# Spans of arms

The arms of a file may lie inside one another or apart, but no two of them overlap in part. This does not
depend on well-nested input: blocks may stay open, bodies may be replaced or never end, and tokens may
close what was never opened.

* **`openLines`**: the first lines of what is open, from the innermost one on. The open body stands
  between its own blocks and the others.
* **`line_close`, `openLines_step`**: all that is needed of a step. A closing token closes the innermost
  of the open lines, and a token opens its own line at most.
* **`start_run`**: so an arm begins on a line that was open, or on one that was read later.
* **`starts_run`**: the induction over the tokens. Behind an arm, nothing is open that begins inside it.
* **`laminar_scan`**: so the spans of any two arms of a scan are laminar.
-/

namespace TemplateCoverage

/-- The lines that an arm spans. -/
def Arm.span (a : Arm) : Set Nat :=
  Set.Icc a.startLine a.endLine

/-- One of the arms holds the other, or they have no line in common. -/
def Arm.Laminar (a b : Arm) : Prop :=
  Disjoint a.span b.span ∨ a.span ⊆ b.span ∨ b.span ⊆ a.span

theorem Arm.Laminar.refl (a : Arm) : a.Laminar a :=
  .inr (.inl (subset_refl _))

theorem Arm.Laminar.symm {a b : Arm} (h : a.Laminar b) : b.Laminar a := by
  rcases h with hdisjoint | hsubset | hsubset
  · exact .inl hdisjoint.symm
  · exact .inr (.inr hsubset)
  · exact .inr (.inl hsubset)

instance : Std.Symm Arm.Laminar :=
  ⟨fun _ _ => Arm.Laminar.symm⟩

/-- Intervals are laminar if their bounds say so. -/
theorem Arm.Laminar.of_bounds {a b : Arm}
    (h : a.endLine < b.startLine ∨ b.endLine < a.startLine
      ∨ b.startLine ≤ a.startLine ∧ a.endLine ≤ b.endLine
      ∨ a.startLine ≤ b.startLine ∧ b.endLine ≤ a.endLine) : a.Laminar b := by
  rcases h with hlt | hlt | ⟨hstart, hlast⟩ | ⟨hstart, hlast⟩
  · refine .inl (Set.disjoint_left.mpr fun n ha hb => ?_)
    exact absurd (Nat.le_trans (Set.mem_Icc.mp hb).1 (Set.mem_Icc.mp ha).2) (Nat.not_le_of_lt hlt)
  · refine .inl (Set.disjoint_left.mpr fun n ha hb => ?_)
    exact absurd (Nat.le_trans (Set.mem_Icc.mp ha).1 (Set.mem_Icc.mp hb).2) (Nat.not_le_of_lt hlt)
  · exact .inr (.inl (Set.Icc_subset_Icc hstart hlast))
  · exact .inr (.inr (Set.Icc_subset_Icc hstart hlast))

/-- An arm ends on the line before its token, unless it is the line of its token alone. -/
theorem Arm.Spanned.cases {a : Arm} (h : a.Spanned) :
    a.startLine < a.tokenLine ∧ a.endLine = a.tokenLine - 1
      ∨ a.startLine = a.tokenLine ∧ a.endLine = a.tokenLine := by
  have hstart := h.start
  have hlast := h.last
  unfold Nesting.lastLine at hlast
  split at hlast <;> omega

/-- No arm is empty. -/
theorem Arm.Spanned.nonempty_span {a : Arm} (h : a.Spanned) : a.span.Nonempty := by
  refine Set.nonempty_Icc.mpr ?_
  rcases h.cases with hmore | hone <;> omega

/-- An arm that is closed later does not overlap in part with an earlier one, unless it begins strictly
between the first line of that one and its token. -/
theorem Arm.Spanned.laminar {a b : Arm} (ha : a.Spanned) (hb : b.Spanned)
    (hle : a.tokenLine ≤ b.tokenLine) (h : b.startLine ≤ a.startLine ∨ a.tokenLine ≤ b.startLine) :
    a.Laminar b := by
  apply Laminar.of_bounds
  rcases ha.cases with hamore | haone <;> rcases hb.cases with hbmore | hbone <;> omega

namespace Nesting

/-! ## What is open -/

/-- The first lines of what is open, from the innermost one on: the blocks of the open body, the body,
and the other blocks. -/
def openLines (s : Nesting) : List Nat :=
  ((s.frames.take (s.frames.length - s.floor)).map (·.line) ++ (s.define.map (·.line)).toList)
    ++ (s.frames.drop (s.frames.length - s.floor)).map (·.line)

/-- The open body was opened above blocks that are still there. -/
def Floored (s : Nesting) : Prop :=
  s.floor ≤ s.frames.length

variable {s : Nesting} {n : Nat}

/-- Outside of bodies all open frames count. -/
theorem openLines_of_none (h : s.define = none) : s.openLines = s.frames.map (·.line) := by
  have hfloor : s.floor = 0 := by simp [floor, h]
  simp [openLines, hfloor, h]

/-- Where the body has no block of its own, it is the innermost one. -/
theorem openLines_at_floor {d : OpenDefine} (h : s.define = some d)
    (hfloor : s.frames.length ≤ s.floor) : s.openLines = d.line :: s.frames.map (·.line) := by
  simp [openLines, h, Nat.sub_eq_zero_of_le hfloor]

/-- The frames are open in their order, whatever body stands between them. -/
theorem frames_sublist_openLines (s : Nesting) :
    (s.frames.map (·.line)).Sublist s.openLines := by
  have hframes : s.frames.map (·.line)
      = (s.frames.take (s.frames.length - s.floor)).map (·.line)
        ++ (s.frames.drop (s.frames.length - s.floor)).map (·.line) := by
    rw [← List.map_append, List.take_append_drop]
  rw [hframes]
  exact (List.sublist_append_left _ _).append (.refl _)

/-- A frame above the floor is the innermost of what is open. -/
theorem openLines_above {frame : Frame} {outer : List Frame} (hframes : s.frames = frame :: outer)
    (hfloor : s.floor < s.frames.length) :
    s.openLines = frame.line :: ({ s with frames := outer } : Nesting).openLines := by
  have hsame : ({ s with frames := outer } : Nesting).floor = s.floor := rfl
  have hlength : s.frames.length - s.floor = outer.length - s.floor + 1 := by
    rw [hframes, List.length_cons] at hfloor ⊢
    omega
  unfold openLines
  rw [hsame, hlength, hframes, List.take_succ_cons, List.drop_succ_cons]
  rfl

/-! ## Steps -/

/-- A closing token closes the innermost of what is open, or its own line if nothing is. -/
theorem line_close (s : Nesting) (n : Nat) : (s.close n).1.line = s.openLines.headD n := by
  have hstand : s.frames.length ≤ s.floor →
      (close.standIn s n).line = s.openLines.headD n := by
    intro hfloor
    unfold close.standIn
    cases hd : s.define with
    | some d =>
      rw [openLines_at_floor hd hfloor]
      rfl
    | none =>
      -- without a body the floor is the ground, so that no frame is left
      have hzero : s.floor = 0 := by simp [floor, hd]
      have hnil : s.frames = [] := List.eq_nil_of_length_eq_zero (by omega)
      rw [openLines_of_none hd, hnil]
      rfl
  unfold Nesting.close
  split
  · next frame outer hframes =>
    split
    · next hfloor =>
      rw [openLines_above hframes hfloor]
      rfl
    · next hfloor => exact hstand (Nat.le_of_not_lt hfloor)
  · next hframes =>
    refine hstand ?_
    rw [hframes]
    exact Nat.zero_le _

/-- Closing an arm opens nothing, and the floor stays covered. -/
theorem Floored.close (h : s.Floored) (n : Nat) :
    (s.close n).2.openLines.Sublist s.openLines ∧ (s.close n).2.Floored
      ∧ (s.close n).2.frames.Sublist s.frames := by
  unfold Nesting.close
  split
  · next frame outer hframes =>
    split
    · -- a frame above the floor is taken away
      next hfloor =>
      refine ⟨?_, ?_, ?_⟩
      · rw [openLines_above hframes hfloor]
        exact List.sublist_cons_self _ _
      · rw [hframes, List.length_cons] at hfloor
        exact Nat.le_of_lt_succ hfloor
      · rw [hframes]
        exact List.sublist_cons_self _ _
    · -- the frames of the body around it stay, and one stands in for the missing one
      exact ⟨.refl _, h, .refl _⟩
  · exact ⟨.refl _, h, .refl _⟩

/-- A frame that is put on top is the innermost of what is open. -/
theorem openLines_push (h : s.Floored) (frame : Frame) :
    ({ s with frames := frame :: s.frames } : Nesting).openLines = frame.line :: s.openLines :=
  openLines_above rfl (Nat.lt_succ_of_le h)

/-- **What a step does to the open lines.** The token may open its own line, and lines that were open
before may be gone. -/
theorem openLines_step (file : String) (t : Token) (h : s.Floored) :
    (s.step file t).1.openLines.Sublist (t.line :: s.openLines) ∧ (s.step file t).1.Floored := by
  cases t.role with
  | evaluated ht =>
    rw [step_evaluated ht]
    exact ⟨List.sublist_cons_self _ _, h⟩
  | opener ht word hkind =>
    rw [step_opener ht hkind]
    exact ⟨by rw [openLines_push h], Nat.le_succ_of_le h⟩
  | define ht name hkind =>
    -- the new body is the innermost one, and the one that it replaces is forgotten
    rw [step_define ht hkind]
    refine ⟨?_, Nat.le_refl _⟩
    rw [openLines_at_floor rfl (Nat.le_refl s.frames.length)]
    exact s.frames_sublist_openLines.cons_cons _
  | next ht hkind =>
    rw [step_next ht hkind]
    obtain ⟨hlines, hfloored, -⟩ := h.close t.line
    refine ⟨?_, Nat.le_succ_of_le hfloored⟩
    rw [openLines_push (s := s.closed t) hfloored]
    exact hlines.cons_cons _
  | finish ht hkind =>
    rw [step_finish ht hkind]
    obtain ⟨hlines, hfloored, hframes⟩ := h.close t.line
    split
    · refine ⟨?_, Nat.zero_le _⟩
      rw [openLines_of_none rfl]
      exact ((hframes.map _).trans s.frames_sublist_openLines).cons _
    · exact ⟨hlines.cons _, hfloored⟩

/-! ## Runs -/

/-- An arm begins on a line that was open, or on one that was read since. Induction on the stream. -/
theorem start_run (file : String) {tokens : List Token} (h : s.Floored)
    (hlines : ∀ t ∈ tokens, n ≤ t.line) :
    ∀ a ∈ Finding.arms (s.run file tokens).2, a.startLine ∈ s.openLines ∨ n ≤ a.startLine := by
  induction tokens generalizing s with
  | nil => exact fun a ha => (nomatch ha)
  | cons t ts ih =>
    obtain ⟨ht, hts⟩ := List.forall_mem_cons.mp hlines
    obtain ⟨hopen, hfloored⟩ := openLines_step file t h
    intro a ha
    -- induction on the tokens: an arm starts where a frame was open at the beginning, or later
    rcases mem_arms_run_cons.mp ha with ⟨-, rfl⟩ | hlater
    · show (s.close t.line).1.line ∈ s.openLines ∨ n ≤ (s.close t.line).1.line
      rw [line_close]
      cases s.openLines with
      | nil => exact .inr ht
      | cons m ms => exact .inl (List.mem_cons_self ..)
    · rcases ih hfloored hts a hlater with hmem | hle
      · rcases List.mem_cons.mp (hopen.subset hmem) with heq | hmem
        · exact .inr (heq ▸ ht)
        · exact .inl hmem
      · exact .inr hle

/-- The innermost of lines that stand in order is the last one. -/
theorem le_headD {lines : List Nat} (h : lines.Pairwise (· ≥ ·)) {m : Nat} (hm : m ∈ lines) :
    m ≤ lines.headD n := by
  cases lines with
  | nil => cases hm
  | cons k ks =>
    rcases List.mem_cons.mp hm with rfl | hm
    · exact Nat.le_refl _
    · exact List.rel_of_pairwise_cons h hm

/-- **No arm of a run begins inside an earlier one**, between its first line and its token. Induction on
the stream, for every state in which outer things begin no later than inner ones: when an arm is closed,
all that is open begins no later than the arm, and what is opened afterwards begins at its token or
later. -/
theorem starts_run (file : String) {tokens : List Token} (h : s.Floored)
    (hopen : s.openLines.Pairwise (· ≥ ·)) (hs : ∀ t ∈ tokens, ∀ m ∈ s.openLines, m ≤ t.line)
    (hsorted : tokens.Pairwise (·.line ≤ ·.line)) :
    (Finding.arms (s.run file tokens).2).Pairwise fun a b =>
      b.startLine ≤ a.startLine ∨ a.tokenLine ≤ b.startLine := by
  induction tokens generalizing s with
  | nil => exact .nil
  | cons t ts ih =>
    obtain ⟨hle, hsorted⟩ := List.pairwise_cons.mp hsorted
    obtain ⟨hstep, hfloored⟩ := openLines_step file t h
    have hbounds : ∀ m ∈ s.openLines, m ≤ t.line := hs t (List.mem_cons_self ..)
    have hopen' := (List.pairwise_cons.mpr ⟨hbounds, hopen⟩).sublist hstep
    -- the invariant: open lines do not grow downwards, and none is below a token that is still to come
    have hs' : ∀ u ∈ ts, ∀ m ∈ (s.step file t).1.openLines, m ≤ u.line := by
      intro u hu m hm
      rcases List.mem_cons.mp (hstep.subset hm) with rfl | hm
      · exact hle u hu
      · exact Nat.le_trans (hbounds m hm) (hle u hu)
    rw [arms_run_cons]
    split
    · refine List.pairwise_cons.mpr ⟨fun b hb => ?_, ih hfloored hopen' hs' hsorted⟩
      show b.startLine ≤ (s.close t.line).1.line ∨ t.line ≤ b.startLine
      -- a later arm starts in a frame that is open now, or not before this token
      rcases start_run file hfloored hle b hb with hmem | hlater
      · rcases List.mem_cons.mp (hstep.subset hmem) with heq | hmem
        · exact .inr (Nat.le_of_eq heq.symm)
        · rw [line_close]
          exact .inl (le_headD hopen hmem)
      · exact .inr hlater
    · exact ih hfloored hopen' hs' hsorted

end Nesting

/-- **Spans never overlap in part.** Whatever the source text, no arm of its scan is empty, and of any two
arms one holds the other, or they have no line in common. -/
theorem laminar_scan (evaluators : List String) (file source : String) :
    (∀ a ∈ Finding.arms (scan evaluators file source), a.span.Nonempty)
      ∧ ∀ a ∈ Finding.arms (scan evaluators file source),
        ∀ b ∈ Finding.arms (scan evaluators file source), a.Laminar b := by
  obtain ⟨hplaces, hspanned⟩ := place_scan evaluators file source
  have hstarts : (Finding.arms (scan evaluators file source)).Pairwise fun a b =>
      b.startLine ≤ a.startLine ∨ a.tokenLine ≤ b.startLine := by
    unfold scan
    rw [arms_scanTokens]
    exact Nesting.starts_run file (Nat.le_refl 0) .nil (fun t _ m hm => nomatch hm)
      (sorted_tokensOf evaluators source.toList)
  have hlaminar : (Finding.arms (scan evaluators file source)).Pairwise Arm.Laminar := by
    -- of two arms the earlier one ends first, so only their starts matter
    refine List.Pairwise.imp_of_mem ?_ ((List.pairwise_map.mp hplaces).and hstarts)
    rintro a b ha hb ⟨hplace, hstart⟩
    refine (hspanned a ha).laminar (hspanned b hb) ?_ hstart
    rcases hplace with hlt | ⟨heq, -⟩
    · exact Nat.le_of_lt hlt
    · exact Nat.le_of_eq heq
  refine ⟨fun a ha => (hspanned a ha).nonempty_span, fun a ha b hb => ?_⟩
  exact hlaminar.forall_of_forall (fun a _ => .refl a) ha hb

end TemplateCoverage
