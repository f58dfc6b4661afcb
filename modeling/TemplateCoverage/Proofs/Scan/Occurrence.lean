import TemplateCoverage.Proofs.Scan.Step
import TemplateCoverage.Proofs.Token.Position

/-!
# Where arms stand

An arm is found by the line of its closing token and its place among the arms of that line. The machine
counts these places itself, and its count starts anew on each line. As the lines of tokens never go
back, no two arms of a scan have the same place.

* **`place_step`**: what one token does to the count.
* **`UpTo.step`**: everything that the machine remembers lies on the lines that were read.
* **`place_run`**: by induction, the places of the arms of a run increase, from the count that it
  starts with.
* **`nodup_place_scan`, `spanned_scan`**: so the places of the arms of a scan are distinct, and every
  arm spans the lines from its first one up to its token.
-/

namespace TemplateCoverage

theorem Precedes.trans {p q r : Nat × Nat} (hpq : Precedes p q) (hqr : Precedes q r) :
    Precedes p r := by
  unfold Precedes at *
  omega

/-- What precedes something else is not at the same place. -/
theorem Precedes.ne {p q : Nat × Nat} (h : Precedes p q) : p ≠ q := by
  rintro rfl
  unfold Precedes at h
  omega

/-- The line of the closing token, and the place of the arm on it. -/
def Arm.place (a : Arm) : Nat × Nat :=
  (a.tokenLine, a.occurrence)

/-- The arm begins no later than at its token, and ends on the line before the token, or with it if it
began there. Places on a line are counted from one. -/
structure Arm.Spanned (a : Arm) : Prop where
  start : a.startLine ≤ a.tokenLine
  last : a.endLine = Nesting.lastLine a.startLine a.tokenLine
  occurrence : 1 ≤ a.occurrence

namespace Nesting

/-! ## The count of a line -/

/-- The place of the last arm. -/
def place (s : Nesting) : Nat × Nat :=
  (s.countedLine, s.counted)

/-- Occurrences are counted from one. -/
theorem one_le_nextOccurrence (s : Nesting) (line : Nat) : 1 ≤ s.nextOccurrence line := by
  unfold nextOccurrence
  split <;> omega

/-- On the line of the last arm or a later one, the next arm comes behind it. -/
theorem precedes_nextOccurrence {s : Nesting} {line : Nat} (h : s.countedLine ≤ line) :
    Precedes s.place (line, s.nextOccurrence line) := by
  by_cases heq : s.countedLine = line
  · refine .inr ⟨heq, ?_⟩
    show s.counted < s.nextOccurrence line
    unfold nextOccurrence
    rw [if_pos heq]
    exact Nat.lt_succ_self _
  · exact .inl (Nat.lt_of_le_of_ne h heq)

/-- A token that yields an arm is counted, and no other one. -/
theorem place_step (file : String) (s : Nesting) (t : Token) :
    (s.step file t).1.place = if t.yields then (t.line, s.nextOccurrence t.line) else s.place := by
  cases t.role with
  | evaluated ht =>
    rw [step_evaluated ht]
    simp [Token.yields, ht]
  | opener ht word hkind =>
    rw [step_opener ht hkind]
    simp [Token.yields, TokenKind.closesArm, hkind, place]
  | define ht name hkind =>
    rw [step_define ht hkind]
    simp [Token.yields, TokenKind.closesArm, hkind, place]
  | next ht hkind =>
    rw [step_next ht hkind]
    simp [Token.yields_of_else ht hkind, place, closed]
  | finish ht hkind =>
    rw [step_finish ht hkind]
    -- whether the `end` leaves a body does not matter to the count
    split <;> simp [Token.yields_of_end ht hkind, place, closed]

/-! ## The lines that the machine remembers -/

/-- Everything that the machine remembers lies on the lines up to the given one. -/
structure UpTo (s : Nesting) (line : Nat) : Prop where
  frames : ∀ f ∈ s.frames, f.line ≤ line
  define : ∀ d ∈ s.define, d.line ≤ line
  counted : s.countedLine ≤ line

/-- At the beginning of a file, nothing is remembered. -/
theorem upTo_start (line : Nat) : UpTo {} line :=
  ⟨fun _ hf => (nomatch hf), fun _ hd => (nomatch hd), Nat.zero_le line⟩

theorem UpTo.mono {s : Nesting} {line line' : Nat} (h : s.UpTo line) (hle : line ≤ line') :
    s.UpTo line' :=
  ⟨fun f hf => Nat.le_trans (h.frames f hf) hle, fun d hd => Nat.le_trans (h.define d hd) hle,
    Nat.le_trans h.counted hle⟩

/-- What a closing token closes was opened up to its line, and nothing new is remembered. -/
theorem UpTo.close {s : Nesting} {line : Nat} (h : s.UpTo line) :
    (s.close line).1.line ≤ line ∧ (s.close line).2.UpTo line := by
  -- without a frame there is one in its stead, on the line of the body or on that of the token
  have hstand : (close.standIn s line).line ≤ line := by
    unfold close.standIn
    cases hd : s.define with
    | none => exact Nat.le_refl line
    | some d => exact h.define d hd
  unfold Nesting.close
  split
  · next frame outer hframes =>
    have hall : ∀ f ∈ frame :: outer, f.line ≤ line := fun f hf => h.frames f (hframes ▸ hf)
    split
    · exact ⟨hall frame (List.mem_cons_self ..),
        fun f hf => hall f (List.mem_cons_of_mem _ hf), h.define, h.counted⟩
    · exact ⟨hstand, h⟩
  · exact ⟨hstand, h⟩

theorem UpTo.closed {s : Nesting} {t : Token} (h : s.UpTo t.line) : (s.closed t).UpTo t.line :=
  ⟨h.close.2.frames, h.close.2.define, Nat.le_refl _⟩

/-- A step brings no line that is below its token. -/
theorem UpTo.step (file : String) {s : Nesting} {t : Token} (h : s.UpTo t.line) :
    (s.step file t).1.UpTo t.line := by
  cases t.role with
  | evaluated ht =>
    rw [step_evaluated ht]
    exact h
  | opener ht word hkind =>
    rw [step_opener ht hkind]
    exact ⟨List.forall_mem_cons.mpr ⟨Nat.le_refl _, h.frames⟩, h.define, h.counted⟩
  | define ht name hkind =>
    rw [step_define ht hkind]
    exact ⟨h.frames, fun d hd => by cases hd; exact Nat.le_refl _, h.counted⟩
  | next ht hkind =>
    -- the next arm begins on the line of the token
    rw [step_next ht hkind]
    exact ⟨List.forall_mem_cons.mpr ⟨Nat.le_refl _, h.closed.frames⟩, h.closed.define,
      h.closed.counted⟩
  | finish ht hkind =>
    rw [step_finish ht hkind]
    split
    · exact ⟨h.closed.frames, fun d hd => (nomatch hd), h.closed.counted⟩
    · exact h.closed

theorem UpTo.spanned_armOf {s : Nesting} {t : Token} (h : s.UpTo t.line) :
    (s.armOf t (s.close t.line).1).Spanned :=
  ⟨h.close.1, rfl, s.one_le_nextOccurrence t.line⟩

/-! ## Runs -/

/-- **The places of the arms of a run increase**, from the place of the last arm before it. Induction
on the stream, for every state whose lines come no later than those of the stream. -/
theorem place_run (file : String) {s : Nesting} {tokens : List Token}
    (hs : ∀ t ∈ tokens, s.UpTo t.line) (hsorted : tokens.Pairwise (·.line ≤ ·.line)) :
    (s.place :: (Finding.arms (s.run file tokens).2).map Arm.place).Pairwise Precedes
      ∧ ∀ a ∈ Finding.arms (s.run file tokens).2, a.Spanned := by
  induction tokens generalizing s with
  | nil => exact ⟨List.pairwise_singleton _ _, fun a ha => by cases ha⟩
  | cons t ts ih =>
    obtain ⟨hle, hsorted⟩ := List.pairwise_cons.mp hsorted
    have hst : s.UpTo t.line := hs t (List.mem_cons_self ..)
    obtain ⟨hplaces, hspanned⟩ :=
      ih (fun u hu => (hst.step file).mono (hle u hu)) hsorted
    rw [arms_run_cons]
    rw [place_step] at hplaces
    cases hy : t.yields with
    | false =>
      rw [hy, if_neg Bool.false_ne_true] at hplaces
      exact ⟨hplaces, hspanned⟩
    | true =>
      rw [hy, if_pos rfl] at hplaces
      rw [if_pos rfl, List.singleton_append]
      -- the arm of the token stands where the rest of the run begins to count
      have hfirst := precedes_nextOccurrence hst.counted
      refine ⟨List.pairwise_cons.mpr ⟨?_, hplaces⟩,
        List.forall_mem_cons.mpr ⟨hst.spanned_armOf, hspanned⟩⟩
      refine List.forall_mem_cons.mpr ⟨hfirst, fun p hp => ?_⟩
      exact hfirst.trans (List.rel_of_pairwise_cons hplaces hp)

end Nesting

/-! ## Scans -/

/-- Tokens come in the order of their lines. -/
theorem sorted_tokensOf (evaluators : List String) (source : List Char) :
    (tokensOf evaluators source).Pairwise (·.line ≤ ·.line) := by
  refine (pairwise_tokensOf evaluators source).imp fun {t u} h => ?_
  rcases h with hlt | ⟨heq, -⟩
  · exact Nat.le_of_lt hlt
  · exact Nat.le_of_eq heq

theorem place_scan (evaluators : List String) (file source : String) :
    ((Finding.arms (scan evaluators file source)).map Arm.place).Pairwise Precedes
      ∧ ∀ a ∈ Finding.arms (scan evaluators file source), a.Spanned := by
  obtain ⟨hplaces, hspanned⟩ := Nesting.place_run file
    (fun t _ => Nesting.upTo_start t.line) (sorted_tokensOf evaluators source.toList)
  unfold scan
  rw [arms_scanTokens]
  exact ⟨(List.pairwise_cons.mp hplaces).2, hspanned⟩

/-- No two arms of a scan have the same place. -/
theorem nodup_place_scan (evaluators : List String) (file source : String) :
    ((Finding.arms (scan evaluators file source)).map Arm.place).Nodup :=
  (place_scan evaluators file source).1.imp Precedes.ne

/-- Every arm of a scan spans the lines from its first one up to its token. -/
theorem spanned_scan {evaluators : List String} {file source : String} {a : Arm}
    (ha : a ∈ Finding.arms (scan evaluators file source)) : a.Spanned :=
  (place_scan evaluators file source).2 a ha

end TemplateCoverage
