import TemplateCoverage.Proofs.Branch.Located
import TemplateCoverage.Proofs.Scan.Occurrence
import TemplateCoverage.Proofs.Scan.WellNested

/-!
# Order, count and bounds of arms

What holds of the arms of every text, also of one whose blocks are never closed, or never opened.

* **`run_split`**: a token in a string that will be evaluated leaves its note and nothing else. The other
  findings of a run are those of the other tokens.
* **`occurrence_run`**: the arms that are closed on a line are counted, beginning with what the machine
  would count there next.
* **`Ordered.step`**: the block of a frame was opened no later than the arm of the frame began. Every
  token keeps this, wherever it stands.
* **`scan_orders_and_bounds`**: so the lines of every arm are in order, from the first line of the text
  to the last one.
-/

namespace TemplateCoverage

open Text

/-! ## Tokens in strings -/

/-- Whether the finding is the note of a token in a string that will be evaluated. -/
def Finding.isEvaluated : Finding → Bool
  | .arm _ => false
  | .note n => n.cause = .tokenInString

namespace Nesting

/-- Outside of strings, no token is noted as one in a string. -/
theorem not_isEvaluated_step (file : String) (s : Nesting) {t : Token} (ht : t.inString = false) :
    ∀ f ∈ (s.step file t).2, f.isEvaluated = false := by
  -- neither a note on a stray token nor an arm is about what is evaluated
  have hstray : ∀ f ∈ s.strayNotes file t, f.isEvaluated = false := by
    unfold strayNotes
    split
    · exact fun f hf => List.mem_singleton.mp hf ▸ rfl
    · exact fun f hf => (nomatch hf)
  have harm : ∀ a : Arm, ∀ f ∈ s.strayNotes file t ++ [.arm a], f.isEvaluated = false := by
    intro a f hf
    rcases List.mem_append.mp hf with hf | hf
    · exact hstray f hf
    · exact List.mem_singleton.mp hf ▸ rfl
  cases t.role with
  | evaluated hin =>
    rw [ht] at hin
    cases hin
  | opener _ word hkind =>
    rw [step_opener ht hkind]
    exact fun f hf => (nomatch hf)
  | define _ name hkind =>
    rw [step_define ht hkind]
    cases s.define with
    | none => exact fun f hf => (nomatch hf)
    | some d => exact fun f hf => List.mem_singleton.mp hf ▸ rfl
  | next _ hkind =>
    rw [step_next ht hkind]
    exact harm _
  | finish _ hkind =>
    rw [step_finish ht hkind]
    exact harm _

theorem evaluatedNotes_cons {file : String} {t : Token} {ts : List Token} (ht : t.inString = false) :
    evaluatedNotes file (t :: ts) = evaluatedNotes file ts := by
  unfold evaluatedNotes
  rw [List.filter_cons_of_neg (by simp [ht])]

/-- **Tokens in strings leave a note each and nothing else.** Without these notes, a run finds what it
finds without these tokens, and it ends in the same state. Induction on the stream. -/
theorem run_split (file : String) (s : Nesting) (ts : List Token) :
    (s.run file ts).2.filter Finding.isEvaluated = (evaluatedNotes file ts).map .note
      ∧ (s.run file ts).2.filter (!·.isEvaluated) = (s.run file (ts.filter (!·.inString))).2
      ∧ (s.run file ts).1 = (s.run file (ts.filter (!·.inString))).1 := by
  induction ts generalizing s with
  | nil => exact ⟨rfl, rfl, rfl⟩
  | cons t ts ih =>
    rw [run_cons, List.filter_append, List.filter_append]
    cases ht : t.inString with
    | true =>
      -- a token that is evaluated gives a note, and the state is as before
      obtain ⟨hnotes, hothers, hlast⟩ := ih s
      have hkept : (t :: ts).filter (!·.inString) = ts.filter (!·.inString) :=
        List.filter_cons_of_neg (by simp [ht])
      rw [step_evaluated ht, hkept, hnotes, hothers]
      refine ⟨?_, rfl, hlast⟩
      rw [evaluatedNotes, evaluatedNotes, List.filter_cons_of_pos ht]
      rfl
    | false =>
      -- any other token gives no such note, and is kept
      obtain ⟨hnotes, hothers, hlast⟩ := ih (s.step file t).1
      have hnone := s.not_isEvaluated_step file ht
      rw [List.filter_cons_of_pos (by simp [ht]), run_cons]
      refine ⟨?_, ?_, hlast⟩
      · rw [evaluatedNotes_cons ht, hnotes, List.filter_eq_nil_iff.mpr fun f hf => by simp [hnone f hf],
          List.nil_append]
      · rw [hothers, List.filter_eq_self.mpr fun f hf => by simp [hnone f hf]]

/-- What is left open at the end is not about what is evaluated. -/
theorem not_isEvaluated_unclosed (file : String) (s : Nesting) :
    ∀ f ∈ s.unclosed file, f.isEvaluated = false := by
  unfold unclosed
  intro f hf
  rcases List.mem_append.mp hf with hf | hf
  · obtain ⟨frame, -, rfl⟩ := List.mem_map.mp hf
    rfl
  · obtain ⟨d, -, rfl⟩ := Option.map_eq_some_iff.mp (Option.mem_toList.mp hf)
    rfl

/-! ## The count on a line -/

/-- A token that closes an arm is counted on its line. -/
theorem count_step_of_yields (file : String) (s : Nesting) {t : Token} (hy : t.yields = true) :
    (s.step file t).1.countedLine = t.line
      ∧ (s.step file t).1.counted = s.nextOccurrence t.line := by
  have hplace := place_step file s t
  rw [hy, if_pos rfl] at hplace
  exact Prod.mk.inj hplace

/-- A token that closes no arm is not counted. -/
theorem count_step_of_not_yields (file : String) (s : Nesting) {t : Token} (hy : t.yields = false) :
    (s.step file t).1.countedLine = s.countedLine ∧ (s.step file t).1.counted = s.counted := by
  have hplace := place_step file s t
  rw [hy, if_neg Bool.false_ne_true] at hplace
  exact Prod.mk.inj hplace

/-- The next place on a line is one further behind an arm of the line, and the first one behind an arm
of another line. -/
theorem nextOccurrence_step (file : String) (s : Nesting) (t : Token) (n : Nat) :
    (s.step file t).1.nextOccurrence n
      = if t.yields then if t.line = n then s.nextOccurrence n + 1 else 1
        else s.nextOccurrence n := by
  cases hy : t.yields with
  | false =>
    obtain ⟨hline, hcount⟩ := count_step_of_not_yields file s hy
    rw [if_neg Bool.false_ne_true, nextOccurrence, nextOccurrence, hline, hcount]
  | true =>
    obtain ⟨hline, hcount⟩ := count_step_of_yields file s hy
    rw [if_pos rfl, nextOccurrence, hline, hcount]
    split
    · next h => rw [h]
    · rfl

/-- The arms of a run are closed on lines of its tokens. -/
theorem le_tokenLine_run (file : String) (s : Nesting) {tokens : List Token} {n : Nat}
    (h : ∀ t ∈ tokens, n ≤ t.line) : ∀ a ∈ Finding.arms (s.run file tokens).2, n ≤ a.tokenLine := by
  intro a ha
  obtain ⟨t, ht, hclosed⟩ := exists_closedBy_of_mem (arms_run_closedBy file s tokens) ha
  rw [hclosed.tokenLine]
  exact h t (List.mem_filter.mp ht).1

/-- **The arms that are closed on a line are counted**, beginning with the next place of the line.
Induction on the stream; it comes to a line after the lines before it, and never comes back. -/
theorem occurrence_run (file : String) {s : Nesting} {tokens : List Token} (n : Nat)
    (hs : ∀ t ∈ tokens, s.countedLine ≤ t.line) (hsorted : tokens.Pairwise (·.line ≤ ·.line)) :
    ((Finding.arms (s.run file tokens).2).filter (·.tokenLine = n)).map (·.occurrence)
      = List.range' (s.nextOccurrence n)
          ((Finding.arms (s.run file tokens).2).countP (·.tokenLine = n)) := by
  induction tokens generalizing s with
  | nil => rfl
  | cons t ts ih =>
    obtain ⟨hle, hsorted⟩ := List.pairwise_cons.mp hsorted
    obtain ⟨hst, hsts⟩ := List.forall_mem_cons.mp hs
    rw [arms_run_cons, List.filter_append, List.map_append, List.countP_append]
    cases hy : t.yields with
    | false =>
      have hrest := ih (fun u hu => (count_step_of_not_yields file s hy).1 ▸ hsts u hu) hsorted
      rw [nextOccurrence_step, hy, if_neg Bool.false_ne_true] at hrest
      simpa using hrest
    | true =>
      have hrest := ih (fun u hu => (count_step_of_yields file s hy).1 ▸ hle u hu) hsorted
      rw [nextOccurrence_step, hy, if_pos rfl] at hrest
      rw [if_pos rfl, hrest]
      by_cases hline : t.line = n
      · -- one more arm of the line, which is the next one
        have harm : (s.armOf t (s.close t.line).1).tokenLine = n := hline
        have hoccurrence : (s.armOf t (s.close t.line).1).occurrence = s.nextOccurrence n :=
          congrArg s.nextOccurrence hline
        rw [if_pos hline, List.filter_cons_of_pos (by simpa using harm), List.map_cons, hoccurrence,
          List.countP_cons_of_pos (by simpa using harm), Nat.add_comm _ (List.countP _ _)]
        rfl
      · have harm : (s.armOf t (s.close t.line).1).tokenLine ≠ n := hline
        rw [if_neg hline, List.filter_cons_of_neg (by simpa using harm),
          List.countP_cons_of_neg (by simpa using harm)]
        rcases Nat.lt_or_gt_of_ne hline with hlt | hgt
        · have hfirst : s.nextOccurrence n = 1 := by
            unfold nextOccurrence
            exact if_neg (by omega)
          rw [hfirst]
          simp
        · -- the line lies behind, and no arm is closed there any more
          have hnone : (Finding.arms ((s.step file t).1.run file ts).2).countP (·.tokenLine = n) = 0 := by
            rw [List.countP_eq_zero]
            intro a ha
            have hlater := le_tokenLine_run file (s.step file t).1 hle a ha
            simp only [decide_eq_true_eq]
            omega
          rw [hnone]
          rfl

end Nesting

/-! ## The order of lines -/

/-- The block of a frame was opened no later than the current arm of the frame began. -/
def Frame.Ordered (f : Frame) : Prop :=
  1 ≤ f.decisionLine ∧ f.decisionLine ≤ f.line

namespace Nesting

/-- The lines of all that is open are in order. -/
structure Ordered (s : Nesting) : Prop where
  frames : ∀ f ∈ s.frames, f.Ordered
  define : ∀ d ∈ s.define, 1 ≤ d.line

variable {s : Nesting}

/-- What a closing token ends is in order, also if its own line stands in for it. -/
theorem Ordered.close (h : s.Ordered) {n : Nat} (hn : 1 ≤ n) :
    (s.close n).1.Ordered ∧ (s.close n).2.Ordered := by
  -- the frame that stands in for a missing one begins and is decided on one line
  have hstand : (close.standIn s n).Ordered := by
    unfold close.standIn
    cases hd : s.define with
    | none => exact ⟨hn, Nat.le_refl n⟩
    | some d => exact ⟨h.define d hd, Nat.le_refl d.line⟩
  unfold Nesting.close
  split
  · next frame outer hframes =>
    have hall : ∀ f ∈ frame :: outer, f.Ordered := fun f hf => h.frames f (hframes ▸ hf)
    split
    · exact ⟨hall frame (List.mem_cons_self ..),
        fun f hf => hall f (List.mem_cons_of_mem _ hf), h.define⟩
    · exact ⟨hstand, h⟩
  · exact ⟨hstand, h⟩

theorem Ordered.closed (h : s.Ordered) {t : Token} (ht : 1 ≤ t.line) : (s.closed t).Ordered :=
  ⟨(h.close ht).2.frames, (h.close ht).2.define⟩

/-- Every token keeps the lines in order, if it does not go back before what is open. -/
theorem Ordered.step (file : String) {t : Token} (h : s.Ordered) (hs : s.UpTo t.line)
    (ht : 1 ≤ t.line) : (s.step file t).1.Ordered := by
  cases t.role with
  | evaluated hin =>
    rw [step_evaluated hin]
    exact h
  | opener hin word hkind =>
    rw [step_opener hin hkind]
    exact ⟨List.forall_mem_cons.mpr ⟨⟨ht, Nat.le_refl _⟩, h.frames⟩, h.define⟩
  | define hin name hkind =>
    rw [step_define hin hkind]
    exact ⟨h.frames, fun d hd => by cases hd; exact ht⟩
  | next hin hkind =>
    -- the next arm begins later than the one that it follows, and has the same decision
    rw [step_next hin hkind]
    obtain ⟨⟨hpos, hdecision⟩, -⟩ := h.close ht
    have hframe : Frame.Ordered ⟨t.line, (s.close t.line).1.decisionLine⟩ :=
      ⟨hpos, Nat.le_trans hdecision hs.close.1⟩
    exact ⟨List.forall_mem_cons.mpr ⟨hframe, (h.closed ht).frames⟩, (h.closed ht).define⟩
  | finish hin hkind =>
    rw [step_finish hin hkind]
    split
    · exact ⟨(h.closed ht).frames, fun d hd => (nomatch hd)⟩
    · exact h.closed ht

/-- The decision of an arm was opened no later than the arm began. Induction on the stream, as for the
places of the arms. -/
theorem decision_run (file : String) {s : Nesting} {tokens : List Token} (h : s.Ordered)
    (hs : ∀ t ∈ tokens, s.UpTo t.line) (hpos : ∀ t ∈ tokens, 1 ≤ t.line)
    (hsorted : tokens.Pairwise (·.line ≤ ·.line)) :
    ∀ a ∈ Finding.arms (s.run file tokens).2, 1 ≤ a.decisionLine ∧ a.decisionLine ≤ a.startLine := by
  induction tokens generalizing s with
  | nil => exact fun a ha => (nomatch ha)
  | cons t ts ih =>
    obtain ⟨hle, hsorted⟩ := List.pairwise_cons.mp hsorted
    obtain ⟨hst, -⟩ := List.forall_mem_cons.mp hs
    obtain ⟨ht, hpos⟩ := List.forall_mem_cons.mp hpos
    intro a ha
    rcases mem_arms_run_cons.mp ha with ⟨-, rfl⟩ | hlater
    · -- the arm of the first token has the lines of its frame
      exact (h.close ht).1
    · exact ih (h.step file hst ht) (fun u hu => (hst.step file).mono (hle u hu)) hpos hsorted a
        hlater

end Nesting

/-! ## Scans -/

/-- The lines that an arm shows are in order, from the first line of a text to the last one. The arm is
not empty, and it goes on at least up to the line before its token. -/
structure Arm.Bounded (a : Arm) (lineCount : Nat) : Prop where
  positive : 1 ≤ a.decisionLine
  decision : a.decisionLine ≤ a.startLine
  start : a.startLine ≤ a.endLine
  last : a.endLine ≤ a.tokenLine
  token : a.tokenLine ≤ lineCount
  adjacent : a.tokenLine - 1 ≤ a.endLine

/-- Tokens are on the lines of the text. -/
theorem one_le_line_of_mem_tokensOf {evaluators : List String} {source : List Char} {t : Token}
    (ht : t ∈ tokensOf evaluators source) : 1 ≤ t.line ∧ t.line ≤ (lines source).length := by
  obtain ⟨i, hi, hnumber, -⟩ := mem_tokensOf ht
  omega

/-- Of every text, the lines of the arms are in order. -/
theorem bounded_of_mem_scan {evaluators : List String} {file source : String} {a : Arm}
    (ha : a ∈ Finding.arms (scan evaluators file source)) :
    a.Bounded (lines source.toList).length := by
  have hlines : ∀ t ∈ tokensOf evaluators source.toList,
      1 ≤ t.line ∧ t.line ≤ (lines source.toList).length :=
    fun t ht => one_le_line_of_mem_tokensOf ht
  -- the token that has closed the arm bounds it from below, and the frame from above
  have hspanned := spanned_scan ha
  unfold scan at ha
  obtain ⟨t, ht, hclosed⟩ := exists_closedBy_of_mem (arms_scanTokens_closedBy file _) ha
  have htoken := (hlines t (List.mem_filter.mp ht).1).2
  rw [← hclosed.tokenLine] at htoken
  rw [arms_scanTokens] at ha
  have hstart : Nesting.Ordered {} := ⟨fun f hf => (nomatch hf), fun d hd => (nomatch hd)⟩
  obtain ⟨hpos, hdecision⟩ := Nesting.decision_run file hstart
    (fun t _ => Nesting.upTo_start t.line) (fun t ht => (hlines t ht).1)
    (sorted_tokensOf evaluators source.toList) a ha
  have hbegins := hspanned.start
  have hlast := hspanned.last
  unfold Nesting.lastLine at hlast
  refine ⟨hpos, hdecision, ?_, ?_, htoken, ?_⟩ <;> split at hlast <;> omega

/-- **The arms of every text are in order, counted and bounded.** They are those of its closing tokens
outside of strings, one for one, while a token in a string leaves a note and nothing else. They stand in
the order of their positions, they are counted from one on each line, and their lines are in order. -/
theorem scan_orders_and_bounds (evaluators : List String) (file source : String) :
    let tokens := tokensOf evaluators source.toList
    let findings := scan evaluators file source
    let arms := Finding.arms findings
    List.Forall₂ Arm.ClosedBy arms (tokens.filter Token.yields)
      ∧ findings.filter Finding.isEvaluated = (evaluatedNotes file tokens).map .note
      ∧ findings.filter (!·.isEvaluated) = scanTokens file (tokens.filter (!·.inString))
      ∧ arms.Pairwise (fun a b => Precedes a.position b.position)
      ∧ (∀ line, (arms.filter (·.tokenLine = line)).map (·.occurrence)
          = List.range' 1 (arms.countP (·.tokenLine = line)))
      ∧ ∀ a ∈ arms, a.Bounded (lines source.toList).length := by
  intro tokens findings arms
  obtain ⟨hnotes, hothers, hlast⟩ := Nesting.run_split file {} tokens
  have hunclosed := (Nesting.run file {} tokens).1.not_isEvaluated_unclosed file
  have hfindings : findings
      = (Nesting.run file {} tokens).2 ++ (Nesting.run file {} tokens).1.unclosed file := rfl
  refine ⟨arms_scanTokens_closedBy file tokens, ?_, ?_, pairwise_position_scan evaluators file source,
    fun line => ?_, fun a ha => bounded_of_mem_scan ha⟩
  · -- notes on what is evaluated come from the run only, not from what is left open at its end
    have hnone : ((Nesting.run file {} tokens).1.unclosed file).filter Finding.isEvaluated = [] :=
      List.filter_eq_nil_iff.mpr fun f hf => by simp [hunclosed f hf]
    rw [hfindings, List.filter_append, hnotes, hnone, List.append_nil]
  · have hall : ((Nesting.run file {} tokens).1.unclosed file).filter (!·.isEvaluated)
        = (Nesting.run file {} tokens).1.unclosed file :=
      List.filter_eq_self.mpr fun f hf => by simp [hunclosed f hf]
    rw [hfindings, List.filter_append, hothers, hall, hlast]
    rfl
  · -- the count begins anew on each line
    have hcount := Nesting.occurrence_run file (s := {}) line (fun t _ => Nat.zero_le t.line)
      (sorted_tokensOf evaluators source.toList)
    have hfirst : Nesting.nextOccurrence {} line = 1 := by
      unfold Nesting.nextOccurrence
      split <;> rfl
    rw [hfirst, ← arms_scanTokens] at hcount
    exact hcount

end TemplateCoverage
