import TemplateCoverage.Proofs.Instrument.LineEnd
import TemplateCoverage.Proofs.Template.Literal

/-!
# The lines of an instrumented file

Literals keep any string on one line, so tracking code adds no line and joins none. What is inserted in a file
stands within its lines, each of which keeps its end:

* **`AreLines.lines_flatten`**: texts that are the lines of some text are the lines of what they make up.
* **`AreLines.map`**: they stay so when the front of each one is replaced by another one.
* **`lines_sourcePart`**: the lines of an instrumented text are those of the source with their code.
* **`literals_carry`**: what is written as a literal is read again, and it stands on one line.
-/

namespace TemplateCoverage

open Template Text

/-! ## Texts that are lines -/

namespace Text

/-- A line feed stands at the end of each text and nowhere else. Only the last one may lack it. -/
inductive AreLines : List (List Char) → Prop where
  | nil : AreLines []
  | last {front : List Char} (hne : front ≠ []) (hfront : '\n' ∉ front) : AreLines [front]
  | cons {front : List Char} {ls : List (List Char)} (hfront : '\n' ∉ front) (hls : AreLines ls) :
    AreLines ((front ++ ['\n']) :: ls)

/-- The lines of a text are lines: each but the last one ends with a line feed, and has no other. -/
theorem areLines_lines (cs : List Char) : AreLines (lines cs) := by
  induction cs with
  | nil => exact .nil
  | cons c cs ih =>
    by_cases hc : c = '\n'
    · subst hc
      show AreLines (([] ++ ['\n']) :: lines cs)
      exact .cons List.not_mem_nil ih
    · have hcons : ∀ {front : List Char}, '\n' ∉ front → '\n' ∉ c :: front :=
        fun hfront => List.not_mem_cons_of_ne_of_not_mem (Ne.symm hc) hfront
      -- a character that ends no line joins the line that follows
      cases hlines : lines cs with
      | nil =>
        rw [lines, if_neg hc, hlines]
        exact .last (List.cons_ne_nil c []) (hcons List.not_mem_nil)
      | cons line rest =>
        rw [lines_cons hc hlines]
        rw [hlines] at ih
        cases ih with
        | last _ hfront => exact .last (List.cons_ne_nil c line) (hcons hfront)
        | cons hfront hrest => exact .cons (hcons hfront) hrest

/-- Without a line feed, a text is one line. -/
theorem lines_of_unterminated {cs : List Char} (hne : cs ≠ []) (h : '\n' ∉ cs) : lines cs = [cs] := by
  have hlines := areLines_lines cs
  have hflat := flatten_lines cs
  generalize lines cs = ls at hlines hflat
  cases hlines with
  | nil => exact absurd hflat.symm hne
  | last _ _ => rw [← hflat, List.flatten_singleton]
  | cons _ _ =>
    -- the first of several lines would bring its line feed into the text
    rw [← hflat] at h
    simp at h

theorem AreLines.lines_flatten {ls : List (List Char)} (h : AreLines ls) : lines ls.flatten = ls := by
  induction h with
  | nil => rfl
  | last hne hfront => rw [List.flatten_singleton, lines_of_unterminated hne hfront]
  | @cons front ls hfront _ ih =>
    have hends : EndsLine (front ++ ['\n']) := .inr ⟨front, rfl⟩
    rw [List.flatten_cons, lines_append hends, lines_of_newline_not_mem hfront, ih, List.singleton_append]

/-- Numbered lines that keep their ends are lines again. Induction on the lines, for every first number. -/
theorem AreLines.map {ls : List (List Char)} (h : AreLines ls) {number : Nat}
    {f : List Char × Nat → List Char}
    (hf : ∀ front ending number', (front ++ ending, number') ∈ ls.zipIdx number → '\n' ∉ front →
      (ending = [] ∨ ending = ['\n']) →
      ∃ front', f (front ++ ending, number') = front' ++ ending ∧ '\n' ∉ front'
        ∧ (front ≠ [] → front' ≠ [])) :
    AreLines ((ls.zipIdx number).map f) := by
  -- induction on the lines: the last one may lack a line feed, all others have one
  induction h generalizing number with
  | nil => exact .nil
  | @last front hne hfront =>
    have hmem : (front ++ [], number) ∈ [front].zipIdx number := by simp
    obtain ⟨front', hline, hfront', hne'⟩ := hf front [] number hmem hfront (.inl rfl)
    rw [List.append_nil, List.append_nil] at hline
    rw [List.zipIdx_singleton, List.map_singleton, hline]
    exact .last (hne' hne) hfront'
  | @cons front ls hfront _ ih =>
    obtain ⟨front', hline, hfront', -⟩ :=
      hf front ['\n'] number List.mem_cons_self hfront (.inr rfl)
    rw [List.zipIdx_cons, List.map_cons, hline]
    exact .cons hfront' (ih fun front ending number' hmem =>
      hf front ending number' (List.mem_cons_of_mem _ hmem))

end Text

/-! ## The instrumented text -/

/-- Whatever the branches are, tracking code brings no line feed. -/
theorem count_newline_pieces (wrapperKeys : List String) (ps : List Piece) :
    (ps.flatMap (Piece.text wrapperKeys)).count '\n' = (ps.flatMap Piece.sourceText).count '\n' := by
  induction ps with
  | nil => rfl
  | cons p ps ih =>
    have hpiece : (p.text wrapperKeys).count '\n' = p.sourceText.count '\n' := by
      cases p with
      | source cs => rfl
      | call b => exact List.count_eq_zero.mpr (oneLine_trackingCall wrapperKeys b)
      | skipped b => rfl
    rw [List.flatMap_cons, List.flatMap_cons, List.count_append, List.count_append, hpiece, ih]

theorem insertBefore_ne_nil {added : Nat → List Char} {offset : Nat} {cs : List Char} (h : cs ≠ []) :
    insertBefore added offset cs ≠ [] := by
  obtain ⟨c, rest, rfl⟩ := List.exists_cons_of_ne_nil h
  rw [insertBefore_cons]
  exact List.append_ne_nil_of_right_ne_nil _ (List.cons_ne_nil c _)

/-- Branches that stand in a text have their code within its lines, so the lines stay apart. -/
theorem lines_sourcePart {source : String} {branches : List Branch}
    (h : ∀ b ∈ branches, StandsAt source.toList b.tokenLine b.column b.trimLeft) (wrapperKeys : List String) :
    lines (sourcePart wrapperKeys source branches).toList
      = (numberedLines source.toList).map fun x =>
        insertThrough (codeAt wrapperKeys branches x.2) 0 x.1 := by
  have hlines : AreLines ((numberedLines source.toList).map fun x =>
      insertThrough (codeAt wrapperKeys branches x.2) 0 x.1) := by
    refine (areLines_lines source.toList).map fun front ending number hline hfront hending => ?_
    -- no code stands behind the front, and the code in the front has no line feed
    have hend : ∀ o, byteLength front ≤ o → codeAt wrapperKeys branches number o = [] :=
      fun _ ho => codeAt_eq_nil h hline hending wrapperKeys ho
    have hcode := newline_not_mem_codeAt wrapperKeys branches number
    exact ⟨_, insertThrough_front hend ending, newline_not_mem_insertBefore hcode hfront 0,
      insertBefore_ne_nil⟩
  unfold sourcePart
  rw [String.toList_ofList, text_pieces_eq, List.flatMap_def]
  exact hlines.lines_flatten

/-- **Literals carry any string, on one line.** A literal is read as the string that it was written for, from
its first quote to the first one that no odd run of backslashes precedes, and what follows it is left. So the
tracking code of every branch stands on one line. An instrumented helper file has the line feeds of its source
for any branches, and the lines of its source for the branches of a scan. -/
theorem literals_carry (wrapperKeys : List String) :
    (∀ s t, readLiteral? (literal s ++ t) = some (s, t))
      ∧ (∀ b, '\n' ∉ (trackingCall wrapperKeys b).toList)
      ∧ (∀ source branches, (instrument wrapperKeys source .helper branches).toList.count '\n'
          = source.toList.count '\n')
      ∧ ∀ (a : Allocator) (evaluators : List String) (file source : String),
        let branches := scannedBranches a evaluators file .helper source
        (lines (instrument wrapperKeys source .helper branches).toList).length
          = (lines source.toList).length := by
  refine ⟨readLiteral?_literal, oneLine_trackingCall wrapperKeys, fun source branches => ?_,
    fun a evaluators file source => ?_⟩
  · -- no call has a line feed, so those that are there are those of the source
    have hsource := sourceText_pieces source.toList branches
    unfold instrument
    dsimp only
    rw [String.toList_ofList, count_newline_pieces, hsource]
  · intro branches
    have hstands := (located_scannedBranches a evaluators file .helper source).stands
    rw [instrument_eq_framed]
    unfold framed
    dsimp only
    rw [lines_sourcePart hstands, List.length_map]
    exact List.length_zipIdx

end TemplateCoverage
