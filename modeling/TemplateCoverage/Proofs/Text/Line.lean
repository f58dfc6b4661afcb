import TemplateCoverage.Text.Line

/-!
# The lines of joined texts

A text that is empty or ends with a line feed ends with a complete line, so that what is put behind it
begins a line of its own (`lines_append`). A text that is put together from lines, each with its own
kind of line end, is cut into these lines again (`lineTexts_terminated`).
-/

namespace TemplateCoverage.Text

/-- The text has no line that is not complete. -/
def EndsLine (cs : List Char) : Prop :=
  cs = [] ∨ ∃ front, cs = front ++ ['\n']

theorem lines_newline (cs : List Char) : lines ('\n' :: cs) = ['\n'] :: lines cs := rfl

/-- Any other character belongs to the line that follows it. -/
theorem lines_cons {c : Char} (h : c ≠ '\n') {cs line : List Char} {rest : List (List Char)}
    (hlines : lines cs = line :: rest) : lines (c :: cs) = (c :: line) :: rest := by
  rw [lines, if_neg h, hlines]

/-- A text that is not empty has lines. -/
theorem lines_ne_nil {cs : List Char} (h : cs ≠ []) : lines cs ≠ [] := by
  intro hlines
  have hflat := flatten_lines cs
  rw [hlines] at hflat
  exact h hflat.symm

/-- What is put behind a line feed begins a new line. Induction on what stands in front of it. -/
theorem lines_append_newline (front cs : List Char) :
    lines (front ++ '\n' :: cs) = lines (front ++ ['\n']) ++ lines cs := by
  induction front with
  | nil => exact lines_newline cs
  | cons c front ih =>
    by_cases h : c = '\n'
    · subst h
      rw [List.cons_append, List.cons_append, lines_newline, lines_newline, ih, List.cons_append]
    · -- the line of the line feed is there in both texts, and `c` is put in front of the first one
      obtain ⟨line, rest, hlines⟩ := List.exists_cons_of_ne_nil
        (lines_ne_nil (List.append_ne_nil_of_right_ne_nil front (List.cons_ne_nil '\n' [])))
      rw [hlines, List.cons_append] at ih
      rw [List.cons_append, List.cons_append, lines_cons h ih, lines_cons h hlines,
        List.cons_append]

/-- The lines of a text are followed by those of what is put behind it. -/
theorem lines_append {cs : List Char} (h : EndsLine cs) (ds : List Char) :
    lines (cs ++ ds) = lines cs ++ lines ds := by
  rcases h with rfl | ⟨front, rfl⟩
  · rfl
  · rw [List.append_assoc]
    exact lines_append_newline front ds

/-- Behind a line end the lines are those of a text of its own. -/
theorem lineTexts_append {cs : List Char} (h : EndsLine cs) (ds : List Char) :
    lineTexts (cs ++ ds) = lineTexts cs ++ lineTexts ds := by
  unfold lineTexts
  rw [lines_append h, List.map_append]

/-! ## Line ends -/

/-- How a line ends. -/
inductive LineEnd where
  | lf
  | crlf
  deriving DecidableEq, Repr

/-- The characters of a line end. -/
def LineEnd.chars : LineEnd → List Char
  | .lf => ['\n']
  | .crlf => ['\r', '\n']

/-- A line with its end. -/
def terminated (l : List Char × LineEnd) : List Char :=
  l.1 ++ l.2.chars

theorem endsLine_terminated (l : List Char × LineEnd) : EndsLine (terminated l) := by
  obtain ⟨cs, e⟩ := l
  cases e with
  | lf => exact .inr ⟨cs, rfl⟩
  | crlf => exact .inr ⟨cs ++ ['\r'], (List.append_assoc cs ['\r'] ['\n']).symm⟩

/-- Up to its first line feed, a text is one line. Induction on what stands in front of it. -/
theorem lines_of_newline_not_mem {cs : List Char} (h : '\n' ∉ cs) :
    lines (cs ++ ['\n']) = [cs ++ ['\n']] := by
  induction cs with
  | nil => rfl
  | cons c cs ih =>
    have hc : c ≠ '\n' := fun heq => h (heq ▸ List.mem_cons_self ..)
    exact lines_cons hc (ih fun hmem => h (List.mem_cons_of_mem c hmem))

/-- A line with its end is one line. -/
theorem lines_terminated {l : List Char × LineEnd} (h : '\n' ∉ l.1) :
    lines (terminated l) = [terminated l] := by
  obtain ⟨cs, e⟩ := l
  cases e with
  | lf => exact lines_of_newline_not_mem h
  | crlf =>
    have hcs : '\n' ∉ cs ++ ['\r'] := by simpa using h
    have hlines := lines_of_newline_not_mem hcs
    rwa [List.append_assoc] at hlines

/-- Lines that are put together are found again. Induction on the lines. -/
theorem lineTexts_terminated {ls : List (List Char × LineEnd)} (h : ∀ l ∈ ls, '\n' ∉ l.1) :
    lineTexts (ls.flatMap terminated) = ls.map fun l => dropTerminator (terminated l) := by
  induction ls with
  | nil => rfl
  | cons l ls ih =>
    obtain ⟨hl, hls⟩ := List.forall_mem_cons.mp h
    rw [List.flatMap_cons, lineTexts_append (endsLine_terminated l), ih hls, List.map_cons]
    unfold lineTexts
    rw [lines_terminated hl]
    rfl

/-! ## Lines without their ends -/

/-- A character that does not belong to the line end stays. -/
theorem dropTerminator_cons {c : Char} {cs : List Char} (hne : cs ≠ [])
    (h : c = '\r' → cs ≠ ['\n']) : dropTerminator (c :: cs) = c :: dropTerminator cs := by
  -- the first character is part of a line end only if nothing but the line end is left
  rw [dropTerminator.eq_def]
  split
  · next heq => cases heq
  · next heq =>
    cases heq
    exact absurd rfl hne
  · next heq =>
    cases heq
    exact absurd rfl (h rfl)
  · next heq =>
    cases heq
    rfl

theorem dropTerminator_crlf (cs : List Char) : dropTerminator (cs ++ ['\r', '\n']) = cs := by
  induction cs with
  | nil => rfl
  | cons c cs ih =>
    rw [List.cons_append, dropTerminator_cons, ih]
    · simp
    · intro _ h
      have hlength := congrArg List.length h
      simp at hlength

/-- A carriage return in front of a line feed is part of the line end, and nothing else is. -/
theorem dropTerminator_lf {cs : List Char} (h : cs.getLast? ≠ some '\r') :
    dropTerminator (cs ++ ['\n']) = cs := by
  induction cs with
  | nil => rfl
  | cons c cs ih =>
    cases cs with
    | nil =>
      have hc : c ≠ '\r' := fun heq => h (congrArg some heq)
      show dropTerminator (c :: ['\n']) = [c]
      rw [dropTerminator_cons (List.cons_ne_nil _ _) fun heq => absurd heq hc]
      rfl
    | cons d cs =>
      rw [List.getLast?_cons_cons] at h
      -- a character that is not the last one stays
      rw [List.cons_append, dropTerminator_cons, ih h]
      · simp
      · intro _ heq
        have hlength := congrArg List.length heq
        simp at hlength

/-- In front of the line end, the line is there unless it ends with a carriage return. -/
theorem dropTerminator_terminated {l : List Char × LineEnd} (h : l.1.getLast? ≠ some '\r') :
    dropTerminator (terminated l) = l.1 := by
  obtain ⟨cs, e⟩ := l
  cases e with
  | lf => exact dropTerminator_lf h
  | crlf => exact dropTerminator_crlf cs

/-- At most a carriage return is missing. -/
theorem dropTerminator_isPrefix (l : List Char × LineEnd) : dropTerminator (terminated l) <+: l.1 := by
  obtain ⟨cs, e⟩ := l
  by_cases hlast : cs.getLast? = some '\r'
  · cases e with
    | lf =>
      obtain ⟨front, rfl⟩ := List.getLast?_eq_some_iff.mp hlast
      show dropTerminator (front ++ ['\r'] ++ ['\n']) <+: front ++ ['\r']
      rw [List.append_assoc]
      exact ⟨['\r'], congrArg (· ++ ['\r']) (dropTerminator_crlf front)⟩
    | crlf => exact ⟨[], by rw [List.append_nil]; exact dropTerminator_crlf cs⟩
  · exact ⟨[], by rw [List.append_nil]; exact dropTerminator_terminated hlast⟩

end TemplateCoverage.Text
