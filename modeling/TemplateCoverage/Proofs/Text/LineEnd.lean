import TemplateCoverage.Proofs.Text.Boundary
import TemplateCoverage.Proofs.Text.Line

/-!
# Changing line ends

A text whose lines end with a line feed can be written with a carriage return in front of each of these.
The lines are the same then but for their ends (`lines_toCrlf`), since a line is a front without line
feeds and, but for the last one perhaps, a line feed (`exists_front_of_mem_lines`). What is inserted within
the fronts stays where it is (`insertThrough_toCrlf`).
-/

namespace TemplateCoverage.Text

/-- The text with a carriage return in front of every line feed. Where there is one already, there are two
of them then. -/
def toCrlf (cs : List Char) : List Char :=
  cs.flatMap fun c => if c = '\n' then LineEnd.crlf.chars else [c]

theorem toCrlf_newline (cs : List Char) : toCrlf ('\n' :: cs) = '\r' :: '\n' :: toCrlf cs := rfl

theorem toCrlf_cons {c : Char} (h : c ≠ '\n') (cs : List Char) : toCrlf (c :: cs) = c :: toCrlf cs := by
  unfold toCrlf
  rw [List.flatMap_cons, if_neg h]
  rfl

/-- Line ends are replaced one by one. -/
theorem toCrlf_append (a b : List Char) : toCrlf (a ++ b) = toCrlf a ++ toCrlf b :=
  List.flatMap_append

/-- A text without line ends stays as it is. -/
theorem toCrlf_of_newline_not_mem {cs : List Char} (h : '\n' ∉ cs) : toCrlf cs = cs := by
  induction cs with
  | nil => rfl
  | cons c cs ih =>
    rw [List.mem_cons, not_or] at h
    rw [toCrlf_cons (Ne.symm h.1), ih h.2]

/-! ## Lines -/

/-- A line has a line feed at its end only, if at all. Induction on the text: any other character is put in
front of the line that follows it. -/
theorem exists_front_of_mem_lines {cs line : List Char} (h : line ∈ lines cs) :
    ∃ front ending, line = front ++ ending ∧ '\n' ∉ front ∧ (ending = [] ∨ ending = ['\n']) := by
  induction cs generalizing line with
  | nil => cases h
  | cons c cs ih =>
    by_cases hc : c = '\n'
    · subst hc
      rw [lines_newline] at h
      rcases List.mem_cons.mp h with rfl | h
      · exact ⟨[], ['\n'], rfl, List.not_mem_nil, .inr rfl⟩
      · exact ih h
    · -- the first character goes to the line that follows, if there is one
      cases hlines : lines cs with
      | nil =>
        rw [lines, if_neg hc, hlines] at h
        rw [List.mem_singleton.mp h]
        exact ⟨[c], [], rfl, by simpa using Ne.symm hc, .inl rfl⟩
      | cons first rest =>
        rw [lines_cons hc hlines] at h
        rw [hlines] at ih
        rcases List.mem_cons.mp h with rfl | h
        · obtain ⟨front, ending, rfl, hfront, hending⟩ := ih List.mem_cons_self
          exact ⟨c :: front, ending, rfl, List.not_mem_cons_of_ne_of_not_mem (Ne.symm hc) hfront, hending⟩
        · exact ih (List.mem_cons_of_mem first h)

/-- **No line is cut and none is joined to another one.** Induction on the text. -/
theorem lines_toCrlf (cs : List Char) : lines (toCrlf cs) = (lines cs).map toCrlf := by
  induction cs with
  | nil => rfl
  | cons c cs ih =>
    by_cases hc : c = '\n'
    · subst hc
      -- the carriage return is put in front of the line that the line feed makes
      rw [toCrlf_newline, lines_cons (by decide) (lines_newline _), ih, lines_newline, List.map_cons]
      rfl
    · rw [toCrlf_cons hc]
      cases hlines : lines cs with
      | nil =>
        -- nothing follows, so the character is a line of its own
        rw [hlines] at ih
        rw [lines, if_neg hc, ih, lines, if_neg hc, hlines]
        exact congrArg (fun line => [line]) (toCrlf_cons hc []).symm
      | cons line rest =>
        rw [hlines] at ih
        rw [lines_cons hc ih, lines_cons hc hlines, List.map_cons, toCrlf_cons hc]

example : lines (toCrlf ['a', '\r', '\n', 'b']) = [['a', '\r', '\r', '\n'], ['b']] := by decide

theorem numberedLines_toCrlf (cs : List Char) :
    numberedLines (toCrlf cs) = (numberedLines cs).map fun x => (toCrlf x.1, x.2) := by
  unfold numberedLines
  rw [lines_toCrlf, List.zipIdx_map]
  rfl

/-! ## Insertions -/

/-- What is inserted into a line leaves it one line if it has no line feed. -/
theorem newline_not_mem_insertBefore {added : Nat → List Char} (hadded : ∀ o, '\n' ∉ added o)
    {cs : List Char} (h : '\n' ∉ cs) (offset : Nat) : '\n' ∉ insertBefore added offset cs := by
  induction cs generalizing offset with
  | nil => exact h
  | cons c cs ih =>
    rw [List.mem_cons, not_or] at h
    rw [insertBefore_cons, List.mem_append, List.mem_cons, not_or, not_or]
    exact ⟨hadded offset, h.1, ih h.2 _⟩

/-- Where nothing is inserted from the end of the front on, the line keeps its end. -/
theorem insertThrough_front {added : Nat → List Char} {front : List Char}
    (hend : ∀ o, byteLength front ≤ o → added o = []) (ending : List Char) :
    insertThrough added 0 (front ++ ending) = insertBefore added 0 front ++ ending := by
  have hnothing : insertThrough added (0 + byteLength front) ending
      = insertThrough (fun _ => []) (0 + byteLength front) ending :=
    insertThrough_congr fun n _ => hend _ (by omega)
  rw [insertThrough_append, hnothing, insertThrough_nothing]

/-- **Insertions do not depend on the line end** if they stand in front of it and bring no line feed. -/
theorem insertThrough_toCrlf {added : Nat → List Char} (hadded : ∀ o, '\n' ∉ added o)
    {front : List Char} (hfront : '\n' ∉ front) (hend : ∀ o, byteLength front ≤ o → added o = [])
    (ending : List Char) :
    insertThrough added 0 (toCrlf (front ++ ending))
      = toCrlf (insertThrough added 0 (front ++ ending)) := by
  rw [toCrlf_append, toCrlf_of_newline_not_mem hfront, insertThrough_front hend,
    insertThrough_front hend, toCrlf_append,
    toCrlf_of_newline_not_mem (newline_not_mem_insertBefore hadded hfront 0)]

end TemplateCoverage.Text
