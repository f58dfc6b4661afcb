/-!
# Finding a text in a text

`after?` reads a fixed text at the start of another one, `cutAt?` cuts a text around the first place
where a fixed text occurs.
-/

namespace TemplateCoverage.Text

/-- What follows `start` in a text that begins with it. -/
def after? : List Char → List Char → Option (List Char)
  | [], cs => some cs
  | _ :: _, [] => none
  | s :: start, c :: cs => if s = c then after? start cs else none

/-- The text cut around the first occurrence of `mark`: what stands before it and after it. -/
def cutAt? (mark : List Char) : List Char → Option (List Char × List Char)
  | [] => (after? mark []).map fun back => ([], back)
  | c :: cs =>
    match after? mark (c :: cs) with
    | some back => some ([], back)
    | none => (cutAt? mark cs).map fun (front, back) => (c :: front, back)

theorem after?_eq_some_iff {start cs rest : List Char} :
    after? start cs = some rest ↔ cs = start ++ rest := by
  induction start generalizing cs with
  | nil => simp [after?, eq_comm]
  | cons s start ih =>
    cases cs with
    | nil => simp [after?]
    | cons c cs =>
      by_cases h : s = c
      · simp [after?, h, ih]
      · simp [after?, h, Ne.symm h]

end TemplateCoverage.Text
