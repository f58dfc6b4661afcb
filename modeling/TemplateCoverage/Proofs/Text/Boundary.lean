import TemplateCoverage.Proofs.Text.Offset

/-!
# Character boundaries

The byte offsets at which a text can be cut, its end among them.

* **`CharBoundary n cs`**: the offset is one of them. In a text that is put together, an offset behind the
  first part is a boundary of the second one (`charBoundary_append_iff`).
* **`slice? cs start stop`**: the part of a text between two offsets. It is there just if both are
  boundaries in this order.
* **`insertThrough added offset cs`**: the text with `added o` at every boundary `o`. Other than with
  `insertBefore`, something can be inserted at the end.
-/

namespace TemplateCoverage.Text

/-- The offset is a character boundary of the text. -/
def CharBoundary (n : Nat) (cs : List Char) : Prop :=
  ∃ back, FollowsAt n cs back

/-- A text can be cut exactly at its character boundaries. -/
theorem charBoundary_iff_isSome {n : Nat} {cs : List Char} :
    CharBoundary n cs ↔ (splitAtByte? n cs).isSome = true := by
  rw [Option.isSome_iff_exists]
  constructor
  · rintro ⟨back, hfollows⟩
    obtain ⟨front, hcut, -, -⟩ := hfollows.splitAtByte?
    exact ⟨(front, back), hcut⟩
  · rintro ⟨⟨front, back⟩, hcut⟩
    exact ⟨back, front, splitAtByte?_eq_some_iff.mp hcut⟩

instance (n : Nat) (cs : List Char) : Decidable (CharBoundary n cs) :=
  decidable_of_iff _ charBoundary_iff_isSome.symm

/-- No boundary lies beyond the end. -/
theorem CharBoundary.le {n : Nat} {cs : List Char} (h : CharBoundary n cs) : n ≤ byteLength cs := by
  obtain ⟨back, hfollows⟩ := h
  rw [hfollows.byteLength_eq]
  exact Nat.le_add_right n _

/-- Behind the first part of a text, the boundaries are those of the second part. -/
theorem charBoundary_append_iff {n : Nat} (front back : List Char) :
    CharBoundary (byteLength front + n) (front ++ back) ↔ CharBoundary n back := by
  constructor
  · rintro ⟨rest, hfollows⟩
    have hfront : FollowsAt (byteLength front) (front ++ back) back := ⟨front, rfl, rfl⟩
    have hrest := hfront.of_le hfollows (Nat.le_add_right _ n)
    rw [Nat.add_sub_cancel_left] at hrest
    exact ⟨rest, hrest⟩
  · rintro ⟨rest, hfollows⟩
    exact ⟨rest, hfollows.prepend front⟩

/-! ## Slices -/

/-- The part of a text from one byte offset up to another one. -/
def slice? (cs : List Char) (start stop : Nat) : Option (List Char) :=
  if stop < start then none
  else
    match splitAtByte? start cs with
    | none => none
    | some (_, rest) => (splitAtByte? (stop - start) rest).map Prod.fst

/-- From a boundary on, a slice is what is cut off the rest of the text. -/
theorem slice?_of_followsAt {cs rest : List Char} {start stop : Nat}
    (h : FollowsAt start cs rest) (hle : start ≤ stop) :
    slice? cs start stop = (splitAtByte? (stop - start) rest).map Prod.fst := by
  obtain ⟨front, hcut, -, -⟩ := h.splitAtByte?
  unfold slice?
  rw [if_neg (Nat.not_lt.mpr hle), hcut]

/-- Up to the end of the text, that is all of the rest. -/
theorem slice?_end {cs rest : List Char} {start : Nat} (h : FollowsAt start cs rest) :
    slice? cs start (byteLength cs) = some rest := by
  have hcut : splitAtByte? (byteLength rest) rest = some (rest, []) :=
    splitAtByte?_eq_some_iff.mpr ⟨(List.append_nil rest).symm, rfl⟩
  rw [slice?_of_followsAt h (CharBoundary.le ⟨rest, h⟩), h.byteLength_eq, Nat.add_sub_cancel_left, hcut]
  rfl

/-! ## Insertions up to the end -/

/-- The text with `added o` at every byte offset `o` that is a character boundary, for a text that itself
begins at `offset`. -/
def insertThrough (added : Nat → List Char) (offset : Nat) : List Char → List Char
  | [] => added offset
  | c :: cs => added offset ++ c :: insertThrough added (offset + c.utf8Size) cs

theorem insertThrough_cons (added : Nat → List Char) (offset : Nat) (c : Char) (cs : List Char) :
    insertThrough added offset (c :: cs)
      = added offset ++ c :: insertThrough added (offset + c.utf8Size) cs := rfl

/-- The first part of a text leaves its end to the second one. -/
theorem insertThrough_append (added : Nat → List Char) (offset : Nat) (a b : List Char) :
    insertThrough added offset (a ++ b)
      = insertBefore added offset a ++ insertThrough added (offset + byteLength a) b := by
  induction a generalizing offset with
  | nil => rfl
  | cons c a ih =>
    rw [List.cons_append, insertThrough_cons, insertBefore_cons, ih, byteLength_cons,
      List.append_assoc, List.cons_append, Nat.add_assoc]

/-- Only the boundaries matter. -/
theorem insertThrough_congr {f g : Nat → List Char} {offset : Nat} {cs : List Char}
    (h : ∀ n, CharBoundary n cs → f (offset + n) = g (offset + n)) :
    insertThrough f offset cs = insertThrough g offset cs := by
  induction cs generalizing offset with
  | nil => exact h 0 ⟨[], [], rfl, rfl⟩
  | cons c cs ih =>
    have hfirst : f offset = g offset := h 0 ⟨c :: cs, [], rfl, rfl⟩
    rw [insertThrough_cons, insertThrough_cons, hfirst, ih fun n hn => ?_]
    rw [Nat.add_assoc]
    exact h (c.utf8Size + n) ((charBoundary_append_iff [c] cs).mpr hn)

/-- What is inserted first of all stands in front of the text. -/
theorem insertThrough_first {f g : Nat → List Char} {offset : Nat} {first : List Char}
    (hfirst : f offset = first ++ g offset) (hlater : ∀ o, offset < o → f o = g o) (cs : List Char) :
    insertThrough f offset cs = first ++ insertThrough g offset cs := by
  cases cs with
  | nil => exact hfirst
  | cons c cs =>
    have hpos := c.utf8Size_pos
    rw [insertThrough_cons, insertThrough_cons, hfirst, List.append_assoc,
      insertThrough_congr fun n _ => hlater (offset + c.utf8Size + n) (by omega)]

/-- To insert nothing changes nothing, at the end of the text as well. -/
theorem insertThrough_nothing (offset : Nat) (cs : List Char) :
    insertThrough (fun _ => []) offset cs = cs := by
  induction cs generalizing offset with
  | nil => rfl
  | cons c cs ih => rw [insertThrough_cons, ih, List.nil_append]

end TemplateCoverage.Text
