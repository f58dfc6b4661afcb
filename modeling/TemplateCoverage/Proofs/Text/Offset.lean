import TemplateCoverage.Text.Line

/-!
# Byte offsets in a text

What stands at a byte offset of a text, and inserting texts at byte offsets.

* **`FollowsAt n cs back`**: the offset `n` is a character boundary of `cs`, and `back` is what
  follows there. `splitAtByte?` finds exactly these (`splitAtByte?_eq_some_iff`).
* **`insertBefore added offset cs`**: the text with `added o` in front of the character at the offset
  `o`, where `cs` itself begins at `offset`. It distributes over `++`, so a text can be followed
  segment by segment.
* **`lineStart ls i`**: the offset at which the line with index `i` begins.
-/

namespace TemplateCoverage.Text

@[simp] theorem byteLength_nil : byteLength [] = 0 := rfl

@[simp] theorem byteLength_cons (c : Char) (cs : List Char) :
    byteLength (c :: cs) = c.utf8Size + byteLength cs := rfl

/-- Only the empty text takes no bytes. -/
theorem eq_nil_of_byteLength_eq_zero {cs : List Char} (h : byteLength cs = 0) : cs = [] := by
  cases cs with
  | nil => rfl
  | cons c cs =>
    have hpos := c.utf8Size_pos
    rw [byteLength_cons] at h
    omega

/-! ## What follows an offset -/

/-- The offset `n` is a character boundary of `cs`, and `back` is what follows there. -/
def FollowsAt (n : Nat) (cs back : List Char) : Prop :=
  ∃ front, cs = front ++ back ∧ byteLength front = n

/-- What follows at an offset goes on if the text does. -/
theorem FollowsAt.append {n : Nat} {cs back : List Char} (h : FollowsAt n cs back)
    (tail : List Char) : FollowsAt n (cs ++ tail) (back ++ tail) := by
  obtain ⟨front, rfl, hlen⟩ := h
  exact ⟨front, List.append_assoc front back tail, hlen⟩

/-- A text in front moves all offsets by its length. -/
theorem FollowsAt.prepend {n : Nat} {cs back : List Char} (h : FollowsAt n cs back)
    (head : List Char) : FollowsAt (byteLength head + n) (head ++ cs) back := by
  obtain ⟨front, rfl, rfl⟩ := h
  exact ⟨head ++ front, (List.append_assoc head front back).symm, byteLength_append head front⟩

theorem FollowsAt.byteLength_eq {n : Nat} {cs back : List Char} (h : FollowsAt n cs back) :
    byteLength cs = n + byteLength back := by
  obtain ⟨front, rfl, rfl⟩ := h
  exact byteLength_append front back

/-- Of two offsets, the later one is an offset of what follows the earlier one. -/
theorem FollowsAt.of_le {n m : Nat} {cs back back' : List Char} (h : FollowsAt n cs back)
    (h' : FollowsAt m cs back') (hle : n ≤ m) : FollowsAt (m - n) back back' := by
  obtain ⟨front, rfl, rfl⟩ := h
  obtain ⟨front', hcs, rfl⟩ := h'
  rcases List.append_eq_append_iff.mp hcs with ⟨mid, rfl, rfl⟩ | ⟨mid, rfl, rfl⟩
  · refine ⟨mid, rfl, ?_⟩
    rw [byteLength_append]
    omega
  · -- the second front is not longer, so nothing lies between them
    have hmid : mid = [] := by
      apply eq_nil_of_byteLength_eq_zero
      rw [byteLength_append] at hle
      omega
    subst hmid
    exact ⟨[], rfl, by simp⟩

/-- Every text can be cut at its beginning, and there is nothing else in front of that. -/
theorem splitAtByte?_zero_eq_some_iff {cs front back : List Char} :
    splitAtByte? 0 cs = some (front, back) ↔ cs = front ++ back ∧ byteLength front = 0 := by
  have hcut : splitAtByte? 0 cs = some ([], cs) := by cases cs <;> rfl
  rw [hcut]
  constructor
  · intro h
    cases h
    exact ⟨rfl, rfl⟩
  · rintro ⟨hcs, hlen⟩
    -- no character is without bytes
    have hfront := eq_nil_of_byteLength_eq_zero hlen
    subst hfront
    rw [hcs, List.nil_append]

/-- Cutting at an offset succeeds exactly at the character boundaries. Induction on the text. -/
theorem splitAtByte?_eq_some_iff {n : Nat} {cs front back : List Char} :
    splitAtByte? n cs = some (front, back) ↔ cs = front ++ back ∧ byteLength front = n := by
  induction cs generalizing n front with
  | nil =>
    cases n with
    | zero => exact splitAtByte?_zero_eq_some_iff
    | succ n =>
      constructor
      · intro h
        cases h
      · rintro ⟨hcs, hlen⟩
        obtain ⟨rfl, rfl⟩ := List.nil_eq_append_iff.mp hcs
        cases hlen
  | cons c cs ih =>
    have hpos := c.utf8Size_pos
    cases n with
    | zero => exact splitAtByte?_zero_eq_some_iff
    | succ n =>
      unfold splitAtByte?
      constructor
      · intro h
        split at h
        · next hle =>
          obtain ⟨⟨front', back'⟩, hcut, heq⟩ := Option.map_eq_some_iff.mp h
          cases heq
          obtain ⟨rfl, hlen⟩ := ih.mp hcut
          refine ⟨rfl, ?_⟩
          rw [byteLength_cons, hlen]
          omega
        · -- the offset lies inside of the first character
          cases h
      · rintro ⟨hcs, hlen⟩
        cases front with
        | nil => cases hlen
        | cons d front =>
          rw [List.cons_append] at hcs
          cases hcs
          rw [byteLength_cons] at hlen
          have hcut : splitAtByte? (n + 1 - c.utf8Size) (front ++ back) = some (front, back) :=
            ih.mpr ⟨rfl, by omega⟩
          rw [if_pos (by omega), hcut]
          rfl

/-- Where something follows, the text can be cut. -/
theorem FollowsAt.splitAtByte? {n : Nat} {cs back : List Char} (h : FollowsAt n cs back) :
    ∃ front, splitAtByte? n cs = some (front, back) ∧ cs = front ++ back
      ∧ byteLength front = n := by
  obtain ⟨front, hcs, hlen⟩ := h
  exact ⟨front, splitAtByte?_eq_some_iff.mpr ⟨hcs, hlen⟩, hcs, hlen⟩

/-! ## Insertions -/

/-- The text with `added o` in front of the character at the byte offset `o`, for a text that itself
begins at `offset`. -/
def insertBefore (added : Nat → List Char) (offset : Nat) : List Char → List Char
  | [] => []
  | c :: cs => added offset ++ c :: insertBefore added (offset + c.utf8Size) cs

theorem insertBefore_cons (added : Nat → List Char) (offset : Nat) (c : Char) (cs : List Char) :
    insertBefore added offset (c :: cs)
      = added offset ++ c :: insertBefore added (offset + c.utf8Size) cs := rfl

/-- Segments of a text are treated one after the other. -/
theorem insertBefore_append (added : Nat → List Char) (offset : Nat) (a b : List Char) :
    insertBefore added offset (a ++ b)
      = insertBefore added offset a ++ insertBefore added (offset + byteLength a) b := by
  induction a generalizing offset with
  | nil => rfl
  | cons c a ih =>
    rw [List.cons_append, insertBefore_cons, insertBefore_cons, ih, byteLength_cons,
      List.append_assoc, List.cons_append, Nat.add_assoc]

/-- Only the offsets inside the text matter. -/
theorem insertBefore_congr {f g : Nat → List Char} {offset : Nat} {cs : List Char}
    (h : ∀ o, offset ≤ o → o < offset + byteLength cs → f o = g o) :
    insertBefore f offset cs = insertBefore g offset cs := by
  induction cs generalizing offset with
  | nil => rfl
  | cons c cs ih =>
    have hpos := c.utf8Size_pos
    rw [byteLength_cons] at h
    rw [insertBefore_cons, insertBefore_cons, h offset (Nat.le_refl _) (by omega)]
    rw [ih fun o ho ho' => h o (by omega) (by omega)]

/-- To insert nothing changes nothing. -/
theorem insertBefore_nothing (offset : Nat) (cs : List Char) :
    insertBefore (fun _ => []) offset cs = cs := by
  induction cs generalizing offset with
  | nil => rfl
  | cons c cs ih => rw [insertBefore_cons, ih, List.nil_append]

/-- Where nothing is inserted, the text stays. -/
theorem insertBefore_of_nil {added : Nat → List Char} {offset : Nat} {cs : List Char}
    (h : ∀ o, offset ≤ o → o < offset + byteLength cs → added o = []) :
    insertBefore added offset cs = cs := by
  rw [insertBefore_congr h, insertBefore_nothing]

/-! ## Where lines begin -/

/-- The offset at which the line with index `i` begins. -/
def lineStart (ls : List (List Char)) (i : Nat) : Nat :=
  byteLength (ls.take i).flatten

/-- A line begins where the one before it ends. -/
theorem lineStart_succ {ls : List (List Char)} {i : Nat} (h : i < ls.length) :
    lineStart ls (i + 1) = lineStart ls i + byteLength ls[i] := by
  unfold lineStart
  rw [List.take_add_one, List.getElem?_eq_getElem h, List.flatten_append, byteLength_append]
  simp

/-- Later lines begin later. Induction on the later index. -/
theorem lineStart_mono {ls : List (List Char)} {i j : Nat} (hle : i ≤ j) (hj : j ≤ ls.length) :
    lineStart ls i ≤ lineStart ls j := by
  induction j with
  | zero =>
    have hi : i = 0 := by omega
    subst hi
    exact Nat.le_refl _
  | succ j ih =>
    rcases Nat.lt_or_ge j i with hij | hij
    · have hi : i = j + 1 := by omega
      subst hi
      exact Nat.le_refl _
    · -- one more line in front moves the start by its length
      rw [lineStart_succ (by omega)]
      have := ih hij (by omega)
      omega

/-- The lines do not overlap: an offset inside one of them tells which one it is. -/
theorem line_unique {ls : List (List Char)} {i j o : Nat} (hi : i < ls.length)
    (hj : j < ls.length) (hi₁ : lineStart ls i ≤ o) (hi₂ : o < lineStart ls i + byteLength ls[i])
    (hj₁ : lineStart ls j ≤ o) (hj₂ : o < lineStart ls j + byteLength ls[j]) : i = j := by
  -- the line that begins earlier ends where the other one begins, or before it
  rw [← lineStart_succ hi] at hi₂
  rw [← lineStart_succ hj] at hj₂
  rcases Nat.lt_trichotomy i j with hlt | heq | hgt
  · have hle := lineStart_mono (show i + 1 ≤ j by omega) (Nat.le_of_lt hj)
    omega
  · exact heq
  · have hle := lineStart_mono (show j + 1 ≤ i by omega) (Nat.le_of_lt hi)
    omega

/-- What follows an offset of a line follows the corresponding offset of the whole text. -/
theorem FollowsAt.of_line {cs back : List Char} {i n : Nat} (hi : i < (lines cs).length)
    (h : FollowsAt n (lines cs)[i] back) :
    ∃ rest, FollowsAt (lineStart (lines cs) i + n) cs (back ++ rest) := by
  refine ⟨((lines cs).drop (i + 1)).flatten, ?_⟩
  -- the lines before and after this one are put around it
  have hcut := (h.append ((lines cs).drop (i + 1)).flatten).prepend ((lines cs).take i).flatten
  rwa [← List.flatten_cons, ← List.drop_eq_getElem_cons hi, ← List.flatten_append,
    List.take_append_drop, flatten_lines] at hcut

/-- Insertions may be made line by line, where `g` treats one line with its number. Induction on the
lines; the offset of the first line moves along. -/
theorem insertBefore_flatten {added : Nat → List Char} {g : List Char × Nat → List Char}
    {ls : List (List Char)} {offset number : Nat}
    (h : ∀ i, ∀ hi : i < ls.length,
      g (ls[i], number + i) = insertBefore added (offset + lineStart ls i) ls[i]) :
    (ls.zipIdx number).flatMap g = insertBefore added offset ls.flatten := by
  induction ls generalizing offset number with
  | nil => rfl
  | cons line ls ih =>
    have hfirst : g (line, number) = insertBefore added offset line :=
      h 0 (Nat.zero_lt_succ ls.length)
    have hrest : (ls.zipIdx (number + 1)).flatMap g
        = insertBefore added (offset + byteLength line) ls.flatten := by
      apply ih
      intro i hi
      -- the rest of the lines begins where the first one ends
      have hnext := h (i + 1) (Nat.succ_lt_succ hi)
      have hstart : lineStart (line :: ls) (i + 1) = byteLength line + lineStart ls i :=
        byteLength_append line (ls.take i).flatten
      rw [hstart, List.getElem_cons_succ] at hnext
      rw [Nat.add_assoc number 1 i, Nat.add_comm 1 i, Nat.add_assoc offset]
      exact hnext
    rw [List.zipIdx_cons, List.flatMap_cons, hfirst, hrest, List.flatten_cons, insertBefore_append]

end TemplateCoverage.Text
