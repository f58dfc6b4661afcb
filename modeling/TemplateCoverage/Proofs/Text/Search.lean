import TemplateCoverage.Text.Blank
import TemplateCoverage.Text.Search

/-!
# Where a mark is found

`cutAt?` finds the first occurrence of a mark (`cutAt?_eq_some_iff`). If the first character of the mark
does not come back in it, then no two occurrences overlap, so that a mark behind a text without one is
found there and not earlier (`cutAt?_append`).
-/

namespace TemplateCoverage.Text

/-- A text without the mark is not cut. Induction on the text. -/
theorem cutAt?_eq_none {mark cs : List Char} (h : ¬mark <:+: cs) : cutAt? mark cs = none := by
  -- a mark in front would be a mark in the text
  have hstart : after? mark cs = none := by
    rw [Option.eq_none_iff_forall_ne_some]
    intro back hback
    rw [after?_eq_some_iff] at hback
    exact h ⟨[], back, hback.symm⟩
  induction cs with
  | nil =>
    rw [cutAt?, hstart]
    rfl
  | cons c cs ih =>
    have hrest : cutAt? mark cs = none := by
      have hcs : ¬mark <:+: cs := fun hmark => h (List.infix_cons hmark)
      apply ih hcs
      rw [Option.eq_none_iff_forall_ne_some]
      intro back hback
      rw [after?_eq_some_iff] at hback
      exact hcs ⟨[], back, hback.symm⟩
    rw [cutAt?, hstart, hrest]
    rfl

/-- The first occurrence of a mark in a text, between the texts `front` and `back`. -/
structure FirstMark (mark cs front back : List Char) : Prop where
  around : cs = front ++ (mark ++ back)
  first : ∀ front' back', cs = front' ++ (mark ++ back') → front.length ≤ front'.length

/-- There is only one first mark. -/
theorem FirstMark.unique {mark cs front front' back back' : List Char}
    (h : FirstMark mark cs front back) (h' : FirstMark mark cs front' back') :
    front = front' ∧ back = back' := by
  have hlen : front.length = front'.length :=
    Nat.le_antisymm (h.first _ _ h'.around) (h'.first _ _ h.around)
  obtain ⟨hfront, hmark⟩ := List.append_inj (h.around.symm.trans h'.around) hlen
  exact ⟨hfront, List.append_cancel_left hmark⟩

/-- A mark at the beginning of a text is its first occurrence. -/
theorem FirstMark.of_after? {mark cs back : List Char} (h : after? mark cs = some back) :
    FirstMark mark cs [] back :=
  ⟨by rw [List.nil_append, after?_eq_some_iff.mp h], fun _ _ _ => Nat.zero_le _⟩

/-- Where the mark does not begin, its first occurrence is that in the rest of the text. -/
theorem FirstMark.cons {mark cs front back : List Char} {c : Char}
    (hnone : after? mark (c :: cs) = none) (h : FirstMark mark cs front back) :
    FirstMark mark (c :: cs) (c :: front) back := by
  refine ⟨by rw [h.around, List.cons_append], fun front' back' hcs => ?_⟩
  cases front' with
  | nil =>
    rw [List.nil_append] at hcs
    rw [after?_eq_some_iff.mpr hcs] at hnone
    cases hnone
  | cons d front' => exact Nat.succ_le_succ (h.first front' back' (List.cons.inj hcs).2)

/-- What is cut is the first occurrence. Induction on the text. -/
theorem firstMark_of_cutAt? {mark cs front back : List Char}
    (h : cutAt? mark cs = some (front, back)) : FirstMark mark cs front back := by
  induction cs generalizing front with
  | nil =>
    obtain ⟨_, hback, heq⟩ := Option.map_eq_some_iff.mp h
    cases heq
    exact .of_after? hback
  | cons c cs ih =>
    unfold cutAt? at h
    -- induction on the text: the mark is here, or it is not and the rest is searched
    split at h
    · next hback =>
      cases h
      exact .of_after? hback
    · next hnone =>
      obtain ⟨⟨front, _⟩, hcut, heq⟩ := Option.map_eq_some_iff.mp h
      cases heq
      exact (ih hcut).cons hnone

/-- A mark at the beginning is found there. -/
theorem cutAt?_of_after? {mark cs back : List Char} (h : after? mark cs = some back) :
    cutAt? mark cs = some ([], back) := by
  cases cs with
  | nil =>
    rw [cutAt?, h]
    rfl
  | cons c cs => rw [cutAt?, h]

/-- Nothing is found exactly if the mark is nowhere. -/
theorem cutAt?_eq_none_iff {mark cs : List Char} : cutAt? mark cs = none ↔ ¬mark <:+: cs := by
  refine ⟨?_, cutAt?_eq_none⟩
  rintro hnone ⟨front, back, rfl⟩
  induction front with
  | nil =>
    rw [List.nil_append, cutAt?_of_after? (after?_eq_some_iff.mpr rfl)] at hnone
    cases hnone
  | cons c front ih =>
    rw [List.cons_append, List.cons_append, cutAt?] at hnone
    split at hnone
    · cases hnone
    · exact ih (Option.map_eq_none_iff.mp hnone)

/-- **A text is cut around the first occurrence of the mark.** -/
theorem cutAt?_eq_some_iff {mark cs front back : List Char} :
    cutAt? mark cs = some (front, back) ↔ FirstMark mark cs front back := by
  refine ⟨firstMark_of_cutAt?, fun h => ?_⟩
  cases hcut : cutAt? mark cs with
  | none =>
    refine absurd ⟨front, back, ?_⟩ (cutAt?_eq_none_iff.mp hcut)
    rw [h.around, List.append_assoc]
  | some cut =>
    obtain ⟨rfl, rfl⟩ := h.unique (firstMark_of_cutAt? hcut)
    rfl

section Overlap

variable {first : Char} {later : List Char}

/-- Where a mark follows on a text without one, it does not begin any earlier. -/
theorem after?_eq_none (hlater : first ∉ later) {front : List Char} (hne : front ≠ [])
    (hfront : ¬first :: later <:+: front) (back : List Char) :
    after? (first :: later) (front ++ (first :: later ++ back)) = none := by
  rw [Option.eq_none_iff_forall_ne_some]
  intro rest hrest
  rw [after?_eq_some_iff] at hrest
  rcases List.append_eq_append_iff.mp hrest with ⟨mid, hmark, hback⟩ | ⟨mid, hmark, -⟩
  · -- the mark would begin in front of itself, so that its first character comes back in it
    obtain ⟨c, front, rfl⟩ := List.exists_cons_of_ne_nil hne
    cases mid with
    | nil =>
      rw [List.append_nil] at hmark
      exact hfront (hmark ▸ List.infix_rfl)
    | cons d mid =>
      obtain ⟨rfl, -⟩ := List.cons.inj hback
      obtain ⟨-, rfl⟩ := List.cons.inj hmark
      exact hlater (List.mem_append_right _ (List.mem_cons_self ..))
  · exact hfront ⟨[], mid, by rw [hmark]; rfl⟩

/-- A mark behind a text without one is found there. Induction on the text in front. -/
theorem cutAt?_append (hlater : first ∉ later) {front : List Char}
    (hfront : ¬first :: later <:+: front) (back : List Char) :
    cutAt? (first :: later) (front ++ (first :: later ++ back)) = some (front, back) := by
  induction front with
  | nil =>
    exact cutAt?_of_after? (after?_eq_some_iff.mpr rfl)
  | cons c front ih =>
    have hstart := after?_eq_none hlater (List.cons_ne_nil c front) hfront back
    rw [List.cons_append] at hstart ⊢
    rw [cutAt?, hstart, ih fun hmark => hfront (List.infix_cons hmark)]
    rfl

end Overlap

/-! ## White space at the ends -/

/-- A text that does not end with a blank is not trimmed there. -/
theorem dropEndWhile_append {p : Char → Bool} {c : Char} (h : p c = false) (cs : List Char) :
    dropEndWhile p (cs ++ [c]) = cs ++ [c] := by
  induction cs with
  | nil =>
    show dropEndWhile p [c] = [c]
    simp [dropEndWhile, h]
  | cons d cs ih =>
    rw [List.cons_append, dropEndWhile, ih]
    cases cs <;> rfl

/-- A text that neither begins nor ends with a blank is not trimmed. -/
theorem trim_eq {c d : Char} {cs ds : List Char} (hcs : c :: cs = ds ++ [d])
    (hc : isBlank c = false) (hd : isBlank d = false) : trim (c :: cs) = c :: cs := by
  have hstart : trimStart (c :: cs) = c :: cs := by
    unfold trimStart
    rw [List.dropWhile_cons, hc]
    rfl
  unfold trim
  rw [hstart, hcs]
  exact dropEndWhile_append hd ds

end TemplateCoverage.Text
