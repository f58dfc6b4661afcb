import Mathlib.Data.List.TakeWhile
import TemplateCoverage.Text.Blank

/-!
# What is left of a text

Cutting characters of a kind off the ends of a text leaves the part between them. This module says which
part that is, without cutting: `dropEndWhile_eq_iff` for one end, `trim_eq_iff` for white space at both.
-/

namespace TemplateCoverage.Text

/-- Where characters of a kind are followed by one of another kind, a text can be cut in only one way. -/
theorem append_inj_of_head {p : Char → Bool} {front front' back back' : List Char}
    (hfront : ∀ c ∈ front, p c) (hfront' : ∀ c ∈ front', p c)
    (hback : ∀ c ∈ back.head?, p c = false) (hback' : ∀ c ∈ back'.head?, p c = false)
    (h : front ++ back = front' ++ back') : front = front' ∧ back = back' := by
  -- the front is as long as the test holds, so it can be read from the whole
  have hcut : ∀ {front back : List Char}, (∀ c ∈ front, p c) → (∀ c ∈ back.head?, p c = false) →
      (front ++ back).takeWhile p = front := by
    intro front back hfront hback
    rw [List.takeWhile_append_of_pos hfront]
    cases back with
    | nil => simp
    | cons c cs => simp [hback c rfl]
  have hsame : front = front' := by rw [← hcut hfront hback, h, hcut hfront' hback']
  subst hsame
  exact ⟨rfl, List.append_cancel_left h⟩

/-! ## The end of a text -/

/-- The last character that is left is of another kind. -/
theorem getLast?_dropEndWhile (p : Char → Bool) (cs : List Char) :
    ∀ c ∈ (dropEndWhile p cs).getLast?, p c = false := by
  induction cs with
  | nil => exact fun c hc => nomatch hc
  | cons d cs ih =>
    unfold dropEndWhile
    split
    · split
      · exact fun c hc => nomatch hc
      · next hd => exact fun c hc => by cases hc; simpa using hd
    · next kept hkept =>
      -- if something is kept behind the first character, the last one is the same
      cases hcs : dropEndWhile p cs with
      | nil => exact absurd hcs hkept
      | cons e es =>
        rw [hcs] at ih
        rw [List.getLast?_cons_cons]
        exact ih

/-- What is left is followed by characters of the kind only, and does not end with one. -/
theorem dropEndWhile_eq_iff {p : Char → Bool} {cs core : List Char} :
    dropEndWhile p cs = core
      ↔ (∃ tail, cs = core ++ tail ∧ ∀ c ∈ tail, p c) ∧ ∀ c ∈ core.getLast?, p c = false := by
  constructor
  · rintro rfl
    exact ⟨exists_append_of_dropEndWhile p cs, getLast?_dropEndWhile p cs⟩
  · rintro ⟨⟨tail, hcs, htail⟩, hlast⟩
    obtain ⟨tail', hcs', htail'⟩ := exists_append_of_dropEndWhile p cs
    have hlast' := getLast?_dropEndWhile p cs
    -- seen from the end, both cuts are where the kind changes
    have hrev : tail'.reverse ++ (dropEndWhile p cs).reverse = tail.reverse ++ core.reverse := by
      rw [← List.reverse_append, ← List.reverse_append, ← hcs', hcs]
    rw [← List.head?_reverse] at hlast hlast'
    have hsame := (append_inj_of_head (fun c hc => htail' c (List.mem_reverse.mp hc))
      (fun c hc => htail c (List.mem_reverse.mp hc)) hlast' hlast hrev).2
    exact List.reverse_inj.mp hsame

/-! ## White space at both ends -/

/-- Leading blanks are dropped. -/
theorem trimStart_append {blanks cs : List Char} (hblanks : ∀ c ∈ blanks, isBlank c)
    (hcs : ∀ c ∈ cs.head?, isBlank c = false) : trimStart (blanks ++ cs) = cs := by
  unfold trimStart
  rw [List.dropWhile_append_of_pos hblanks]
  cases cs with
  | nil => rfl
  | cons c cs => simp [hcs c rfl]

/-- Only blanks are taken away. -/
theorem exists_trimStart (cs : List Char) :
    ∃ blanks, cs = blanks ++ trimStart cs ∧ ∀ c ∈ blanks, isBlank c :=
  ⟨cs.takeWhile isBlank, List.takeWhile_append_dropWhile.symm,
    fun _ hc => List.mem_takeWhile_imp hc⟩

/-- What is left begins with something visible. -/
theorem head?_trimStart (cs : List Char) : ∀ c ∈ (trimStart cs).head?, isBlank c = false := by
  intro c hc
  have hnot := List.head?_dropWhile_not isBlank cs
  unfold trimStart at hc
  rw [Option.mem_def] at hc
  rw [hc] at hnot
  simpa using hnot

/-- The part of a text without the white space at both ends. -/
structure Trimmed (cs core : List Char) : Prop where
  around : ∃ front back, cs = front ++ (core ++ back) ∧ (∀ c ∈ front, isBlank c)
    ∧ ∀ c ∈ back, isBlank c
  first : ∀ c ∈ core.head?, isBlank c = false
  last : ∀ c ∈ core.getLast?, isBlank c = false

theorem trim_eq_iff {cs core : List Char} : trim cs = core ↔ Trimmed cs core := by
  unfold trim trimEnd
  constructor
  · intro h
    obtain ⟨⟨back, hback, hblank⟩, hlast⟩ := dropEndWhile_eq_iff.mp h
    obtain ⟨front, hfront, hblank'⟩ := exists_trimStart cs
    refine ⟨⟨front, back, hfront.trans (by rw [hback]), hblank', hblank⟩, ?_, hlast⟩
    -- what is left begins where the text without leading blanks does
    intro c hc
    refine head?_trimStart cs c ?_
    obtain ⟨tail, rfl⟩ := List.head?_eq_some_iff.mp hc
    rw [hback]
    rfl
  · rintro ⟨⟨front, back, rfl, hfront, hback⟩, hfirst, hlast⟩
    refine dropEndWhile_eq_iff.mpr ⟨?_, hlast⟩
    cases core with
    | nil =>
      have hall : ∀ c ∈ front ++ ([] ++ back), isBlank c := by
        intro c hc
        rcases List.mem_append.mp hc with hc | hc
        · exact hfront c hc
        · exact hback c hc
      refine ⟨[], ?_, fun c hc => absurd hc List.not_mem_nil⟩
      rw [← List.append_nil (front ++ _), trimStart_append hall (by simp)]
      rfl
    | cons d ds => exact ⟨back, trimStart_append hfront hfirst, hback⟩

/-- Nothing is left of a text exactly if there is only white space in it. -/
theorem trim_eq_nil_iff {cs : List Char} : trim cs = [] ↔ ∀ c ∈ cs, isBlank c := by
  rw [trim_eq_iff]
  constructor
  · rintro ⟨⟨front, back, rfl, hfront, hback⟩, -, -⟩
    exact List.forall_mem_append.mpr ⟨hfront, hback⟩
  · intro h
    exact ⟨⟨cs, [], (List.append_nil cs).symm, h, nofun⟩, nofun, nofun⟩

end TemplateCoverage.Text
