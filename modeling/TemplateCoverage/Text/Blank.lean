/-!
# White space

The characters with the Unicode property White_Space, and cutting them off the ends of a text.
-/

namespace TemplateCoverage.Text

/-- The characters that separate words and may surround a token. -/
def isBlank (c : Char) : Bool :=
  (0x09 ≤ c.toNat && c.toNat ≤ 0x0D) || c.toNat == 0x20 || c.toNat == 0x85 || c.toNat == 0xA0
    || c.toNat == 0x1680 || (0x2000 ≤ c.toNat && c.toNat ≤ 0x200A) || c.toNat == 0x2028
    || c.toNat == 0x2029 || c.toNat == 0x202F || c.toNat == 0x205F || c.toNat == 0x3000

/-- The text without its trailing run of characters that satisfy `p`. -/
def dropEndWhile (p : Char → Bool) : List Char → List Char
  | [] => []
  | c :: cs =>
    match dropEndWhile p cs with
    | [] => if p c then [] else [c]
    | kept => c :: kept

/-- The text without leading white space. -/
def trimStart (cs : List Char) : List Char :=
  cs.dropWhile isBlank

/-- The text without trailing white space. -/
def trimEnd (cs : List Char) : List Char :=
  dropEndWhile isBlank cs

/-- The text without white space at either end. -/
def trim (cs : List Char) : List Char :=
  trimEnd (trimStart cs)

/-- Whether the text holds white space only. -/
def allBlank (cs : List Char) : Bool :=
  cs.all isBlank

/-- What `dropEndWhile` removes satisfies `p` throughout. -/
theorem exists_append_of_dropEndWhile (p : Char → Bool) (cs : List Char) :
    ∃ tail, cs = dropEndWhile p cs ++ tail ∧ ∀ c ∈ tail, p c := by
  induction cs with
  | nil => exact ⟨[], rfl, by simp⟩
  | cons c cs ih =>
    obtain ⟨tail, hcs, htail⟩ := ih
    unfold dropEndWhile
    split
    · next hnil =>
      rw [hnil] at hcs
      by_cases hc : p c
      · exact ⟨c :: tail, by simp [hc, hcs], by simpa [hc] using htail⟩
      · exact ⟨tail, by simp [hc, hcs], htail⟩
    · next => exact ⟨tail, by simp [← hcs], htail⟩

end TemplateCoverage.Text
