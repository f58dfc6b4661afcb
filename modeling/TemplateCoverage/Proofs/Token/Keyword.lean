import TemplateCoverage.Proofs.Text.Trim
import TemplateCoverage.Token.Line

/-!
# Keywords at the head of an action

A control action begins with opening braces, perhaps the trim marker, perhaps blanks, and a keyword that
ends where a word ends. This module says what that is without reading anything:

* **`Keyword.Spelled`**: how a keyword is written. `else if` and `else with` have blanks in the middle.
* **`Keyword.Begins`**: the keyword that a text begins with. `else` counts only where no longer keyword
  can be read. There is at most one (`Begins.unique`), and the reader finds it
  (`Keyword.read?_eq_some_iff`).
* **`HeadOf`**: the head of an action, which is what the reader of heads finds
  (`ActionHead.read?_eq_some_iff`).
-/

namespace TemplateCoverage

open Text

namespace Text

/-! ## Word boundaries -/

/-- A word boundary lies between two texts: on exactly one side of it there is a word character. -/
def WordBoundary (front back : List Char) : Prop :=
  front.getLast?.any isWordChar ≠ back.head?.any isWordChar

/-- Behind a word character, a boundary is the end of the word. -/
theorem boundary_iff_atWordEnd {front back : List Char}
    (hlast : front.getLast?.any isWordChar = true) :
    WordBoundary front back ↔ atWordEnd back = true := by
  unfold WordBoundary atWordEnd
  rw [hlast]
  cases back with
  | nil => simp
  | cons c cs => cases hc : isWordChar c <;> simp [hc]

theorem atWordEnd_iff {back : List Char} :
    atWordEnd back = true ↔ ∀ c ∈ back.head?, isWordChar c = false := by
  cases back <;> simp [atWordEnd]

/-- The codes of the blanks. -/
def blankCodes : List Nat :=
  [0x09, 0x0A, 0x0B, 0x0C, 0x0D, 0x20, 0x85, 0xA0, 0x1680, 0x2000, 0x2001, 0x2002, 0x2003, 0x2004,
    0x2005, 0x2006, 0x2007, 0x2008, 0x2009, 0x200A, 0x2028, 0x2029, 0x202F, 0x205F, 0x3000]

/-- No blank belongs to a word. -/
theorem isWordChar_of_isBlank {c : Char} (h : isBlank c = true) : isWordChar c = false := by
  have hcodes : ∀ n ∈ blankCodes, isWordChar (Char.ofNat n) = false := by decide +kernel
  have hmem : c.toNat ∈ blankCodes := by
    simp only [isBlank, Bool.or_eq_true, Bool.and_eq_true, decide_eq_true_eq, beq_iff_eq] at h
    simp only [blankCodes, List.mem_cons, List.not_mem_nil, or_false]
    omega
  have hc := hcodes _ hmem
  rwa [Char.ofNat_toNat] at hc

end Text

namespace Keyword

/-! ## Keywords -/

/-- The keywords of one word, in the order in which they are tried. -/
def single : List (Keyword × String) :=
  [(.elseAlone, "else"), (.opener .ifBlock, "if"), (.opener .withBlock, "with"),
   (.opener .rangeBlock, "range"), (.finish, "end"), (.named, "define"), (.named, "block")]

/-- The words that may follow `else`. -/
def continuations : List String :=
  ["if", "with"]

/-- How a keyword is written. -/
inductive Spelled : Keyword → List Char → Prop where
  | single {keyword : Keyword} {word : String} (hword : (keyword, word) ∈ single) :
      Spelled keyword word.toList
  | elseIf {gap : List Char} {word : String} (hword : word ∈ continuations) (hne : gap ≠ [])
      (hgap : ∀ c ∈ gap, isBlank c) : Spelled .elseIf ("else".toList ++ gap ++ word.toList)

/-- The text begins with the keyword, which is a whole word there. -/
def WholeWord (keyword : Keyword) (cs rest : List Char) : Prop :=
  ∃ word, keyword.Spelled word ∧ cs = word ++ rest ∧ WordBoundary word rest

/-- The keyword that the text begins with: `else` is one only where `else if` and `else with` are
none. -/
structure Begins (keyword : Keyword) (cs rest : List Char) : Prop where
  wholeWord : keyword.WholeWord cs rest
  preferred : keyword = .elseAlone → ∀ rest', ¬Keyword.elseIf.WholeWord cs rest'

/-- The words that keywords are made of consist of word characters, none of which is a blank. -/
structure IsWord (word : String) : Prop where
  ne_nil : word.toList ≠ []
  chars : ∀ c ∈ word.toList, isWordChar c = true
  noBlank : ∀ c ∈ word.toList, isBlank c = false

theorem isWord_of_mem_single {keyword : Keyword} {word : String} (h : (keyword, word) ∈ single) :
    IsWord word := by
  have hall : (single.map (·.2.toList)).all
      (fun word => !word.isEmpty && word.all fun c => isWordChar c && !isBlank c) = true := by
    decide
  have hword := List.all_eq_true.mp hall _ (List.mem_map_of_mem h)
  rw [Bool.and_eq_true, Bool.not_eq_true', List.isEmpty_eq_false_iff, List.all_eq_true] at hword
  obtain ⟨hne, hchars⟩ := hword
  simp only [Bool.and_eq_true, Bool.not_eq_true'] at hchars
  exact ⟨hne, fun c hc => (hchars c hc).1, fun c hc => (hchars c hc).2⟩

theorem isWord_of_mem_continuations {word : String} (h : word ∈ continuations) : IsWord word := by
  have hall : ∀ word ∈ continuations, ∃ entry ∈ single, entry.2 = word := by decide
  obtain ⟨⟨keyword, _⟩, hmem, rfl⟩ := hall word h
  exact isWord_of_mem_single hmem

theorem isWord_else : IsWord "else" :=
  isWord_of_mem_single (show (.elseAlone, "else") ∈ single by decide)

theorem IsWord.head_noBlank {word : String} (h : IsWord word) (rest : List Char) :
    ∀ c ∈ (word.toList ++ rest).head?, isBlank c = false := by
  obtain ⟨c, cs, hcs⟩ := List.exists_cons_of_ne_nil h.ne_nil
  have hblank := h.noBlank
  rw [hcs] at hblank ⊢
  exact fun d hd => Option.some.inj hd ▸ hblank c (List.mem_cons_self ..)

/-- Behind a text that ends with a word, a boundary is the end of the word. -/
theorem IsWord.boundary_iff {word : String} (h : IsWord word) (front back : List Char) :
    WordBoundary (front ++ word.toList) back ↔ atWordEnd back = true := by
  refine boundary_iff_atWordEnd ?_
  rw [List.getLast?_append, List.getLast?_eq_some_getLast h.ne_nil]
  exact h.chars _ (List.getLast_mem h.ne_nil)

/-- A keyword is one word, or `else` and another one with blanks between them. -/
theorem wholeWord_iff {keyword : Keyword} {cs rest : List Char} :
    keyword.WholeWord cs rest
      ↔ atWordEnd rest = true
        ∧ ((∃ word, (keyword, word) ∈ single ∧ cs = word.toList ++ rest)
          ∨ keyword = .elseIf ∧ ∃ word ∈ continuations, ∃ gap, gap ≠ []
            ∧ (∀ c ∈ gap, isBlank c) ∧ cs = "else".toList ++ (gap ++ (word.toList ++ rest))) := by
  constructor
  · -- whether a word ends at a boundary can be seen from what follows it
    rintro ⟨_, hspelled, rfl, hboundary⟩
    cases hspelled with
    | @single _ word hword =>
      have hend := ((isWord_of_mem_single hword).boundary_iff [] rest).mp hboundary
      exact ⟨hend, .inl ⟨word, hword, rfl⟩⟩
    | @elseIf gap word hword hne hgap =>
      have hend := ((isWord_of_mem_continuations hword).boundary_iff _ rest).mp hboundary
      refine ⟨hend, .inr ⟨rfl, word, hword, gap, hne, hgap, ?_⟩⟩
      rw [List.append_assoc, List.append_assoc]
  · rintro ⟨hend, ⟨word, hword, rfl⟩ | ⟨rfl, word, hword, gap, hne, hgap, rfl⟩⟩
    · exact ⟨_, .single hword, rfl, ((isWord_of_mem_single hword).boundary_iff [] rest).mpr hend⟩
    · refine ⟨_, .elseIf hword hne hgap, ?_,
        ((isWord_of_mem_continuations hword).boundary_iff _ rest).mpr hend⟩
      rw [List.append_assoc, List.append_assoc]

/-- Behind `else`, blanks end the word. -/
theorem head_gap {gap rest : List Char} (hne : gap ≠ []) (hgap : ∀ c ∈ gap, isBlank c) :
    ∀ c ∈ (gap ++ rest).head?, isWordChar c = false := by
  obtain ⟨c, cs, rfl⟩ := List.exists_cons_of_ne_nil hne
  exact fun d hd => Option.some.inj hd ▸ isWordChar_of_isBlank (hgap c (List.mem_cons_self ..))

/-- **A text begins with one keyword at most.** A word ends where its word characters end, and the blanks
behind `else` end where the next word begins. -/
theorem Begins.unique {keyword keyword' : Keyword} {cs rest rest' : List Char}
    (h : keyword.Begins cs rest) (h' : keyword'.Begins cs rest') :
    keyword = keyword' ∧ rest = rest' := by
  have hsingle : ∀ entry ∈ single, ∀ entry' ∈ single, entry.2 = entry'.2 → entry.1 = entry'.1 := by
    decide
  obtain ⟨hend, hcs⟩ := wholeWord_iff.mp h.wholeWord
  obtain ⟨hend', hcs'⟩ := wholeWord_iff.mp h'.wholeWord
  rw [atWordEnd_iff] at hend hend'
  -- where one of them is `else` alone, the other one cannot go on
  have hmixed : ∀ {keyword rest word gap back}, keyword.Begins cs rest → (keyword, word) ∈ single →
      cs = word.toList ++ rest → (∀ c ∈ rest.head?, isWordChar c = false) → gap ≠ [] →
      (∀ c ∈ gap, isBlank c) → cs = "else".toList ++ (gap ++ back) →
      ¬∃ rest', Keyword.elseIf.WholeWord cs rest' := by
    rintro keyword rest word gap back hbegins hword hword_cs hend hne hgap hgap_cs ⟨rest', hlong⟩
    have hsame := (append_inj_of_head (isWord_of_mem_single hword).chars isWord_else.chars hend
      (head_gap hne hgap) (hword_cs.symm.trans hgap_cs)).1
    have helse : keyword = .elseAlone :=
      hsingle _ hword (.elseAlone, "else") (by decide) (String.toList_injective hsame)
    exact hbegins.preferred helse rest' hlong
  rcases hcs with ⟨word, hword, hcs⟩ | ⟨rfl, word, hword, gap, hne, hgap, hcs⟩
  · rcases hcs' with ⟨word', hword', hcs'⟩ | ⟨rfl, word', hword', gap', hne', hgap', hcs'⟩
    · obtain ⟨hsame, hrest⟩ := append_inj_of_head (isWord_of_mem_single hword).chars
        (isWord_of_mem_single hword').chars hend hend' (hcs.symm.trans hcs')
      exact ⟨hsingle _ hword _ hword' (String.toList_injective hsame), hrest⟩
    · exact absurd ⟨rest', h'.wholeWord⟩ (hmixed h hword hcs hend hne' hgap' hcs')
  · rcases hcs' with ⟨word', hword', hcs'⟩ | ⟨rfl, word', hword', gap', hne', hgap', hcs'⟩
    · exact absurd ⟨rest, h.wholeWord⟩ (hmixed h' hword' hcs' hend' hne hgap hcs)
    · have hbehind := List.append_cancel_left (hcs.symm.trans hcs')
      have hisWord := isWord_of_mem_continuations hword
      have hisWord' := isWord_of_mem_continuations hword'
      obtain ⟨-, hwords⟩ := append_inj_of_head hgap hgap' (hisWord.head_noBlank rest)
        (hisWord'.head_noBlank rest') hbehind
      exact ⟨rfl, (append_inj_of_head hisWord.chars hisWord'.chars hend hend' hwords).2⟩

/-! ## Readers of keywords -/

theorem word?_eq_some_iff {word : String} {cs rest : List Char} :
    word? word cs = some rest ↔ cs = word.toList ++ rest ∧ atWordEnd rest = true := by
  unfold word?
  rw [Option.filter_eq_some_iff, after?_eq_some_iff]

theorem twoWords?_eq_some_iff {front back : String} (hback : IsWord back) {cs rest : List Char} :
    twoWords? front back cs = some rest
      ↔ atWordEnd rest = true ∧ ∃ gap, gap ≠ [] ∧ (∀ c ∈ gap, isBlank c)
        ∧ cs = front.toList ++ (gap ++ (back.toList ++ rest)) := by
  have hcut : ∀ {gap : List Char}, (∀ c ∈ gap, isBlank c) →
      trimStart (gap ++ (back.toList ++ rest)) = back.toList ++ rest := fun hgap =>
    trimStart_append hgap (hback.head_noBlank rest)
  unfold twoWords?
  constructor
  · intro h
    split at h
    · cases h
    · next behind hbehind =>
      split at h
      · next hhead =>
        obtain ⟨htrim, hend⟩ := word?_eq_some_iff.mp h
        obtain ⟨gap, hgap, hblank⟩ := exists_trimStart behind
        refine ⟨hend, gap, ?_, hblank, ?_⟩
        · -- the first blank is dropped
          rintro rfl
          rw [htrim, List.nil_append] at hgap
          rw [hgap] at hhead
          obtain ⟨c, hc, hisBlank⟩ := (Option.any_eq_true _ _).mp hhead
          rw [hback.head_noBlank rest c hc] at hisBlank
          cases hisBlank
        · rw [after?_eq_some_iff.mp hbehind, ← htrim, ← hgap]
      · cases h
  · rintro ⟨hend, gap, hne, hblank, rfl⟩
    rw [after?_eq_some_iff.mpr rfl]
    dsimp only
    obtain ⟨c, cs, rfl⟩ := List.exists_cons_of_ne_nil hne
    rw [if_pos (by simpa using hblank c (List.mem_cons_self ..)), hcut hblank]
    exact word?_eq_some_iff.mpr ⟨rfl, hend⟩

/-- The readers stand in the order of preference. -/
theorem readers_eq : readers
    = continuations.map (fun word => (.elseIf, twoWords? "else" word))
      ++ single.map fun entry => (entry.1, word? entry.2) := rfl

/-- A keyword is a whole word exactly if one of its readers reads it. -/
theorem wholeWord_iff_reader {keyword : Keyword} {cs rest : List Char} :
    keyword.WholeWord cs rest ↔ ∃ reader, (keyword, reader) ∈ readers ∧ reader cs = some rest := by
  rw [wholeWord_iff, readers_eq]
  constructor
  · rintro ⟨hend, ⟨word, hword, hcs⟩ | ⟨rfl, word, hword, gap, hne, hgap, hcs⟩⟩
    · exact ⟨word? word, List.mem_append_right _ (List.mem_map_of_mem hword),
        word?_eq_some_iff.mpr ⟨hcs, hend⟩⟩
    · exact ⟨twoWords? "else" word, List.mem_append_left _ (List.mem_map_of_mem hword),
        (twoWords?_eq_some_iff (isWord_of_mem_continuations hword)).mpr
          ⟨hend, gap, hne, hgap, hcs⟩⟩
  · -- every reader is that of one word or of two
    rintro ⟨reader, hmem, hread⟩
    rcases List.mem_append.mp hmem with hmem | hmem
    · obtain ⟨word, hword, heq⟩ := List.mem_map.mp hmem
      cases heq
      obtain ⟨hend, gap, hne, hgap, hcs⟩ :=
        (twoWords?_eq_some_iff (isWord_of_mem_continuations hword)).mp hread
      exact ⟨hend, .inr ⟨rfl, word, hword, gap, hne, hgap, hcs⟩⟩
    · obtain ⟨⟨_, word⟩, hword, heq⟩ := List.mem_map.mp hmem
      cases heq
      obtain ⟨hcs, hend⟩ := word?_eq_some_iff.mp hread
      exact ⟨hend, .inl ⟨word, hword, hcs⟩⟩

/-- If one of some readers succeeds, then something is read, by one of them. -/
theorem exists_findSome?_eq {entries : List (Keyword × (List Char → Option (List Char)))}
    {keyword : Keyword} {reader : List Char → Option (List Char)} {cs rest : List Char}
    (hmem : (keyword, reader) ∈ entries) (hread : reader cs = some rest) :
    ∃ entry ∈ entries, ∃ rest',
      entries.findSome? (fun (keyword, reader) => (reader cs).map fun rest => (keyword, rest))
        = some (entry.1, rest') := by
  have hsome : (entries.findSome? fun (keyword, reader) =>
      (reader cs).map fun rest => (keyword, rest)).isSome = true :=
    List.findSome?_isSome_iff.mpr ⟨(keyword, reader), hmem, by simp [hread]⟩
  -- some reader succeeds, so the first one that does is found
  obtain ⟨_, hfound⟩ := Option.isSome_iff_exists.mp hsome
  obtain ⟨entry, hentry, hmap⟩ := List.exists_of_findSome?_eq_some hfound
  obtain ⟨rest', -, rfl⟩ := Option.map_eq_some_iff.mp hmap
  exact ⟨entry, hentry, rest', hfound⟩

/-- If `else if` or `else with` can be read, nothing else is. -/
theorem read?_of_elseIf {cs rest : List Char} (h : Keyword.elseIf.WholeWord cs rest) :
    ∃ rest', read? cs = some (.elseIf, rest') := by
  obtain ⟨hend, ⟨word, hword, -⟩ | ⟨-, word, hword, gap, hne, hgap, hcs⟩⟩ := wholeWord_iff.mp h
  · have hnone : ∀ entry ∈ single, entry.1 ≠ .elseIf := by decide
    exact absurd rfl (hnone _ hword)
  · have hread := (twoWords?_eq_some_iff (isWord_of_mem_continuations hword)).mpr
      ⟨hend, gap, hne, hgap, hcs⟩
    -- one of the first readers succeeds, and all of these stand for the same keyword
    obtain ⟨entry, hentry, rest', hfound⟩ := exists_findSome?_eq
      (List.mem_map_of_mem (f := fun word => (Keyword.elseIf, twoWords? "else" word)) hword) hread
    obtain ⟨word', -, rfl⟩ := List.mem_map.mp hentry
    refine ⟨rest', ?_⟩
    unfold read?
    rw [readers_eq, List.findSome?_append, hfound]
    rfl

/-- **The keyword that is read is the one that the text begins with.** -/
theorem read?_eq_some_iff {keyword : Keyword} {cs rest : List Char} :
    read? cs = some (keyword, rest) ↔ keyword.Begins cs rest := by
  -- what is read begins the text, and the longer keyword is tried first
  have hsound : ∀ {keyword rest}, read? cs = some (keyword, rest) → keyword.Begins cs rest := by
    intro keyword rest h
    obtain ⟨⟨_, reader⟩, hmem, hread⟩ := List.exists_of_findSome?_eq_some h
    obtain ⟨_, hread, heq⟩ := Option.map_eq_some_iff.mp hread
    cases heq
    refine ⟨wholeWord_iff_reader.mpr ⟨reader, hmem, hread⟩, fun helse rest' hlong => ?_⟩
    obtain ⟨_, hfirst⟩ := read?_of_elseIf hlong
    rw [h, helse] at hfirst
    cases hfirst
  refine ⟨hsound, fun h => ?_⟩
  obtain ⟨reader, hmem, hread⟩ := wholeWord_iff_reader.mp h.wholeWord
  obtain ⟨entry, -, rest', hfound⟩ := exists_findSome?_eq hmem hread
  have hfound : read? cs = some (entry.1, rest') := hfound
  -- something is read, and it can only be this keyword
  obtain ⟨hkeyword, rfl⟩ := h.unique (hsound hfound)
  rw [hfound, hkeyword]

/-- A keyword begins with a word character. -/
theorem Begins.exists_cons {keyword : Keyword} {cs rest : List Char} (h : keyword.Begins cs rest) :
    ∃ c tail, cs = c :: tail ∧ isWordChar c = true := by
  have hhead : ∀ {word : String} (tail : List Char), IsWord word →
      ∃ c tail', word.toList ++ tail = c :: tail' ∧ isWordChar c = true := by
    intro word tail hword
    obtain ⟨c, cs, hcs⟩ := List.exists_cons_of_ne_nil hword.ne_nil
    exact ⟨c, cs ++ tail, by rw [hcs]; rfl, hword.chars c (hcs ▸ List.mem_cons_self ..)⟩
  rcases (wholeWord_iff.mp h.wholeWord).2 with ⟨word, hword, rfl⟩ | ⟨-, word, -, gap, -, -, rfl⟩
  · exact hhead rest (isWord_of_mem_single hword)
  · exact hhead _ isWord_else

end Keyword

/-! ## Heads of actions -/

/-- The text begins with opening braces, the trim marker if `trim` says so, blanks, and the keyword;
`rest` is what follows the keyword. -/
def HeadOf (cs : List Char) (trim : Bool) (keyword : Keyword) (rest : List Char) : Prop :=
  ∃ blanks inner, cs = '{' :: '{' :: ((if trim then ['-'] else []) ++ (blanks ++ inner))
    ∧ (∀ c ∈ blanks, isBlank c) ∧ keyword.Begins inner rest

/-- Blanks and a keyword are read behind opening braces. -/
theorem map_read?_trimStart_iff {cs rest : List Char} {keyword : Keyword} :
    Keyword.read? (trimStart cs) = some (keyword, rest)
      ↔ ∃ blanks inner, cs = blanks ++ inner ∧ (∀ c ∈ blanks, isBlank c)
        ∧ keyword.Begins inner rest := by
  constructor
  · intro h
    obtain ⟨blanks, hcs, hblanks⟩ := exists_trimStart cs
    exact ⟨blanks, trimStart cs, hcs, hblanks, Keyword.read?_eq_some_iff.mp h⟩
  · -- a keyword does not begin with a blank, so all blanks in front are skipped
    rintro ⟨blanks, inner, rfl, hblanks, hbegins⟩
    obtain ⟨c, tail, rfl, hc⟩ := hbegins.exists_cons
    rw [trimStart_append hblanks, Keyword.read?_eq_some_iff]
    · exact hbegins
    · intro d hd
      cases hd
      by_contra hblank
      rw [isWordChar_of_isBlank (by simpa using hblank)] at hc
      cases hc

/-- Between the braces and a keyword, a dash is the trim marker. -/
theorem not_read?_dash (cs : List Char) : Keyword.read? (trimStart ('-' :: cs)) = none := rfl

/-- Without the marker, the keyword follows the braces. -/
theorem ActionHead.read?_plain {cs : List Char} (h : cs.head? ≠ some '-') :
    ActionHead.read? ('{' :: '{' :: cs)
      = (Keyword.read? (trimStart cs)).map fun (keyword, rest) => ⟨false, keyword, rest⟩ := by
  rw [ActionHead.read?.eq_2]
  rintro inner rfl
  exact h rfl

/-- **The head that is read is the one that the text begins with.** -/
theorem ActionHead.read?_eq_some_iff {cs : List Char} {head : ActionHead} :
    ActionHead.read? cs = some head ↔ HeadOf cs head.trimLeft head.keyword head.rest := by
  constructor
  · intro h
    unfold ActionHead.read? at h
    split at h
    · obtain ⟨⟨keyword, rest⟩, hread, rfl⟩ := Option.map_eq_some_iff.mp h
      obtain ⟨blanks, inner, rfl, hblanks, hbegins⟩ := map_read?_trimStart_iff.mp hread
      exact ⟨blanks, inner, rfl, hblanks, hbegins⟩
    · obtain ⟨⟨keyword, rest⟩, hread, rfl⟩ := Option.map_eq_some_iff.mp h
      obtain ⟨blanks, inner, rfl, hblanks, hbegins⟩ := map_read?_trimStart_iff.mp hread
      exact ⟨blanks, inner, rfl, hblanks, hbegins⟩
    · cases h
  · obtain ⟨trim, keyword, rest⟩ := head
    rintro ⟨blanks, inner, rfl, hblanks, hbegins⟩
    have hread := map_read?_trimStart_iff.mpr ⟨blanks, inner, rfl, hblanks, hbegins⟩
    cases trim with
    | true =>
      show (Keyword.read? (trimStart (blanks ++ inner))).map _ = _
      rw [hread]
      rfl
    | false =>
      have hplain : (blanks ++ inner).head? ≠ some '-' := by
        intro hdash
        -- the keyword would have to begin with the dash
        obtain ⟨tail, htail⟩ := List.head?_eq_some_iff.mp hdash
        rw [htail, not_read?_dash] at hread
        cases hread
      exact (read?_plain hplain).trans (by rw [hread, Option.map_some])

end TemplateCoverage
