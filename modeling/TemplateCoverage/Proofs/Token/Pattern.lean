import Mathlib.Data.List.Forall2
import TemplateCoverage.Proofs.Token.Keyword

/-!
# The head of an action as a pattern

The head of an action can also be described by a pattern: braces, perhaps the dash, any number of blanks,
one of the keywords, and a word boundary. This module has the patterns that are needed for it and matches
them as a backtracking matcher does, which prefers the first alternative and the longest run.

* **`Pattern.readings`**: all the ways to match, in the order in which they are preferred.
* **`Pattern.search`**: the matches along a text, from left to right, where each one begins at the end of
  the one before it or behind that.
* **`head?_readings_head`**: the preferred match of the pattern is the head that the reader finds.
-/

namespace TemplateCoverage

open Text

/-- Patterns over the characters of a text. -/
inductive Pattern where
  /-- Nothing. -/
  | empty
  /-- One character of a class. -/
  | char (p : Char → Bool)
  /-- A word boundary. -/
  | boundary
  | seq (first next : Pattern)
  | either (preferred other : Pattern)
  /-- As many characters of a class as possible, or else fewer. -/
  | many (p : Char → Bool)
  /-- A part whose text is kept under a number. -/
  | group (label : Nat) (inner : Pattern)

/-- How far a match has come. -/
structure Cursor where
  /-- The text in front of the cursor, in reverse. -/
  before : List Char
  rest : List Char
  /-- The texts of the groups that have been matched. -/
  groups : List (Nat × List Char)

namespace Cursor

/-- Whether the cursor is at a word boundary. -/
def atBoundary (r : Cursor) : Bool :=
  r.before.head?.any isWordChar != r.rest.head?.any isWordChar

/-- The cursor at a later place, where `rest` follows. -/
def upTo (r : Cursor) (rest : List Char) : Cursor :=
  { r with
    before := (r.rest.take (r.rest.length - rest.length)).reverse ++ r.before
    rest := rest }

/-- The cursor with the text since `start` kept under a number. -/
def keep (r start : Cursor) (label : Nat) : Cursor :=
  let text := (r.before.take (r.before.length - start.before.length)).reverse
  { r with groups := (label, text) :: r.groups }

theorem upTo_eq {r : Cursor} {front rest : List Char} (h : r.rest = front ++ rest) :
    r.upTo rest = ⟨front.reverse ++ r.before, rest, r.groups⟩ := by
  unfold upTo
  rw [h, List.length_append, Nat.add_sub_cancel, List.take_left']
  rfl

/-- A place can be reached in two steps. -/
theorem upTo_upTo {r : Cursor} {front mid rest : List Char} (h : r.rest = front ++ (mid ++ rest)) :
    (r.upTo (mid ++ rest)).upTo rest = r.upTo rest := by
  have hmid : (r.upTo (mid ++ rest)).rest = mid ++ rest := by rw [upTo_eq h]
  have hrest : r.rest = (front ++ mid) ++ rest := by rw [h, List.append_assoc]
  rw [upTo_eq hmid, upTo_eq h, upTo_eq hrest, List.reverse_append, List.append_assoc]

theorem keep_upTo {r : Cursor} {front rest : List Char} (h : r.rest = front ++ rest)
    (label : Nat) :
    (r.upTo rest).keep r label
      = ⟨front.reverse ++ r.before, rest, (label, front) :: r.groups⟩ := by
  rw [upTo_eq h]
  unfold keep
  simp

end Cursor

namespace Pattern

/-- The ways to match a run of characters of a class, the longest one first. -/
def runs (p : Char → Bool) (groups : List (Nat × List Char)) (before : List Char) :
    List Char → List Cursor
  | [] => [⟨before, [], groups⟩]
  | c :: cs =>
    if p c then runs p groups (c :: before) cs ++ [⟨before, c :: cs, groups⟩]
    else [⟨before, c :: cs, groups⟩]

/-- The ways to match a pattern at a cursor, in the order in which they are preferred. -/
def readings : Pattern → Cursor → List Cursor
  | .empty, r => [r]
  | .char p, r =>
    match r.rest with
    | [] => []
    | c :: cs => if p c then [⟨c :: r.before, cs, r.groups⟩] else []
  | .boundary, r => if r.atBoundary then [r] else []
  | .seq first next, r => (first.readings r).flatMap next.readings
  | .either preferred other, r => preferred.readings r ++ other.readings r
  | .many p, r => runs p r.groups r.before r.rest
  | .group label inner, r => (inner.readings r).map (·.keep r label)

/-- The matches of a pattern along a text, each with the text in front of it, in reverse. The first
`skip` characters belong to a match already. -/
def search (p : Pattern) : Nat → List Char → List Char → List (List Char × Cursor)
  | 0, before, [] => ((p.readings ⟨before, [], []⟩).head?.map fun r => (before, r)).toList
  | _ + 1, _, [] => []
  | skip + 1, before, c :: cs => p.search skip (c :: before) cs
  | 0, before, c :: cs =>
    match (p.readings ⟨before, c :: cs, []⟩).head? with
    | none => p.search 0 (c :: before) cs
    | some r => (before, r) :: p.search (cs.length - r.rest.length) (c :: before) cs

/-- A fixed text. -/
def literal (word : List Char) : Pattern :=
  word.foldr (fun c p => .seq (.char (· == c)) p) .empty

/-- One of several patterns, of which the first one is preferred. -/
def oneOf : List Pattern → Pattern
  | [] => .char fun _ => false
  | [p] => p
  | p :: ps => .either p (oneOf ps)

/-- Two words with blanks between them. -/
def spaced (front back : String) : Pattern :=
  .seq (literal front.toList) (.seq (.char isBlank) (.seq (.many isBlank) (literal back.toList)))

/-- The keywords, of which `else if` and `else with` are preferred to `else`. -/
def keywords : List Pattern :=
  [spaced "else" "if", spaced "else" "with", literal "else".toList, literal "if".toList,
   literal "with".toList, literal "range".toList, literal "end".toList, literal "define".toList,
   literal "block".toList]

/-- A keyword that ends at a word boundary. It is kept as group 2. -/
def keyword : Pattern :=
  .seq (.group 2 (oneOf keywords)) .boundary

/-- The head of an action. The dash is kept as group 1. -/
def head : Pattern :=
  .seq (literal ['{', '{'])
    (.seq (.either (.group 1 (.char (· == '-'))) .empty) (.seq (.many isBlank) keyword))

/-! ## Parts of patterns -/

/-- A fixed text is matched in one way. Induction on the text. -/
theorem readings_literal (word : List Char) (r : Cursor) :
    (literal word).readings r = ((after? word r.rest).map r.upTo).toList := by
  induction word generalizing r with
  | nil =>
    have hsame : r.upTo r.rest = r := Cursor.upTo_eq (List.nil_append r.rest).symm
    show [r] = ((after? [] r.rest).map r.upTo).toList
    rw [after?, Option.map_some, hsame]
    rfl
  | cons w word ih =>
    obtain ⟨before, rest, groups⟩ := r
    have hfirst : (literal (w :: word)).readings ⟨before, rest, groups⟩
        = ((char (· == w)).readings ⟨before, rest, groups⟩).flatMap (literal word).readings := rfl
    rw [hfirst, readings]
    cases rest with
    | nil => rfl
    | cons c cs =>
      -- induction on the literal: there is at most one way to read it
      by_cases hc : c = w
      · subst hc
        simp only [beq_self_eq_true, if_true, List.flatMap_cons, List.flatMap_nil, List.append_nil,
          ih, after?]
        cases hafter : after? word cs with
        | none => rfl
        | some rest =>
          have hcs := after?_eq_some_iff.mp hafter
          have hrest : (⟨before, c :: cs, groups⟩ : Cursor).rest = (c :: word) ++ rest := by
            rw [hcs, List.cons_append]
          rw [Option.map_some, Option.map_some, Cursor.upTo_eq hcs, Cursor.upTo_eq hrest,
            List.reverse_cons, List.append_assoc]
          rfl
      · simp [hc, Ne.symm hc, after?]

theorem readings_oneOf (ps : List Pattern) (r : Cursor) :
    (oneOf ps).readings r = ps.flatMap (·.readings r) := by
  induction ps with
  | nil =>
    unfold oneOf readings
    cases r.rest <;> rfl
  | cons p ps ih =>
    -- the last alternative stands alone
    cases ps with
    | nil => simp [oneOf]
    | cons q qs =>
      rw [List.flatMap_cons, ← ih]
      rfl

/-- If nothing that follows can begin with a character of the class, only the longest run of the class
comes into question. Induction on the text. -/
theorem flatMap_runs {p : Char → Bool} {next : Cursor → List Cursor}
    (hnext : ∀ r : Cursor, r.rest.head?.any p = true → next r = [])
    (groups : List (Nat × List Char)) (before cs : List Char) :
    (runs p groups before cs).flatMap next
      = next ⟨(cs.takeWhile p).reverse ++ before, cs.dropWhile p, groups⟩ := by
  induction cs generalizing before with
  | nil => simp [runs]
  | cons c cs ih =>
    rw [runs]
    split
    · -- the longest run comes first, and all shorter ones lead nowhere
      next hc =>
      rw [List.flatMap_append, ih, List.takeWhile_cons_of_pos hc, List.dropWhile_cons_of_pos hc,
        List.reverse_cons, List.append_assoc]
      simp [hnext, hc]
    · next hc =>
      rw [List.takeWhile_cons_of_neg hc, List.dropWhile_cons_of_neg hc]
      simp

/-! ## Keywords -/

/-- A pattern of a keyword matches, up to a word boundary, what a reader of it reads. -/
def Reads (p : Pattern) (reader : List Char → Option (List Char)) : Prop :=
  ∀ r : Cursor, (p.readings r).filter (·.atBoundary) = ((reader r.rest).map r.upTo).toList

/-- Behind a word, a boundary is the end of the word. -/
theorem atBoundary_upTo {word : String} (hword : Keyword.IsWord word) {r : Cursor}
    {rest : List Char} (h : r.rest = word.toList ++ rest) :
    (r.upTo rest).atBoundary = atWordEnd rest := by
  have hbefore : (word.toList.reverse ++ r.before).head? = word.toList.getLast? := by
    rw [List.head?_append, List.head?_reverse, List.getLast?_eq_some_getLast hword.ne_nil]
    rfl
  rw [Cursor.upTo_eq h, Bool.eq_iff_iff, ← hword.boundary_iff [] rest]
  unfold Cursor.atBoundary WordBoundary
  simp [hbefore]

theorem reads_literal {word : String} (hword : Keyword.IsWord word) :
    Reads (literal word.toList) (Keyword.word? word) := by
  intro r
  rw [readings_literal]
  unfold Keyword.word?
  cases hafter : after? word.toList r.rest with
  | none => rfl
  | some rest =>
    have hboundary := atBoundary_upTo hword (after?_eq_some_iff.mp hafter)
    cases hend : atWordEnd rest <;> simp [hboundary, hend, Option.filter_some]

/-- A word does not begin with a blank. -/
theorem readings_literal_blank {word : String} (hword : Keyword.IsWord word) {r : Cursor}
    (hblank : r.rest.head?.any isBlank = true) : (literal word.toList).readings r = [] := by
  rw [readings_literal]
  cases hafter : after? word.toList r.rest with
  | none => rfl
  | some rest =>
    obtain ⟨c, hc, hisBlank⟩ := (Option.any_eq_true _ _).mp hblank
    rw [after?_eq_some_iff.mp hafter] at hc
    rw [hword.head_noBlank rest c hc] at hisBlank
    cases hisBlank

theorem reads_spaced {front back : String} (hback : Keyword.IsWord back) :
    Reads (spaced front back) (Keyword.twoWords? front back) := by
  intro r
  have hparts : (spaced front back).readings r = ((literal front.toList).readings r).flatMap
      fun r => ((char isBlank).readings r).flatMap
        fun r => (runs isBlank r.groups r.before r.rest).flatMap (literal back.toList).readings := rfl
  rw [hparts, readings_literal]
  unfold Keyword.twoWords?
  cases hafter : after? front.toList r.rest with
  | none => rfl
  | some gap =>
    have hgap := after?_eq_some_iff.mp hafter
    rw [Option.map_some, Option.toList_some, List.flatMap_singleton, Cursor.upTo_eq hgap, readings]
    dsimp only
    cases gap with
    | nil => rfl
    | cons c cs =>
      cases hc : isBlank c with
      | false => simp [hc]
      | true =>
        -- the blanks are skipped to the last one, where the second word has to begin
        have hskip := List.takeWhile_append_dropWhile (p := isBlank) (l := cs)
        have hrest : r.rest
            = (front.toList ++ c :: cs.takeWhile isBlank) ++ cs.dropWhile isBlank := by
          rw [hgap, List.append_assoc, List.cons_append, hskip]
        have hcursor : (⟨(cs.takeWhile isBlank).reverse ++ c :: (front.toList.reverse ++ r.before),
            cs.dropWhile isBlank, r.groups⟩ : Cursor) = r.upTo (cs.dropWhile isBlank) := by
          rw [Cursor.upTo_eq hrest]
          simp
        have htrim : trimStart (c :: cs) = cs.dropWhile isBlank :=
          List.dropWhile_cons_of_pos hc
        simp only [hc, if_true, List.flatMap_cons, List.flatMap_nil, List.append_nil, Option.any_some,
          List.head?_cons, htrim, flatMap_runs fun r => readings_literal_blank hback]
        rw [hcursor, reads_literal hback, show (r.upTo (cs.dropWhile isBlank)).rest
          = cs.dropWhile isBlank from rfl]
        cases hread : Keyword.word? back (cs.dropWhile isBlank) with
        | none => rfl
        | some rest =>
          have hword := (Keyword.word?_eq_some_iff.mp hread).1
          rw [hword] at hrest
          rw [Option.map_some, Option.map_some, hword, Cursor.upTo_upTo hrest]

/-- The alternatives stand in the order of the readers. -/
theorem reads_keywords :
    List.Forall₂ (fun p entry => Reads p entry.2) keywords Keyword.readers := by
  have hword : ∀ (keyword : Keyword) {word : String}, (keyword, word) ∈ Keyword.single →
      Reads (literal word.toList) (Keyword.word? word) := fun _ _ h =>
    reads_literal (Keyword.isWord_of_mem_single h)
  have hspaced : ∀ {word : String}, word ∈ Keyword.continuations →
      Reads (spaced "else" word) (Keyword.twoWords? "else" word) := fun h =>
    reads_spaced (Keyword.isWord_of_mem_continuations h)
  -- in the order of the alternatives
  refine .cons (hspaced (by decide)) (.cons (hspaced (by decide)) ?_)
  refine .cons (hword .elseAlone (by decide)) ?_
  refine .cons (hword (.opener .ifBlock) (by decide)) ?_
  refine .cons (hword (.opener .withBlock) (by decide)) ?_
  refine .cons (hword (.opener .rangeBlock) (by decide)) ?_
  refine .cons (hword .finish (by decide)) ?_
  refine .cons (hword .named (by decide)) ?_
  exact .cons (hword .named (by decide)) .nil

theorem filter_readings_keywords (r : Cursor) :
    ((oneOf keywords).readings r).filter (·.atBoundary)
      = Keyword.readers.flatMap fun entry => ((entry.2 r.rest).map r.upTo).toList := by
  -- alternative by alternative
  have hall : ∀ {ps : List Pattern} {entries : List (Keyword × (List Char → Option (List Char)))},
      List.Forall₂ (fun p entry => Reads p entry.2) ps entries →
      (ps.flatMap (·.readings r)).filter (·.atBoundary)
        = entries.flatMap fun entry => ((entry.2 r.rest).map r.upTo).toList := by
    intro ps entries h
    induction h with
    | nil => rfl
    | cons hread _ ih => rw [List.flatMap_cons, List.filter_append, ih, hread r, List.flatMap_cons]
  rw [readings_oneOf, hall reads_keywords]

/-- The preferred match of the keywords is the keyword that is read. -/
theorem head?_readings_keyword (r : Cursor) :
    (keyword.readings r).head?
      = (Keyword.read? r.rest).map fun (_, rest) => (r.upTo rest).keep r 2 := by
  -- a reading that does not end at a boundary is given up, and the next alternative is tried
  have hboundary : ∀ rs : List Cursor,
      rs.flatMap boundary.readings = rs.filter (·.atBoundary) := by
    intro rs
    induction rs with
    | nil => rfl
    | cons r rs ih =>
      rw [List.flatMap_cons, ih, readings, List.filter_cons]
      split <;> rfl
  have hparts : keyword.readings r
      = (((oneOf keywords).readings r).map (·.keep r 2)).flatMap boundary.readings := rfl
  have hkeep : ((·.atBoundary) ∘ (·.keep r 2) : Cursor → Bool) = (·.atBoundary) := rfl
  rw [hparts, hboundary, List.filter_map, hkeep, filter_readings_keywords, List.head?_map,
    List.head?_flatMap]
  unfold Keyword.read?
  simp only [Option.head?_toList, List.map_findSome?]
  congr 1
  funext ⟨keyword, reader⟩
  cases h : reader r.rest <;> simp [h]

/-! ## Heads -/

theorem readings_keyword_eq_nil {r : Cursor} (h : Keyword.read? r.rest = none) :
    keyword.readings r = [] := by
  rw [← List.head?_eq_none_iff, head?_readings_keyword, h]
  rfl

/-- No keyword begins with a blank. -/
theorem readings_keyword_blank {r : Cursor} (hblank : r.rest.head?.any isBlank = true) :
    keyword.readings r = [] := by
  refine readings_keyword_eq_nil ?_
  rw [Option.eq_none_iff_forall_ne_some]
  rintro ⟨keyword, rest⟩ hread
  obtain ⟨c, tail, htail, hc⟩ := (Keyword.read?_eq_some_iff.mp hread).exists_cons
  rw [htail] at hblank
  rw [isWordChar_of_isBlank hblank] at hc
  cases hc

/-- Blanks and a keyword: all the blanks are matched. -/
theorem readings_blanks (r : Cursor) :
    (seq (.many isBlank) keyword).readings r
      = keyword.readings
        ⟨(r.rest.takeWhile isBlank).reverse ++ r.before, trimStart r.rest, r.groups⟩ :=
  flatMap_runs (fun _ => readings_keyword_blank) r.groups r.before r.rest

theorem readings_blanks_eq_nil {r : Cursor} (h : Keyword.read? (trimStart r.rest) = none) :
    (seq (.many isBlank) keyword).readings r = [] := by
  rw [readings_blanks]
  exact readings_keyword_eq_nil h

/-- Blanks and a keyword: the keyword that is read is kept. -/
theorem head?_readings_blanks {r : Cursor} {keyword : Keyword} {rest : List Char}
    (h : Keyword.read? (trimStart r.rest) = some (keyword, rest)) :
    ∃ word front, keyword.Spelled word
      ∧ ((seq (.many isBlank) Pattern.keyword).readings r).head?
        = some ⟨front, rest, (2, word) :: r.groups⟩ := by
  obtain ⟨word, hspelled, hrest, -⟩ := (Keyword.read?_eq_some_iff.mp h).wholeWord
  refine ⟨word, word.reverse ++ ((r.rest.takeWhile isBlank).reverse ++ r.before), hspelled, ?_⟩
  rw [readings_blanks, head?_readings_keyword, h]
  exact congrArg some (Cursor.keep_upTo hrest 2)

/-- The braces are matched first. -/
theorem readings_head (before rest : List Char) :
    head.readings ⟨before, '{' :: '{' :: rest, []⟩
      = ((either (.group 1 (.char (· == '-'))) .empty).readings
          ⟨'{' :: '{' :: before, rest, []⟩).flatMap
        (seq (.many isBlank) keyword).readings := by
  have hparts : head.readings ⟨before, '{' :: '{' :: rest, []⟩
      = ((literal ['{', '{']).readings ⟨before, '{' :: '{' :: rest, []⟩).flatMap fun r =>
        ((either (.group 1 (.char (· == '-'))) .empty).readings r).flatMap
          (seq (.many isBlank) keyword).readings := rfl
  -- both braces are there, so there is one way to read them
  have hbraces : after? ['{', '{'] ('{' :: '{' :: rest) = some rest := rfl
  have hrest : (⟨before, '{' :: '{' :: rest, []⟩ : Cursor).rest = ['{', '{'] ++ rest := rfl
  rw [hparts, readings_literal, hbraces, Option.map_some, Option.toList_some,
    List.flatMap_singleton, Cursor.upTo_eq hrest]
  rfl

/-- Behind the dash, blanks and a keyword follow: the other way to match, without the dash, fails at
it. -/
theorem readings_head_dash (before rest : List Char) :
    head.readings ⟨before, '{' :: '{' :: '-' :: rest, []⟩
      = (seq (.many isBlank) keyword).readings
        ⟨'-' :: '{' :: '{' :: before, rest, [(1, ['-'])]⟩ := by
  have hdash : (either (.group 1 (.char (· == '-'))) .empty).readings
      ⟨'{' :: '{' :: before, '-' :: rest, []⟩
      = [⟨'-' :: '{' :: '{' :: before, rest, [(1, ['-'])]⟩,
        ⟨'{' :: '{' :: before, '-' :: rest, []⟩] := by
    simp [readings, Cursor.keep]
  -- to leave the dash unread leads nowhere, for no keyword begins with it
  have hother : (seq (.many isBlank) keyword).readings ⟨'{' :: '{' :: before, '-' :: rest, []⟩
      = [] := readings_blanks_eq_nil (not_read?_dash rest)
  rw [readings_head, hdash, List.flatMap_cons, List.flatMap_singleton, hother, List.append_nil]

theorem readings_head_plain (before : List Char) {rest : List Char} (h : ∀ tail, rest ≠ '-' :: tail) :
    head.readings ⟨before, '{' :: '{' :: rest, []⟩
      = (seq (.many isBlank) keyword).readings ⟨'{' :: '{' :: before, rest, []⟩ := by
  -- there is no dash to read
  have hplain : (either (.group 1 (.char (· == '-'))) .empty).readings
      ⟨'{' :: '{' :: before, rest, []⟩ = [⟨'{' :: '{' :: before, rest, []⟩] := by
    cases rest with
    | nil => rfl
    | cons c cs =>
      have hc : c ≠ '-' := by
        rintro rfl
        exact h cs rfl
      simp [readings, hc]
  rw [readings_head, hplain, List.flatMap_singleton]

/-- The groups of a head. -/
def headGroups (trim : Bool) (word : List Char) : List (Nat × List Char) :=
  (2, word) :: if trim then [(1, ['-'])] else []

/-- Where the text does not begin with braces, the pattern does not match. -/
theorem readings_head_of_not_braces {before rest : List Char}
    (h : ∀ inner, rest ≠ '{' :: '{' :: inner) : head.readings ⟨before, rest, []⟩ = [] := by
  have hnone : after? ['{', '{'] rest = none := by
    rw [Option.eq_none_iff_forall_ne_some]
    exact fun inner hinner => h inner (after?_eq_some_iff.mp hinner)
  unfold head
  rw [readings, readings_literal, hnone]
  rfl

/-- **Where no head is read, the pattern does not match.** -/
theorem readings_head_eq_nil {before rest : List Char} (h : ActionHead.read? rest = none) :
    head.readings ⟨before, rest, []⟩ = [] := by
  unfold ActionHead.read? at h
  split at h
  · rw [readings_head_dash]
    exact readings_blanks_eq_nil (Option.map_eq_none_iff.mp h)
  · next inner hdash =>
    rw [readings_head_plain before hdash]
    exact readings_blanks_eq_nil (Option.map_eq_none_iff.mp h)
  · next hbraces => exact readings_head_of_not_braces hbraces

/-- **The preferred match of the pattern is the head that is read.** -/
theorem head?_readings_head (before : List Char) {rest : List Char} {action : ActionHead}
    (h : ActionHead.read? rest = some action) :
    ∃ word front, action.keyword.Spelled word
      ∧ (head.readings ⟨before, rest, []⟩).head?
        = some ⟨front, action.rest, headGroups action.trimLeft word⟩ := by
  unfold ActionHead.read? at h
  split at h
  · next inner =>
    obtain ⟨⟨keyword, rest⟩, hread, rfl⟩ := Option.map_eq_some_iff.mp h
    rw [readings_head_dash]
    exact head?_readings_blanks hread
  · -- without a dash behind the braces only the second way is left
    next inner hdash =>
    obtain ⟨⟨keyword, rest⟩, hread, rfl⟩ := Option.map_eq_some_iff.mp h
    rw [readings_head_plain before hdash]
    exact head?_readings_blanks hread
  · cases h

end Pattern

end TemplateCoverage
