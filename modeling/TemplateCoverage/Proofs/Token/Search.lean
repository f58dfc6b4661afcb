import Mathlib.Data.List.Chain
import TemplateCoverage.Proofs.Token.Grammar
import TemplateCoverage.Proofs.Token.Pattern

/-!
# Searching a line for tokens

The tokens of a line can also be found with the pattern of a head: its matches are searched for from left
to right, where the search goes on behind each match, and each match is a token if its argument suits its
keyword. A match takes up some of the line even if no token comes of it. But no action opens between its
braces and its end, so nothing is lost, and the tokens are the same
(`filterMap_search`). They are those of the sites of the line (`tokensOfLine_grammar`).
-/

namespace TemplateCoverage

open Text

/-! ## Tokens of matches -/

/-- The keyword that a text spells. What begins with `else` and is not `else` alone goes on an `if` or a
`with`. -/
def Keyword.ofText? (word : List Char) : Option Keyword :=
  match Keyword.single.find? fun entry => entry.2.toList == word with
  | some entry => some entry.1
  | none => if "else".toList.isPrefixOf word then some .elseIf else none

/-- The token that a match of the pattern makes. It stands behind the text in front of the match. -/
def tokenOfMatch? (text : List Char) (number : Nat) (dynamic : Bool)
    (found : List Char × Cursor) : Option Token :=
  let (before, cursor) := found
  match cursor.groups.lookup 2 with
  | none => none
  | some word =>
    let (argument, after) := readArgument cursor.rest
    match (Keyword.ofText? word).bind (TokenKind.ofKeyword? · argument) with
    | none => none
    | some kind =>
      if kind.accepts argument after.isSome then
        let column := byteLength before
        some {
          kind, column
          line := number
          trimLeft := (cursor.groups.lookup 1).isSome
          placement := if allBlank before && after.any allBlank then .standalone else .inLine
          inString := dynamic && unescapedQuotesBefore text column % 2 == 1 }
      else none

/-- The tokens that the matches along a line make. -/
def tokensOfMatches (evaluators : List String) (text : List Char) (number : Nat) : List Token :=
  (Pattern.head.search 0 [] text).filterMap
    (tokenOfMatch? text number (invokesAny evaluators text))

theorem Keyword.ofText?_of_spelled {keyword : Keyword} {word : List Char}
    (h : keyword.Spelled word) : Keyword.ofText? word = some keyword := by
  cases h with
  | @single _ word hword =>
    have hall : ∀ entry ∈ Keyword.single, Keyword.ofText? entry.2.toList = some entry.1 := by
      decide
    exact hall _ hword
  | @elseIf gap word hword hne hgap =>
    have hnone : Keyword.single.find? (fun entry =>
        entry.2.toList == "else".toList ++ gap ++ word.toList) = none := by
      -- the words of the list hold no blank
      rw [List.find?_eq_none]
      rintro ⟨keyword, single⟩ hmem heq
      obtain ⟨c, cs, rfl⟩ := List.exists_cons_of_ne_nil hne
      have hc : c ∈ single.toList := by
        rw [eq_of_beq heq]
        simp
      have hblank := (Keyword.isWord_of_mem_single hmem).noBlank c hc
      rw [hgap c (List.mem_cons_self ..)] at hblank
      cases hblank
    have hprefix : "else".toList.isPrefixOf ("else".toList ++ gap ++ word.toList) = true := by
      rw [List.isPrefixOf_iff_prefix, List.append_assoc]
      exact List.prefix_append _ _
    unfold Keyword.ofText?
    rw [hnone]
    exact if_pos hprefix

/-- The match of a head makes the token that is read there. -/
theorem tokenOfMatch?_eq {text before rest : List Char} {number : Nat} {dynamic : Bool}
    {action : ActionHead} (hread : ActionHead.read? rest = some action) {word : List Char}
    (hspelled : action.keyword.Spelled word) (front : List Char) :
    tokenOfMatch? text number dynamic
        (before, ⟨front, action.rest, Pattern.headGroups action.trimLeft word⟩)
      = tokenAt? text number dynamic before rest := by
  -- the groups of the match hold the dash and the keyword
  have hword : (Pattern.headGroups action.trimLeft word).lookup 2 = some word := rfl
  have hdash : ((Pattern.headGroups action.trimLeft word).lookup 1).isSome = action.trimLeft := by
    cases action.trimLeft <;> rfl
  unfold tokenOfMatch? tokenAt?
  dsimp only
  rewrite [hread, hword, hdash]
  dsimp only
  rewrite [Keyword.ofText?_of_spelled hspelled]
  rfl

/-! ## The text of a match -/

/-- No brace is part of a keyword. -/
theorem Keyword.Spelled.ne_brace {keyword : Keyword} {word : List Char} (h : keyword.Spelled word) :
    word ≠ [] ∧ ∀ c ∈ word, c ≠ '{' := by
  have hword : isWordChar '{' = false := by decide
  -- keywords are made of letters, with blanks between them at most
  have hisWord : ∀ {word : String}, Keyword.IsWord word → ∀ c ∈ word.toList, c ≠ '{' := by
    rintro word hword' c hc rfl
    rw [hword'.chars _ hc] at hword
    cases hword
  cases h with
  | single hmem =>
    exact ⟨(isWord_of_mem_single hmem).ne_nil, hisWord (isWord_of_mem_single hmem)⟩
  | elseIf hmem hne hgap =>
    refine ⟨by simp, fun c hc => ?_⟩
    rw [List.mem_append, List.mem_append] at hc
    rcases hc with (hc | hc) | hc
    · exact hisWord isWord_else c hc
    · rintro rfl
      exact absurd (hgap _ hc) (by decide)
    · exact hisWord (isWord_of_mem_continuations hmem) c hc

/-- Behind the braces of a head there is no other brace up to its end. -/
theorem HeadOf.exists_eq {action rest : List Char} {trim : Bool} {keyword : Keyword}
    (h : HeadOf action trim keyword rest) :
    ∃ more, action = '{' :: '{' :: (more ++ rest) ∧ more ≠ [] ∧ ∀ c ∈ more, c ≠ '{' := by
  obtain ⟨blanks, inner, haction, hblanks, hbegins⟩ := h
  obtain ⟨word, hspelled, rfl, -⟩ := hbegins.wholeWord
  obtain ⟨hne, hword⟩ := hspelled.ne_brace
  -- behind the braces come the dash, blanks and the keyword
  refine ⟨(if trim then ['-'] else []) ++ (blanks ++ word), ?_, ?_, ?_⟩
  · rw [haction]
    simp only [List.append_assoc]
  · simp [hne]
  · intro c hc
    rw [List.mem_append, List.mem_append] at hc
    rcases hc with hc | hc | hc
    · cases trim with
      | true =>
        rw [List.mem_singleton.mp hc]
        decide
      | false => cases hc
    · rintro rfl
      exact absurd (hblanks _ hc) (by decide)
    · exact hword c hc

section Line

variable {text : List Char} {number : Nat} {dynamic : Bool}

/-- Where no action opens, no token is read. -/
theorem tokenAt?_eq_none {before rest : List Char} (h : ∀ trim, ¬OpensAction trim rest) :
    tokenAt? text number dynamic before rest = none := by
  rw [Option.eq_none_iff_forall_ne_some]
  exact fun t ht => h _ (tokenAt?_eq_some ht).2.2

/-- No action opens in the text, whatever follows it: no brace is followed by another one, and none is the
last character. -/
def Unopened (cs : List Char) : Prop :=
  (cs ++ ['{']).IsChain fun c d => c = '{' → d ≠ '{'

instance (cs : List Char) : Decidable (Unopened cs) :=
  inferInstanceAs (Decidable (List.IsChain _ _))

/-- No token is read where no action opens. Induction on the text. -/
theorem tokensFrom_of_unopened {front : List Char} (hfront : Unopened front)
    (before back : List Char) :
    tokensFrom text number dynamic before (front ++ back)
      = tokensFrom text number dynamic (front.reverse ++ before) back := by
  induction front generalizing before with
  | nil => rfl
  | cons c front ih =>
    obtain ⟨hnext, hfront⟩ := List.isChain_cons.mp hfront
    have hnone : tokenAt? text number dynamic before (c :: (front ++ back)) = none := by
      refine tokenAt?_eq_none ?_
      rintro trim ⟨d, rest, heq, -, -⟩
      obtain ⟨rfl, hbrace⟩ := List.cons.inj heq
      -- the next character is one of the text, or the brace behind it
      cases front with
      | nil => exact hnext '{' rfl rfl rfl
      | cons e front =>
        obtain ⟨rfl, -⟩ := List.cons.inj hbrace
        exact hnext '{' rfl rfl rfl
    rw [List.cons_append, tokensFrom, hnone, ih hfront, List.reverse_cons, List.append_assoc]
    rfl

/-- No token is read in a text without braces. -/
theorem tokensFrom_append {front : List Char} (hfront : ∀ c ∈ front, c ≠ '{')
    (before back : List Char) :
    tokensFrom text number dynamic before (front ++ back)
      = tokensFrom text number dynamic (front.reverse ++ before) back := by
  refine tokensFrom_of_unopened ?_ before back
  induction front with
  | nil => exact .singleton _
  | cons c front ih =>
    obtain ⟨hc, hfront⟩ := List.forall_mem_cons.mp hfront
    exact List.isChain_cons.mpr ⟨fun _ _ h => absurd h hc, ih hfront⟩

/-- Between the first brace of a head and its end, no token is read. -/
theorem tokensFrom_of_headOf {more : List Char} (hne : more ≠ []) (hmore : ∀ c ∈ more, c ≠ '{')
    (before rest : List Char) :
    tokensFrom text number dynamic before ('{' :: (more ++ rest))
      = tokensFrom text number dynamic (more.reverse ++ '{' :: before) rest := by
  obtain ⟨c, cs, rfl⟩ := List.exists_cons_of_ne_nil hne
  -- the second brace begins no action of its own
  have hnone : tokenAt? text number dynamic before ('{' :: (c :: cs ++ rest)) = none := by
    refine tokenAt?_eq_none ?_
    rintro trim ⟨d, tail, heq, -, -⟩
    obtain ⟨rfl, -⟩ := List.cons.inj (List.cons.inj heq).2
    exact hmore _ (List.mem_cons_self ..) rfl
  rw [tokensFrom, hnone, tokensFrom_append hmore]
  rfl

/-- A search goes on behind the text that belongs to a match. Induction on that text. -/
theorem Pattern.search_append (p : Pattern) (front before back : List Char) :
    p.search front.length before (front ++ back) = p.search 0 (front.reverse ++ before) back := by
  induction front generalizing before with
  | nil => rfl
  | cons c front ih =>
    rw [List.length_cons, List.cons_append, search, ih, List.reverse_cons, List.append_assoc]
    rfl

/-- **The search loses no token.** Induction on the length of the rest of the line: the search goes on
either behind the next character or behind a match. -/
theorem filterMap_search (before rest : List Char) :
    (Pattern.head.search 0 before rest).filterMap (tokenOfMatch? text number dynamic)
      = tokensFrom text number dynamic before rest := by
  induction hlen : rest.length using Nat.strong_induction_on generalizing before rest with
  | _ n ih =>
    subst hlen
    cases rest with
    | nil =>
      rw [Pattern.search, Pattern.readings_head_eq_nil rfl]
      rfl
    | cons c cs =>
      rw [Pattern.search]
      -- strong induction on what is left: nothing begins here, and the search goes on at the next character
      cases hread : ActionHead.read? (c :: cs) with
      | none =>
        rw [Pattern.readings_head_eq_nil hread]
        have hnone : tokenAt? text number dynamic before (c :: cs) = none := by
          unfold tokenAt?
          rw [hread]
        rw [tokensFrom, hnone]
        exact ih cs.length (by simp) (c :: before) cs rfl
      | some action =>
        -- an action begins here; the search goes on behind its keyword, where the other reading finds nothing
        -- in between
        obtain ⟨word, front, hspelled, hmatch⟩ := Pattern.head?_readings_head before hread
        obtain ⟨more, haction, hne, hmore⟩ := (ActionHead.read?_eq_some_iff.mp hread).exists_eq
        obtain ⟨rfl, rfl⟩ := List.cons.inj haction
        have hskip : ('{' :: (more ++ action.rest)).length - action.rest.length
            = ('{' :: more).length := by
          simp only [List.length_cons, List.length_append]
          omega
        rw [hmatch]
        simp only [hskip]
        rw [List.filterMap_cons, tokenOfMatch?_eq hread hspelled, tokensFrom,
          tokensFrom_of_headOf hne hmore, ← List.cons_append, Pattern.search_append,
          ih action.rest.length (by simp; omega) _ action.rest rfl]
        have hbefore : ('{' :: more).reverse ++ '{' :: before
            = more.reverse ++ '{' :: '{' :: before := by simp
        rw [hbefore]
        cases tokenAt? text number dynamic before ('{' :: ('{' :: more ++ action.rest)) <;> rfl

end Line

/-! ## The tokens of a line -/

/-- The trim marker of a site is the dash behind its braces. -/
theorem Site.trimLeft_iff {text : List Char} (site : Site text) :
    site.trimLeft = true ↔ ['{', '{', '-'] <+: site.action := by
  have hread : ActionHead.read? site.action = some ⟨site.trimLeft, site.keyword, site.rest⟩ :=
    ActionHead.read?_eq_some_iff.mpr site.head
  obtain ⟨c, rest, haction, -, htrim⟩ := opensAction_of_read? hread
  rw [haction]
  simp [← htrim, eq_comm]

/-- The terminator is cut off a line, however many line feeds and carriage returns it has. -/
theorem withoutLineEnd_eq (line : List Char) :
    (∃ ending, line = withoutLineEnd line ++ ending ∧ ∀ c ∈ ending, c = '\n' ∨ c = '\r')
      ∧ ∀ c ∈ (withoutLineEnd line).getLast?, c ≠ '\n' ∧ c ≠ '\r' := by
  obtain ⟨⟨ending, hline, hending⟩, hlast⟩ :=
    dropEndWhile_eq_iff.mp (Eq.refl (withoutLineEnd line))
  refine ⟨⟨ending, hline, fun c hc => by simpa using hending c hc⟩, fun c hc => ?_⟩
  simpa using hlast c hc

/-- **The tokens of a line follow the grammar.** Without its terminator, the line has one token for each
of its sites, from left to right. The marker and the flag of a token say what they should about the place
of the site. Searching for the pattern of a head finds the same tokens. -/
theorem tokensOfLine_grammar (evaluators : List String) (line : List Char) (number : Nat) :
    ∃ text ending, line = text ++ ending ∧ (∀ c ∈ ending, c = '\n' ∨ c = '\r')
      ∧ (∀ c ∈ text.getLast?, c ≠ '\n' ∧ c ≠ '\r')
      ∧ (tokensOfLine evaluators line number).Pairwise (·.column < ·.column)
      ∧ (∀ t, t ∈ tokensOfLine evaluators line number
        ↔ ∃ site : Site text, site.token evaluators number = t)
      ∧ (∀ site : Site text, site.trimLeft = true ↔ ['{', '{', '-'] <+: site.action)
      ∧ tokensOfMatches evaluators text number = tokensOfLine evaluators line number := by
  obtain ⟨⟨ending, hline, hending⟩, hlast⟩ := withoutLineEnd_eq line
  refine ⟨withoutLineEnd line, ending, hline, hending, hlast, ?_, fun t => ?_,
    Site.trimLeft_iff, ?_⟩
  · exact pairwise_tokensFrom _ _ _ _ _
  · -- the text is read from its beginning
    have htext : withoutLineEnd line = [].reverse ++ withoutLineEnd line := rfl
    have hmem : t ∈ tokensOfLine evaluators line number ↔ _ :=
      mem_tokensFrom_iff evaluators number htext
    rw [hmem]
    simp
  · exact filterMap_search [] (withoutLineEnd line)

end TemplateCoverage
