import Mathlib.Algebra.Ring.Parity
import Mathlib.Data.Nat.Count
import TemplateCoverage.Proofs.Text.Bytes
import TemplateCoverage.Proofs.Token.Spelling

/-!
# Counting quotes

Whether a token is in a string rests on the parity of the quotes in front of it. They are counted from
left to right, with one flag for the backslashes. This module says what the count is for the bytes of a line,
for texts in a row, and for a line into which a text has been inserted.

* **`QuoteAt`**: a byte that holds a quote directly behind an even number of backslashes. The count up to a
  column is the number of such bytes below it (`unescapedQuotesBefore_eq_count`), also where the column is
  beyond the line or inside of a character.
* **`quotesOf`**: the count of a whole text. Behind a text that does not end in an odd run of backslashes, the
  count starts anew (`unescapedQuotesBefore_add_of_even`).
* **`TurnsQuote`**: the inserted text ends in an odd run of backslashes, and a quote follows directly, or behind
  more backslashes. This is the one case in which a text with an even count changes the parity of what comes
  later (`parity_insert_iff`).
* **`exists_token_behind`**: the tokens behind a place stay, whatever is put in front of it.
-/

namespace TemplateCoverage

open Text

/-! ## Bytes -/

/-- A byte that holds a double quote, directly behind an even number of backslashes. -/
def QuoteAt (bytes : Bytes) (i : Nat) : Prop :=
  bytes[i]? = some '"' ∧ Even (backslashRun (bytes.take i))

instance (bytes : Bytes) : DecidablePred (QuoteAt bytes) :=
  fun _ => inferInstanceAs (Decidable (_ ∧ _))

/-- A text with neither quotes nor backslashes has no quote to count. -/
theorem unescapedQuotesAfter_plain {cs : List Char} (h : ∀ c ∈ cs, c ≠ '\\' ∧ c ≠ '"')
    (escaped : Bool) : unescapedQuotesAfter escaped cs = 0 := by
  induction cs generalizing escaped with
  | nil => rfl
  | cons c cs ih =>
    obtain ⟨⟨hbackslash, hquote⟩, hcs⟩ := List.forall_mem_cons.mp h
    rw [unescapedQuotesAfter_cons hbackslash hquote, ih hcs]

/-- Nor does it escape what follows. -/
theorem escapedAfter_plain {cs : List Char} (hne : cs ≠ []) (h : ∀ c ∈ cs, c ≠ '\\')
    (escaped : Bool) : escapedAfter escaped cs = false := by
  induction cs generalizing escaped with
  | nil => exact absurd rfl hne
  | cons c cs ih =>
    obtain ⟨hc, hcs⟩ := List.forall_mem_cons.mp h
    have hflag : (!escaped && c == '\\') = false := by simp [hc]
    rw [escapedAfter, hflag]
    cases cs with
    | nil => rfl
    | cons d ds => exact ih (List.cons_ne_nil d ds) hcs false

/-- A character beyond the seven-bit range has no byte that is a quote or a backslash. -/
theorem ne_of_mem_ofChar {c b : Char} (h : 128 ≤ c.toNat) (hb : b ∈ Bytes.ofChar c) :
    b ≠ '\\' ∧ b ≠ '"' := by
  have hle := Bytes.le_of_mem_ofChar h hb
  constructor
  · rintro rfl
    exact absurd hle (by decide)
  · rintro rfl
    exact absurd hle (by decide)

/-- The bytes of a character are counted as the character is. -/
theorem unescapedQuotesAfter_ofChar (escaped : Bool) (c : Char) (cs : List Char) :
    unescapedQuotesAfter escaped (Bytes.ofChar c ++ cs) = unescapedQuotesAfter escaped (c :: cs) := by
  rcases Nat.lt_or_ge c.toNat 128 with hlt | hle
  · rw [Bytes.ofChar_of_lt hlt, List.singleton_append]
  · -- the bytes of any other character are neither quotes nor backslashes
    have hbytes : ∀ b ∈ Bytes.ofChar c, b ≠ '\\' ∧ b ≠ '"' := fun b hb => ne_of_mem_ofChar hle hb
    have hne : Bytes.ofChar c ≠ [] := by
      have hpos := c.utf8Size_pos
      rw [← Bytes.length_ofChar] at hpos
      exact List.ne_nil_of_length_pos hpos
    have hc : c ≠ '\\' ∧ c ≠ '"' := by
      constructor <;> rintro rfl <;> exact absurd hle (by decide)
    rw [unescapedQuotesAfter_append, unescapedQuotesAfter_plain hbytes,
      escapedAfter_plain hne fun b hb => (hbytes b hb).1, unescapedQuotesAfter_cons hc.1 hc.2,
      Nat.zero_add]

/-- Counting along the first bytes of a line finds the quotes of the characters that lie wholly within them. -/
theorem unescapedQuotesAfter_take (escaped : Bool) (column : Nat) (line : List Char) :
    unescapedQuotesAfter escaped ((line.flatMap Bytes.ofChar).take column)
      = unescapedQuotesAfter escaped (takeBytes column line) := by
  induction line generalizing escaped column with
  | nil => rw [List.flatMap_nil, List.take_nil, takeBytes]
  | cons c line ih =>
    have hlength := Bytes.length_ofChar c
    rw [List.flatMap_cons, takeBytes]
    split
    · next hfits =>
      have htake : (Bytes.ofChar c ++ line.flatMap Bytes.ofChar).take column
          = Bytes.ofChar c ++ (line.flatMap Bytes.ofChar).take (column - c.utf8Size) := by
        rw [List.take_append, List.take_of_length_le (by omega), hlength]
      rw [htake, unescapedQuotesAfter_ofChar, ← List.singleton_append, unescapedQuotesAfter_append, ih,
        ← unescapedQuotesAfter_append, List.singleton_append]
    · next hcut =>
      -- only a character of several bytes is cut, and none of these is a quote
      have hle : column = 0 ∨ 128 ≤ c.toNat := by
        refine (Nat.lt_or_ge c.toNat 128).imp (fun hlt => ?_) id
        rw [Bytes.ofChar_of_lt hlt, List.length_singleton] at hlength
        omega
      rw [List.take_append_of_le_length (by omega)]
      rcases hle with rfl | hle
      · rw [List.take_zero]
      · refine unescapedQuotesAfter_plain (fun b hb => ?_) escaped
        exact ne_of_mem_ofChar hle (List.mem_of_mem_take hb)

/-- The quotes in front of a column are those of the bytes in front of it. -/
theorem count_quoteAt (bytes : Bytes) (column : Nat) :
    unescapedQuotes (bytes.take column) = Nat.count (QuoteAt bytes) (min column bytes.length) := by
  have hquote : ∀ i ∈ List.range (min column bytes.length),
      ((bytes.take column)[i]? == some '"' && backslashRun ((bytes.take column).take i) % 2 == 0) = true
        ↔ decide (QuoteAt bytes i) = true := by
    -- below the bound, cutting the bytes off makes no difference
    intro i hi
    have hlt : i < column := by
      rw [List.mem_range] at hi
      omega
    rw [List.getElem?_take_of_lt hlt, List.take_take, Nat.min_eq_left (Nat.le_of_lt hlt),
      Bool.and_eq_true, beq_iff_eq, beq_iff_eq, decide_eq_true_iff, QuoteAt, Nat.even_iff]
  rw [unescapedQuotes, List.length_take, List.countP_congr hquote, List.countP_eq_length_filter,
    Nat.count_eq_card_filter_range]
  rfl

/-- The count of a line up to a column is the number of its quotes below that column. -/
theorem unescapedQuotesBefore_eq_count (line : List Char) (column : Nat) :
    unescapedQuotesBefore line column
      = Nat.count (QuoteAt (Bytes.ofText (String.ofList line))) (min column (byteLength line)) := by
  rw [← Bytes.length_ofText, ← count_quoteAt, ← unescapedQuotesAfter_eq, Bytes.ofText_ofList,
    unescapedQuotesAfter_take, unescapedQuotesBefore]

/-! ## Texts in a row -/

/-- The number of quotes of a whole text that are not escaped. -/
def quotesOf (cs : List Char) : Nat :=
  unescapedQuotesBefore cs (byteLength cs)

theorem quotesOf_eq (cs : List Char) : quotesOf cs = unescapedQuotesAfter false cs := by
  have hquotes := unescapedQuotesBefore_append cs []
  rw [List.append_nil] at hquotes
  rw [quotesOf, hquotes, unescapedQuotesAfter_eq]

theorem escapedAfter_iff_odd (cs : List Char) :
    escapedAfter false cs = true ↔ Odd (backslashRun cs) := by
  have hflag : escapedAfter false cs = (backslashRun cs % 2 == 1) := escapedAfter_eq [] cs
  rw [hflag, beq_iff_eq, Nat.odd_iff]

theorem escapedAfter_of_even {cs : List Char} (h : Even (backslashRun cs)) :
    escapedAfter false cs = false := by
  rw [← Bool.not_eq_true, escapedAfter_iff_odd, Nat.not_odd_iff_even]
  exact h

/-- Behind a text, its quotes are counted, and then those that follow, in the state that it leaves. -/
theorem unescapedQuotesBefore_add (front back : List Char) (column : Nat) :
    unescapedQuotesBefore (front ++ back) (byteLength front + column)
      = quotesOf front
        + unescapedQuotesAfter (escapedAfter false front) (takeBytes column back) := by
  rw [unescapedQuotesBefore, takeBytes_append, unescapedQuotesAfter_append, quotesOf_eq]

/-- Where nothing is escaped behind a text, the count starts anew. -/
theorem unescapedQuotesBefore_add_of_even {front : List Char} (h : Even (backslashRun front))
    (back : List Char) (column : Nat) :
    unescapedQuotesBefore (front ++ back) (byteLength front + column)
      = quotesOf front + unescapedQuotesBefore back column := by
  rw [unescapedQuotesBefore_add, escapedAfter_of_even h, unescapedQuotesBefore]

/-! ## Insertions -/

/-- A quote is the first character of the text behind its leading backslashes. -/
def LeadsToQuote (cs : List Char) : Prop :=
  (cs.dropWhile (· == '\\')).head? = some '"'

instance (cs : List Char) : Decidable (LeadsToQuote cs) :=
  inferInstanceAs (Decidable (_ = _))

/-- A backslash in front of a text matters just to the first quote, and only if nothing but backslashes is
in front of that. Induction on the text. -/
theorem parity_escaped_iff (cs : List Char) :
    unescapedQuotesAfter true cs % 2 = unescapedQuotesAfter false cs % 2 ↔ ¬LeadsToQuote cs := by
  induction cs with
  | nil => simp [unescapedQuotesAfter, LeadsToQuote]
  | cons c cs ih =>
    by_cases hbackslash : c = '\\'
    · -- with one more backslash, the two states change places
      subst hbackslash
      have hleads : LeadsToQuote ('\\' :: cs) ↔ LeadsToQuote cs := by simp [LeadsToQuote]
      simp only [unescapedQuotesAfter, Bool.not_true, Bool.not_false]
      rw [hleads, ← ih]
      exact eq_comm
    · have hleads : LeadsToQuote (c :: cs) ↔ c = '"' := by
        simp [LeadsToQuote, List.dropWhile_cons_of_neg, hbackslash]
      rw [hleads]
      by_cases hquote : c = '"'
      · subst hquote
        simp only [unescapedQuotesAfter, reduceIte, Bool.false_eq_true, not_true_eq_false, iff_false]
        omega
      · rw [unescapedQuotesAfter_cons hbackslash hquote, unescapedQuotesAfter_cons hbackslash hquote]
        simp [hquote]

/-- The inserted text ends in an odd run of backslashes, and within its first `column` bytes the text behind it
leads to a quote. That quote is escaped by the insertion, or it was escaped and no longer is. -/
def TurnsQuote (added back : List Char) (column : Nat) : Prop :=
  Odd (backslashRun added) ∧ LeadsToQuote (takeBytes column back)

instance (added back : List Char) (column : Nat) : Decidable (TurnsQuote added back column) :=
  inferInstanceAs (Decidable (_ ∧ _))

/-- Inserting a text with an even count keeps the parity of everything later, unless it turns a quote. -/
theorem parity_insert_iff {front added : List Char} (hfront : Even (backslashRun front))
    (hadded : Even (quotesOf added)) (back : List Char) (column : Nat) :
    unescapedQuotesBefore (front ++ added ++ back) (byteLength front + byteLength added + column) % 2
        = unescapedQuotesBefore (front ++ back) (byteLength front + column) % 2
      ↔ ¬TurnsQuote added back column := by
  rw [List.append_assoc, Nat.add_assoc, unescapedQuotesBefore_add_of_even hfront,
    unescapedQuotesBefore_add_of_even hfront, unescapedQuotesBefore_add]
  -- an even number of quotes changes nothing, so only an escape at the seam can
  have hparity : (quotesOf front + (quotesOf added
        + unescapedQuotesAfter (escapedAfter false added) (takeBytes column back))) % 2
      = (quotesOf front + unescapedQuotesBefore back column) % 2
      ↔ unescapedQuotesAfter (escapedAfter false added) (takeBytes column back) % 2
        = unescapedQuotesAfter false (takeBytes column back) % 2 := by
    obtain ⟨k, hk⟩ := hadded
    rw [unescapedQuotesBefore]
    omega
  rw [hparity, TurnsQuote, ← escapedAfter_iff_odd]
  cases escapedAfter false added with
  | false => simp
  | true => rw [parity_escaped_iff]; simp

/-! ## Later tokens -/

section Line

variable {evaluators : List String} {line : List Char} {number : Nat} {t : Token}

theorem mem_tokensOfLine_iff :
    t ∈ tokensOfLine evaluators line number
      ↔ ∃ site : Site (withoutLineEnd line), site.token evaluators number = t := by
  have htext : withoutLineEnd line = [].reverse ++ withoutLineEnd line := rfl
  have hmem : t ∈ tokensOfLine evaluators line number ↔ _ :=
    mem_tokensFrom_iff evaluators number htext
  rw [hmem]
  simp

/-- A token is in a string if the line evaluates strings and the count up to the token is odd. -/
theorem inString_of_mem_tokensOfLine (h : t ∈ tokensOfLine evaluators line number) :
    t.inString = (invokesAny evaluators (withoutLineEnd line)
      && unescapedQuotesBefore line t.column % 2 == 1) := by
  obtain ⟨site, rfl⟩ := mem_tokensOfLine_iff.mp h
  obtain ⟨ending, hending⟩ := withoutLineEnd_append line
  -- the end of the line plays no part in the count
  have hline : line = site.before ++ (site.action ++ ending) := by
    rw [← List.append_assoc, ← site.text_eq, ← hending]
  have hquotes := unescapedQuotesBefore_append site.before (site.action ++ ending)
  rw [← hline] at hquotes
  show decide (site.InString evaluators) = (invokesAny evaluators (withoutLineEnd line)
    && unescapedQuotesBefore line (byteLength site.before) % 2 == 1)
  rw [hquotes, Bool.eq_iff_iff, decide_eq_true_iff, Bool.and_eq_true, beq_iff_eq, invokesAny_iff]
  exact and_comm

end Line

/-- The end that is cut off a line does not depend on what is in front of the characters that are kept. -/
theorem withoutLineEnd_of_append {front back kept : List Char} (hne : kept ≠ [])
    (h : withoutLineEnd (front ++ back) = front ++ kept) (front' : List Char) :
    withoutLineEnd (front' ++ back) = front' ++ kept := by
  obtain ⟨⟨ending, hback, hending⟩, hlast⟩ := dropEndWhile_eq_iff.mp h
  rw [List.append_assoc, List.append_cancel_left_eq] at hback
  refine dropEndWhile_eq_iff.mpr ⟨⟨ending, by rw [hback, List.append_assoc], hending⟩, ?_⟩
  intro c hc
  rw [List.getLast?_append_of_ne_nil _ hne] at hc hlast
  exact hlast c hc

/-- The tokens behind a place of a line do not depend on what is in front of it. -/
theorem exists_token_behind {evaluators : List String} {number : Nat} {front back : List Char}
    {t : Token} (ht : t ∈ tokensOfLine evaluators (front ++ back) number)
    (hcolumn : byteLength front ≤ t.column) (front' : List Char) :
    ∃ t' ∈ tokensOfLine evaluators (front' ++ back) number,
      t'.kind = t.kind ∧ t'.column + byteLength front = t.column + byteLength front' := by
  obtain ⟨site, rfl⟩ := mem_tokensOfLine_iff.mp ht
  obtain ⟨ending, hending⟩ := withoutLineEnd_append (front ++ back)
  have hline : front ++ back = site.before ++ (site.action ++ ending) := by
    rw [← List.append_assoc, ← site.text_eq, ← hending]
  -- the action begins somewhere in the second part
  obtain ⟨between, hback, -⟩ := FollowsAt.of_le ⟨front, rfl, rfl⟩ ⟨site.before, hline, rfl⟩ hcolumn
  have hbefore : site.before = front ++ between := by
    have hsame := (congrArg (front ++ ·) hback).symm.trans hline
    rw [← List.append_assoc, List.append_cancel_right_eq] at hsame
    exact hsame.symm
  have hkept : withoutLineEnd (front ++ back) = front ++ (between ++ site.action) := by
    rw [← List.append_assoc, ← hbefore, ← site.text_eq]
  have hne : between ++ site.action ≠ [] := List.append_ne_nil_of_right_ne_nil _ site.action_ne_nil
  have htext : withoutLineEnd (front' ++ back) = (front' ++ between) ++ site.action := by
    rw [withoutLineEnd_of_append hne hkept, List.append_assoc]
  let site' : Site (withoutLineEnd (front' ++ back)) :=
    { site with before := front' ++ between, text_eq := htext }
  refine ⟨site'.token evaluators number, mem_tokensOfLine_iff.mpr ⟨site', rfl⟩, rfl, ?_⟩
  show byteLength (front' ++ between) + byteLength front
    = byteLength site.before + byteLength front'
  rw [hbefore, byteLength_append, byteLength_append]
  omega

/-- **Quotes are counted exactly.** Up to a column, the count is the number of bytes below the column, and below
the end of the line, that hold a quote directly behind an even number of backslashes. Behind a text that does
not end in an odd run of backslashes, it goes on with the count of what follows, up to any column of it. So
where such a text is followed by an inserted one with an even count, the parity at every later column stays,
unless the insertion turns a quote in front of it; then the parity changes. The later tokens are still there,
and where the line evaluates strings before and after, they are in a string as they were, with the same
exception. -/
theorem quotes_counted :
    (∀ line column, unescapedQuotesBefore line column
        = Nat.count (QuoteAt (Bytes.ofText (String.ofList line))) (min column (byteLength line)))
      ∧ (∀ front back, Even (backslashRun front) →
        quotesOf (front ++ back) = quotesOf front + quotesOf back
        ∧ ∀ column, unescapedQuotesBefore (front ++ back) (byteLength front + column)
          = quotesOf front + unescapedQuotesBefore back column)
      ∧ ∀ front added back, Even (backslashRun front) → Even (quotesOf added) →
        (∀ column,
          unescapedQuotesBefore (front ++ added ++ back)
              (byteLength front + byteLength added + column) % 2
            = unescapedQuotesBefore (front ++ back) (byteLength front + column) % 2
          ↔ ¬TurnsQuote added back column)
        ∧ ∀ evaluators number, ∀ t ∈ tokensOfLine evaluators (front ++ back) number,
          byteLength front ≤ t.column →
          ∃ t' ∈ tokensOfLine evaluators (front ++ added ++ back) number,
            t'.kind = t.kind ∧ t'.column = t.column + byteLength added
            ∧ (invokesAny evaluators (withoutLineEnd (front ++ back)) = true →
              invokesAny evaluators (withoutLineEnd (front ++ added ++ back)) = true →
              (t'.inString = t.inString
                ↔ ¬TurnsQuote added back (t.column - byteLength front))) := by
  refine ⟨unescapedQuotesBefore_eq_count, fun front back hfront => ?_,
    fun front added back hfront hadded =>
      ⟨parity_insert_iff hfront hadded back, fun evaluators number t ht hcolumn => ?_⟩⟩
  · have hadd := unescapedQuotesBefore_add_of_even hfront back
    refine ⟨?_, hadd⟩
    rw [quotesOf, byteLength_append, hadd, ← quotesOf]
  · obtain ⟨t', ht', hkind, hmoved⟩ := exists_token_behind ht hcolumn (front ++ added)
    rw [byteLength_append] at hmoved
    refine ⟨t', ht', hkind, by omega, fun hdynamic hdynamic' => ?_⟩
    -- both columns are the same number of bytes behind the place
    have hold : byteLength front + (t.column - byteLength front) = t.column := by omega
    have hnew : byteLength front + byteLength added + (t.column - byteLength front) = t'.column := by
      omega
    have hparity := parity_insert_iff hfront hadded back (t.column - byteLength front)
    rw [hold, hnew] at hparity
    rw [inString_of_mem_tokensOfLine ht, inString_of_mem_tokensOfLine ht', hdynamic, hdynamic',
      Bool.true_and, Bool.true_and, ← hparity, Bool.eq_iff_iff, beq_iff_eq, beq_iff_eq]
    omega

/-- Into a string behind a letter of two bytes and two backslashes, text is inserted that holds an escaped quote
and ends in two backslashes. The token that is text of the string still is. -/
theorem quotes_counted_insideString :
    let front := "é\x7b\x7b tpl \"a\\\\".toList
    let added := " \\\"x\\\\".toList
    let back := "\x7b\x7b if .b \x7d\x7d\" . \x7d\x7d\n".toList
    Even (backslashRun front) ∧ Even (quotesOf added)
      ∧ quotesOf (front ++ back) = quotesOf front + quotesOf back
      ∧ ∃ t ∈ tokensOfLine ["tpl"] (front ++ added ++ back) 1,
        t.kind = .opener .ifBlock ∧ t.column = 19 ∧ t.inString = true := by
  intro front added back
  have hfront : Even (backslashRun front) := by decide
  have hadded : Even (quotesOf added) := by decide
  obtain ⟨-, happend, hinsert⟩ := quotes_counted
  -- the token before anything is inserted
  have htoken : (⟨.opener .ifBlock, 1, 13, false, .inLine, true⟩ : Token)
      ∈ tokensOfLine ["tpl"] (front ++ back) 1 := by decide
  obtain ⟨t, ht, hkind, hcolumn, hflag⟩ :=
    (hinsert front added back hfront hadded).2 ["tpl"] 1 _ htoken (by decide)
  have hadds : byteLength added = 6 := by decide
  rw [hadds] at hcolumn
  refine ⟨hfront, hadded, (happend front back hfront).1, t, ht, hkind, hcolumn, ?_⟩
  -- it moves with the text and stays in the string
  exact (hflag (by decide) (by decide)).mpr (by decide)

/-- It is not enough that nothing is escaped at one end of the inserted text. A backslash in front of the quote
that opens a string escapes that quote, so a token of the string leaves it, although nothing in front of the
backslash escapes it. Of two quotes behind a backslash, the first is escaped, so the token behind them leaves
its string, although they escape nothing. -/
theorem oneEnd_changes_parity :
    (let front := "\x7b\x7b tpl ".toList
      let added := ['\\']
      let back := "\"\x7b\x7b end \x7d\x7d\" . \x7d\x7d".toList
      Even (backslashRun front) ∧ Even (quotesOf added)
        ∧ (tokensOfLine ["tpl"] (front ++ back) 1).map (fun t => (t.column, t.inString)) = [(8, true)]
        ∧ unescapedQuotesBefore (front ++ back) 8 % 2 = 1
        ∧ (tokensOfLine ["tpl"] (front ++ added ++ back) 1).map (fun t => (t.column, t.inString))
          = [(9, false)]
        ∧ unescapedQuotesBefore (front ++ added ++ back) 9 % 2 = 0)
      ∧ (let front := ['\\']
        let added := ['"', '"']
        let back := "\x7b\x7b tpl \"\x7b\x7b end \x7d\x7d\" . \x7d\x7d".toList
        Even (backslashRun (front ++ added)) ∧ Even (quotesOf added)
          ∧ (tokensOfLine ["tpl"] (front ++ back) 1).map (fun t => (t.column, t.inString)) = [(9, true)]
          ∧ unescapedQuotesBefore (front ++ back) 9 % 2 = 1
          ∧ (tokensOfLine ["tpl"] (front ++ added ++ back) 1).map (fun t => (t.column, t.inString))
            = [(11, false)]
          ∧ unescapedQuotesBefore (front ++ added ++ back) 11 % 2 = 0) := by
  decide

end TemplateCoverage
