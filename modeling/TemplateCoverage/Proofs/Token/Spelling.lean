import TemplateCoverage.Proofs.Token.Search
import TemplateCoverage.Template.Tracking

/-!
# Texts that spell tokens

Generated text is put together from pieces. Each piece spells its own tokens, wherever it stands, as long
as no string is open in front of it and no action reaches from one piece to the next.

* **`StringsClosed`**: behind the text, no string is open and nothing is escaped.
* **`Inert`**: a text that closes its strings and in which no action opens.
* **`kindAt?`**: the kind of the token at the start of a text, which does not depend on what stands around
  it. A keyword that calls for an argument makes a token if something visible follows it
  (`kindAt?_of_argument`).
* **`Spells`**: the text closes its strings, and the tokens that begin in it have the given kinds. Pieces in
  a row spell their tokens in a row (`Spells.append`).
* **`spells_action`**: an action spells one token or none, if its inside is inert.
* **`tokensOfLine_of_spells`**: a line spells its own tokens.
-/

namespace TemplateCoverage

open Text Template

/-! ## Strings -/

/-- Whether a backslash escapes the character behind the text. The flag says so of the text itself. -/
def escapedAfter (escaped : Bool) : List Char → Bool
  | [] => escaped
  | c :: cs => escapedAfter (!escaped && c == '\\') cs

theorem escapedAfter_append (escaped : Bool) (cs ds : List Char) :
    escapedAfter escaped (cs ++ ds) = escapedAfter (escapedAfter escaped cs) ds := by
  induction cs generalizing escaped with
  | nil => rfl
  | cons c cs ih => exact ih _

/-- What is behind a text is escaped if the text ends with an odd run of backslashes. Induction on the text,
for every text in front of it. -/
theorem escapedAfter_eq (front cs : List Char) :
    escapedAfter (backslashRun front % 2 == 1) cs = (backslashRun (front ++ cs) % 2 == 1) := by
  induction cs generalizing front with
  | nil => rw [List.append_nil, escapedAfter]
  | cons c cs ih =>
    have hflag : (!(backslashRun front % 2 == 1) && c == '\\') = (backslashRun (front ++ [c]) % 2 == 1) := by
      rw [backslashRun_concat]
      by_cases hc : c = '\\'
      · -- one more backslash changes the parity
        rcases Nat.mod_two_eq_zero_or_one (backslashRun front) with h | h <;> simp [hc, h, Nat.add_mod]
      · simp [hc]
    rw [escapedAfter, hflag, ih, List.append_assoc, List.singleton_append]

/-- The quotes of two texts in a row. Induction on the first one. -/
theorem unescapedQuotesAfter_append (escaped : Bool) (cs ds : List Char) :
    unescapedQuotesAfter escaped (cs ++ ds)
      = unescapedQuotesAfter escaped cs + unescapedQuotesAfter (escapedAfter escaped cs) ds := by
  induction cs generalizing escaped with
  | nil => simp [unescapedQuotesAfter, escapedAfter]
  | cons c cs ih =>
    rw [List.cons_append, escapedAfter]
    -- only a backslash and a quote make a difference
    by_cases hbackslash : c = '\\'
    · subst hbackslash
      simp only [unescapedQuotesAfter, ih]
      cases escaped <;> rfl
    · have hnext : (!escaped && c == '\\') = false := by simp [hbackslash]
      rw [hnext]
      by_cases hquote : c = '"'
      · subst hquote
        simp only [unescapedQuotesAfter, ih, Nat.add_assoc]
      · simp only [unescapedQuotesAfter, ih]

/-- Behind the text, no string is open and nothing is escaped. -/
structure StringsClosed (cs : List Char) : Prop where
  even : unescapedQuotesAfter false cs % 2 = 0
  unescaped : escapedAfter false cs = false

instance (cs : List Char) : Decidable (StringsClosed cs) :=
  decidable_of_iff (unescapedQuotesAfter false cs % 2 = 0 ∧ escapedAfter false cs = false)
    ⟨fun h => ⟨h.1, h.2⟩, fun h => ⟨h.1, h.2⟩⟩

theorem StringsClosed.append {cs ds : List Char} (hcs : StringsClosed cs) (hds : StringsClosed ds) :
    StringsClosed (cs ++ ds) := by
  constructor
  · rw [unescapedQuotesAfter_append, hcs.unescaped, Nat.add_mod, hcs.even, hds.even]
  · rw [escapedAfter_append, hcs.unescaped, hds.unescaped]

/-- A text that closes its strings, and in which no action opens, whatever follows it. -/
structure Inert (s : String) : Prop where
  closed : StringsClosed s.toList
  unopened : Unopened s.toList

instance (s : String) : Decidable (Inert s) :=
  decidable_of_iff (StringsClosed s.toList ∧ Unopened s.toList)
    ⟨fun h => ⟨h.1, h.2⟩, fun h => ⟨h.1, h.2⟩⟩

theorem Unopened.append {cs ds : List Char} (hcs : Unopened cs) (hds : Unopened ds) :
    Unopened (cs ++ ds) := by
  obtain ⟨hchain, -, hlast⟩ := List.isChain_append.mp hcs
  unfold Unopened
  rw [List.append_assoc]
  -- the last character of the first text is no brace
  exact hchain.append hds fun c hc d _ hbrace => absurd rfl (hlast c hc '{' rfl hbrace)

theorem Inert.append {s t : String} (hs : Inert s) (ht : Inert t) : Inert (s ++ t) := by
  constructor
  · rw [String.toList_append]
    exact hs.closed.append ht.closed
  · rw [String.toList_append]
    exact hs.unopened.append ht.unopened

/-! ## Kinds -/

/-- The kind of the token at the start of a text. -/
def kindAt? (cs : List Char) : Option TokenKind :=
  match ActionHead.read? cs with
  | none => none
  | some head =>
    let (argument, after) := readArgument head.rest
    (TokenKind.ofKeyword? head.keyword argument).filter fun kind =>
      kind.accepts argument after.isSome

section

variable {text before rest : List Char} {number : Nat} {dynamic : Bool}

theorem map_kind_tokenAt? :
    (tokenAt? text number dynamic before rest).map (·.kind) = kindAt? rest := by
  unfold tokenAt? kindAt?
  -- the kind is known before anything else of the token
  cases ActionHead.read? rest with
  | none => rfl
  | some head =>
    dsimp only
    cases TokenKind.ofKeyword? head.keyword (readArgument head.rest).1 with
    | none => rfl
    | some kind =>
      dsimp only [Option.filter]
      split
      · rfl
      · rfl

/-- No token is in a string if none is open in front of it. -/
theorem inString_of_tokenAt? (htext : text = before.reverse ++ rest)
    (hclosed : StringsClosed before.reverse) {t : Token}
    (h : tokenAt? text number dynamic before rest = some t) : t.inString = false := by
  -- the strings in front are closed, so the number of quotes is even
  have hquotes : unescapedQuotesBefore text (byteLength before) % 2 = 0 := by
    rw [htext, ← byteLength_reverse, unescapedQuotesBefore_append, ← unescapedQuotesAfter_eq]
    exact hclosed.even
  unfold tokenAt? at h
  split at h
  · cases h
  · simp only at h
    split at h
    · cases h
    · split at h
      · cases h
        simp [hquotes]
      · cases h

end

/-- Cleaning an argument takes nothing away but white space and dashes. -/
theorem Cleaned.mem {raw argument : List Char} (h : Cleaned raw argument) {c : Char} (hc : c ∈ raw)
    (hblank : isBlank c = false) (hdash : c ≠ '-') : c ∈ argument := by
  obtain ⟨marked, unmarked, hmarked, ⟨⟨dashes, rfl, hdashes⟩, -⟩, hargument⟩ := h
  -- what is taken away is blank or a dash
  have hkept : ∀ {cs core : List Char}, Trimmed cs core → c ∈ cs → c ∈ core := by
    rintro cs core ⟨⟨front, back, rfl, hfront, hback⟩, -, -⟩ hcs
    have hnot : ∀ ds : List Char, (∀ d ∈ ds, isBlank d) → c ∉ ds := by
      intro ds hds hmem
      rw [hds c hmem] at hblank
      cases hblank
    simpa [hnot front hfront, hnot back hback] using hcs
  rcases List.mem_append.mp (hkept hmarked hc) with hunmarked | hmem
  · exact hkept hargument hunmarked
  · exact absurd (hdashes c hmem) hdash

/-- Where something visible follows a blank, the argument is not empty. -/
theorem readArgument_ne_nil {c : Char} {cs : List Char} (hblank : isBlank c = false) (hdash : c ≠ '-')
    (hbrace : c ≠ '}') : (readArgument (' ' :: c :: cs)).1 ≠ [] := by
  rcases hread : readArgument (' ' :: c :: cs) with ⟨argument, after⟩
  obtain ⟨raw, hextent, hcleaned⟩ := readArgument_eq_iff.mp hread
  have hmem : c ∈ raw := by
    cases hextent with
    | unclosed => exact List.mem_cons_of_mem _ (List.mem_cons_self ..)
    | closed hfirst =>
      -- the braces come neither at the blank nor at the visible character
      match raw, hfirst.around with
      | [_], h => exact absurd (List.cons.inj (List.cons.inj h).2).1 hbrace
      | _ :: d :: more, h =>
        obtain ⟨rfl, -⟩ := List.cons.inj (List.cons.inj h).2
        exact List.mem_cons_of_mem _ (List.mem_cons_self ..)
  exact List.ne_nil_of_mem (hcleaned.mem hmem hblank hdash)

/-- A keyword that calls for an argument makes its token where something visible follows. -/
theorem kindAt?_of_argument {cs rest : List Char} {trim : Bool} {keyword : Keyword} {kind : TokenKind}
    {c : Char} (hread : ActionHead.read? cs = some ⟨trim, keyword, ' ' :: c :: rest⟩)
    (hkind : ∀ argument, TokenKind.ofKeyword? keyword argument = some kind)
    (hneeds : kind.needsArgument = true) (hblank : isBlank c = false) (hdash : c ≠ '-')
    (hbrace : c ≠ '}') : kindAt? cs = some kind := by
  have hne : (readArgument (' ' :: c :: rest)).1 ≠ [] := readArgument_ne_nil hblank hdash hbrace
  unfold kindAt?
  rw [hread]
  dsimp only
  rw [hkind, Option.filter_some, if_pos]
  simp [TokenKind.accepts, hneeds, hne]

/-! ## Spelling -/

/-- The text does not end with a line terminator. -/
def Unterminated (cs : List Char) : Prop :=
  cs.getLast? ≠ some '\n' ∧ cs.getLast? ≠ some '\r'

instance (cs : List Char) : Decidable (Unterminated cs) :=
  inferInstanceAs (Decidable (_ ∧ _))

theorem Unterminated.append {cs ds : List Char} (hcs : Unterminated cs) (hds : Unterminated ds) :
    Unterminated (cs ++ ds) := by
  have hlast : ∀ c, cs.getLast? ≠ some c → ds.getLast? ≠ some c → (cs ++ ds).getLast? ≠ some c := by
    intro c hc hd happend
    rw [List.getLast?_append, Option.or_eq_some_iff] at happend
    rcases happend with h | ⟨-, h⟩
    · exact hd h
    · exact hc h
  exact ⟨hlast _ hcs.1 hds.1, hlast _ hcs.2 hds.2⟩

/-- The tokens have the given kinds, and none of them is in a string. -/
structure HasKinds (ts : List Token) (kinds : List TokenKind) : Prop where
  kinds : ts.map (·.kind) = kinds
  outside : ∀ t ∈ ts, t.inString = false

theorem HasKinds.append {ts us : List Token} {ks ls : List TokenKind} (hts : HasKinds ts ks)
    (hus : HasKinds us ls) : HasKinds (ts ++ us) (ks ++ ls) where
  kinds := by rw [List.map_append, hts.kinds, hus.kinds]
  outside := List.forall_mem_append.mpr ⟨hts.outside, hus.outside⟩

/-- Whatever stands around the text, if no string is open in front of it, then the tokens that begin in it
have the given kinds and are in no string. The text leaves no string open itself, and it does not end with a
line terminator. -/
structure Spells (s : String) (kinds : List TokenKind) : Prop where
  closed : StringsClosed s.toList
  unterminated : Unterminated s.toList
  tokens : ∀ (text : List Char) (number : Nat) (dynamic : Bool) (before rest : List Char),
    text = before.reverse ++ (s.toList ++ rest) → StringsClosed before.reverse →
    ∃ ts, tokensFrom text number dynamic before (s.toList ++ rest)
        = ts ++ tokensFrom text number dynamic (s.toList.reverse ++ before) rest
      ∧ HasKinds ts kinds

theorem Inert.spells {s : String} (h : Inert s) (hlast : Unterminated s.toList) : Spells s [] where
  closed := h.closed
  unterminated := hlast
  tokens _ _ _ before rest _ _ :=
    ⟨[], tokensFrom_of_unopened h.unopened before rest, rfl, fun _ ht => (nomatch ht)⟩

/-- Pieces in a row spell their tokens in a row, since the first one leaves no string open. -/
theorem Spells.append {s t : String} {ks ls : List TokenKind} (hs : Spells s ks) (ht : Spells t ls) :
    Spells (s ++ t) (ks ++ ls) where
  closed := by
    rw [String.toList_append]
    exact hs.closed.append ht.closed
  unterminated := by
    rw [String.toList_append]
    exact hs.unterminated.append ht.unterminated
  tokens := by
    intro text number dynamic before rest htext hclosed
    rw [String.toList_append, List.append_assoc] at htext ⊢
    -- the second text is read behind the first one, which leaves no string open
    have hbetween : (s.toList.reverse ++ before).reverse = before.reverse ++ s.toList := by
      rw [List.reverse_append, List.reverse_reverse]
    obtain ⟨ts, hts, hkinds⟩ := hs.tokens text number dynamic before _ htext hclosed
    obtain ⟨us, hus, hkinds'⟩ := ht.tokens text number dynamic (s.toList.reverse ++ before) rest
      (by rw [htext, hbetween, List.append_assoc]) (hbetween ▸ hclosed.append hs.closed)
    refine ⟨ts ++ us, ?_, hkinds.append hkinds'⟩
    rw [hts, hus, List.reverse_append, List.append_assoc, List.append_assoc]

/-- Behind its first brace, an action is inert if its inside is, and it ends with a brace. -/
theorem exists_action_eq {opening text : String}
    (hopening : opening = openBraces ∨ opening = trimBraces) (htext : Inert text) :
    ∃ inner : String, (action opening text).toList = '{' :: inner.toList
      ∧ Inert inner ∧ inner.toList.getLast? = some '}' := by
  have hend : Inert " \x7d\x7d" := by decide
  -- the first brace is set apart, since the action begins with it
  rcases hopening with rfl | rfl
  · have hbegin : Inert "\x7b " := by decide
    refine ⟨"\x7b " ++ text ++ " \x7d\x7d", ?_, (hbegin.append htext).append hend, ?_⟩
    · simp [action, openBraces]
    · rw [String.toList_append, List.getLast?_append]
      rfl
  · have hbegin : Inert "\x7b- " := by decide
    refine ⟨"\x7b- " ++ text ++ " \x7d\x7d", ?_, (hbegin.append htext).append hend, ?_⟩
    · simp [action, trimBraces]
    · rw [String.toList_append, List.getLast?_append]
      rfl

/-- An action spells the token at its start, if there is one. -/
theorem spells_action {opening text : String} (kind : Option TokenKind)
    (hopening : opening = openBraces ∨ opening = trimBraces) (htext : Inert text)
    (hkind : ∀ rest, kindAt? ((action opening text).toList ++ rest) = kind) :
    Spells (action opening text) kind.toList := by
  obtain ⟨inner, haction, hinner, hlast⟩ := exists_action_eq hopening htext
  have hbrace : StringsClosed ['{'] := by decide
  rw [haction] at hkind
  constructor
  · rw [haction]
    exact hbrace.append hinner.closed
  · rw [haction, Unterminated, List.getLast?_cons, hlast]
    decide
  · intro line number dynamic before rest hline hbefore
    rw [haction] at hline ⊢
    refine ⟨(tokenAt? line number dynamic before ('{' :: inner.toList ++ rest)).toList, ?_, ?_, ?_⟩
    · -- a token begins at the first brace at most
      rw [List.cons_append, tokensFrom, tokensFrom_of_unopened hinner.unopened, List.reverse_cons,
        List.append_cons]
    · rw [← hkind rest, ← map_kind_tokenAt?, Option.toList_map]
    · intro t ht
      exact inString_of_tokenAt? hline hbefore (Option.mem_toList.mp ht)

/-! ## Lines -/

/-- A line that is spelled has the tokens that are spelled, whatever terminates it. -/
theorem tokensOfLine_of_spells {s : String} {kinds : List TokenKind} (h : Spells s kinds)
    (evaluators : List String) (number : Nat) {ending : List Char}
    (hending : ∀ c ∈ ending, c = '\n' ∨ c = '\r') :
    HasKinds (tokensOfLine evaluators (s.toList ++ ending) number) kinds := by
  -- the text does not end its own line, so only the ending is cut off
  have htext : withoutLineEnd (s.toList ++ ending) = s.toList := by
    refine dropEndWhile_eq_iff.mpr ⟨⟨ending, rfl, fun c hc => by simpa using hending c hc⟩, ?_⟩
    intro c hc
    have hnot : c ≠ '\n' ∧ c ≠ '\r' :=
      ⟨fun h' => h.unterminated.1 (h' ▸ hc), fun h' => h.unterminated.2 (h' ▸ hc)⟩
    simpa using hnot
  obtain ⟨ts, hts, hkinds⟩ := h.tokens s.toList number (invokesAny evaluators s.toList) [] []
    (by simp) (by decide)
  have htokens : tokensOfLine evaluators (s.toList ++ ending) number = ts := by
    unfold tokensOfLine
    dsimp only
    rw [htext]
    simpa [tokensFrom] using hts
  rw [htokens]
  exact hkinds

theorem hasKinds_of_spells {s : String} {kinds : List TokenKind} (h : Spells s kinds)
    (evaluators : List String) (number : Nat) :
    HasKinds (tokensOfLine evaluators s.toList number) kinds := by
  have hline := tokensOfLine_of_spells h evaluators number (fun c hc => nomatch hc : ∀ c ∈ [], _)
  rwa [List.append_nil] at hline

end TemplateCoverage
