import TemplateCoverage.Proofs.Text.Offset
import TemplateCoverage.Proofs.Token.Keyword

/-!
# Strings that are evaluated

A token is text of a string if a function of its line evaluates strings and the quotes before the token
leave a string open. This module says what both parts mean:

* **`unescapedQuotes`**: the quotes of a text that an even run of backslashes precedes. The counting
  along the line finds their number (`unescapedQuotesBefore_append`).
* **`Invokes`**: a name stands as a whole word where a call may begin. The search along the line finds
  exactly the calls of the listed names (`invokesAny_iff`).
-/

namespace TemplateCoverage

open Text

/-! ## Quotes -/

/-- The number of backslashes at the end of a text. -/
def backslashRun (cs : List Char) : Nat :=
  (cs.reverse.takeWhile (· == '\\')).length

/-- The number of double quotes that stand behind an even number of backslashes. -/
def unescapedQuotes (cs : List Char) : Nat :=
  (List.range cs.length).countP fun i =>
    cs[i]? == some '"' && backslashRun (cs.take i) % 2 == 0

theorem backslashRun_concat (cs : List Char) (c : Char) :
    backslashRun (cs ++ [c]) = if c = '\\' then backslashRun cs + 1 else 0 := by
  unfold backslashRun
  rw [List.reverse_append, List.reverse_singleton, List.singleton_append, List.takeWhile_cons]
  split <;> simp_all

theorem unescapedQuotesAfter_cons {c : Char} (hbackslash : c ≠ '\\') (hquote : c ≠ '"')
    (escaped : Bool) (cs : List Char) :
    unescapedQuotesAfter escaped (c :: cs) = unescapedQuotesAfter false cs :=
  unescapedQuotesAfter.eq_4 escaped c cs hbackslash hquote

/-- The positions of a text are its first one and those of the rest. -/
theorem countP_range_succ (p : Nat → Bool) (n : Nat) :
    (List.range (n + 1)).countP p = (p 0).toNat + (List.range n).countP fun i => p (i + 1) := by
  rw [List.range_succ_eq_map, List.countP_cons, List.countP_map, Nat.add_comm]
  cases p 0 <;> rfl

/-- The state of the count is the parity of the run of backslashes in front. Induction on the text, for
every text in front of it. -/
theorem unescapedQuotesAfter_eq_countP (front cs : List Char) :
    unescapedQuotesAfter (backslashRun front % 2 == 1) cs
      = (List.range cs.length).countP fun i =>
          cs[i]? == some '"' && backslashRun (front ++ cs.take i) % 2 == 0 := by
  induction cs generalizing front with
  | nil => rfl
  | cons c cs ih =>
    have hrest : (List.range cs.length).countP (fun i =>
        (c :: cs)[i + 1]? == some '"' && backslashRun (front ++ (c :: cs).take (i + 1)) % 2 == 0)
        = unescapedQuotesAfter (backslashRun (front ++ [c]) % 2 == 1) cs := by
      rw [ih]
      simp only [List.getElem?_cons_succ, List.take_succ_cons, List.append_assoc,
        List.singleton_append]
    rw [List.length_cons, countP_range_succ, hrest, backslashRun_concat, List.take_zero,
      List.append_nil, List.getElem?_cons_zero]
    by_cases hbackslash : c = '\\'
    · -- one more backslash changes the parity
      have hparity : (!(backslashRun front % 2 == 1)) = ((backslashRun front + 1) % 2 == 1) := by
        rcases Nat.mod_two_eq_zero_or_one (backslashRun front) with h | h <;> simp [h, Nat.add_mod]
      subst hbackslash
      rw [unescapedQuotesAfter.eq_2, hparity]
      simp
    · rw [if_neg hbackslash]
      by_cases hquote : c = '"'
      · subst hquote
        rw [unescapedQuotesAfter.eq_3]
        rcases Nat.mod_two_eq_zero_or_one (backslashRun front) with h | h <;> simp [h]
      · rw [unescapedQuotesAfter_cons hbackslash hquote]
        simp [hquote]

/-- The quotes that the count of a line finds. -/
theorem unescapedQuotesAfter_eq (cs : List Char) :
    unescapedQuotesAfter false cs = unescapedQuotes cs :=
  unescapedQuotesAfter_eq_countP [] cs

theorem takeBytes_zero (cs : List Char) : takeBytes 0 cs = [] := by
  cases cs with
  | nil => rfl
  | cons c cs =>
    have hpos := c.utf8Size_pos
    rw [takeBytes, if_neg (by omega)]

/-- Beyond a character boundary, a line begins with the text in front of it. -/
theorem takeBytes_append (front back : List Char) (n : Nat) :
    takeBytes (byteLength front + n) (front ++ back) = front ++ takeBytes n back := by
  induction front with
  | nil => rw [byteLength_nil, Nat.zero_add, List.nil_append, List.nil_append]
  | cons c front ih =>
    have hfits : c.utf8Size ≤ byteLength (c :: front) + n := by
      rw [byteLength_cons]
      omega
    -- the first character fits, and leaves room for the others
    have hrest : byteLength (c :: front) + n - c.utf8Size = byteLength front + n := by
      rw [byteLength_cons]
      omega
    rw [List.cons_append, takeBytes, if_pos hfits, hrest, ih, List.cons_append]

/-- Up to a character boundary, the quotes of a line are those of the text in front of it. -/
theorem unescapedQuotesBefore_append (front back : List Char) :
    unescapedQuotesBefore (front ++ back) (byteLength front) = unescapedQuotes front := by
  have htake := takeBytes_append front back 0
  rw [takeBytes_zero, List.append_nil, Nat.add_zero] at htake
  rw [unescapedQuotesBefore, htake, unescapedQuotesAfter_eq]

/-! ## Calls -/

/-- What a call may stand behind: the braces that open an action, the parenthesis that opens a call, and
the bar that opens the next stage of a pipeline. -/
def callOpeners : List (List Char) :=
  ["\x7b\x7b-", "\x7b\x7b", "(", "|"].map String.toList

theorem callOpeners_ne_nil : ∀ opener ∈ callOpeners, opener ≠ [] := by
  decide

/-- The text begins with a call of the name: an opener, blanks, and the name as a whole word. -/
def BeginsCall (cs name : List Char) : Prop :=
  ∃ opener ∈ callOpeners, ∃ blanks rest, (∀ c ∈ blanks, isBlank c)
    ∧ cs = opener ++ blanks ++ name ++ rest ∧ WordBoundary (opener ++ blanks ++ name) rest

/-- A call of the name begins somewhere in the text. -/
def Invokes (cs name : List Char) : Prop :=
  ∃ front back, cs = front ++ back ∧ BeginsCall back name

/-- Behind some character, a boundary is what the search for calls looks for. -/
theorem boundary_iff_atWordBoundary {front back : List Char} {last : Char}
    (hlast : front.getLast? = some last) :
    WordBoundary front back ↔ atWordBoundary last back = true := by
  unfold WordBoundary atWordBoundary atWordEnd
  rw [hlast]
  cases back with
  | nil => cases hword : isWordChar last <;> simp [hword]
  | cons c cs => cases hword : isWordChar last <;> cases hc : isWordChar c <;> simp [hword, hc]

/-- Any number of blanks is skipped, and the character in front of the place is kept. Induction on the
text. -/
theorem mem_skipsOfBlanks {last before : Char} {cs rest : List Char} :
    (before, rest) ∈ skipsOfBlanks last cs
      ↔ ∃ blanks, (∀ c ∈ blanks, isBlank c) ∧ cs = blanks ++ rest
        ∧ blanks.getLastD last = before := by
  induction cs generalizing last with
  | nil =>
    rw [skipsOfBlanks, List.mem_singleton]
    constructor
    · intro h
      cases h
      exact ⟨[], by simp, rfl, rfl⟩
    · rintro ⟨blanks, -, hcs, hlast⟩
      obtain ⟨rfl, rfl⟩ := List.append_eq_nil_iff.mp hcs.symm
      rw [← hlast]
      rfl
  | cons d cs ih =>
    rw [skipsOfBlanks, List.mem_cons]
    constructor
    · -- induction on the text: a skip passes nothing, or a blank and then what comes behind it
      rintro (h | h)
      · cases h
        exact ⟨[], by simp, rfl, rfl⟩
      · split at h
        · next hd =>
          obtain ⟨blanks, hblanks, rfl, hlast⟩ := ih.mp h
          refine ⟨d :: blanks, List.forall_mem_cons.mpr ⟨hd, hblanks⟩, rfl, ?_⟩
          rw [List.getLastD_cons, hlast]
        · cases h
    · rintro ⟨blanks, hblanks, hcs, hlast⟩
      cases blanks with
      | nil =>
        left
        rw [← hlast, hcs]
        rfl
      | cons e blanks =>
        obtain ⟨rfl, hrest⟩ := List.cons.inj hcs
        obtain ⟨hd, hblanks⟩ := List.forall_mem_cons.mp hblanks
        right
        rw [if_pos hd]
        exact ih.mpr ⟨blanks, hblanks, hrest, by rw [← hlast, List.getLastD_cons]⟩

/-- The place in front of `rest`, behind an opener and blanks, with the character in front of it. -/
def SiteBehind (opener cs : List Char) (before : Char) (rest : List Char) : Prop :=
  ∃ blanks, (∀ c ∈ blanks, isBlank c) ∧ cs = opener ++ (blanks ++ rest)
    ∧ (opener ++ blanks).getLast? = some before

/-- Behind an opener, the places are those that skipping blanks leads to. -/
theorem siteBehind_append_iff {opener cs rest : List Char} {last before : Char}
    (hopener : opener.getLast? = some last) :
    SiteBehind opener (opener ++ cs) before rest ↔ (before, rest) ∈ skipsOfBlanks last cs := by
  rw [mem_skipsOfBlanks]
  refine exists_congr fun blanks => and_congr_right fun _ => ?_
  rw [List.append_cancel_left_eq, List.getLast?_append, hopener, Option.or_some,
    List.getLastD_eq_getLast?, Option.some_inj]

/-- A text that does not begin with an opener has no place behind it. -/
theorem not_siteBehind {opener cs : List Char} (h : ¬opener <+: cs) (before : Char)
    (rest : List Char) : ¬SiteBehind opener cs before rest := by
  rintro ⟨blanks, -, rfl, -⟩
  exact h ⟨_, rfl⟩

/-- The places of a text are those behind the openers that it begins with. Cases as in the search. -/
theorem mem_callSites {cs rest : List Char} {before : Char} :
    (before, rest) ∈ callSites cs ↔ ∃ opener ∈ callOpeners, SiteBehind opener cs before rest := by
  have hopeners : (∃ opener ∈ callOpeners, SiteBehind opener cs before rest)
      ↔ SiteBehind ['{', '{', '-'] cs before rest ∨ SiteBehind ['{', '{'] cs before rest
        ∨ SiteBehind ['('] cs before rest ∨ SiteBehind ['|'] cs before rest := by
    rw [show callOpeners = [['{', '{', '-'], ['{', '{'], ['('], ['|']] by decide]
    simp only [List.mem_cons, List.not_mem_nil, or_false, or_and_right, exists_or, exists_eq_left]
  rw [hopeners]
  unfold callSites
  split
  · next cs =>
    -- the dash may be read with the braces, and otherwise it is no blank that could be skipped
    have hmarker : SiteBehind ['{', '{', '-'] ('{' :: '{' :: '-' :: cs) before rest
        ↔ (before, rest) ∈ skipsOfBlanks '-' cs := siteBehind_append_iff rfl
    have hbraces : SiteBehind ['{', '{'] ('{' :: '{' :: '-' :: cs) before rest
        ↔ (before, rest) ∈ skipsOfBlanks '{' ('-' :: cs) := siteBehind_append_iff rfl
    rw [skipsOfBlanks, if_neg (by decide)] at hbraces
    simp [hmarker, hbraces, not_siteBehind]
  · next cs hdash =>
    have hmarker : ¬['{', '{', '-'] <+: '{' :: '{' :: cs := by
      rintro ⟨tail, htail⟩
      cases htail
      exact hdash tail rfl
    have hbraces : SiteBehind ['{', '{'] ('{' :: '{' :: cs) before rest
        ↔ (before, rest) ∈ skipsOfBlanks '{' cs := siteBehind_append_iff rfl
    simp [hbraces, not_siteBehind, hmarker]
  · next cs =>
    have hparen : SiteBehind ['('] ('(' :: cs) before rest
        ↔ (before, rest) ∈ skipsOfBlanks '(' cs := siteBehind_append_iff rfl
    simp [hparen, not_siteBehind]
  · next cs =>
    have hbar : SiteBehind ['|'] ('|' :: cs) before rest
        ↔ (before, rest) ∈ skipsOfBlanks '|' cs := siteBehind_append_iff rfl
    simp [hbar, not_siteBehind]
  · next hmarker hbraces hparen hbar =>
    have hnone : ∀ opener ∈ [['{', '{', '-'], ['{', '{'], ['('], ['|']], ¬opener <+: cs := by
      simp only [List.forall_mem_cons, List.not_mem_nil, false_implies, implies_true, and_true]
      refine ⟨?_, ?_, ?_, ?_⟩ <;> rintro ⟨tail, rfl⟩
      · exact hmarker tail rfl
      · exact hbraces tail rfl
      · exact hparen tail rfl
      · exact hbar tail rfl
    simp [not_siteBehind, hnone]

/-- Of a site, a name is called that stands there up to a boundary. -/
theorem callsAt_iff {before : Char} {behind name : List Char} :
    callsAt (before, behind) name = true
      ↔ ∃ rest, behind = name ++ rest ∧ atWordBoundary (name.getLastD before) rest = true := by
  unfold callsAt
  constructor
  · intro h
    split at h
    · cases h
    · next rest hrest => exact ⟨rest, after?_eq_some_iff.mp hrest, h⟩
  · -- the name is cut off the front, so what is left is determined
    rintro ⟨rest, rfl, h⟩
    rw [after?_eq_some_iff.mpr rfl]
    exact h

theorem beginsCall_iff {cs name : List Char} :
    BeginsCall cs name ↔ ∃ site ∈ callSites cs, callsAt site name = true := by
  -- the character in front of the rest is the last one of the name, or else the one in front of it
  have hlast : ∀ {front : List Char} {before : Char}, front.getLast? = some before →
      (front ++ name).getLast? = some (name.getLastD before) := by
    intro front before hfront
    rw [List.getLast?_append, hfront, Option.or_some, List.getLastD_eq_getLast?]
  constructor
  · rintro ⟨opener, hopener, blanks, rest, hblanks, rfl, hboundary⟩
    have hne : opener ++ blanks ≠ [] :=
      List.append_ne_nil_of_left_ne_nil (callOpeners_ne_nil opener hopener) blanks
    have hbefore := List.getLast?_eq_some_getLast hne
    refine ⟨((opener ++ blanks).getLast hne, name ++ rest), ?_, ?_⟩
    · exact mem_callSites.mpr ⟨opener, hopener, blanks, hblanks, by simp, hbefore⟩
    · exact callsAt_iff.mpr ⟨rest, rfl, (boundary_iff_atWordBoundary (hlast hbefore)).mp hboundary⟩
  · rintro ⟨⟨before, behind⟩, hsite, hcalls⟩
    obtain ⟨opener, hopener, blanks, hblanks, rfl, hbefore⟩ := mem_callSites.mp hsite
    obtain ⟨rest, rfl, hboundary⟩ := callsAt_iff.mp hcalls
    exact ⟨opener, hopener, blanks, rest, hblanks, by simp,
      (boundary_iff_atWordBoundary (hlast hbefore)).mpr hboundary⟩

/-- A call begins at the first character of the text or behind it. -/
theorem invokes_cons_iff {c : Char} {cs name : List Char} :
    Invokes (c :: cs) name ↔ BeginsCall (c :: cs) name ∨ Invokes cs name := by
  constructor
  · -- a call begins here or further on
    rintro ⟨front, back, hcs, hcall⟩
    cases front with
    | nil =>
      left
      rwa [hcs]
    | cons d front => exact .inr ⟨front, back, (List.cons.inj hcs).2, hcall⟩
  · rintro (hcall | ⟨front, back, rfl, hcall⟩)
    · exact ⟨[], c :: cs, rfl, hcall⟩
    · exact ⟨c :: front, back, rfl, hcall⟩

theorem not_invokes_nil (name : List Char) : ¬Invokes [] name := by
  rintro ⟨front, back, hcs, opener, hopener, blanks, rest, -, hback, -⟩
  refine callOpeners_ne_nil opener hopener ?_
  rw [(List.append_eq_nil_iff.mp hcs.symm).2] at hback
  simp only [List.nil_eq, List.append_eq_nil_iff] at hback
  exact hback.1.1.1

/-- **The search along a line finds the calls of the listed names.** Induction on the line. -/
theorem invokesAny_iff {names : List String} {cs : List Char} :
    invokesAny names cs = true ↔ ∃ name ∈ names, Invokes cs name.toList := by
  induction cs with
  | nil => simp [invokesAny, not_invokes_nil]
  | cons c cs ih =>
    -- at one place: the sites and the names can be tried in either order
    have hhere : ((callSites (c :: cs)).any fun site =>
        names.any fun name => callsAt site name.toList) = true
        ↔ ∃ name ∈ names, BeginsCall (c :: cs) name.toList := by
      simp only [List.any_eq_true, beginsCall_iff]
      constructor
      · rintro ⟨site, hsite, name, hname, hcalls⟩
        exact ⟨name, hname, site, hsite, hcalls⟩
      · rintro ⟨name, hname, site, hsite, hcalls⟩
        exact ⟨site, hsite, name, hname, hcalls⟩
    rw [invokesAny, Bool.or_eq_true, ih, hhere]
    simp only [invokes_cons_iff, and_or_left, exists_or]

end TemplateCoverage
