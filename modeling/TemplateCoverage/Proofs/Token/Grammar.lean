import TemplateCoverage.Proofs.Text.Search
import TemplateCoverage.Proofs.Token.Evaluation
import TemplateCoverage.Proofs.Token.Position

/-!
# The grammar of tokens

What a control token of a line is, read off the line itself and not off the code that looks for it:

* **`Extent`**: the argument of an action goes up to the next closing braces, or to the end of the line.
* **`Cleaned`**: the argument without white space around it, without the dashes at its end, and without
  white space again.
* **`Suits`**: which arguments a keyword takes, and the kind of token that it makes with them.
* **`Site`**: a place of the line with all of this, and the token that stands there (`Site.token`).

The tokens that are read from a point of the line on are those of the sites from there on
(`mem_tokensFrom_iff`).
-/

namespace TemplateCoverage

open Text

/-! ## Arguments -/

/-- The argument that follows a keyword is the text up to the first closing braces, behind which `after`
follows, or the rest of the line if there are none. -/
inductive Extent : List Char → List Char → Option (List Char) → Prop where
  | closed {rest argument after : List Char} (h : FirstMark ['}', '}'] rest argument after) :
      Extent rest argument (some after)
  | unclosed {rest : List Char} (h : ¬['}', '}'] <:+: rest) : Extent rest rest none

/-- The text without the run of dashes at its end. -/
structure WithoutDashes (cs core : List Char) : Prop where
  around : ∃ dashes, cs = core ++ dashes ∧ ∀ c ∈ dashes, c = '-'
  last : core.getLast? ≠ some '-'

/-- The argument without white space around it, without dashes at its end, and without white space
around what is left. -/
def Cleaned (raw argument : List Char) : Prop :=
  ∃ marked unmarked, Trimmed raw marked ∧ WithoutDashes marked unmarked ∧ Trimmed unmarked argument

/-- Which arguments a keyword takes, and which kind of token it makes with them. `closed` says whether
closing braces follow on the line. -/
inductive Suits (closed : Bool) : Keyword → List Char → TokenKind → Prop where
  | opener (word : Opener) {argument : List Char} (h : closed = true → argument ≠ []) :
      Suits closed (.opener word) argument (.opener word)
  | elseIf {argument : List Char} (h : closed = true → argument ≠ []) :
      Suits closed .elseIf argument .elseIfArm
  | elseAlone : Suits closed .elseAlone [] .elseArm
  | finish : Suits closed .finish [] .endBlock
  | named {quote : Char} {name : List Char} (hquote : quote = '"' ∨ quote = rawQuote)
      (hname : quote ∉ name) (tail : List Char) :
      Suits closed .named (quote :: (name ++ quote :: tail)) (.define (String.ofList name))

theorem withoutDashes_iff {cs core : List Char} :
    dropEndWhile (· == '-') cs = core ↔ WithoutDashes cs core := by
  -- the same two conditions, once as a test on characters
  rw [dropEndWhile_eq_iff]
  constructor
  · rintro ⟨⟨dashes, hcs, hdashes⟩, hlast⟩
    refine ⟨⟨dashes, hcs, fun c hc => by simpa using hdashes c hc⟩, fun hdash => ?_⟩
    simpa using hlast '-' hdash
  · rintro ⟨⟨dashes, hcs, hdashes⟩, hlast⟩
    refine ⟨⟨dashes, hcs, fun c hc => by simpa using hdashes c hc⟩, fun c hc => ?_⟩
    have hne : c ≠ '-' := by
      rintro rfl
      exact hlast hc
    simpa using hne

theorem cleanArgument_eq_iff {raw argument : List Char} :
    cleanArgument raw = argument ↔ Cleaned raw argument := by
  unfold cleanArgument
  constructor
  · intro h
    exact ⟨_, _, trim_eq_iff.mp rfl, withoutDashes_iff.mp rfl, trim_eq_iff.mp h⟩
  · rintro ⟨marked, unmarked, hmarked, hunmarked, hargument⟩
    rw [trim_eq_iff.mpr hmarked, withoutDashes_iff.mpr hunmarked, trim_eq_iff.mpr hargument]

/-- The argument that is read goes as far as it should, and is cleaned. -/
theorem readArgument_eq_iff {rest argument : List Char} {after : Option (List Char)} :
    readArgument rest = (argument, after) ↔ ∃ raw, Extent rest raw after ∧ Cleaned raw argument := by
  unfold readArgument
  constructor
  · intro h
    split at h
    · next raw after hcut =>
      cases h
      exact ⟨raw, .closed (cutAt?_eq_some_iff.mp hcut), cleanArgument_eq_iff.mp rfl⟩
    · next hcut =>
      cases h
      exact ⟨rest, .unclosed (cutAt?_eq_none_iff.mp hcut), cleanArgument_eq_iff.mp rfl⟩
  · -- an action that is closed ends at its first braces, any other one with the line
    rintro ⟨raw, hextent, hcleaned⟩
    cases hextent with
    | closed hfirst => rw [cutAt?_eq_some_iff.mpr hfirst, ← cleanArgument_eq_iff.mpr hcleaned]
    | unclosed hnone => rw [cutAt?_eq_none_iff.mpr hnone, ← cleanArgument_eq_iff.mpr hcleaned]

/-! ## Keywords with their arguments -/

/-- A text is cut in front of a character exactly where that character is found first. -/
theorem firstMark_singleton_iff {quote : Char} {cs name tail : List Char} :
    FirstMark [quote] cs name tail ↔ cs = name ++ quote :: tail ∧ quote ∉ name := by
  constructor
  · intro h
    refine ⟨h.around, fun hmem => ?_⟩
    obtain ⟨front, back, rfl⟩ := List.append_of_mem hmem
    have hle := h.first front (back ++ quote :: tail) (by rw [h.around]; simp)
    rw [List.length_append, List.length_cons] at hle
    omega
  · rintro ⟨rfl, hname⟩
    refine ⟨rfl, fun front back hcs => ?_⟩
    rcases List.append_eq_append_iff.mp hcs with ⟨mid, rfl, -⟩ | ⟨mid, rfl, hmid⟩
    · rw [List.length_append]
      omega
    · -- a quote further left would stand in the name
      cases mid with
      | nil => rw [List.append_nil]
      | cons c mid =>
        obtain ⟨rfl, -⟩ := List.cons.inj hmid
        simp at hname

theorem definedName?_eq_some_iff {argument : List Char} {text : String} :
    definedName? argument = some text
      ↔ ∃ quote name tail, (quote = '"' ∨ quote = rawQuote) ∧ quote ∉ name
        ∧ argument = quote :: (name ++ quote :: tail) ∧ String.ofList name = text := by
  unfold definedName?
  constructor
  · intro h
    split at h
    · cases h
    · next quote body =>
      split at h
      · next hquote =>
        obtain ⟨⟨name, tail⟩, hcut, rfl⟩ := Option.map_eq_some_iff.mp h
        -- the name ends at the first quote of its own kind
        obtain ⟨rfl, hname⟩ := firstMark_singleton_iff.mp (cutAt?_eq_some_iff.mp hcut)
        exact ⟨quote, name, tail, hquote, hname, rfl, rfl⟩
      · cases h
  · rintro ⟨quote, name, tail, hquote, hname, rfl, rfl⟩
    dsimp only
    rw [if_pos hquote, cutAt?_eq_some_iff.mpr (firstMark_singleton_iff.mpr ⟨rfl, hname⟩)]
    rfl

/-- A keyword makes a kind with its argument, and the kind takes that argument, exactly if they suit each
other. -/
theorem suits_iff {closed : Bool} {keyword : Keyword} {argument : List Char} {kind : TokenKind} :
    TokenKind.ofKeyword? keyword argument = some kind ∧ kind.accepts argument closed = true
      ↔ Suits closed keyword argument kind := by
  -- an argument that is needed may be missing only where the action is not closed
  have hneeds : ∀ kind : TokenKind, kind.needsArgument = true →
      (kind.accepts argument closed = true ↔ (closed = true → argument ≠ [])) := by
    intro kind hneeds
    unfold TokenKind.accepts
    rw [if_pos hneeds]
    cases argument <;> cases closed <;> simp
  have htakesNone : ∀ kind : TokenKind, kind.needsArgument = false →
      (kind.accepts argument closed = true ↔ argument = []) := by
    intro kind hneeds
    unfold TokenKind.accepts
    rw [hneeds]
    cases argument <;> simp
  constructor
  · rintro ⟨hkind, haccepts⟩
    cases keyword with
    | opener word =>
      cases hkind
      exact .opener word ((hneeds _ rfl).mp haccepts)
    | elseIf =>
      cases hkind
      exact .elseIf ((hneeds _ rfl).mp haccepts)
    | elseAlone =>
      cases hkind
      rw [(htakesNone _ rfl).mp haccepts]
      exact .elseAlone
    | finish =>
      cases hkind
      rw [(htakesNone _ rfl).mp haccepts]
      exact .finish
    | named =>
      obtain ⟨text, hname, rfl⟩ := Option.map_eq_some_iff.mp hkind
      obtain ⟨quote, _, tail, hquote, hnone, rfl, rfl⟩ := definedName?_eq_some_iff.mp hname
      exact .named hquote hnone tail
  · -- one case for each way in which a keyword and an argument suit each other
    intro h
    cases h with
    | opener word h => exact ⟨rfl, (hneeds _ rfl).mpr h⟩
    | elseIf h => exact ⟨rfl, (hneeds _ rfl).mpr h⟩
    | elseAlone => exact ⟨rfl, (htakesNone _ rfl).mpr rfl⟩
    | finish => exact ⟨rfl, (htakesNone _ rfl).mpr rfl⟩
    | @named quote name hquote hname tail =>
      refine ⟨?_, (hneeds _ rfl).mpr fun _ => List.cons_ne_nil _ _⟩
      show (definedName? _).map TokenKind.define = _
      rw [definedName?_eq_some_iff.mpr ⟨quote, name, tail, hquote, hname, rfl, rfl⟩]
      rfl

/-! ## Sites -/

/-- A place of a line where a control token stands: behind `before`, the head of an action begins, and an
argument follows its keyword that suits it. -/
structure Site (text : List Char) where
  before : List Char
  action : List Char
  text_eq : text = before ++ action
  trimLeft : Bool
  keyword : Keyword
  rest : List Char
  head : HeadOf action trimLeft keyword rest
  raw : List Char
  after : Option (List Char)
  extent : Extent rest raw after
  argument : List Char
  cleaned : Cleaned raw argument
  kind : TokenKind
  suits : Suits after.isSome keyword argument kind

namespace Site

instance (cs name : List Char) : Decidable (Invokes cs name) :=
  decidable_of_iff (invokesAny [String.ofList name] cs = true) (by simp [invokesAny_iff])

variable {text : List Char}

/-- The site is in a string that will be evaluated: an odd number of quotes stands in front of it, and
the line calls one of the functions that evaluate strings. -/
def InString (site : Site text) (evaluators : List String) : Prop :=
  unescapedQuotes site.before % 2 = 1 ∧ ∃ name ∈ evaluators, Invokes text name.toList

/-- Nothing but white space surrounds the action. -/
def Alone (site : Site text) : Prop :=
  (∀ c ∈ site.before, isBlank c) ∧ ∃ after ∈ site.after, ∀ c ∈ after, isBlank c

instance (site : Site text) (evaluators : List String) : Decidable (site.InString evaluators) :=
  inferInstanceAs (Decidable (_ ∧ _))

instance (site : Site text) : Decidable site.Alone :=
  inferInstanceAs (Decidable (_ ∧ _))

/-- The token of a site. -/
def token (site : Site text) (evaluators : List String) (number : Nat) : Token where
  kind := site.kind
  line := number
  column := byteLength site.before
  trimLeft := site.trimLeft
  placement := if site.Alone then .standalone else .inLine
  inString := site.InString evaluators

end Site

/-! ## The tokens of the sites -/

theorem byteLength_reverse (cs : List Char) : byteLength cs.reverse = byteLength cs := by
  induction cs with
  | nil => rfl
  | cons c cs ih =>
    rw [List.reverse_cons, byteLength_append, ih, byteLength_cons, byteLength_cons, byteLength_nil]
    omega

section Text

variable {text : List Char} (evaluators : List String) (number : Nat)

/-- What the reader makes of a head, an argument and a kind is the token of the site. -/
theorem Site.token_eq (site : Site text) {before : List Char}
    (hbefore : site.before = before.reverse) :
    site.token evaluators number
      = { kind := site.kind, line := number, column := byteLength before
          trimLeft := site.trimLeft
          placement :=
            if allBlank before && site.after.any allBlank then .standalone else .inLine
          inString := invokesAny evaluators text
            && unescapedQuotesBefore text (byteLength before) % 2 == 1 } := by
  have hcolumn : byteLength site.before = byteLength before := by
    rw [hbefore, byteLength_reverse]
  have halone : site.Alone ↔ (allBlank before && site.after.any allBlank) = true := by
    unfold Site.Alone allBlank
    rw [hbefore]
    cases site.after <;> simp
  -- quotes are counted up to the column, which is where the action begins
  have hinString : decide (site.InString evaluators)
      = (invokesAny evaluators text
        && unescapedQuotesBefore text (byteLength before) % 2 == 1) := by
    have hquotes := unescapedQuotesBefore_append site.before site.action
    rw [← site.text_eq, hcolumn] at hquotes
    rw [Bool.eq_iff_iff, decide_eq_true_iff, Bool.and_eq_true, beq_iff_eq, invokesAny_iff, hquotes]
    exact and_comm
  unfold Site.token
  simp only [hcolumn, halone, hinString]

/-- A token is read exactly where a site is, and it is the token of that site. -/
theorem tokenAt?_eq_some_iff {before rest : List Char} (htext : text = before.reverse ++ rest)
    {t : Token} :
    tokenAt? text number (invokesAny evaluators text) before rest = some t
      ↔ ∃ site : Site text, site.before = before.reverse ∧ site.token evaluators number = t := by
  constructor
  · intro h
    unfold tokenAt? at h
    split at h
    · cases h
    · next head hread =>
      obtain ⟨raw, hextent, hcleaned⟩ := readArgument_eq_iff.mp (Eq.refl (readArgument head.rest))
      simp only at h
      split at h
      · cases h
      · next kind hkind =>
        split at h
        · next haccepts =>
          cases h
          -- each test that was passed is one of the conditions on a site
          let site : Site text :=
            { before := before.reverse, action := rest, text_eq := htext
              trimLeft := head.trimLeft, keyword := head.keyword, rest := head.rest
              head := ActionHead.read?_eq_some_iff.mp hread
              raw := raw, after := _, extent := hextent, argument := _, cleaned := hcleaned
              kind := kind, suits := suits_iff.mp ⟨hkind, haccepts⟩ }
          exact ⟨site, rfl, site.token_eq evaluators number rfl⟩
        · cases h
  · rintro ⟨site, hbefore, rfl⟩
    -- the text in front determines what is behind it
    have haction : site.action = rest := by
      have hsame := site.text_eq.symm.trans htext
      rw [hbefore] at hsame
      exact List.append_cancel_left hsame
    obtain ⟨hkind, haccepts⟩ := suits_iff.mpr site.suits
    have hread : ActionHead.read? rest = some ⟨site.trimLeft, site.keyword, site.rest⟩ := by
      rw [← haction]
      exact ActionHead.read?_eq_some_iff.mpr site.head
    have hargument := readArgument_eq_iff.mpr ⟨site.raw, site.extent, site.cleaned⟩
    unfold tokenAt?
    simp only [hread, hargument, hkind, haccepts, if_true]
    rw [site.token_eq evaluators number hbefore]

theorem Site.action_ne_nil (site : Site text) : site.action ≠ [] := by
  obtain ⟨blanks, inner, haction, -⟩ := site.head
  rw [haction]
  exact List.cons_ne_nil _ _

/-- The tokens that are read from a point on are those of the sites from there on. Induction on the rest
of the line. -/
theorem mem_tokensFrom_iff {before rest : List Char} (htext : text = before.reverse ++ rest)
    {t : Token} :
    t ∈ tokensFrom text number (invokesAny evaluators text) before rest
      ↔ ∃ site : Site text, before.reverse <+: site.before ∧ site.token evaluators number = t := by
  induction rest generalizing before with
  | nil =>
    refine ⟨fun h => (List.not_mem_nil h).elim, ?_⟩
    rintro ⟨site, ⟨more, hbefore⟩, -⟩
    -- nothing is left for an action
    have hsame := site.text_eq.symm.trans htext
    rw [← hbefore, List.append_assoc, List.append_cancel_left_eq, List.append_eq_nil_iff] at hsame
    exact absurd hsame.2 site.action_ne_nil
  | cons c cs ih =>
    have htext' : text = (c :: before).reverse ++ cs := by
      rw [htext, List.reverse_cons, List.append_assoc, List.singleton_append]
    rw [tokensFrom, List.mem_append, Option.mem_toList,
      tokenAt?_eq_some_iff evaluators number htext, ih htext', List.reverse_cons]
    constructor
    · rintro (⟨site, hbefore, htoken⟩ | ⟨site, hbefore, htoken⟩)
      · exact ⟨site, hbefore ▸ List.prefix_rfl, htoken⟩
      · exact ⟨site, (List.prefix_append _ _).trans hbefore, htoken⟩
    · rintro ⟨site, ⟨more, hbefore⟩, htoken⟩
      cases more with
      | nil => exact .inl ⟨site, by rw [← hbefore, List.append_nil], htoken⟩
      | cons d more =>
        -- the line goes on with its next character, whatever the site has in front of it
        have hsame := site.text_eq.symm.trans htext
        rw [← hbefore, List.append_assoc, List.append_cancel_left_eq] at hsame
        obtain ⟨rfl, -⟩ := List.cons.inj hsame
        exact .inr ⟨site, ⟨more, by rw [← hbefore, List.append_assoc, List.singleton_append]⟩,
          htoken⟩

end Text

end TemplateCoverage
