import TemplateCoverage.Instrument
import TemplateCoverage.Proofs.Template.Lexer
import TemplateCoverage.Proofs.Token.Spelling

/-!
# The control tokens of tracking code

What a scan makes of the text of tracking code. It knows no pipelines, so the keys and IDs in the code must
not hold opening braces themselves. Whatever else is in them is quoted, so that it neither opens an action
nor leaves a string open.

* **`inert_literal`**: the literal of a string without opening braces is inert.
* **`spells_argument`**: an action that begins with a keyword and has an argument spells one token.
* **`Code.kinds`, `Code.elseKinds`**: the control tokens of code, in the order of its text.
* **`spells_code`**: the text of code spells these, by induction over the code.
* **`spells_trackingCall`, `spells_initCall`, `spells_reportCall`**: so does what is inserted in a file.
-/

namespace TemplateCoverage.Template

open Text

/-! ## Literals -/

/-- Opening braces stand in the string. -/
def HoldsBraces (s : String) : Prop :=
  ['{', '{'] <:+: s.toList

instance (s : String) : Decidable (HoldsBraces s) :=
  inferInstanceAs (Decidable (_ <:+: _))

/-- A character is written as it is, or it is escaped. -/
theorem literalChar_cases (c : Char) :
    c ≠ '"' ∧ c ≠ '\\' ∧ literalChar c = [c]
      ∨ ∃ d, (d = '"' ∨ d = '\\' ∨ d = 'n') ∧ literalChar c = ['\\', d] := by
  -- three characters are escaped, and all others stand for themselves
  unfold literalChar
  split
  · exact .inr ⟨'"', .inl rfl, rfl⟩
  · next hquote =>
    split
    · exact .inr ⟨'\\', .inr (.inl rfl), rfl⟩
    · next hbackslash =>
      split
      · exact .inr ⟨'n', .inr (.inr rfl), rfl⟩
      · exact .inl ⟨hquote, hbackslash, rfl⟩

/-- What is written in a literal leaves nothing escaped, and all its quotes are escaped. -/
theorem quotes_literalChars (cs : List Char) :
    unescapedQuotesAfter false (cs.flatMap literalChar) = 0
      ∧ escapedAfter false (cs.flatMap literalChar) = false := by
  have hescape : ∀ d, d = '"' ∨ d = '\\' ∨ d = 'n' → unescapedQuotesAfter false ['\\', d] = 0
      ∧ escapedAfter false ['\\', d] = false := by
    rintro d (rfl | rfl | rfl) <;> exact ⟨rfl, rfl⟩
  have hchar : ∀ c, unescapedQuotesAfter false (literalChar c) = 0
      ∧ escapedAfter false (literalChar c) = false := by
    intro c
    rcases literalChar_cases c with ⟨hquote, hbackslash, hc⟩ | ⟨d, hd, hc⟩
    · rw [hc]
      simp [unescapedQuotesAfter, escapedAfter, hbackslash]
    · rw [hc]
      exact hescape d hd
  -- each character leaves the string as open as it was
  induction cs with
  | nil => exact ⟨rfl, rfl⟩
  | cons c cs ih =>
    obtain ⟨hquotes, hescaped⟩ := hchar c
    rw [List.flatMap_cons, unescapedQuotesAfter_append, escapedAfter_append, hquotes, hescaped]
    exact ⟨by rw [ih.1], ih.2⟩

/-- A literal closes the string that it opens. -/
theorem stringsClosed_literal (s : String) : StringsClosed (literal s).toList := by
  obtain ⟨hquotes, hescaped⟩ := quotes_literalChars s.toList
  rw [toList_literal]
  constructor
  · show (1 + unescapedQuotesAfter false (s.toList.flatMap literalChar ++ ['"'])) % 2 = 0
    rw [unescapedQuotesAfter_append, hquotes, hescaped]
    rfl
  · show escapedAfter false (s.toList.flatMap literalChar ++ ['"']) = false
    rw [escapedAfter_append, hescaped]
    rfl

/-- Where no brace follows another one, none does so in the literal. An escaped character is no brace. -/
theorem isChain_literalChars {cs : List Char} (h : cs.IsChain fun c d => c = '{' → d ≠ '{') :
    (cs.flatMap literalChar).IsChain (fun c d => c = '{' → d ≠ '{')
      ∧ ('{' ∈ (cs.flatMap literalChar).head? → '{' ∈ cs.head?) := by
  induction cs with
  | nil => exact ⟨.nil, id⟩
  | cons c cs ih =>
    obtain ⟨hnext, hcs⟩ := List.isChain_cons.mp h
    obtain ⟨hchain, hhead⟩ := ih hcs
    -- an escape puts no brace next to another one
    rw [List.flatMap_cons]
    rcases literalChar_cases c with ⟨-, -, hc⟩ | ⟨d, hd, hc⟩
    · rw [hc]
      refine ⟨List.isChain_cons.mpr ⟨fun d hd hbrace => ?_, hchain⟩, id⟩
      rintro rfl
      exact hnext '{' (hhead hd) hbrace rfl
    · have hbackslash : '\\' ≠ '{' := by decide
      have hescaped : d ≠ '{' := by rcases hd with rfl | rfl | rfl <;> decide
      rw [hc]
      refine ⟨List.isChain_cons_cons.mpr ⟨fun h => absurd h hbackslash, ?_⟩,
        fun h => absurd (Option.some.inj h) hbackslash⟩
      exact List.isChain_cons.mpr ⟨fun _ _ h => absurd h hescaped, hchain⟩

/-- A string without opening braces has an inert literal. -/
theorem inert_literal {s : String} (h : ¬HoldsBraces s) : Inert (literal s) := by
  have hchain : s.toList.IsChain fun c d => c = '{' → d ≠ '{' := by
    rw [List.isChain_iff_forall_rel_of_append_cons_cons]
    rintro c d front back hs rfl rfl
    exact h ⟨front, back, by rw [hs, List.append_assoc]; rfl⟩
  have hquote : Unopened ['"'] := by decide
  -- no two braces stand side by side in the text, nor at the quote that ends it
  have hchars : Unopened (s.toList.flatMap literalChar ++ ['"']) := by
    unfold Unopened
    rw [List.append_assoc]
    refine (isChain_literalChars hchain).1.append (by decide) fun c _ d hd _ => ?_
    cases hd
    decide
  refine ⟨stringsClosed_literal s, ?_⟩
  rw [toList_literal]
  exact hquote.append hchars

/-! ## Expressions -/

theorem stateKey_braceless : ¬HoldsBraces stateKey := by
  decide +kernel

/-- The place holds no opening braces. -/
def Place.Braceless : Place → Prop
  | .root => True
  | .under key => ¬HoldsBraces key

/-- The test holds no opening braces. -/
def Test.Braceless : Test → Prop
  | .isMap place => place.Braceless
  | .hasKey place key => place.Braceless ∧ ¬HoldsBraces key

/-- A path to the state begins no action within its own. -/
theorem inert_place {place : Place} (h : place.Braceless) : Inert place.text := by
  cases place with
  | root => decide
  | under key =>
    have hbegin : Inert "(index $ " := by decide
    have hend : Inert ")" := by decide
    exact (hbegin.append (inert_literal h)).append hend

theorem inert_test {test : Test} (h : test.Braceless) : Inert test.text := by
  cases test with
  | isMap place =>
    have hbegin : Inert "kindIs \"map\" " := by decide
    exact hbegin.append (inert_place h)
  | hasKey place key =>
    have hbegin : Inert "hasKey " := by decide
    have hblank : Inert " " := by decide
    exact ((hbegin.append (inert_place h.1)).append hblank).append (inert_literal h.2)

/-- What records a branch begins no action within its own, if no text in it has two braces side by side. -/
theorem inert_recordText {place : Place} {collection id : String} (hplace : place.Braceless)
    (hcollection : ¬HoldsBraces collection) (hid : ¬HoldsBraces id) :
    Inert (recordText place collection id) := by
  have hplace := inert_place hplace
  have hcollection := inert_literal hcollection
  have hstate := inert_literal stateKey_braceless
  have hset : Inert "$_ := set (index " := by decide
  have happend : Inert " (append (index " := by decide
  have hblank : Inert " " := by decide
  have hclose : Inert ") " := by decide
  have hend : Inert ")" := by decide
  have hlist := (((hset.append hplace).append hblank).append hstate).append hclose
  have hentry := (((hlist.append hcollection).append happend).append hplace).append hblank
  have hentries := (((hentry.append hstate).append hblank).append hcollection).append hclose
  exact (hentries.append (inert_literal hid)).append hend

/-! ## Actions -/

/-- The text begins with a character that is part of an argument. -/
def BeginsVisible (s : String) : Prop :=
  ∃ c rest, s.toList = c :: rest ∧ isBlank c = false ∧ c ≠ '-' ∧ c ≠ '}'

theorem BeginsVisible.append {s : String} (h : BeginsVisible s) (t : String) :
    BeginsVisible (s ++ t) := by
  obtain ⟨c, rest, hs, hvisible⟩ := h
  exact ⟨c, rest ++ t.toList, by rw [String.toList_append, hs, List.cons_append], hvisible⟩

/-- A test begins with a word. -/
theorem beginsVisible_test (test : Test) : BeginsVisible test.text := by
  have hkind : BeginsVisible "kindIs \"map\" " := ⟨'k', _, rfl, by decide⟩
  have hkey : BeginsVisible "hasKey " := ⟨'h', _, rfl, by decide⟩
  cases test with
  | isMap place => exact hkind.append _
  | hasKey place key => exact ((hkey.append _).append _).append _

theorem toList_action_append (opening text : String) (rest : List Char) :
    (action opening text).toList ++ rest
      = opening.toList ++ ' ' :: (text.toList ++ (" \x7d\x7d".toList ++ rest)) := by
  simp [action]

/-- A keyword with an argument spells its token. -/
theorem spells_argument {opening word text : String} {trim : Bool} {keyword : Keyword}
    {kind : TokenKind} (hopening : opening = openBraces ∨ opening = trimBraces)
    (hread : ∀ cs, ActionHead.read? (opening.toList ++ ' ' :: (word.toList ++ cs))
      = some ⟨trim, keyword, ' ' :: cs⟩)
    (hkind : ∀ argument, TokenKind.ofKeyword? keyword argument = some kind)
    (hneeds : kind.needsArgument = true) (hword : Inert word) (htext : Inert text)
    (hvisible : BeginsVisible text) : Spells (action opening (word ++ text)) [kind] := by
  refine spells_action (some kind) hopening (hword.append htext) fun rest => ?_
  obtain ⟨c, more, hcs, hblank, hdash, hbrace⟩ := hvisible
  rw [toList_action_append, String.toList_append, List.append_assoc, hcs, List.cons_append]
  exact kindAt?_of_argument (hread _) hkind hneeds hblank hdash hbrace

/-- An action that tests is read as the start of a block, whatever is tested. -/
theorem spells_if {opening text : String} (hopening : opening = openBraces ∨ opening = trimBraces)
    (htext : Inert text) (hvisible : BeginsVisible text) :
    Spells (action opening ("if " ++ text)) [.opener .ifBlock] := by
  have hword : Inert "if " := by decide
  rcases hopening with rfl | rfl
  · exact spells_argument (.inl rfl) (fun cs => rfl) (fun _ => rfl) rfl hword htext hvisible
  · exact spells_argument (.inr rfl) (fun cs => rfl) (fun _ => rfl) rfl hword htext hvisible

/-- So is one that tests behind another test. -/
theorem spells_elseIf {text : String} (htext : Inert text) (hvisible : BeginsVisible text) :
    Spells (action openBraces ("else if " ++ text)) [.elseIfArm] := by
  have hword : Inert "else if " := by decide
  exact spells_argument (.inl rfl) (fun cs => rfl) (fun _ => rfl) rfl hword htext hvisible

theorem spells_else : Spells (action openBraces "else") [.elseArm] :=
  spells_action (some .elseArm) (.inl rfl) (by decide) fun rest => by
    rw [toList_action_append]
    rfl

theorem spells_end : Spells (action openBraces "end") [.endBlock] :=
  spells_action (some .endBlock) (.inl rfl) (by decide) fun rest => by
    rw [toList_action_append]
    rfl

/-- An action that begins with a variable is no control token. -/
theorem spells_record {opening : String} {place : Place} {collection id : String}
    (hopening : opening = openBraces ∨ opening = trimBraces)
    (h : Inert (recordText place collection id)) :
    Spells (action opening (recordText place collection id)) [] := by
  -- an action that begins like this has no keyword
  have hprefix : "$_ := set (index ".toList <+: (recordText place collection id).toList := by
    unfold recordText
    simp only [String.toList_append, List.append_assoc]
    exact List.prefix_append _ _
  obtain ⟨more, hmore⟩ := hprefix
  refine spells_action none hopening h fun rest => ?_
  rw [toList_action_append, ← hmore]
  rcases hopening with rfl | rfl
  · rfl
  · rfl

/-! ## Code -/

mutual

/-- The control tokens of code. -/
def Code.kinds : Code → List TokenKind
  | .skip => []
  | .record _ _ _ => []
  | .branch _ yes no => .opener .ifBlock :: (yes.kinds ++ (no.elseKinds ++ [.endBlock]))

/-- The control tokens of code as what happens otherwise. -/
def Code.elseKinds : Code → List TokenKind
  | .skip => []
  | .record _ _ _ => [.elseArm]
  | .branch _ yes no => .elseIfArm :: (yes.kinds ++ no.elseKinds)

end

/-- The keys, lists and IDs of the code hold no opening braces. -/
def Code.Braceless : Code → Prop
  | .skip => True
  | .record place collection id => place.Braceless ∧ ¬HoldsBraces collection ∧ ¬HoldsBraces id
  | .branch test yes no => test.Braceless ∧ yes.Braceless ∧ no.Braceless

/-- **Code spells its control tokens**, by itself and as what happens otherwise. Induction over the
code. -/
theorem spells_code {code : Code} (h : code.Braceless) :
    (∀ opening, opening = openBraces ∨ opening = trimBraces → Spells (code.text opening) code.kinds)
      ∧ Spells code.elseText code.elseKinds := by
  have hempty : Spells "" [] := Inert.spells (by decide) (by decide)
  -- induction on the code: a test is a block, and all that is in it stands between its `if` and its `end`
  induction code with
  | skip => exact ⟨fun _ _ => hempty, hempty⟩
  | record place collection id =>
    have hinert := inert_recordText h.1 h.2.1 h.2.2
    exact ⟨fun opening hopening => spells_record hopening hinert,
      spells_else.append (spells_record (.inl rfl) hinert)⟩
  | branch test yes no ihyes ihno =>
    obtain ⟨htest, hyes, hno⟩ := h
    have htest := inert_test htest
    have hvisible := beginsVisible_test test
    have hyes := (ihyes hyes).1 openBraces (.inl rfl)
    have hno := (ihno hno).2
    constructor
    · intro opening hopening
      have hif := spells_if hopening htest hvisible
      have hkinds : (Code.branch test yes no).kinds
          = [.opener .ifBlock] ++ yes.kinds ++ no.elseKinds ++ [.endBlock] := by
        simp [Code.kinds]
      rw [hkinds]
      exact ((hif.append hyes).append hno).append spells_end
    · have helse := spells_elseIf htest hvisible
      exact (helse.append hyes).append hno

/-! ## Inserted text -/

/-- The lists of a trace state have plain names. -/
theorem plain_collection (kind : FileKind) :
    ¬HoldsBraces kind.collection ∧ Inert kind.collection
      ∧ Unterminated kind.collection.toList := by
  cases kind with
  | template => decide +kernel
  | helper => decide +kernel

theorem braceless_wrapperTracking {collection id : String} {keys : List String}
    (hcollection : ¬HoldsBraces collection) (hid : ¬HoldsBraces id)
    (hkeys : ∀ key ∈ keys, ¬HoldsBraces key) : (wrapperTracking collection id keys).Braceless := by
  induction keys with
  | nil => trivial
  | cons key keys ih =>
    obtain ⟨hkey, hkeys⟩ := List.forall_mem_cons.mp hkeys
    have hrecord : (Code.record (.under key) collection id).Braceless := ⟨hkey, hcollection, hid⟩
    exact ⟨⟨trivial, hkey⟩, ⟨hkey, ⟨⟨hkey, stateKey_braceless⟩, hrecord, trivial⟩, trivial⟩, ih hkeys⟩

theorem braceless_trackingCode {keys : List String} {b : Branch}
    (hkeys : ∀ key ∈ keys, ¬HoldsBraces key) (hid : ¬HoldsBraces b.id) :
    (trackingCode keys b).Braceless := by
  have hcollection := (plain_collection b.kind).1
  have hrecord : (Code.record .root b.kind.collection b.id).Braceless := ⟨trivial, hcollection, hid⟩
  unfold trackingCode
  split
  · exact hrecord
  · have hwrapped := braceless_wrapperTracking hcollection hid hkeys
    exact ⟨trivial, ⟨⟨trivial, stateKey_braceless⟩, hrecord, hwrapped⟩, trivial⟩

/-- The tracking code of a branch spells its control tokens. -/
theorem spells_trackingCall {keys : List String} {b : Branch}
    (hkeys : ∀ key ∈ keys, ¬HoldsBraces key) (hid : ¬HoldsBraces b.id) :
    Spells (trackingCall keys b) (trackingCode keys b).kinds := by
  refine (spells_code (braceless_trackingCode hkeys hid)).1 _ ?_
  split
  · exact .inr rfl
  · exact .inl rfl

/-- The code that sets up the trace state is one block. -/
theorem spells_initCall : Spells initCall [.opener .ifBlock, .endBlock] := by
  have hstate : Inert (literal stateKey) := inert_literal stateKey_braceless
  have hnot : Inert "not (hasKey $ " := by decide
  have hparen : Inert ")" := by decide
  have hvisible : BeginsVisible "not (hasKey $ " := ⟨'n', _, rfl, by decide⟩
  have htest := spells_if (.inl rfl) ((hnot.append hstate).append hparen) ((hvisible.append _).append _)
  have hset : Inert "$_ := set $ " := by decide
  have hlists : Inert " (dict \"files\" (list) \"helpers\" (list))" := by decide
  have hstatement := spells_action none (.inl rfl) ((hset.append hstate).append hlists) fun rest => by
    rw [toList_action_append, String.toList_append, String.toList_append, List.append_assoc]
    rfl
  have hword : "if not (hasKey $ " = "if " ++ "not (hasKey $ " := rfl
  -- the text is that of an action that tests
  have htext : "if not (hasKey $ " ++ literal stateKey ++ ")"
      = "if " ++ ("not (hasKey $ " ++ literal stateKey ++ ")") := by
    simp only [hword, String.append_assoc]
  unfold initCall
  rw [htext]
  exact (htest.append hstatement).append spells_end

/-- A sentinel spells no token. -/
theorem spells_sentinelCall (kind : FileKind) : Spells (sentinelCall kind.collection) [] := by
  obtain ⟨hcollection, hinert, hlast⟩ := plain_collection kind
  -- the pieces of the line, one after the other: none of them has a keyword
  have hbreak : Spells (action openBraces (literal "\n")) [] :=
    spells_action none (.inl rfl) (inert_literal (by decide +kernel)) fun rest => by
      rw [toList_action_append, toList_literal]
      rfl
  have hprefix : Spells sentinelPrefix [] := Inert.spells (by decide) (by decide)
  have hblank : Spells " " [] := Inert.spells (by decide) (by decide)
  have hindex : Inert "toJson (index $ " := by decide
  have hspace : Inert " " := by decide
  have hparen : Inert ")" := by decide
  have hlist := (hindex.append (inert_literal stateKey_braceless)).append hspace
  have hprint := spells_action none (.inl rfl)
    ((hlist.append (inert_literal hcollection)).append hparen) fun rest => by
      rw [toList_action_append]
      simp only [String.toList_append, List.append_assoc]
      rfl
  exact (((hbreak.append hprefix).append (hinert.spells hlast)).append hblank).append hprint

/-- The code that prints the trace state spells no token, up to the line break at its end. -/
theorem spells_reportCall : ∃ s, reportCall = s ++ "\n" ∧ Spells s [] :=
  ⟨_, rfl, (spells_sentinelCall .template).append (spells_sentinelCall .helper)⟩

end TemplateCoverage.Template
