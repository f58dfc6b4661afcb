import TemplateCoverage.Json.Printer
import TemplateCoverage.Json.Reader

/-!
# Reading a list of texts back

A list of texts that is written as JSON is read as the same list, whatever characters the texts have.

* **`Reads s cs s' ts`**: reading `cs` leads from one state to another and completes tokens. Readings in
  a row compose (`Reads.append`).
* **`reads_escapeChar`**: an escaped character is read as the character.
* **`reads_quoted`**: so a string is read as one token, and a list as the tokens of its items.
* **`run?_items`**: the tokens of the items make up the list.
* **`parse?_compactChars_strings`**: the list is read back.
-/

namespace TemplateCoverage.Json

/-! ## Reading piece by piece -/

/-- Reading `cs` leads from `s` to `s'`, and it completes the tokens `ts`. -/
def Reads (s : Reading) (cs : List Char) (s' : Reading) (ts : List Token) : Prop :=
  ∀ rest, tokensFrom? s (cs ++ rest) = (tokensFrom? s' rest).map (ts ++ ·)

namespace Reads

theorem nil (s : Reading) : Reads s [] s [] := by
  intro rest
  cases h : tokensFrom? s rest <;> simp [h]

/-- Readings in a row are one reading. -/
theorem append {s s' s'' : Reading} {cs ds : List Char} {ts us : List Token}
    (h : Reads s cs s' ts) (h' : Reads s' ds s'' us) : Reads s (cs ++ ds) s'' (ts ++ us) := by
  intro rest
  rw [List.append_assoc, h, h', Option.map_map]
  congr 1
  funext vs
  exact (List.append_assoc ts us vs).symm

/-- One character, and what is read after it. -/
theorem cons {s s' s'' : Reading} {c : Char} {cs : List Char} {ts us : List Token}
    (h : readChar? s c = some (s', ts)) (h' : Reads s' cs s'' us) :
    Reads s (c :: cs) s'' (ts ++ us) := by
  intro rest
  have hrest := h' rest
  rw [List.cons_append, tokensFrom?, h]
  dsimp only
  rw [hrest, Option.map_map]
  congr 1
  funext vs
  exact (List.append_assoc ts us vs).symm

/-- A character that completes nothing. -/
theorem step {s s' s'' : Reading} {c : Char} {cs : List Char} {ts : List Token}
    (h : readChar? s c = some (s', [])) (h' : Reads s' cs s'' ts) : Reads s (c :: cs) s'' ts :=
  cons h h'

/-- A character that completes a token. -/
theorem complete {s s' s'' : Reading} {c : Char} {cs : List Char} {t : Token} {ts : List Token}
    (h : readChar? s c = some (s', [t])) (h' : Reads s' cs s'' ts) :
    Reads s (c :: cs) s'' (t :: ts) :=
  cons h h'

/-- A text that is read from one token to another has these tokens. -/
theorem tokens {cs : List Char} {ts : List Token} (h : Reads .between cs .between ts) :
    tokensFrom? .between cs = some ts := by
  have htokens := h []
  rw [List.append_nil] at htokens
  rw [htokens]
  exact congrArg some (List.append_nil ts)

end Reads

/-! ## Strings -/

theorem hexValue?_hexDigit : ∀ n < 16, hexValue? (hexDigit n) = some n := by decide

/-- A digit that is not the last one of its code unit. -/
theorem readChar?_digit {n digits : Nat} (hn : n < 16) (hdigits : digits < 3) (done : List Char)
    (high : Option Nat) (value : Nat) :
    readChar? (.unit done high digits value) (hexDigit n)
      = some (.unit done high (digits + 1) (16 * value + n), []) := by
  unfold readChar?
  dsimp only
  rw [hexValue?_hexDigit n hn]
  dsimp only
  rw [if_pos hdigits]

/-- The last digit of a code unit that is a character of its own. -/
theorem readChar?_lastDigit {n value : Nat} (hn : n < 16) (hvalue : 16 * value + n < 0xD800)
    (done : List Char) :
    readChar? (.unit done none 3 value) (hexDigit n)
      = some (.text (Char.ofNat (16 * value + n) :: done), []) := by
  -- the code is below those that come in pairs
  have hclose : closeUnit? done none (16 * value + n)
      = some (.text (Char.ofNat (16 * value + n) :: done)) := by
    unfold closeUnit?
    dsimp only
    rw [if_neg (by omega), if_neg (by omega)]
  unfold readChar?
  dsimp only
  rw [hexValue?_hexDigit n hn]
  dsimp only
  rw [if_neg (by omega), hclose]
  rfl

/-- A control character is read back from its code unit. -/
theorem reads_unit {c : Char} (h : c.toNat < 0x20) (done : List Char) :
    Reads (.text done) ['\\', 'u', '0', '0', hexDigit (c.toNat / 16), hexDigit (c.toNat % 16)]
      (.text (c :: done)) [] := by
  have hzero : ∀ digits, digits < 3 → readChar? (.unit done none digits 0) '0'
      = some (.unit done none (digits + 1) 0, []) :=
    fun digits hdigits => readChar?_digit (show 0 < 16 by omega) hdigits done none 0
  have hhigh := readChar?_digit (show c.toNat / 16 < 16 by omega) (show 2 < 3 by omega) done none 0
  have hlow := readChar?_lastDigit (show c.toNat % 16 < 16 by omega)
    (show 16 * (16 * 0 + c.toNat / 16) + c.toNat % 16 < 0xD800 by omega) done
  -- two digits for a character below 32, behind two zeros
  have hvalue : 16 * (16 * 0 + c.toNat / 16) + c.toNat % 16 = c.toNat := by omega
  rw [hvalue, Char.ofNat_toNat] at hlow
  exact .step rfl (.step rfl (.step (hzero 0 (by omega)) (.step (hzero 1 (by omega))
    (.step hhigh (.step hlow (.nil _))))))

/-- A backslash with a letter behind it. -/
theorem reads_simpleEscape {letter c : Char} (hu : letter ≠ 'u')
    (hletter : simpleEscape? letter = some c) (done : List Char) :
    Reads (.text done) ['\\', letter] (.text (c :: done)) [] := by
  have hread : readChar? (.escape done) letter = some (.text (c :: done), []) := by
    unfold readChar?
    dsimp only
    rw [if_neg hu, hletter]
    rfl
  exact .step rfl (.step hread (.nil _))

/-- A character that is written inside a string is read as itself. The cases are those of the escape. -/
theorem reads_escapeChar (c : Char) (done : List Char) :
    Reads (.text done) (escapeChar c) (.text (c :: done)) [] := by
  have hcode : ∀ n, c.toNat = n → c = Char.ofNat n := by
    rintro n rfl
    exact (Char.ofNat_toNat c).symm
  unfold escapeChar
  split
  · next h =>
    subst h
    exact reads_simpleEscape (by decide) rfl done
  split
  · next h =>
    subst h
    exact reads_simpleEscape (by decide) rfl done
  split
  · next h =>
    subst h
    exact reads_simpleEscape (by decide) rfl done
  split
  · next h =>
    subst h
    exact reads_simpleEscape (by decide) rfl done
  split
  · next h =>
    subst h
    exact reads_simpleEscape (by decide) rfl done
  split
  · next h =>
    rw [hcode _ h]
    exact reads_simpleEscape (by decide) rfl done
  split
  · next h =>
    rw [hcode _ h]
    exact reads_simpleEscape (by decide) rfl done
  split
  · next h => exact reads_unit h done
  · next hquote hbackslash _ _ _ _ _ hcontrol =>
    -- a character that is not escaped is read as it stands
    have hread : readChar? (.text done) c = some (.text (c :: done), []) := by
      unfold readChar?
      dsimp only
      rw [if_neg hquote, if_neg hbackslash, if_neg hcontrol]
    exact .step hread (.nil _)

/-- The inside of a string. Induction on its characters. -/
theorem reads_escaped (cs done : List Char) :
    Reads (.text done) (cs.flatMap escapeChar) (.text (cs.reverse ++ done)) [] := by
  induction cs generalizing done with
  | nil => exact .nil _
  | cons c cs ih =>
    rw [List.flatMap_cons, List.reverse_cons, List.append_assoc]
    exact (reads_escapeChar c done).append (ih (c :: done))

/-- A string is one token. -/
theorem reads_quoted (s : String) :
    Reads .between (quoted s) .between [.scalar (.string s)] := by
  have hend : readChar? (.text (s.toList.reverse ++ [])) '"'
      = some (.between, [.scalar (.string s)]) := by
    unfold readChar?
    dsimp only
    rw [if_pos rfl, List.append_nil, List.reverse_reverse, String.ofList_toList]
  exact .step rfl ((reads_escaped s.toList []).append (.complete hend (.nil _)))

/-! ## Lists -/

/-- The tokens of texts with commas between them. -/
def itemTokens : List String → List Token
  | [] => []
  | [s] => [.scalar (.string s)]
  | s :: rest => .scalar (.string s) :: .comma :: itemTokens rest

/-- The items of a list. Induction on the list, with the cases of `compactItems`. -/
theorem reads_items (items : List String) :
    Reads .between (compactItems (items.map .string)) .between (itemTokens items) := by
  induction items with
  | nil => exact .nil _
  | cons s rest ih =>
    cases rest with
    | nil => exact reads_quoted s
    | cons s' rest => exact (reads_quoted s).append (.complete rfl ih)

theorem reads_strings (items : List String) :
    Reads .between (compactChars (.strings items)) .between
      (.openArray :: (itemTokens items ++ [.closeArray])) := by
  show Reads .between ('[' :: compactItems (items.map .string) ++ [']']) _ _
  exact .complete rfl ((reads_items items).append (.complete rfl (.nil _)))

/-- The tokens of the items that are left complete the list. Induction on these items. -/
theorem run?_items (s : String) (items : List String) (done : List Json) :
    Machine.run? ⟨[.array done], .value⟩ (itemTokens (s :: items) ++ [.closeArray])
      = some (.array (done.reverse ++ (s :: items).map .string)) := by
  induction items generalizing s done with
  | nil =>
    show some (Json.array (.string s :: done).reverse) = _
    rw [List.reverse_cons]
    rfl
  | cons s' items ih =>
    show Machine.run? ⟨[.array (.string s :: done)], .value⟩
      (itemTokens (s' :: items) ++ [.closeArray]) = _
    -- items are put in front of those that were read, and reversed at the end
    rw [ih, List.reverse_cons, List.append_assoc]
    rfl

/-- **A list of texts is read back from what is written for it.** -/
theorem parse?_compactChars_strings (items : List String) :
    parse? (compactChars (.strings items)) = some (.array (items.map .string)) := by
  unfold parse?
  rw [(reads_strings items).tokens]
  show Machine.run? ⟨[.array []], .valueOrEnd⟩ (itemTokens items ++ [.closeArray]) = _
  cases items with
  | nil => rfl
  | cons s items =>
    -- the first item may begin where the list may end
    have hfirst : Machine.run? ⟨[.array []], .valueOrEnd⟩ (itemTokens (s :: items) ++ [.closeArray])
        = Machine.run? ⟨[.array []], .value⟩ (itemTokens (s :: items) ++ [.closeArray]) := by
      cases items <;> rfl
    rw [hfirst, run?_items]
    rfl

theorem textItems?_map_string (items : List String) :
    textItems? (items.map .string) = some items := by
  induction items with
  | nil => rfl
  | cons s rest ih =>
    rw [List.map_cons, textItems?, ih]
    rfl

/-! ## Line feeds -/

theorem newline_ne_hexDigit : ∀ n < 16, '\n' ≠ hexDigit n := by decide

/-- A line feed is escaped, and no other character becomes one. -/
theorem newline_not_mem_escapeChar (c : Char) : '\n' ∉ escapeChar c := by
  unfold escapeChar
  split
  · decide
  split
  · decide
  split
  · decide
  split
  · decide
  split
  · decide
  split
  · decide
  split
  · decide
  split
  · next h =>
    -- a line feed is escaped itself, and no escape has one
    have hhigh := newline_ne_hexDigit (c.toNat / 16) (by omega)
    have hlow := newline_ne_hexDigit (c.toNat % 16) (by omega)
    simp [hhigh, hlow]
  · next hnewline _ _ _ _ _ => simpa using Ne.symm hnewline

theorem newline_not_mem_quoted (s : String) : '\n' ∉ quoted s := by
  unfold quoted
  simp only [List.mem_cons, List.mem_append, List.mem_flatMap, List.cons_append]
  rintro (h | ⟨c, -, h⟩ | h | h)
  · exact absurd h (by decide)
  · exact newline_not_mem_escapeChar c h
  · exact absurd h (by decide)
  · cases h

theorem newline_not_mem_compactItems (items : List String) :
    '\n' ∉ compactItems (items.map .string) := by
  induction items with
  | nil => exact List.not_mem_nil
  | cons s rest ih =>
    cases rest with
    | nil => exact newline_not_mem_quoted s
    | cons s' rest =>
      show '\n' ∉ quoted s ++ ',' :: compactItems ((s' :: rest).map .string)
      rw [List.mem_append, List.mem_cons]
      rintro (h | h | h)
      · exact newline_not_mem_quoted s h
      · exact absurd h (by decide)
      · exact ih h

/-- What is written for a list of texts stands on one line, between brackets. -/
theorem compactChars_strings (items : List String) :
    ∃ inner, compactChars (.strings items) = '[' :: inner ++ [']'] ∧ '\n' ∉ inner :=
  ⟨compactItems (items.map .string), rfl, newline_not_mem_compactItems items⟩

end TemplateCoverage.Json
