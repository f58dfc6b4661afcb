import TemplateCoverage.Proofs.Text.Offset
import TemplateCoverage.Token.Line

/-!
# Where tokens stand

A token of a line stands at its column: the text that follows there opens a control action, with the
trim marker exactly if the token says so. This holds of the line with its terminator as well, since
only the end of the line is cut off before tokens are read.

* **`OpensAction`**: the text begins with opening braces that are not followed by a third one.
* **`StandsAt`**: the line number and the column of a token lead to a text that opens its action.
* **`pairwise_tokensOf`**: the tokens of a text are in the order of their positions.
-/

namespace TemplateCoverage

open Text

/-! ## The beginning of an action -/

/-- The text begins with opening braces, with the trim marker behind them exactly if `trim` holds. No
third brace follows, so no action opens at one of the next two bytes. -/
def OpensAction (trim : Bool) (cs : List Char) : Prop :=
  ∃ c rest, cs = '{' :: '{' :: c :: rest ∧ c ≠ '{' ∧ (c = '-' ↔ trim = true)

theorem OpensAction.append {trim : Bool} {cs : List Char} (h : OpensAction trim cs)
    (tail : List Char) : OpensAction trim (cs ++ tail) := by
  obtain ⟨c, rest, rfl, hne, htrim⟩ := h
  exact ⟨c, rest ++ tail, rfl, hne, htrim⟩

/-- Two actions do not overlap in their braces: between the places where they open stand the braces
of the first one and one more character. -/
theorem OpensAction.front {trim trim' : Bool} {cs front back : List Char}
    (h : OpensAction trim cs) (h' : OpensAction trim' back) (hcs : cs = front ++ back)
    (hne : front ≠ []) : OpensAction trim front := by
  obtain ⟨c, rest, rfl, hc, htrim⟩ := h
  obtain ⟨d, rest', rfl, hd, -⟩ := h'
  -- with one or two characters in front, the second action would open at a brace of the first one
  match front, hne, hcs with
  | [_], _, hcs =>
    cases hcs
    exact absurd rfl hc
  | [_, _], _, hcs =>
    cases hcs
    exact absurd rfl hc
  | _ :: _ :: _ :: more, _, hcs =>
    cases hcs
    exact ⟨c, more, rfl, hc, htrim⟩

theorem OpensAction.ne_nil {trim : Bool} {cs : List Char} (h : OpensAction trim cs) : cs ≠ [] := by
  obtain ⟨c, rest, rfl, -, -⟩ := h
  exact List.cons_ne_nil _ _

/-- No keyword begins with a brace. -/
theorem Keyword.read?_brace (cs : List Char) : Keyword.read? ('{' :: cs) = none := rfl

theorem Keyword.read?_nil : Keyword.read? [] = none := rfl

/-- Where the head of an action is read, an action opens. -/
theorem opensAction_of_read? {cs : List Char} {head : ActionHead}
    (h : ActionHead.read? cs = some head) : OpensAction head.trimLeft cs := by
  unfold ActionHead.read? at h
  split at h
  · next inner =>
    obtain ⟨⟨keyword, rest⟩, -, rfl⟩ := Option.map_eq_some_iff.mp h
    exact ⟨'-', inner, rfl, by decide, by simp⟩
  · next inner hdash =>
    -- without the marker a keyword follows, perhaps after blanks, and so no brace and no dash
    obtain ⟨⟨keyword, rest⟩, hread, rfl⟩ := Option.map_eq_some_iff.mp h
    cases inner with
    | nil =>
      rw [show trimStart [] = [] from rfl, Keyword.read?_nil] at hread
      cases hread
    | cons c inner =>
      refine ⟨c, inner, rfl, ?_, ?_⟩
      · rintro rfl
        rw [show trimStart ('{' :: inner) = '{' :: inner from rfl, Keyword.read?_brace] at hread
        cases hread
      · constructor
        · rintro rfl
          exact absurd rfl (hdash inner)
        · intro htrim
          cases htrim
  · cases h

/-! ## The tokens of a line -/

theorem tokenAt?_eq_some {line before rest : List Char} {number : Nat} {dynamic : Bool} {t : Token}
    (h : tokenAt? line number dynamic before rest = some t) :
    t.line = number ∧ t.column = byteLength before ∧ OpensAction t.trimLeft rest := by
  unfold tokenAt? at h
  -- the token is made only if all tests are passed
  split at h
  · cases h
  · next head hread =>
    simp only at h
    split at h
    · cases h
    · split at h
      · cases h
        exact ⟨rfl, rfl, opensAction_of_read? hread⟩
      · cases h

/-- A token that begins beyond `before` stands at its column. Induction on the rest of the line. -/
theorem mem_tokensFrom {line before rest : List Char} {number : Nat} {dynamic : Bool} {t : Token}
    (h : t ∈ tokensFrom line number dynamic before rest) :
    t.line = number ∧ ∃ n back, t.column = byteLength before + n ∧ FollowsAt n rest back
      ∧ OpensAction t.trimLeft back := by
  induction rest generalizing before with
  | nil => cases h
  | cons c cs ih =>
    unfold tokensFrom at h
    -- induction on the rest of the line: the token is here or further on
    rcases List.mem_append.mp h with hhere | hlater
    · obtain ⟨hline, hcolumn, hopens⟩ := tokenAt?_eq_some (Option.mem_toList.mp hhere)
      exact ⟨hline, 0, c :: cs, by rw [hcolumn, Nat.add_zero], ⟨[], rfl, rfl⟩, hopens⟩
    · obtain ⟨hline, n, back, hcolumn, hfollows, hopens⟩ := ih hlater
      refine ⟨hline, c.utf8Size + n, back, ?_, ?_, hopens⟩
      · rw [hcolumn, byteLength_cons]
        omega
      · have := hfollows.prepend [c]
        simpa using this

/-- Tokens are read from left to right. -/
theorem pairwise_tokensFrom (line : List Char) (number : Nat) (dynamic : Bool)
    (before rest : List Char) :
    (tokensFrom line number dynamic before rest).Pairwise (·.column < ·.column) := by
  induction rest generalizing before with
  | nil => exact .nil
  | cons c cs ih =>
    unfold tokensFrom
    rw [List.pairwise_append]
    refine ⟨?_, ih (c :: before), ?_⟩
    · cases tokenAt? line number dynamic before (c :: cs) with
      | none => exact .nil
      | some t => exact List.pairwise_singleton _ t
    · -- what is read later stands behind the first character of the rest
      intro t ht u hu
      obtain ⟨-, ht, -⟩ := tokenAt?_eq_some (Option.mem_toList.mp ht)
      obtain ⟨-, n, _, hu, -, -⟩ := mem_tokensFrom hu
      have hpos := c.utf8Size_pos
      rw [ht, hu, byteLength_cons]
      omega

/-- The end of a line is only cut off. -/
theorem withoutLineEnd_append (line : List Char) : ∃ tail, line = withoutLineEnd line ++ tail := by
  obtain ⟨tail, hline, -⟩ :=
    exists_append_of_dropEndWhile (fun c => c == '\n' || c == '\r') line
  exact ⟨tail, hline⟩

/-- A token of a line stands at its column of the line, whose terminator is still there. -/
theorem mem_tokensOfLine {evaluators : List String} {line : List Char} {number : Nat} {t : Token}
    (h : t ∈ tokensOfLine evaluators line number) :
    t.line = number ∧ ∃ back, FollowsAt t.column line back ∧ OpensAction t.trimLeft back := by
  obtain ⟨hline, n, back, hcolumn, hfollows, hopens⟩ := mem_tokensFrom h
  obtain ⟨tail, htail⟩ := withoutLineEnd_append line
  rw [byteLength_nil, Nat.zero_add] at hcolumn
  -- the terminator is put back behind what follows the token
  refine ⟨hline, back ++ tail, ?_, hopens.append tail⟩
  have := hfollows.append tail
  rwa [← htail, ← hcolumn] at this

/-! ## The tokens of a text -/

/-- The line `number` of the source has a character boundary at the byte `column`, and an action opens
there. -/
def StandsAt (source : List Char) (number column : Nat) (trim : Bool) : Prop :=
  ∃ i, ∃ h : i < (lines source).length, number = i + 1
    ∧ ∃ back, FollowsAt column (lines source)[i] back ∧ OpensAction trim back

theorem mem_numberedLines {source line : List Char} {number : Nat}
    (h : (line, number) ∈ numberedLines source) :
    ∃ i, ∃ hi : i < (lines source).length, number = i + 1 ∧ line = (lines source)[i] := by
  obtain ⟨hle, hlt, hline⟩ := List.mem_zipIdx h
  exact ⟨number - 1, by omega, by omega, hline⟩

/-- The numbers of the lines increase. -/
theorem pairwise_numberedLines (source : List Char) :
    (numberedLines source).Pairwise (·.2 < ·.2) := by
  rw [← List.pairwise_map (f := Prod.snd) (R := (· < ·))]
  unfold numberedLines
  rw [List.zipIdx_map_snd]
  exact List.pairwise_lt_range'

/-- The first position comes before the second one: on an earlier line, or further left. -/
def Precedes (p q : Nat × Nat) : Prop :=
  p.1 < q.1 ∨ p.1 = q.1 ∧ p.2 < q.2

/-- The line and the column of a token. -/
def Token.position (t : Token) : Nat × Nat :=
  (t.line, t.column)

theorem mem_tokensOf {evaluators : List String} {source : List Char} {t : Token}
    (h : t ∈ tokensOf evaluators source) : StandsAt source t.line t.column t.trimLeft := by
  obtain ⟨⟨line, number⟩, hline, ht⟩ := List.mem_flatMap.mp h
  obtain ⟨hnumber, back, hfollows, hopens⟩ := mem_tokensOfLine ht
  obtain ⟨i, hi, hi₁, rfl⟩ := mem_numberedLines hline
  exact ⟨i, hi, hnumber.trans hi₁, back, hfollows, hopens⟩

/-- The tokens of a text are in the order of their positions. -/
theorem pairwise_tokensOf (evaluators : List String) (source : List Char) :
    (tokensOf evaluators source).Pairwise fun t u => Precedes t.position u.position := by
  unfold tokensOf
  rw [List.pairwise_flatMap]
  constructor
  · rintro ⟨line, number⟩ -
    -- on one line they come in the order of their columns
    refine List.Pairwise.imp_of_mem ?_ (pairwise_tokensFrom _ _ _ _ _)
    intro t u ht hu hlt
    have htl := (mem_tokensOfLine ht).1
    have hul := (mem_tokensOfLine hu).1
    exact .inr ⟨htl.trans hul.symm, hlt⟩
  · refine List.Pairwise.imp ?_ (pairwise_numberedLines source)
    rintro ⟨line, number⟩ ⟨line', number'⟩ hlt t ht u hu
    have htl : t.line = number := (mem_tokensOfLine ht).1
    have hul : u.line = number' := (mem_tokensOfLine hu).1
    refine .inl ?_
    show t.line < u.line
    rw [htl, hul]
    exact hlt

end TemplateCoverage
