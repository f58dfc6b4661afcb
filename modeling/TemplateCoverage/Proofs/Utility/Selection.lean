import Mathlib
import TemplateCoverage.Proofs.Pattern.Expression
import TemplateCoverage.Utility.Grep
import TemplateCoverage.Utility.Sed.Run

/-!
# What is selected and replaced

Lines are selected by an expression, parts of lines are written because they match, and substitutions put other
texts in the place of such parts. All of this goes through a line from left to right, from one match to the
next.

* **`selects_iff`**: a line is selected by whether the expression matches a part of it.
* **`Cut`**: parts of a text that stand in it one behind the other. The parts that are written are like this,
  and each of them is a match (`cut_matchesFrom`).
* **`Edits`**: one text becomes another one by what is put in the place of matches. A substitution is like this
  (`edits_replaceFrom`), so what does not match stays (`replaceFrom_of_not_occursIn`).
* **`searchText_spec`**: a search of a file finds something if a line is selected, and changes no file.
* **`substitute_spec`**: an editor that substitutes replaces only matches, one at most unless all are asked for.
-/

namespace TemplateCoverage.Utility

open Regex

/-! ## Lines -/

namespace LineSearch

variable {s : LineSearch}

/-- A line is selected if the expression matches a part of it, or if it is asked for the other lines and does
not. -/
theorem selects_iff {line : Bytes} :
    s.selects line = true
      ↔ (s.has 'v' = true ↔ ¬∃ o, o.whole = line ∧ MatchesAt s.mode s.expression none o) := by
  rw [← occursIn_iff]
  unfold selects
  cases s.has 'v' <;> cases s.expression.occursIn s.mode line <;> decide

end LineSearch

/-! ## Parts of a line -/

/-- Parts that stand in a text one behind the other. The property is about a part and what follows it. -/
inductive Cut (p : Bytes → Bytes → Prop) : Bytes → List Bytes → Prop where
  | nil (text : Bytes) : Cut p text []
  | cons {part rest : Bytes} {parts : List Bytes} (gap : Bytes) :
      p part rest → Cut p rest parts → Cut p (gap ++ part ++ rest) (part :: parts)

/-- What is in front of the parts does not matter. -/
theorem Cut.append_left {p : Bytes → Bytes → Prop} {text : Bytes} {parts : List Bytes}
    (h : Cut p text parts) (front : Bytes) : Cut p (front ++ text) parts := by
  cases h with
  | nil => exact .nil _
  | cons gap hpart hrest =>
    rw [← List.append_assoc, ← List.append_assoc]
    exact .cons (front ++ gap) hpart hrest

/-- A part that is not empty, and that the expression matches where this rest follows. -/
def IsMatch (mode : Mode) (e : Regex) (part rest : Bytes) : Prop :=
  part ≠ [] ∧ ∃ before front groups, MatchesAt mode e before ⟨front, part, rest, groups⟩

/-- **The parts that are written.** They stand in the line one behind the other, and each of them is a match.
Induction on the number of characters that are left. -/
theorem cut_matchesFrom (s : LineSearch) (n : Nat) (before : Option Char) (text : Bytes) :
    Cut (IsMatch s.mode s.expression) text (s.matchesFrom n before text) := by
  induction n generalizing before text with
  | zero => exact .nil text
  | succ n ih =>
    unfold LineSearch.matchesFrom
    cases hfind : s.expression.find? s.mode before text with
    | none => exact .nil text
    | some o =>
      have hfound := find?_eq_some hfind
      rw [← hfound.whole]
      unfold Occurrence.whole
      dsimp only
      split
      · next hempty =>
        -- a match of nothing is passed over, together with the next character
        rw [List.isEmpty_iff.mp hempty, List.append_nil]
        cases o.rest with
        | nil => exact .nil _
        | cons c rest => exact ((ih (some c) rest).append_left [c]).append_left o.front
      · next hempty =>
        exact .cons o.front ⟨by simpa using hempty, before, o.front, o.groups, hfound.matchesAt⟩ (ih _ _)

/-! ## Files -/

namespace LineSearch

variable {s : LineSearch}

/-- The numbers of the lines that are selected, as many as may be. -/
def chosen (s : LineSearch) (text : Bytes) : List Nat :=
  let all := ((((Bytes.lines text).zipIdx 1).map fun (line, n) => (line.1, n, s.selects line.1)).filter
    fun l => l.2.2).map fun l => l.2.1
  (s.number? 'm').elim all all.take

/-- Lines are chosen if there is one that is selected, unless none may be. -/
theorem chosen_ne_nil_iff {text : Bytes} :
    s.chosen text ≠ []
      ↔ s.number? 'm' ≠ some 0 ∧ ∃ line ∈ Bytes.lines text, s.selects line.1 = true := by
  have hall : ((((Bytes.lines text).zipIdx 1).map fun (line, n) => (line.1, n, s.selects line.1)).filter
      fun l => l.2.2).map (fun l => l.2.1) ≠ [] ↔ ∃ line ∈ Bytes.lines text, s.selects line.1 = true := by
    -- which numbers the lines have does not matter
    have hnumbered : (∃ x ∈ (Bytes.lines text).zipIdx 1, s.selects x.1.1 = true)
        ↔ ∃ line ∈ Bytes.lines text, s.selects line.1 = true := by
      rw [List.exists_mem_zipIdx, List.exists_mem_iff_getElem]
    rw [← hnumbered]
    simp only [ne_eq, List.map_eq_nil_iff, List.filter_eq_nil_iff, List.forall_mem_map, not_forall,
      not_not, exists_prop]
  unfold chosen
  dsimp only
  cases s.number? 'm' with
  | none => simpa using hall
  | some k =>
    rw [← hall, Option.elim_some, ne_eq, List.take_eq_nil_iff]
    simp only [ne_eq, Option.some_inj, not_or]

/-- **A search of a file.** It finds something if a line is selected, unless no line may be. What it writes
depends on the options; the files and the input stay as they are. -/
theorem searchText_spec (s : LineSearch) (name text : Bytes) (w : Workplace) :
    (((s.searchText name text).run w).1 = true
        ↔ s.number? 'm' ≠ some 0 ∧ ∃ line ∈ Bytes.lines text, s.selects line.1 = true)
      ∧ ((s.searchText name text).run w).2.files = w.files
      ∧ ((s.searchText name text).run w).2.input = w.input := by
  -- the options only say what is written
  have hrun : ((s.searchText name text).run w).1 = !(s.chosen text).isEmpty
      ∧ ((s.searchText name text).run w).2.files = w.files
      ∧ ((s.searchText name text).run w).2.input = w.input := by
    unfold searchText
    dsimp only
    split
    · exact ⟨rfl, rfl, rfl⟩
    split
    · split
      · exact ⟨rfl, rfl, rfl⟩
      · exact ⟨rfl, rfl, rfl⟩
    split
    · split
      · exact ⟨rfl, rfl, rfl⟩
      · exact ⟨rfl, rfl, rfl⟩
    split
    · exact ⟨rfl, rfl, rfl⟩
    split
    · split
      · exact ⟨rfl, rfl, rfl⟩
      · exact ⟨rfl, rfl, rfl⟩
    · exact ⟨rfl, rfl, rfl⟩
  rw [hrun.1, ← chosen_ne_nil_iff]
  exact ⟨by simp, hrun.2⟩

end LineSearch

/-! ## Substitutions -/

namespace Sed

open Editor

/-- One text becomes another one by what is put in the place of parts, and how many parts these are. The
property is about a part and what is put in its place. -/
inductive Edits (p : Bytes → Bytes → Prop) : Bytes → Bytes → Nat → Prop where
  | nil : Edits p [] [] 0
  | keep {rest after : Bytes} {n : Nat} (kept : Bytes) :
      Edits p rest after n → Edits p (kept ++ rest) (kept ++ after) n
  | put {part here rest after : Bytes} {n : Nat} :
      p part here → Edits p rest after n → Edits p (part ++ rest) (here ++ after) (n + 1)

/-- Nothing is replaced. -/
theorem Edits.refl {p : Bytes → Bytes → Prop} (text : Bytes) : Edits p text text 0 := by
  have hkeep : Edits p (text ++ []) (text ++ []) 0 := .keep text .nil
  rwa [List.append_nil] at hkeep

/-- What a substitution puts in the place of a match. -/
def Replaces (r : Regex) (s : Substitution) (part here : Bytes) : Prop :=
  ∃ before o, MatchesAt s.test.mode r before o ∧ o.text = part
    ∧ here = replacementText s.replacement part o.groups

variable {r : Regex} {s : Substitution}

/-- An occurrence, which is replaced or not, and what becomes of the text behind it. -/
theorem Edits.occurrence {before : Option Char} {o : Occurrence} (h : MatchesAt s.test.mode r before o)
    (replaces : Bool) {rest after : Bytes} {n : Nat} (hrest : Edits (Replaces r s) rest after n) :
    Edits (Replaces r s) (o.front ++ (o.text ++ rest))
      (o.front ++ ((if replaces then replacementText s.replacement o.text o.groups else o.text) ++ after))
      ((if replaces then 1 else 0) + n) := by
  -- what is in front of the match stays in any case
  refine .keep o.front ?_
  cases replaces with
  | true =>
    rw [if_pos rfl, if_pos rfl, Nat.add_comm]
    exact .put ⟨before, o, h, rfl, rfl⟩ hrest
  | false =>
    rw [if_neg Bool.false_ne_true, if_neg Bool.false_ne_true, Nat.zero_add]
    exact .keep o.text hrest

/-- **Only matches are replaced.** Whatever else stands in a text is in the new one, in the same order.
Induction on the number of characters that are left. -/
theorem edits_replaceFrom (r : Regex) (s : Substitution) (n count : Nat) (adjacent : Bool)
    (before : Option Char) (text : Bytes) :
    Edits (Replaces r s) text (replaceFrom r s n count adjacent before text).1
      (replaceFrom r s n count adjacent before text).2 := by
  induction n generalizing count adjacent before text with
  | zero => exact .refl text
  | succ n ih =>
    unfold replaceFrom
    cases hfind : r.find? s.test.mode before text with
    | none => exact .refl text
    | some o =>
      have hfound := find?_eq_some hfind
      have hwhole : text = o.front ++ (o.text ++ o.rest) := by
        rw [← hfound.whole, Occurrence.whole, List.append_assoc]
      dsimp only
      split
      · -- a match of nothing where the last one has ended
        cases text with
        | nil => exact .nil
        | cons c rest => exact .keep [c] (ih count false (some c) rest)
      · have hhere {rest after : Bytes} {m : Nat} (hrest : Edits (Replaces r s) rest after m) :=
          Edits.occurrence hfound.matchesAt (count == s.first || (s.all && decide (s.first < count))) hrest
        simp only [List.append_assoc]
        rw [hwhole]
        split
        · exact hhere (.refl o.rest)
        · split
          · next hempty =>
            cases hrest : o.rest with
            | nil => simpa using hhere .nil
            | cons c rest =>
              exact hhere (.keep [c] (ih (count + 1) false (some c) rest))
          · exact hhere (ih (count + 1) true _ o.rest)

/-- If the expression matches nowhere, nothing is replaced. -/
theorem replaceFrom_of_not_occursIn {n count : Nat} {adjacent : Bool} {text : Bytes}
    (h : r.occursIn s.test.mode text = false) :
    replaceFrom r s n count adjacent none text = (text, 0) := by
  have hfind : r.find? s.test.mode none text = none := by simpa [occursIn] using h
  cases n with
  | zero => rfl
  | succ n =>
    unfold replaceFrom
    rw [hfind]

/-- Unless all matches are asked for, one is replaced at most. -/
theorem replaceFrom_le_one (hall : s.all = false) (n count : Nat) (adjacent : Bool)
    (before : Option Char) (text : Bytes) :
    (replaceFrom r s n count adjacent before text).2 ≤ 1 := by
  induction n generalizing count adjacent before text with
  | zero => exact Nat.zero_le 1
  | succ n ih =>
    unfold replaceFrom
    simp only [hall, Bool.false_and, Bool.or_false, Bool.not_false, Bool.and_true]
    cases r.find? s.test.mode before text with
    | none => exact Nat.zero_le 1
    | some o =>
      dsimp only
      split
      · cases text with
        | nil => exact Nat.zero_le 1
        | cons c rest => exact ih _ _ _ _
      · split
        · exact Nat.le_refl 1
        · -- nothing is replaced here, so it may be later
          simp only [Nat.zero_add]
          split
          · cases o.rest with
            | nil => exact Nat.zero_le 1
            | cons c rest => exact ih _ _ _ _
          · exact ih _ _ _ _

/-- **A substitution in an editor.** In the pattern space only matches are replaced, and one of them at most
unless all are asked for. The lines that are left, their number and the hold space stay as they are. -/
theorem substitute_spec (e : Editor) (s : Substitution) :
    (∃ n, Edits (Replaces (e.expression s.test) s) e.pattern (e.substitute s).pattern n
        ∧ (s.all = false → n ≤ 1))
      ∧ (e.substitute s).rest = e.rest ∧ (e.substitute s).number = e.number
      ∧ (e.substitute s).hold = e.hold := by
  have hedits := edits_replaceFrom (e.expression s.test) s (e.pattern.length + 2) 1 false none e.pattern
  have hone (hall : s.all = false) :=
    replaceFrom_le_one (r := e.expression s.test) hall (e.pattern.length + 2) 1 false none e.pattern
  unfold substitute
  dsimp only
  split
  · exact ⟨⟨0, .refl e.pattern, fun _ => Nat.zero_le 1⟩, rfl, rfl, rfl⟩
  · -- what is printed and what goes into a file does not matter here
    cases s.prints <;> cases s.file? with
    | none => exact ⟨⟨_, hedits, hone⟩, rfl, rfl, rfl⟩
    | some path =>
      simp only [writeTo]
      split
      · unfold Editor.write
        split
        · exact ⟨⟨_, hedits, hone⟩, rfl, rfl, rfl⟩
        · exact ⟨⟨_, hedits, hone⟩, rfl, rfl, rfl⟩
      · exact ⟨⟨_, hedits, hone⟩, rfl, rfl, rfl⟩

end Sed

end TemplateCoverage.Utility
