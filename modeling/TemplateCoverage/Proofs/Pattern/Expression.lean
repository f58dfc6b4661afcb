import Mathlib
import TemplateCoverage.Regex.Basic

/-!
# What an expression matches

The matcher lists the reaches of an expression, and drops those that it has seen. What an expression matches is
said here by a relation that follows the expression and knows nothing of lists or of their order.

* **`Passes`**: a place is reached over a text. All that is known of it are its groups (`Passes.ext`), so no
  reach is lost where equal ones are dropped (`mem_distinct`).
* **`Matches`**: an expression leads from one place to another. The matcher finds exactly these places
  (`mem_reaches`), also where an expression is repeated (`mem_steps`).
* **`find?_eq_none_iff`**, **`find?_eq_some`**: a search finds a match if there is one, the leftmost, and there
  the longest.
* **`occursIn_iff`**: so a line is told by its matches alone.
-/

namespace TemplateCoverage.Regex

namespace Reach

/-! ## Places -/

/-- The place `s` is reached from `r` over a text. -/
structure Passes (r s : Reach) (text : Bytes) : Prop where
  rest : r.rest = text ++ s.rest
  index : s.index = r.index + text.length
  before : s.before = text.getLast?.or r.before

namespace Passes

variable {r s t : Reach} {text more : Bytes}

theorem refl (r : Reach) : Passes r r [] :=
  ⟨rfl, rfl, rfl⟩

theorem trans (h : Passes r s text) (h' : Passes s t more) : Passes r t (text ++ more) where
  rest := by rw [h.rest, h'.rest, List.append_assoc]
  index := by rw [h'.index, h.index, List.length_append, Nat.add_assoc]
  before := by rw [h'.before, h.before, List.getLast?_append, Option.or_assoc]

theorem length (h : Passes r s text) : r.rest.length = text.length + s.rest.length := by
  rw [h.rest, List.length_append]

/-- The text is read off the places. -/
theorem eq_take (h : Passes r s text) : text = r.rest.take (s.index - r.index) := by
  rw [h.rest, h.index, Nat.add_sub_cancel_left, List.take_left]

/-- Where a place is says what is before it and behind it. -/
theorem ext {s' : Reach} {text' : Bytes} (h : Passes r s text) (h' : Passes r s' text')
    (hindex : s.index = s'.index) (hgroups : s.groups = s'.groups) : s = s' := by
  have htext : text = text' := by rw [h.eq_take, h'.eq_take, hindex]
  subst htext
  have hrest := h.rest.symm.trans h'.rest
  have hbefore := h.before.trans h'.before.symm
  cases s
  cases s'
  simp_all

/-- The groups do not say where a place is. -/
theorem setGroups (h : Passes r s text) (groups : List (Nat × Bytes)) :
    Passes r { s with groups := groups } text :=
  ⟨h.rest, h.index, h.before⟩

end Passes

/-- The place behind one more character. -/
theorem passes_cons {r : Reach} {c : Char} {rest : Bytes} (h : r.rest = c :: rest) :
    Passes r { r with index := r.index + 1, before := some c, rest := rest } [c] :=
  ⟨h, rfl, rfl⟩

/-- The first character of a text is passed over first. -/
theorem passes_cons_iff {r s : Reach} {c : Char} {text : Bytes} :
    Passes r s (c :: text)
      ↔ ∃ rest, r.rest = c :: rest
        ∧ Passes { r with index := r.index + 1, before := some c, rest := rest } s text := by
  constructor
  · -- the first character is passed, and then the others
    rintro ⟨hrest, hindex, hbefore⟩
    refine ⟨text ++ s.rest, hrest, rfl, ?_, ?_⟩
    · rw [hindex, List.length_cons, Nat.add_assoc, Nat.add_comm 1]
    · rw [hbefore, List.getLast?_cons]
      cases text.getLast? <;> rfl
  · rintro ⟨rest, hrest, hpasses⟩
    exact (passes_cons hrest).trans hpasses

theorem next?_eq_some {r : Reach} {c : Char} {rest : Bytes} (h : r.rest = c :: rest) :
    r.next? = some { r with index := r.index + 1, before := some c, rest := rest } := by
  unfold next?
  rw [h]

/-- The place behind one character, with the same groups. -/
theorem passes_singleton_iff {r s : Reach} {c : Char} :
    Passes r s [c] ∧ s.groups = r.groups
      ↔ ∃ rest, r.rest = c :: rest
        ∧ s = { r with index := r.index + 1, before := some c, rest := rest } := by
  constructor
  · rintro ⟨hpasses, hgroups⟩
    obtain ⟨rest, hrest, -⟩ := passes_cons_iff.mp hpasses
    exact ⟨rest, hrest, hpasses.ext (passes_cons hrest) hpasses.index hgroups⟩
  · rintro ⟨rest, hrest, rfl⟩
    exact ⟨passes_cons hrest, rfl⟩

/-- The place behind a text that comes next, with the letters perhaps in the other case. -/
theorem after?_eq_some {r s : Reach} {ignoreCase : Bool} {text : Bytes} :
    r.after? ignoreCase text = some s
      ↔ ∃ passed, Passes r s passed ∧ s.groups = r.groups
        ∧ List.Forall₂ (fun c d => (CharSet.single c).admits ignoreCase d = true) text passed := by
  induction text generalizing r with
  | nil =>
    simp only [after?, Option.some_inj, List.forall₂_nil_left_iff]
    constructor
    · rintro rfl
      exact ⟨[], .refl r, rfl, rfl⟩
    · rintro ⟨_, hpasses, hgroups, rfl⟩
      exact (Passes.refl r).ext hpasses (by rw [hpasses.index]; rfl) hgroups.symm
  | cons c text ih =>
    unfold after?
    cases hrest : r.rest with
    | nil =>
      simp only [reduceCtorEq, false_iff]
      -- nothing is left to be passed
      rintro ⟨passed, hpasses, -, hadmits⟩
      cases hadmits
      simpa [hrest] using hpasses.rest
    | cons d rest =>
      dsimp only
      split
      · next hd =>
        rw [ih]
        constructor
        · rintro ⟨passed, hpasses, hgroups, hadmits⟩
          exact ⟨d :: passed, (passes_cons hrest).trans hpasses, hgroups, .cons hd hadmits⟩
        · rintro ⟨_, hpasses, hgroups, _ | ⟨-, hadmits⟩⟩
          obtain ⟨_, hrest', hpasses⟩ := passes_cons_iff.mp hpasses
          obtain ⟨rfl, rfl⟩ := List.cons.inj (hrest.symm.trans hrest')
          exact ⟨_, hpasses, hgroups, hadmits⟩
      · next hd =>
        simp only [reduceCtorEq, false_iff]
        rintro ⟨_, hpasses, -, _ | ⟨hadmits, -⟩⟩
        obtain ⟨_, hrest', -⟩ := passes_cons_iff.mp hpasses
        obtain ⟨rfl, -⟩ := List.cons.inj (hrest.symm.trans hrest')
        exact hd hadmits

/-! ## Equal places -/

/-- Where all reaches are reached from one place, those that are dropped are there already. -/
theorem mem_distinct {r s : Reach} {reaches : List Reach} (h : ∀ s ∈ reaches, ∃ text, Passes r s text) :
    s ∈ distinct reaches ↔ s ∈ reaches := by
  have hsame {s s' : Reach} (hs : ∃ text, Passes r s text) (hs' : ∃ text, Passes r s' text)
      (hindex : s.index = s'.index) (hgroups : s.groups = s'.groups) : s = s' := by
    obtain ⟨_, hs⟩ := hs
    obtain ⟨_, hs'⟩ := hs'
    exact hs.ext hs' hindex hgroups
  have hfold (reaches found : List Reach) (h : ∀ s ∈ found ++ reaches, ∃ text, Passes r s text) :
      s ∈ reaches.foldl (fun found r =>
          if found.any fun f => f.index == r.index && f.groups == r.groups then found
          else found ++ [r]) found
        ↔ s ∈ found ++ reaches := by
    induction reaches generalizing found with
    | nil => simp
    | cons s' reaches ih =>
      rw [List.foldl_cons]
      split
      · next hany =>
        obtain ⟨f, hf, hkey⟩ := List.any_eq_true.mp hany
        simp only [Bool.and_eq_true, beq_iff_eq] at hkey
        -- the reach that is dropped is the one that was found
        have heq : f = s' := hsame (h f (by simp [hf])) (h s' (by simp)) hkey.1 hkey.2
        rw [ih found fun s hs => h s (by simp at hs ⊢; tauto)]
        subst heq
        have hmem : s = f → s ∈ found := fun h => h ▸ hf
        simp only [List.mem_append, List.mem_cons]
        tauto
      · rw [ih (found ++ [s']) fun s hs => h s (by simpa using hs)]
        simp
  exact hfold reaches [] h

end Reach

open Reach

/-! ## Matching -/

/-- From one place to another by a number of steps between bounds. A step that is not asked for has to get
on. -/
inductive Iterates (step : Reach → Reach → Prop) (least : Nat) (most : Option Nat) :
    Nat → Reach → Reach → Prop where
  | stop {count : Nat} {r : Reach} : least ≤ count → Iterates step least most count r r
  | step {count : Nat} {r s t : Reach} : (∀ m ∈ most, count < m) → step r s →
      (count < least ∨ r.index < s.index) → Iterates step least most (count + 1) s t →
      Iterates step least most count r t

/-- The expression matches the text between two places. -/
def Matches (mode : Mode) : Regex → Reach → Reach → Prop
  | .empty, r, s => s = r
  | .one set, r, s => ∃ c, set.admits mode.ignoreCase c = true ∧ Passes r s [c] ∧ s.groups = r.groups
  | .boundary b, r, s => r.isAt mode b = true ∧ s = r
  | .append first second, r, t => ∃ s, Matches mode first r s ∧ Matches mode second s t
  | .either first second, r, s => Matches mode first r s ∨ Matches mode second r s
  | .repeated body least most, r, s => Iterates (Matches mode body) least most 0 r s
  | .group number body, r, t => ∃ s text, Matches mode body r s ∧ Passes r s text
      ∧ t = { s with groups := (number, text) :: s.groups.filter fun g => g.1 ≠ number }
  | .again number, r, s => ∃ text passed, r.groups.lookup number = some text ∧ Passes r s passed
      ∧ s.groups = r.groups
      ∧ List.Forall₂ (fun c d => (CharSet.single c).admits mode.ignoreCase d = true) text passed

/-- Either no more steps are taken, or one more and then others. -/
theorem iterates_iff {step : Reach → Reach → Prop} {least : Nat} {most : Option Nat} {count : Nat}
    {r s : Reach} :
    Iterates step least most count r s
      ↔ (least ≤ count ∧ s = r) ∨ ∃ t, (∀ m ∈ most, count < m) ∧ step r t
        ∧ (count < least ∨ r.index < t.index) ∧ Iterates step least most (count + 1) t s := by
  constructor
  · rintro (hleast | ⟨hmost, ht, hon, hs⟩)
    · exact .inl ⟨hleast, rfl⟩
    · exact .inr ⟨_, hmost, ht, hon, hs⟩
  · rintro (⟨hleast, rfl⟩ | ⟨t, hmost, ht, hon, hs⟩)
    · exact .stop hleast
    · exact .step hmost ht hon hs

/-- What steps pass over, they pass over one behind the other. -/
theorem Iterates.passes {step : Reach → Reach → Prop} {least : Nat} {most : Option Nat} {count : Nat}
    {r s : Reach} (hstep : ∀ r s, step r s → ∃ text, Passes r s text)
    (h : Iterates step least most count r s) : ∃ text, Passes r s text := by
  induction h with
  | stop => exact ⟨[], .refl _⟩
  | step _ hfirst _ _ ih =>
    obtain ⟨_, hfirst⟩ := hstep _ _ hfirst
    obtain ⟨_, hmore⟩ := ih
    exact ⟨_, hfirst.trans hmore⟩

/-- A match passes over a text. -/
theorem Matches.passes {mode : Mode} {e : Regex} {r s : Reach} (h : Matches mode e r s) :
    ∃ text, Passes r s text := by
  -- induction on the expression: what its parts pass is passed one after the other
  induction e generalizing r s with
  | empty => exact ⟨[], h ▸ .refl r⟩
  | one set =>
    obtain ⟨c, -, hpasses, -⟩ := h
    exact ⟨_, hpasses⟩
  | boundary b => exact ⟨[], h.2 ▸ .refl r⟩
  | append first second ihfirst ihsecond =>
    obtain ⟨_, hfirst, hsecond⟩ := h
    obtain ⟨_, hfirst⟩ := ihfirst hfirst
    obtain ⟨_, hsecond⟩ := ihsecond hsecond
    exact ⟨_, hfirst.trans hsecond⟩
  | either first second ihfirst ihsecond => exact h.elim ihfirst ihsecond
  | repeated body least most ih => exact Iterates.passes (fun _ _ => ih) h
  | group number body ih =>
    obtain ⟨_, _, -, hpasses, rfl⟩ := h
    exact ⟨_, hpasses.setGroups _⟩
  | again number =>
    obtain ⟨_, passed, -, hpasses, -, -⟩ := h
    exact ⟨passed, hpasses⟩

/-- The steps that are listed are those that there are, as long as there is one more than a text can be long.
Induction on the number of steps that are left. -/
theorem mem_steps {step : Reach → List Reach} {Step : Reach → Reach → Prop} {least : Nat} {most : Option Nat}
    (hstep : ∀ r s, s ∈ step r ↔ Step r s) (hpasses : ∀ r s, Step r s → ∃ text, Passes r s text)
    {n count : Nat} {r s : Reach} (hn : r.rest.length + (least - count) < n) :
    s ∈ steps step least most n count r ↔ Iterates Step least most count r s := by
  induction n generalizing count r with
  | zero => cases hn
  | succ n ih =>
    have hmost : (most.map (decide <| count < ·)).getD true = true ↔ ∀ m ∈ most, count < m := by
      cases most <;> simp
    have hfurther : s ∈ (if (most.map (decide <| count < ·)).getD true = true then
          ((step r).filter fun s => count < least || r.index < s.index).flatMap
            (steps step least most n (count + 1))
        else [])
        ↔ ∃ t, (∀ m ∈ most, count < m) ∧ Step r t ∧ (count < least ∨ r.index < t.index)
          ∧ Iterates Step least most (count + 1) t s := by
      -- a step that counts passes something, or is one of those that are asked for, so the bound goes down
      have hleft {t : Reach} (ht : Step r t) (hon : count < least ∨ r.index < t.index) :
          t.rest.length + (least - (count + 1)) < n := by
        obtain ⟨text, hpasses⟩ := hpasses r t ht
        have hlength := hpasses.length
        have hindex := hpasses.index
        omega
      rw [← hmost]
      split
      · next h =>
        rw [List.mem_flatMap]
        constructor
        · rintro ⟨t, ht, hs⟩
          obtain ⟨ht, hon⟩ := List.mem_filter.mp ht
          rw [hstep] at ht
          have hon : count < least ∨ r.index < t.index := by simpa using hon
          exact ⟨t, h, ht, hon, (ih (hleft ht hon)).mp hs⟩
        · rintro ⟨t, -, ht, hon, hs⟩
          exact ⟨t, List.mem_filter.mpr ⟨(hstep r t).mpr ht, by simpa using hon⟩,
            (ih (hleft ht hon)).mpr hs⟩
      · next h => simp [h]
    rw [iterates_iff, ← hfurther]
    unfold steps
    dsimp only
    by_cases hleast : count < least
    · rw [if_pos hleast]
      simp [Nat.not_le.mpr hleast]
    · rw [if_neg hleast, List.mem_append, List.mem_singleton]
      simp only [Nat.not_lt.mp hleast, true_and, or_comm]

/-- **The matcher lists what an expression matches.** Induction on the expression. -/
theorem mem_reaches {mode : Mode} {e : Regex} {r s : Reach} :
    s ∈ reaches mode e r ↔ Matches mode e r s := by
  induction e generalizing r s with
  | empty => exact List.mem_singleton
  | one set =>
    unfold reaches Matches
    simp only [passes_singleton_iff]
    cases hrest : r.rest with
    | nil => simp
    | cons c rest =>
      -- a set leads nowhere but behind the next character
      rw [next?_eq_some hrest]
      dsimp only
      split
      · next hadmits => simp [hadmits]
      · next hadmits => simp [hadmits]
  | boundary b =>
    unfold reaches Matches
    split <;> simp_all
  | append first second ihfirst ihsecond =>
    -- all of them are reached from one place, so nothing is lost with those that are dropped
    have hfirst : ∀ t ∈ reaches mode first r, ∃ text, Passes r t text :=
      fun t ht => (ihfirst.mp ht).passes
    have hmem (t : Reach) : t ∈ (distinct (reaches mode first r)).flatMap (reaches mode second)
        ↔ Matches mode (.append first second) r t := by
      simp only [List.mem_flatMap, mem_distinct hfirst, ihfirst, ihsecond, Matches]
    unfold reaches
    rw [mem_distinct fun t ht => ((hmem t).mp ht).passes, hmem]
  | either first second ihfirst ihsecond =>
    unfold reaches Matches
    rw [List.mem_mergeSort, List.mem_append, ihfirst, ihsecond]
  | repeated body least most ih =>
    have hmem (t : Reach) :
        t ∈ steps (reaches mode body) least most (r.rest.length + least + 1) 0 r
          ↔ Matches mode (.repeated body least most) r t :=
      mem_steps (fun _ _ => ih) (fun _ _ => Matches.passes) (by omega)
    unfold reaches
    rw [mem_distinct fun t ht => ((hmem t).mp ht).passes, hmem]
  | group number body ih =>
    unfold reaches Matches
    simp only [List.mem_map, ih]
    constructor
    · rintro ⟨t, ht, rfl⟩
      obtain ⟨text, hpasses⟩ := ht.passes
      exact ⟨t, text, ht, hpasses, by rw [← hpasses.eq_take]⟩
    · rintro ⟨t, text, ht, hpasses, rfl⟩
      exact ⟨t, ht, by rw [← hpasses.eq_take]⟩
  | again number =>
    unfold reaches Matches
    cases hlookup : r.groups.lookup number with
    | none => simp
    | some text =>
      simp only [Option.mem_toList, after?_eq_some, Option.some_inj, exists_and_left,
        exists_eq_left']

/-! ## The farthest reach -/

/-- Induction on the reaches behind the best one so far. -/
theorem exists_farthest?_cons (best : Reach) (found : List Reach) :
    ∃ s, farthest? (best :: found) = some s ∧ s ∈ best :: found
      ∧ ∀ t ∈ best :: found, t.index ≤ s.index := by
  induction found generalizing best with
  | nil => exact ⟨best, rfl, List.mem_singleton_self best, by simp⟩
  | cons r found ih =>
    -- the next reach is taken instead of the best one only if it is farther
    by_cases h : best.index < r.index
    · obtain ⟨s, hs, hmem, hle⟩ := ih r
      have hstep : farthest? (best :: r :: found) = farthest? (r :: found) := by
        simp [farthest?, h]
      have hbest : best.index ≤ s.index := h.le.trans (hle r List.mem_cons_self)
      exact ⟨s, hstep.trans hs, List.mem_cons_of_mem best hmem, List.forall_mem_cons.mpr ⟨hbest, hle⟩⟩
    · obtain ⟨s, hs, hmem, hle⟩ := ih best
      have hstep : farthest? (best :: r :: found) = farthest? (best :: found) := by
        simp [farthest?, h]
      have hr : r.index ≤ s.index := (Nat.not_lt.mp h).trans (hle best List.mem_cons_self)
      refine ⟨s, hstep.trans hs, ?_, ?_⟩
      · exact (List.mem_cons.mp hmem).elim (fun h => h ▸ List.mem_cons_self)
          fun h => List.mem_cons_of_mem best (List.mem_cons_of_mem r h)
      · rw [List.forall_mem_cons] at hle ⊢
        exact ⟨hle.1, List.forall_mem_cons.mpr ⟨hr, hle.2⟩⟩

/-- There is a farthest reach unless there is none at all. -/
theorem farthest?_eq_none {found : List Reach} : farthest? found = none ↔ found = [] := by
  cases found with
  | nil => exact ⟨fun _ => rfl, fun _ => rfl⟩
  | cons r found =>
    obtain ⟨s, hs, -⟩ := exists_farthest?_cons r found
    simp [hs]

/-- No reach is farther than the one that is taken. -/
theorem farthest?_eq_some {found : List Reach} {s : Reach} (h : farthest? found = some s) :
    s ∈ found ∧ ∀ t ∈ found, t.index ≤ s.index := by
  cases found with
  | nil => cases h
  | cons r found =>
    obtain ⟨_, hs, hmem, hle⟩ := exists_farthest?_cons r found
    cases hs.symm.trans h
    exact ⟨hmem, hle⟩

/-! ## Searching -/

/-- The place in a text that follows `before`, with `front` in front of it and `rest` behind. -/
def place (before : Option Char) (front rest : Bytes) : Reach where
  index := front.length
  before := front.getLast?.or before
  rest := rest

/-- The expression matches where the occurrence says, and the groups have matched what it says. -/
def MatchesAt (mode : Mode) (e : Regex) (before : Option Char) (o : Occurrence) : Prop :=
  ∃ s, Matches mode e (place before o.front (o.text ++ o.rest)) s
    ∧ Passes (place before o.front (o.text ++ o.rest)) s o.text ∧ s.groups = o.groups

/-- The text in which something occurs. -/
def Occurrence.whole (o : Occurrence) : Bytes :=
  o.front ++ o.text ++ o.rest

/-- The occurrence is there, and each other one with as much in front of it begins behind it, or it begins
there and is not longer. -/
structure LeftmostFrom (least : Nat) (mode : Mode) (e : Regex) (before : Option Char) (text : Bytes)
    (o : Occurrence) : Prop where
  whole : o.whole = text
  matchesAt : MatchesAt mode e before o
  first : ∀ o', o'.whole = text → MatchesAt mode e before o' → least ≤ o'.front.length →
    o.front.length < o'.front.length
      ∨ (o.front.length = o'.front.length ∧ o'.text.length ≤ o.text.length)

variable {mode : Mode} {e : Regex} {before : Option Char} {text front rest : Bytes} {o : Occurrence}

/-- What occurs somewhere is found among the reaches of that place. -/
theorem MatchesAt.exists_mem_reaches (h : MatchesAt mode e before o) :
    ∃ s ∈ reaches mode e (place before o.front (o.text ++ o.rest)),
      s.index = o.front.length + o.text.length := by
  obtain ⟨s, hs, hpasses, -⟩ := h
  exact ⟨s, mem_reaches.mpr hs, hpasses.index⟩

/-- A reach of a place is a match there. -/
theorem matchesAt_of_mem_reaches {s : Reach} (h : s ∈ reaches mode e (place before front rest)) :
    ∃ o, o = ⟨front, rest.take (s.index - front.length), s.rest, s.groups⟩ ∧ o.text ++ o.rest = rest
      ∧ s.index = front.length + o.text.length ∧ MatchesAt mode e before o := by
  have hs := mem_reaches.mp h
  obtain ⟨text, hpasses⟩ := hs.passes
  -- what the search cuts off is the text between the places
  have htext : text = rest.take (s.index - front.length) := hpasses.eq_take
  have hrest : text ++ s.rest = rest := hpasses.rest.symm
  refine ⟨_, rfl, ?_, ?_, s, ?_, ?_, rfl⟩
  all_goals rw [← htext]
  · exact hrest
  · exact hpasses.index
  · rw [hrest]
    exact hs
  · rw [hrest]
    exact hpasses

/-- The next character goes over to what is in front of the place, which a search lists from its end. -/
theorem next?_place (before : Option Char) (skipped : Bytes) (c : Char) (rest : Bytes) :
    (place before skipped.reverse (c :: rest)).next?
      = some (place before (c :: skipped).reverse rest) := by
  simp [next?, place]

/-- Where an occurrence begins says which text is in front of it. -/
theorem Occurrence.front_eq (hwhole : o.whole = front ++ rest) (hlength : o.front.length = front.length) :
    o.front = front ∧ o.text ++ o.rest = rest := by
  unfold whole at hwhole
  rw [List.append_assoc] at hwhole
  exact List.append_inj hwhole hlength

/-- Where a place has no reaches, nothing begins. -/
theorem not_matchesAt_of_farthest?_eq_none (h : farthest? (reaches mode e (place before front rest)) = none)
    (hwhole : o.whole = front ++ rest) (hlength : o.front.length = front.length) :
    ¬MatchesAt mode e before o := by
  intro hmatches
  obtain ⟨rfl, rfl⟩ := o.front_eq hwhole hlength
  obtain ⟨s, hs, -⟩ := hmatches.exists_mem_reaches
  rw [farthest?_eq_none.mp h] at hs
  cases hs

/-- What begins at a place is not longer than what is found there. -/
theorem length_le_of_farthest? {s : Reach} (h : farthest? (reaches mode e (place before front rest)) = some s)
    (hwhole : o.whole = front ++ rest) (hlength : o.front.length = front.length)
    (hmatches : MatchesAt mode e before o) : front.length + o.text.length ≤ s.index := by
  obtain ⟨rfl, rfl⟩ := o.front_eq hwhole hlength
  obtain ⟨t, ht, hindex⟩ := hmatches.exists_mem_reaches
  exact hindex ▸ (farthest?_eq_some h).2 t ht

/-- What a search finds from a place on. Induction on the places that are left. -/
theorem findFrom?_eq_some (skipped : Bytes) {n : Nat}
    (h : findFrom? mode e skipped n (place before skipped.reverse rest) = some o) :
    LeftmostFrom skipped.length mode e before (skipped.reverse ++ rest) o := by
  induction n generalizing skipped rest with
  | zero => cases h
  | succ n ih =>
    unfold findFrom? at h
    cases hfound : farthest? (reaches mode e (place before skipped.reverse rest)) with
    | some s =>
      obtain ⟨found, hfoundEq, hrest, hindex, hmatches⟩ :=
        matchesAt_of_mem_reaches (farthest?_eq_some hfound).1
      have ho : found = o := by
        rw [hfound] at h
        exact hfoundEq.trans (Option.some.inj h)
      have hfront : o.front = skipped.reverse := by rw [← ho, hfoundEq]
      subst ho
      refine ⟨?_, hmatches, fun o' hwhole' hmatches' hleast => ?_⟩
      · unfold Occurrence.whole
        rw [List.append_assoc, hrest, hfront]
      · rw [hfront, List.length_reverse]
        obtain hlt | heq := hleast.lt_or_eq
        · exact .inl hlt
        · have hle := length_le_of_farthest? hfound hwhole' (by simpa using heq.symm) hmatches'
          exact .inr ⟨heq, by omega⟩
    | none =>
      rw [hfound] at h
      cases rest with
      | nil => cases h
      | cons c rest =>
        rw [next?_place] at h
        have hlater := ih (c :: skipped) h
        rw [List.reverse_cons, List.append_assoc, List.singleton_append] at hlater
        refine ⟨hlater.whole, hlater.matchesAt, fun o' hwhole' hmatches' hleast => ?_⟩
        -- nothing begins here, so it begins behind the next character
        have hne : skipped.length ≠ o'.front.length := fun heq =>
          not_matchesAt_of_farthest?_eq_none hfound hwhole' (by simpa using heq.symm) hmatches'
        exact hlater.first o' hwhole' hmatches' (by simp; omega)

/-- If a search finds nothing, nothing begins from the place on. Induction on the places that are left. -/
theorem not_matchesAt_of_findFrom?_eq_none (skipped : Bytes) {n : Nat} (hn : rest.length < n)
    (h : findFrom? mode e skipped n (place before skipped.reverse rest) = none)
    (hwhole : o.whole = skipped.reverse ++ rest) (hleast : skipped.length ≤ o.front.length) :
    ¬MatchesAt mode e before o := by
  induction n generalizing skipped rest with
  | zero => cases hn
  | succ n ih =>
    unfold findFrom? at h
    cases hfound : farthest? (reaches mode e (place before skipped.reverse rest)) with
    | some s =>
      rw [hfound] at h
      cases h
    | none =>
      -- what begins here would be found here, so only what begins farther on is left
      have hhere (hlength : o.front.length = skipped.length) : ¬MatchesAt mode e before o :=
        not_matchesAt_of_farthest?_eq_none hfound hwhole (by simpa using hlength)
      rw [hfound] at h
      cases rest with
      | nil =>
        have hlength := congrArg List.length hwhole
        simp only [Occurrence.whole, List.length_append, List.length_reverse, List.length_nil] at hlength
        exact hhere (by omega)
      | cons c rest =>
        rw [next?_place] at h
        obtain hlt | heq := hleast.lt_or_eq
        · exact ih (c :: skipped) (Nat.lt_of_succ_lt_succ hn) h (by simpa using hwhole) hlt
        · exact hhere heq.symm

/-- **A search finds the leftmost match, and there the longest.** -/
theorem find?_eq_some (h : e.find? mode before text = some o) : LeftmostFrom 0 mode e before text o :=
  findFrom?_eq_some [] h

/-- If nothing is found, there is nothing to find. -/
theorem find?_eq_none_iff :
    e.find? mode before text = none ↔ ∀ o, o.whole = text → ¬MatchesAt mode e before o := by
  constructor
  · intro h o hwhole
    exact not_matchesAt_of_findFrom?_eq_none [] (Nat.lt_succ_self _) h hwhole (Nat.zero_le _)
  · intro h
    by_contra hfound
    obtain ⟨o, ho⟩ := Option.ne_none_iff_exists'.mp hfound
    exact h o (find?_eq_some ho).whole (find?_eq_some ho).matchesAt

/-- An expression occurs in a text if it matches a part of it. -/
theorem occursIn_iff : e.occursIn mode text = true ↔ ∃ o, o.whole = text ∧ MatchesAt mode e none o := by
  unfold occursIn
  rw [Option.isSome_iff_ne_none, ne_eq, find?_eq_none_iff]
  simp only [not_forall, not_not, exists_prop]

end TemplateCoverage.Regex
