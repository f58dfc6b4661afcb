import Mathlib
import TemplateCoverage.Proofs.Shell.Running

/-!
# Sums of 64 bits

A sum is read and computed in one pass over its tokens. Two things hold at each step of that pass, so they hold
of the whole.

* **`isWord_apply`**: an operator between numbers of 64 bits gives a number of 64 bits, or a fault.
* **`Computes`**: a step whose value has a property, which leaves only numbers of 64 bits in the state and which
  gives no variable a value unless it counts. Steps are put together by `Computes.bind`.
* **`computes_value`**: every part of a sum does so. The induction is on the number of steps, with one lemma for
  each level of the grammar.
* **`value_idle`**: a part that does not count, such as the branch of a condition that is not chosen, changes no
  variable.
* **`compute_isWord`**: the value of a sum and the new values of variables are numbers of 64 bits. `isWord_sum`
  says so of a sum in a script, where the variables are those of the shell.
-/

namespace TemplateCoverage.Shell.Sum

/-! ## Numbers of 64 bits -/

/-- A number that 64 bits can hold, one of them for the sign. -/
def IsWord (n : Int) : Prop :=
  -(2 ^ 63) ≤ n ∧ n < 2 ^ 63

instance (n : Int) : Decidable (IsWord n) :=
  inferInstanceAs (Decidable (_ ∧ _))

/-- Whatever a number is wrapped from, 64 bits can hold it. -/
theorem isWord_wrapped (n : Int) : IsWord (wrapped n) := by
  unfold wrapped IsWord
  norm_num
  split <;> omega

theorem isWord_clamped (n : Int) : IsWord (clamped n) := by
  unfold clamped IsWord
  norm_num

theorem isWord_toInt (x : BitVec 64) : IsWord x.toInt :=
  ⟨x.le_toInt, x.toInt_lt⟩

/-- A truth value is a number of 64 bits. -/
theorem isWord_truth (p : Prop) [Decidable p] : IsWord (if p then 1 else 0) := by
  split <;> decide

/-- A shift to the right takes a number towards zero or minus one. -/
theorem isWord_shifted {a : Int} (h : IsWord a) (n : Nat) : IsWord (a / (Nat.pow 2 n : Nat)) := by
  have hpos : (0 : Int) < (Nat.pow 2 n : Nat) := by
    exact_mod_cast Nat.pos_of_ne_zero (pow_ne_zero n two_ne_zero)
  constructor
  · rw [Int.le_ediv_iff_mul_le hpos]
    have hle : -(2 ^ 63) * ((Nat.pow 2 n : Nat) : Int) ≤ -(2 ^ 63) := by
      nlinarith
    exact hle.trans h.1
  · rw [Int.ediv_lt_iff_lt_mul hpos]
    have hle : (2 ^ 63 : Int) ≤ 2 ^ 63 * ((Nat.pow 2 n : Nat) : Int) := by
      nlinarith
    exact h.2.trans_le hle

/-- **An operator between numbers of 64 bits** gives such a number, if it gives any. -/
theorem isWord_apply {op : String} {a b n : Int} (ha : IsWord a) (hb : IsWord b) (h : apply op a b = .ok n) :
    IsWord n := by
  unfold apply at h
  simp only at h
  split at h
  -- bits
  case h_1 | h_2 | h_3 => exact Except.ok.inj h ▸ isWord_toInt _
  -- comparisons
  case h_4 | h_5 | h_6 | h_7 | h_8 | h_9 => exact Except.ok.inj h ▸ isWord_truth _
  -- shifts
  case h_10 => exact Except.ok.inj h ▸ isWord_wrapped _
  case h_11 => exact Except.ok.inj h ▸ isWord_shifted ha _
  case h_12 | h_13 | h_14 => exact Except.ok.inj h ▸ isWord_wrapped _
  -- what divides has no value for zero
  case h_15 | h_16 =>
    split at h
    · cases h
    · exact Except.ok.inj h ▸ isWord_wrapped _
  case h_17 => exact Except.ok.inj h ▸ hb

/-! ## Tokens -/

/-- A token that has no number of more than 64 bits. -/
def Narrow (t : SumToken) : Prop :=
  ∀ n, t = .number n → IsWord n

/-- The numbers in a text are cut to 64 bits when they are read. -/
theorem narrow_of_mem_tokens {n : Nat} {text : Bytes} {t : SumToken} (h : t ∈ tokens n text) : Narrow t := by
  induction n, text using tokens.induct with
  | case1 => cases h
  | case2 n hn =>
    rw [tokens.eq_2 _ hn] at h
    cases h
  | case3 n c rest hblank ih =>
    rw [tokens, if_pos hblank] at h
    exact ih h
  | case4 n c rest hblank hdigit value after hnumber ih =>
    rw [tokens, if_neg hblank, if_pos hdigit, hnumber] at h
    rcases List.mem_cons.mp h with rfl | h
    · rintro m ⟨⟩
      exact isWord_clamped value
    · exact ih h
  | case5 n c rest hblank hdigit hname name ih =>
    rw [tokens, if_neg hblank, if_neg hdigit, if_pos hname] at h
    rcases List.mem_cons.mp h with rfl | h
    · nofun
    · exact ih h
  | case6 n c rest hblank hdigit hname o ho ih =>
    rw [tokens, if_neg hblank, if_neg hdigit, if_neg hname, ho] at h
    rcases List.mem_cons.mp h with rfl | h
    · nofun
    · exact ih h
  | case7 n c rest hblank hdigit hname hnone =>
    rw [tokens, if_neg hblank, if_neg hdigit, if_neg hname, hnone] at h
    rw [List.mem_singleton.mp h]
    nofun

/-! ## Steps -/

/-- A state of the reading with numbers of 64 bits only. -/
structure Sound (s : SumState) : Prop where
  tokens : ∀ t ∈ s.tokens, Narrow t
  assigned : ∀ v ∈ s.assigned, IsWord v.2

variable {α β : Type} {counts : Bool} {P : α → Prop} {Q : β → Prop}

/-- From a sound state the step comes to a value that has the property and to a sound state. If it does not
count, it gives no variable a value. -/
def Computes (counts : Bool) (P : α → Prop) (work : Summing α) : Prop :=
  ∀ s a s', work.run s = .ok (a, s') → Sound s →
    P a ∧ Sound s' ∧ (counts = false → s'.assigned = s.assigned)

/-- To have a value changes nothing. -/
theorem Computes.pure {a : α} (h : P a) : Computes counts P (pure a : Summing α) := by
  intro s a' s' hrun hs
  cases hrun
  exact ⟨h, hs, fun _ => rfl⟩

theorem Computes.throw (fault : SumFault) : Computes counts P (throw fault : Summing α) := by
  intro s a s' hrun
  cases hrun

/-- **Steps are put together**: the second one may rely on the property of the value of the first. -/
theorem Computes.bind {work : Summing α} {next : α → Summing β} (hwork : Computes counts P work)
    (hnext : ∀ a, P a → Computes counts Q (next a)) : Computes counts Q (work >>= next) := by
  intro s b s' hrun hs
  rw [StateT.run_bind] at hrun
  cases hfirst : work.run s with
  | error fault =>
    rw [hfirst] at hrun
    cases hrun
  | ok first =>
    rw [hfirst] at hrun
    -- the state between the two steps is sound, and it has the same variables if nothing counts
    obtain ⟨ha, hmid, hquiet⟩ := hwork s first.1 first.2 hfirst hs
    obtain ⟨hb, hend, hquiet'⟩ := hnext first.1 ha first.2 b s' hrun hmid
    exact ⟨hb, hend, fun h => (hquiet' h).trans (hquiet h)⟩

/-- What does not count can stand where something counts. -/
theorem Computes.mono {work : Summing α} {counts' : Bool} (h : Computes counts' P work)
    (hcounts : counts = false → counts' = false) : Computes counts P work := by
  intro s a s' hrun hs
  obtain ⟨ha, hs', hquiet⟩ := h s a s' hrun hs
  exact ⟨ha, hs', fun hc => hquiet (hcounts hc)⟩

theorem Computes.lift {result : Except SumFault α} (h : ∀ a, result = .ok a → P a) :
    Computes counts P (liftM result : Summing α) := by
  intro s a s' hrun hs
  cases result with
  | error fault => cases hrun
  | ok a' =>
    cases hrun
    exact ⟨h _ rfl, hs, fun _ => rfl⟩

theorem Computes.get : Computes counts Sound (get : Summing SumState) := by
  intro s a s' hrun hs
  cases hrun
  exact ⟨hs, hs, fun _ => rfl⟩

theorem Computes.modify {f : SumState → SumState}
    (h : ∀ s, Sound s → Sound (f s) ∧ (counts = false → (f s).assigned = s.assigned)) :
    Computes counts (fun _ => True) (modify f : Summing PUnit) := by
  intro s a s' hrun hs
  cases hrun
  exact ⟨trivial, h s hs⟩

/-- To go on to tokens that were there before. -/
theorem computes_proceed {before : SumState} (hbefore : Sound before) {rest : List SumToken}
    (hrest : rest ⊆ before.tokens) :
    Computes counts (fun _ => True) (modify fun s => { s with tokens := rest } : Summing PUnit) :=
  .modify fun _ hs => ⟨⟨fun t ht => hbefore.tokens t (hrest ht), hs.assigned⟩, fun _ => rfl⟩

/-- An operator is taken if it comes next and is one of those that are asked for. Nothing else changes. -/
theorem run_accept (ops : List String) (s : SumState) :
    (accept ops).run s =
      match s.tokens with
      | .operator o :: rest => .ok (if ops.contains o then (some o, { s with tokens := rest }) else (none, s))
      | _ => .ok (none, s) := by
  show (match s.tokens with | .operator o :: rest => _ | _ => _ : Summing _).run s = _
  split
  · split
    · rfl
    · rfl
  · rfl

theorem computes_accept (ops : List String) : Computes counts (fun _ => True) (accept ops) := by
  intro s a s' hrun hs
  rw [run_accept] at hrun
  split at hrun
  · next o rest htokens =>
    split at hrun
    · -- the operator is the first of the tokens
      cases hrun
      refine ⟨trivial, ⟨fun t ht => hs.tokens t ?_, hs.assigned⟩, fun _ => rfl⟩
      rw [htokens]
      exact List.mem_cons_of_mem _ ht
    · cases hrun
      exact ⟨trivial, hs, fun _ => rfl⟩
  · cases hrun
    exact ⟨trivial, hs, fun _ => rfl⟩

/-! ## Parts -/

/-- What a part works on besides the state is a number of 64 bits. -/
def SoundLevel : SumLevel → Prop
  | .rest _ left => IsWord left
  | _ => True

variable {look : Bytes → Except SumFault Int}

/-- The value of a variable: a new one, or the one that it has had. -/
theorem computes_current (hlook : ∀ name n, look name = .ok n → IsWord n) (name : Bytes) :
    Computes counts IsWord (do
      match (← get).assigned.lookup name with
      | some v => pure v
      | none => liftM (look name) : Summing Int) := by
  refine .bind .get fun s hs => ?_
  split
  · next v hv =>
    obtain ⟨before, after, hsplit, -⟩ := List.lookup_eq_some_iff.mp hv
    exact .pure (hs.assigned (name, v) (by rw [hsplit]; simp))
  · exact .lift (hlook name)

/-- To give a variable a value. -/
theorem computes_assign (name : Bytes) {n : Int} (hn : IsWord n) :
    Computes true (fun _ => True)
      (modify fun s => { s with assigned := (name, n) :: s.assigned } : Summing PUnit) := by
  refine .modify fun s hs => ⟨⟨hs.tokens, fun v hv => ?_⟩, nofun⟩
  rcases List.mem_cons.mp hv with rfl | hv
  · exact hn
  · exact hs.assigned v hv

section Levels

variable {n : Nat}
  (hparts : ∀ level counts, SoundLevel level → Computes counts IsWord (value look n level counts))
include hparts

/-- An assignment, or what stands in its place. Only if it counts does the variable get the value. -/
theorem computes_assignment (hlook : ∀ name n, look name = .ok n → IsWord n) (counts : Bool) :
    Computes counts IsWord (value look (n + 1) .assignment counts) := by
  refine .bind .get fun s hs => ?_
  split
  · next name o rest htokens =>
    split
    · refine .bind (computes_proceed hs (by rw [htokens]; simp)) fun _ _ => ?_
      refine .bind (hparts .assignment counts trivial) fun right hright => ?_
      cases counts with
      | false => exact .pure hright
      | true =>
        rw [if_neg (by decide)]
        -- whatever the operator, the variable gets the number that it leads to
        have hassign (result : Int) (h : IsWord result) :=
          (computes_assign name h).bind fun _ _ => Computes.pure (P := IsWord) h
        dsimp only
        split
        · exact .bind (.pure hright) hassign
        · exact .bind (computes_current hlook name) fun left hleft =>
            .bind (.lift fun _ => isWord_apply hleft hright) hassign
    · exact hparts .condition counts trivial
  · exact hparts .condition counts trivial

/-- A condition, of whose branches one counts at most. -/
theorem computes_condition (counts : Bool) : Computes counts IsWord (value look (n + 1) .condition counts) := by
  refine .bind (hparts .disjunction counts trivial) fun c hc => .bind (computes_accept _) fun mark _ => ?_
  split
  · exact .pure hc
  · -- only one of the two branches counts
    refine .bind ((hparts .assignment (counts && c ≠ 0) trivial).mono (by simp +contextual)) fun yes hyes => ?_
    refine .bind (computes_accept _) fun mark _ => ?_
    dsimp only
    split
    · exact .bind (.throw (P := fun _ => False) _) nofun
    · refine .bind ((hparts .condition (counts && c = 0) trivial).mono (by simp +contextual)) fun no hno => ?_
      apply Computes.pure
      split
      · exact hyes
      · exact hno

theorem computes_disjunction (counts : Bool) :
    Computes counts IsWord (value look (n + 1) .disjunction counts) := by
  refine .bind (hparts .conjunction counts trivial) fun a ha => .bind (computes_accept _) fun mark _ => ?_
  split
  · exact .pure ha
  · exact .bind ((hparts .disjunction (counts && a = 0) trivial).mono (by simp +contextual)) fun b _ =>
      .pure (isWord_truth _)

theorem computes_conjunction (counts : Bool) :
    Computes counts IsWord (value look (n + 1) .conjunction counts) := by
  refine .bind (hparts (.binary 0) counts trivial) fun a ha => .bind (computes_accept _) fun mark _ => ?_
  split
  · exact .pure ha
  · exact .bind ((hparts .conjunction (counts && a ≠ 0) trivial).mono (by simp +contextual)) fun b _ =>
      .pure (isWord_truth _)

theorem computes_binary (counts : Bool) (tightness : Nat) :
    Computes counts IsWord (value look (n + 1) (.binary tightness) counts) := by
  unfold value
  dsimp only
  split
  · exact hparts .primary counts trivial
  · exact .bind (hparts (.binary (tightness + 1)) counts trivial) fun left hleft =>
      hparts (.rest tightness left) counts hleft

/-- The operators behind a value, from left to right. Each one works on what those before it came to. -/
theorem computes_rest (counts : Bool) (tightness : Nat) {left : Int} (hleft : IsWord left) :
    Computes counts IsWord (value look (n + 1) (.rest tightness left) counts) := by
  refine .bind (computes_accept _) fun mark _ => ?_
  split
  · exact .pure hleft
  · next o =>
    refine .bind (hparts (.binary (tightness + 1)) counts trivial) fun right hright => ?_
    -- the result becomes the value on the left of the next operator
    have hnext (result : Int) (h : IsWord result) := hparts (.rest tightness result) counts h
    dsimp only
    split
    · exact .bind (.lift fun _ => isWord_apply hleft hright) hnext
    · exact .bind (.pure hright) hnext

/-- A number, a variable, a sum between parentheses, or any of these behind a sign. -/
theorem computes_primary (hlook : ∀ name n, look name = .ok n → IsWord n) (counts : Bool) :
    Computes counts IsWord (value look (n + 1) .primary counts) := by
  refine .bind .get fun s hs => ?_
  split
  · next m rest htokens =>
    have hm : IsWord m := hs.tokens (.number m) (by rw [htokens]; simp) m rfl
    exact .bind (computes_proceed hs (by rw [htokens]; simp)) fun _ _ => .pure hm
  · next name rest htokens =>
    refine .bind (computes_proceed hs (by rw [htokens]; simp)) fun _ _ => ?_
    split
    · exact computes_current hlook name
    · exact .pure (by decide)
  · next o rest htokens =>
    refine .bind (computes_proceed hs (by rw [htokens]; simp)) fun _ _ => ?_
    split
    · -- a sum between parentheses
      refine .bind (hparts .assignment counts trivial) fun inner hinner =>
        .bind (computes_accept _) fun mark _ => ?_
      split
      · exact .bind (.throw (P := fun _ => False) _) nofun
      · exact .pure hinner
    · exact hparts .primary counts trivial
    · exact .bind (hparts .primary counts trivial) fun m _ => .pure (isWord_wrapped _)
    · exact .bind (hparts .primary counts trivial) fun m _ => .pure (isWord_truth _)
    · -- the complement of the largest number is the smallest one
      refine .bind (hparts .primary counts trivial) fun m hm => .pure ?_
      unfold IsWord at hm ⊢
      omega
    · exact .throw _
  · exact .throw _

end Levels

/-- **Every part of a sum** has a number of 64 bits as its value, and gives variables only such values, and none
if it does not count. -/
theorem computes_value (hlook : ∀ name n, look name = .ok n → IsWord n) (n : Nat) (level : SumLevel)
    (counts : Bool) (hlevel : SoundLevel level) : Computes counts IsWord (value look n level counts) := by
  induction n generalizing level counts with
  | zero => exact .pure (by decide)
  | succ n ih =>
    -- one lemma for each level, all of them with the parts that have a step less
    have hparts (level counts) (h : SoundLevel level) := ih level counts h
    cases level with
    | assignment => exact computes_assignment hparts hlook counts
    | condition => exact computes_condition hparts counts
    | disjunction => exact computes_disjunction hparts counts
    | conjunction => exact computes_conjunction hparts counts
    | binary tightness => exact computes_binary hparts counts tightness
    | rest tightness left => exact computes_rest hparts counts tightness hlevel
    | primary => exact computes_primary hparts hlook counts

/-! ## Sums -/

/-- **A part that does not count changes no variable**, whatever assignments are written in it. -/
theorem value_idle (hlook : ∀ name n, look name = .ok n → IsWord n) {fuel : Nat} {level : SumLevel} {n : Int}
    {s s' : SumState} (hlevel : SoundLevel level) (hs : Sound s)
    (h : (value look fuel level false).run s = .ok (n, s')) : s'.assigned = s.assigned :=
  (computes_value hlook fuel level false hlevel s n s' h hs).2.2 rfl

/-- **Sums are sums of 64 bits.** If the variables that are looked up have such numbers as their values, the
value of a sum is one, and so are the new values of variables. -/
theorem compute_isWord (hlook : ∀ name n, look name = .ok n → IsWord n) {text : Bytes} {n : Int}
    {assigned : List (Bytes × Int)} (h : compute look text = .ok (n, assigned)) :
    IsWord n ∧ ∀ v ∈ assigned, IsWord v.2 := by
  unfold compute at h
  dsimp only at h
  split at h
  · cases h
  · next m s hrun =>
    -- the numbers in the text are the first ones, and no variable has got a value yet
    obtain ⟨hm, hs, -⟩ := computes_value hlook _ .assignment true trivial _ m s hrun
      ⟨fun _ => narrow_of_mem_tokens, nofun⟩
    split at h
    · cases h
      exact ⟨hm, fun v hv => hs.assigned v (List.mem_reverse.mp hv)⟩
    · cases h

/-- The variables of a shell are looked up as numbers of 64 bits. -/
theorem isWord_numberOf {bindings : List (Bytes × Binding)} {name : Bytes} {n : Int}
    (h : Running.numberOf bindings name = .ok n) : IsWord n := by
  unfold Running.numberOf at h
  split at h
  · cases h
    decide
  · dsimp only at h
    split at h
    · exact Except.ok.inj h ▸ isWord_clamped _
    · cases h

/-- **A sum in a script** stands for a number of 64 bits, if the script goes on behind it. -/
theorem isWord_sum {text : Bytes} {n : Int} {m m' : Machine} (h : (Running.sum text).exec m = (.ok n, m')) :
    IsWord n := by
  unfold Running.sum at h
  rw [Running.exec_bind_of_ok (Running.exec_here m)] at h
  split at h
  · -- a fault ends the script, also if it could not be complained about
    unfold Running.fail at h
    rw [Running.exec_bind] at h
    split at h
    · rw [Running.exec_throw] at h
      cases h
    · cases h
  · next n' assigned hcompute =>
    rw [Running.exec_bind] at h
    split at h
    · cases h
      exact (compute_isWord (fun _ _ => isWord_numberOf) hcompute).1
    · cases h

end TemplateCoverage.Shell.Sum
