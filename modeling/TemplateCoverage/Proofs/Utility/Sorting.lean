import Mathlib
import TemplateCoverage.Utility.Sort

/-!
# Sorted lines

Lines are compared by keys, and keys by rules: byte by byte, as numbers, in reverse. Sorting is of use only if
all of these are orders.

* **`transCmp_order`**: the comparison of lines is transitive, as long as no key is a version.
* **`sort_perm`**, **`pairwise_sort`**: sorted lines are the lines that were given, in order.
* **`sort_unique`**: without repetitions, no two lines have the same keys, and each line that was given has the
  keys of one that is left.
* **`disorder?_eq_none_iff`**: the check of an order, which what was sorted passes (`disorder?_sort`).
* **`flatMap_runs`**: runs of lines that are alike say how often each of them stood there.
-/

namespace TemplateCoverage.Utility

open Std (TransCmp OrientedCmp)

/-! ## Comparisons -/

/-- Parts of values are compared like the parts themselves. -/
theorem transCmp_on {α β : Type} {cmp : β → β → Ordering} [TransCmp cmp] (f : α → β) :
    TransCmp fun a b => cmp (f a) (f b) where
  eq_swap := OrientedCmp.eq_swap
  isLE_trans := TransCmp.isLE_trans

/-- What goes the other way round is an order too. -/
theorem transCmp_swap {α : Type} {cmp : α → α → Ordering} [TransCmp cmp] :
    TransCmp fun a b => (cmp a b).swap where
  eq_swap := by
    intro a b
    rw [← @OrientedCmp.eq_swap _ cmp, Ordering.swap_swap]
  isLE_trans := by
    intro a b c hab hbc
    rw [← @OrientedCmp.eq_swap _ cmp] at hab hbc ⊢
    exact TransCmp.isLE_trans hbc hab

/-- Where one comparison does not decide, another one does. -/
theorem transCmp_then {α : Type} {cmp cmp' : α → α → Ordering} [TransCmp cmp] [TransCmp cmp'] :
    TransCmp fun a b => (cmp a b).then (cmp' a b) :=
  inferInstanceAs (TransCmp (compareLex cmp cmp'))

namespace SortRule

/-- Bytes are compared like words in a dictionary. -/
theorem compareBytes_eq (a b : Bytes) :
    compareBytes a b = List.compareLex (fun c d => compare c.toNat d.toNat) a b := by
  induction a generalizing b with
  | nil => cases b <;> rfl
  | cons c a ih =>
    cases b with
    | nil => rfl
    | cons d b =>
      rw [List.compareLex_cons_cons, ← ih, compareBytes]
      cases compare c.toNat d.toNat <;> rfl

/-- The comparison of bytes is an order. -/
theorem transCmp_compareBytes : TransCmp compareBytes := by
  have hchar : TransCmp fun c d : Char => compare c.toNat d.toNat := transCmp_on Char.toNat
  have heq : compareBytes = List.compareLex fun c d => compare c.toNat d.toNat := by
    funext a b
    exact compareBytes_eq a b
  rw [heq]
  infer_instance

/-- The number that digits stand for. No digits stand for zero. -/
def digitsValue (digits : Bytes) : Nat :=
  digits.foldl (fun n c => 10 * n + (c.toNat - '0'.toNat)) 0

/-- Digits are read as the number that they stand for. -/
theorem nat?_getD {digits : Bytes} (h : digits.all Char.isDigit = true) :
    (Bytes.nat? digits).getD 0 = digitsValue digits := by
  unfold Bytes.nat?
  cases digits with
  | nil => rfl
  | cons c digits => simp [h, digitsValue]

/-- More zeros behind the digits multiply the number. -/
theorem digitsValue_append_zeros (digits : Bytes) (n : Nat) :
    digitsValue (digits ++ List.replicate n '0') = digitsValue digits * 10 ^ n := by
  induction n with
  | zero => simp
  | succ n ih =>
    have hlast : digitsValue (digits ++ List.replicate n '0' ++ ['0'])
        = 10 * digitsValue (digits ++ List.replicate n '0') := by
      unfold digitsValue
      rw [List.foldl_append]
      rfl
    rw [List.replicate_succ', ← List.append_assoc, hlast, ih, Nat.pow_succ]
    ring

/-- The number that a text begins with. -/
def value (text : Bytes) : ℚ :=
  let (negative, whole, fraction) := number text
  (if negative then -1 else 1) * digitsValue (whole ++ fraction) / 10 ^ fraction.length

/-- A number is read from digits. -/
theorem number_digits (text : Bytes) :
    ((number text).2.1 ++ (number text).2.2).all Char.isDigit = true := by
  have htake (text : Bytes) : (text.takeWhile Char.isDigit).all Char.isDigit = true :=
    List.all_takeWhile
  unfold number
  dsimp only
  rw [List.all_append, htake, Bool.true_and]
  split
  · exact htake _
  · rfl

/-- Numbers are compared by their values, however many digits they have behind the point. -/
theorem compareNumbers_eq (a b : Bytes) : compareNumbers a b = compare (value a) (value b) := by
  -- with as many digits behind the point as the longer number has, both are whole numbers: their values times a
  -- power of ten
  have hscale {places : Nat} (negative : Bool) {whole fraction : Bytes}
      (hdigits : (whole ++ fraction).all Char.isDigit = true) (hplaces : fraction.length ≤ places) :
      (((if negative then
            -(((Bytes.nat? (whole ++ fraction ++ List.replicate (places - fraction.length) '0')).getD 0 : Nat)
              : Int)
          else ((Bytes.nat? (whole ++ fraction ++ List.replicate (places - fraction.length) '0')).getD 0
            : Nat)) : Int) : ℚ)
        = (if negative then -1 else 1) * digitsValue (whole ++ fraction) / 10 ^ fraction.length
          * 10 ^ places := by
    have hzeros : (whole ++ fraction ++ List.replicate (places - fraction.length) '0').all Char.isDigit
        = true := by
      rw [List.all_append, hdigits, Bool.true_and]
      simp
    have hpower : (10 : ℚ) ^ places = 10 ^ (places - fraction.length) * 10 ^ fraction.length := by
      rw [← pow_add, Nat.sub_add_cancel hplaces]
    rw [nat?_getD hzeros, digitsValue_append_zeros, hpower]
    cases negative <;> field_simp <;> push_cast <;> ring
  -- and this changes nothing about which one is less
  have hcompare {β γ : Type} [LinearOrder β] [LinearOrder γ] {f : β → γ} (hf : StrictMono f) (x y : β) :
      compare x y = compare (f x) (f y) := by
    rw [← cmp_eq_compare, ← cmp_eq_compare, hf.cmp_map_eq]
  have ha := number_digits a
  have hb := number_digits b
  unfold compareNumbers value
  generalize number a = na at ha ⊢
  generalize number b = nb at hb ⊢
  obtain ⟨aNegative, aWhole, aFraction⟩ := na
  obtain ⟨bNegative, bWhole, bFraction⟩ := nb
  dsimp only at ha hb ⊢
  have hpositive : (0 : ℚ) < 10 ^ max aFraction.length bFraction.length := by positivity
  have hmono : StrictMono fun x : ℚ => x * 10 ^ max aFraction.length bFraction.length :=
    fun x y hxy => mul_lt_mul_of_pos_right hxy hpositive
  rw [hcompare (Int.cast_strictMono (R := ℚ)), hscale aNegative ha (le_max_left _ _),
    hscale bNegative hb (le_max_right _ _)]
  exact (hcompare hmono _ _).symm

/-- The comparison of numbers is an order. -/
theorem transCmp_compareNumbers : TransCmp compareNumbers := by
  have heq : compareNumbers = fun a b => compare (value a) (value b) := by
    funext a b
    exact compareNumbers_eq a b
  rw [heq]
  exact transCmp_on value

/-- What is compared of a text byte by byte. -/
def kept (r : SortRule) (text : Bytes) : Bytes :=
  let text := if r.dictionary then text.filter fun c => c.isAlphanum || Bytes.isBlank c else text
  let text := if r.visibleOnly then text.filter fun c => ' ' ≤ c && c ≤ '~' else text
  if r.folded then text.map Char.toUpper else text

/-- The comparison of a rule is an order, unless it compares versions. -/
theorem transCmp_order {r : SortRule} (h : r.version = false) : TransCmp r.order := by
  have hbytes := transCmp_compareBytes
  have hnumbers := transCmp_compareNumbers
  let found (a b : Bytes) : Ordering :=
    if r.numeric then compareNumbers a b else compareBytes (r.kept a) (r.kept b)
  have hfound : TransCmp found := by
    cases hnumeric : r.numeric with
    | true =>
      have heq : found = compareNumbers := by
        funext a b
        exact if_pos hnumeric
      rwa [heq]
    | false =>
      have heq : found = fun a b => compareBytes (r.kept a) (r.kept b) := by
        funext a b
        exact if_neg (by rw [hnumeric]; exact Bool.false_ne_true)
      rw [heq]
      exact transCmp_on r.kept
  have horder : r.order = fun a b => if r.reversed then (found a b).swap else found a b := by
    funext a b
    unfold order
    rw [h]
    rfl
  rw [horder]
  cases r.reversed with
  | true => exact transCmp_swap
  | false => exact hfound

end SortRule

/-! ## Plans -/

namespace SortPlan

variable {p : SortPlan} {lines : List Bytes}

/-- The keys are compared one after the other. Induction on the keys, behind a comparison that has been
made. -/
theorem transCmp_orderByKeys (h : ∀ k ∈ p.keys, k.rule.version = false) : TransCmp p.orderByKeys := by
  have hfold (keys : List SortKey) (cmp : Bytes → Bytes → Ordering) (hcmp : TransCmp cmp)
      (h : ∀ k ∈ keys, k.rule.version = false) : TransCmp fun a b =>
        keys.foldl (fun found k =>
          found.then (k.rule.order (k.of p.separator? a) (k.of p.separator? b))) (cmp a b) := by
    induction keys generalizing cmp with
    | nil => exact hcmp
    | cons k keys ih =>
      obtain ⟨hk, hkeys⟩ := List.forall_mem_cons.mp h
      have hrule := SortRule.transCmp_order hk
      have hkey : TransCmp fun a b => k.rule.order (k.of p.separator? a) (k.of p.separator? b) :=
        transCmp_on (k.of p.separator?)
      exact ih _ transCmp_then hkeys
  -- before the first key, no line is before another one
  have hequal : TransCmp fun _ _ : Bytes => Ordering.eq :=
    { eq_swap := rfl, isLE_trans := fun _ _ => rfl }
  exact hfold p.keys _ hequal h

/-- **Lines are ordered.** The comparison of a plan without versions is an order. -/
theorem transCmp_order (h : ∀ k ∈ p.keys, k.rule.version = false) : TransCmp p.order := by
  have hkeys := transCmp_orderByKeys h
  have hbytes := SortRule.transCmp_compareBytes
  have horder : p.order = fun a b => (p.orderByKeys a b).then
      (if p.stable || p.unique then .eq
      else if p.reversed then (SortRule.compareBytes a b).swap else SortRule.compareBytes a b) := by
    funext a b
    unfold order
    cases p.orderByKeys a b <;> rfl
  have hlast : TransCmp fun a b => if p.stable || p.unique then .eq
      else if p.reversed then (SortRule.compareBytes a b).swap else SortRule.compareBytes a b := by
    cases p.stable || p.unique with
    | true => exact { eq_swap := rfl, isLE_trans := fun _ _ => rfl }
    | false =>
      cases p.reversed with
      | true => exact transCmp_swap
      | false => exact hbytes
  rw [horder]
  exact transCmp_then

/-! ## Sorting -/

theorem mergeSort_perm (p : SortPlan) (lines : List Bytes) :
    (lines.mergeSort fun a b => p.order a b != .gt).Perm lines :=
  List.mergeSort_perm lines _

/-- Nothing is lost and nothing is added, unless repetitions are left out. -/
theorem sort_perm (h : p.unique = false) : (p.sort lines).Perm lines := by
  unfold sort
  rw [h]
  exact p.mergeSort_perm lines

theorem pairwise_mergeSort (lines : List Bytes) (h : TransCmp p.order) :
    (lines.mergeSort fun a b => p.order a b != .gt).Pairwise fun a b => (p.order a b).isLE = true := by
  have hle (a b : Bytes) : (p.order a b != .gt) = (p.order a b).isLE := by
    cases p.order a b <;> rfl
  simp only [hle]
  refine List.pairwise_mergeSort (fun _ _ _ => TransCmp.isLE_trans) (fun a b => ?_) lines
  rw [@OrientedCmp.eq_swap _ p.order _ b]
  cases p.order a b <;> rfl

/-! ### Repetitions -/

/-- The lines that are left stand in the order in which they stood. -/
theorem withoutRepeats_sublist (p : SortPlan) (lines : List Bytes) :
    (p.withoutRepeats lines).Sublist lines := by
  fun_induction withoutRepeats p lines with
  | case1 a b rest heq ih => exact ih.trans ((List.sublist_cons_self b rest).cons_cons a)
  | case2 a b rest hne ih => exact ih.cons_cons a
  | case3 short => exact .refl short

/-- A line that is left out has the keys of one that is left. -/
theorem exists_mem_withoutRepeats (h : TransCmp p.orderByKeys) :
    ∀ a ∈ lines, ∃ b ∈ p.withoutRepeats lines, p.orderByKeys b a = .eq := by
  fun_induction withoutRepeats p lines with
  | case1 a b rest heq ih =>
    rw [List.forall_mem_cons] at ih
    obtain ⟨c, hc, hca⟩ := ih.1
    exact List.forall_mem_cons.mpr ⟨ih.1, List.forall_mem_cons.mpr
      ⟨⟨c, hc, TransCmp.eq_trans hca heq⟩, ih.2⟩⟩
  | case2 a b rest hne ih =>
    refine List.forall_mem_cons.mpr ⟨⟨a, List.mem_cons_self, Std.ReflCmp.compare_self⟩, fun c hc => ?_⟩
    obtain ⟨d, hd, hdc⟩ := ih c hc
    exact ⟨d, List.mem_cons_of_mem a hd, hdc⟩
  | case3 short => exact fun a ha => ⟨a, ha, Std.ReflCmp.compare_self⟩

/-- Of lines in order, no two that are left have the same keys. -/
theorem pairwise_withoutRepeats (h : TransCmp p.orderByKeys)
    (hlines : lines.Pairwise fun a b => (p.orderByKeys a b).isLE = true) :
    (p.withoutRepeats lines).Pairwise fun a b => p.orderByKeys a b = .lt := by
  fun_induction withoutRepeats p lines with
  | case1 a b rest heq ih =>
    exact ih (hlines.sublist ((List.sublist_cons_self b rest).cons_cons a))
  | case2 a b rest hne ih =>
    obtain ⟨ha, hrest⟩ := List.pairwise_cons.mp hlines
    have hlt : p.orderByKeys a b = .lt := by
      have hle := ha b List.mem_cons_self
      cases hab : p.orderByKeys a b with
      | lt => rfl
      | eq => exact absurd hab hne
      | gt => rw [hab] at hle; cases hle
    refine List.pairwise_cons.mpr ⟨fun c hc => ?_, ih hrest⟩
    -- what is left stands behind the next line, or is that line
    obtain rfl | hc := List.mem_cons.mp ((p.withoutRepeats_sublist (b :: rest)).subset hc)
    · exact hlt
    · exact TransCmp.lt_of_lt_of_isLE hlt (List.rel_of_pairwise_cons hrest hc)
  | case3 short hshort =>
    match short, hshort with
    | [], _ => exact .nil
    | [a], _ => exact List.pairwise_singleton _ a
    | a :: b :: rest, hshort => exact (hshort a b rest rfl).elim

/-- **Sorted lines are in order.** -/
theorem pairwise_sort (lines : List Bytes) (h : ∀ k ∈ p.keys, k.rule.version = false) :
    (p.sort lines).Pairwise fun a b => (p.order a b).isLE = true := by
  have hsorted := pairwise_mergeSort lines (transCmp_order h)
  unfold sort
  dsimp only
  split
  · exact hsorted.sublist (p.withoutRepeats_sublist _)
  · exact hsorted

/-- Without repetitions, lines with the same keys are equal. -/
theorem order_of_unique (h : p.unique = true) : p.order = p.orderByKeys := by
  funext a b
  unfold order
  rw [h, Bool.or_true]
  cases p.orderByKeys a b <;> rfl

/-- **Repetitions are left out.** No two lines have the same keys, each line that is left was given, and each
line that was given has the keys of one that is left. -/
theorem sort_unique (lines : List Bytes) (h : ∀ k ∈ p.keys, k.rule.version = false) (hunique : p.unique = true) :
    (p.sort lines).Pairwise (fun a b => p.order a b = .lt)
      ∧ (∀ a ∈ p.sort lines, a ∈ lines)
      ∧ ∀ a ∈ lines, ∃ b ∈ p.sort lines, p.order b a = .eq := by
  have hperm := p.mergeSort_perm lines
  have hsorted := pairwise_mergeSort lines (transCmp_order h)
  -- the keys alone decide, so lines that are left differ in them
  rw [order_of_unique hunique] at hperm hsorted ⊢
  unfold sort
  rw [hunique, if_pos rfl, order_of_unique hunique]
  refine ⟨pairwise_withoutRepeats (transCmp_orderByKeys h) hsorted, fun a ha => ?_, fun a ha => ?_⟩
  · exact hperm.mem_iff.mp ((p.withoutRepeats_sublist _).subset ha)
  · exact exists_mem_withoutRepeats (transCmp_orderByKeys h) a (hperm.mem_iff.mpr ha)

/-- The check of an order finds nothing if no line stands before its place. -/
theorem disorder?_eq_none_iff (number : Nat) :
    p.disorder? number lines = none
      ↔ lines.IsChain fun a b => p.order a b ≠ .gt ∧ (p.unique = true → p.order a b ≠ .eq) := by
  induction lines generalizing number with
  | nil => simp [disorder?]
  | cons a lines ih =>
    cases lines with
    | nil => simp [disorder?]
    | cons b lines =>
      rw [List.isChain_cons_cons, ← ih (number + 1), disorder?]
      cases p.order a b <;> cases p.unique <;> simp

/-- What was sorted passes the check. -/
theorem disorder?_sort (h : ∀ k ∈ p.keys, k.rule.version = false) (number : Nat) :
    p.disorder? number (p.sort lines) = none := by
  have hchain := (pairwise_sort lines h).isChain
  rw [disorder?_eq_none_iff]
  cases hunique : p.unique with
  | false =>
    refine hchain.imp fun a b hab => ⟨fun hgt => ?_, nofun⟩
    rw [hgt] at hab
    cases hab
  | true =>
    refine (sort_unique lines h hunique).1.isChain.imp fun a b hab => ?_
    rw [hab]
    exact ⟨nofun, fun _ => nofun⟩

end SortPlan

/-! ## Runs of lines -/

/-- **Lines that are alike.** Each run has one line and the number of those that are like it. Written as often
as this, the lines are those that were given, up to what makes them alike. -/
theorem flatMap_runs {α : Type} [DecidableEq α] (key : Bytes → α) (lines : List Bytes) :
    ((runs (fun a b => key a == key b) lines).flatMap fun run => List.replicate run.2 (key run.1))
      = lines.map key := by
  induction lines with
  | nil => rfl
  | cons line rest ih =>
    rw [runs, List.map_cons, ← ih]
    cases runs (fun a b => key a == key b) rest with
    | nil => rfl
    | cons run more =>
      obtain ⟨next, n⟩ := run
      dsimp only
      split
      · -- the line joins the run that follows it, because their keys are the same
        next halike =>
        rw [List.flatMap_cons, List.flatMap_cons, List.replicate_succ, eq_of_beq halike]
        rfl
      · rfl

/-- Lines that are alike and stand together are in one run. -/
theorem isChain_runs {α : Type} [DecidableEq α] (key : Bytes → α) (lines : List Bytes) :
    (runs (fun a b => key a == key b) lines).IsChain fun r s => key r.1 ≠ key s.1 := by
  induction lines with
  | nil => exact .nil
  | cons line rest ih =>
    unfold runs
    cases hruns : runs (fun a b => key a == key b) rest with
    | nil => exact .singleton _
    | cons run more =>
      rw [hruns] at ih
      obtain ⟨next, n⟩ := run
      dsimp only
      split
      · next halike =>
        -- the run has the same key as before, whichever of the two lines stands for it
        have hkey : key line = key next := eq_of_beq halike
        cases more with
        | nil => exact .singleton _
        | cons run' more =>
          rw [List.isChain_cons_cons] at ih ⊢
          exact ⟨hkey ▸ ih.1, ih.2⟩
      · next hother => exact List.isChain_cons_cons.mpr ⟨fun h => hother (beq_of_eq h), ih⟩

end TemplateCoverage.Utility
