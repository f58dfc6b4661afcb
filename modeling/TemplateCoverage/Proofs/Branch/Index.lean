import TemplateCoverage.Branch.Index
import Mathlib.Data.List.Nodup
import Std.Data.DTreeMap.Internal.WF.Lemmas
import Std.Data.ExtTreeMap.Lemmas

/-!
# What an index of branches holds

Branches are added to an index one by one, each under its own ID. This module says what an index holds
after that, so that nobody else opens its map:

* **`get?_extend`**: the branch under an ID is the last one that was added with it.
* **`Keyed`**: every branch stands under its own ID, so that the IDs of the branches are the IDs of the
  index, in the same order (`map_id_branches`).
* **`perm_branches_extend`**: branches with distinct IDs are all there, each once.
-/

namespace TemplateCoverage.BranchIndex

/-- The values of a map stand in the order of its entries. -/
theorem values_eq_map_snd {α β : Type} {cmp : α → α → Ordering} [Std.TransCmp cmp]
    (m : Std.ExtTreeMap α β cmp) : m.values = m.toList.map Prod.snd := by
  -- both are folds over the tree that the map is a class of
  obtain ⟨⟨q⟩⟩ := m
  induction q using Quotient.ind with
  | _ tree =>
    show tree.inner.values = (Std.DTreeMap.Internal.Impl.Const.toList tree.inner).map Prod.snd
    rw [Std.DTreeMap.Internal.Impl.values_eq_map_snd,
      Std.DTreeMap.Internal.Impl.Const.toList_eq_toListModel_map, List.map_map]
    rfl

variable {index : BranchIndex} {id : BranchId}

/-! ## Looking up -/

theorem contains_eq_isSome (index : BranchIndex) (id : BranchId) :
    index.contains id = (index.get? id).isSome :=
  Std.ExtTreeMap.contains_eq_isSome_getElem?

/-- An index has the IDs of its branches. -/
theorem contains_iff_exists : index.contains id = true ↔ ∃ b, index.get? id = some b := by
  rw [contains_eq_isSome, Option.isSome_iff_exists]

theorem get?_empty (id : BranchId) : empty.get? id = none :=
  Std.ExtTreeMap.getElem?_empty

/-- A branch that is added replaces the one with its ID. -/
theorem get?_insert (index : BranchIndex) (b : Branch) (id : BranchId) :
    (index.insert b).get? id = if b.id = id then some b else index.get? id := by
  unfold get? insert
  rw [Std.ExtTreeMap.getElem?_insert]
  exact if_congr Std.LawfulEqCmp.compare_eq_iff_eq rfl rfl

@[simp] theorem extend_nil (index : BranchIndex) : index.extend [] = index := rfl

@[simp] theorem extend_cons (index : BranchIndex) (b : Branch) (bs : List Branch) :
    index.extend (b :: bs) = (index.insert b).extend bs := rfl

theorem extend_append (index : BranchIndex) (bs cs : List Branch) :
    index.extend (bs ++ cs) = (index.extend bs).extend cs :=
  List.foldl_append

/-- The branch under an ID is the last one that was added with it, or else the one that was there. -/
theorem get?_extend (index : BranchIndex) (bs : List Branch) (id : BranchId) :
    (index.extend bs).get? id = (bs.reverse.find? (·.id = id)).or (index.get? id) := by
  induction bs generalizing index with
  | nil => rfl
  | cons b bs ih =>
    rw [extend_cons, ih, get?_insert, List.reverse_cons, List.find?_append, Option.or_assoc]
    -- where no later branch decides, `b` does, or else the index
    by_cases hb : b.id = id
    · simp [hb]
    · simp [hb]

/-- An index that grows keeps its IDs and gains those of the branches. -/
theorem contains_extend {bs : List Branch} :
    (index.extend bs).contains id = true ↔ index.contains id = true ∨ ∃ b ∈ bs, b.id = id := by
  induction bs generalizing index with
  | nil => simp
  | cons b bs ih =>
    rw [extend_cons, ih, contains_eq_isSome (index.insert b), get?_insert]
    by_cases hb : b.id = id
    · simp [hb]
    · rw [if_neg hb, ← contains_eq_isSome]
      simp [hb]

/-! ## Branches under their own IDs -/

/-- Every branch stands under its own ID. -/
def Keyed (index : BranchIndex) : Prop :=
  ∀ id b, index.get? id = some b → b.id = id

/-- In an empty index nothing is out of place. -/
theorem keyed_empty : empty.Keyed := by
  intro id b h
  rw [get?_empty] at h
  cases h

/-- A branch is put where its ID says, unless there is one already. -/
theorem Keyed.insert (h : index.Keyed) (b : Branch) : (index.insert b).Keyed := by
  intro id b' hb'
  rw [get?_insert] at hb'
  split at hb'
  · next heq =>
    cases hb'
    exact heq
  · exact h id b' hb'

/-- So are all branches of a list. -/
theorem Keyed.extend (h : index.Keyed) (bs : List Branch) : (index.extend bs).Keyed := by
  induction bs generalizing index with
  | nil => exact h
  | cons b bs ih => exact ih (h.insert b)

/-! ## The branches and their IDs -/

theorem mem_ids : id ∈ index.ids ↔ index.contains id = true :=
  Std.ExtTreeMap.mem_keys.trans Std.ExtTreeMap.mem_iff_contains

/-- No ID is listed twice. -/
theorem nodup_ids (index : BranchIndex) : index.ids.Nodup :=
  Std.ExtTreeMap.nodup_keys

theorem length_ids (index : BranchIndex) : index.ids.length = index.size :=
  Std.ExtTreeMap.length_keys

/-- There are as many branches as IDs. -/
theorem length_branches (index : BranchIndex) : index.branches.length = index.size := by
  unfold branches
  rw [values_eq_map_snd, List.length_map]
  exact Std.ExtTreeMap.length_toList

/-- The branches are those that can be found by some ID. -/
theorem mem_branches {b : Branch} : b ∈ index.branches ↔ ∃ id, index.get? id = some b := by
  unfold branches get?
  rw [values_eq_map_snd, List.mem_map]
  constructor
  · rintro ⟨⟨id, b⟩, hmem, rfl⟩
    exact ⟨id, Std.ExtTreeMap.mem_toList_iff_getElem?_eq_some.mp hmem⟩
  · rintro ⟨id, hb⟩
    exact ⟨(id, b), Std.ExtTreeMap.mem_toList_iff_getElem?_eq_some.mpr hb, rfl⟩

/-- The IDs of the branches are those of the index, in the same order. -/
theorem Keyed.map_id_branches (h : index.Keyed) : index.branches.map (·.id) = index.ids := by
  unfold branches ids
  rw [values_eq_map_snd, ← Std.ExtTreeMap.map_fst_toList_eq_keys, List.map_map]
  apply List.map_congr_left
  rintro ⟨id, b⟩ hmem
  exact h id b (Std.ExtTreeMap.mem_toList_iff_getElem?_eq_some.mp hmem)

/-- Branches with different IDs are different. -/
theorem Keyed.nodup_branches (h : index.Keyed) : index.branches.Nodup := by
  refine List.Nodup.of_map (·.id) ?_
  rw [h.map_id_branches]
  exact index.nodup_ids

/-- Branches with distinct IDs are all there, each once. -/
theorem perm_branches_extend {bs : List Branch} (h : (bs.map (·.id)).Nodup) :
    (empty.extend bs).branches.Perm bs := by
  have hkeyed := keyed_empty.extend bs
  rw [List.perm_ext_iff_of_nodup hkeyed.nodup_branches (List.Nodup.of_map _ h)]
  intro b
  rw [mem_branches]
  constructor
  · rintro ⟨id, hb⟩
    rw [get?_extend, get?_empty, Option.or_none] at hb
    exact List.mem_reverse.mp (List.mem_of_find?_eq_some hb)
  · intro hb
    refine ⟨b.id, ?_⟩
    rw [get?_extend, get?_empty, Option.or_none]
    -- some branch with the ID is found, and `b` is the only one
    have hfound : (bs.reverse.find? (·.id = b.id)).isSome = true := by
      rw [List.find?_isSome]
      exact ⟨b, List.mem_reverse.mpr hb, by simp⟩
    obtain ⟨b', hb'⟩ := Option.isSome_iff_exists.mp hfound
    have hid : b'.id = b.id := by simpa using List.find?_some hb'
    have hmem : b' ∈ bs := List.mem_reverse.mp (List.mem_of_find?_eq_some hb')
    rw [hb', List.inj_on_of_nodup_map h hmem hb hid]

/-- Under an ID, an index of branches with distinct IDs has the branch with that ID. -/
theorem get?_extend_empty {bs : List Branch} (h : (bs.map (·.id)).Nodup) {id : BranchId}
    {b : Branch} : (empty.extend bs).get? id = some b ↔ b ∈ bs ∧ b.id = id := by
  have hkeyed := keyed_empty.extend bs
  rw [← (perm_branches_extend h).mem_iff, mem_branches]
  constructor
  · exact fun hb => ⟨⟨id, hb⟩, hkeyed id b hb⟩
  · rintro ⟨⟨id', hb⟩, rfl⟩
    rwa [hkeyed id' b hb]

/-! ## Leaving out branches -/

/-- The index with the branches that satisfy a condition. -/
def restrict (p : Branch → Bool) (index : BranchIndex) : BranchIndex :=
  ⟨index.entries.filter fun _ b => p b⟩

/-- What is left out of an index is not found any more, and nothing else is changed. -/
theorem get?_restrict (p : Branch → Bool) (index : BranchIndex) (id : BranchId) :
    (index.restrict p).get? id = (index.get? id).filter p :=
  Std.ExtTreeMap.getElem?_filter'

theorem ext_get? {index index' : BranchIndex} (h : ∀ id, index.get? id = index'.get? id) :
    index = index' :=
  congrArg BranchIndex.mk (Std.ExtTreeMap.ext_getElem? h)

/-- Branches with distinct IDs can be left out before they are added. -/
theorem restrict_extend {bs : List Branch} (h : (bs.map (·.id)).Nodup) (p : Branch → Bool) :
    (empty.extend bs).restrict p = empty.extend (bs.filter p) := by
  have hfilter : ((bs.filter p).map (·.id)).Nodup := h.sublist (List.filter_sublist.map _)
  refine ext_get? fun id => Option.ext fun b => ?_
  rw [get?_restrict, Option.filter_eq_some_iff, get?_extend_empty h, get?_extend_empty hfilter,
    List.mem_filter]
  exact and_right_comm

end TemplateCoverage.BranchIndex
