import TemplateCoverage.Proofs.Branch.Located

/-!
# What an allocator hands out

An allocator goes through the arms of a file and gives each a branch, unless its ID was handed out
before.

* **`mem_issued_allocate`**: behind a file, the IDs of all its arms are taken, whether they got a branch
  or not.
* **`allocate_of_fresh`**: where the IDs of the arms are new and distinct, every arm gets its branch.
* **`assign_congr`**: whether other IDs are taken does not matter.
* **`nodup_allocate`**: the IDs that are handed out are new and distinct.
* **`ofArm_mem_allocate`**: among arms with distinct IDs, those with a new one get their branches.
-/

namespace TemplateCoverage.Allocator

variable {a : Allocator} {file : String} {kind : FileKind} {arm : Arm} {rest : List Arm}

@[simp] theorem allocate_nil : a.allocate file kind [] = ([], a) := rfl

/-- An arm whose ID is taken is left out. -/
theorem allocate_cons_of_mem (h : Branch.pointId file kind arm ∈ a.issued) :
    a.allocate file kind (arm :: rest) = a.allocate file kind rest := by
  unfold allocate
  rw [assign_cons_of_mem h]
  rfl

/-- An arm with a new ID gets the first branch. -/
theorem allocate_cons_of_not_mem (h : Branch.pointId file kind arm ∉ a.issued) :
    a.allocate file kind (arm :: rest)
      = let taken := a.issued.insert (Branch.pointId file kind arm)
        let later := Allocator.allocate ⟨taken⟩ file kind rest
        (Branch.ofArm file kind arm :: later.1, later.2) := by
  unfold allocate
  rw [assign_cons_of_not_mem h]
  rfl

/-- Behind a file, the IDs of its arms are taken, and the ones that were taken before. Induction on the
arms, for every allocator. -/
theorem mem_issued_allocate {arms : List Arm} {id : BranchId} :
    id ∈ (a.allocate file kind arms).2.issued
      ↔ id ∈ a.issued ∨ id ∈ arms.map (Branch.pointId file kind) := by
  induction arms generalizing a with
  | nil => simp
  | cons arm rest ih =>
    rw [List.map_cons, List.mem_cons]
    -- an ID that was issued before does not become a new one, but it is among the issued ones all the same
    by_cases h : Branch.pointId file kind arm ∈ a.issued
    · rw [allocate_cons_of_mem h, ih]
      constructor
      · rintro (hissued | hrest)
        · exact .inl hissued
        · exact .inr (.inr hrest)
      · rintro (hissued | rfl | hrest)
        · exact .inl hissued
        · exact .inl h
        · exact .inr hrest
    · rw [allocate_cons_of_not_mem h]
      dsimp only
      rw [ih, Std.ExtTreeSet.mem_insert, Std.LawfulEqCmp.compare_eq_iff_eq, or_assoc, eq_comm]
      exact or_left_comm

/-- Every branch is that of its arm. -/
theorem eq_ofArm_of_mem_allocate {arms : List Arm} {b : Branch}
    (hb : b ∈ (a.allocate file kind arms).1) : b = Branch.ofArm file kind b.toArm := by
  induction arms generalizing a with
  | nil => cases hb
  | cons arm rest ih =>
    -- a branch that is handed out was made of its own arm
    by_cases h : Branch.pointId file kind arm ∈ a.issued
    · rw [allocate_cons_of_mem h] at hb
      exact ih hb
    · rw [allocate_cons_of_not_mem h] at hb
      rcases List.mem_cons.mp hb with rfl | hb
      · rfl
      · exact ih hb

/-- Where the IDs of the arms are new and distinct, no arm is left out. -/
theorem allocate_of_fresh {arms : List Arm}
    (hnodup : (arms.map (Branch.pointId file kind)).Nodup)
    (hfresh : ∀ id ∈ arms.map (Branch.pointId file kind), id ∉ a.issued) :
    (a.allocate file kind arms).1 = arms.map (Branch.ofArm file kind) := by
  induction arms generalizing a with
  | nil => rfl
  | cons arm rest ih =>
    rw [List.map_cons] at hnodup hfresh
    obtain ⟨hnew, hnodup⟩ := List.nodup_cons.mp hnodup
    rw [allocate_cons_of_not_mem (hfresh _ (List.mem_cons_self ..)), List.map_cons]
    refine congrArg _ (ih hnodup fun id hid => ?_)
    -- the ID of the first arm is taken from here on, and no other one
    rw [Std.ExtTreeSet.mem_insert, Std.LawfulEqCmp.compare_eq_iff_eq, not_or]
    exact ⟨fun heq => hnew (heq ▸ hid), hfresh id (List.mem_cons_of_mem _ hid)⟩

/-- What becomes of the arms depends only on which of their own IDs are taken. Induction on the arms, for
all pairs of allocators. -/
theorem assign_congr {a a' : Allocator} {arms : List Arm}
    (h : ∀ id ∈ arms.map (Branch.pointId file kind), id ∈ a.issued ↔ id ∈ a'.issued) :
    (a.assign file kind arms).1 = (a'.assign file kind arms).1 := by
  induction arms generalizing a a' with
  | nil => rfl
  | cons arm rest ih =>
    rw [List.map_cons] at h
    obtain ⟨hfirst, hrest⟩ := List.forall_mem_cons.mp h
    by_cases htaken : Branch.pointId file kind arm ∈ a.issued
    · rw [assign_cons_of_mem htaken, assign_cons_of_mem (hfirst.mp htaken), ih hrest]
    · rw [assign_cons_of_not_mem htaken, assign_cons_of_not_mem fun hmem => htaken (hfirst.mpr hmem)]
      -- both issue the same ID here, so they still agree on the rest
      refine congrArg (Outcome.branch (Branch.ofArm file kind arm) :: ·) (ih fun id hid => ?_)
      rw [Std.ExtTreeSet.mem_insert, Std.ExtTreeSet.mem_insert, hrest id hid]

/-- The IDs of the branches are new and distinct. Induction on the arms, for every allocator. -/
theorem nodup_allocate {arms : List Arm} :
    ((a.allocate file kind arms).1.map (·.id)).Nodup
      ∧ ∀ b ∈ (a.allocate file kind arms).1, b.id ∉ a.issued := by
  induction arms generalizing a with
  | nil => exact ⟨.nil, fun b hb => nomatch hb⟩
  | cons arm rest ih =>
    by_cases htaken : Branch.pointId file kind arm ∈ a.issued
    · rw [allocate_cons_of_mem htaken]
      exact ih
    · rw [allocate_cons_of_not_mem htaken]
      dsimp only
      obtain ⟨hnodup, hnew⟩ := ih (a := ⟨a.issued.insert (Branch.pointId file kind arm)⟩)
      simp only [Std.ExtTreeSet.mem_insert, Std.LawfulEqCmp.compare_eq_iff_eq, not_or] at hnew
      constructor
      · -- the first ID is taken from here on
        refine List.nodup_cons.mpr ⟨fun hmem => ?_, hnodup⟩
        obtain ⟨b, hb, hid⟩ := List.mem_map.mp hmem
        exact (hnew b hb).1 hid.symm
      · exact List.forall_mem_cons.mpr ⟨htaken, fun b hb => (hnew b hb).2⟩

/-- Among arms with distinct IDs, one gets its branch just if its ID was not taken before. Induction on
the arms, for every allocator. -/
theorem ofArm_mem_allocate {arms : List Arm}
    (hnodup : (arms.map (Branch.pointId file kind)).Nodup) (hmem : arm ∈ arms) :
    Branch.ofArm file kind arm ∈ (a.allocate file kind arms).1
      ↔ Branch.pointId file kind arm ∉ a.issued := by
  refine ⟨fun hb => nodup_allocate.2 _ hb, fun hnew => ?_⟩
  induction arms generalizing a with
  | nil => cases hmem
  | cons first rest ih =>
    obtain ⟨hfirst, hnodup⟩ := List.nodup_cons.mp hnodup
    rcases List.mem_cons.mp hmem with rfl | hmem
    · rw [allocate_cons_of_not_mem hnew]
      exact List.mem_cons_self
    · by_cases htaken : Branch.pointId file kind first ∈ a.issued
      · rw [allocate_cons_of_mem htaken]
        exact ih hnodup hmem hnew
      · rw [allocate_cons_of_not_mem htaken]
        refine List.mem_cons_of_mem _ (ih hnodup hmem ?_)
        -- the ID of the first arm is another one
        rw [Std.ExtTreeSet.mem_insert, Std.LawfulEqCmp.compare_eq_iff_eq, not_or]
        exact ⟨fun heq => hfirst (heq ▸ List.mem_map_of_mem hmem), hnew⟩

end TemplateCoverage.Allocator
