import Mathlib.Data.List.ReduceOption
import TemplateCoverage.Proofs.Branch.Allocation
import TemplateCoverage.Proofs.Branch.Index
import TemplateCoverage.Proofs.Session.Record

/-!
# What an allocator hands out over its calls

An allocator serves one call after the other. What it remembers, what the calls got back, and an index to
which the branches are added are three accounts of the same IDs, and they agree after every history.

* **`HandsOut`**: what handing out branches does to an allocator. It is composed by `HandsOut.trans`, so
  that it holds of a call by induction on its arms (`handsOut_allocate`), and of a history by induction on
  its calls (`handsOut_serve`).
* **`allocate_eq_shares`**: which arms of a call get a branch.
* **`history_accounts`**: all together.
-/

namespace TemplateCoverage

namespace Allocator

variable {a a' a'' : Allocator} {file : String} {kind : FileKind}

/-! ## Handing out branches -/

/-- The allocator `a` has handed out the branches `bs`, and has become `a'`. -/
structure HandsOut (a : Allocator) (bs : List Branch) (a' : Allocator) : Prop where
  distinct : (bs.map (·.id)).Nodup
  fresh : ∀ b ∈ bs, b.id ∉ a.issued
  issued : ∀ id, id ∈ a'.issued ↔ id ∈ a.issued ∨ ∃ b ∈ bs, b.id = id
  allocated : a'.allocated = a.allocated + bs.length

theorem HandsOut.nothing (a : Allocator) : a.HandsOut [] a :=
  ⟨.nil, fun _ hb => (nomatch hb), fun id => by simp, rfl⟩

/-- A branch with a new ID is handed out. -/
theorem HandsOut.single {b : Branch} (h : b.id ∉ a.issued) :
    a.HandsOut [b] ⟨a.issued.insert b.id⟩ := by
  refine ⟨List.nodup_singleton _, fun b' hb' => ?_, fun id => ?_, ?_⟩
  · cases List.mem_singleton.mp hb'
    exact h
  · rw [IdSet.mem_insert, or_comm, eq_comm]
    simp
  · exact IdSet.size_insert_of_not_mem h

/-- What is handed out later has other IDs than what was handed out before. -/
theorem HandsOut.trans {bs cs : List Branch} (h : a.HandsOut bs a') (h' : a'.HandsOut cs a'') :
    a.HandsOut (bs ++ cs) a'' := by
  -- what the second call hands out was issued neither before nor by the first call
  have hlater : ∀ c ∈ cs, c.id ∉ a.issued ∧ ¬∃ b ∈ bs, b.id = c.id := fun c hc =>
    not_or.mp (mt (h.issued c.id).mpr (h'.fresh c hc))
  refine ⟨?_, fun b hb => ?_, fun id => ?_, ?_⟩
  · rw [List.map_append]
    refine h.distinct.append h'.distinct fun id hid hid' => ?_
    obtain ⟨b, hb, rfl⟩ := List.mem_map.mp hid
    obtain ⟨c, hc, heq⟩ := List.mem_map.mp hid'
    exact (hlater c hc).2 ⟨b, hb, heq.symm⟩
  · rcases List.mem_append.mp hb with hb | hb
    · exact h.fresh b hb
    · exact (hlater b hb).1
  · rw [h'.issued, h.issued, or_assoc]
    simp only [List.mem_append, or_and_right, exists_or]
  · rw [h'.allocated, h.allocated, List.length_append, Nat.add_assoc]

/-- A call hands out the branches that it returns. Induction on the arms, for every allocator. -/
theorem handsOut_allocate (a : Allocator) (file : String) (kind : FileKind) (arms : List Arm) :
    a.HandsOut (a.allocate file kind arms).1 (a.allocate file kind arms).2 := by
  induction arms generalizing a with
  | nil => exact .nothing a
  | cons arm rest ih =>
    by_cases h : Branch.pointId file kind arm ∈ a.issued
    · rw [allocate_cons_of_mem h]
      exact ih a
    · rw [allocate_cons_of_not_mem h]
      exact (HandsOut.single (b := Branch.ofArm file kind arm) h).trans (ih _)

/-! ## One call -/

/-- What an arm gets that stands behind the arms `earlier` of its call: a branch with all that the arm has,
unless its ID was handed out before the call, or to one of these. -/
def share (a : Allocator) (file : String) (kind : FileKind) (earlier : List Arm) (arm : Arm) :
    Option Branch :=
  if Branch.pointId file kind arm ∈ a.issued
      ∨ Branch.pointId file kind arm ∈ earlier.map (Branch.pointId file kind) then none
  else some { toArm := arm, id := Branch.pointId file kind arm, file, kind }

/-- Behind an arm whose ID was taken, the others get what they would get without it. -/
theorem share_cons_of_mem {first : Arm} (h : Branch.pointId file kind first ∈ a.issued)
    (earlier : List Arm) (arm : Arm) :
    a.share file kind (first :: earlier) arm = a.share file kind earlier arm := by
  unfold share
  refine if_congr ?_ rfl rfl
  rw [List.map_cons, List.mem_cons, or_left_comm]
  refine or_iff_right_of_imp fun heq => .inl ?_
  rwa [heq]

/-- Behind an arm that got a branch, its ID counts as handed out. -/
theorem share_cons (first : Arm) (earlier : List Arm) (arm : Arm) :
    a.share file kind (first :: earlier) arm
      = Allocator.share ⟨a.issued.insert (Branch.pointId file kind first)⟩ file kind earlier arm := by
  unfold share
  refine if_congr ?_ rfl rfl
  rw [List.map_cons, List.mem_cons, IdSet.mem_insert, or_assoc]
  exact or_left_comm

/-- A call returns the shares of its arms, in order. Induction on the arms, for every allocator. -/
theorem allocate_eq_shares (a : Allocator) (file : String) (kind : FileKind) (arms : List Arm) :
    (a.allocate file kind arms).1
      = (arms.mapIdx fun i arm => a.share file kind (arms.take i) arm).reduceOption := by
  induction arms generalizing a with
  | nil => rfl
  | cons first rest ih =>
    rw [List.mapIdx_cons, List.take_zero]
    simp only [List.take_succ_cons]
    -- induction on the arms: each one gets its share of what those before it have left
    by_cases h : Branch.pointId file kind first ∈ a.issued
    · have hfirst : a.share file kind [] first = none := if_pos (.inl h)
      rw [allocate_cons_of_mem h, ih, hfirst, List.reduceOption_cons_of_none]
      simp only [share_cons_of_mem h]
    · have hfirst : a.share file kind [] first = some (Branch.ofArm file kind first) :=
        if_neg (not_or.mpr ⟨h, List.not_mem_nil⟩)
      rw [allocate_cons_of_not_mem h, hfirst, List.reduceOption_cons_of_some]
      simp only [share_cons]
      exact congrArg _ (ih _)

/-- A call keeps some of its arms, in order, and gives them their IDs and its own file and kind. -/
theorem kept_allocate (a : Allocator) (file : String) (kind : FileKind) (arms : List Arm) :
    ((a.allocate file kind arms).1.map Branch.toArm).Sublist arms
      ∧ ∀ b ∈ (a.allocate file kind arms).1,
        b.id = Branch.pointId file kind b.toArm ∧ b.file = file ∧ b.kind = kind := by
  refine ⟨a.map_toArm_allocate file kind arms, fun b hb => ?_⟩
  rw [eq_ofArm_of_mem_allocate hb]
  exact ⟨rfl, rfl, rfl⟩

/-- Arms whose IDs are taken get nothing, and nothing changes. -/
theorem allocate_of_issued {arms : List Arm}
    (h : ∀ arm ∈ arms, Branch.pointId file kind arm ∈ a.issued) :
    a.allocate file kind arms = ([], a) := by
  induction arms with
  | nil => rfl
  | cons arm rest ih =>
    obtain ⟨harm, hrest⟩ := List.forall_mem_cons.mp h
    rw [allocate_cons_of_mem harm, ih hrest]

/-! ## A history of calls -/

/-- A call of an allocator: the arms of a file. -/
structure Call where
  file : String
  kind : FileKind
  arms : List Arm

/-- What the calls get back, one after the other, and the allocator behind them. -/
def serve (a : Allocator) : List Call → List (List Branch) × Allocator
  | [] => ([], a)
  | c :: rest =>
    let (branches, next) := a.allocate c.file c.kind c.arms
    let (lists, last) := serve next rest
    (branches :: lists, last)

/-- The calls hand out the branches of all lists that they return. Induction on the calls. -/
theorem handsOut_serve (a : Allocator) (calls : List Call) :
    a.HandsOut (a.serve calls).1.flatten (a.serve calls).2 := by
  induction calls generalizing a with
  | nil => exact .nothing a
  | cons c rest ih => exact (a.handsOut_allocate c.file c.kind c.arms).trans (ih _)

/-- Each call is served by the allocator that the calls before it leave behind. Induction on the calls. -/
theorem serve_eq_allocate (a : Allocator) (calls : List Call) :
    (a.serve calls).1
      = calls.mapIdx fun k c => ((a.serve (calls.take k)).2.allocate c.file c.kind c.arms).1 := by
  induction calls generalizing a with
  | nil => rfl
  | cons c rest ih =>
    rw [List.mapIdx_cons]
    exact congrArg _ (ih _)

/-- Each call keeps arms of its own. Induction on the calls. -/
theorem kept_serve (a : Allocator) (calls : List Call) :
    List.Forall₂ (fun c list => (list.map Branch.toArm).Sublist c.arms
      ∧ ∀ b ∈ list, b.id = Branch.pointId c.file c.kind b.toArm ∧ b.file = c.file ∧ b.kind = c.kind)
      calls (a.serve calls).1 := by
  induction calls generalizing a with
  | nil => exact .nil
  | cons c rest ih => exact .cons (a.kept_allocate c.file c.kind c.arms) (ih _)

/-- Behind the calls, the IDs of all their arms are taken. Induction on the calls. -/
theorem mem_issued_serve {calls : List Call} {id : BranchId} :
    id ∈ (a.serve calls).2.issued
      ↔ id ∈ a.issued ∨ ∃ c ∈ calls, id ∈ c.arms.map (Branch.pointId c.file c.kind) := by
  induction calls generalizing a with
  | nil => simp [serve]
  | cons c rest ih =>
    show id ∈ ((a.allocate c.file c.kind c.arms).2.serve rest).2.issued ↔ _
    rw [ih, mem_issued_allocate, or_assoc]
    simp only [List.mem_cons, exists_eq_or_imp]

/-- How the lists of branches that calls get back from a new allocator, and the allocator behind the
calls, answer for the calls. -/
structure Accounts (calls : List Call) (lists : List (List Branch)) (last : Allocator) : Prop where
  /-- No ID is handed out twice. -/
  distinct : (lists.flatten.map (·.id)).Nodup
  issued : ∀ id, id ∈ last.issued ↔ ∃ b ∈ lists.flatten, b.id = id
  allocated : last.allocated = lists.flatten.length
  /-- Each call gets the branches of its arms, in order, without the arms whose ID was handed out in a call
  before it, or stands further left in its own list. -/
  shares : lists = calls.mapIdx fun k c =>
    (c.arms.mapIdx fun i arm =>
      (serve {} (calls.take k)).2.share c.file c.kind (c.arms.take i) arm).reduceOption
  /-- The arms that are kept stay in order, and each branch has all fields of its arm. -/
  kept : List.Forall₂ (fun c list => (list.map Branch.toArm).Sublist c.arms
      ∧ ∀ b ∈ list, b.id = Branch.pointId c.file c.kind b.toArm ∧ b.file = c.file ∧ b.kind = c.kind)
    calls lists
  /-- An index to which all lists are added has as many branches. -/
  size : (lists.foldl BranchIndex.extend .empty).size = last.allocated
  /-- Under each ID, it has the branch that was handed out with it. -/
  found : ∀ id b, (lists.foldl BranchIndex.extend .empty).get? id = some b
    ↔ b ∈ lists.flatten ∧ b.id = id
  /-- Arms that a file was served before get nothing, and nothing changes. -/
  again : ∀ file kind arms,
    (∀ arm ∈ arms, ∃ c ∈ calls, c.file = file ∧ c.kind = kind ∧ arm ∈ c.arms) →
    last.allocate file kind arms = ([], last)

/-- **The accounts of an allocator agree.** After every history of calls, whatever the files, the kinds and
the arms were, the IDs that count as handed out are those of the branches that the calls got back, each of
them once, and an index of the branches has neither more nor others. An arm is left out just if its ID was
handed out before. -/
theorem history_accounts (calls : List Call) :
    Accounts calls (serve {} calls).1 (serve {} calls).2 := by
  -- an allocator that starts with nothing has issued what was handed out
  have hserve := handsOut_serve {} calls
  have hindex : (serve {} calls).1.foldl BranchIndex.extend .empty
      = BranchIndex.empty.extend (serve {} calls).1.flatten := List.foldl_flatten.symm
  have hallocated : (serve {} calls).2.allocated = (serve {} calls).1.flatten.length := by
    rw [hserve.allocated]
    exact Nat.zero_add _
  refine ⟨hserve.distinct, fun id => ?_, hallocated, ?_, kept_serve {} calls, ?_, fun id b => ?_,
    fun file kind arms hserved => ?_⟩
  · rw [hserve.issued]
    exact or_iff_right Std.ExtTreeSet.not_mem_empty
  · rw [serve_eq_allocate]
    simp only [allocate_eq_shares]
  · rw [hindex, hallocated, ← BranchIndex.length_branches]
    exact (BranchIndex.perm_branches_extend hserve.distinct).length_eq
  · rw [hindex]
    exact BranchIndex.get?_extend_empty hserve.distinct
  · -- a file that was served before gets nothing, for all of its IDs are issued
    refine allocate_of_issued fun arm harm => ?_
    obtain ⟨c, hc, rfl, rfl, hmem⟩ := hserved arm harm
    exact mem_issued_serve.mpr (.inr ⟨c, hc, List.mem_map_of_mem hmem⟩)

/-- The arm of an `end` on a line. -/
def endArm (line column : Nat) : Arm :=
  { trigger := .endBlock, define := none, tokenLine := line, column, occurrence := 1, startLine := line
    endLine := line, decisionLine := line, trimLeft := false }

/-- Calls with an ID that is asked for twice in one list, and once more in a call for a file of the other
kind. -/
def repeatingCalls : List Call :=
  [⟨"t.yaml", .template, [endArm 3 0, endArm 3 9, endArm 5 0]⟩,
    ⟨"t.yaml", .helper, [endArm 7 0, endArm 5 4]⟩]

/-- Of five arms, three get a branch, and the index has the first one of line 3. The arms of the template
get nothing when they come again in another order. -/
theorem history_accounts_repeatingCalls :
    let lists := (serve {} repeatingCalls).1
    let last := (serve {} repeatingCalls).2
    lists.map (·.map (·.id)) = [["t.yaml:L3", "t.yaml:L5"], ["t.yaml:L7"]]
      ∧ last.allocated = 3
      ∧ (lists.foldl BranchIndex.extend .empty).get? "t.yaml:L3"
        = some { endArm 3 0 with id := "t.yaml:L3", file := "t.yaml", kind := .template }
      ∧ (∀ arm ∈ [endArm 5 0, endArm 3 9], ∃ c ∈ repeatingCalls, c.file = "t.yaml"
        ∧ c.kind = .template ∧ arm ∈ c.arms)
      ∧ last.allocate "t.yaml" .template [endArm 5 0, endArm 3 9] = ([], last) := by
  intro lists last
  have haccounts := history_accounts repeatingCalls
  -- the two arms were served by different calls
  have hserved : ∀ arm ∈ [endArm 5 0, endArm 3 9], ∃ c ∈ repeatingCalls, c.file = "t.yaml"
      ∧ c.kind = .template ∧ arm ∈ c.arms := by decide
  have hlists : lists.map (·.map (·.id)) = [["t.yaml:L3", "t.yaml:L5"], ["t.yaml:L7"]] := by
    decide
  refine ⟨hlists, by decide, ?_, hserved, haccounts.again "t.yaml" .template _ hserved⟩
  exact (haccounts.found _ _).mpr ⟨by decide, by decide⟩

end Allocator

end TemplateCoverage
