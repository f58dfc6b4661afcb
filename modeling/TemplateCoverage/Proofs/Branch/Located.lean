import TemplateCoverage.Branch.Allocator
import TemplateCoverage.Proofs.Scan.Step
import TemplateCoverage.Proofs.Token.Position

/-!
# Where branches stand

The branches that an allocator gives a scanned file are some of its arms, and the arms are those of its
tokens. So the branches stand where tokens stand, and in the same order:

* **`map_toArm_allocate`**: allocation only leaves arms out.
* **`exists_token_of_mem_scannedBranches`**: each branch is closed by a token of the text.
* **`located_scannedBranches`**: the branches stand at their positions, in the order of these.
-/

namespace TemplateCoverage

open Text

/-- The line and the column of the token that closes an arm. -/
def Arm.position (a : Arm) : Nat × Nat :=
  (a.tokenLine, a.column)

theorem Arm.ClosedBy.position_eq {a : Arm} {t : Token} (h : a.ClosedBy t) :
    a.position = t.position := by
  unfold Arm.position Token.position
  rw [h.tokenLine, h.column]

/-- Arms that are closed by tokens one by one have their positions. -/
theorem map_position_of_closedBy {arms : List Arm} {tokens : List Token}
    (h : List.Forall₂ Arm.ClosedBy arms tokens) :
    arms.map Arm.position = tokens.map Token.position := by
  induction h with
  | nil => rfl
  | cons hclosed _ ih => rw [List.map_cons, List.map_cons, hclosed.position_eq, ih]

/-- Each arm of the list has its token. -/
theorem exists_closedBy_of_mem {arms : List Arm} {tokens : List Token} {a : Arm}
    (h : List.Forall₂ Arm.ClosedBy arms tokens) (ha : a ∈ arms) :
    ∃ t ∈ tokens, a.ClosedBy t := by
  induction h with
  | nil => cases ha
  | cons hclosed _ ih =>
    rcases List.mem_cons.mp ha with rfl | ha
    · exact ⟨_, List.mem_cons_self .., hclosed⟩
    · obtain ⟨t, ht, hat⟩ := ih ha
      exact ⟨t, List.mem_cons_of_mem _ ht, hat⟩

/-- The arms of a scan are in the order of their positions, since these are the positions of tokens. -/
theorem pairwise_position_scan (evaluators : List String) (file source : String) :
    (Finding.arms (scan evaluators file source)).Pairwise
      fun a b => Precedes a.position b.position := by
  have htokens : ((tokensOf evaluators source.toList).filter Token.yields).Pairwise
      fun t u => Precedes t.position u.position :=
    (pairwise_tokensOf evaluators source.toList).filter _
  rw [← List.pairwise_map (f := Arm.position) (R := Precedes), scan,
    map_position_of_closedBy (arms_scanTokens_closedBy file _), List.pairwise_map]
  exact htokens

/-! ## Allocation -/

namespace Allocator

/-- An arm whose ID is taken leaves the allocator as it is. -/
theorem assign_cons_of_mem {a : Allocator} {file : String} {kind : FileKind} {arm : Arm}
    {rest : List Arm} (h : (Branch.ofArm file kind arm).id ∈ a.issued) :
    a.assign file kind (arm :: rest)
      = (.duplicate (Branch.ofArm file kind arm).id :: (a.assign file kind rest).1,
          (a.assign file kind rest).2) := by
  rw [assign]
  exact if_pos h

/-- An arm with a new ID gets a branch, and the ID is taken from there on. -/
theorem assign_cons_of_not_mem {a : Allocator} {file : String} {kind : FileKind} {arm : Arm}
    {rest : List Arm} (h : (Branch.ofArm file kind arm).id ∉ a.issued) :
    a.assign file kind (arm :: rest)
      = let b := Branch.ofArm file kind arm
        let later := Allocator.assign ⟨a.issued.insert b.id⟩ file kind rest
        (.branch b :: later.1, later.2) := by
  rw [assign]
  exact if_neg h

/-- Allocation only leaves arms out. Induction on the arms, for every allocator. -/
theorem map_toArm_allocate (a : Allocator) (file : String) (kind : FileKind) (arms : List Arm) :
    ((a.allocate file kind arms).1.map Branch.toArm).Sublist arms := by
  unfold allocate
  induction arms generalizing a with
  | nil => exact .slnil
  | cons arm rest ih =>
    by_cases h : (Branch.ofArm file kind arm).id ∈ a.issued
    · rw [assign_cons_of_mem h]
      exact (ih a).cons arm
    · rw [assign_cons_of_not_mem h]
      exact (ih _).cons_cons arm

end Allocator

/-! ## The branches of a scanned file -/

/-- The branches that an allocator gives a file after a scan of its source text. -/
def scannedBranches (a : Allocator) (evaluators : List String) (file : String) (kind : FileKind)
    (source : String) : List Branch :=
  (a.allocate file kind (Finding.arms (scan evaluators file source))).1

/-- Each branch comes from an arm that was found. -/
theorem mem_arms_of_mem_scannedBranches {a : Allocator} {evaluators : List String} {file : String}
    {kind : FileKind} {source : String} {b : Branch}
    (hb : b ∈ scannedBranches a evaluators file kind source) :
    b.toArm ∈ Finding.arms (scan evaluators file source) :=
  (a.map_toArm_allocate file kind _).subset (List.mem_map_of_mem hb)

/-- A branch is closed by a token of the text, which is not text of a string. -/
theorem exists_token_of_mem_scannedBranches {a : Allocator} {evaluators : List String}
    {file : String} {kind : FileKind} {source : String} {b : Branch}
    (hb : b ∈ scannedBranches a evaluators file kind source) :
    ∃ t ∈ tokensOf evaluators source.toList, t.yields = true ∧ b.toArm.ClosedBy t := by
  obtain ⟨t, ht, hclosed⟩ := exists_closedBy_of_mem (arms_scanTokens_closedBy file _)
    (mem_arms_of_mem_scannedBranches hb)
  obtain ⟨ht, hyields⟩ := List.mem_filter.mp ht
  exact ⟨t, ht, hyields, hclosed⟩

/-- Branches that stand at their positions of a source text, in the order of these. -/
structure Located (source : List Char) (branches : List Branch) : Prop where
  ordered : branches.Pairwise fun b b' => Precedes b.position b'.position
  stands : ∀ b ∈ branches, StandsAt source b.tokenLine b.column b.trimLeft

/-- The branches of a scanned file are located. Their order is that of the tokens, since neither the
scan nor the allocation changes it. -/
theorem located_scannedBranches (a : Allocator) (evaluators : List String) (file : String)
    (kind : FileKind) (source : String) :
    Located source.toList (scannedBranches a evaluators file kind source) := by
  constructor
  · -- the order of the arms is kept by those that became branches
    have harms := pairwise_position_scan evaluators file source
    have hbranches := harms.sublist (a.map_toArm_allocate file kind _)
    rw [List.pairwise_map] at hbranches
    exact hbranches
  · intro b hb
    -- a branch stands where its token does
    obtain ⟨t, ht, -, hclosed⟩ := exists_token_of_mem_scannedBranches hb
    rw [hclosed.tokenLine, hclosed.column, hclosed.trimLeft]
    exact mem_tokensOf ht

end TemplateCoverage
