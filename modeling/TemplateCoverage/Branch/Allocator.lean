import Std.Data.ExtTreeSet
import TemplateCoverage.Branch.Basic

/-!
# Handing out IDs

The allocator remembers every ID that it has handed out. An arm whose ID is taken gets no branch.
-/

namespace TemplateCoverage

/-- A set of IDs. -/
abbrev IdSet := Std.ExtTreeSet BranchId

/-- The IDs handed out so far. -/
structure Allocator where
  issued : IdSet := ∅

namespace Allocator

/-- What becomes of one arm: it gets a branch, or its ID was handed out before. -/
inductive Outcome where
  | branch (b : Branch)
  | duplicate (id : BranchId)
  deriving DecidableEq, Repr

/-- The branch of an outcome. -/
def Outcome.branch? : Outcome → Option Branch
  | .branch b => some b
  | .duplicate _ => none

/-- Decide on the arms of a file, in order. -/
def assign (a : Allocator) (file : String) (kind : FileKind) :
    List Arm → List Outcome × Allocator
  | [] => ([], a)
  | arm :: rest =>
    let branch := Branch.ofArm file kind arm
    if branch.id ∈ a.issued then
      let (outcomes, last) := a.assign file kind rest
      (.duplicate branch.id :: outcomes, last)
    else
      let (outcomes, last) := Allocator.assign ⟨a.issued.insert branch.id⟩ file kind rest
      (.branch branch :: outcomes, last)

/-- The branches of the arms of a file, without the arms whose ID is taken. -/
def allocate (a : Allocator) (file : String) (kind : FileKind) (arms : List Arm) :
    List Branch × Allocator :=
  let (outcomes, last) := a.assign file kind arms
  (outcomes.filterMap Outcome.branch?, last)

/-- The number of IDs handed out. -/
def allocated (a : Allocator) : Nat :=
  a.issued.size

end Allocator

end TemplateCoverage
