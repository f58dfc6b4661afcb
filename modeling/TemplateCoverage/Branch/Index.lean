import Std.Data.ExtTreeMap
import TemplateCoverage.Branch.Basic

/-!
# The index of branches

The branches of a chart by their IDs. A branch that is added under an ID that is there replaces the
older one.
-/

namespace TemplateCoverage

/-- The discovered branches, in the order of their IDs. -/
structure BranchIndex where
  entries : Std.ExtTreeMap BranchId Branch := ∅

namespace BranchIndex

/-- The index without branches. -/
def empty : BranchIndex := {}

instance : Inhabited BranchIndex := ⟨empty⟩

/-- Add a branch. -/
def insert (index : BranchIndex) (b : Branch) : BranchIndex :=
  ⟨index.entries.insert b.id b⟩

/-- Add branches in order. -/
def extend (index : BranchIndex) (branches : List Branch) : BranchIndex :=
  branches.foldl insert index

/-- The branch with an ID. -/
def get? (index : BranchIndex) (id : BranchId) : Option Branch :=
  index.entries[id]?

/-- Whether an ID was discovered. -/
def contains (index : BranchIndex) (id : BranchId) : Bool :=
  index.entries.contains id

/-- The number of branches. -/
def size (index : BranchIndex) : Nat :=
  index.entries.size

/-- Whether there is no branch. -/
def isEmpty (index : BranchIndex) : Bool :=
  index.entries.isEmpty

/-- The branches in the order of their IDs. -/
def branches (index : BranchIndex) : List Branch :=
  index.entries.values

/-- The IDs in order. -/
def ids (index : BranchIndex) : List BranchId :=
  index.entries.keys

/-- The number of branches in files of one kind. -/
def countKind (index : BranchIndex) (kind : FileKind) : Nat :=
  index.branches.countP fun b => b.kind = kind

/-- The files that have branches, in the order of their paths. -/
def files (index : BranchIndex) : List String :=
  (Std.ExtTreeMap.ofList (index.branches.map fun b => (b.file, ()))).keys

/-- The branches of a file, in the order of their IDs. -/
def inFile (index : BranchIndex) (file : String) : List Branch :=
  index.branches.filter fun b => b.file = file

/-- The branches grouped by file. -/
def byFile (index : BranchIndex) : List (String × List Branch) :=
  index.files.map fun file => (file, index.inFile file)

end BranchIndex

end TemplateCoverage
