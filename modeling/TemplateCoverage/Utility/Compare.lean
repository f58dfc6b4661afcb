import TemplateCoverage.Utility.Line

/-!
# Utilities that compare files

Whether two files are alike, and which lines of sorted files are in both.
-/

namespace TemplateCoverage.Utility

/-- The place of the first difference of two texts, or the length of the shorter one. -/
def commonLength : Bytes → Bytes → Nat
  | a :: rest, b :: more => if a = b then commonLength rest more + 1 else 0
  | _, _ => 0

/-- The contents of a file that is compared. If there are none, this is complained about unless it should be
quiet. -/
def comparedText (u : UtilityCall) (quiet : Bool) (path : Bytes) : Work (Option Bytes) := do
  match ← Work.operand path with
  | .ok text => pure (some text)
  | .error e =>
    if !quiet then u.complainOf path e
    pure none

/-- Compare two files byte by byte. -/
def cmp (u : UtilityCall) : Work Nat :=
  u.withOptions
    [{ letter := 's', names := ["quiet", "silent"] }, { letter := 'b' }, { letter := 'l' }] 2
    fun o => do
  let quiet := o.has 's'
  match o.operands with
  | [] => u.misused "missing operand after 'cmp'" 2
  | first :: rest =>
    let second := rest.head?.getD ['-']
    match ← comparedText u quiet first with
    | none => pure 2
    | some a =>
      match ← comparedText u quiet second with
      | none => pure 2
      | some b =>
        let n := commonLength a b
        let line (text : Bytes) : Nat := ((text.take n).filter (· == '\n')).length + 1
        if a = b then pure 0
        else if n < a.length && n < b.length then
          if !quiet then
            Work.say (first ++ " " ++ second ++ " differ: char " ++ Bytes.ofNat (n + 1) ++
              ", line " ++ Bytes.ofNat (line a) ++ "\n")
          pure 1
        else
          let short := if a.length ≤ n then first else second
          if !quiet then
            if n = 0 then u.complain ("EOF on " ++ short ++ " which is empty")
            else
              let place : Bytes := if (a.take n).getLast? = some '\n' then ", line "
                else ", in line "
              let number := if (a.take n).getLast? = some '\n' then line a - 1 else line a
              u.complain ("EOF on " ++ short ++ " after byte " ++ Bytes.ofNat n ++ place ++
                Bytes.ofNat number)
          pure 1

/-- The lines of two sorted lists in columns: those of the first list only, those of the second list
only, and those of both. -/
def columns : Nat → List Bytes → List Bytes → List (Nat × Bytes)
  | 0, _, _ | _, [], [] => []
  | n + 1, a :: rest, [] => (1, a) :: columns n rest []
  | n + 1, [], b :: more => (2, b) :: columns n [] more
  | n + 1, a :: rest, b :: more =>
    if a = b then (3, a) :: columns n rest more
    else if a < b then (1, a) :: columns n rest (b :: more)
    else (2, b) :: columns n (a :: rest) more

/-- Write which lines two sorted files have in common. -/
def comm (u : UtilityCall) : Work Nat :=
  u.withOptions
    [{ letter := '1' }, { letter := '2' }, { letter := '3' },
     { letter := 'c', names := ["check-order"], isShort := false }] 1 fun o => do
  match o.operands with
  | [] => u.misused "missing operand" 1
  | [first] => u.misused ("missing operand after " ++ Bytes.cited first) 1
  | _ :: _ :: extra :: _ => u.misused ("extra operand " ++ Bytes.cited extra) 1
  | [first, second] =>
    match ← Work.operand first, ← Work.operand second with
    | .error e, _ =>
      u.complainOf (Bytes.shown first) e
      pure 1
    | _, .error e =>
      u.complainOf (Bytes.shown second) e
      pure 1
    | .ok a, .ok b =>
      let lines (text : Bytes) : List Bytes := (Bytes.lines text).map (·.1)
      let dropped (n : Nat) : Bool := o.has (Char.ofNat ('0'.toNat + n))
      for (n, line) in columns (a.length + b.length + 1) (lines a) (lines b) do
        let tabs := ((List.range n).filter fun m => 0 < m && !dropped m).length
        if !dropped n then Work.say (List.replicate tabs '\t' ++ line ++ "\n")
      pure 0

end TemplateCoverage.Utility
