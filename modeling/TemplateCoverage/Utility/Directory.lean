import TemplateCoverage.FileSystem.Walk
import TemplateCoverage.Utility.Name

/-!
# Utilities for directories

Listing directories, making and removing them and what is in them.
-/

namespace TemplateCoverage.Utility

/-! ### Listing -/

/-- How a directory is listed. -/
structure ListStyle where
  hidden : Bool := false
  here : Bool := false
  marks : Bool := false
  slashes : Bool := false
  reversed : Bool := false
  deep : Bool := false

/-- The mark behind a name. -/
def ListStyle.mark (style : ListStyle) (entry : Entry) : Bytes :=
  match entry with
  | .directory => if style.marks || style.slashes then "/" else []
  | .file _ executable => if style.marks && executable then "*" else []
  | .link _ => if style.marks then "@" else []

/-- Names in the order of the list. -/
def ListStyle.ordered (style : ListStyle) (names : List (Bytes × Entry)) : List (Bytes × Entry) :=
  let sorted := names.mergeSort fun a b => !decide (b.1 < a.1)
  if style.reversed then sorted.reverse else sorted

/-- Names on lines of their own. -/
def ListStyle.lines (style : ListStyle) (names : List (Bytes × Entry)) : Bytes :=
  (style.ordered names).flatMap fun (name, entry) => name ++ style.mark entry ++ "\n"

/-- The names in a directory that are listed. -/
def ListStyle.names (style : ListStyle) (files : FileSystem) (location : Location) :
    List (Bytes × Entry) :=
  let found := (files.names location).filterMap fun name =>
    (files.entry? (location ++ [name])).map fun e => (Bytes.ofText name, e)
  let shown := found.filter fun n => style.hidden || n.1.head? ≠ some '.'
  if style.here then [(['.'], .directory), (['.', '.'], .directory)] ++ shown else shown

/-- The list of a directory, and the ones below it if they are asked for, each behind its title. -/
def ListStyle.tree (style : ListStyle) (files : FileSystem) :
    Nat → Bool → Bytes → Location → List Bytes
  | 0, _, _, _ => []
  | depth + 1, titled, path, location =>
    let names := style.names files location
    let here := (if titled then path ++ ":\n" else []) ++ style.lines names
    let inner := (style.ordered names).filter fun (name, entry) =>
      match entry with
      | .directory => name ≠ ['.'] && name ≠ ['.', '.']
      | _ => false
    here :: if style.deep then
      inner.flatMap fun (name, _) =>
        style.tree files depth titled (pathBelow path name) (location ++ [Bytes.text name])
    else []

/-- List directories. -/
def ls (u : UtilityCall) : Work Nat :=
  u.withOptions
    [{ letter := 'a', names := ["all"] }, { letter := 'A', names := ["almost-all"] },
     { letter := '1' }, { letter := 'd', names := ["directory"] },
     { letter := 'F', names := ["classify"] }, { letter := 'p' },
     { letter := 'r', names := ["reverse"] }, { letter := 'R', names := ["recursive"] },
     { letter := 'L', names := ["dereference"] }, { letter := 'H' },
     { letter := 'q' }, { letter := 'N', names := ["literal"] },
     { letter := 'w', names := ["width"], value := .required },
     { letter := 'k' }, { letter := 'f' }, { letter := 'U' },
     { letter := 'c', names := ["color"], value := .optional, isShort := false }] 2 fun o => do
  let style : ListStyle :=
    { hidden := o.has 'a' || o.has 'A' || o.has 'f', here := o.has 'a' || o.has 'f'
      marks := o.has 'F', slashes := o.has 'p', reversed := o.has 'r', deep := o.has 'R' }
  let operands := if o.operands.isEmpty then [['.']] else o.operands
  let files := (← get).files
  let found ← operands.filterMapM fun (path : Bytes) => do
    let name := Bytes.text path
    let keeps := (o.has 'd' || o.has 'F') && !o.has 'L'
    match files.find (if keeps then .keep else .follow) name with
    | .ok (location, entry) => pure (some (path, location, entry))
    | .error e =>
      match files.find .keep name with
      | .ok (location, entry) => pure (some (path, location, entry))
      | .error _ =>
        u.complainOf ("cannot access " ++ Bytes.inApostrophes path) e
        pure none
  let isListed (f : Bytes × Location × Entry) : Bool :=
    match f.2.2 with
    | .directory => !o.has 'd'
    | _ => false
  let single := style.lines ((found.filter fun f => !isListed f).map fun f => (f.1, f.2.2))
  let order := style.ordered ((found.filter isListed).map fun f => (f.1, f.2.2))
  let titled := o.has 'R' || 1 < operands.length
  let blocks := order.flatMap fun (path, _) =>
    match files.find .follow (Bytes.text path) with
    | .ok (location, _) => style.tree files files.depthLimit titled path location
    | .error _ => []
  let parts := (if single.isEmpty then [] else [single]) ++ blocks
  Work.say (Bytes.join "\n" parts)
  pure (if found.length = operands.length then 0 else 2)

/-! ### Making -/

/-- Make directories. -/
def mkdir (u : UtilityCall) : Work Nat :=
  u.withOptions
    [{ letter := 'p', names := ["parents"] },
     { letter := 'm', names := ["mode"], value := .required },
     { letter := 'v', names := ["verbose"] }] 1 fun o => do
  if o.operands.isEmpty then u.misused "missing operand" 1
  else
    o.operands.foldlM (fun code (path : Bytes) => do
      let w ← get
      let name := Bytes.text path
      let fail (path : Bytes) (e : FileError) : Work Nat := do
        u.complainOf ("cannot create directory " ++ Bytes.inApostrophes path) e
        pure 1
      if o.has 'p' then
        match w.files.createDirectories name with
        | (.ok (), files) =>
          set { w with files }
          pure code
        | (.error e, files) =>
          set { w with files }
          let blocking := (Path.parents name).reverse.find? fun p =>
            files.pathExists p && !files.isDirectory p
          fail (blocking.elim path Bytes.ofText) e
      else
        match w.files.makeDirectory name with
        | .ok files =>
          set { w with files }
          if o.has 'v' then
            Work.say (u.name ++ ": created directory " ++ Bytes.inApostrophes path ++ "\n")
          pure code
        | .error e => fail path e) 0

/-- Make files that are not there yet. -/
def touch (u : UtilityCall) : Work Nat :=
  u.withOptions
    [{ letter := 'c', names := ["no-create"] }, { letter := 'a' }, { letter := 'm' },
     { letter := 'f' }, { letter := 'h', names := ["no-dereference"] },
     { letter := 'd', names := ["date"], value := .required },
     { letter := 'r', names := ["reference"], value := .required },
     { letter := 't', value := .required }] 1 fun o => do
  if o.operands.isEmpty then u.misused "missing file operand" 1
  else
    o.operands.foldlM (fun code (path : Bytes) => do
      if o.has 'c' || (← get).files.pathExists (Bytes.text path) then pure code
      else
        match ← Work.putFile path [] false with
        | .ok () => pure code
        | .error e =>
          u.complainOf ("cannot touch " ++ Bytes.inApostrophes path) e
          pure 1) 0

/-! ### Removing -/

/-- Remove directories that are empty. -/
def rmdir (u : UtilityCall) : Work Nat :=
  u.withOptions
    [{ letter := 'p', names := ["parents"] }, { letter := 'v', names := ["verbose"] },
     { letter := 'i', names := ["ignore-fail-on-non-empty"], isShort := false }] 1 fun o => do
  if o.operands.isEmpty then u.misused "missing operand" 1
  else
    o.operands.foldlM (fun code (path : Bytes) => do
      let name := Bytes.text path
      let above := (Path.parents name).filter fun p => p ≠ "." && p ≠ "/" && !p.isEmpty
      let all := name :: if o.has 'p' then above else []
      let (code, _) ← all.foldlM (fun ((code, going) : Nat × Bool) name => do
        if !going then pure (code, false)
        else
          let w ← get
          let fail (cause : Bytes) : Work (Nat × Bool) := do
            u.complain ("failed to remove " ++ Bytes.inApostrophes name ++ ": " ++ cause)
            pure (1, false)
          match w.files.find .keep name with
          | .ok (location, .directory) =>
            if (w.files.names location).isEmpty then
              set { w with files := w.files.remove location }
              pure (code, true)
            else if o.has 'i' then pure (code, false)
            else fail "Directory not empty"
          | .ok _ => fail FileError.notADirectory.cause
          | .error e => fail e.cause) (code, true)
      pure code) 0

/-- The lines that tell what is removed, the contents of a directory before it. -/
def removalLines (files : FileSystem) : Nat → Bytes → Location → Bytes
  | 0, _, _ => []
  | depth + 1, path, location =>
    let shown := Bytes.inApostrophes path
    match files.entry? location with
    | some .directory =>
      let inner : List Bytes := (files.names location).map fun (name : String) =>
        removalLines files depth (pathBelow path (Bytes.ofText name)) (location ++ [name])
      inner.flatten ++ "removed directory " ++ shown ++ "\n"
    | _ => "removed " ++ shown ++ "\n"

/-- Remove files, and directories on request. -/
def rm (u : UtilityCall) : Work Nat :=
  u.withOptions
    [{ letter := 'r', names := ["recursive"] }, { letter := 'R' },
     { letter := 'f', names := ["force"] }, { letter := 'i' }, { letter := 'I' },
     { letter := 'd', names := ["dir"] }, { letter := 'v', names := ["verbose"] }] 1 fun o => do
  let deep := o.has 'r' || o.has 'R'
  if o.operands.isEmpty && !o.has 'f' then u.misused "missing operand" 1
  else
    o.operands.foldlM (fun code (path : Bytes) => do
      let w ← get
      let fail (cause : Bytes) : Work Nat := do
        u.complain ("cannot remove " ++ Bytes.inApostrophes path ++ ": " ++ cause)
        pure 1
      let drop (location : Location) : Work Nat := do
        if o.has 'v' then Work.say (removalLines w.files w.files.depthLimit path location)
        modify fun v => { v with files := v.files.remove location }
        pure code
      let last := lastName path
      if deep && (last = ['.'] || last = ['.', '.']) then
        u.complain ("refusing to remove '.' or '..' directory: skipping " ++
          Bytes.inApostrophes path)
        pure 1
      else
        match w.files.find .keep (Bytes.text path) with
        | .ok (location, .directory) =>
          if deep then drop location
          else if o.has 'd' then
            if (w.files.names location).isEmpty then drop location else fail "Directory not empty"
          else fail FileError.isADirectory.cause
        | .ok (location, _) => drop location
        | .error .notFound => if o.has 'f' then pure code else fail FileError.notFound.cause
        | .error .notADirectory =>
          if o.has 'f' then pure code else fail FileError.notADirectory.cause
        | .error e => fail e.cause) 0

end TemplateCoverage.Utility
