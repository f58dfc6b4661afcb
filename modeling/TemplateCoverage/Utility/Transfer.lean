import TemplateCoverage.Utility.Directory

/-!
# Utilities that copy and move

Copying, moving and linking files, and letting them be run or not.
-/

namespace TemplateCoverage.Utility

/-! ### Sources and targets -/

/-- The options of copies and moves. -/
def transferRules : List OptionRule :=
  [{ letter := 'r', names := ["recursive"] }, { letter := 'R' },
   { letter := 'a', names := ["archive"] }, { letter := 'f', names := ["force"] },
   { letter := 'i', names := ["interactive"] }, { letter := 'n', names := ["no-clobber"] },
   { letter := 'v', names := ["verbose"] }, { letter := 'p' },
   { letter := 'P', names := ["no-dereference"] }, { letter := 'd' },
   { letter := 'L', names := ["dereference"] }, { letter := 'u', names := ["update"] },
   { letter := 't', names := ["target-directory"], value := .required },
   { letter := 'T', names := ["no-target-directory"] },
   { letter := 's', names := ["symbolic"] }]

/-- The pairs of sources and targets that arguments ask for. -/
def transfers (u : UtilityCall) (o : Options) (files : FileSystem) :
    Except (Bytes × Bool) (List (Bytes × Bytes)) :=
  let into (directory : Bytes) (sources : List Bytes) : List (Bytes × Bytes) :=
    sources.map fun s => (s, pathBelow directory (lastName s))
  let isDirectory (path : Bytes) : Bool := files.isDirectory (Bytes.text path)
  let notDirectory (path : Bytes) : Bytes :=
    let cause : FileError :=
      match files.status (Bytes.text path) with
      | .ok _ => .notADirectory
      | .error e => e
    "target " ++ Bytes.inApostrophes path ++ ": " ++ cause.cause
  match o.operands, o.value? 't' with
  | [], _ => .error ("missing file operand", true)
  | sources, some directory =>
    if isDirectory directory then .ok (into directory sources)
    else .error ("target directory " ++ Bytes.inApostrophes directory ++ ": " ++
      FileError.notFound.cause, false)
  | [source], none =>
    if lastName u.name = "ln" then .ok [(source, lastName source)]
    else
      .error ("missing destination file operand after " ++ Bytes.inApostrophes source, true)
  | [source, target], none =>
    if isDirectory target && !o.has 'T' then .ok (into target [source])
    else .ok [(source, target)]
  | operands, none =>
    match operands.getLast? with
    | none => .ok []
    | some target =>
      if isDirectory target then .ok (into target operands.dropLast)
      else .error (notDirectory target, false)

/-- Carry out transfers one after another. -/
def transferAll (u : UtilityCall) (o : Options) (work : Bytes → Bytes → Work Bool) : Work Nat := do
  match transfers u o (← get).files with
  | .error (message, advises) =>
    if advises then u.misused message 1
    else
      u.complain message
      pure 1
  | .ok pairs =>
    pairs.foldlM (fun code (source, target) => do
      if ← work source target then pure code else pure 1) 0

/-- A file system with an entry and all that is beneath it at another place, too. -/
def copiedTree (files : FileSystem) (source target : Location) (entry : Entry) : FileSystem :=
  (files.below source).foldl (fun after (relative, inner) => after.put (target ++ relative) inner)
    (files.put target entry)

/-! ### Copying -/

/-- Copy files. -/
def cp (u : UtilityCall) : Work Nat :=
  u.withOptions transferRules 1 fun o => do
  let deep := o.has 'r' || o.has 'R' || o.has 'a'
  transferAll u o fun source target => do
    let w ← get
    let fail (message : Bytes) : Work Bool := do
      u.complain message
      pure false
    let done (files : FileSystem) : Work Bool := do
      set { w with files }
      if o.has 'v' then
        Work.say (Bytes.inApostrophes source ++ " -> " ++ Bytes.inApostrophes target ++ "\n")
      pure true
    let shownSource := Bytes.inApostrophes source
    let shownTarget := Bytes.inApostrophes target
    let keeps := (deep && !o.has 'L') || o.has 'P' || o.has 'd'
    let there := w.files.find .follow (Bytes.text target)
    match w.files.find (if keeps then .keep else .follow) (Bytes.text source) with
    | .error e => fail ("cannot stat " ++ shownSource ++ ": " ++ e.cause)
    | .ok (location, entry) =>
      let isSame : Bool := match there with
        | .ok (other, _) => location == other
        | .error _ => false
      match entry, there with
      | .directory, found =>
        if !deep then fail ("-r not specified; omitting directory " ++ shownSource)
        else
          match found with
          | .ok (other, .directory) =>
            if location.isPrefixOf other then
              fail ("cannot copy a directory, " ++ shownSource ++ ", into itself, " ++ shownTarget)
            else done (copiedTree w.files location other entry)
          | .ok _ =>
            fail ("cannot overwrite non-directory " ++ shownTarget ++ " with directory " ++
              shownSource)
          | .error _ =>
            match w.files.locate .follow (Bytes.text (withoutSlashes target)) with
            | .error e => fail ("cannot create directory " ++ shownTarget ++ ": " ++ e.cause)
            | .ok other =>
              if location.isPrefixOf other then
                fail ("cannot copy a directory, " ++ shownSource ++ ", into itself, " ++
                  shownTarget)
              else done (copiedTree w.files location other entry)
      | _, .ok (_, .directory) =>
        fail ("cannot overwrite directory " ++ shownTarget ++ " with non-directory")
      | entry, found =>
        if o.has 'n' && found.isOk then pure true
        else if isSame then
          fail (shownSource ++ " and " ++ shownTarget ++ " are the same file")
        else
          match entry with
          | .file contents executable =>
            let mode? := if found.isOk && !o.has 'p' && !o.has 'a' then none else some executable
            match w.files.write (Bytes.text target) contents mode? with
            | .ok files => done files
            | .error e =>
              fail ("cannot create regular file " ++ shownTarget ++ ": " ++ e.cause)
          | other =>
            match w.files.locate .keep (Bytes.text target) with
            | .ok place => done (w.files.put place other)
            | .error e => fail ("cannot create symbolic link " ++ shownTarget ++ ": " ++ e.cause)

/-! ### Moving -/

/-- Move files. -/
def mv (u : UtilityCall) : Work Nat :=
  u.withOptions transferRules 1 fun o =>
  transferAll u o fun source target => do
    let w ← get
    let fail (message : Bytes) : Work Bool := do
      u.complain message
      pure false
    let shownSource := Bytes.inApostrophes source
    let shownTarget := Bytes.inApostrophes target
    match w.files.find .keep (Bytes.text source) with
    | .error e => fail ("cannot stat " ++ shownSource ++ ": " ++ e.cause)
    | .ok (location, entry) =>
      match w.files.locate .keep (Bytes.text (withoutSlashes target)) with
      | .error e =>
        fail ("cannot move " ++ shownSource ++ " to " ++ shownTarget ++ ": " ++ e.cause)
      | .ok place =>
        let isDirectory : Entry → Bool := fun e => match e with
          | .directory => true
          | _ => false
        let there := w.files.entry? place
        if place = location then
          fail (shownSource ++ " and " ++ shownTarget ++ " are the same file")
        else if location.isPrefixOf place then
          fail ("cannot move " ++ shownSource ++ " to a subdirectory of itself, " ++ shownTarget)
        else if there.any isDirectory && !isDirectory entry then
          fail ("cannot overwrite directory " ++ shownTarget ++ " with non-directory " ++
            shownSource)
        else if there.any (fun e => !isDirectory e) && isDirectory entry then
          fail ("cannot overwrite non-directory " ++ shownTarget ++ " with directory " ++
            shownSource)
        else if !(w.files.names place).isEmpty then
          fail ("cannot overwrite " ++ shownTarget ++ ": Directory not empty")
        else if o.has 'n' && there.isSome then pure true
        else
          set { w with files := (copiedTree w.files location place entry).remove location }
          if o.has 'v' then
            Work.say ("renamed " ++ shownSource ++ " -> " ++ shownTarget ++ "\n")
          pure true

/-! ### Links -/

/-- Make links. A link that is not symbolic is made as a copy. -/
def ln (u : UtilityCall) : Work Nat :=
  u.withOptions transferRules 1 fun o =>
  transferAll u o fun source target => do
    let w ← get
    let symbolic := o.has 's'
    let kind : Bytes := if symbolic then "symbolic" else "hard"
    let fail (message : Bytes) : Work Bool := do
      u.complain message
      pure false
    match w.files.locate .keep (Bytes.text target) with
    | .error e =>
      fail ("failed to create " ++ kind ++ " link " ++ Bytes.inApostrophes target ++ ": " ++
        e.cause)
    | .ok place =>
      let there := w.files.entry? place
      let isDirectory := match there with
        | some .directory => true
        | _ => false
      if there.isSome && (isDirectory || !o.has 'f') then
        fail ("failed to create " ++ kind ++ " link " ++ Bytes.inApostrophes target ++ ": " ++
          FileError.alreadyExists.cause)
      else if symbolic then
        set { w with files := w.files.put place (.link (Bytes.text source)) }
        pure true
      else
        match w.files.find .keep (Bytes.text source) with
        | .error e => fail ("failed to access " ++ Bytes.inApostrophes source ++ ": " ++ e.cause)
        | .ok (_, .directory) =>
          fail (Bytes.inApostrophes source ++ ": hard link not allowed for directory")
        | .ok (_, entry) =>
          set { w with files := w.files.put place entry }
          pure true

/-! ### Permission to run -/

/-- Whether a mode in letters lets a file be run that may be run or not. The parts of the mode stand
between commas. -/
def modeOfLetters? (runs : Bool) (mode : Bytes) : Option Bool :=
  (Bytes.split ',' mode).foldl (fun state? part =>
    state?.bind fun runs =>
      let who := part.takeWhile fun c => "ugoa".toList.contains c
      match part.drop who.length with
      | sign :: what =>
        if !what.all fun c => "rwxXst".toList.contains c then none
        else
          let names := what.contains 'x' || (what.contains 'X' && runs)
          let everyone := who.isEmpty || who.contains 'a'
          match sign with
          | '+' => some (runs || names)
          | '-' => some (if names && everyone then false else runs)
          | '=' => some (if everyone then names else runs || names)
          | _ => none
      | [] => none) (some runs)

/-- Whether a mode lets a file be run that may be run or not. -/
def mode? (runs : Bool) (mode : Bytes) : Option Bool :=
  if mode.all (fun c => '0' ≤ c && c ≤ '7') && !mode.isEmpty && mode.length ≤ 4 then
    some ((mode.reverse.take 3).any fun d => (d.toNat - '0'.toNat) % 2 = 1)
  else modeOfLetters? runs mode

/-- Change modes. -/
def chmod (u : UtilityCall) : Work Nat := do
  let removes (a : Bytes) : Bool :=
    match a with
    | '-' :: c :: _ => "rwx".toList.contains c
    | _ => false
  let flags := u.args.filter fun a => a.head? = some '-' && !removes a && 1 < a.length
  let deep := flags.any fun a => a.contains 'R' || a = "--recursive"
  let args := u.args.filter fun a => !flags.contains a
  match args with
  | [] => u.misused "missing operand" 1
  | mode :: paths =>
    if (mode? false mode).isNone then
      u.misused ("invalid mode: " ++ Bytes.inApostrophes mode) 1
    else if paths.isEmpty then
      u.misused ("missing operand after " ++ Bytes.inApostrophes mode) 1
    else
      let changed (entry : Entry) : Entry :=
        match entry with
        | .file contents runs => .file contents ((mode? runs mode).getD runs)
        | e => e
      paths.foldlM (fun code (path : Bytes) => do
        let w ← get
        match w.files.find .follow (Bytes.text path) with
        | .error e =>
          u.complainOf ("cannot access " ++ Bytes.inApostrophes path) e
          pure 1
        | .ok (location, entry) =>
          let inner := if deep then w.files.below location else []
          let files := inner.foldl (fun files (relative, e) =>
            files.put (location ++ relative) (changed e)) w.files
          set { w with files := files.put location (changed entry) }
          pure code) 0

end TemplateCoverage.Utility
