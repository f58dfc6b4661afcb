import TemplateCoverage.Proofs.Branch.Chart
import TemplateCoverage.Proofs.FileSystem.Replacement

/-!
# Handing out instrumented files

The files of a chart are instrumented one after the other, and each text is written beneath a destination before
the next source is read. Where no source is overwritten before its turn, this is the same as instrumenting all
files first and then handing them out. A copy of the chart is such a destination, and in the end it has the
instrumented texts in the places of the sources.

* **`instrumentFiles`**, **`deliver`**: the two halves of what is done to a chart.
* **`exec_processFiles`**: the program does the one and then the other.
* **`exec_deliver_copy`**: the induction over the files that are written to a copy.
-/

namespace TemplateCoverage

open Activity

/-- Instrument files in order with one allocator. -/
def instrumentFiles (config : Config) :
    Allocator → List SourceFile → List (SourceFile × InstrumentedFile)
  | _, [] => []
  | a, f :: rest =>
    let instrumented := instrumentFile config a f.toTemplateFile f.source
    (f, instrumented.1) :: instrumentFiles config instrumented.2 rest

/-- The allocator of a file is the one that the files before it have left. -/
theorem instrumentFiles_cons (config : Config) (a : Allocator) (f : SourceFile) (rest : List SourceFile) :
    instrumentFiles config a (f :: rest)
      = (f, (instrumentFile config a f.toTemplateFile f.source).1)
        :: instrumentFiles config (instrumentFile config a f.toTemplateFile f.source).2 rest := rfl

/-- Each file comes once, in order. -/
theorem map_fst_instrumentFiles (config : Config) (a : Allocator) (files : List SourceFile) :
    (instrumentFiles config a files).map Prod.fst = files := by
  induction files generalizing a with
  | nil => rfl
  | cons f rest ih => rw [instrumentFiles_cons, List.map_cons, ih]

/-- Hand out a file that has been instrumented: its records go to the log, and its text beneath the destination,
if there is one. -/
def handOut (destination : Option String) (f : SourceFile) (done : InstrumentedFile) :
    Activity CoverageError Unit := do
  Activity.emitAll (done.records.map .log)
  match destination with
  | some root => writeBeneath root f.relative done.text
  | none => pure ()
  Activity.log
    { level := .debug, source := .run, message := "instrumented"
      fields := [("file", f.relative), ("branches", toString done.branches.length)] }

/-- Hand out files in order. -/
def deliver (destination : Option String) (d : Discovery) :
    List (SourceFile × InstrumentedFile) → Activity CoverageError Discovery
  | [] => pure d
  | (f, done) :: rest => do
    handOut destination f done
    deliver destination (d.add f.relative done) rest

/-- When the turn of a file comes, it is still to be read as its source. -/
def StaysReadable (destination : Option String) (d : Discovery)
    (items : List (SourceFile × InstrumentedFile)) (world : World) : Prop :=
  ∀ front f done back d' after, items = front ++ (f, done) :: back →
    (deliver destination d front).exec world = (.ok d', after) →
    after.files.readText f.path = .ok f.source

/-! ## Charts are processed like this -/

/-- A file that can be read is instrumented and handed out. -/
theorem exec_processFiles_cons {config : Config} {destination : Option String} {a : Allocator} {d : Discovery}
    {f : SourceFile} {rest : List TemplateFile} {world : World}
    (hread : world.files.readText f.path = .ok f.source) :
    (processFiles config destination a d (f.toTemplateFile :: rest)).exec world
      = (handOut destination f (instrumentFile config a f.toTemplateFile f.source).1 >>= fun _ =>
          processFiles config destination (instrumentFile config a f.toTemplateFile f.source).2
            (d.add f.relative (instrumentFile config a f.toTemplateFile f.source).1) rest).exec world := by
  have hsource : (Activity.ofExcept ((world.files.readText f.path).mapError .file)
      : Activity CoverageError String).exec world = (.ok f.source, world) := by
    rw [hread]
    rfl
  rw [processFiles, exec_bind_of_ok (exec_files world), exec_bind_of_ok hsource]
  -- what comes of the file does not matter to how it is handed out
  generalize instrumentFile config a f.toTemplateFile f.source = instrumented
  obtain ⟨done, later⟩ := instrumented
  unfold handOut
  cases destination with
  | none => rfl
  | some root =>
    dsimp only
    simp only [bind_assoc]

/-- **Processing files** instruments them one after the other and hands them out. Induction on the files. -/
theorem exec_processFiles {config : Config} {destination : Option String} {a : Allocator} {d : Discovery}
    {files : List SourceFile} {world : World}
    (hstays : StaysReadable destination d (instrumentFiles config a files) world) :
    (processFiles config destination a d (files.map SourceFile.toTemplateFile)).exec world
      = (deliver destination d (instrumentFiles config a files)).exec world := by
  induction files generalizing a d world with
  | nil => rfl
  | cons f rest ih =>
    have hread := hstays [] f _ _ d world rfl rfl
    rw [List.map_cons, exec_processFiles_cons hread, instrumentFiles_cons, deliver]
    rw [instrumentFiles_cons] at hstays
    generalize instrumentFile config a f.toTemplateFile f.source = instrumented at hstays ⊢
    refine exec_bind_congr fun _ after hafter => ih ?_
    -- what the rest finds is what it finds behind the first file
    intro front g done back d' last hitems hdelivered
    exact hstays ((f, instrumented.1) :: front) g done back d' last (congrArg _ hitems)
      ((exec_bind_of_ok hafter).trans hdelivered)

/-- Without a destination, everything is handed out, and no file changes. -/
theorem exec_deliver_none (d : Discovery) (items : List (SourceFile × InstrumentedFile)) (world : World) :
    ∃ after, (deliver none d items).exec world
        = (.ok (items.foldl (fun d item => d.add item.1.relative item.2) d), after)
      ∧ after.files = world.files := by
  induction items generalizing d world with
  | nil => exact ⟨world, rfl, rfl⟩
  | cons item rest ih =>
    obtain ⟨f, done⟩ := item
    -- only the log grows
    obtain ⟨logged, hout, hsame⟩ : ∃ logged, (handOut none f done).exec world = (.ok (), logged)
        ∧ logged.files = world.files := ⟨_, rfl, rfl⟩
    obtain ⟨after, hdeliver, hfiles⟩ := ih (d.add f.relative done) logged
    exact ⟨after, (exec_bind_of_ok hout).trans hdeliver, hfiles.trans hsame⟩

/-- If nothing is written, what can be read now can be read later. -/
theorem staysReadable_none {d : Discovery} {items : List (SourceFile × InstrumentedFile)} {world : World}
    (hread : ∀ item ∈ items, world.files.readText item.1.path = .ok item.1.source) :
    StaysReadable none d items world := by
  rintro front f done back d' after rfl hdelivered
  obtain ⟨after', hdeliver, hfiles⟩ := exec_deliver_none d front world
  cases hdelivered.symm.trans hdeliver
  rw [hfiles]
  exact hread (f, done) (by simp)

/-! ## A copy of the chart -/

/-- A directory has a copy of the files: at the path of each of them there is a file at a place of its own, and
none of these is a file that is read. -/
structure HoldsCopy (fs : FileSystem) (root : String) (files : List SourceFile) (places : List Location) :
    Prop where
  there : List.Forall₂ (fun f place => fs.Replaceable (Path.joinSegments root f.relative) place) files places
  distinct : places.Nodup
  apart : ∀ f ∈ files, ∃ place entry, fs.find .follow f.path = .ok (place, entry) ∧ place ∉ places

/-- A copy of files is a copy of some of them. -/
theorem HoldsCopy.filter {fs : FileSystem} {root : String} {files : List SourceFile} {places : List Location}
    (h : HoldsCopy fs root files places) (p : SourceFile → Bool) :
    ∃ kept : List Location, kept.Sublist places ∧ HoldsCopy fs root (files.filter p) kept := by
  obtain ⟨kept, hsub, hthere⟩ : ∃ kept : List Location, kept.Sublist places ∧ List.Forall₂
      (fun f place => fs.Replaceable (Path.joinSegments root f.relative) place) (files.filter p) kept := by
    have hthere := h.there
    clear h
    -- induction on the files: the place of a file that is left out is left out as well
    induction hthere with
    | nil => exact ⟨[], .slnil, .nil⟩
    | @cons f place files places hplace _ ih =>
      obtain ⟨kept, hsub, hkept⟩ := ih
      rw [List.filter_cons]
      split
      · exact ⟨place :: kept, hsub.cons_cons place, .cons hplace hkept⟩
      · exact ⟨kept, hsub.cons place, hkept⟩
  refine ⟨kept, hsub, hthere, h.distinct.sublist hsub, fun f hf => ?_⟩
  obtain ⟨place, entry, hfind, hplace⟩ := h.apart f (List.mem_of_mem_filter hf)
  exact ⟨place, entry, hfind, fun hmem => hplace (hsub.subset hmem)⟩

/-- The text of a file replaces its copy. -/
theorem exec_handOut_copy {root : String} {f : SourceFile} {world : World} {place : Location}
    (done : InstrumentedFile) (hsound : world.files.Sound)
    (hplace : world.files.Replaceable (Path.joinSegments root f.relative) place) :
    ∃ after, (handOut (some root) f done).exec world = (.ok (), after)
      ∧ world.files.Spares after.files (· ≠ place)
      ∧ after.files.readText (Path.joinSegments root f.relative) = .ok done.text := by
  obtain ⟨written, hwrite, hspares, hread⟩ := hplace.writeText hsound done.text
  have hbeneath : ∀ emitted, (writeBeneath root f.relative done.text).exec { world with emitted }
      = (.ok (), { files := written, emitted }) := by
    intro emitted
    unfold writeBeneath
    dsimp only
    cases hparent : Path.parent? (Path.joinSegments root f.relative) with
    | none => exact exec_write_of_ok hwrite
    | some parent =>
      -- the directory is there, so none is made
      have hdirectory := FileSystem.createDirectories_of_isDirectory (hplace.directory parent hparent)
      exact (exec_bind_of_ok (exec_change_of_ok hdirectory)).trans (exec_write_of_ok hwrite)
  obtain ⟨emitted, hout⟩ : ∃ emitted, (handOut (some root) f done).exec world
      = (.ok (), { files := written, emitted }) := by
    unfold handOut
    rw [exec_bind_of_ok (exec_emitAll _ world)]
    dsimp only
    rw [exec_bind_of_ok (hbeneath _), exec_log]
    exact ⟨_, rfl⟩
  exact ⟨_, hout, hspares, hread⟩

/-- **Files that are handed out to a copy** are all written, and nothing else changes. Induction on the files:
the later ones are written elsewhere, so each text stays as it was written. -/
theorem exec_deliver_copy {root : String} {d : Discovery} {items : List (SourceFile × InstrumentedFile)}
    {places : List Location} {world : World} (hsound : world.files.Sound)
    (hthere : List.Forall₂ (fun item place =>
      world.files.Replaceable (Path.joinSegments root item.1.relative) place) items places)
    (hdistinct : places.Nodup) :
    ∃ after, (deliver (some root) d items).exec world
        = (.ok (items.foldl (fun d item => d.add item.1.relative item.2) d), after)
      ∧ world.files.Spares after.files (· ∉ places)
      ∧ ∀ item ∈ items, after.files.readText (Path.joinSegments root item.1.relative) = .ok item.2.text := by
  induction items generalizing d places world with
  | nil => exact ⟨world, rfl, .refl _ _, fun _ hitem => nomatch hitem⟩
  | cons item rest ih =>
    obtain ⟨f, done⟩ := item
    obtain _ | ⟨hplace, hlater⟩ := hthere
    obtain ⟨hnew, hdistinct⟩ := List.nodup_cons.mp hdistinct
    obtain ⟨written, hout, hspares, hread⟩ := exec_handOut_copy done hsound hplace
    have hsound' := hspares.sound hsound
    obtain ⟨after, hdeliver, hspares', htexts⟩ :=
      ih (d := d.add f.relative done) hsound' (hlater.imp fun _ _ h => h.of_spares hspares) hdistinct
    refine ⟨after, (exec_bind_of_ok hout).trans hdeliver, ?_, List.forall_mem_cons.mpr ⟨?_, htexts⟩⟩
    · exact (hspares.trans hspares').imp fun l hl => List.ne_and_not_mem_of_not_mem_cons hl
    · -- the text is found where it was written, and the later files are written elsewhere
      obtain ⟨entry, hfind, hfile⟩ := (hplace.of_spares hspares).file
      exact (hspares'.readText_eq (hsound'.find_follow hfind hfile) hnew).trans hread

/-- In a copy of the chart, no source is overwritten. -/
theorem staysReadable_of_copy {root : String} {d : Discovery} {items : List (SourceFile × InstrumentedFile)}
    {places : List Location} {world : World} (hsound : world.files.Sound)
    (hcopy : HoldsCopy world.files root (items.map Prod.fst) places)
    (hread : ∀ item ∈ items, world.files.readText item.1.path = .ok item.1.source) :
    StaysReadable (some root) d items world := by
  rintro front f done back d' after rfl hdelivered
  -- the files in front are written to the first places
  have hthere := List.forall₂_take front.length (List.forall₂_map_left_iff.mp hcopy.there)
  rw [List.take_left'  rfl] at hthere
  have hsub := places.take_sublist front.length
  obtain ⟨after', hdeliver, hspares, -⟩ := exec_deliver_copy (d := d) hsound hthere (hcopy.distinct.sublist hsub)
  cases hdelivered.symm.trans hdeliver
  obtain ⟨place, entry, hfind, hplace⟩ := hcopy.apart f (by simp)
  exact (hspares.readText_eq hfind fun hmem => hplace (hsub.subset hmem)).trans (hread (f, done) (by simp))

end TemplateCoverage
