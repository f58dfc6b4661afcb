import TemplateCoverage.Proofs.Chart.Delivery

/-!
# Filters only restrict

The files of a chart share one allocator, so a file might get other branches where an earlier one is left
out. It does not: an ID that two files have in common is that of an arm in a helper, whose path comes
first, and helpers are never left out.

* **`instrumentFiles_filter`**: where the files that are left out share no ID with a later one, the other
  files are instrumented as before.
* **`Discovery.restrict`**: a discovery without the files that a condition leaves out.
* **`filters_restrict`**: all together, for a chart with its paths in order.
-/

namespace TemplateCoverage

/-! ## Files and allocators -/

section

variable {config : Config}

/-- A file is instrumented alike where the same ones of its IDs are taken. -/
theorem instrumentFile_congr {a a' : Allocator} {f : SourceFile}
    (h : ∀ id ∈ f.ids config.evaluators, id ∈ a.issued ↔ id ∈ a'.issued) :
    (instrumentFile config a f.toTemplateFile f.source).1
      = (instrumentFile config a' f.toTemplateFile f.source).1 := by
  have houtcomes := Allocator.assign_congr h
  unfold SourceFile.arms at houtcomes
  unfold instrumentFile
  simp only [houtcomes]

/-- Behind a file, its IDs are taken. -/
theorem mem_issued_instrumentFile {a : Allocator} {f : SourceFile} {id : BranchId} :
    id ∈ (instrumentFile config a f.toTemplateFile f.source).2.issued
      ↔ id ∈ a.issued ∨ id ∈ f.ids config.evaluators := by
  have hsame := congrArg Prod.snd (allocate_eq_instrumentFile config a f)
  rw [← hsame]
  exact Allocator.mem_issued_allocate

/-- Where the files that are left out share no ID with a later file that is kept, the files that are kept
are instrumented as before. Induction on the files, for all allocators in which the same IDs of the kept
files are taken. -/
theorem instrumentFiles_filter {p : SourceFile → Bool} {a a' : Allocator} {files : List SourceFile}
    (hsame : ∀ f ∈ files, p f = true →
      ∀ id ∈ f.ids config.evaluators, id ∈ a.issued ↔ id ∈ a'.issued)
    (hapart : files.Pairwise fun f g =>
      p f = false → ∀ id ∈ f.ids config.evaluators, id ∉ g.ids config.evaluators) :
    instrumentFiles config a' (files.filter p)
      = (instrumentFiles config a files).filter fun item => p item.1 := by
  induction files generalizing a a' with
  | nil => rfl
  | cons f rest ih =>
    obtain ⟨hf, hrest⟩ := List.forall_mem_cons.mp hsame
    obtain ⟨hfirst, hlater⟩ := List.pairwise_cons.mp hapart
    rw [instrumentFiles_cons]
    cases hp : p f with
    | true =>
      simp only [List.filter_cons, hp, if_true]
      rw [instrumentFiles_cons, instrumentFile_congr (hf hp)]
      refine congrArg _ (ih (fun g hg hpg id hid => ?_) hlater)
      rw [mem_issued_instrumentFile, mem_issued_instrumentFile, hrest g hg hpg id hid]
    | false =>
      simp only [List.filter_cons, hp, Bool.false_eq_true, if_false]
      -- the IDs of the file are taken for the other allocator only, and no later file has them
      refine ih (fun g hg hpg id hid => ?_) hlater
      rw [mem_issued_instrumentFile, ← hrest g hg hpg id hid]
      refine or_iff_left fun hown => ?_
      exact hfirst g hg hp id hown hid

/-- Where helpers are kept and the paths are in order, a file that is left out shares no ID with a later
one. -/
theorem pairwise_apart {p : SourceFile → Bool} {files : List SourceFile} (evaluators : List String)
    (hsorted : files.Pairwise fun f g => f.relative < g.relative)
    (hhelpers : ∀ f ∈ files, f.kind = .helper → p f = true) :
    files.Pairwise fun f g => p f = false → ∀ id ∈ f.ids evaluators, id ∉ g.ids evaluators := by
  refine hsorted.imp_of_mem ?_
  intro f g hf _ hlt hp id hidf hidg
  obtain ⟨a, ha, rfl⟩ := List.mem_map.mp hidf
  obtain ⟨b, hb, heq⟩ := List.mem_map.mp hidg
  have hne : f.relative ≠ g.relative := by
    intro hsame
    rw [hsame] at hlt
    exact String.lt_irrefl _ hlt
  rcases SourceFile.continues_of_id_eq hne ha hb heq.symm with hfg | hgf
  · -- the file that is left out would be a helper
    rw [hhelpers f hf hfg.helper] at hp
    cases hp
  · -- the path of the later file would come first
    obtain ⟨more, hpath⟩ := hgf.path
    rw [hpath, String.append_assoc] at hlt
    have hnot : ¬(g.relative ++ (":" ++ more)).toList < g.relative.toList := by
      rw [String.toList_append]
      exact List.not_lt.mpr List.le_append_left
    exact hnot hlt

/-! ## What files contribute -/

/-- The branches and the notes of an instrumented file name its path. -/
structure Owned (item : SourceFile × InstrumentedFile) : Prop where
  branches : ∀ b ∈ item.2.branches, b.file = item.1.relative
  notes : ∀ n ∈ item.2.notes, n.file = item.1.relative

theorem branches_instrumentFile (a : Allocator) (f : SourceFile) :
    (instrumentFile config a f.toTemplateFile f.source).1.branches
      = (a.allocate f.relative f.kind (f.arms config.evaluators)).1 := by
  rw [allocate_eq_instrumentFile]

/-- What comes of a file is about that file only. -/
theorem owned_instrumentFiles {a : Allocator} {files : List SourceFile}
    {item : SourceFile × InstrumentedFile} (h : item ∈ instrumentFiles config a files) :
    Owned item := by
  induction files generalizing a with
  | nil => cases h
  | cons f rest ih =>
    have hfile : Owned (f, (instrumentFile config a f.toTemplateFile f.source).1) := by
      refine ⟨fun b hb => ?_, ?_⟩
      · rw [branches_instrumentFile] at hb
        rw [Allocator.eq_ofArm_of_mem_allocate hb]
        rfl
      · unfold instrumentFile
        exact notesOf_scan config.evaluators f.relative f.source
    rw [instrumentFiles_cons] at h
    -- the allocator goes on from one file to the next, but what it has issued plays no part in this
    generalize instrumentFile config a f.toTemplateFile f.source = instrumented at h hfile
    rcases List.mem_cons.mp h with rfl | h
    · exact hfile
    · exact ih h

/-- The branches of an instrumented file have IDs of the file. -/
theorem mem_ids_of_mem_branches {a : Allocator} {f : SourceFile} {b : Branch}
    (hb : b ∈ (instrumentFile config a f.toTemplateFile f.source).1.branches) :
    b.id ∈ f.ids config.evaluators := by
  rw [branches_instrumentFile] at hb
  have harm := (Allocator.map_toArm_allocate ..).subset (List.mem_map_of_mem hb)
  rw [Allocator.eq_ofArm_of_mem_allocate hb]
  exact List.mem_map_of_mem harm

/-- All branches of the files have new and distinct IDs. Induction on the files, for every allocator. -/
theorem nodup_instrumentFiles (a : Allocator) (files : List SourceFile) :
    (((instrumentFiles config a files).flatMap (·.2.branches)).map (·.id)).Nodup
      ∧ ∀ b ∈ (instrumentFiles config a files).flatMap (·.2.branches), b.id ∉ a.issued := by
  induction files generalizing a with
  | nil => exact ⟨.nil, fun b hb => nomatch hb⟩
  | cons f rest ih =>
    obtain ⟨hrest, hlater⟩ := ih (instrumentFile config a f.toTemplateFile f.source).2
    have hfile : ((instrumentFile config a f.toTemplateFile f.source).1.branches.map (·.id)).Nodup
        ∧ ∀ b ∈ (instrumentFile config a f.toTemplateFile f.source).1.branches,
          b.id ∉ a.issued := by
      rw [branches_instrumentFile]
      exact Allocator.nodup_allocate
    have hids : ∀ b ∈ (instrumentFile config a f.toTemplateFile f.source).1.branches,
        b.id ∈ f.ids config.evaluators := fun b => mem_ids_of_mem_branches
    simp only [mem_issued_instrumentFile, not_or] at hlater
    rw [instrumentFiles_cons, List.flatMap_cons, List.map_append, List.nodup_append']
    generalize instrumentFile config a f.toTemplateFile f.source = instrumented
      at hrest hlater hfile hids ⊢
    refine ⟨⟨hfile.1, hrest, fun id hid hid' => ?_⟩, fun b hb => ?_⟩
    · -- the IDs of the first file are taken when the later ones are handed out
      obtain ⟨b, hb, rfl⟩ := List.mem_map.mp hid
      obtain ⟨b', hb', heq⟩ := List.mem_map.mp hid'
      exact (hlater b' hb').2 (heq ▸ hids b hb)
    · rcases List.mem_append.mp hb with hb | hb
      · exact hfile.2 b hb
      · exact (hlater b hb).1

end

/-! ## Discoveries -/

/-- What is discovered in files that have been instrumented. -/
def Discovery.ofFiles (items : List (SourceFile × InstrumentedFile)) : Discovery :=
  items.foldl (fun d item => d.add item.1.relative item.2) {}

/-- The discovery without the files whose paths a condition leaves out. -/
def Discovery.restrict (p : String → Bool) (d : Discovery) : Discovery :=
  { branches := d.branches.restrict fun b => p b.file
    notes := d.notes.filter fun n => p n.file
    files := d.files.filter p }

/-- A discovery is the branches, notes and files of its items, one item after the other. -/
theorem Discovery.foldl_add (d : Discovery) (items : List (SourceFile × InstrumentedFile)) :
    items.foldl (fun d item => d.add item.1.relative item.2) d
      = { branches := d.branches.extend (items.flatMap (·.2.branches))
          notes := d.notes ++ items.flatMap (·.2.notes)
          files := d.files ++ items.map (·.1.relative) } := by
  induction items generalizing d with
  | nil => simp
  | cons item rest ih =>
    rw [List.foldl_cons, ih]
    simp [Discovery.add, BranchIndex.extend_append]

/-- Where all that an item contributes is kept or left out together, items can be left out first. -/
theorem filter_flatMap {α β : Type} {g : α → List β} {p : α → Bool} {q : β → Bool} {items : List α}
    (h : ∀ item ∈ items, ∀ x ∈ g item, q x = p item) :
    (items.flatMap g).filter q = (items.filter p).flatMap g := by
  induction items with
  | nil => rfl
  | cons item rest ih =>
    obtain ⟨hitem, hrest⟩ := List.forall_mem_cons.mp h
    rw [List.flatMap_cons, List.filter_append, ih hrest, List.filter_cons]
    -- all of an item is kept, or nothing
    cases hp : p item with
    | true =>
      rw [List.filter_eq_self.mpr fun x hx => (hitem x hx).trans hp, if_pos rfl, List.flatMap_cons]
    | false =>
      rw [List.filter_eq_nil_iff.mpr fun x hx => by simp [hitem x hx, hp], if_neg (by simp),
        List.nil_append]

/-- A discovery is restricted by leaving out files. -/
theorem Discovery.restrict_ofFiles {items : List (SourceFile × InstrumentedFile)}
    (howned : ∀ item ∈ items, Owned item)
    (hnodup : ((items.flatMap (·.2.branches)).map (·.id)).Nodup) (p : String → Bool) :
    (Discovery.ofFiles items).restrict p
      = .ofFiles (items.filter fun item => p item.1.relative) := by
  -- a branch and a note belong to their file, so they are kept exactly if it is
  have hbranches := filter_flatMap (g := (·.2.branches)) (p := fun item => p item.1.relative)
    (q := fun b : Branch => p b.file) fun item hitem b hb =>
      congrArg p ((howned item hitem).branches b hb)
  have hnotes := filter_flatMap (g := (·.2.notes)) (p := fun item => p item.1.relative)
    (q := fun n : Note => p n.file) fun item hitem n hn =>
      congrArg p ((howned item hitem).notes n hn)
  have hfiles : (items.map (·.1.relative)).filter p
      = (items.filter fun item => p item.1.relative).map (·.1.relative) := List.filter_map
  unfold ofFiles
  rw [foldl_add, foldl_add]
  unfold restrict
  simp only [List.nil_append, hnotes, hfiles, ← hbranches]
  rw [BranchIndex.restrict_extend hnodup]

/-! ## Filters -/

namespace Chart

/-- The selected files of a chart with their source texts. -/
def sources (c : Chart) (source : TemplateFile → String) (filters : List String) :
    List SourceFile :=
  (c.selectedFiles filters).map fun f => ⟨f, source f⟩

/-- The selected files of a chart, instrumented with one allocator. -/
def instrumented (c : Chart) (config : Config) (source : TemplateFile → String)
    (filters : List String) : List (SourceFile × InstrumentedFile) :=
  instrumentFiles config {} (c.sources source filters)

/-- Whether a path is that of a selected file. -/
def selects (c : Chart) (filters : List String) (path : String) : Bool :=
  (c.selectedFiles filters).any fun f => f.relative = path

variable {c : Chart} {source : TemplateFile → String}

theorem map_fst_instrumented (c : Chart) (config : Config) (source : TemplateFile → String)
    (filters : List String) :
    (c.instrumented config source filters).map Prod.fst = c.sources source filters :=
  map_fst_instrumentFiles config {} _

/-- A selected file is instrumented. -/
theorem exists_mem_instrumented {config : Config} {filters : List String} {f : SourceFile}
    (hf : f ∈ c.sources source filters) : ∃ done, (f, done) ∈ c.instrumented config source filters := by
  rw [← map_fst_instrumented c config] at hf
  obtain ⟨⟨_, done⟩, hitem, rfl⟩ := List.mem_map.mp hf
  exact ⟨done, hitem⟩

/-- Without filters, all files are selected. -/
theorem selectedFiles_nil (c : Chart) : c.selectedFiles [] = c.files := by
  unfold selectedFiles filtersMatch
  simp

/-- Selecting files leaves out some of all the files. -/
theorem sources_eq (c : Chart) (source : TemplateFile → String) (filters : List String) :
    c.sources source filters
      = (c.sources source []).filter fun f => f.kind = .helper || filtersMatch f.relative filters := by
  unfold sources
  rw [selectedFiles_nil, selectedFiles, List.filter_map]
  rfl

/-- The files come in the order of their names. -/
theorem sorted_sources (hsorted : c.files.Pairwise fun f g => f.relative < g.relative) :
    (c.sources source []).Pairwise fun f g => f.relative < g.relative := by
  unfold sources
  rw [selectedFiles_nil, List.pairwise_map]
  exact hsorted

/-- The files that are instrumented under filters are instrumented as without filters. -/
theorem instrumented_eq (hsorted : c.files.Pairwise fun f g => f.relative < g.relative)
    (config : Config) (filters : List String) :
    c.instrumented config source filters
      = (c.instrumented config source []).filter fun item =>
        item.1.kind = .helper || filtersMatch item.1.relative filters := by
  unfold instrumented
  rw [sources_eq]
  refine instrumentFiles_filter (fun _ _ _ _ _ => Iff.rfl) ?_
  refine pairwise_apart config.evaluators (sorted_sources hsorted) fun f _ hhelper => ?_
  simp [hhelper]

/-- The paths of the selected files tell them from the other ones. -/
theorem selects_iff (hsorted : c.files.Pairwise fun f g => f.relative < g.relative)
    (filters : List String) {item : SourceFile × InstrumentedFile} {config : Config}
    (h : item ∈ c.instrumented config source []) :
    c.selects filters item.1.relative
      = (decide (item.1.kind = .helper) || filtersMatch item.1.relative filters) := by
  have hitem : item.1 ∈ c.sources source [] := by
    rw [← map_fst_instrumented c config]
    exact List.mem_map_of_mem h
  obtain ⟨f, hf, hitem⟩ := List.mem_map.mp hitem
  rw [selectedFiles_nil] at hf
  rw [← hitem, Bool.eq_iff_iff]
  unfold selects
  rw [List.any_eq_true]
  constructor
  · rintro ⟨g, hg, hpath⟩
    obtain ⟨hg, hselected⟩ := List.mem_filter.mp hg
    -- no two files have the same path
    have hsame : g = f := by
      have hnodup : (c.files.map (·.relative)).Nodup := by
        refine (List.pairwise_map.mpr hsorted).imp fun hlt heq => ?_
        rw [heq] at hlt
        exact String.lt_irrefl _ hlt
      exact List.inj_on_of_nodup_map hnodup hg hf (by simpa using hpath)
    rwa [hsame] at hselected
  · exact fun hselected => ⟨f, List.mem_filter.mpr ⟨hf, hselected⟩, by simp⟩

/-- The filters only matter to which files are instrumented. -/
theorem instrumentFiles_filters (config : Config) (filters : List String) (a : Allocator)
    (files : List SourceFile) :
    instrumentFiles { config with filters } a files = instrumentFiles config a files := by
  induction files generalizing a with
  | nil => rfl
  | cons f rest ih =>
    have hfile : instrumentFile { config with filters } a f.toTemplateFile f.source
      = instrumentFile config a f.toTemplateFile f.source := rfl
    rw [instrumentFiles_cons, ih, hfile, instrumentFiles_cons]

theorem map_sources (c : Chart) (source : TemplateFile → String) (filters : List String) :
    (c.sources source filters).map SourceFile.toTemplateFile = c.selectedFiles filters := by
  unfold sources
  rw [List.map_map]
  exact List.map_id _

/-- The files of a chart that are instrumented are read as the sources they were instrumented from. -/
theorem readText_instrumented {world : World}
    (hread : ∀ f ∈ c.files, world.files.readText f.path = .ok (source f)) (config : Config)
    (filters : List String) :
    ∀ item ∈ c.instrumented config source filters,
      world.files.readText item.1.path = .ok item.1.source := by
  intro item hitem
  have hmem : item.1 ∈ c.sources source filters := by
    rw [← map_fst_instrumented c config]
    exact List.mem_map_of_mem hitem
  -- each item is one of the files of the chart
  obtain ⟨file, hfile, hsame⟩ := List.mem_map.mp hmem
  rw [← hsame]
  exact hread file (List.mem_of_mem_filter hfile)

/-- The selected files are instrumented and handed out, as long as none is overwritten before its turn. -/
theorem exec_processFiles_sources {world : World} {config : Config} {filters : List String}
    {destination : Option String}
    (hstays : StaysReadable destination {} (c.instrumented config source filters) world) :
    (processFiles { config with filters } destination {} {} (c.selectedFiles filters)).exec world
      = (deliver destination {} (c.instrumented config source filters)).exec world := by
  unfold instrumented at hstays ⊢
  rw [← instrumentFiles_filters config filters] at hstays ⊢
  rw [← map_sources c source, exec_processFiles hstays]

open Activity in
/-- Discovering succeeds, with what the instrumented files contribute. -/
theorem exec_discover {world : World}
    (hread : ∀ f ∈ c.files, world.files.readText f.path = .ok (source f)) (config : Config)
    (filters : List String) :
    ∃ after, (c.discover { config with filters }).exec world
      = (.ok (.ofFiles (c.instrumented config source filters)), after) := by
  -- without a destination nothing is written, so every file can still be read
  obtain ⟨delivered, hdeliver, -⟩ :=
    exec_deliver_none {} (c.instrumented config source filters) world
  have hfiles : (processFiles { config with filters } none {} {} (c.selectedFiles filters)).exec world
      = (.ok (.ofFiles (c.instrumented config source filters)), delivered) :=
    (exec_processFiles_sources (staysReadable_none (readText_instrumented hread config filters))).trans
      hdeliver
  unfold discover process
  rw [exec_bind_of_ok hfiles, exec_bind_of_ok (exec_log _ _)]
  exact ⟨_, rfl⟩

/-- A copy of the chart has one of the selected files. -/
theorem holdsCopy_instrumented {fs : FileSystem} {root : String} {places : List Location}
    (hcopy : HoldsCopy fs root (c.sources source []) places) (config : Config) (filters : List String) :
    ∃ kept : List Location, kept.Sublist places
      ∧ HoldsCopy fs root ((c.instrumented config source filters).map Prod.fst) kept := by
  rw [map_fst_instrumented, sources_eq]
  exact hcopy.filter _

/-- In a copy of the chart, no source is overwritten. -/
theorem staysReadable_instrumented {world : World} {root : String} {places : List Location}
    (hread : ∀ f ∈ c.files, world.files.readText f.path = .ok (source f)) (config : Config)
    (filters : List String) (hsound : world.files.Sound)
    (hcopy : HoldsCopy world.files root (c.sources source []) places) :
    StaysReadable (some root) {} (c.instrumented config source filters) world := by
  obtain ⟨kept, -, hkept⟩ := holdsCopy_instrumented hcopy config filters
  exact staysReadable_of_copy hsound hkept (readText_instrumented hread config filters)

/-- In a copy of the chart, the selected files get their instrumented texts. -/
theorem exec_processFiles_copy {world : World}
    (hread : ∀ f ∈ c.files, world.files.readText f.path = .ok (source f)) (config : Config)
    (filters : List String) {root : String} {places : List Location} (hsound : world.files.Sound)
    (hcopy : HoldsCopy world.files root (c.sources source []) places) :
    ∃ after, (processFiles { config with filters } (some root) {} {} (c.selectedFiles filters)).exec world
        = (.ok (.ofFiles (c.instrumented config source filters)), after)
      ∧ world.files.Spares after.files (· ∉ places)
      ∧ ∀ f done, (f, done) ∈ c.instrumented config source filters →
        after.files.readText (Path.joinSegments root f.relative) = .ok done.text := by
  -- the copy has a place for each file that is selected
  obtain ⟨kept, hsub, hkept⟩ := holdsCopy_instrumented hcopy config filters
  have hthere := hkept.there
  rw [List.forall₂_map_left_iff] at hthere
  obtain ⟨after, hdeliver, hspares, htexts⟩ := exec_deliver_copy (d := {}) hsound hthere hkept.distinct
  have hstays := staysReadable_instrumented hread config filters hsound hcopy
  refine ⟨after, (exec_processFiles_sources hstays).trans hdeliver, ?_, fun f done => htexts (f, done)⟩
  exact hspares.imp fun place hplace hmem => hplace (hsub.subset hmem)

/-- The discovery under filters is that without filters, restricted to the selected files. -/
theorem ofFiles_instrumented (hsorted : c.files.Pairwise fun f g => f.relative < g.relative)
    (config : Config) (filters : List String) :
    Discovery.ofFiles (c.instrumented config source filters)
      = (Discovery.ofFiles (c.instrumented config source [])).restrict (c.selects filters) := by
  have howned : ∀ item ∈ c.instrumented config source [], Owned item := fun item hitem =>
    owned_instrumentFiles hitem
  rw [Discovery.restrict_ofFiles howned (nodup_instrumentFiles _ _).1, instrumented_eq hsorted]
  refine congrArg _ (List.filter_congr fun item hitem => ?_)
  exact (selects_iff hsorted filters hitem).symm

/-- No file is instrumented twice. -/
theorem instrumented_unique (hsorted : c.files.Pairwise fun f g => f.relative < g.relative)
    {config : Config} {f : SourceFile} {done done' : InstrumentedFile}
    (h : (f, done) ∈ c.instrumented config source [])
    (h' : (f, done') ∈ c.instrumented config source []) : done = done' := by
  have hnodup : ((c.instrumented config source []).map Prod.fst).Nodup := by
    rw [map_fst_instrumented]
    refine (sorted_sources hsorted).imp fun hlt heq => ?_
    rw [heq] at hlt
    exact String.lt_irrefl _ hlt
  exact (Prod.mk.inj (List.inj_on_of_nodup_map hnodup h h' rfl)).2

end Chart

/-- **Filters only restrict.** In a chart whose paths are in order and whose files can be read, a file that
two lists of filters select is instrumented alike under both, with the same branches, notes and text. What
is discovered under filters is what is discovered without them, restricted to the selected files. Helpers
are always selected. What is written beneath a destination are the instrumented texts as well, as long as no
source is overwritten before it is read. In a copy of the chart they are found in the end, in the places of
the selected files, and everything else is as it was. -/
theorem filters_restrict {c : Chart} {world : World} {source : TemplateFile → String}
    (hsorted : c.files.Pairwise fun f g => f.relative < g.relative)
    (hread : ∀ f ∈ c.files, world.files.readText f.path = .ok (source f)) (config : Config)
    (filters filters' : List String) :
    (c.instrumented config source filters).map (·.1.toTemplateFile) = c.selectedFiles filters
      ∧ (∀ f done done', (f, done) ∈ c.instrumented config source filters →
        (f, done') ∈ c.instrumented config source filters' → done = done')
      ∧ (∃ d full after after',
        (c.discover { config with filters }).exec world = (.ok d, after)
        ∧ (c.discover { config with filters := [] }).exec world = (.ok full, after')
        ∧ d = .ofFiles (c.instrumented config source filters)
        ∧ d = full.restrict (c.selects filters))
      ∧ (∀ f ∈ c.files, f.kind = .helper → f ∈ c.selectedFiles filters)
      ∧ (∀ destination, StaysReadable destination {} (c.instrumented config source filters) world →
        (processFiles { config with filters } destination {} {} (c.selectedFiles filters)).exec world
          = (deliver destination {} (c.instrumented config source filters)).exec world)
      ∧ ∀ root places, world.files.Sound → HoldsCopy world.files root (c.sources source []) places →
        ∃ after, (processFiles { config with filters } (some root) {} {}
            (c.selectedFiles filters)).exec world
            = (.ok (.ofFiles (c.instrumented config source filters)), after)
          ∧ world.files.Spares after.files (· ∉ places)
          ∧ ∀ f done, (f, done) ∈ c.instrumented config source filters →
            after.files.readText (Path.joinSegments root f.relative) = .ok done.text := by
  refine ⟨?_, fun f done done' h h' => ?_, ?_, fun f hf hhelper => ?_, fun destination hstays =>
    Chart.exec_processFiles_sources hstays, fun root places hsound hcopy =>
    Chart.exec_processFiles_copy hread config filters hsound hcopy⟩
  · rw [← Chart.map_sources c source, ← Chart.map_fst_instrumented c config, List.map_map]
    rfl
  · -- both are parts of what comes of the whole chart, in which each file is there once
    rw [Chart.instrumented_eq hsorted] at h h'
    exact Chart.instrumented_unique hsorted (List.mem_of_mem_filter h) (List.mem_of_mem_filter h')
  · obtain ⟨after, hpart⟩ := Chart.exec_discover hread config filters
    obtain ⟨after', hfull⟩ := Chart.exec_discover hread config []
    exact ⟨_, _, after, after', hpart, hfull, rfl, Chart.ofFiles_instrumented hsorted config filters⟩
  · -- helpers are selected by every filter
    exact List.mem_filter.mpr ⟨hf, by simp [hhelper]⟩

/-- A helper with a body. -/
def clashingHelper : SourceFile :=
  ⟨⟨"templates/_h.tpl", "/h", .helper⟩,
    "\x7b\x7b define \"d/cm.yaml\" \x7d\x7d\x7b\x7b end \x7d\x7d"⟩

/-- A template whose path goes on with a colon and the name of that body. -/
def clashingTemplate : SourceFile :=
  ⟨⟨"templates/_h.tpl:d/cm.yaml", "/d", .template⟩,
    "\x7b\x7b if .a \x7d\x7d\x7b\x7b end \x7d\x7d"⟩

/-- A template with nothing in common with them. -/
def lastTemplate : SourceFile :=
  ⟨⟨"templates/cm.yaml", "/c", .template⟩,
    "\x7b\x7b if .a \x7d\x7d\x7b\x7b else \x7d\x7d\x7b\x7b end \x7d\x7d"⟩

/-- The chart of the three files. -/
def clashingChart : Chart :=
  { root := "/", manifest := { name := "demo", version := none, description := none }
    files := [clashingHelper.toTemplateFile, clashingTemplate.toTemplateFile,
      lastTemplate.toTemplateFile] }

/-- The source text of a file of the chart. -/
def clashingText (file : TemplateFile) : String :=
  if file.path = "/h" then clashingHelper.source
  else if file.path = "/d" then clashingTemplate.source else lastTemplate.source

/-- The three files, and a copy of each of them beneath `/out`. -/
def clashingFiles : FileSystem :=
  let fs := ({} : FileSystem).put ["h"] (.file clashingHelper.source.toUTF8 false)
  let fs := fs.put ["d"] (.file clashingTemplate.source.toUTF8 false)
  let fs := fs.put ["c"] (.file lastTemplate.source.toUTF8 false)
  let fs := fs.put ["out"] .directory
  let fs := fs.put ["out", "templates"] .directory
  let fs := fs.put ["out", "templates", "_h.tpl"] (.file clashingHelper.source.toUTF8 false)
  let fs := fs.put ["out", "templates", "_h.tpl:d"] .directory
  let fs := fs.put ["out", "templates", "_h.tpl:d", "cm.yaml"] (.file clashingTemplate.source.toUTF8 false)
  fs.put ["out", "templates", "cm.yaml"] (.file lastTemplate.source.toUTF8 false)

theorem sound_clashingFiles : clashingFiles.Sound := by
  unfold clashingFiles
  -- every entry is put into a directory that was put there before
  iterate 9
    refine FileSystem.Sound.put_last ?_ (by simp) (by simp) (by decide) (by decide) (by simp)
  exact FileSystem.Sound.empty

/-- A world where the three files can be read. -/
def clashingWorld : World :=
  { files := clashingFiles }

/-- The three files stand at the root. -/
theorem readText_clashingWorld : ∀ f ∈ clashingChart.files,
    clashingWorld.files.readText f.path = .ok (clashingText f) := by
  have hroot : ∀ f ∈ [clashingHelper, clashingTemplate, lastTemplate], ∀ name : String,
      FileSystem.checkPath f.path = .ok () → Path.isAbsolute f.path = true →
      FileSystem.searchSegments f.path = [name] → FileSystem.IsPlain name →
      clashingWorld.files.entry? [name] = some (.file f.source.toUTF8 false) →
      clashingWorld.files.readText f.path = .ok f.source := by
    intro f hf name hpath habsolute hsegments hname hentry
    have htext : ∀ f ∈ [clashingHelper, clashingTemplate, lastTemplate],
        Text.Utf8.decode? f.source.toUTF8 = some f.source := by decide
    exact FileSystem.readText_of_root hpath habsolute hsegments hname hentry (htext f hf)
  intro f hf
  simp only [clashingChart, List.mem_cons, List.not_mem_nil, or_false] at hf
  rcases hf with rfl | rfl | rfl
  · exact hroot clashingHelper (by simp) "h" rfl (by decide) (by decide) (by decide)
      (by simp [clashingWorld, clashingFiles])
  · exact hroot clashingTemplate (by simp) "d" rfl (by decide) (by decide) (by decide)
      (by simp [clashingWorld, clashingFiles])
  · exact hroot lastTemplate (by simp) "c" rfl (by decide) (by decide) (by decide)
      (by simp [clashingWorld, clashingFiles])

/-- Where the copies of the three files are. -/
def clashingPlaces : List Location :=
  [["out", "templates", "_h.tpl"], ["out", "templates", "_h.tpl:d", "cm.yaml"],
    ["out", "templates", "cm.yaml"]]

theorem sources_clashingChart :
    clashingChart.sources clashingText [] = [clashingHelper, clashingTemplate, lastTemplate]
      ∧ clashingChart.sources clashingText ["templates/cm.yaml"] = [clashingHelper, lastTemplate] :=
  ⟨rfl, rfl⟩

/-- A copy of all three files stands below `/out`, apart from the files themselves. -/
theorem holdsCopy_clashingFiles :
    HoldsCopy clashingFiles "/out" (clashingChart.sources clashingText []) clashingPlaces := by
  have hfile : ∀ text : String, Entry.IsFile (.file text.toUTF8 false) := fun text => ⟨_, _, rfl⟩
  have hroot : ∀ (f : SourceFile) (name : String), FileSystem.checkPath f.path = .ok () →
      Path.isAbsolute f.path = true → FileSystem.searchSegments f.path = [name] → FileSystem.IsPlain name →
      clashingFiles.entry? [name] = some (.file f.source.toUTF8 false) → [name] ∉ clashingPlaces →
      ∃ place entry, clashingFiles.find .follow f.path = .ok (place, entry) ∧ place ∉ clashingPlaces := by
    intro f name hpath habsolute hsegments hname hentry hplace
    refine ⟨[name], _, FileSystem.find_of_walk hpath ?_ hentry, hplace⟩
    rw [FileSystem.start, if_pos habsolute, hsegments]
    exact FileSystem.walk_file hname (by decide) hentry
  rw [sources_clashingChart.1]
  refine ⟨.cons ?_ (.cons ?_ (.cons ?_ .nil)), by decide, ?_⟩
  · have hentry : clashingFiles.entry? (["out", "templates"] ++ ["_h.tpl"])
      = some (.file clashingHelper.source.toUTF8 false) := by simp [clashingFiles]
    exact sound_clashingFiles.replaceable hentry (hfile _) (by decide) (by decide)
      (by decide) (by decide)
  · have hentry : clashingFiles.entry? (["out", "templates", "_h.tpl:d"] ++ ["cm.yaml"])
      = some (.file clashingTemplate.source.toUTF8 false) := by simp [clashingFiles]
    exact sound_clashingFiles.replaceable hentry (hfile _) (by decide) (by decide)
      (by decide) (by decide)
  · have hentry : clashingFiles.entry? (["out", "templates"] ++ ["cm.yaml"])
      = some (.file lastTemplate.source.toUTF8 false) := by simp [clashingFiles]
    exact sound_clashingFiles.replaceable hentry (hfile _) (by decide) (by decide)
      (by decide) (by decide)
  · -- what is read is not what is written
    intro f hf
    simp only [List.mem_cons, List.not_mem_nil, or_false] at hf
    rcases hf with rfl | rfl | rfl
    · exact hroot clashingHelper "h" rfl (by decide) (by decide) (by decide) (by simp [clashingFiles])
        (by decide)
    · exact hroot clashingTemplate "d" rfl (by decide) (by decide) (by decide) (by simp [clashingFiles])
        (by decide)
    · exact hroot lastTemplate "c" rfl (by decide) (by decide) (by decide) (by simp [clashingFiles])
        (by decide)

/-- A chart with an ID in two files, where one of the two is left out. Under the filter or without it, the
template that both select gets the same text in the copy of the chart. -/
theorem filters_restrict_clashing :
    clashingHelper.ids [] = clashingTemplate.ids []
      ∧ (clashingChart.selectedFiles ["templates/cm.yaml"]).length = 2
      ∧ (∃ d full after after',
        (clashingChart.discover { filters := ["templates/cm.yaml"], evaluators := [] }).exec
          clashingWorld = (.ok d, after)
        ∧ (clashingChart.discover { filters := [], evaluators := [] }).exec clashingWorld
          = (.ok full, after')
        ∧ d = full.restrict (clashingChart.selects ["templates/cm.yaml"]))
      ∧ StaysReadable (some "/out") {}
        (clashingChart.instrumented { evaluators := [] } clashingText ["templates/cm.yaml"]) clashingWorld
      ∧ ∃ d full after after' text,
        (processFiles { filters := ["templates/cm.yaml"], evaluators := [] } (some "/out") {} {}
          (clashingChart.selectedFiles ["templates/cm.yaml"])).exec clashingWorld = (.ok d, after)
        ∧ (processFiles { filters := [], evaluators := [] } (some "/out") {} {}
          (clashingChart.selectedFiles [])).exec clashingWorld = (.ok full, after')
        ∧ after.files.readText "/out/templates/cm.yaml" = .ok text
        ∧ after'.files.readText "/out/templates/cm.yaml" = .ok text := by
  have hsorted : clashingChart.files.Pairwise fun f g => f.relative < g.relative := by
    decide
  -- the general statement twice: for the filter, and for no filter
  obtain ⟨-, hsame, ⟨d, full, after, after', hpart, hfull, -, hrestrict⟩, -, -, hcopy⟩ :=
    filters_restrict hsorted readText_clashingWorld { evaluators := [] } ["templates/cm.yaml"] []
  obtain ⟨-, -, -, -, -, hcopy'⟩ :=
    filters_restrict hsorted readText_clashingWorld { evaluators := [] } [] []
  obtain ⟨written, hwritten, -, htexts⟩ := hcopy "/out" _ sound_clashingFiles holdsCopy_clashingFiles
  obtain ⟨written', hwritten', -, htexts'⟩ := hcopy' "/out" _ sound_clashingFiles holdsCopy_clashingFiles
  obtain ⟨done, hdone⟩ : ∃ done, (lastTemplate, done) ∈ clashingChart.instrumented { evaluators := [] }
      clashingText ["templates/cm.yaml"] :=
    Chart.exists_mem_instrumented (by rw [sources_clashingChart.2]; simp)
  obtain ⟨done', hdone'⟩ : ∃ done, (lastTemplate, done) ∈ clashingChart.instrumented { evaluators := [] }
      clashingText [] :=
    Chart.exists_mem_instrumented (by rw [sources_clashingChart.1]; simp)
  have htarget : Path.joinSegments "/out" lastTemplate.relative = "/out/templates/cm.yaml" := by
    decide
  have htext := htexts lastTemplate done hdone
  have htext' := htexts' lastTemplate done' hdone'
  rw [htarget] at htext htext'
  -- both write the same text to the same place
  rw [← hsame lastTemplate done done' hdone hdone'] at htext'
  refine ⟨by decide, by decide, ⟨d, full, after, after', hpart, hfull, hrestrict⟩, ?_, ?_⟩
  · exact Chart.staysReadable_instrumented readText_clashingWorld _ _ sound_clashingFiles
      holdsCopy_clashingFiles
  · exact ⟨_, _, written, written', done.text, hwritten, hwritten', htext, htext'⟩

end TemplateCoverage
