import TemplateCoverage.Discovery
import TemplateCoverage.Proofs.Branch.Allocation
import TemplateCoverage.Proofs.Branch.Identifier
import TemplateCoverage.Proofs.Branch.Index
import TemplateCoverage.Proofs.Run.Activity

/-!
# The branches of a chart

The files of a chart share one allocator, and their branches go to one index. An arm is lost if its ID
was handed out before. This happens in no file by itself, and between two files only where the path of
one goes on with a colon where the other one, a helper, is followed by the name of a body.

* **`allocateFiles`**: the branches of files that share an allocator. The index that a chart is
  processed to is made of these (`branches_of_process`).
* **`continues_of_id_eq`**: an ID in two files shows how their paths are related.
* **`allocateFiles_of_fresh`**: the induction over the files.
* **`pointIds_identify`**: all together. If no path continues another one, then no arm is lost, and the
  index has one branch for each closing token of the chart.
-/

namespace TemplateCoverage

/-- A template file of a chart with its source text. -/
structure SourceFile extends TemplateFile where
  source : String

namespace SourceFile

variable (evaluators : List String)

/-- The arms of the file. -/
def arms (f : SourceFile) : List Arm :=
  Finding.arms (scan evaluators f.relative f.source)

/-- The IDs of the arms of the file. -/
def ids (f : SourceFile) : List BranchId :=
  (f.arms evaluators).map (Branch.pointId f.relative f.kind)

/-- A branch for every arm of the file. -/
def branches (f : SourceFile) : List Branch :=
  (f.arms evaluators).map (Branch.ofArm f.relative f.kind)

/-- The tokens of the file that close an arm. -/
def closers (f : SourceFile) : List Token :=
  (tokensOf evaluators f.source.toList).filter Token.yields

end SourceFile

/-- The branches that files get from one allocator, in order. -/
def allocateFiles (evaluators : List String) : Allocator → List SourceFile → List (List Branch)
  | _, [] => []
  | a, f :: rest =>
    let (branches, later) := a.allocate f.relative f.kind (f.arms evaluators)
    branches :: allocateFiles evaluators later rest

/-- The index of the branches that files get from a new allocator. -/
def indexFiles (evaluators : List String) (files : List SourceFile) : BranchIndex :=
  BranchIndex.empty.extend (allocateFiles evaluators {} files).flatten

/-! ## Charts are processed like this -/

/-- The branches of an instrumented file are those that its arms get. -/
theorem allocate_eq_instrumentFile (config : Config) (a : Allocator) (f : SourceFile) :
    a.allocate f.relative f.kind (f.arms config.evaluators)
      = ((instrumentFile config a f.toTemplateFile f.source).1.branches,
          (instrumentFile config a f.toTemplateFile f.source).2) := by
  dsimp only [instrumentFile, Allocator.allocate, SourceFile.arms]

open Activity in
/-- What is discovered in the files of a chart are the branches that they get from one allocator, with
the source texts as they are read. Induction on the files. -/
theorem branches_of_processFiles {config : Config} {destination : Option String} {a : Allocator}
    {d d' : Discovery} {files : List TemplateFile} {world last : World}
    (h : (processFiles config destination a d files).exec world = (.ok d', last)) :
    ∃ sources : List SourceFile, sources.map SourceFile.toTemplateFile = files
      ∧ (∀ f ∈ sources, ∃ fs : FileSystem, fs.readText f.path = .ok f.source)
      ∧ d'.branches = d.branches.extend (allocateFiles config.evaluators a sources).flatten := by
  induction files generalizing a d world with
  | nil =>
    cases h
    exact ⟨[], rfl, fun f hf => (nomatch hf), rfl⟩
  | cons file rest ih =>
    unfold processFiles at h
    obtain ⟨fs, w₁, -, h⟩ := exec_bind_ok h
    obtain ⟨source, w₂, hread, h⟩ := exec_bind_ok h
    have hsource : fs.readText file.path = .ok source := by
      cases hfs : fs.readText file.path with
      | error e =>
        rw [hfs] at hread
        cases hread
      | ok text =>
        rw [hfs] at hread
        cases hread
        rfl
    generalize hfile : instrumentFile config a file source = instrumented at h
    obtain ⟨done, later⟩ := instrumented
    dsimp only at h
    -- nothing that happens to the files or to the log matters to what is discovered
    obtain ⟨-, w₃, -, h⟩ := exec_bind_ok h
    have hrest : ∃ w, (processFiles config destination later (d.add file.relative done) rest).exec w
        = (.ok d', last) := by
      cases destination with
      | none =>
        obtain ⟨-, w, -, h⟩ := exec_bind_ok h
        exact ⟨w, h⟩
      | some root =>
        obtain ⟨-, w, -, h⟩ := exec_bind_ok h
        obtain ⟨-, w', -, h⟩ := exec_bind_ok h
        exact ⟨w', h⟩
    obtain ⟨w, hrest⟩ := hrest
    obtain ⟨sources, hfiles, hreads, hbranches⟩ := ih hrest
    refine ⟨⟨file, source⟩ :: sources, by rw [List.map_cons, hfiles],
      List.forall_mem_cons.mpr ⟨⟨fs, hsource⟩, hreads⟩, ?_⟩
    rw [hbranches, allocateFiles, allocate_eq_instrumentFile, hfile]
    exact (BranchIndex.extend_append ..).symm

open Activity in
/-- The index of a chart that is processed is that of its selected files, with the source texts as they
are read. -/
theorem branches_of_process {c : Chart} {config : Config} {destination : Option String}
    {d : Discovery} {world last : World}
    (h : (c.process config destination).exec world = (.ok d, last)) :
    ∃ sources : List SourceFile,
      sources.map SourceFile.toTemplateFile = c.selectedFiles config.filters
      ∧ (∀ f ∈ sources, ∃ fs : FileSystem, fs.readText f.path = .ok f.source)
      ∧ d.branches = indexFiles config.evaluators sources := by
  unfold Chart.process at h
  -- the index is that of the files, whatever is logged behind it
  obtain ⟨found, after, hfound, h⟩ := exec_bind_ok h
  obtain ⟨-, after', -, h⟩ := exec_bind_ok h
  cases h
  exact branches_of_processFiles hfound

/-! ## IDs in two files -/

namespace SourceFile

variable {evaluators : List String}

/-- Two files have an ID in common only if the path of one continues that of the other. -/
theorem continues_of_id_eq {f g : SourceFile} {a b : Arm} (hne : f.relative ≠ g.relative)
    (ha : a ∈ f.arms evaluators) (hb : b ∈ g.arms evaluators)
    (heq : Branch.pointId f.relative f.kind a = Branch.pointId g.relative g.kind b) :
    Branch.Continues f.relative f.kind a.define g.relative
      ∨ Branch.Continues g.relative g.kind b.define f.relative :=
  Branch.continues_of_append_eq hne
    (Branch.pointId_inj (spanned_scan ha) (spanned_scan hb) heq).1

end SourceFile

/-- No path of the files is that of a helper with an arm in a body, and a colon and whatever behind
it. -/
def Apart (evaluators : List String) (files : List SourceFile) : Prop :=
  ∀ f ∈ files, ∀ a ∈ f.arms evaluators, ∀ g ∈ files,
    ¬Branch.Continues f.relative f.kind a.define g.relative

section

variable {evaluators : List String} {files : List SourceFile}

/-- Where no path continues another one, all IDs of a chart are distinct. -/
theorem nodup_flatMap_ids (hpaths : (files.map (·.relative)).Nodup)
    (hapart : Apart evaluators files) : (files.flatMap (SourceFile.ids evaluators)).Nodup := by
  rw [List.nodup_flatMap]
  refine ⟨fun f _ => Branch.nodup_pointId_scan evaluators f.relative f.kind f.source, ?_⟩
  refine List.Pairwise.imp_of_mem ?_ (List.pairwise_map.mp hpaths)
  intro f g hf hg hne id hidf hidg
  obtain ⟨a, ha, rfl⟩ := List.mem_map.mp hidf
  obtain ⟨b, hb, heq⟩ := List.mem_map.mp hidg
  rcases SourceFile.continues_of_id_eq hne ha hb heq.symm with hfg | hgf
  · exact hapart f hf a ha g hg hfg
  · exact hapart g hg b hb f hf hgf

/-- Where the IDs of the files are new and distinct, every arm gets its branch. Induction on the files,
for every allocator: behind a file, its own IDs are taken, and the later files have none of them. -/
theorem allocateFiles_of_fresh {a : Allocator}
    (hnodup : (files.flatMap (SourceFile.ids evaluators)).Nodup)
    (hfresh : ∀ id ∈ files.flatMap (SourceFile.ids evaluators), id ∉ a.issued) :
    allocateFiles evaluators a files = files.map (SourceFile.branches evaluators) := by
  induction files generalizing a with
  | nil => rfl
  | cons f rest ih =>
    rw [List.flatMap_cons] at hnodup hfresh
    obtain ⟨hfile, hrest, hdisjoint⟩ := List.nodup_append'.mp hnodup
    have hfirst : (a.allocate f.relative f.kind (f.arms evaluators)).1 = f.branches evaluators :=
      Allocator.allocate_of_fresh hfile fun id hid => hfresh id (List.mem_append_left _ hid)
    unfold allocateFiles
    dsimp only
    rw [hfirst, List.map_cons]
    -- the IDs of the files are apart, so what the first one has issued is not asked for again
    refine congrArg _ (ih hrest fun id hid hissued => ?_)
    rcases Allocator.mem_issued_allocate.mp hissued with hold | hown
    · exact hfresh id (List.mem_append_right _ hid) hold
    · exact hdisjoint hown hid

/-! ## Branches and tokens -/

/-- The branch is one of the file, and the token closes its arm. -/
structure Branch.ClosedIn (b : Branch) (f : SourceFile) (t : Token) : Prop where
  file : b.file = f.relative
  kind : b.kind = f.kind
  closed : b.toArm.ClosedBy t

/-- The branches of a file are those of its closing tokens, one for one. -/
theorem SourceFile.closedIn_branches (evaluators : List String) (f : SourceFile) :
    List.Forall₂ (fun b t => Branch.ClosedIn b f t) (f.branches evaluators)
      (f.closers evaluators) := by
  refine List.forall₂_map_left_iff.mpr ?_
  exact (arms_scanTokens_closedBy f.relative _).imp fun a t hclosed => ⟨rfl, rfl, hclosed⟩

end

/-- **Point IDs identify branches.** In one file, no two arms have the same ID. Two files have one in
common only if one path is that of a helper, the other path is the same with a colon and whatever
behind it, and the arm in the helper stands in a body. So in a chart without such paths no arm is left
out, and the index has exactly one branch for each closing token. -/
theorem pointIds_identify (evaluators : List String) :
    (∀ f : SourceFile, (f.ids evaluators).Nodup)
      ∧ (∀ f g : SourceFile, f.relative ≠ g.relative →
        ∀ a ∈ f.arms evaluators, ∀ b ∈ g.arms evaluators,
          Branch.pointId f.relative f.kind a = Branch.pointId g.relative g.kind b →
          Branch.Continues f.relative f.kind a.define g.relative
            ∨ Branch.Continues g.relative g.kind b.define f.relative)
      ∧ (∀ files : List SourceFile, (files.map (·.relative)).Nodup → Apart evaluators files →
        allocateFiles evaluators {} files = files.map (SourceFile.branches evaluators)
          ∧ (indexFiles evaluators files).branches.Perm
            (files.flatMap (SourceFile.branches evaluators))
          ∧ ∀ f ∈ files, List.Forall₂ (fun b t => Branch.ClosedIn b f t) (f.branches evaluators)
            (f.closers evaluators)) := by
  refine ⟨fun f => Branch.nodup_pointId_scan evaluators f.relative f.kind f.source,
    fun f g hne a ha b hb heq => SourceFile.continues_of_id_eq hne ha hb heq,
    fun files hpaths hapart => ?_⟩
  have hnodup := nodup_flatMap_ids hpaths hapart
  have hall : allocateFiles evaluators {} files = files.map (SourceFile.branches evaluators) :=
    allocateFiles_of_fresh hnodup fun id _ => Std.ExtTreeSet.not_mem_empty
  refine ⟨hall, ?_, fun f _ => f.closedIn_branches evaluators⟩
  -- no ID comes twice, so no branch takes the place of another
  have hids : ((files.flatMap (SourceFile.branches evaluators)).map (·.id)).Nodup := by
    have hid : ∀ f : SourceFile, (f.branches evaluators).map (·.id) = f.ids evaluators :=
      fun f => List.map_map
    rw [List.map_flatMap]
    simpa only [hid] using hnodup
  unfold indexFiles
  rw [hall, ← List.flatMap_def]
  exact BranchIndex.perm_branches_extend hids

/-- A helper file whose only body has an empty name. -/
def unnamedHelper : SourceFile :=
  ⟨⟨"templates/_h.tpl", "templates/_h.tpl", .helper⟩,
    "\x7b\x7b define \"\" \x7d\x7d\x7b\x7b end \x7d\x7d"⟩

/-- A helper file that is called like it, but for a colon at the end. -/
def colonHelper : SourceFile :=
  ⟨⟨"templates/_h.tpl:", "templates/_h.tpl:", .helper⟩,
    "\x7b\x7b if .a \x7d\x7d\x7b\x7b end \x7d\x7d"⟩

/-- A template file. -/
def plainTemplate : SourceFile :=
  ⟨⟨"templates/cm.yaml", "templates/cm.yaml", .template⟩,
    "\x7b\x7b if .a \x7d\x7d\x7b\x7b else \x7d\x7d\x7b\x7b end \x7d\x7d"⟩

/-- Two helpers with an ID in common, and a chart of a helper and a template without one. -/
theorem pointIds_identify_helpers :
    (∃ a ∈ unnamedHelper.arms [], ∃ b ∈ colonHelper.arms [],
        Branch.pointId unnamedHelper.relative .helper a
          = Branch.pointId colonHelper.relative .helper b
        ∧ (Branch.Continues unnamedHelper.relative .helper a.define colonHelper.relative
          ∨ Branch.Continues colonHelper.relative .helper b.define unnamedHelper.relative))
      ∧ allocateFiles [] {} [unnamedHelper, plainTemplate]
        = [unnamedHelper.branches [], plainTemplate.branches []]
      ∧ (indexFiles [] [unnamedHelper, plainTemplate]).branches.Perm
        (unnamedHelper.branches [] ++ plainTemplate.branches []) := by
  have hpaths : ∀ f ∈ [unnamedHelper, plainTemplate], ∀ g ∈ [unnamedHelper, plainTemplate],
      ¬(f.relative ++ ":").toList <+: g.relative.toList := by decide
  -- no path begins with the other one and a colon
  have hapart : Apart [] [unnamedHelper, plainTemplate] := fun f hf _ _ g hg hcontinues =>
    hpaths f hf g hg hcontinues.isPrefix
  have hchart := (pointIds_identify []).2.2 [unnamedHelper, plainTemplate] (by decide) hapart
  have hpair : ∃ a ∈ unnamedHelper.arms [], ∃ b ∈ colonHelper.arms [],
      Branch.pointId unnamedHelper.relative .helper a
        = Branch.pointId colonHelper.relative .helper b := by decide
  obtain ⟨a, ha, b, hb, heq⟩ := hpair
  refine ⟨⟨a, ha, b, hb, heq, ?_⟩, hchart.1, by simpa using hchart.2.1⟩
  exact (pointIds_identify []).2.1 unnamedHelper colonHelper (by decide) a ha b hb heq

/-- **A colon at the end of a path is enough.** Both helpers have one arm, and the arms have the same
ID, though neither path is the other one with a colon and more text behind it. The file that comes
second gets no branch. -/
theorem colonHelper_shares_id :
    unnamedHelper.kind = FileKind.ofPath unnamedHelper.relative
      ∧ colonHelper.kind = FileKind.ofPath colonHelper.relative
      ∧ unnamedHelper.ids [] = ["templates/_h.tpl::L1"]
      ∧ colonHelper.ids [] = ["templates/_h.tpl::L1"]
      ∧ (∀ more, more ≠ "" → colonHelper.relative ≠ unnamedHelper.relative ++ ":" ++ more
        ∧ unnamedHelper.relative ≠ colonHelper.relative ++ ":" ++ more)
      ∧ allocateFiles [] {} [unnamedHelper, colonHelper] = [unnamedHelper.branches [], []] := by
  refine ⟨by decide, by decide, by decide, by decide, fun more hmore => ⟨?_, ?_⟩,
    by decide⟩
  · -- neither path goes on from the other behind a colon, unless with nothing
    intro hpath
    exact hmore ((String.append_right_inj _).mp (hpath.symm.trans (String.append_empty).symm))
  · intro hpath
    have hprefix : (colonHelper.relative ++ ":").toList <+: unnamedHelper.relative.toList :=
      ⟨more.toList, by rw [hpath, String.toList_append (s := colonHelper.relative ++ ":")]⟩
    exact absurd hprefix (by decide)

end TemplateCoverage
