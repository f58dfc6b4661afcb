import Mathlib.Data.List.Perm.Subperm
import TemplateCoverage.Proofs.Branch.Allocation
import TemplateCoverage.Proofs.Branch.Identifier

/-!
# Addresses by range

An address by range shows the lines that an arm spans, and the place of the arm among those of the
line of its closing token, which it does not show. An arm that is closed on the line where it began
spans that line, and so does one that is closed on the next line. These two may have the same address,
and no others.

* **`nodup_point_scannedBranches`**: addresses by point are distinct.
* **`range_eq_iff`**: the arms whose addresses by range are the same.
* **`range_almost_identifies`**: all together, and that an address by range stands for at most two
  branches of a file.
-/

namespace TemplateCoverage

/-- In a helper the name of the body can be read back, and in a template it is not shown. -/
theorem Branch.scopeText_eq_iff {kind : FileKind} {define define' : Option String} :
    scopeText kind define = scopeText kind define' ↔ (kind = .helper → define = define') := by
  constructor
  · rintro h rfl
    -- a name that is empty still comes with its colon
    have hne : ∀ name : String, ":" ++ name ≠ "" := fun name hname => by
      have hlist := congrArg String.toList hname
      rw [String.toList_append] at hlist
      cases hlist
    cases define with
    | none =>
      cases define' with
      | none => rfl
      | some name => exact absurd h.symm (hne name)
    | some name =>
      cases define' with
      | none => exact absurd h (hne name)
      | some name' => exact congrArg some ((String.append_right_inj ":").mp h)
  · intro h
    cases kind with
    | template => rfl
    | helper => rw [h rfl]

/-- The lines of an arm tell the line of its token, unless the arm spans a single line. -/
theorem Nesting.lastLine_eq_iff {start line line' : Nat} (hle : start ≤ line) (hle' : start ≤ line')
    (hne : line ≠ line') :
    lastLine start line = lastLine start line'
      ↔ line = start ∧ line' = start + 1 ∨ line = start + 1 ∧ line' = start := by
  unfold lastLine
  split <;> split <;> omega

/-- The token that closes an arm stands on the last line of the arm or on the one behind it. -/
theorem Arm.Spanned.tokenLine_eq {a : Arm} (h : a.Spanned) :
    a.tokenLine = a.endLine ∨ a.tokenLine = a.endLine + 1 := by
  rw [h.last]
  unfold Nesting.lastLine
  split <;> omega

section

variable {a : Allocator} {evaluators : List String} {file : String} {kind : FileKind}
  {source : String}

/-- Addresses by point are distinct. -/
theorem nodup_point_scannedBranches (a : Allocator) (evaluators : List String) (file : String)
    (kind : FileKind) (source : String) :
    ((scannedBranches a evaluators file kind source).map (·.address .point)).Nodup := by
  -- the points of the branches are those of the arms that got one
  have hids : (scannedBranches a evaluators file kind source).map (·.address .point)
      = ((scannedBranches a evaluators file kind source).map Branch.toArm).map
        (Branch.pointId file kind) := by
    rw [List.map_map]
    refine List.map_congr_left fun b hb => ?_
    rw [Allocator.eq_ofArm_of_mem_allocate hb]
    rfl
  rw [hids]
  exact (Branch.nodup_pointId_scan evaluators file kind source).sublist
    ((a.map_toArm_allocate file kind _).map _)

/-- No two branches of a scanned file have the same place. -/
theorem nodup_place_scannedBranches (a : Allocator) (evaluators : List String) (file : String)
    (kind : FileKind) (source : String) :
    ((scannedBranches a evaluators file kind source).map (·.place)).Nodup := by
  have hsub := (a.map_toArm_allocate file kind (Finding.arms (scan evaluators file source))).map
    Arm.place
  rw [List.map_map] at hsub
  exact (nodup_place_scan evaluators file source).sublist hsub

/-- The branches of a file belong to it. -/
theorem file_of_mem_scannedBranches {b : Branch}
    (hb : b ∈ scannedBranches a evaluators file kind source) : b.file = file := by
  rw [Allocator.eq_ofArm_of_mem_allocate hb]
  rfl

/-- They are of its kind. -/
theorem kind_of_mem_scannedBranches {b : Branch}
    (hb : b ∈ scannedBranches a evaluators file kind source) : b.kind = kind := by
  rw [Allocator.eq_ofArm_of_mem_allocate hb]
  rfl

theorem spanned_of_mem_scannedBranches {b : Branch}
    (hb : b ∈ scannedBranches a evaluators file kind source) : b.toArm.Spanned :=
  spanned_scan (mem_arms_of_mem_scannedBranches hb)

/-- Both arms span the same line and no other one, and have the same place among the arms of the lines
of their tokens; but one is closed on that line, and the other one on the next. In a helper they stand
in the same body. -/
structure Branch.Neighbours (b b' : Branch) : Prop where
  start : b.startLine = b'.startLine
  occurrence : b.occurrence = b'.occurrence
  closed : b.tokenLine = b.startLine ∧ b'.tokenLine = b.startLine + 1
    ∨ b.tokenLine = b.startLine + 1 ∧ b'.tokenLine = b.startLine
  body : b.kind = .helper → b.define = b'.define

/-- **Two branches have the same address by range** only if they begin on the same line, have the same
place, and one is closed on that line and the other one on the next. -/
theorem range_eq_iff {b b' : Branch} (hb : b ∈ scannedBranches a evaluators file kind source)
    (hb' : b' ∈ scannedBranches a evaluators file kind source) (hne : b ≠ b') :
    b.address .range = b'.address .range ↔ b.Neighbours b' := by
  have hfile := (file_of_mem_scannedBranches hb).trans (file_of_mem_scannedBranches hb').symm
  have hkind := (kind_of_mem_scannedBranches hb).trans (kind_of_mem_scannedBranches hb').symm
  have hplace : b.place ≠ b'.place := fun hplace =>
    hne (List.inj_on_of_nodup_map (nodup_place_scannedBranches a evaluators file kind source) hb hb'
      hplace)
  have hspan := spanned_of_mem_scannedBranches hb
  have hspan' := spanned_of_mem_scannedBranches hb'
  rw [Branch.range_inj hspan hspan' hfile, ← hkind, Branch.scopeText_eq_iff, hspan.last,
    hspan'.last]
  -- with the same place among the arms of their lines, they are closed on different lines
  have hlines : b.occurrence = b'.occurrence → b.tokenLine ≠ b'.tokenLine :=
    fun hoccurrence hline => hplace (Prod.ext hline hoccurrence)
  constructor
  · rintro ⟨hbody, hstart, hlast, hoccurrence⟩
    rw [← hstart] at hlast
    exact ⟨hstart, hoccurrence, (Nesting.lastLine_eq_iff hspan.start (hstart ▸ hspan'.start)
      (hlines hoccurrence)).mp hlast, hbody⟩
  · rintro ⟨hstart, hoccurrence, hclosed, hbody⟩
    refine ⟨hbody, hstart, ?_, hoccurrence⟩
    rw [← hstart]
    exact (Nesting.lastLine_eq_iff hspan.start (hstart ▸ hspan'.start)
      (hlines hoccurrence)).mpr hclosed

/-- An address by range stands for at most two branches of a file: they have the same place on the last
line of their arms or on the line behind it. -/
theorem length_filter_range_le (a : Allocator) (evaluators : List String) (file : String)
    (kind : FileKind) (source : String) (id : BranchId) :
    ((scannedBranches a evaluators file kind source).filter (·.address .range = id)).length ≤ 2 := by
  cases hfilter : (scannedBranches a evaluators file kind source).filter
    (·.address .range = id) with
  | nil => exact Nat.zero_le 2
  | cons b rest =>
    have hmem : ∀ b' ∈ b :: rest, b' ∈ scannedBranches a evaluators file kind source
        ∧ b'.address .range = id := fun b' hb' => by
      rw [← hfilter] at hb'
      simpa using List.mem_filter.mp hb'
    obtain ⟨hb, hid⟩ := hmem b (List.mem_cons_self ..)
    -- branches of one file have different places
    have hplaces : ((b :: rest).map (·.place)).Nodup :=
      (nodup_place_scannedBranches a evaluators file kind source).sublist
        (hfilter ▸ List.filter_sublist.map _)
    -- but with the same range only two places are left: the token is on the last line or right behind it
    have hsub : (b :: rest).map (·.place)
        ⊆ [(b.endLine, b.occurrence), (b.endLine + 1, b.occurrence)] := by
      intro p hp
      obtain ⟨b', hb', rfl⟩ := List.mem_map.mp hp
      obtain ⟨hb', hid'⟩ := hmem b' hb'
      have hspan' := spanned_of_mem_scannedBranches hb'
      obtain ⟨-, -, hlast, hoccurrence⟩ := (Branch.range_inj (spanned_of_mem_scannedBranches hb)
        hspan' ((file_of_mem_scannedBranches hb).trans (file_of_mem_scannedBranches hb').symm)).mp
        (hid.trans hid'.symm)
      rw [hlast, hoccurrence]
      rcases hspan'.tokenLine_eq with heq | heq
      · exact List.mem_cons.mpr (.inl (Prod.ext heq rfl))
      · exact List.mem_cons_of_mem _ (List.mem_singleton.mpr (Prod.ext heq rfl))
    have hle := (List.subperm_of_subset hplaces hsub).length_le
    rwa [List.length_map] at hle

end

/-- **Addresses by range almost identify.** Addresses by point are distinct in a file. By range, two
branches have the same address exactly if they are neighbours, so that an address stands for at most
two branches. -/
theorem range_almost_identifies (a : Allocator) (evaluators : List String) (file : String)
    (kind : FileKind) (source : String) :
    ((scannedBranches a evaluators file kind source).map (·.address .point)).Nodup
      ∧ (∀ b ∈ scannedBranches a evaluators file kind source,
        ∀ b' ∈ scannedBranches a evaluators file kind source, b ≠ b' →
          (b.address .range = b'.address .range ↔ b.Neighbours b'))
      ∧ ∀ id, ((scannedBranches a evaluators file kind source).filter
          (·.address .range = id)).length ≤ 2 :=
  ⟨nodup_point_scannedBranches a evaluators file kind source,
    fun _ hb _ hb' hne => range_eq_iff hb hb' hne,
    length_filter_range_le a evaluators file kind source⟩

/-- A block on one line within a block that is closed on the next line. -/
def chainedSource : String :=
  "\x7b\x7b if .a \x7d\x7d\x7b\x7b if .b \x7d\x7dx\x7b\x7b end \x7d\x7d\n\x7b\x7b end \x7d\x7d\n"

/-- The two branches of this text are neighbours. -/
theorem range_almost_identifies_chainedSource :
    ∃ b ∈ scannedBranches {} [] "templates/cm.yaml" .template chainedSource,
      ∃ b' ∈ scannedBranches {} [] "templates/cm.yaml" .template chainedSource,
        b ≠ b' ∧ b.address .range = b'.address .range ∧ b.Neighbours b' := by
  have hpair : ∃ b ∈ scannedBranches {} [] "templates/cm.yaml" .template chainedSource,
      ∃ b' ∈ scannedBranches {} [] "templates/cm.yaml" .template chainedSource,
        b ≠ b' ∧ b.address .range = b'.address .range := by decide
  obtain ⟨b, hb, b', hb', hne, heq⟩ := hpair
  have hiff := (range_almost_identifies {} [] "templates/cm.yaml" .template chainedSource).2.1
    b hb b' hb' hne
  exact ⟨b, hb, b', hb', hne, heq, hiff.mp heq⟩

/-- **Two branches with one address by range.** Both blocks begin on the first line, and the tokens that
close them are the first ones of their lines. -/
theorem range_shared_chainedSource :
    let branches := scannedBranches {} [] "templates/cm.yaml" .template chainedSource
    branches.map (fun b => (b.tokenLine, b.id, b.address .range))
        = [(1, "templates/cm.yaml:L1", "templates/cm.yaml:L1-L1"),
          (2, "templates/cm.yaml:L2", "templates/cm.yaml:L1-L1")]
      ∧ ¬(branches.map (·.address .range)).Nodup := by
  decide

end TemplateCoverage
