import Mathlib.Data.List.Infix
import TemplateCoverage.Chart.Basic
import TemplateCoverage.Proofs.Text.Trim

/-!
# Directory filters

A filter that ends with a slash is meant for a directory. The slash is cut off before the filter is compared,
so the filter does what it does without the slash: it also selects the paths that only begin alike, and those of
files that are called like the directory.

* **`pathMatches_iff`**: what a filter selects, in one sentence.
* **`dropHere_eq_directory`**: what a filter with a slash at its end says of a directory.
* **`selected_in_directory_iff`**: the three ways in which a filter selects a path, and the charts of which it
  selects no template file outside of the directory.
* **`siblingChart_selected`**: a chart of which it does.
-/

namespace TemplateCoverage

open Text

/-- What the paths in the directory of a filter begin with, seen from where the directory stands. -/
def filterDirectory (filter : String) : List Char :=
  filterName filter ++ ['/']

/-- The path lies in a directory of the name: the path begins with it, or it stands behind a slash. -/
def LiesInDirectory (filter path : String) : Prop :=
  filterDirectory filter <+: path.toList ∨ '/' :: filterDirectory filter <:+: path.toList

/-- The path begins with the name of the directory and goes on within the same segment. -/
def BeginsAlike (filter path : String) : Prop :=
  ∃ c rest, c ≠ '/' ∧ path.toList = filterName filter ++ c :: rest

/-- The path is that of something that is itself called like the directory. -/
def IsCalled (filter path : String) : Prop :=
  path.toList = filterName filter ∨ '/' :: filterName filter <:+ path.toList

/-- A filter selects the paths that its name begins, and those that end with it as whole segments. -/
theorem pathMatches_iff (path filter : String) :
    pathMatches path filter = true
      ↔ filterName filter ≠ []
        ∧ (filterName filter <+: path.toList ∨ '/' :: filterName filter <:+ path.toList) := by
  have hequal : path.toList = filterName filter → filterName filter <+: path.toList :=
    fun h => h ▸ List.prefix_rfl
  unfold pathMatches
  simp only [Bool.and_eq_true, Bool.or_eq_true, Bool.not_eq_true', beq_iff_eq, List.isPrefixOf_iff_prefix,
    List.isSuffixOf_iff_suffix, List.isEmpty_eq_false_iff]
  -- a path that is the name begins with it
  tauto

/-- A name begins a path as a directory, within a segment, or as the whole of it. -/
theorem filterName_prefix_iff (filter path : String) :
    filterName filter <+: path.toList
      ↔ filterDirectory filter <+: path.toList ∨ BeginsAlike filter path ∨ path.toList = filterName filter := by
  unfold filterDirectory BeginsAlike
  constructor
  · rintro ⟨rest, hrest⟩
    cases rest with
    | nil => exact .inr (.inr (by rw [← hrest, List.append_nil]))
    | cons c rest =>
      -- a path that begins with the name goes on with a slash, goes on otherwise, or is the name
      by_cases hc : c = '/'
      · refine .inl ⟨rest, ?_⟩
        rw [← hrest, hc, List.append_assoc, List.singleton_append]
      · exact .inr (.inl ⟨c, rest, hc, hrest.symm⟩)
  · rintro (h | ⟨c, rest, -, h⟩ | h)
    · exact (List.prefix_append _ _).trans h
    · exact ⟨c :: rest, h.symm⟩
    · exact ⟨[], by rw [h, List.append_nil]⟩

theorem dropHere_suffix (cs : List Char) : dropHere cs <:+ cs := by
  fun_induction dropHere cs with
  | case1 rest ih => exact ih.trans ((List.suffix_cons '/' rest).trans (List.suffix_cons '.' _))
  | case2 cs _ => exact List.suffix_rfl

/-- Without `./` in front, a filter that ends with a slash is the directory, and maybe more slashes. -/
theorem dropHere_eq_directory {filter : String} (h : Path.endsWithSlash filter = true) :
    dropHere filter.toList = []
      ∨ ∃ more, dropHere filter.toList = filterDirectory filter ++ more ∧ ∀ c ∈ more, c = '/' := by
  obtain ⟨front, hfront⟩ := dropHere_suffix filter.toList
  obtain ⟨⟨slashes, hslashes, hall⟩, hlast⟩ :=
    Text.dropEndWhile_eq_iff.mp (rfl : filterName filter = filterName filter)
  cases slashes with
  | nil =>
    -- the last slash is not cut off only if `./` in front was all there is
    rw [List.append_nil] at hslashes
    rw [hslashes]
    cases hname : (filterName filter).getLast? with
    | none => exact .inl (List.getLast?_eq_none_iff.mp hname)
    | some c =>
      have hc : c = '/' := by
        unfold Path.endsWithSlash at h
        rw [← hfront, List.getLast?_append, hslashes, hname] at h
        simpa using h
      have hother := hlast c hname
      rw [hc] at hother
      exact absurd hother (by decide)
  | cons c more =>
    have hc : ∀ d ∈ c :: more, d = '/' := fun d hd => by simpa using hall d hd
    obtain ⟨rfl, hmore⟩ := List.forall_mem_cons.mp hc
    refine .inr ⟨more, ?_, hmore⟩
    unfold filterDirectory
    rw [List.append_assoc, List.singleton_append]
    exact hslashes

/-- Of a list of one filter, that filter decides. -/
theorem mem_selectedFiles_singleton {c : Chart} {filter : String} {file : TemplateFile} :
    file ∈ c.selectedFiles [filter]
      ↔ file ∈ c.files ∧ (file.kind = .helper ∨ pathMatches file.relative filter = true) := by
  unfold Chart.selectedFiles filtersMatch
  simp

/-- **What a directory filter selects.** A filter selects what lies in its directory at the root of the chart,
what only begins like it, and what is called like it. So of a chart it selects no template file outside of the
directory just if each template file that begins like the directory or is called like it lies in such a
directory anyway. -/
theorem selected_in_directory_iff (c : Chart) (filter : String) :
    (Path.endsWithSlash filter = true → dropHere filter.toList = []
        ∨ ∃ more, dropHere filter.toList = filterDirectory filter ++ more ∧ ∀ c ∈ more, c = '/')
      ∧ (∀ path, pathMatches path filter = true ↔ filterName filter ≠ []
          ∧ (filterDirectory filter <+: path.toList ∨ BeginsAlike filter path ∨ IsCalled filter path))
      ∧ ((∀ file ∈ c.selectedFiles [filter], file.kind = .helper ∨ LiesInDirectory filter file.relative)
          ↔ filterName filter = [] ∨ ∀ file ∈ c.files, file.kind = .template →
            BeginsAlike filter file.relative ∨ IsCalled filter file.relative →
            LiesInDirectory filter file.relative) := by
  have hmatches : ∀ path, pathMatches path filter = true ↔ filterName filter ≠ []
      ∧ (filterDirectory filter <+: path.toList ∨ BeginsAlike filter path ∨ IsCalled filter path) := by
    intro path
    rw [pathMatches_iff, filterName_prefix_iff]
    unfold IsCalled
    tauto
  refine ⟨dropHere_eq_directory, hmatches, ?_, ?_⟩
  · -- a template outside of the directory is selected if it only begins alike, or is called like it
    intro hinside
    by_cases hname : filterName filter = []
    · exact .inl hname
    · refine .inr fun file hfile hkind houtside => ?_
      have hselected : file ∈ c.selectedFiles [filter] :=
        mem_selectedFiles_singleton.mpr ⟨hfile, .inr ((hmatches _).mpr ⟨hname, .inr houtside⟩)⟩
      rcases hinside file hselected with hhelper | hlies
      · rw [hkind] at hhelper
        cases hhelper
      · exact hlies
  · intro hfiles file hselected
    obtain ⟨hfile, hhelper | hmatch⟩ := mem_selectedFiles_singleton.mp hselected
    · exact .inl hhelper
    · obtain ⟨hname, hways⟩ := (hmatches _).mp hmatch
      cases hkind : file.kind with
      | helper => exact .inl rfl
      | template =>
        right
        rcases hways with hbegins | hother
        · exact .inl hbegins
        · exact (hfiles.resolve_left hname) file hfile hkind hother

/-- A chart whose templates have the given paths. -/
def chartOf (paths : List String) : Chart :=
  { root := "app"
    manifest := { name := "app", version := none, description := none }
    files := paths.map fun path => { relative := path, path := Path.join "app" path, kind := .template } }

/-- A chart in which nothing begins like the directory: only what lies in it is selected, and the helpers. -/
theorem selected_in_directory_iff_noSibling :
    (∃ more, dropHere "./templates/sub/".toList = filterDirectory "./templates/sub/" ++ more
        ∧ ∀ c ∈ more, c = '/')
      ∧ ∀ file ∈ (chartOf ["templates/cm.yaml", "templates/sub/svc.yaml"]).selectedFiles ["./templates/sub/"],
        file.kind = .helper ∨ LiesInDirectory "./templates/sub/" file.relative := by
  obtain ⟨hdirectory, -, hinside⟩ :=
    selected_in_directory_iff (chartOf ["templates/cm.yaml", "templates/sub/svc.yaml"]) "./templates/sub/"
  refine ⟨(hdirectory (by decide)).resolve_left (by decide), hinside.mpr (.inr ?_)⟩
  -- the other file does not begin with the name of the directory
  have hother : ¬(BeginsAlike "./templates/sub/" "templates/cm.yaml"
      ∨ IsCalled "./templates/sub/" "templates/cm.yaml") := by
    have hnot : ¬filterName "./templates/sub/" <+: "templates/cm.yaml".toList := by decide
    rintro (⟨c, rest, -, h⟩ | h | h)
    · exact hnot ⟨_, h.symm⟩
    · exact absurd h (by decide)
    · exact absurd h (by decide)
  have hlies : LiesInDirectory "./templates/sub/" "templates/sub/svc.yaml" := .inl (by decide)
  unfold chartOf
  simp only [List.map_cons, List.map_nil, List.forall_mem_cons, List.not_mem_nil, false_implies,
    implies_true, and_true]
  exact ⟨fun _ h => absurd h hother, fun _ _ => hlies⟩

/-- The filter of one directory selects a template of another one, whose name begins with the same letters. -/
theorem siblingChart_selected :
    pathMatches "templates/subother/svc.yaml" "templates/sub/" = true
      ∧ (∃ file ∈ (chartOf ["templates/subother/svc.yaml"]).selectedFiles ["templates/sub/"],
          file.kind = .template ∧ ¬LiesInDirectory "templates/sub/" file.relative)
      ∧ dropHere "templates/sub/".toList = filterDirectory "templates/sub/" := by
  have hmatches : pathMatches "templates/subother/svc.yaml" "templates/sub/" = true := by decide
  refine ⟨hmatches, ?_, by decide⟩
  refine ⟨⟨"templates/subother/svc.yaml", "app/templates/subother/svc.yaml", .template⟩, ?_, rfl, ?_⟩
  · exact mem_selectedFiles_singleton.mpr ⟨by decide, .inr hmatches⟩
  · unfold LiesInDirectory
    decide

end TemplateCoverage
