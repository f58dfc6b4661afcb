import Mathlib.Data.List.Induction
import TemplateCoverage.Proofs.FileSystem.Following
import TemplateCoverage.Proofs.FileSystem.Path

/-!
# Sound file systems

In a file system, what is in something is in a directory, and every name can be a segment of a path. A search
from the root then reaches every directory, and only ever goes through directories.

* **`Sound.put`**: something new in a directory keeps a file system sound.
* **`Sound.directory_of_leads`**: a search leads from directories to directories.
* **`Sound.leads_location`**: the names of a directory lead to it.
* **`Leads.mono`**: a search goes the same way when entries were added.
-/

namespace TemplateCoverage.FileSystem

open TemplateCoverage.Path (IsSegment)

/-- A file system whose entries are in directories and have proper names. -/
structure Sound (fs : FileSystem) : Prop where
  parent : ∀ base name, (fs.entry? (base ++ [name])).isSome → fs.entry? base = some .directory
  name : ∀ base name, (fs.entry? (base ++ [name])).isSome → IsPlain name ∧ IsSegment name
  working : fs.entry? fs.workingDirectory = some .directory

variable {fs fs' : FileSystem} {last : LastStep} {links left : Nat} {base here location : Location}
  {name : String} {path : List String} {s t : Search}

@[simp] theorem directory_root (fs : FileSystem) : fs.entry? [] = some .directory :=
  if_pos rfl

/-- Above everything there are directories. -/
theorem Sound.directory_of_above (h : fs.Sound) (hentry : (fs.entry? location).isSome)
    (hbegin : here <+: location) : here = location ∨ fs.entry? here = some .directory := by
  obtain ⟨more, rfl⟩ := hbegin
  induction more using List.reverseRecOn with
  | nil => exact .inl (List.append_nil here).symm
  | append_singleton more name ih =>
    rw [← List.append_assoc] at hentry
    have hdirectory := h.parent _ _ hentry
    rcases ih (by rw [hdirectory]; rfl) with hsame | hdir
    · exact .inr (hsame ▸ hdirectory)
    · exact .inr hdir

/-- The names of a location that has something are plain. -/
theorem Sound.name_of_mem (h : fs.Sound) (hentry : (fs.entry? location).isSome) (hname : name ∈ location) :
    IsPlain name ∧ IsSegment name := by
  obtain ⟨front, back, rfl⟩ := List.append_of_mem hname
  have hbegin : front ++ [name] <+: front ++ name :: back := ⟨back, by simp⟩
  rcases h.directory_of_above hentry hbegin with hsame | hdir
  · exact h.name _ _ (hsame ▸ hentry)
  · exact h.name _ _ (by rw [hdir]; rfl)

/-- Everything in a file system is also in another one. -/
def Extends (fs fs' : FileSystem) : Prop :=
  ∀ location entry, fs.entry? location = some entry → fs'.entry? location = some entry

/-- To put something where nothing was takes nothing away. -/
theorem extends_put {entry : Entry} (hmissing : fs.entry? location = none) :
    fs.Extends (fs.put location entry) := by
  intro l e hl
  have hput := entry?_put fs location l entry
  rw [hput]
  by_cases hroot : l = []
  · rw [if_pos hroot, ← hl, hroot, directory_root]
  · rw [if_neg hroot, if_neg, hl]
    rintro rfl
    rw [hmissing] at hl
    cases hl

/-- What is put into a directory is in a sound file system again. -/
theorem Sound.put {entry : Entry} (h : fs.Sound) (hbase : fs.entry? base = some .directory) (hname : IsPlain name)
    (hsegment : IsSegment name) (hmissing : fs.entry? (base ++ [name]) = none) :
    (fs.put (base ++ [name]) entry).Sound := by
  have hkept : fs.Extends (fs.put (base ++ [name]) entry) := extends_put hmissing
  have hparts : ∀ b n, (FileSystem.entry? (fs.put (base ++ [name]) entry) (b ++ [n])).isSome →
      base = b ∧ name = n ∨ (fs.entry? (b ++ [n])).isSome := by
    intro b n hn
    have hput := entry?_put fs (base ++ [name]) (b ++ [n]) entry
    rw [hput, if_neg (by simp)] at hn
    split at hn
    · next hsame =>
      obtain ⟨hb, hn⟩ := List.append_inj' hsame rfl
      exact .inl ⟨hb, (List.cons.inj hn).1⟩
    · exact .inr hn
  refine ⟨fun b n hn => hkept _ _ ?_, fun b n hn => ?_, hkept _ _ h.working⟩
  -- an entry is the new one or an old one
  · rcases hparts b n hn with ⟨rfl, -⟩ | hold
    · exact hbase
    · exact h.parent b n hold
  · rcases hparts b n hn with ⟨-, rfl⟩ | hold
    · exact ⟨hname, hsegment⟩
    · exact h.name b n hold

/-- Something new in a directory leaves the files sound. -/
theorem Sound.put_last {entry : Entry} (h : fs.Sound) (hne : location ≠ [])
    (hbase : fs.entry? location.dropLast = some .directory) (hname : IsPlain (location.getLast hne))
    (hsegment : IsSegment (location.getLast hne)) (hmissing : fs.entry? location = none) :
    (fs.put location entry).Sound := by
  rw [← List.dropLast_concat_getLast hne] at hmissing ⊢
  exact h.put hbase hname hsegment hmissing

theorem Sound.empty : Sound {} := by
  have hnone : ∀ base name, FileSystem.entry? {} (base ++ [name]) = none := by
    simp
  refine ⟨fun base name h => ?_, fun base name h => ?_, directory_root _⟩
  · rw [hnone] at h
    cases h
  · rw [hnone] at h
    cases h

/-! ## Searches in sound file systems -/

/-- A search is always in a directory: the parent of one is one, and links are followed from where they are or
from the root. -/
theorem Sound.directory_of_steps (h : fs.Sound) (hsteps : fs.Steps last s t)
    (hs : fs.entry? s.here = some .directory) : fs.entry? t.here = some .directory := by
  induction hsteps with
  | refl => exact hs
  | tail _ hstep ih =>
    cases hstep with
    | skip => exact ih
    | @up links here rest =>
      -- the root is above itself
      cases here using List.reverseRecOn with
      | nil => exact ih
      | append_singleton base name =>
        rw [List.dropLast_concat]
        exact h.parent base name (by rw [ih]; rfl)
    | enter _ hentry => exact hentry
    | follow =>
      split
      · exact directory_root fs
      · exact ih

/-- Ways lead to directories. -/
theorem Sound.directory_of_leads (h : fs.Sound) (hlead : fs.Leads links base path left here)
    (hbase : fs.entry? base = some .directory) : fs.entry? here = some .directory :=
  h.directory_of_steps hlead hbase

/-- The names of a directory lead to it, and no link is on the way. -/
theorem Sound.leads_location (h : fs.Sound) (hentry : fs.entry? location = some .directory) (links : Nat) :
    fs.Leads links [] location links location := by
  have hfrom : ∀ base rest, base ++ rest = location → fs.Leads links base rest links location := by
    intro base rest hsplit
    -- induction on the names that are left: no entry on the way is a link, so each name is entered
    induction rest generalizing base with
    | nil =>
      rw [List.append_nil] at hsplit
      exact hsplit ▸ .refl
    | cons name rest ih =>
      have hsome : (fs.entry? location).isSome := by rw [hentry]; rfl
      have hbegin : base ++ [name] <+: location :=
        ⟨rest, by rw [← hsplit, List.append_assoc, List.singleton_append]⟩
      have hdir : fs.entry? (base ++ [name]) = some .directory := by
        rcases h.directory_of_above hsome hbegin with hsame | hdir
        · rw [hsame, hentry]
        · exact hdir
      have hplain := (h.name base name (by rw [hdir]; rfl)).1
      exact .head (.enter hplain hdir) (ih _ (by rw [List.append_assoc, List.singleton_append, hsplit]))
  exact hfrom [] location rfl

/-! ## Added entries -/

/-- A step is still possible after something was added. -/
theorem Step.mono (h : fs.Step last s t) (hext : fs.Extends fs') : fs'.Step last s t := by
  cases h with
  | skip hname => exact .skip hname
  | up => exact .up
  | enter hname hentry => exact .enter hname (hext _ _ hentry)
  | follow hname hentry hrest => exact .follow hname (hext _ _ hentry) hrest

/-- So ways still lead where they led. -/
theorem Leads.mono (h : fs.Leads links base path left here) (hext : fs.Extends fs') :
    fs'.Leads links base path left here :=
  Relation.ReflTransGen.mono (fun _ _ hstep => hstep.mono hext) _ _ h

/-- What is found is found in the same place when entries were added. -/
theorem walk_mono (h : fs.walk .follow links base path = .ok location) (hentry : (fs.entry? location).isSome)
    (hext : fs.Extends fs') : fs'.walk .follow links base path = .ok location := by
  obtain ⟨s, hsteps, hends⟩ := (walk_eq_ok_iff (by decide)).mp h
  have hsteps' : fs'.Steps .follow ⟨links, base, path⟩ s :=
    Relation.ReflTransGen.mono (fun _ _ hstep => hstep.mono hext) _ _ hsteps
  have hends' : fs'.Ends .follow s location := by
    cases hends with
    | inside => exact .inside
    -- a missing last name is not found, and may be there now
    | missing _ hmissing => rw [hmissing] at hentry; cases hentry
    | file hname hfile => exact .file hname (hext _ _ hfile)
    | link _ _ hkeep => cases hkeep
  exact (walk_eq_ok_iff (by decide)).mpr ⟨s, hsteps', hends'⟩

end TemplateCoverage.FileSystem
