import TemplateCoverage.FileSystem.Write

/-!
# Looking up and making directories

What stands at a location after an entry was put somewhere, and how a search goes through directories
without links.

* **`entry?_put`**: only the location of the new entry changes.
* **`walk_plain`**: one step of a search; **`walk_directory`**, **`walk_missing`**, **`walk_link`**: through a
  directory, to a place where nothing stands, along a link.
* **`walk_file`**, **`readText_of_find`**: a search that ends at a file, and the text of the file.
* **`makeDirectory_of_walk`**: a directory is made where a search leads to nothing.
-/

namespace TemplateCoverage.FileSystem

/-- What stands at a location after an entry was put somewhere. -/
@[simp] theorem entry?_put (fs : FileSystem) (here there : Location) (entry : Entry) :
    FileSystem.entry? (fs.put here entry) there
      = if there = [] then some .directory
        else if here = there then some entry else fs.entry? there := by
  unfold entry? put
  by_cases h : there = []
  · rw [if_pos h, if_pos h]
  · rw [if_neg h, if_neg h, if_neg h]
    simp only [Std.ExtTreeMap.getElem?_insert, Std.LawfulEqCmp.compare_eq_iff_eq]

/-- In an empty file system there is only the root. -/
@[simp] theorem entry?_empty (there : Location) :
    FileSystem.entry? {} there = if there = [] then some .directory else none := by
  unfold entry?
  split
  · rfl
  · exact Std.ExtTreeMap.getElem?_empty

/-- A name that a search takes as it is. -/
def IsPlain (name : String) : Prop :=
  name ≠ "." ∧ name ≠ "" ∧ name ≠ ".." ∧ ¬nameLimit < name.utf8ByteSize

instance (name : String) : Decidable (IsPlain name) :=
  inferInstanceAs (Decidable (_ ∧ _ ∧ _ ∧ ¬_))

variable {fs : FileSystem} {last : LastStep} {links : Nat} {base : Location} {name : String}

/-- What a search does at such a name. A place to be filled may not have a slash behind it. -/
theorem walk_name {rest : List String} (hname : IsPlain name) (hfill : ¬(last = .fill ∧ rest = [""])) :
    fs.walk last links base (name :: rest)
      = match fs.entry? (base ++ [name]) with
        | none => if rest.isEmpty then .ok (base ++ [name]) else .error .notFound
        | some .directory => fs.walk last links (base ++ [name]) rest
        | some (.file _ _) => if rest.isEmpty then .ok (base ++ [name]) else .error .notADirectory
        | some (.link target) =>
          if rest.isEmpty && last == .keep then .ok (base ++ [name])
          else
            match links with
            | 0 => .error .tooManyLinks
            | links + 1 =>
              fs.walk last links (if Path.isAbsolute target then [] else base)
                (searchSegments target ++ rest) := by
  obtain ⟨hdot, hempty, hup, hlimit⟩ := hname
  -- none of the special cases applies
  rewrite [walk, if_neg (not_or.mpr ⟨hdot, hempty⟩), if_neg hup, if_neg hfill, if_neg hlimit]
  rfl

/-- What a search does at such a name that is not for a place to be filled. -/
theorem walk_plain {rest : List String} (hname : IsPlain name) (hlast : last ≠ .fill) :
    fs.walk last links base (name :: rest)
      = match fs.entry? (base ++ [name]) with
        | none => if rest.isEmpty then .ok (base ++ [name]) else .error .notFound
        | some .directory => fs.walk last links (base ++ [name]) rest
        | some (.file _ _) => if rest.isEmpty then .ok (base ++ [name]) else .error .notADirectory
        | some (.link target) =>
          if rest.isEmpty && last == .keep then .ok (base ++ [name])
          else
            match links with
            | 0 => .error .tooManyLinks
            | links + 1 =>
              fs.walk last links (if Path.isAbsolute target then [] else base) (searchSegments target ++ rest) :=
  walk_name hname fun hfill => hlast hfill.1

/-- A search goes on in a directory. -/
theorem walk_directory {rest : List String} (hname : IsPlain name) (hlast : last ≠ .fill)
    (h : fs.entry? (base ++ [name]) = some .directory) :
    fs.walk last links base (name :: rest) = fs.walk last links (base ++ [name]) rest := by
  rw [walk_plain hname hlast, h]

/-- A search may end where nothing stands. -/
theorem walk_missing (hname : IsPlain name) (hlast : last ≠ .fill)
    (h : fs.entry? (base ++ [name]) = none) :
    fs.walk last links base [name] = .ok (base ++ [name]) := by
  rw [walk_plain hname hlast, h]
  rfl

/-- Nothing is found behind a place where nothing stands. -/
theorem walk_behind_missing {rest : List String} (hname : IsPlain name) (hlast : last ≠ .fill)
    (h : fs.entry? (base ++ [name]) = none) (hrest : rest ≠ []) :
    fs.walk last links base (name :: rest) = .error .notFound := by
  rw [walk_plain hname hlast, h]
  exact if_neg fun hempty => hrest (List.isEmpty_iff.mp hempty)

/-- A search may end at a file. -/
theorem walk_file {contents : ByteArray} {executable : Bool} (hname : IsPlain name)
    (hlast : last ≠ .fill)
    (h : fs.entry? (base ++ [name]) = some (.file contents executable)) :
    fs.walk last links base [name] = .ok (base ++ [name]) := by
  rw [walk_plain hname hlast, h]
  rfl

/-- A search may leave a link at its end as it is. -/
theorem walk_kept_link {target : String} (hname : IsPlain name)
    (h : fs.entry? (base ++ [name]) = some (.link target)) :
    fs.walk .keep links base [name] = .ok (base ++ [name]) := by
  rw [walk_plain hname (by decide), h]
  rfl

/-- A search goes on with the target of a link, in front of what follows the link. -/
theorem walk_link {rest : List String} {target : String} (hname : IsPlain name) (hlast : last ≠ .fill)
    (h : fs.entry? (base ++ [name]) = some (.link target)) (hrest : rest = [] → last = .follow) :
    fs.walk last (links + 1) base (name :: rest)
      = fs.walk last links (if Path.isAbsolute target then [] else base) (searchSegments target ++ rest) := by
  have hgo : ¬(rest.isEmpty && last == .keep) = true := by
    intro hkeep
    obtain ⟨hnil, hkeep⟩ := Bool.and_eq_true_iff.mp hkeep
    rw [hrest (List.isEmpty_iff.mp hnil)] at hkeep
    cases hkeep
  rw [walk_plain hname hlast, h]
  exact if_neg hgo

/-- What stands where a search leads to is found. -/
theorem find_of_walk {path : String} {location : Location} {entry : Entry}
    (hpath : checkPath path = .ok ())
    (hwalk : fs.walk last linkLimit (fs.start path) (searchSegments path) = .ok location)
    (hentry : fs.entry? location = some entry) : fs.find last path = .ok (location, entry) := by
  unfold find locate
  rw [hpath]
  simp only [hwalk, hentry]

/-- The text of a file that is found. -/
theorem readText_of_find {path text : String} {location : Location} {contents : ByteArray}
    {executable : Bool} (hfind : fs.find .follow path = .ok (location, .file contents executable))
    (htext : Text.Utf8.decode? contents = some text) : fs.readText path = .ok text := by
  unfold readText readBytes status
  rw [hfind]
  simp only [Except.map, htext]

/-- The text of a file in the root directory. -/
theorem readText_of_root {path text : String} {contents : ByteArray} {executable : Bool}
    (hpath : checkPath path = .ok ()) (habsolute : Path.isAbsolute path = true)
    (hsegments : searchSegments path = [name]) (hname : IsPlain name)
    (hentry : fs.entry? [name] = some (.file contents executable))
    (htext : Text.Utf8.decode? contents = some text) : fs.readText path = .ok text := by
  have hwalk : fs.walk .follow linkLimit (fs.start path) (searchSegments path) = .ok [name] := by
    unfold start
    rw [if_pos habsolute, hsegments]
    exact walk_file hname (by decide) hentry
  exact readText_of_find (find_of_walk hpath hwalk hentry) htext

/-- A search that leads to a location where nothing stands finds nothing. -/
theorem find_of_missing {path : String} {location : Location} (hpath : checkPath path = .ok ())
    (hwalk : fs.walk last linkLimit (fs.start path) (searchSegments path) = .ok location)
    (hentry : fs.entry? location = none) : fs.find last path = .error .notFound := by
  unfold find locate
  rw [hpath]
  simp only [hwalk, hentry]

/-- A directory is made where a search leads to nothing. -/
theorem makeDirectory_of_walk {path : String} {location : Location}
    (hpath : checkPath path = .ok ()) (hlast : (Path.segments path).getLast? = some name)
    (hname : IsPlain name)
    (hwalk : fs.walk .keep linkLimit (fs.start path) (Path.segments path) = .ok location)
    (hentry : fs.entry? location = none) :
    fs.makeDirectory path = .ok (fs.put location .directory) := by
  obtain ⟨hdot, -, hup, -⟩ := hname
  unfold makeDirectory
  rw [hpath]
  simp only [hlast, if_neg (not_or.mpr ⟨hdot, hup⟩), hwalk, hentry]
  rfl

end TemplateCoverage.FileSystem
