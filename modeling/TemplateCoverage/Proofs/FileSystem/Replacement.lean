import TemplateCoverage.Proofs.FileSystem.Creation

/-!
# Replacing files

A file is written in place of one that is there. Directories and links stay what they are, so every path leads
where it led, and all other files are read as before.

* **`Spares`**: a file system in which files were replaced, but not at certain places. Such changes are composed
  by `Spares.trans`, and a search that finds something finds it again (`Spares.walk`).
* **`Replaceable`**: a path to a file in a directory that exists. It stays one (`Replaceable.of_spares`).
* **`Replaceable.writeText`**: a text is written there, it is read back, and nothing else changes.
-/

namespace TemplateCoverage

/-- The entry is a file. -/
def Entry.IsFile (entry : Entry) : Prop :=
  ∃ contents executable, entry = .file contents executable

namespace FileSystem

open TemplateCoverage.Path (trail)

/-- A file system in which files were replaced: directories, links and the files at the given places are as they
were. -/
structure Spares (fs fs' : FileSystem) (place : Location → Prop) : Prop where
  kept : ∀ location entry, fs.entry? location = some entry → place location ∨ ¬entry.IsFile →
    fs'.entry? location = some entry
  files : ∀ location entry, fs.entry? location = some entry → entry.IsFile →
    ∃ entry', fs'.entry? location = some entry' ∧ entry'.IsFile
  nothingNew : ∀ location, (fs'.entry? location).isSome → (fs.entry? location).isSome
  working : fs'.workingDirectory = fs.workingDirectory

/-- A path to a file at a location, in a directory that exists. -/
structure Replaceable (fs : FileSystem) (path : String) (location : Location) : Prop where
  directory : ∀ parent, Path.parent? path = some parent → fs.isDirectory parent = true
  file : ∃ entry, fs.find .keep path = .ok (location, entry) ∧ entry.IsFile

variable {fs fs' fs'' : FileSystem} {place place' : Location → Prop} {last : LastStep} {links left : Nat}
  {base here location : Location} {name path : String} {s t : Search}

/-! ## What is spared -/

theorem Spares.refl (fs : FileSystem) (place : Location → Prop) : fs.Spares fs place :=
  ⟨fun _ _ h _ => h, fun _ entry h hfile => ⟨entry, h, hfile⟩, fun _ h => h, rfl⟩

/-- What is spared in many places is spared in fewer. -/
theorem Spares.imp (h : fs.Spares fs' place) (himp : ∀ location, place' location → place location) :
    fs.Spares fs' place' :=
  ⟨fun l e hl hkept => h.kept l e hl (hkept.imp_left (himp l)), h.files, h.nothingNew, h.working⟩

/-- What is spared twice is spared. -/
theorem Spares.trans (h : fs.Spares fs' place) (h' : fs'.Spares fs'' place') :
    fs.Spares fs'' fun location => place location ∧ place' location := by
  refine ⟨fun l e hl hkept => ?_, fun l e hl hfile => ?_, fun l hl => h.nothingNew l (h'.nothingNew l hl),
    h'.working.trans h.working⟩
  · exact h'.kept l e (h.kept l e hl (hkept.imp_left And.left)) (hkept.imp_left And.right)
  · obtain ⟨e', hl', hfile'⟩ := h.files l e hl hfile
    exact h'.files l e' hl' hfile'

/-- A sound file system stays sound. -/
theorem Spares.sound (h : fs.Spares fs' place) (hsound : fs.Sound) : fs'.Sound := by
  refine ⟨fun base name hentry => ?_, fun base name hentry => ?_, ?_⟩
  · exact h.kept _ _ (hsound.parent base name (h.nothingNew _ hentry)) (.inr nofun)
  · exact hsound.name base name (h.nothingNew _ hentry)
  · rw [h.working]
    exact h.kept _ _ hsound.working (.inr nofun)

/-- Something else is put in the place of a file. -/
theorem spares_put {old : Entry} (entry : Entry) (hold : fs.entry? location = some old) (hfile : old.IsFile)
    (hentry : entry.IsFile) :
    fs.Spares (fs.put location entry) (· ≠ location)
      ∧ FileSystem.entry? (fs.put location entry) location = some entry := by
  -- the root is no file
  have hroot : location ≠ [] := by
    rintro rfl
    rw [directory_root] at hold
    cases hold
    obtain ⟨_, _, hdirectory⟩ := hfile
    cases hdirectory
  have hnew : FileSystem.entry? (fs.put location entry) location = some entry := by
    rw [entry?_put, if_neg hroot, if_pos rfl]
  have hother : ∀ l, l ≠ location → FileSystem.entry? (fs.put location entry) l = fs.entry? l := by
    intro l hne
    rw [entry?_put, if_neg (Ne.symm hne)]
    split
    · next h => rw [h, directory_root]
    · rfl
  refine ⟨⟨fun l e hl hkept => ?_, fun l e hl hfile' => ?_, fun l hl => ?_, rfl⟩, hnew⟩
  · rw [hother l, hl]
    rintro rfl
    cases hold.symm.trans hl
    exact hkept.elim (· rfl) (· hfile)
  · by_cases hne : l = location
    · exact ⟨entry, hne ▸ hnew, hentry⟩
    · exact ⟨e, (hother l hne).trans hl, hfile'⟩
  · by_cases hne : l = location
    · rw [hne, hold]
      rfl
    · rwa [hother l hne] at hl

/-! ## Searches -/

/-- A search only meets directories and links on its way. -/
theorem Step.of_spares (h : fs.Step last s t) (hspares : fs.Spares fs' place) : fs'.Step last s t := by
  cases h with
  | skip hname => exact .skip hname
  | up => exact .up
  | enter hname hentry => exact .enter hname (hspares.kept _ _ hentry (.inr nofun))
  | follow hname hentry hrest => exact .follow hname (hspares.kept _ _ hentry (.inr nofun)) hrest

/-- What is found is found in the same place. -/
theorem Spares.walk {path : List String} (h : fs.Spares fs' place) (hlast : last ≠ .fill)
    (hwalk : fs.walk last links base path = .ok location) (hfound : (fs.entry? location).isSome) :
    fs'.walk last links base path = .ok location := by
  obtain ⟨s, hsteps, hends⟩ := (walk_eq_ok_iff hlast).mp hwalk
  have hsteps' : fs'.Steps last ⟨links, base, path⟩ s :=
    Relation.ReflTransGen.mono (fun _ _ hstep => hstep.of_spares h) _ _ hsteps
  refine (walk_eq_ok_iff hlast).mpr ⟨s, hsteps', ?_⟩
  cases hends with
  | inside => exact .inside
  | missing _ hmissing =>
    rw [hmissing] at hfound
    cases hfound
  | file hname hfile =>
    -- another file may be there now, but no directory and no link
    obtain ⟨_, hfile', _, _, rfl⟩ := h.files _ _ hfile ⟨_, _, rfl⟩
    exact .file hname hfile'
  | link hname hlink hkeep => exact .link hname (h.kept _ _ hlink (.inr nofun)) hkeep

/-- What is found has a path that passes the checks. -/
theorem checkPath_of_find {entry : Entry} (h : fs.find last path = .ok (location, entry)) :
    checkPath path = .ok () := by
  unfold find locate at h
  cases hcheck : checkPath path with
  | error e =>
    rw [hcheck] at h
    cases h
  | ok u => rfl

/-- Whatever is now at a place where something was found is found there. -/
theorem Spares.find {entry entry' : Entry} (h : fs.Spares fs' place) (hlast : last ≠ .fill)
    (hfind : fs.find last path = .ok (location, entry)) (hentry' : fs'.entry? location = some entry') :
    fs'.find last path = .ok (location, entry') := by
  obtain ⟨hwalk, hentry⟩ := walk_of_find hfind
  refine find_of_walk (checkPath_of_find hfind) ?_ hentry'
  have hstart : fs'.start path = fs.start path := by
    unfold start
    rw [h.working]
  rw [hstart]
  exact h.walk hlast hwalk (by rw [hentry]; rfl)

/-- **What is spared is read as before.** -/
theorem Spares.readText_eq {entry : Entry} (h : fs.Spares fs' place)
    (hfind : fs.find .follow path = .ok (location, entry)) (hplace : place location) :
    fs'.readText path = fs.readText path := by
  have hentry' := h.kept location entry (walk_of_find hfind).2 (.inl hplace)
  unfold readText readBytes status
  rw [hfind, h.find (by decide) hfind hentry']

theorem Spares.isDirectory (h : fs.Spares fs' place) (hdirectory : fs.isDirectory path = true) :
    fs'.isDirectory path = true := by
  obtain ⟨location, hfind⟩ := exists_find_of_isDirectory hdirectory
  have hentry' := h.kept location .directory (walk_of_find hfind).2 (.inr nofun)
  unfold FileSystem.isDirectory status
  rw [h.find (by decide) hfind hentry']
  rfl

/-- A file can be replaced where one could be replaced before. -/
theorem Replaceable.of_spares (h : fs.Replaceable path location) (hspares : fs.Spares fs' place) :
    fs'.Replaceable path location := by
  obtain ⟨entry, hfind, hfile⟩ := h.file
  obtain ⟨entry', hentry', hfile'⟩ := hspares.files location entry (walk_of_find hfind).2 hfile
  refine ⟨fun parent hparent => hspares.isDirectory (h.directory parent hparent), entry', ?_, hfile'⟩
  exact hspares.find (by decide) hfind hentry'

/-- A file can be replaced by the path that has the names that lead to it. -/
theorem Sound.replaceable {entry : Entry} (h : fs.Sound) (hentry : fs.entry? (base ++ [name]) = some entry)
    (hfile : entry.IsFile) (hpath : checkPath path = .ok ()) (habsolute : Path.isAbsolute path = true)
    (hsegments : searchSegments path = base ++ [name])
    (hparent : ∀ parent, Path.parent? path = some parent → checkPath parent = .ok ()
      ∧ Path.isAbsolute parent = true ∧ trail parent = base) :
    fs.Replaceable path (base ++ [name]) := by
  have hsome : (fs.entry? (base ++ [name])).isSome := by
    rw [hentry]
    rfl
  have hbase := h.parent base name hsome
  -- a location is its own way from the root
  have hlead := h.leads_location hbase linkLimit
  have hstart : ∀ q, Path.isAbsolute q = true → fs.start q = [] := fun q hq => if_pos hq
  refine ⟨fun parent hq => ?_, entry, ?_, hfile⟩
  · obtain ⟨hcheck, hroot, htrail⟩ := hparent parent hq
    have hthere : fs.Leads linkLimit (fs.start parent) (trail parent) linkLimit base := by
      rw [hstart parent hroot, htrail]
      exact hlead
    unfold isDirectory status
    rw [find_of_leads hcheck hthere hbase]
    rfl
  · obtain ⟨contents, executable, rfl⟩ := hfile
    refine find_of_walk hpath ?_ hentry
    have hwalk : fs.walk .keep linkLimit [] (base ++ [name]) = fs.walk .keep linkLimit base [name] :=
      hlead.walk_append (by decide) (by simp)
    rw [hstart path habsolute, hsegments, hwalk]
    exact walk_file (h.name base name hsome).1 (by decide) hentry

/-! ## Writing -/

/-- A search for a place to be filled goes like one that leaves a link at its end as it is, if that ends at a
name. Induction from the end of the run: no slash is behind the name, so there is none on the way. -/
theorem walk_fill_of_steps (hname : name ≠ "") (h : fs.Steps .keep s ⟨left, here, [name]⟩) :
    s.path.getLast? = some name
      ∧ fs.walk .fill s.links s.here s.path = fs.walk .fill left here [name] := by
  induction h using Relation.ReflTransGen.head_induction_on with
  | refl => exact ⟨rfl, rfl⟩
  | head hstep _ ih =>
    obtain ⟨hlast, hwalk⟩ := ih
    have hcons : ∀ {first : String} {rest : List String}, rest.getLast? = some name →
        (first :: rest).getLast? = some name := by
      intro first rest hrest
      rw [List.getLast?_cons, hrest]
      rfl
    have hslash : ∀ {rest : List String}, rest.getLast? = some name →
        ¬(LastStep.fill = .fill ∧ rest = [""]) := by
      rintro rest hrest ⟨-, rfl⟩
      exact hname (Option.some.inj hrest).symm
    -- in front of the last name a walk that writes takes the same steps as one that looks
    cases hstep with
    | skip hskip =>
      refine ⟨hcons hlast, ?_⟩
      rw [walk, if_pos hskip, hwalk]
    | up =>
      refine ⟨hcons hlast, ?_⟩
      rw [walk, if_neg (by decide), if_pos rfl, hwalk]
    | enter hplain hentry =>
      refine ⟨hcons hlast, ?_⟩
      rw [walk_name hplain (hslash hlast), hentry]
      exact hwalk
    | @follow links here _ rest target hplain hentry hgo =>
      have hne : rest ≠ [] := fun hnil => absurd (hgo hnil) (by decide)
      have hrest : rest.getLast? = some name := by
        rwa [List.getLast?_append, List.getLast?_eq_some_getLast hne, Option.some_or,
          ← List.getLast?_eq_some_getLast hne] at hlast
      refine ⟨hcons hrest, ?_⟩
      rw [walk_name hplain (hslash hrest), hentry]
      dsimp only
      rw [if_neg (by simp)]
      exact hwalk

/-- What is found at the end of a path in a sound file system, if it is a file, stands behind a name in a
directory. -/
theorem Sound.steps_of_find {entry : Entry} (h : fs.Sound) (hfind : fs.find .keep path = .ok (location, entry))
    (hfile : entry.IsFile) :
    ∃ left here name, fs.Steps .keep ⟨linkLimit, fs.start path, searchSegments path⟩ ⟨left, here, [name]⟩
      ∧ IsPlain name ∧ location = here ++ [name] := by
  obtain ⟨hwalk, hentry⟩ := walk_of_find hfind
  obtain ⟨contents, executable, rfl⟩ := hfile
  obtain ⟨s, hsteps, hends⟩ := (walk_eq_ok_iff (by decide)).mp hwalk
  -- only a file can be where a file was found
  cases hends with
  | inside =>
    have hdirectory := h.directory_of_steps hsteps (h.directory_start path)
    cases hdirectory.symm.trans hentry
  | missing _ hmissing => cases hmissing.symm.trans hentry
  | file hname _ => exact ⟨_, _, _, hsteps, hname, rfl⟩
  | link _ hlink _ => cases hlink.symm.trans hentry

/-- A link on the way is followed, whether or not one at the end would be. -/
theorem Step.follow_of_keep (h : fs.Step .keep s t) : fs.Step .follow s t := by
  cases h with
  | skip hname => exact .skip hname
  | up => exact .up
  | enter hname hentry => exact .enter hname hentry
  | follow hname hentry _ => exact .follow hname hentry fun _ => rfl

/-- A file that is found without following a link at the end is found by following it. -/
theorem Sound.find_follow {entry : Entry} (h : fs.Sound) (hfind : fs.find .keep path = .ok (location, entry))
    (hfile : entry.IsFile) : fs.find .follow path = .ok (location, entry) := by
  obtain ⟨left, here, name, hsteps, hname, rfl⟩ := h.steps_of_find hfind hfile
  have hentry := (walk_of_find hfind).2
  obtain ⟨contents, executable, rfl⟩ := hfile
  have hsteps' : fs.Steps .follow ⟨linkLimit, fs.start path, searchSegments path⟩ ⟨left, here, [name]⟩ :=
    Relation.ReflTransGen.mono (fun _ _ hstep => hstep.follow_of_keep) _ _ hsteps
  exact find_of_walk (checkPath_of_find hfind)
    ((walk_eq_ok_iff (by decide)).mpr ⟨_, hsteps', .file hname hentry⟩) hentry

/-- A directory that is there cannot be made. -/
theorem makeDirectory_of_isDirectory (h : fs.isDirectory path = true) :
    fs.makeDirectory path = .error .alreadyExists := by
  obtain ⟨location, hfind⟩ := exists_find_of_isDirectory h
  obtain ⟨hwalk, hentry⟩ := walk_of_find hfind
  obtain ⟨left, hlead⟩ := leads_of_walk hwalk hentry
  rw [← leads_meant_iff, meant_searchSegments, ← meant_segments, leads_meant_iff] at hlead
  unfold makeDirectory
  rw [checkPath_of_find hfind]
  dsimp only
  split
  · rfl
  next name hlast =>
  obtain ⟨front, hsegments⟩ := List.getLast?_eq_some_iff.mp hlast
  rw [hsegments] at hlead ⊢
  obtain ⟨mid, middle, hfront, hname⟩ := leads_append_iff.mp hlead
  split
  · -- the segments in front of the last one lead somewhere
    have hdot : fs.walk .follow mid middle ["."] = .ok middle := by
      rw [walk, if_pos (.inl rfl), walk]
    rw [List.dropLast_concat, hfront.walk_append (by decide) fun _ => rfl, hdot]
  next hstep =>
  have hsegment := Path.isSegment_of_mem_segments (List.mem_of_getLast? hlast)
  have hskip : ¬(name = "." ∨ name = "") := fun hor => hor.elim (fun hdot => hstep (.inl hdot)) hsegment.1
  obtain ⟨hplain, hthere⟩ := (leads_name_iff hskip fun hup => hstep (.inr hup)).mp hname
  -- a directory or a link stands at the last name
  have hlocation : fs.walk .keep mid middle [name] = .ok (middle ++ [name])
      ∧ (fs.entry? (middle ++ [name])).isSome := by
    rcases hthere with ⟨hdirectory, -⟩ | ⟨_, target, -, hlink, -⟩
    · rw [walk_directory hplain (by decide) hdirectory, walk, hdirectory]
      exact ⟨rfl, rfl⟩
    · rw [walk_kept_link hplain hlink, hlink]
      exact ⟨rfl, rfl⟩
  have hend : fs.walk .keep linkLimit (fs.start path) (front ++ [name]) = fs.walk .keep mid middle [name] :=
    hfront.walk_append (by decide) (by simp)
  rw [hend, hlocation.1]
  exact if_pos hlocation.2

/-- Nothing is missing on the way to a directory that is there. -/
theorem createDirectories_of_isDirectory (h : fs.isDirectory path = true) :
    fs.createDirectories path = (.ok (), fs) := by
  unfold createDirectories createUnder
  rw [makeDirectory_of_isDirectory h]
  simp only [h, if_true, ite_self]

/-- **A file is replaced**: the text is written and read back, and nothing else changes. -/
theorem Replaceable.writeText (h : fs.Replaceable path location) (hsound : fs.Sound) (text : String) :
    ∃ after, fs.writeText path text = .ok after ∧ fs.Spares after (· ≠ location)
      ∧ after.readText path = .ok text := by
  obtain ⟨old, hfind, hfile⟩ := h.file
  have hold := (walk_of_find hfind).2
  obtain ⟨left, here, name, hsteps, hname, rfl⟩ := hsound.steps_of_find hfind hfile
  have hfollow := hsound.find_follow hfind hfile
  obtain ⟨contents, executable, rfl⟩ := hfile
  -- the text goes where the file was found
  have hwalk : fs.walk .fill linkLimit (fs.start path) (searchSegments path) = .ok (here ++ [name]) := by
    rw [(walk_fill_of_steps hname.2.1 hsteps).2, walk_name hname (by simp), hold]
    rfl
  obtain ⟨hspares, hnew⟩ := spares_put (.file text.toUTF8 executable) hold ⟨_, _, rfl⟩ ⟨_, _, rfl⟩
  refine ⟨fs.put (here ++ [name]) (.file text.toUTF8 executable), ?_, hspares, ?_⟩
  · unfold FileSystem.writeText write locate
    rw [checkPath_of_find hfind]
    simp only [hwalk, hold, Option.getD_none]
  · -- and it can be read there, since every text is valid
    exact readText_of_find (hspares.find (by decide) hfollow hnew) (dif_pos text.isValidUTF8)

end FileSystem

end TemplateCoverage
