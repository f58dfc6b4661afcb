import TemplateCoverage.Proofs.FileSystem.Sound

/-!
# Making missing directories

A path that exists up to some point, and goes on with names from there, leads to those names in the directory
where it stops to exist. The directories that are made for the path, from left to right, are that one and the
ones above it, and nothing else changes, also if one of them cannot be made.

* **`makeDirectory_cases`**: what it takes to make a directory.
* **`Grown.here_eq`**: how far a search gets while the directories are made.
* **`grown_makeDirectory`**: what making one of the directories adds.
* **`createUnder_run`**: what making one keeps is kept when all that are missing are made.
* **`grown_createDirectories`**: what this adds, and that the path then leads to the last of them if nothing
  fails.
-/

namespace TemplateCoverage.FileSystem

open TemplateCoverage.Path (IsSegment trail)

variable {fs fs' made : FileSystem} {links left : Nat} {base here target location : Location} {name path : String}
  {front missing : List String}

/-! ## Searches for paths -/

/-- The names of a path that mean something are its trail. -/
theorem meant_segments (path : String) : meant (Path.segments path) = trail path := by
  refine List.filter_congr fun s hs => ?_
  have hne := (Path.isSegment_of_mem_segments hs).1
  simp [hne]

theorem meant_searchSegments (path : String) : meant (searchSegments path) = trail path := by
  have hlast : meant (if Path.endsWithSlash path then [""] else []) = [] := by
    split <;> rfl
  rw [searchSegments, meant, List.filter_append, ← meant, ← meant, hlast, meant_segments, List.append_nil]

/-- A path starts at a directory. -/
theorem Sound.directory_start (h : fs.Sound) (path : String) : fs.entry? (fs.start path) = some .directory := by
  unfold start
  split
  · exact directory_root fs
  · exact h.working

/-- The directory from which a path is followed has a path of its own. -/
theorem Sound.leads_root (h : fs.Sound) {more : List String}
    (hlead : fs.Leads linkLimit (fs.start path) more left here) :
    fs.Leads linkLimit [] (fs.start path ++ more) left here :=
  leads_append_iff.mpr ⟨_, _, h.leads_location (h.directory_start path) linkLimit, hlead⟩

/-- What is found stands where the search for the path ends. -/
theorem walk_of_find {last : LastStep} {entry : Entry} (h : fs.find last path = .ok (location, entry)) :
    fs.walk last linkLimit (fs.start path) (searchSegments path) = .ok location
      ∧ fs.entry? location = some entry := by
  unfold find locate at h
  -- what is found is what the walk has come to
  split at h
  · cases h
  next hwalk =>
  split at h
  · cases h
  next hentry =>
  cases h
  split at hwalk
  · cases hwalk
  · exact ⟨hwalk, hentry⟩

/-- A directory that is found has the segments of the path lead to it. -/
theorem Sound.leads_of_find (h : fs.Sound) (hfind : fs.find .follow path = .ok (location, .directory)) :
    ∃ left, fs.Leads linkLimit [] (fs.start path ++ trail path) left location := by
  obtain ⟨hwalk, hentry⟩ := walk_of_find hfind
  obtain ⟨left, hlead⟩ := leads_of_walk hwalk hentry
  rw [← leads_meant_iff, meant_searchSegments] at hlead
  exact ⟨left, h.leads_root hlead⟩

/-- The segments of a path that lead to a directory find it. -/
theorem find_of_leads (hpath : checkPath path = .ok ())
    (hlead : fs.Leads linkLimit (fs.start path) (trail path) left here)
    (hentry : fs.entry? here = some .directory) :
    fs.find .follow path = .ok (here, .directory) := by
  rw [← meant_searchSegments, leads_meant_iff] at hlead
  exact find_of_walk hpath hlead.walk_eq hentry

/-! ## One directory -/

/-- A search that leaves a link at its end as it is ends at the name. -/
theorem eq_of_walk_keep (hskip : ¬(name = "." ∨ name = "")) (hup : name ≠ "..")
    (h : fs.walk .keep links here [name] = .ok location) : IsPlain name ∧ location = here ++ [name] := by
  obtain ⟨s, hsteps, hends⟩ := (walk_eq_ok_iff (by decide)).mp h
  -- the name is the last one, so a link is not followed
  rcases hsteps.cases_head with hsame | ⟨t, hstep, hrest⟩
  · subst hsame
    cases hends with
    | missing hname => exact ⟨hname, rfl⟩
    | file hname => exact ⟨hname, rfl⟩
    | link hname => exact ⟨hname, rfl⟩
  · cases hstep with
    | skip hname => exact absurd hname hskip
    | up => exact absurd rfl hup
    | enter hname hentry =>
      rw [walk_directory hname (by decide) hentry, walk] at h
      exact ⟨hname, (Except.ok.inj h).symm⟩
    | follow _ _ hkeep => cases hkeep rfl

/-- A directory is made at a name behind segments that lead somewhere, if nothing stands there. -/
theorem makeDirectory_cases (h : fs.makeDirectory path = .ok made) :
    ∃ front name left here, checkPath path = .ok () ∧ trail path = front ++ [name] ∧ IsPlain name ∧ IsSegment name
      ∧ fs.Leads linkLimit (fs.start path) front left here ∧ fs.entry? (here ++ [name]) = none
      ∧ made = fs.put (here ++ [name]) .directory := by
  unfold makeDirectory at h
  split at h
  · cases h
  -- the tests come in the order of the program, and each of them has been passed
  next hpath =>
  dsimp only at h
  split at h
  · cases h
  next name hlast =>
  obtain ⟨front, hsegments⟩ := List.getLast?_eq_some_iff.mp hlast
  split at h
  · split at h <;> cases h
  next hname =>
  split at h
  · cases h
  next location hwalk =>
  split at h
  · cases h
  next hmissing =>
  have hsegment : IsSegment name := Path.isSegment_of_mem_segments (List.mem_of_getLast? hlast)
  have hskip : ¬(name = "." ∨ name = "") := fun hor => hor.elim (fun hdot => hname (.inl hdot)) hsegment.1
  have hup : name ≠ ".." := fun hup => hname (.inr hup)
  rw [hsegments] at hwalk
  -- all names but the last lead to the directory in which the new one is put
  obtain ⟨left, here, hlead, hend⟩ := leads_of_walk_append hwalk (by decide) (List.cons_ne_nil name [])
  obtain ⟨hplain, rfl⟩ := eq_of_walk_keep hskip hup hend
  have htrail : trail path = meant front ++ [name] := by
    rw [← meant_segments, hsegments, meant, List.filter_append, ← meant, ← meant, meant_cons_of_not_skip hskip]
    rfl
  exact ⟨meant front, name, left, here, hpath, htrail, hplain, hsegment, leads_meant_iff.mpr hlead,
    Option.not_isSome_iff_eq_none.mp hmissing, (Except.ok.inj h).symm⟩

/-- A directory that was made is found. -/
theorem find_makeDirectory (h : fs.makeDirectory path = .ok made) :
    ∃ location, made.find .follow path = .ok (location, .directory) := by
  obtain ⟨front, name, left, here, hpath, htrail, hplain, -, hlead, hmissing, rfl⟩ := makeDirectory_cases h
  have hentry : FileSystem.entry? (fs.put (here ++ [name]) .directory) (here ++ [name]) = some .directory := by
    simp
  have hlast : FileSystem.Leads (fs.put (here ++ [name]) .directory) left here [name] left (here ++ [name]) :=
    .head (.enter hplain hentry) .refl
  have hmore := leads_append_iff.mpr ⟨_, _, hlead.mono (extends_put hmissing), hlast⟩
  rw [← htrail] at hmore
  exact ⟨_, find_of_leads hpath hmore hentry⟩

/-- A directory that is there is not made again. -/
theorem makeDirectory_ne_ok (hlead : fs.Leads linkLimit (fs.start path) (trail path) left here) :
    fs.makeDirectory path ≠ .ok made := by
  intro h
  obtain ⟨front, name, mid, middle, -, htrail, hplain, -, hfront, hmissing, -⟩ := makeDirectory_cases h
  obtain ⟨hdot, hempty, hup, -⟩ := hplain
  rw [htrail] at hlead
  obtain ⟨_, _, hfront', hname⟩ := leads_append_iff.mp hlead
  have hsame := hfront'.here_eq hfront
  subst hsame
  obtain ⟨-, ⟨hentry, -⟩ | ⟨_, _, -, hentry, -⟩⟩ := (leads_name_iff (not_or.mpr ⟨hdot, hempty⟩) hup).mp hname <;>
    rw [hmissing] at hentry <;> cases hentry

/-- Nothing can be made behind a missing name. -/
theorem makeDirectory_behind_missing {rest : List String} (hpath : checkPath path = .ok ())
    (hsegments : Path.segments path = name :: rest) (hrest : rest ≠ []) (hname : IsPlain name)
    (hmissing : fs.entry? (fs.start path ++ [name]) = none) : fs.makeDirectory path = .error .notFound := by
  obtain ⟨last, hlast⟩ := Option.ne_none_iff_exists'.mp (List.getLast?_eq_none_iff.not.mpr hrest)
  have hlast' : (name :: rest).getLast? = some last := by
    rw [List.getLast?_cons, hlast]
    rfl
  unfold makeDirectory
  rw [hpath]
  dsimp only
  rw [hsegments, hlast']
  dsimp only
  split
  · -- whatever the last name is, the first one is missing and others come behind it
    have hparts : (name :: rest).dropLast ++ ["."] = name :: (rest.dropLast ++ ["."]) := by
      rw [List.dropLast_cons_of_ne_nil hrest, List.cons_append]
    rw [hparts, walk_behind_missing hname (by decide) hmissing (by simp)]
  · rw [walk_behind_missing hname (by decide) hmissing hrest]

/-! ## All that are missing -/

/-- Segments of which the first ones exist and lead somewhere, and the others are names of which the first one
is missing there. -/
structure Frontier (fs : FileSystem) (front missing : List String) (base : Location) : Prop where
  walk : fs.walk .follow linkLimit [] front = .ok base
  found : (fs.entry? base).isSome
  names : ∀ name ∈ missing, ¬(name = "." ∨ name = "") ∧ name ≠ ".."
  furthest : missing ≠ [] → ∀ left here, ¬fs.Leads linkLimit [] (front ++ missing.take 1) left here

/-- A file system to which directories were added on the way to a location. -/
structure Grown (fs fs' : FileSystem) (target : Location) : Prop where
  sound : fs'.Sound
  kept : fs.Extends fs'
  added : ∀ location entry, fs'.entry? location = some entry →
    fs.entry? location = some entry ∨ entry = .directory ∧ location <+: target
  working : fs'.workingDirectory = fs.workingDirectory

theorem Grown.refl (h : fs.Sound) : fs.Grown fs target :=
  ⟨h, fun _ _ hentry => hentry, fun _ _ hentry => .inl hentry, rfl⟩

/-- The working directory stays the same. -/
theorem Grown.start_eq (h : fs.Grown fs' target) (path : String) : fs'.start path = fs.start path := by
  unfold start
  rw [h.working]

/-- A directory on the way to the target may be added. -/
theorem Grown.put (h : fs.Grown fs' target) (hbase : fs'.entry? base = some .directory) (hname : IsPlain name)
    (hsegment : IsSegment name) (hmissing : fs'.entry? (base ++ [name]) = none)
    (hbegin : base ++ [name] <+: target) : fs.Grown (fs'.put (base ++ [name]) .directory) target := by
  refine ⟨h.sound.put hbase hname hsegment hmissing,
    fun l e hl => extends_put hmissing l e (h.kept l e hl), fun l e hl => ?_, h.working⟩
  -- what is there afterwards is the new directory or was there before
  have hput := entry?_put fs' (base ++ [name]) l .directory
  rw [hput] at hl
  split at hl
  · next hroot =>
    cases hl
    rw [hroot, directory_root]
    exact .inl rfl
  · split at hl
    · next hhere =>
      cases hl
      exact .inr ⟨rfl, hhere ▸ hbegin⟩
    · exact h.added l e hl

/-- Where no links are, names lead to themselves. Induction on the names. -/
theorem eq_of_leads_names {names : List String} (hnames : ∀ name ∈ names, ¬(name = "." ∨ name = "") ∧ name ≠ "..")
    (hlinks : ∀ more target, more <+: names → more ≠ [] → fs.entry? (base ++ more) ≠ some (.link target))
    (h : fs.Leads links base names left here) : here = base ++ names := by
  induction names generalizing links base with
  | nil => rw [← (leads_nil_iff.mp h).2, List.append_nil]
  | cons name names ih =>
    obtain ⟨⟨hskip, hup⟩, hlater⟩ := List.forall_mem_cons.mp hnames
    obtain ⟨-, ⟨-, hlead⟩ | ⟨-, target, -, hentry, -⟩⟩ := (leads_name_iff hskip hup).mp h
    · -- no name on the way is a link, so each one is entered
      have hlinks' : ∀ more target, more <+: names → more ≠ [] →
          fs.entry? (base ++ [name] ++ more) ≠ some (.link target) := by
        intro more target hmore _
        rw [List.append_assoc]
        exact hlinks _ target ((List.prefix_cons_inj name).mpr hmore) (List.cons_ne_nil name more)
      rw [ih hlater hlinks' hlead, List.append_assoc, List.singleton_append]
    · exact absurd hentry (hlinks [name] target ⟨names, rfl⟩ (List.cons_ne_nil name []))

/-- If the first missing name can be entered while the directories are made, nothing stood there before. A
directory would not have been missing. Behind anything else nothing can be made, so a link there leads to where
it led before, and that was nowhere. -/
theorem Grown.entry?_eq_none (hgrown : fs.Grown fs' (base ++ missing)) (hsound : fs.Sound)
    (hfrontier : fs.Frontier front missing base) (hname : [name] <+: missing)
    (hlead : fs'.Leads linkLimit [] (front ++ [name]) left here) : fs.entry? (base ++ [name]) = none := by
  have hnowhere : ∀ left here, ¬fs.Leads linkLimit [] (front ++ [name]) left here := by
    obtain ⟨later, rfl⟩ := hname
    exact hfrontier.furthest (List.cons_ne_nil name later)
  cases hentry : fs.entry? (base ++ [name]) with
  | none => rfl
  | some entry =>
    have hsome : (fs.entry? (base ++ [name])).isSome := by rw [hentry]; rfl
    by_cases hdirectory : entry = .directory
    · subst hdirectory
      obtain ⟨mid, hfront⟩ := leads_of_walk hfrontier.walk (hsound.parent base name hsome)
      have hlast : fs.Leads mid base [name] mid (base ++ [name]) :=
        .head (.enter (hsound.name base name hsome).1 hentry) .refl
      exact absurd (leads_append_iff.mpr ⟨_, _, hfront, hlast⟩) (hnowhere _ _)
    · have hother : fs'.entry? (base ++ [name]) ≠ some .directory := by
        rw [hgrown.kept _ _ hentry]
        exact fun h => hdirectory (Option.some.inj h)
      -- what was added is above this place or beneath it, and both would make it a directory
      have hback : fs'.Extends fs := by
        intro l e hl
        rcases hgrown.added l e hl with hold | ⟨rfl, hbegin⟩
        · exact hold
        have hhere : base ++ [name] <+: base ++ missing := (List.prefix_append_right_inj base).mpr hname
        rcases List.prefix_or_prefix_of_prefix hbegin hhere with habove | hbelow
        · rcases hsound.directory_of_above hsome habove with rfl | hold
          · exact absurd hl hother
          · exact hold
        · rcases hgrown.sound.directory_of_above (by rw [hl]; rfl) hbelow with rfl | hnew
          · exact absurd hl hother
          · exact absurd hnew hother
      exact absurd (hlead.mono hback) (hnowhere _ _)

/-- **How far a search gets while the directories are made**: through the new ones, and nowhere else. -/
theorem Grown.here_eq (hgrown : fs.Grown fs' (base ++ missing)) (hsound : fs.Sound)
    (hfrontier : fs.Frontier front missing base) {names : List String} (hbegin : names <+: missing)
    (h : fs'.Leads linkLimit [] (front ++ names) left here) : here = base ++ names := by
  obtain ⟨mid, middle, hlead, hrest⟩ := leads_append_iff.mp h
  -- the segments that exist still lead where they led
  have hmiddle : middle = base :=
    Except.ok.inj (hlead.walk_eq.symm.trans (walk_mono hfrontier.walk hfrontier.found hgrown.kept))
  subst hmiddle
  refine eq_of_leads_names (fun n hn => hfrontier.names n (hbegin.subset hn))
    (fun more target hmore hne => ?_) hrest
  obtain ⟨name, rest, rfl⟩ := List.exists_cons_of_ne_nil hne
  have hfirst : [name] <+: names := (List.prefix_append [name] rest).trans hmore
  obtain ⟨others, rfl⟩ := hfirst
  rw [← List.append_assoc] at h
  obtain ⟨_, _, hname, -⟩ := leads_append_iff.mp h
  have hmissing := hgrown.entry?_eq_none hsound hfrontier ((List.prefix_append [name] others).trans hbegin) hname
  -- nothing stood beneath the first missing name either
  intro hlink
  rcases hgrown.added _ _ hlink with hold | ⟨hdirectory, -⟩
  · have hbeneath : middle ++ [name] <+: middle ++ name :: rest := ⟨rest, by simp⟩
    rcases hsound.directory_of_above (by rw [hold]; rfl) hbeneath with hsame | habove
    · rw [← hsame, hmissing] at hold
      cases hold
    · rw [habove] at hmissing
      cases hmissing
  · cases hdirectory

/-- A search that finds something finds its first name where it begins. -/
theorem isSome_of_walk_cons {more : List String} (hname : IsPlain name)
    (h : fs.walk .follow links here (name :: more) = .ok location) (hfound : (fs.entry? location).isSome) :
    (fs.entry? (here ++ [name])).isSome := by
  by_contra hmissing
  have hnone := Option.not_isSome_iff_eq_none.mp hmissing
  -- a missing name ends the walk: at itself if it is the last one, and without success if not
  by_cases hmore : more = []
  · subst hmore
    rw [walk_missing hname (by decide) hnone] at h
    rw [← Except.ok.inj h] at hfound
    exact hmissing hfound
  · rw [walk_behind_missing hname (by decide) hnone hmore] at h
    cases h

/-- What the segments in front of the missing names go through exists, so none of it is made. -/
theorem Grown.isSome_in_front (hgrown : fs.Grown fs' target) (hfrontier : fs.Frontier front missing base)
    {way : List String} (hfront : way ++ [name] <+: front) (hplain : IsPlain name)
    (hlead : fs'.Leads linkLimit [] way left here) : (fs'.entry? (here ++ [name])).isSome := by
  obtain ⟨more, rfl⟩ := hfront
  have hwalk := hfrontier.walk
  rw [List.append_assoc, List.singleton_append] at hwalk
  -- the way is the one that was walked before anything was added
  obtain ⟨mid, middle, hway, hrest⟩ := leads_of_walk_append hwalk (by decide) (List.cons_ne_nil name more)
  have hsame : middle = here := (hway.mono hgrown.kept).here_eq hlead
  obtain ⟨entry, hentry⟩ := Option.isSome_iff_exists.mp (isSome_of_walk_cons hplain hrest hfrontier.found)
  rw [hsame] at hentry
  rw [hgrown.kept _ _ hentry]
  rfl

/-- The path begins like the segments that exist and the names behind them. -/
def OnTheWay (fs : FileSystem) (segments : List String) (path : String) : Prop :=
  fs.start path ++ trail path <+: segments

/-- One more directory is made on the way to the missing names: behind the segments that exist, in the directory
that the names before it lead to. -/
theorem grown_makeDirectory (hsound : fs.Sound) (hfrontier : fs.Frontier front missing base)
    (hgrown : fs.Grown fs' (base ++ missing)) (hpath : fs.OnTheWay (front ++ missing) path)
    (h : fs'.makeDirectory path = .ok made) : fs.Grown made (base ++ missing) := by
  obtain ⟨names, name, left, here, -, htrail, hplain, hsegment, hlead, hmissing, rfl⟩ := makeDirectory_cases h
  have hhere : fs'.entry? here = some .directory :=
    hgrown.sound.directory_of_leads hlead (hgrown.sound.directory_start path)
  have hroot := hgrown.sound.leads_root hlead
  unfold OnTheWay at hpath
  rw [htrail, ← List.append_assoc, ← hgrown.start_eq] at hpath
  generalize fs'.start path ++ names = way at hroot hpath
  -- within the segments that exist nothing is missing; behind them the new name is the next of the missing ones
  rcases Nat.lt_or_ge way.length front.length with hshort | hlong
  · have hlength : (way ++ [name]).length ≤ front.length := by
      rw [List.length_append, List.length_singleton]
      omega
    have hfront : way ++ [name] <+: front :=
      List.prefix_of_prefix_length_le hpath (List.prefix_append front missing) hlength
    have hsome := hgrown.isSome_in_front hfrontier hfront hplain hroot
    rw [hmissing] at hsome
    cases hsome
  · have hway : front <+: way := List.prefix_of_prefix_length_le (List.prefix_append front missing)
      ((List.prefix_append way [name]).trans hpath) hlong
    obtain ⟨some, rfl⟩ := hway
    rw [List.append_assoc, List.prefix_append_right_inj] at hpath
    have hend := hgrown.here_eq hsound hfrontier ((List.prefix_append some [name]).trans hpath) hroot
    refine hgrown.put hhere hplain hsegment hmissing ?_
    rw [hend, List.append_assoc, List.prefix_append_right_inj]
    exact hpath

/-- A path that is said to be a directory leads to one. -/
theorem exists_find_of_isDirectory (h : fs.isDirectory path = true) :
    ∃ location, fs.find .follow path = .ok (location, .directory) := by
  unfold isDirectory status at h
  cases hfind : fs.find .follow path with
  | error e =>
    rw [hfind] at h
    cases h
  | ok found =>
    obtain ⟨location, entry⟩ := found
    rw [hfind] at h
    cases entry with
    | directory => exact ⟨location, rfl⟩
    | file _ _ => cases h
    | link _ => cases h

/-- What making one directory keeps is kept when all that are missing are made. If nothing fails, the path leads
to a directory. Induction on the paths above. -/
theorem createUnder_run {P : FileSystem → Prop} {above : List String}
    (hstep : ∀ q ∈ path :: above, ∀ before after, P before → before.makeDirectory q = .ok after → P after)
    (h : P fs) :
    P (fs.createUnder path above).2
      ∧ ((fs.createUnder path above).1 = .ok () → path ≠ "" →
        ∃ location, (fs.createUnder path above).2.find .follow path = .ok (location, .directory)) := by
  -- one case for each way through the recursion: made at once, or made after what is above it, or already there
  fun_induction createUnder fs path above with
  | case1 path above hempty => exact ⟨h, fun _ hne => absurd (String.isEmpty_iff.mp hempty) hne⟩
  | case2 path above _ made hmade =>
    exact ⟨hstep path List.mem_cons_self fs made h hmade, fun _ _ => find_makeDirectory hmade⟩
  | case3 path _ parent further _ e after hafter ih =>
    have hkept := (ih fun q hq => hstep q (List.mem_cons_of_mem path hq)).1
    rw [hafter] at hkept
    exact ⟨hkept, fun h => nomatch h⟩
  | case4 path _ parent further _ after hafter made hmade ih =>
    have hkept := (ih fun q hq => hstep q (List.mem_cons_of_mem path hq)).1
    rw [hafter] at hkept
    exact ⟨hstep path List.mem_cons_self after made hkept hmade, fun _ _ => find_makeDirectory hmade⟩
  | case5 path _ parent further _ after hafter e _ ih =>
    have hkept := (ih fun q hq => hstep q (List.mem_cons_of_mem path hq)).1
    rw [hafter] at hkept
    refine ⟨hkept, fun hok _ => exists_find_of_isDirectory ?_⟩
    by_contra hnot
    simp only [if_neg hnot] at hok
    cases hok
  | case6 path above _ e _ _ =>
    refine ⟨h, fun hok _ => exists_find_of_isDirectory ?_⟩
    by_contra hnot
    simp only [if_neg hnot] at hok
    cases hok

/-- The parents of a path on the way are on the way. -/
theorem onTheWay_of_mem_parents {segments : List String} {q : String} (hpath : fs.OnTheWay segments path)
    (hq : q ∈ Path.parents path) : q = "" ∨ fs.OnTheWay segments q := by
  rcases Path.trail_of_mem_parents hq with hempty | ⟨habsolute, hbegin⟩
  · exact .inl hempty
  · have hstart : fs.start q = fs.start path := by
      unfold start
      rw [habsolute]
    unfold OnTheWay
    rw [hstart]
    exact .inr (((List.prefix_append_right_inj _).mpr hbegin).trans hpath)

/-- **Making all directories that are missing** adds directories on the way to the missing names only. If
nothing fails, the path leads to the last of them. -/
theorem grown_createDirectories (hsound : fs.Sound) (hfrontier : fs.Frontier front missing base)
    (hpath : fs.start path ++ trail path = front ++ missing) :
    fs.Grown (fs.createDirectories path).2 (base ++ missing)
      ∧ ((fs.createDirectories path).1 = .ok () → path ≠ "" →
        (fs.createDirectories path).2.find .follow path = .ok (base ++ missing, .directory)) := by
  have hall : ∀ q ∈ path :: Path.parents path, q = "" ∨ fs.OnTheWay (front ++ missing) q := by
    have hself : fs.OnTheWay (front ++ missing) path := hpath ▸ List.prefix_rfl
    intro q hq
    rcases List.mem_cons.mp hq with rfl | hq
    · exact .inr hself
    · exact onTheWay_of_mem_parents hself hq
  -- every directory that is made on the way is one of those that were missing
  have hstep : ∀ q ∈ path :: Path.parents path, ∀ before after, fs.Grown before (base ++ missing) →
      before.makeDirectory q = .ok after → fs.Grown after (base ++ missing) := by
    intro q hq before after hbefore hmade
    rcases hall q hq with rfl | hway
    · cases hmade
    · exact grown_makeDirectory hsound hfrontier hbefore hway hmade
  obtain ⟨hgrown, hfound⟩ := createUnder_run hstep (Grown.refl hsound)
  refine ⟨hgrown, fun hok hne => ?_⟩
  obtain ⟨location, hfind⟩ := hfound hok hne
  obtain ⟨left, hlead⟩ := hgrown.sound.leads_of_find hfind
  rw [hgrown.start_eq, hpath] at hlead
  -- at the end the path leads to the target, and to nowhere else
  have hlocation := hgrown.here_eq hsound hfrontier List.prefix_rfl hlead
  rw [hlocation] at hfind
  exact hfind

/-- A path may lead to a directory as soon as the ones above it are made. -/
theorem createUnder_of_above {parent : String} {further : List String} {after : FileSystem} (hne : path ≠ "")
    (hpath : checkPath path = .ok ()) (hmissing : fs.makeDirectory path = .error .notFound)
    (habove : fs.createUnder parent further = (.ok (), after))
    (hlead : after.Leads linkLimit (after.start path) (trail path) left here)
    (hhere : after.entry? here = some .directory) :
    fs.createUnder path (parent :: further) = (.ok (), after) := by
  have hdirectory : after.isDirectory path = true := by
    unfold isDirectory status
    rw [find_of_leads hpath hlead hhere]
    rfl
  unfold createUnder
  rw [if_neg (fun hempty => hne (String.isEmpty_iff.mp hempty)), hmissing]
  dsimp only
  rw [habove]
  dsimp only
  -- with what is above it the path is there already, so it cannot be made but is a directory
  cases hagain : after.makeDirectory path with
  | ok made => exact absurd hagain (makeDirectory_ne_ok hlead)
  | error e =>
    dsimp only
    rw [if_pos hdirectory]

end TemplateCoverage.FileSystem
