import TemplateCoverage.Proofs.FileSystem.Creation

/-!
# Directories that are made in a directory

Whether a path will lie in a directory is decided before it is made: what exists of it is resolved, and the
names that are missing are added to that. This is where the path leads once it is made, as long as no step up
comes behind a missing name. A path with such a step is not resolved at all, so it is taken for what its text
says.

* **`exists_frontier`**: how a path is resolved.
* **`resolved_of_not_stepsUpExist`**: when it is not.
* **`createDirectories_outside`**: what this says of the directory that is made.
* **`missingStep_inside`**: a path into a directory that is taken for one out of it.
-/

namespace TemplateCoverage.FileSystem

open TemplateCoverage.Path (IsSegment trail stepOf)

variable {fs : FileSystem} {left : Nat} {base here location root : Location} {path output directory : String}
  {front t : List String}

/-! ## Paths from the root -/

/-- An absolute path begins at the root. -/
theorem isAbsolute_absolute (fs : FileSystem) (path : String) : Path.isAbsolute (fs.absolute path) = true := by
  unfold absolute
  split
  · assumption
  · exact Path.isAbsolute_join (Path.isAbsolute_pathOf _)

/-- The trail of a path from the working directory begins with the names of that. -/
theorem Sound.trail_absolute (h : fs.Sound) (path : String) :
    trail (fs.absolute path) = fs.start path ++ trail path := by
  unfold absolute start
  split
  · rfl
  · next hrelative =>
    -- no name of the working directory is special, so all of them are kept
    have hworking : ∀ name ∈ fs.workingDirectory, IsPlain name ∧ IsSegment name := by
      have hsome : (fs.entry? fs.workingDirectory).isSome := by rw [h.working]; rfl
      exact fun name hname => h.name_of_mem hsome hname
    have hbase : pathOf fs.workingDirectory ≠ "" := by
      unfold pathOf
      simp
    have hkeep : fs.workingDirectory.filter (· ≠ ".") = fs.workingDirectory :=
      List.filter_eq_self.mpr fun name hname => decide_eq_true (hworking name hname).1.1
    unfold trail
    rw [Path.segments_join hbase (by simpa using hrelative),
      Path.segments_pathOf fun name hname => (hworking name hname).2, List.filter_append, hkeep]

/-- A canonical path is where a walk along the trail ends. -/
theorem walk_of_canonical (habsolute : Path.isAbsolute path = true) (h : fs.canonical path = .ok location) :
    fs.walk .follow linkLimit [] (trail path) = .ok location ∧ (fs.entry? location).isSome := by
  have hstart : fs.start path = [] := if_pos habsolute
  unfold canonical at h
  cases hfind : fs.find .follow path with
  | error e =>
    rw [hfind] at h
    cases h
  | ok found =>
    obtain ⟨here, entry⟩ := found
    rw [hfind] at h
    cases h
    obtain ⟨hwalk, hentry⟩ := walk_of_find hfind
    -- names that mean nothing make no difference
    have hmeant := walk_meant hwalk
    rw [meant_searchSegments, hstart] at hmeant
    exact ⟨hmeant, by rw [hentry]; rfl⟩

/-- Where segments lead, the path with these segments leads. -/
theorem canonical_of_leads (hsound : fs.Sound) (habsolute : Path.isAbsolute path = true)
    (hpath : checkPath path = .ok ()) (hlead : fs.Leads linkLimit [] (trail path) left here) :
    fs.canonical path = .ok here := by
  have hstart : fs.start path = [] := if_pos habsolute
  have hhere := hsound.directory_of_leads hlead (directory_root fs)
  rw [← hstart] at hlead
  unfold canonical
  rw [find_of_leads hpath hlead hhere]
  rfl

/-! ## How a path is resolved -/

/-- Every step up in a path comes behind something that exists. -/
def StepsUpExist (fs : FileSystem) (path : String) : Prop :=
  ∀ front, front ++ [.up] <+: Path.components path →
    (fs.canonical (Path.ofComponents (front ++ [.up]))).isOk = true

theorem stepsTo_append (base names : Location) : stepsTo (base ++ names) = stepsTo base ++ names.map .name := by
  unfold stepsTo
  rw [List.map_append, List.cons_append]

/-- The steps to a location begin with those to each directory above it, and with no others. -/
theorem stepsTo_prefix_iff {location : Location} : stepsTo root <+: stepsTo location ↔ root <+: location := by
  have hinjective : Function.Injective Path.Component.name := fun _ _ h => Path.Component.name.inj h
  unfold stepsTo
  rw [List.prefix_cons_inj, List.prefix_map_iff_of_injective hinjective]

/-- A step up leads on from where the segments before it lead. -/
theorem leads_up_of_walk (h : fs.walk .follow linkLimit [] (t ++ [".."]) = .ok location) :
    ∃ left here, fs.Leads linkLimit [] (t ++ [".."]) left here := by
  obtain ⟨mid, middle, hlead, -⟩ := leads_of_walk_append h (by decide) (List.cons_ne_nil ".." [])
  exact ⟨_, _, leads_append_iff.mpr ⟨mid, middle, hlead, .head .up .refl⟩⟩

/-- The paths whose steps begin those of a path can be searched for. -/
theorem checkPath_of_begin (hpath : checkPath path = .ok ()) (habsolute : Path.isAbsolute path = true)
    (ht : t <+: trail path) : checkPath (pathOf t) = .ok () :=
  checkPath_pathOf hpath habsolute (ht.sublist.trans List.filter_sublist)

/-- The beginning of a trail is the trail of a path of its own. -/
theorem trail_pathOf_of_begin (ht : t <+: trail path) : trail (pathOf t) = t :=
  Path.trail_pathOf fun _ hs => Path.isSegment_of_mem_trail (ht.subset hs)

theorem steps_up (t : List String) :
    Path.Component.root :: (t ++ [".."]).map stepOf = Path.Component.root :: t.map stepOf ++ [.up] := by
  rw [List.map_append]
  rfl

/-- The steps of a path up to a step up, as segments. -/
theorem prefix_components_iff (habsolute : Path.isAbsolute path = true) {steps : List Path.Component} :
    steps ++ [.up] <+: Path.components path
      ↔ ∃ t, steps ++ [.up] = .root :: (t ++ [".."]).map stepOf ∧ t ++ [".."] <+: trail path := by
  rw [Path.components_of_isAbsolute habsolute]
  constructor
  · intro h
    cases steps with
    | nil => exact absurd (List.cons_prefix_cons.mp h).1 Path.Component.noConfusion
    | cons first steps =>
      rw [List.cons_append, List.cons_prefix_cons] at h
      obtain ⟨rfl, h⟩ := h
      -- steps that end with one upwards come from names that end with the two dots
      obtain ⟨names, hbegin, hnames⟩ := List.prefix_map_iff.mp h
      cases names using List.reverseRecOn with
      | nil => exact absurd hnames (List.append_ne_nil_of_right_ne_nil _ (List.cons_ne_nil _ _))
      | append_singleton t name =>
        have hup : name = ".." := by
          rw [List.map_append] at hnames
          have hlast : Path.Component.up = stepOf name :=
            (List.cons.inj (List.append_inj' hnames rfl).2).1
          unfold stepOf at hlast
          split at hlast
          · assumption
          · cases hlast
        subst hup
        exact ⟨t, by rw [List.cons_append, hnames], hbegin⟩
  · rintro ⟨t, hsteps, hbegin⟩
    rw [hsteps]
    exact (List.prefix_cons_inj _).mpr (hbegin.map stepOf)

/-- What is in front of a step up exists just if the step leads somewhere. -/
theorem stepsUpExist_iff (hsound : fs.Sound) (hpath : checkPath path = .ok ())
    (habsolute : Path.isAbsolute path = true) :
    fs.StepsUpExist path
      ↔ ∀ t, t ++ [".."] <+: trail path → ∃ left here, fs.Leads linkLimit [] (t ++ [".."]) left here := by
  -- such a part of the path has a canonical form exactly if it leads somewhere
  have hcanonical : ∀ t, t ++ [".."] <+: trail path → ((fs.canonical (pathOf (t ++ [".."]))).isOk = true
      ↔ ∃ left here, fs.Leads linkLimit [] (t ++ [".."]) left here) := by
    intro t ht
    have htrail := trail_pathOf_of_begin ht
    constructor
    · intro hok
      cases hlocation : fs.canonical (pathOf (t ++ [".."])) with
      | error e =>
        rw [hlocation] at hok
        cases hok
      | ok location =>
        have hwalk := (walk_of_canonical (Path.isAbsolute_pathOf _) hlocation).1
        rw [htrail] at hwalk
        exact leads_up_of_walk hwalk
    · rintro ⟨left, here, hlead⟩
      rw [← htrail] at hlead
      rw [canonical_of_leads hsound (Path.isAbsolute_pathOf _) (checkPath_of_begin hpath habsolute ht) hlead]
      rfl
  constructor
  · -- the parts of the path and the beginnings of its trail are the same
    intro hup t ht
    have hexists := hup (.root :: t.map stepOf) ((prefix_components_iff habsolute).mpr ⟨t, (steps_up t).symm, ht⟩)
    rw [← steps_up, Path.ofComponents_root] at hexists
    exact (hcanonical t ht).mp hexists
  · intro hleads steps hsteps
    obtain ⟨t, heq, ht⟩ := (prefix_components_iff habsolute).mp hsteps
    rw [heq, Path.ofComponents_root]
    exact (hcanonical t ht).mpr (hleads t ht)

theorem frontier_of_walk (hwalk : fs.walk .follow linkLimit [] front = .ok base)
    (hfound : (fs.entry? base).isSome) : fs.Frontier front [] base where
  walk := hwalk
  found := hfound
  names := fun _ h => absurd h List.not_mem_nil
  furthest := fun h => absurd rfl h

/-- One more missing name. -/
theorem Frontier.concat {missing : List String} {name : String} (h : fs.Frontier front missing base)
    (hskip : ¬(name = "." ∨ name = "")) (hup : name ≠ "..")
    (hnowhere : ∀ left here, ¬fs.Leads linkLimit [] (front ++ missing ++ [name]) left here) :
    fs.Frontier front (missing ++ [name]) base := by
  refine ⟨h.walk, h.found, fun other hother => ?_, fun _ => ?_⟩
  · -- one more name is missing, and it is a plain one
    rcases List.mem_append.mp hother with hother | hother
    · exact h.names other hother
    · rw [List.mem_singleton.mp hother]
      exact ⟨hskip, hup⟩
  · cases missing with
    | nil =>
      rw [List.append_nil] at hnowhere
      exact hnowhere
    | cons first later => exact h.furthest (List.cons_ne_nil first later)

/-- A name at the end of a path is added to what is in front of it. -/
theorem resolveMissing_concat {name : String} (hup : name ≠ "..") :
    fs.resolveMissing (.root :: (t ++ [name]).map stepOf).reverse
      = match fs.canonical (pathOf t) with
        | .ok location => some (stepsTo (location ++ [name]))
        | .error _ => (fs.resolveMissing (.root :: t.map stepOf).reverse).map (· ++ [.name name]) := by
  have hname : stepOf name = .name name := if_neg hup
  have hreverse : (Path.Component.root :: (t ++ [name]).map stepOf).reverse
      = .name name :: (Path.Component.root :: t.map stepOf).reverse := by
    simp [hname]
  rw [hreverse, resolveMissing, List.reverse_reverse, Path.ofComponents_root]
  -- the name is put behind what is there, or behind what is made of the rest
  cases fs.canonical (pathOf t) with
  | ok location =>
    dsimp only
    rw [stepsTo_append, List.map_singleton]
  | error e => rfl

/-- Segments that lead nowhere have some in front that exist, and only names behind these, if all steps up come
behind something that exists. Induction from the last segment. -/
theorem exists_frontier_resolveMissing (hsound : fs.Sound) (hpath : checkPath path = .ok ())
    (habsolute : Path.isAbsolute path = true) (hup : fs.StepsUpExist path) (ht : t <+: trail path)
    (hnowhere : ∀ left here, ¬fs.Leads linkLimit [] t left here) :
    ∃ front missing base, t = front ++ missing ∧ fs.Frontier front missing base
      ∧ fs.resolveMissing (.root :: t.map stepOf).reverse = some (stepsTo (base ++ missing)) := by
  induction t using List.reverseRecOn with
  | nil => exact absurd .refl (hnowhere linkLimit [])
  | append_singleton t name ih =>
    have hshort : t <+: trail path := (List.prefix_append t [name]).trans ht
    have htrail := trail_pathOf_of_begin hshort
    have hname := Path.isSegment_of_mem_trail (ht.subset (List.mem_append_right t List.mem_cons_self))
    have hskip : ¬(name = "." ∨ name = "") := not_or.mpr ⟨hname.2, hname.1.1⟩
    by_cases hstep : name = ".."
    · subst hstep
      obtain ⟨left, here, hlead⟩ := (stepsUpExist_iff hsound hpath habsolute).mp hup t ht
      exact absurd hlead (hnowhere left here)
    rw [resolveMissing_concat hstep]
    -- either what is in front exists, and the name is the first missing one, or the name comes behind others
    cases hcanonical : fs.canonical (pathOf t) with
    | ok base =>
      obtain ⟨hwalk, hfound⟩ := walk_of_canonical (Path.isAbsolute_pathOf _) hcanonical
      rw [htrail] at hwalk
      rw [← List.append_nil t] at hnowhere
      exact ⟨t, [name], base, rfl, (frontier_of_walk hwalk hfound).concat hskip hstep hnowhere, rfl⟩
    | error e =>
      have hnowhere' : ∀ left here, ¬fs.Leads linkLimit [] t left here := by
        intro left here hlead
        rw [← htrail] at hlead
        have hok := canonical_of_leads hsound (Path.isAbsolute_pathOf _)
          (checkPath_of_begin hpath habsolute hshort) hlead
        rw [hok] at hcanonical
        cases hcanonical
      obtain ⟨front, missing, base, rfl, hfrontier, hresolved⟩ := ih hshort hnowhere'
      refine ⟨front, missing ++ [name], base, List.append_assoc _ _ _, hfrontier.concat hskip hstep hnowhere, ?_⟩
      rw [hresolved, ← List.append_assoc, stepsTo_append (base ++ missing)]
      rfl

/-- **How a path is resolved.** What exists of it leads somewhere, and the missing names are added to that. -/
theorem exists_frontier (hsound : fs.Sound) (hpath : checkPath path = .ok ())
    (habsolute : Path.isAbsolute path = true) (hup : fs.StepsUpExist path) :
    ∃ front missing base, trail path = front ++ missing ∧ fs.Frontier front missing base
      ∧ fs.resolved path = stepsTo (base ++ missing) := by
  unfold resolved
  cases hcanonical : fs.canonical path with
  | ok base =>
    -- all of the path is there
    obtain ⟨hwalk, hfound⟩ := walk_of_canonical habsolute hcanonical
    refine ⟨trail path, [], base, (List.append_nil _).symm, frontier_of_walk hwalk hfound, ?_⟩
    rw [List.append_nil]
  | error e =>
    -- the path leads nowhere, so some of it is missing
    have hnowhere : ∀ left here, ¬fs.Leads linkLimit [] (trail path) left here := by
      intro left here hlead
      rw [canonical_of_leads hsound habsolute hpath hlead] at hcanonical
      cases hcanonical
    obtain ⟨front, missing, base, htrail, hfrontier, hresolved⟩ :=
      exists_frontier_resolveMissing hsound hpath habsolute hup List.prefix_rfl hnowhere
    refine ⟨front, missing, base, htrail, hfrontier, ?_⟩
    dsimp only
    rw [Path.components_of_isAbsolute habsolute, hresolved]
    rfl

/-- Nothing is found behind a step up that leads nowhere. -/
theorem walk_ne_ok_of_nowhere (hnowhere : ∀ left here, ¬fs.Leads linkLimit [] (t ++ [".."]) left here)
    (more : List String) (location : Location) :
    fs.walk .follow linkLimit [] (t ++ [".."] ++ more) ≠ .ok location := by
  intro hwalk
  -- a walk that goes on behind the two dots has gone that way as well
  cases more with
  | nil =>
    rw [List.append_nil] at hwalk
    obtain ⟨left, here, hlead⟩ := leads_up_of_walk hwalk
    exact hnowhere left here hlead
  | cons name more =>
    obtain ⟨left, here, hlead, -⟩ := leads_of_walk_append hwalk (by decide) (List.cons_ne_nil name more)
    exact hnowhere left here hlead

/-- The search for what exists of a path ends at a step up. Induction from the last segment. -/
theorem resolveMissing_eq_none (hnowhere : ∀ left here, ¬fs.Leads linkLimit [] (t ++ [".."]) left here)
    {more : List String} (hmore : t ++ [".."] ++ more <+: trail path) :
    fs.resolveMissing (.root :: (t ++ [".."] ++ more).map stepOf).reverse = none := by
  have hend : ∀ t, fs.resolveMissing (.root :: (t ++ [".."]).map stepOf).reverse = none := by
    intro t
    rw [steps_up, List.reverse_append]
    rfl
  -- induction from the end: every longer part of the path leads nowhere either, so the search goes on until it
  -- comes to the step upwards and gives up
  induction more using List.reverseRecOn with
  | nil =>
    rw [List.append_nil]
    exact hend t
  | append_singleton more name ih =>
    rw [← List.append_assoc] at hmore ⊢
    have hshort := (List.prefix_append _ [name]).trans hmore
    by_cases hstep : name = ".."
    · subst hstep
      exact hend _
    · rw [resolveMissing_concat hstep]
      cases hcanonical : fs.canonical (pathOf (t ++ [".."] ++ more)) with
      | ok location =>
        have hwalk := (walk_of_canonical (Path.isAbsolute_pathOf _) hcanonical).1
        rw [trail_pathOf_of_begin hshort] at hwalk
        exact absurd hwalk (walk_ne_ok_of_nowhere hnowhere more location)
      | error e =>
        dsimp only
        rw [ih hshort]
        rfl

/-- **When a path is not resolved**: if a step up comes behind a missing name. -/
theorem resolved_of_not_stepsUpExist (hsound : fs.Sound) (hpath : checkPath path = .ok ())
    (habsolute : Path.isAbsolute path = true) (hup : ¬fs.StepsUpExist path) :
    fs.resolved path = Path.components path := by
  rw [stepsUpExist_iff hsound hpath habsolute] at hup
  simp only [not_forall, not_exists] at hup
  obtain ⟨t, ⟨later, htrail⟩, hnowhere⟩ := hup
  unfold resolved
  cases hcanonical : fs.canonical path with
  | ok location =>
    have hwalk := (walk_of_canonical habsolute hcanonical).1
    rw [← htrail] at hwalk
    exact absurd hwalk (walk_ne_ok_of_nowhere hnowhere later location)
  | error e =>
    have hall : t ++ [".."] ++ later <+: trail path := htrail ▸ List.prefix_rfl
    -- nothing can be resolved, so the path is taken as it is written
    have hnone := resolveMissing_eq_none hnowhere hall
    dsimp only
    rw [Path.components_of_isAbsolute habsolute, ← htrail, hnone]
    rfl

/-! ## The directory that is made -/

theorem isWithin_eq_true_iff (hroot : fs.canonical directory = .ok root) :
    fs.isWithin output directory = true ↔ stepsTo root <+: fs.resolved (fs.absolute output) := by
  unfold isWithin
  rw [hroot]
  exact List.isPrefixOf_iff_prefix

/-- **Where a directory is made.** If all steps up in the path of the directory come behind something that
exists, the directory is in another one just if it was said to be in it before it was made. If it was not,
nothing in that other directory changes, whether making the directory fails or not. A path with another step up
is compared by its text. -/
theorem createDirectories_outside (hsound : fs.Sound) (hroot : fs.canonical directory = .ok root)
    (hpath : checkPath (fs.absolute output) = .ok ()) :
    (fs.StepsUpExist (fs.absolute output) →
      (fs.isWithin output directory = false → ∀ location, root <+: location →
        FileSystem.entry? (fs.createDirectories output).2 location = fs.entry? location)
      ∧ ((fs.createDirectories output).1 = .ok () → output ≠ "" →
        ∃ location, (fs.createDirectories output).2.find .follow output = .ok (location, .directory)
          ∧ (fs.isWithin output directory = true ↔ root <+: location)))
    ∧ (¬fs.StepsUpExist (fs.absolute output) →
      (fs.isWithin output directory = true ↔ stepsTo root <+: Path.components (fs.absolute output))) := by
  have habsolute := isAbsolute_absolute fs output
  refine ⟨fun hup => ?_, fun hup => ?_⟩
  · obtain ⟨front, missing, base, htrail, hfrontier, hresolved⟩ := exists_frontier hsound hpath habsolute hup
    rw [hsound.trail_absolute] at htrail
    obtain ⟨hgrown, hfound⟩ := grown_createDirectories hsound hfrontier htrail
    have hwithin : fs.isWithin output directory = true ↔ root <+: base ++ missing := by
      rw [isWithin_eq_true_iff hroot, hresolved, stepsTo_prefix_iff]
    refine ⟨fun houtside location hbelow => ?_, fun hok hne => ⟨_, hfound hok hne, hwithin⟩⟩
    -- what is added is on the way to the new directory, which would then be beneath the root as well
    cases hentry : fs.entry? location with
    | some entry => exact hgrown.kept location entry hentry
    | none =>
      cases hnew : FileSystem.entry? (fs.createDirectories output).2 location with
      | none => rfl
      | some entry =>
        rcases hgrown.added location entry hnew with hold | ⟨-, hway⟩
        · rw [hentry] at hold
          cases hold
        · rw [hwithin.mpr (hbelow.trans hway)] at houtside
          cases houtside
  · rw [isWithin_eq_true_iff hroot, resolved_of_not_stepsUpExist hsound hpath habsolute hup]

/-- A working directory with a chart in it and a link to the chart. -/
def chartAndLink : FileSystem :=
  { ((({} : FileSystem).put ["w"] .directory).put ["w", "app"] .directory).put ["w", "alias"] (.link "app") with
    workingDirectory := ["w"] }

/-- A chart in `/w`, and beside it a link to it. -/
theorem chartAndLink_entries (l : Location) :
    chartAndLink.entry? l = if l = [] then some .directory else if l = ["w"] then some .directory
      else if l = ["w", "app"] then some .directory else if l = ["w", "alias"] then some (.link "app")
      else none := by
  show FileSystem.entry? (FileSystem.put _ _ _) l = _
  simp
  grind

/-- Every entry stands in a directory. -/
theorem sound_chartAndLink : chartAndLink.Sound := by
  have hw : FileSystem.Sound (({} : FileSystem).put ([] ++ ["w"]) .directory) :=
    Sound.empty.put (directory_root _) (by decide) (by decide) (by simp)
  have happ : FileSystem.Sound ((({} : FileSystem).put ["w"] .directory).put (["w"] ++ ["app"]) .directory) :=
    hw.put (by simp) (by decide) (by decide) (by simp)
  have hall : FileSystem.Sound ((({} : FileSystem).put ["w"] .directory).put ["w", "app"] .directory
      |>.put (["w"] ++ ["alias"]) (.link "app")) :=
    happ.put (by simp) (by decide) (by decide) (by simp)
  exact ⟨hall.parent, hall.name, by rw [chartAndLink_entries]; rfl⟩

/-- The link leads to the chart, and a step up leads back. -/
theorem leads_link : chartAndLink.Leads linkLimit ["w"] ["alias", ".."] 39 ["w"] := by
  have hlink : chartAndLink.entry? ["w", "alias"] = some (.link "app") := by simp [chartAndLink_entries]
  have happ : chartAndLink.entry? ["w", "app"] = some .directory := by simp [chartAndLink_entries]
  have hsegments : searchSegments "app" = ["app"] := by decide
  refine .head (.follow (by decide) hlink fun _ => rfl) ?_
  rw [hsegments]
  exact .head (.enter (by decide) happ) (.head .up .refl)

theorem canonical_app : chartAndLink.canonical "app" = .ok ["w", "app"] := by
  have happ : chartAndLink.entry? ["w", "app"] = some .directory := by simp [chartAndLink_entries]
  have htrail : trail "app" = ["app"] := by decide
  have hlead : chartAndLink.Leads linkLimit (chartAndLink.start "app") (trail "app") linkLimit ["w", "app"] :=
    htrail ▸ .head (.enter (by decide) happ) .refl
  unfold canonical
  rw [find_of_leads (by decide) hlead happ]
  rfl

/-- A path through the link is made in the working directory, and leads there. -/
theorem createDirectories_throughLink :
    chartAndLink.createDirectories "alias/../out" = (.ok (), chartAndLink.put ["w", "out"] .directory)
      ∧ FileSystem.find (chartAndLink.put ["w", "out"] .directory) .follow "alias/../out"
        = .ok (["w", "out"], .directory) := by
  have hmissing : chartAndLink.entry? ["w", "out"] = none := by simp [chartAndLink_entries]
  have hnew : FileSystem.entry? (chartAndLink.put ["w", "out"] .directory) ["w", "out"] = some .directory := by
    simp
  have hpath : checkPath "alias/../out" = .ok () := by decide
  have hsegments : Path.segments "alias/../out" = ["alias", "..", "out"] := by decide
  have hstart : chartAndLink.start "alias/../out" = ["w"] := by decide
  have hwalk : chartAndLink.walk .keep linkLimit (chartAndLink.start "alias/../out")
      (Path.segments "alias/../out") = .ok ["w", "out"] := by
    -- the link leads to the chart, and the step upwards out of it
    have hlink : chartAndLink.walk .keep linkLimit ["w"] (["alias", ".."] ++ ["out"])
        = chartAndLink.walk .keep 39 ["w"] ["out"] := leads_link.walk_append (by decide) fun h => nomatch h
    rw [hsegments, hstart]
    exact hlink.trans (walk_missing (by decide) (by decide) hmissing)
  have hmade := makeDirectory_of_walk hpath (by rw [hsegments]; rfl) (by decide) hwalk hmissing
  -- the same way leads to the new directory
  have hlead : FileSystem.Leads (chartAndLink.put ["w", "out"] .directory) linkLimit ["w"] ["alias", "..", "out"]
      39 ["w", "out"] :=
    leads_append_iff.mpr ⟨_, _, leads_link.mono (extends_put hmissing), .head (.enter (by decide) hnew) .refl⟩
  refine ⟨?_, find_of_leads hpath hlead hnew⟩
  unfold createDirectories createUnder
  rw [hmade]
  rfl

/-- A path through a link and out again is outside of the chart, as it is said to be: the directory that is made
is not in it, and the chart is as it was. -/
theorem createDirectories_outside_throughLink :
    chartAndLink.isWithin "alias/../out" "app" = false
      ∧ FileSystem.entry? (chartAndLink.createDirectories "alias/../out").2 ["w", "app"] = some .directory
      ∧ ∃ location, (chartAndLink.createDirectories "alias/../out").2.find .follow "alias/../out"
          = .ok (location, .directory) ∧ ¬["w", "app"] <+: location := by
  have hpath : checkPath (chartAndLink.absolute "alias/../out") = .ok () := by decide
  have hup : chartAndLink.StepsUpExist (chartAndLink.absolute "alias/../out") := by
    have htrail : trail (chartAndLink.absolute "alias/../out") = ["w", "alias", "..", "out"] := by decide
    have hlead : chartAndLink.Leads linkLimit [] (chartAndLink.start "alias" ++ ["alias", ".."]) 39 ["w"] :=
      sound_chartAndLink.leads_root leads_link
    rw [stepsUpExist_iff sound_chartAndLink hpath (isAbsolute_absolute _ _), htrail]
    intro t ht
    -- the only step upwards is the one behind the link, which is there
    have hfront : t = ["w", "alias"] := by
      match t with
      | [] => simp at ht
      | [a] => simp at ht
      | [a, b] => simpa using ht
      | [a, b, c] => simp at ht
      | a :: b :: c :: d :: t => simp at ht
    rw [hfront]
    exact ⟨39, ["w"], hlead⟩
  obtain ⟨hcreated, hfind⟩ := createDirectories_throughLink
  obtain ⟨hkept, hmade⟩ := (createDirectories_outside sound_chartAndLink canonical_app hpath).1 hup
  rw [hcreated] at hkept hmade ⊢
  -- the general statement says where the directory is, and here that is known
  obtain ⟨location, hlocation, hwithin⟩ := hmade rfl (by decide)
  have hnot : ¬["w", "app"] <+: location := by
    obtain ⟨rfl, -⟩ := Prod.mk.inj (Except.ok.inj (hlocation.symm.trans hfind))
    decide
  have houtside : chartAndLink.isWithin "alias/../out" "app" = false :=
    Bool.eq_false_iff.mpr fun h => hnot (hwithin.mp h)
  refine ⟨houtside, ?_, location, hlocation, hnot⟩
  rw [hkept houtside ["w", "app"] List.prefix_rfl]
  simp [chartAndLink_entries]

/-- A path that steps up behind a missing name is taken for what its text says. -/
theorem isWithin_missingStep : chartAndLink.isWithin "x/../app" "app" = false := by
  have hw : chartAndLink.entry? ([] ++ ["w"]) = some .directory := by simp [chartAndLink_entries]
  have hx : chartAndLink.entry? ([] ++ ["w"] ++ ["x"]) = none := by simp [chartAndLink_entries]
  have hpath : checkPath (chartAndLink.absolute "x/../app") = .ok () := by decide
  have htrail : trail (chartAndLink.absolute "x/../app") = ["w", "x", "..", "app"] := by decide
  have hnowhere : chartAndLink.walk .follow linkLimit [] ["w", "x", ".."] = .error .notFound :=
    (walk_directory (by decide) (by decide) hw).trans
      (walk_behind_missing (by decide) (by decide) hx (List.cons_ne_nil _ _))
  -- the step upwards is behind a name that is not there
  have hup : ¬chartAndLink.StepsUpExist (chartAndLink.absolute "x/../app") := by
    rw [stepsUpExist_iff sound_chartAndLink hpath (isAbsolute_absolute _ _), htrail]
    intro hall
    obtain ⟨left, here, hlead⟩ := hall ["w", "x"] ⟨["app"], rfl⟩
    cases hnowhere.symm.trans hlead.walk_eq
  rw [Bool.eq_false_iff, ne_eq, isWithin_eq_true_iff canonical_app,
    resolved_of_not_stepsUpExist sound_chartAndLink hpath (isAbsolute_absolute _ _) hup]
  decide

/-- Once the name is there, the step leads back. Of the paths above, only the name is made. -/
theorem createDirectories_missingStep :
    chartAndLink.createDirectories "x/../app" = (.ok (), chartAndLink.put ["w", "x"] .directory)
      ∧ FileSystem.find (chartAndLink.put ["w", "x"] .directory) .follow "x/../app"
        = .ok (["w", "app"], .directory) := by
  let made : FileSystem := chartAndLink.put ["w", "x"] .directory
  have hx : chartAndLink.entry? ["w", "x"] = none := by simp [chartAndLink_entries]
  have hw : made.entry? ["w"] = some .directory := by simp [made, chartAndLink_entries]
  have happ : made.entry? ["w", "app"] = some .directory := by simp [made, chartAndLink_entries]
  have hnew : made.entry? ["w", "x"] = some .directory := by simp [made]
  have hstep : made.Leads linkLimit ["w"] ["x", ".."] linkLimit ["w"] :=
    .head (.enter (by decide) hnew) (.head .up .refl)
  have hchart : made.Leads linkLimit ["w"] ["x", "..", "app"] linkLimit ["w", "app"] :=
    leads_append_iff.mpr ⟨_, _, hstep, .head (.enter (by decide) happ) .refl⟩
  have hsegments : Path.segments "x/.." = ["x", ".."] ∧ Path.segments "x/../app" = ["x", "..", "app"] := by
    decide
  -- first the missing name becomes a directory
  have hfirst : chartAndLink.createUnder "x" [""] = (.ok (), made) := by
    have hlast : (Path.segments "x").getLast? = some "x" := by decide
    have hwalk : chartAndLink.walk .keep linkLimit (chartAndLink.start "x") (Path.segments "x")
        = .ok ["w", "x"] :=
      walk_missing (by decide) (by decide) hx
    have hmade := makeDirectory_of_walk (by decide) hlast (by decide) hwalk hx
    unfold createUnder
    rw [hmade]
    rfl
  -- with it the step upwards leads somewhere, and then the whole path to the chart
  have hsecond : chartAndLink.createUnder "x/.." ["x", ""] = (.ok (), made) :=
    createUnder_of_above (by decide) (by decide)
      (makeDirectory_behind_missing (by decide) hsegments.1 (List.cons_ne_nil _ _) (by decide) hx)
      hfirst hstep hw
  have hparents : Path.parents "x/../app" = ["x/..", "x", ""] := by decide
  refine ⟨?_, find_of_leads (by decide) hchart happ⟩
  unfold createDirectories
  rw [hparents]
  exact createUnder_of_above (by decide) (by decide)
    (makeDirectory_behind_missing (by decide) hsegments.2 (List.cons_ne_nil _ _) (by decide) hx)
    hsecond hchart happ

/-- A path that was taken for one out of the chart leads into it. -/
theorem missingStep_inside :
    chartAndLink.canonical "app" = .ok ["w", "app"] ∧ chartAndLink.isWithin "x/../app" "app" = false
      ∧ (chartAndLink.createDirectories "x/../app").1 = .ok ()
      ∧ (chartAndLink.createDirectories "x/../app").2.find .follow "x/../app"
        = .ok (["w", "app"], .directory) := by
  obtain ⟨hcreated, hfind⟩ := createDirectories_missingStep
  rw [hcreated]
  exact ⟨canonical_app, isWithin_missingStep, rfl, hfind⟩

end TemplateCoverage.FileSystem
