import Mathlib.Logic.Relation
import TemplateCoverage.Proofs.FileSystem.Lookup

/-!
# Searches, step by step

A search reads one segment after the other, and the target of a link before what follows the link. This module
takes a search as a run of steps, each of which depends on one entry at most. So a search can be cut anywhere,
and it goes the same way in every file system that has the entries it meets.

* **`walk_eq_ok_iff`**: a search ends where its run of steps does.
* **`Steps.split`**: a search through two lists of segments goes through the first one first.
* **`leads_name_iff`**: a name leads into a directory, or on to where a link leads.
* **`leads_meant_iff`**: it does not matter whether there are segments that are skipped.
-/

namespace TemplateCoverage.FileSystem

/-- A search under way: how many links it may still follow, the directory it is in, and the segments that are
left. -/
structure Search where
  links : Nat
  here : Location
  path : List String

/-- The search with more segments behind the ones that are left. -/
def Search.followedBy (s : Search) (path : List String) : Search :=
  { s with path := s.path ++ path }

/-- A step of a search. A link behind which nothing is left is followed on request. -/
inductive Step (fs : FileSystem) (last : LastStep) : Search → Search → Prop where
  | skip {links : Nat} {here : Location} {name : String} {rest : List String} (hname : name = "." ∨ name = "") :
      Step fs last ⟨links, here, name :: rest⟩ ⟨links, here, rest⟩
  | up {links : Nat} {here : Location} {rest : List String} :
      Step fs last ⟨links, here, ".." :: rest⟩ ⟨links, here.dropLast, rest⟩
  | enter {links : Nat} {here : Location} {name : String} {rest : List String} (hname : IsPlain name)
      (hentry : fs.entry? (here ++ [name]) = some .directory) :
      Step fs last ⟨links, here, name :: rest⟩ ⟨links, here ++ [name], rest⟩
  | follow {links : Nat} {here : Location} {name : String} {rest : List String} {target : String}
      (hname : IsPlain name) (hentry : fs.entry? (here ++ [name]) = some (.link target))
      (hrest : rest = [] → last = .follow) :
      Step fs last ⟨links + 1, here, name :: rest⟩
        ⟨links, if Path.isAbsolute target then [] else here, searchSegments target ++ rest⟩

/-- A run of a search. -/
abbrev Steps (fs : FileSystem) (last : LastStep) : Search → Search → Prop :=
  Relation.ReflTransGen (Step fs last)

/-- The segments lead from one directory to another one, and so many links are left. -/
abbrev Leads (fs : FileSystem) (links : Nat) (base : Location) (path : List String) (left : Nat)
    (here : Location) : Prop :=
  fs.Steps .follow ⟨links, base, path⟩ ⟨left, here, []⟩

/-- A search ends at a location: in a directory with nothing left, or at a name that is no directory and is not
followed. -/
inductive Ends (fs : FileSystem) (last : LastStep) : Search → Location → Prop where
  | inside {links : Nat} {here : Location} : Ends fs last ⟨links, here, []⟩ here
  | missing {links : Nat} {here : Location} {name : String} (hname : IsPlain name)
      (hentry : fs.entry? (here ++ [name]) = none) : Ends fs last ⟨links, here, [name]⟩ (here ++ [name])
  | file {links : Nat} {here : Location} {name : String} {contents : ByteArray} {executable : Bool}
      (hname : IsPlain name) (hentry : fs.entry? (here ++ [name]) = some (.file contents executable)) :
      Ends fs last ⟨links, here, [name]⟩ (here ++ [name])
  | link {links : Nat} {here : Location} {name target : String} (hname : IsPlain name)
      (hentry : fs.entry? (here ++ [name]) = some (.link target)) (hlast : last = .keep) :
      Ends fs last ⟨links, here, [name]⟩ (here ++ [name])

variable {fs : FileSystem} {last : LastStep} {links left : Nat} {base here location : Location}
  {name : String} {path : List String} {s t : Search}

/-! ## Searches as runs -/

/-- A search does not change where it leads with a step. -/
theorem Step.walk_eq (h : fs.Step last s t) (hlast : last ≠ .fill) :
    fs.walk last s.links s.here s.path = fs.walk last t.links t.here t.path := by
  cases h with
  | skip hname => rw [walk, if_pos hname]
  | up => rw [walk, if_neg (by decide), if_pos rfl]
  | enter hname hentry => exact walk_directory hname hlast hentry
  | follow hname hentry hrest => exact walk_link hname hlast hentry hrest

/-- A walk comes to the same from each state on its way. -/
theorem Steps.walk_eq (h : fs.Steps last s t) (hlast : last ≠ .fill) :
    fs.walk last s.links s.here s.path = fs.walk last t.links t.here t.path := by
  induction h with
  | refl => rfl
  | tail _ hstep ih => rw [ih, hstep.walk_eq hlast]

/-- A walk that has come to an end has found the location. -/
theorem Ends.walk_eq (h : fs.Ends last s location) (hlast : last ≠ .fill) :
    fs.walk last s.links s.here s.path = .ok location := by
  cases h with
  | inside => rw [walk]
  | missing hname hentry => exact walk_missing hname hlast hentry
  | file hname hentry => exact walk_file hname hlast hentry
  | link hname hentry hkeep =>
    subst hkeep
    exact walk_kept_link hname hentry

/-- A name that is none of the special ones is plain if it is not too long. -/
theorem isPlain_of_not (hskip : ¬(name = "." ∨ name = "")) (hup : ¬name = "..")
    (hlimit : ¬nameLimit < name.utf8ByteSize) : IsPlain name :=
  ⟨fun hdot => hskip (.inl hdot), fun hempty => hskip (.inr hempty), hup, hlimit⟩

/-- A search that leads somewhere is a run of steps that ends there. Induction as the search goes. -/
theorem exists_steps_of_walk (hlast : last ≠ .fill) (h : fs.walk last links base path = .ok location) :
    ∃ s, fs.Steps last ⟨links, base, path⟩ s ∧ fs.Ends last s location := by
  -- the links get fewer, or the segments do
  fun_induction walk fs last links base path with
  | case1 links base =>
    cases h
    exact ⟨_, .refl, .inside⟩
  | case2 links base name rest hname ih =>
    obtain ⟨s, hsteps, hends⟩ := ih h
    exact ⟨s, .head (.skip hname) hsteps, hends⟩
  | case3 links base rest _ ih =>
    obtain ⟨s, hsteps, hends⟩ := ih h
    exact ⟨s, .head .up hsteps, hends⟩
  | case4 links base name rest _ _ hfill => exact absurd hfill.1 hlast
  | case5 => cases h
  | case6 links base name rest hskip hup _ hlimit here hentry hrest =>
    cases List.isEmpty_iff.mp hrest
    rw [← Except.ok.inj h]
    exact ⟨_, .refl, .missing (isPlain_of_not hskip hup hlimit) hentry⟩
  | case7 => cases h
  | case8 links base name rest hskip hup _ hlimit here hentry ih =>
    obtain ⟨s, hsteps, hends⟩ := ih h
    exact ⟨s, .head (.enter (isPlain_of_not hskip hup hlimit) hentry) hsteps, hends⟩
  | case9 links base name rest hskip hup _ hlimit here contents executable hentry hrest =>
    cases List.isEmpty_iff.mp hrest
    rw [← Except.ok.inj h]
    exact ⟨_, .refl, .file (isPlain_of_not hskip hup hlimit) hentry⟩
  | case10 => cases h
  | case11 links base name rest hskip hup _ hlimit here target hentry hkeep =>
    obtain ⟨hrest, hkeep⟩ := Bool.and_eq_true_iff.mp hkeep
    cases List.isEmpty_iff.mp hrest
    rw [← Except.ok.inj h]
    exact ⟨_, .refl, .link (isPlain_of_not hskip hup hlimit) hentry (beq_iff_eq.mp hkeep)⟩
  | case12 => cases h
  | case13 base name rest hskip hup _ hlimit here target hentry hgo links ih =>
    obtain ⟨s, hsteps, hends⟩ := ih h
    have hrest : rest = [] → last = .follow := by
      rintro rfl
      cases last with
      | keep => exact absurd rfl hgo
      | follow => rfl
      | fill => exact absurd rfl hlast
    exact ⟨s, .head (.follow (isPlain_of_not hskip hup hlimit) hentry hrest) hsteps, hends⟩

/-- **Where a search ends**: where its run of steps does. -/
theorem walk_eq_ok_iff (hlast : last ≠ .fill) :
    fs.walk last links base path = .ok location
      ↔ ∃ s, fs.Steps last ⟨links, base, path⟩ s ∧ fs.Ends last s location := by
  constructor
  · exact exists_steps_of_walk hlast
  · rintro ⟨s, hsteps, hends⟩
    exact (Steps.walk_eq hsteps hlast).trans (hends.walk_eq hlast)

theorem Ends.length_le (h : fs.Ends last s location) : s.path.length ≤ 1 := by
  cases h <;> simp

/-! ## Cutting a search -/

variable {xs ys : List String} {mid : Nat} {middle : Location}

/-- A step is taken in the same way if more segments follow. -/
theorem Step.append (h : fs.Step .follow s t) (hys : ys = [] → last = .follow) :
    fs.Step last (s.followedBy ys) (t.followedBy ys) := by
  cases h with
  | skip hname => exact .skip hname
  | up => exact .up
  | enter hname hentry => exact .enter hname hentry
  | @follow links here name rest target hname hentry _ =>
    have hrest : rest ++ ys = [] → last = .follow := fun h => hys (List.append_eq_nil_iff.mp h).2
    unfold Search.followedBy
    rw [List.append_assoc]
    exact .follow hname hentry hrest

/-- A way is followed with any names behind it. -/
theorem Leads.append (h : fs.Leads links base xs mid middle) (hys : ys = [] → last = .follow) :
    fs.Steps last ⟨links, base, xs ++ ys⟩ ⟨mid, middle, ys⟩ :=
  Relation.ReflTransGen.lift (Search.followedBy · ys) (fun _ _ hstep => Step.append hstep hys) _ _ h

/-- A search that gets behind some segments has been where they lead. Induction on its run. -/
theorem Steps.split (h : fs.Steps last ⟨links, base, xs ++ ys⟩ t) (ht : t.path.length ≤ ys.length) :
    ∃ mid middle, fs.Leads links base xs mid middle ∧ fs.Steps last ⟨mid, middle, ys⟩ t := by
  generalize hs : (⟨links, base, xs ++ ys⟩ : Search) = s at h
  induction h using Relation.ReflTransGen.head_induction_on generalizing links base xs with
  | refl =>
    subst hs
    have hlength : xs.length = 0 := by
      simp only [List.length_append] at ht
      omega
    cases List.eq_nil_of_length_eq_zero hlength
    exact ⟨links, base, .refl, .refl⟩
  | head hstep hrun ih =>
    subst hs
    cases xs with
    | nil => exact ⟨links, base, .refl, .head hstep hrun⟩
    | cons x xs =>
      -- nothing of what follows is read while a segment is left in front of it
      cases hstep with
      | skip hname =>
        obtain ⟨mid, middle, hlead, hrest⟩ := ih rfl
        exact ⟨mid, middle, .head (.skip hname) hlead, hrest⟩
      | up =>
        obtain ⟨mid, middle, hlead, hrest⟩ := ih rfl
        exact ⟨mid, middle, .head .up hlead, hrest⟩
      | enter hname hentry =>
        obtain ⟨mid, middle, hlead, hrest⟩ := ih rfl
        exact ⟨mid, middle, .head (.enter hname hentry) hlead, hrest⟩
      | follow hname hentry _ =>
        obtain ⟨mid, middle, hlead, hrest⟩ := ih (congrArg _ (List.append_assoc _ xs ys))
        exact ⟨mid, middle, .head (.follow hname hentry fun _ => rfl) hlead, hrest⟩

/-- A way can be cut in two at any name. -/
theorem leads_append_iff :
    fs.Leads links base (xs ++ ys) left here
      ↔ ∃ mid middle, fs.Leads links base xs mid middle ∧ fs.Leads mid middle ys left here := by
  constructor
  · exact fun h => Steps.split h (Nat.zero_le _)
  · rintro ⟨mid, middle, hfront, hback⟩
    exact (hfront.append fun _ => rfl).trans hback

/-- What is behind a way is walked from where it leads. -/
theorem Leads.walk_append (h : fs.Leads links base xs mid middle) (hlast : last ≠ .fill)
    (hys : ys = [] → last = .follow) :
    fs.walk last links base (xs ++ ys) = fs.walk last mid middle ys :=
  Steps.walk_eq (h.append hys) hlast

theorem Leads.walk_eq (h : fs.Leads links base path left here) : fs.walk .follow links base path = .ok here := by
  have hwalk : fs.walk .follow links base (path ++ []) = fs.walk .follow left here [] :=
    h.walk_append (by decide) fun _ => rfl
  rwa [List.append_nil, walk] at hwalk

/-- A walk that finds something has led through the directories on its way. -/
theorem leads_of_walk_append (h : fs.walk last links base (xs ++ ys) = .ok location) (hlast : last ≠ .fill)
    (hys : ys ≠ []) :
    ∃ mid middle, fs.Leads links base xs mid middle ∧ fs.walk last mid middle ys = .ok location := by
  obtain ⟨s, hsteps, hends⟩ := (walk_eq_ok_iff hlast).mp h
  have hlength : s.path.length ≤ ys.length := Nat.le_trans hends.length_le (List.length_pos_iff.mpr hys)
  obtain ⟨mid, middle, hlead, hrest⟩ := Steps.split hsteps hlength
  exact ⟨mid, middle, hlead, (walk_eq_ok_iff hlast).mpr ⟨s, hrest, hends⟩⟩

/-- A search that ends at a directory is in it. -/
theorem leads_of_walk (h : fs.walk .follow links base path = .ok location)
    (hentry : fs.entry? location = some .directory) : ∃ left, fs.Leads links base path left location := by
  obtain ⟨s, hsteps, hends⟩ := (walk_eq_ok_iff (by decide)).mp h
  cases hends with
  | inside => exact ⟨_, hsteps⟩
  | missing _ hmissing => rw [hmissing] at hentry; cases hentry
  | file _ hfile => rw [hfile] at hentry; cases hentry
  | link _ _ hkeep => cases hkeep

/-- A way leads to one place. -/
theorem Leads.here_eq {left' : Nat} {here' : Location} (h : fs.Leads links base path left here)
    (h' : fs.Leads links base path left' here') : here = here' :=
  Except.ok.inj (h.walk_eq.symm.trans h'.walk_eq)

/-! ## Single segments -/

/-- Without names there is nowhere to go. -/
theorem leads_nil_iff : fs.Leads links base [] left here ↔ links = left ∧ base = here := by
  constructor
  · intro h
    cases h.cases_head with
    | inl hsame =>
      cases hsame
      exact ⟨rfl, rfl⟩
    | inr hmore =>
      obtain ⟨s, hstep, -⟩ := hmore
      -- a state without names has no step
      cases hstep
  · rintro ⟨rfl, rfl⟩
    exact .refl

/-- What a first step does. -/
theorem leads_cons_iff :
    fs.Leads links base (name :: path) left here
      ↔ ∃ s, fs.Step .follow ⟨links, base, name :: path⟩ s ∧ fs.Steps .follow s ⟨left, here, []⟩ := by
  constructor
  · intro h
    rcases h.cases_head with hsame | hmore
    · cases hsame
    · exact hmore
  · rintro ⟨s, hstep, hsteps⟩
    exact .head hstep hsteps

/-- A name that stays where it is can be left out. -/
theorem leads_skip_iff (hname : name = "." ∨ name = "") :
    fs.Leads links base (name :: path) left here ↔ fs.Leads links base path left here := by
  rw [leads_cons_iff]
  constructor
  · rintro ⟨s, hstep, hsteps⟩
    cases hstep with
    | skip => exact hsteps
    | up => exact absurd hname (by decide)
    | enter hplain => exact absurd hname (not_or.mpr ⟨hplain.1, hplain.2.1⟩)
    | follow hplain => exact absurd hname (not_or.mpr ⟨hplain.1, hplain.2.1⟩)
  · exact fun h => ⟨_, .skip hname, h⟩

/-- A name leads into a directory, or on to where a link leads. -/
theorem leads_name_iff (hskip : ¬(name = "." ∨ name = "")) (hup : name ≠ "..") :
    fs.Leads links base (name :: path) left here
      ↔ IsPlain name ∧ (fs.entry? (base ++ [name]) = some .directory
          ∧ fs.Leads links (base ++ [name]) path left here
        ∨ ∃ fewer target, links = fewer + 1 ∧ fs.entry? (base ++ [name]) = some (.link target)
          ∧ fs.Leads fewer (if Path.isAbsolute target then [] else base) (searchSegments target ++ path)
            left here) := by
  rw [leads_cons_iff]
  constructor
  · -- a plain name leads into a directory or through a link
    rintro ⟨s, hstep, hsteps⟩
    cases hstep with
    | skip hname => exact absurd hname hskip
    | up => exact absurd rfl hup
    | enter hname hentry => exact ⟨hname, .inl ⟨hentry, hsteps⟩⟩
    | follow hname hentry => exact ⟨hname, .inr ⟨_, _, rfl, hentry, hsteps⟩⟩
  · rintro ⟨hname, ⟨hentry, hlead⟩ | ⟨fewer, target, rfl, hentry, hlead⟩⟩
    · exact ⟨_, .enter hname hentry, hlead⟩
    · exact ⟨_, .follow hname hentry fun _ => rfl, hlead⟩

/-! ## Segments that are skipped -/

/-- The segments that a search does not skip. -/
def meant (path : List String) : List String :=
  path.filter fun s => ¬(s = "." ∨ s = "")

theorem meant_cons_of_skip (hname : name = "." ∨ name = "") : meant (name :: path) = meant path :=
  List.filter_cons_of_neg fun h => of_decide_eq_true h hname

theorem meant_cons_of_not_skip (hname : ¬(name = "." ∨ name = "")) : meant (name :: path) = name :: meant path :=
  List.filter_cons_of_pos (decide_eq_true hname)

/-- So a way is followed by the names that mean something. -/
theorem leads_meant_iff : fs.Leads links base (meant path) left here ↔ fs.Leads links base path left here := by
  induction path generalizing links base with
  | nil => exact Iff.rfl
  | cons name path ih =>
    by_cases hname : name = "." ∨ name = ""
    · rw [meant_cons_of_skip hname, ih, leads_skip_iff hname]
    · -- a name that means something is a way of its own, and the rest begins where it leads
      have hsplit : ∀ rest, fs.Leads links base (name :: rest) left here
          ↔ ∃ mid middle, fs.Leads links base [name] mid middle ∧ fs.Leads mid middle rest left here := by
        intro rest
        rw [← List.singleton_append, leads_append_iff]
      rw [meant_cons_of_not_skip hname, hsplit, hsplit]
      simp only [ih]

/-- What is found at a path is found without the segments that are skipped. -/
theorem walk_meant (h : fs.walk .follow links base path = .ok location) :
    fs.walk .follow links base (meant path) = .ok location := by
  induction path generalizing links base with
  | nil => exact h
  | cons name path ih =>
    by_cases hname : name = "." ∨ name = ""
    · rw [walk, if_pos hname] at h
      rw [meant_cons_of_skip hname]
      exact ih h
    · rw [meant_cons_of_not_skip hname]
      -- the last name may be missing, and so it is walked as it stands
      cases path with
      | nil => exact h
      | cons second rest =>
        have hcut : fs.walk .follow links base ([name] ++ second :: rest) = .ok location := h
        obtain ⟨mid, middle, hlead, hrest⟩ := leads_of_walk_append hcut (by decide) (List.cons_ne_nil second rest)
        exact (hlead.walk_append (by decide) fun _ => rfl).trans (ih hrest)

end TemplateCoverage.FileSystem
