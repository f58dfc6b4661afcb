import Mathlib.Data.List.Flatten
import TemplateCoverage.FileSystem.Containment

/-!
# The segments of a path

A path is its segments, as far as a search is concerned. A path that is put together from steps has their names
as segments, and the steps of a path are its segments without `.`, so a path that is put together from some of
the steps of another one can be searched for if the other one can.

* **`segments_pathOf`**, **`segments_join`**: the segments of a path that is put together.
* **`components_of_isAbsolute`**: the steps of a path, from its segments.
* **`trail_of_mem_parents`**: a path above another one has the first ones of its segments.
* **`checkPath_pathOf`**: a path with fewer segments can be searched for.
-/

namespace TemplateCoverage.Path

open FileSystem (pathOf)
open scoped List

/-! ## Cutting at slashes -/

/-- A text that can stand between two slashes of a path and means something there. -/
def IsSegment (s : String) : Prop :=
  s ≠ "" ∧ '/' ∉ s.toList

instance (s : String) : Decidable (IsSegment s) :=
  inferInstanceAs (Decidable (_ ∧ _))

theorem split_eq_splitOn (cs : List Char) : split cs = cs.splitOn '/' := by
  induction cs with
  | nil => rw [List.splitOn_nil, split]
  | cons c cs ih =>
    rw [split, List.splitOn_cons_eq_if_modifyHead, ih]
    simp only [beq_iff_eq]
    split
    · rfl
    · cases hrest : cs.splitOn '/' with
      | nil => exact absurd hrest (List.splitOn_ne_nil _ _)
      | cons first rest => rfl

/-- No piece has a slash. -/
theorem not_mem_of_mem_split {cs piece : List Char} (h : piece ∈ split cs) : '/' ∉ piece := by
  induction cs generalizing piece with
  | nil => simp_all [split]
  | cons c cs ih =>
    rw [split] at h
    split at h
    · rcases List.mem_cons.mp h with rfl | h
      · exact List.not_mem_nil
      · exact ih h
    · next hc =>
      -- a character that is no slash joins the first piece
      cases hrest : split cs with
      | nil => simp_all [Ne.symm hc]
      | cons first rest =>
        rw [hrest] at h ih
        rcases List.mem_cons.mp h with rfl | h
        · exact List.not_mem_cons_of_ne_of_not_mem (Ne.symm hc) (ih List.mem_cons_self)
        · exact ih (List.mem_cons_of_mem _ h)

/-- The names of a path are neither empty nor do they hold a slash. -/
theorem isSegment_of_mem_segments {path s : String} (h : s ∈ segments path) : IsSegment s := by
  obtain ⟨piece, hpiece, rfl⟩ := List.mem_map.mp h
  obtain ⟨hsplit, hnonempty⟩ := List.mem_filter.mp hpiece
  refine ⟨fun hempty => ?_, ?_⟩
  · have hnil : piece = [] := by simpa using congrArg String.toList hempty
    rw [hnil] at hnonempty
    cases hnonempty
  · rw [String.toList_ofList]
    exact not_mem_of_mem_split hsplit

/-- The names of two paths that are joined are those of the one and then of the other. -/
theorem segments_append (x y : String) : segments (x ++ "/" ++ y) = segments x ++ segments y := by
  have hslash : (x ++ "/" ++ y).toList = x.toList ++ '/' :: y.toList := by simp
  unfold segments
  rw [hslash, split_eq_splitOn, List.splitOn_append_cons_self, ← split_eq_splitOn, ← split_eq_splitOn,
    List.filter_append, List.map_append]

/-- Segments with slashes between them are cut apart again. -/
theorem segments_intercalate {l : List String} (h : ∀ s ∈ l, IsSegment s) :
    segments (String.intercalate "/" l) = l := by
  cases l with
  | nil => rfl
  | cons first rest =>
    -- no name is cut by the slashes in it, and no empty piece comes between two names
    have hslash : ∀ cs ∈ (first :: rest).map String.toList, '/' ∉ cs := by
      intro cs hcs
      obtain ⟨s, hs, rfl⟩ := List.mem_map.mp hcs
      exact (h s hs).2
    have hnonempty : ∀ cs ∈ (first :: rest).map String.toList, (!cs.isEmpty) = true := by
      intro cs hcs
      obtain ⟨s, hs, rfl⟩ := List.mem_map.mp hcs
      have hs := (h s hs).1
      simpa [String.toList_eq_nil_iff] using hs
    have hchars : ("/" : String).toList = ['/'] := rfl
    unfold segments
    rw [String.toList_intercalate, hchars, split_eq_splitOn,
      List.splitOn_intercalate '/' hslash (List.cons_ne_nil _ _), List.filter_eq_self.mpr hnonempty, List.map_map]
    exact (List.map_congr_left fun s _ => String.ofList_toList).trans (List.map_id _)

/-- Names that are joined make a path that does not begin at the root. -/
theorem isAbsolute_intercalate {l : List String} (h : ∀ s ∈ l, IsSegment s) :
    isAbsolute (String.intercalate "/" l) = false := by
  cases l with
  | nil => rfl
  | cons first rest =>
    obtain ⟨hne, hslash⟩ := h first List.mem_cons_self
    -- the path begins with the first character of the first name
    have hfirst : ∃ more, (String.intercalate "/" (first :: rest)).toList = first.toList ++ more := by
      rw [String.toList_intercalate, List.map_cons]
      cases rest with
      | nil => exact ⟨[], by simp⟩
      | cons second rest => exact ⟨_, by rw [List.map_cons, List.intercalate_cons_cons, List.append_assoc]⟩
    obtain ⟨more, hmore⟩ := hfirst
    unfold isAbsolute
    cases hchars : first.toList with
    | nil => exact absurd (String.toList_eq_nil_iff.mp hchars) hne
    | cons c cs =>
      rw [hchars] at hmore hslash
      rw [hmore]
      have hc : c ≠ '/' := fun hc => hslash (hc ▸ List.mem_cons_self)
      simpa using hc

/-! ## Paths from the root -/

variable {t : List String}

theorem pathOf_eq (t : List String) : pathOf t = "" ++ "/" ++ String.intercalate "/" t := by
  unfold pathOf
  rw [String.empty_append]

theorem toList_pathOf (t : List String) : (pathOf t).toList = '/' :: (String.intercalate "/" t).toList := by
  unfold pathOf
  rw [String.toList_append]
  rfl

@[simp] theorem isAbsolute_pathOf (t : List String) : isAbsolute (pathOf t) = true := by
  unfold isAbsolute
  rw [toList_pathOf]
  rfl

/-- **A path that is put together** from names has these names. -/
theorem segments_pathOf (h : ∀ s ∈ t, IsSegment s) : segments (pathOf t) = t := by
  rw [pathOf_eq, segments_append, segments_intercalate h]
  rfl

/-- A path that does not begin at the root continues the path before it. -/
theorem segments_join {base next : String} (hbase : base ≠ "") (hnext : isAbsolute next = false) :
    segments (join base next) = segments base ++ segments next := by
  unfold join
  rw [hnext, Bool.false_or, if_neg (by simpa using hbase)]
  split
  · next hslash =>
    -- the slash is already there
    obtain ⟨front, hfront⟩ := List.getLast?_eq_some_iff.mp (beq_iff_eq.mp hslash)
    have hchars : base = String.ofList front ++ "/" := by
      rw [← String.ofList_toList (s := base), hfront, String.ofList_append]
    have hempty : segments "" = [] := rfl
    have hself : segments base = segments (String.ofList front) := by
      have h := segments_append (String.ofList front) ""
      rwa [String.append_empty, ← hchars, hempty, List.append_nil] at h
    rw [hself, hchars, segments_append]
  · exact segments_append base next

/-- What is joined to a path from the root is a path from the root. -/
theorem isAbsolute_join {base next : String} (h : isAbsolute base = true) :
    isAbsolute (join base next) = true := by
  -- whatever is put behind it, the path begins with the same slash
  have hfirst : ∀ rest : String, isAbsolute (base ++ rest) = true := by
    intro rest
    unfold isAbsolute at h ⊢
    rw [String.toList_append, List.head?_append, beq_iff_eq.mp h]
    rfl
  have hne : base ≠ "" := by
    rintro rfl
    cases h
  unfold join
  split
  · next hnext =>
    rcases Bool.or_eq_true_iff.mp hnext with hnext | hempty
    · exact hnext
    · exact absurd (String.isEmpty_iff.mp hempty) hne
  · split
    · exact hfirst next
    · rw [String.append_assoc]
      exact hfirst _

/-! ## Steps -/

/-- The segments of a path that a search does not skip. -/
def trail (path : String) : List String :=
  (segments path).filter (· ≠ ".")

/-- The step of a segment that is not skipped. -/
def stepOf (segment : String) : Component :=
  if segment = ".." then .up else .name segment

@[simp] theorem text_stepOf (segment : String) : (stepOf segment).text = segment := by
  unfold stepOf
  split
  · next h => exact h.symm
  · rfl

/-- The names on a trail are names, and none of them stays where it is. -/
theorem isSegment_of_mem_trail {path s : String} (h : s ∈ trail path) : IsSegment s ∧ s ≠ "." := by
  obtain ⟨hs, hdot⟩ := List.mem_filter.mp h
  exact ⟨isSegment_of_mem_segments hs, of_decide_eq_true hdot⟩

/-- The steps for names are one for each of them, apart from those that stay where they are. -/
theorem filterMap_ofSegment? (l : List String) :
    l.filterMap Component.ofSegment? = (l.filter (· ≠ ".")).map stepOf := by
  induction l with
  | nil => rfl
  | cons s l ih =>
    by_cases hdot : s = "."
    · subst hdot
      exact ih
    · have hstep : Component.ofSegment? s = some (stepOf s) := by
        unfold Component.ofSegment? stepOf
        rw [if_neg hdot]
        split <;> rfl
      have hkeep : (s :: l).filter (· ≠ ".") = s :: l.filter (· ≠ ".") :=
        List.filter_cons_of_pos (decide_eq_true hdot)
      rw [List.filterMap_cons_some hstep, ih, hkeep, List.map_cons]

theorem map_text_stepOf (l : List String) : (l.map stepOf).map Component.text = l := by
  rw [List.map_map]
  exact (List.map_congr_left fun s _ => text_stepOf s).trans (List.map_id l)

/-- The steps of a path that begins at the root. -/
theorem components_of_isAbsolute {path : String} (h : isAbsolute path = true) :
    components path = .root :: (trail path).map stepOf := by
  unfold components trail
  rw [if_pos h]
  exact congrArg _ (filterMap_ofSegment? _)

/-- The steps of another path. A `.` in front is one of them. -/
theorem components_of_not_isAbsolute {path : String} (h : isAbsolute path = false) :
    ∃ front : List Component, (front = [] ∨ front = [.here])
      ∧ components path = front ++ (trail path).map stepOf := by
  unfold components trail
  rw [if_neg (by simp [h])]
  dsimp only
  split
  · next rest hsegments =>
    refine ⟨[.here], .inr rfl, ?_⟩
    rw [filterMap_ofSegment?, hsegments]
    rfl
  · exact ⟨[], .inl rfl, filterMap_ofSegment? _⟩

/-- Steps from the root make the path of their names. -/
theorem ofComponents_root (t : List String) : ofComponents (.root :: t.map stepOf) = pathOf t := by
  show "/" ++ String.intercalate "/" ((t.map stepOf).map Component.text) = pathOf t
  rw [map_text_stepOf]
  rfl

theorem ofComponents_of_root_notMem {steps : List Component} (h : .root ∉ steps) :
    ofComponents steps = String.intercalate "/" (steps.map Component.text) := by
  cases steps with
  | nil => rfl
  | cons first rest =>
    cases first with
    | root => exact absurd List.mem_cons_self h
    | here => rfl
    | up => rfl
    | name s => rfl

/-- The trail of such a path is its names. -/
theorem trail_pathOf (h : ∀ s ∈ t, IsSegment s ∧ s ≠ ".") : trail (pathOf t) = t := by
  unfold trail
  rw [segments_pathOf fun s hs => (h s hs).1]
  exact List.filter_eq_self.mpr fun s hs => decide_eq_true (h s hs).2

/-- Some of the first steps of a path that begins at the root. -/
theorem trail_take_of_isAbsolute {path : String} (h : isAbsolute path = true) (n : Nat) :
    isAbsolute (ofComponents ((components path).take (n + 1))) = true
      ∧ trail (ofComponents ((components path).take (n + 1))) <+: trail path := by
  have hsegments : ∀ s ∈ (trail path).take n, IsSegment s ∧ s ≠ "." :=
    fun s hs => isSegment_of_mem_trail (List.mem_of_mem_take hs)
  rw [components_of_isAbsolute h, List.take_succ_cons, ← List.map_take, ofComponents_root]
  refine ⟨isAbsolute_pathOf _, ?_⟩
  rw [trail_pathOf hsegments]
  exact List.take_prefix n _

/-- Some of the first steps of another path. The `.` in front is skipped in both. -/
theorem trail_take_of_not_isAbsolute {path : String} (h : isAbsolute path = false) (n : Nat) :
    isAbsolute (ofComponents ((components path).take n)) = false
      ∧ trail (ofComponents ((components path).take n)) <+: trail path := by
  obtain ⟨front, hfront, hsteps⟩ := components_of_not_isAbsolute h
  -- the first steps make a path of the first names, since none of them goes to the root
  have htexts : ofComponents ((components path).take n)
      = String.intercalate "/" ((front.map Component.text ++ trail path).take n) := by
    have hroot : .root ∉ (components path).take n := by
      intro hmem
      rw [hsteps] at hmem
      rcases List.mem_append.mp (List.mem_of_mem_take hmem) with hmem | hmem
      · rcases hfront with rfl | rfl <;> simp at hmem
      · obtain ⟨s, -, hs⟩ := List.mem_map.mp hmem
        unfold stepOf at hs
        split at hs <;> cases hs
    rw [ofComponents_of_root_notMem hroot, hsteps, List.map_take, List.map_append, map_text_stepOf]
  have hsegments : ∀ s ∈ (front.map Component.text ++ trail path).take n, IsSegment s := by
    intro s hs
    rcases List.mem_append.mp (List.mem_of_mem_take hs) with hs | hs
    · rcases hfront with rfl | rfl
      · cases hs
      · rw [List.mem_singleton.mp hs]
        decide
    · exact (isSegment_of_mem_trail hs).1
  -- a path may begin with the name that stays where it is, which is not on the trail
  have htrail : (front.map Component.text ++ trail path).filter (· ≠ ".") = trail path := by
    have hhere : (front.map Component.text).filter (· ≠ ".") = [] := by
      rcases hfront with rfl | rfl <;> rfl
    rw [List.filter_append, hhere, List.nil_append]
    exact List.filter_eq_self.mpr fun s hs => decide_eq_true (isSegment_of_mem_trail hs).2
  have hbegin := (List.take_prefix n (front.map Component.text ++ trail path)).filter (· ≠ ".")
  rw [htrail] at hbegin
  rw [htexts]
  refine ⟨isAbsolute_intercalate hsegments, ?_⟩
  show (segments _).filter _ <+: trail path
  rw [segments_intercalate hsegments]
  exact hbegin

/-- The paths above a path have the first ones of its segments. The path above a first name is empty. -/
theorem trail_of_mem_parents {path q : String} (h : q ∈ parents path) :
    q = "" ∨ isAbsolute q = isAbsolute path ∧ trail q <+: trail path := by
  have htake : ∃ n, q = ofComponents ((components path).take n) := by
    unfold parents at h
    split at h
    · cases h
    · cases h
    · obtain ⟨n, -, rfl⟩ := List.mem_map.mp (List.mem_reverse.mp h)
      exact ⟨n, rfl⟩
  -- a parent is made of the first steps of the path
  obtain ⟨n, rfl⟩ := htake
  cases habsolute : isAbsolute path with
  | true =>
    cases n with
    | zero => exact .inl rfl
    | succ n => exact .inr (trail_take_of_isAbsolute habsolute n)
  | false => exact .inr (trail_take_of_not_isAbsolute habsolute n)

/-! ## The length of a path -/

/-- A text that lacks some characters of another takes no more bytes. -/
theorem utf8ByteSize_le_of_sublist {cs ds : List Char} (h : cs <+ ds) :
    (String.ofList cs).utf8ByteSize ≤ (String.ofList ds).utf8ByteSize := by
  have hcons : ∀ (c : Char) (cs : List Char),
      (String.ofList (c :: cs)).utf8ByteSize = c.utf8Size + (String.ofList cs).utf8ByteSize := by
    intro c cs
    rw [← List.singleton_append, String.ofList_append, String.utf8ByteSize_append, ← String.singleton_eq_ofList,
      String.utf8ByteSize_singleton]
  -- induction on what is left out
  induction h with
  | slnil => exact Nat.le_refl _
  | cons c _ ih =>
    rw [hcons]
    exact Nat.le_trans ih (Nat.le_add_left _ _)
  | cons_cons c _ ih =>
    rw [hcons, hcons]
    exact Nat.add_le_add_left ih _

/-- Segments with a slash in front of each of them. -/
theorem cons_intercalate {pieces : List (List Char)} (h : pieces ≠ []) :
    '/' :: ['/'].intercalate pieces = pieces.flatMap ('/' :: ·) := by
  induction pieces with
  | nil => exact absurd rfl h
  | cons first rest ih =>
    cases rest with
    | nil => simp
    | cons second rest =>
      rw [List.intercalate_cons_cons, List.append_assoc, List.singleton_append, ih (List.cons_ne_nil _ _)]
      rfl

/-- The text of a path with fewer segments is a part of the text of the path. -/
theorem toList_pathOf_sublist {path : String} (habsolute : isAbsolute path = true) (h : t <+ segments path) :
    (pathOf t).toList <+ path.toList := by
  obtain ⟨rest, hrest⟩ := List.head?_eq_some_iff.mp (beq_iff_eq.mp habsolute)
  -- the text of the path is a slash in front of each piece, so it can be compared piece by piece
  have hpieces : path.toList = (split rest).flatMap ('/' :: ·) := by
    rw [split_eq_splitOn, ← cons_intercalate (List.splitOn_ne_nil _ _), List.intercalate_splitOn, hrest]
  have hsegments : (segments path).map String.toList <+ split rest := by
    have hsplit : split path.toList = [] :: split rest := by rw [hrest, split, if_pos rfl]
    have hback : String.toList ∘ String.ofList = id := funext fun cs => String.toList_ofList
    unfold segments
    rw [hsplit, List.map_map, hback, List.map_id, List.filter_cons_of_neg (by simp)]
    exact List.filter_sublist
  rw [toList_pathOf, String.toList_intercalate]
  cases t with
  | nil =>
    rw [hrest]
    exact List.Sublist.cons_cons '/' (List.nil_sublist _)
  | cons first more =>
    have hslash : ("/" : String).toList = ['/'] := rfl
    -- names that are left out take their slashes with them
    rw [hpieces, hslash, List.map_cons, cons_intercalate (List.cons_ne_nil _ _), ← List.map_cons]
    exact ((h.map String.toList).trans hsegments).flatMap ('/' :: ·)

end TemplateCoverage.Path

namespace TemplateCoverage.FileSystem

open TemplateCoverage.Path
open scoped List

/-- A path with fewer segments can be searched for. -/
theorem checkPath_pathOf {path : String} {t : List String} (hpath : checkPath path = .ok ())
    (habsolute : isAbsolute path = true) (h : t <+ segments path) : checkPath (pathOf t) = .ok () := by
  -- what can be wrong with a path is its length or a character in it
  have hsublist := toList_pathOf_sublist habsolute h
  have hsize : (pathOf t).utf8ByteSize ≤ path.utf8ByteSize := by
    have hbytes := utf8ByteSize_le_of_sublist hsublist
    rwa [String.ofList_toList, String.ofList_toList] at hbytes
  have hempty : (pathOf t).isEmpty = false := by
    unfold pathOf
    simp
  unfold checkPath at hpath ⊢
  split at hpath
  · cases hpath
  next hnul =>
  split at hpath
  · cases hpath
  split at hpath
  · cases hpath
  next hlimit =>
  have hnul' : ¬(pathOf t).toList.contains '\x00' = true := by
    simp only [List.contains_iff_mem] at hnul ⊢
    exact fun hmem => hnul (hsublist.subset hmem)
  rw [if_neg hnul', hempty, if_neg (by decide), if_neg (by omega)]

end TemplateCoverage.FileSystem
