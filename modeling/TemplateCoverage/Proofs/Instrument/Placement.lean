import TemplateCoverage.Proofs.Branch.Located
import TemplateCoverage.Proofs.Instrument.Line

/-!
# Where the tracking code of a file goes

Branches that stand in a source text get their code exactly where they stand. The argument has three
parts:

* The branches of one line, picked out and sorted by the injection, are on that line
  (`branchesOfLine_eq`, `onLine_branchesOfLine`), so that the lemmas of `Line.lean` apply.
* The offsets of a line belong to no other line (`callsBefore_of_line`), so that the lines can be put
  together again.
* **`placed_of_located`**: what the pieces of the whole text are. **`instrument_scan`** instantiates it
  with the branches of a scan.
-/

namespace TemplateCoverage

open Template Text

/-! ## Grouping by line -/

/-- A list that is sorted by a key begins with the elements of the least key. -/
theorem filter_append_filter_of_sorted {α : Type} {key : α → Nat} {xs : List α} {k : Nat}
    (hsorted : xs.Pairwise (key · ≤ key ·)) (hle : ∀ x ∈ xs, k ≤ key x) :
    xs.filter (key · = k) ++ xs.filter (key · ≠ k) = xs := by
  induction xs with
  | nil => rfl
  | cons x xs ih =>
    obtain ⟨hfirst, hrest⟩ := List.pairwise_cons.mp hsorted
    by_cases hx : key x = k
    · rw [List.filter_cons_of_pos (by simpa using hx), List.filter_cons_of_neg (by simpa using hx),
        List.cons_append, ih hrest fun y hy => hle y (List.mem_cons_of_mem _ hy)]
    · -- the first key is greater already, so none is equal
      have hnone : (x :: xs).filter (key · = k) = [] := by
        rw [List.filter_eq_nil_iff]
        intro y hy
        have hxk := hle x (List.mem_cons_self ..)
        rcases List.mem_cons.mp hy with rfl | hy
        · simpa using hx
        · have := hfirst y hy
          simp only [decide_eq_true_eq]
          omega
      have hall : (x :: xs).filter (key · ≠ k) = x :: xs := by
        rw [List.filter_eq_self]
        intro y hy
        have := List.filter_eq_nil_iff.mp hnone y hy
        simpa using this
      rw [hnone, hall]
      rfl

/-- A list that is sorted by a key is put together of the elements of each key. Induction on the
number of keys; the elements of the least one come first. -/
theorem flatMap_filter_range' {α : Type} {key : α → Nat} {xs : List α} {k n : Nat}
    (hsorted : xs.Pairwise (key · ≤ key ·)) (hrange : ∀ x ∈ xs, k ≤ key x ∧ key x < k + n) :
    (List.range' k n).flatMap (fun i => xs.filter (key · = i)) = xs := by
  induction n generalizing k xs with
  | zero =>
    cases xs with
    | nil => rfl
    | cons x xs =>
      have := hrange x (List.mem_cons_self ..)
      omega
  | succ n ih =>
    -- without the elements of the least key, the list is one for the other keys
    have hlater : (List.range' (k + 1) n).flatMap (fun i => xs.filter (key · = i))
        = xs.filter (key · ≠ k) := by
      rw [← ih (k := k + 1) (hsorted.filter (key · ≠ k))]
      · apply List.flatMap_congr
        intro i hi
        have hik := (List.mem_range'_1.mp hi).1
        rw [List.filter_filter]
        -- a key from `k + 1` on is not `k`, so the second filter does nothing
        apply List.filter_congr
        intro x _
        by_cases hx : key x = i
        · simp [hx]
          omega
        · simp [hx]
      · intro x hx
        obtain ⟨hx, hne⟩ := List.mem_filter.mp hx
        have hk := hrange x hx
        have hne : key x ≠ k := by simpa using hne
        omega
    rw [List.range'_succ, List.flatMap_cons, hlater]
    exact filter_append_filter_of_sorted hsorted fun x hx => (hrange x hx).1

/-! ## The branches of one line -/

namespace Located

variable {source : List Char} {branches : List Branch}

/-- Branches on one line are in the order of their columns. -/
theorem columns (h : Located source branches) (number : Nat) :
    (branches.filter fun b => b.tokenLine = number).Pairwise (·.column < ·.column) := by
  refine List.Pairwise.imp_of_mem ?_ (h.ordered.filter _)
  intro b b' hb hb' hprec
  have hline : b.tokenLine = number := by simpa using (List.mem_filter.mp hb).2
  have hline' : b'.tokenLine = number := by simpa using (List.mem_filter.mp hb').2
  rcases hprec with hlt | ⟨-, hlt⟩
  · -- both are on the same line
    have : b.tokenLine < b'.tokenLine := hlt
    omega
  · exact hlt

/-- Sorting the branches of a line changes nothing. -/
theorem branchesOfLine_eq (h : Located source branches) (number : Nat) :
    branchesOfLine branches number = branches.filter fun b => b.tokenLine = number := by
  unfold branchesOfLine
  apply List.mergeSort_of_pairwise
  refine (h.columns number).imp ?_
  intro b b' hlt
  simp only [decide_eq_true_eq]
  exact Nat.le_of_lt hlt

/-- The branches of a line stand on it, in the order of their columns. -/
theorem onLine_branchesOfLine (h : Located source branches) {i : Nat}
    (hi : i < (lines source).length) :
    OnLine 0 (lines source)[i] (branchesOfLine branches (1 + i)) := by
  rw [h.branchesOfLine_eq]
  refine ⟨h.columns (1 + i), fun b _ => Nat.zero_le b.column, ?_⟩
  intro b hb
  obtain ⟨hb, hline⟩ := List.mem_filter.mp hb
  obtain ⟨j, hj, hnumber, back, hfollows, hopens⟩ := h.stands b hb
  have hline : b.tokenLine = 1 + i := by simpa using hline
  -- the line on which it stands is the one of its number
  have hij : j = i := by omega
  subst hij
  exact ⟨back, hfollows, hopens⟩

end Located

/-! ## Offsets in the text -/

/-- The byte offset of the closing token of a branch in the source text. -/
def closingOffset (source : List Char) (b : Branch) : Nat :=
  lineStart (lines source) (b.tokenLine - 1) + b.column

/-- The tracking code of those branches whose closing token stands at a given offset. -/
def callsBefore (wrapperKeys : List String) (source : List Char) (branches : List Branch)
    (offset : Nat) : List Char :=
  (branches.filter fun b => closingOffset source b = offset).flatMap fun b =>
    (trackingCall wrapperKeys b).toList

/-- A branch that stands on a line has its offset there. -/
theorem closingOffset_of_stands {source : List Char} {b : Branch}
    (h : StandsAt source b.tokenLine b.column b.trimLeft) :
    ∃ i, ∃ hi : i < (lines source).length, b.tokenLine = i + 1
      ∧ closingOffset source b = lineStart (lines source) i + b.column
      ∧ b.column < byteLength (lines source)[i] := by
  obtain ⟨i, hi, hnumber, back, hfollows, hopens⟩ := h
  refine ⟨i, hi, hnumber, ?_, ?_⟩
  · -- lines are counted from one
    unfold closingOffset
    rw [hnumber, Nat.add_sub_cancel]
  · obtain ⟨c, cs, rfl⟩ := List.exists_cons_of_ne_nil hopens.ne_nil
    have hpos := c.utf8Size_pos
    rw [hfollows.byteLength_eq, byteLength_cons]
    omega

/-- At its offset in the text, the action opens that closes the branch. -/
theorem followsAt_closingOffset {source : List Char} {b : Branch}
    (h : StandsAt source b.tokenLine b.column b.trimLeft) :
    ∃ back, FollowsAt (closingOffset source b) source back ∧ OpensAction b.trimLeft back := by
  obtain ⟨i, hi, hnumber, back, hfollows, hopens⟩ := h
  obtain ⟨rest, hrest⟩ := hfollows.of_line hi
  refine ⟨back ++ rest, ?_, hopens.append rest⟩
  unfold closingOffset
  rw [hnumber, Nat.add_sub_cancel]
  exact hrest

namespace Located

variable {source : List Char} {branches : List Branch}

/-- The offsets of the branches increase. -/
theorem increasing (h : Located source branches) :
    branches.Pairwise (closingOffset source · < closingOffset source ·) := by
  refine List.Pairwise.imp_of_mem ?_ h.ordered
  intro b b' hb hb' hprec
  obtain ⟨i, hi, hline, hoffset, hcolumn⟩ := closingOffset_of_stands (h.stands b hb)
  obtain ⟨j, hj, hline', hoffset', -⟩ := closingOffset_of_stands (h.stands b' hb')
  rw [hoffset, hoffset']
  rcases hprec with hlt | ⟨heq, hlt⟩
  · -- the offset of the first branch is still on its line, which ends before the later one begins
    have hlt : b.tokenLine < b'.tokenLine := hlt
    have hmono := lineStart_mono (show i + 1 ≤ j by omega) (Nat.le_of_lt hj)
    rw [lineStart_succ hi] at hmono
    omega
  · -- on one line, the columns decide
    have heq : b.tokenLine = b'.tokenLine := heq
    have hlt : b.column < b'.column := hlt
    have hij : i = j := by omega
    subst hij
    omega

/-- At an offset of a line, the code of the line is all the code there is: the branches of other lines
have their offsets there. -/
theorem callsBefore_of_line (h : Located source branches) {wrapperKeys : List String} {i offset : Nat}
    (hi : i < (lines source).length) (hle : lineStart (lines source) i ≤ offset)
    (hlt : offset < lineStart (lines source) i + byteLength (lines source)[i]) :
    lineCallsBefore wrapperKeys (lineStart (lines source) i) (branchesOfLine branches (1 + i)) offset
      = callsBefore wrapperKeys source branches offset := by
  unfold lineCallsBefore callsBefore
  rw [h.branchesOfLine_eq, List.filter_filter]
  have hfilter : branches.filter (fun b => decide (lineStart (lines source) i + b.column = offset)
        && decide (b.tokenLine = 1 + i))
      = branches.filter fun b => closingOffset source b = offset := by
    apply List.filter_congr
    intro b hb
    obtain ⟨j, hj, hline, hoffset, hcolumn⟩ := closingOffset_of_stands (h.stands b hb)
    rw [Bool.eq_iff_iff, Bool.and_eq_true, decide_eq_true_eq, decide_eq_true_eq, decide_eq_true_eq]
    constructor
    · rintro ⟨hhere, hnumber⟩
      have hij : j = i := by omega
      subst hij
      rw [hoffset, hhere]
    · -- a branch with its offset on this line is a branch of this line
      intro hhere
      rw [hoffset] at hhere
      have hij : i = j := line_unique hi hj hle hlt (by omega) (by omega)
      subst hij
      omega
  rw [hfilter]

end Located

/-! ## The pieces of a text -/

theorem EachFollowed.flatMap {α : Type} {wrapperKeys : List String} {f : α → List Piece}
    {xs : List α} (h : ∀ x ∈ xs, EachFollowed wrapperKeys (f x)) :
    EachFollowed wrapperKeys (xs.flatMap f) := by
  induction xs with
  | nil => exact .nil wrapperKeys
  | cons x xs ih =>
    rw [List.flatMap_cons]
    have hx := h x (List.mem_cons_self ..)
    exact hx.append (ih fun y hy => h y (List.mem_cons_of_mem _ hy))

/-- The pieces of a source text put the code of each branch where the branch stands. -/
structure Placed (wrapperKeys : List String) (source : List Char) (branches : List Branch) :
    Prop where
  /-- The text is the source with the code of each branch in front of the byte at its offset. -/
  text : (pieces source branches).flatMap (Piece.text wrapperKeys)
    = insertBefore (callsBefore wrapperKeys source branches) 0 source
  /-- Without the code, the source is left. -/
  sourceText : (pieces source branches).flatMap Piece.sourceText = source
  /-- Each branch gets its code once, in order. -/
  calls : (pieces source branches).filterMap Piece.call? = branches
  noneSkipped : ∀ p ∈ pieces source branches, p.isSkipped = false
  increasing : branches.Pairwise (closingOffset source · < closingOffset source ·)
  followed : EachFollowed wrapperKeys (pieces source branches)

/-- No source text is lost, wherever the branches are. -/
theorem sourceText_pieces (source : List Char) (branches : List Branch) :
    (pieces source branches).flatMap Piece.sourceText = source := by
  unfold pieces
  rw [List.flatMap_assoc]
  -- line by line, since calls are no part of the source
  calc (numberedLines source).flatMap
        (fun x => (linePieces 0 x.1 (branchesOfLine branches x.2)).flatMap Piece.sourceText)
      = (numberedLines source).flatMap (fun x => x.1) :=
        List.flatMap_congr fun x _ => sourceText_linePieces 0 x.1 _
    _ = (lines source).flatten := by
        unfold numberedLines
        rw [List.flatMap_def, List.zipIdx_map_fst]
    _ = source := flatten_lines source

namespace Located

variable {source : List Char} {branches : List Branch}

/-- The branches of the lines are all the branches. -/
theorem flatMap_branchesOfLine (h : Located source branches) :
    (numberedLines source).flatMap (fun x => branchesOfLine branches x.2) = branches := by
  -- the branches are sorted by their lines, so they are those of the first line, then of the second one, and so
  -- on
  have hsorted : branches.Pairwise (·.tokenLine ≤ ·.tokenLine) := by
    refine h.ordered.imp ?_
    intro b b' hprec
    rcases hprec with hlt | ⟨heq, -⟩
    · exact Nat.le_of_lt hlt
    · exact Nat.le_of_eq heq
  have hrange : ∀ b ∈ branches, 1 ≤ b.tokenLine ∧ b.tokenLine < 1 + (lines source).length := by
    intro b hb
    obtain ⟨i, hi, hnumber, -⟩ := h.stands b hb
    omega
  calc (numberedLines source).flatMap (fun x => branchesOfLine branches x.2)
      = ((numberedLines source).map Prod.snd).flatMap (branchesOfLine branches) :=
        (List.flatMap_map Prod.snd (branchesOfLine branches) _).symm
    _ = (List.range' 1 (lines source).length).flatMap (branchesOfLine branches) := by
        unfold numberedLines
        rw [List.zipIdx_map_snd]
    _ = (List.range' 1 (lines source).length).flatMap
          (fun i => branches.filter fun b => b.tokenLine = i) :=
        List.flatMap_congr fun i _ => h.branchesOfLine_eq i
    _ = branches := flatMap_filter_range' hsorted hrange

theorem onLine_of_mem (h : Located source branches) {x : List Char × Nat}
    (hx : x ∈ numberedLines source) : OnLine 0 x.1 (branchesOfLine branches x.2) := by
  obtain ⟨line, number⟩ := x
  obtain ⟨i, hi, rfl, rfl⟩ := mem_numberedLines hx
  rw [Nat.add_comm i 1]
  exact h.onLine_branchesOfLine hi

/-- Each branch has its call, in order. -/
theorem calls_pieces (h : Located source branches) :
    (pieces source branches).filterMap Piece.call? = branches := by
  unfold pieces
  rw [List.filterMap_flatMap]
  calc (numberedLines source).flatMap
        (fun x => (linePieces 0 x.1 (branchesOfLine branches x.2)).filterMap Piece.call?)
      = (numberedLines source).flatMap (fun x => branchesOfLine branches x.2) :=
        List.flatMap_congr fun x hx => (calls_linePieces (h.onLine_of_mem hx)).1
    _ = branches := h.flatMap_branchesOfLine

/-- The text of the pieces, line by line: inside a line only its own code is inserted. -/
theorem text_pieces (h : Located source branches) (wrapperKeys : List String) :
    (pieces source branches).flatMap (Piece.text wrapperKeys)
      = insertBefore (callsBefore wrapperKeys source branches) 0 source := by
  unfold pieces
  rw [List.flatMap_assoc]
  have hlines : (numberedLines source).flatMap
        (fun x => (linePieces 0 x.1 (branchesOfLine branches x.2)).flatMap (Piece.text wrapperKeys))
      = insertBefore (callsBefore wrapperKeys source branches) 0 (lines source).flatten := by
    apply insertBefore_flatten
    intro i hi
    rw [text_linePieces (h.onLine_branchesOfLine hi) (lineStart (lines source) i),
      Nat.add_zero, Nat.zero_add]
    -- inside of this line, the code of the line and the code of the text agree
    apply insertBefore_congr
    intro o hle hlt
    exact h.callsBefore_of_line hi hle hlt
  rw [hlines, flatten_lines]

end Located

/-- Located branches are placed where they stand. -/
theorem placed_of_located {source : List Char} {branches : List Branch}
    (h : Located source branches) (wrapperKeys : List String) :
    Placed wrapperKeys source branches where
  text := h.text_pieces wrapperKeys
  sourceText := sourceText_pieces source branches
  calls := h.calls_pieces
  -- every piece belongs to some line
  noneSkipped := by
    intro p hp
    obtain ⟨x, hx, hp⟩ := List.mem_flatMap.mp hp
    exact (calls_linePieces (h.onLine_of_mem hx)).2 p hp
  increasing := h.increasing
  followed := EachFollowed.flatMap fun x hx => eachFollowed_linePieces (h.onLine_of_mem hx)

/-! ## The instrumented text of a scanned file -/

/-- The mark for trimming is there exactly if the branch says so. -/
theorem OpensAction.prefix_iff {trim : Bool} {cs : List Char} (h : OpensAction trim cs) :
    openBraces.toList <+: cs ∧ (trimBraces.toList <+: cs ↔ trim = true) := by
  obtain ⟨c, rest, rfl, -, htrim⟩ := h
  refine ⟨⟨c :: rest, rfl⟩, ?_⟩
  -- the marker is there exactly if the third character is a dash
  rw [← htrim]
  constructor
  · rintro ⟨tail, htail⟩
    cases htail
    rfl
  · rintro rfl
    exact ⟨rest, rfl⟩

/-- Tracking code begins with an action that has the given braces. -/
theorem exists_text_eq_action {code : Code} (h : code ≠ .skip) (opening : String) :
    ∃ text tail, code.text opening = action opening text ++ tail := by
  cases code with
  | skip => exact absurd rfl h
  | record place collection id =>
    refine ⟨recordText place collection id, "", ?_⟩
    rw [Code.text, String.append_empty]
  | branch test yes no =>
    refine ⟨"if " ++ test.text, yes.text openBraces ++ (no.elseText ++ action openBraces "end"), ?_⟩
    rw [Code.text, String.append_assoc, String.append_assoc]

theorem trackingCode_ne_skip (wrapperKeys : List String) (b : Branch) :
    trackingCode wrapperKeys b ≠ .skip := by
  unfold trackingCode
  split
  · exact Code.noConfusion
  · exact Code.noConfusion

/-- The tracking code of a branch opens with the trim marker exactly if the branch says so. -/
theorem opensAction_trackingCall (wrapperKeys : List String) (b : Branch) :
    OpensAction b.trimLeft (trackingCall wrapperKeys b).toList := by
  unfold trackingCall
  obtain ⟨text, tail, htext⟩ := exists_text_eq_action (trackingCode_ne_skip wrapperKeys b)
    (if b.trimLeft then trimBraces else openBraces)
  rw [htext]
  unfold action
  simp only [String.toList_append, List.append_assoc]
  -- behind the braces there is the dash of the marker, or else a blank
  cases b.trimLeft with
  | true => exact ⟨'-', _, rfl, by decide, by decide⟩
  | false => exact ⟨' ', _, rfl, by decide, by decide⟩

/-- **Scanner and injection agree on positions.** For every text, the branches that an allocator, a
fresh one for example, gives its arms are placed where they stand. The output is the set-up code, the
source with the code of each branch in front of the token that closes it, and the report code, where
only template files have the first and the last. -/
theorem instrument_scan (a : Allocator) (evaluators wrapperKeys : List String) (file : String)
    (kind : FileKind) (source : String) :
    let branches := scannedBranches a evaluators file kind source
    let parts := pieces source.toList branches
    instrument wrapperKeys source kind branches
        = (if kind = .template then initCall else "")
          ++ String.ofList (insertBefore (callsBefore wrapperKeys source.toList branches) 0
              source.toList)
          ++ (if kind = .template then reportCall else "")
      ∧ Placed wrapperKeys source.toList branches
      ∧ (∀ b ∈ branches,
          (∃ t ∈ tokensOf evaluators source.toList, t.yields = true ∧ b.toArm.ClosedBy t)
          ∧ ∃ back, FollowsAt (closingOffset source.toList b) source.toList back
            ∧ OpensAction b.trimLeft back)
      ∧ ∀ before b after, parts = before ++ .call b :: after →
          openBraces.toList <+: after.flatMap (Piece.text wrapperKeys)
          ∧ (trimBraces.toList <+: after.flatMap (Piece.text wrapperKeys)
              ↔ trimBraces.toList <+: (trackingCall wrapperKeys b).toList) := by
  intro branches parts
  have hlocated : Located source.toList branches :=
    located_scannedBranches a evaluators file kind source
  -- all of it holds since the branches stand where they were found
  have hplaced := placed_of_located hlocated wrapperKeys
  refine ⟨?_, hplaced, ?_, ?_⟩
  · rw [← hplaced.text]
    cases kind with
    | template => rfl
    | helper =>
      show String.ofList _ = "" ++ String.ofList _ ++ ""
      rw [String.empty_append, String.append_empty]
  · intro b hb
    exact ⟨exists_token_of_mem_scannedBranches hb, followsAt_closingOffset (hlocated.stands b hb)⟩
  · intro before b after hparts
    obtain ⟨hopen, htrim⟩ := (hplaced.followed before b after hparts).prefix_iff
    -- a call begins like the action behind it, with or without the mark for trimming
    obtain ⟨-, htrim'⟩ := (opensAction_trackingCall wrapperKeys b).prefix_iff
    exact ⟨hopen, htrim.trans htrim'.symm⟩

end TemplateCoverage
