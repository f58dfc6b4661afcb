import TemplateCoverage.Proofs.Instrument.Placement
import TemplateCoverage.Proofs.Text.Boundary

/-!
# Instrumenting with arbitrary branches

The injection takes whatever branches it is given. They may come in any order, again and again, with lines
that the file does not have and with columns at which its lines cannot be cut. Those that have a place get
their code there, the others get none, and the source text is all there.

* **`linePieces_cases`**: the step of the cursor over a line. The next branch in the order of the columns
  gets its code, or it is skipped and the cursor stays where it is.
* **`calls_linePieces_eq`**, **`text_linePieces_eq`**, **`byteLength_before_call`**,
  **`slicedPieces?_eq`**: from the step, by induction on the branches, what becomes of a line.
* **`instrument_total`**: the lines are put together again.
-/

namespace TemplateCoverage

open Text

/-! ## The step of the cursor -/

/-- The branches are in the order of their columns, and none of them is left of the cursor. -/
structure FromCursor (cursor : Nat) (bs : List Branch) : Prop where
  ordered : bs.Pairwise (·.column ≤ ·.column)
  beyond : ∀ b ∈ bs, cursor ≤ b.column

theorem FromCursor.tail {cursor : Nat} {b : Branch} {more : List Branch}
    (h : FromCursor cursor (b :: more)) : FromCursor cursor more :=
  ⟨(List.pairwise_cons.mp h.ordered).2, fun b' hb' => h.beyond b' (List.mem_cons_of_mem _ hb')⟩

/-- From the column of the first branch on, the other ones are still ahead. -/
theorem FromCursor.move {cursor : Nat} {b : Branch} {more : List Branch}
    (h : FromCursor cursor (b :: more)) : FromCursor b.column more :=
  ⟨(List.pairwise_cons.mp h.ordered).2, (List.pairwise_cons.mp h.ordered).1⟩

/-- **The step of the cursor.** The line is cut at the column of the first branch, or cannot be cut there.
The cursor then stands at the column, or where it stood. -/
theorem linePieces_cases {cursor : Nat} {b : Branch} {more : List Branch} (rest : List Char)
    (h : FromCursor cursor (b :: more)) :
    (∃ front back, rest = front ++ back ∧ cursor + byteLength front = b.column
        ∧ linePieces cursor rest (b :: more)
          = .source front :: .call b :: linePieces b.column back more)
      ∨ ¬CharBoundary (b.column - cursor) rest
        ∧ linePieces cursor rest (b :: more) = .skipped b :: linePieces cursor rest more := by
  have hbeyond := h.beyond b List.mem_cons_self
  rw [linePieces, if_neg (Nat.not_lt.mpr hbeyond)]
  -- the line is cut where the branch stands, if a character begins there
  cases hcut : splitAtByte? (b.column - cursor) rest with
  | none =>
    refine .inr ⟨?_, rfl⟩
    rw [charBoundary_iff_isSome, hcut]
    exact Bool.false_ne_true
  | some parts =>
    obtain ⟨hrest, hlength⟩ := splitAtByte?_eq_some_iff.mp hcut
    exact .inl ⟨parts.1, parts.2, hrest, by omega, rfl⟩

/-! ## The pieces of a line -/

/-- The branches that get their code are those whose column is a boundary of the line. -/
theorem calls_linePieces_eq {cursor : Nat} {rest : List Char} {bs : List Branch}
    (h : FromCursor cursor bs) :
    (linePieces cursor rest bs).filterMap Piece.call?
      = bs.filter fun b => CharBoundary (b.column - cursor) rest := by
  induction bs generalizing cursor rest with
  | nil => rfl
  | cons b more ih =>
    rcases linePieces_cases rest h with ⟨front, back, rfl, hcolumn, hpieces⟩ | ⟨hnone, hpieces⟩
    · have hhere : CharBoundary (b.column - cursor) (front ++ back) := ⟨back, front, rfl, by omega⟩
      rw [hpieces, List.filterMap_cons_none rfl,
        List.filterMap_cons_some (show Piece.call? (.call b) = some b from rfl), ih h.move,
        List.filter_cons_of_pos (by simpa using hhere)]
      -- behind the cut, the boundaries of the line are those of what is left of it
      refine congrArg (b :: ·) (List.filter_congr fun b' hb' => ?_)
      have hlater := h.move.beyond b' hb'
      rw [decide_eq_decide, ← charBoundary_append_iff front back,
        show byteLength front + (b'.column - b.column) = b'.column - cursor from by omega]
    · rw [hpieces, List.filterMap_cons_none rfl, ih h.tail,
        List.filter_cons_of_neg (by simpa using hnone)]

theorem lineCallsBefore_cons_of_eq {wrapperKeys : List String} {base offset : Nat} {b : Branch}
    {more : List Branch} (h : base + b.column = offset) :
    lineCallsBefore wrapperKeys base (b :: more) offset
      = (trackingCall wrapperKeys b).toList ++ lineCallsBefore wrapperKeys base more offset := by
  unfold lineCallsBefore
  rw [List.filter_cons_of_pos (by simpa using h), List.flatMap_cons]

/-- The pieces make up the line with the code of the branches at its boundaries. -/
theorem text_linePieces_eq {wrapperKeys : List String} {cursor : Nat} {rest : List Char}
    {bs : List Branch} (h : FromCursor cursor bs) :
    (linePieces cursor rest bs).flatMap (Piece.text wrapperKeys)
      = insertThrough (lineCallsBefore wrapperKeys 0 bs) cursor rest := by
  induction bs generalizing cursor rest with
  | nil =>
    rw [insertThrough_congr (g := fun _ => []) fun n _ => lineCallsBefore_nil (by simp),
      insertThrough_nothing]
    exact List.append_nil rest
  | cons b more ih =>
    rcases linePieces_cases rest h with ⟨front, back, rfl, hcolumn, hpieces⟩ | ⟨hnone, hpieces⟩
    · -- left of the cut nothing is inserted, and at the cut the code of `b` comes first
      have hfront : insertBefore (lineCallsBefore wrapperKeys 0 (b :: more)) cursor front = front := by
        refine insertBefore_of_nil fun o _ ho => lineCallsBefore_nil fun b' hb' => ?_
        rcases List.mem_cons.mp hb' with rfl | hb'
        · omega
        · have := h.move.beyond b' hb'
          omega
      rw [hpieces, List.flatMap_cons, List.flatMap_cons, ih h.move, insertThrough_append, hfront, hcolumn,
        insertThrough_first (lineCallsBefore_cons_of_eq (Nat.zero_add _))
          fun o ho => lineCallsBefore_cons_of_ne (by omega)]
      rfl
    · rw [hpieces, List.flatMap_cons, ih h.tail]
      -- the column of `b` is no boundary, so its code is nowhere asked for
      refine insertThrough_congr fun n hn => (lineCallsBefore_cons_of_ne fun heq => hnone ?_).symm
      rwa [show b.column - cursor = n from by omega]

/-- In front of a call stands the text of the line up to the column of its branch. -/
theorem byteLength_before_call {cursor : Nat} {rest : List Char} {bs : List Branch}
    (h : FromCursor cursor bs) {before after : List Piece} {b : Branch}
    (hpieces : linePieces cursor rest bs = before ++ .call b :: after) :
    cursor + byteLength (before.flatMap Piece.sourceText) = b.column := by
  induction bs generalizing cursor rest before with
  | nil =>
    have hmem : Piece.call b ∈ linePieces cursor rest [] := by simp [hpieces]
    exact absurd (List.mem_singleton.mp hmem) Piece.noConfusion
  | cons first more ih =>
    rcases linePieces_cases rest h with ⟨front, back, rfl, hcolumn, heq⟩ | ⟨-, heq⟩
    · rw [heq] at hpieces
      match before, hpieces with
      | [_], hpieces =>
        cases hpieces
        simpa [Piece.sourceText] using hcolumn
      | _ :: _ :: before, hpieces =>
        -- the call is that of a later branch, and is counted from the cut
        rw [List.cons_append, List.cons_append] at hpieces
        injection hpieces with hfirst hpieces
        injection hpieces with hsecond hpieces
        subst hfirst hsecond
        have hlater := ih h.move hpieces
        rw [List.flatMap_cons, List.flatMap_cons, byteLength_append, byteLength_append]
        show cursor + (byteLength front + (0 + _)) = b.column
        omega
    · rw [heq] at hpieces
      cases before with
      | nil => cases hpieces
      | cons p before =>
        rw [List.cons_append] at hpieces
        injection hpieces with hfirst hpieces
        subst hfirst
        have hlater := ih h.tail hpieces
        rw [List.flatMap_cons]
        exact hlater

/-! ## The line read by byte offsets -/

/-- The pieces of a line where all text is taken from the line by byte offsets. What stands in front of a
column may be missing, since the branch is skipped then. What stands behind the cursor in the end may not. -/
def slicedPieces? (line : List Char) (cursor : Nat) : List Branch → Option (List Piece)
  | [] => (slice? line cursor (byteLength line)).map fun rest => [.source rest]
  | b :: more =>
    match slice? line cursor b.column with
    | none => (slicedPieces? line cursor more).map (.skipped b :: ·)
    | some front => (slicedPieces? line b.column more).map (.source front :: .call b :: ·)

/-- The cursor always stands at a boundary of the line, so the end of the line is never missing. -/
theorem slicedPieces?_eq {line rest : List Char} {cursor : Nat} {bs : List Branch}
    (h : FromCursor cursor bs) (hrest : FollowsAt cursor line rest) :
    slicedPieces? line cursor bs = some (linePieces cursor rest bs) := by
  induction bs generalizing cursor rest with
  | nil =>
    rw [slicedPieces?, slice?_end hrest]
    rfl
  | cons b more ih =>
    have hslice := slice?_of_followsAt hrest (h.beyond b List.mem_cons_self)
    -- induction on the branches: what is sliced out of the line is what is left of it
    rcases linePieces_cases rest h with ⟨front, back, rfl, hcolumn, hpieces⟩ | ⟨hnone, hpieces⟩
    · have hcut : splitAtByte? (b.column - cursor) (front ++ back) = some (front, back) :=
        splitAtByte?_eq_some_iff.mpr ⟨rfl, by omega⟩
      -- behind a call the cursor is where its branch stands
      have hback : FollowsAt b.column line back := by
        obtain ⟨before, rfl, rfl⟩ := hrest
        exact ⟨before ++ front, (List.append_assoc ..).symm, by rw [byteLength_append, hcolumn]⟩
      rw [slicedPieces?, hslice, hcut, hpieces]
      dsimp only [Option.map_some]
      rw [ih h.move hback]
      rfl
    · have hcut : splitAtByte? (b.column - cursor) rest = none := by
        rw [charBoundary_iff_isSome, Bool.not_eq_true] at hnone
        exact Option.isNone_iff_eq_none.mp (Option.isSome_eq_false_iff.mp hnone)
      rw [slicedPieces?, hslice, hcut, hpieces]
      dsimp only [Option.map_none]
      rw [ih h.tail hrest]
      rfl

/-! ## The branches of a line -/

theorem key_le_trans {α : Type} (key : α → Nat) (a b c : α) (hab : decide (key a ≤ key b) = true)
    (hbc : decide (key b ≤ key c) = true) : decide (key a ≤ key c) = true :=
  decide_eq_true (Nat.le_trans (of_decide_eq_true hab) (of_decide_eq_true hbc))

theorem key_le_total {α : Type} (key : α → Nat) (a b : α) :
    (decide (key a ≤ key b) || decide (key b ≤ key a)) = true := by
  rw [Bool.or_eq_true, decide_eq_true_eq, decide_eq_true_eq]
  exact Nat.le_total (key a) (key b)

/-- Elements with the same key are in the same order behind a sort by the key. -/
theorem filter_mergeSort_key {α : Type} (key : α → Nat) (xs : List α) (k : Nat) :
    (xs.mergeSort fun a b => key a ≤ key b).filter (key · = k) = xs.filter (key · = k) := by
  have hsorted : (xs.filter (key · = k)).Pairwise fun a b => decide (key a ≤ key b) = true := by
    refine List.pairwise_of_forall_mem_list fun a ha b hb => ?_
    have ha := of_decide_eq_true (List.mem_filter.mp ha).2
    have hb := of_decide_eq_true (List.mem_filter.mp hb).2
    exact decide_eq_true (by omega)
  -- what is sorted as it is remains a sublist, and there are no more elements with the key
  have hsublist := (List.sublist_mergeSort (key_le_trans key) (key_le_total key) hsorted
    List.filter_sublist).filter (key · = k)
  have hlength := ((List.mergeSort_perm xs fun a b => key a ≤ key b).filter (key · = k)).length_eq
  simp only [List.filter_filter, Bool.and_self] at hsublist
  exact (hsublist.eq_of_length hlength.symm).symm

/-- The branches of a line are those whose token is on it. -/
theorem mem_branchesOfLine {branches : List Branch} {number : Nat} {b : Branch} :
    b ∈ branchesOfLine branches number ↔ b ∈ branches ∧ b.tokenLine = number := by
  unfold branchesOfLine
  rw [List.mem_mergeSort, List.mem_filter, decide_eq_true_eq]

theorem fromCursor_branchesOfLine (branches : List Branch) (number : Nat) :
    FromCursor 0 (branchesOfLine branches number) := by
  refine ⟨?_, fun b _ => Nat.zero_le b.column⟩
  have hsorted := List.pairwise_mergeSort (key_le_trans fun b : Branch => b.column)
    (key_le_total fun b : Branch => b.column) (branches.filter (·.tokenLine = number))
  exact hsorted.imp of_decide_eq_true

/-- At one column of a line, the branches are in the order in which they were given. -/
theorem filter_column_branchesOfLine (branches : List Branch) (number column : Nat) :
    (branchesOfLine branches number).filter (·.column = column)
      = branches.filter (·.position = (number, column)) := by
  unfold branchesOfLine
  rw [filter_mergeSort_key, List.filter_filter]
  refine List.filter_congr fun b _ => ?_
  rw [← Bool.decide_and, decide_eq_decide, and_comm, ← Prod.mk.injEq]
  rfl

/-! ## The whole text -/

/-- The tracking code of the branches with a line and a column, in the order in which they are given. -/
def codeAt (wrapperKeys : List String) (branches : List Branch) (number column : Nat) : List Char :=
  (branches.filter (·.position = (number, column))).flatMap fun b => (trackingCall wrapperKeys b).toList

/-- The branch has a place in the text: the text has its line, and the line can be cut at its column. -/
def HasPlace (source : List Char) (b : Branch) : Prop :=
  ∃ line, (line, b.tokenLine) ∈ numberedLines source ∧ CharBoundary b.column line

/-- The branches that get their code, in the order of the text. -/
def insertedBranches (source : List Char) (branches : List Branch) : List Branch :=
  (pieces source branches).filterMap Piece.call?

/-- Line by line, these are the branches of the line whose column is a boundary of it. -/
theorem insertedBranches_eq (source : List Char) (branches : List Branch) :
    insertedBranches source branches = (numberedLines source).flatMap fun x =>
      (branchesOfLine branches x.2).filter fun b => CharBoundary b.column x.1 := by
  unfold insertedBranches pieces
  rw [List.filterMap_flatMap]
  refine List.flatMap_congr fun x _ => ?_
  rw [calls_linePieces_eq (fromCursor_branchesOfLine branches x.2)]
  rfl

/-- A branch is inserted if its place is there. -/
theorem mem_insertedBranches {source : List Char} {branches : List Branch} {b : Branch} :
    b ∈ insertedBranches source branches ↔ b ∈ branches ∧ HasPlace source b := by
  rw [insertedBranches_eq, List.mem_flatMap]
  constructor
  · rintro ⟨⟨line, number⟩, hline, hb⟩
    obtain ⟨hmem, hcolumn⟩ := List.mem_filter.mp hb
    obtain ⟨hgiven, rfl⟩ := mem_branchesOfLine.mp hmem
    exact ⟨hgiven, line, hline, of_decide_eq_true hcolumn⟩
  · rintro ⟨hb, line, hline, hcolumn⟩
    exact ⟨(line, b.tokenLine), hline,
      List.mem_filter.mpr ⟨mem_branchesOfLine.mpr ⟨hb, rfl⟩, decide_eq_true hcolumn⟩⟩

/-- At a place, every branch that was given for it gets its code, in the order given. The lines in front of
the place and behind it contribute nothing. -/
theorem filter_position_insertedBranches {source : List Char} {b : Branch} (h : HasPlace source b)
    (branches : List Branch) :
    (insertedBranches source branches).filter (·.position = b.position)
      = branches.filter (·.position = b.position) := by
  obtain ⟨line, hline, hcolumn⟩ := h
  obtain ⟨before, after, hlines⟩ := List.append_of_mem hline
  have hnumbers := pairwise_numberedLines source
  rw [hlines, List.pairwise_append] at hnumbers
  obtain ⟨-, hafter, hbefore⟩ := hnumbers
  -- branches of other lines have other positions
  have hother : ∀ x ∈ before ++ after, ((branchesOfLine branches x.2).filter
      fun b' => CharBoundary b'.column x.1).filter (·.position = b.position) = [] := by
    intro x hx
    refine List.filter_eq_nil_iff.mpr fun b' hb' hposition => ?_
    have hnumber := (mem_branchesOfLine.mp (List.mem_filter.mp hb').1).2
    have hsame : b'.tokenLine = b.tokenLine := congrArg Prod.fst (of_decide_eq_true hposition)
    rcases List.mem_append.mp hx with hx | hx
    · have := hbefore x hx _ List.mem_cons_self
      omega
    · have := (List.pairwise_cons.mp hafter).1 x hx
      omega
  -- on the line itself the position is the column
  have hhere : ((branchesOfLine branches b.tokenLine).filter
        fun b' => CharBoundary b'.column line).filter (·.position = b.position)
      = branches.filter (·.position = b.position) := by
    rw [List.filter_filter, show b.position = (b.tokenLine, b.column) from rfl,
      ← filter_column_branchesOfLine]
    refine List.filter_congr fun b' hb' => ?_
    have hnumber := (mem_branchesOfLine.mp hb').2
    rw [← Bool.decide_and, decide_eq_decide]
    constructor
    · exact fun hboth => congrArg Prod.snd hboth.1
    · intro hsame
      exact ⟨Prod.ext hnumber hsame, hsame ▸ hcolumn⟩
  rw [insertedBranches_eq, List.filter_flatMap, hlines, List.flatMap_append, List.flatMap_cons, hhere,
    List.flatMap_eq_nil_iff.mpr fun x hx => hother x (List.mem_append_left _ hx),
    List.flatMap_eq_nil_iff.mpr fun x hx => hother x (List.mem_append_right _ hx)]
  simp

/-- The calls are in the order of their lines, and on a line in the order of their columns. -/
theorem pairwise_insertedBranches (source : List Char) (branches : List Branch) :
    (insertedBranches source branches).Pairwise fun b b' => ¬Precedes b'.position b.position := by
  rw [insertedBranches_eq, List.pairwise_flatMap]
  constructor
  · -- on one line the branches come in the order of their columns
    rintro ⟨line, number⟩ -
    refine List.Pairwise.imp_of_mem ?_ ((fromCursor_branchesOfLine branches number).ordered.filter _)
    intro b b' hb hb' hle
    have hnumber := (mem_branchesOfLine.mp (List.mem_filter.mp hb).1).2
    have hnumber' := (mem_branchesOfLine.mp (List.mem_filter.mp hb').1).2
    rintro (hlt | ⟨-, hlt⟩)
    · have hlt : b'.tokenLine < b.tokenLine := hlt
      omega
    · exact Nat.not_lt.mpr hle hlt
  · -- the lines come in order themselves
    refine (pairwise_numberedLines source).imp fun hlt b hb b' hb' => ?_
    have hnumber := (mem_branchesOfLine.mp (List.mem_filter.mp hb).1).2
    have hnumber' := (mem_branchesOfLine.mp (List.mem_filter.mp hb').1).2
    rintro (hback | ⟨hsame, -⟩)
    · have hback : b'.tokenLine < b.tokenLine := hback
      omega
    · have hsame : b'.tokenLine = b.tokenLine := hsame
      omega

/-- On every line, the code of the branches given for its boundaries stands at them. -/
theorem text_pieces_eq (wrapperKeys : List String) (source : List Char) (branches : List Branch) :
    (pieces source branches).flatMap (Piece.text wrapperKeys)
      = (numberedLines source).flatMap fun x =>
        insertThrough (codeAt wrapperKeys branches x.2) 0 x.1 := by
  unfold pieces
  rw [List.flatMap_assoc]
  -- line by line: the calls go in front of the columns of their branches
  refine List.flatMap_congr fun x _ => ?_
  rw [text_linePieces_eq (fromCursor_branchesOfLine branches x.2)]
  refine insertThrough_congr fun n _ => ?_
  unfold lineCallsBefore codeAt
  simp only [Nat.zero_add]
  rw [filter_column_branchesOfLine]

/-- In front of a call stands the text up to its line, and that of the line up to its column. Induction on
the lines: a call among the pieces of the first line is counted there, and any other one behind it. -/
theorem byteLength_before_call_of_lines {branches : List Branch} {ls : List (List Char)} {number : Nat}
    {before after : List Piece} {b : Branch}
    (h : (ls.zipIdx number).flatMap (fun x => linePieces 0 x.1 (branchesOfLine branches x.2))
      = before ++ .call b :: after) :
    ∃ i, b.tokenLine = number + i
      ∧ byteLength (before.flatMap Piece.sourceText) = lineStart ls i + b.column := by
  induction ls generalizing number before with
  | nil => exact absurd h.symm (by simp)
  | cons line ls ih =>
    rw [List.zipIdx_cons, List.flatMap_cons] at h
    -- the call is on a later line, so the whole first line stands in front of it
    have hlater : ∀ mid, (ls.zipIdx (number + 1)).flatMap
          (fun x => linePieces 0 x.1 (branchesOfLine branches x.2)) = mid ++ .call b :: after →
        ∃ i, b.tokenLine = number + i
          ∧ byteLength ((linePieces 0 line (branchesOfLine branches number) ++ mid).flatMap
            Piece.sourceText) = lineStart (line :: ls) i + b.column := by
      intro mid hmid
      obtain ⟨i, hnumber, hlength⟩ := ih hmid
      refine ⟨i + 1, by omega, ?_⟩
      rw [List.flatMap_append, sourceText_linePieces, byteLength_append, hlength, ← Nat.add_assoc]
      exact congrArg (· + b.column) (byteLength_append line (ls.take i).flatten).symm
    rcases List.append_eq_append_iff.mp h with ⟨mid, rfl, hrest⟩ | ⟨mid, hline, hafter⟩
    · exact hlater mid hrest
    · -- the pieces of the first line end before the call, or hold it
      cases mid with
      | nil =>
        rw [List.append_nil] at hline
        have hfirst := hlater [] hafter.symm
        rwa [List.append_nil, hline] at hfirst
      | cons p mid =>
        rw [List.cons_append] at hafter
        cases hafter
        have hmem : b ∈ branchesOfLine branches number := by
          have hcall : b ∈ (linePieces 0 line (branchesOfLine branches number)).filterMap Piece.call? :=
            List.mem_filterMap.mpr ⟨.call b, by simp [hline], rfl⟩
          rw [calls_linePieces_eq (fromCursor_branchesOfLine branches number)] at hcall
          exact (List.mem_filter.mp hcall).1
        refine ⟨0, (mem_branchesOfLine.mp hmem).2, ?_⟩
        rw [← Nat.zero_add (byteLength _),
          byteLength_before_call (fromCursor_branchesOfLine branches number) hline]
        exact (Nat.zero_add _).symm

/-- In front of a call stands the source text up to the offset of its branch. -/
theorem byteLength_before_call_of_text {source : List Char} {branches : List Branch}
    {before after : List Piece} {b : Branch}
    (h : pieces source branches = before ++ .call b :: after) :
    byteLength (before.flatMap Piece.sourceText) = closingOffset source b := by
  obtain ⟨i, hnumber, hlength⟩ := byteLength_before_call_of_lines h
  unfold closingOffset
  rw [hlength, hnumber, Nat.add_sub_cancel_left]

/-! ## Any branches at all -/

/-- The text with the set-up code in front of it and the report code behind it, if the file is a template. -/
def framed (kind : FileKind) (body : String) : String :=
  match kind with
  | .helper => body
  | .template => initCall ++ body ++ reportCall

/-- The source text with the tracking code of its branches. -/
def sourcePart (wrapperKeys : List String) (source : String) (branches : List Branch) : String :=
  String.ofList ((pieces source.toList branches).flatMap (Piece.text wrapperKeys))

theorem instrument_eq_framed (wrapperKeys : List String) (source : String) (kind : FileKind)
    (branches : List Branch) :
    instrument wrapperKeys source kind branches
      = framed kind (sourcePart wrapperKeys source branches) := by
  cases kind <;> rfl

/-- The instrumented text where all source text is taken from the lines by byte offsets, as far as that is
possible. -/
def instrumentBySlices? (wrapperKeys : List String) (source : String) (kind : FileKind)
    (branches : List Branch) : Option String :=
  let parts : Option (List (List Piece)) := (numberedLines source.toList).mapM fun x =>
    slicedPieces? x.1 0 (branchesOfLine branches x.2)
  parts.map fun ps => framed kind (String.ofList (ps.flatten.flatMap (Piece.text wrapperKeys)))

/-- No slice that is needed is ever missing. -/
theorem instrumentBySlices?_eq (wrapperKeys : List String) (source : String) (kind : FileKind)
    (branches : List Branch) :
    instrumentBySlices? wrapperKeys source kind branches
      = some (instrument wrapperKeys source kind branches) := by
  -- no slice can fail, so the whole cannot
  have hlines : (fun x : List Char × Nat => slicedPieces? x.1 0 (branchesOfLine branches x.2))
      = fun x => pure (linePieces 0 x.1 (branchesOfLine branches x.2)) := by
    funext x
    exact slicedPieces?_eq (fromCursor_branchesOfLine branches x.2) ⟨[], rfl, rfl⟩
  unfold instrumentBySlices?
  rw [hlines, List.mapM_pure, instrument_eq_framed]
  dsimp only [Option.pure_def, Option.map_some]
  rw [← List.flatMap_def]
  rfl

/-- What the injection makes of a source text and branches. -/
structure Inserted (wrapperKeys : List String) (source : List Char) (branches : List Branch) : Prop where
  /-- The text has, at every character boundary of every line, the code of the branches given for it. -/
  text : (pieces source branches).flatMap (Piece.text wrapperKeys)
    = (numberedLines source).flatMap fun x =>
      insertThrough (codeAt wrapperKeys branches x.2) 0 x.1
  /-- Without the code, the source is left. -/
  sourceText : (pieces source branches).flatMap Piece.sourceText = source
  /-- The branches that get their code are those that have a place. -/
  mem : ∀ b, b ∈ insertedBranches source branches ↔ b ∈ branches ∧ HasPlace source b
  /-- Each call stands at the offset of its branch. -/
  offset : ∀ before b after, pieces source branches = before ++ .call b :: after →
    byteLength (before.flatMap Piece.sourceText) = closingOffset source b
  ordered : (insertedBranches source branches).Pairwise fun b b' => ¬Precedes b'.position b.position
  /-- At one place, the calls are as many and in the same order as the branches given for it. -/
  given : ∀ b, HasPlace source b → (insertedBranches source branches).filter (·.position = b.position)
    = branches.filter (·.position = b.position)

/-- **Instrumenting never loses source text.** Whatever branches are given, each slice of the source that is
needed is there. A branch gets its code just if the text has its line and the line can be cut at its column,
be it at the very end. The code stands there, that of branches with one place in the order in which they were
given, and without it, the set-up code and the report code the source is left. -/
theorem instrument_total (wrapperKeys : List String) (source : String) (kind : FileKind)
    (branches : List Branch) :
    instrumentBySlices? wrapperKeys source kind branches
        = some (instrument wrapperKeys source kind branches)
      ∧ instrument wrapperKeys source kind branches
        = framed kind (sourcePart wrapperKeys source branches)
      ∧ Inserted wrapperKeys source.toList branches := by
  refine ⟨instrumentBySlices?_eq wrapperKeys source kind branches,
    instrument_eq_framed wrapperKeys source kind branches, ?_⟩
  -- each part of the claim is a lemma about the pieces
  exact
    { text := text_pieces_eq wrapperKeys source.toList branches
      sourceText := sourceText_pieces source.toList branches
      mem := fun _ => mem_insertedBranches
      offset := fun _ _ _ hpieces => byteLength_before_call_of_text hpieces
      ordered := pairwise_insertedBranches source.toList branches
      given := fun _ hplace => filter_position_insertedBranches hplace branches }

/-- The first line can be cut at 0, 2, 3 and 4. -/
example :
    let branch (line column : Nat) : Branch := .ofArm "templates/a.yaml" .template
      { trigger := .endBlock, define := none, tokenLine := line, column, occurrence := 1
        startLine := line, endLine := line, decisionLine := line, trimLeft := false }
    (insertedBranches ['é', '\r', '\n', 'b'] [branch 2 1, branch 3 0, branch 1 4, branch 1 1, branch 0 0,
        branch 1 2, branch 1 5, branch 1 4]).map (·.position)
      = [(1, 2), (1, 4), (1, 4), (2, 1)] := by
  cbv

end TemplateCoverage
