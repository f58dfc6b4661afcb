import TemplateCoverage.Instrument
import TemplateCoverage.Proofs.Token.Position

/-!
# The pieces of a line

Tracking code is put into one line at a time, with a cursor that moves from column to column. This
module follows the cursor. Whatever the columns are, no source text is lost (`sourceText_linePieces`).
Where every branch of the line stands at its column (`OnLine`), nothing is skipped:

* **`linePieces_of_onLine`**: the step. The first branch gets its code in front of the action that
  opens at its column, and the rest of the branches is on the rest of the line.
* **`calls_linePieces`**, **`text_linePieces`**, **`eachFollowed_linePieces`**: from the step, by
  induction on the branches, what the pieces of the line are.
-/

namespace TemplateCoverage

open Text

namespace Piece

/-- The branch whose tracking code the piece is. -/
def call? : Piece → Option Branch
  | .call b => some b
  | _ => none

/-- Whether the piece stands for a branch that got no code. -/
def isSkipped : Piece → Bool
  | .skipped _ => true
  | _ => false

end Piece

/-- No source text is lost, whatever the branches are. -/
theorem sourceText_linePieces (cursor : Nat) (rest : List Char) (bs : List Branch) :
    (linePieces cursor rest bs).flatMap Piece.sourceText = rest := by
  induction bs generalizing cursor rest with
  | nil => exact List.append_nil rest
  | cons b more ih =>
    unfold linePieces
    split
    · -- a branch left of the cursor is skipped
      exact ih cursor rest
    · split
      · -- so is one whose column is outside of the line
        exact ih cursor rest
      · next front back hcut =>
        obtain ⟨rfl, -⟩ := splitAtByte?_eq_some_iff.mp hcut
        rw [List.flatMap_cons, List.flatMap_cons, ih]
        rfl

/-! ## Branches that stand on the line -/

/-- The branches are in the order of their columns, and each of them stands at its column of the line,
of which `rest` is what follows the byte `cursor`. -/
structure OnLine (cursor : Nat) (rest : List Char) (bs : List Branch) : Prop where
  ordered : bs.Pairwise (·.column < ·.column)
  beyond : ∀ b ∈ bs, cursor ≤ b.column
  opens : ∀ b ∈ bs, ∃ back, FollowsAt (b.column - cursor) rest back ∧ OpensAction b.trimLeft back

/-- **The step of the cursor.** The first branch is not skipped: the line is cut where its action
opens, and the branches after it stand on what follows the cut. -/
theorem linePieces_of_onLine {cursor : Nat} {rest : List Char} {b : Branch} {more : List Branch}
    (h : OnLine cursor rest (b :: more)) :
    ∃ front back, rest = front ++ back ∧ cursor + byteLength front = b.column
      ∧ OpensAction b.trimLeft back ∧ OnLine b.column back more
      ∧ linePieces cursor rest (b :: more)
          = .source front :: .call b :: linePieces b.column back more := by
  have hbeyond := h.beyond b (List.mem_cons_self ..)
  obtain ⟨back, hfollows, hopens⟩ := h.opens b (List.mem_cons_self ..)
  obtain ⟨front, hcut, hrest, hlen⟩ := hfollows.splitAtByte?
  have hlater : ∀ b' ∈ more, b.column < b'.column := (List.pairwise_cons.mp h.ordered).1
  refine ⟨front, back, hrest, by omega, hopens, ⟨?_, ?_, ?_⟩, ?_⟩
  · exact (List.pairwise_cons.mp h.ordered).2
  · intro b' hb'
    exact Nat.le_of_lt (hlater b' hb')
  · intro b' hb'
    obtain ⟨back', hfollows', hopens'⟩ := h.opens b' (List.mem_cons_of_mem _ hb')
    have hlt := hlater b' hb'
    refine ⟨back', ?_, hopens'⟩
    -- both columns are counted from the cursor, and their difference is counted from the cut
    have hof := hfollows.of_le hfollows' (by omega)
    rwa [show b'.column - cursor - (b.column - cursor) = b'.column - b.column from by omega] at hof
  · rw [linePieces, if_neg (by omega), hcut]

/-- Every branch gets its code once, from left to right, and none is skipped. -/
theorem calls_linePieces {cursor : Nat} {rest : List Char} {bs : List Branch}
    (h : OnLine cursor rest bs) :
    (linePieces cursor rest bs).filterMap Piece.call? = bs
      ∧ ∀ p ∈ linePieces cursor rest bs, p.isSkipped = false := by
  induction bs generalizing cursor rest with
  | nil =>
    refine ⟨rfl, ?_⟩
    intro p hp
    cases List.mem_singleton.mp hp
    rfl
  | cons b more ih =>
    -- every branch stands where a character begins, so none is skipped
    obtain ⟨front, back, -, -, -, hmore, hpieces⟩ := linePieces_of_onLine h
    obtain ⟨hcalls, hskipped⟩ := ih hmore
    rw [hpieces]
    refine ⟨?_, ?_⟩
    · rw [List.filterMap_cons_none rfl,
        List.filterMap_cons_some (show Piece.call? (.call b) = some b from rfl), hcalls]
    · intro p hp
      rcases List.mem_cons.mp hp with rfl | hp
      · rfl
      · rcases List.mem_cons.mp hp with rfl | hp
        · rfl
        · exact hskipped p hp

/-! ## The text of the pieces -/

/-- The tracking code of those branches of a line that stand at a given offset of the text, where the
line begins at `base`. -/
def lineCallsBefore (wrapperKeys : List String) (base : Nat) (bs : List Branch) (offset : Nat) :
    List Char :=
  (bs.filter fun b => base + b.column = offset).flatMap fun b => (trackingCall wrapperKeys b).toList

/-- Where no branch stands, nothing is inserted. -/
theorem lineCallsBefore_nil {wrapperKeys : List String} {base offset : Nat} {bs : List Branch}
    (h : ∀ b ∈ bs, base + b.column ≠ offset) : lineCallsBefore wrapperKeys base bs offset = [] := by
  unfold lineCallsBefore
  rw [List.filter_eq_nil_iff.mpr (by simpa using h)]
  rfl

/-- Where a branch stands, its call is inserted, and no other one if the others stand behind it. -/
theorem lineCallsBefore_cons_self {wrapperKeys : List String} {base : Nat} {b : Branch}
    {more : List Branch} (h : ∀ b' ∈ more, b.column < b'.column) :
    lineCallsBefore wrapperKeys base (b :: more) (base + b.column)
      = (trackingCall wrapperKeys b).toList := by
  have hmore : more.filter (fun b' => base + b'.column = base + b.column) = [] := by
    rw [List.filter_eq_nil_iff]
    intro b' hb'
    have := h b' hb'
    simp only [decide_eq_true_eq]
    omega
  unfold lineCallsBefore
  rw [List.filter_cons_of_pos (by simp), hmore, List.flatMap_cons, List.flatMap_nil,
    List.append_nil]

/-- A branch that stands elsewhere does not matter. -/
theorem lineCallsBefore_cons_of_ne {wrapperKeys : List String} {base offset : Nat} {b : Branch}
    {more : List Branch} (h : base + b.column ≠ offset) :
    lineCallsBefore wrapperKeys base (b :: more) offset
      = lineCallsBefore wrapperKeys base more offset := by
  unfold lineCallsBefore
  rw [List.filter_cons_of_neg (by simpa using h)]

/-- The pieces make up the line with the code of each branch in front of the byte at its column.
Induction on the branches: in front of the first one nothing is inserted, at its column its code, and
behind it only the code of the others. -/
theorem text_linePieces {wrapperKeys : List String} {cursor : Nat} {rest : List Char}
    {bs : List Branch} (h : OnLine cursor rest bs) (base : Nat) :
    (linePieces cursor rest bs).flatMap (Piece.text wrapperKeys)
      = insertBefore (lineCallsBefore wrapperKeys base bs) (base + cursor) rest := by
  induction bs generalizing cursor rest with
  | nil =>
    rw [insertBefore_of_nil fun o _ _ => lineCallsBefore_nil (by simp)]
    exact List.append_nil rest
  | cons b more ih =>
    obtain ⟨front, back, rfl, hcolumn, hopens, hmore, hpieces⟩ := linePieces_of_onLine h
    have hlater : ∀ b' ∈ more, b.column < b'.column := (List.pairwise_cons.mp h.ordered).1
    obtain ⟨c, cs, rfl⟩ := List.exists_cons_of_ne_nil hopens.ne_nil
    have hpos := c.utf8Size_pos
    -- left of the cut there is no branch
    have hfront : insertBefore (lineCallsBefore wrapperKeys base (b :: more)) (base + cursor) front
        = front := by
      apply insertBefore_of_nil
      intro o _ ho
      apply lineCallsBefore_nil
      intro b' hb'
      rcases List.mem_cons.mp hb' with rfl | hb'
      · omega
      · have := hlater b' hb'
        omega
    -- right of the first character of the action, the first branch plays no role any more
    have htail : insertBefore (lineCallsBefore wrapperKeys base (b :: more))
          (base + b.column + c.utf8Size) cs
        = insertBefore (lineCallsBefore wrapperKeys base more) (base + b.column + c.utf8Size) cs := by
      apply insertBefore_congr
      intro o ho _
      exact lineCallsBefore_cons_of_ne (by omega)
    -- and at the cut, the others play none yet
    have hmore_here : lineCallsBefore wrapperKeys base more (base + b.column) = [] := by
      apply lineCallsBefore_nil
      intro b' hb'
      have := hlater b' hb'
      omega
    rw [hpieces, List.flatMap_cons, List.flatMap_cons, ih hmore, insertBefore_append, hfront,
      Nat.add_assoc, hcolumn, insertBefore_cons, insertBefore_cons, lineCallsBefore_cons_self hlater,
      htail, hmore_here]
    rfl

/-! ## What follows a call -/

/-- Behind each piece of tracking code, the text goes on with an action that has the trim marker
exactly if the branch says so. -/
def EachFollowed (wrapperKeys : List String) (ps : List Piece) : Prop :=
  ∀ before b after, ps = before ++ .call b :: after →
    OpensAction b.trimLeft (after.flatMap (Piece.text wrapperKeys))

theorem EachFollowed.nil (wrapperKeys : List String) : EachFollowed wrapperKeys [] := by
  intro before b after h
  exact absurd h.symm (by simp)

/-- Pieces can be put together if each call is followed by its action in its own part. -/
theorem EachFollowed.append {wrapperKeys : List String} {ps qs : List Piece}
    (hp : EachFollowed wrapperKeys ps) (hq : EachFollowed wrapperKeys qs) :
    EachFollowed wrapperKeys (ps ++ qs) := by
  intro before b after h
  rcases List.append_eq_append_iff.mp h with ⟨mid, -, hqs⟩ | ⟨mid, hps, hafter⟩
  · exact hq mid b after hqs
  · -- a call among the first pieces is followed by their rest, and then by the others
    cases mid with
    | nil => exact hq [] b after hafter.symm
    | cons p mid =>
      rw [List.cons_append] at hafter
      cases hafter
      rw [List.flatMap_append]
      exact (hp before b mid hps).append _

/-- A piece of source text makes no demand. -/
theorem EachFollowed.source (wrapperKeys : List String) (cs : List Char) :
    EachFollowed wrapperKeys [.source cs] := by
  intro before b after h
  have hmem : Piece.call b ∈ [Piece.source cs] := by
    rw [h]
    simp
  exact absurd (List.mem_singleton.mp hmem) (by simp)

/-- A call may be put in front of its action. -/
theorem EachFollowed.call {wrapperKeys : List String} {b : Branch} {ps : List Piece}
    (hb : OpensAction b.trimLeft (ps.flatMap (Piece.text wrapperKeys)))
    (hp : EachFollowed wrapperKeys ps) : EachFollowed wrapperKeys (.call b :: ps) := by
  intro before b' after h
  cases before with
  | nil =>
    cases h
    exact hb
  | cons p before =>
    rw [List.cons_append] at h
    cases h
    exact hp before b' after rfl

/-- If an action opens the rest of a line, it also opens the pieces of the rest, since the next code
is inserted further right than the braces. -/
theorem opensAction_linePieces {wrapperKeys : List String} {cursor : Nat} {rest : List Char}
    {bs : List Branch} {trim : Bool} (h : OnLine cursor rest bs)
    (hlater : ∀ b ∈ bs, cursor < b.column) (hopens : OpensAction trim rest) :
    OpensAction trim ((linePieces cursor rest bs).flatMap (Piece.text wrapperKeys)) := by
  cases bs with
  | nil => exact hopens.append []
  | cons b more =>
    obtain ⟨front, back, hrest, hcolumn, hback, -, hpieces⟩ := linePieces_of_onLine h
    have hlt := hlater b (List.mem_cons_self ..)
    -- the next branch stands at a later column, so something is left of the cut
    have hne : front ≠ [] := by
      rintro rfl
      rw [byteLength_nil] at hcolumn
      omega
    rw [hpieces, List.flatMap_cons]
    exact (hopens.front hback hrest hne).append _

/-- On a line whose branches stand at their columns, each piece of tracking code is followed by the
action of its branch. -/
theorem eachFollowed_linePieces {wrapperKeys : List String} {cursor : Nat} {rest : List Char}
    {bs : List Branch} (h : OnLine cursor rest bs) :
    EachFollowed wrapperKeys (linePieces cursor rest bs) := by
  induction bs generalizing cursor rest with
  | nil => exact EachFollowed.source wrapperKeys rest
  | cons b more ih =>
    obtain ⟨front, back, -, -, hopens, hmore, hpieces⟩ := linePieces_of_onLine h
    have hlater : ∀ b' ∈ more, b.column < b'.column := (List.pairwise_cons.mp h.ordered).1
    -- the calls of the branches behind it stand further on, so the action comes right behind the call
    have hcall : EachFollowed wrapperKeys (.call b :: linePieces b.column back more) :=
      EachFollowed.call (opensAction_linePieces hmore hlater hopens) (ih hmore)
    rw [hpieces]
    exact (EachFollowed.source wrapperKeys front).append hcall

end TemplateCoverage
