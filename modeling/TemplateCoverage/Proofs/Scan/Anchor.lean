import TemplateCoverage.Proofs.Scan.Step

/-!
# The anchors of decisions

`else` hands the line of a decision on from arm to arm, also where it closes a body or nothing at all.
So the block that was opened on this line is out of sight when the later arms are found. But its first
arm began there, and it was found before them.

* **`Frame.AnchoredBy`**: a frame is the first one of its decision, or the first arm was found already.
* **`Anchored.step`**: what one token preserves of this, whatever it closes.
* **`anchors_run`**, **`anchors_scan`**: so each arm has its decision on the line on which some arm
  began that was found no later.
-/

namespace TemplateCoverage

/-- The arm begins on the line, and its decision was opened there. -/
def Arm.Anchors (a : Arm) (line : Nat) : Prop :=
  a.startLine = line ∧ a.decisionLine = line

instance (a : Arm) (line : Nat) : Decidable (a.Anchors line) :=
  inferInstanceAs (Decidable (_ ∧ _))

/-- The frame holds the first arm of its decision, or this arm is among those found so far. -/
def Frame.AnchoredBy (f : Frame) (found : List Arm) : Prop :=
  f.line = f.decisionLine ∨ ∃ a ∈ found, a.Anchors f.decisionLine

theorem Frame.AnchoredBy.mono {f : Frame} {found more : List Arm} (h : f.AnchoredBy found)
    (hsubset : found ⊆ more) : f.AnchoredBy more := by
  rcases h with hfirst | ⟨a, ha, hanchor⟩
  · exact .inl hfirst
  · exact .inr ⟨a, hsubset ha, hanchor⟩

namespace Nesting

/-- The decisions of all open blocks are anchored. -/
def Anchored (s : Nesting) (found : List Arm) : Prop :=
  ∀ f ∈ s.frames, f.AnchoredBy found

variable {s : Nesting} {found : List Arm}

/-- With the arm of a frame, the decision of the frame has its anchor. -/
theorem exists_anchors_armOf {f : Frame} (s : Nesting) (t : Token) (h : f.AnchoredBy found) :
    ∃ a ∈ found ++ [s.armOf t f], a.Anchors f.decisionLine := by
  rcases h with hfirst | ⟨a, ha, hanchor⟩
  · exact ⟨s.armOf t f, List.mem_append_right _ (List.mem_singleton_self _), hfirst, rfl⟩
  · exact ⟨a, List.mem_append_left _ ha, hanchor⟩

/-- What stands in for a block that is not there begins on the line of its decision. -/
theorem anchoredBy_standIn (s : Nesting) (n : Nat) (found : List Arm) :
    (close.standIn s n).AnchoredBy found := by
  unfold close.standIn
  split <;> exact .inl rfl

theorem Anchored.close (h : s.Anchored found) (n : Nat) :
    (s.close n).1.AnchoredBy found ∧ (s.close n).2.Anchored found := by
  unfold Nesting.close
  split
  · next frame outer hframes =>
    obtain ⟨hframe, houter⟩ := List.forall_mem_cons.mp fun f hf => h f (hframes ▸ hf)
    split
    · exact ⟨hframe, houter⟩
    · exact ⟨s.anchoredBy_standIn n found, h⟩
  · exact ⟨s.anchoredBy_standIn n found, h⟩

/-- Every token preserves it that decisions are anchored, by the arms before and the one that it
closes. -/
theorem Anchored.step (file : String) (t : Token) (h : s.Anchored found) :
    (s.step file t).1.Anchored (found ++ Finding.arms (s.step file t).2) := by
  have hlater : ∀ {s' : Nesting}, s'.Anchored found → ∀ arms, s'.Anchored (found ++ arms) :=
    fun h' arms f hf => (h' f hf).mono (List.subset_append_left found arms)
  cases t.role with
  | evaluated ht =>
    rw [step_evaluated ht]
    exact hlater h _
  | opener ht word hkind =>
    rw [step_opener ht hkind]
    have hopened : Anchored { s with frames := ⟨t.line, t.line⟩ :: s.frames } found :=
      List.forall_mem_cons.mpr ⟨.inl rfl, h⟩
    exact hlater hopened _
  | define ht name hkind =>
    rw [step_define ht hkind]
    exact hlater h _
  | next ht hkind =>
    -- the next arm has the decision of the one that is closed here
    rw [step_next ht hkind, Finding.arms_append, arms_strayNotes, List.nil_append]
    obtain ⟨hframe, houter⟩ := h.close t.line
    exact List.forall_mem_cons.mpr ⟨.inr (exists_anchors_armOf s t hframe), hlater houter _⟩
  | finish ht hkind =>
    rw [step_finish ht hkind]
    have houter := hlater (h.close t.line).2
    split
    · exact houter _
    · exact houter _

/-- The decision of each arm of a run is anchored, by the arms before the run and those up to the arm
itself. Induction on the stream. -/
theorem anchors_run (file : String) {tokens : List Token} (h : s.Anchored found)
    {front back : List Arm} {a : Arm}
    (harms : Finding.arms (s.run file tokens).2 = front ++ a :: back) :
    ∃ e ∈ found ++ (front ++ [a]), e.Anchors a.decisionLine := by
  induction tokens generalizing s found front with
  | nil =>
    rw [run_nil, Finding.arms_nil] at harms
    exact absurd harms.symm (List.append_ne_nil_of_right_ne_nil _ (List.cons_ne_nil _ _))
  | cons t ts ih =>
    have hnext := h.step file t
    rw [run_cons, Finding.arms_append] at harms
    rw [arms_step] at harms hnext
    split at harms
    · next hy =>
      rw [List.singleton_append] at harms
      rw [if_pos hy] at hnext
      cases front with
      | nil =>
        -- the arm that the first token closes
        obtain ⟨rfl, -⟩ := List.cons.inj harms
        exact exists_anchors_armOf s t (h.close t.line).1
      | cons first front =>
        rw [List.cons_append] at harms
        obtain ⟨rfl, hrest⟩ := List.cons.inj harms
        obtain ⟨e, he, hanchor⟩ := ih hnext hrest
        rw [List.append_assoc] at he
        exact ⟨e, he, hanchor⟩
    · next hy =>
      rw [if_neg hy, List.append_nil] at hnext
      exact ih hnext harms

end Nesting

/-- Every arm of a scan has its decision on a line on which an arm of this decision begins, which was
found no later. -/
theorem anchors_scan {evaluators : List String} {file source : String} {front back : List Arm}
    {a : Arm} (harms : Finding.arms (scan evaluators file source) = front ++ a :: back) :
    ∃ e ∈ front ++ [a], e.Anchors a.decisionLine := by
  have hstart : Nesting.Anchored {} [] := fun f hf => (nomatch hf)
  unfold scan at harms
  rw [arms_scanTokens] at harms
  exact Nesting.anchors_run file hstart harms

/-- Every arm has an anchor for its decision: an arm whose decision is on the line where it starts. -/
theorem exists_anchors_of_mem {evaluators : List String} {file source : String} {a : Arm}
    (ha : a ∈ Finding.arms (scan evaluators file source)) :
    ∃ e ∈ Finding.arms (scan evaluators file source), e.Anchors a.decisionLine := by
  obtain ⟨front, back, harms⟩ := List.append_of_mem ha
  obtain ⟨e, he, hanchor⟩ := anchors_scan harms
  refine ⟨e, ?_, hanchor⟩
  rw [harms, List.append_cons]
  exact List.mem_append_left _ he

end TemplateCoverage
