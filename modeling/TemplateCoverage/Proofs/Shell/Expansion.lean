import Mathlib
import TemplateCoverage.Proofs.Pattern.Wildcard
import TemplateCoverage.Proofs.Shell.Running

/-!
# Fields

What a word stands for is split into fields at blanks that are not quoted. Quotes are there to prevent that: a
quoted value stays one text, whatever it consists of.

* **`flatten_fieldsOf`**: nothing is lost but separators, and nothing is added.
* **`fieldsOf_quoted`**, **`fieldsOf_arguments`**: a quoted text is one field, and each of the quoted arguments
  of a script is.
* **`fieldsOf_expanded`**: without quotes, a value is split into the words between its blanks.
* **`exec_texts_of_fields`**: quoted fields are not taken for patterns of paths either. So a text
  (`exec_texts_text`), the value of a parameter (`exec_texts_parameter`) and all arguments
  (`exec_texts_arguments`) come out of a word as they are, in any directory and whatever separates fields.
* **`exec_texts_plain`**: without quotes, a text does too if nothing in it has a meaning of its own.
-/

namespace TemplateCoverage.Shell

section

variable {separators : Bytes} {quoted expanded : Bool}

/-! ## Fields that are put together -/

/-- The character of a mark with whether it is quoted, unless it separates fields. -/
def Mark.kept? (separators : Bytes) : Mark → Option (Char × Bool)
  | .char c quoted expanded => if !quoted && expanded && separators.contains c then none else some (c, quoted)
  | .kept | .cut => none

namespace Fields

/-- All characters of the fields. -/
def text (f : Fields) : MarkedText :=
  f.done.flatten ++ (f.current?.getD []).reverse

/-- Fields that stand in front do not matter. -/
def behind (front : List MarkedText) (f : Fields) : Fields :=
  { f with done := front ++ f.done }

@[simp] theorem text_close (f : Fields) : f.close.text = f.text := by
  unfold close text
  cases hcurrent : f.current? with
  | none => simp [hcurrent]
  | some m => simp

theorem close_current? (f : Fields) : f.close.current? = none := by
  unfold close
  cases hcurrent : f.current? with
  | none => exact hcurrent
  | some m => rfl

/-- A step adds the character of a mark, if it is one to be kept. -/
theorem text_step (f : Fields) (m : Mark) :
    (step separators f m).text = f.text ++ (m.kept? separators).toList := by
  cases m with
  | kept => simp [step, text, Mark.kept?]
  | cut =>
    show f.close.text = _
    simp [Mark.kept?]
  | char c quoted expanded =>
    simp only [step, Mark.kept?]
    split
    · -- a separator may end a field, or be one that is empty
      rw [Option.toList_none, List.append_nil]
      split
      · split
        · exact text_close f
        · rfl
      · split
        · exact text_close f
        · split
          · rfl
          · simp [text]
    · simp [text]

/-- The text of the fields is that of the marks that are kept, however they are cut. -/
theorem text_foldl (f : Fields) (marks : List Mark) :
    (marks.foldl (step separators) f).text = f.text ++ marks.filterMap (Mark.kept? separators) := by
  induction marks generalizing f with
  | nil => simp
  | cons m marks ih =>
    rw [List.foldl_cons, ih, text_step, List.filterMap_cons, List.append_assoc]
    cases m.kept? separators <;> rfl

/-! ### Fields in front -/

theorem close_behind (front : List MarkedText) (f : Fields) : (f.behind front).close = f.close.behind front := by
  unfold close behind
  cases hcurrent : f.current? with
  | none => simp only [hcurrent]
  | some m => simp only [List.append_assoc]

/-- Fields that are complete play no part in what a mark does. -/
theorem step_behind (front : List MarkedText) (f : Fields) (m : Mark) :
    step separators (f.behind front) m = (step separators f m).behind front := by
  have hcurrent : (f.behind front).current? = f.current? := rfl
  have hblank : (f.behind front).blankBefore = f.blankBefore := rfl
  cases m with
  | kept => rfl
  | cut =>
    simp only [step, close_behind]
    rfl
  | char c quoted expanded =>
    -- whether a separator ends a field depends on the field that is open, which is the same
    simp only [step, close_behind, hcurrent, hblank]
    split
    · split
      · split <;> rfl
      · split
        · rfl
        · split
          · rfl
          · simp [behind]
    · rfl

/-- So marks can be read behind any fields that are already complete. -/
theorem foldl_behind (front : List MarkedText) (f : Fields) (marks : List Mark) :
    marks.foldl (step separators) (f.behind front) = (marks.foldl (step separators) f).behind front := by
  induction marks generalizing f with
  | nil => rfl
  | cons m marks ih => rw [List.foldl_cons, List.foldl_cons, step_behind, ih]

end Fields

/-! ## Rows of marks -/

/-- **Nothing is lost but separators**, and nothing is added: the fields are made of the characters that were
there, in their order. -/
theorem flatten_fieldsOf (separators : Bytes) (marks : List Mark) :
    (fieldsOf separators marks).flatten = marks.filterMap (Mark.kept? separators) := by
  have hclose (f : Fields) : f.close.done.flatten = f.text := by
    rw [← Fields.text_close, Fields.text, Fields.close_current?, Option.getD_none, List.reverse_nil,
      List.append_nil]
  unfold fieldsOf
  rw [hclose, Fields.text_foldl]
  rfl

/-- A cut separates the fields in front of it from those behind it. -/
theorem fieldsOf_cut (separators : Bytes) (front back : List Mark) :
    fieldsOf separators (front ++ .cut :: back) = fieldsOf separators front ++ fieldsOf separators back := by
  have hcut (f : Fields) : Fields.step separators f .cut = ({} : Fields).behind f.close.done := by
    have hcurrent := f.close_current?
    simp only [Fields.step, Fields.behind, hcurrent, List.append_nil]
  unfold fieldsOf
  rw [List.foldl_append, List.foldl_cons, hcut, Fields.foldl_behind, Fields.close_behind]
  rfl

/-- Characters that do not separate fields join the field that is being put together. -/
theorem Fields.foldl_text (hjoins : quoted = true ∨ expanded = false) (done : List MarkedText)
    (current : MarkedText) (t : Bytes) :
    (t.map fun c => Mark.char c quoted expanded).foldl (Fields.step separators) ⟨done, some current, false⟩
      = ⟨done, some ((MarkedText.ofBytes quoted t).reverse ++ current), false⟩ := by
  induction t generalizing current with
  | nil => rfl
  | cons c t ih =>
    have hkept : (!quoted && expanded && separators.contains c) = false := by
      obtain rfl | rfl := hjoins <;> simp
    rw [List.map_cons, List.foldl_cons]
    simp only [step, hkept, Bool.false_eq_true, if_false, Option.getD_some]
    rw [ih]
    simp [MarkedText.ofBytes]

/-- **A quoted text is one field**, even if it is empty. -/
theorem fieldsOf_quoted (separators t : Bytes) (expanded : Bool) :
    fieldsOf separators (Mark.ofText t true expanded) = [MarkedText.ofBytes true t] := by
  unfold fieldsOf Mark.ofText
  rw [if_pos rfl, List.foldl_cons]
  show ((t.map fun c => Mark.char c true expanded).foldl (Fields.step separators)
    ⟨[], some [], false⟩).close.done = _
  rw [Fields.foldl_text (.inl rfl)]
  simp [Fields.close]

/-- A text of the script is one field, unless there is nothing of it. -/
theorem fieldsOf_text (separators : Bytes) {t : Bytes} (ht : t ≠ []) :
    fieldsOf separators (Mark.ofText t false false) = [MarkedText.ofBytes false t] := by
  obtain ⟨c, t, rfl⟩ := List.exists_cons_of_ne_nil ht
  unfold fieldsOf Mark.ofText
  rw [if_neg Bool.false_ne_true, List.map_cons, List.foldl_cons]
  show ((t.map fun c => Mark.char c false false).foldl (Fields.step separators)
    ⟨[], some [(c, false)], false⟩).close.done = _
  rw [Fields.foldl_text (.inr rfl)]
  simp [Fields.close, MarkedText.ofBytes]

/-- **Quoted arguments are fields**, one for each, also if there are none. Induction on the arguments. -/
theorem fieldsOf_arguments (separators : Bytes) (args : List Bytes) :
    fieldsOf separators (Mark.ofTexts args true) = args.map (MarkedText.ofBytes true) := by
  induction args with
  | nil => rfl
  | cons a args ih =>
    cases args with
    | nil => simpa [Mark.ofTexts] using fieldsOf_quoted separators a true
    | cons b args =>
      have hcut : Mark.ofTexts (a :: b :: args) true
          = Mark.ofText a true true ++ .cut :: Mark.ofTexts (b :: args) true := by
        simp [Mark.ofTexts, List.intercalate_cons_cons]
      rw [hcut, fieldsOf_cut, fieldsOf_quoted, ih]
      rfl

/-! ### Values without quotes -/

theorem modifyHead_nil_append (fields : List MarkedText) :
    fields.modifyHead (([] : MarkedText) ++ ·) = fields := by
  cases fields <;> rfl

/-- Without quotes, a character of a value that separates fields ends the one that is being put together. -/
theorem Fields.foldl_expanded (hblank : ∀ c ∈ separators, c = ' ' ∨ c = '\t' ∨ c = '\n') (done : List MarkedText)
    (current? : Option MarkedText) (hcurrent : current? ≠ some []) (blankBefore : Bool) (t : Bytes) :
    ((t.map fun c => Mark.char c false true).foldl (Fields.step separators)
        ⟨done, current?, blankBefore⟩).close.done
      = done ++ (((t.splitOnP (· ∈ separators)).map (MarkedText.ofBytes false)).modifyHead
          ((current?.getD []).reverse ++ ·)).filter (· ≠ []) := by
  induction t generalizing done current? blankBefore with
  | nil =>
    cases current? with
    | none => simp [close, MarkedText.ofBytes]
    | some m =>
      have hm : m ≠ [] := fun h => hcurrent (congrArg some h)
      simp [close, MarkedText.ofBytes, hm]
  | cons c t ih =>
    rw [List.map_cons, List.foldl_cons, List.splitOnP_cons_eq_if_modifyHead]
    by_cases hc : c ∈ separators
    · -- the field ends here, if there is one
      cases current? with
      | none =>
        have hstep : Fields.step separators ⟨done, none, blankBefore⟩ (.char c false true)
            = ⟨done, none, blankBefore⟩ := by
          simp [step, hc, hblank c hc]
        rw [hstep, ih done none (Option.some_ne_none []).symm, Option.getD_none, List.reverse_nil,
          modifyHead_nil_append]
        simp [hc, MarkedText.ofBytes]
      | some m =>
        have hm : m ≠ [] := fun h => hcurrent (congrArg some h)
        have hstep : Fields.step separators ⟨done, some m, blankBefore⟩ (.char c false true)
            = ⟨done ++ [m.reverse], none, true⟩ := by
          simp [step, close, hc, hblank c hc]
        rw [hstep, ih _ none (Option.some_ne_none []).symm, Option.getD_none, List.reverse_nil,
          modifyHead_nil_append]
        simp [hc, hm, MarkedText.ofBytes]
    · have hstep : Fields.step separators ⟨done, current?, blankBefore⟩ (.char c false true)
          = ⟨done, some ((c, false) :: current?.getD []), false⟩ := by
        simp [step, hc]
      rw [hstep, ih _ _ (by simp)]
      cases t.splitOnP (· ∈ separators) with
      | nil => simp [hc]
      | cons first rest => simp [hc, MarkedText.ofBytes]

/-- **Without quotes, a value is split** into the words between its blanks, if only blanks separate fields. -/
theorem fieldsOf_expanded (hblank : ∀ c ∈ separators, c = ' ' ∨ c = '\t' ∨ c = '\n') (t : Bytes) :
    fieldsOf separators (Mark.ofText t false true)
      = ((t.splitOnP (· ∈ separators)).filter (· ≠ [])).map (MarkedText.ofBytes false) := by
  have hempty : (fun m : MarkedText => decide (m ≠ [])) ∘ MarkedText.ofBytes false
      = fun t : Bytes => decide (t ≠ []) := by
    funext t
    simp [MarkedText.ofBytes]
  have hfields := Fields.foldl_expanded hblank [] none (Option.some_ne_none []).symm false t
  unfold fieldsOf Mark.ofText
  rw [if_neg Bool.false_ne_true, hfields, Option.getD_none, List.reverse_nil, modifyHead_nil_append,
    List.filter_map, hempty, List.nil_append]

end

/-! ## Words -/

namespace Running

variable {output : OutputOf} {m : Machine} {w : Word}

/-- Looking up what separates fields changes nothing. -/
theorem exec_separators (m : Machine) : ∃ found, separators.exec m = (.ok found, m) := by
  have hbinding (name : Bytes) : (binding? name).exec m = (.ok (m.here.bindings.lookup name), m) := rfl
  unfold separators
  rw [exec_bind_of_ok (hbinding _)]
  cases m.here.bindings.lookup ("IFS" : Bytes) with
  | none => exact ⟨_, rfl⟩
  | some b => exact ⟨_, rfl⟩

/-- A word whose fields do not depend on what separates them, and have no part that stands for more than itself.
-/
theorem exec_texts_of_fields {row : List Mark} {fields : List MarkedText}
    (htilde : (tildeWord w).exec m = (.ok w, m))
    (hrow : (marks output depthLimit false w).exec m = (.ok row, m))
    (hfields : ∀ separators, fieldsOf separators row = fields)
    (hplain : ∀ field ∈ fields, hasWildcard field = false) :
    (texts output w).exec m = (.ok (fields.map MarkedText.bytes), m) := by
  -- what separates fields does not matter, since the fields are the same for all of them
  obtain ⟨found, hfound⟩ := exec_separators m
  unfold texts
  rw [exec_bind_of_ok htilde, exec_bind_of_ok hrow, exec_bind_of_ok hfound, exec_bind_of_ok (exec_get m)]
  rw [hfields]
  split
  · rfl
  · -- a field without wildcards stands for itself, and no file is looked for
    have hpaths : fields.flatMap (pathsFor m.world.files) = fields.map MarkedText.bytes := by
      rw [List.map_eq_flatMap]
      refine List.flatMap_congr fun field hfield => ?_
      unfold pathsFor
      rw [hplain field hfield, if_neg Bool.false_ne_true]
    rw [hpaths]
    rfl

/-- The marks of a text are its characters. -/
theorem exec_marks_text (output : OutputOf) (t : Bytes) (quoted : Bool) (m : Machine) :
    (marks output depthLimit false [.text t quoted]).exec m = (.ok (Mark.ofText t quoted false), m) := by
  have hmarks (n : Nat) : (marks output (n + 2) false [.text t quoted]).exec m
      = (.ok (Mark.ofText t quoted false ++ []), m) := rfl
  exact (hmarks 99998).trans (by rw [List.append_nil])

/-- **A quoted text stands for itself.** -/
theorem exec_texts_text (t : Bytes) (m : Machine) :
    (texts output [.text t true]).exec m = (.ok [t], m) := by
  have hword := exec_texts_of_fields (w := [.text t true]) rfl (exec_marks_text output t true m)
    (fun _ => fieldsOf_quoted _ t false) (List.forall_mem_singleton.mpr (Wildcard.isIn_ofBytes (.inl rfl) _))
  rwa [List.map_singleton, MarkedText.bytes_ofBytes] at hword

/-- **A plain text stands for itself**, if it is not empty, begins with no tilde and has no part that stands for
more. -/
theorem exec_texts_plain {t : Bytes} (ht : t ≠ []) (htilde : t.head? ≠ some '~')
    (hplain : ∀ c ∈ t, c ≠ '*' ∧ c ≠ '?' ∧ c ≠ '\\' ∧ c ≠ '[') (m : Machine) :
    (texts output [.text t false]).exec m = (.ok [t], m) := by
  -- no directory is put in the place of the first character
  have hsame : (tildeWord [.text t false]).exec m = (.ok [.text t false], m) := by
    have htext : tildeText t true = pure [.text t false] := by
      unfold tildeText
      split
      · exact absurd rfl htilde
      · rfl
    show ((tildeText t true) >>= fun front => pure (front ++ [])).exec m = _
    rw [htext]
    rfl
  have hword := exec_texts_of_fields hsame (exec_marks_text output t false m) (fun _ => fieldsOf_text _ ht)
    (List.forall_mem_singleton.mpr (Wildcard.isIn_ofBytes (.inr hplain) _))
  rwa [List.map_singleton, MarkedText.bytes_ofBytes] at hword

/-- The marks of a parameter that has a value are those of its value. -/
theorem exec_marks_parameter (output : OutputOf) {name : Bytes} {found? : Option Bytes} {row : List Mark}
    {quoted : Bool}
    (hfound : (parameter? name).exec m = (.ok found?, m)) (hset : found?.isSome = true ∨ name = ['@'])
    (hrow : (parameterMarks name quoted).exec m = (.ok row, m)) :
    (marks output depthLimit false [.parameter name .value [] quoted]).exec m = (.ok row, m) := by
  have hmarks (n : Nat) : (marks output (n + 2) false [.parameter name .value [] quoted]).exec m
      = (.ok (row ++ []), m) := by
    -- it is not complained about: it has a value, or it stands for all arguments
    have hthere : (found?.isNone && (m.here.options.needsValues && decide (name ≠ ['@'])
        && decide (name ≠ ['*']))) = false := by
      obtain hfound | rfl := hset
      · rw [Option.isNone_eq_false_iff.mpr hfound, Bool.false_and]
      · simp
    unfold marks
    rw [exec_bind_of_ok hfound, exec_bind_of_ok (exec_here m)]
    dsimp only
    rw [hthere, if_neg Bool.false_ne_true, exec_bind_of_ok hrow]
    rfl
  exact (hmarks 99998).trans (by rw [List.append_nil])

/-- **The quoted value of a parameter** is one text, whatever it consists of. -/
theorem exec_texts_parameter {name value : Bytes} (hall : name ≠ ['@']) (hjoined : name ≠ ['*'])
    (hvalue : (parameter? name).exec m = (.ok (some value), m)) :
    (texts output [.parameter name .value [] true]).exec m = (.ok [value], m) := by
  have hrow : (parameterMarks name true).exec m = (.ok (Mark.ofText value true true), m) := by
    unfold parameterMarks
    rw [exec_bind_of_ok (exec_here m), if_neg hall, if_neg hjoined, exec_bind_of_ok hvalue]
    rfl
  have hword := exec_texts_of_fields rfl (exec_marks_parameter output hvalue (.inl rfl) hrow)
    (fun _ => fieldsOf_quoted _ value true) (List.forall_mem_singleton.mpr (Wildcard.isIn_ofBytes (.inl rfl) _))
  rwa [List.map_singleton, MarkedText.bytes_ofBytes] at hword

/-- **All arguments in quotes** are what the script was called with, one text for each. -/
theorem exec_texts_arguments (m : Machine) :
    (texts output [.parameter ['@'] .value [] true]).exec m = (.ok m.here.args, m) := by
  have hbytes : (m.here.args.map (MarkedText.ofBytes true)).map MarkedText.bytes = m.here.args := by
    rw [List.map_map]
    exact (List.map_congr_left fun a _ => MarkedText.bytes_ofBytes true a).trans (List.map_id _)
  have hrow : (parameterMarks ['@'] true).exec m = (.ok (Mark.ofTexts m.here.args true), m) := rfl
  have hplain : ∀ field ∈ m.here.args.map (MarkedText.ofBytes true), hasWildcard field = false := by
    intro field hfield
    obtain ⟨a, -, rfl⟩ := List.mem_map.mp hfield
    exact Wildcard.isIn_ofBytes (.inl rfl) _
  have hword := exec_texts_of_fields rfl (exec_marks_parameter output rfl (.inr rfl) hrow)
    (fun _ => fieldsOf_arguments _ m.here.args) hplain
  rwa [hbytes] at hword

end Running

end TemplateCoverage.Shell
