import TemplateCoverage.Proofs.Session.Record
import TemplateCoverage.Proofs.Text.Line
import TemplateCoverage.Trace

/-!
# Traces of joined texts

A trace is read line by line, so the trace of a joined text is that of its parts, and what a line says
does not depend on where it stands. Only the number of the line in an error does.

* **`readLines_append`**, **`readLines_empty`**, **`readLines_shift`**: the lines of a second part are
  read as if they stood alone, except that what the first part reported is kept and lines are counted
  on.
* **`readLines_cause`**: what is read depends on what stands behind the marks only.
* **`parse_joined`**: the trace of a joined text, and the trace of a text line by line.
-/

namespace TemplateCoverage

open Text

namespace Trace

/-! ## What a trace has collected -/

/-- The reported IDs of files of one kind. -/
def collected (t : Trace) : FileKind → IdSet
  | .template => t.files
  | .helper => t.helpers

theorem mem_union {t u : Trace} {kind : FileKind} {id : BranchId} :
    id ∈ (t.union u).collected kind ↔ id ∈ t.collected kind ∨ id ∈ u.collected kind := by
  cases kind <;> exact IdSet.mem_insertMany.trans (or_congr_right Std.ExtTreeSet.mem_toList)

theorem mem_add {t : Trace} {kind kind' : FileKind} {ids : List BranchId} {id : BranchId} :
    id ∈ (t.add kind ids).collected kind' ↔ id ∈ t.collected kind' ∨ kind = kind' ∧ id ∈ ids := by
  cases kind <;> cases kind' <;> simp [add, collected]

theorem not_mem_empty {kind : FileKind} {id : BranchId} : id ∉ ({} : Trace).collected kind := by
  cases kind <;> exact Std.ExtTreeSet.not_mem_empty

theorem ext_mem {t u : Trace} (h : ∀ kind id, id ∈ t.collected kind ↔ id ∈ u.collected kind) :
    t = u := by
  obtain ⟨files, helpers⟩ := t
  obtain ⟨files', helpers'⟩ := u
  cases Std.ExtTreeSet.ext_mem (h .template)
  cases Std.ExtTreeSet.ext_mem (h .helper)
  rfl

theorem union_empty (t : Trace) : t.union {} = t := by
  apply ext_mem
  intro kind id
  rw [mem_union, or_iff_left not_mem_empty]

theorem union_add (t u : Trace) (kind : FileKind) (ids : List BranchId) :
    t.union (u.add kind ids) = (t.union u).add kind ids := by
  apply ext_mem
  intro kind' id
  rw [mem_union, mem_add, mem_add, mem_union, or_assoc]

/-! ## Lines -/

/-- What has been reported before a line is kept. -/
theorem readLine_union (t u : Trace) (line : List Char) :
    (t.union u).readLine line = (u.readLine line).map t.union := by
  unfold readLine
  cases Sentinel.body? line with
  | none => rfl
  | some body =>
    dsimp only
    cases Sentinel.read body with
    | error cause => rfl
    | ok s => exact congrArg Except.ok (union_add t u s.kind s.ids).symm

/-- What has been reported before some lines is kept. Induction on the lines. -/
theorem readLines_union (t u : Trace) (number : Nat) (ls : List (List Char)) :
    (t.union u).readLines number ls = (u.readLines number ls).map t.union := by
  induction ls generalizing u number with
  | nil => rfl
  | cons line rest ih =>
    unfold readLines
    rw [readLine_union]
    cases u.readLine line with
    | error cause => rfl
    | ok next => exact ih next (number + 1)

theorem readLines_empty (t : Trace) (number : Nat) (ls : List (List Char)) :
    t.readLines number ls = (({} : Trace).readLines number ls).map t.union := by
  rw [← readLines_union, union_empty]

/-- The first lines decide whether the others are read, and what these are added to. -/
theorem readLines_append (t : Trace) (number : Nat) (ls ms : List (List Char)) :
    t.readLines number (ls ++ ms)
      = (t.readLines number ls).bind fun next => next.readLines (number + ls.length) ms := by
  induction ls generalizing t number with
  | nil => rfl
  | cons line rest ih =>
    rw [List.cons_append, readLines, readLines]
    -- an error in the first part is the error of the whole
    cases t.readLine line with
    | error cause => rfl
    | ok next =>
      dsimp only
      rw [ih, List.length_cons, Nat.add_assoc, Nat.add_comm 1]

end Trace

/-- The error, if `n` more lines stood in front. -/
def TraceError.behind (n : Nat) (e : TraceError) : TraceError :=
  { e with line := n + e.line }

namespace Trace

theorem readLines_shift (t : Trace) (n number : Nat) (ls : List (List Char)) :
    t.readLines (n + number) ls = (t.readLines number ls).mapError (TraceError.behind n) := by
  induction ls generalizing t number with
  | nil => rfl
  | cons line rest ih =>
    unfold readLines
    cases t.readLine line with
    | error cause => rfl
    | ok next => exact ih next (number + 1)

/-- The number of lines of a text. -/
def lineCount (rendered : String) : Nat :=
  (lineTexts rendered.toList).length

/-- The second text is read as if it stood alone, unless the first one cannot be read. -/
theorem parse_append {a : String} (h : EndsLine a.toList) (b : String) :
    parse (a ++ b) = (parse a).bind fun t =>
      ((parse b).mapError (TraceError.behind (lineCount a))).map t.union := by
  unfold parse
  rw [String.toList_append, lineTexts_append h, readLines_append]
  congr 1
  funext t
  rw [Nat.add_comm, readLines_empty, readLines_shift]
  rfl

/-! ## Behind the marks -/

/-- What stands behind the marks of a text. Lines without a mark are left out. -/
def sentinels (rendered : String) : List (List Char) :=
  (lineTexts rendered.toList).filterMap Sentinel.body?

/-- Read what stands behind the marks, one after the other. -/
def readBodies (t : Trace) : List (List Char) → Except SentinelError Trace
  | [] => .ok t
  | body :: rest =>
    match Sentinel.read body with
    | .error cause => .error cause
    | .ok s => (t.add s.kind s.ids).readBodies rest

/-- Apart from the number of a line, nothing is read but what stands behind the marks. -/
theorem readLines_cause (t : Trace) (number : Nat) (ls : List (List Char)) :
    (t.readLines number ls).mapError (·.cause) = t.readBodies (ls.filterMap Sentinel.body?) := by
  induction ls generalizing t number with
  | nil => rfl
  | cons line rest ih =>
    unfold readLines readLine
    rw [List.filterMap_cons]
    -- a line without the mark is passed over
    cases Sentinel.body? line with
    | none => exact ih t (number + 1)
    | some body =>
      dsimp only
      unfold readBodies
      cases Sentinel.read body with
      | error cause => rfl
      | ok s => exact ih (t.add s.kind s.ids) (number + 1)

theorem parse_cause (rendered : String) :
    (parse rendered).mapError (·.cause) = ({} : Trace).readBodies (sentinels rendered) :=
  readLines_cause {} 1 _

/-- What stands behind a mark reports the ID for files of the kind. -/
def Reports (body : List Char) (kind : FileKind) (id : BranchId) : Prop :=
  ∃ s, Sentinel.read body = .ok s ∧ s.kind = kind ∧ id ∈ s.ids

/-- The trace is the one that has collected what was reported, if all of it can be read. Induction on
what is read. -/
theorem readBodies_eq_ok_iff {t u : Trace} {bodies : List (List Char)} :
    t.readBodies bodies = .ok u
      ↔ (∀ body ∈ bodies, ∃ s, Sentinel.read body = .ok s)
        ∧ ∀ kind id, id ∈ u.collected kind
            ↔ id ∈ t.collected kind ∨ ∃ body ∈ bodies, Reports body kind id := by
  induction bodies generalizing t with
  | nil =>
    constructor
    · intro h
      cases h
      simp
    · rintro ⟨-, hu⟩
      have htu : t = u := ext_mem fun kind id => by simp [hu kind id]
      exact congrArg Except.ok htu
  | cons body rest ih =>
    unfold readBodies
    cases hread : Sentinel.read body with
    | error cause =>
      constructor
      · intro h
        cases h
      · rintro ⟨hall, -⟩
        obtain ⟨s, hs⟩ := hall body (List.mem_cons_self ..)
        rw [hread] at hs
        cases hs
    | ok s =>
      dsimp only
      -- the first body can be read, and it reports the IDs of `s`
      have hreadable : ∃ s, Sentinel.read body = .ok s := ⟨s, hread⟩
      have hreports : ∀ kind id, (∃ body' ∈ body :: rest, Reports body' kind id)
          ↔ (s.kind = kind ∧ id ∈ s.ids) ∨ ∃ body' ∈ rest, Reports body' kind id := by
        intro kind id
        have hfirst : Reports body kind id ↔ s.kind = kind ∧ id ∈ s.ids := by
          unfold Reports
          rw [hread]
          simp
        rw [← hfirst]
        simp
      rw [ih, List.forall_mem_cons, and_iff_right hreadable]
      simp only [hreports, mem_add, or_assoc]

/-! ## Errors -/

/-- The trace of a joined text in terms of the two parts. -/
structure Joined (a b : String) : Prop where
  /-- Two parts that can be read report what either of them reports. -/
  both : ∀ t u, parse a = .ok t → parse b = .ok u →
    ∃ v, parse (a ++ b) = .ok v
      ∧ ∀ kind id, id ∈ v.collected kind ↔ id ∈ t.collected kind ∨ id ∈ u.collected kind
  /-- An error of the first part stays as it is. -/
  first : ∀ e, parse a = .error e → parse (a ++ b) = .error e
  /-- An error of the second part keeps its cause, and its line is counted from the beginning. -/
  second : ∀ t e, parse a = .ok t → parse b = .error e →
    parse (a ++ b) = .error ⟨lineCount a + e.line, e.cause⟩

theorem joined {a : String} (h : EndsLine a.toList) (b : String) : Joined a b := by
  refine ⟨?_, ?_, ?_⟩
  · intro t u ha hb
    refine ⟨t.union u, ?_, fun kind id => mem_union⟩
    -- the second text is read on top of what the first one has collected
    rw [parse_append h, ha, hb]
    rfl
  · intro e ha
    rw [parse_append h, ha]
    rfl
  · intro t e ha hb
    rw [parse_append h, ha, hb]
    rfl

/-- A text gives the trace if and only if what stands behind its marks does. -/
theorem parse_eq_ok_iff {rendered : String} {t : Trace} :
    parse rendered = .ok t ↔ ({} : Trace).readBodies (sentinels rendered) = .ok t := by
  rw [← parse_cause]
  cases parse rendered with
  | error e =>
    show Except.error e = .ok t ↔ Except.error e.cause = .ok t
    simp
  | ok u =>
    show Except.ok u = .ok t ↔ Except.ok u = .ok t
    simp

end Trace

end TemplateCoverage
