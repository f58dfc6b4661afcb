import TemplateCoverage.Process
import TemplateCoverage.Proofs.Utility.Reading

/-!
# Utilities that call programs

A search calls programs for what it finds, and some other utilities call a program with a rest of their own
arguments. They leave all files as they are if the programs do, apart from a search that deletes.

* **`isReadOf_read`**: an expression deletes files only if the word for it is among those it is read of.
* **`reads_find`**: so a search leaves the files as they are if there is no such word.
* **`reads_ofName?`**: of all utilities, only some change files (`changing`) and only some call programs
  (`calling`).
* **`Process.reads_run`**: a program that is run, and that is none of these and calls no others, leaves the
  files as they are.
-/

namespace TemplateCoverage

open Work

namespace Utility

variable (u : UtilityCall)

/-! ## What is read of words -/

/-- Whether an expression deletes files. -/
def FindExpression.deletes : FindExpression → Bool
  | .delete => true
  | .negation e => e.deletes
  | .both e f | .either e f => e.deletes || f.deletes
  | _ => false

namespace FindExpression

/-- What follows a command stands at the end of the words. -/
theorem command?_isSuffix {words command rest : List Bytes} {together : Bool}
    (h : command? words = some (command, together, rest)) : rest <:+ words := by
  induction words using command?.induct generalizing command with
  | case1 => cases h
  | case2 rest' =>
    cases h
    exact List.suffix_cons _ _
  | case3 rest' =>
    cases h
    exact (List.suffix_cons _ _).trans (List.suffix_cons _ _)
  | case4 word words hend hboth ih =>
    rw [command?.eq_4 word words hend hboth, Option.map_eq_some_iff] at h
    obtain ⟨⟨command', together', rest'⟩, hcommand, heq⟩ := h
    cases heq
    exact (ih hcommand).trans (List.suffix_cons _ _)

/-- What a result is made of. -/
theorem exists_ok_of_map {ε α β : Type} {x : Except ε α} {f : α → β} {b : β} (h : x.map f = .ok b) :
    ∃ a, x = .ok a ∧ f a = b := by
  cases x with
  | error e => cases h
  | ok a => exact ⟨a, rfl, Except.ok.inj h⟩

/-- What is read of words: some of them are left, and an expression that deletes has the word for it. -/
def IsReadOf (words : List Bytes) (found : FindExpression × List Bytes) : Prop :=
  found.2 <:+ words ∧ (found.1.deletes = true → "-delete".toList ∈ words)

namespace IsReadOf

variable {e f : FindExpression} {word : Bytes} {words rest after : List Bytes}

/-- A test or an action that does not delete. -/
theorem of_not_deletes (he : e.deletes = false) (hrest : rest <:+ words) : IsReadOf words (e, rest) :=
  ⟨hrest, fun h => absurd h (by simp [he])⟩

/-- Words in front do not matter. -/
theorem mono (h : IsReadOf rest (e, after)) (hrest : rest <:+ words) : IsReadOf words (e, after) :=
  ⟨h.1.trans hrest, fun hd => hrest.subset (h.2 hd)⟩

/-- More of the words that are left may be taken away. -/
theorem trans_rest (h : IsReadOf words (e, rest)) (hafter : after <:+ rest) : IsReadOf words (e, after) :=
  ⟨hafter.trans h.1, h.2⟩

/-- A test or an action with an argument. -/
theorem argument {make : Bytes → FindExpression} {message : Bytes} {found : FindExpression × List Bytes}
    (hmake : ∀ a, (make a).deletes = false)
    (h : (match rest with
      | a :: after => .ok (make a, after)
      | [] => .error message : Except Bytes (FindExpression × List Bytes)) = .ok found) :
    IsReadOf (word :: rest) found := by
  cases rest with
  | nil => cases h
  | cons a after =>
    cases h
    exact .of_not_deletes (hmake a) ((List.suffix_cons a after).trans (List.suffix_cons word _))

/-- Two expressions one behind the other. -/
theorem both (he : IsReadOf words (e, rest)) (hf : IsReadOf rest (f, after)) :
    IsReadOf words (.both e f, after) := by
  refine ⟨hf.1.trans he.1, fun h => ?_⟩
  rcases Bool.or_eq_true_iff.mp h with h | h
  · exact he.2 h
  · exact he.1.subset (hf.2 h)

end IsReadOf

section

variable {n : Nat} {words : List Bytes} {found : FindExpression × List Bytes}
  (ih : ∀ {level words found}, read n level words = .ok found → IsReadOf words found)
include ih

/-- Alternatives, the next of which stands behind the word between them. -/
theorem isReadOf_either (h : read (n + 1) .either words = .ok found) : IsReadOf words found := by
  rw [read] at h
  split at h
  · cases h
  next left rest hleft =>
  split at h
  · next op more =>
    split at h
    · obtain ⟨⟨right, after⟩, hright, heq⟩ := exists_ok_of_map h
      cases heq
      exact (ih hleft).both ((ih hright).mono (List.suffix_cons op more))
    · cases h
      exact ih hleft
  · cases h
    exact ih hleft

/-- A row of expressions, with or without a word between them. -/
theorem isReadOf_both (h : read (n + 1) .both words = .ok found) : IsReadOf words found := by
  rw [read] at h
  split at h
  · cases h
  next left rest hleft =>
  split at h
  · next op more =>
    split at h
    · cases h
      exact ih hleft
    · obtain ⟨⟨right, after⟩, hright, heq⟩ := exists_ok_of_map h
      cases heq
      refine (ih hleft).both ((ih hright).mono ?_)
      split
      · exact List.suffix_cons op more
      · exact List.suffix_rfl
  · cases h
    exact ih hleft

/-- One test or action, for each word that may begin it. The cases are in the order of the words. -/
theorem isReadOf_single {word : Bytes} {rest : List Bytes}
    (h : read (n + 1) .single (word :: rest) = .ok found) : IsReadOf (word :: rest) found := by
  have hrest : rest <:+ word :: rest := List.suffix_cons word rest
  have hnegation (h : (read n .single rest).map (fun e => (.negation e.1, e.2)) = .ok found) :
      IsReadOf (word :: rest) found := by
    obtain ⟨⟨e, after⟩, he, heq⟩ := exists_ok_of_map h
    cases heq
    exact (ih he).mono hrest
  have htest {e : FindExpression} {after : List Bytes} (he : e.deletes = false) (hafter : after <:+ rest)
      (h : (.ok (e, after) : Except Bytes _) = .ok found) : IsReadOf (word :: rest) found := by
    cases h
    exact .of_not_deletes he (hafter.trans hrest)
  unfold read at h
  dsimp only at h
  split at h
  · exact hnegation h
  · exact hnegation h
  · split at h
    · cases h
    · next e after he =>
      cases h
      exact ((ih he).mono hrest).trans_rest (List.suffix_cons _ _)
    · cases h
  · exact .argument (fun _ => rfl) h
  · exact .argument (fun _ => rfl) h
  · exact .argument (fun _ => rfl) h
  · exact .argument (fun _ => rfl) h
  · exact .argument (fun _ => rfl) h
  · exact .argument (fun _ => rfl) h
  · exact htest rfl (List.drop_suffix 1 rest) h
  · exact htest rfl (List.drop_suffix 1 rest) h
  · exact htest rfl List.suffix_rfl h
  · exact htest rfl List.suffix_rfl h
  · exact htest rfl List.suffix_rfl h
  · exact htest rfl List.suffix_rfl h
  · exact htest rfl List.suffix_rfl h
  · exact htest rfl List.suffix_rfl h
  · exact htest rfl List.suffix_rfl h
  · exact htest rfl List.suffix_rfl h
  · exact htest rfl List.suffix_rfl h
  · exact htest rfl List.suffix_rfl h
  · exact .argument (fun _ => rfl) h
  · next hword =>
    -- this is the action that deletes, and here is the word for it
    cases h
    exact ⟨hrest, fun _ => by rw [← hword]; simp⟩
  · exact htest rfl List.suffix_rfl h
  · exact htest rfl List.suffix_rfl h
  · split at h
    · next command together after hcommand =>
      exact htest rfl (command?_isSuffix hcommand) h
    · cases h
  · split at h
    · cases h
    · cases h

end

/-- **What is read.** An expression that deletes has the word for it among the words of which it is read.
Induction on the number of steps, with a lemma for each level. -/
theorem isReadOf_read {n : Nat} {level : Level} {words : List Bytes} {found : FindExpression × List Bytes}
    (h : read n level words = .ok found) : IsReadOf words found := by
  induction n generalizing level words found with
  | zero =>
    cases h
    exact .of_not_deletes rfl List.suffix_rfl
  | succ n ih =>
    cases level with
    | either => exact isReadOf_either ih h
    | both => exact isReadOf_both ih h
    | single =>
      cases words with
      | nil =>
        cases h
        exact .of_not_deletes rfl List.suffix_rfl
      | cons word rest => exact isReadOf_single ih h

end FindExpression

/-! ## Programs that are called -/

section

variable {call : ProgramCaller} (hcall : ∀ u, Reads (call u))
include hcall

/-- A program that is not there is complained about. -/
theorem reads_callFor (words : List Bytes) : Reads (callFor u call words) := by
  unfold callFor
  split
  · exact .pure _
  · refine .bind (hcall _) fun found => ?_
    split
    · exact .pure _
    · exact u.reads_complained _ _

/-- The first of the words is the name of the program. -/
theorem reads_callRest (words : List Bytes) : Reads (callRest call u words) := by
  unfold callRest
  split
  · exact u.reads_misused _ _
  · refine .bind (hcall _) fun found => ?_
    split
    · exact .pure _
    · exact u.reads_complained _ _

theorem reads_nohup : Reads (nohup call u) :=
  reads_callRest u hcall _

theorem reads_nice : Reads (nice call u) := by
  unfold nice
  split
  · exact reads_callRest u hcall _
  · exact reads_callRest u hcall _

theorem reads_timeout : Reads (timeout call u) := by
  unfold timeout
  split
  · exact .ite (reads_callRest u hcall _) (u.reads_misused _ _)
  · exact reads_callRest u hcall _

/-- Without a program, the environment is written. -/
theorem reads_env : Reads (env call u) := by
  unfold env
  split
  · exact u.reads_misused _ _
  · dsimp only
    split
    · exact .bind (.forIn (fun b _ => .said _ _) _ _) fun _ => .pure _
    · refine .bind (hcall _) fun found => ?_
      split
      · exact .pure _
      · exact u.reads_complained _ _

/-- Calls one after the other, up to one that ends them. Each call has nothing to read, and then the input is as
it was before. -/
theorem reads_callEach (shows : Bool) (calls : List (List Bytes)) : Reads (callEach u call shows calls) := by
  refine .bind (.foldlM (fun state words => ?_) _ _) fun _ => .pure _
  split
  split
  · exact .pure _
  · refine .ite (.pure _) (.optional (.warn _) ?_)
    -- the input is set aside for the call
    refine .bind .takeInput fun input => .bind (hcall _) fun found => .bind (.modify fun _ => rfl) fun _ => ?_
    split
    · exact u.reads_complained _ _
    · exact .pure _
    · exact u.reads_complained _ _
    · exact .ite (.pure _) (.pure _)

/-- The arguments of the calls are read from the input or from a file. -/
theorem reads_xargs : Reads (xargs call u) := by
  unfold xargs
  split
  · exact u.reads_misused _ _
  · refine .bind .takeInput fun input => .bind (reads_itemText _ _) fun text => ?_
    dsimp only
    split
    · exact u.reads_complained _ _
    · split
      · exact u.reads_misused _ _
      · exact u.reads_misused _ _
      · split
        · exact reads_callEach u hcall _ _
        · exact reads_callEach u hcall _ _
        · exact reads_callEach u hcall _ _
        · exact .ite (.pure _) (reads_callEach u hcall _ _)

/-- An expression that does not delete leaves the files as they are. -/
theorem reads_askAbout (f : Found) {e : FindExpression} (h : e.deletes = false) :
    Reads (askAbout u call f e) := by
  induction e with
  | always | never | name _ _ | path _ _ | kind _ | prune | quit => exact .pure _
  | isEmpty =>
    unfold askAbout
    split
    · exact .pure _
    · exact .bind .get fun _ => .pure _
    · exact .pure _
  | isExecutable =>
    unfold askAbout
    split
    · exact .pure _
    · exact .pure _
  | print _ | printFormat _ => exact .said _ _
  | delete => cases h
  | call words together =>
    cases together with
    | true => exact .pure _
    | false => exact .bind (reads_callFor u hcall _) fun _ => .pure _
  | negation e ih => exact .bind (ih h) fun _ => .pure _
  | both e g ihe ihg =>
    obtain ⟨he, hg⟩ := Bool.or_eq_false_iff.mp h
    exact .bind (ihe he) fun a => .ite (.bind (ihg hg) fun _ => .pure _) (.pure _)
  | either e g ihe ihg =>
    obtain ⟨he, hg⟩ := Bool.or_eq_false_iff.mp h
    exact .bind (ihe he) fun a => .ite (.pure _) (.bind (ihg hg) fun _ => .pure _)

/-- **A search of a tree.** Induction on its depth: an entry is asked about before or after what is below it. -/
theorem reads_searchTree {plan : FindPlan} (h : plan.expression.deletes = false) (n : Nat) (f : Found) :
    Reads (searchTree u call plan n f) := by
  induction n generalizing f with
  | zero => exact .pure _
  | succ n ih =>
    have hask : Reads (if f.depth < plan.least then pure {} else askAbout u call f plan.expression) :=
      .ite (.pure _) (reads_askAbout u hcall f h)
    unfold searchTree
    dsimp only
    refine .choice (.pure _) hask fun here => .bind .get fun w => ?_
    refine .bind (.foldlM (fun a name => .ite (.pure _) ?_) _ _) fun inner => ?_
    · -- what is below, up to where the search ends
      split
      · exact .pure _
      · exact .bind (ih _) fun b => .pure _
    · split
      · exact .bind hask fun last => .pure _
      · exact .pure _

/-- **A search** that has no word for deleting, whatever else it does with what it finds. -/
theorem reads_find (h : "-delete".toList ∉ u.args) : Reads (find call u) := by
  unfold find
  dsimp only
  split
  · exact u.reads_complained _ _
  · exact u.reads_complained _ _
  · next read hread =>
    have hdeletes : read.deletes = false := by
      by_contra hdeletes
      have hmem := (FindExpression.isReadOf_read hread).2 (by simpa using hdeletes)
      exact h (List.mem_of_mem_drop (List.mem_of_mem_drop hmem))
    -- an expression without an action is completed by one that writes
    have hcompleted : (if read.acts then read else .both read (.print '\n')).deletes = false := by
      split
      · exact hdeletes
      · simp [FindExpression.deletes, hdeletes]
    refine .bind (.foldlM (fun a path => .ite (.pure _) (.bind .get fun w => ?_)) _ _) fun answer => ?_
    · split
      · exact u.reads_complainedOf _ _ _
      · exact .bind (reads_searchTree u hcall hcompleted _ _) fun b => .pure _
    · split
      · exact .pure _
      · exact .ite (.pure _) (.bind (reads_callFor u hcall _) fun _ => .pure _)

end

/-! ## All utilities -/

/-- The utilities that may change files. -/
def changing : List String :=
  ["chmod", "cp", "ln", "mkdir", "mktemp", "mv", "rm", "rmdir", "sed", "sort", "tee", "touch", "uniq"]

/-- The utilities that call other programs. -/
def calling : List String :=
  ["env", "find", "nice", "nohup", "timeout", "xargs"]

section

variable {call : ProgramCaller} {name : String} {work : UtilityCall → Work Nat}

/-- **What stands in the table.** Only the utilities that are named as such change files themselves. The others
that call programs do not, if these programs do not, and a search does not if nothing is to be deleted. -/
theorem reads_ofName? (hwork : ofName? call name = some work) (hname : name ∉ changing)
    (hcall : name ∈ calling → ∀ u, Reads (call u)) (hfind : name = "find" → "-delete".toList ∉ u.args) :
    Reads (work u) := by
  unfold ofName? at hwork
  split at hwork
  all_goals cases hwork
  · exact reads_test u
  · exact reads_test u
  · exact reads_basename u
  · exact reads_cat u
  · exact absurd (by decide) hname
  · exact reads_cmp u
  · exact reads_comm u
  · exact absurd (by decide) hname
  · exact reads_cut u
  · exact reads_dirname u
  · exact reads_echo u
  · exact reads_grep u
  · exact reads_grep u
  · exact reads_grep u
  · exact reads_env u (hcall (by decide))
  · exact reads_expr u
  · exact .pure _
  · exact reads_find u (hcall (by decide)) (hfind rfl)
  · exact reads_head u
  · exact absurd (by decide) hname
  · exact reads_ls u
  · exact absurd (by decide) hname
  · exact absurd (by decide) hname
  · exact absurd (by decide) hname
  · exact reads_nice u (hcall (by decide))
  · exact reads_nl u
  · exact reads_nohup u (hcall (by decide))
  · exact reads_paste u
  · exact reads_printenv u
  · exact reads_printf u
  · exact reads_pwd u
  · exact reads_readlink u
  · exact reads_realpath u
  · exact reads_rev u
  · exact absurd (by decide) hname
  · exact absurd (by decide) hname
  · exact absurd (by decide) hname
  · exact reads_seq u
  · exact reads_sleep u
  · exact absurd (by decide) hname
  · exact reads_sync u
  · exact reads_tac u
  · exact reads_tail u
  · exact absurd (by decide) hname
  · exact reads_timeout u (hcall (by decide))
  · exact absurd (by decide) hname
  · exact reads_tr u
  · exact .pure _
  · exact reads_constant u _ _
  · exact absurd (by decide) hname
  · exact reads_wc u
  · exact reads_constant u _ _
  · exact reads_xargs u (hcall (by decide))
  · exact reads_yes u

/-- What is written is put in order, which has nothing to do with the files. -/
theorem reads_run? (hwork : run? call name = some work) (hname : name ∉ changing)
    (hcall : name ∈ calling → ∀ u, Reads (call u)) (hfind : name = "find" → "-delete".toList ∉ u.args) :
    Reads (work u) := by
  obtain ⟨work', hwork', rfl⟩ := Option.map_eq_some_iff.mp hwork
  refine .bind .get fun before => .bind (.modify fun _ => rfl) fun _ => ?_
  refine .bind (reads_ofName? u hwork' hname hcall hfind) fun code => ?_
  exact .bind (.modify fun _ => rfl) fun _ => .pure code

end

end Utility

open Utility

/-- **A program that only reads.** A utility that neither changes files nor calls another program leaves all
files as they are, whatever its arguments, its input and the files are. -/
theorem Process.reads_run {l : Launch} {name : String} (hl : l.executable = .utility name)
    (hname : name ∉ changing) (hcalling : name ∉ calling) (n : Nat) (u : UtilityCall) :
    Reads (Process.run n l u) := by
  cases n with
  | zero => exact u.reads_complained _ _
  | succ n =>
    unfold Process.run
    rw [hl]
    dsimp only
    split
    · next work hwork =>
      refine .bind (reads_run? u hwork hname (fun h => absurd h hcalling) fun h => ?_) fun code => .pure _
      -- a search may call programs
      exact absurd (by rw [h]; decide) hcalling
    · exact .pure _

end TemplateCoverage
