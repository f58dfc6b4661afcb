import TemplateCoverage.Proofs.Utility.Selection
import TemplateCoverage.Utility.Table

/-!
# Utilities that only read

Most utilities read operands and write to the output. Whatever options and operands they are called with, and
also where they fail, all files are left as they are.

* **`Work.Reads`**: work that leaves all files as they are. It is kept by the ways in which work is put together
  (`bind`, `ite`, `choice`, `foldlM`, `mapM`, `filterMapM`, `forIn`), so a utility is gone through in the order
  in which it is written.
* **`UtilityCall.reads_withOptions`**, **`UtilityCall.reads_eachOperand`**: what is the same in all utilities,
  which is to read options and to go through the operands.
* **`reads_portions`**: the first and the last part of files, which two utilities write.
* **`reads_grep`**: a search of lines, which goes through any number of files and may read patterns from one.

Utilities that call other programs follow in the next module.
-/

namespace TemplateCoverage

/-! ## Work -/

namespace Work

variable {α β γ : Type}

/-- The work leaves all files as they are. -/
def Reads (work : Work α) : Prop :=
  ∀ w, (work.run w).2.files = w.files

namespace Reads

theorem pure (a : α) : Reads (pure a) :=
  fun _ => rfl

theorem bind {work : Work α} {next : α → Work β} (h : Reads work) (hnext : ∀ a, Reads (next a)) :
    Reads (work >>= next) :=
  fun w => (hnext _ _).trans (h w)

theorem get : Reads (get : Work Workplace) :=
  fun _ => rfl

theorem modify {f : Workplace → Workplace} (h : ∀ w, (f w).files = w.files) :
    Reads (modify f : Work Unit) :=
  h

/-- What is done may depend on anything. -/
theorem ite {c : Prop} [Decidable c] {work work' : Work α} (h : Reads work) (h' : Reads work') :
    Reads (if c then work else work') := by
  split
  · exact h
  · exact h'

/-- A step that is made on a condition, and what follows in any case. -/
theorem optional {c : Prop} [Decidable c] {work : Work Unit} {next : Unit → Work α} (h : Reads work)
    (hnext : Reads (next ())) : Reads (if c then work >>= next else next ()) :=
  .ite (.bind h fun _ => hnext) hnext

/-- One of two steps, and what follows in any case. -/
theorem choice {c : Prop} [Decidable c] {work work' : Work β} {next : β → Work α} (h : Reads work)
    (h' : Reads work') (hnext : ∀ b, Reads (next b)) : Reads (if c then work >>= next else work' >>= next) :=
  .ite (.bind h hnext) (.bind h' hnext)

/-- A loop with a state, if each round only reads. Induction on what is gone through. -/
theorem foldlM {step : β → γ → Work β} (h : ∀ b c, Reads (step b c)) (init : β) (all : List γ) :
    Reads (all.foldlM step init) := by
  induction all generalizing init with
  | nil => exact .pure init
  | cons c rest ih =>
    rw [List.foldlM_cons]
    exact .bind (h init c) ih

theorem mapM {f : γ → Work β} (h : ∀ c, Reads (f c)) (all : List γ) : Reads (all.mapM f) := by
  induction all with
  | nil => exact .pure []
  | cons c rest ih =>
    rw [List.mapM_cons]
    exact .bind (h c) fun _ => .bind ih fun _ => .pure _

theorem filterMapM {f : γ → Work (Option β)} (h : ∀ c, Reads (f c)) (all : List γ) :
    Reads (all.filterMapM f) := by
  induction all with
  | nil => exact .pure []
  | cons c rest ih =>
    rw [List.filterMapM_cons]
    refine .bind (h c) fun found => ?_
    split
    · exact ih
    · exact .bind ih fun _ => .pure _

/-- A loop that may be left early. -/
theorem forIn {f : γ → β → Work (ForInStep β)} (h : ∀ c b, Reads (f c b)) (init : β) (all : List γ) :
    Reads (forIn all init f) := by
  induction all generalizing init with
  | nil => exact .pure init
  | cons c rest ih =>
    rw [List.forIn_cons]
    refine .bind (h c init) fun step => ?_
    cases step with
    | done b => exact .pure b
    | yield b => exact ih b

theorem say (text : Bytes) : Reads (say text) :=
  fun _ => rfl

theorem warn (text : Bytes) : Reads (warn text) :=
  fun _ => rfl

/-- The input is used up, but it is not a file. -/
theorem takeInput : Reads takeInput :=
  fun _ => rfl

theorem contents (path : Bytes) : Reads (contents path) := by
  unfold Work.contents
  split
  · exact .pure _
  split
  · exact .bind .takeInput fun _ => .pure _
  · exact .bind .get fun _ => .pure _

/-- An operand is the input or a file, which may also be absent. -/
theorem operand (path : Bytes) : Reads (operand path) := by
  unfold Work.operand
  split
  · exact .bind .takeInput fun _ => .pure _
  · exact contents path

/-- A loop over operands. -/
theorem operands {step : β → Bytes → Except FileError Bytes → Work β}
    (h : ∀ b path found, Reads (step b path found)) (init : β) (all : List Bytes) :
    Reads (all.foldlM (fun b path => Work.operand path >>= step b path) init) :=
  .foldlM (fun b path => .bind (.operand path) fun found => h b path found) init all

/-- Something is written, and the work has a result. -/
theorem said (text : Bytes) (a : α) : Reads (Work.say text >>= fun _ => Pure.pure a) :=
  .bind (.say text) fun _ => .pure a

theorem warned (text : Bytes) (a : α) : Reads (Work.warn text >>= fun _ => Pure.pure a) :=
  .bind (.warn text) fun _ => .pure a

end Reads

end Work

open Work

/-! ## What all utilities do -/

namespace UtilityCall

variable (u : UtilityCall)

/-- Complaints go to the other output. -/
theorem reads_complain (message : Bytes) : Reads (u.complain message) :=
  .warn _

theorem reads_complainOf (subject : Bytes) (e : FileError) : Reads (u.complainOf subject e) :=
  u.reads_complain _

/-- The utility complains, and its work has a result. -/
theorem reads_complained {α : Type} (message : Bytes) (a : α) :
    Reads (u.complain message >>= fun _ => pure a) :=
  .bind (u.reads_complain message) fun _ => .pure a

theorem reads_complainedOf {α : Type} (subject : Bytes) (e : FileError) (a : α) :
    Reads (u.complainOf subject e >>= fun _ => pure a) :=
  .bind (u.reads_complainOf subject e) fun _ => .pure a

theorem reads_misused (message : Bytes) (code : Nat) : Reads (u.misused message code) :=
  .bind (u.reads_complain message) fun _ => .bind (.warn _) fun _ => .pure code

/-- With options that cannot be read, the utility says how it is used. -/
theorem reads_withOptions {rules : List OptionRule} {code : Nat} {work : Options → Work Nat}
    (h : ∀ o, Reads (work o)) : Reads (u.withOptions rules code work) := by
  unfold withOptions
  split
  · exact h _
  · exact u.reads_misused _ _

/-- Operands that cannot be read are passed over. -/
theorem reads_eachOperand {operands : List Bytes} {work : Bytes → Bytes → Work Unit}
    (h : ∀ path text, Reads (work path text)) : Reads (u.eachOperand operands work) := by
  refine .operands (fun fine path found => ?_) _ _
  split
  · exact .bind (h _ _) fun _ => .pure _
  · exact u.reads_complainedOf _ _ _

end UtilityCall

namespace Utility

variable (u : UtilityCall)

/-! ## Texts as they are -/

theorem reads_cat : Reads (cat u) := by
  refine u.reads_withOptions fun o => .bind (.operands (fun state path found => ?_) _ _)
    fun _ => .pure _
  split
  · exact .said _ _
  · exact u.reads_complainedOf _ _ _

theorem reads_tac : Reads (tac u) := by
  refine u.reads_withOptions fun o => .bind (.operands (fun fine path found => ?_) _ _)
    fun _ => .pure _
  split
  · exact .said _ _
  · exact u.reads_complained _ _
  · exact u.reads_complainedOf _ _ _

theorem reads_rev : Reads (rev u) := by
  refine u.reads_withOptions fun o => .bind (.operands (fun fine path found => ?_) _ _)
    fun _ => .pure _
  split
  · exact .said _ _
  · exact u.reads_complainedOf _ _ _

/-- The options are checked once more before the lines are numbered. -/
theorem reads_nl : Reads (nl u) := by
  refine u.reads_withOptions fun o => ?_
  dsimp only
  split
  · refine .bind (.forIn (fun message _ => ?_) _ _) fun _ => .warned _ _
    exact u.reads_complained _ _
  · refine .bind (.operands (fun state path found => ?_) _ _) fun _ => .pure _
    split
    · exact .said _ _
    · exact u.reads_complainedOf _ _ _

theorem reads_seq : Reads (seq u) := by
  unfold seq
  dsimp only
  split
  · exact u.reads_misused _ _
  split
  · exact u.reads_misused _ _
  · exact u.reads_misused _ _
  split
  · exact u.reads_misused _ _
  split
  · exact u.reads_misused _ _
  · exact .said _ _

/-- The first or the last part of each file. What precedes the parts depends on how many files there are. -/
theorem reads_portions {ownRules : List OptionRule} {standard : Portion} {portion? : Bytes → Option Portion} :
    Reads (portions u ownRules standard portion?) := by
  refine UtilityCall.reads_withOptions _ fun o => ?_
  dsimp only
  split
  · exact u.reads_complained _ _
  · exact .pure _
  · refine .bind (.operands (fun state path found => ?_) _ _) fun _ => .pure _
    split
    -- a title may be written before each part
    · exact .ite (.bind (.say _) fun _ => .ite (.said _ _) (.said _ _))
        (.ite (.said _ _) (.said _ _))
    · exact .ite (.bind (.say _) fun _ => u.reads_complained _ _)
        (u.reads_complained _ _)
    · exact u.reads_complainedOf _ _ _

theorem reads_tail : Reads (tail u) :=
  reads_portions u

/-- Some of the input may be given back, and then it stays to be read. -/
theorem reads_head : Reads (head u) := by
  refine .bind .get fun before => .bind (reads_portions u) fun code w => ?_
  -- what follows sets the input and nothing else
  show ((ite _ _ _ : Work Nat).run w).2.files = w.files
  split
  · show ((ite _ _ _ : Work Nat).run w).2.files = w.files
    split
    · rfl
    · rfl
  · rfl

/-- The files are counted first, and then the counts are written. -/
theorem reads_wc : Reads (wc u) := by
  refine u.reads_withOptions fun o => ?_
  refine .bind (.mapM (fun path => .bind (.operand path) fun _ => .pure _) _) fun found => ?_
  refine .bind (.foldlM (fun code f => ?_) _ _) fun code => .ite (.said _ _) (.pure _)
  split
  dsimp only
  split
  · exact .said _ _
  · exact .bind (u.reads_complainOf _ _) fun _ => .ite (.said _ _) (.pure _)

/-- One list of positions is needed. Without it, or with one that cannot be read, nothing is written. -/
theorem reads_cut : Reads (cut u) := by
  refine u.reads_withOptions fun o => ?_
  refine .ite (u.reads_misused _ _) (.ite (u.reads_misused _ _) (.ite (u.reads_misused _ _)
    (.ite (u.reads_misused _ _) ?_)))
  split
  · exact .ite (u.reads_misused _ _) (.ite (u.reads_misused _ _) (u.reads_misused _ _))
  · exact .bind (u.reads_eachOperand fun _ _ => .say _) fun _ => .pure _

theorem reads_paste : Reads (paste u) := by
  refine u.reads_withOptions fun o => ?_
  refine .bind (.operands (fun columns? path found => ?_) _ _) fun columns? => ?_
  · split
    · exact .pure _
    · exact .pure _
    · exact u.reads_complainedOf _ _ _
  · split
    · exact .pure _
    · exact .said _ _

/-- The sets of characters may have many kinds of faults. -/
theorem reads_tr : Reads (tr u) := by
  unfold tr
  split
  · exact u.reads_misused _ _
  · dsimp only
    split
    · exact u.reads_misused _ _
    · refine .ite ?_ (.ite ?_ ?_)
      · exact .bind (u.reads_complain _) fun _ => .bind (.warn _) fun _ => .warned _ _
      · exact .bind (u.reads_complain _) fun _ =>
          .ite (.bind (.warn _) fun _ => .warned _ _) (.warned _ _)
      · split
        · exact u.reads_complained _ _
        · exact u.reads_complained _ _
        · exact .ite (u.reads_complained _ _)
            (.bind .takeInput fun _ => .said _ _)

/-! ## Comparisons -/

theorem reads_comparedText (quiet : Bool) (path : Bytes) : Reads (comparedText u quiet path) := by
  refine .bind (.operand path) fun found => ?_
  split
  · exact .pure _
  · exact .ite (u.reads_complainedOf _ _ _) (.pure _)

/-- Two files are compared, of which each may be absent. -/
theorem reads_cmp : Reads (cmp u) := by
  refine u.reads_withOptions fun o => ?_
  dsimp only
  split
  · exact u.reads_misused _ _
  · refine .bind (reads_comparedText u _ _) fun a? => ?_
    split
    · exact .pure _
    · refine .bind (reads_comparedText u _ _) fun b? => ?_
      split
      · exact .pure _
      -- they are the same, or differ somewhere, or one of them ends first
      · refine .ite (.pure _) (.ite (.ite (.said _ _) (.pure _)) ?_)
        exact .ite (.ite (u.reads_complained _ _) (u.reads_complained _ _)) (.pure _)

theorem reads_comm : Reads (comm u) := by
  refine u.reads_withOptions fun o => ?_
  split
  · exact u.reads_misused _ _
  · exact u.reads_misused _ _
  · exact u.reads_misused _ _
  · refine .bind (.operand _) fun a => .bind (.operand _) fun b => ?_
    split
    · exact u.reads_complainedOf _ _ _
    · exact u.reads_complainedOf _ _ _
    · refine .bind (.forIn (fun line _ => ?_) _ _) fun _ => .pure _
      split
      exact .ite (.said _ _) (.pure _)

/-! ## Paths -/

theorem reads_basename : Reads (basename u) := by
  unfold basename
  split
  · exact u.reads_misused _ _
  · dsimp only
    split
    · exact u.reads_misused _ _
    · refine .ite ?_ ?_
      · exact .bind (.forIn (fun path _ => .said _ _) _ _) fun _ => .pure _
      · split
        · exact .said _ _
        · exact .said _ _
        · exact u.reads_misused _ _

theorem reads_dirname : Reads (dirname u) := by
  refine u.reads_withOptions fun o => .ite (u.reads_misused _ _) ?_
  exact .bind (.forIn (fun path _ => .said _ _) _ _) fun _ => .pure _

/-- Links are read, or followed to where they lead. What fails is complained about only if this is asked for. -/
theorem reads_readlink : Reads (readlink u) := by
  refine u.reads_withOptions fun o => .ite (u.reads_misused _ _) (.optional (u.reads_complain _) ?_)
  refine .foldlM (fun code path => .bind .get fun w => ?_) _ _
  dsimp only
  split
  · exact .said _ _
  · exact .optional (u.reads_complainOf _ _) (.pure _)

theorem reads_realpath : Reads (realpath u) := by
  refine u.reads_withOptions fun o => .ite (u.reads_misused _ _) ?_
  refine .foldlM (fun code path => .bind .get fun w => ?_) _ _
  split
  · exact .said _ _
  · exact .ite (u.reads_complainedOf _ _ _) (.pure _)

theorem reads_pwd : Reads (pwd u) :=
  u.reads_withOptions fun _ => .optional (u.reads_complain _) (.bind .get fun _ => .said _ _)

/-! ## Words and numbers -/

theorem reads_test : Reads (test u) := by
  refine .bind .get fun w => ?_
  split
  · exact .pure _
  · exact .pure _
  · exact u.reads_complained _ _

theorem reads_echo : Reads (echo u) := by
  unfold echo
  exact .said _ _

/-- Whatever the format is, also one that cannot be read to its end. -/
theorem reads_printf : Reads (printf u) := by
  unfold printf
  split
  · exact u.reads_misused _ _
  · -- complaints about numbers, and then about what ended the writing
    refine .bind (.say _) fun _ => .bind (.forIn (fun n _ => u.reads_complained _ _) _ _) fun _ => ?_
    split
    · exact u.reads_complained _ _
    · exact u.reads_complained _ _
    · exact .pure _
    · exact u.reads_complained _ _
    · exact .pure _

theorem reads_expr : Reads (expr u) := by
  unfold expr
  split
  · exact u.reads_misused _ _
  · split
    · exact u.reads_complained _ _
    · exact u.reads_complained _ _
    · exact .said _ _

theorem reads_printenv : Reads (printenv u) := by
  refine .ite (.bind (.forIn (fun b _ => .said _ _) _ _) fun _ => .pure _) ?_
  refine .foldlM (fun code name => ?_) _ _
  split
  · exact .said _ _
  · exact .pure _

theorem reads_sleep : Reads (sleep u) := by
  refine u.reads_withOptions fun o => .ite (u.reads_misused _ _) ?_
  exact .bind (.forIn (fun a _ => u.reads_complained _ _) _ _) fun _ =>
    .ite (.pure _) (.warned _ _)

theorem reads_sync : Reads (sync u) := by
  refine u.reads_withOptions fun o => .foldlM (fun code path => .bind .get fun w => ?_) _ _
  split
  · exact .pure _
  · exact u.reads_complainedOf _ _ _

theorem reads_constant (rules : List OptionRule) (text : Bytes) : Reads (constant rules text u) := by
  refine u.reads_withOptions fun o => ?_
  split
  · exact u.reads_misused _ _
  · exact .said _ _

theorem reads_yes : Reads (yes u) :=
  .said _ _

/-! ## Lines and names -/

/-- A search of one file, of which more is known. -/
theorem reads_searchText (s : LineSearch) (name text : Bytes) : Reads (s.searchText name text) :=
  fun w => (s.searchText_spec name text w).2.1

theorem reads_searchUsage : Reads (searchUsage u) :=
  .bind (.warn _) fun _ => .warned _ _

/-- Patterns may stand in a file. -/
theorem reads_listedPatterns (file? : Option Bytes) : Reads (listedPatterns file?) := by
  unfold listedPatterns
  split
  · exact .pure _
  · refine .bind (.operand _) fun found => ?_
    split
    · exact .pure _
    · exact .pure _

/-- **A search of lines** in any number of files. -/
theorem reads_grep : Reads (grep u) := by
  unfold grep
  split
  · exact .bind (u.reads_complain _) fun _ => reads_searchUsage u
  · refine .bind (reads_listedPatterns _) fun listed => ?_
    split
    · exact u.reads_complainedOf _ _ _
    · refine .ite (reads_searchUsage u) ?_
      dsimp only
      -- the expression may have a fault, and it does not matter which
      generalize patternsExpression _ _ = expression
      split
      · exact u.reads_complained _ _
      · refine .bind .get fun w => .bind (.operands (fun state path found => ?_) _ _)
          fun state => .pure _
        split
        · exact .bind (reads_searchText _ _ _) fun _ => .pure _
        · exact .optional (u.reads_complainOf _ _) (.pure _)

/-- A directory is listed by names. -/
theorem reads_ls : Reads (ls u) := by
  refine u.reads_withOptions fun o => .bind .get fun w => ?_
  refine .bind (.filterMapM (fun path => ?_) _) fun found => .said _ _
  dsimp only
  split
  · exact .pure _
  · split
    · exact .pure _
    · exact u.reads_complainedOf _ _ _

theorem reads_itemText (file? : Option Bytes) (input : Bytes) : Reads (itemText file? input) := by
  unfold itemText
  split
  · exact .pure _
  · refine .bind (.contents _) fun found => ?_
    split
    · exact .pure _
    · exact .pure _

end Utility

end TemplateCoverage
