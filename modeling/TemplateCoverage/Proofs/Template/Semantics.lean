import TemplateCoverage.Proofs.Template.Reader

/-!
# Running a template

What the actions of a template do. Maps live in a heap, since setting a key of a map shows wherever the
map is held; every other value is what it is. The functions that templates call are not part of this
project, so they are a parameter, and `ActsOnPlainMaps` says what is known of them.

* **`Action.step`**: what one action does, with a stack of the open conditionals.
* **`execute_skip`**: a conditional that is not taken is passed over.
* **`execute_actions`**: running the actions of tracking code is running the tree of tests that it was
  written from. So control flow is dealt with once.
* **`evaluate_text`**: the same from the text on.
-/

namespace TemplateCoverage.Template

/-! ## Values -/

/-- The address of a map. -/
abbrev Address := Nat

/-- Kinds of values that tracking code has no use for. -/
inductive OtherKind where
  | int64
  | float64
  | struct
  | pointer
  | func
  deriving DecidableEq, Repr

/-- A value. -/
inductive Value where
  | nil
  | boolean (b : Bool)
  | text (s : String)
  | list (items : List Value)
  | map (address : Address)
  | other (kind : OtherKind)

/-- The name of the kind of a value. -/
def Value.kind : Value → String
  | .nil => "invalid"
  | .boolean _ => "bool"
  | .text _ => "string"
  | .list _ => "slice"
  | .map _ => "map"
  | .other .int64 => "int64"
  | .other .float64 => "float64"
  | .other .struct => "struct"
  | .other .pointer => "ptr"
  | .other .func => "func"

/-- Whether a value is a map. -/
def Value.isMap : Value → Bool
  | .map _ => true
  | _ => false

theorem Value.decide_kind_eq_map (v : Value) : decide (v.kind = "map") = v.isMap := by
  cases v with
  | other kind => cases kind <;> decide
  | _ => rfl

/-- The maps at their addresses. -/
abbrev Heap := Address → String → Option Value

/-- The heap where the map at an address has a value under a key. -/
def Heap.put (h : Heap) (a : Address) (key : String) (v : Value) : Heap :=
  fun a' key' => if a' = a ∧ key' = key then some v else h a' key'

theorem Heap.put_self (h : Heap) (a : Address) (key : String) (v : Value) :
    h.put a key v a key = some v :=
  if_pos ⟨rfl, rfl⟩

/-- Nothing else changes. -/
theorem Heap.put_of_ne {h : Heap} {a a' : Address} {key key' : String} {v : Value}
    (hne : ¬(a' = a ∧ key' = key)) : h.put a key v a' key' = h a' key' :=
  if_neg hne

/-! ## Functions -/

/-- Why a render fails. -/
inductive Failure where
  /-- The text is not made of actions. -/
  | unreadable
  /-- The conditionals are not balanced. -/
  | unbalanced
  /-- A test gave no truth value. -/
  | test
  /-- A function was called with arguments that it does not take. -/
  | call (f : Function)
  deriving DecidableEq, Repr

/-- What the functions of a renderer do. -/
abbrev Functions := Function → List Value → Heap → Except Failure (Value × Heap)

/-- What is known of the functions, as far as they are called with maps, lists and strings. Looking for
a key in what is not a map fails the render. -/
structure ActsOnPlainMaps (fn : Functions) : Prop where
  kindIs : ∀ kind v h, fn .kindIs [.text kind, v] h = .ok (.boolean (v.kind = kind), h)
  hasKey : ∀ a key h, fn .hasKey [.map a, .text key] h = .ok (.boolean (h a key).isSome, h)
  hasKey_fails : ∀ v key h, v.isMap = false → ∃ e, fn .hasKey [v, .text key] h = .error e
  /-- A key that the map does not have leads to no value, which is not a failure yet. -/
  index : ∀ a key h, fn .index [.map a, .text key] h = .ok ((h a key).getD .nil, h)
  /-- Further keys are looked for in what the first one leads to. -/
  index_more : ∀ a key key' h, fn .index [.map a, .text key, .text key'] h
    = fn .index [(h a key).getD .nil, .text key'] h
  index_fails : ∀ v key h, v.isMap = false → ∃ e, fn .index [v, .text key] h = .error e
  set : ∀ a key v h, fn .set [.map a, .text key, v] h = .ok (.map a, h.put a key v)
  append : ∀ items v h, fn .append [.list items, v] h = .ok (.list (items ++ [v]), h)
  append_fails : ∀ v w h, (∀ items, v ≠ .list items) → ∃ e, fn .append [v, w] h = .error e

/-- What a list of keys leads to from a value on. -/
def Heap.follow (h : Heap) : Value → List Value → Except Failure Value
  | v, [] => .ok v
  | .map a, .text key :: more => h.follow ((h a key).getD .nil) more
  | _, _ => .error (.call .index)

/-- Functions that act on plain maps. -/
def plainFunctions : Functions
  | .kindIs, [.text kind, v], h => .ok (.boolean (v.kind = kind), h)
  | .hasKey, [.map a, .text key], h => .ok (.boolean (h a key).isSome, h)
  | .index, v :: keys, h => (h.follow v keys).map fun found => (found, h)
  | .set, [.map a, .text key, v], h => .ok (.map a, h.put a key v)
  | .append, [.list items, v], h => .ok (.list (items ++ [v]), h)
  | f, _, _ => .error (.call f)

/-- There are functions that act so, and they can be run. -/
theorem plainFunctions_actsOnPlainMaps : ActsOnPlainMaps plainFunctions where
  kindIs _ _ _ := rfl
  hasKey _ _ _ := rfl
  hasKey_fails v key h hv := by
    cases v with
    | map a => cases hv
    -- all but a map fail
    | _ => exact ⟨_, rfl⟩
  index _ _ _ := rfl
  index_more _ _ _ _ := rfl
  index_fails v key h hv := by
    cases v with
    | map a => cases hv
    | _ => exact ⟨_, rfl⟩
  set _ _ _ _ := rfl
  append _ _ _ := rfl
  append_fails v w h hv := by
    cases v with
    | list items => exact absurd rfl (hv items)
    | _ => exact ⟨_, rfl⟩

/-! ## Actions -/

section

variable (fn : Functions) (c : Value)

mutual

/-- The value of an expression for a context, and the heap after its evaluation. -/
def Expr.eval : Expr → Heap → Except Failure (Value × Heap)
  | .context, h => .ok (c, h)
  | .literal s, h => .ok (.text s, h)
  | .call f args, h => do
    let (values, h) ← evalAll args h
    fn f values h

/-- The values of operands, from left to right. -/
def evalAll : List Expr → Heap → Except Failure (List Value × Heap)
  | [], h => .ok ([], h)
  | e :: es, h => do
    let (v, h) ← e.eval h
    let (values, h) ← evalAll es h
    .ok (v :: values, h)

end

theorem Expr.eval_literal (s : String) (h : Heap) : (Expr.literal s).eval fn c h = .ok (.text s, h) :=
  rfl

theorem Expr.eval_call (f : Function) (args : List Expr) (h : Heap) :
    (Expr.call f args).eval fn c h = evalAll fn c args h >>= fun (values, h) => fn f values h :=
  rfl

theorem evalAll_nil (h : Heap) : evalAll fn c [] h = .ok ([], h) :=
  rfl

theorem evalAll_cons (e : Expr) (es : List Expr) (h : Heap) :
    evalAll fn c (e :: es) h = e.eval fn c h >>= fun (v, h) =>
      evalAll fn c es h >>= fun (values, h) => .ok (v :: values, h) :=
  rfl

/-- The truth value of a test. Tests of tracking code are Boolean; what other values count as is left
open, so they are a failure here. -/
def Expr.check (e : Expr) (h : Heap) : Except Failure (Bool × Heap) := do
  match ← e.eval fn c h with
  | (.boolean b, h) => .ok (b, h)
  | _ => .error .test

/-- How far a conditional has come. -/
inductive Progress where
  /-- Its present part is run. -/
  | running
  /-- No part of it has been run yet. -/
  | waiting
  /-- A part of it has been run, or the conditional stands in a part that is not run. -/
  | finished
  deriving DecidableEq, Repr

/-- Whether actions are run inside the open conditionals, of which the innermost is the first. -/
def active : List Progress → Bool
  | [] => true
  | .running :: _ => true
  | _ => false

/-- The part of a conditional that begins with a test of the given outcome. -/
def Progress.ofTest (b : Bool) : Progress :=
  if b then running else waiting

/-- What one action does. -/
def Action.step (blocks : List Progress) (h : Heap) :
    Action → Except Failure (List Progress × Heap)
  | .ifThen e =>
    if active blocks then do
      let (b, h) ← e.check fn c h
      .ok (.ofTest b :: blocks, h)
    else .ok (.finished :: blocks, h)
  | .elseIf e =>
    match blocks with
    | .waiting :: around => do
      let (b, h) ← e.check fn c h
      .ok (.ofTest b :: around, h)
    | _ :: around => .ok (.finished :: around, h)
    | [] => .error .unbalanced
  | .otherwise =>
    match blocks with
    | .waiting :: around => .ok (.running :: around, h)
    | _ :: around => .ok (.finished :: around, h)
    | [] => .error .unbalanced
  | .finish =>
    match blocks with
    | _ :: around => .ok (around, h)
    | [] => .error .unbalanced
  | .evaluate e =>
    if active blocks then do
      let (_, h) ← e.eval fn c h
      .ok (blocks, h)
    else .ok (blocks, h)

namespace Action

/-- In a block that runs, an action is evaluated. -/
theorem step_evaluate {blocks : List Progress} (hblocks : active blocks = true) (e : Expr)
    (h : Heap) :
    (evaluate e).step fn c blocks h = (e.eval fn c h >>= fun r => .ok (blocks, r.2)) :=
  if_pos hblocks

/-- In a block that does not run, it is passed over. -/
theorem step_evaluate_inactive {blocks : List Progress} (hblocks : active blocks = false) (e : Expr)
    (h : Heap) : (evaluate e).step fn c blocks h = .ok (blocks, h) :=
  if_neg (by simp [hblocks])

theorem step_ifThen {blocks : List Progress} (hblocks : active blocks = true) (e : Expr) (h : Heap) :
    (ifThen e).step fn c blocks h
      = (e.check fn c h >>= fun r => .ok (.ofTest r.1 :: blocks, r.2)) :=
  if_pos hblocks

/-- A conditional in a part that is not run is finished from the start. -/
theorem step_ifThen_inactive {blocks : List Progress} (hblocks : active blocks = false) (e : Expr)
    (h : Heap) : (ifThen e).step fn c blocks h = .ok (.finished :: blocks, h) :=
  if_neg (by simp [hblocks])

theorem step_elseIf (around : List Progress) (e : Expr) (h : Heap) :
    (elseIf e).step fn c (.waiting :: around) h
      = (e.check fn c h >>= fun r => .ok (.ofTest r.1 :: around, r.2)) := rfl

end Action

/-- The heap after the actions. -/
def execute (blocks : List Progress) (h : Heap) : List Action → Except Failure Heap
  | [] => if blocks.isEmpty then .ok h else .error .unbalanced
  | a :: rest => do
    let (blocks, h) ← a.step fn c blocks h
    execute blocks h rest

/-- The heap after a text is rendered with a context. -/
def evaluate (text : String) (h : Heap) : Except Failure Heap :=
  match actions? text.toList with
  | some actions => execute fn c [] h actions
  | none => .error .unreadable

/-- What code stands for: the heap after its tests and what they lead to. -/
def Code.run : Code → Heap → Except Failure Heap
  | .skip, h => .ok h
  | .record place collection id, h => do
    let (_, h) ← (recordExpr place collection id).eval fn c h
    .ok h
  | .branch test yes no, h => do
    let (b, h) ← test.expr.check fn c h
    if b then yes.run h else no.run h

/-! ## Control flow -/

mutual

/-- In a part that is not run, code does nothing. Induction on the code; its own conditionals are
finished from the start. -/
theorem execute_skip (code : Code) {blocks : List Progress} (hblocks : active blocks = false)
    (h : Heap) (rest : List Action) :
    execute fn c blocks h (code.actions ++ rest) = execute fn c blocks h rest := by
  match code with
  | .skip => rfl
  | .record place collection id =>
    rw [Code.actions, List.cons_append, execute, Action.step_evaluate_inactive fn c hblocks]
    rfl
  | .branch test yes no =>
    -- its test is not asked, and neither part is run
    rw [Code.actions, List.cons_append, List.append_assoc, List.append_assoc, execute,
      Action.step_ifThen_inactive fn c hblocks]
    show execute fn c (.finished :: blocks) h _ = _
    rw [execute_skip yes rfl, execute_skip_else no]
    rfl

/-- What happens otherwise is passed over once a part of the conditional has been run. -/
theorem execute_skip_else (code : Code) {around : List Progress} (h : Heap) (rest : List Action) :
    execute fn c (.finished :: around) h (code.elseActions ++ rest)
      = execute fn c (.finished :: around) h rest := by
  match code with
  | .skip => rfl
  | .record place collection id => rfl
  | .branch test yes no =>
    rw [Code.elseActions, List.cons_append, List.append_assoc, execute]
    show execute fn c (.finished :: around) h _ = _
    rw [execute_skip yes rfl, execute_skip_else no]

end

/-- After the part that was run, the conditional is left without anything else. -/
theorem execute_leave (code : Code) {around : List Progress} (h : Heap) (rest : List Action) :
    execute fn c (.running :: around) h (code.elseActions ++ ([.finish] ++ rest))
      = execute fn c around h rest := by
  cases code with
  | skip => rfl
  | record place collection id => rfl
  | branch test yes no =>
    rw [Code.elseActions, List.cons_append, List.append_assoc, execute]
    show execute fn c (.finished :: around) h _ = _
    rw [execute_skip fn c yes rfl, execute_skip_else]
    rfl

/-- Behind a test, the part that it leads to is run and the other one is passed over. -/
theorem execute_parts {yes no : Code} {around : List Progress}
    (hyes : ∀ h rest, execute fn c (.running :: around) h (yes.actions ++ rest)
      = (yes.run fn c h >>= fun h => execute fn c (.running :: around) h rest))
    (hno : ∀ h rest, execute fn c (.waiting :: around) h (no.elseActions ++ ([.finish] ++ rest))
      = (no.run fn c h >>= fun h => execute fn c around h rest))
    (b : Bool) (h : Heap) (rest : List Action) :
    execute fn c (.ofTest b :: around) h (yes.actions ++ (no.elseActions ++ ([.finish] ++ rest)))
      = ((if b then yes.run fn c h else no.run fn c h) >>= fun h => execute fn c around h rest) := by
  cases b with
  | true =>
    -- the test holds: the first part is run, and the second is passed over
    show execute fn c (.running :: around) h _ = yes.run fn c h >>= _
    rw [hyes]
    congr 1
    funext h
    exact execute_leave fn c no h rest
  | false =>
    -- the test fails: it is the other way round
    show execute fn c (.waiting :: around) h _ = no.run fn c h >>= _
    rw [execute_skip fn c yes rfl]
    exact hno h rest

mutual

/-- Running the actions of code is running the code. Induction on the code, at the same time for what
happens otherwise, where the conditional is still waiting. -/
theorem execute_actions (code : Code) {blocks : List Progress} (hblocks : active blocks = true)
    (h : Heap) (rest : List Action) :
    execute fn c blocks h (code.actions ++ rest)
      = (code.run fn c h >>= fun h => execute fn c blocks h rest) := by
  match code with
  | .skip => rfl
  | .record place collection id =>
    rw [Code.actions, List.cons_append, execute, Action.step_evaluate fn c hblocks, Code.run,
      bind_assoc, bind_assoc]
    rfl
  | .branch test yes no =>
    rw [Code.actions, List.cons_append, List.append_assoc, List.append_assoc, execute,
      Action.step_ifThen fn c hblocks, Code.run, bind_assoc, bind_assoc]
    -- both sides begin with the test, so its outcome decides
    congr 1
    funext ⟨b, h⟩
    exact execute_parts fn c (execute_actions yes rfl) (execute_elseActions no) b h rest

/-- Behind a test that failed, the rest of the code is run up to the end of its block. -/
theorem execute_elseActions (code : Code) {around : List Progress} (h : Heap) (rest : List Action) :
    execute fn c (.waiting :: around) h (code.elseActions ++ ([.finish] ++ rest))
      = (code.run fn c h >>= fun h => execute fn c around h rest) := by
  match code with
  | .skip => rfl
  | .record place collection id =>
    -- `else` makes the waiting conditional run
    rw [Code.elseActions, List.cons_append, execute, Code.run, bind_assoc]
    show execute fn c (.running :: around) h (.evaluate _ :: ([.finish] ++ rest)) = _
    rw [execute]
    rw [Action.step_evaluate fn c (show active (.running :: around) = true from rfl), bind_assoc]
    rfl
  | .branch test yes no =>
    -- `else if` asks its test without a conditional of its own, so the same `end` serves both
    rw [Code.elseActions, List.cons_append, List.append_assoc, execute, Action.step_elseIf, Code.run,
      bind_assoc, bind_assoc]
    congr 1
    funext ⟨b, h⟩
    exact execute_parts fn c (execute_actions yes rfl) (execute_elseActions no) b h rest

end

/-- Rendering the text of code is running the code. -/
theorem evaluate_text {code : Code} {opening : String}
    (hopening : opening = openBraces ∨ opening = trimBraces) (h : Heap) :
    evaluate fn c (code.text opening) h = code.run fn c h := by
  -- the actions are those of the code, and nothing comes behind them
  have hexecute : execute fn c [] h (code.actions ++ [])
      = (code.run fn c h >>= fun h => execute fn c [] h []) :=
    execute_actions fn c code rfl h []
  rw [List.append_nil] at hexecute
  unfold evaluate
  rw [actions?_text hopening]
  show execute fn c [] h code.actions = _
  rw [hexecute]
  exact bind_pure _

end

end TemplateCoverage.Template
