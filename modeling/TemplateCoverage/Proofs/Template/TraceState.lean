import TemplateCoverage.Instrument
import TemplateCoverage.Proofs.Template.Semantics

/-!
# Trace states and the search for them

A trace state is a map with a list for each kind of file, and a map holds it under the key of the state.
Tracking code adds an ID to such a list. This module says what the code comes to for a context, as a
function of the heap.

* **`Heap.Holds`**, **`Heap.Exposes`**: where a state can be found, from a context.
* **`Heap.search`**: what the code does. It looks at the context and then at the value of the first
  wrapper key that the context has, and takes for a state what is under the key of the state.
* **`run_tolerantTracking`**: the code comes to what `Heap.search` says.
-/

namespace TemplateCoverage.Template

/-! ## Trace states -/

/-- The address of a map. -/
def Value.address? : Value → Option Address
  | .map a => some a
  | _ => none

/-- The elements of a list. -/
def Value.items? : Value → Option (List Value)
  | .list items => some items
  | _ => none

/-- A value with an address is a map. -/
theorem Value.eq_map_of_address? {v : Value} {a : Address} (h : v.address? = some a) : v = .map a := by
  cases v with
  | map a' =>
    cases h
    rfl
  | _ => cases h

/-- A value with items is a list. -/
theorem Value.eq_list_of_items? {v : Value} {items : List Value} (h : v.items? = some items) :
    v = .list items := by
  cases v with
  | list items' =>
    cases h
    rfl
  | _ => cases h

/-- What is there is found, if it is not the value that stands for nothing. -/
theorem Value.eq_some_of_getD_nil {o : Option Value} {v : Value} (h : o.getD .nil = v)
    (hv : v ≠ .nil) : o = some v := by
  cases o with
  | none => exact absurd h.symm hv
  | some w => rw [← h, Option.getD_some]

namespace Heap

variable (h : Heap)

/-- The map at an address is a trace state: it has both lists. -/
def IsState (s : Address) : Prop :=
  ∀ kind : FileKind, ∃ items, h s kind.collection = some (.list items)

/-- The value is a map that holds the trace state at an address. -/
def Holds (v : Value) (s : Address) : Prop :=
  ∃ a, v = .map a ∧ h a stateKey = some (.map s) ∧ h.IsState s

/-- The context is a map, and its value under a key is a map that holds the trace state at an
address. -/
def Exposes (c : Value) (key : String) (s : Address) : Prop :=
  ∃ a v, c = .map a ∧ h a key = some v ∧ h.Holds v s

/-- The heap where an ID was added to the end of a list of the state at an address. -/
def record (s : Address) (collection id : String) : Heap :=
  match h s collection with
  | some (.list items) => h.put s collection (.list (items ++ [.text id]))
  | _ => h

/-- Whether a value is a map with the key of the state. -/
def marked : Value → Bool
  | .map a => (h a stateKey).isSome
  | _ => false

/-- What a map holds under the key of the state, if anything, is a trace state. -/
def Genuine (v : Value) : Prop :=
  h.marked v = true → ∃ s, h.Holds v s

/-- The heap after an ID was added where a value has its state, unless the render fails on the way:
the value is not a map, there is no map under the key of the state, or no list in that map. -/
def record? (v : Value) (collection id : String) : Option Heap := do
  let a ← v.address?
  let s ← ((h a stateKey).getD .nil).address?
  let items ← ((h s collection).getD .nil).items?
  some (h.put s collection (.list (items ++ [.text id])))

/-- The same for a value that need not be marked. -/
def visit (v : Value) (collection id : String) : Option Heap :=
  if h.marked v then h.record? v collection id else some h

/-- The first of the keys that a map has. -/
def firstKey? (a : Address) (keys : List String) : Option String :=
  keys.find? fun key => (h a key).isSome

/-- The heap after the state was looked for under the given keys of a map. -/
def visitUnder (a : Address) (collection id : String) (keys : List String) : Option Heap :=
  match h.firstKey? a keys with
  | some key => h.visit ((h a key).getD .nil) collection id
  | none => some h

/-- The heap after the state was looked for in a context. -/
def search (c : Value) (collection id : String) (keys : List String) : Option Heap :=
  match c with
  | .map a =>
    if h.marked (.map a) then h.record? (.map a) collection id
    else h.visitUnder a collection id keys
  | _ => some h

variable {h}

/-- A value holds at most one trace state. -/
theorem Holds.unique {v : Value} {s s' : Address} (hs : h.Holds v s) (hs' : h.Holds v s') :
    s = s' := by
  obtain ⟨a, rfl, hstate, -⟩ := hs
  obtain ⟨a', heq, hstate', -⟩ := hs'
  cases heq
  rw [hstate] at hstate'
  cases hstate'
  rfl

/-- Where the state is, its mark is. -/
theorem Holds.marked {v : Value} {s : Address} (hs : h.Holds v s) : h.marked v = true := by
  obtain ⟨a, rfl, hstate, -⟩ := hs
  show (h a stateKey).isSome = true
  rw [hstate]
  rfl

/-- To record is to put the ID behind those that are there. -/
theorem IsState.record_eq {s : Address} (hs : h.IsState s) (kind : FileKind) (id : String) :
    ∃ items, h s kind.collection = some (.list items)
      ∧ h.record s kind.collection id
          = h.put s kind.collection (.list (items ++ [.text id])) := by
  obtain ⟨items, hitems⟩ := hs kind
  refine ⟨items, hitems, ?_⟩
  unfold record
  rw [hitems]

/-- A value that holds a state gets its ID there. -/
theorem Holds.record?_eq {v : Value} {s : Address} (hs : h.Holds v s) (kind : FileKind)
    (id : String) : h.record? v kind.collection id = some (h.record s kind.collection id) := by
  obtain ⟨a, rfl, hstate, hlists⟩ := hs
  obtain ⟨items, hitems, hrecord⟩ := hlists.record_eq kind id
  unfold record?
  rw [hrecord]
  simp only [Value.address?, hstate, hitems, Option.getD_some, Value.items?, bind, Option.bind]

/-- A list with one more element is another list. -/
theorem list_append_ne (items : List Value) (v : Value) :
    some (Value.list (items ++ [v])) ≠ some (.list items) := by
  intro heq
  have hitems : items ++ [v] = items := Value.list.inj (Option.some.inj heq)
  have hlen := congrArg List.length hitems
  rw [List.length_append, List.length_singleton] at hlen
  omega

/-- Adding an ID changes the state. -/
theorem IsState.record_ne {s : Address} (hs : h.IsState s) (kind : FileKind) (id : String) :
    h.record s kind.collection id ≠ h := by
  obtain ⟨items, hitems, hrecord⟩ := hs.record_eq kind id
  intro heq
  have hhere := congrFun (congrFun heq s) kind.collection
  rw [hrecord, put_self, hitems] at hhere
  exact list_append_ne items _ hhere

/-- Where the value of a key is changed, there was a list under it. -/
theorem record?_eq_some {v : Value} {collection id : String} {h' : Heap}
    (hrec : h.record? v collection id = some h') :
    ∃ a s items, v = .map a ∧ h a stateKey = some (.map s) ∧ h s collection = some (.list items)
      ∧ h' = h.put s collection (.list (items ++ [.text id])) := by
  obtain ⟨a, ha, hrec⟩ := Option.bind_eq_some_iff.mp hrec
  obtain ⟨s, hs, hrec⟩ := Option.bind_eq_some_iff.mp hrec
  obtain ⟨items, hitems, hrec⟩ := Option.bind_eq_some_iff.mp hrec
  refine ⟨a, s, items, Value.eq_map_of_address? ha, ?_, ?_, (Option.some.inj hrec).symm⟩
  · exact Value.eq_some_of_getD_nil (Value.eq_map_of_address? hs) Value.noConfusion
  · exact Value.eq_some_of_getD_nil (Value.eq_list_of_items? hitems) Value.noConfusion

/-- If what a value has under the key of the state is not a trace state, then adding an ID there is not
what the code should do: it is neither nothing nor adding the ID to a trace state. -/
theorem record?_of_not_holds {v : Value} {kind : FileKind} {id : String} {h' : Heap}
    (hv : ¬∃ s, h.Holds v s) (hrec : h.record? v kind.collection id = some h') :
    h' ≠ h ∧ ∀ s, h.IsState s → h' ≠ h.record s kind.collection id := by
  obtain ⟨a, s, items, rfl, hstate, hitems, rfl⟩ := record?_eq_some hrec
  constructor
  · -- the list under the key of the state has grown
    intro heq
    have hhere := congrFun (congrFun heq s) kind.collection
    rw [put_self, hitems] at hhere
    exact list_append_ne items _ hhere
  · intro s' hs' heq
    obtain ⟨items', hitems', hrecord⟩ := hs'.record_eq kind id
    by_cases hsame : s = s'
    · -- the same map would be a trace state after all
      subst hsame
      exact hv ⟨s, a, rfl, hstate, hs'⟩
    · -- the other state changes elsewhere
      have hhere := congrFun (congrFun heq s) kind.collection
      rw [hrecord, put_self, put_of_ne fun hand => hsame hand.1, hitems] at hhere
      exact list_append_ne items _ hhere

end Heap

/-! ## The outcome of the code -/

section

variable {fn : Functions} (hf : ActsOnPlainMaps fn) {c : Value} {h : Heap}

include hf

theorem eval_under (a : Address) (key : String) (h : Heap) :
    (Place.under key).expr.eval fn (.map a) h = .ok ((h a key).getD .nil, h) :=
  hf.index a key h

/-- A place with a given value is asked whether the value is a map. -/
theorem check_isMap {place : Place} {v : Value} (hplace : place.expr.eval fn c h = .ok (v, h)) :
    (Test.isMap place).expr.check fn c h = .ok (v.isMap, h) := by
  have hcall : (Test.isMap place).expr.eval fn c h = fn .kindIs [.text "map", v] h := by
    simp only [Test.expr, Expr.eval_call, evalAll_cons, evalAll_nil, Expr.eval_literal, hplace, bind,
      Except.bind]
  rw [hf.kindIs, v.decide_kind_eq_map] at hcall
  unfold Expr.check
  rw [hcall]
  rfl

/-- A place whose value is a map is asked for a key of it. -/
theorem check_hasKey {place : Place} {a : Address}
    (hplace : place.expr.eval fn c h = .ok (.map a, h)) (key : String) :
    (Test.hasKey place key).expr.check fn c h = .ok ((h a key).isSome, h) := by
  have hcall : (Test.hasKey place key).expr.eval fn c h = fn .hasKey [.map a, .text key] h := by
    simp only [Test.expr, Expr.eval_call, evalAll_cons, evalAll_nil, Expr.eval_literal, hplace, bind,
      Except.bind]
  rw [hf.hasKey] at hcall
  unfold Expr.check
  rw [hcall]
  rfl

/-- A key is found in a map, and nowhere else. -/
theorem index_toOption (v : Value) (key : String) (h : Heap) :
    (fn .index [v, .text key] h).toOption
      = v.address?.map fun a => ((h a key).getD .nil, h) := by
  cases hv : v.isMap with
  | true =>
    cases v with
    | map a =>
      rw [hf.index]
      rfl
    | _ => cases hv
  | false =>
    -- only the address of a map leads anywhere
    obtain ⟨e, herror⟩ := hf.index_fails v key h hv
    rw [herror]
    cases v with
    | map a => cases hv
    | _ => rfl

/-- A value is added to a list, and to nothing else. -/
theorem append_toOption (v w : Value) (h : Heap) :
    (fn .append [v, w] h).toOption
      = v.items?.map fun items => (.list (items ++ [w]), h) := by
  cases hv : v.items? with
  | some items =>
    rw [Value.eq_list_of_items? hv, hf.append]
    rfl
  | none =>
    -- nothing can be put behind the items of a value that has none
    obtain ⟨e, herror⟩ := hf.append_fails v w h fun items heq => by
      rw [heq] at hv
      cases hv
    rw [herror]
    rfl

omit hf in
/-- A result that is there comes from results that are there. -/
theorem toOption_bind {α β : Type} (x : Except Failure α) (f : α → Except Failure β) :
    (x >>= f).toOption = x.toOption.bind fun a => (f a).toOption := by
  cases x with
  | error e => rfl
  | ok a => rfl

omit hf in
/-- The steps of adding an ID: the old list is found, the new one is made and put in its place. -/
theorem run_record_eq {place : Place} {v state : Value}
    (hplace : place.expr.eval fn c h = .ok (v, h))
    (hstate : fn .index [v, .text stateKey] h = .ok (state, h)) (collection id : String) :
    (Code.record place collection id).run fn c h = (do
      let (old, h) ← fn .index [v, .text stateKey, .text collection] h
      let (new, h) ← fn .append [old, .text id] h
      let (_, h) ← fn .set [state, .text collection, new] h
      .ok h) := by
  show ((recordExpr place collection id).eval fn c h >>= _) = _
  simp only [recordExpr, Expr.eval_call, evalAll_cons, evalAll_nil, Expr.eval_literal, hplace, hstate, bind,
    Except.bind]
  -- the old list is read, the new one made, and that put in its place
  cases fn .index [v, .text stateKey, .text collection] h with
  | error e => rfl
  | ok old =>
    cases hnew : fn .append [old.1, .text id] old.2 with
    | error e => simp only [hnew]
    | ok new => simp only [hnew]

/-- Adding an ID to the list that a value has in its state. It fails unless there is such a list. -/
theorem run_record {place : Place} {v : Value} (hplace : place.expr.eval fn c h = .ok (v, h))
    (collection id : String) :
    ((Code.record place collection id).run fn c h).toOption = h.record? v collection id := by
  unfold Heap.record?
  cases ha : v.address? with
  | none =>
    -- the first look under the key of the state fails already
    have hstate := index_toOption hf v stateKey h
    rw [ha] at hstate
    cases hindex : fn .index [v, .text stateKey] h with
    | ok r =>
      rw [hindex] at hstate
      cases hstate
    | error e =>
      show ((recordExpr place collection id).eval fn c h >>= _).toOption = _
      simp only [recordExpr, Expr.eval_call, evalAll_cons, evalAll_nil, Expr.eval_literal, hplace, hindex, bind,
        Except.bind]
      rfl
  | some a =>
    -- the value is a map, so what it has under the key of the state decides, and then the list
    have hv := Value.eq_map_of_address? ha
    subst hv
    rw [run_record_eq hplace (hf.index a stateKey h), hf.index_more, toOption_bind,
      index_toOption hf]
    show _ = (((h a stateKey).getD .nil).address?.bind _)
    cases hs : ((h a stateKey).getD .nil).address? with
    | none => rfl
    | some s =>
      rw [Value.eq_map_of_address? hs]
      show (fn .append [(h s collection).getD .nil, .text id] h >>= _).toOption
        = ((h s collection).getD .nil).items?.bind _
      rw [toOption_bind, append_toOption hf]
      cases ((h s collection).getD .nil).items? with
      | none => rfl
      | some items =>
        show (fn .set [.map s, .text collection, .list (items ++ [.text id])] h >>= _).toOption = _
        rw [hf.set]
        rfl

omit hf in
/-- A test decides which part is run. -/
theorem run_branch {test : Test} {b : Bool} (hcheck : test.expr.check fn c h = .ok (b, h))
    (yes no : Code) :
    (Code.branch test yes no).run fn c h = if b then yes.run fn c h else no.run fn c h := by
  show (test.expr.check fn c h >>= _) = _
  rw [hcheck]
  rfl

/-- The code for one place adds the ID if the place is a map with the key of the state. -/
theorem run_visit {place : Place} {v : Value} (hplace : place.expr.eval fn c h = .ok (v, h))
    (collection id : String) :
    ((Code.branch (.isMap place)
        (.branch (.hasKey place stateKey) (.record place collection id) .skip) .skip).run
          fn c h).toOption = h.visit v collection id := by
  rw [run_branch (check_isMap hf hplace)]
  cases v with
  | map a =>
    -- a map is visited only if it has the mark
    rw [run_branch (check_hasKey hf hplace stateKey)]
    show Except.toOption (if (h a stateKey).isSome then _ else _)
      = if (h a stateKey).isSome then _ else _
    rw [← run_record hf hplace collection id]
    cases (h a stateKey).isSome with
    | true => rfl
    | false => rfl
  | _ => rfl

/-- The code for the wrapper keys adds the ID under the first of them that the context has. Induction
on the keys: a key that the context does not have is passed over. -/
theorem run_wrapperTracking (a : Address) (collection id : String) (keys : List String) :
    ((wrapperTracking collection id keys).run fn (.map a) h).toOption
      = h.visitUnder a collection id keys := by
  unfold Heap.visitUnder Heap.firstKey?
  induction keys with
  | nil => rfl
  | cons key keys ih =>
    have hcheck : (Test.hasKey .root key).expr.check fn (.map a) h = .ok ((h a key).isSome, h) :=
      check_hasKey hf rfl key
    rw [wrapperTracking, run_branch hcheck, List.find?_cons]
    -- the context has the key: the search ends here, whatever is found
    cases (h a key).isSome with
    | true => exact run_visit hf (eval_under hf a key h) collection id
    | false => exact ih

/-- What the code does for a context: it adds the ID there if the context has the key of the state, and
otherwise under the first wrapper key of it. -/
theorem run_tolerantTracking (keys : List String) (collection id : String) :
    ((tolerantTracking keys collection id).run fn c h).toOption = h.search c collection id keys := by
  unfold tolerantTracking Heap.search
  have hmap : (Test.isMap .root).expr.check fn c h = .ok (c.isMap, h) := check_isMap hf rfl
  rw [run_branch hmap]
  cases c with
  | map a =>
    -- a map with the mark is the state itself, and one without it is searched
    have hcheck : (Test.hasKey .root stateKey).expr.check fn (.map a) h
        = .ok ((h a stateKey).isSome, h) := check_hasKey hf rfl stateKey
    show Except.toOption ((Code.branch (.hasKey .root stateKey) _ _).run fn (.map a) h)
      = if (h a stateKey).isSome then _ else _
    rw [run_branch hcheck]
    cases (h a stateKey).isSome with
    | true => exact run_record hf rfl collection id
    | false => exact run_wrapperTracking hf a collection id keys
  | _ => rfl

end

end TemplateCoverage.Template
