import TemplateCoverage.Proofs.Template.TraceState

/-!
# Finding the trace state

The tracking code of a body should record its ID in the state of the context, or else in a state under
one of the wrapper keys, and otherwise do nothing: `Tracks`. It does not always, since the first wrapper
key that the context has ends the search.

* **`tracks_of_reaches`**, **`reaches_of_tracks`**: the two directions, for whatever comes to what
  `Heap.search` says.
* **`trackingCall_tracks_iff`**: the code does what it should exactly where what it reaches is a state,
  and the first wrapper key leads to a state if any of them does (`Reaches`).
* **`trackingCall_misses_second_key`**: a context where a state under the second key is not found.
-/

namespace TemplateCoverage.Template

/-! ## What the code should do -/

/-- What the tracking code of a branch should come to for a context: where the context holds a state,
the ID is added to it; where it does not, but holds a state under one of the keys, the ID is added to
such a state; and otherwise the heap stays as it is. The render fails in no case. -/
structure Tracks (keys : List String) (b : Branch) (h : Heap) (c : Value)
    (result : Except Failure Heap) : Prop where
  onContext : ∀ s, h.Holds c s → result = .ok (h.record s b.kind.collection b.id)
  underKey : (¬∃ s, h.Holds c s) → (∃ key ∈ keys, ∃ s, h.Exposes c key s) →
    ∃ key ∈ keys, ∃ s, h.Exposes c key s ∧ result = .ok (h.record s b.kind.collection b.id)
  nowhere : (¬∃ s, h.Holds c s) → (¬∃ key ∈ keys, ∃ s, h.Exposes c key s) → result = .ok h

/-- The map at an address is one where the code does what it should: what it has under the key of the
state is a state, if anything; and if it has nothing there, the first of the keys that it has leads to
a state if any of them does, and to nothing that is not a state. -/
structure Reaches (keys : List String) (h : Heap) (a : Address) : Prop where
  own : h.Genuine (.map a)
  first : h a stateKey = none → ∀ key v, h.firstKey? a keys = some key → h a key = some v →
    h.Genuine v ∧ ((∃ key' ∈ keys, ∃ s, h.Exposes (.map a) key' s) → ∃ s, h.Holds v s)

/-- Outside of the code that runs with the root context, the text of the tracking code is that of
tolerant code. -/
theorem evaluate_trackingCall {fn : Functions} (hf : ActsOnPlainMaps fn) {b : Branch}
    (hb : b.kind = .helper ∨ b.define ≠ none) (keys : List String) (c : Value) (h : Heap) :
    (evaluate fn c (trackingCall keys b) h).toOption
      = h.search c b.kind.collection b.id keys := by
  -- a helper, or a branch in a body, does not get the strict code
  have hcode : trackingCode keys b = tolerantTracking keys b.kind.collection b.id := by
    unfold trackingCode
    rw [if_neg]
    rintro ⟨hkind, hdefine⟩
    rcases hb with hhelper | hscoped
    · rw [hkind] at hhelper
      cases hhelper
    · exact hscoped hdefine
  have hopening : (if b.trimLeft then trimBraces else openBraces) = openBraces
      ∨ (if b.trimLeft then trimBraces else openBraces) = trimBraces := by
    cases b.trimLeft with
    | true => exact .inr rfl
    | false => exact .inl rfl
  unfold trackingCall
  rw [evaluate_text fn c hopening, hcode]
  exact run_tolerantTracking hf keys b.kind.collection b.id

/-- A result is known by what it is if there is one. -/
theorem eq_ok_iff {α : Type} {x : Except Failure α} {a : α} : x = .ok a ↔ x.toOption = some a := by
  cases x with
  | error e =>
    constructor
    · intro h
      cases h
    · intro h
      cases h
  | ok a' =>
    constructor
    · intro h
      cases h
      rfl
    · intro h
      cases h
      rfl

namespace Heap

variable {h : Heap}

/-- Without a state that it holds, a context that has the key of the state cannot be served. -/
theorem not_tracks_of_not_holds {keys : List String} {b : Branch} {c v : Value}
    {result : Except Failure Heap} (htracks : Tracks keys b h c result)
    (hc : ¬∃ s, h.Holds c s) (hv : ¬∃ s, h.Holds v s)
    (hresult : result.toOption = h.record? v b.kind.collection b.id) : False := by
  -- nothing is recorded under the value, but the statement asks for a record or for an unchanged heap
  by_cases hkeys : ∃ key ∈ keys, ∃ s, h.Exposes c key s
  · obtain ⟨key, -, s, hexposes, hok⟩ := htracks.underKey hc hkeys
    rw [eq_ok_iff.mp hok] at hresult
    obtain ⟨a, v', -, -, hholds⟩ := hexposes
    obtain ⟨a', -, -, hstate⟩ := hholds
    exact (record?_of_not_holds hv hresult.symm).2 s hstate rfl
  · rw [eq_ok_iff.mp (htracks.nowhere hc hkeys)] at hresult
    exact (record?_of_not_holds hv hresult.symm).1 rfl

/-- Without the mark there is no state. -/
theorem not_holds_of_not_marked {v : Value} (hv : h.marked v = false) : ¬∃ s, h.Holds v s := by
  rintro ⟨s, hs⟩
  rw [hs.marked] at hv
  cases hv

theorem marked_map {a : Address} : h.marked (.map a) = (h a stateKey).isSome := rfl

/-- A marked map is where the search ends. -/
theorem search_of_marked {a : Address} (ha : h.marked (.map a) = true) (collection id : String)
    (keys : List String) :
    h.search (.map a) collection id keys = h.record? (.map a) collection id :=
  if_pos ha

/-- Without the mark the search goes on to the keys. -/
theorem search_of_not_marked {a : Address} (ha : h.marked (.map a) = false) (collection id : String)
    (keys : List String) :
    h.search (.map a) collection id keys = h.visitUnder a collection id keys :=
  if_neg (by simp [ha])

/-- It goes to the first key that is there, whatever is under it. -/
theorem visitUnder_of_firstKey? {a : Address} {keys : List String} {key : String} {v : Value}
    (hkey : h.firstKey? a keys = some key) (hv : h a key = some v) (collection id : String) :
    h.visitUnder a collection id keys = h.visit v collection id := by
  unfold visitUnder
  rw [hkey]
  simp only [hv, Option.getD_some]

/-- The first key is one of the keys, and the map has it. -/
theorem exists_of_firstKey? {a : Address} {keys : List String} {key : String}
    (hkey : h.firstKey? a keys = some key) : key ∈ keys ∧ ∃ v, h a key = some v := by
  have hsome := List.find?_some (p := fun key => (h a key).isSome) hkey
  exact ⟨List.mem_of_find?_eq_some hkey, Option.isSome_iff_exists.mp hsome⟩

/-- If the map has none of the keys, then nothing is exposed. -/
theorem not_exposes_of_firstKey? {a : Address} {keys : List String}
    (hkey : h.firstKey? a keys = none) : ¬∃ key ∈ keys, ∃ s, h.Exposes (.map a) key s := by
  rintro ⟨key, hmem, s, a', v, heq, hv, -⟩
  cases heq
  have hnone := List.find?_eq_none.mp hkey key hmem
  rw [hv] at hnone
  exact hnone rfl

end Heap

/-- Where the search reaches what it should, the code does what it should. -/
theorem tracks_of_reaches {keys : List String} {b : Branch} {h : Heap} {a : Address}
    {result : Except Failure Heap}
    (hresult : result.toOption = h.search (.map a) b.kind.collection b.id keys)
    (hreaches : Reaches keys h a) : Tracks keys b h (.map a) result := by
  cases ha : h.marked (.map a) with
  | true =>
    -- the context holds a state itself, so the other two demands are empty
    obtain ⟨s, hs⟩ := hreaches.own ha
    rw [Heap.search_of_marked ha, hs.record?_eq] at hresult
    refine ⟨?_, fun hnot => absurd ⟨s, hs⟩ hnot, fun hnot => absurd ⟨s, hs⟩ hnot⟩
    intro s' hs'
    rw [← hs.unique hs']
    exact eq_ok_iff.mpr hresult
  | false =>
    rw [Heap.search_of_not_marked ha] at hresult
    have hnot := Heap.not_holds_of_not_marked ha
    cases hkey : h.firstKey? a keys with
    | none =>
      -- no wrapper key is there, so nothing is exposed and nothing is done
      have hnone := Heap.not_exposes_of_firstKey? hkey
      have hok : result = .ok h := by
        rw [eq_ok_iff, hresult, Heap.visitUnder, hkey]
      exact ⟨fun s hs => absurd ⟨s, hs⟩ hnot, fun _ hkeys => absurd hkeys hnone, fun _ _ => hok⟩
    | some key =>
      obtain ⟨hmem, v, hv⟩ := Heap.exists_of_firstKey? hkey
      have habsent : h a stateKey = none :=
        Option.isNone_iff_eq_none.mp (Option.isSome_eq_false_iff.mp ha)
      obtain ⟨hgenuine, hfirst⟩ := hreaches.first habsent key v hkey hv
      rw [Heap.visitUnder_of_firstKey? hkey hv, Heap.visit] at hresult
      refine ⟨fun s hs => absurd ⟨s, hs⟩ hnot, ?_, ?_⟩
      · intro _ hkeys
        obtain ⟨s, hs⟩ := hfirst hkeys
        rw [if_pos hs.marked, hs.record?_eq] at hresult
        exact ⟨key, hmem, s, ⟨a, v, rfl, hv, hs⟩, eq_ok_iff.mpr hresult⟩
      · -- a marked value would be a state, and the key would expose it
        intro _ hkeys
        have hmarked : h.marked v = false := by
          rw [Bool.eq_false_iff]
          intro hmarked
          obtain ⟨s, hs⟩ := hgenuine hmarked
          exact hkeys ⟨key, hmem, s, a, v, rfl, hv, hs⟩
        rw [hmarked] at hresult
        exact eq_ok_iff.mpr hresult

/-- The code does what it should only where the search reaches what it should. -/
theorem reaches_of_tracks {keys : List String} {b : Branch} {h : Heap} {a : Address}
    {result : Except Failure Heap}
    (hresult : result.toOption = h.search (.map a) b.kind.collection b.id keys)
    (htracks : Tracks keys b h (.map a) result) : Reaches keys h a := by
  constructor
  · intro ha
    rw [Heap.search_of_marked ha] at hresult
    apply Classical.byContradiction
    intro hnot
    exact Heap.not_tracks_of_not_holds htracks hnot hnot hresult
  · intro habsent key v hkey hv
    have ha : h.marked (.map a) = false := by
      rw [Heap.marked_map, habsent]
      rfl
    have hnot := Heap.not_holds_of_not_marked ha
    rw [Heap.search_of_not_marked ha, Heap.visitUnder_of_firstKey? hkey hv, Heap.visit] at hresult
    -- what is under the first key and looks like a state is taken for one
    have hgenuine : h.Genuine v := by
      intro hmarked
      rw [if_pos hmarked] at hresult
      apply Classical.byContradiction
      intro hv
      exact Heap.not_tracks_of_not_holds htracks hnot hv hresult
    refine ⟨hgenuine, ?_⟩
    intro hkeys
    apply hgenuine
    apply Classical.byContradiction
    intro hmarked
    -- nothing is added under the first key, although a state is there to add to
    obtain ⟨key', -, s, hexposes, hok⟩ := htracks.underKey hnot hkeys
    obtain ⟨a', v', -, -, a'', -, -, hstate⟩ := hexposes
    rw [if_neg hmarked, eq_ok_iff.mp hok] at hresult
    exact hstate.record_ne b.kind b.id (Option.some.inj hresult)

/-- **Where tolerant tracking finds the state.** For every list of keys, every branch of a helper file
or inside of a body, and every context, rendering the tracking code adds the ID to the state that the
context exposes, does nothing where it exposes none, and never fails, exactly if the search reaches
what it should. A context that is not a map is always served. -/
theorem trackingCall_tracks_iff {fn : Functions} (hf : ActsOnPlainMaps fn) (keys : List String)
    {b : Branch} (hb : b.kind = .helper ∨ b.define ≠ none) (c : Value) (h : Heap) :
    Tracks keys b h c (evaluate fn c (trackingCall keys b) h)
      ↔ ∀ a, c = .map a → Reaches keys h a := by
  have hresult := evaluate_trackingCall hf hb keys c h
  constructor
  · rintro htracks a rfl
    exact reaches_of_tracks hresult htracks
  · intro hreaches
    -- anything that is not a map has neither a state nor keys
    cases c with
    | map a => exact tracks_of_reaches hresult (hreaches a rfl)
    | _ =>
      have hok := eq_ok_iff.mpr hresult
      refine ⟨?_, ?_, fun _ _ => hok⟩
      · rintro s ⟨a, heq, -⟩
        cases heq
      · rintro - ⟨key, -, s, a, v, heq, -⟩
        cases heq

/-- The context at the address 0 has the given entries, the one at 1 holds the trace state at 2. -/
def wrappedRoot (entries : List (String × Value)) : Heap
  | 0, key => entries.lookup key
  | 1, key => if key = stateKey then some (.map 2) else none
  | 2, key => if key = "files" ∨ key = "helpers" then some (.list []) else none
  | _, _ => none

/-- The branch of `end` in a helper file whose only line is a body with the name `x`. -/
def bodyBranch : Branch :=
  { trigger := .endBlock, define := some "x", tokenLine := 1, column := 17, occurrence := 1
    startLine := 1, endLine := 1, decisionLine := 1, trimLeft := false
    id := "templates/_h.tpl:x:L1", file := "templates/_h.tpl", kind := .helper }

theorem holds_wrappedRoot (entries : List (String × Value)) :
    (wrappedRoot entries).Holds (.map 1) 2 := by
  refine ⟨1, rfl, rfl, ?_⟩
  intro kind
  cases kind with
  | template => exact ⟨[], rfl⟩
  | helper => exact ⟨[], rfl⟩

/-- Under the second key the state is found where the context does not have the first one. -/
theorem trackingCall_finds_second_key :
    ActsOnPlainMaps plainFunctions ∧ (bodyBranch.kind = .helper ∨ bodyBranch.define ≠ none)
      ∧ Tracks ["context", "root"] bodyBranch (wrappedRoot [("root", .map 1)]) (.map 0)
          (evaluate plainFunctions (.map 0) (trackingCall ["context", "root"] bodyBranch)
            (wrappedRoot [("root", .map 1)])) := by
  refine ⟨plainFunctions_actsOnPlainMaps, .inl rfl, ?_⟩
  apply (trackingCall_tracks_iff plainFunctions_actsOnPlainMaps ["context", "root"] (.inl rfl)
    (.map 0) (wrappedRoot [("root", .map 1)])).mpr
  rintro a heq
  cases heq
  constructor
  · intro hmarked
    cases hmarked
  · -- the first key is not there, so the second one is the first that is
    rintro - key v hkey hv
    cases hkey
    cases hv
    have hholds := holds_wrappedRoot [("root", .map 1)]
    exact ⟨fun _ => ⟨2, hholds⟩, fun _ => ⟨2, hholds⟩⟩

/-- The context has a string under the first key, and the root context under the second one, so the
state is exposed there. The code does nothing, since the search ends with the first key. -/
theorem trackingCall_misses_second_key :
    (wrappedRoot [("context", .text "x"), ("root", .map 1)]).Exposes (.map 0) "root" 2
      ∧ (evaluate plainFunctions (.map 0) (trackingCall ["context", "root"] bodyBranch)
          (wrappedRoot [("context", .text "x"), ("root", .map 1)])).toOption
        = some (wrappedRoot [("context", .text "x"), ("root", .map 1)])
      ∧ ¬Tracks ["context", "root"] bodyBranch
          (wrappedRoot [("context", .text "x"), ("root", .map 1)]) (.map 0)
          (evaluate plainFunctions (.map 0) (trackingCall ["context", "root"] bodyBranch)
            (wrappedRoot [("context", .text "x"), ("root", .map 1)])) := by
  have hexposes : (wrappedRoot [("context", .text "x"), ("root", .map 1)]).Exposes (.map 0) "root" 2 :=
    ⟨0, .map 1, rfl, rfl, holds_wrappedRoot _⟩
  -- the first key is there and holds a text, so the search ends without a record
  have hresult : (evaluate plainFunctions (.map 0) (trackingCall ["context", "root"] bodyBranch)
        (wrappedRoot [("context", .text "x"), ("root", .map 1)])).toOption
      = some (wrappedRoot [("context", .text "x"), ("root", .map 1)]) :=
    evaluate_trackingCall plainFunctions_actsOnPlainMaps (.inl rfl) ["context", "root"] (.map 0) _
  refine ⟨hexposes, hresult, ?_⟩
  intro htracks
  obtain ⟨key, -, s, hs, hok⟩ := htracks.underKey
    (Heap.not_holds_of_not_marked rfl) ⟨"root", by decide, 2, hexposes⟩
  obtain ⟨a, v, -, -, a', -, -, hstate⟩ := hs
  rw [eq_ok_iff.mp hok] at hresult
  exact hstate.record_ne bodyBranch.kind bodyBranch.id (Option.some.inj hresult)

end TemplateCoverage.Template
