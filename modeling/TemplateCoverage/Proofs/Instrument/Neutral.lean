import TemplateCoverage.Proofs.Scan.Laminar
import TemplateCoverage.Proofs.Scan.WellNested
import TemplateCoverage.Proofs.Template.Control

/-!
# Inserted code and the blocks around it

The code that is inserted in a file has control tokens of its own. They are those of whole blocks, so that
a scan of the instrumented file closes the same blocks of the source text as a scan of the source text.

* **`wellNested_code`**: the control tokens of code are well nested, by induction over the code.
* **`Neutral`**: what is open before a text is open behind it, nothing is noted, and what follows is scanned
  as if the text were not there. Well-nested tokens do this (`neutral_of_spells`).
* **`Agrees.run`**: two states in which the same is open find the same, up to the counting of arms.
* **`inserted_neutral`**: the code of every branch is neutral, and the code in front of a file. The code
  behind it has no control tokens.
-/

namespace TemplateCoverage

open Template

/-! ## Well-nested code -/

namespace HasKinds

theorem nil {ts : List Token} (h : HasKinds ts []) : ts = [] :=
  List.map_eq_nil_iff.mp h.kinds

theorem cons {ts : List Token} {kind : TokenKind} {kinds : List TokenKind}
    (h : HasKinds ts (kind :: kinds)) :
    ∃ t us, ts = t :: us ∧ t.kind = kind ∧ t.inString = false ∧ HasKinds us kinds := by
  obtain ⟨t, us, rfl, hkind, hkinds⟩ := List.map_eq_cons_iff.mp h.kinds
  obtain ⟨ht, hus⟩ := List.forall_mem_cons.mp h.outside
  exact ⟨t, us, rfl, hkind, ht, hkinds, hus⟩

theorem split {ts : List Token} {ks ls : List TokenKind} (h : HasKinds ts (ks ++ ls)) :
    ∃ us vs, ts = us ++ vs ∧ HasKinds us ks ∧ HasKinds vs ls := by
  obtain ⟨us, vs, rfl, hks, hls⟩ := List.map_eq_append_iff.mp h.kinds
  obtain ⟨hus, hvs⟩ := List.forall_mem_append.mp h.outside
  exact ⟨us, vs, rfl, ⟨hks, hus⟩, ⟨hls, hvs⟩⟩

end HasKinds

/-- The control tokens of code are well nested. As what happens otherwise, they go on behind the arm of a
test, up to the end of its block. Induction over the code. -/
theorem wellNested_code (code : Code) {scope : Option String} :
    (∀ ts, HasKinds ts code.kinds → ∃ cs, WellNested False .body scope ts cs)
      ∧ ∀ (start decision : Nat) (arm : List Token) (cs : List Closing) (ts : List Token),
        WellNested False .body scope arm cs → HasKinds ts (code.elseKinds ++ [.endBlock]) →
        ∃ ds, WellNested False (.arm start decision) scope (arm ++ ts) ds := by
  induction code with
  | skip =>
    constructor
    · intro ts hts
      rw [hts.nil]
      exact ⟨_, .empty⟩
    · intro start decision arm cs ts harm hts
      obtain ⟨e, us, rfl, hend, he, hus⟩ := hts.cons
      rw [hus.nil]
      exact ⟨_, .finish harm he hend⟩
  | record place collection id =>
    constructor
    · intro ts hts
      rw [hts.nil]
      exact ⟨_, .empty⟩
    · intro start decision arm cs ts harm hts
      -- a record tests nothing, so it is a last arm, without blocks of its own
      obtain ⟨t, us, rfl, helse, ht, hus⟩ := hts.cons
      obtain ⟨e, vs, rfl, hend, he, hvs⟩ := hus.cons
      rw [hvs.nil]
      exact ⟨_, .next harm ht (.inl helse) (.finish .empty he hend)⟩
  | branch test yes no ihyes ihno =>
    constructor
    · intro ts hts
      -- the first arm is the code where the test holds, and the others go on behind it
      obtain ⟨t, us, rfl, hkind, ht, hus⟩ := hts.cons
      obtain ⟨ys, ns, rfl, hys, hns⟩ := hus.split
      obtain ⟨cs, hyes⟩ := ihyes.1 ys hys
      obtain ⟨ds, harms⟩ := ihno.2 t.line t.line ys cs ns hyes hns
      have hblock := WellNested.block ht hkind harms .empty
      rw [List.append_nil] at hblock
      exact ⟨_, hblock⟩
    · intro start decision arm cs ts harm hts
      have hkinds : (Code.branch test yes no).elseKinds ++ [.endBlock]
          = .elseIfArm :: (yes.kinds ++ (no.elseKinds ++ [.endBlock])) := by
        simp [Code.elseKinds]
      rw [hkinds] at hts
      obtain ⟨t, us, rfl, helse, ht, hus⟩ := hts.cons
      obtain ⟨ys, ns, rfl, hys, hns⟩ := hus.split
      obtain ⟨ds, hyes⟩ := ihyes.1 ys hys
      obtain ⟨es, harms⟩ := ihno.2 t.line decision ys ds ns hyes hns
      exact ⟨_, .next harm ht (.inr helse) harms⟩

/-! ## States in which the same is open -/

/-- A finding without the place of an arm on its line. -/
def Finding.uncounted : Finding → Finding
  | .arm a => .arm { a with occurrence := 0 }
  | .note n => .note n

namespace Nesting

/-- The same is open in both states. -/
structure Agrees (s s' : Nesting) : Prop where
  frames : s.frames = s'.frames
  define : s.define = s'.define

variable {s s' : Nesting}

theorem Agrees.close (h : s.Agrees s') (n : Nat) :
    (s.close n).1 = (s'.close n).1 ∧ (s.close n).2.Agrees (s'.close n).2 := by
  obtain ⟨frames, define, countedLine, counted⟩ := s
  obtain ⟨frames', define', countedLine', counted'⟩ := s'
  obtain ⟨rfl, rfl⟩ := h
  cases frames with
  | nil => exact ⟨rfl, rfl, rfl⟩
  | cons frame outer =>
    -- the floor is that of the body, which is the same
    have hfloor : floor ⟨frame :: outer, define, countedLine, counted⟩
        = floor ⟨frame :: outer, define, countedLine', counted'⟩ := rfl
    unfold Nesting.close
    dsimp only
    rw [hfloor]
    by_cases habove : floor ⟨frame :: outer, define, countedLine', counted'⟩ < (frame :: outer).length
    · rw [if_pos habove, if_pos habove]
      exact ⟨rfl, rfl, rfl⟩
    · rw [if_neg habove, if_neg habove]
      exact ⟨rfl, rfl, rfl⟩

/-- Where the same is open, a token finds the same, and the same is open behind it. -/
theorem Agrees.step (file : String) (t : Token) (h : s.Agrees s') :
    (s.step file t).1.Agrees (s'.step file t).1
      ∧ (s.step file t).2.map Finding.uncounted = (s'.step file t).2.map Finding.uncounted := by
  obtain ⟨hframe, hclosed⟩ := h.close t.line
  -- two states that agree up to their counts do the same with a token, and differ only in how they number its
  -- arm
  have hstray : s.strayNotes file t = s'.strayNotes file t := by
    unfold strayNotes isStray
    rw [h.frames, h.define]
  have harm : ∀ f, Finding.uncounted (.arm (s.armOf t f)) = Finding.uncounted (.arm (s'.armOf t f)) := by
    intro f
    unfold armOf Finding.uncounted
    rw [h.define]
  have hfound : (s.strayNotes file t ++ [Finding.arm (s.armOf t (s.close t.line).1)]).map
        Finding.uncounted
      = (s'.strayNotes file t ++ [Finding.arm (s'.armOf t (s'.close t.line).1)]).map
        Finding.uncounted := by
    rw [List.map_append, List.map_append, hstray, hframe, List.map_singleton, List.map_singleton, harm]
  cases t.role with
  | evaluated ht =>
    rw [step_evaluated ht, step_evaluated ht]
    exact ⟨h, rfl⟩
  | opener ht word hkind =>
    rw [step_opener ht hkind, step_opener ht hkind]
    exact ⟨⟨congrArg (List.cons _) h.frames, h.define⟩, rfl⟩
  | define ht name hkind =>
    rw [step_define ht hkind, step_define ht hkind, h.define, h.frames]
    exact ⟨⟨rfl, rfl⟩, rfl⟩
  | next ht hkind =>
    rw [step_next ht hkind, step_next ht hkind]
    refine ⟨⟨?_, hclosed.define⟩, hfound⟩
    rw [hframe]
    exact congrArg (List.cons _) hclosed.frames
  | finish ht hkind =>
    rw [step_finish ht hkind, step_finish ht hkind, h.define, h.frames]
    refine ⟨?_, hfound⟩
    split
    · exact ⟨hclosed.frames, rfl⟩
    · exact ⟨hclosed.frames, hclosed.define⟩

/-- Where the same is open, a stream finds the same. Induction on the stream. -/
theorem Agrees.run (file : String) {ts : List Token} (h : s.Agrees s') :
    (s.run file ts).1.Agrees (s'.run file ts).1
      ∧ (s.run file ts).2.map Finding.uncounted = (s'.run file ts).2.map Finding.uncounted := by
  induction ts generalizing s s' with
  | nil => exact ⟨h, rfl⟩
  | cons t ts ih =>
    obtain ⟨hnext, hfound⟩ := h.step file t
    obtain ⟨hlast, hmore⟩ := ih hnext
    rw [run_cons, run_cons]
    exact ⟨hlast, by rw [List.map_append, List.map_append, hfound, hmore]⟩

/-- Every run covers the floor of the open body. -/
theorem floored_run (file : String) {s : Nesting} (h : s.Floored) (ts : List Token) :
    (s.run file ts).1.Floored := by
  induction ts generalizing s with
  | nil => exact h
  | cons t ts ih => exact ih (openLines_step file t h).2

end Nesting

/-! ## Neutral texts -/

/-- The control tokens of the text are in no string. Whatever is open in front of them is open behind them,
a scan notes nothing of them, and what it finds later is what it would find without them, up to the counting
of arms. -/
structure Neutral (evaluators : List String) (text : String) : Prop where
  outside : ∀ number, ∀ t ∈ tokensOfLine evaluators text.toList number, t.inString = false
  kept : ∀ (number : Nat) (file : String) (s : Nesting), s.Floored →
    (s.run file (tokensOfLine evaluators text.toList number)).1.Agrees s
  unnoted : ∀ (number : Nat) (file : String) (s : Nesting), s.Floored →
    Finding.notes (s.run file (tokensOfLine evaluators text.toList number)).2 = []
  later : ∀ (number : Nat) (file : String) (s : Nesting) (ts : List Token), s.Floored →
    ((s.run file (tokensOfLine evaluators text.toList number)).1.run file ts).2.map Finding.uncounted
      = (s.run file ts).2.map Finding.uncounted

/-- A text that spells whole blocks is neutral. The blocks stand in the open body, above its floor. -/
theorem neutral_of_spells (evaluators : List String) {text : String} {kinds : List TokenKind}
    (h : Spells text kinds)
    (hnested : ∀ scope ts, HasKinds ts kinds → ∃ cs, WellNested False .body scope ts cs) :
    Neutral evaluators text := by
  have htokens : ∀ number, HasKinds (tokensOfLine evaluators text.toList number) kinds :=
    fun number => hasKinds_of_spells h evaluators number
  -- a well nested text leaves the frames and the body that it found, whatever is open around it
  have hshows : ∀ (number : Nat) (file : String) (s : Nesting), s.Floored →
      ∃ cs, s.Shows file (tokensOfLine evaluators text.toList number) cs s.frames s.define := by
    intro number file s hfloored
    obtain ⟨cs, hcs⟩ := hnested (s.define.map (·.name)) _ (htokens number)
    have hscope : Nesting.InScope s.define (s.define.map (·.name)) s.frames := by
      refine ⟨rfl, fun d hd => ?_⟩
      unfold Nesting.Floored Nesting.floor at hfloored
      rwa [Option.mem_def.mp hd] at hfloored
    exact ⟨cs, Nesting.shows_of_wellNested file hcs s s.frames s.define rfl rfl hscope⟩
  have hkept : ∀ (number : Nat) (file : String) (s : Nesting), s.Floored →
      (s.run file (tokensOfLine evaluators text.toList number)).1.Agrees s := by
    intro number file s hfloored
    obtain ⟨cs, hcs⟩ := hshows number file s hfloored
    exact ⟨hcs.frames, hcs.define⟩
  refine ⟨fun number => (htokens number).outside, hkept, fun number file s hfloored => ?_,
    fun number file s ts hfloored => ((hkept number file s hfloored).run file).2⟩
  obtain ⟨cs, hcs⟩ := hshows number file s hfloored
  have hnone : (tokensOfLine evaluators text.toList number).filter (·.inString) = [] :=
    List.filter_eq_nil_iff.mpr fun t ht => by simp [(htokens number).outside t ht]
  rw [hcs.notes, evaluatedNotes, hnone]
  rfl

/-- **Inserted code is neutral.** Where neither the keys nor the ID of a branch hold opening braces, its
tracking code closes the blocks that it opens and no others, whatever the branch, the keys and the evaluators
are, and whatever a scan has open in front of it. So does the code that sets up the trace state. The code that
prints it has no control tokens. The floor of the open body is covered in every state of a scan. -/
theorem inserted_neutral (evaluators : List String) :
    (∀ (keys : List String) (b : Branch), (∀ key ∈ keys, ¬HoldsBraces key) → ¬HoldsBraces b.id →
        Neutral evaluators (trackingCall keys b))
      ∧ Neutral evaluators initCall
      ∧ (∀ number, tokensOfLine evaluators reportCall.toList number = [])
      ∧ ∀ file tokens, (Nesting.run file {} tokens).1.Floored := by
  refine ⟨fun keys b hkeys hid => ?_, ?_, fun number => ?_, fun file tokens => ?_⟩
  · refine neutral_of_spells evaluators (spells_trackingCall hkeys hid) fun scope ts hts => ?_
    exact (wellNested_code (trackingCode keys b)).1 ts hts
  · refine neutral_of_spells evaluators spells_initCall fun scope ts hts => ?_
    -- the call in front is one block with nothing in it
    obtain ⟨t, us, rfl, hkind, ht, hus⟩ := hts.cons
    obtain ⟨e, vs, rfl, hend, he, hvs⟩ := hus.cons
    rw [hvs.nil]
    exact ⟨_, .block ht hkind (.finish .empty he hend) .empty⟩
  · -- the call behind the source ends its line, and has no keyword in it
    obtain ⟨s, hreport, hspells⟩ := spells_reportCall
    have hline := tokensOfLine_of_spells hspells evaluators number
      (fun c hc => .inl (List.mem_singleton.mp hc) : ∀ c ∈ ['\n'], c = '\n' ∨ c = '\r')
    rw [hreport, String.toList_append]
    exact hline.nil
  · exact Nesting.floored_run file (Nat.zero_le _) tokens

/-- A branch in a body, whose ID holds a quote, single braces and a backslash. -/
def quotedBranch : Branch :=
  { trigger := .endBlock, define := some "a", tokenLine := 3, column := 0, occurrence := 1, startLine := 2
    endLine := 2, decisionLine := 2, trimLeft := true, id := "templates/\"\x7ba\x7d\x7d\\.yaml:L3"
    file := "templates/\"\x7ba\x7d\x7d\\.yaml", kind := .template }

/-- Keys and an ID with quotes, backslashes and braces, on a line with calls of an evaluator. The code has
the tokens of its blocks, and a scan that is in a body goes on where it was. -/
theorem inserted_neutral_quotedBranch :
    let keys := ["a\"b", "c\\", "\x7b", "\x7d\x7d"]
    let tokens := tokensOfLine ["index"] (trackingCall keys quotedBranch).toList 3
    let s : Nesting := { frames := [⟨2, 2⟩, ⟨1, 1⟩], define := some ⟨"a", 1, 1⟩ }
    tokens.length = 24
      ∧ (s.run "a.yaml" tokens).1.Agrees s
      ∧ Finding.notes (s.run "a.yaml" tokens).2 = [] := by
  intro keys tokens s
  have hkeys : ∀ key ∈ keys, ¬HoldsBraces key := by decide +kernel
  have hid : ¬HoldsBraces quotedBranch.id := by decide +kernel
  have hneutral := (inserted_neutral ["index"]).1 keys quotedBranch hkeys hid
  -- within a body and two blocks
  have hfloored : s.Floored := Nat.le_succ 1
  have hkinds : HasKinds tokens (trackingCode keys quotedBranch).kinds :=
    hasKinds_of_spells (spells_trackingCall hkeys hid) ["index"] 3
  have hlength : tokens.length = 24 := by
    rw [← List.length_map, hkinds.kinds]
    rfl
  exact ⟨hlength, hneutral.kept 3 "a.yaml" s hfloored, hneutral.unnoted 3 "a.yaml" s hfloored⟩

end TemplateCoverage
