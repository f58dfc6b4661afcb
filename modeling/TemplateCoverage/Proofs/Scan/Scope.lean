import Mathlib.Tactic.TFAE
import TemplateCoverage.Instrument
import TemplateCoverage.Proofs.Scan.WellNested

/-!
# Named bodies inside one another

The machine remembers one named body. A body that is opened inside another one replaces it, and at the
`end` of the inner body nothing is left to go back to. So the rest of the outer body, with its own
`end` at the latest, is scanned as if it stood in no body.

* **`bodyFree_or_define_run`**: whatever was remembered before, nothing is remembered after a
  well-nested stream that opens a body. An innermost body is always closed by its own `end`, since the
  frames around it are out of its reach.
* **`shallow_or_forgotten`**: the induction over a derivation. If every arm of a body has a name, then
  no body stands in another one, except that the last arms of an outer body may still be to come.
* **`scopes_tfae`**: on a well-nested stream, the scopes are right exactly if no body stands in
  another one.
-/

namespace TemplateCoverage

/-- The token opens a named body. -/
def Token.OpensBody (t : Token) : Prop :=
  t.inString = false ∧ ∃ name, t.kind = .define name

instance : (kind : TokenKind) → Decidable (∃ name, kind = .define name)
  | .define name => isTrue ⟨name, rfl⟩
  | .opener _ | .elseArm | .elseIfArm | .endBlock => isFalse fun ⟨_, h⟩ => nomatch h

instance (t : Token) : Decidable t.OpensBody :=
  inferInstanceAs (Decidable (_ ∧ _))

/-- No token opens a named body. -/
def BodyFree (tokens : List Token) : Prop :=
  ∀ t ∈ tokens, ¬t.OpensBody

instance (tokens : List Token) : Decidable (BodyFree tokens) :=
  inferInstanceAs (Decidable (∀ t ∈ tokens, ¬t.OpensBody))

theorem BodyFree.of_cons {t : Token} {ts : List Token} (h : BodyFree (t :: ts)) : BodyFree ts :=
  fun u hu => h u (List.mem_cons_of_mem t hu)

/-- Tokens without bodies can be put together and taken apart. -/
theorem bodyFree_append {ts us : List Token} :
    BodyFree (ts ++ us) ↔ BodyFree ts ∧ BodyFree us :=
  List.forall_mem_append

theorem bodyFree_cons {t : Token} {ts : List Token} :
    BodyFree (t :: ts) ↔ ¬t.OpensBody ∧ BodyFree ts :=
  List.forall_mem_cons

/-- What is evaluated opens no body. -/
theorem not_opensBody_of_inString {t : Token} (ht : t.inString = true) : ¬t.OpensBody := by
  rintro ⟨hin, -⟩
  rw [ht] at hin
  cases hin

theorem not_opensBody_of_opens {t : Token} (ht : t.kind.opens = true) : ¬t.OpensBody := by
  rintro ⟨-, name, hkind⟩
  rw [hkind] at ht
  cases ht

/-- What closes an arm opens no body. -/
theorem not_opensBody_of_yields {t : Token} (ht : t.yields = true) : ¬t.OpensBody := by
  rintro ⟨-, name, hkind⟩
  simp [Token.yields, TokenKind.closesArm, hkind] at ht

/-- Without a body there is none inside another one. -/
theorem WellNested.shallow {deep : Prop} {level : Level} {scope : Option String}
    {tokens : List Token} {closings : List Closing}
    (h : WellNested deep level scope tokens closings) (hfree : BodyFree tokens) :
    WellNested False level scope tokens closings := by
  induction h with
  | empty => exact .empty
  | evaluated ht _ ih => exact .evaluated ht (ih hfree.of_cons)
  | block ht hkind _ _ iharms ihrest =>
    obtain ⟨harms, hrest⟩ := bodyFree_append.mp hfree
    exact .block ht hkind (iharms harms.of_cons) (ihrest hrest)
  | @define _ t _ name _ _ _ _ _ ht hkind _ _ _ _ _ _ =>
    -- there is no body that could hold another one
    exact absurd ⟨ht, name, hkind⟩ (hfree t (List.mem_cons_self ..))
  | finish _ he hend ih => exact .finish (ih (bodyFree_append.mp hfree).1) he hend
  | next _ he helse _ ihbody ihrest =>
    obtain ⟨hbody, hrest⟩ := bodyFree_append.mp hfree
    exact .next (ihbody hbody) he helse (ihrest hrest.of_cons)

namespace Nesting

/-! ## What is remembered of a body -/

/-- To close an arm is not to leave the body that it is in. -/
theorem define_close (s : Nesting) (line : Nat) : (s.close line).2.define = s.define := by
  unfold close
  split
  · split <;> rfl
  · rfl

theorem define_closed (s : Nesting) (t : Token) : (s.closed t).define = s.define :=
  s.define_close t.line

/-- Only a token that opens a body makes the machine remember one. -/
theorem define_step_of_none (file : String) {s : Nesting} {t : Token} (ht : ¬t.OpensBody)
    (hs : s.define = none) : (s.step file t).1.define = none := by
  -- only a token that opens a body can make a difference, and an `end` that closes one leaves none
  cases t.role with
  | evaluated hin =>
    rw [step_evaluated hin]
    exact hs
  | opener hin word hkind =>
    rw [step_opener hin hkind]
    exact hs
  | define hin name hkind => exact absurd ⟨hin, name, hkind⟩ ht
  | next hin hkind =>
    rw [step_next hin hkind]
    exact (s.define_closed t).trans hs
  | finish hin hkind =>
    rw [step_finish hin hkind]
    split
    · rfl
    · exact (s.define_closed t).trans hs

/-- A run without bodies ends outside of all bodies if it began there. -/
theorem define_run_of_none (file : String) {s : Nesting} {tokens : List Token}
    (hfree : BodyFree tokens) (hs : s.define = none) : (s.run file tokens).1.define = none := by
  induction tokens generalizing s with
  | nil => exact hs
  | cons t ts ih =>
    obtain ⟨ht, hts⟩ := bodyFree_cons.mp hfree
    rw [run_cons]
    exact ih hts (define_step_of_none file ht hs)

/-- Whatever was open before, nothing is remembered behind the `end` of a named body, if that holds
behind each body inside it. -/
theorem define_run_body {file : String} {deep : Prop} {t e : Token} {name : String}
    {ts : List Token} {cs : List Closing} (ht : t.inString = false) (hkind : t.kind = .define name)
    (hbody : WellNested deep .body (some name) ts cs)
    (he : e.inString = false) (hend : e.kind = .endBlock)
    (hinner : BodyFree ts ∨ ∀ s : Nesting, (s.run file ts).1.define = none) (s : Nesting) :
    (s.run file (t :: ts ++ [e])).1.define = none := by
  have hne : ¬e.OpensBody := not_opensBody_of_yields (Token.yields_of_end he hend)
  rw [List.cons_append, run_cons, run_append, run_cons, run_nil]
  rcases hinner with hfree | hnone
  · -- an innermost body: its frames are those above its floor, and it ends with none of them
    rw [step_define ht hkind]
    have hshows := shows_of_wellNested file (hbody.shallow hfree)
      { s with define := some ⟨name, t.line, s.frames.length⟩ } s.frames _ rfl rfl
      ⟨rfl, fun d hd => by cases hd; exact Nat.le_refl _⟩
    exact (shows_terminator file he hend hshows.define (by rw [hshows.frames])).define
  · -- the body inside it has been forgotten, and it with that one
    exact define_step_of_none file hne (hnone _)

/-- A well-nested stream opens no body, or nothing is remembered behind it. Induction on the
derivation. -/
theorem bodyFree_or_define_run (file : String) {deep : Prop} {level : Level} {scope : Option String}
    {tokens : List Token} {closings : List Closing}
    (h : WellNested deep level scope tokens closings) :
    BodyFree tokens ∨ ∀ s : Nesting, (s.run file tokens).1.define = none := by
  -- induction on the nesting: once a body is closed, no body is left open, whatever comes behind
  induction h with
  | empty => exact .inl fun t ht => by cases ht
  | @evaluated _ t _ _ ht _ ih =>
    rcases ih with hfree | hnone
    · exact .inl (bodyFree_cons.mpr ⟨not_opensBody_of_inString ht, hfree⟩)
    · exact .inr fun s => hnone _
  | @block _ t _ ts us _ _ _ hkind _ _ iharms ihrest =>
    have ht : ¬t.OpensBody := not_opensBody_of_opens (by rw [hkind]; rfl)
    rcases ihrest with hrest | hrest
    · rcases iharms with harms | harms
      · exact .inl (bodyFree_append.mpr ⟨bodyFree_cons.mpr ⟨ht, harms⟩, hrest⟩)
      · refine .inr fun s => ?_
        rw [run_append]
        exact define_run_of_none file hrest (harms _)
    · refine .inr fun s => ?_
      rw [run_append]
      exact hrest _
  | @define _ t e _ ts us _ _ _ ht hkind hbody he hend _ ihbody ihrest =>
    refine .inr fun s => ?_
    rw [List.append_cons, run_append]
    rcases ihrest with hrest | hrest
    · exact define_run_of_none file hrest (define_run_body ht hkind hbody he hend ihbody s)
    · exact hrest _
  | @finish _ _ _ e _ _ _ he hend ih =>
    have hne : ¬e.OpensBody := not_opensBody_of_yields (Token.yields_of_end he hend)
    rcases ih with hfree | hnone
    · exact .inl (bodyFree_append.mpr ⟨hfree, bodyFree_cons.mpr ⟨hne, fun t ht => by cases ht⟩⟩)
    · refine .inr fun s => ?_
      rw [run_append]
      exact define_step_of_none file hne (hnone s)
  | @next _ _ _ e ts us _ _ _ he helse _ ihbody ihrest =>
    have hne : ¬e.OpensBody := not_opensBody_of_yields (Token.yields_of_else he helse)
    rcases ihrest with hrest | hrest
    · rcases ihbody with hbody | hbody
      · exact .inl (bodyFree_append.mpr ⟨hbody, bodyFree_cons.mpr ⟨hne, hrest⟩⟩)
      · refine .inr fun s => ?_
        rw [run_append]
        exact define_run_of_none file (bodyFree_cons.mpr ⟨hne, hrest⟩) (hbody s)
    · refine .inr fun s => ?_
      rw [run_append, run_cons]
      exact hrest _

/-- Where no body is remembered, none is behind a well-nested stream. -/
theorem define_run_of_wellNested (file : String) {deep : Prop} {level : Level}
    {scope : Option String} {tokens : List Token} {closings : List Closing}
    (h : WellNested deep level scope tokens closings) {s : Nesting} (hs : s.define = none) :
    (s.run file tokens).1.define = none := by
  rcases bodyFree_or_define_run file h with hfree | hnone
  · exact define_run_of_none file hfree hs
  · exact hnone s

/-! ## Arms with a name -/

/-- Each arm that stands in a named body has a name. -/
def Named (closings : List Closing) (arms : List Arm) : Prop :=
  List.Forall₂ (fun c a => c.scope ≠ none → a.define ≠ none) closings arms

/-- A naming of a list is a naming of each of its parts. -/
theorem Named.of_append {cs ds : List Closing} {as bs : List Arm} (h : Named (cs ++ ds) (as ++ bs))
    (hlen : cs.length = as.length) : Named cs as ∧ Named ds bs := by
  induction cs generalizing as with
  | nil =>
    obtain rfl := List.eq_nil_of_length_eq_zero hlen.symm
    exact ⟨.nil, h⟩
  | cons c cs ih =>
    cases as with
    | nil => cases hlen
    | cons a as =>
      obtain ⟨hhead, htail⟩ := List.forall₂_cons.mp h
      obtain ⟨hfirst, hrest⟩ := ih htail (Nat.succ.inj hlen)
      exact ⟨.cons hhead hfirst, hrest⟩

/-- The arms of two streams in a row have names exactly where those of each have. -/
theorem Named.of_run_append {file : String} {s : Nesting} {ts us : List Token}
    {cs ds : List Closing} (hcs : cs.map (·.token) = ts.filter Token.yields)
    (h : Named (cs ++ ds) (Finding.arms (s.run file (ts ++ us)).2)) :
    Named cs (Finding.arms (s.run file ts).2)
      ∧ Named ds (Finding.arms ((s.run file ts).1.run file us).2) := by
  rw [run_append, Finding.arms_append] at h
  refine h.of_append ?_
  -- both lists are as long as that of the tokens that yield an arm
  rw [(arms_run_closedBy file s ts).length_eq, ← hcs, List.length_map]

/-- After a part that shows its closings, the arms of the rest have names where those of both have. -/
theorem Shows.named_rest {file : String} {s : Nesting} {ts : List Token} {cs : List Closing}
    {frames : List Frame} {define : Option OpenDefine} (hts : Shows file s ts cs frames define)
    (us : List Token) (ds : List Closing)
    (h : Named (cs ++ ds) (Finding.arms (s.run file (ts ++ us)).2)) :
    Named ds (Finding.arms ((s.run file ts).1.run file us).2) := by
  rw [run_append, Finding.arms_append] at h
  exact (h.of_append hts.arms.length_eq).2

/-- An arm that is closed where no body is remembered has no name. -/
theorem not_named_of_forgotten {file : String} {s : Nesting} {e : Token} {c : Closing}
    {us : List Token} {ds : List Closing} (hy : e.yields = true) (hs : s.define = none)
    (hc : c.scope ≠ none) : ¬Named (c :: ds) (Finding.arms (s.run file (e :: us)).2) := by
  intro h
  rw [arms_run_cons, if_pos hy] at h
  have hname : s.define.map (·.name) ≠ none := (List.forall₂_cons.mp h).1 hc
  rw [hs] at hname
  exact hname rfl

/-- **If every arm of a body has a name, then no body stands in another one**, except that in a part
of a body an inner one may have been forgotten already. Induction on the derivation; the outer body
shows at its own `end`, if not before, that it has been forgotten. -/
theorem shallow_or_forgotten (file : String) {deep : Prop} {level : Level} {scope : Option String}
    {tokens : List Token} {closings : List Closing}
    (h : WellNested deep level scope tokens closings) :
    ∀ (s : Nesting) (outer : List Frame) (define : Option OpenDefine),
      s.frames = level.entry outer → s.define = define → InScope define scope outer →
      Named closings (Finding.arms (s.run file tokens).2) →
      WellNested False level scope tokens closings
        ∨ scope ≠ none ∧ (s.run file tokens).1.define = none := by
  induction h with
  | empty => exact fun _ _ _ _ _ _ _ => .inl .empty
  | @evaluated _ t ts cs ht _ ih =>
    intro s outer define hframes hdefine hin hnamed
    have hfirst := shows_evaluated file s ht
    have hrest := hfirst.named_rest ts cs hnamed
    rcases ih _ outer define (hfirst.frames.trans hframes) (hfirst.define.trans hdefine) hin hrest
      with hshallow | hforgotten
    · exact .inl (.evaluated ht hshallow)
    · exact .inr hforgotten
  | @block _ t _ ts us cs ds ht hkind harms hrest iharms ihrest =>
    intro s outer define hframes hdefine hin hnamed
    have hfirst := shows_opener file s ht hkind
    rw [hframes] at hfirst
    have hnamed := hfirst.named_rest (ts ++ us) (cs ++ ds) hnamed
    rw [List.cons_append, run_cons]
    rcases iharms _ outer define hfirst.frames (hfirst.define.trans hdefine) hin
      (Named.of_run_append harms.map_token hnamed).1 with hshallow | ⟨hscope, hforgotten⟩
    · have hshows := shows_of_wellNested file hshallow _ outer define hfirst.frames
        (hfirst.define.trans hdefine) hin
      rcases ihrest _ outer define hshows.frames hshows.define hin (hshows.named_rest _ _ hnamed)
        with hshallow' | ⟨hscope, hforgotten⟩
      · exact .inl (.block ht hkind hshallow hshallow')
      · refine .inr ⟨hscope, ?_⟩
        rw [run_append]
        exact hforgotten
    · refine .inr ⟨hscope, ?_⟩
      rw [run_append]
      exact define_run_of_wellNested file hrest hforgotten
  | @define scope t e name ts us cs ds hplace ht hkind hbody he hend hrest ihbody ihrest =>
    intro s outer define hframes hdefine hin hnamed
    by_cases hscope : scope = none
    · have hnone : define = none := Option.map_eq_none_iff.mp (hin.name.trans hscope)
      have hfirst := shows_define file s ht hkind (hdefine.trans hnone)
      have hlen : s.frames.length = outer.length := congrArg List.length hframes
      have hnamed := hfirst.named_rest (ts ++ e :: us)
        (cs ++ ⟨e, t.line, t.line, some name⟩ :: ds) hnamed
      have hinner : InScope (some ⟨name, t.line, s.frames.length⟩) (some name) outer :=
        ⟨rfl, fun d hd => by cases hd; exact Nat.le_of_eq hlen⟩
      obtain ⟨hnamedBody, hnamedEnd⟩ := Named.of_run_append hbody.map_token hnamed
      rcases ihbody _ outer _ (hfirst.frames.trans hframes) hfirst.define hinner hnamedBody
        with hshallow | ⟨-, hforgotten⟩
      · have hshows := shows_of_wellNested file hshallow _ outer _ (hfirst.frames.trans hframes)
          hfirst.define hinner
        have hlast := shows_terminator file he hend hshows.define (hlen.trans (by rw [hshows.frames]))
        rcases ihrest _ outer none (hlast.frames.trans hshows.frames) hlast.define
          (by rw [← hnone]; exact hin) (hlast.named_rest us ds hnamedEnd)
          with hshallow' | ⟨hne, -⟩
        · exact .inl (.define (.inl hscope) ht hkind hshallow he hend hshallow')
        · exact absurd hscope hne
      · -- a body inside this one has been forgotten, and the `end` of this one has no name
        exact absurd hnamedEnd (not_named_of_forgotten (Token.yields_of_end he hend) hforgotten
          (Option.some_ne_none name))
    · refine .inr ⟨hscope, ?_⟩
      rcases bodyFree_or_define_run file (.define hplace ht hkind hbody he hend hrest)
        with hfree | hnone
      · exact absurd ⟨ht, name, hkind⟩ (hfree t (List.mem_cons_self ..))
      · exact hnone s
  | @finish _ _ _ e _ _ hbody he hend ih =>
    intro s outer define hframes hdefine hin hnamed
    rcases ih s _ define hframes hdefine (hin.cons _)
      (Named.of_run_append hbody.map_token hnamed).1 with hshallow | ⟨hscope, hforgotten⟩
    · exact .inl (.finish hshallow he hend)
    · refine .inr ⟨hscope, ?_⟩
      rw [run_append]
      exact define_step_of_none file (not_opensBody_of_yields (Token.yields_of_end he hend))
        hforgotten
  | @next _ _ _ e _ us _ ds hbody he helse hrest ihbody ihrest =>
    intro s outer define hframes hdefine hin hnamed
    rw [run_append, run_cons]
    rcases ihbody s _ define hframes hdefine (hin.cons _)
      (Named.of_run_append hbody.map_token hnamed).1 with hshallow | ⟨hscope, hforgotten⟩
    · have hshows := shows_of_wellNested file hshallow s _ define hframes hdefine (hin.cons _)
      have harm := shows_next file he helse hshows.frames (by rw [hshows.define]; exact hin)
      have hnamed := harm.named_rest us ds (hshows.named_rest _ _ hnamed)
      rcases ihrest _ outer define harm.frames (harm.define.trans hshows.define) hin hnamed
        with hshallow' | hforgotten
      · exact .inl (.next hshallow he helse hshallow')
      · exact .inr hforgotten
    · exact .inr ⟨hscope, define_run_of_wellNested file hrest (define_step_of_none file
        (not_opensBody_of_yields (Token.yields_of_else he helse)) hforgotten)⟩

end Nesting

/-! ## Scopes and tracking code -/

open Template in
/-- Tracking code relies on the root context exactly where a template file runs outside of bodies. -/
theorem trackingCode_eq_strict_iff {wrapperKeys : List String} {b : Branch} :
    trackingCode wrapperKeys b = strictTracking b.kind.collection b.id
      ↔ b.kind = .template ∧ b.define = none := by
  unfold trackingCode
  split
  · next h => exact ⟨fun _ => h, fun _ => rfl⟩
  · next h => exact ⟨fun heq => (nomatch heq), fun hc => absurd hc h⟩

open Template in
/-- **Scopes are right exactly without bodies in bodies.** Take a well-nested stream, whatever stands
in what. The following say the same of it: no named body stands in another one; the arms of a scan are
those that the grammar describes; they carry the names that the grammar gives them; and in a template
file no arm of a body gets tracking code that relies on the root context. -/
theorem scopes_tfae (file : String) (wrapperKeys : List String) {tokens : List Token}
    {closings : List Closing} (h : WellNested True .body none tokens closings) :
    List.TFAE [
      WellNested False .body none tokens closings,
      List.Forall₂ (fun c a => a = Closing.arm c a.occurrence) closings
        (Finding.arms (scanTokens file tokens)),
      (Finding.arms (scanTokens file tokens)).map (·.define) = closings.map (·.scope),
      List.Forall₂ (fun c a => c.scope ≠ none →
          trackingCode wrapperKeys (Branch.ofArm file .template a)
            ≠ strictTracking FileKind.template.collection (Branch.pointId file .template a))
        closings (Finding.arms (scanTokens file tokens))] := by
  have hin : Nesting.InScope none none [] := ⟨rfl, fun d hd => by cases hd⟩
  rw [arms_scanTokens]
  -- in a shallow nesting each arm is the one that the nesting gives its token
  tfae_have 1 → 2 := fun hshallow =>
    (Nesting.shows_of_wellNested file hshallow {} [] none rfl rfl hin).arms
  tfae_have 2 → 3 := by
    intro harms
    rw [← List.forall₂_eq_eq_eq, List.forall₂_map_left_iff, List.forall₂_map_right_iff]
    refine harms.flip.imp fun a c hac => ?_
    rw [hac]
    rfl
  -- a branch in a body is tracked in the way that is allowed only outside of bodies if it has lost its name
  tfae_have 3 → 4 := by
    intro hnames
    rw [← List.forall₂_eq_eq_eq, List.forall₂_map_left_iff, List.forall₂_map_right_iff] at hnames
    refine hnames.flip.imp fun c a hname hscope hstrict => hscope ?_
    exact hname.symm.trans (trackingCode_eq_strict_iff.mp hstrict).2
  -- and a nesting that is not shallow has such a branch
  tfae_have 4 → 1 := by
    intro hcode
    have hnamed : Nesting.Named closings (Finding.arms (Nesting.run file {} tokens).2) :=
      hcode.imp fun c a hstrict hscope hname =>
        hstrict hscope (trackingCode_eq_strict_iff.mpr ⟨rfl, hname⟩)
    exact (Nesting.shallow_or_forgotten file h {} [] none rfl rfl hin hnamed).resolve_right
      fun hforgotten => hforgotten.1 rfl
  tfae_finish

/-- A template file with a body `b` in a body `a`, and a block in `a` behind it. -/
def nestedSource : String :=
  "\x7b\x7b define \"a\" \x7d\x7d\n\x7b\x7b block \"b\" . \x7d\x7d\n\x7b\x7b end \x7d\x7d\n"
    ++ "\x7b\x7b if .x \x7d\x7d\n\x7b\x7b end \x7d\x7d\n\x7b\x7b end \x7d\x7d\n"

/-- Its tokens. -/
def nestedTokens : List Token :=
  [⟨.define "a", 1, 0, false, .standalone, false⟩, ⟨.define "b", 2, 0, false, .standalone, false⟩,
    ⟨.endBlock, 3, 0, false, .standalone, false⟩,
    ⟨.opener .ifBlock, 4, 0, false, .standalone, false⟩,
    ⟨.endBlock, 5, 0, false, .standalone, false⟩, ⟨.endBlock, 6, 0, false, .standalone, false⟩]

/-- What its closing tokens close. -/
def nestedClosings : List Closing :=
  [⟨⟨.endBlock, 3, 0, false, .standalone, false⟩, 2, 2, some "b"⟩,
    ⟨⟨.endBlock, 5, 0, false, .standalone, false⟩, 4, 4, some "a"⟩,
    ⟨⟨.endBlock, 6, 0, false, .standalone, false⟩, 1, 1, some "a"⟩]

/-- A block in the body of another template, with a branch behind it. -/
theorem wellNested_nestedTokens : WellNested True .body none nestedTokens nestedClosings := by
  have hinner : WellNested True .body (some "a") (nestedTokens.tail.take 4) (nestedClosings.take 2) :=
    .define (.inr trivial) rfl rfl .empty rfl rfl (.block rfl rfl (.finish .empty rfl rfl) .empty)
  exact .define (.inl rfl) rfl rfl hinner rfl rfl .empty

open Template in
/-- In this stream a body stands in another one, so no statement of the list holds. -/
theorem scopes_tfae_nestedTokens :
    WellNested True .body none nestedTokens nestedClosings
      ∧ List.TFAE [
        WellNested False .body none nestedTokens nestedClosings,
        List.Forall₂ (fun c a => a = Closing.arm c a.occurrence) nestedClosings
          (Finding.arms (scanTokens "templates/cm.yaml" nestedTokens)),
        (Finding.arms (scanTokens "templates/cm.yaml" nestedTokens)).map (·.define)
          = nestedClosings.map (·.scope),
        List.Forall₂ (fun c a => c.scope ≠ none →
            trackingCode defaultWrapperKeys (Branch.ofArm "templates/cm.yaml" .template a)
              ≠ strictTracking FileKind.template.collection
                (Branch.pointId "templates/cm.yaml" .template a))
          nestedClosings (Finding.arms (scanTokens "templates/cm.yaml" nestedTokens))] :=
  ⟨wellNested_nestedTokens,
    scopes_tfae "templates/cm.yaml" defaultWrapperKeys wellNested_nestedTokens⟩

open Template in
/-- **A body in a body takes the name away from the outer one.** Behind the `end` of `b`, the block in
`a` and the `end` of `a` count as outside of bodies. The arm of the latter is its line alone, though
`a` began on the first one, and both are recorded on the root context. -/
theorem scope_lost_nestedSource :
    let arms := Finding.arms (scan ["tpl"] "templates/cm.yaml" nestedSource)
    tokensOf ["tpl"] nestedSource.toList = nestedTokens
      ∧ WellNested True .body none nestedTokens nestedClosings
      ∧ nestedClosings.map (fun c => (c.token.line, c.scope, c.start))
        = [(3, some "b", 2), (5, some "a", 4), (6, some "a", 1)]
      ∧ arms.map (fun a => (a.tokenLine, a.define, a.startLine))
        = [(3, some "b", 2), (5, none, 4), (6, none, 6)]
      ∧ ∀ a ∈ arms, a.tokenLine ≠ 3 →
        trackingCode defaultWrapperKeys (Branch.ofArm "templates/cm.yaml" .template a)
          = strictTracking FileKind.template.collection
            (Branch.pointId "templates/cm.yaml" .template a) := by
  refine ⟨by decide, wellNested_nestedTokens, rfl, by decide, ?_⟩
  decide

end TemplateCoverage
