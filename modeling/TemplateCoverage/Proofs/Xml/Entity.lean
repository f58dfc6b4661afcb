import TemplateCoverage.Proofs.Xml.Tag

/-!
# Entities

What is escaped can be read back. The reader replaces entities from left to right and never looks at what it
has replaced, so a text that spells an entity itself is not lost.

* **`unescape_escape`**: reading an escaped text gives the text.
* **`beginsEntity_of_suffix`**: an ampersand in an escaped text begins an entity.
-/

namespace TemplateCoverage.Xml

/-! ## The reader -/

/-- The predefined entities, and what they stand for. -/
def entities : List (String × Char) :=
  [("&amp;", '&'), ("&lt;", '<'), ("&gt;", '>'), ("&quot;", '"'), ("&apos;", '\'')]

/-- The entity that a text begins with. -/
def entity? (cs : List Char) : Option (String × Char) :=
  entities.find? fun e => e.1.toList.isPrefixOf cs

/-- The text behind the next `skip` characters, with each entity replaced by what it stands for. -/
def replaceEntities : Nat → List Char → List Char
  | _, [] => []
  | skip + 1, _ :: cs => replaceEntities skip cs
  | 0, c :: cs =>
    match entity? (c :: cs) with
    | some e => e.2 :: replaceEntities (e.1.length - 1) cs
    | none => c :: replaceEntities 0 cs

/-- The text with its entities replaced once, from left to right. -/
def unescape (s : String) : String :=
  String.ofList (replaceEntities 0 s.toList)

/-! ## Single characters -/

/-- A character with a meaning of its own is written as its entity, any other one as it is. -/
theorem escapeChar_cases (c : Char) :
    (∃ e ∈ entities, e.2 = c ∧ escapeChar c = e.1.toList) ∨ c ∉ special ∧ escapeChar c = [c] := by
  by_cases hc : c ∈ special
  · have hall : ∀ c ∈ special, ∃ e ∈ entities, e.2 = c ∧ escapeChar c = e.1.toList := by
      unfold special
      simp only [List.forall_mem_cons, List.not_mem_nil, false_implies, implies_true, and_true]
      decide
    exact .inl (hall c hc)
  · exact .inr ⟨hc, escapeChar_of_notMem hc⟩

/-- An entity begins with an ampersand and has no other one. -/
theorem spelling_of_mem_entities :
    ∀ e ∈ entities, e.1.toList = '&' :: e.1.toList.tail ∧ '&' ∉ e.1.toList.tail := by
  decide

/-- An entity is recognised, whatever follows. -/
theorem entity?_append {e : String × Char} (he : e ∈ entities) (rest : List Char) :
    entity? (e.1.toList ++ rest) = some e := by
  simp only [entities, List.mem_cons, List.not_mem_nil, or_false] at he
  rcases he with rfl | rfl | rfl | rfl | rfl <;> rfl

/-- Only the sign that begins an entity can begin one. -/
theorem entity?_cons {c : Char} (h : c ≠ '&') (rest : List Char) : entity? (c :: rest) = none := by
  unfold entity?
  rw [List.find?_eq_none]
  intro e he hstart
  rw [(spelling_of_mem_entities e he).1, List.isPrefixOf_cons_cons] at hstart
  simp [Ne.symm h] at hstart

/-- What a replaced entity took is skipped. -/
theorem replaceEntities_append (cs rest : List Char) :
    replaceEntities cs.length (cs ++ rest) = replaceEntities 0 rest := by
  induction cs with
  | nil => rfl
  | cons c cs ih => exact ih

/-- What is written for a character is replaced by it, whatever follows. -/
theorem replaceEntities_escapeChar (c : Char) (rest : List Char) :
    replaceEntities 0 (escapeChar c ++ rest) = c :: replaceEntities 0 rest := by
  rcases escapeChar_cases c with ⟨e, he, rfl, hc⟩ | ⟨hspecial, hc⟩
  · -- the ampersand brings the entity, and the rest of it is skipped
    have hentity := entity?_append he rest
    have hlength : e.1.length - 1 = e.1.toList.tail.length := by
      rw [List.length_tail, String.length_toList]
    rw [(spelling_of_mem_entities e he).1, List.cons_append] at hentity
    rw [hc, (spelling_of_mem_entities e he).1, List.cons_append, replaceEntities, hentity]
    dsimp only
    rw [hlength, replaceEntities_append]
  · have hampersand : c ≠ '&' := fun h => hspecial (h ▸ List.mem_cons_self)
    rw [hc, List.singleton_append, replaceEntities, entity?_cons hampersand]

/-- What begins with a character begins behind a text that lacks it. -/
theorem suffix_of_not_mem {c : Char} {cs back rest : List Char} (hc : c ∉ cs)
    (h : c :: back <:+ cs ++ rest) : c :: back <:+ rest := by
  induction cs with
  | nil => exact h
  | cons d cs ih =>
    obtain ⟨hd, hcs⟩ := List.ne_and_not_mem_of_not_mem_cons hc
    rcases List.suffix_cons_iff.mp h with heq | hsuffix
    · exact absurd (List.cons.inj heq).1 hd
    · exact ih hcs hsuffix

/-- An ampersand in what is written for a character is the first character of an entity. -/
theorem suffix_escapeChar {c : Char} {back rest : List Char} (h : '&' :: back <:+ escapeChar c ++ rest) :
    (∃ e ∈ entities, e.1.toList <+: '&' :: back) ∨ '&' :: back <:+ rest := by
  rcases escapeChar_cases c with ⟨e, he, -, hc⟩ | ⟨hspecial, hc⟩
  · obtain ⟨hfirst, hlater⟩ := spelling_of_mem_entities e he
    rw [hc, hfirst, List.cons_append] at h
    rcases List.suffix_cons_iff.mp h with heq | hsuffix
    · refine .inl ⟨e, he, ?_⟩
      rw [heq, ← List.cons_append, ← hfirst]
      exact List.prefix_append _ rest
    · exact .inr (suffix_of_not_mem hlater hsuffix)
  · rw [hc, List.singleton_append] at h
    rcases List.suffix_cons_iff.mp h with heq | hrest
    · exact absurd (List.cons.inj heq).1 fun h => hspecial (h ▸ List.mem_cons_self)
    · exact .inr hrest

/-! ## Whole texts -/

/-- What is escaped is read back. Induction on the text. -/
theorem unescape_escape (s : String) : unescape (escape s) = s := by
  have hchars : ∀ cs : List Char, replaceEntities 0 (cs.flatMap escapeChar) = cs := by
    intro cs
    induction cs with
    | nil => rfl
    | cons c cs ih => rw [List.flatMap_cons, replaceEntities_escapeChar, ih]
  unfold unescape escape
  rw [String.toList_ofList, hchars, String.ofList_toList]

/-- So no two texts have the same escape. -/
theorem escape_injective : Function.Injective escape :=
  Function.LeftInverse.injective unescape_escape

/-- Every ampersand of an escaped text begins an entity. Induction on the text. -/
theorem beginsEntity_of_suffix {s : String} {back : List Char} (h : '&' :: back <:+ (escape s).toList) :
    ∃ e ∈ entities, e.1.toList <+: '&' :: back := by
  unfold escape at h
  rw [String.toList_ofList] at h
  generalize s.toList = cs at h
  induction cs with
  | nil => exact absurd (List.suffix_nil.mp h) (List.cons_ne_nil _ _)
  | cons c cs ih =>
    rw [List.flatMap_cons] at h
    rcases suffix_escapeChar h with hentity | hrest
    · exact hentity
    · exact ih hrest

example : escape "a<&amp;lt;>" = "a&lt;&amp;amp;lt;&gt;" ∧ unescape "a&lt;&amp;amp;lt;&gt;" = "a<&amp;lt;>"
    ∧ unescape "&;&amp" = "&;&amp" := by
  decide

end TemplateCoverage.Xml
