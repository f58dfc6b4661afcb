import Mathlib.Data.List.Infix
import TemplateCoverage.Proofs.Json.RoundTrip
import TemplateCoverage.Proofs.Text.Search
import TemplateCoverage.Proofs.Trace.Concatenation

/-!
# What the sentinels report is what is counted

An output shows the two lists of IDs on sentinel lines, as JSON, anywhere among other lines and behind
other text. Reading it gives these IDs back, whatever characters they have, and recording them covers
those that were discovered.

* **`Written`**, **`Shows`**: what is written for a list, and the sentinel lines that show it.
* **`body?_sentinelLine`**, **`read_sentinel`**: the mark is found where it was written, and what stands
  behind it is read as the list.
* **`sentinels_counted`**: so the covered IDs of a run are the discovered ones of both lists.
-/

namespace TemplateCoverage

open Text

namespace Trace

/-- What is written for a list of IDs. The empty list may also be written as `null`. -/
inductive Written : List BranchId → List Char → Prop where
  | array (ids : List BranchId) : Written ids (Json.compactChars (.strings ids))
  | null : Written [] "null".toList

/-- The text stands on one line and has no mark. -/
structure Unmarked (text : List Char) : Prop where
  newline : '\n' ∉ text
  mark : ¬sentinelPrefix.toList <:+: text

/-- A sentinel line with other text in front. -/
def sentinelLine (front : List Char) (kind : FileKind) (payload : List Char) : List Char :=
  front ++ (sentinelPrefix.toList ++ (kind.collection.toList ++ ' ' :: payload))

/-- The line is a sentinel that shows the IDs. -/
def Shows (kind : FileKind) (ids : List BranchId) (text : List Char) : Prop :=
  ∃ front payload, Unmarked front ∧ Written ids payload ∧ text = sentinelLine front kind payload

/-! ## The payload -/

/-- A payload is read as the list that it was written for. -/
theorem payload?_written {ids : List BranchId} {payload : List Char} (h : Written ids payload) :
    Sentinel.payload? payload = some ids := by
  cases h with
  | array =>
    unfold Sentinel.payload?
    rw [Json.parse?_compactChars_strings]
    exact Json.textItems?_map_string ids
  | null => rfl

/-- A payload stands on one line, and nothing of it can be trimmed. -/
theorem written_cases {ids : List BranchId} {payload : List Char} (h : Written ids payload) :
    '\n' ∉ payload ∧ trim payload = payload
      ∧ ∃ front last, payload = front ++ [last] ∧ isBlank last = false := by
  cases h with
  | array =>
    obtain ⟨inner, hpayload, hinner⟩ := Json.compactChars_strings ids
    rw [hpayload]
    have hends : '[' :: (inner ++ [']']) = ('[' :: inner) ++ [']'] := rfl
    exact ⟨by simp [hinner], trim_eq hends (by decide) (by decide), '[' :: inner, ']', rfl, by decide⟩
  | null => exact ⟨by decide, by decide, "nul".toList, 'l', rfl, by decide⟩

/-! ## Sentinels -/

/-- What stands behind the mark names the list and has its IDs. -/
theorem read_sentinel (kind : FileKind) {ids : List BranchId} {payload : List Char}
    (h : Written ids payload) :
    Sentinel.read (kind.collection.toList ++ ' ' :: payload) = .ok ⟨kind, ids⟩ := by
  obtain ⟨-, htrim, -⟩ := written_cases h
  -- the name of the collection has no blank, so the line is cut behind it
  have hfields : Sentinel.fields (kind.collection.toList ++ ' ' :: payload)
      = (kind.collection.toList, payload) := by
    cases kind <;> exact congrArg (Prod.mk _) htrim
  have hkind : Sentinel.kind? kind.collection.toList = some kind := by cases kind <;> rfl
  unfold Sentinel.read
  rw [hfields]
  dsimp only
  rw [hkind, payload?_written h]

/-- The mark of a sentinel line is found where it was written. -/
theorem body?_sentinelLine {front : List Char} (hfront : Unmarked front) (kind : FileKind)
    {ids : List BranchId} {payload : List Char} (h : Written ids payload) :
    Sentinel.body? (sentinelLine front kind payload)
      = some (kind.collection.toList ++ ' ' :: payload) := by
  obtain ⟨-, -, init, last, rfl, hlast⟩ := written_cases h
  -- there is no mark in front, so the first one is that of the line
  have hcut : cutAt? sentinelPrefix.toList (sentinelLine front kind (init ++ [last]))
      = some (front, kind.collection.toList ++ ' ' :: (init ++ [last])) :=
    cutAt?_append (by decide) hfront.mark _
  have htrim : trimEnd (kind.collection.toList ++ ' ' :: (init ++ [last]))
      = kind.collection.toList ++ ' ' :: (init ++ [last]) := by
    rw [← List.cons_append, ← List.append_assoc]
    exact dropEndWhile_append hlast _
  unfold Sentinel.body?
  rw [hcut]
  exact congrArg some htrim

/-- The line end of a sentinel line is not taken for a part of it. -/
theorem dropTerminator_sentinelLine (front : List Char) (kind : FileKind) {ids : List BranchId}
    {payload : List Char} (h : Written ids payload) (e : LineEnd) :
    dropTerminator (terminated (sentinelLine front kind payload, e))
      = sentinelLine front kind payload := by
  obtain ⟨-, -, init, last, rfl, hlast⟩ := written_cases h
  apply dropTerminator_terminated
  -- a payload does not end like a line
  have hinit : sentinelLine front kind (init ++ [last])
      = (front ++ (sentinelPrefix.toList ++ (kind.collection.toList ++ ' ' :: init))) ++ [last] := by
    unfold sentinelLine
    simp
  show (sentinelLine front kind (init ++ [last])).getLast? ≠ _
  rw [hinit, List.getLast?_concat]
  rintro heq
  cases heq
  exact absurd hlast (by decide)

theorem newline_not_mem_sentinelLine {front : List Char} (hfront : Unmarked front)
    (kind : FileKind) {ids : List BranchId} {payload : List Char} (h : Written ids payload) :
    '\n' ∉ sentinelLine front kind payload := by
  obtain ⟨hpayload, -, -⟩ := written_cases h
  have hcollection : '\n' ∉ kind.collection.toList := by cases kind <;> decide
  have hmark : '\n' ∉ sentinelPrefix.toList := by decide
  unfold sentinelLine
  simp [hfront.newline, hpayload, hcollection, hmark]

/-! ## Lines of an output -/

variable {ids : List BranchId} {kind : FileKind}

theorem body?_of_unmarked {l : List Char × LineEnd} (h : Unmarked l.1) :
    Sentinel.body? (dropTerminator (terminated l)) = none := by
  unfold Sentinel.body?
  rw [cutAt?_eq_none fun hmark => h.mark (hmark.trans (dropTerminator_isPrefix l).isInfix)]
  rfl

theorem body?_of_shows {l : List Char × LineEnd} (h : Shows kind ids l.1) :
    ∃ body, Sentinel.body? (dropTerminator (terminated l)) = some body
      ∧ Sentinel.read body = .ok ⟨kind, ids⟩ := by
  obtain ⟨text, e⟩ := l
  obtain ⟨front, payload, hfront, hpayload, rfl⟩ := h
  rw [dropTerminator_sentinelLine front kind hpayload e]
  exact ⟨_, body?_sentinelLine hfront kind hpayload, read_sentinel kind hpayload⟩

/-- The output that is put together from lines. -/
def output (ls : List (List Char × LineEnd)) : String :=
  String.ofList (ls.flatMap terminated)

/-- The lines have no mark, or they are sentinels that show the list of their kind. -/
structure Reporting (listed : FileKind → List BranchId) (ls : List (List Char × LineEnd)) :
    Prop where
  lines : ∀ l ∈ ls, Unmarked l.1 ∨ ∃ kind, Shows kind (listed kind) l.1
  /-- Each list is shown. -/
  shown : ∀ kind, ∃ l ∈ ls, Shows kind (listed kind) l.1

namespace Reporting

variable {listed : FileKind → List BranchId} {ls : List (List Char × LineEnd)}

theorem lineTexts_output (h : Reporting listed ls) :
    lineTexts (output ls).toList = ls.map fun l => dropTerminator (terminated l) := by
  unfold output
  rw [String.toList_ofList]
  apply lineTexts_terminated
  intro l hl
  rcases h.lines l hl with hplain | ⟨kind, hshows⟩
  · exact hplain.newline
  · obtain ⟨front, payload, hfront, hpayload, htext⟩ := hshows
    rw [htext]
    exact newline_not_mem_sentinelLine hfront kind hpayload

/-- What stands behind the marks of the output are the lists. -/
theorem read_of_mem_sentinels (h : Reporting listed ls) {body : List Char}
    (hbody : body ∈ sentinels (output ls)) :
    ∃ kind, Sentinel.read body = .ok ⟨kind, listed kind⟩ := by
  unfold sentinels at hbody
  rw [h.lineTexts_output, List.filterMap_map, List.mem_filterMap] at hbody
  obtain ⟨l, hl, hbody⟩ := hbody
  -- a line has no mark, or it shows one of the lists
  rcases h.lines l hl with hplain | ⟨kind, hshows⟩
  · rw [Function.comp_apply, body?_of_unmarked hplain] at hbody
    cases hbody
  · obtain ⟨body', hbody', hread⟩ := body?_of_shows hshows
    rw [Function.comp_apply, hbody'] at hbody
    cases hbody
    exact ⟨kind, hread⟩

/-- Each list stands behind some mark. -/
theorem exists_mem_sentinels (h : Reporting listed ls) (kind : FileKind) :
    ∃ body ∈ sentinels (output ls), Sentinel.read body = .ok ⟨kind, listed kind⟩ := by
  obtain ⟨l, hl, hshows⟩ := h.shown kind
  obtain ⟨body, hbody, hread⟩ := body?_of_shows hshows
  refine ⟨body, ?_, hread⟩
  unfold sentinels
  rw [h.lineTexts_output, List.filterMap_map, List.mem_filterMap]
  exact ⟨l, hl, hbody⟩

/-- The trace of the output has collected the two lists. -/
theorem parse_output (h : Reporting listed ls) :
    ∃ t, parse (output ls) = .ok t ∧ ∀ kind id, id ∈ t.collected kind ↔ id ∈ listed kind := by
  let t : Trace := (({} : Trace).add .template (listed .template)).add .helper (listed .helper)
  have ht : ∀ kind id, id ∈ t.collected kind ↔ id ∈ listed kind := by
    intro kind id
    rw [mem_add, mem_add, or_iff_right not_mem_empty]
    cases kind <;> simp
  refine ⟨t, ?_, ht⟩
  rw [parse_eq_ok_iff, readBodies_eq_ok_iff]
  -- every sentinel can be read, and what they list is what is collected
  refine ⟨fun body hbody => ?_, fun kind id => ?_⟩
  · obtain ⟨kind, hread⟩ := h.read_of_mem_sentinels hbody
    exact ⟨_, hread⟩
  · rw [ht, or_iff_right not_mem_empty]
    constructor
    · intro hid
      obtain ⟨body, hbody, hread⟩ := h.exists_mem_sentinels kind
      exact ⟨body, hbody, _, hread, rfl, hid⟩
    · rintro ⟨body, hbody, s, hs, rfl, hid⟩
      obtain ⟨kind, hread⟩ := h.read_of_mem_sentinels hbody
      rw [hread] at hs
      cases hs
      exact hid

end Reporting

/-! ## Counting -/

/-- **What the sentinels report is what is counted.** An output that shows two lists of IDs gives back
these IDs, whatever characters they have and wherever the sentinels stand. Recorded in a run just
begun, they cover those of them that were discovered, and that is the number handed back. -/
theorem sentinels_counted {listed : FileKind → List BranchId} {ls : List (List Char × LineEnd)}
    (h : Reporting listed ls) :
    ∃ t, parse (output ls) = .ok t
      ∧ (∀ id, id ∈ t.files ↔ id ∈ listed .template)
      ∧ (∀ id, id ∈ t.helpers ↔ id ∈ listed .helper)
      ∧ ∀ (s : Session) (label : String),
          (∀ id, id ∈ ((s.beginRun label).record t).1.currentCovered
            ↔ (id ∈ listed .template ∨ id ∈ listed .helper) ∧ s.discovered.contains id = true)
          ∧ ((s.beginRun label).record t).2
            = ((s.beginRun label).record t).1.currentCovered.size := by
  obtain ⟨t, hparse, hcollected⟩ := h.parse_output
  refine ⟨t, hparse, hcollected .template, hcollected .helper, fun s label => ?_⟩
  -- a run that has just begun has nothing else
  rw [Session.record_beginRun]
  refine ⟨fun id => ?_, rfl⟩
  show id ∈ t.known s.discovered ↔ _
  rw [mem_known]
  exact and_congr_left' (or_congr (hcollected .template id) (hcollected .helper id))

/-- Two IDs, one of them with quotes, a backslash, a line feed and the mark itself. No helper was
covered. -/
def oddIds : FileKind → List BranchId
  | .template => ["templates/é.yaml:L3", "a\n\"b\" \\ # chartcov:trace:files []"]
  | .helper => []

/-- A sentinel behind other text, and one that stands alone and has `null`. -/
def oddLines : List (List Char × LineEnd) :=
  [("kind: ConfigMap".toList, .lf),
    (sentinelLine "key: # value".toList .template (Json.compactChars (.strings (oddIds .template))),
      .crlf),
    ([], .crlf),
    (sentinelLine [] .helper "null".toList, .lf)]

theorem reporting_oddLines : Reporting oddIds oddLines := by
  have hkind : Unmarked "kind: ConfigMap".toList := ⟨by decide, by decide⟩
  have hkey : Unmarked "key: # value".toList := ⟨by decide, by decide⟩
  have hempty : Unmarked [] := ⟨by decide, by decide⟩
  have hfiles : Shows .template (oddIds .template) (sentinelLine "key: # value".toList .template
      (Json.compactChars (.strings (oddIds .template)))) :=
    ⟨_, _, hkey, .array _, Eq.refl _⟩
  have hhelpers : Shows .helper (oddIds .helper) (sentinelLine [] .helper "null".toList) :=
    ⟨_, _, hempty, .null, Eq.refl _⟩
  unfold oddLines
  constructor
  · -- line by line
    simp only [List.forall_mem_cons]
    exact ⟨.inl hkind, .inr ⟨.template, hfiles⟩, .inl hempty, .inr ⟨.helper, hhelpers⟩,
      fun l hl => absurd hl List.not_mem_nil⟩
  · intro kind
    cases kind with
    | template => exact ⟨_, .tail _ (.head _), hfiles⟩
    | helper => exact ⟨_, .tail _ (.tail _ (.tail _ (.head _))), hhelpers⟩

/-- The IDs come through quoting, line ends and a mark of their own. -/
theorem sentinels_counted_oddLines :
    output oddLines
        = "kind: ConfigMap\nkey: # value# chartcov:trace:files [\"templates/é.yaml:L3\","
          ++ "\"a\\n\\\"b\\\" \\\\ # chartcov:trace:files []\"]\r\n\r\n"
          ++ "# chartcov:trace:helpers null\n"
      ∧ Reporting oddIds oddLines
      ∧ ∃ t, parse (output oddLines) = .ok t ∧ (∀ id, id ∈ t.files ↔ id ∈ oddIds .template)
        ∧ ∀ id, id ∉ t.helpers := by
  refine ⟨by decide +kernel, reporting_oddLines, ?_⟩
  obtain ⟨t, hparse, hfiles, hhelpers, -⟩ := sentinels_counted reporting_oddLines
  exact ⟨t, hparse, hfiles, fun id hid => absurd ((hhelpers id).mp hid) List.not_mem_nil⟩

end Trace

end TemplateCoverage
