import Mathlib.Data.List.Nodup
import TemplateCoverage.Branch.Basic
import TemplateCoverage.Proofs.Scan.Occurrence

/-!
# Reading IDs back

An ID is put together from a path, a name, lines and a place, and neither the path nor the name is
quoted. Its end can be read back all the same: what stands behind the last colon is made of numbers,
and names the lines and the place. Where a path ends and a name begins is another matter.

* **`cut_eq`**: a text is cut at the first of its characters that the front cannot hold.
* **`format_inj`**: from an ID, one can read the path together with the name, the lines and the place.
* **`pointId_inj`, `range_inj`**: this is what equal IDs and equal addresses of arms have in common.
  So the IDs of a scan are distinct (`nodup_pointId_scan`).
* **`continues_of_append_eq`**: the same path and name can come from two paths only if one of them is
  the other one and a colon behind it.
-/

namespace TemplateCoverage

/-! ## Cutting texts -/

/-- If neither front holds `c`, and each back begins with it or is empty, then both texts are cut at
the same place. -/
theorem cut_eq {c : Char} {xs ys xs' ys' : List Char} (hxs : c ∉ xs) (hxs' : c ∉ xs')
    (hys : ∀ d ∈ ys.head?, d = c) (hys' : ∀ d ∈ ys'.head?, d = c) (h : xs ++ ys = xs' ++ ys') :
    xs = xs' ∧ ys = ys' := by
  rcases List.append_eq_append_iff.mp h with ⟨more, rfl, rfl⟩ | ⟨more, rfl, rfl⟩
  · -- what the longer front has in addition begins the other back
    cases more with
    | nil => exact ⟨(List.append_nil xs).symm, rfl⟩
    | cons d ds =>
      have hd : d = c := hys d rfl
      exact absurd (List.mem_append_right xs (hd ▸ List.mem_cons_self ..)) hxs'
  · cases more with
    | nil => exact ⟨List.append_nil xs', rfl⟩
    | cons d ds =>
      have hd : d = c := hys' d rfl
      exact absurd (List.mem_append_right xs' (hd ▸ List.mem_cons_self ..)) hxs

theorem eq_of_mem_head?_cons (c : Char) (cs : List Char) : ∀ d ∈ (c :: cs).head?, d = c :=
  fun _ hd => (Option.some.inj hd).symm

/-- Texts are cut at the last `c`. -/
theorem cut_last_eq {c : Char} {xs ys xs' ys' : List Char} (hys : c ∉ ys) (hys' : c ∉ ys')
    (h : xs ++ c :: ys = xs' ++ c :: ys') : xs = xs' ∧ ys = ys' := by
  have hrev := congrArg List.reverse h
  simp only [List.reverse_append, List.reverse_cons, List.append_assoc, List.singleton_append]
    at hrev
  obtain ⟨hback, hfront⟩ := cut_eq (fun hc => hys (List.mem_reverse.mp hc))
    (fun hc => hys' (List.mem_reverse.mp hc)) (eq_of_mem_head?_cons c _)
    (eq_of_mem_head?_cons c _) hrev
  exact ⟨List.reverse_inj.mp (List.cons.inj hfront).2, List.reverse_inj.mp hback⟩

/-! ## Numbers -/

/-- A number is written with digits only. -/
theorem notMem_toString {c : Char} (hc : c.isDigit = false) (n : Nat) :
    c ∉ (toString n).toList := by
  rw [Nat.toString_eq_repr, Nat.toList_repr]
  intro hmem
  rw [Nat.isDigit_of_mem_toDigits (by decide) (by decide) hmem] at hc
  cases hc

/-- No two numbers are written alike. -/
theorem toString_nat_inj {m n : Nat} (h : toString m = toString n) : m = n := by
  have hdigits := congrArg String.toList h
  rw [Nat.toString_eq_repr, Nat.toString_eq_repr, Nat.toList_repr, Nat.toList_repr] at hdigits
  rw [← Nat.ofDigitChars_ten_toDigits (n := m), hdigits, Nat.ofDigitChars_ten_toDigits]

namespace Branch

/-! ## The parts of an ID -/

/-- The part of an ID that names the body. -/
def scopeText (kind : FileKind) (define : Option String) : String :=
  match kind, define with
  | .helper, some name => ":" ++ name
  | _, _ => ""

/-- The part of an ID that tells the arms of a line apart. -/
def placeText (occurrence : Nat) : String :=
  if 2 ≤ occurrence then "." ++ toString occurrence else ""

/-- The part of an ID that names the line of a token. -/
def pointText (line : Nat) : String :=
  "L" ++ toString line

/-- The part of an address that names the lines of an arm. -/
def rangeText (start last : Nat) : String :=
  "L" ++ toString start ++ "-L" ++ toString last

theorem format_eq (file : String) (kind : FileKind) (define : Option String) (lines : String)
    (occurrence : Nat) :
    format file kind define lines occurrence
      = file ++ scopeText kind define ++ ":" ++ lines ++ placeText occurrence := rfl

/-- Only a body of a helper file has its name in an ID. -/
theorem scopeText_cases (kind : FileKind) (define : Option String) :
    scopeText kind define = ""
      ∨ kind = .helper ∧ ∃ name, define = some name ∧ scopeText kind define = ":" ++ name := by
  cases kind with
  | template => exact .inl rfl
  | helper =>
    cases define with
    | none => exact .inl rfl
    | some name => exact .inr ⟨rfl, name, rfl, rfl⟩

/-- The text of an occurrence is digits behind a dot, or nothing. -/
theorem notMem_placeText {c : Char} (hdigit : c.isDigit = false) (hdot : c ≠ '.')
    (occurrence : Nat) : c ∉ (placeText occurrence).toList := by
  unfold placeText
  split
  · rw [String.toList_append, List.mem_append, not_or]
    exact ⟨fun h => hdot (List.mem_singleton.mp h), notMem_toString hdigit occurrence⟩
  · exact List.not_mem_nil

/-- If there is any, it begins with the dot. -/
theorem head_placeText (occurrence : Nat) :
    ∀ d ∈ (placeText occurrence).toList.head?, d = '.' := by
  unfold placeText
  split
  · rw [String.toList_append]
    exact fun d hd => (Option.some.inj hd).symm
  · exact fun d hd => (nomatch hd)

/-- Counted from one, a place can be read back, though the first one is not written. -/
theorem placeText_inj {m n : Nat} (hm : 1 ≤ m) (hn : 1 ≤ n) (h : placeText m = placeText n) :
    m = n := by
  -- the first occurrence has no text, and no other one has an empty one
  have hne : ∀ k : Nat, "." ++ toString k ≠ "" := by
    intro k hk
    have hlist := congrArg String.toList hk
    rw [String.toList_append] at hlist
    cases hlist
  unfold placeText at h
  split at h
  · split at h
    · exact toString_nat_inj ((String.append_right_inj ".").mp h)
    · exact absurd h (hne m)
  · split at h
    · exact absurd h.symm (hne n)
    · omega

/-- A text that can name lines in an ID: it holds neither a colon nor a dot. -/
structure Plain (lines : String) : Prop where
  colon : ':' ∉ lines.toList
  dot : '.' ∉ lines.toList

theorem Plain.append {lines lines' : String} (h : Plain lines) (h' : Plain lines') :
    Plain (lines ++ lines') := by
  constructor
  · rw [String.toList_append, List.mem_append, not_or]
    exact ⟨h.colon, h'.colon⟩
  · rw [String.toList_append, List.mem_append, not_or]
    exact ⟨h.dot, h'.dot⟩

theorem plain_toString (n : Nat) : Plain (toString n) :=
  ⟨notMem_toString (by decide) n, notMem_toString (by decide) n⟩

theorem plain_pointText (line : Nat) : Plain (pointText line) :=
  .append ⟨by decide, by decide⟩ (plain_toString line)

theorem plain_rangeText (start last : Nat) : Plain (rangeText start last) :=
  .append (.append (plain_pointText start) ⟨by decide, by decide⟩) (plain_toString last)

theorem pointText_inj {m n : Nat} (h : pointText m = pointText n) : m = n :=
  toString_nat_inj ((String.append_right_inj "L").mp h)

/-- The two lines can be read from the text of a range. -/
theorem rangeText_inj {s e s' e' : Nat} (h : rangeText s e = rangeText s' e') :
    s = s' ∧ e = e' := by
  have hcut : ∀ m n, (rangeText m n).toList
      = ['L'] ++ ((toString m).toList ++ '-' :: 'L' :: (toString n).toList) := fun m n => by
    simp [rangeText]
  have hlist := congrArg String.toList h
  rw [hcut, hcut] at hlist
  -- the dash ends the first number
  have hdash : '-'.isDigit = false := by decide
  obtain ⟨hstart, hlast⟩ := cut_eq (notMem_toString hdash s) (notMem_toString hdash s')
    (eq_of_mem_head?_cons '-' _) (eq_of_mem_head?_cons '-' _) (List.append_cancel_left hlist)
  exact ⟨toString_nat_inj (String.toList_injective hstart),
    toString_nat_inj (String.toList_injective (List.cons.inj (List.cons.inj hlast).2).2)⟩

/-! ## Equal IDs -/

variable {file file' : String} {kind kind' : FileKind} {define define' : Option String}

/-- **An ID can be read back from its end.** The last colon ends the path and the name, and the dot
ends the lines. -/
theorem format_inj {lines lines' : String} {m n : Nat} (hlines : Plain lines)
    (hlines' : Plain lines') (hm : 1 ≤ m) (hn : 1 ≤ n)
    (h : format file kind define lines m = format file' kind' define' lines' n) :
    file ++ scopeText kind define = file' ++ scopeText kind' define' ∧ lines = lines' ∧ m = n := by
  -- there is no colon behind the last one of the address, so it can be cut there
  have hback : ∀ {lines : String} (k : Nat), Plain lines →
      ':' ∉ lines.toList ++ (placeText k).toList := fun k hplain hc =>
    (List.mem_append.mp hc).elim hplain.colon (notMem_placeText (by decide) (by decide) k)
  rw [format_eq, format_eq] at h
  have hlist := congrArg String.toList h
  simp only [String.toList_append, List.append_assoc] at hlist
  rw [← List.append_assoc file.toList, ← List.append_assoc file'.toList] at hlist
  obtain ⟨hfront, hrest⟩ := cut_last_eq (c := ':') (hback m hlines) (hback n hlines') hlist
  -- what follows is cut at the dot, if there is one
  obtain ⟨hl, hp⟩ := cut_eq hlines.dot hlines'.dot (head_placeText m) (head_placeText n) hrest
  refine ⟨String.toList_injective ?_, String.toList_injective hl,
    placeText_inj hm hn (String.toList_injective hp)⟩
  rw [String.toList_append, String.toList_append]
  exact hfront

/-- Equal IDs belong to arms of the same place. -/
theorem pointId_inj {a a' : Arm} (ha : a.Spanned) (ha' : a'.Spanned)
    (h : pointId file kind a = pointId file' kind' a') :
    file ++ scopeText kind a.define = file' ++ scopeText kind' a'.define ∧ a.place = a'.place := by
  obtain ⟨hpath, hline, hoccurrence⟩ := format_inj (plain_pointText a.tokenLine)
    (plain_pointText a'.tokenLine) ha.occurrence ha'.occurrence h
  exact ⟨hpath, Prod.ext (pointText_inj hline) hoccurrence⟩

/-- The IDs of the arms of a scan are distinct, since their places are. -/
theorem nodup_pointId_scan (evaluators : List String) (file : String) (kind : FileKind)
    (source : String) :
    ((Finding.arms (scan evaluators file source)).map (pointId file kind)).Nodup := by
  have hplaces := nodup_place_scan evaluators file source
  refine List.Nodup.map_on (fun a ha a' ha' heq => ?_) (List.Nodup.of_map _ hplaces)
  have hplace := (pointId_inj (spanned_scan ha) (spanned_scan ha') heq).2
  exact List.inj_on_of_nodup_map hplaces ha ha' hplace

/-- In one file, addresses by range tell the lines, the place and, in a helper, the body. -/
theorem range_inj {b b' : Branch} (hb : b.toArm.Spanned) (hb' : b'.toArm.Spanned)
    (hfile : b.file = b'.file) :
    b.address .range = b'.address .range
      ↔ scopeText b.kind b.define = scopeText b'.kind b'.define ∧ b.startLine = b'.startLine
        ∧ b.endLine = b'.endLine ∧ b.occurrence = b'.occurrence := by
  constructor
  · intro h
    obtain ⟨hpath, hlines, hoccurrence⟩ := format_inj (plain_rangeText b.startLine b.endLine)
      (plain_rangeText b'.startLine b'.endLine) hb.occurrence hb'.occurrence h
    -- the file is the same, so what is left of the path is the scope
    obtain ⟨hstart, hlast⟩ := rangeText_inj hlines
    rw [hfile] at hpath
    exact ⟨(String.append_right_inj _).mp hpath, hstart, hlast, hoccurrence⟩
  · rintro ⟨hscope, hstart, hlast, hoccurrence⟩
    show format _ _ _ _ _ = format _ _ _ _ _
    rw [format_eq, format_eq, hscope, hfile, hstart, hlast, hoccurrence]

/-! ## Paths that go on -/

/-- The second path goes on with a colon where the first one, of a helper file, is followed by the name
of a body. -/
structure Continues (file : String) (kind : FileKind) (define : Option String) (file' : String) :
    Prop where
  helper : kind = .helper
  named : define ≠ none
  path : ∃ more, file' = file ++ ":" ++ more

/-- Such a path begins with the other one and a colon. -/
theorem Continues.isPrefix (h : Continues file kind define file') :
    (file ++ ":").toList <+: file'.toList := by
  obtain ⟨more, hpath⟩ := h.path
  exact ⟨more.toList, by rw [hpath, String.toList_append (s := file ++ ":")]⟩

/-- If two paths and names come to the same, then the shorter path is that of a helper file with a
name, and the longer one continues it. -/
theorem continues_of_append_eq (hne : file ≠ file')
    (h : file ++ scopeText kind define = file' ++ scopeText kind' define') :
    Continues file kind define file' ∨ Continues file' kind' define' file := by
  -- if one path is the beginning of the other, the rest of that is the beginning of the scope
  have hone : ∀ {f g : String} {k : FileKind} {d : Option String} {more rest : List Char},
      f ≠ g → g.toList = f.toList ++ more → (scopeText k d).toList = more ++ rest →
      Continues f k d g := by
    intro f g k d more rest hne hg hscope
    cases more with
    | nil => exact absurd (String.toList_injective (hg.trans (List.append_nil _))).symm hne
    | cons c cs =>
      rcases scopeText_cases k d with hempty | ⟨hk, name, hd, hname⟩
      · rw [hempty] at hscope
        cases hscope
      · rw [hname, String.toList_append] at hscope
        have hcolon : ':' = c := (List.cons.inj hscope).1
        refine ⟨hk, by rw [hd]; exact Option.some_ne_none name, String.ofList cs, ?_⟩
        refine String.toList_injective ?_
        rw [hg, ← hcolon]
        simp
  have hlist := congrArg String.toList h
  rw [String.toList_append, String.toList_append] at hlist
  rcases List.append_eq_append_iff.mp hlist with ⟨more, hpath, hscope⟩ | ⟨more, hpath, hscope⟩
  · exact .inl (hone hne hpath hscope)
  · exact .inr (hone hne.symm hpath hscope)

end Branch

end TemplateCoverage
