import Mathlib
import TemplateCoverage.Shell.PathPattern

/-!
# What fits a wildcard

A text is compared with a wildcard from left to right, and where a star stands, both ways are tried. What fits
is said here without any order: the text can be cut into pieces, one for each part.

* **`fits_iff`**: a text fits a wildcard if and only if it can be cut like this. So wildcards can be put
  together (`fits_append`), and one that stands for itself fits one text (`fits_literal`).
* **`readFrom_of_quoted`**, **`fits_quoted`**: what is quoted stands for itself, whatever it is.
* **`readFrom_of_not_isIn`**: so does a text in which no part is found that stands for more.
* **`mem_beginnings`**, **`mem_endings`**: the beginnings and the ends of a text that fit, each once, the
  shortest first.
* **`names_of_mem_pathsFitting`**: of a path that fits, each segment is a name that fits its part.
* **`pathsFor_spec`**: a word stands for paths that fit it, in order, and for itself if there is none.
-/

namespace TemplateCoverage

namespace CharSet

theorem admits_false (s : CharSet) (c : Char) : s.admits false c = s.contains c := by
  simp [admits, contains]

/-- A set of one character has no other one. -/
theorem admits_single {c d : Char} : (single c).admits false d = true ↔ d = c := by
  have hle : c ≤ d ∧ d ≤ c ↔ d = c :=
    ⟨fun h => Char.le_antisymm h.2 h.1, fun h => by rw [h]; exact ⟨Char.le_refl c, Char.le_refl c⟩⟩
  simpa [admits_false, contains, single] using hle

end CharSet

theorem MarkedText.bytes_ofBytes (quoted : Bool) (t : Bytes) : (MarkedText.ofBytes quoted t).bytes = t := by
  unfold MarkedText.ofBytes MarkedText.bytes
  rw [List.map_map]
  exact List.map_id t

namespace Wildcard

variable {ignoreCase : Bool} {v w : Wildcard} {text : Bytes}

/-! ## Pieces -/

theorem fits_nil : fits ignoreCase [] text = true ↔ text = [] := by
  rw [fits, List.isEmpty_iff]

theorem fits_one {set : CharSet} :
    fits ignoreCase (.one set :: w) text = true
      ↔ ∃ c rest, text = c :: rest ∧ set.admits ignoreCase c = true ∧ w.fits ignoreCase rest = true := by
  cases text with
  | nil => simp [fits]
  | cons c rest => simp [fits]

/-- A star passes over any beginning of a text. Induction on the text, as each step passes over one
character. -/
theorem fits_anyText :
    fits ignoreCase (.anyText :: w) text = true
      ↔ ∃ front rest, front ++ rest = text ∧ w.fits ignoreCase rest = true := by
  induction text with
  | nil => simp [fits]
  | cons c text ih =>
    rw [fits, Bool.or_eq_true, ih]
    constructor
    · rintro (h | ⟨front, rest, rfl, h⟩)
      · exact ⟨[], c :: text, rfl, h⟩
      · exact ⟨c :: front, rest, rfl, h⟩
    · rintro ⟨front, rest, heq, h⟩
      -- the mark stands for nothing, or for one more character
      cases front with
      | nil => exact .inl (heq ▸ h)
      | cons d front =>
        obtain ⟨rfl, rfl⟩ := List.cons.inj heq
        exact .inr ⟨front, rest, rfl, h⟩

/-- A part stands for a text: a star for any text, any other part for one character of its set. -/
def PartFits (ignoreCase : Bool) : WildcardPart → Bytes → Prop
  | .one set, text => ∃ c, text = [c] ∧ set.admits ignoreCase c = true
  | .anyText, _ => True

/-- **What fits.** A text fits a wildcard if and only if it can be cut into pieces, one for each part that
stands for it. -/
theorem fits_iff :
    w.fits ignoreCase text = true
      ↔ ∃ pieces : List Bytes, pieces.flatten = text ∧ List.Forall₂ (PartFits ignoreCase) w pieces := by
  induction w generalizing text with
  | nil =>
    rw [fits_nil]
    constructor
    · rintro rfl
      exact ⟨[], rfl, .nil⟩
    · rintro ⟨_, rfl, ⟨⟩⟩
      rfl
  | cons part w ih =>
    simp only [List.forall₂_cons_left_iff]
    -- induction on the wildcard: each part has its own piece of the text
    cases part with
    | one set =>
      rw [fits_one]
      constructor
      · rintro ⟨c, rest, rfl, hc, hrest⟩
        obtain ⟨pieces, rfl, hpieces⟩ := ih.mp hrest
        exact ⟨[c] :: pieces, rfl, [c], pieces, ⟨c, rfl, hc⟩, hpieces, rfl⟩
      · rintro ⟨_, rfl, _, pieces, ⟨c, rfl, hc⟩, hpieces, rfl⟩
        exact ⟨c, pieces.flatten, rfl, hc, ih.mpr ⟨pieces, rfl, hpieces⟩⟩
    | anyText =>
      rw [fits_anyText]
      constructor
      · rintro ⟨front, rest, rfl, hrest⟩
        obtain ⟨pieces, rfl, hpieces⟩ := ih.mp hrest
        exact ⟨front :: pieces, rfl, front, pieces, trivial, hpieces, rfl⟩
      · rintro ⟨_, rfl, front, pieces, -, hpieces, rfl⟩
        exact ⟨front, pieces.flatten, rfl, ih.mpr ⟨pieces, rfl, hpieces⟩⟩

/-- What fits one wildcard behind another is a text that fits the one behind a text that fits the other. -/
theorem fits_append :
    (v ++ w).fits ignoreCase text = true
      ↔ ∃ front rest, text = front ++ rest ∧ v.fits ignoreCase front = true
        ∧ w.fits ignoreCase rest = true := by
  simp only [fits_iff]
  constructor
  · rintro ⟨pieces, rfl, h⟩
    -- the pieces are dealt out between the two wildcards
    have hfront := List.forall₂_take v.length h
    have hback := List.forall₂_drop v.length h
    rw [List.take_left] at hfront
    rw [List.drop_left] at hback
    refine ⟨_, _, ?_, ⟨_, rfl, hfront⟩, ⟨_, rfl, hback⟩⟩
    rw [← List.flatten_append, List.take_append_drop]
  · rintro ⟨_, _, rfl, ⟨vs, rfl, hvs⟩, ⟨ws, rfl, hws⟩⟩
    exact ⟨vs ++ ws, List.flatten_append, List.rel_append hvs hws⟩

/-! ## Texts that stand for themselves -/

/-- The wildcard that stands for one text. -/
def literal (text : Bytes) : Wildcard :=
  text.map fun c => .one (CharSet.single c)

theorem fits_literal {t : Bytes} : (literal t).fits false text = true ↔ text = t := by
  induction t generalizing text with
  | nil => exact fits_nil
  | cons c t ih =>
    show fits false (.one (CharSet.single c) :: literal t) text = true ↔ _
    simp only [fits_one, CharSet.admits_single, ih]
    constructor
    · rintro ⟨_, _, rfl, rfl, rfl⟩
      rfl
    · rintro rfl
      exact ⟨c, t, rfl, rfl, rfl⟩

/-- What is quoted is read as it is. -/
theorem readFrom_of_quoted (t : Bytes) {n : Nat} (hn : t.length < n) :
    readFrom n (.ofBytes true t) = literal t := by
  induction t generalizing n with
  | nil => cases n <;> rfl
  | cons c t ih =>
    cases n with
    | zero => cases hn
    | succ n =>
      show WildcardPart.one (CharSet.single c) :: readFrom n (.ofBytes true t) = _
      rw [ih (Nat.lt_of_succ_lt_succ hn)]
      rfl

/-- **Quoting.** A text that is quoted fits itself and nothing else, whatever characters it has. -/
theorem fits_quoted {t : Bytes} :
    (read (.ofBytes true t)).fits false text = true ↔ text = t := by
  have hlength : t.length < (MarkedText.ofBytes true t).length + 1 := by simp [MarkedText.ofBytes]
  unfold read
  rw [readFrom_of_quoted t hlength, fits_literal]

/-- Only a backslash that is not quoted, and with a character behind it, is left out. -/
theorem unquoted_cons {c : Char × Bool} {rest : MarkedText} (h : c ≠ ('\\', false) ∨ rest = []) :
    Shell.unquoted (c :: rest) = c.1 :: Shell.unquoted rest := by
  obtain ⟨c, q⟩ := c
  cases rest with
  | nil => simp [Shell.unquoted]
  | cons d rest =>
    rw [Shell.unquoted]
    rintro _ _ _ - rfl rfl
    exact absurd rfl (h.resolve_right (List.cons_ne_nil d rest))

/-- **Words without wildcards.** A text in which no part stands for more than itself stands for the one text
without the backslashes that quote. The cases are those in which a wildcard is read. -/
theorem readFrom_of_not_isIn {m : MarkedText} {n : Nat} (hn : m.length < n) (h : isIn n m = false) :
    readFrom n m = literal (Shell.unquoted m) := by
  fun_induction readFrom n m with
  | case1 => cases hn
  | case2 => rfl
  | case3 n c rest ih =>
    have h' : isIn n rest = false := h
    rw [ih (Nat.lt_of_succ_lt_succ hn) h', unquoted_cons (.inl (by simp))]
    rfl
  | case4 n c q rest ih =>
    have h' : isIn n rest = false := h
    rw [ih (by simp at hn; omega) h']
    rfl
  | case5 => cases h
  | case6 => cases h
  | case7 n rest set after hset ih => simp [isIn, hset] at h
  | case8 n rest hset ih =>
    have h' : isIn n rest = false := by simpa [isIn, hset] using h
    rw [ih (Nat.lt_of_succ_lt_succ hn) h']
    rfl
  | case9 n c rest hbackslash hstar hmark hbracket ih =>
    have hplain : (c, false) ≠ ('\\', false) ∨ rest = [] := by
      cases rest with
      | nil => exact .inr rfl
      | cons d more => exact .inl fun heq => hbackslash d.1 d.2 more rfl (congrArg Prod.fst heq)
    have h' : isIn n rest = false := by
      unfold isIn at h
      rw [if_neg Bool.false_ne_true] at h
      split at h
      · cases h
      · cases h
      · -- a backslash with nothing behind it
        rw [hplain.resolve_left (not_not_intro rfl)]
        cases n <;> rfl
      · exact (hbracket rfl).elim
      · exact h
    rw [ih (Nat.lt_of_succ_lt_succ hn) h', unquoted_cons hplain]
    rfl

/-- Nothing stands for more than itself in a text that is quoted, or that has none of the four characters with a
meaning. -/
theorem isIn_ofBytes {quoted : Bool} {t : Bytes}
    (h : quoted = true ∨ ∀ c ∈ t, c ≠ '*' ∧ c ≠ '?' ∧ c ≠ '\\' ∧ c ≠ '[') (n : Nat) :
    isIn n (MarkedText.ofBytes quoted t) = false := by
  induction n generalizing t with
  | zero => rfl
  | succ n ih =>
    cases t with
    | nil => rfl
    | cons c t =>
      have hrest : isIn n (MarkedText.ofBytes quoted t) = false :=
        ih (h.imp_right fun hplain d hd => hplain d (List.mem_cons_of_mem c hd))
      obtain rfl | hplain := h
      · exact hrest
      · -- what is quoted, or none of these four, stands for itself
        obtain ⟨hstar, hmark, hbackslash, hbracket⟩ := hplain c List.mem_cons_self
        unfold MarkedText.ofBytes at hrest ⊢
        cases quoted <;> simp [isIn, hrest]

/-! ## Beginnings and ends -/

theorem mem_beginnings {n : Nat} :
    n ∈ w.beginnings text ↔ n ≤ text.length ∧ w.fits false (text.take n) = true := by
  unfold beginnings
  rw [List.mem_filter, List.mem_range, Nat.lt_succ_iff]

theorem mem_endings {n : Nat} :
    n ∈ w.endings text ↔ n ≤ text.length ∧ w.fits false (text.drop (text.length - n)) = true := by
  unfold endings
  rw [List.mem_filter, List.mem_range, Nat.lt_succ_iff]

/-- The lengths are in order, so the first one is the shortest and the last one the longest. -/
theorem pairwise_beginnings (w : Wildcard) (text : Bytes) :
    (w.beginnings text).Pairwise (· < ·) ∧ (w.endings text).Pairwise (· < ·) :=
  ⟨List.pairwise_lt_range.filter _, List.pairwise_lt_range.filter _⟩

end Wildcard

namespace Shell

variable {files : FileSystem} {segments : List MarkedText} {base path : Bytes}

/-! ## Paths -/

/-- A name fits a segment of a path. -/
def Names (segment : MarkedText) (name : Bytes) : Prop :=
  (Wildcard.read segment).fits false name = true

/-- A segment without a wildcard stands for the one name that it spells. -/
theorem names_unquoted {segment : MarkedText} (h : hasWildcard segment = false) :
    Names segment (unquoted segment) := by
  unfold Names
  unfold Wildcard.read
  rw [Wildcard.readFrom_of_not_isIn (Nat.lt_succ_self _) h, Wildcard.fits_literal]

theorem names_of_mem_namesFitting {directory name : Bytes} {segment : MarkedText}
    (h : name ∈ namesFitting files directory segment) : Names segment name := by
  unfold namesFitting at h
  split at h
  · exact (Bool.and_eq_true_iff.mp (List.mem_filter.mp h).2).2
  · cases h

/-- **Paths for a word.** A path that is found consists of names that fit the segments, one for each. Induction
on the segments, behind the part of the path that has been found. -/
theorem names_of_mem_pathsFitting (h : path ∈ pathsFitting files base segments) :
    ∃ names, List.Forall₂ Names segments names
      ∧ path = base ++ ['/'].intercalate names := by
  induction segments generalizing base with
  | nil => exact ⟨[], .nil, by simpa [pathsFitting] using h⟩
  | cons segment rest ih =>
    -- a name, and a slash if there are more of them
    have hname (name : Bytes) (hfits : Names segment name)
        (h : path ∈ pathsFitting files (base ++ name ++ if rest.isEmpty then [] else ['/']) rest) :
        ∃ names, List.Forall₂ Names
            (segment :: rest) names ∧ path = base ++ ['/'].intercalate names := by
      obtain ⟨names, hnames, rfl⟩ := ih h
      refine ⟨name :: names, .cons hfits hnames, ?_⟩
      cases hnames with
      | nil => simp
      | cons => simp
    unfold pathsFitting at h
    dsimp only at h
    split at h
    · obtain ⟨name, hmem, hpath⟩ := List.mem_flatMap.mp h
      exact hname name (names_of_mem_namesFitting hmem) hpath
    · next hplain =>
      split at h
      · cases h
      · exact hname (unquoted segment) (names_unquoted (by simpa using hplain)) h

/-- **What a word stands for.** A word stands for one text at least, and the texts are in order. Each of them is
a path of names that fit its segments, unless there is none: then it is the word itself. -/
theorem pathsFor_spec (files : FileSystem) (m : MarkedText) :
    pathsFor files m ≠ []
      ∧ (pathsFor files m).Pairwise (fun a b => ¬b < a)
      ∧ ∀ path ∈ pathsFor files m,
        path = m.bytes ∨ ∃ names, List.Forall₂ Names (segmentsOf m) names ∧ path = ['/'].intercalate names := by
  have hself : ∀ path ∈ [m.bytes], path = m.bytes ∨ ∃ names, List.Forall₂ Names (segmentsOf m) names
      ∧ path = ['/'].intercalate names := fun path h => .inl (List.mem_singleton.mp h)
  have hfound : ∀ path ∈ pathsFitting files [] (segmentsOf m),
      ∃ names, List.Forall₂ Names (segmentsOf m) names ∧ path = ['/'].intercalate names :=
    fun path => names_of_mem_pathsFitting
  unfold pathsFor
  split
  · cases hpaths : pathsFitting files [] (segmentsOf m) with
    | nil => exact ⟨List.cons_ne_nil _ _, List.pairwise_singleton _ _, hself⟩
    | cons first more =>
      rw [hpaths] at hfound
      refine ⟨?_, ?_, fun path h => .inr (hfound path (List.mem_mergeSort.mp h))⟩
      · rw [← List.length_pos_iff, List.length_mergeSort]
        exact Nat.succ_pos _
      · -- paths that were found are sorted
        have hle (a b : Bytes) : (!decide (b < a)) = true ↔ a ≤ b := by simp
        have hsorted : ((first :: more).mergeSort fun a b => !decide (b < a)).Pairwise
            fun a b => (!decide (b < a)) = true :=
          List.pairwise_mergeSort
            (fun a b c hab hbc => (hle a c).mpr (((hle a b).mp hab).trans ((hle b c).mp hbc)))
            (fun a b => by simpa using le_total a b) (first :: more)
        exact hsorted.imp fun h => by simpa using h
  · exact ⟨List.cons_ne_nil _ _, List.pairwise_singleton _ _, hself⟩

end Shell

end TemplateCoverage
