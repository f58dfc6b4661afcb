import TemplateCoverage.Proofs.Shell.Expansion
import TemplateCoverage.Shell.WordReader

/-!
# Quoted words

Utilities show names so that they can be used again in a script: between apostrophes, or between other quotes if
the name has an apostrophe, or with each apostrophe on its own. Here such words are read by the reader of
scripts.

* **`pieces_text`**: what is no sign of its own is read as it is. The induction is on the length of the text,
  because a run of ordinary characters is read at once.
* **`pieces_inApostrophes`**: quoted names are read as one quoted text, however they are quoted.
* **`texts_shown`**: a name that is shown, read as a word, stands for that name and nothing else.
-/

namespace TemplateCoverage.Shell

/-- The source with a text left behind, so that another one comes next. -/
def Source.past (s : Source) (t after : Bytes) : Source :=
  { s with rest := after, line := s.line + t.count '\n' }

/-- Two texts that are read one after the other are read as one. -/
theorem Source.past_past (s : Source) (t u mid after : Bytes) :
    (s.past t mid).past u after = s.past (t ++ u) after := by
  unfold past
  rw [List.count_append, Nat.add_assoc]

/-- Texts that are quoted in the same way become one. -/
theorem Gathered.text_text (g : Gathered) (t u : Bytes) (quoted : Bool) :
    (g.text t quoted).text u quoted = g.text (t ++ u) quoted := by
  obtain ⟨pieces, q⟩ := g
  cases pieces with
  | nil => simp [text]
  | cons p rest =>
    cases p with
    | text before q' =>
      by_cases hq : q' = quoted
      · simp [text, hq]
      · simp [text, hq]
    | _ => simp [text]

/-- Quoting what is already quoted makes no difference. -/
theorem Gathered.quote_text (g : Gathered) (t : Bytes) (quoted : Bool) :
    (g.quote.text t quoted).quote = g.quote.text t quoted := by
  obtain ⟨pieces, q⟩ := g
  cases pieces with
  | nil => rfl
  | cons p rest =>
    cases p with
    | text before q' =>
      by_cases hq : q' = quoted
      · simp [text, quote, hq]
      · simp [text, quote, hq]
    | _ => rfl

namespace Reading

variable {α β : Type} {s s' : Source} {t after : Bytes} {c : Char}

/-! ## Single steps -/

/-- A reader that has come to something is followed by what is made of it. -/
theorem run_bind_of_ok {work : Reading α} {next : α → Reading β} {a : α} (h : work.run s = .ok (a, s')) :
    (work >>= next).run s = (next a).run s' := by
  rw [StateT.run_bind, h]
  rfl

/-- To skip a text that comes next is to be past it. -/
theorem run_skip (hs : s.rest = t ++ after) : (skip t.length).run s = .ok ((), s.past t after) := by
  have hcount : ((t ++ after).take t.length).filter (· == '\n') = t.filter (· == '\n') := by
    rw [List.take_left']
    rfl
  show Except.ok ((), ({ s with
    rest := s.rest.drop t.length
    line := s.line + ((s.rest.take t.length).filter (· == '\n')).length } : Source)) = _
  rw [hs, hcount, List.drop_left, ← List.count_eq_length_filter]
  rfl

theorem run_skip_one (hs : s.rest = c :: after) : (skip 1).run s = .ok ((), s.past [c] after) :=
  run_skip (t := [c]) hs

/-- Lines are joined only behind a backslash. -/
theorem run_peekJoined? (h : ∀ rest, s.rest ≠ '\\' :: '\n' :: rest) :
    peekJoined?.run s = .ok (s.rest.head?, s) := by
  have hjoined : joined s.rest s.line = (s.rest, s.line) := by
    unfold joined
    split
    · next rest heq => exact absurd heq (h rest)
    · rfl
  have hjoin : joinLines.run s = .ok ((), s) := by
    show Except.ok ((),
      ({ s with rest := (joined s.rest s.line).1, line := (joined s.rest s.line).2 } : Source)) = _
    rw [hjoined]
  unfold peekJoined?
  rw [run_bind_of_ok hjoin]
  rfl

theorem run_peekJoined?_cons (hs : s.rest = c :: after) (hc : c ≠ '\\') :
    peekJoined?.run s = .ok (some c, s) := by
  rw [run_peekJoined? fun rest hrest => hc (List.cons.inj (hs.symm.trans hrest)).1, hs]
  rfl

/-- What is taken ends where the test first fails. -/
theorem run_takeWhile {test : Char → Bool} (hs : s.rest = t ++ after) (ht : ∀ c ∈ t, test c = true)
    (hafter : ∀ c ∈ after.head?, test c = false) : (takeWhile test).run s = .ok (t, s.past t after) := by
  have htaken : s.rest.takeWhile test = t := by
    rw [hs, List.takeWhile_append_of_pos ht]
    cases after with
    | nil => simp
    | cons c after => simp [hafter c rfl]
  unfold takeWhile
  have hget : (get : Reading Source).run s = .ok (s, s) := rfl
  rw [run_bind_of_ok hget, htaken, run_bind_of_ok (run_skip hs)]
  rfl

/-! ## Texts -/

/-- The character has no meaning of its own in a word, or between double quotes. -/
def Literal : WordPlace → Char → Prop
  | .plain, c => endsWord c = false ∧ c ≠ '\'' ∧ c ≠ '"' ∧ c ≠ '\\' ∧ c ≠ '$' ∧ c ≠ '\x60'
  | .quotes, c => c ≠ '"' ∧ c ≠ '\\' ∧ c ≠ '$' ∧ c ≠ '\x60'
  | _, _ => False

variable {inner : Bool → Reading Command} {n : Nat} {place : WordPlace} {g : Gathered}

/-- Ordinary characters are read in one go, up to the first that is not. -/
theorem pieces_ordinary (hs : s.rest = c :: t ++ after) (hc : isOrdinary c = true)
    (ht : ∀ d ∈ t, isOrdinary d = true) (hafter : ∀ d ∈ after.head?, isOrdinary d = false) :
    (pieces inner (n + 1) place g).run s
      = (pieces inner n place (g.text (c :: t) place.isQuoted)).run (s.past (c :: t) after) := by
  have hpeek := run_peekJoined?_cons hs (by rintro rfl; cases hc)
  have htake := run_takeWhile hs (List.forall_mem_cons.mpr ⟨hc, ht⟩) hafter
  refine (run_bind_of_ok hpeek).trans ?_
  dsimp only
  rw [if_pos hc, run_bind_of_ok htake]

/-- A character that means nothing special where it stands is read on its own. -/
theorem pieces_literal (hs : s.rest = c :: after) (hc : isOrdinary c = false) (hliteral : Literal place c) :
    (pieces inner (n + 1) place g).run s
      = (pieces inner n place (g.text [c] place.isQuoted)).run (s.past [c] after) := by
  have hskip := run_skip_one hs
  cases place with
  | plain =>
    obtain ⟨hends, hapostrophe, hquote, hbackslash, hdollar, hback⟩ := hliteral
    -- none of the tests for special characters holds, so the last branch is taken
    refine (run_bind_of_ok (run_peekJoined?_cons hs hbackslash)).trans ?_
    dsimp only
    rw [if_neg (by simp [hc]), if_neg (by simp [hends]), if_neg (by simp), run_bind_of_ok hskip]
    split <;> first | contradiction | rfl
  | quotes =>
    obtain ⟨hquote, hbackslash, hdollar, hback⟩ := hliteral
    refine (run_bind_of_ok (run_peekJoined?_cons hs hbackslash)).trans ?_
    dsimp only
    rw [if_neg (by simp [hc]), if_neg (by simp), if_neg (by simp), run_bind_of_ok hskip]
    split <;> first | contradiction | rfl
  | _ => cases hliteral

variable (inner) in
/-- What is read in one step of a text that has no meaning of its own: a run of ordinary characters, or another
character. -/
theorem pieces_front (hs : s.rest = c :: t ++ after) (ht : ∀ d ∈ c :: t, isOrdinary d = true ∨ Literal place d)
    (hafter : ∀ d ∈ after.head?, isOrdinary d = false) :
    ∃ front rest, c :: t = front ++ rest ∧ front ≠ [] ∧ (pieces inner (n + 1) place g).run s
      = (pieces inner n place (g.text front place.isQuoted)).run (s.past front (rest ++ after)) := by
  cases hc : isOrdinary c with
  | true =>
    have hsplit : t.takeWhile isOrdinary ++ t.dropWhile isOrdinary = t := List.takeWhile_append_dropWhile
    -- an ordinary character is read together with those behind it
    refine ⟨c :: t.takeWhile isOrdinary, t.dropWhile isOrdinary, by rw [List.cons_append, hsplit],
      List.cons_ne_nil _ _, ?_⟩
    refine pieces_ordinary (by rw [hs, List.cons_append, List.cons_append, ← List.append_assoc, hsplit]) hc
      (fun d hd => List.mem_takeWhile_imp hd) fun d hd => ?_
    rw [List.head?_append, Option.mem_def, Option.or_eq_some_iff] at hd
    obtain hd | ⟨-, hd⟩ := hd
    · have hstop := List.head?_dropWhile_not isOrdinary t
      rw [hd] at hstop
      simpa using hstop
    · exact hafter d hd
  | false =>
    -- any other one is read alone
    have hliteral := (ht c List.mem_cons_self).resolve_left (by rw [hc]; exact Bool.false_ne_true)
    exact ⟨[c], t, rfl, List.cons_ne_nil _ _, pieces_literal hs hc hliteral⟩

variable (inner) in
/-- **What has no meaning of its own is read as it is.** Induction on the length of the text, because a run of
ordinary characters is read at once. -/
theorem pieces_text (hs : s.rest = c :: t ++ after) (ht : ∀ d ∈ c :: t, isOrdinary d = true ∨ Literal place d)
    (hafter : ∀ d ∈ after.head?, isOrdinary d = false) (hn : t.length < n) :
    ∃ k, n ≤ k + (t.length + 1) ∧ (pieces inner n place g).run s
      = (pieces inner k place (g.text (c :: t) place.isQuoted)).run (s.past (c :: t) after) := by
  induction hlength : t.length using Nat.strong_induction_on generalizing c t s g n with
  | _ length ih =>
    -- induction on the length of the text: each step reads a part of it that is not empty
    subst hlength
    obtain ⟨m, rfl⟩ := Nat.exists_eq_add_one_of_ne_zero (Nat.ne_zero_of_lt hn)
    obtain ⟨front, rest, happend, hfront, hstep⟩ := pieces_front inner (n := m) (g := g) hs ht hafter
    cases rest with
    | nil =>
      rw [List.append_nil] at happend
      refine ⟨m, by omega, ?_⟩
      rw [hstep, happend, List.nil_append]
    | cons d rest =>
      have hlength : t.length + 1 = front.length + (rest.length + 1) := by
        simpa using congrArg List.length happend
      have hpositive := List.length_pos_of_ne_nil hfront
      obtain ⟨k, hk, hlater⟩ := ih rest.length (by omega) (s := s.past front (d :: rest ++ after))
        (g := g.text front place.isQuoted) (n := m) (c := d) (t := rest) rfl
        (fun e he => ht e (happend ▸ List.mem_append_right front he)) (by omega) rfl
      refine ⟨k, by omega, ?_⟩
      rw [hstep, hlater, Gathered.text_text, Source.past_past, happend]

/-! ## Quotes -/

theorem not_isOrdinary_of_endsWord : ∀ c, endsWord c = true → isOrdinary c = false ∧ c ≠ '\\' := by
  intro c hc
  have hlist : c ∈ [' ', '\t', '\n', '&', '|', ';', '<', '>', '(', ')'] := List.contains_iff_mem.mp hc
  fin_cases hlist <;> decide

/-- A word goes on up to a character that ends it. -/
theorem pieces_end (hend : ∀ c ∈ s.rest.head?, endsWord c = true) :
    (pieces inner n .plain g).run s = .ok (g, s) := by
  cases n with
  | zero => rfl
  | succ n =>
    cases hs : s.rest with
    | nil =>
      -- the source has ended
      have hpeek : peekJoined?.run s = .ok (none, s) := by
        rw [run_peekJoined? (fun rest hrest => nomatch hs.symm.trans hrest), hs]
        rfl
      refine (run_bind_of_ok hpeek).trans ?_
      rfl
    | cons c after =>
      -- a character that ends words stays where it is
      have hc : endsWord c = true := hend c (by rw [hs]; rfl)
      obtain ⟨hordinary, hbackslash⟩ := not_isOrdinary_of_endsWord c hc
      refine (run_bind_of_ok (run_peekJoined?_cons hs hbackslash)).trans ?_
      dsimp only
      rw [if_neg (by simp [hordinary]), if_pos (by simp [hc])]
      rfl

variable (inner) in
/-- A text between apostrophes. -/
theorem pieces_apostrophes (ht : '\'' ∉ t) (hs : s.rest = '\'' :: t ++ '\'' :: after) :
    (pieces inner (n + 1) .plain g).run s
      = (pieces inner n .plain (g.quote.text t true)).run (s.past ('\'' :: t ++ ['\'']) after) := by
  -- first the opening apostrophe, then all up to the closing one, then that one
  have hskip := run_skip_one hs
  have htake : (takeWhile (· ≠ '\'')).run (s.past ['\''] (t ++ '\'' :: after))
      = .ok (t, s.past ('\'' :: t) ('\'' :: after)) := by
    have hother : ∀ c ∈ t, decide (c ≠ '\'') = true := fun c hc =>
      decide_eq_true fun h => ht (h ▸ hc)
    rw [run_takeWhile rfl hother (by simp), Source.past_past]
    rfl
  have hpeek : peek?.run (s.past ('\'' :: t) ('\'' :: after))
      = .ok (some '\'', s.past ('\'' :: t) ('\'' :: after)) := rfl
  have hclose : (skip 1).run (s.past ('\'' :: t) ('\'' :: after))
      = .ok ((), s.past ('\'' :: t ++ ['\'']) after) := by
    rw [run_skip_one (c := '\'') rfl, Source.past_past]
  refine (run_bind_of_ok (run_peekJoined?_cons hs (by decide))).trans ?_
  dsimp only
  rw [if_neg (by decide), if_neg (by decide), if_neg (by decide), run_bind_of_ok hskip]
  refine (run_bind_of_ok htake).trans ((run_bind_of_ok hpeek).trans ?_)
  exact run_bind_of_ok hclose

/-- An apostrophe behind a backslash. -/
theorem pieces_backslash (hs : s.rest = '\\' :: '\'' :: after) :
    (pieces inner (n + 1) .plain g).run s
      = (pieces inner n .plain (g.quote.text ['\''] true)).run (s.past ['\\', '\''] after) := by
  -- the sign may not join two lines here, since an apostrophe follows
  have hpeek : peekJoined?.run s = .ok (some '\\', s) := by
    rw [run_peekJoined? (fun rest hrest => nomatch hs.symm.trans hrest), hs]
    rfl
  have hnext : peek?.run (s.past ['\\'] ('\'' :: after)) = .ok (some '\'', s.past ['\\'] ('\'' :: after)) := rfl
  have hskip : (skip 1).run (s.past ['\\'] ('\'' :: after)) = .ok ((), s.past ['\\', '\''] after) := by
    rw [run_skip_one (c := '\'') rfl, Source.past_past]
    rfl
  refine (run_bind_of_ok hpeek).trans ?_
  dsimp only
  rw [if_neg (by decide), if_neg (by decide), if_neg (by decide), run_bind_of_ok (run_skip_one hs)]
  refine (run_bind_of_ok hnext).trans ?_
  exact run_bind_of_ok hskip

/-- The closing quote ends what stands between double quotes. -/
theorem pieces_close (hs : s.rest = '"' :: after) :
    (pieces inner (n + 1) .quotes g).run s = .ok (g, s.past ['"'] after) := by
  refine (run_bind_of_ok (run_peekJoined?_cons hs (by decide))).trans ?_
  dsimp only
  rw [if_neg (by decide), if_neg (by decide), if_neg (by decide), run_bind_of_ok (run_skip_one hs)]
  rfl

/-- A text between double quotes. -/
theorem pieces_quotes (hs : s.rest = '"' :: (c :: t ++ '"' :: after)) (ht : ∀ d ∈ c :: t, Literal .quotes d)
    (hn : t.length + 1 < n) :
    (pieces inner (n + 1) .plain g).run s
      = (pieces inner n .plain (g.quote.text (c :: t) true)).run (s.past ('"' :: (c :: t ++ ['"'])) after) := by
  have hliteral : ∀ d ∈ c :: t, isOrdinary d = true ∨ Literal .quotes d := fun d hd => .inr (ht d hd)
  have hclosing : ∀ d ∈ ('"' :: after).head?, isOrdinary d = false := by
    rintro _ ⟨⟩
    decide
  -- between the quotes the text is read in the same way, but in its own place
  obtain ⟨k, hk, hwithin⟩ := pieces_text inner (n := n) (g := {}) (s := s.past ['"'] (c :: t ++ '"' :: after)) rfl
    hliteral hclosing (by omega)
  obtain ⟨k, rfl⟩ := Nat.exists_eq_add_one_of_ne_zero (n := k) (by omega)
  rw [pieces_close rfl, Source.past_past, Source.past_past] at hwithin
  refine (run_bind_of_ok (run_peekJoined?_cons hs (by decide))).trans ?_
  dsimp only
  rw [if_neg (by decide), if_neg (by decide), if_neg (by decide), run_bind_of_ok (run_skip_one hs)]
  refine (run_bind_of_ok hwithin).trans ?_
  have hstart : (g.quote.text [] true).text (c :: t) true = g.quote.text (c :: t) true :=
    Gathered.text_text _ _ _ _
  rw [← hstart]
  rfl

/-- What is written for a character between apostrophes. -/
def spelled (c : Char) : Bytes :=
  if c = '\'' then ['\'', '\\', '\'', '\''] else [c]

/-- A text without apostrophes is spelled as it is. -/
theorem flatMap_spelled (ht : '\'' ∉ t) : t.flatMap spelled = t := by
  induction t with
  | nil => rfl
  | cons c t ih =>
    obtain ⟨hc, ht⟩ := List.ne_and_not_mem_of_not_mem_cons ht
    rw [List.flatMap_cons, ih ht, spelled, if_neg hc.symm, List.singleton_append]

theorem length_le_flatMap_spelled (t : Bytes) : t.length ≤ (t.flatMap spelled).length := by
  induction t with
  | nil => exact Nat.le_refl 0
  | cons c t ih =>
    have hone : 1 ≤ (spelled c).length := by
      unfold spelled
      split <;> simp
    rw [List.flatMap_cons, List.length_append, List.length_cons]
    omega

theorem length_lt_inApostrophes (name : Bytes) : name.length < (Bytes.inApostrophes name).length := by
  have hspelled := length_le_flatMap_spelled name
  unfold spelled at hspelled
  unfold Bytes.inApostrophes
  dsimp only
  split
  · simp
  · split
    · simp
    · simp only [List.length_append, List.length_cons, List.length_nil]
      omega

/-- **Apostrophes that leave the others for a moment.** Induction on the length of the name, from one apostrophe
to the next. -/
theorem pieces_spelled (name : Bytes) (hs : s.rest = '\'' :: (name.flatMap spelled ++ '\'' :: after))
    (hn : 2 * name.length < n) :
    ∃ k, (pieces inner n .plain g).run s
      = (pieces inner k .plain (g.quote.text name true)).run
          (s.past ('\'' :: (name.flatMap spelled ++ ['\''])) after) := by
  induction hlength : name.length using Nat.strong_induction_on generalizing name s g n with
  | _ length ih =>
    subst hlength
    -- induction on the length: the name is cut at its first apostrophe
    by_cases hname : '\'' ∈ name
    · obtain ⟨front, rest, rfl, hfront⟩ := List.eq_append_cons_of_mem hname
      obtain ⟨m, rfl⟩ := Nat.exists_eq_add_of_le' (show 2 ≤ n by simp at hn; omega)
      have htext : (front ++ '\'' :: rest).flatMap spelled
          = front ++ '\'' :: '\\' :: '\'' :: '\'' :: rest.flatMap spelled := by
        rw [List.flatMap_append, flatMap_spelled hfront]
        rfl
      rw [List.length_append, List.length_cons] at hn
      have hfront' : s.rest = '\'' :: front ++ '\'' ::
          ('\\' :: '\'' :: '\'' :: (rest.flatMap spelled ++ '\'' :: after)) := by
        rw [hs, htext]
        simp
      obtain ⟨k, hlater⟩ := ih rest.length (by simp; omega)
        (g := (g.quote.text front true).quote.text ['\''] true)
        (s := (s.past ('\'' :: front ++ ['\''])
            ('\\' :: '\'' :: '\'' :: (rest.flatMap spelled ++ '\'' :: after))).past
          ['\\', '\''] ('\'' :: (rest.flatMap spelled ++ '\'' :: after)))
        (n := m) rest rfl (by omega) rfl
      -- three parts stand one behind the other: the text before it between apostrophes, the apostrophe behind a
      -- backslash, and the rest
      refine ⟨k, ?_⟩
      rw [pieces_apostrophes inner hfront hfront', pieces_backslash rfl, hlater, Source.past_past,
        Source.past_past, htext]
      rw [Gathered.quote_text, Gathered.text_text, Gathered.quote_text, Gathered.text_text, List.append_assoc]
      simp
    · obtain ⟨m, rfl⟩ := Nat.exists_eq_add_one_of_ne_zero (Nat.ne_zero_of_lt hn)
      rw [flatMap_spelled hname] at hs ⊢
      exact ⟨m, pieces_apostrophes inner hname hs⟩

variable (inner) in
/-- **Quoted names are read as one quoted text**, however they are quoted. -/
theorem pieces_inApostrophes (name : Bytes) (hs : s.rest = Bytes.inApostrophes name ++ after)
    (hn : 2 * name.length + 2 < n) :
    ∃ k, (pieces inner n .plain g).run s
      = (pieces inner k .plain (g.quote.text name true)).run (s.past (Bytes.inApostrophes name) after) := by
  obtain ⟨m, rfl⟩ := Nat.exists_eq_add_one_of_ne_zero (Nat.ne_zero_of_lt hn)
  unfold Bytes.inApostrophes at hs ⊢
  dsimp only at hs ⊢
  split at hs
  · next hnone =>
    -- a name without apostrophes stands between them
    have hname : '\'' ∉ name := by simpa using hnone
    rw [if_pos hnone]
    exact ⟨m, pieces_apostrophes inner hname (by simpa using hs)⟩
  · next hsome =>
    rw [if_neg hsome]
    split at hs
    · next hplain =>
      -- a name with apostrophes stands between quotes, if nothing in it is special there
      rw [if_pos hplain]
      cases name with
      | nil => exact absurd rfl hsome
      | cons c t =>
        have hliteral : ∀ d ∈ c :: t, Literal .quotes d := by
          intro d hd
          have hd' := List.any_eq_false.mp ((Bool.not_eq_true' _).mp hplain) d hd
          simp at hd'
          exact ⟨hd'.1.1.1.1, hd'.1.2, hd'.1.1.1.2, hd'.1.1.2⟩
        have hquoted : s.rest = '"' :: (c :: t ++ '"' :: after) := by
          rw [hs, List.append_assoc]
          rfl
        exact ⟨m, pieces_quotes hquoted hliteral (by simp at hn; omega)⟩
    · next hspecial =>
      -- or else its apostrophes are spelled one by one
      rw [if_neg hspecial]
      have hspelled : s.rest = '\'' :: (name.flatMap spelled ++ '\'' :: after) := by
        rw [hs, List.append_assoc]
        rfl
      exact pieces_spelled name hspelled (by omega)

end Reading

/-! ## Names that are shown -/

/-- Nothing of another word stands in front of the text. -/
def EndsWord (after : Bytes) : Prop :=
  ∀ c ∈ after.head?, Reading.endsWord c = true

/-- The characters that have a meaning of their own in a word that is not quoted. -/
def signs : List Char :=
  [' ', '\t', '\n', '&', '|', ';', '<', '>', '(', ')', '\'', '"', '\\', '$', '\x60', '*', '?', '[']

/-- A character that is none of the signs means nothing special outside of quotes. -/
theorem literal_of_notMem_signs {c : Char} (h : c ∉ signs) : Reading.Literal .plain c := by
  simp [signs] at h
  refine ⟨?_, ?_⟩
  · simp [Reading.endsWord, h]
  · simp [h]

/-- A plain name has none of them. -/
theorem notMem_signs_of_isPlainName {name : Bytes} (h : Bytes.isPlainName name = true) :
    name ≠ [] ∧ ∀ c ∈ name, c ∉ signs := by
  have hsigns : ∀ c ∈ signs, Bytes.isPlainName [c] = false := by
    unfold signs
    intro c hc
    fin_cases hc <;> decide
  unfold Bytes.isPlainName at h
  obtain ⟨hne, hall⟩ := (Bool.and_eq_true _ _).mp h
  refine ⟨by simpa using hne, fun c hc hsign => ?_⟩
  have hplain : Bytes.isPlainName [c] = true := by
    unfold Bytes.isPlainName
    simpa using List.all_eq_true.mp hall c hc
  exact Bool.false_ne_true ((hsigns c hsign).symm.trans hplain)

/-- **Names that are shown stand for themselves.** A name as it stands in a message is read as one word of a
script, and that word stands for the name and for nothing else, whatever the name consists of and whatever the
script has changed. -/
theorem texts_shown (inner : Bool → Reading Command) (name : Bytes) {after : Bytes} {s : Source}
    (hs : s.rest = Bytes.shown name ++ after) (hafter : EndsWord after) :
    ∃ g, (Reading.piecesIn inner .plain).run s = .ok (g, s.past (Bytes.shown name) after)
      ∧ ∀ output m, (Running.texts output g.word).exec m = (.ok [name], m) := by
  have hget : (get : Reading Source).run s = .ok (s, s) := rfl
  unfold Reading.piecesIn
  rw [Reading.run_bind_of_ok hget]
  unfold Bytes.shown at hs ⊢
  dsimp only at hs ⊢
  split at hs
  · next hplain =>
    -- a plain name is shown as it is, and nothing in it is expanded
    obtain ⟨hplain', hleads⟩ := (Bool.and_eq_true _ _).mp hplain
    obtain ⟨hne, hsigns⟩ := notMem_signs_of_isPlainName hplain'
    obtain ⟨c, t, rfl⟩ := List.exists_cons_of_ne_nil hne
    obtain ⟨k, -, hread⟩ := Reading.pieces_text inner (g := {}) (n := 2 * s.rest.length + 2) hs
      (fun d hd => .inr (literal_of_notMem_signs (hsigns d hd)))
      (fun d hd => (Reading.not_isOrdinary_of_endsWord d (hafter d hd)).1) (by rw [hs]; simp; omega)
    rw [if_pos hplain, hread, Reading.pieces_end (s := s.past _ after) hafter]
    refine ⟨_, rfl, fun output m => Running.exec_texts_plain hne ?_ (fun d hd => ?_) m⟩
    · rintro ⟨⟩
      simp at hleads
    · have hd' := hsigns d hd
      simp [signs] at hd'
      simp [hd']
  · next hquoted =>
    -- any other name is shown in quotes, so it is neither split nor taken for a pattern
    have hlength : name.length < s.rest.length := by
      rw [hs, List.length_append]
      exact Nat.lt_add_right _ (Reading.length_lt_inApostrophes name)
    obtain ⟨k, hread⟩ := Reading.pieces_inApostrophes inner (g := {}) (n := 2 * s.rest.length + 2) name hs
      (by omega)
    rw [if_neg hquoted, hread, Reading.pieces_end (s := s.past _ after) hafter]
    exact ⟨_, rfl, fun output m => Running.exec_texts_text name m⟩

end TemplateCoverage.Shell
