import TemplateCoverage.Proofs.Branch.Located
import TemplateCoverage.Proofs.Instrument.Insertion
import TemplateCoverage.Proofs.Text.LineEnd
import TemplateCoverage.Proofs.Text.Trim

/-!
# Line ends do not matter

A file may have its lines end with a line feed, or with a carriage return in front of it as well. The tokens
of a line are those of its front (`tokensOf_toCrlf`), so a scan shows the same. The tracking code holds no
line feed of its own (`oneLine_trackingCall`) and stands within the front of its line
(`column_lt_of_opensAction`). So the instrumented text differs in the line ends of the source only
(`instrument_toCrlf`).
-/

namespace TemplateCoverage

open Text

/-! ## Tokens -/

/-- Whatever ends a line is cut off. -/
theorem withoutLineEnd_of_ending {ending : List Char} (h : ∀ c ∈ ending, c = '\n' ∨ c = '\r')
    (front : List Char) : withoutLineEnd (front ++ ending) = withoutLineEnd front := by
  unfold withoutLineEnd
  rw [dropEndWhile_eq_iff]
  obtain ⟨⟨tail, hfront, htail⟩, hlast⟩ := dropEndWhile_eq_iff.mp (Eq.refl (withoutLineEnd front))
  -- the cut stays where it is, and the ending belongs to what is cut off
  refine ⟨⟨tail ++ ending, ?_, fun c hc => ?_⟩, hlast⟩
  · rw [← List.append_assoc]
    exact congrArg (· ++ ending) hfront
  · rcases List.mem_append.mp hc with hc | hc
    · exact htail c hc
    · simpa using h c hc

theorem withoutLineEnd_toCrlf {cs line : List Char} (h : line ∈ lines cs) :
    withoutLineEnd (toCrlf line) = withoutLineEnd line := by
  obtain ⟨front, ending, rfl, hfront, hending⟩ := exists_front_of_mem_lines h
  rw [toCrlf_append, toCrlf_of_newline_not_mem hfront]
  rcases hending with rfl | rfl
  · rfl
  · have hcrlf : ∀ c ∈ LineEnd.crlf.chars, c = '\n' ∨ c = '\r' := by simp [LineEnd.chars]
    have hlf : ∀ c ∈ LineEnd.lf.chars, c = '\n' ∨ c = '\r' := by simp [LineEnd.chars]
    exact (withoutLineEnd_of_ending hcrlf front).trans (withoutLineEnd_of_ending hlf front).symm

/-- Tokens do not depend on how lines end. -/
theorem tokensOf_toCrlf (evaluators : List String) (source : List Char) :
    tokensOf evaluators (toCrlf source) = tokensOf evaluators source := by
  unfold tokensOf
  rw [numberedLines_toCrlf, List.flatMap_map]
  refine List.flatMap_congr fun ⟨line, number⟩ hx => ?_
  have hline : line ∈ lines source := List.fst_mem_of_mem_zipIdx hx
  dsimp only
  unfold tokensOfLine
  rw [withoutLineEnd_toCrlf hline]

/-! ## Tracking code -/

namespace Template

/-- The text holds no line feed. -/
def OneLine (s : String) : Prop :=
  '\n' ∉ s.toList

instance (s : String) : Decidable (OneLine s) :=
  inferInstanceAs (Decidable (_ ∉ _))

/-- Two texts without line feeds make one without. -/
theorem OneLine.append {s t : String} (hs : OneLine s) (ht : OneLine t) : OneLine (s ++ t) := by
  unfold OneLine
  rw [String.toList_append, List.mem_append, not_or]
  exact ⟨hs, ht⟩

/-- Line feeds are escaped in a literal. -/
theorem oneLine_literal (s : String) : OneLine (literal s) := by
  have hchars : OneLine (String.ofList (s.toList.flatMap literalChar)) := by
    unfold OneLine
    rw [String.toList_ofList, List.mem_flatMap]
    rintro ⟨c, -, hmem⟩
    unfold literalChar at hmem
    split at hmem
    · exact absurd hmem (by decide)
    · split at hmem
      · exact absurd hmem (by decide)
      · split at hmem
        · exact absurd hmem (by decide)
        -- what is not escaped is no line feed
        · next hc => exact hc (List.mem_singleton.mp hmem).symm
  have hquote : OneLine "\"" := by decide
  exact (hquote.append hchars).append hquote

theorem oneLine_action {opening text : String} (hopening : OneLine opening) (htext : OneLine text) :
    OneLine (action opening text) := by
  have hblank : OneLine " " := by decide
  have hclose : OneLine " \x7d\x7d" := by decide
  exact ((hopening.append hblank).append htext).append hclose

theorem oneLine_place (place : Place) : OneLine place.text := by
  cases place with
  | root => decide
  | under key =>
    have hbegin : OneLine "(index $ " := by decide
    have hend : OneLine ")" := by decide
    exact (hbegin.append (oneLine_literal key)).append hend

theorem oneLine_test (test : Test) : OneLine test.text := by
  cases test with
  | isMap place =>
    have hbegin : OneLine "kindIs \"map\" " := by decide
    exact hbegin.append (oneLine_place place)
  | hasKey place key =>
    have hbegin : OneLine "hasKey " := by decide
    have hblank : OneLine " " := by decide
    exact ((hbegin.append (oneLine_place place)).append hblank).append (oneLine_literal key)

/-- What records a branch has no line feed, whatever the ID is: it is quoted. -/
theorem oneLine_recordText (place : Place) (collection id : String) :
    OneLine (recordText place collection id) := by
  have hplace := oneLine_place place
  have hcollection := oneLine_literal collection
  have hstate := oneLine_literal stateKey
  have hset : OneLine "$_ := set (index " := by decide
  have happend : OneLine " (append (index " := by decide
  have hblank : OneLine " " := by decide
  have hclose : OneLine ") " := by decide
  have hend : OneLine ")" := by decide
  have hlist := (((hset.append hplace).append hblank).append hstate).append hclose
  have hentry := (((hlist.append hcollection).append happend).append hplace).append hblank
  have hentries := (((hentry.append hstate).append hblank).append hcollection).append hclose
  exact (hentries.append (oneLine_literal id)).append hend

/-- Code stands on one line, by itself and as what happens otherwise. Induction over the code. -/
theorem oneLine_code (code : Code) :
    (∀ opening, OneLine opening → OneLine (code.text opening)) ∧ OneLine code.elseText := by
  have hopen : OneLine openBraces := by decide
  have hend : OneLine (action openBraces "end") := oneLine_action hopen (by decide)
  -- induction on the code, for both ways in which it is written
  induction code with
  | skip =>
    have hempty : OneLine "" := by decide
    exact ⟨fun _ _ => hempty, hempty⟩
  | record place collection id =>
    have hrecord := oneLine_recordText place collection id
    have helse : OneLine (action openBraces "else") := oneLine_action hopen (by decide)
    exact ⟨fun _ hopening => oneLine_action hopening hrecord,
      helse.append (oneLine_action hopen hrecord)⟩
  | branch test yes no ihyes ihno =>
    have hyes := ihyes.1 openBraces hopen
    have hif : OneLine ("if " ++ test.text) := .append (by decide) (oneLine_test test)
    have helseIf : OneLine ("else if " ++ test.text) := .append (by decide) (oneLine_test test)
    exact ⟨fun _ hopening => (((oneLine_action hopening hif).append hyes).append ihno.2).append hend,
      ((oneLine_action hopen helseIf).append hyes).append ihno.2⟩

theorem oneLine_trackingCall (wrapperKeys : List String) (b : Branch) :
    OneLine (trackingCall wrapperKeys b) := by
  refine (oneLine_code (trackingCode wrapperKeys b)).1 _ ?_
  split
  · decide
  · decide

end Template

/-! ## The instrumented text -/

/-- An action does not open at the end of a line or within it. -/
theorem column_lt_of_opensAction {front ending back : List Char} {column : Nat} {trim : Bool}
    (hending : ending = [] ∨ ending = ['\n']) (hfollows : FollowsAt column (front ++ ending) back)
    (hopens : OpensAction trim back) : column < byteLength front := by
  by_contra hlt
  have hfront : FollowsAt (byteLength front) (front ++ ending) ending := ⟨front, rfl, rfl⟩
  obtain ⟨mid, hmid, -⟩ := hfront.of_le hfollows (Nat.not_lt.mp hlt)
  obtain ⟨c, rest, rfl, -, -⟩ := hopens
  -- the braces of the action would be part of the line end
  have hbrace : '{' ∈ ending := by simp [hmid]
  rcases hending with rfl | rfl
  · exact absurd hbrace (by decide)
  · exact absurd hbrace (by decide)

/-- Branches that stand in a text have their code within the fronts of its lines. -/
theorem codeAt_eq_nil {source : List Char} {branches : List Branch}
    (h : ∀ b ∈ branches, StandsAt source b.tokenLine b.column b.trimLeft) {front ending : List Char}
    {number : Nat} (hline : (front ++ ending, number) ∈ numberedLines source)
    (hending : ending = [] ∨ ending = ['\n']) (wrapperKeys : List String) {column : Nat}
    (hcolumn : byteLength front ≤ column) : codeAt wrapperKeys branches number column = [] := by
  have hnone : branches.filter (·.position = (number, column)) = [] := by
    -- a branch with this position would stand at the end of its line, where no action opens
    refine List.filter_eq_nil_iff.mpr fun b hb hposition => ?_
    have hnumber : b.tokenLine = number := congrArg Prod.fst (of_decide_eq_true hposition)
    have hsame : b.column = column := congrArg Prod.snd (of_decide_eq_true hposition)
    obtain ⟨i, hi, hi₁, back, hfollows, hopens⟩ := h b hb
    obtain ⟨j, hj, hj₁, hfront⟩ := mem_numberedLines hline
    obtain rfl : i = j := by omega
    rw [← hfront] at hfollows
    have hlt : b.column < byteLength front := column_lt_of_opensAction hending hfollows hopens
    omega
  unfold codeAt
  rw [hnone]
  rfl

/-- No line feed is inserted anywhere. -/
theorem newline_not_mem_codeAt (wrapperKeys : List String) (branches : List Branch)
    (number column : Nat) : '\n' ∉ codeAt wrapperKeys branches number column := by
  unfold codeAt
  rw [List.mem_flatMap]
  rintro ⟨b, -, hmem⟩
  exact Template.oneLine_trackingCall wrapperKeys b hmem

/-- **Only the line ends change.** Line by line, the code stands within the front of the line and holds no
line feed. -/
theorem text_pieces_toCrlf {source : List Char} {branches : List Branch}
    (h : ∀ b ∈ branches, StandsAt source b.tokenLine b.column b.trimLeft) (wrapperKeys : List String) :
    (pieces (toCrlf source) branches).flatMap (Piece.text wrapperKeys)
      = toCrlf ((pieces source branches).flatMap (Piece.text wrapperKeys)) := by
  have hcrlf : ∀ xs : List (List Char × Nat), ∀ f : List Char × Nat → List Char,
      toCrlf (xs.flatMap f) = xs.flatMap fun x => toCrlf (f x) := fun xs f => List.flatMap_assoc
  rw [text_pieces_eq, text_pieces_eq, numberedLines_toCrlf, List.flatMap_map, hcrlf]
  refine List.flatMap_congr fun x hx => ?_
  obtain ⟨line, number⟩ := x
  obtain ⟨front, ending, rfl, hfront, hending⟩ :=
    exists_front_of_mem_lines (List.fst_mem_of_mem_zipIdx hx)
  -- nothing is inserted within a line end, and nothing that is inserted has one
  exact insertThrough_toCrlf (newline_not_mem_codeAt wrapperKeys branches number) hfront
    (fun _ hcolumn => codeAt_eq_nil h hx hending wrapperKeys hcolumn) ending

/-- **Line ends do not matter.** With a carriage return in front of every line feed, a source text shows the
same in a scan, and an allocator gives the same branches, with the same IDs, and goes on in the same way.
Between the set-up code and the report code, the instrumented text is the one of the source with a carriage
return in front of every line feed. -/
theorem instrument_toCrlf (a : Allocator) (evaluators wrapperKeys : List String) (file : String)
    (kind : FileKind) (source : String) :
    let source' := String.ofList (toCrlf source.toList)
    let branches := scannedBranches a evaluators file kind source
    let branches' := scannedBranches a evaluators file kind source'
    scan evaluators file source' = scan evaluators file source
      ∧ a.allocate file kind (Finding.arms (scan evaluators file source'))
        = a.allocate file kind (Finding.arms (scan evaluators file source))
      ∧ instrument wrapperKeys source kind branches
        = framed kind (sourcePart wrapperKeys source branches)
      ∧ instrument wrapperKeys source' kind branches'
        = framed kind (sourcePart wrapperKeys source' branches')
      ∧ sourcePart wrapperKeys source' branches'
        = String.ofList (toCrlf (sourcePart wrapperKeys source branches).toList) := by
  intro source' branches branches'
  -- the tokens are the same, so all that is found is
  have hscan : scan evaluators file source' = scan evaluators file source := by
    unfold scan
    rw [String.toList_ofList, tokensOf_toCrlf]
  have hbranches : branches' = branches := by
    show scannedBranches a evaluators file kind source' = branches
    unfold scannedBranches
    rw [hscan]
    rfl
  refine ⟨hscan, by rw [hscan], instrument_eq_framed .., instrument_eq_framed .., ?_⟩
  have hstands := (located_scannedBranches a evaluators file kind source).stands
  rw [hbranches]
  unfold sourcePart
  rw [String.toList_ofList, String.toList_ofList]
  exact congrArg String.ofList (text_pieces_toCrlf hstands wrapperKeys)

end TemplateCoverage
