import TemplateCoverage.Proofs.Xml.Tag
import TemplateCoverage.Report.Cobertura

/-!
# The elements of the document

The Cobertura document is put together from texts. Here it is read again, by a reader of XML that knows
nothing of coverage: which tags it has, which elements are found among them, and what is inside of these.

* **`holds_classElement`**, **`holds_documentText`**: the tags of a class and of the document.
* **`tags_toCobertura`**: the tags of the document of a report, in order.
* **`elements_coverage`**, **`elements_package`**, **`elements_line`**: the elements that are found by their
  names.
* **`contents_class`**: the elements of the classes, one for each class, with the tags inside of them.
-/

namespace TemplateCoverage.Report

open Xml

/-! ## Lines -/

/-- The attributes of a line: its number, whether it was hit, and the arms of its decision. -/
def lineAttributes (number : Nat) (l : LineCoverage) : List (String × String) :=
  ("number", toString number) :: ("hits", if l.hit then "1" else "0") ::
    match l.decision with
    | some (covered, total) =>
      [("branch", "true"),
       ("condition-coverage", toString (100 * covered / total) ++ "% (" ++ toString covered ++ "/"
          ++ toString total ++ ")")]
    | none => [("branch", "false")]

/-- The tag of a line. The element has nothing in it, so that the tag ends it. -/
def lineTag (number : Nat) (l : LineCoverage) : String :=
  tag "line" (lineAttributes number l) ++ "/"

/-- Without arms the percentage is zero, as it is for any division by zero. -/
theorem conditionText_eq (covered total : Nat) :
    conditionText covered total
      = toString (100 * covered / total) ++ "% (" ++ toString covered ++ "/" ++ toString total
        ++ ")" := by
  have hpercent : (if total = 0 then 0 else covered * 100 / total) = 100 * covered / total := by
    rw [Nat.mul_comm]
    split
    · next h => rw [h, Nat.div_zero]
    · rfl
  unfold conditionText
  rw [hpercent]

/-- A row is one tag on a line of its own. -/
theorem lineElement_eq (number : Nat) (l : LineCoverage) :
    lineElement number l = "            " ++ ("<" ++ lineTag number l ++ ">") ++ "\n" := by
  unfold lineElement lineTag tag lineAttributes
  cases l.decision with
  | none => exact String.toList_injective (by simp)
  | some d =>
    simp only [conditionText_eq]
    exact String.toList_injective (by simp)

theorem isName_lineAttributes (number : Nat) (l : LineCoverage) :
    ∀ n ∈ (lineAttributes number l).map Prod.fst, IsName n := by
  unfold lineAttributes
  cases l.decision with
  | none =>
    show ∀ n ∈ ["number", "hits", "branch"], IsName n
    decide
  | some d =>
    show ∀ n ∈ ["number", "hits", "branch", "condition-coverage"], IsName n
    decide

/-- So what is read in it is that tag. -/
theorem holds_lineElement (number : Nat) (l : LineCoverage) :
    Holds (lineElement number l) [lineTag number l] := by
  have htag : '>' ∉ (lineTag number l).toList := by
    have := notMem_tag (by decide : IsName "line") (isName_lineAttributes number l)
    unfold lineTag
    simp [this]
  rw [lineElement_eq]
  exact ((holds_text (by decide)).append (holds_tag htag)).append (holds_text (by decide))

/-! ## Classes -/

/-- The attributes of a class. -/
def classAttributes (file : String) (t : Tally) : List (String × String) :=
  [("name", file), ("filename", file),
   ("line-rate", rateText t.linesCovered t.linesValid),
   ("branch-rate", rateText t.branchesCovered t.branchesValid), ("complexity", "0")]

/-- A class is its tag, the tags for the methods and the rows, the rows, and the closing tags. -/
theorem classText_eq (file : String) (t : Tally) (lines : List String) :
    classText file t lines
      = "        " ++ ("<" ++ tag "class" (classAttributes file t) ++ ">")
        ++ ("\n" ++ "          <methods/>\n          <lines>\n")
        ++ String.join lines ++ "          </lines>\n        </class>\n" := by
  have hclass : "        <class" = "        " ++ ("<" ++ "class") := rfl
  have hbreak : ">\n" = ">" ++ "\n" := rfl
  unfold classText Tally.rateAttributes tag classAttributes
  rw [hclass, hbreak]
  simp only [List.map_cons, List.map_nil, String.join_cons, String.join_nil, String.append_empty,
    String.append_assoc]

/-- The tags of a class. -/
def classTags (file : String) (c : ClassCoverage) : List String :=
  [tag "class" (classAttributes file c.tally)] ++ ["methods/", "lines"]
    ++ c.lines.toList.map (fun row => lineTag row.1 row.2) ++ ["/lines", "/class"]

/-- The tags inside the element of a class. -/
def tagsInside (c : ClassCoverage) : List String :=
  ["methods/", "lines"] ++ c.lines.toList.map (fun row => lineTag row.1 row.2) ++ ["/lines"]

/-- The tags of a class, put as the tag that begins it, what is inside, and the one that ends it. -/
theorem classTags_eq (file : String) (c : ClassCoverage) :
    classTags file c = tag "class" (classAttributes file c.tally) :: tagsInside c ++ ["/class"] := by
  unfold classTags tagsInside
  simp

theorem isName_classAttributes (file : String) (t : Tally) :
    ∀ n ∈ (classAttributes file t).map Prod.fst, IsName n := by
  show ∀ n ∈ ["name", "filename", "line-rate", "branch-rate", "complexity"], IsName n
  decide

theorem holds_classElement (file : String) (c : ClassCoverage) :
    Holds (classElement file c) (classTags file c) := by
  have htag := notMem_tag (by decide : IsName "class") (isName_classAttributes file c.tally)
  -- the rows one after another; all else is the same for every class
  have hlines : Holds
      (String.join (c.lines.toList.map fun row : Nat × LineCoverage => lineElement row.1 row.2))
      (c.lines.toList.map fun row : Nat × LineCoverage => lineTag row.1 row.2) := by
    rw [List.map_eq_flatMap (l := c.lines.toList) (f := fun row => lineTag row.1 row.2)]
    exact holds_join fun row _ => holds_lineElement row.1 row.2
  have hbegin : Holds ("\n" ++ "          <methods/>\n          <lines>\n") ["methods/", "lines"] := by
    decide
  have hend : Holds "          </lines>\n        </class>\n" ["/lines", "/class"] := by
    decide
  unfold classElement
  rw [classText_eq]
  exact ((((holds_text (by decide)).append (holds_tag htag)).append hbegin).append hlines).append hend

/-! ## The document -/

/-- The attributes of the whole coverage. -/
def coverageAttributes (options : CoberturaOptions) (t : Tally) : List (String × String) :=
  [("line-rate", rateText t.linesCovered t.linesValid),
   ("branch-rate", rateText t.branchesCovered t.branchesValid),
   ("lines-covered", toString t.linesCovered), ("lines-valid", toString t.linesValid),
   ("branches-covered", toString t.branchesCovered), ("branches-valid", toString t.branchesValid),
   ("complexity", "0"), ("version", options.version), ("timestamp", options.timestamp)]

/-- The attributes of the chart. -/
def packageAttributes (chart : String) (t : Tally) : List (String × String) :=
  [("name", chart), ("line-rate", rateText t.linesCovered t.linesValid),
   ("branch-rate", rateText t.branchesCovered t.branchesValid), ("complexity", "0")]

theorem isName_coverageAttributes (options : CoberturaOptions) (t : Tally) :
    ∀ n ∈ (coverageAttributes options t).map Prod.fst, IsName n := by
  show ∀ n ∈ ["line-rate", "branch-rate", "lines-covered", "lines-valid", "branches-covered",
    "branches-valid", "complexity", "version", "timestamp"], IsName n
  decide

theorem isName_packageAttributes (chart : String) (t : Tally) :
    ∀ n ∈ (packageAttributes chart t).map Prod.fst, IsName n := by
  show ∀ n ∈ ["name", "line-rate", "branch-rate", "complexity"], IsName n
  decide

/-- What stands before the coverage. -/
def prologue : String :=
  "<?xml version=\"1.0\" encoding=\"UTF-8\"?>\n"
    ++ "<!DOCTYPE coverage SYSTEM \"http://cobertura.sourceforge.net/xml/coverage-04.dtd\">\n"

/-- The document is its tags with what stands between them. Only blanks and the text of the source do. -/
theorem documentText_eq (options : CoberturaOptions) (chart : String) (t : Tally)
    (classes : List String) :
    documentText options chart t classes
      = prologue ++ ("<" ++ tag "coverage" (coverageAttributes options t) ++ ">")
        ++ ("\n" ++ "  <sources>\n    <source>")
        ++ escape (options.source.getD ".") ++ ("</source>\n" ++ "  </sources>\n  <packages>\n" ++ "    ")
        ++ ("<" ++ tag "package" (packageAttributes chart t) ++ ">") ++ "\n      <classes>\n"
        ++ String.join classes
        ++ "      </classes>\n    </package>\n  </packages>\n</coverage>\n" := by
  -- each piece of text is cut where a tag begins or ends
  have hcoverage : "<coverage" = "<" ++ "coverage" := rfl
  have hpackage : "    <package" = "    " ++ ("<" ++ "package") := rfl
  have hbreak : ">\n" = ">" ++ "\n" := rfl
  have hclasses : ">\n      <classes>\n" = ">" ++ "\n      <classes>\n" := rfl
  unfold documentText Tally.rateAttributes prologue tag coverageAttributes packageAttributes
  rw [hcoverage, hpackage, hbreak, hclasses]
  simp only [List.map_cons, List.map_nil, String.join_cons, String.join_nil, String.append_empty,
    String.append_assoc]

/-- The tags of the document in front of the classes. -/
def openingTags (options : CoberturaOptions) (chart : String) (t : Tally) : List String :=
  ["?xml version=\"1.0\" encoding=\"UTF-8\"?",
      "!DOCTYPE coverage SYSTEM \"http://cobertura.sourceforge.net/xml/coverage-04.dtd\""]
    ++ [tag "coverage" (coverageAttributes options t)]
    ++ ["sources", "source", "/source", "/sources", "packages"]
    ++ [tag "package" (packageAttributes chart t)] ++ ["classes"]

/-- The tags of the document behind the classes. -/
def closingTags : List String :=
  ["/classes", "/package", "/packages", "/coverage"]

/-- The tags of the document with the given tags of the classes. -/
def documentTags (options : CoberturaOptions) (chart : String) (t : Tally) (classes : List String) :
    List String :=
  openingTags options chart t ++ classes ++ closingTags

/-- **The tags of the document** are those in front of the classes, those of the classes, and those behind. -/
theorem holds_documentText (options : CoberturaOptions) (chart : String) (t : Tally)
    {classes tags : List String} (h : Holds (String.join classes) tags) :
    Holds (documentText options chart t classes) (documentTags options chart t tags) := by
  have hcoverage := notMem_tag (by decide : IsName "coverage") (isName_coverageAttributes options t)
  have hpackage := notMem_tag (by decide : IsName "package") (isName_packageAttributes chart t)
  have hprologue : Holds prologue ["?xml version=\"1.0\" encoding=\"UTF-8\"?",
      "!DOCTYPE coverage SYSTEM \"http://cobertura.sourceforge.net/xml/coverage-04.dtd\""] := by
    decide +kernel
  have hsources : Holds ("\n" ++ "  <sources>\n    <source>") ["sources", "source"] := by
    decide
  -- the only text that is not fixed is escaped, so it has no tag
  have hsource : Holds (escape (options.source.getD ".")) [] :=
    holds_text (notMem_escape _ (by decide))
  have hpackages : Holds ("</source>\n" ++ "  </sources>\n  <packages>\n" ++ "    ")
      ["/source", "/sources", "packages"] := by decide
  have hclasses : Holds "\n      <classes>\n" ["classes"] := by decide
  have hend : Holds "      </classes>\n    </package>\n  </packages>\n</coverage>\n"
      closingTags := by decide
  rw [documentText_eq]
  exact (((((((hprologue.append (holds_tag hcoverage)).append hsources).append hsource).append
    hpackages).append (holds_tag hpackage)).append hclasses).append h).append hend

/-! ## The names of the tags -/

theorem tagName_lineTag (number : Nat) (l : LineCoverage) : tagName (lineTag number l) = "line" :=
  tagName_tag_append (by decide) _ _ _

theorem tagName_class (file : String) (t : Tally) : tagName (tag "class" (classAttributes file t)) = "class" :=
  tagName_tag (by decide) _ _

theorem tagName_coverage (options : CoberturaOptions) (t : Tally) :
    tagName (tag "coverage" (coverageAttributes options t)) = "coverage" :=
  tagName_tag (by decide) _ _

theorem tagName_package (chart : String) (t : Tally) :
    tagName (tag "package" (packageAttributes chart t)) = "package" :=
  tagName_tag (by decide) _ _

/-- A tag that ends an element has no name. -/
theorem map_tagName_openingTags (options : CoberturaOptions) (chart : String) (t : Tally) :
    (openingTags options chart t).map tagName
      = ["?xml", "!DOCTYPE", "coverage", "sources", "source", "", "", "packages", "package",
          "classes"] := by
  have hprologue : ["?xml version=\"1.0\" encoding=\"UTF-8\"?",
      "!DOCTYPE coverage SYSTEM \"http://cobertura.sourceforge.net/xml/coverage-04.dtd\""].map tagName
        = ["?xml", "!DOCTYPE"] := by decide
  have hsources : ["sources", "source", "/source", "/sources", "packages"].map tagName
      = ["sources", "source", "", "", "packages"] := by decide
  have hclasses : ["classes"].map tagName = ["classes"] := by decide
  unfold openingTags
  simp only [List.map_append, hprologue, hsources, hclasses, List.map_singleton, tagName_coverage,
    tagName_package]
  rfl

theorem map_tagName_closingTags : closingTags.map tagName = ["", "", "", ""] := by
  decide

/-- The names of the tags of a class depend only on the number of its rows. Closing tags have none. -/
theorem map_tagName_classTags (file : String) (c : ClassCoverage) :
    (classTags file c).map tagName
      = ["class", "methods", "lines"] ++ List.replicate c.lines.size "line" ++ ["", ""] := by
  have hbegin : ["methods/", "lines"].map tagName = ["methods", "lines"] := by decide
  have hend : ["/lines", "/class"].map tagName = ["", ""] := by decide
  have hlines : (c.lines.toList.map fun row => lineTag row.1 row.2).map tagName
      = List.replicate c.lines.size "line" := by
    rw [List.map_map, List.eq_replicate_iff, List.length_map, Std.ExtTreeMap.length_toList]
    refine ⟨rfl, fun name hname => ?_⟩
    obtain ⟨row, -, rfl⟩ := List.mem_map.mp hname
    exact tagName_lineTag row.1 row.2
  unfold classTags
  simp only [List.map_append, hbegin, hend, hlines, List.map_singleton, tagName_class]
  rfl

/-! ## Finding elements -/

/-- Tags with other names are passed over. -/
theorem filter_eq_nil_of_not_mem {ts : List String} {name : String} (h : name ∉ ts.map tagName) :
    ts.filter (tagName · = name) = [] := by
  rw [List.filter_eq_nil_iff]
  intro t ht heq
  exact h (List.mem_map.mpr ⟨t, ht, of_decide_eq_true heq⟩)

/-- Of the tags in front of the classes, two have attributes. -/
theorem filter_openingTags (options : CoberturaOptions) (chart : String) (t : Tally) {name : String}
    (hname : name = "coverage" ∨ name = "package") :
    (openingTags options chart t).filter (tagName · = name)
      = [tag "coverage" (coverageAttributes options t),
          tag "package" (packageAttributes chart t)].filter (tagName · = name) := by
  -- of the tags that are fixed none has one of the two names
  have hprologue : ["?xml version=\"1.0\" encoding=\"UTF-8\"?",
      "!DOCTYPE coverage SYSTEM \"http://cobertura.sourceforge.net/xml/coverage-04.dtd\""].filter
        (tagName · = name) = [] := by
    obtain rfl | rfl := hname <;> exact filter_eq_nil_of_not_mem (by decide)
  have hsources : ["sources", "source", "/source", "/sources", "packages"].filter (tagName · = name)
      = [] := by
    obtain rfl | rfl := hname <;> exact filter_eq_nil_of_not_mem (by decide)
  have hclasses : ["classes"].filter (tagName · = name) = [] := by
    obtain rfl | rfl := hname <;> exact filter_eq_nil_of_not_mem (by decide)
  unfold openingTags
  simp only [List.filter_append, hprologue, hsources, hclasses, List.nil_append, List.append_nil]
  rw [← List.filter_append, List.singleton_append]

/-- What stands around the classes is not found among classes and lines. -/
theorem filter_documentTags (options : CoberturaOptions) (chart : String) (t : Tally)
    (classes : List String) {name : String} (hname : name = "class" ∨ name = "line") :
    (documentTags options chart t classes).filter (tagName · = name)
      = classes.filter (tagName · = name) := by
  have hopening : name ∉ (openingTags options chart t).map tagName := by
    rw [map_tagName_openingTags]
    obtain rfl | rfl := hname <;> decide
  have hclosing : name ∉ closingTags.map tagName := by
    rw [map_tagName_closingTags]
    obtain rfl | rfl := hname <;> decide
  unfold documentTags
  rw [List.filter_append, List.filter_append, filter_eq_nil_of_not_mem hopening,
    filter_eq_nil_of_not_mem hclosing, List.nil_append, List.append_nil]

/-- Classes and their lines are not found among what stands around them. -/
theorem filter_documentTags_classes (options : CoberturaOptions) (chart : String) (t : Tally)
    (classes : List (String × ClassCoverage)) {name : String}
    (hname : name = "coverage" ∨ name = "package") :
    (documentTags options chart t (classes.flatMap fun c => classTags c.1 c.2)).filter (tagName · = name)
      = (openingTags options chart t).filter (tagName · = name) := by
  -- the classes have neither, nor have the closing tags
  have hclasses : name ∉ (classes.flatMap fun c => classTags c.1 c.2).map tagName := by
    rw [List.map_flatMap, List.mem_flatMap]
    rintro ⟨c, -, hc⟩
    rw [map_tagName_classTags] at hc
    obtain rfl | rfl := hname <;> simp [List.mem_replicate] at hc
  have hclosing : name ∉ closingTags.map tagName := by
    rw [map_tagName_closingTags]
    obtain rfl | rfl := hname <;> decide
  unfold documentTags
  rw [List.filter_append, List.filter_append, filter_eq_nil_of_not_mem hclasses,
    filter_eq_nil_of_not_mem hclosing, List.append_nil, List.append_nil]

/-- The tags around the lines of a class have other names. -/
theorem filter_tagsInside (c : ClassCoverage) :
    (tagsInside c).filter (tagName · = "line") = c.lines.toList.map fun row => lineTag row.1 row.2 := by
  have hbegin : ["methods/", "lines"].filter (tagName · = "line") = [] :=
    filter_eq_nil_of_not_mem (by decide)
  have hend : ["/lines"].filter (tagName · = "line") = [] :=
    filter_eq_nil_of_not_mem (by decide)
  have hlines : (c.lines.toList.map fun row => lineTag row.1 row.2).filter (tagName · = "line")
      = c.lines.toList.map fun row => lineTag row.1 row.2 := by
    rw [List.filter_eq_self]
    intro t ht
    obtain ⟨row, -, rfl⟩ := List.mem_map.mp ht
    exact decide_eq_true (tagName_lineTag row.1 row.2)
  unfold tagsInside
  rw [List.filter_append, List.filter_append, hbegin, hlines, hend, List.nil_append, List.append_nil]

/-- The rows of a class are read one for one. -/
theorem filter_classTags (file : String) (c : ClassCoverage) :
    (classTags file c).filter (tagName · = "line") = c.lines.toList.map fun row => lineTag row.1 row.2 := by
  have hclass : tagName (tag "class" (classAttributes file c.tally)) ≠ "line" := by
    rw [tagName_class]
    decide
  have hend : ["/class"].filter (tagName · = "line") = [] :=
    filter_eq_nil_of_not_mem (by decide)
  rw [classTags_eq, List.filter_append, List.filter_cons_of_neg (by simpa using hclass),
    filter_tagsInside, hend, List.append_nil]

/-! ## The elements of a report -/

/-- The tags of the document of a report are those of its totals and of its classes. -/
theorem tags_toCobertura (r : Report) (options : CoberturaOptions) :
    tags (r.toCobertura options)
      = documentTags options r.chart r.tally (r.classes.flatMap fun c => classTags c.1 c.2) := by
  have hclasses : Holds (String.join (r.classes.map fun c => classElement c.1 c.2))
      (r.classes.flatMap fun c => classTags c.1 c.2) :=
    holds_join fun c _ => holds_classElement c.1 c.2
  exact (holds_documentText options r.chart r.tally hclasses).tags_eq

/-- There is one element of the whole coverage. -/
theorem elements_coverage (r : Report) (options : CoberturaOptions) :
    elements (r.toCobertura options) "coverage"
      = [tag "coverage" (coverageAttributes options r.tally)] := by
  unfold elements
  rw [tags_toCobertura, filter_documentTags_classes _ _ _ _ (.inl rfl), filter_openingTags _ _ _ (.inl rfl)]
  simp [tagName_coverage, tagName_package]

/-- There is one element of the chart. -/
theorem elements_package (r : Report) (options : CoberturaOptions) :
    elements (r.toCobertura options) "package" = [tag "package" (packageAttributes r.chart r.tally)] := by
  unfold elements
  rw [tags_toCobertura, filter_documentTags_classes _ _ _ _ (.inr rfl), filter_openingTags _ _ _ (.inr rfl)]
  simp [tagName_coverage, tagName_package]

/-- There are no lines but those of the classes. -/
theorem elements_line (r : Report) (options : CoberturaOptions) :
    elements (r.toCobertura options) "line"
      = r.classes.flatMap fun c => c.2.lines.toList.map fun row => lineTag row.1 row.2 := by
  unfold elements
  rw [tags_toCobertura, filter_documentTags _ _ _ _ (.inr rfl), List.filter_flatMap]
  simp only [filter_classTags]

/-- The element of a class ends behind its lines. -/
theorem contents_classTags_append (file : String) (c : ClassCoverage) (ts : List String) :
    contents "class" (classTags file c ++ ts)
      = (tag "class" (classAttributes file c.tally), tagsInside c) :: contents "class" ts := by
  have hinside : ∀ t ∈ tagsInside c, tagName t ≠ "class" ∧ t ≠ "/" ++ "class" := by
    intro t ht
    unfold tagsInside at ht
    rw [List.mem_append, List.mem_append, List.mem_map] at ht
    obtain (ht | ⟨row, -, rfl⟩) | ht := ht
    · revert t
      decide
    · -- the name of a line is not that of a class, and no name at all is that of its end
      refine ⟨by rw [tagName_lineTag]; decide, fun h => ?_⟩
      have hname := tagName_lineTag row.1 row.2
      rw [h] at hname
      exact absurd hname (by decide)
    · rw [List.mem_singleton.mp ht]
      decide
  have hend : tagName ("/" ++ "class") ≠ "class" := by decide
  rw [classTags_eq, List.append_assoc]
  exact contents_element (tagName_class file c.tally) hinside hend ts

/-- There is one element for each class, in the same order, and the lines of the class are in it. -/
theorem contents_class (r : Report) (options : CoberturaOptions) :
    contents "class" (tags (r.toCobertura options))
      = r.classes.map fun c => (tag "class" (classAttributes c.1 c.2.tally), tagsInside c.2) := by
  have hopening : ∀ t ∈ openingTags options r.chart r.tally, tagName t ≠ "class" := by
    intro t ht hname
    have hmem := List.mem_map_of_mem (f := tagName) ht
    rw [map_tagName_openingTags, hname] at hmem
    exact absurd hmem (by decide)
  have hclosing : contents "class" closingTags = [] := by decide
  rw [tags_toCobertura]
  unfold documentTags
  rw [List.append_assoc, contents_append hopening]
  -- induction on the classes: each one ends where its own closing tag stands
  generalize r.classes = classes
  induction classes with
  | nil => exact hclosing
  | cons c classes ih =>
    rw [List.flatMap_cons, List.append_assoc, contents_classTags_append, ih, List.map_cons]

/-- There is one class for each file, in order. -/
theorem elements_class (r : Report) (options : CoberturaOptions) :
    elements (r.toCobertura options) "class"
      = r.classes.map fun c => tag "class" (classAttributes c.1 c.2.tally) := by
  unfold elements
  rw [← map_fst_contents, contents_class, List.map_map]
  rfl

/-- An attribute of the whole coverage is found in the document, if its text needs no escape. -/
theorem map_attribute_coverage (r : Report) (options : CoberturaOptions) {name value : String}
    (h : (coverageAttributes options r.tally).lookup name = some value) (hvalue : Plain value) :
    (elements (r.toCobertura options) "coverage").map (attribute? · name) = [some value] := by
  rw [elements_coverage, List.map_singleton,
    attribute?_tag (by decide) (isName_coverageAttributes options r.tally), h, Option.map_some,
    hvalue.escape_eq]

end TemplateCoverage.Report
