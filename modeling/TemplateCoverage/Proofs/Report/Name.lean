import TemplateCoverage.Proofs.Report.Element
import TemplateCoverage.Proofs.Text.Search
import TemplateCoverage.Proofs.Xml.Entity

/-!
# Names in the document

Paths, the name of a chart and its root stand in the document as they were given, up to their escapes. So a
reader of the document finds the same tags whatever these names are, and reads the names themselves.

* **`map_tagName_tags`**: the tags of the document are those of its classes and rows.
* **`map_readAttributes_class`**, **`map_readAttributes_package`**: the attributes that are read are the ones
  that were written.
* **`text?_source`**: so is the text of the element that holds the root.
* **`names_survive`**: all of this together, with what escaping does to any text.
-/

namespace TemplateCoverage.Xml

/-- The attributes of a tag with their entities replaced. -/
def readAttributes (tag : String) : List (String × String) :=
  (attributes tag).map fun a => (a.1, unescape a.2)

/-- The text behind the first tag of an element with the name, up to the next tag, with its entities
replaced. -/
def text? (document name : String) : Option String :=
  ((document.toList.splitOn '<').filterMap (Text.cutAt? ['>'])).findSome? fun (tag, text) =>
    if tagName (String.ofList tag) = name then some (unescape (String.ofList text)) else none

/-- The attributes that are read are those that were written, if no quote is behind them. -/
theorem readAttributes_tag_append {name : String} {attrs : List (String × String)} (hname : IsName name)
    (hattrs : ∀ n ∈ attrs.map Prod.fst, IsName n) {s : String} (hs : '"' ∉ s.toList) :
    readAttributes (tag name attrs ++ s) = attrs := by
  have hback : ((fun a : String × String => (a.1, unescape a.2)) ∘ fun a => (a.1, escape a.2)) = id := by
    funext a
    rw [Function.comp_apply, unescape_escape, id]
  unfold readAttributes
  rw [attributes_tag_append hname hattrs hs, List.map_map, hback, List.map_id]

/-- Attributes are read from their tag as they were put in it. -/
theorem readAttributes_tag {name : String} {attrs : List (String × String)} (hname : IsName name)
    (hattrs : ∀ n ∈ attrs.map Prod.fst, IsName n) : readAttributes (tag name attrs) = attrs := by
  have happend := readAttributes_tag_append hname hattrs (s := "") List.not_mem_nil
  rwa [String.append_empty] at happend

/-- Neither a name nor what is escaped begins another tag. -/
theorem open_not_mem_tag {name : String} {attrs : List (String × String)} (hname : '<' ∉ name.toList)
    (hattrs : ∀ n ∈ attrs.map Prod.fst, '<' ∉ n.toList) : '<' ∉ (tag name attrs).toList := by
  rw [toList_tag, List.mem_append, List.mem_flatMap]
  rintro (h | ⟨a, ha, h⟩)
  · exact hname h
  · have hkey := hattrs a.1 (List.mem_map_of_mem ha)
    have hvalue := notMem_escape a.2 (List.mem_cons_self : '<' ∈ ['<', '>', '"', '\''])
    simp [toList_attr, hkey, hvalue] at h

/-- Tags, each with the text behind it. -/
def marked (ps : List (String × String)) : List Char :=
  ps.flatMap fun p => '<' :: (p.1.toList ++ '>' :: p.2.toList)

/-- The signs of tags are in none of the tags and texts themselves. -/
def Unmarked (ps : List (String × String)) : Prop :=
  ∀ p ∈ ps, '<' ∉ p.1.toList ∧ '>' ∉ p.1.toList ∧ '<' ∉ p.2.toList

/-- Tags and texts are cut apart where tags begin. Induction on them. -/
theorem splitOn_marked {ps : List (String × String)} (hps : Unmarked ps) {front : List Char}
    (hfront : '<' ∉ front) (rest : List Char) :
    (front ++ (marked ps ++ '<' :: rest)).splitOn '<'
      = front :: (ps.map (fun p => p.1.toList ++ '>' :: p.2.toList) ++ rest.splitOn '<') := by
  induction ps generalizing front with
  | nil => exact List.splitOn_append_cons_self_of_not_mem hfront rest
  | cons p ps ih =>
    obtain ⟨⟨htag, -, htext⟩, hlater⟩ := List.forall_mem_cons.mp hps
    have hpiece : '<' ∉ p.1.toList ++ '>' :: p.2.toList := by simp [htag, htext]
    have hchars : marked (p :: ps) ++ '<' :: rest
        = '<' :: (p.1.toList ++ '>' :: p.2.toList ++ (marked ps ++ '<' :: rest)) := by
      simp [marked]
    rw [hchars, List.splitOn_append_cons_self_of_not_mem hfront, ih hlater hpiece]
    rfl

/-- A tag ends at its `>`. -/
theorem filterMap_cutAt?_marked {ps : List (String × String)} (hps : Unmarked ps) :
    (ps.map fun p => p.1.toList ++ '>' :: p.2.toList).filterMap (Text.cutAt? ['>'])
      = ps.map fun p => (p.1.toList, p.2.toList) := by
  have hcut : ∀ p ∈ ps, Text.cutAt? ['>'] (p.1.toList ++ '>' :: p.2.toList)
      = some (p.1.toList, p.2.toList) := by
    intro p hp
    have htag : ¬['>'] <:+: p.1.toList := fun h => (hps p hp).2.1 (h.subset List.mem_cons_self)
    exact Text.cutAt?_append List.not_mem_nil htag p.2.toList
  rw [List.filterMap_map]
  exact (List.filterMap_congr hcut).trans (congrFun List.filterMap_eq_map' ps)

/-- The text behind the first tag with a name is found behind tags with other names. -/
theorem text?_marked {ps : List (String × String)} {p : String × String} {document name : String}
    {rest : List Char} (hdocument : document.toList = marked (ps ++ [p]) ++ '<' :: rest)
    (hps : Unmarked (ps ++ [p])) (hother : ∀ q ∈ ps, tagName q.1 ≠ name) (hname : tagName p.1 = name) :
    text? document name = some (unescape p.2) := by
  have hsplit := splitOn_marked hps List.not_mem_nil rest
  have hempty : Text.cutAt? ['>'] [] = none := rfl
  have hskip : (ps.map fun q => (q.1.toList, q.2.toList)).findSome? (fun (tag, text) =>
      if tagName (String.ofList tag) = name then some (unescape (String.ofList text)) else none) = none := by
    rw [List.findSome?_eq_none_iff]
    intro q' hq'
    obtain ⟨q, hq, rfl⟩ := List.mem_map.mp hq'
    simp [hother q hq]
  rw [List.nil_append] at hsplit
  -- the piece in front of the first tag has no end of a tag, so it is passed over
  unfold text?
  rw [hdocument, hsplit, List.filterMap_cons_none hempty, List.filterMap_append,
    filterMap_cutAt?_marked hps, List.map_append, List.append_assoc, List.findSome?_append, hskip]
  simp [hname]

end TemplateCoverage.Xml

namespace TemplateCoverage.Report

open Xml

/-! ## The tags -/

/-- The names of the tags of a document with the given numbers of rows. A tag that ends an element has
none. -/
def documentNames (rows : List Nat) : List String :=
  ["?xml", "!DOCTYPE", "coverage", "sources", "source", "", "", "packages", "package", "classes"]
    ++ rows.flatMap (fun n => ["class", "methods", "lines"] ++ List.replicate n "line" ++ ["", ""])
    ++ ["", "", "", ""]

/-- The names of the tags do not depend on any text of the report, only on the number of its rows. -/
theorem map_tagName_tags (r : Report) (options : CoberturaOptions) :
    (tags (r.toCobertura options)).map tagName
      = documentNames (r.classes.map fun c => c.2.lines.size) := by
  rw [tags_toCobertura]
  unfold documentTags documentNames
  rw [List.map_append, List.map_append, map_tagName_openingTags, map_tagName_closingTags,
    List.map_flatMap, List.flatMap_map]
  simp only [map_tagName_classTags]

/-! ## The names -/

/-- What stands in front of the root of the chart, tag by tag. -/
def tagsBeforeSource (options : CoberturaOptions) (t : Tally) : List (String × String) :=
  [("?xml version=\"1.0\" encoding=\"UTF-8\"?", "\n"),
    ("!DOCTYPE coverage SYSTEM \"http://cobertura.sourceforge.net/xml/coverage-04.dtd\"", "\n"),
    (tag "coverage" (coverageAttributes options t), "\n  "), ("sources", "\n    ")]

/-- The document up to the text of the source: each tag in front of it with what follows, then that text. -/
theorem exists_documentText_eq (options : CoberturaOptions) (chart : String) (t : Tally)
    (classes : List String) :
    ∃ rest, (documentText options chart t classes).toList
      = marked (tagsBeforeSource options t ++ [("source", escape (options.source.getD "."))])
        ++ '<' :: rest := by
  have hprologue : prologue.toList = marked [("?xml version=\"1.0\" encoding=\"UTF-8\"?", "\n"),
      ("!DOCTYPE coverage SYSTEM \"http://cobertura.sourceforge.net/xml/coverage-04.dtd\"", "\n")] := by
    decide +kernel
  have hsources : ("\n" ++ "  <sources>\n    <source>").toList
      = "\n  ".toList ++ marked [("sources", "\n    ")] ++ '<' :: ("source".toList ++ ['>']) := by
    decide
  have hend : ("</source>\n" ++ "  </sources>\n  <packages>\n" ++ "    ").toList
      = '<' :: "/source>\n  </sources>\n  <packages>\n    ".toList := by decide
  have hopen : "<".toList = ['<'] := rfl
  have hclose : ">".toList = ['>'] := rfl
  -- what is fixed was evaluated above, so only the tags with attributes are left
  rw [documentText_eq]
  simp only [String.toList_append, hprologue, hsources, hend, hopen, hclose]
  unfold tagsBeforeSource marked
  simp only [List.flatMap_cons, List.flatMap_nil, List.append_assoc, List.cons_append,
    List.nil_append, List.append_nil]
  exact ⟨_, rfl⟩

theorem map_readAttributes_coverage (r : Report) (options : CoberturaOptions) :
    (elements (r.toCobertura options) "coverage").map readAttributes
      = [coverageAttributes options r.tally] := by
  have hread : readAttributes (tag "coverage" (coverageAttributes options r.tally))
      = coverageAttributes options r.tally :=
    readAttributes_tag (by decide) (isName_coverageAttributes options r.tally)
  rw [elements_coverage, List.map_singleton, hread]

theorem map_readAttributes_package (r : Report) (options : CoberturaOptions) :
    (elements (r.toCobertura options) "package").map readAttributes
      = [packageAttributes r.chart r.tally] := by
  have hread : readAttributes (tag "package" (packageAttributes r.chart r.tally))
      = packageAttributes r.chart r.tally :=
    readAttributes_tag (by decide) (isName_packageAttributes r.chart r.tally)
  rw [elements_package, List.map_singleton, hread]

/-- The attributes of the classes are those of their files and tallies. -/
theorem map_readAttributes_class (r : Report) (options : CoberturaOptions) :
    (elements (r.toCobertura options) "class").map readAttributes
      = r.classes.map fun c => classAttributes c.1 c.2.tally := by
  have hread : ∀ c : String × ClassCoverage, readAttributes (tag "class" (classAttributes c.1 c.2.tally))
      = classAttributes c.1 c.2.tally :=
    fun c => readAttributes_tag (by decide) (isName_classAttributes c.1 c.2.tally)
  rw [elements_class, List.map_map]
  refine List.map_congr_left fun c _ => ?_
  rw [Function.comp_apply, hread]

/-- The root is read from its element, whatever the numbers in front of it are. -/
theorem text?_source (r : Report) (options : CoberturaOptions) :
    text? (r.toCobertura options) "source" = some (options.source.getD ".") := by
  have hnames := isName_coverageAttributes options r.tally
  have hopen : '<' ∉ (tag "coverage" (coverageAttributes options r.tally)).toList := by
    refine open_not_mem_tag (by decide) ?_
    show ∀ n ∈ ["line-rate", "branch-rate", "lines-covered", "lines-valid", "branches-covered",
      "branches-valid", "complexity", "version", "timestamp"], '<' ∉ n.toList
    decide
  have hclose : '>' ∉ (tag "coverage" (coverageAttributes options r.tally)).toList :=
    notMem_tag (by decide) hnames
  have hsource : '<' ∉ (escape (options.source.getD ".")).toList := notMem_escape _ (by decide)
  -- no tag in front has a bracket within, so it ends where it seems to
  have hunmarked : Unmarked
      (tagsBeforeSource options r.tally ++ [("source", escape (options.source.getD "."))]) := by
    unfold Unmarked tagsBeforeSource
    simp only [List.cons_append, List.nil_append, List.forall_mem_cons, hopen, hclose, hsource]
    decide
  -- and none of them is the one that is looked for
  have hother : ∀ p ∈ tagsBeforeSource options r.tally, tagName p.1 ≠ "source" := by
    unfold tagsBeforeSource
    simp only [List.forall_mem_cons, tagName_coverage]
    decide
  have hname : tagName "source" = "source" := by decide
  obtain ⟨rest, hdocument⟩ := exists_documentText_eq options r.chart r.tally
    (r.classes.map fun c => classElement c.1 c.2)
  have htext := text?_marked hdocument hunmarked hother hname
  rw [unescape_escape] at htext
  exact htext

/-- **Escaping is lossless and safe.** No character with a meaning of its own is left in an escaped text but
ampersands, each of which begins an entity, and replacing the entities gives the text back. So two texts are
never escaped to the same one. Whatever its names are, a document has the tags of its classes and their rows.
Read back, the attributes of the coverage, of the chart and of the classes are those that were written, and the
root of the chart is the text of its element. -/
theorem names_survive :
    (∀ s, ∀ c ∈ ['<', '>', '"', '\''], c ∉ (escape s).toList)
      ∧ (∀ s back, '&' :: back <:+ (escape s).toList → ∃ e ∈ entities, e.1.toList <+: '&' :: back)
      ∧ (∀ s, unescape (escape s) = s)
      ∧ Function.Injective escape
      ∧ ∀ (r : Report) (options : CoberturaOptions),
        let document := r.toCobertura options
        (tags document).map tagName = documentNames (r.classes.map fun c => c.2.lines.size)
          ∧ (elements document "coverage").map readAttributes = [coverageAttributes options r.tally]
          ∧ (elements document "package").map readAttributes = [packageAttributes r.chart r.tally]
          ∧ (elements document "class").map readAttributes
            = r.classes.map (fun c => classAttributes c.1 c.2.tally)
          ∧ text? document "source" = some (options.source.getD ".") := by
  refine ⟨fun s c hc => notMem_escape s hc, fun s back => beginsEntity_of_suffix, unescape_escape,
    escape_injective, fun r options => ?_⟩
  -- what is read in the document was put together tag by tag
  intro document
  exact ⟨map_tagName_tags r options, map_readAttributes_coverage r options,
    map_readAttributes_package r options, map_readAttributes_class r options, text?_source r options⟩

/-- A text that spells an entity is escaped once more, and so is not confused with the character that the entity
stands for. -/
theorem names_survive_spelledEntity :
    '\'' ∉ (escape "'&amp;").toList ∧ (∃ e ∈ entities, e.1.toList <+: "&amp;amp;".toList)
      ∧ unescape (escape "'&amp;") = "'&amp;" ∧ escape "'&amp;" ≠ escape "'&" := by
  obtain ⟨hgone, hbegins, hback, hinjective, -⟩ := names_survive
  have hsuffix : '&' :: "amp;amp;".toList <:+ (escape "'&amp;").toList := by decide
  have hne : ("'&amp;" : String) ≠ "'&" := by decide
  exact ⟨hgone "'&amp;" '\'' (by decide), hbegins "'&amp;" "amp;amp;".toList hsuffix, hback "'&amp;",
    fun h => hne (hinjective h)⟩

end TemplateCoverage.Report
