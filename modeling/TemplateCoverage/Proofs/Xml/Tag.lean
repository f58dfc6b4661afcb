import TemplateCoverage.Proofs.Branch.Identifier
import TemplateCoverage.Xml

/-!
# Tags and attributes

A reader of XML that knows nothing of the reports: it finds the tags of a document and the attributes of
a tag. What is escaped cannot confuse it, whatever the text was.

* **`read`**: the state of the reader, character by character. Outside of a tag only `<` matters
  (`read_text`), inside only `>` (`read_inside`).
* **`contents`**: what stands in the elements with a name. It is found element by element
  (`contents_element`), and tags with other names are passed over (`contents_append`).
* **`attributes_tag_append`**: the attributes that are written in a tag are the ones that are read.
-/

namespace TemplateCoverage.Xml

/-! ## The reader -/

/-- The tags so far, and the beginning of the tag that is open. -/
structure Reader where
  tags : List String := []
  inside : Option String := none
  deriving DecidableEq, Repr

/-- Read a character. -/
def Reader.step (r : Reader) (c : Char) : Reader :=
  match r.inside with
  | none => if c = '<' then { r with inside := some "" } else r
  | some tag =>
    if c = '>' then { tags := r.tags ++ [tag] } else { r with inside := some (tag.push c) }

/-- Read a text. -/
def Reader.read (r : Reader) (s : String) : Reader :=
  s.toList.foldl Reader.step r

/-- The tags of a document: what stands between `<` and the next `>`. -/
def tags (document : String) : List String :=
  (Reader.read {} document).tags

/-- The name of an element as its tag begins with it. The tag that ends an element has none. -/
def tagName (tag : String) : String :=
  String.ofList (tag.toList.takeWhile fun c => c ≠ ' ' && c ≠ '/')

/-- The tags of the elements with a name. -/
def elements (document name : String) : List String :=
  (tags document).filter (tagName · = name)

/-- The elements with a name, in order: the tag of each of them, and the tags behind it up to the one that
ends it. -/
def contents (name : String) : List String → List (String × List String)
  | [] => []
  | tag :: tags =>
    if tagName tag = name then (tag, tags.takeWhile (· ≠ "/" ++ name)) :: contents name tags
    else contents name tags

/-- The names and values between quotes. A name has a blank before it and a sign of equality after it. -/
def pairs : List (List Char) → List (String × String)
  | name :: value :: rest =>
    (String.ofList (name.drop 1).dropLast, String.ofList value) :: pairs rest
  | _ => []

/-- The attributes of a tag, as they are written. -/
def attributes (tag : String) : List (String × String) :=
  pairs ((tag.toList.dropWhile (· ≠ ' ')).splitOn '"')

/-- The attribute of a tag with a name. -/
def attribute? (tag name : String) : Option String :=
  (attributes tag).lookup name

/-! ## Reading -/

namespace Reader

variable {r : Reader} {ts : List String} {tag s t : String}

/-- A text is read one part after the other. -/
theorem read_append (r : Reader) (s t : String) : r.read (s ++ t) = (r.read s).read t := by
  unfold read
  rw [String.toList_append, List.foldl_append]

/-- Text between tags is passed over. -/
theorem step_text {c : Char} (h : c ≠ '<') : step ⟨ts, none⟩ c = ⟨ts, none⟩ :=
  if_neg h

/-- Within a tag everything is taken, up to its end. -/
theorem step_inside {c : Char} (h : c ≠ '>') :
    step ⟨ts, some tag⟩ c = ⟨ts, some (tag.push c)⟩ :=
  if_neg h

/-- Text between the tags is passed over. -/
theorem read_text (h : '<' ∉ s.toList) : read ⟨ts, none⟩ s = ⟨ts, none⟩ := by
  unfold read
  generalize s.toList = cs at h ⊢
  induction cs with
  | nil => rfl
  | cons c cs ih =>
    obtain ⟨hc, hcs⟩ := List.ne_and_not_mem_of_not_mem_cons h
    rw [List.foldl_cons, step_text hc.symm]
    exact ih hcs

/-- A tag goes on to the `>` that ends it. -/
theorem read_inside (h : '>' ∉ s.toList) : read ⟨ts, some tag⟩ s = ⟨ts, some (tag ++ s)⟩ := by
  have hchars (cs : List Char) (tag : String) (h : '>' ∉ cs) :
      cs.foldl step ⟨ts, some tag⟩ = ⟨ts, some (tag ++ String.ofList cs)⟩ := by
    induction cs generalizing tag with
    | nil => simp
    | cons c cs ih =>
      obtain ⟨hc, hcs⟩ := List.ne_and_not_mem_of_not_mem_cons h
      rw [List.foldl_cons, step_inside hc.symm, ih _ hcs]
      exact congrArg (fun t => Reader.mk ts (some t)) (String.toList_injective (by simp))
  unfold read
  rw [hchars _ _ h, String.ofList_toList]

theorem read_open : read ⟨ts, none⟩ "<" = ⟨ts, some ""⟩ := rfl

theorem read_close : read ⟨ts, some tag⟩ ">" = ⟨ts ++ [tag], none⟩ := rfl

/-- The tags that were there before do not matter. -/
theorem read_prefix (r : Reader) (s : String) (ts : List String) :
    read ⟨ts ++ r.tags, r.inside⟩ s = ⟨ts ++ (r.read s).tags, (r.read s).inside⟩ := by
  unfold read
  generalize s.toList = cs
  induction cs generalizing r with
  | nil => rfl
  | cons c cs ih =>
    have hstep : step ⟨ts ++ r.tags, r.inside⟩ c = ⟨ts ++ (r.step c).tags, (r.step c).inside⟩ := by
      unfold step
      split <;> split <;> simp_all
    rw [List.foldl_cons, List.foldl_cons, hstep, ih]

end Reader

/-! ## Whole tags -/

/-- A text of whole tags, with other text between them. -/
def Holds (s : String) (ts : List String) : Prop :=
  Reader.read {} s = ⟨ts, none⟩

instance (s : String) (ts : List String) : Decidable (Holds s ts) :=
  inferInstanceAs (Decidable (_ = _))

theorem Holds.tags_eq {s : String} {ts : List String} (h : Holds s ts) : tags s = ts :=
  congrArg Reader.tags h

/-- The tags of two texts one after the other, if the first ends outside of a tag. -/
theorem Holds.append {s t : String} {ts us : List String} (hs : Holds s ts) (ht : Holds t us) :
    Holds (s ++ t) (ts ++ us) := by
  have hprefix := Reader.read_prefix {} t ts
  rw [List.append_nil, ht] at hprefix
  unfold Holds
  rw [Reader.read_append, hs]
  exact hprefix

/-- A text without an opening bracket has no tags. -/
theorem holds_text {s : String} (h : '<' ∉ s.toList) : Holds s [] :=
  Reader.read_text h

/-- A tag that has no closing bracket within is read as it is. -/
theorem holds_tag {tag : String} (h : '>' ∉ tag.toList) : Holds ("<" ++ tag ++ ">") [tag] := by
  unfold Holds
  rw [Reader.read_append, Reader.read_append]
  show Reader.read (Reader.read (Reader.read ⟨[], none⟩ "<") tag) ">" = _
  rw [Reader.read_open, Reader.read_inside h, Reader.read_close, String.empty_append, List.nil_append]

/-- So are texts that are joined. -/
theorem holds_join {α : Type} {f : α → String} {g : α → List String} {l : List α}
    (h : ∀ a ∈ l, Holds (f a) (g a)) : Holds (String.join (l.map f)) (l.flatMap g) := by
  induction l with
  | nil => rfl
  | cons a l ih =>
    have hrest := ih fun b hb => h b (List.mem_cons_of_mem a hb)
    rw [List.map_cons, String.join_cons, List.flatMap_cons]
    exact (h a List.mem_cons_self).append hrest

/-! ## Elements -/

/-- Tags with other names are passed over. -/
theorem contents_append {name : String} {ts : List String} (h : ∀ t ∈ ts, tagName t ≠ name)
    (us : List String) : contents name (ts ++ us) = contents name us := by
  induction ts with
  | nil => rfl
  | cons t ts ih =>
    obtain ⟨ht, hts⟩ := List.forall_mem_cons.mp h
    rw [List.cons_append, contents, if_neg ht, ih hts]

/-- The tags of the elements are those with their name. -/
theorem map_fst_contents (name : String) (ts : List String) :
    (contents name ts).map Prod.fst = ts.filter (tagName · = name) := by
  induction ts with
  | nil => rfl
  | cons t ts ih =>
    unfold contents
    by_cases h : tagName t = name <;> simp [h, ih]

/-- An element ends at its own tag, if there is none like it inside. -/
theorem contents_element {name tag : String} {inside : List String} (htag : tagName tag = name)
    (hinside : ∀ t ∈ inside, tagName t ≠ name ∧ t ≠ "/" ++ name) (hend : tagName ("/" ++ name) ≠ name)
    (us : List String) :
    contents name (tag :: inside ++ ("/" ++ name) :: us) = (tag, inside) :: contents name us := by
  have hbefore : ∀ t ∈ inside, decide (t ≠ "/" ++ name) = true :=
    fun t ht => decide_eq_true (hinside t ht).2
  have htake : (inside ++ ("/" ++ name) :: us).takeWhile (· ≠ "/" ++ name) = inside := by
    rw [List.takeWhile_append_of_pos hbefore, List.takeWhile_cons_of_neg (by simp), List.append_nil]
  rw [List.cons_append, contents, if_pos htag, htake,
    contents_append fun t ht => (hinside t ht).1, contents, if_neg hend]

/-! ## What is escaped -/

/-- The characters with a meaning of their own. -/
def special : List Char :=
  ['&', '<', '>', '"', '\'']

/-- No character of the text has a meaning of its own. -/
def Plain (s : String) : Prop :=
  s.toList.all (· ∉ special) = true

instance (s : String) : Decidable (Plain s) :=
  inferInstanceAs (Decidable (_ = true))

/-- A text is plain if it has no character that is escaped. -/
theorem plain_iff {s : String} : Plain s ↔ ∀ c ∈ s.toList, c ∉ special := by
  simp [Plain]

theorem escapeChar_of_notMem {c : Char} (h : c ∉ special) : escapeChar c = [c] := by
  unfold special at h
  simp only [List.mem_cons, List.not_mem_nil, or_false, not_or] at h
  simp [escapeChar, h]

/-- A plain text is its own escape. -/
theorem Plain.escape_eq {s : String} (h : Plain s) : escape s = s := by
  have hchars : ∀ c ∈ s.toList, escapeChar c = [c] :=
    fun c hc => escapeChar_of_notMem (plain_iff.mp h c hc)
  unfold escape
  rw [List.flatMap_congr hchars, List.flatMap_singleton', String.ofList_toList]

theorem Plain.append {s t : String} (hs : Plain s) (ht : Plain t) : Plain (s ++ t) := by
  unfold Plain
  rw [String.toList_append, List.all_append, hs, ht, Bool.and_self]

/-- Numbers are plain. -/
theorem plain_toString (n : Nat) : Plain (toString n) := by
  have hdigit : special.all (fun c => !c.isDigit) = true := by decide
  rw [plain_iff]
  intro c hc hspecial
  refine notMem_toString ?_ n hc
  simpa using List.all_eq_true.mp hdigit c hspecial

/-- What is written for a character has none of the characters that end a text, a tag or a value. -/
theorem notMem_escapeChar (c : Char) {d : Char} (hd : d ∈ ['<', '>', '"', '\'']) : d ∉ escapeChar c := by
  have hspecial : special.all (fun c => ['<', '>', '"', '\''].all fun d => d ∉ escapeChar c) = true := by
    decide
  by_cases hc : c ∈ special
  · exact of_decide_eq_true (List.all_eq_true.mp (List.all_eq_true.mp hspecial c hc) d hd)
  · rw [escapeChar_of_notMem hc, List.mem_singleton]
    rintro rfl
    exact hc (List.mem_cons_of_mem '&' hd)

/-- Of the characters with a meaning of their own, only the ampersand is left. -/
theorem notMem_escape (s : String) {d : Char} (hd : d ∈ ['<', '>', '"', '\'']) :
    d ∉ (escape s).toList := by
  unfold escape
  rw [String.toList_ofList, List.mem_flatMap]
  rintro ⟨c, -, hc⟩
  exact notMem_escapeChar c hd hc

/-! ## Attributes -/

/-- What can be the name of an element or of an attribute here. -/
def IsName (s : String) : Prop :=
  s.toList.all (· ∉ [' ', '/', '"', '>']) = true

instance (s : String) : Decidable (IsName s) :=
  inferInstanceAs (Decidable (_ = true))

theorem IsName.notMem {s : String} (h : IsName s) {c : Char} (hc : c ∈ [' ', '/', '"', '>']) :
    c ∉ s.toList :=
  fun hmem => of_decide_eq_true (List.all_eq_true.mp h c hmem) hc

/-- A tag with attributes. -/
def tag (name : String) (attrs : List (String × String)) : String :=
  name ++ String.join (attrs.map fun a => attr a.1 a.2)

variable {name : String} {attrs : List (String × String)}

theorem toList_attr (name value : String) :
    (attr name value).toList
      = ' ' :: name.toList ++ '=' :: '"' :: ((escape value).toList ++ ['"']) := by
  unfold attr
  simp

theorem toList_tag (name : String) (attrs : List (String × String)) :
    (tag name attrs).toList
      = name.toList ++ attrs.flatMap fun a => (attr a.1 a.2).toList := by
  unfold tag
  simp [List.flatMap_map]

/-- Neither a name nor what is escaped ends the tag. -/
theorem notMem_tag (hname : IsName name) (hattrs : ∀ n ∈ attrs.map Prod.fst, IsName n) :
    '>' ∉ (tag name attrs).toList := by
  rw [toList_tag, List.mem_append, List.mem_flatMap]
  rintro (h | ⟨a, ha, h⟩)
  · exact hname.notMem (by decide) h
  · have hkey := (hattrs a.1 (List.mem_map_of_mem ha)).notMem (c := '>') (by decide)
    have hvalue := notMem_escape a.2 (d := '>') (by decide)
    simp [toList_attr, hkey, hvalue] at h

/-- A name ends before the attributes, which begin with a blank. -/
theorem tagName_tag_append (hname : IsName name) (a : String × String)
    (attrs : List (String × String)) (s : String) :
    tagName (tag name (a :: attrs) ++ s) = name := by
  have hchars : ∀ c ∈ name.toList, (decide (c ≠ ' ') && decide (c ≠ '/')) = true := by
    intro c hc
    have hother : c ∉ [' ', '/', '"', '>'] := fun h => hname.notMem h hc
    simp only [List.mem_cons, not_or] at hother
    simp [hother]
  unfold tagName
  rw [String.toList_append, toList_tag, List.flatMap_cons, toList_attr, List.append_assoc,
    List.takeWhile_append_of_pos hchars]
  simp

/-- The name of a tag is what stands before its attributes. -/
theorem tagName_tag (hname : IsName name) (a : String × String) (attrs : List (String × String)) :
    tagName (tag name (a :: attrs)) = name := by
  have happend := tagName_tag_append hname a attrs ""
  rwa [String.append_empty] at happend

/-- The name and the value of an attribute are the texts before the next two quotes. -/
theorem pairs_attr (hname : IsName name) (value : String) (rest : List Char) :
    pairs (((attr name value).toList ++ rest).splitOn '"')
      = (name, escape value) :: pairs (rest.splitOn '"') := by
  have hquote := hname.notMem (c := '"') (by decide)
  have hkey : '"' ∉ ' ' :: name.toList ++ ['='] := by simp [hquote]
  have hvalue := notMem_escape value (d := '"') (by decide)
  have hchars : (attr name value).toList ++ rest
      = (' ' :: name.toList ++ ['=']) ++ '"' :: ((escape value).toList ++ '"' :: rest) := by
    simp [toList_attr]
  rw [hchars, List.splitOn_append_cons_self_of_not_mem hkey,
    List.splitOn_append_cons_self_of_not_mem hvalue, pairs]
  simp

/-- The attributes of a tag are those that were written, if no quote is behind them. -/
theorem attributes_tag_append (hname : IsName name) (hattrs : ∀ n ∈ attrs.map Prod.fst, IsName n)
    {s : String} (hs : '"' ∉ s.toList) :
    attributes (tag name attrs ++ s) = attrs.map fun a => (a.1, escape a.2) := by
  have hpairs (attrs : List (String × String)) (hattrs : ∀ n ∈ attrs.map Prod.fst, IsName n)
      {cs : List Char} (hcs : '"' ∉ cs) :
      pairs ((attrs.flatMap (fun a => (attr a.1 a.2).toList) ++ cs).splitOn '"')
        = attrs.map fun a => (a.1, escape a.2) := by
    induction attrs with
    | nil => rw [List.flatMap_nil, List.nil_append, List.splitOn_eq_singleton hcs]; rfl
    | cons a attrs ih =>
      rw [List.flatMap_cons, List.append_assoc, pairs_attr (hattrs a.1 List.mem_cons_self),
        ih fun n hn => hattrs n (List.mem_cons_of_mem a.1 hn), List.map_cons]
  have hchars : ∀ c ∈ name.toList, decide (c ≠ ' ') = true :=
    fun c hc => decide_eq_true fun h => hname.notMem (by decide) (h ▸ hc)
  unfold attributes
  rw [String.toList_append, toList_tag, List.append_assoc, List.dropWhile_append_of_pos hchars]
  cases attrs with
  | nil =>
    -- what is behind a name without attributes can begin with anything but a quote
    exact hpairs [] nofun fun h => hs ((List.dropWhile_sublist _).subset h)
  | cons a attrs =>
    have hkeep : ((a :: attrs).flatMap (fun a => (attr a.1 a.2).toList) ++ s.toList).dropWhile (· ≠ ' ')
        = (a :: attrs).flatMap (fun a => (attr a.1 a.2).toList) ++ s.toList := by
      simp [toList_attr]
    rw [hkeep]
    exact hpairs (a :: attrs) hattrs hs

/-- **Attributes are read as they were written**, with their values still escaped. -/
theorem attributes_tag (hname : IsName name) (hattrs : ∀ n ∈ attrs.map Prod.fst, IsName n) :
    attributes (tag name attrs) = attrs.map fun a => (a.1, escape a.2) := by
  have happend := attributes_tag_append hname hattrs (s := "") List.not_mem_nil
  rwa [String.append_empty] at happend

/-- An attribute that is written is found. -/
theorem attribute?_tag (hname : IsName name) (hattrs : ∀ n ∈ attrs.map Prod.fst, IsName n)
    (n : String) : attribute? (tag name attrs) n = (attrs.lookup n).map escape := by
  unfold attribute?
  rw [attributes_tag hname hattrs]
  clear hattrs
  induction attrs with
  | nil => rfl
  | cons a attrs ih =>
    rw [List.map_cons, List.lookup_cons, List.lookup_cons, ih]
    cases n == a.1 <;> rfl

example :
    let document := "<?xml version=\"1.0\"?>\n<a>1 > 0<b x=\"&lt;\" y=\"2\"/><b/></a>"
    tags document = ["?xml version=\"1.0\"?", "a", "b x=\"&lt;\" y=\"2\"/", "b/", "/a"]
      ∧ (elements document "b").map (attribute? · "y") = [some "2", none] := by
  decide

end TemplateCoverage.Xml
