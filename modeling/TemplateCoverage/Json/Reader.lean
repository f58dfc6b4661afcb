import TemplateCoverage.Json.Token

/-!
# Reading JSON

The tokens drive a machine with a stack: one frame for every array or object that is open. The
grammar is strict, nothing may follow the value.
-/

namespace TemplateCoverage.Json

/-- A container that is open, with its finished parts in reverse. -/
inductive Frame where
  | array (done : List Json)
  | object (done : List (String × Json)) (name : String)

/-- What must come next. -/
inductive Expected where
  /-- A value. -/
  | value
  /-- A value, or the end of the array that has just been opened. -/
  | valueOrEnd
  /-- The name of a field. -/
  | name (done : List (String × Json))
  /-- The name of a field, or the end of the object that has just been opened. -/
  | nameOrEnd
  /-- The colon after a name. -/
  | colon (done : List (String × Json)) (name : String)
  /-- What follows a complete value. -/
  | following (j : Json)

/-- The containers that are open, and what must come next. -/
structure Machine where
  frames : List Frame
  expected : Expected

/-- Go on after a complete value with a mark that belongs to the innermost container. -/
def afterValue? (j : Json) (frames : List Frame) (t : Token) : Option Machine :=
  match frames, t with
  | .array done :: outer, .comma => some ⟨.array (j :: done) :: outer, .value⟩
  | .array done :: outer, .closeArray => some ⟨outer, .following (.array (j :: done).reverse)⟩
  | .object done name :: outer, .comma => some ⟨outer, .name ((name, j) :: done)⟩
  | .object done name :: outer, .closeObject =>
    some ⟨outer, .following (.object ((name, j) :: done).reverse)⟩
  | _, _ => none

/-- Begin a value. -/
def beginValue? (frames : List Frame) (t : Token) : Option Machine :=
  match t with
  | .scalar j => some ⟨frames, .following j⟩
  | .openArray => some ⟨.array [] :: frames, .valueOrEnd⟩
  | .openObject => some ⟨frames, .nameOrEnd⟩
  | _ => none

/-- Read one token. -/
def Machine.read? (m : Machine) (t : Token) : Option Machine :=
  match m.expected, t with
  | .value, t => beginValue? m.frames t
  | .valueOrEnd, .closeArray =>
    match m.frames with
    | .array done :: outer => some ⟨outer, .following (.array done.reverse)⟩
    | _ => none
  | .valueOrEnd, t => beginValue? m.frames t
  | .name done, .scalar (.string name) => some ⟨m.frames, .colon done name⟩
  | .nameOrEnd, .scalar (.string name) => some ⟨m.frames, .colon [] name⟩
  | .nameOrEnd, .closeObject => some ⟨m.frames, .following (.object [])⟩
  | .colon done name, .colon => some ⟨.object done name :: m.frames, .value⟩
  | .following j, t => afterValue? j m.frames t
  | _, _ => none

/-- The value that the tokens make up, if they are exactly one value. -/
def Machine.run? (m : Machine) : List Token → Option Json
  | [] =>
    match m.frames, m.expected with
    | [], .following j => some j
    | _, _ => none
  | t :: rest => (m.read? t).bind fun next => next.run? rest

/-- The value of a JSON text. -/
def parse? (cs : List Char) : Option Json :=
  (tokensFrom? .between cs).bind fun tokens => Machine.run? ⟨[], .value⟩ tokens

/-- The texts of a list of texts. -/
def textItems? : List Json → Option (List String)
  | [] => some []
  | .string s :: rest => (textItems? rest).map (s :: ·)
  | _ :: _ => none

end TemplateCoverage.Json
