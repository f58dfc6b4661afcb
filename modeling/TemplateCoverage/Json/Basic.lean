import TemplateCoverage.Decimal.Shortest

/-!
# JSON values

A number is kept as it is written, so that whole numbers and decimals stay apart and no digit is
lost.
-/

namespace TemplateCoverage

/-- A JSON value. The fields of an object keep their order. -/
inductive Json where
  | null
  | bool (b : Bool)
  | number (literal : String)
  | string (s : String)
  | array (items : List Json)
  | object (fields : List (String × Json))

namespace Json

instance : Inhabited Json := ⟨.null⟩

/-- A whole number that is not negative. -/
def nat (n : Nat) : Json :=
  .number (toString n)

/-- A whole number. -/
def int (n : Int) : Json :=
  .number (toString n)

/-- A finite double in its shortest form. What is not finite has no number. -/
def double (x : Float) : Json :=
  if x.isFinite then .number (Decimal.documentLayout.text x) else .null

/-- A value that may be absent. -/
def optional (f : α → Json) : Option α → Json
  | none => .null
  | some a => f a

/-- A list of texts. -/
def strings (items : List String) : Json :=
  .array (items.map .string)

/-- The field of an object with the given name. -/
def field? (j : Json) (name : String) : Option Json :=
  match j with
  | .object fields => (fields.find? fun f => f.1 == name).map (·.2)
  | _ => none

end Json

end TemplateCoverage
