import TemplateCoverage.Discovery
import TemplateCoverage.Json.Printer

/-!
# Listing branches

The discovered branches as text, one address a line, or as JSON.
-/

namespace TemplateCoverage.Discovery

/-- The branches as a list of JSON objects. -/
def listingJson (d : Discovery) (mode : AddressMode) : Json :=
  .array (d.branches.branches.map fun b =>
    .object
      [("id", .string (b.address mode)),
       ("file", .string b.file),
       ("kind", .string b.kind.word),
       ("define", .optional .string b.define),
       ("start_line", .nat b.startLine),
       ("end_line", .nat b.endLine),
       ("decision_line", .nat b.decisionLine)])

/-- The branches as text or as JSON. -/
def listing (d : Discovery) (mode : AddressMode) (asJson : Bool) : String :=
  if asJson then (d.listingJson mode).pretty ++ "\n"
  else String.join (d.branches.branches.map fun b => b.address mode ++ "\n")

end TemplateCoverage.Discovery
