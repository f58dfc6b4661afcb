import TemplateCoverage.Branch.Allocator
import TemplateCoverage.Instrument
import TemplateCoverage.Json.Reader
import TemplateCoverage.Text.Blank
import TemplateCoverage.Text.Search

/-!
# Traces

An instrumented chart prints sentinel lines: the sentinel mark, the name of a list, and the list as
JSON, which is `null` when the list is empty. Each sentinel shows what has been collected so far, so
the trace of a render is the union over its sentinel lines. All other lines are irrelevant.
-/

namespace TemplateCoverage

open Text

/-- The IDs that a render reported. -/
structure Trace where
  files : IdSet := ∅
  helpers : IdSet := ∅

namespace Trace

/-- The reported IDs, those of files first. -/
def all (t : Trace) : List BranchId :=
  t.files.toList ++ t.helpers.toList

/-- The number of IDs in both lists. -/
def size (t : Trace) : Nat :=
  t.files.size + t.helpers.size

/-- Whether nothing was reported. -/
def isEmpty (t : Trace) : Bool :=
  t.files.isEmpty && t.helpers.isEmpty

/-- What either of two traces reports. -/
def union (t u : Trace) : Trace :=
  { files := t.files.insertMany u.files.toList, helpers := t.helpers.insertMany u.helpers.toList }

/-- Add IDs to the list of one kind. -/
def add (t : Trace) (kind : FileKind) (ids : List BranchId) : Trace :=
  match kind with
  | .template => { t with files := t.files.insertMany ids }
  | .helper => { t with helpers := t.helpers.insertMany ids }

end Trace

/-- Why a sentinel line cannot be read. -/
inductive SentinelError where
  | unknownCollection (name : String)
  | malformedPayload (payload : String)
  deriving DecidableEq, Repr

/-- The wording of a sentinel error. What is wrong with a malformed payload depends on nothing but the
payload, and it is not told. -/
def SentinelError.message : SentinelError → String
  | .unknownCollection name => "unknown trace collection \x60" ++ name ++ "\x60"
  | .malformedPayload _ => "<json>"

/-- A sentinel error with the line on which it was found. -/
structure TraceError where
  line : Nat
  cause : SentinelError
  deriving DecidableEq, Repr

/-- What a sentinel line reports. -/
structure Sentinel where
  kind : FileKind
  ids : List BranchId
  deriving DecidableEq, Repr

namespace Sentinel

/-- What follows the sentinel mark on a line, if the line has one. -/
def body? (line : List Char) : Option (List Char) :=
  (cutAt? sentinelPrefix.toList line).map fun (_, rest) => trimEnd rest

/-- The name of the list and the payload in what follows the mark. -/
def fields (body : List Char) : List Char × List Char :=
  (body.takeWhile (!isBlank ·), trim ((body.dropWhile (!isBlank ·)).drop 1))

/-- The kind of file whose list has the given name. -/
def kind? (name : List Char) : Option FileKind :=
  if name = FileKind.template.collection.toList then some .template
  else if name = FileKind.helper.collection.toList then some .helper
  else none

/-- The IDs of a payload: an array of texts, or `null`. -/
def payload? (cs : List Char) : Option (List BranchId) :=
  match Json.parse? cs with
  | some .null => some []
  | some (.array items) => Json.textItems? items
  | _ => none

/-- Read what follows the sentinel mark. -/
def read (body : List Char) : Except SentinelError Sentinel :=
  let (name, payload) := fields body
  match kind? name with
  | none => .error (.unknownCollection (String.ofList name))
  | some kind =>
    match payload? payload with
    | none => .error (.malformedPayload (String.ofList payload))
    | some ids => .ok ⟨kind, ids⟩

end Sentinel

namespace Trace

/-- Read a line: a line without a sentinel leaves the trace as it is. -/
def readLine (t : Trace) (line : List Char) : Except SentinelError Trace :=
  match Sentinel.body? line with
  | none => .ok t
  | some body => (Sentinel.read body).map fun s => t.add s.kind s.ids

/-- Read lines of which the first has the given number. The first line that cannot be read is the
error. -/
def readLines (t : Trace) (number : Nat) : List (List Char) → Except TraceError Trace
  | [] => .ok t
  | line :: rest =>
    match t.readLine line with
    | .error cause => .error ⟨number, cause⟩
    | .ok next => next.readLines (number + 1) rest

/-- The trace in a rendered text. -/
def parse (rendered : String) : Except TraceError Trace :=
  Trace.readLines {} 1 (lineTexts rendered.toList)

/-- The number of sentinel lines in a rendered text. -/
def sentinelCount (rendered : String) : Nat :=
  (lineTexts rendered.toList).countP fun line => (Sentinel.body? line).isSome

end Trace

end TemplateCoverage
