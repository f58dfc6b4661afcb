import TemplateCoverage.Decimal.Fixed
import TemplateCoverage.Report.Basic
import TemplateCoverage.Report.Json
import TemplateCoverage.Xml

/-!
# The Cobertura report

Branches are shown on lines: a branch covers every line of its arm. A line is hit if some arm that
spans it was covered. The arms of one block form a decision, which is shown on the line that opened
the block, with the number of its arms and of the covered ones.

Every file with branches is a class. A chart without branches has rates of zero.
-/

namespace TemplateCoverage.Report

/-- The coverage of a line: whether it was hit, and on a decision line the covered arms and all
arms. -/
structure LineCoverage where
  hit : Bool := false
  decision : Option (Nat × Nat) := none
  deriving DecidableEq, Repr

/-- The coverage of a file. -/
structure ClassCoverage where
  /-- The lines that an arm spans, and the decision lines. -/
  lines : Std.ExtTreeMap Nat LineCoverage := ∅
  branchesCovered : Nat := 0
  branchesValid : Nat := 0

namespace ClassCoverage

/-- Change the coverage of a line, which begins as not hit. -/
def update (c : ClassCoverage) (number : Nat) (f : LineCoverage → LineCoverage) : ClassCoverage :=
  { c with lines := c.lines.insert number (f ((c.lines[number]?).getD {})) }

/-- Note that an arm spans a line. -/
def span (hit : Bool) (c : ClassCoverage) (number : Nat) : ClassCoverage :=
  c.update number fun l => { l with hit := l.hit || hit }

/-- Put the decision of a line on it. The line is hit if an arm of the decision was covered. -/
def setDecision (c : ClassCoverage) (number : Nat) (decision : Nat × Nat) : ClassCoverage :=
  c.update number fun l => { hit := l.hit || 0 < decision.1, decision := some decision }

end ClassCoverage

/-- The decisions of a file by their lines: the covered arms and all arms. -/
abbrev Decisions := Std.ExtTreeMap Nat (Nat × Nat)

/-- Note that an arm belongs to the decision on a line. -/
def Decisions.meet (hit : Bool) (decisions : Decisions) (number : Nat) : Decisions :=
  let (covered, total) := (decisions[number]?).getD (0, 0)
  decisions.insert number (if hit then covered + 1 else covered, total + 1)

namespace ClassCoverage

/-- Add a branch to the lines that its arm spans and to the decisions. -/
def add (r : Report) : ClassCoverage × Decisions → Branch → ClassCoverage × Decisions
  | (c, decisions), b =>
    let hit := r.isCovered b.id
    let spanned := b.lines.foldl (span hit) c
    ({ spanned with
        branchesCovered := if hit then spanned.branchesCovered + 1 else spanned.branchesCovered
        branchesValid := spanned.branchesValid + 1 },
      decisions.meet hit b.decisionLine)

/-- The coverage of a file with the given branches: the lines of all arms first, then the
decisions. -/
def ofBranches (r : Report) (branches : List Branch) : ClassCoverage :=
  let (c, decisions) := branches.foldl (add r) ({}, ∅)
  decisions.foldl setDecision c

/-- The number of lines that were hit. -/
def linesCovered (c : ClassCoverage) : Nat :=
  c.lines.values.countP (·.hit)

/-- The number of lines. -/
def linesValid (c : ClassCoverage) : Nat :=
  c.lines.size

end ClassCoverage

/-- The classes of a report in the order of their paths. -/
def classes (r : Report) : List (String × ClassCoverage) :=
  r.discovered.byFile.map fun (file, branches) => (file, ClassCoverage.ofBranches r branches)

/-- The numbers of lines and branches, the covered ones and all. -/
structure Tally where
  linesCovered : Nat
  linesValid : Nat
  branchesCovered : Nat
  branchesValid : Nat
  deriving DecidableEq, Repr

/-- The numbers of a class. -/
def ClassCoverage.tally (c : ClassCoverage) : Tally :=
  ⟨c.linesCovered, c.linesValid, c.branchesCovered, c.branchesValid⟩

/-- The numbers of two parts together. -/
def Tally.add (s t : Tally) : Tally :=
  ⟨s.linesCovered + t.linesCovered, s.linesValid + t.linesValid,
    s.branchesCovered + t.branchesCovered, s.branchesValid + t.branchesValid⟩

/-- The numbers of a report. -/
def tally (r : Report) : Tally :=
  r.classes.foldl (fun t c => t.add c.2.tally) ⟨0, 0, 0, 0⟩

/-- A share between zero and one. Of nothing, the share is zero. -/
def rate (covered valid : Nat) : Float :=
  if valid = 0 then 0.0 else covered.toFloat / valid.toFloat

/-- A share as it is written. -/
def rateText (covered valid : Nat) : String :=
  Decimal.fixed 4 (rate covered valid)

/-- The attributes of a line rate and a branch rate. -/
def Tally.rateAttributes (t : Tally) : String :=
  Xml.attr "line-rate" (rateText t.linesCovered t.linesValid)
    ++ Xml.attr "branch-rate" (rateText t.branchesCovered t.branchesValid)

/-- The covered arms of a decision: the whole part of the percentage and both numbers. -/
def conditionText (covered total : Nat) : String :=
  let percent := if total = 0 then 0 else covered * 100 / total
  toString percent ++ "% (" ++ toString covered ++ "/" ++ toString total ++ ")"

/-- The element of a line. -/
def lineElement (number : Nat) (l : LineCoverage) : String :=
  "            <line" ++ Xml.attr "number" (toString number)
    ++ Xml.attr "hits" (if l.hit then "1" else "0")
    ++ (match l.decision with
        | some (covered, total) =>
          Xml.attr "branch" "true"
            ++ Xml.attr "condition-coverage" (conditionText covered total)
        | none => Xml.attr "branch" "false")
    ++ "/>\n"

/-- The element of a class with the given numbers and elements of lines. -/
def classText (file : String) (t : Tally) (lines : List String) : String :=
  "        <class" ++ Xml.attr "name" file ++ Xml.attr "filename" file
    ++ t.rateAttributes ++ Xml.attr "complexity" "0" ++ ">\n"
    ++ "          <methods/>\n          <lines>\n"
    ++ String.join lines
    ++ "          </lines>\n        </class>\n"

/-- The element of a class. -/
def classElement (file : String) (c : ClassCoverage) : String :=
  classText file c.tally (c.lines.toList.map fun (number, l) => lineElement number l)

/-- What the Cobertura report says besides the coverage. -/
structure CoberturaOptions where
  version : String := toolVersion
  /-- The root of the chart. -/
  source : Option String := none
  /-- The time of the report: the digits of a number of milliseconds. -/
  timestamp : String

/-- The document of a chart with the given numbers and elements of classes. -/
def documentText (options : CoberturaOptions) (chart : String) (t : Tally) (classes : List String) :
    String :=
  "<?xml version=\"1.0\" encoding=\"UTF-8\"?>\n"
    ++ "<!DOCTYPE coverage SYSTEM \"http://cobertura.sourceforge.net/xml/coverage-04.dtd\">\n"
    ++ "<coverage" ++ t.rateAttributes
    ++ Xml.attr "lines-covered" (toString t.linesCovered)
    ++ Xml.attr "lines-valid" (toString t.linesValid)
    ++ Xml.attr "branches-covered" (toString t.branchesCovered)
    ++ Xml.attr "branches-valid" (toString t.branchesValid)
    ++ Xml.attr "complexity" "0"
    ++ Xml.attr "version" options.version
    ++ Xml.attr "timestamp" options.timestamp ++ ">\n"
    ++ "  <sources>\n    <source>" ++ Xml.escape (options.source.getD ".") ++ "</source>\n"
    ++ "  </sources>\n  <packages>\n"
    ++ "    <package" ++ Xml.attr "name" chart ++ t.rateAttributes
    ++ Xml.attr "complexity" "0" ++ ">\n      <classes>\n"
    ++ String.join classes
    ++ "      </classes>\n    </package>\n  </packages>\n</coverage>\n"

/-- The report as Cobertura XML. -/
def toCobertura (r : Report) (options : CoberturaOptions) : String :=
  documentText options r.chart r.tally (r.classes.map fun (file, c) => classElement file c)

end TemplateCoverage.Report
