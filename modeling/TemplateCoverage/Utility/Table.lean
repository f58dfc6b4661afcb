import TemplateCoverage.Utility.Character
import TemplateCoverage.Utility.Compare
import TemplateCoverage.Utility.Condition
import TemplateCoverage.Utility.Environment
import TemplateCoverage.Utility.Expression
import TemplateCoverage.Utility.Grep
import TemplateCoverage.Utility.Sed.Run
import TemplateCoverage.Utility.Sort
import TemplateCoverage.Utility.Transfer

/-!
# The utilities there are

Utilities are found by their names in the directories of programs.
-/

namespace TemplateCoverage.Utility

/-- Make a file or a directory with a new name in the directory for such things. -/
def mktemp (u : UtilityCall) : Work Nat :=
  u.withOptions
    [{ letter := 'd', names := ["directory"] }, { letter := 't' }, { letter := 'u' },
     { letter := 'q', names := ["quiet"] },
     { letter := 'p', names := ["tmpdir"], value := .required }] 1 fun o => do
  let w ← get
  let parent := Bytes.text ((o.value? 'p').getD "/tmp")
  let (_, files) := w.files.createDirectories parent
  let names := (List.range (files.entries.size + 1)).map fun n =>
    let digits := toString n
    parent ++ "/tmp." ++ String.ofList (List.replicate (10 - digits.length) '0') ++ digits
  match names.find? fun name => !files.pathExists name with
  | none => pure 1
  | some name =>
    let made := if o.has 'd' then files.makeDirectory name else files.writeText name ""
    match made with
    | .ok files =>
      set { w with files }
      Work.say (Bytes.ofText name ++ "\n")
      pure 0
    | .error e =>
      u.complainOf "failed to create file via template '/tmp/tmp.XXXXXXXXXX'" e
      pure 1

/-- The utility of a name. -/
def ofName? (call : ProgramCaller) (name : String) : Option (UtilityCall → Work Nat) :=
  match name with
  | "[" | "test" => some test
  | "basename" => some basename
  | "cat" => some cat
  | "chmod" => some chmod
  | "cmp" => some cmp
  | "comm" => some comm
  | "cp" => some cp
  | "cut" => some cut
  | "dirname" => some dirname
  | "echo" => some echo
  | "egrep" | "fgrep" | "grep" => some grep
  | "env" => some (env call)
  | "expr" => some expr
  | "false" => some (ending 1)
  | "find" => some (find call)
  | "head" => some head
  | "ln" => some ln
  | "ls" => some ls
  | "mkdir" => some mkdir
  | "mktemp" => some mktemp
  | "mv" => some mv
  | "nice" => some (nice call)
  | "nl" => some nl
  | "nohup" => some (nohup call)
  | "paste" => some paste
  | "printenv" => some printenv
  | "printf" => some printf
  | "pwd" => some pwd
  | "readlink" => some readlink
  | "realpath" => some realpath
  | "rev" => some rev
  | "rm" => some rm
  | "rmdir" => some rmdir
  | "sed" => some Sed.sed
  | "seq" => some seq
  | "sleep" => some sleep
  | "sort" => some sort
  | "sync" => some sync
  | "tac" => some tac
  | "tail" => some tail
  | "tee" => some tee
  | "timeout" => some (timeout call)
  | "touch" => some touch
  | "tr" => some tr
  | "true" => some (ending 0)
  | "uname" => some uname
  | "uniq" => some uniq
  | "wc" => some wc
  | "whoami" => some whoami
  | "xargs" => some (xargs call)
  | "yes" => some yes
  | _ => none

/-- Whether a utility writes at once, and not when it ends. -/
def writesAtOnce (name : String) : Bool :=
  ["cat", "tee", "env", "find", "nice", "nohup", "timeout", "xargs", "yes"].contains name

/-- What is written in the order in which it appears: errors come before the output of utilities
that write when they end. The latest is first. -/
def settled (written : List Written) : List Written :=
  let isError : Written → Bool := fun w => match w with
    | .error _ => true
    | .output _ => false
  written.filter (fun w => !isError w) ++ written.filter isError

/-- Run the utility of a name. -/
def run? (call : ProgramCaller) (name : String) : Option (UtilityCall → Work Nat) :=
  (ofName? call name).map fun work u => do
    let before := (← get).written
    modify fun w => { w with written := [] }
    let code ← work u
    modify fun w =>
      { w with written := (if writesAtOnce name then w.written else settled w.written) ++ before }
    pure code

end TemplateCoverage.Utility
