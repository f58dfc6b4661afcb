import TemplateCoverage.Renderer.Program
import TemplateCoverage.Proofs.Run.Rendering

/-!
# A program as the renderer of a run

The renderer of a coverage run is as a rule a program, which is found by its path or in the directories of a
search path, and which may be a script.

* **`atPath_eq_ok_iff`**: a path leads to a program through scripts, each of which names the next one as its
  interpreter. At the end stands a program that is always there (`Leads.standard_name`).
* **`search?_eq_some_iff`**: a name without a slash is found in the first directory that has such a program.
* **`render_cases`**: either the program was called, or it is reported as unavailable and no file has changed.
* **`answer_of_mem_calls`**: so it is with every call of a run, by induction over its inputs.
* **`renderInputs_of_missing`**: a run whose program is not there ends at its first input, with the files as
  they were.
-/

namespace TemplateCoverage

/-! ## Finding programs -/

namespace Launch

variable {files : FileSystem} {path : Bytes} {l : Launch}

/-- A path leads to a program through a number of scripts. Each script is called by its interpreter, with the
argument that its first line may have, its own path, and then what follows. -/
inductive Leads (files : FileSystem) : Nat → Bytes → Launch → Prop where
  | standard {path : Bytes} {executable : Executable} (h : standard? path = some executable) :
      Leads files 0 path { executable, name := path }
  | script {scripts : Nat} {path name : Bytes} {contents : ByteArray} {args : List Bytes} {l : Launch}
      (hscript : standard? path = none) (hfile : files.status (Bytes.text path) = .ok (.file contents true))
      (hmark : interpreter? (Bytes.ofArray contents) = some (name, args)) (hrest : Leads files scripts name l) :
      Leads files (scripts + 1) path { l with args := l.args ++ args ++ [path] }

/-- The program that is run in the end is one of those that are always there, and it goes by its own path. -/
theorem Leads.standard_name {scripts : Nat} (h : Leads files scripts path l) :
    standard? l.name = some l.executable := by
  induction h with
  | standard h => exact h
  | script _ _ _ _ ih => exact ih

/-- A script is the last of the arguments in front, so it comes right before those of the call. -/
theorem Leads.args_eq {scripts : Nat} (h : Leads files scripts path l) :
    (scripts = 0 → l.args = []) ∧ (scripts ≠ 0 → l.args.getLast? = some path) := by
  cases h with
  | standard h => exact ⟨fun _ => rfl, fun h => absurd rfl h⟩
  | script => exact ⟨nofun, fun _ => List.getLast?_concat⟩

/-- **A program at a path** is found if fewer scripts lead to it than there are steps. -/
theorem atPath_eq_ok_iff {n : Nat} : atPath files n path = .ok l ↔ ∃ scripts < n, Leads files scripts path l := by
  constructor
  · -- induction on the steps: each of them is one script
    intro h
    induction n generalizing path l with
    | zero => cases h
    | succ n ih =>
      rw [atPath] at h
      split at h
      · next executable hstandard =>
        cases h
        exact ⟨0, Nat.succ_pos n, .standard hstandard⟩
      · next hscript =>
        split at h
        · cases h
        · next contents hfile =>
          split at h
          · cases h
          · next name args hmark =>
            cases hrest : atPath files n name with
            | error e =>
              rw [hrest] at h
              cases h
            | ok rest =>
              rw [hrest] at h
              cases h
              obtain ⟨scripts, hlt, hleads⟩ := ih hrest
              exact ⟨scripts + 1, Nat.succ_lt_succ hlt, .script hscript hfile hmark hleads⟩
        · cases h
  · rintro ⟨scripts, hlt, hleads⟩
    -- induction on the scripts, for any number of steps that is large enough
    induction hleads generalizing n with
    | standard h =>
      obtain ⟨n, rfl⟩ := Nat.exists_eq_succ_of_ne_zero (Nat.ne_of_gt hlt)
      rw [atPath, h]
    | @script scripts path name contents args l hscript hfile hmark hrest ih =>
      obtain ⟨n, rfl⟩ := Nat.exists_eq_succ_of_ne_zero (Nat.ne_of_gt (Nat.zero_lt_of_lt hlt))
      rw [atPath, hscript, hfile]
      dsimp only
      rw [hmark]
      dsimp only
      rw [ih (Nat.lt_of_succ_lt_succ hlt)]
      rfl

/-- Whether there is a program at a path that can be called. What its first line says does not matter yet. -/
def CanRun (files : FileSystem) (path : Bytes) : Prop :=
  (standard? path).isSome = true ∨ ∃ contents, files.status (Bytes.text path) = .ok (.file contents true)

/-- The path itself, if there is a program at it. A search tries this in one directory after the other. -/
def found? (files : FileSystem) (path : Bytes) : Option Bytes :=
  if (standard? path).isSome then some path
  else
    match files.status (Bytes.text path) with
    | .ok (.file _ true) => some path
    | _ => none

/-- It is found exactly if it can be run. -/
theorem found?_eq_some_iff {candidate : Bytes} :
    found? files candidate = some path ↔ path = candidate ∧ CanRun files candidate := by
  unfold found? CanRun
  by_cases hstandard : (standard? candidate).isSome = true
  · rw [if_pos hstandard]
    exact ⟨fun h => ⟨(Option.some.inj h).symm, .inl hstandard⟩, fun h => congrArg some h.1.symm⟩
  · rw [if_neg hstandard]
    split
    · next contents hfile =>
      exact ⟨fun h => ⟨(Option.some.inj h).symm, .inr ⟨contents, hfile⟩⟩, fun h => congrArg some h.1.symm⟩
    · next hother =>
      refine ⟨nofun, fun ⟨_, hrun⟩ => ?_⟩
      obtain ⟨contents, hfile⟩ := hrun.resolve_left hstandard
      exact absurd hfile (hother contents)

theorem found?_eq_none_iff {candidate : Bytes} : found? files candidate = none ↔ ¬CanRun files candidate := by
  rw [Option.eq_none_iff_forall_ne_some]
  exact ⟨fun h hrun => h _ (found?_eq_some_iff.mpr ⟨rfl, hrun⟩),
    fun h _ hfound => h (found?_eq_some_iff.mp hfound).2⟩

/-- **A search** ends in the first directory that has a program of that name. -/
theorem search?_eq_some_iff {searchPath name : Bytes} :
    search? files searchPath name = some path ↔
      name ≠ [] ∧ ∃ before directory after, Bytes.split ':' searchPath = before ++ directory :: after
        ∧ path = Utility.pathBelow directory name ∧ CanRun files path
        ∧ ∀ d ∈ before, ¬CanRun files (Utility.pathBelow d name) := by
  by_cases hname : name = []
  · subst hname
    exact ⟨nofun, fun h => absurd rfl h.1⟩
  · -- one directory after the other, so the first one that has it
    have hsearch : search? files searchPath name
        = (Bytes.split ':' searchPath).findSome? fun d => found? files (Utility.pathBelow d name) :=
      if_neg (by rw [List.isEmpty_eq_false_iff.mpr hname]; exact Bool.false_ne_true)
    rw [hsearch, List.findSome?_eq_some_iff]
    constructor
    · rintro ⟨before, directory, after, hsplit, hfound, hbefore⟩
      obtain ⟨rfl, hrun⟩ := found?_eq_some_iff.mp hfound
      exact ⟨hname, before, directory, after, hsplit, rfl, hrun,
        fun d hd => found?_eq_none_iff.mp (hbefore d hd)⟩
    · rintro ⟨-, before, directory, after, hsplit, rfl, hrun, hbefore⟩
      exact ⟨before, directory, after, hsplit, found?_eq_some_iff.mpr ⟨rfl, hrun⟩,
        fun d hd => found?_eq_none_iff.mpr (hbefore d hd)⟩

end Launch

/-! ## Calling programs -/

/-- **A call of a program** comes to nothing only if the program is not found, and it leaves the working
directory of its caller alone. -/
theorem Process.call_spec (files : FileSystem) (environment : List (Bytes × Bytes)) (name : Bytes)
    (args : List Bytes) :
    (∃ e, launch files { name, args, environment } = .error e ∧ call files environment name args = .error e)
      ∨ ∃ l o, launch files { name, args, environment } = .ok l ∧ call files environment name args = .ok o
        ∧ o.files.workingDirectory = files.workingDirectory := by
  unfold call
  dsimp only
  -- all that can fail is to find the program, for whatever it does itself is an answer
  cases hlaunch : launch files { name, args, environment } with
  | error e => exact .inl ⟨e, rfl, rfl⟩
  | ok l => exact .inr ⟨l, _, rfl, rfl, rfl⟩

namespace Program

variable {p : Program} {fs : FileSystem}

/-- The program is not found among the files. It does not matter what it would be called with. -/
def Missing (p : Program) (fs : FileSystem) : Prop :=
  ∃ e, Process.launch fs { name := Bytes.ofText p.path, args := [], environment } = .error e

/-- A program comes to an answer and leaves the working directory alone, or it is not called at all. -/
theorem call_cases (p : Program) (fs : FileSystem) (args : List String) :
    (∃ e, p.call fs args = .error e)
      ∨ ∃ o after, p.call fs args = .ok (o, after) ∧ after.workingDirectory = fs.workingDirectory
        ∧ ¬p.Missing fs := by
  unfold call
  split
  · -- no program can be given such a word
    exact .inl ⟨_, rfl⟩
  · rcases Process.call_spec fs environment (Bytes.ofText p.path) (args.map Bytes.ofText) with
      ⟨e, -, hcall⟩ | ⟨l, o, hlaunch, hcall, hdirectory⟩
    · rw [hcall]
      cases e with
      | notFound => exact .inl ⟨_, rfl⟩
      | _ => exact .inl ⟨_, rfl⟩
    · rw [hcall]
      -- arguments do not matter to where the program is found
      refine .inr ⟨_, _, rfl, hdirectory, fun ⟨e, hmissing⟩ => ?_⟩
      have hlaunch' : Process.launch fs { name := Bytes.ofText p.path, args := [], environment } = .ok l :=
        hlaunch
      rw [hlaunch'] at hmissing
      cases hmissing

/-- **A request** to a program is answered, or the program is reported as unavailable by its path, and then no
file has changed. -/
theorem render_cases (p : Program) (fs : FileSystem) (r : RenderRequest) :
    (∃ o after, p.render fs r = (.ok o, after) ∧ after.workingDirectory = fs.workingDirectory ∧ ¬p.Missing fs)
      ∨ ∃ reason, p.render fs r = (.error (.rendererUnavailable p.path reason), fs) := by
  unfold render
  rcases p.call_cases fs (arguments r) with ⟨e, hcall⟩ | ⟨o, after, hcall, hdirectory, hfound⟩
  · rw [hcall]
    exact .inr ⟨_, rfl⟩
  · rw [hcall]
    exact .inl ⟨o, after, rfl, hdirectory, hfound⟩

/-- What there is to say of a request in either case. -/
theorem answer_render (p : Program) (fs : FileSystem) (r : RenderRequest) :
    ((∃ o, (p.render fs r).1 = .ok o) ∨ ∃ reason, (p.render fs r).1 = .error (.rendererUnavailable p.path reason))
      ∧ (p.render fs r).2.workingDirectory = fs.workingDirectory := by
  rcases p.render_cases fs r with ⟨o, after, hrender, hdirectory, -⟩ | ⟨reason, hrender⟩
  · rw [hrender]
    exact ⟨.inl ⟨o, rfl⟩, hdirectory⟩
  · rw [hrender]
    exact ⟨.inr ⟨reason, rfl⟩, rfl⟩

/-! ## A run with a program -/

section

variable {chart : String} {extraArgs : List String} {inputs : List ValuesInput} {c : Call}

/-- **Every call of a run** is answered or reports the program as unavailable, and the working directory is the
same after it. Induction on the inputs: each call starts from the files that the one before it left. -/
theorem answer_of_mem_calls {index : Nat} (hc : c ∈ calls p.renderer chart extraArgs index fs inputs) :
    ((∃ o, c.answer = .ok o) ∨ ∃ reason, c.answer = .error (.rendererUnavailable p.path reason))
      ∧ c.after.workingDirectory = fs.workingDirectory := by
  induction inputs generalizing index fs with
  | nil => cases hc
  | cons input rest ih =>
    have hfirst := p.answer_render fs { chart, values := input.path, extraArgs }
    rcases List.mem_cons.mp hc with rfl | hc
    · exact hfirst
    · obtain ⟨hanswer, hdirectory⟩ := ih hc
      exact ⟨hanswer, hdirectory.trans hfirst.2⟩

/-- **The ways in which a run with a program can fail.** -/
theorem error_of_mem_calls {index : Nat} {e : CoverageError}
    (hc : c ∈ calls p.renderer chart extraArgs index fs inputs) (hfails : c.FailsWith e) :
    (∃ reason, e = .rendererUnavailable p.path reason)
      ∨ (∃ status diagnostic, e = .renderFailed c.label status diagnostic)
      ∨ ∃ cause, e = .invalidTrace cause := by
  cases hfails with
  | unavailable h =>
    rcases (answer_of_mem_calls hc).1 with ⟨o, ho⟩ | ⟨reason, hreason⟩
    · rw [h] at ho
      cases ho
    · exact .inl ⟨reason, Except.error.inj (h.symm.trans hreason)⟩
  | unsuccessful => exact .inr (.inl ⟨_, _, rfl⟩)
  | @unreadable o cause => exact .inr (.inr ⟨cause, rfl⟩)

/-- A program is not told how many calls there were before. Only the files can tell it. -/
theorem calls_index (i j : Nat) :
    (calls p.renderer chart extraArgs i fs inputs).map (fun c => (c.input, c.answer, c.after))
      = (calls p.renderer chart extraArgs j fs inputs).map (fun c => (c.input, c.answer, c.after)) := by
  induction inputs generalizing i j fs with
  | nil => rfl
  | cons input rest ih => exact congrArg (_ :: ·) (ih (i + 1) (j + 1))

/-- **A run whose program is missing** ends at its first input. Nothing but that input is begun, and all files
are as they were. -/
theorem renderInputs_of_missing (hmissing : p.Missing fs) {index : Nat} {s : Session} (input : ValuesInput)
    (rest : List ValuesInput) :
    ∃ emitted reason, eventsOf emitted = [.started index input.label]
      ∧ renderInputs p.renderer chart extraArgs index fs s (input :: rest)
        = (emitted, .error (.rendererUnavailable p.path reason), fs) := by
  rcases p.render_cases fs { chart, values := input.path, extraArgs } with
    ⟨_, _, _, _, hfound⟩ | ⟨reason, hrender⟩
  · exact absurd hmissing hfound
  · -- a program that is missing cannot have answered, so this is the other case
    exact ⟨_, reason, eventsOf_begun p.renderer chart extraArgs index input,
      renderInputs_of_failsWith p.renderer chart extraArgs (c := ⟨index, input, _, fs⟩) hrender
        (.unavailable rfl)⟩

end

end Program

end TemplateCoverage
