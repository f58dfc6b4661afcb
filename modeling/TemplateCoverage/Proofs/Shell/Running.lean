import TemplateCoverage.Shell.Interpreter

/-!
# Parts that run on their own

A step of a script is followed through its parts: `exec` is what comes of it and the machine that it leaves,
with one equation for each way to build a step. So it can be said what a part cannot change, whatever it
consists of.

* **`exec_withDescriptors`**: descriptors are put back, also if the part has stopped.
* **`exec_separately`**: a part in surroundings of its own changes files and streams and nothing else. It cannot
  stop what is around it, unless it is killed.
* **`Keeps`**: a step that leaves the surroundings as they are, or what is seen of them. Steps that do so can be
  put together (`Keeps.bind`), so a pipeline does (`keeps_runPipeline`).
* **`outputOf_spec`**: a command in the place of a word leaves two exit codes.
* **`keeps_run`**: what subshells, pipelines and commands in the background cannot change.
-/

namespace TemplateCoverage.Shell.Running

variable {α β : Type} {m m' : Machine}

/-! ## Steps -/

/-- What comes of a step, and the machine that it leaves. -/
def exec (work : Running α) (m : Machine) : Except Stop α × Machine :=
  (ExceptT.run work).run m

theorem exec_pure (a : α) (m : Machine) : (pure a : Running α).exec m = (.ok a, m) := rfl

/-- Steps come one after another: the second works on the machine that the first has left, and is not reached if
that one stopped. -/
theorem exec_bind (work : Running α) (next : α → Running β) (m : Machine) :
    (work >>= next).exec m =
      match work.exec m with
      | (.ok a, m') => (next a).exec m'
      | (.error stop, m') => (.error stop, m') := by
  -- a step is a state transformer whose result may be a stop
  show StateT.run (ExceptT.run work >>= ExceptT.bindCont next) m = _
  rw [StateT.run_bind]
  show StateT.run (ExceptT.bindCont next (work.exec m).1) (work.exec m).2 = _
  cases work.exec m with
  | mk result after =>
    cases result with
    | error stop => rfl
    | ok a => rfl

theorem exec_bind_of_ok {work : Running α} {next : α → Running β} {a : α} (h : work.exec m = (.ok a, m')) :
    (work >>= next).exec m = (next a).exec m' := by
  rw [exec_bind, h]

/-- A stop is the result of everything that begins with it. -/
theorem exec_bind_of_error {work : Running α} {next : α → Running β} {stop : Stop}
    (h : (work.exec m).1 = .error stop) : ((work >>= next).exec m).1 = .error stop := by
  rw [exec_bind]
  split
  · next a m' hwork =>
    rw [hwork] at h
    cases h
  · next stop' m' hwork =>
    rw [hwork] at h
    exact congrArg Except.error (Except.error.inj h)

theorem exec_map (f : α → β) (work : Running α) (m : Machine) :
    (f <$> work).exec m = ((work.exec m).1.map f, (work.exec m).2) := by
  show (work >>= fun a => pure (f a)).exec m = _
  rw [exec_bind]
  split
  · next a after h => rw [h]; rfl
  · next stop after h => rw [h]; rfl

/-- A stop can be caught. What was changed before it stays changed. -/
theorem exec_tryCatch (work : Running α) (handle : Stop → Running α) (m : Machine) :
    (tryCatch work handle).exec m =
      match work.exec m with
      | (.ok a, m') => (.ok a, m')
      | (.error stop, m') => (handle stop).exec m' := by
  show StateT.run (ExceptT.run (ExceptT.tryCatch work handle)) m = _
  rw [ExceptT.tryCatch, ExceptT.run_mk, StateT.run_bind]
  cases hwork : work.exec m with
  | mk result after =>
    have hrun : StateT.run work m = (result, after) := hwork
    rw [hrun]
    cases result with
    | error stop => rfl
    | ok a => rfl

theorem exec_throw (stop : Stop) (m : Machine) : (throw stop : Running α).exec m = (.error stop, m) := rfl

theorem exec_get (m : Machine) : (get : Running Machine).exec m = (.ok m, m) := rfl

theorem exec_here (m : Machine) : here.exec m = (.ok m.here, m) := rfl

theorem exec_change (f : Surroundings → Surroundings) (m : Machine) :
    (change f).exec m = (.ok (), { m with here := f m.here }) := rfl

theorem exec_openStream (s : Stream) (m : Machine) :
    (openStream s).exec m = (.ok m.world.streams.size, { m with world := (m.world.openStream s).2 }) := rfl

/-! ## Descriptors -/

/-- The machine with other descriptors. -/
def withOpen (m : Machine) (descriptors : List (Nat × Nat)) : Machine :=
  { m with here := { m.here with descriptors } }

/-- If a part has kept everything but the descriptors, putting those back keeps everything. -/
theorem here_withOpen {descriptors : List (Nat × Nat)} (h : m'.here = (withOpen m descriptors).here) :
    (withOpen m' m.here.descriptors).here = m.here := by
  show { m'.here with descriptors := m.here.descriptors } = m.here
  rw [h]
  rfl

/-- **Descriptors are put back** in any case, and nothing else is. -/
theorem exec_withDescriptors (descriptors : List (Nat × Nat)) (work : Running α) (m : Machine) :
    (withDescriptors descriptors work).exec m
      = ((work.exec (withOpen m descriptors)).1,
          withOpen (work.exec (withOpen m descriptors)).2 m.here.descriptors) := by
  unfold withDescriptors
  rw [exec_bind_of_ok (exec_here m), exec_bind_of_ok (exec_change _ m), exec_bind, exec_tryCatch, exec_bind]
  -- from here on it matters only what comes of the work
  cases hwork : work.exec (withOpen m descriptors) with
  | mk result after =>
    have hsame : work.exec { m with here := { m.here with descriptors } } = (result, after) := hwork
    rw [hsame]
    cases result with
    | error stop => rfl
    | ok a => rfl

/-! ## What a step keeps -/

/-- Unless it is killed, the step leaves the working directory as it is, and what can be seen of the
surroundings. Everything else may change. -/
def Keeps {γ : Type} (view : Surroundings → γ) (work : Running α) : Prop :=
  ∀ m, (∃ signal, (work.exec m).1 = .error (.killed signal))
    ∨ view (work.exec m).2.here = view m.here
      ∧ (work.exec m).2.world.files.workingDirectory = m.world.files.workingDirectory

section

variable {γ : Type} {view : Surroundings → γ}

/-- What changes no surroundings at all keeps whatever is seen of them. -/
theorem Keeps.imp {work : Running α} (h : Keeps id work) : Keeps view work := fun m =>
  (h m).imp_right fun ⟨hhere, hdirectory⟩ => ⟨congrArg view hhere, hdirectory⟩

theorem Keeps.pure (a : α) : Keeps view (pure a : Running α) := fun _ => .inr ⟨rfl, rfl⟩

theorem Keeps.throw (stop : Stop) : Keeps view (throw stop : Running α) := fun _ => .inr ⟨rfl, rfl⟩

theorem keeps_get : Keeps view (get : Running Machine) := fun _ => .inr ⟨rfl, rfl⟩

theorem keeps_here : Keeps view here := fun _ => .inr ⟨rfl, rfl⟩

theorem keeps_change {f : Surroundings → Surroundings} (h : ∀ s, view (f s) = view s) :
    Keeps view (change f) :=
  fun m => .inr ⟨h m.here, rfl⟩

/-- Files and streams are no surroundings, as long as the working directory is the same. -/
theorem keeps_changeWorld {f : World → World}
    (h : ∀ w, (f w).files.workingDirectory = w.files.workingDirectory) : Keeps view (changeWorld f) :=
  fun m => .inr ⟨rfl, h m.world⟩

theorem keeps_openStream (s : Stream) : Keeps view (openStream s) := fun _ => .inr ⟨rfl, rfl⟩

/-- Two steps that keep the surroundings keep them together. -/
theorem Keeps.bind {work : Running α} {next : α → Running β} (h : Keeps view work)
    (hnext : ∀ a, Keeps view (next a)) : Keeps view (work >>= next) := by
  intro m
  have hfirst := h m
  rw [exec_bind]
  split
  · next a m' hwork =>
    rw [hwork] at hfirst
    -- a step that came to a result was not killed
    obtain ⟨_, hkilled⟩ | ⟨hview, hdirectory⟩ := hfirst
    · cases hkilled
    · exact (hnext a m').imp_right fun ⟨hview', hdirectory'⟩ =>
        ⟨hview'.trans hview, hdirectory'.trans hdirectory⟩
  · next stop m' hwork =>
    rw [hwork] at hfirst
    -- the second step is not reached, so what is said of the first one is all there is
    exact hfirst.imp_left fun ⟨signal, hkilled⟩ => ⟨signal, by cases hkilled; rfl⟩

theorem Keeps.discard {work : Running α} (h : Keeps view work) : Keeps view (discard work) := by
  intro m
  have hmap := exec_map (fun _ => ()) work m
  obtain ⟨signal, hkilled⟩ | hkept := h m
  · rw [hkilled] at hmap
    exact .inl ⟨signal, congrArg Prod.fst hmap⟩
  · have hafter : ((Functor.discard work).exec m).2 = (work.exec m).2 := congrArg Prod.snd hmap
    rw [hafter]
    exact .inr hkept

end

/-- What is written goes to a file or a stream. -/
theorem keeps_emit (descriptor : Nat) (text : Bytes) : Keeps id (emit descriptor text) := by
  refine keeps_here.bind fun h => ?_
  split
  · split
    · exact .pure ()
    · refine keeps_changeWorld fun w => ?_
      unfold World.write
      split
      · rfl
      · rfl
      · split <;> rfl
      · rfl
  · exact .pure ()

theorem keeps_complain (message : Bytes) : Keeps id (complain message) :=
  keeps_here.bind fun _ => keeps_emit 2 _

/-- For a part with other descriptors these need not be among what is kept: they are put back. -/
theorem Keeps.withDescriptors {work : Running α} (h : Keeps id work) (descriptors : List (Nat × Nat)) :
    Keeps id (withDescriptors descriptors work) := by
  intro m
  rw [exec_withDescriptors]
  exact (h (withOpen m descriptors)).imp_right fun ⟨hhere, hdirectory⟩ => ⟨here_withOpen hhere, hdirectory⟩

/-! ## Surroundings of their own -/

/-- The machine with which a part begins that runs on its own. Only signals that are ignored stay so. -/
def separate (m : Machine) : Machine :=
  { m with here :=
      { m.here with isSeparate := true, loops := 0, traps := m.here.traps.filter fun t => t.2.isEmpty } }

/-- **A part that runs on its own** ends with an exit code or is killed. In the first case, the surroundings and
the working directory are what they were. -/
theorem exec_separately (work : Running Unit) (m : Machine) :
    (∃ code m', (separately work).exec m = (.ok code, m') ∧ m'.here = m.here
        ∧ m'.world.files.workingDirectory = m.world.files.workingDirectory)
      ∨ ∃ signal, ((separately work).exec m).1 = .error (.killed signal) := by
  unfold separately
  rw [exec_bind_of_ok (exec_here m), exec_bind_of_ok (exec_get m), exec_bind_of_ok (exec_change _ m), exec_bind,
    exec_tryCatch, exec_bind]
  -- the work is run once, in surroundings of its own, and every way to stop but one is caught
  cases hwork : work.exec (separate m) with
  | mk result after =>
    have hsame : work.exec { m with here := { m.here with
        isSeparate := true, loops := 0, traps := m.here.traps.filter fun t => t.2.isEmpty } }
          = (result, after) := hwork
    rw [hsame]
    cases result with
    | ok a => exact .inl ⟨_, _, rfl, rfl, rfl⟩
    | error stop =>
      cases stop with
      | killed signal => exact .inr ⟨signal, rfl⟩
      | exit code | answer code | fault code | leave n | next n => exact .inl ⟨_, _, rfl, rfl, rfl⟩

/-- Whatever a part in surroundings of its own does, it keeps those around it. -/
theorem keeps_separately (work : Running Unit) : Keeps id (separately work) := by
  intro m
  obtain ⟨code, m', hwork, hkept⟩ | hkilled := exec_separately work m
  · rw [hwork]
    exact .inr hkept
  · exact .inl hkilled

/-- **The parts of a pipeline** leave the surroundings as they are. Induction on the parts. -/
theorem keeps_runPipeline (run : CommandRunner) (tested : Bool) (parts : List Command)
    (descriptors : List (Nat × Nat)) : Keeps id (runPipeline run tested parts descriptors) := by
  have hpart (c : Command) : Keeps id (runSeparately run tested c) := keeps_separately _
  induction parts generalizing descriptors with
  | nil => exact .pure 0
  | cons c rest ih =>
    cases rest with
    | nil => exact (hpart c).withDescriptors descriptors
    | cons next rest =>
      refine (keeps_openStream _).bind fun sink => ((hpart c).withDescriptors _).discard.bind fun _ => ?_
      exact keeps_get.bind fun m => (keeps_openStream _).bind fun source => keeps_here.bind fun h => ih _

/-- A command that runs on its own with other descriptors. -/
theorem exec_commandIn (run : CommandRunner) (tested : Bool) (c : Command) (descriptors : List (Nat × Nat))
    (m : Machine) :
    (∃ code m', (withDescriptors descriptors (runSeparately run tested c)).exec m = (.ok code, m')
        ∧ m'.here = m.here ∧ m'.world.files.workingDirectory = m.world.files.workingDirectory)
      ∨ ∃ signal,
        ((withDescriptors descriptors (runSeparately run tested c)).exec m).1 = .error (.killed signal) := by
  rw [exec_withDescriptors]
  obtain ⟨code, m', hwork, hhere, hdirectory⟩ | hkilled := exec_separately _ (withOpen m descriptors)
  · refine .inl ⟨code, withOpen m' m.here.descriptors, ?_, here_withOpen hhere, hdirectory⟩
    exact congrArg (fun outcome => (outcome.1, withOpen outcome.2 m.here.descriptors)) hwork
  · exact .inr hkilled

/-- **A command in the place of a word** leaves its exit code behind, and its output loses the line ends at its
end. -/
theorem outputOf_spec (run : CommandRunner) (c : Command) (m : Machine) :
    (∃ text code m', (outputOf run c).exec m = (.ok text, m')
        ∧ m'.here = { m.here with outputCode := code, code }
        ∧ m'.world.files.workingDirectory = m.world.files.workingDirectory
        ∧ text.getLast? ≠ some '\n' ∧ '\x00' ∉ text)
      ∨ ∃ signal, ((outputOf run c).exec m).1 = .error (.killed signal) := by
  unfold outputOf
  rw [exec_bind_of_ok (exec_openStream _ m), exec_bind_of_ok (exec_here _)]
  obtain ⟨code, m', hwork, hhere, hdirectory⟩ | ⟨signal, hkilled⟩ := exec_commandIn run false c
    ((1, m.world.streams.size) :: m.here.descriptors.filter fun d => d.1 ≠ 1)
    { m with world := (m.world.openStream (.sink [])).2 }
  · rw [exec_bind_of_ok hwork, exec_bind_of_ok (exec_change _ m'), exec_bind_of_ok (exec_get _), exec_pure]
    refine .inl ⟨_, code, _, rfl, ?_, hdirectory, ?_, ?_⟩
    · -- the two exit codes
      show { m'.here with outputCode := code, code } = _
      rw [hhere]
    · -- line feeds are dropped from the end, which is the beginning of the reversed text
      rw [List.getLast?_reverse]
      intro hhead
      have hfirst := List.head?_dropWhile_not (· = '\n')
        ((m'.world.written m.world.streams.size).filter (· ≠ '\x00')).reverse
      rw [hhead] at hfirst
      simp at hfirst
    · -- no zero byte was left before that
      intro hmem
      have hkept := (List.dropWhile_sublist _).subset (List.mem_reverse.mp hmem)
      simpa using List.mem_filter.mp (List.mem_reverse.mp hkept)
  · exact .inr ⟨signal, exec_bind_of_error hkilled⟩

/-! ## Commands that run on their own -/

/-- The commands that run in surroundings of their own. -/
def isOwn : Command → Bool
  | .pipeline _ | .subshell .. | .background _ => true
  | _ => false

/-- The surroundings without the current line, the exit code and the number of the last process. -/
def outside (h : Surroundings) : Surroundings :=
  { h with line := 0, code := 0, lastProcess := none }

/-- **Pipelines, subshells and commands in the background** keep variables, functions, options, descriptors and
all else of the surroundings, whatever they consist of and however they end. -/
theorem keeps_run {c : Command} (hc : isOwn c = true) (runner : ProgramRunner) (n : Nat) (tested : Bool) :
    Keeps outside (run runner n tested c) := by
  cases n with
  | zero => exact ((keeps_complain _).bind fun _ => .throw _).imp
  | succ n =>
    -- what is done with the exit code in the end
    have hend (code : Nat) : Keeps outside (do
        change fun h => { h with code }
        if code ≠ 0 && !tested && countsAsFailure c && (← here).options.stopsOnFailure then
          throw (.exit code)
        Pure.pure code) := by
      refine .bind (keeps_change fun _ => rfl) fun _ => keeps_here.bind fun h => ?_
      dsimp only
      split
      · exact (Keeps.throw _).bind fun _ => .pure code
      · exact .pure code
    unfold run
    cases c with
    | pipeline parts => exact keeps_here.bind fun h => (keeps_runPipeline _ tested parts _).imp.bind hend
    | subshell line body redirections =>
      exact .bind (keeps_change fun _ => rfl) fun _ => (keeps_separately _).imp.bind hend
    | background c =>
      refine (keeps_openStream _).bind fun source => keeps_here.bind fun h => ?_
      refine (Keeps.withDescriptors (keeps_separately _) _).imp.bind fun code => ?_
      refine keeps_get.bind fun m => .bind (keeps_changeWorld fun _ => rfl) fun _ => ?_
      exact .bind (keeps_change fun _ => rfl) fun _ => (Keeps.pure 0).bind hend
    | _ => cases hc

end TemplateCoverage.Shell.Running
