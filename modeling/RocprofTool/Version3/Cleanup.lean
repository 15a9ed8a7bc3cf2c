import RocprofTool.Lib.Fallible
import RocprofTool.Version3.Output

/-!
# Cleaning up the buffered outputs

`generate_output` constructs a buffered output for each service and, in the end, destroys or resets
what the outputs hold.  The template registers the action for the output it is called with,
`run_cleanup` takes all of the registered actions, and it is called at the end as well as by a
scope guard, so that an exception does not keep it from being called; the list is cleared when that
has been done, so that nothing is cleaned up twice.

Of the fourteen outputs that are constructed only thirteen are passed to the template.  The output
of the counter records is not: its action is not registered, and on no path through the function is
it destroyed or reset (`not_cleansUp`).
-/

set_option autoImplicit false

open Tool Fallible

namespace Version3.Cleanup

variable {Other : DomainType → Type} {Stats : Type}

/-- `cleanup_mode`. -/
inductive CleanupMode
  | destroy
  | reset
  deriving DecidableEq, Repr

/-- A buffered output: that of a service that `generate_output` passes to the template, or
`counters_records_output`. -/
inductive ConstructedOutput
  | domain (d : DomainType)
  | counterRecords
  deriving DecidableEq, Repr

/-- The outputs that `generate_output` constructs, in order. -/
def constructedOutputs : List ConstructedOutput :=
  [.domain .kernelDispatch, .domain .hsa, .domain .hip, .domain .memoryCopy, .domain .marker,
    .domain .counterCollection, .domain .scratchMemory, .domain .rccl, .domain .memoryAllocation,
    .counterRecords, .domain .pcSamplingHostTrap, .domain .rocdecode, .domain .rocjpeg,
    .domain .pcSamplingStochastic]

/-- What `generate_output` calls to write something, apart from the template. -/
inductive Writer
  | configOutput
  | csvAgents
  | csvStats
  | json
  | perfetto
  | rocpd
  | otf2
  | summary
  | attDecoder
  /-- `decoder.parse` for the files of a dispatch. -/
  | attParse (dispatchId : ℕ)
  deriving DecidableEq, Repr

/-- The part of the configuration that says what is written. -/
structure Formats where
  outputConfigFile : Bool := false
  jsonOutput : Bool := false
  pftraceOutput : Bool := false
  rocpdOutput : Bool := false
  otf2Output : Bool := false
  deriving DecidableEq, Repr

/-- What a run of `generate_output` meets. -/
structure Surroundings (Stats : Type) where
  /-- The dispatches in `att_filenames`. -/
  attFilenames : List ℕ := []
  decoderValid : Bool := true
  throws : Writer → Bool := fun _ ↦ false
  /-- The call of the template for a service throws, and leaves this behind. -/
  interrupts : DomainType → Option (OutputState Stats) := fun _ ↦ none

/-- The ways not to get to the end. -/
inductive Exit
  | exception
  /-- `ROCP_FATAL_IF` ends the program. -/
  | fatal
  deriving DecidableEq, Repr

/-- An exception leaves the function, the end of the program does not. -/
def Exit.leaves (exit : Exit) : Bool := exit = .exception

/-- The local variables of `generate_output`, with a log of the actions that were executed. -/
structure Pass (Stats : Type) where
  output : OutputState Stats := {}
  performed : List (ConstructedOutput × CleanupMode) := []

/-- The monad of `generate_output`. -/
abbrev PassM (Stats : Type) : Type → Type := ExceptT Exit (StateM (Pass Stats))

/-- `run_cleanup`. -/
def runCleanup (mode : CleanupMode) (s : Pass Stats) : Pass Stats where
  output := { s.output with cleanups := [] }
  performed := s.performed ++ s.output.cleanups.map fun d ↦ (.domain d, mode)

/-- The call of the template for a service.  It registers the action before anything else. -/
def callTemplate (lib : Library Other Stats) (cfg : Config) (contents : Contents Other)
    (around : Surroundings Stats) (d : DomainType) : PassM Stats Unit := fun s ↦
  match around.interrupts d with
  | none =>
    let output := bufferedOutput lib cfg contents d
    (.ok (), { s with output := (Version3.generateOutput lib cfg d output s.output).2 })
  | some interrupted =>
    (.error .exception, { s with
      output := { interrupted with cleanups := s.output.cleanups ++ [d] } })

/-- A writer, when it is asked for. -/
def writeIf (around : Surroundings Stats) (asked : Bool) (writer : Writer) : PassM Stats Unit :=
  if asked && around.throws writer then throw .exception else pure ()

/-- What the decoder is used for, once it has been made. -/
def parseThreadTraces (around : Surroundings Stats) : PassM Stats Unit :=
  if around.decoderValid then
    around.attFilenames.forM fun dispatchId ↦ writeIf around true (.attParse dispatchId)
  else throw .fatal

/-- What `generate_output` does with the totals after the calls of the template. -/
def writeFiles (cfg : Config) (formats : Formats) (around : Surroundings Stats) :
    PassM Stats Unit := do
  modify fun s ↦
    if cfg.advancedThreadTrace && !around.attFilenames.isEmpty then
      { s with output := { s.output with numOutput := s.output.numOutput + 1 } }
    else s
  let s ← get
  let enough := decide (s.output.numOutput > 0) &&
    decide (s.output.numBytes ≥ cfg.minimumOutputBytes)
  writeIf around (cfg.csvOutput && enough) .csvAgents
  writeIf around (cfg.stats && cfg.csvOutput && enough) .csvStats
  writeIf around (formats.jsonOutput && enough) .json
  writeIf around (formats.pftraceOutput && enough) .perfetto
  writeIf around (formats.rocpdOutput && enough) .rocpd
  writeIf around (formats.otf2Output && enough) .otf2
  writeIf around (cfg.summaryOutput && enough) .summary
  if cfg.advancedThreadTrace then
    writeIf around true .attDecoder
    parseThreadTraces around

/-- `generate_output(cleanup_mode)`. -/
def generateOutput (lib : Library Other Stats) (cfg : Config) (formats : Formats)
    (contents : Contents Other) (around : Surroundings Stats) (mode : CleanupMode) :
    PassM Stats Unit := do
  writeIf around formats.outputConfigFile .configOutput
  onExit (runCleanup mode) Exit.leaves do
    passedDomains.forM (callTemplate lib cfg contents around)
    writeFiles cfg formats around
    modify (runCleanup mode)

/-! ## What has been cleaned up when the function is left -/

/-- The function has been left, and each of the outputs that it has constructed was cleaned up once,
in the requested mode. -/
def CleansUp (mode : CleanupMode) (result : Except Exit Unit × Pass Stats) : Prop :=
  result.1 ≠ .error .fatal ∧ ∀ output ∈ constructedOutputs, ∀ mode',
    result.2.performed.count (output, mode') = if mode' = mode then 1 else 0

/-- The registered and the executed actions are the same, and so are the messages and files of the
template. -/
structure SameActions (s t : Pass Stats) : Prop where
  cleanups : t.output.cleanups = s.output.cleanups
  performed : t.performed = s.performed
  effects : t.output.effects = s.output.effects

instance : Std.Refl (@SameActions Stats) := ⟨fun _ ↦ ⟨rfl, rfl, rfl⟩⟩

instance : IsTrans (Pass Stats) SameActions :=
  ⟨fun _ _ _ h h' ↦ ⟨h'.cleanups.trans h.cleanups, h'.performed.trans h.performed,
    h'.effects.trans h.effects⟩⟩

variable {lib : Library Other Stats} {cfg : Config} {formats : Formats}
  {contents : Contents Other} {around : Surroundings Stats} {mode : CleanupMode}

theorem meets_writeIf (asked : Bool) (writer : Writer) :
    Meets SameActions (fun _ ↦ True) (writeIf around asked writer) := by
  rw [writeIf]
  split
  · exact meets_throw _
  · exact meets_pure trivial

theorem meets_parseThreadTraces :
    Meets SameActions (fun _ ↦ True) (parseThreadTraces around) := by
  rw [parseThreadTraces]
  split
  · induction around.attFilenames with
    | nil => exact meets_pure trivial
    | cons dispatchId rest ih => exact (meets_writeIf _ _).bind fun _ _ ↦ ih
  · exact meets_throw _

/-- The writers leave the actions alone. -/
theorem meets_writeFiles (cfg : Config) (formats : Formats) (around : Surroundings Stats) :
    Meets SameActions (fun _ ↦ True) (writeFiles cfg formats around) := by
  have htotals : ∀ s : Pass Stats, SameActions s
      (if cfg.advancedThreadTrace && !around.attFilenames.isEmpty then
        { s with output := { s.output with numOutput := s.output.numOutput + 1 } } else s) := by
    intro s
    split <;> exact ⟨rfl, rfl, rfl⟩
  refine (meets_modify htotals).bind fun _ _ ↦ ?_
  have hget : Meets SameActions (fun _ ↦ True) (get : PassM Stats (Pass Stats)) :=
    fun s ↦ ⟨⟨rfl, rfl, rfl⟩, fun _ _ _ ↦ trivial⟩
  refine hget.bind fun s _ ↦ ?_
  refine (meets_writeIf _ _).bind fun _ _ ↦ ?_
  refine (meets_writeIf _ _).bind fun _ _ ↦ ?_
  refine (meets_writeIf _ _).bind fun _ _ ↦ ?_
  refine (meets_writeIf _ _).bind fun _ _ ↦ ?_
  refine (meets_writeIf _ _).bind fun _ _ ↦ ?_
  refine (meets_writeIf _ _).bind fun _ _ ↦ ?_
  refine (meets_writeIf _ _).bind fun _ _ ↦ ?_
  split
  · exact (meets_writeIf _ _).bind fun _ _ ↦ meets_parseThreadTraces
  · exact meets_pure trivial

/-- The template registers the action of its output, whatever else it does. -/
theorem cleanups_generateOutput (d : DomainType) (s : OutputState Stats) :
    (Version3.generateOutput lib cfg d (bufferedOutput lib cfg contents d) s).2.cleanups
      = s.cleanups ++ [d] := by
  by_cases hbench : cfg.benchmarkMode = .none
  · rw [generateOutput_collects hbench d s]
    split <;> rfl
  · rcases hen : cfg.enabledFor d with _ | _ <;>
      simp [Version3.generateOutput, bufferedOutput, hen, hbench]

/-- **The calls of the template** register the actions of the services, up to an exception. -/
theorem exec_callTemplates (lib : Library Other Stats) (cfg : Config) (contents : Contents Other)
    (around : Surroundings Stats) (ds : List DomainType) (s : Pass Stats) :
    ∃ result registered t,
      exec (ds.forM (callTemplate lib cfg contents around)) s = (result, t) ∧
      t.performed = s.performed ∧ t.output.cleanups = s.output.cleanups ++ registered ∧
      (result = .ok () ∧ registered = ds ∨
        result = .error .exception ∧ ∃ d ∈ ds, around.interrupts d ≠ none) := by
  induction ds generalizing s with
  | nil => exact ⟨.ok (), [], s, rfl, rfl, (List.append_nil _).symm, .inl ⟨rfl, rfl⟩⟩
  | cons d ds ih =>
    rcases hd : around.interrupts d with _ | interrupted
    · have hcall : exec (callTemplate lib cfg contents around d) s
          = (.ok (), { s with output :=
              (Version3.generateOutput lib cfg d (bufferedOutput lib cfg contents d)
                s.output).2 }) := by
        change callTemplate lib cfg contents around d s = _
        rw [callTemplate, hd]
      obtain ⟨result, registered, t, hexec, hperformed, hcleanups, hend⟩ := ih _
      refine ⟨result, d :: registered, t, (exec_bind_ok hcall).trans hexec, hperformed, ?_, ?_⟩
      · rw [hcleanups, cleanups_generateOutput, List.append_assoc, List.singleton_append]
      · rcases hend with ⟨hok, rfl⟩ | ⟨herror, e, he, hne⟩
        · exact .inl ⟨hok, rfl⟩
        · exact .inr ⟨herror, e, List.mem_cons_of_mem _ he, hne⟩
    · have hcall : exec (callTemplate lib cfg contents around d) s
          = (.error .exception,
              { s with output := { interrupted with cleanups := s.output.cleanups ++ [d] } }) := by
        change callTemplate lib cfg contents around d s = _
        rw [callTemplate, hd]
      refine ⟨_, [d], _, exec_bind_error hcall, rfl, rfl, .inr ⟨rfl, d, List.mem_cons_self, ?_⟩⟩
      rw [hd]
      exact Option.some_ne_none _

/-- The actions are registered, executed and forgotten once. -/
theorem runCleanup_twice (s : Pass Stats) : runCleanup mode (runCleanup mode s)
    = runCleanup mode s := by
  simp [runCleanup]

/-- **Which actions are executed**, in every way to leave the function: those of some services, and
of all thirteen when they have been registered. -/
theorem performed_of_generateOutput {result : Except Exit Unit} {t : Pass Stats}
    (h : exec (generateOutput lib cfg formats contents around mode) {} = (result, t))
    (hleft : result ≠ .error .fatal) :
    ∃ cleaned : List DomainType, t.performed = cleaned.map (fun d ↦ (.domain d, mode)) ∧
      ((formats.outputConfigFile && around.throws .configOutput) = false →
        (∀ d, around.interrupts d = none) → cleaned = passedDomains) := by
  rw [generateOutput] at h
  rcases hconfig : formats.outputConfigFile && around.throws .configOutput with _ | _
  · have hwrite : exec (writeIf around formats.outputConfigFile .configOutput) ({} : Pass Stats)
        = (.ok (), {}) := by
      rw [writeIf, hconfig]
      rfl
    rw [exec_bind_ok hwrite, exec_onExit] at h
    obtain ⟨called, registered, u, hcalls, hperformed, hcleanups, hend⟩ :=
      exec_callTemplates lib cfg contents around passedDomains {}
    rw [List.nil_append] at hcleanups
    rcases hend with ⟨rfl, rfl⟩ | ⟨rfl, d, -, hd⟩
    · rw [exec_bind_ok hcalls] at h
      have hsame : SameActions u (after (writeFiles cfg formats around) u) :=
        (meets_writeFiles cfg formats around u).1
      rw [after] at hsame
      rcases hfiles : exec (writeFiles cfg formats around) u with ⟨error | _, v⟩
      · rw [exec_bind_error hfiles] at h
        cases h
        rw [hfiles] at hsame
        have hleaves : error.leaves = true := by
          rcases error with _ | _
          · rfl
          · exact (hleft rfl).elim
        refine ⟨passedDomains, ?_, fun _ _ ↦ rfl⟩
        rw [if_pos hleaves, runCleanup, hsame.cleanups, hsame.performed, hperformed, hcleanups]
        rfl
      · rw [exec_bind_ok hfiles] at h
        cases h
        rw [hfiles] at hsame
        refine ⟨passedDomains, ?_, fun _ _ ↦ rfl⟩
        rw [runCleanup_twice, runCleanup, hsame.cleanups, hsame.performed, hperformed, hcleanups]
        rfl
    · rw [exec_bind_error hcalls] at h
      cases h
      refine ⟨registered, ?_, fun _ hnone ↦ (hd (hnone d)).elim⟩
      rw [if_pos (by rfl), runCleanup, hperformed, hcleanups]
      rfl
  · have hwrite : exec (writeIf around formats.outputConfigFile .configOutput) ({} : Pass Stats)
        = (.error .exception, {}) := by
      rw [writeIf, hconfig]
      rfl
    rw [exec_bind_error hwrite] at h
    cases h
    exact ⟨[], rfl, fun hno ↦ by cases hno⟩

/-- The state after calls of the template that do not throw. -/
def called (lib : Library Other Stats) (cfg : Config) (contents : Contents Other)
    (ds : List DomainType) (s : Pass Stats) : Pass Stats :=
  let template := Version3.generateOutput lib cfg
  { s with output := Tool.generateOutputs template lib cfg contents ds s.output }

theorem exec_callTemplates_of_none (lib : Library Other Stats) (cfg : Config)
    (contents : Contents Other) (hnone : ∀ d, around.interrupts d = none) (ds : List DomainType)
    (s : Pass Stats) :
    exec (ds.forM (callTemplate lib cfg contents around)) s
      = (.ok (), called lib cfg contents ds s) := by
  induction ds generalizing s with
  | nil => rfl
  | cons d ds ih =>
    have hcall : exec (callTemplate lib cfg contents around d) s
        = (.ok (), called lib cfg contents [d] s) := by
      change callTemplate lib cfg contents around d s = _
      rw [callTemplate, hnone d]
      rfl
    exact (exec_bind_ok hcall).trans (ih _)

/-- **What the template has written**, when nothing throws before all of its calls are made. -/
theorem effects_of_generateOutput (lib : Library Other Stats) (cfg : Config)
    (contents : Contents Other) (mode : CleanupMode)
    (hconfig : (formats.outputConfigFile && around.throws .configOutput) = false)
    (hnone : ∀ d, around.interrupts d = none) :
    (exec (generateOutput lib cfg formats contents around mode) {}).2.output.effects
      = (Version3.generateOutputs lib cfg contents).effects := by
  have hwrite : exec (writeIf around formats.outputConfigFile .configOutput) ({} : Pass Stats)
      = (.ok (), {}) := by
    rw [writeIf, hconfig]
    rfl
  have hcalls := exec_callTemplates_of_none lib cfg contents hnone passedDomains {}
  have hsame := (meets_writeFiles cfg formats around
    (called lib cfg contents passedDomains {})).1.effects
  rw [after] at hsame
  rw [generateOutput, exec_bind_ok hwrite, exec_onExit, exec_bind_ok hcalls]
  rcases hfiles : exec (writeFiles cfg formats around) (called lib cfg contents passedDomains {})
    with ⟨error | _, v⟩
  · rw [exec_bind_error hfiles]
    rw [hfiles] at hsame
    rcases error with _ | _ <;> exact hsame
  · rw [exec_bind_ok hfiles]
    rw [hfiles] at hsame
    exact hsame

theorem count_performed (cleaned : List DomainType) (d : DomainType) (mode' : CleanupMode) :
    (cleaned.map fun d ↦ (ConstructedOutput.domain d, mode)).count (.domain d, mode')
      = if mode' = mode then cleaned.count d else 0 := by
  induction cleaned with
  | nil => simp
  | cons e cleaned ih =>
    rw [List.map_cons, List.count_cons, ih, List.count_cons]
    by_cases hmode : mode' = mode
    · subst hmode
      simp
    · simp [hmode, Ne.symm hmode]

/-- **The clean-up is never complete.**  Whatever is configured and whatever throws, the function is
not left with each of its outputs cleaned up once: that of the counter records is left alone.  The
other thirteen are cleaned up once, in the requested mode, as soon as they have been registered. -/
theorem not_cleansUp (lib : Library Other Stats) (cfg : Config) (formats : Formats)
    (contents : Contents Other) (around : Surroundings Stats) (mode : CleanupMode) :
    ¬CleansUp mode (exec (generateOutput lib cfg formats contents around mode) {}) ∧
      ((formats.outputConfigFile && around.throws .configOutput) = false →
        (∀ d, around.interrupts d = none) →
        (exec (generateOutput lib cfg formats contents around mode) {}).1 ≠ .error .fatal →
        ∀ d mode', (exec (generateOutput lib cfg formats contents around mode) {}).2.performed.count
          (.domain d, mode') = if mode' = mode then 1 else 0) := by
  rcases hexec : exec (generateOutput lib cfg formats contents around mode) {} with ⟨result, t⟩
  constructor
  · rintro ⟨hleft, hall⟩
    obtain ⟨cleaned, hperformed, -⟩ := performed_of_generateOutput hexec hleft
    have hone := hall .counterRecords (by decide) mode
    rw [if_pos rfl, hperformed] at hone
    have hmem := List.count_pos_iff.mp (hone ▸ Nat.one_pos)
    obtain ⟨d, -, hd⟩ := List.mem_map.mp hmem
    cases hd
  · intro hconfig hnone hleft d mode'
    obtain ⟨cleaned, hperformed, hcleaned⟩ := performed_of_generateOutput hexec hleft
    rw [hperformed, count_performed, hcleaned hconfig hnone]
    have honce : passedDomains.count d = 1 := by rcases d <;> decide
    rw [honce]

/-- The outputs are reset after counters have been collected, and nothing throws. -/
def afterCounterCollection : Except Exit Unit × Pass ℕ :=
  exec (generateOutput countingLibrary { counterCollection := true } {} oneRecordEach {} .reset) {}

/-- **Nothing throws, and the counter records stay.**  Thirteen outputs are reset, and that of the
counter records is not. -/
theorem counter_records_left :
    afterCounterCollection.1 = .ok () ∧
      afterCounterCollection.2.performed.count (.counterRecords, .reset) = 0 ∧
      ¬CleansUp .reset afterCounterCollection := by
  have hnone : afterCounterCollection.2.performed.count (.counterRecords, .reset) = 0 := by rfl
  refine ⟨rfl, hnone, fun h ↦ ?_⟩
  have hone := h.2 .counterRecords (by decide) .reset
  rw [hnone] at hone
  exact absurd hone (by decide)

end Version3.Cleanup
