import Mathlib.Algebra.GroupWithZero.Nat
import RocprofTool.Version3.Markers.Records

/-!
# What starts and stops the recording

The tool records as long as its context is active.  There are three that start and stop it and know
nothing of each other: the thread of `collection_period_cntrl`, which `tool_init` detaches, the
callback for the pauses and resumptions of the application, and `tool_fini`, which stops it before
it generates the output.

What is recorded after that does not get into an output any more.  Nobody tells the thread, so that
it starts the context once more if it has a round left to begin; and the callback does so whenever
the application resumes the profiler.  `noRestart_iff` says that these are the two ways in which it
happens.

## The model

* A thread is what is left of the loops of `collection_period_cntrl`, and does one thing at a time:
  it sleeps, or calls the library.  Sleeping takes any time.
* `tool_fini` is a sequence of calls, too.
* The log has the calls for the context, and who has made them.
-/

set_option autoImplicit false

open Runs Tool Version3.Markers

namespace Version3.Lifecycle.Recording

/-! ## The thread of the collection periods -/

/-- A collection period; the times are in nanoseconds. -/
structure Period where
  delay : ℕ
  duration : ℕ
  repetitions : ℕ
  deriving DecidableEq, Repr

/-- The configuration, with what it says about the regions and periods to be recorded. -/
structure RecordingConfig extends Config where
  selectedRegions : Bool := false
  collectionPeriods : List Period := []
  deriving DecidableEq, Repr

/-- What `execute_period` does next. -/
inductive Point
  | delay
  | start
  | duration
  | stop
  deriving DecidableEq, Repr

/-- A round of a period, the round `i` of its loop. -/
structure Round where
  period : Period
  i : ℕ
  point : Point
  deriving DecidableEq, Repr

/-- What is left of `collection_period_cntrl`: `periods`, and the round it is in. -/
structure Thread where
  periods : List Period
  round : Option Round := none
  deriving DecidableEq, Repr

/-- How often `execute_period` is called for a period. -/
def Period.rounds (period : Period) : ℕ :=
  if period.repetitions = 0 then 1 else period.repetitions

/-- What comes after a round. -/
def Round.next (round : Round) : Option Round :=
  if round.i + 1 < round.period.rounds then some ⟨round.period, round.i + 1, .delay⟩ else none

/-- The next thing that `collection_period_cntrl` does, and what it calls the library for, or `none`
when it has returned. -/
def threadStep (thread : Thread) : Option (Thread × Option ContextCall) :=
  match thread.round with
  | none =>
    match thread.periods with
    | [] => none
    | period :: periods => some ({ periods, round := some ⟨period, 0, .delay⟩ }, none)
  | some round =>
    match round.point with
    | .delay => some ({ thread with round := some { round with point := .start } }, none)
    | .start =>
      some ({ thread with round := some { round with point := .duration } }, some .startContext)
    | .duration => some ({ thread with round := some { round with point := .stop } }, none)
    | .stop => some ({ thread with round := round.next }, some .stopContext)

/-! ## The system -/

/-- Who calls the library for the context. -/
inductive Caller
  | toolInit
  | collectionPeriods
  | controlCallback
  | toolFini
  deriving DecidableEq, Repr

/-- An entry of the log: a call for the context, or an output. -/
inductive Entry
  | call (caller : Caller) (call : ContextCall)
  | output
  deriving DecidableEq, Repr

/-- What `tool_fini` does next. -/
inductive FiniPoint
  | flush
  | stop
  | flushAgain
  | generateOutput
  | done
  deriving DecidableEq, Repr

variable {μ : Type}

/-- The tool. -/
structure System (μ : Type) where
  log : List Entry := []
  thread : Option Thread := none
  fini : FiniPoint := .flush
  /-- What the callback reads and writes. -/
  tracing : State μ
  /-- A call has failed, and `ROCPROFILER_CALL` has ended the program. -/
  ended : Bool := false

/-- What can happen. -/
inductive Event
  /-- The thread does what is next. -/
  | thread
  /-- `tool_fini` does. -/
  | fini
  /-- The application controls the profiler; `succeeds` is whether the call for the context does. -/
  | control (record : Record) (succeeds : Bool)
  deriving DecidableEq, Repr

/-- Are the control records delivered to `cntrl_tracing_callback`?  For some benchmarks there is a
dummy in its place, and for one `start_context` does not start the context of the callback. -/
def RecordingConfig.controls (cfg : RecordingConfig) : Bool :=
  cfg.markerApiTrace &&
    !(cfg.benchmarkMode = .sdkBufferedOverhead || cfg.benchmarkMode = .sdkCallbackOverhead ||
      cfg.benchmarkMode = .executionProfile || cfg.benchmarkMode = .disabledContextsOverhead)

/-- How `tool_init` begins to record. -/
def toolInit (cfg : RecordingConfig) (tracing : State μ) : System μ :=
  if cfg.benchmarkMode = .disabledContextsOverhead then { tracing }
  else if cfg.selectedRegions = true then { tracing }
  else if cfg.collectionPeriods ≠ [] then
    { tracing, thread := some { periods := cfg.collectionPeriods } }
  else { tracing, log := [.call .toolInit .startContext] }

/-- The thread has done what was next. -/
def System.advance (s : System μ) (next : Thread × Option ContextCall) : System μ :=
  { s with
    thread := some next.1
    log := s.log ++ (next.2.map (Entry.call .collectionPeriods)).toList }

/-- The next call of `tool_fini`.  When it has returned once, it returns at once. -/
def finiStep (s : System μ) : System μ :=
  match s.fini with
  | .flush => { s with fini := .stop }
  | .stop => { s with fini := .flushAgain, log := s.log ++ [.call .toolFini .stopContext] }
  | .flushAgain => { s with fini := .generateOutput }
  | .generateOutput => { s with fini := .done, log := s.log ++ [.output] }
  | .done => s

/-- The callback for a record of the application. -/
def controlStep (cfg : RecordingConfig) (convertKind : CallbackTracingKind → ℕ) (record : Record)
    (succeeds : Bool) (s : System μ) : System μ :=
  if cfg.controls then
    let (call, tracing) :=
      cntrlTracingCallback convertKind true (fun _ ↦ succeeds) record s.tracing
    { s with
      log := s.log ++ (call.map (Entry.call .controlCallback)).toList
      tracing := tracing.getD s.tracing
      ended := tracing.isNone }
  else s

/-- One event. -/
def step (cfg : RecordingConfig) (convertKind : CallbackTracingKind → ℕ) (s : System μ)
    (event : Event) : Option (System μ) :=
  if s.ended then none
  else
    match event with
    | .thread => (s.thread.bind threadStep).map s.advance
    | .fini => some (finiStep s)
    | .control record succeeds => some (controlStep cfg convertKind record succeeds s)

/-! ## The property -/

/-- The context is started. -/
def Entry.isStart : Entry → Bool
  | .call _ .startContext => true
  | _ => false

/-- From the time on at which `tool_fini` stops the context, nobody starts it. -/
def NoRestart (log : List Entry) : Prop :=
  ∀ entry ∈ log.dropWhile (fun entry ↦ entry ≠ .call .toolFini .stopContext),
    entry.isStart = false

/-- How many rounds are still to be begun of a period. -/
def Round.startsLeft (round : Round) : ℕ :=
  round.period.rounds - (round.i + 1) +
    if round.point = .delay ∨ round.point = .start then 1 else 0

/-- How often a thread will still start the context. -/
def Thread.startsLeft (thread : Thread) : ℕ :=
  thread.round.elim 0 Round.startsLeft + (thread.periods.map Period.rounds).sum

/-- How often the thread, if there is one, will still start the context. -/
def System.startsLeft (s : System μ) : ℕ := s.thread.elim 0 Thread.startsLeft

/-- The record of an event of the application. -/
def Event.record? : Event → Option Record
  | .control record _ => some record
  | _ => none

/-- The callback resumes the recording for this record. -/
def resumes (record : Record) : Prop :=
  record.kind = markerControlApi ∧ contextCall record = some .startContext

instance (record : Record) : Decidable (resumes record) := inferInstanceAs (Decidable (_ ∧ _))

/-! ## The thread -/

variable {thread thread' : Thread} {call : Option ContextCall}

theorem Period.one_le_rounds (period : Period) : 1 ≤ period.rounds := by
  rw [Period.rounds]
  split_ifs with h
  · exact Nat.le_refl 1
  · exact Nat.one_le_iff_ne_zero.mpr h

theorem Round.startsLeft_next (round : Round) :
    round.next.elim 0 Round.startsLeft = round.period.rounds - (round.i + 1) := by
  rw [Round.next]
  split_ifs with hnext
  · rw [Option.elim_some, Round.startsLeft, if_pos (.inl rfl)]
    show round.period.rounds - (round.i + 1 + 1) + 1 = round.period.rounds - (round.i + 1)
    omega
  · rw [Option.elim_none]
    omega

/-- **What a thread still has to do**: a step of it starts the context, and there is one start less
to come, or it does not. -/
theorem startsLeft_of_threadStep (h : threadStep thread = some (thread', call)) :
    thread.startsLeft
      = thread'.startsLeft + if call = some .startContext then 1 else 0 := by
  rcases thread with ⟨periods, _ | ⟨period, i, point⟩⟩
  · rcases periods with _ | ⟨period, periods⟩
    · cases h
    · cases h
      have hrounds := period.one_le_rounds
      simp [Thread.startsLeft, Round.startsLeft]
      omega
  · rcases point with _ | _ | _ | _
    · cases h
      simp [Thread.startsLeft, Round.startsLeft]
    · cases h
      simp [Thread.startsLeft, Round.startsLeft]
      omega
    · cases h
      simp [Thread.startsLeft, Round.startsLeft]
    · cases h
      simp [Thread.startsLeft, Round.startsLeft_next]
      simp [Round.startsLeft]

/-- A thread with starts left has something to do. -/
theorem exists_threadStep (h : 0 < thread.startsLeft) :
    ∃ next, threadStep thread = some next := by
  rcases thread with ⟨periods, _ | ⟨period, i, point⟩⟩
  · rcases periods with _ | ⟨period, periods⟩
    · cases h
    · exact ⟨_, rfl⟩
  · rcases point with _ | _ | _ | _ <;> exact ⟨_, rfl⟩

/-! ## The steps of the system -/

variable {cfg : RecordingConfig} {convertKind : CallbackTracingKind → ℕ} {s t : System μ}
  {event : Event}

/-- What an event does to the log and to the thread. -/
structure Steps (cfg : RecordingConfig) (event : Event) (s t : System μ) (more : List Entry) :
    Prop where
  log : t.log = s.log ++ more
  startsLeft : t.startsLeft ≤ s.startsLeft
  /-- Only a thread with starts left and a record that resumes start the context. -/
  starts : ∀ entry ∈ more, entry.isStart = true →
    0 < s.startsLeft ∨
      ∃ record, event.record? = some record ∧ cfg.controls = true ∧ resumes record

theorem step_thread {next : Thread × Option ContextCall} (hended : s.ended = false)
    (hthread : s.thread = some thread) (h : threadStep thread = some next) :
    step cfg convertKind s .thread = some (s.advance next) := by
  rw [step, hended, if_neg Bool.false_ne_true, hthread, Option.bind_some, h, Option.map_some]

theorem steps_nil (hlog : t.log = s.log) (hthread : t.thread = s.thread) :
    Steps cfg event s t [] := by
  refine ⟨by rw [hlog, List.append_nil], ?_, fun entry hentry ↦ (by cases hentry)⟩
  rw [System.startsLeft, hthread, System.startsLeft]

theorem steps_singleton {entry : Entry} (hlog : t.log = s.log ++ [entry])
    (hthread : t.thread = s.thread) (hentry : entry.isStart = false) :
    Steps cfg event s t [entry] := by
  refine ⟨hlog, ?_, fun entry' hentry' hstart ↦ ?_⟩
  · rw [System.startsLeft, hthread, System.startsLeft]
  · rw [List.mem_singleton.mp hentry', hentry] at hstart
    cases hstart

/-- `tool_fini` never starts the context. -/
theorem steps_fini (s : System μ) : ∃ more, Steps cfg .fini s (finiStep s) more := by
  rw [finiStep.eq_def]
  rcases s.fini with _ | _ | _ | _ | _
  · exact ⟨[], steps_nil rfl rfl⟩
  · exact ⟨[_], steps_singleton rfl rfl rfl⟩
  · exact ⟨[], steps_nil rfl rfl⟩
  · exact ⟨[_], steps_singleton rfl rfl rfl⟩
  · exact ⟨[], steps_nil rfl rfl⟩

/-- The callback for a record, whether it is configured or not. -/
theorem steps_control (record : Record) (succeeds : Bool) (s : System μ) :
    ∃ more, Steps cfg (.control record succeeds) s
      (controlStep cfg convertKind record succeeds s) more := by
  rw [controlStep]
  split_ifs with hcontrols
  · refine ⟨_, rfl, Nat.le_refl _, fun entry hentry hstart ↦ .inr ⟨record, rfl, hcontrols, ?_⟩⟩
    rw [cntrlTracingCallback] at hentry
    split_ifs at hentry with hkind
    · refine ⟨hkind.2, ?_⟩
      rcases hcall : contextCall record with _ | _ | _
      · rw [hcall] at hentry
        cases hentry
      · rw [hcall] at hentry
        obtain rfl := List.mem_singleton.mp hentry
        cases hstart
      · rfl
    · cases hentry
  · exact ⟨[], steps_nil rfl rfl⟩

theorem exists_steps (h : step cfg convertKind s event = some t) :
    ∃ more, Steps cfg event s t more := by
  obtain ⟨-, h⟩ := Option.ite_none_left_eq_some.mp h
  cases event with
  | thread =>
    obtain ⟨⟨thread', call⟩, hnext, rfl⟩ := Option.map_eq_some_iff.mp h
    obtain ⟨thread, hthread, hnext⟩ := Option.bind_eq_some_iff.mp hnext
    have hleft := startsLeft_of_threadStep hnext
    have hs : s.startsLeft = thread.startsLeft := by
      rw [System.startsLeft, hthread, Option.elim_some]
    refine ⟨_, rfl, ?_, fun entry hentry hstart ↦ .inl ?_⟩
    · show thread'.startsLeft ≤ s.startsLeft
      omega
    · rcases call with _ | _ | _
      · cases hentry
      · obtain rfl := List.mem_singleton.mp hentry
        cases hstart
      · rw [if_pos rfl] at hleft
        omega
  | fini =>
    obtain rfl := Option.some.inj h
    exact steps_fini s
  | control record succeeds =>
    cases h
    exact steps_control record succeeds s

/-- **A quiet system stays quiet**: with no start left and no record that resumes, nobody starts the
context. -/
theorem exists_log_of_quiet {events : List Event} (hleft : s.startsLeft = 0)
    (hrecords : cfg.controls = true →
      ∀ record ∈ events.filterMap Event.record?, ¬resumes record)
    (h : run (step cfg convertKind) s events = some t) :
    ∃ more, t.log = s.log ++ more ∧ ∀ entry ∈ more, entry.isStart = false := by
  induction events generalizing s with
  | nil =>
    cases h
    exact ⟨[], (List.append_nil _).symm, fun entry hentry ↦ (by cases hentry)⟩
  | cons event events ih =>
    obtain ⟨u, hu, ht⟩ := Option.bind_eq_some_iff.mp h
    obtain ⟨more, hsteps⟩ := exists_steps hu
    have hrest : cfg.controls = true →
        ∀ record ∈ events.filterMap Event.record?, ¬resumes record := by
      intro hcontrols record hrecord
      refine hrecords hcontrols record ?_
      obtain ⟨event', hevent', hrecord⟩ := List.mem_filterMap.mp hrecord
      exact List.mem_filterMap.mpr ⟨event', List.mem_cons_of_mem _ hevent', hrecord⟩
    obtain ⟨more', hlog, hmore'⟩ := ih (Nat.le_zero.mp (hleft ▸ hsteps.startsLeft)) hrest ht
    refine ⟨more ++ more', by rw [hlog, hsteps.log, List.append_assoc], fun entry hentry ↦ ?_⟩
    rcases List.mem_append.mp hentry with hentry | hentry
    · rw [← Bool.not_eq_true]
      intro hstart
      rcases hsteps.starts entry hentry hstart with hpos | ⟨record, hrecord, hcontrols, hresumes⟩
      · omega
      · exact hrecords hcontrols record
          (List.mem_filterMap.mpr ⟨event, List.mem_cons_self, hrecord⟩) hresumes
    · exact hmore' entry hentry

/-! ## Restarts -/

/-- How many steps a thread takes before its next start. -/
def Thread.distance (thread : Thread) : ℕ :=
  match thread.round with
  | none => 2
  | some round =>
    match round.point with
    | .delay => 1
    | .start => 0
    | .duration => 4
    | .stop => 3

theorem start_or_distance_lt (h : threadStep thread = some (thread', call)) :
    call = some .startContext ∨
      thread'.distance < thread.distance ∧ thread.startsLeft = thread'.startsLeft := by
  have hleft := startsLeft_of_threadStep h
  rcases thread with ⟨periods, _ | ⟨period, i, point⟩⟩
  · rcases periods with _ | ⟨period, periods⟩
    · cases h
    · cases h
      exact .inr ⟨Nat.le_refl 2, hleft⟩
  · rcases point with _ | _ | _ | _
    · cases h
      exact .inr ⟨Nat.le_refl 1, hleft⟩
    · cases h
      exact .inl rfl
    · cases h
      exact .inr ⟨Nat.le_refl 4, hleft⟩
    · cases h
      refine .inr ⟨?_, hleft⟩
      rw [Round.next]
      split_ifs
      · exact Nat.lt_of_sub_eq_succ rfl
      · exact Nat.lt_of_sub_eq_succ rfl

/-- **A thread with starts left gets to the next one.** -/
theorem exists_restart (cfg : RecordingConfig) (convertKind : CallbackTracingKind → ℕ)
    (hended : s.ended = false) (hthread : s.thread = some thread) (hpos : 0 < thread.startsLeft) :
    ∃ n t more, run (step cfg convertKind) s (List.replicate n .thread) = some t ∧
      t.ended = false ∧ t.log = s.log ++ more ∧ ∃ entry ∈ more, entry.isStart = true := by
  induction hd : thread.distance using Nat.strong_induction_on generalizing s thread with
  | h d ih =>
    obtain ⟨⟨thread', call⟩, hnext⟩ := exists_threadStep hpos
    have hstep : step cfg convertKind s .thread = some (s.advance (thread', call)) :=
      step_thread hended hthread hnext
    rcases start_or_distance_lt hnext with rfl | ⟨hlt, hleft⟩
    · refine ⟨1, s.advance (thread', some .startContext), [.call .collectionPeriods .startContext],
        ?_, hended, rfl, _, List.mem_singleton_self _, rfl⟩
      rw [List.replicate_one, run_cons, hstep]
      rfl
    · obtain ⟨n, t, more, hrun, hended', hlog, hmore⟩ :=
        ih _ (hd ▸ hlt) (s := s.advance (thread', call)) hended rfl (hleft ▸ hpos) rfl
      refine ⟨n + 1, t, (call.map (Entry.call .collectionPeriods)).toList ++ more, ?_, hended', ?_,
        ?_⟩
      · rw [List.replicate_succ, run_cons, hstep]
        exact hrun
      · rw [hlog, System.advance, List.append_assoc]
      · obtain ⟨entry, hentry, hstart⟩ := hmore
        exact ⟨entry, List.mem_append_right _ hentry, hstart⟩

/-- The callback gets through any records when its calls do not fail, and starts the context for
those that resume. -/
theorem exists_run_control (cfg : RecordingConfig) (convertKind : CallbackTracingKind → ℕ)
    (hended : s.ended = false) (records : List Record) :
    ∃ t more,
      run (step cfg convertKind) s (records.map fun record ↦ .control record true) = some t ∧
      t.log = s.log ++ more ∧
      (cfg.controls = true → ∀ record ∈ records, resumes record →
        ∃ entry ∈ more, entry.isStart = true) := by
  induction records generalizing s with
  | nil => exact ⟨s, [], rfl, (List.append_nil _).symm, fun _ _ hrecord ↦ (by cases hrecord)⟩
  | cons record records ih =>
    have hstep : step cfg convertKind s (.control record true)
        = some (controlStep cfg convertKind record true s) := by
      rw [step, hended, if_neg Bool.false_ne_true]
    obtain ⟨more, hsteps⟩ := exists_steps hstep
    have hended' : (controlStep cfg convertKind record true s).ended = false := by
      rw [controlStep]
      split_ifs
      · dsimp only
        rw [cntrlTracingCallback]
        split_ifs
        · rcases contextCall record with _ | _ <;> rfl
        · rfl
      · exact hended
    obtain ⟨t, more', hrun, hlog, hmore'⟩ := ih hended'
    refine ⟨t, more ++ more', ?_, by rw [hlog, hsteps.log, List.append_assoc], ?_⟩
    · rw [List.map_cons, run_cons, hstep]
      exact hrun
    · intro hcontrols record' hrecord' hresumes
      rcases List.mem_cons.mp hrecord' with rfl | hrecord'
      · refine ⟨.call .controlCallback .startContext, List.mem_append_left _ ?_, rfl⟩
        have hlog' := hsteps.log
        rw [controlStep, if_pos hcontrols, cntrlTracingCallback, if_pos ⟨rfl, hresumes.1⟩,
          hresumes.2] at hlog'
        rw [← List.append_cancel_left hlog']
        exact List.mem_singleton_self _
      · obtain ⟨entry, hentry, hstart⟩ := hmore' hcontrols record' hrecord' hresumes
        exact ⟨entry, List.mem_append_right _ hentry, hstart⟩

/-! ## Until `tool_fini` stops the context -/

/-- `tool_fini` has still to stop the context. -/
def FiniPoint.beforeStop (point : FiniPoint) : Prop := point = .flush ∨ point = .stop

/-- It has not done it yet. -/
def Unstopped (s : System μ) : Prop :=
  s.fini.beforeStop → Entry.call .toolFini .stopContext ∉ s.log

theorem unstopped_toolInit (cfg : RecordingConfig) (tracing : State μ) :
    Unstopped (toolInit cfg tracing) := by
  intro _
  rw [toolInit]
  split_ifs
  · exact List.not_mem_nil
  · exact List.not_mem_nil
  · exact List.not_mem_nil
  · simp

/-- When `tool_fini` has still to stop the context after a step, it has not done anything yet. -/
theorem of_beforeStop_finiStep (h : (finiStep s).fini.beforeStop) :
    s.fini.beforeStop ∧ (finiStep s).log = s.log := by
  rw [finiStep.eq_def] at h ⊢
  rcases hpoint : s.fini with _ | _ | _ | _ | _
  · exact ⟨.inl rfl, rfl⟩
  · rw [hpoint] at h
    rcases h with h | h <;> cases h
  · rw [hpoint] at h
    rcases h with h | h <;> cases h
  · rw [hpoint] at h
    rcases h with h | h <;> cases h
  · rw [hpoint] at h
    exact ⟨hpoint ▸ h, rfl⟩

theorem unstopped_step (hs : Unstopped s) (h : step cfg convertKind s event = some t) :
    Unstopped t := by
  obtain ⟨-, h⟩ := Option.ite_none_left_eq_some.mp h
  cases event with
  | thread =>
    obtain ⟨⟨thread', call⟩, -, rfl⟩ := Option.map_eq_some_iff.mp h
    intro hfini hmem
    rcases List.mem_append.mp hmem with hmem | hmem
    · exact hs hfini hmem
    · rcases call with _ | call
      · cases hmem
      · cases List.mem_singleton.mp hmem
  | fini =>
    obtain rfl := Option.some.inj h
    intro hfini
    obtain ⟨hbefore, hlog⟩ := of_beforeStop_finiStep hfini
    rw [hlog]
    exact hs hbefore
  | control record succeeds =>
    cases h
    rw [controlStep]
    split_ifs
    · intro hfini hmem
      rcases List.mem_append.mp hmem with hmem | hmem
      · exact hs hfini hmem
      · obtain ⟨call, -, hcall⟩ := Option.map_eq_some_iff.mp (Option.mem_toList.mp hmem)
        cases hcall
    · exact hs

/-- The log after that. -/
theorem noRestart_append {log more : List Entry} (h : Entry.call .toolFini .stopContext ∉ log) :
    NoRestart (log ++ [.call .toolFini .stopContext] ++ more) ↔
      ∀ entry ∈ more, entry.isStart = false := by
  have hlog : ∀ entry ∈ log, decide (entry ≠ .call .toolFini .stopContext) = true :=
    fun entry hentry ↦ decide_eq_true fun heq ↦ h (heq ▸ hentry)
  rw [NoRestart, List.append_assoc, List.dropWhile_append_of_pos hlog, List.singleton_append,
    List.dropWhile_cons_of_neg (by simp), List.forall_mem_cons]
  exact and_iff_right rfl

/-- Is the context active after these calls? -/
def recording (log : List Entry) : Bool :=
  log.foldl (fun active entry ↦
    match entry with
    | .call _ .startContext => true
    | .call _ .stopContext => false
    | .output => active) false

theorem recording_append_stop (log more : List Entry) (h : ∀ entry ∈ more, entry.isStart = false) :
    recording (log ++ .call .toolFini .stopContext :: more) = false := by
  induction more using List.reverseRecOn with
  | nil => simp [recording]
  | append_singleton more entry ih =>
    rw [List.forall_mem_append, List.forall_mem_singleton] at h
    have hmore := ih h.1
    rw [← List.cons_append, ← List.append_assoc, recording, List.foldl_append]
    rw [recording] at hmore
    rw [hmore]
    rcases entry with ⟨caller, _ | _⟩ | _
    · rfl
    · cases h.2
    · rfl

/-- **Nothing is recorded that is not in the output**, as long as nobody restarts the context. -/
theorem recording_of_noRestart {log : List Entry} (h : NoRestart log)
    (hstop : Entry.call .toolFini .stopContext ∈ log) : recording log = false := by
  obtain ⟨log, more, rfl, hlog⟩ := List.eq_append_cons_of_mem hstop
  refine recording_append_stop log more ((noRestart_append hlog).mp ?_)
  rwa [List.append_assoc, List.singleton_append]

/-- The thread does something, and then the application. -/
theorem filterMap_record? (n : ℕ) (records : List Record) :
    (List.replicate n Event.thread ++
      records.map fun record ↦ Event.control record true).filterMap Event.record? = records := by
  rw [List.filterMap_append, List.filterMap_replicate_of_none rfl, List.nil_append,
    List.filterMap_map]
  exact List.filterMap_some

/-- **Exactly when `tool_fini` ends the recording**: when the thread of the collection periods has
no round left to begin, and no record that the application still makes resumes the profiler, or the
callback for that gets no records. -/
theorem noRestart_iff {tracing : State μ} {events : List Event}
    (h : run (step cfg convertKind) (toolInit cfg tracing) events = some s)
    (hfini : s.fini = .stop) (hstop : step cfg convertKind s .fini = some t)
    (records : List Record) :
    (∀ later u, later.filterMap Event.record? = records →
        run (step cfg convertKind) t later = some u → NoRestart u.log) ↔
      s.startsLeft = 0 ∧ (cfg.controls = true → ∀ record ∈ records, ¬resumes record) := by
  have hunstopped : Entry.call .toolFini .stopContext ∉ s.log :=
    run_invariant (unstopped_toolInit cfg tracing) (fun _ _ _ hs ht ↦ unstopped_step hs ht) h
      (.inr hfini)
  obtain ⟨hended, hstop⟩ := Option.ite_none_left_eq_some.mp hstop
  rw [Option.some.injEq, finiStep.eq_def, hfini] at hstop
  have htended : t.ended = false := by
    rw [← hstop]
    exact (Bool.not_eq_true _).mp hended
  have htthread : t.thread = s.thread := by rw [← hstop]
  have htlog : t.log = s.log ++ [.call .toolFini .stopContext] := by rw [← hstop]
  have htleft : t.startsLeft = s.startsLeft := by
    rw [System.startsLeft, htthread, System.startsLeft]
  constructor
  · intro hall
    -- the thread goes first, and then the application
    have hquiet : ∀ {n : ℕ} {u : System μ} {more : List Entry},
        run (step cfg convertKind) t (List.replicate n .thread) = some u → u.ended = false →
        u.log = t.log ++ more → (∀ entry ∈ more, entry.isStart = false) ∧
          (cfg.controls = true → ∀ record ∈ records, ¬resumes record) := by
      intro n u more hu huended hulog
      obtain ⟨v, more', hv, hvlog, hstarts⟩ :=
        exists_run_control cfg convertKind huended records
      have hno := hall _ v (filterMap_record? n records)
        (by rw [run_append, hu, Option.bind_some, hv])
      rw [hvlog, hulog, htlog, List.append_assoc, noRestart_append hunstopped,
        List.forall_mem_append] at hno
      refine ⟨hno.1, fun hcontrols record hrecord hresumes ↦ ?_⟩
      obtain ⟨entry, hentry, hstart⟩ := hstarts hcontrols record hrecord hresumes
      rw [hno.2 entry hentry] at hstart
      cases hstart
    refine ⟨?_, (hquiet (n := 0) rfl htended (List.append_nil _).symm).2⟩
    by_contra hne
    rcases hthread : s.thread with _ | thread
    · exact hne (by rw [System.startsLeft, hthread, Option.elim_none])
    · rw [System.startsLeft, hthread, Option.elim_some] at hne
      obtain ⟨n, u, more, hu, huended, hulog, entry, hentry, hstart⟩ :=
        exists_restart cfg convertKind htended (htthread.trans hthread) (Nat.pos_of_ne_zero hne)
      rw [(hquiet hu huended hulog).1 entry hentry] at hstart
      cases hstart
  · intro ⟨hleft, hrecords⟩ later u hlater hu
    obtain ⟨more, hlog, hmore⟩ := exists_log_of_quiet (htleft.trans hleft) (hlater ▸ hrecords) hu
    rw [hlog, htlog]
    exact (noRestart_append hunstopped).mpr hmore

/-! ## One period -/

/-- One period of ten seconds, after five. -/
def onePeriod : RecordingConfig :=
  { collectionPeriods := [⟨5000000000, 10000000000, 1⟩], markerApiTrace := true }

/-- The application resumes the profiler. -/
def resumeRecord : Record :=
  { kind := markerControlApi, operation := roctxProfilerResume, phase := .exit
    correlationId := ⟨1, 0⟩, message := none }

/-- **The process ends while the thread still sleeps**: it starts the context after `tool_fini` has
stopped it.  When the application resumes the profiler, so does the callback. -/
theorem restart_after_fini :
    (∃ s, run (step onePeriod fun _ ↦ 0) (toolInit onePeriod (State.start ()))
        [.thread, .fini, .fini, .thread, .thread, .fini, .fini] = some s ∧
      s.log = [.call .toolFini .stopContext, .call .collectionPeriods .startContext, .output] ∧
      ¬NoRestart s.log ∧ recording s.log = true) ∧
    ∃ s, run (step onePeriod fun _ ↦ 0) (toolInit onePeriod (State.start ()))
        [.fini, .fini, .control resumeRecord true] = some s ∧ ¬NoRestart s.log := by
  refine ⟨⟨_, rfl, rfl, fun h ↦ ?_, rfl⟩, _, rfl, fun h ↦ ?_⟩
  · exact absurd (h (.call .collectionPeriods .startContext) (by decide)) (by decide)
  · exact absurd (h (.call .controlCallback .startContext) (by decide)) (by decide)

/-- When the period is over by then, and the application only pauses the profiler, the recording
ends. -/
theorem noRestart_after_onePeriod :
    ∃ t, run (step onePeriod fun _ ↦ 0) (toolInit onePeriod (State.start ()))
        [.thread, .thread, .thread, .thread, .thread, .fini, .fini] = some t ∧
      ∀ later u, later.filterMap Event.record? = [{ resumeRecord with phase := .enter }] →
        run (step onePeriod fun _ ↦ 0) t later = some u → NoRestart u.log := by
  have hrun : run (step onePeriod fun _ ↦ 0) (toolInit onePeriod (State.start ()))
      [.thread, .thread, .thread, .thread, .thread, .fini] = some _ := rfl
  exact ⟨_, rfl, (noRestart_iff hrun rfl rfl _).mpr ⟨rfl, fun _ ↦ by decide⟩⟩

end Version3.Lifecycle.Recording
