import RocprofTool.Version3.Markers.Callbacks
import Mathlib.Logic.Function.Basic

/-!
# The records of the markers

`callback_tracing_callback` writes the records of the marks and of the ranges,
`cntrl_tracing_callback` those of the calls that pause and resume the profiler.  A record is written
when a call is left, and is to begin when the call was entered, which the callbacks remember in the
`user_data` of the call.

The calls of all the threads are interleaved.  What they have of their own is their `user_data`, and
that is enough (`markers_eq_completed`): there is one record for each call that has been left, in
the order in which they were left, with the times of that call.

## The application

* `callStep` is what an application can do: it enters a call, with a `user_data` that no call has
  that is still open, and leaves a call that is open.
* `deliver` is what the tool makes of it.  A call of `cntrl_tracing_callback` for the context can
  fail, and `ROCPROFILER_CALL` does not return then.
-/

set_option autoImplicit false

open Runs Version3.Correlation

namespace Version3.Markers

variable {μ : Type}

/-! ## The callback for the control of the profiler -/

/-- `ROCPROFILER_CALLBACK_TRACING_MARKER_CONTROL_API`, the first of the other kinds. -/
def markerControlApi : CallbackTracingKind := .other 0

/-- `ROCPROFILER_MARKER_CONTROL_API_ID_roctxProfilerPause`. -/
def roctxProfilerPause : Operation := .other 0

/-- `ROCPROFILER_MARKER_CONTROL_API_ID_roctxProfilerResume`. -/
def roctxProfilerResume : Operation := .other 1

/-- What the tool calls the library for. -/
inductive ContextCall
  | stopContext
  | startContext
  deriving DecidableEq, Repr

/-- What `cntrl_tracing_callback` calls the library for. -/
def contextCall (record : Record) : Option ContextCall :=
  if record.phase = .enter ∧ record.operation = roctxProfilerPause then some .stopContext
  else if record.phase = .exit ∧ record.operation = roctxProfilerResume then some .startContext
  else none

/-- `cntrl_tracing_callback`, which is given a context or not: the call for the context, and the
state after it, unless that call fails. -/
def cntrlTracingCallback (convertKind : CallbackTracingKind → ℕ) (ctx : Bool)
    (succeeds : ContextCall → Bool) (record : Record) (s : State μ) :
    Option ContextCall × Option (State μ) :=
  if ctx = true ∧ record.kind = markerControlApi then
    let call := contextCall record
    (call, if call.all succeeds then some (traceOther convertKind record s) else none)
  else (none, some s)

/-! ## Calls -/

/-- A call of the marker API. -/
structure Call where
  kind : CallbackTracingKind
  operation : Operation
  threadId : UInt64
  correlationId : CorrelationId
  message : Option (List Char)
  /-- The address of its `user_data`. -/
  userData : ℕ
  deriving DecidableEq, Repr

/-- A call that has been left, and the times of its two events. -/
structure CompletedCall where
  call : Call
  enterTs : UInt64
  exitTs : UInt64
  deriving DecidableEq, Repr

/-- A call is entered or left; `succeeds` is whether a call of the tool for its context would. -/
structure CallEvent where
  call : Call
  phase : Phase
  ts : UInt64
  succeeds : Bool := true
  deriving DecidableEq, Repr

/-- The record that the callbacks get. -/
def CallEvent.record (event : CallEvent) : Record where
  kind := event.call.kind
  operation := event.call.operation
  phase := event.phase
  threadId := event.call.threadId
  correlationId := event.call.correlationId
  message := event.call.message
  userData := event.call.userData
  ts := event.ts

/-- A mark of the core range API. -/
def Call.isMark (call : Call) : Bool :=
  call.kind = .markerCoreRangeApi && call.operation = .roctxMarkA

/-- A call of one of the two interfaces; a mark has a message. -/
def Call.valid (call : Call) : Bool :=
  (call.kind = .markerCoreRangeApi || call.kind = markerControlApi) &&
    (!call.isMark || call.message.isSome)

/-- The calls of an application: those that are open, with the times at which they were entered, by
their `user_data`, and those that have been left. -/
structure Calls where
  opened : ℕ → Option (Call × UInt64) := fun _ ↦ none
  completed : List CompletedCall := []

/-- What an application can do. -/
def callStep (calls : Calls) (event : CallEvent) : Option Calls :=
  let slot := event.call.userData
  match event.phase, calls.opened slot with
  | .enter, none =>
    if event.call.valid then
      some { calls with opened := Function.update calls.opened slot (event.call, event.ts) }
    else none
  | .exit, some (call, enterTs) =>
    if call = event.call then
      some
        { opened := Function.update calls.opened slot none
          completed := calls.completed ++ [⟨event.call, enterTs, event.ts⟩] }
    else none
  | _, _ => none

/-- What the tool makes of it; the callbacks are configured for a kind each. -/
def deliver (metadata : Metadata μ) (convertKind : CallbackTracingKind → ℕ) (s : State μ)
    (event : CallEvent) : Option (State μ) :=
  if event.call.kind = markerControlApi then
    (cntrlTracingCallback convertKind true (fun _ ↦ event.succeeds) event.record s).2
  else (callbackTracingCallback metadata convertKind event.record s).toOption

/-- A call of the tool for its context fails. -/
def CallEvent.fails (event : CallEvent) : Bool :=
  event.call.kind = markerControlApi && (contextCall event.record).isSome && !event.succeeds

/-- The record of a call.  That of a mark begins when it ends. -/
def recordOf (convertKind : CallbackTracingKind → ℕ) (completed : CompletedCall) :
    MarkerRecord where
  kind := convertKind completed.call.kind
  operation := completed.call.operation
  threadId := completed.call.threadId
  correlationId := completed.call.correlationId
  startTimestamp := if completed.call.isMark then completed.exitTs else completed.enterTs
  endTimestamp := completed.exitTs

/-! ## What the application does -/

variable {metadata : Metadata μ} {convertKind : CallbackTracingKind → ℕ} {calls calls' : Calls}
  {event : CallEvent} {s t : State μ}

/-- A call is entered. -/
theorem callStep_enter (h : callStep calls event = some calls') (hphase : event.phase = .enter) :
    event.call.valid = true ∧
      calls' = { calls with
        opened := Function.update calls.opened event.call.userData (event.call, event.ts) } := by
  rw [callStep.eq_def] at h
  rcases hopened : calls.opened event.call.userData with _ | _
  · simp only [hphase, hopened] at h
    obtain ⟨hvalid, h⟩ := Option.ite_none_right_eq_some.mp h
    exact ⟨hvalid, (Option.some.inj h).symm⟩
  · simp only [hphase, hopened] at h
    cases h

/-- A call is left. -/
theorem callStep_exit (h : callStep calls event = some calls') (hphase : event.phase = .exit) :
    ∃ enterTs, calls.opened event.call.userData = some (event.call, enterTs) ∧
      calls' =
        { opened := Function.update calls.opened event.call.userData none
          completed := calls.completed ++ [⟨event.call, enterTs, event.ts⟩] } := by
  rw [callStep.eq_def] at h
  rcases hopened : calls.opened event.call.userData with _ | ⟨call, enterTs⟩
  · simp only [hphase, hopened] at h
    cases h
  · simp only [hphase, hopened] at h
    obtain ⟨rfl, hcalls⟩ := Option.ite_none_right_eq_some.mp h
    exact ⟨enterTs, rfl, (Option.some.inj hcalls).symm⟩

/-- What is in a slot after one of them has been written. -/
theorem opened_update {opened : ℕ → Option (Call × UInt64)} {slot slot' : ℕ}
    {x : Option (Call × UInt64)} {y : Call × UInt64}
    (h : Function.update opened slot x slot' = some y) :
    slot' = slot ∧ x = some y ∨ slot' ≠ slot ∧ opened slot' = some y := by
  by_cases hslot : slot' = slot
  · subst hslot
    rw [Function.update_self] at h
    exact .inl ⟨rfl, h⟩
  · rw [Function.update_of_ne hslot] at h
    exact .inr ⟨hslot, h⟩

/-- An event is one or the other. -/
theorem phase_of_callStep (h : callStep calls event = some calls') :
    event.phase = .enter ∨ event.phase = .exit := by
  rcases hphase : event.phase with _ | _ | _
  · rw [callStep.eq_def] at h
    simp only [hphase] at h
    cases h
  · exact .inl rfl
  · exact .inr rfl

/-! ## What the callbacks do -/

/-- The tool has taken note of the time at which a call was entered. -/
structure Entered (event : CallEvent) (s t : State μ) : Prop where
  markers : t.markers = s.markers
  own : event.call.isMark = false → t.userData event.call.userData = event.ts
  others : ∀ slot ≠ event.call.userData, t.userData slot = s.userData slot

/-- The tool has written a record when a call was left. -/
structure Left (convertKind : CallbackTracingKind → ℕ) (event : CallEvent) (s t : State μ) :
    Prop where
  markers : t.markers = s.markers ++ [recordOf convertKind
    ⟨event.call, s.userData event.call.userData, event.ts⟩]
  userData : t.userData = s.userData

theorem entered_enterCall (event : CallEvent) (s : State μ) :
    Entered event s (enterCall event.record s) where
  markers := rfl
  own _ := Function.update_self _ _ _
  others _ hne := Function.update_of_ne hne _ _

theorem left_writeMarker (convertKind : CallbackTracingKind → ℕ) (s : State μ)
    (hmark : event.call.isMark = false) :
    Left convertKind event s
      (writeMarker convertKind event.record (s.userData event.call.userData) s) where
  markers := by
    rw [writeMarker, recordOf, hmark]
    rfl
  userData := rfl

theorem entered_traceOther (convertKind : CallbackTracingKind → ℕ) (s : State μ)
    (hphase : event.phase = .enter) :
    Entered event s (traceOther convertKind event.record s) := by
  rw [traceOther, if_pos (show event.record.phase = .enter from hphase)]
  exact entered_enterCall event s

theorem left_traceOther (convertKind : CallbackTracingKind → ℕ) (s : State μ)
    (hphase : event.phase = .exit) (hmark : event.call.isMark = false) :
    Left convertKind event s (traceOther convertKind event.record s) := by
  have hne : event.phase ≠ .enter := by
    rw [hphase]
    exact Phase.noConfusion
  rw [traceOther, if_neg (show ¬event.record.phase = .enter from hne)]
  exact left_writeMarker convertKind s hmark

theorem entered_traceRange (metadata : Metadata μ) (convertKind : CallbackTracingKind → ℕ)
    (s : State μ) (hphase : event.phase = .enter) :
    Entered event s (traceRange metadata convertKind event.record s) := by
  have hphase' : event.record.phase = .enter := hphase
  rcases hmessage : event.record.message with _ | message
  · simp only [traceRange, hphase', hmessage]
    exact entered_enterCall event s
  · -- the message does not change what is known about the calls
    simp only [traceRange, hphase', hmessage]
    exact ⟨rfl, (entered_enterCall event s).own, (entered_enterCall event s).others⟩

theorem left_traceRange (metadata : Metadata μ) (convertKind : CallbackTracingKind → ℕ)
    (s : State μ) (hphase : event.phase = .exit) (hmark : event.call.isMark = false) :
    Left convertKind event s (traceRange metadata convertKind event.record s) := by
  have hphase' : event.record.phase = .exit := hphase
  simp only [traceRange, hphase']
  exact left_writeMarker convertKind s hmark

/-- A mark is written when it is left, with that time twice. -/
theorem left_traceMark (metadata : Metadata μ) (convertKind : CallbackTracingKind → ℕ)
    (s : State μ) (hphase : event.phase = .exit) (hmark : event.call.isMark = true)
    (hmessage : event.call.message.isSome = true) :
    ∃ t, traceMark metadata convertKind event.record s = .ok t ∧ Left convertKind event s t := by
  have hphase' : event.record.phase = .exit := hphase
  obtain ⟨message, hmessage⟩ := Option.isSome_iff_exists.mp hmessage
  have hmessage' : event.record.message = some message := hmessage
  simp only [traceMark, hphase', hmessage']
  refine ⟨_, rfl, ?_, rfl⟩
  rw [writeMarker, recordOf, hmark]
  rfl

theorem entered_traceMark (metadata : Metadata μ) (convertKind : CallbackTracingKind → ℕ)
    (s : State μ) (hphase : event.phase = .enter) (hmark : event.call.isMark = true) :
    ∃ t, traceMark metadata convertKind event.record s = .ok t ∧ Entered event s t := by
  have hphase' : event.record.phase = .enter := hphase
  simp only [traceMark, hphase']
  exact ⟨s, rfl, rfl, fun hnot ↦ absurd hmark (by rw [hnot]; exact Bool.false_ne_true),
    fun _ _ ↦ rfl⟩

/-! ## What the tool makes of an event -/

theorem deliver_of_control (hkind : event.call.kind = markerControlApi) :
    deliver metadata convertKind s event =
      if event.fails then none else some (traceOther convertKind event.record s) := by
  rw [deliver, if_pos hkind, cntrlTracingCallback, if_pos ⟨rfl, hkind⟩, CallEvent.fails, hkind]
  rcases contextCall event.record with _ | call
  · rfl
  · rcases event.succeeds with _ | _ <;> rfl

theorem deliver_of_core (hkind : event.call.kind = .markerCoreRangeApi) :
    deliver metadata convertKind s event
      = (match event.call.operation with
        | .roctxMarkA => traceMark metadata convertKind event.record s
        | .roctxThreadRangeA | .roctxProcessRangeA =>
          .ok (traceRange metadata convertKind event.record s)
        | .other _ => .ok (traceOther convertKind event.record s)).toOption := by
  rw [deliver, if_neg (by rw [hkind]; exact CallbackTracingKind.noConfusion),
    callbackTracingCallback, if_pos (show event.record.kind = _ from hkind)]
  rfl

theorem deliver_of_fails (hfails : event.fails = true) :
    deliver metadata convertKind s event = none := by
  have hkind : event.call.kind = markerControlApi := by
    simp only [CallEvent.fails, Bool.and_eq_true, decide_eq_true_eq] at hfails
    exact hfails.1.1
  rw [deliver_of_control hkind, if_pos hfails]

theorem isMark_of_roctxMarkA (hkind : event.call.kind = .markerCoreRangeApi)
    (hop : event.call.operation = .roctxMarkA) : event.call.isMark = true := by
  rw [Call.isMark, hkind, hop]
  rfl

/-- **A call is entered**, whatever interface it is of. -/
theorem deliver_enter (metadata : Metadata μ) (convertKind : CallbackTracingKind → ℕ) (s : State μ)
    (hvalid : event.call.valid = true) (hphase : event.phase = .enter)
    (hfails : event.fails = false) :
    ∃ t, deliver metadata convertKind s event = some t ∧ Entered event s t := by
  simp only [Call.valid, Bool.and_eq_true, Bool.or_eq_true, decide_eq_true_eq] at hvalid
  rcases hvalid.1 with hkind | hkind
  · rw [deliver_of_core hkind]
    rcases hop : event.call.operation with _ | _ | _ | _
    · have hmark := isMark_of_roctxMarkA hkind hop
      obtain ⟨t, ht, hentered⟩ := entered_traceMark metadata convertKind s hphase hmark
      exact ⟨t, by simp only [ht]; rfl, hentered⟩
    · exact ⟨_, rfl, entered_traceRange metadata convertKind s hphase⟩
    · exact ⟨_, rfl, entered_traceRange metadata convertKind s hphase⟩
    · exact ⟨_, rfl, entered_traceOther convertKind s hphase⟩
  · rw [deliver_of_control hkind, hfails]
    exact ⟨_, rfl, entered_traceOther convertKind s hphase⟩

/-- **A call is left**, whatever interface it is of. -/
theorem deliver_exit (metadata : Metadata μ) (convertKind : CallbackTracingKind → ℕ) (s : State μ)
    (hvalid : event.call.valid = true) (hphase : event.phase = .exit)
    (hfails : event.fails = false) :
    ∃ t, deliver metadata convertKind s event = some t ∧ Left convertKind event s t := by
  simp only [Call.valid, Bool.and_eq_true, Bool.or_eq_true, decide_eq_true_eq,
    Bool.not_eq_true'] at hvalid
  have hother : ∀ {kind : CallbackTracingKind} {operation : Operation},
      event.call.kind = kind → event.call.operation = operation →
      (kind = .markerCoreRangeApi && operation = .roctxMarkA) = false →
      event.call.isMark = false := by
    rintro _ _ rfl rfl h
    exact h
  rcases hvalid.1 with hkind | hkind
  · rw [deliver_of_core hkind]
    rcases hop : event.call.operation with _ | _ | _ | _
    · have hmark := isMark_of_roctxMarkA hkind hop
      have hmessage := hvalid.2.resolve_left (by rw [hmark]; exact Bool.noConfusion)
      obtain ⟨t, ht, hleft⟩ := left_traceMark metadata convertKind s hphase hmark hmessage
      exact ⟨t, by simp only [ht]; rfl, hleft⟩
    · exact ⟨_, rfl, left_traceRange metadata convertKind s hphase (hother hkind hop rfl)⟩
    · exact ⟨_, rfl, left_traceRange metadata convertKind s hphase (hother hkind hop rfl)⟩
    · exact ⟨_, rfl, left_traceOther convertKind s hphase (hother hkind hop rfl)⟩
  · rw [deliver_of_control hkind, hfails]
    exact ⟨_, rfl, left_traceOther convertKind s hphase (hother hkind rfl rfl)⟩

/-! ## Runs -/

/-- The tool is up to date: it has a record for each call that has been left, and knows when those
were entered that are open. -/
structure UpToDate (convertKind : CallbackTracingKind → ℕ) (calls : Calls) (s : State μ) :
    Prop where
  markers : s.markers = calls.completed.map (recordOf convertKind)
  opened : ∀ slot call enterTs, calls.opened slot = some (call, enterTs) →
    call.valid = true ∧ (call.isMark = false → s.userData slot = enterTs)

/-- **An event keeps the tool up to date**, if the tool gets through it. -/
theorem upToDate_step (hU : UpToDate convertKind calls s) (h : callStep calls event = some calls')
    (ht : deliver metadata convertKind s event = some t) : UpToDate convertKind calls' t := by
  have hfails : event.fails = false := by
    rw [← Bool.not_eq_true]
    intro hfails
    rw [deliver_of_fails hfails] at ht
    cases ht
  rcases phase_of_callStep h with hphase | hphase
  · obtain ⟨hvalid, rfl⟩ := callStep_enter h hphase
    obtain ⟨t', ht', hentered⟩ := deliver_enter metadata convertKind s hvalid hphase hfails
    obtain rfl := Option.some.inj (ht.symm.trans ht')
    refine ⟨hentered.markers.trans hU.markers, fun slot call enterTs hopened ↦ ?_⟩
    rcases opened_update hopened with ⟨rfl, ⟨⟩⟩ | ⟨hslot, hopened⟩
    · exact ⟨hvalid, hentered.own⟩
    · rw [hentered.others slot hslot]
      exact hU.opened slot call enterTs hopened
  · obtain ⟨enterTs, hopened, rfl⟩ := callStep_exit h hphase
    obtain ⟨hvalid, htime⟩ := hU.opened _ _ _ hopened
    obtain ⟨t', ht', hleft⟩ := deliver_exit metadata convertKind s hvalid hphase hfails
    obtain rfl := Option.some.inj (ht.symm.trans ht')
    refine ⟨?_, fun slot call enterTs' hopened' ↦ ?_⟩
    · rw [hleft.markers, hU.markers, List.map_append, List.map_singleton]
      rcases hmark : event.call.isMark with _ | _
      · rw [htime hmark]
      · rw [recordOf, recordOf, hmark, if_pos rfl, if_pos rfl]
    · rcases opened_update hopened' with ⟨-, ⟨⟩⟩ | ⟨-, hopened'⟩
      rw [hleft.userData]
      exact hU.opened slot call enterTs' hopened'

/-- The tool gets through an event when its call for the context does not fail. -/
theorem exists_deliver (metadata : Metadata μ) (hU : UpToDate convertKind calls s)
    (h : callStep calls event = some calls') (hfails : event.fails = false) :
    ∃ t, deliver metadata convertKind s event = some t := by
  rcases phase_of_callStep h with hphase | hphase
  · obtain ⟨hvalid, -⟩ := callStep_enter h hphase
    obtain ⟨t, ht, -⟩ := deliver_enter metadata convertKind s hvalid hphase hfails
    exact ⟨t, ht⟩
  · obtain ⟨enterTs, hopened, -⟩ := callStep_exit h hphase
    obtain ⟨hvalid, -⟩ := hU.opened _ _ _ hopened
    obtain ⟨t, ht, -⟩ := deliver_exit metadata convertKind s hvalid hphase hfails
    exact ⟨t, ht⟩

theorem upToDate_start (convertKind : CallbackTracingKind → ℕ) (toolMetadata : μ) :
    UpToDate convertKind {} (State.start toolMetadata) :=
  ⟨rfl, fun _ _ _ h ↦ (by cases h)⟩

theorem upToDate_run {events : List CallEvent} {toolMetadata : μ}
    (h : run callStep {} events = some calls)
    (hs : run (deliver metadata convertKind) (State.start toolMetadata) events = some s) :
    UpToDate convertKind calls s := by
  refine run_induction (P := fun xs s ↦ ∀ calls,
    run callStep {} xs = some calls → UpToDate convertKind calls s) ?_ ?_ hs calls h
  · intro calls h
    cases h
    exact upToDate_start convertKind toolMetadata
  · intro xs s event t _ hxs ht calls' h
    obtain ⟨calls, hcalls, hstep⟩ := run_concat.mp h
    exact upToDate_step (hxs calls hcalls) hstep ht

/-- **When the tool gets through the calls** of an application. -/
theorem isSome_run_deliver_iff {events : List CallEvent} (h : run callStep {} events = some calls)
    (metadata : Metadata μ) (convertKind : CallbackTracingKind → ℕ) (toolMetadata : μ) :
    (run (deliver metadata convertKind) (State.start toolMetadata) events).isSome = true ↔
      ∀ event ∈ events, event.fails = false := by
  induction events using List.reverseRecOn generalizing calls with
  | nil => simp
  | append_singleton xs event ih =>
    obtain ⟨calls', hcalls, hstep⟩ := run_concat.mp h
    rw [List.forall_mem_append, List.forall_mem_singleton, ← ih hcalls, run_append]
    rcases hs : run (deliver metadata convertKind) (State.start toolMetadata) xs with _ | s
    · simp
    · rw [Option.bind_some, run_cons]
      rcases hfails : event.fails with _ | _
      · obtain ⟨t, ht⟩ := exists_deliver metadata (upToDate_run hcalls hs) hstep hfails
        rw [ht]
        simp
      · rw [deliver_of_fails hfails]
        simp

/-! ## The clock -/

/-- The times of the calls are among those of the events, in their order. -/
structure Timed (events : List CallEvent) (calls : Calls) : Prop where
  opened : ∀ slot call enterTs, calls.opened slot = some (call, enterTs) →
    enterTs ∈ events.map CallEvent.ts
  completed : (events.map CallEvent.ts).Pairwise (· ≤ ·) →
    ∀ completed ∈ calls.completed, completed.enterTs ≤ completed.exitTs

theorem timed_step {events : List CallEvent} (hT : Timed events calls)
    (h : callStep calls event = some calls') : Timed (events ++ [event]) calls' := by
  have hmap : (events ++ [event]).map CallEvent.ts = events.map CallEvent.ts ++ [event.ts] :=
    List.map_append
  have hself : event.ts ∈ events.map CallEvent.ts ++ [event.ts] :=
    List.mem_append_right _ (List.mem_singleton_self _)
  rcases phase_of_callStep h with hphase | hphase
  · obtain ⟨-, rfl⟩ := callStep_enter h hphase
    refine ⟨fun slot call enterTs hopened ↦ ?_, fun hclock ↦ ?_⟩
    · rw [hmap]
      rcases opened_update hopened with ⟨-, ⟨⟩⟩ | ⟨-, hopened⟩
      · exact hself
      · exact List.mem_append_left _ (hT.opened slot call enterTs hopened)
    · rw [hmap, List.pairwise_append] at hclock
      exact hT.completed hclock.1
  · obtain ⟨enterTs, henter, rfl⟩ := callStep_exit h hphase
    refine ⟨fun slot call enterTs hopened ↦ ?_, fun hclock completed hmem ↦ ?_⟩
    · rw [hmap]
      rcases opened_update hopened with ⟨-, ⟨⟩⟩ | ⟨-, hopened⟩
      exact List.mem_append_left _ (hT.opened slot call enterTs hopened)
    · rw [hmap, List.pairwise_append] at hclock
      rcases List.mem_append.mp hmem with hmem | hmem
      · exact hT.completed hclock.1 completed hmem
      · obtain rfl := List.mem_singleton.mp hmem
        exact hclock.2.2 enterTs (hT.opened _ _ _ henter) event.ts (List.mem_singleton_self _)

theorem timed_run {events : List CallEvent} (h : run callStep {} events = some calls) :
    Timed events calls := by
  refine run_induction (P := Timed) ⟨fun _ _ _ h ↦ (by cases h), fun _ _ h ↦ (by cases h)⟩ ?_ h
  intro xs calls event calls' _ hT hstep
  exact timed_step hT hstep

/-! ## The records -/

/-- **The records of the calls**, for every interleaving of the calls of any threads.  The tool gets
through them unless one of its own calls for the context fails; there is then exactly one record for
each call that has been left, with its own data and times; and if the clock does not go back, none
of them ends before it begins. -/
theorem markers_eq_completed {events : List CallEvent} (h : run callStep {} events = some calls)
    (metadata : Metadata μ) (convertKind : CallbackTracingKind → ℕ) (toolMetadata : μ) :
    ((run (deliver metadata convertKind) (State.start toolMetadata) events).isSome = true ↔
      ∀ event ∈ events, event.fails = false) ∧
    ∀ s, run (deliver metadata convertKind) (State.start toolMetadata) events = some s →
      s.markers = calls.completed.map (recordOf convertKind) ∧
      ((events.map CallEvent.ts).Pairwise (· ≤ ·) →
        ∀ marker ∈ s.markers, marker.startTimestamp ≤ marker.endTimestamp) := by
  refine ⟨isSome_run_deliver_iff h metadata convertKind toolMetadata, fun s hs ↦ ?_⟩
  have hmarkers := (upToDate_run h hs).markers
  refine ⟨hmarkers, fun hclock marker hmem ↦ ?_⟩
  rw [hmarkers] at hmem
  obtain ⟨completed, hcompleted, rfl⟩ := List.mem_map.mp hmem
  dsimp only [recordOf]
  split_ifs
  · exact UInt64.le_refl _
  · exact (timed_run h).completed hclock completed hcompleted

/-- A range of the process, on this thread. -/
def processRange (threadId : UInt64) (userData : ℕ) : Call where
  kind := .markerCoreRangeApi
  operation := .roctxProcessRangeA
  threadId := threadId
  correlationId := ⟨threadId, 0⟩
  message := some "solve".toList
  userData := userData

/-- A mark on the first thread. -/
def markCall : Call := { processRange 1 2 with operation := .roctxMarkA }

/-- A call on the first thread that pauses the profiler. -/
def pauseCall : Call :=
  { processRange 1 3 with kind := markerControlApi, operation := roctxProfilerPause }

/-- The ranges of two threads overlap; in the first one there are a mark and a pause. -/
def overlapping : List CallEvent :=
  [⟨processRange 1 0, .enter, 10, true⟩, ⟨markCall, .enter, 20, true⟩,
    ⟨processRange 2 1, .enter, 30, true⟩, ⟨markCall, .exit, 40, true⟩,
    ⟨pauseCall, .enter, 50, true⟩, ⟨processRange 1 0, .exit, 60, true⟩,
    ⟨pauseCall, .exit, 70, true⟩, ⟨processRange 2 1, .exit, 80, true⟩]

theorem markers_overlapping :
    ∃ s, run (deliver renameById fun _ ↦ 0) (State.start ()) overlapping = some s ∧
      s.markers.map (fun marker ↦ (marker.threadId, marker.startTimestamp, marker.endTimestamp))
        = [(1, 40, 40), (1, 10, 60), (1, 50, 70), (2, 30, 80)] ∧
      ∀ marker ∈ s.markers, marker.startTimestamp ≤ marker.endTimestamp := by
  obtain ⟨hsome, hall⟩ := markers_eq_completed
    (show run callStep {} overlapping = some _ from rfl) renameById (fun _ ↦ 0) ()
  obtain ⟨s, hs⟩ := Option.isSome_iff_exists.mp (hsome.mpr (by decide))
  obtain ⟨hmarkers, hle⟩ := hall s hs
  exact ⟨s, hs, by rw [hmarkers]; rfl, hle (by decide)⟩

end Version3.Markers
