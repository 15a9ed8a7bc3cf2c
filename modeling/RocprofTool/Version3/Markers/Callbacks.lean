import RocprofTool.Lib.Nesting
import RocprofTool.Version3.Correlation.Requests

/-!
# The callbacks for markers

The calls of an application to `roctx` reach the tool twice.  `kernel_rename_callback` keeps, for
each thread, a stack of the regions that kernels are renamed after; `callback_tracing_callback`
writes the markers to a ring buffer.  Both are called when a call is entered and when it is left.

Both look at the message of a marker, which is a C string and may be null.  The first callback
pushes nothing for a thread range without a message, and still pops when the range is left.  The
second one looks whether there is a message for the ranges, but not for a mark, and makes a
`std::string` of it.  `callbacks_return_iff` says when the two get through a sequence
of events.
-/

set_option autoImplicit false

open Runs Nesting Version3.Correlation

namespace Version3.Markers

/-- `rocprofiler_callback_tracing_kind_t`. -/
inductive CallbackTracingKind
  | markerCoreRangeApi
  | other (id : ℕ)
  deriving DecidableEq, Repr

/-- The operations of the core range API. -/
inductive Operation
  | roctxMarkA
  | roctxThreadRangeA
  | roctxProcessRangeA
  | other (id : ℕ)
  deriving DecidableEq, Repr

/-- `rocprofiler_callback_phase_t`. -/
inductive Phase
  | none
  | enter
  | exit
  deriving DecidableEq, Repr

/-- `rocprofiler_callback_tracing_record_t`, with the message of its payload, the address of the
`user_data` of the call and the time. -/
structure Record where
  kind : CallbackTracingKind := .markerCoreRangeApi
  operation : Operation
  phase : Phase
  threadId : UInt64 := 0
  correlationId : CorrelationId
  message : Option (List Char)
  userData : ℕ := 0
  ts : UInt64 := 0
  deriving DecidableEq, Repr

/-- `rocprofiler_buffer_tracing_marker_api_record_t`. -/
structure MarkerRecord where
  kind : ℕ
  operation : Operation
  threadId : UInt64
  correlationId : CorrelationId
  startTimestamp : UInt64
  endTimestamp : UInt64
  deriving DecidableEq, Repr

/-- What the callbacks end a program with. -/
inductive Abort
  /-- `roctxRangePop` was invoked more times than `roctxRangePush`. -/
  | popWithoutPush
  /-- A `std::string` of a null pointer. -/
  | nullMessage
  deriving DecidableEq, Repr

/-- What the callbacks of a thread read and write. -/
structure State (μ : Type) where
  /-- The stack from its top; `none` is the null pointer. -/
  threadDispatchRename : Option (List UInt64)
  toolMetadata : μ
  userData : ℕ → UInt64 := fun _ ↦ 0
  markers : List MarkerRecord := []

/-- A new thread. -/
def State.start {μ : Type} (toolMetadata : μ) : State μ :=
  { threadDispatchRename := some [], toolMetadata }

variable {μ : Type}

/-- Push what the kernels are renamed after. -/
def pushMessage (metadata : Metadata μ) (record : Record) (message : List Char)
    (stack : List UInt64) (s : State μ) : State μ :=
  let (region, toolMetadata) :=
    metadata.addKernelRenameVal message record.correlationId.internal s.toolMetadata
  { s with threadDispatchRename := some (region :: stack), toolMetadata }

/-- `kernel_rename_callback`. -/
def kernelRenameCallback (metadata : Metadata μ) (record : Record) (s : State μ) :
    Except Abort (State μ) :=
  match s.threadDispatchRename with
  | none => .ok s
  | some stack =>
    if record.kind = .markerCoreRangeApi then
      match record.operation, record.phase, record.message with
      | .roctxMarkA, .exit, some message => .ok (pushMessage metadata record message stack s)
      | .roctxThreadRangeA, .enter, some message =>
        .ok (pushMessage metadata record message stack s)
      | .roctxThreadRangeA, .exit, _ =>
        match stack with
        | [] => .error .popWithoutPush
        | _ :: stack => .ok { s with threadDispatchRename := some stack }
      | _, _, _ => .ok s
    else .ok s

/-- Write a marker that started at this time. -/
def writeMarker (convertKind : CallbackTracingKind → ℕ) (record : Record)
    (startTimestamp : UInt64) (s : State μ) : State μ :=
  { s with
    markers := s.markers ++ [{
      kind := convertKind record.kind, operation := record.operation, threadId := record.threadId
      correlationId := record.correlationId, startTimestamp, endTimestamp := record.ts }] }

/-- Remember when the call was entered. -/
def enterCall (record : Record) (s : State μ) : State μ :=
  { s with userData := Function.update s.userData record.userData record.ts }

/-- `add_marker_message`. -/
def addMessage (metadata : Metadata μ) (record : Record) (message : List Char) (s : State μ) :
    State μ :=
  { s with
    toolMetadata :=
      metadata.addMarkerMessage record.correlationId.internal message s.toolMetadata }

/-- The branch of `callback_tracing_callback` for marks. -/
def traceMark (metadata : Metadata μ) (convertKind : CallbackTracingKind → ℕ) (record : Record)
    (s : State μ) : Except Abort (State μ) :=
  match record.phase, record.message with
  | .exit, none => .error .nullMessage
  | .exit, some message =>
    .ok (writeMarker convertKind record record.ts (addMessage metadata record message s))
  | _, _ => .ok s

/-- The branches of `callback_tracing_callback` for ranges, which are the same for a thread and for
the process. -/
def traceRange (metadata : Metadata μ) (convertKind : CallbackTracingKind → ℕ) (record : Record)
    (s : State μ) : State μ :=
  match record.phase, record.message with
  | .enter, none => enterCall record s
  | .enter, some message => addMessage metadata record message (enterCall record s)
  | .exit, _ => writeMarker convertKind record (s.userData record.userData) s
  | .none, _ => s

/-- The branch of `callback_tracing_callback` for the other operations. -/
def traceOther (convertKind : CallbackTracingKind → ℕ) (record : Record) (s : State μ) : State μ :=
  if record.phase = .enter then enterCall record s
  else writeMarker convertKind record (s.userData record.userData) s

/-- `callback_tracing_callback`. -/
def callbackTracingCallback (metadata : Metadata μ) (convertKind : CallbackTracingKind → ℕ)
    (record : Record) (s : State μ) : Except Abort (State μ) :=
  if record.kind = .markerCoreRangeApi then
    match record.operation with
    | .roctxMarkA => traceMark metadata convertKind record s
    | .roctxThreadRangeA | .roctxProcessRangeA => .ok (traceRange metadata convertKind record s)
    | .other _ => .ok (traceOther convertKind record s)
  else .ok s

/-! ## Events and calls -/

/-- An event, and which of the callbacks gets it first. -/
structure Event where
  record : Record
  renameFirst : Bool
  deriving DecidableEq, Repr

/-- Both callbacks for an event; `none` when one of them does not return. -/
def step (metadata : Metadata μ) (convertKind : CallbackTracingKind → ℕ) (s : State μ)
    (event : Event) : Option (State μ) :=
  let rename := kernelRenameCallback metadata event.record
  let trace := callbackTracingCallback metadata convertKind event.record
  (if event.renameFirst then rename s >>= trace else trace s >>= rename).toOption

/-- One event enters a call and the other one leaves it. -/
def IsCall (enter leave : Event) : Prop :=
  enter.record.kind = .markerCoreRangeApi ∧ leave.record.kind = .markerCoreRangeApi ∧
    enter.record.operation = leave.record.operation ∧
    enter.record.phase = .enter ∧ leave.record.phase = .exit

/-- The calls of a thread are well nested. -/
def WellNestedCalls (events : List Event) : Prop := WellNested (fun _ ↦ False) IsCall events

/-! ## What an event does to the stack -/

/-- A mark or a thread range with a message is pushed. -/
def Record.pushes (record : Record) : Bool :=
  record.kind = .markerCoreRangeApi && record.message.isSome &&
    ((record.operation = .roctxMarkA && record.phase = .exit) ||
      (record.operation = .roctxThreadRangeA && record.phase = .enter))

/-- A thread range is left. -/
def Record.pops (record : Record) : Bool :=
  record.kind = .markerCoreRangeApi && record.operation = .roctxThreadRangeA &&
    record.phase = .exit

/-- A mark without a message. -/
def Record.nullMark (record : Record) : Bool :=
  record.kind = .markerCoreRangeApi && record.operation = .roctxMarkA && record.phase = .exit &&
    record.message.isNone

/-- How many entries there are on a stack after an event, if the callbacks return. -/
def heightStep (height : ℕ) (event : Event) : Option ℕ :=
  if event.record.nullMark then none
  else if event.record.pops then
    if height = 0 then none else some (height - 1)
  else if event.record.pushes then some (height + 1)
  else some height

variable {metadata : Metadata μ} {convertKind : CallbackTracingKind → ℕ} {record : Record}
  {s : State μ} {stack : List UInt64}

theorem kernelRenameCallback_of_pushes (h : record.pushes = true)
    (hs : s.threadDispatchRename = some stack) :
    ∃ region t, kernelRenameCallback metadata record s = .ok t ∧
      t.threadDispatchRename = some (region :: stack) := by
  simp only [Record.pushes, Bool.and_eq_true, Bool.or_eq_true, decide_eq_true_eq,
    Option.isSome_iff_exists] at h
  obtain ⟨⟨hkind, message, hmessage⟩, ⟨hop, hphase⟩ | ⟨hop, hphase⟩⟩ := h <;>
    exact ⟨_, pushMessage metadata record message stack s,
      by simp only [kernelRenameCallback, hs, hkind, hop, hphase, hmessage, if_true], rfl⟩

theorem kernelRenameCallback_of_pops {region : UInt64} (h : record.pops = true)
    (hs : s.threadDispatchRename = some (region :: stack)) :
    kernelRenameCallback metadata record s
      = .ok { s with threadDispatchRename := some stack } := by
  simp only [Record.pops, Bool.and_eq_true, decide_eq_true_eq] at h
  obtain ⟨⟨hkind, hop⟩, hphase⟩ := h
  simp only [kernelRenameCallback, hs, hkind, hop, hphase, if_true]

theorem kernelRenameCallback_of_pops_nil (h : record.pops = true)
    (hs : s.threadDispatchRename = some []) :
    kernelRenameCallback metadata record s = .error .popWithoutPush := by
  simp only [Record.pops, Bool.and_eq_true, decide_eq_true_eq] at h
  obtain ⟨⟨hkind, hop⟩, hphase⟩ := h
  simp only [kernelRenameCallback, hs, hkind, hop, hphase, if_true]

/-- The other events leave the thread as it is. -/
theorem kernelRenameCallback_of_neither (hpush : record.pushes = false)
    (hpop : record.pops = false) : kernelRenameCallback metadata record s = .ok s := by
  rw [kernelRenameCallback]
  rcases s.threadDispatchRename with _ | stack
  · rfl
  by_cases hkind : record.kind = .markerCoreRangeApi
  swap
  · simp only [if_neg hkind]
  simp only [if_pos hkind]
  rcases hop : record.operation with _ | _ | _ | _ <;>
    rcases hphase : record.phase with _ | _ | _ <;>
    rcases hmessage : record.message with _ | message <;>
    simp_all [Record.pushes, Record.pops]

theorem callbackTracingCallback_of_nullMark (h : record.nullMark = true) :
    callbackTracingCallback metadata convertKind record s = .error .nullMessage := by
  simp only [Record.nullMark, Bool.and_eq_true, decide_eq_true_eq, Option.isNone_iff_eq_none] at h
  obtain ⟨⟨⟨hkind, hop⟩, hphase⟩, hmessage⟩ := h
  simp only [callbackTracingCallback, traceMark, hkind, hop, hphase, hmessage, if_true]

theorem threadDispatchRename_traceRange :
    (traceRange metadata convertKind record s).threadDispatchRename = s.threadDispatchRename := by
  rcases hphase : record.phase with _ | _ | _ <;> rcases hmessage : record.message with _ | _ <;>
    simp only [traceRange, hphase, hmessage, enterCall, addMessage, writeMarker]

theorem threadDispatchRename_traceOther :
    (traceOther convertKind record s).threadDispatchRename = s.threadDispatchRename := by
  rw [traceOther]
  split <;> rfl

/-- `callback_tracing_callback` returns when it is not a mark without a message, and does not touch
the stack. -/
theorem callbackTracingCallback_of_not_nullMark (metadata : Metadata μ)
    (convertKind : CallbackTracingKind → ℕ) (h : record.nullMark = false) (s : State μ) :
    ∃ t, callbackTracingCallback metadata convertKind record s = .ok t ∧
      t.threadDispatchRename = s.threadDispatchRename := by
  by_cases hkind : record.kind = .markerCoreRangeApi
  swap
  · exact ⟨s, by rw [callbackTracingCallback, if_neg hkind], rfl⟩
  rw [callbackTracingCallback, if_pos hkind]
  rcases hop : record.operation with _ | _ | _ | _
  · rcases hphase : record.phase with _ | _ | _ <;> rcases hmessage : record.message with _ | _ <;>
      simp_all [traceMark, Record.nullMark, writeMarker, addMessage]
  · exact ⟨_, rfl, threadDispatchRename_traceRange⟩
  · exact ⟨_, rfl, threadDispatchRename_traceRange⟩
  · exact ⟨_, rfl, threadDispatchRename_traceOther⟩

/-- There is a stack, and it has this many entries. -/
def HasHeight (s : State μ) (height : ℕ) : Prop :=
  ∃ stack, s.threadDispatchRename = some stack ∧ stack.length = height

theorem hasHeight_of_eq {t : State μ} (h : t.threadDispatchRename = s.threadDispatchRename)
    {height : ℕ} : HasHeight t height ↔ HasHeight s height := by
  rw [HasHeight, h, HasHeight]

/-- `kernel_rename_callback` does to the stack what `heightStep` does to its height, null marks
excepted. -/
theorem rename_rel (metadata : Metadata μ) {event : Event} (hnull : event.record.nullMark = false)
    {height : ℕ} (hs : HasHeight s height) :
    Option.Rel HasHeight (kernelRenameCallback metadata event.record s).toOption
      (heightStep height event) := by
  obtain ⟨stack, hstack, rfl⟩ := hs
  rw [heightStep, if_neg (by simp [hnull])]
  rcases hpop : event.record.pops with _ | _
  · rcases hpush : event.record.pushes with _ | _
    · rw [kernelRenameCallback_of_neither hpush hpop]
      exact .some ⟨stack, hstack, rfl⟩
    · obtain ⟨region, t, ht, hstack'⟩ := kernelRenameCallback_of_pushes hpush hstack
      rw [ht]
      exact .some ⟨_, hstack', rfl⟩
  · rcases stack with _ | ⟨region, stack⟩
    · rw [kernelRenameCallback_of_pops_nil hpop hstack]
      exact .none
    · rw [kernelRenameCallback_of_pops hpop hstack]
      exact .some ⟨stack, rfl, rfl⟩

/-- The second callback does not make a difference then. -/
theorem rel_bind_callbackTracingCallback (hnull : record.nullMark = false)
    {x : Except Abort (State μ)} {height : Option ℕ} (h : Option.Rel HasHeight x.toOption height) :
    Option.Rel HasHeight (x >>= callbackTracingCallback metadata convertKind record).toOption
      height := by
  rcases x with e | t
  · exact h
  · obtain ⟨u, hu, heq⟩ :=
      callbackTracingCallback_of_not_nullMark metadata convertKind hnull t
    rw [show (Except.ok t >>= callbackTracingCallback metadata convertKind record) = Except.ok u
      from hu]
    rcases h with h | _
    exact .some ((hasHeight_of_eq heq).mpr h)

/-- **The callbacks and the height of the stack**, in either order. -/
theorem step_rel (metadata : Metadata μ) (convertKind : CallbackTracingKind → ℕ) (s : State μ)
    (height : ℕ) (event : Event) (hs : HasHeight s height) :
    Option.Rel HasHeight (step metadata convertKind s event) (heightStep height event) := by
  rw [step]
  rcases hnull : event.record.nullMark with _ | _
  · rcases event.renameFirst with _ | _
    · obtain ⟨t, ht, heq⟩ :=
        callbackTracingCallback_of_not_nullMark metadata convertKind hnull s
      rw [if_neg Bool.false_ne_true, ht]
      exact rename_rel metadata hnull ((hasHeight_of_eq heq).mpr hs)
    · exact rel_bind_callbackTracingCallback hnull (rename_rel metadata hnull hs)
  · rw [heightStep, if_pos hnull]
    rcases event.renameFirst with _ | _
    · rw [if_neg Bool.false_ne_true, callbackTracingCallback_of_nullMark hnull]
      exact .none
    · rw [if_pos rfl]
      rcases kernelRenameCallback metadata event.record s with e | t
      · exact .none
      · rw [show (Except.ok t >>= callbackTracingCallback metadata convertKind event.record)
          = Except.error .nullMessage from callbackTracingCallback_of_nullMark hnull]
        exact .none

/-! ## Sequences of events -/

/-- How many marks and thread ranges with a message there are. -/
def pushes (events : List Event) : ℕ := events.countP (·.record.pushes)

/-- How many thread ranges are left. -/
def pops (events : List Event) : ℕ := events.countP (·.record.pops)

theorem not_pushes_of_pops {record : Record} (h : record.pops = true) : record.pushes = false := by
  simp only [Record.pops, Bool.and_eq_true, decide_eq_true_eq] at h
  simp [Record.pushes, h]

/-- **When a stack is high enough.** -/
theorem run_heightStep_isSome_iff (events : List Event) (height : ℕ) :
    (run heightStep height events).isSome = true ↔
      (∀ event ∈ events, event.record.nullMark = false) ∧
        ∀ xs, xs <+: events → pops xs ≤ height + pushes xs := by
  induction events generalizing height with
  | nil => simp [pops]
  | cons event events ih =>
    rw [run_cons, heightStep, forall_prefix_cons, List.forall_mem_cons]
    rcases hnull : event.record.nullMark with _ | _
    swap
    · simp
    rcases hpop : event.record.pops with _ | _
    · rcases hpush : event.record.pushes with _ | _
      · simp [ih, pops, pushes, hpop, hpush]
      · simp [ih, pops, pushes, hpop, hpush, Nat.add_assoc, Nat.add_comm 1]
    · have hpush := not_pushes_of_pops hpop
      rcases height with _ | height
      · refine iff_of_false (by simp) fun h ↦ ?_
        have hfirst := h.2.2 [] List.nil_prefix
        simp [pops, pushes, hpop, hpush] at hfirst
      · simp [ih, pops, pushes, hpop, hpush, Nat.add_right_comm height 1]

theorem isSome_run_start (metadata : Metadata μ) (convertKind : CallbackTracingKind → ℕ)
    (toolMetadata : μ) (events : List Event) :
    (run (step metadata convertKind) (State.start toolMetadata) events).isSome
      = (run heightStep 0 events).isSome := by
  have hstart : HasHeight (State.start toolMetadata) 0 := ⟨[], rfl, rfl⟩
  rw [isSome_run_eq (step_rel metadata convertKind) hstart]

/-- **Exactly when the callbacks get through**, from the start of a thread and in whatever order
they are called: when no mark is without a message, and at no time more thread ranges have been left
than there have been marks and thread ranges with a message. -/
theorem callbacks_return_iff (metadata : Metadata μ) (convertKind : CallbackTracingKind → ℕ)
    (toolMetadata : μ) (events : List Event) :
    (run (step metadata convertKind) (State.start toolMetadata) events).isSome = true ↔
      (∀ event ∈ events, event.record.nullMark = false) ∧
        ∀ xs, xs <+: events → pops xs ≤ pushes xs := by
  rw [isSome_run_start, run_heightStep_isSome_iff]
  simp only [Nat.zero_add]

/-- **With messages, well-nested calls do not abort.** -/
theorem run_isSome_of_messages (metadata : Metadata μ) (convertKind : CallbackTracingKind → ℕ)
    (toolMetadata : μ) {events : List Event} (h : WellNestedCalls events)
    (hmessages : ∀ event ∈ events, event.record.message.isSome = true) :
    (run (step metadata convertKind) (State.start toolMetadata) events).isSome = true := by
  rw [isSome_run_start, run_heightStep_isSome_iff]
  refine ⟨fun event hevent ↦ ?_, fun xs hxs ↦ ?_⟩
  · simp [Record.nullMark, hmessages event hevent]
  · rw [Nat.zero_add]
    refine h.countP_le (fun _ hfalse ↦ hfalse.elim) (fun enter hmem leave _ hcall ↦ ?_) hxs
    obtain ⟨hkind, hkind', hop, hphase, -⟩ := hcall
    refine ⟨by simp [Record.pops, hphase], fun hpop ↦ ?_⟩
    simp only [Record.pops, hkind', ← hop, Bool.and_eq_true, decide_eq_true_eq] at hpop
    simp [Record.pushes, hkind, hpop.1.2, hphase, hmessages enter hmem]

/-! ## Calls without a message -/

/-- A call is entered and left. -/
def call (operation : Operation) (internal : UInt64) (message : Option (List Char)) : List Event :=
  [⟨{ operation, phase := .enter, correlationId := ⟨internal, 0⟩, message }, false⟩,
    ⟨{ operation, phase := .exit, correlationId := ⟨internal, 0⟩, message }, false⟩]

theorem wellNestedCalls_call (operation : Operation) (internal : UInt64)
    (message : Option (List Char)) : WellNestedCalls (call operation internal message) :=
  wellNested_pair ⟨rfl, rfl, rfl, rfl, rfl⟩ .nil

/-- **A null message aborts**: a mark, when the string is made of it, and a thread range, when it is
left. -/
theorem null_message_aborts :
    WellNestedCalls (call .roctxMarkA 1 none) ∧
      run (step renameById fun _ ↦ 0) (State.start ()) (call .roctxMarkA 1 none) = none ∧
      WellNestedCalls (call .roctxThreadRangeA 1 none) ∧
      run (step renameById fun _ ↦ 0) (State.start ()) (call .roctxThreadRangeA 1 none) = none :=
  ⟨wellNestedCalls_call _ _ _, rfl, wellNestedCalls_call _ _ _, rfl⟩

end Version3.Markers
