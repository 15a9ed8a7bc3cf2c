import RocprofTool.Version1.Contexts

/-!
# Version 1 at work

A system of the tool, the kernels that are dispatched and `rocprofiler`, which calls the tool.  An
event is one call of the tool, or a record that gets complete; the calls of different threads come
in any order that the lock and the flags `valid` let through.  `dispatch_callback` is two events,
since the lock is free between its two halves.

What `rocprofiler` sees to is in `step`: each dispatch comes with a record of its own, if with any,
and with a context that is not null; a completion handler is called for a context of its own mode,
after the dispatch has returned and at most once.  When a call comes to a stop inside of a function,
that is the end of the run.
-/

set_option autoImplicit false

open Fallible

namespace Version1

/-- The tool, what has stopped it, the dispatches that are between the halves of
`dispatch_callback`, and which entries of the pools are in use. -/
structure System where
  tool : Tool := {}
  stopped : Option Fault := none
  dispatching : UMap UInt32 CallbackData := .empty
  fetched : Slot → Bool := fun _ ↦ false

/-- The tool is loaded, and kernels with these symbols are. -/
def System.start (symbols : UMap UInt64 Symbol) : System := { tool := { symbols } }

/-- What can happen. -/
inductive Event
  /-- `dispatch_callback` is called. -/
  | dispatch (callbackData : CallbackData)
  /-- It goes on, when it has made the entry with this index. -/
  | fill (index : UInt32) (context : ℕ) (currTime : UInt64)
  /-- `dispatch_callback_opt` is called, and fetches the entry of a pool with this number. -/
  | dispatchOpt (callbackData : CallbackData) (number context : ℕ)
  /-- A kernel is done, and its record is written. -/
  | complete (record : ℕ) (written : DispatchRecord)
  | contextHandler (index : UInt32)
  | contextPoolHandler (slot : Slot)
  /-- A round of `dump_context_array`, for a queue or for all of them. -/
  | dumpContextArray (queue : Option UInt64)
  deriving DecidableEq, Repr

/-- Is the memory for a new record free? -/
def Tool.canAllocate (tool : Tool) : Option ℕ → Bool
  | none => true
  | some r => (tool.records r).isNone

/-- The memory for a new record is taken. -/
def Tool.allocate (tool : Tool) : Option ℕ → Tool
  | none => tool
  | some r => { tool with records := tool.records.assign r ⟨0, 0, 0, 0⟩ }

/-- A call of the tool: with what it returns, the rest of the system goes on. -/
def System.perform {α : Type} (s : System) (x : ExceptT Fault (StateM Tool) α)
    (next : α → System → System) : System :=
  match exec x s.tool with
  | (.ok a, tool) => next a { s with tool }
  | (.error e, tool) => { s with tool, stopped := some e }

/-- `dispatch_callback` can be called: there have not been `2 ^ 32` dispatches yet, and it has not
to wait for a context. -/
def System.canDispatch (m : Machine) (s : System) (callbackData : CallbackData) : Bool :=
  s.tool.contextCount.toNat + 1 < 2 ^ 32 && s.tool.canAllocate callbackData.record &&
    !(s.tool.outstanding m && opensContext callbackData m.toolData matches .ok true)

/-- `dispatch_callback_opt` can be called: the entry of the pool is not in use. -/
def System.canDispatchOpt (m : Machine) (s : System) (callbackData : CallbackData)
    (number : ℕ) : Bool :=
  s.tool.canAllocate callbackData.record &&
    (m.devIndex callbackData.agent).all fun gpuId ↦ !s.fetched (gpuId, number)

/-- The system when it is running. -/
def System.next (m : Machine) (s : System) : Event → Option System
  | .dispatch callbackData =>
    if s.canDispatch m callbackData then
      let s := { s with tool := s.tool.allocate callbackData.record }
      some (s.perform (allocContext m callbackData) fun index s ↦
        match index with
        | none => s
        | some index => { s with dispatching := s.dispatching.assign index callbackData })
    else none
  | .fill index context currTime =>
    match s.dispatching index with
    | none => none
    | some callbackData =>
      some (s.perform (fillContext m callbackData index context currTime) fun _ s ↦
        { s with dispatching := Function.update s.dispatching index none })
  | .dispatchOpt callbackData number context =>
    if s.canDispatchOpt m callbackData number then
      let s := { s with tool := s.tool.allocate callbackData.record }
      some (s.perform (dispatchCallbackOpt m callbackData number context) fun slot s ↦
        { s with fetched := Function.update s.fetched slot true })
    else none
  | .complete r written =>
    match s.tool.records r with
    | none => none
    | some record =>
      if record.complete = 0 ∧ written.complete ≠ 0 then
        some { s with tool := { s.tool with records := s.tool.records.assign r written } }
      else none
  | .contextHandler index =>
    if m.resultPrefix && s.tool.contextArray.contains index && (s.dispatching index).isNone then
      some (s.perform (contextHandler m index) fun _ s ↦ s)
    else none
  | .contextPoolHandler slot =>
    if s.fetched slot then
      some (s.perform (contextPoolHandler m slot) fun _ s ↦
        { s with fetched := Function.update s.fetched slot false })
    else none
  | .dumpContextArray queue =>
    if s.tool.contextArray.toList.all fun p ↦ p.2.valid then
      some (s.perform (dumpContextArrayRound m queue) fun _ s ↦ s)
    else none

/-- One event. -/
def step (m : Machine) (s : System) (event : Event) : Option System :=
  if s.stopped.isSome then none else s.next m event

/-! ## What an event does to the tool -/

/-- The tool after an event: after the call that it is, whether that returns or not. -/
def System.toolAfter (m : Machine) (s : System) : Event → Tool
  | .dispatch callbackData =>
    after (allocContext m callbackData) (s.tool.allocate callbackData.record)
  | .fill index context currTime =>
    match s.dispatching index with
    | none => s.tool
    | some callbackData => after (fillContext m callbackData index context currTime) s.tool
  | .dispatchOpt callbackData number context =>
    after (dispatchCallbackOpt m callbackData number context)
      (s.tool.allocate callbackData.record)
  | .complete r written => { s.tool with records := s.tool.records.assign r written }
  | .contextHandler index => after (contextHandler m index) s.tool
  | .contextPoolHandler slot => after (contextPoolHandler m slot) s.tool
  | .dumpContextArray queue => after (dumpContextArrayRound m queue) s.tool

theorem System.tool_perform {α : Type} {s : System} {x : ExceptT Fault (StateM Tool) α}
    {next : α → System → System} (hnext : ∀ a s, (next a s).tool = s.tool) :
    (s.perform x next).tool = after x s.tool := by
  rw [System.perform, after]
  rcases exec x s.tool with ⟨e | a, tool⟩
  · rfl
  · exact hnext a _

/-! ## What a step says

The guard of each event, and what the event does. -/

section Step

variable {m : Machine} {s t : System}

theorem of_step {event : Event} (h : step m s event = some t) :
    s.stopped = none ∧ s.next m event = some t := by
  obtain ⟨hrunning, h⟩ := Option.ite_none_left_eq_some.mp h
  exact ⟨by simpa using hrunning, h⟩

theorem of_step_dispatch {callbackData : CallbackData}
    (h : step m s (.dispatch callbackData) = some t) :
    s.canDispatch m callbackData = true ∧
      t = System.perform { s with tool := s.tool.allocate callbackData.record }
        (allocContext m callbackData) fun index s ↦
          match index with
          | none => s
          | some index => { s with dispatching := s.dispatching.assign index callbackData } := by
  obtain ⟨hcan, heq⟩ := Option.ite_none_right_eq_some.mp (of_step h).2
  exact ⟨hcan, (Option.some.inj heq).symm⟩

theorem of_step_fill {index : UInt32} {context : ℕ} {currTime : UInt64}
    (h : step m s (.fill index context currTime) = some t) :
    ∃ callbackData, s.dispatching index = some callbackData ∧
      t = s.perform (fillContext m callbackData index context currTime) fun _ s ↦
        { s with dispatching := Function.update s.dispatching index none } := by
  have hnext := (of_step h).2
  rw [System.next] at hnext
  rcases hdispatching : s.dispatching index with _ | callbackData
  · simp [hdispatching] at hnext
  · rw [hdispatching] at hnext
    exact ⟨callbackData, rfl, (Option.some.inj hnext).symm⟩

theorem of_step_dispatchOpt {callbackData : CallbackData} {number context : ℕ}
    (h : step m s (.dispatchOpt callbackData number context) = some t) :
    s.canDispatchOpt m callbackData number = true ∧
      t = System.perform { s with tool := s.tool.allocate callbackData.record }
        (dispatchCallbackOpt m callbackData number context) fun slot s ↦
          { s with fetched := Function.update s.fetched slot true } := by
  obtain ⟨hcan, heq⟩ := Option.ite_none_right_eq_some.mp (of_step h).2
  exact ⟨hcan, (Option.some.inj heq).symm⟩

theorem of_step_complete {r : ℕ} {written : DispatchRecord}
    (h : step m s (.complete r written) = some t) :
    ∃ record, s.tool.records r = some record ∧ record.complete = 0 ∧ written.complete ≠ 0 ∧
      t = { s with tool := { s.tool with records := s.tool.records.assign r written } } := by
  have hnext := (of_step h).2
  rw [System.next] at hnext
  rcases hrecord : s.tool.records r with _ | record
  · simp [hrecord] at hnext
  · rw [hrecord] at hnext
    obtain ⟨⟨hzero, hwritten⟩, heq⟩ := Option.ite_none_right_eq_some.mp hnext
    exact ⟨record, rfl, hzero, hwritten, (Option.some.inj heq).symm⟩

theorem of_step_contextHandler {index : UInt32} (h : step m s (.contextHandler index) = some t) :
    m.resultPrefix = true ∧ s.dispatching index = none ∧
      t = s.perform (contextHandler m index) fun _ s ↦ s := by
  obtain ⟨hcan, heq⟩ := Option.ite_none_right_eq_some.mp (of_step h).2
  rw [Bool.and_eq_true, Bool.and_eq_true, Option.isNone_iff_eq_none] at hcan
  exact ⟨hcan.1.1, hcan.2, (Option.some.inj heq).symm⟩

theorem of_step_contextPoolHandler {slot : Slot}
    (h : step m s (.contextPoolHandler slot) = some t) :
    s.fetched slot = true ∧ t = s.perform (contextPoolHandler m slot) fun _ s ↦
      { s with fetched := Function.update s.fetched slot false } := by
  obtain ⟨hfetched, heq⟩ := Option.ite_none_right_eq_some.mp (of_step h).2
  exact ⟨hfetched, (Option.some.inj heq).symm⟩

theorem of_step_dumpContextArray {queue : Option UInt64}
    (h : step m s (.dumpContextArray queue) = some t) :
    (∀ (key : UInt32) (entry : ContextEntry), s.tool.contextArray[key]? = some entry →
      entry.valid = true) ∧ t = s.perform (dumpContextArrayRound m queue) fun _ s ↦ s := by
  obtain ⟨hvalid, heq⟩ := Option.ite_none_right_eq_some.mp (of_step h).2
  rw [List.all_eq_true] at hvalid
  refine ⟨fun key entry hentry ↦ hvalid (key, entry) ?_, (Option.some.inj heq).symm⟩
  exact Std.TreeMap.mem_toList_iff_getElem?_eq_some.mpr hentry

/-- **An event changes the tool by the call that it is**, and by nothing else. -/
theorem tool_of_step {event : Event} (h : step m s event = some t) :
    t.tool = s.toolAfter m event := by
  cases event with
  | dispatch callbackData =>
    obtain ⟨-, rfl⟩ := of_step_dispatch h
    exact System.tool_perform fun index _ ↦ by cases index <;> rfl
  | fill index context currTime =>
    obtain ⟨callbackData, hdispatching, rfl⟩ := of_step_fill h
    rw [System.toolAfter, hdispatching]
    exact System.tool_perform fun _ _ ↦ rfl
  | dispatchOpt callbackData number context =>
    obtain ⟨-, rfl⟩ := of_step_dispatchOpt h
    exact System.tool_perform fun _ _ ↦ rfl
  | complete r written =>
    obtain ⟨record, -, -, -, rfl⟩ := of_step_complete h
    rfl
  | contextHandler index =>
    obtain ⟨-, -, rfl⟩ := of_step_contextHandler h
    exact System.tool_perform fun _ _ ↦ rfl
  | contextPoolHandler slot =>
    obtain ⟨-, rfl⟩ := of_step_contextPoolHandler h
    exact System.tool_perform fun _ _ ↦ rfl
  | dumpContextArray queue =>
    obtain ⟨-, rfl⟩ := of_step_dumpContextArray h
    exact System.tool_perform fun _ _ ↦ rfl

/-- There are fewer than `2 ^ 32` dispatches. -/
theorem contextCount_of_step_dispatch {callbackData : CallbackData}
    (h : step m s (.dispatch callbackData) = some t) :
    s.tool.contextCount.toNat + 1 < 2 ^ 32 := by
  have hcan := (of_step_dispatch h).1
  rw [System.canDispatch, Bool.and_eq_true, Bool.and_eq_true, decide_eq_true_eq] at hcan
  exact hcan.1.1

end Step

end Version1
