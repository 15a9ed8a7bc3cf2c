import RocprofTool.Version3.Markers.Records
import RocprofTool.Version3.Targets

/-!
# Callbacks after the tool is finalized

`tool_fini` runs the destructors, and one of them deletes `tool_metadata` and makes it null.  It
does not stop the contexts that `tool_init` has started besides the one for the recording, so that
their callbacks are still called after that.

Two of them look whether `tool_metadata` is null, `set_kernel_rename_and_stream_correlation_id` and
`runtime_initialization_callback`.  The second one says so in a message first, and that message
takes a name from `tool_metadata`.  `kernel_rename_callback` does not look at all, and
`code_object_tracing_callback` does with `CHECK_NOTNULL`, which ends the program.
`everywhere_noFault_iff` says which events the callbacks tolerate.

## The model

A callback returns, or ends the program with a `Fault`.  What the library is called for can fail,
and `ROCPROFILER_CALL` ends the program then; the stacks of the streams are of the library's, and
calls for them return.  Messages are logged or not, by their levels, and are made only when they are
logged; `ROCP_CI_LOG` is fatal in some builds.
-/

set_option autoImplicit false

open Runs Tool Version3.Correlation Version3.Markers

namespace Version3.Lifecycle.Finalized

/-! ## Records -/

/-- `ROCPROFILER_CALLBACK_TRACING_HIP_STREAM`. -/
def hipStream : CallbackTracingKind := .other 1

/-- `ROCPROFILER_CALLBACK_TRACING_RUNTIME_INITIALIZATION`. -/
def runtimeInitialization : CallbackTracingKind := .other 2

/-- `ROCPROFILER_CALLBACK_TRACING_CODE_OBJECT`. -/
def codeObjectKind : CallbackTracingKind := .other 3

/-- The operations on streams. -/
inductive StreamOperation
  | create
  | destroy
  | set
  | other (id : ℕ)
  deriving DecidableEq, Repr

/-- A record of an operation on a stream. -/
structure StreamRecord where
  kind : CallbackTracingKind := hipStream
  operation : StreamOperation
  phase : Phase
  streamId : UInt64
  deriving DecidableEq, Repr

/-- A record of the initialization of a runtime. -/
structure RuntimeRecord where
  kind : CallbackTracingKind := runtimeInitialization
  operation : ℕ
  deriving DecidableEq, Repr

/-- The phases of a code object. -/
inductive CodeObjectPhase
  | load
  | unload
  | other
  deriving DecidableEq, Repr

/-- Where a code object is stored. -/
inductive StorageType
  | file
  | memory
  | other
  deriving DecidableEq, Repr

/-- `rocprofiler_code_object_info_t`. -/
structure CodeObjectInfo where
  codeObjectId : UInt64
  rocpAgent : UInt64
  storageType : StorageType
  loadBase : UInt64
  loadSize : UInt64
  deriving DecidableEq, Repr

/-- `rocprofiler_kernel_symbol_info_t`. -/
structure KernelSymbol where
  kernelId : KernelId
  kernelName : String
  deriving DecidableEq, Repr

/-- The operations on code objects, with the payloads of their records. -/
inductive CodeObjectOperation
  | load (info : CodeObjectInfo)
  | deviceKernelSymbolRegister (symbol : KernelSymbol)
  | hostKernelSymbolRegister (hostFunction : ℕ)
  | other (id : ℕ)
  deriving DecidableEq, Repr

/-- A record of an operation on a code object. -/
structure CodeObjectRecord where
  kind : CallbackTracingKind := codeObjectKind
  operation : CodeObjectOperation
  phase : CodeObjectPhase
  deriving DecidableEq, Repr

/-! ## The tool -/

/-- What ends the program. -/
inductive Fault
  | nullDereference
  /-- `CHECK_NOTNULL`, `ROCP_FATAL` and `ROCPROFILER_CALL`. -/
  | fatal
  /-- An exception that nobody catches. -/
  | exception
  deriving DecidableEq, Repr

/-- Which messages are logged, and whether `ROCP_CI_LOG` is fatal. -/
structure Logging where
  info : Bool
  warning : Bool
  ci : Bool
  deriving DecidableEq, Repr

/-- `tool::metadata`, with what these callbacks do to it. -/
structure ToolMetadata (μ : Type) extends Metadata μ where
  addRuntimeInitialization : ℕ → μ → μ
  addCodeObject : CodeObjectInfo → μ → μ
  addDecoder : CodeObjectInfo → μ → μ
  /-- The name of an agent in `agents_map`, which has to be there. -/
  agentName : UInt64 → μ → Option String
  /-- `code_object_load`, for the file that a code object is written to. -/
  pushCodeObjectLoad : String → CodeObjectInfo → μ → μ
  /-- Answers whether the symbol is new. -/
  addKernelSymbol : KernelSymbol → μ → Bool × μ
  formattedKernelName : KernelId → μ → String
  addHostFunction : ℕ → μ → Bool × μ

/-- The stack of streams of a thread, of the library; `current` is `none` when there is none. -/
structure Streams (σ : Type) where
  push : UInt64 → σ → σ
  pop : σ → σ
  current : σ → Option UInt64

/-- The part of the configuration that says which kernels are targeted. -/
structure KernelFilter where
  kernelFilterInclude : String
  kernelFilterExclude : String
  kernelFilterRange : Finset ℕ

/-- What is the same throughout a run. -/
structure Environment (μ σ : Type) where
  cfg : Config
  filter : KernelFilter
  logging : Logging
  metadata : ToolMetadata μ
  streams : Streams σ
  convertKind : CallbackTracingKind → ℕ
  /-- `regex_search`. -/
  regexSearch : String → String → Bool
  /-- `get_output_filename`, for a file of thread traces. -/
  outputFilename : String → String

/-- What the callbacks read and write. -/
structure ToolState (μ σ : Type) where
  /-- `none` is the null pointer. -/
  toolMetadata : Option μ
  /-- `_first` of `tool_fini`. -/
  first : Bool := true
  /-- `thread_dispatch_rename` of each thread. -/
  renameStacks : ℕ → Option (List UInt64) := fun _ ↦ some []
  streams : ℕ → σ
  targetKernels : TargetedKernelsMap := fun _ ↦ none
  /-- The `user_data` of the calls that control the profiler, and the records of the markers. -/
  tracing : State Unit := State.start ()

variable {μ σ : Type}

/-- Use `tool_metadata`, which must not be null. -/
def useMetadata {α : Type} (fault : Fault) (f : μ → α × μ) (s : ToolState μ σ) :
    Except Fault (α × ToolState μ σ) :=
  match s.toolMetadata with
  | none => .error fault
  | some metadata => .ok ((f metadata).1, { s with toolMetadata := some (f metadata).2 })

/-- `ROCP_CI_LOG` for a message that takes the name of an operation from `tool_metadata`. -/
def ciLog (logging : Logging) (logged : Bool) (s : ToolState μ σ) :
    Except Fault (ToolState μ σ) :=
  if logged || logging.ci then do
    let (_, s) ← useMetadata .nullDereference (fun metadata ↦ ((), metadata)) s
    if logging.ci then throw .fatal
    pure s
  else pure s

/-- Push what the kernels are renamed after. -/
def pushMessage (env : Environment μ σ) (thread : ℕ) (record : Record) (message : List Char)
    (stack : List UInt64) (s : ToolState μ σ) : Except Fault (ToolState μ σ) := do
  let (region, s) ← useMetadata .nullDereference
    (env.metadata.addKernelRenameVal message record.correlationId.internal) s
  pure { s with renameStacks := Function.update s.renameStacks thread (some (region :: stack)) }

/-- `kernel_rename_callback`, on a thread. -/
def kernelRenameCallback (env : Environment μ σ) (thread : ℕ) (record : Record)
    (s : ToolState μ σ) : Except Fault (ToolState μ σ) :=
  match s.renameStacks thread with
  | none => .ok s
  | some stack =>
    if record.kind = .markerCoreRangeApi then
      match record.operation, record.phase, record.message with
      | .roctxMarkA, .exit, some message => pushMessage env thread record message stack s
      | .roctxThreadRangeA, .enter, some message => pushMessage env thread record message stack s
      | .roctxThreadRangeA, .exit, _ =>
        match stack with
        | [] => .error .fatal
        | _ :: stack =>
          .ok { s with renameStacks := Function.update s.renameStacks thread (some stack) }
      | _, _, _ => .ok s
    else ciLog env.logging env.logging.info s

/-- `hip_stream_display_callback`, on a thread. -/
def hipStreamDisplayCallback (env : Environment μ σ) (thread : ℕ) (record : StreamRecord)
    (s : ToolState μ σ) : Except Fault (ToolState μ σ) :=
  if record.kind ≠ hipStream then .ok s
  else
    match record.operation, record.phase with
    | .create, _ | .destroy, _ => .ok s
    | .set, .enter => .ok { s with
        streams := Function.update s.streams thread
          (env.streams.push record.streamId (s.streams thread)) }
    | .set, .exit => .ok { s with
        streams := Function.update s.streams thread (env.streams.pop (s.streams thread)) }
    | .set, .none => .ok s
    | .other _, _ => .error .fatal

/-- `runtime_initialization_callback`. -/
def runtimeInitializationCallback (env : Environment μ σ) (record : RuntimeRecord)
    (s : ToolState μ σ) : Except Fault (ToolState μ σ) :=
  if record.kind ≠ runtimeInitialization then .ok s
  else do
    let s ← if s.toolMetadata.isNone then ciLog env.logging env.logging.warning s else pure s
    pure { s with
      toolMetadata := s.toolMetadata.map (env.metadata.addRuntimeInitialization record.operation) }

/-- A code object is written to a file, for the thread traces. -/
def writeCodeObject (env : Environment μ σ) (info : CodeObjectInfo) (s : ToolState μ σ) :
    Except Fault (ToolState μ σ) := do
  let (name, s) ← useMetadata .nullDereference
    (fun metadata ↦ (env.metadata.agentName info.rocpAgent metadata, metadata)) s
  match name with
  | none => throw .exception
  | some gpuName =>
    let filename := s!"{gpuName}_code_object_id_{info.codeObjectId}"
    let (_, s) ← useMetadata .nullDereference
      (fun metadata ↦
        ((), env.metadata.pushCodeObjectLoad (env.outputFilename filename) info metadata)) s
    pure s

/-- A code object is loaded. -/
def loadCodeObject (env : Environment μ σ) (info : CodeObjectInfo) (s : ToolState μ σ) :
    Except Fault (ToolState μ σ) := do
  let (_, s) ← useMetadata .fatal (fun metadata ↦ ((), env.metadata.addCodeObject info metadata)) s
  let (_, s) ←
    if env.cfg.pcSamplingHostTrap || env.cfg.pcSamplingStochastic then
      useMetadata .fatal (fun metadata ↦ ((), env.metadata.addDecoder info metadata)) s
    else pure ((), s)
  if info.storageType ≠ .other && env.cfg.advancedThreadTrace then writeCodeObject env info s
  else pure s

/-- Is a kernel with this name targeted? -/
def targets (env : Environment μ σ) (name : String) : Bool :=
  env.regexSearch name env.filter.kernelFilterInclude &&
    (env.filter.kernelFilterExclude == "" || !env.regexSearch name env.filter.kernelFilterExclude)

/-- A kernel of a device is registered. -/
def registerKernel (env : Environment μ σ) (symbol : KernelSymbol) (s : ToolState μ σ) :
    Except Fault (ToolState μ σ) := do
  let (success, s) ← useMetadata .fatal (env.metadata.addKernelSymbol symbol) s
  if success then
    let (name, s) ← useMetadata .fatal
      (fun metadata ↦ (env.metadata.formattedKernelName symbol.kernelId metadata, metadata)) s
    if targets env name then
      pure { s with
        targetKernels :=
          (addKernelTarget s.targetKernels symbol.kernelId env.filter.kernelFilterRange).1 }
    else pure s
  else pure s

/-- `code_object_tracing_callback`.  The library's clock can fail, and so can the flush of a
buffer. -/
def codeObjectTracingCallback (env : Environment μ σ) (clock flushes : Bool)
    (record : CodeObjectRecord) (s : ToolState μ σ) : Except Fault (ToolState μ σ) :=
  if !clock then .error .fatal
  else if record.kind ≠ codeObjectKind then .ok s
  else
    match record.operation, record.phase with
    | .load info, .load => loadCodeObject env info s
    | .load _, .unload => if flushes then .ok s else .error .fatal
    | .deviceKernelSymbolRegister symbol, .load => registerKernel env symbol s
    | .hostKernelSymbolRegister hostFunction, .load => do
      let (_, s) ← useMetadata .fatal (env.metadata.addHostFunction hostFunction) s
      pure s
    | _, _ => .ok s

/-- `cntrl_tracing_callback`, with its context. -/
def controlCallback (env : Environment μ σ) (succeeds : Bool) (record : Record)
    (s : ToolState μ σ) : Except Fault (ToolState μ σ) :=
  match (cntrlTracingCallback env.convertKind true (fun _ ↦ succeeds) record s.tracing).2 with
  | none => .error .fatal
  | some tracing => .ok { s with tracing }

/-- `tool::metadata` for a callback that looks whether `tool_metadata` is null. -/
def guarded (metadata : Metadata μ) : Metadata (Option μ) where
  addKernelRenameVal message correlationId toolMetadata :=
    match toolMetadata with
    | none => (0, none)
    | some toolMetadata =>
      (metadata.addKernelRenameVal message correlationId toolMetadata).map id some
  addMarkerMessage correlationId message :=
    Option.map (metadata.addMarkerMessage correlationId message)
  addExternalCorrelationId correlationId :=
    Option.map (metadata.addExternalCorrelationId correlationId)

/-- `set_kernel_rename_and_stream_correlation_id`, on a thread; the object that it hands out is the
library's. -/
def correlationIdCallback (env : Environment μ σ) (thread : ℕ) (kind : RequestKind)
    (s : ToolState μ σ) : Except Fault (ToolState μ σ) :=
  .ok { s with
    toolMetadata := (setKernelRenameAndStreamCorrelationId (guarded env.metadata.toMetadata) kind
      (s.renameStacks thread) (env.streams.current (s.streams thread)) s.toolMetadata).2 }

/-! ## Runs -/

/-- What can happen: `tool_fini`, or a callback, with whether what it calls the library for
succeeds. -/
inductive Event
  | toolFini
  | kernelRename (thread : ℕ) (record : Record)
  | hipStreamDisplay (thread : ℕ) (record : StreamRecord)
  | runtimeInitialization (record : RuntimeRecord)
  | codeObject (clock flushes : Bool) (record : CodeObjectRecord)
  | control (succeeds : Bool) (record : Record)
  | correlationId (thread : ℕ) (kind : RequestKind)
  deriving DecidableEq, Repr

/-- `tool_fini`, which does something the first time only. -/
def toolFini (s : ToolState μ σ) : ToolState μ σ :=
  if s.first then { s with first := false, toolMetadata := none } else s

/-- What is called for an event. -/
def handle (env : Environment μ σ) (s : ToolState μ σ) : Event → Except Fault (ToolState μ σ)
  | .toolFini => .ok (toolFini s)
  | .kernelRename thread record => kernelRenameCallback env thread record s
  | .hipStreamDisplay thread record => hipStreamDisplayCallback env thread record s
  | .runtimeInitialization record => runtimeInitializationCallback env record s
  | .codeObject clock flushes record => codeObjectTracingCallback env clock flushes record s
  | .control succeeds record => controlCallback env succeeds record s
  | .correlationId thread kind => correlationIdCallback env thread kind s

/-- The tool, and how the program has ended after `tool_fini`, if it has. -/
structure System (μ σ : Type) where
  tool : ToolState μ σ
  fault : Option Fault := none

/-- One event.  This is about what happens after `tool_fini`; a program that ends before is left
out. -/
def step (env : Environment μ σ) (s : System μ σ) (event : Event) : Option (System μ σ) :=
  if s.fault.isSome then none
  else
    match handle env s.tool event with
    | .ok tool => some { s with tool }
    | .error fault => if s.tool.first then none else some { s with fault := some fault }

/-- One of the operations that are added to `tool_metadata`. -/
def CodeObjectRecord.adds (record : CodeObjectRecord) : Bool :=
  record.kind = codeObjectKind && record.phase = .load &&
    match record.operation with
    | .other _ => false
    | _ => true

/-- A code object is unloaded. -/
def CodeObjectRecord.unloads (record : CodeObjectRecord) : Bool :=
  record.kind = codeObjectKind && record.phase = .unload &&
    match record.operation with
    | .load _ => true
    | _ => false

/-- An operation that the callback does not know. -/
def StreamRecord.unsupported (record : StreamRecord) : Bool :=
  record.kind = hipStream &&
    match record.operation with
    | .other _ => true
    | _ => false

/-- **What the callbacks tolerate** without `tool_metadata`. -/
def tolerates (env : Environment μ σ) (s : ToolState μ σ) : Event → Bool
  | .toolFini => true
  | .kernelRename thread record =>
    (s.renameStacks thread).all fun stack ↦
      !record.pushes && !(record.pops && stack.isEmpty) &&
        (record.kind = .markerCoreRangeApi || !(env.logging.info || env.logging.ci))
  | .hipStreamDisplay _ record => !record.unsupported
  | .runtimeInitialization record =>
    record.kind ≠ runtimeInitialization || !(env.logging.warning || env.logging.ci)
  | .codeObject clock flushes record => clock && !record.adds && (flushes || !record.unloads)
  | .control succeeds record =>
    succeeds || record.kind ≠ markerControlApi || (contextCall record).isNone
  | .correlationId _ _ => true

/-! ## The callbacks with `tool_metadata` -/

variable {env : Environment μ σ} {s : ToolState μ σ} {record : Record} {thread : ℕ}

/-- **The callback for the names of kernels** does what it does on a thread of its own, as long as
`tool_metadata` is there. -/
theorem kernelRenameCallback_eq {metadata : μ} (hmetadata : s.toolMetadata = some metadata)
    (hkind : record.kind = .markerCoreRangeApi) :
    kernelRenameCallback env thread record s =
      match Markers.kernelRenameCallback env.metadata.toMetadata record
        { threadDispatchRename := s.renameStacks thread, toolMetadata := metadata } with
      | .ok t => .ok { s with
          toolMetadata := some t.toolMetadata
          renameStacks := Function.update s.renameStacks thread t.threadDispatchRename }
      | .error _ => .error .fatal := by
  have hsame : s = { s with
      toolMetadata := some metadata
      renameStacks := Function.update s.renameStacks thread (s.renameStacks thread) } := by
    rw [Function.update_eq_self, ← hmetadata]
  rw [kernelRenameCallback, Markers.kernelRenameCallback]
  dsimp only
  rcases hstack : s.renameStacks thread with _ | stack
  · rw [hstack] at hsame
    exact congrArg _ hsame
  · rw [hstack] at hsame
    simp only [if_pos hkind]
    have hpush : ∀ message, pushMessage env thread record message stack s = .ok { s with
        toolMetadata := some (env.metadata.addKernelRenameVal message
          record.correlationId.internal metadata).2
        renameStacks := Function.update s.renameStacks thread
          (some ((env.metadata.addKernelRenameVal message
            record.correlationId.internal metadata).1 :: stack)) } := by
      intro message
      simp only [pushMessage, useMetadata, hmetadata]
      rfl
    rcases record.operation with _ | _ | _ | _
    · rcases record.phase with _ | _ | _
      · exact congrArg _ hsame
      · exact congrArg _ hsame
      · rcases record.message with _ | message
        · exact congrArg _ hsame
        · exact hpush message
    · rcases record.phase with _ | _ | _
      · exact congrArg _ hsame
      · rcases record.message with _ | message
        · exact congrArg _ hsame
        · exact hpush message
      · rcases stack with _ | ⟨region, stack⟩
        · rfl
        · simp only [hmetadata]
    · exact congrArg _ hsame
    · exact congrArg _ hsame

/-! ## The callbacks without `tool_metadata` -/

/-- A callback returns. -/
def Returns {α : Type} (x : Except Fault α) : Prop := ∃ a, x = .ok a

theorem returns_ok {α : Type} (a : α) : Returns (.ok a) := ⟨a, rfl⟩

theorem not_returns_error {α : Type} (fault : Fault) :
    ¬Returns (.error fault : Except Fault α) := by
  rintro ⟨a, h⟩
  cases h

theorem useMetadata_null {α : Type} (fault : Fault) (f : μ → α × μ) (h : s.toolMetadata = none) :
    useMetadata fault f s = .error fault := by
  rw [useMetadata, h]

theorem returns_ciLog_iff (logged : Bool) (h : s.toolMetadata = none) :
    Returns (ciLog env.logging logged s) ↔ !(logged || env.logging.ci) := by
  rw [ciLog]
  rcases hlogged : logged || env.logging.ci with _ | _
  · exact iff_of_true (returns_ok s) rfl
  · rw [if_pos rfl, useMetadata_null _ _ h]
    exact iff_of_false (not_returns_error _) Bool.false_ne_true

theorem pushMessage_null (message : List Char) (stack : List UInt64) (h : s.toolMetadata = none) :
    pushMessage env thread record message stack s = .error .nullDereference := by
  rw [pushMessage, useMetadata_null _ _ h]
  rfl

/-- `kernel_rename_callback` neither pushes nor pops too much, nor logs something. -/
theorem returns_kernelRename_iff (h : s.toolMetadata = none) :
    Returns (kernelRenameCallback env thread record s) ↔
      tolerates env s (.kernelRename thread record) = true := by
  rw [kernelRenameCallback, tolerates]
  rcases s.renameStacks thread with _ | stack
  · exact iff_of_true (returns_ok s) rfl
  rw [Option.all_some]
  by_cases hkind : record.kind = .markerCoreRangeApi
  swap
  · simp only [Record.pushes, Record.pops, hkind, decide_false, Bool.false_and,
      Bool.not_false, Bool.true_and, Bool.false_or]
    exact returns_ciLog_iff _ h
  simp only [Record.pushes, Record.pops, hkind, decide_true, Bool.true_and,
    Bool.true_or, Bool.and_true]
  rcases record.operation with _ | _ | _ | _ <;> rcases record.phase with _ | _ | _ <;>
    rcases hmessage : record.message with _ | message <;>
    rcases stack with _ | ⟨region, stack⟩ <;>
    simp [pushMessage_null _ _ h, not_returns_error, returns_ok]

theorem returns_hipStreamDisplay_iff {record : StreamRecord} :
    Returns (hipStreamDisplayCallback env thread record s) ↔
      tolerates env s (.hipStreamDisplay thread record) = true := by
  rw [hipStreamDisplayCallback, tolerates, StreamRecord.unsupported]
  by_cases hkind : record.kind = hipStream
  swap
  · rw [if_pos hkind]
    exact iff_of_true (returns_ok s) (by simp [hkind])
  rw [if_neg (not_not.mpr hkind)]
  rcases record.operation with _ | _ | _ | id
  · exact iff_of_true (returns_ok _) (by simp)
  · exact iff_of_true (returns_ok _) (by simp)
  · refine iff_of_true ?_ (by simp)
    rcases record.phase with _ | _ | _ <;> exact returns_ok _
  · exact iff_of_false (not_returns_error _) (by simp [hkind])

/-- The message of `runtime_initialization_callback` takes a name from `tool_metadata`. -/
theorem returns_runtimeInitialization_iff {record : RuntimeRecord} (h : s.toolMetadata = none) :
    Returns (runtimeInitializationCallback env record s) ↔
      tolerates env s (.runtimeInitialization record) = true := by
  rw [runtimeInitializationCallback, tolerates]
  by_cases hkind : record.kind = runtimeInitialization
  swap
  · rw [if_pos hkind]
    exact iff_of_true (returns_ok s) (by simp [hkind])
  have hlog : tolerates env s (.runtimeInitialization record) = true ↔
      Returns (ciLog env.logging env.logging.warning s) := by
    rw [returns_ciLog_iff _ h, tolerates]
    simp [hkind]
  rw [tolerates] at hlog
  rw [if_neg (not_not.mpr hkind), h, Option.isNone_none, if_pos rfl, hlog]
  rcases ciLog env.logging env.logging.warning s with fault | t
  · exact iff_of_false (not_returns_error fault) (not_returns_error fault)
  · exact iff_of_true (returns_ok _) (returns_ok t)

/-- What is added to `tool_metadata` is added with `CHECK_NOTNULL`. -/
theorem returns_codeObject_iff {clock flushes : Bool} {record : CodeObjectRecord}
    (h : s.toolMetadata = none) :
    Returns (codeObjectTracingCallback env clock flushes record s) ↔
      tolerates env s (.codeObject clock flushes record) = true := by
  rw [codeObjectTracingCallback, tolerates, CodeObjectRecord.adds, CodeObjectRecord.unloads]
  rcases clock with _ | _
  · exact iff_of_false (not_returns_error _) Bool.false_ne_true
  by_cases hkind : record.kind = codeObjectKind
  swap
  · simp [hkind, returns_ok]
  have hload : ∀ info, loadCodeObject env info s = .error .fatal := by
    intro info
    rw [loadCodeObject, useMetadata_null _ _ h]
    rfl
  have hregister : ∀ symbol, registerKernel env symbol s = .error .fatal := by
    intro symbol
    rw [registerKernel, useMetadata_null _ _ h]
    rfl
  rcases record.operation with info | symbol | hostFunction | id <;>
    rcases record.phase with _ | _ | _ <;> rcases flushes with _ | _ <;>
    simp [hkind, hload, hregister, useMetadata_null _ _ h, returns_ok, not_returns_error]

theorem returns_control_iff {succeeds : Bool} :
    Returns (controlCallback env succeeds record s) ↔
      tolerates env s (.control succeeds record) = true := by
  rw [controlCallback, cntrlTracingCallback, tolerates]
  by_cases hkind : record.kind = markerControlApi
  swap
  · rw [if_neg fun h ↦ hkind h.2]
    exact iff_of_true (returns_ok _) (by simp [hkind])
  rw [if_pos ⟨rfl, hkind⟩]
  rcases contextCall record with _ | call
  · exact iff_of_true (returns_ok _) (by simp)
  · rcases succeeds with _ | _
    · exact iff_of_false (not_returns_error _) (by simp [hkind])
    · exact iff_of_true (returns_ok _) rfl

/-- **When a callback returns without `tool_metadata`.** -/
theorem returns_handle_iff (h : s.toolMetadata = none) (event : Event) :
    Returns (handle env s event) ↔ tolerates env s event = true := by
  cases event with
  | toolFini => exact iff_of_true (returns_ok _) rfl
  | kernelRename thread record => exact returns_kernelRename_iff h
  | hipStreamDisplay thread record => exact returns_hipStreamDisplay_iff
  | runtimeInitialization record => exact returns_runtimeInitialization_iff h
  | codeObject clock flushes record => exact returns_codeObject_iff h
  | control succeeds record => exact returns_control_iff
  | correlationId thread kind => exact iff_of_true (returns_ok _) rfl

/-! ## What a callback leaves behind -/

/-- `tool_fini` has not been called in between, and `tool_metadata` stays null. -/
structure Keeps (s t : ToolState μ σ) : Prop where
  first : t.first = s.first
  null : s.toolMetadata = none → t.toolMetadata = none

theorem Keeps.rfl : Keeps s s := ⟨by rfl, id⟩

theorem Keeps.trans {t u : ToolState μ σ} (h : Keeps s t) (h' : Keeps t u) : Keeps s u :=
  ⟨h'.first.trans h.first, h'.null ∘ h.null⟩

/-- What a computation returns, if it does. -/
def Post {α : Type} (Q : α → Prop) (x : Except Fault α) : Prop := ∀ a, x = .ok a → Q a

theorem post_ok {α : Type} {Q : α → Prop} {a : α} (h : Q a) : Post Q (.ok a) := by
  rintro _ ⟨⟩
  exact h

theorem post_error {α : Type} {Q : α → Prop} (fault : Fault) : Post Q (.error fault) := by
  rintro _ ⟨⟩

theorem Post.bind {α β : Type} {P : α → Prop} {Q : β → Prop} {x : Except Fault α}
    {f : α → Except Fault β} (hx : Post P x) (hf : ∀ a, P a → Post Q (f a)) : Post Q (x >>= f) := by
  rcases x with fault | a
  · exact post_error fault
  · exact hf a (hx a rfl)

theorem post_useMetadata {α : Type} (fault : Fault) (f : μ → α × μ) :
    Post (fun p ↦ Keeps s p.2) (useMetadata fault f s) := by
  rw [useMetadata]
  rcases h : s.toolMetadata with _ | metadata
  · exact post_error fault
  · exact post_ok ⟨rfl, fun hnull ↦ absurd (h.symm.trans hnull) (Option.some_ne_none metadata)⟩

theorem post_ciLog (logging : Logging) (logged : Bool) :
    Post (Keeps s) (ciLog logging logged s) := by
  rw [ciLog]
  split_ifs with hlog hci
  · exact (post_useMetadata _ _).bind fun _ _ ↦ post_error _
  · exact (post_useMetadata _ _).bind fun _ h ↦ post_ok h
  · exact post_ok .rfl

theorem post_kernelRename (env : Environment μ σ) (thread : ℕ) (record : Record) :
    Post (Keeps s) (kernelRenameCallback env thread record s) := by
  have hpush : ∀ message stack, Post (Keeps s) (pushMessage env thread record message stack s) :=
    fun message stack ↦ (post_useMetadata _ _).bind fun _ h ↦ post_ok ⟨h.first, h.null⟩
  rw [kernelRenameCallback]
  rcases s.renameStacks thread with _ | stack
  · exact post_ok .rfl
  dsimp only
  split_ifs
  · split
    · exact hpush _ _
    · exact hpush _ _
    · rcases stack with _ | ⟨region, stack⟩
      · exact post_error _
      · exact post_ok ⟨rfl, id⟩
    · exact post_ok .rfl
  · exact post_ciLog _ _

theorem post_hipStreamDisplay (env : Environment μ σ) (thread : ℕ) (record : StreamRecord) :
    Post (Keeps s) (hipStreamDisplayCallback env thread record s) := by
  rw [hipStreamDisplayCallback]
  split_ifs
  · exact post_ok .rfl
  · split
    · exact post_ok .rfl
    · exact post_ok .rfl
    · exact post_ok ⟨rfl, id⟩
    · exact post_ok ⟨rfl, id⟩
    · exact post_ok .rfl
    · exact post_error _

theorem post_runtimeInitialization (env : Environment μ σ) (record : RuntimeRecord) :
    Post (Keeps s) (runtimeInitializationCallback env record s) := by
  rw [runtimeInitializationCallback]
  split_ifs
  · exact post_ok .rfl
  · refine (post_ciLog _ _).bind fun t h ↦ post_ok ⟨h.first, fun hnull ↦ ?_⟩
    rw [h.null hnull, Option.map_none]
  · refine post_ok ⟨rfl, fun hnull ↦ ?_⟩
    rw [hnull, Option.map_none]

theorem post_loadCodeObject (env : Environment μ σ) (info : CodeObjectInfo) :
    Post (Keeps s) (loadCodeObject env info s) := by
  have hwrite : ∀ t : ToolState μ σ, Post (Keeps t) (writeCodeObject env info t) := by
    intro t
    refine (post_useMetadata _ _).bind fun ⟨name, u⟩ h ↦ ?_
    rcases name with _ | name
    · exact post_error _
    · exact (post_useMetadata _ _).bind fun _ h' ↦ post_ok (h.trans h')
  have hrest : ∀ u, Keeps s u → Post (Keeps s)
      (if info.storageType ≠ .other && env.cfg.advancedThreadTrace then writeCodeObject env info u
        else pure u) := by
    intro u hu
    split_ifs
    · exact fun v hv ↦ hu.trans (hwrite u v hv)
    · exact post_ok hu
  refine (post_useMetadata _ _).bind fun ⟨_, t⟩ h ↦ ?_
  dsimp only
  by_cases hdecoder : (env.cfg.pcSamplingHostTrap || env.cfg.pcSamplingStochastic) = true
  · rw [if_pos hdecoder]
    exact (post_useMetadata _ _).bind fun ⟨_, u⟩ h' ↦ hrest u (h.trans h')
  · rw [if_neg hdecoder]
    exact hrest t h

theorem post_registerKernel (env : Environment μ σ) (symbol : KernelSymbol) :
    Post (Keeps s) (registerKernel env symbol s) := by
  refine (post_useMetadata _ _).bind fun ⟨success, t⟩ h ↦ ?_
  dsimp only
  split_ifs
  · refine (post_useMetadata _ _).bind fun ⟨name, u⟩ h' ↦ ?_
    dsimp only
    split_ifs
    · exact post_ok ⟨(h.trans h').first, (h.trans h').null⟩
    · exact post_ok (h.trans h')
  · exact post_ok h

theorem post_codeObject (env : Environment μ σ) (clock flushes : Bool)
    (record : CodeObjectRecord) :
    Post (Keeps s) (codeObjectTracingCallback env clock flushes record s) := by
  rw [codeObjectTracingCallback]
  rcases clock with _ | _
  · exact post_error _
  rw [if_neg (by simp)]
  by_cases hkind : record.kind ≠ codeObjectKind
  · rw [if_pos hkind]
    exact post_ok .rfl
  rw [if_neg hkind]
  split
  · exact post_loadCodeObject env _
  · rcases flushes with _ | _
    · exact post_error _
    · exact post_ok .rfl
  · exact post_registerKernel env _
  · exact (post_useMetadata _ _).bind fun _ h ↦ post_ok h
  · exact post_ok .rfl

theorem post_control (env : Environment μ σ) (succeeds : Bool) (record : Record) :
    Post (Keeps s) (controlCallback env succeeds record s) := by
  rw [controlCallback]
  split
  · exact post_error _
  · exact post_ok ⟨rfl, id⟩

/-- A callback that looks whether `tool_metadata` is null does not change that. -/
theorem set_guarded_null (metadata : Metadata μ) (kind : RequestKind)
    (threadDispatchRename : Option (List UInt64)) (stream : Option UInt64) :
    (setKernelRenameAndStreamCorrelationId (guarded metadata) kind threadDispatchRename stream
      none).2 = none := by
  rw [setKernelRenameAndStreamCorrelationId]
  dsimp only
  split_ifs <;> rfl

/-- When it has been `tool_fini`'s turn, `tool_metadata` is null. -/
def NullAfterFini (s : ToolState μ σ) : Prop := s.first = false → s.toolMetadata = none

theorem Keeps.nullAfterFini {t : ToolState μ σ} (h : Keeps s t) (hs : NullAfterFini s) :
    NullAfterFini t := by
  intro hfirst
  rw [h.first] at hfirst
  exact h.null (hs hfirst)

theorem post_handle (env : Environment μ σ) (hs : NullAfterFini s) (event : Event) :
    Post NullAfterFini (handle env s event) := by
  have hkeeps : ∀ {x : Except Fault (ToolState μ σ)}, Post (Keeps s) x → Post NullAfterFini x :=
    fun hx t ht ↦ (hx t ht).nullAfterFini hs
  cases event with
  | toolFini =>
    refine post_ok ?_
    rw [toolFini]
    split_ifs
    · exact fun _ ↦ rfl
    · exact hs
  | kernelRename thread record => exact hkeeps (post_kernelRename env thread record)
  | hipStreamDisplay thread record => exact hkeeps (post_hipStreamDisplay env thread record)
  | runtimeInitialization record => exact hkeeps (post_runtimeInitialization env record)
  | codeObject clock flushes record => exact hkeeps (post_codeObject env clock flushes record)
  | control succeeds record => exact hkeeps (post_control env succeeds record)
  | correlationId thread kind =>
    refine hkeeps (post_ok ⟨rfl, fun hnull ↦ ?_⟩)
    rw [hnull]
    exact set_guarded_null _ _ _ _

/-! ## Runs -/

theorem step_of_noFault {u : System μ σ} (hu : u.fault = none) (event : Event) :
    step env u event =
      match handle env u.tool event with
      | .ok tool => some { u with tool }
      | .error fault => if u.tool.first then none else some { u with fault := some fault } := by
  rw [step, hu, if_neg (by simp)]

/-- A step ends the program or not. -/
theorem noFault_step_iff {u v : System μ σ} {event : Event} (hu : NullAfterFini u.tool)
    (hfault : u.fault = none) (h : step env u event = some v) :
    v.fault = none ↔ (u.tool.first || tolerates env u.tool event) = true := by
  rw [step_of_noFault hfault] at h
  rcases hfirst : u.tool.first with _ | _
  · rw [Bool.false_or, ← returns_handle_iff (hu hfirst) event]
    rcases hhandle : handle env u.tool event with fault | tool
    · rw [hhandle, hfirst] at h
      cases h
      exact iff_of_false (Option.some_ne_none fault) (not_returns_error fault)
    · rw [hhandle] at h
      cases h
      exact iff_of_true hfault (returns_ok tool)
  · refine iff_of_true ?_ rfl
    rcases hhandle : handle env u.tool event with fault | tool
    · rw [hhandle, hfirst] at h
      cases h
    · rw [hhandle] at h
      cases h
      exact hfault

theorem nullAfterFini_step {u v : System μ σ} {event : Event} (hu : NullAfterFini u.tool)
    (h : step env u event = some v) : NullAfterFini v.tool := by
  obtain ⟨-, h⟩ := Option.ite_none_left_eq_some.mp h
  rcases hhandle : handle env u.tool event with fault | tool
  · rw [hhandle] at h
    obtain ⟨-, h⟩ := Option.ite_none_left_eq_some.mp h
    cases h
    exact hu
  · rw [hhandle] at h
    cases h
    exact post_handle env hu event tool hhandle

/-- **Exactly when the callbacks get through** after `tool_fini`, in a run in which it is called at
any time: when each event after it is one that they tolerate. -/
theorem everywhere_noFault_iff {tool : ToolState μ σ} {events : List Event} {t : System μ σ}
    (hfirst : tool.first = true) (h : run (step env) { tool } events = some t) :
    Everywhere (step env) { tool } (fun u ↦ u.fault = none) events ↔
      Along (step env) { tool }
        (fun u event ↦ (u.tool.first || tolerates env u.tool event) = true) events := by
  have hstart : NullAfterFini tool := fun hfalse ↦ absurd (hfirst.symm.trans hfalse) (by decide)
  exact everywhere_iff_along (I := fun u ↦ NullAfterFini u.tool) (P := fun u ↦ u.fault = none)
    hstart (fun _ _ _ hu hv ↦ nullAfterFini_step hu hv) rfl
    (fun _ _ _ hu hfault hv ↦ noFault_step_iff hu hfault hv) h

/-! ## A program that goes on -/

/-- Names are ids, nothing is remembered, and the messages that are logged are warnings. -/
def warningsLogged : Environment Unit (List UInt64) where
  cfg := {}
  filter := ⟨"", "", ∅⟩
  logging := ⟨false, true, false⟩
  metadata := { renameById with
    addRuntimeInitialization _ _ := ()
    addCodeObject _ _ := ()
    addDecoder _ _ := ()
    agentName _ _ := none
    pushCodeObjectLoad _ _ _ := ()
    addKernelSymbol _ _ := (true, ())
    formattedKernelName _ _ := ""
    addHostFunction _ _ := (true, ()) }
  streams := ⟨List.cons, List.tail, List.head?⟩
  convertKind _ := 0
  regexSearch _ _ := false
  outputFilename := id

/-- The tool after `tool_init`. -/
def initialized : ToolState Unit (List UInt64) where
  toolMetadata := some ()
  streams _ := []

/-- A mark with a message. -/
def markRecord : Record :=
  { operation := .roctxMarkA, phase := .exit, correlationId := ⟨1, 0⟩
    message := some "converged".toList }

/-- **After `tool_fini`**, a mark and the initialization of a runtime dereference the null pointer,
and a code object that is loaded ends the program. -/
theorem faults_after_fini :
    (run (step warningsLogged) { tool := initialized } [.toolFini, .kernelRename 0 markRecord]).map
        System.fault = some (some .nullDereference) ∧
      (run (step warningsLogged) { tool := initialized }
        [.toolFini, .runtimeInitialization { operation := 1 }]).map System.fault
        = some (some .nullDereference) ∧
      (run (step warningsLogged) { tool := initialized }
        [.toolFini, .codeObject true true ⟨codeObjectKind, .load ⟨1, 0, .memory, 0, 0⟩, .load⟩]).map
        System.fault = some (some .fatal) :=
  ⟨rfl, rfl, rfl⟩

/-- A mark before `tool_fini`, and a stream, a code object that is unloaded and a request for a
correlation id after it. -/
theorem noFault_after_fini :
    Everywhere (step warningsLogged) { tool := initialized } (fun u ↦ u.fault = none)
      [.kernelRename 0 markRecord, .toolFini, .hipStreamDisplay 0 ⟨hipStream, .set, .enter, 7⟩,
        .codeObject true true ⟨codeObjectKind, .load ⟨1, 0, .memory, 0, 0⟩, .unload⟩,
        .correlationId 0 .kernelDispatch] := by
  have hrun : run (step warningsLogged) { tool := initialized }
      [.kernelRename 0 markRecord, .toolFini, .hipStreamDisplay 0 ⟨hipStream, .set, .enter, 7⟩,
        .codeObject true true ⟨codeObjectKind, .load ⟨1, 0, .memory, 0, 0⟩, .unload⟩,
        .correlationId 0 .kernelDispatch] = some _ := rfl
  exact (everywhere_noFault_iff rfl hrun).mpr (along_of_checkAlong rfl)

end Version3.Lifecycle.Finalized
