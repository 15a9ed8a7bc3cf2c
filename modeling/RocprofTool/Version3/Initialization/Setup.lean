import RocprofTool.Config
import RocprofTool.Version3.ThreadTrace.Agents

/-!
# Setting up the services

`tool_init` is called once, and makes everything ready that the rest of the tool reacts to: it
creates the contexts, configures the services for them, creates a buffer for each group of buffered
services with a thread that delivers it, and starts the contexts.  What it has to do depends on
nearly every option of the configuration.

The model is the list of the calls of the library that it makes, in order, with the variables of the
tool that they write.  The handles that the library gives out are a parameter (`Handles`); a call
that fails would end the program (`ROCPROFILER_CALL`), so that the calls up to there are a prefix of
the ones here.

* `toolInit` is the whole of it, `flush` the buffers that the tool asks for in the end.
* What is shown about it is in `RocprofTool.Version3.Initialization.Buffers` and
  `RocprofTool.Version3.Initialization.Services`.

The connection to LDMS, the target for the kernel id of zero, the identifiers of the process and the
logging are left out.
-/

set_option autoImplicit false

open Version3.CounterGroups Version3.ThreadTrace Tool

namespace Version3.Initialization

/-! ## Names -/

/-- `rocprofiler_context_id_t`; zero is `null_context_id`. -/
abbrev ContextId := ℕ

/-- `rocprofiler_buffer_id_t`; zero is `null_buffer_id`. -/
abbrev BufferId := ℕ

/-- `rocprofiler_callback_thread_t`. -/
abbrev CallbackThread := ℕ

/-- The members of `buffer_ids`. -/
inductive BufferName
  | hsaApiTrace
  | hipApiTrace
  | kernelTrace
  | memoryCopyTrace
  | memoryAllocationTrace
  | counterCollection
  | scratchMemory
  | rcclApiTrace
  | pcSamplingHostTrap
  | rocdecodeApiTrace
  | rocjpegApiTrace
  | pcSamplingStochastic
  deriving DecidableEq, Repr

/-- `buffer_ids::as_array`. -/
def asArray : List BufferName :=
  [.hsaApiTrace, .hipApiTrace, .kernelTrace, .memoryCopyTrace, .memoryAllocationTrace,
    .counterCollection, .scratchMemory, .rcclApiTrace, .pcSamplingHostTrap, .rocdecodeApiTrace,
    .rocjpegApiTrace, .pcSamplingStochastic]

/-- `buffer_ids::pc_sampling_buffers_as_array`. -/
def pcSamplingBuffersAsArray : List BufferName := [.pcSamplingHostTrap, .pcSamplingStochastic]

/-- `rocprofiler_buffer_tracing_kind_t`, those that are used. -/
inductive BufferTracingKind
  | kernelDispatch
  | memoryCopy
  | scratchMemory
  | hsaCoreApi
  | hsaAmdExtApi
  | hsaImageExtApi
  | hsaFinalizeExtApi
  | hipRuntimeApiExt
  | hipCompilerApiExt
  | rcclApi
  | memoryAllocation
  | rocdecodeApiExt
  | rocjpegApi
  deriving DecidableEq, Repr

/-- `rocprofiler_callback_tracing_kind_t`, those that are used. -/
inductive CallbackTracingKind
  | codeObject
  | markerCoreRangeApi
  | markerControlApi
  | hipStream
  | runtimeInitialization
  | kernelDispatch
  | memoryCopy
  | scratchMemory
  | hsaCoreApi
  | hsaAmdExtApi
  | hsaImageExtApi
  | hsaFinalizeExtApi
  | hipRuntimeApi
  | hipCompilerApi
  | rcclApi
  | memoryAllocation
  | rocdecodeApi
  | rocjpegApi
  deriving DecidableEq, Repr

/-- The functions of the tool that the library calls. -/
inductive Callback
  | codeObjectTracing
  | cntrlTracing
  | kernelRename
  | hipStreamDisplay
  | callbackTracing
  | bufferedTracing
  | pcSampling
  | attDispatch
  | attShaderData
  | counterDispatch
  | counterRecord
  | attDispatchConsecutiveKernel
  | runtimeInitialization
  | dummyCallbackTracing
  | dummyBufferedTracing
  | dummyCounterDispatch
  | dummyCounterRecord
  | setKernelRenameAndStreamCorrelationId
  | recordExecutionProfile
  deriving DecidableEq, Repr

/-- `tracing_callbacks_t`.  The members that a constructor does not mention are null. -/
structure TracingCallbacks where
  codeObjectTracing : Option Callback := none
  cntrlTracing : Option Callback := none
  kernelRename : Option Callback := none
  hipStream : Option Callback := none
  callbackTracing : Option Callback := none
  bufferedTracing : Option Callback := none
  pcSampling : Option Callback := none
  attDispatch : Option Callback := none
  attShaderData : Option Callback := none
  counterDispatch : Option Callback := none
  counterRecord : Option Callback := none
  attDispatchConsecutiveKernel : Option Callback := none
  deriving DecidableEq, Repr

/-- `tracing_callbacks_t{use_real_callbacks}`. -/
def useRealCallbacks : TracingCallbacks where
  codeObjectTracing := some .codeObjectTracing
  cntrlTracing := some .cntrlTracing
  kernelRename := some .kernelRename
  hipStream := some .hipStreamDisplay
  callbackTracing := some .callbackTracing
  bufferedTracing := some .bufferedTracing
  pcSampling := some .pcSampling
  attDispatch := some .attDispatch
  attShaderData := some .attShaderData
  counterDispatch := some .counterDispatch
  counterRecord := some .counterRecord
  attDispatchConsecutiveKernel := some .attDispatchConsecutiveKernel

/-- `tracing_callbacks_t{use_dummy_callbacks}`, which has no callbacks for the thread trace. -/
def useDummyCallbacks : TracingCallbacks where
  codeObjectTracing := some .dummyCallbackTracing
  cntrlTracing := some .dummyCallbackTracing
  kernelRename := some .dummyCallbackTracing
  hipStream := some .dummyCallbackTracing
  callbackTracing := some .dummyCallbackTracing
  bufferedTracing := some .dummyBufferedTracing
  pcSampling := some .dummyBufferedTracing
  counterDispatch := some .dummyCounterDispatch
  counterRecord := some .dummyCounterRecord

/-- `get_tracing_callbacks`. -/
def getTracingCallbacks (cfg : Config) : TracingCallbacks :=
  if cfg.benchmarkMode = .sdkBufferedOverhead ∨ cfg.benchmarkMode = .sdkCallbackOverhead ∨
      cfg.benchmarkMode = .executionProfile then useDummyCallbacks
  else useRealCallbacks

/-! ## The calls -/

/-- `rocprofiler_external_correlation_id_request_kind_t`, those that are used. -/
inductive RequestKind
  | kernelDispatch
  | memoryCopy
  | memoryAllocation
  | hipRuntimeApi
  deriving DecidableEq, Repr

/-- `rocprofiler_pc_sampling_method_t`. -/
inductive PcSamplingMethod
  | stochastic
  | hostTrap
  deriving DecidableEq, Repr

/-- What the sampling is asked for, and what an agent can do. -/
structure PcSamplingConfig where
  method : PcSamplingMethod
  /-- A value of `rocprofiler_pc_sampling_unit_t`. -/
  unit : ℕ
  minInterval : UInt64
  maxInterval : UInt64
  deriving DecidableEq, Repr

/-- The calls of the library, with the thread of the collection periods. -/
inductive Call
  | createContext (context : ContextId)
  | createBuffer (context : ContextId) (callback : Option Callback) (buffer : BufferId)
  | createCallbackThread (thread : CallbackThread)
  | assignCallbackThread (buffer : BufferId) (thread : CallbackThread)
  /-- The operations are markers; none are all of them. -/
  | configureCallbackTracing (context : ContextId) (kind : CallbackTracingKind)
      (operations : List String) (callback : Option Callback)
  | configureBufferTracing (context : ContextId) (kind : BufferTracingKind) (buffer : BufferId)
  | configureThreadTrace (context : ContextId) (configured : Agents.Configured)
      (dispatchCallback shaderCallback : Option Callback)
  | configureCounting (context : ContextId) (dispatchCallback recordCallback : Option Callback)
  /-- No kinds are all of them. -/
  | configureExternalCorrelation (context : ContextId) (kinds : List RequestKind)
      (callback : Callback)
  | configurePcSampling (context : ContextId) (agent : AgentId) (method : PcSamplingMethod)
      (unit : ℕ) (interval : UInt64) (buffer : BufferId)
  | startContext (context : ContextId)
  | collectionPeriodCntrl (context : ContextId)
  deriving DecidableEq, Repr

/-- How `tool_init` can end the program. -/
inductive Failure
  | threadTrace (failure : Agents.Failure)
  /-- The sampling is not supported on any of the agents. -/
  | exitFailure
  deriving DecidableEq, Repr

/-- The handles that the library gives out, one after the other: they are different, and none of
them is null. -/
structure Handles where
  context : ℕ → ContextId
  buffer : ℕ → BufferId
  thread : ℕ → CallbackThread
  context_injective : Function.Injective context
  context_ne_zero : ∀ n, context n ≠ 0
  buffer_injective : Function.Injective buffer
  buffer_ne_zero : ∀ n, buffer n ≠ 0
  thread_injective : Function.Injective thread

/-- What `tool_init` depends on. -/
structure Environment where
  handles : Handles
  cfg : Config
  att : Agents.AttConfig
  attGpuIndex : Finset UInt64
  agentCounterInfo : UMap AgentId (List CounterInfo)
  agentsMap : Agents.AgentsMap
  /-- `get_gpu_agents`. -/
  gpuAgents : List AgentId
  gpuAgents_nodup : gpuAgents.Nodup
  /-- `get_pc_sample_config_info`. -/
  pcSampleConfigInfo : AgentId → List PcSamplingConfig
  pcSamplingMethodValue : PcSamplingMethod
  pcSamplingUnitValue : ℕ
  pcSamplingInterval : UInt64
  selectedRegions : Bool
  /-- `!collection_periods.empty()`. -/
  hasCollectionPeriods : Bool

/-- The calls that have been made, how many handles have been given out, and the variables of the
tool that have them. -/
structure Setup where
  contexts : ℕ := 0
  buffers : ℕ := 0
  threads : ℕ := 0
  bufferIds : BufferName → BufferId := fun _ ↦ 0
  clientCtx : ContextId := 0
  counterCollectionCtx : ContextId := 0
  attDeviceContext : ContextId := 0
  calls : List Call := []

def Setup.call (s : Setup) (call : Call) : Setup := { s with calls := s.calls ++ [call] }

def Setup.callAll (s : Setup) (calls : List Call) : Setup := { s with calls := s.calls ++ calls }

/-! ## The parts of `tool_init` -/

section Parts

variable (env : Environment) (s : Setup)

/-- The handle of the context that is created next. -/
def Setup.nextContext : ContextId := env.handles.context s.contexts

/-- `rocprofiler_create_context`. -/
def Setup.createContext : Setup :=
  { s with contexts := s.contexts + 1 }.call (.createContext (s.nextContext env))

/-- `rocprofiler_create_buffer` for the client context. -/
def Setup.createBuffer (callback : Option Callback) (name : BufferName) : Setup :=
  { s with
    buffers := s.buffers + 1
    bufferIds := Function.update s.bufferIds name (env.handles.buffer s.buffers) }.call
    (.createBuffer s.clientCtx callback (env.handles.buffer s.buffers))

/-- A callback thread is created, and assigned to the buffer. -/
def Setup.assignThread (name : BufferName) : Setup :=
  { s with threads := s.threads + 1 }.callAll
    [.createCallbackThread (env.handles.thread s.threads),
      .assignCallbackThread (s.bufferIds name) (env.handles.thread s.threads)]

/-- The lambda `start_context`. -/
def Setup.startContext (context : ContextId) : Setup :=
  if env.cfg.benchmarkMode ≠ .disabledContextsOverhead ∧ context ≠ 0 then
    (if env.cfg.benchmarkMode = .executionProfile then
      s.call (.configureExternalCorrelation context [] .recordExecutionProfile)
    else s).call (.startContext context)
  else s

/-- A context of its own for one service, which is started. -/
def Setup.ownContext (configure : ContextId → Call) : Setup :=
  ((s.createContext env).call (configure (s.nextContext env))).startContext env (s.nextContext env)

/-- The client context. -/
def Setup.client : Setup := { s.createContext env with clientCtx := s.nextContext env }

/-- The service for the code objects. -/
def Setup.codeObjects : Setup :=
  s.ownContext env fun context ↦ .configureCallbackTracing context .codeObject []
    (getTracingCallbacks env.cfg).codeObjectTracing

/-- The services for the markers. -/
def Setup.markers : Setup :=
  if env.cfg.markerApiTrace then
    (s.call (.configureCallbackTracing s.clientCtx .markerCoreRangeApi []
      (getTracingCallbacks env.cfg).callbackTracing)).ownContext env fun context ↦
        .configureCallbackTracing context .markerControlApi []
          (getTracingCallbacks env.cfg).cntrlTracing
  else s

/-- `buffer_service_config`. -/
structure BufferServiceConfig where
  option : Bool
  kind : BufferTracingKind
  buffer : BufferName
  deriving DecidableEq, Repr

/-- The list of the buffered services. -/
def bufferServices (cfg : Config) : List BufferServiceConfig :=
  [⟨cfg.kernelTrace, .kernelDispatch, .kernelTrace⟩,
    ⟨cfg.memoryCopyTrace, .memoryCopy, .memoryCopyTrace⟩,
    ⟨cfg.scratchMemoryTrace, .scratchMemory, .scratchMemory⟩,
    ⟨cfg.hsaCoreApiTrace, .hsaCoreApi, .hsaApiTrace⟩,
    ⟨cfg.hsaAmdExtApiTrace, .hsaAmdExtApi, .hsaApiTrace⟩,
    ⟨cfg.hsaImageExtApiTrace, .hsaImageExtApi, .hsaApiTrace⟩,
    ⟨cfg.hsaFinalizerExtApiTrace, .hsaFinalizeExtApi, .hsaApiTrace⟩,
    ⟨cfg.hipRuntimeApiTrace, .hipRuntimeApiExt, .hipApiTrace⟩,
    ⟨cfg.hipCompilerApiTrace, .hipCompilerApiExt, .hipApiTrace⟩,
    ⟨cfg.rcclApiTrace, .rcclApi, .rcclApiTrace⟩,
    ⟨cfg.memoryAllocationTrace, .memoryAllocation, .memoryAllocationTrace⟩,
    ⟨cfg.rocdecodeApiTrace, .rocdecodeApiExt, .rocdecodeApiTrace⟩,
    ⟨cfg.rocjpegApiTrace, .rocjpegApi, .rocjpegApiTrace⟩]

/-- The buffer of a service is created when there is none. -/
def Setup.ensureBuffer (name : BufferName) : Setup :=
  if s.bufferIds name = 0 then
    (s.createBuffer env (getTracingCallbacks env.cfg).bufferedTracing name).assignThread env name
  else s

/-- The round of the loop for a buffered service. -/
def Setup.bufferService (service : BufferServiceConfig) : Setup :=
  if service.option then
    if env.cfg.benchmarkMode = .sdkCallbackOverhead then s
    else
      let s := s.ensureBuffer env service.buffer
      s.call (.configureBufferTracing s.clientCtx service.kind (s.bufferIds service.buffer))
  else s

/-- `callback_service_config`, without the callback, which is the dummy for all of them. -/
structure CallbackServiceConfig where
  option : Bool
  kind : CallbackTracingKind
  deriving DecidableEq, Repr

/-- The list of the services with callbacks, which are configured to measure the library. -/
def callbackServices (cfg : Config) : List CallbackServiceConfig :=
  [⟨cfg.kernelTrace, .kernelDispatch⟩, ⟨cfg.memoryCopyTrace, .memoryCopy⟩,
    ⟨cfg.scratchMemoryTrace, .scratchMemory⟩, ⟨cfg.hsaCoreApiTrace, .hsaCoreApi⟩,
    ⟨cfg.hsaAmdExtApiTrace, .hsaAmdExtApi⟩, ⟨cfg.hsaImageExtApiTrace, .hsaImageExtApi⟩,
    ⟨cfg.hsaFinalizerExtApiTrace, .hsaFinalizeExtApi⟩, ⟨cfg.hipRuntimeApiTrace, .hipRuntimeApi⟩,
    ⟨cfg.hipCompilerApiTrace, .hipCompilerApi⟩, ⟨cfg.rcclApiTrace, .rcclApi⟩,
    ⟨cfg.memoryAllocationTrace, .memoryAllocation⟩, ⟨cfg.rocdecodeApiTrace, .rocdecodeApi⟩,
    ⟨cfg.rocjpegApiTrace, .rocjpegApi⟩]

/-- The round of the loop for a service with a callback. -/
def Setup.callbackService (service : CallbackServiceConfig) : Setup :=
  if service.option then
    if env.cfg.benchmarkMode ≠ .sdkCallbackOverhead then s
    else s.call (.configureCallbackTracing s.clientCtx service.kind [] (some .dummyCallbackTracing))
  else s

/-- The context for the device thread trace, and the service that counts the kernels. -/
def Setup.consecutiveKernels : Setup :=
  if env.att.attConsecutiveKernels ≥ 1 then
    { s.createContext env with attDeviceContext := s.nextContext env }.call
      (.configureCallbackTracing s.clientCtx .kernelDispatch []
        (getTracingCallbacks env.cfg).attDispatchConsecutiveKernel)
  else s

/-- The call for an agent whose thread is traced. -/
def Setup.threadTraceCall (configured : Agents.Configured) : Call :=
  let callbacks := getTracingCallbacks env.cfg
  match configured.service with
  | .dispatch =>
    .configureThreadTrace s.clientCtx configured callbacks.attDispatch callbacks.attShaderData
  | .device => .configureThreadTrace s.attDeviceContext configured none callbacks.attShaderData

/-- The part about the thread trace. -/
def Setup.advancedThreadTrace : Except Failure Setup :=
  if env.cfg.advancedThreadTrace then
    match Agents.configureThreadTrace env.att env.agentCounterInfo env.attGpuIndex
        env.agentsMap with
    | .error failure => .error (.threadTrace failure)
    | .ok selection =>
      let s := s.consecutiveKernels env
      .ok (s.callAll (selection.configured.map (s.threadTraceCall env)))
  else .ok s

/-- The counter collection. -/
def Setup.counterCollection : Setup :=
  if env.cfg.counterCollection then
    { s.ownContext env fun context ↦ .configureCounting context
        (getTracingCallbacks env.cfg).counterDispatch (getTracingCallbacks env.cfg).counterRecord
      with counterCollectionCtx := s.nextContext env }
  else s

/-- The service that kernels are renamed with. -/
def Setup.kernelRename : Setup :=
  s.ownContext env fun context ↦ .configureCallbackTracing context .markerCoreRangeApi
    ["roctxMarkA", "roctxThreadRangeA"] (getTracingCallbacks env.cfg).kernelRename

/-- The service for the streams. -/
def Setup.hipStream : Setup :=
  s.ownContext env fun context ↦ .configureCallbackTracing context .hipStream []
    (getTracingCallbacks env.cfg).hipStream

/-- The service that is called when a runtime is initialized. -/
def Setup.runtimeInitialization : Setup :=
  s.ownContext env fun context ↦ .configureCallbackTracing context .runtimeInitialization []
    (some .runtimeInitialization)

/-- The requests for external correlation ids. -/
def Setup.externalCorrelation : Setup :=
  if env.cfg.benchmarkMode ≠ .executionProfile then
    let s := s.call (.configureExternalCorrelation s.clientCtx
      [.kernelDispatch, .memoryCopy, .memoryAllocation, .hipRuntimeApi]
      .setKernelRenameAndStreamCorrelationId)
    if env.cfg.counterCollection then
      s.call (.configureExternalCorrelation s.counterCollectionCtx [.kernelDispatch]
        .setKernelRenameAndStreamCorrelationId)
    else s
  else s

/-- `if_pc_sample_config_match`, for what the configuration asks for. -/
def ifPcSampleConfigMatch (agent : AgentId) : Bool :=
  (env.pcSampleConfigInfo agent).any fun config ↦
    config.method == env.pcSamplingMethodValue && config.unit == env.pcSamplingUnitValue &&
      decide (config.minInterval ≤ env.pcSamplingInterval) &&
      decide (config.maxInterval ≥ env.pcSamplingInterval)

/-- The buffer for the method. -/
def pcSamplingBuffer : BufferName :=
  if env.pcSamplingMethodValue = .hostTrap then .pcSamplingHostTrap else .pcSamplingStochastic

/-- `configure_pc_sampling_on_all_agents`. -/
def Setup.configurePcSamplingOnAllAgents : Except Failure Setup :=
  let s := s.createBuffer env (getTracingCallbacks env.cfg).pcSampling (pcSamplingBuffer env)
  let agents := env.gpuAgents.filter (ifPcSampleConfigMatch env)
  if agents.isEmpty then .error .exitFailure
  else .ok (s.callAll (agents.map fun agent ↦
    .configurePcSampling s.clientCtx agent env.pcSamplingMethodValue env.pcSamplingUnitValue
      env.pcSamplingInterval (s.bufferIds (pcSamplingBuffer env))))

/-- The part about the sampling. -/
def Setup.pcSampling : Except Failure Setup :=
  if env.cfg.pcSamplingHostTrap then s.configurePcSamplingOnAllAgents env
  else if env.cfg.pcSamplingStochastic then s.configurePcSamplingOnAllAgents env
  else .ok s

/-- The round of the loop over the buffers for the sampling. -/
def Setup.pcSamplingThread (name : BufferName) : Setup :=
  if s.bufferIds name > 0 then s.assignThread env name else s

/-- How recording begins. -/
def Setup.record : Setup :=
  if env.cfg.benchmarkMode = .disabledContextsOverhead then s
  else if env.selectedRegions then s
  else if env.hasCollectionPeriods then s.call (.collectionPeriodCntrl s.clientCtx)
  else s.startContext env s.clientCtx

/-- The contexts that are there always, and the services for the markers. -/
def first : Setup := ((({} : Setup).client env).codeObjects env).markers env

/-- The loops over the services. -/
def tracing : Setup :=
  let s := (bufferServices env.cfg).foldl (Setup.bufferService env) (first env)
  (callbackServices env.cfg).foldl (Setup.callbackService env) s

/-- From the counter collection up to the sampling. -/
def Setup.observers : Setup :=
  ((((s.counterCollection env).kernelRename env).hipStream env).runtimeInitialization
    env).externalCorrelation env

end Parts

/-- `tool_init`. -/
def toolInit (env : Environment) : Except Failure Setup := do
  let s ← (tracing env).advancedThreadTrace env
  let s ← (s.observers env).pcSampling env
  let s := pcSamplingBuffersAsArray.foldl (Setup.pcSamplingThread env) s
  return s.record env

/-- When `tool_init` returns, so do its parts. -/
theorem exists_of_toolInit {env : Environment} {s : Setup} (h : toolInit env = .ok s) :
    ∃ t u, (tracing env).advancedThreadTrace env = .ok t ∧
      (t.observers env).pcSampling env = .ok u ∧
      s = (pcSamplingBuffersAsArray.foldl (Setup.pcSamplingThread env) u).record env := by
  rw [toolInit] at h
  rcases ht : (tracing env).advancedThreadTrace env with failure | t
  · rw [ht] at h
    cases h
  · rw [ht] at h
    change ((t.observers env).pcSampling env >>= fun u ↦ pure
      ((pcSamplingBuffersAsArray.foldl (Setup.pcSamplingThread env) u).record env)) = .ok s at h
    rcases hu : (t.observers env).pcSampling env with failure | u
    · rw [hu] at h
      cases h
    · rw [hu] at h
      cases h
      exact ⟨t, u, rfl, hu, rfl⟩

/-- `flush`: the buffers that are flushed. -/
def Setup.flush (s : Setup) : List BufferId :=
  (asArray.map s.bufferIds).filter fun buffer ↦ 0 < buffer

end Version3.Initialization
