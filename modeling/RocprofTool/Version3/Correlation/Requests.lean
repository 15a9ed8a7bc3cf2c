import RocprofTool.Lib.UnorderedMap
import RocprofTool.Output

/-!
# External correlation ids

The library asks for an external correlation id when a kernel is dispatched, memory is copied or
allocated, or a function of HIP is called, and gives the id back in the record of what was asked
for.  The tool has two things to put in it, the region that the kernel is renamed after and the
stream that is current, so that it allocates a `kernel_rename_and_stream_data` and hands out its
address.  `get_stream_id` takes such an object apart again, deletes it, and leaves the region in the
place of the address: pointer and integer are members of one union.

The records differ in what they hold besides the correlation id.  Here that is of a type `β`, and
the casts of a payload to the type that its kind stands for are left to those who look into it.
-/

set_option autoImplicit false

open Tool

namespace Version3.Correlation

/-! ## Requests -/

/-- `rocprofiler_external_correlation_id_request_kind_t`. -/
inductive RequestKind
  | kernelDispatch
  | memoryCopy
  | memoryAllocation
  | hipRuntimeApi
  | other (id : ℕ)
  deriving DecidableEq, Repr

/-- `external_corr_id_request_kinds`: what `tool_init` wants to be asked for. -/
def externalCorrIdRequestKinds : List RequestKind :=
  [.kernelDispatch, .memoryCopy, .memoryAllocation, .hipRuntimeApi]

/-- `kernel_rename_and_stream_data`. -/
structure KernelRenameAndStreamData where
  regionId : UInt64 := 0
  streamId : UInt64 := 0
  deriving DecidableEq, Repr

/-- What the callbacks of a thread do to `tool::metadata`, whose states are of type `μ`. -/
structure Metadata (μ : Type) where
  /-- Takes the message and the correlation id, and returns what the kernels are renamed after. -/
  addKernelRenameVal : List Char → UInt64 → μ → UInt64 × μ
  addMarkerMessage : UInt64 → List Char → μ → μ
  addExternalCorrelationId : UInt64 → μ → μ

/-- A metadata that renames a kernel after the correlation id of its region. -/
def renameById : Metadata Unit where
  addKernelRenameVal _ id _ := (id, ())
  addMarkerMessage _ _ _ := ()
  addExternalCorrelationId _ _ := ()

/-- `set_kernel_rename_and_stream_correlation_id`, on a thread with this `thread_dispatch_rename`,
where `none` is the null pointer, and this current stream, where `none` is that there is no stack of
streams.  It answers `1`, which is `none`, or hands out an object. -/
def setKernelRenameAndStreamCorrelationId {μ : Type} (metadata : Metadata μ) (kind : RequestKind)
    (threadDispatchRename : Option (List UInt64)) (stream : Option UInt64) (toolMetadata : μ) :
    Option KernelRenameAndStreamData × μ :=
  let kernelRenameServiceEnabled :=
    kind == .kernelDispatch && threadDispatchRename.any fun stack ↦ !stack.isEmpty
  let hipStreamEnabled := stream.isSome
  if !kernelRenameServiceEnabled && !hipStreamEnabled then (none, toolMetadata)
  else
    let info : KernelRenameAndStreamData := {}
    let (info, toolMetadata) :=
      if kernelRenameServiceEnabled then
        let info := { info with regionId := (threadDispatchRename.getD []).headD 0 }
        (info, metadata.addExternalCorrelationId info.regionId toolMetadata)
      else (info, toolMetadata)
    let info :=
      match stream with
      | none => info
      | some streamId => { info with streamId }
    (some info, toolMetadata)

/-- The region that a request stands for: the top of the stack of the thread, for a kernel. -/
def regionOf (kind : RequestKind) (threadDispatchRename : Option (List UInt64)) : UInt64 :=
  match kind, threadDispatchRename with
  | .kernelDispatch, some (region :: _) => region
  | _, _ => 0

variable {μ : Type} {metadata : Metadata μ} {kind : RequestKind}
  {threadDispatchRename : Option (List UInt64)} {stream : Option UInt64} {toolMetadata : μ}

/-- The request is answered `1` when there is nothing to hand out. -/
theorem regionOf_of_set_eq_none
    (h : (setKernelRenameAndStreamCorrelationId metadata kind threadDispatchRename stream
      toolMetadata).1 = none) : regionOf kind threadDispatchRename = 0 ∧ stream = none := by
  cases stream with
  | some streamId => simp [setKernelRenameAndStreamCorrelationId] at h
  | none =>
    refine ⟨?_, rfl⟩
    rcases threadDispatchRename with _ | _ | ⟨region, stack⟩
    · cases kind <;> rfl
    · cases kind <;> rfl
    · cases kind with
      | kernelDispatch => simp [setKernelRenameAndStreamCorrelationId] at h
      | _ => rfl

/-- **What is handed out**: the region and the stream of the moment. -/
theorem set_eq_some {info : KernelRenameAndStreamData}
    (h : (setKernelRenameAndStreamCorrelationId metadata kind threadDispatchRename stream
      toolMetadata).1 = some info) :
    info = ⟨regionOf kind threadDispatchRename, stream.getD 0⟩ := by
  rcases threadDispatchRename with _ | _ | ⟨region, stack⟩ <;> rcases stream with _ | streamId <;>
    cases kind <;>
    simp_all [setKernelRenameAndStreamCorrelationId, regionOf]

/-! ## Records -/

/-- `rocprofiler_correlation_id_t`.  `external` is the union, an address or an integer. -/
structure CorrelationId where
  internal : UInt64
  external : UInt64
  deriving DecidableEq, Repr

/-- A record of the library. -/
structure BufferRecord (β : Type) where
  correlationId : CorrelationId
  body : β
  deriving DecidableEq, Repr

/-- The kinds of `ROCPROFILER_BUFFER_CATEGORY_TRACING`. -/
inductive BufferTracingKind
  | kernelDispatch
  | hsaCoreApi
  | hsaAmdExtApi
  | hsaImageExtApi
  | hsaFinalizeExtApi
  | memoryCopy
  | memoryAllocation
  | scratchMemory
  | hipRuntimeApiExt
  | hipCompilerApiExt
  | rcclApi
  | rocdecodeApiExt
  | rocjpegApi
  | other (id : ℕ)
  deriving DecidableEq, Repr

/-- `rocprofiler_record_header_t`; the category is `ROCPROFILER_BUFFER_CATEGORY_TRACING` or not. -/
structure Header (β : Type) where
  tracing : Bool
  kind : BufferTracingKind
  payload : BufferRecord β
  deriving DecidableEq, Repr

/-- `tool_counter_record_t`, with the values that are written for it. -/
structure CounterRecord (β : Type) where
  streamId : UInt64
  dispatchData : BufferRecord β
  threadId : UInt64
  values : List (ℕ × ℕ)
  deriving DecidableEq, Repr

/-- What is written to the ring buffers. -/
inductive Written (β : Type)
  /-- A record as it is. -/
  | record (domain : DomainType) (record : BufferRecord β)
  /-- A record with the stream. -/
  | extended (domain : DomainType) (record : BufferRecord β) (streamId : UInt64)
  | counters (record : CounterRecord β)
  deriving DecidableEq, Repr

/-! ## The callbacks for records -/

/-- The objects that have been allocated and what has been done to them.  An object has an address
and, to tell it from an older one at the same address, the number of its request. -/
structure Memory where
  cells : UMap UInt64 (ℕ × KernelRenameAndStreamData) := .empty
  reads : List ℕ := []
  deletes : List ℕ := []

/-- The memory and the ring buffers, in the order in which they are written. -/
structure Store (β : Type) where
  memory : Memory := {}
  ringBuffer : List (Written β) := []

variable {β : Type}

/-- `get_stream_id`: the stream, the record and the memory as they are then.  To read or to delete
what is not there is undefined, and `none`. -/
def getStreamId (record : BufferRecord β) (memory : Memory) :
    Option (UInt64 × BufferRecord β × Memory) :=
  if record.correlationId.external ≠ 0 then
    match memory.cells record.correlationId.external with
    | none => none
    | some (object, ecidData) =>
      let memory :=
        { cells := Function.update memory.cells record.correlationId.external none
          reads := memory.reads ++ [object]
          deletes := memory.deletes ++ [object] }
      some (ecidData.streamId,
        { record with
          correlationId := { record.correlationId with external := ecidData.regionId } },
        memory)
  else some (0, record, memory)

/-- `write_ring_buffer`. -/
def writeRingBuffer (written : Written β) (store : Store β) : Store β :=
  { store with ringBuffer := store.ringBuffer ++ [written] }

/-- A branch of `buffered_tracing_callback` that writes the record as it is. -/
def writeRecord (domain : DomainType) (record : BufferRecord β) (store : Store β) :
    Option (Store β) :=
  some (writeRingBuffer (.record domain record) store)

/-- A branch of `buffered_tracing_callback` that writes the record with its stream. -/
def writeExtended (domain : DomainType) (record : BufferRecord β) (store : Store β) :
    Option (Store β) := do
  let (streamId, record, memory) ← getStreamId record store.memory
  return writeRingBuffer (.extended domain record streamId) { store with memory }

/-- The body of the loop of `buffered_tracing_callback`. -/
def traceHeader (store : Store β) (header : Header β) : Option (Store β) :=
  if header.tracing then
    match header.kind with
    | .kernelDispatch => writeExtended .kernelDispatch header.payload store
    | .hsaCoreApi | .hsaAmdExtApi | .hsaImageExtApi | .hsaFinalizeExtApi =>
      writeRecord .hsa header.payload store
    | .memoryCopy => writeExtended .memoryCopy header.payload store
    | .memoryAllocation => writeExtended .memoryAllocation header.payload store
    | .scratchMemory => writeRecord .scratchMemory header.payload store
    | .hipRuntimeApiExt | .hipCompilerApiExt => writeExtended .hip header.payload store
    | .rcclApi => writeRecord .rccl header.payload store
    | .rocdecodeApiExt => writeRecord .rocdecode header.payload store
    | .rocjpegApi => writeRecord .rocjpeg header.payload store
    | .other _ => some store
  else some store

/-- `buffered_tracing_callback`. -/
def bufferedTracingCallback (headers : Option (List (Header β))) (store : Store β) :
    Option (Store β) :=
  match headers with
  | none => some store
  | some headers => headers.foldlM traceHeader store

/-- `counter_record_callback`, with what `rocprofiler_query_record_counter_id` answers. -/
def counterRecordCallback (queryRecordCounterId : ℕ → ℕ) (dispatchData : BufferRecord β)
    (recordData : List (ℕ × ℕ)) (userData : UInt64) (store : Store β) : Option (Store β) := do
  let (streamId, dispatchData, memory) ← getStreamId dispatchData store.memory
  let serializedRecords := recordData.map fun record ↦ (queryRecordCounterId record.1, record.2)
  let store := { store with memory }
  if serializedRecords.isEmpty then return store
  return writeRingBuffer (.counters ⟨streamId, dispatchData, userData, serializedRecords⟩) store

end Version3.Correlation
