import RocprofTool.Lib.Runs
import RocprofTool.Version3.Correlation.Requests

/-!
# From a request to its record

An object that a request allocates has to be found by the callback that gets the record, which runs
on another thread, in the meantime of which any number of other requests are made and other records
delivered; and the callback has to delete it, since no one else does.

A system has the requests that have been made, the records that have been delivered, and the memory
and the ring buffers in between.  What the library sees to is in `step`: it asks only for the kinds
that `tool_init` has configured, a record has the id that its own request handed out, or a null
pointer if that handed out nothing or nothing was requested, it is of the kind that was asked for,
and it is delivered once.  `new` takes any address that is not null and not in use, so that an
address can come back after its object has been deleted.

`ringBuffer_of_run` is the round trip: what is in the ring buffers is what the requests say.
-/

set_option autoImplicit false

open Runs

namespace Version3.Correlation

/-! ## The system -/

/-- A request: what was asked for, the stack and the stream of its thread at that time, what was
handed out and the external correlation id. -/
structure Request where
  kind : RequestKind
  threadDispatchRename : Option (List UInt64)
  stream : Option UInt64
  answer : Option KernelRenameAndStreamData
  external : UInt64
  deriving DecidableEq, Repr

/-- A record for `buffered_tracing_callback`, with the number of its request, if there was one. -/
structure HeaderDelivery (β : Type) where
  own : Option ℕ
  tracing : Bool
  kind : BufferTracingKind
  internal : UInt64
  body : β
  deriving DecidableEq, Repr

/-- A call of `counter_record_callback`, with the number of its request, if there was one. -/
structure CounterDelivery (β : Type) where
  own : Option ℕ
  internal : UInt64
  body : β
  recordData : List (ℕ × ℕ)
  userData : UInt64
  deriving DecidableEq, Repr

/-- What has been delivered. -/
inductive Delivery (β : Type)
  | header (d : HeaderDelivery β)
  | counters (d : CounterDelivery β)
  deriving DecidableEq, Repr

/-- The request that a delivery belongs to. -/
def Delivery.own {β : Type} : Delivery β → Option ℕ
  | .header d => d.own
  | .counters d => d.own

/-- The requests that deliveries belong to. -/
def owners {β : Type} (deliveries : List (Delivery β)) : List ℕ := deliveries.filterMap Delivery.own

/-- The library and the tool. -/
structure System (μ β : Type) where
  toolMetadata : μ
  requests : List Request := []
  deliveries : List (Delivery β) := []
  store : Store β := {}
  /-- A callback has read or deleted what was not there. -/
  failed : Bool := false

/-- What can happen. -/
inductive Event (β : Type)
  /-- A thread with this stack and this current stream makes a request; `address` is where `new`
  puts the object, if there is one. -/
  | request (kind : RequestKind) (threadDispatchRename : Option (List UInt64))
    (stream : Option UInt64) (address : UInt64)
  /-- `buffered_tracing_callback` is called. -/
  | buffered (headers : Option (List (HeaderDelivery β)))
  /-- `counter_record_callback` is called. -/
  | counters (d : CounterDelivery β)
  deriving DecidableEq, Repr

/-- The records that are made of what is asked for; those of `counter_record_callback` are made of
kernel dispatches, too. -/
def BufferTracingKind.isOf : BufferTracingKind → RequestKind → Bool
  | .kernelDispatch, .kernelDispatch => true
  | .memoryCopy, .memoryCopy => true
  | .memoryAllocation, .memoryAllocation => true
  | .hipRuntimeApiExt, .hipRuntimeApi => true
  | _, _ => false

/-- The record is one that can be made of its request. -/
def Delivery.fits {β : Type} (requests : List Request) (d : Delivery β) : Bool :=
  d.own.all fun i ↦ (requests[i]?).any fun request ↦
    match d with
    | .header d => d.tracing && d.kind.isOf request.kind
    | .counters _ => request.kind == .kernelDispatch

/-- The external correlation id in a record. -/
def externalOf (requests : List Request) (own : Option ℕ) : UInt64 :=
  (own.bind fun i ↦ requests[i]?).elim 0 Request.external

/-- The header for `buffered_tracing_callback`. -/
def HeaderDelivery.header {β : Type} (requests : List Request) (d : HeaderDelivery β) : Header β :=
  { tracing := d.tracing, kind := d.kind
    payload := ⟨⟨d.internal, externalOf requests d.own⟩, d.body⟩ }

/-- The library delivers records that fit to requests that none has been delivered for. -/
def System.canDeliver {μ β : Type} (s : System μ β) (ds : List (Delivery β)) : Bool :=
  ds.all (·.fits s.requests) && decide (owners (s.deliveries ++ ds)).Nodup

/-- After a callback. -/
def System.deliver {μ β : Type} (s : System μ β) (ds : List (Delivery β)) :
    Option (Store β) → System μ β
  | none => { s with failed := true }
  | some store => { s with store, deliveries := s.deliveries ++ ds }

/-- One event. -/
def step {μ β : Type} (metadata : Metadata μ) (queryRecordCounterId : ℕ → ℕ) (s : System μ β)
    (event : Event β) : Option (System μ β) :=
  if s.failed then none
  else
    match event with
    | .request kind threadDispatchRename stream address =>
      if kind ∈ externalCorrIdRequestKinds then
        match setKernelRenameAndStreamCorrelationId metadata kind threadDispatchRename stream
            s.toolMetadata with
        | (none, toolMetadata) =>
          some { s with
            toolMetadata
            requests := s.requests ++ [⟨kind, threadDispatchRename, stream, none, 0⟩] }
        | (some info, toolMetadata) =>
          if address ≠ 0 ∧ s.store.memory.cells address = none then
            some { s with
              toolMetadata
              requests := s.requests ++ [⟨kind, threadDispatchRename, stream, some info, address⟩]
              store.memory.cells :=
                s.store.memory.cells.assign address (s.requests.length, info) }
          else none
      else none
    | .buffered headers =>
      let ds := (headers.getD []).map .header
      if s.canDeliver ds then
        some (s.deliver ds (bufferedTracingCallback
          (headers.map (·.map (·.header s.requests))) s.store))
      else none
    | .counters d =>
      if s.canDeliver [.counters d] then
        some (s.deliver [.counters d] (counterRecordCallback queryRecordCounterId
          ⟨⟨d.internal, externalOf s.requests d.own⟩, d.body⟩ d.recordData d.userData s.store))
      else none

/-- Nothing has been requested. -/
def System.start {μ β : Type} (toolMetadata : μ) : System μ β := { toolMetadata }

/-! ## What should be written -/

/-- The region of the request of a record, and `0` if there was none. -/
def regionFor (requests : List Request) (own : Option ℕ) : UInt64 :=
  (own.bind fun i ↦ requests[i]?).elim 0 fun r ↦ regionOf r.kind r.threadDispatchRename

/-- The stream of the request of a record, and `0` if there was none. -/
def streamFor (requests : List Request) (own : Option ℕ) : UInt64 :=
  (own.bind fun i ↦ requests[i]?).elim 0 fun r ↦ r.stream.getD 0

/-- The buffer for the records of a kind, and whether they are written with the stream. -/
def BufferTracingKind.domain : BufferTracingKind → Option (Tool.DomainType × Bool)
  | .kernelDispatch => some (.kernelDispatch, true)
  | .memoryCopy => some (.memoryCopy, true)
  | .memoryAllocation => some (.memoryAllocation, true)
  | .hipRuntimeApiExt | .hipCompilerApiExt => some (.hip, true)
  | .hsaCoreApi | .hsaAmdExtApi | .hsaImageExtApi | .hsaFinalizeExtApi => some (.hsa, false)
  | .scratchMemory => some (.scratchMemory, false)
  | .rcclApi => some (.rccl, false)
  | .rocdecodeApiExt => some (.rocdecode, false)
  | .rocjpegApi => some (.rocjpeg, false)
  | .other _ => none

/-- What a record should be written as: with the region and the stream of its request. -/
def Delivery.expected {β : Type} (queryRecordCounterId : ℕ → ℕ) (requests : List Request) :
    Delivery β → Option (Written β)
  | .header d =>
    let record := ⟨⟨d.internal, regionFor requests d.own⟩, d.body⟩
    if d.tracing then
      d.kind.domain.map fun (domain, extended) ↦
        if extended then .extended domain record (streamFor requests d.own)
        else .record domain record
    else none
  | .counters d =>
    let values := d.recordData.map fun record ↦ (queryRecordCounterId record.1, record.2)
    if values.isEmpty then none
    else some (.counters ⟨streamFor requests d.own,
      ⟨⟨d.internal, regionFor requests d.own⟩, d.body⟩, d.userData, values⟩)

/-! ## One record -/

/-- A request has been answered with the region and the stream of its thread. -/
def Request.Answered (r : Request) : Prop :=
  match r.answer with
  | none => regionOf r.kind r.threadDispatchRename = 0 ∧ r.stream = none ∧ r.external = 0
  | some info => info = ⟨regionOf r.kind r.threadDispatchRename, r.stream.getD 0⟩ ∧ r.external ≠ 0

/-- The objects of the requests, when the records of some of them have been delivered: they are
there until then, and afterwards they have been read and deleted once. -/
structure Objects (requests : List Request) (delivered : List ℕ) (memory : Memory) : Prop where
  answered : ∀ (i : ℕ) (r : Request), requests[i]? = some r → r.Answered
  live : ∀ (i : ℕ) (r : Request), requests[i]? = some r → i ∉ delivered →
    ∀ info, r.answer = some info → memory.cells r.external = some (i, info)
  reads : ∀ (i : ℕ) (r : Request), requests[i]? = some r →
    memory.reads.count i = if r.answer.isSome ∧ i ∈ delivered then 1 else 0
  reads_lt : ∀ i ∈ memory.reads, i < requests.length
  deletes : memory.deletes = memory.reads

variable {β : Type} {requests : List Request} {delivered : List ℕ} {memory : Memory}

/-- Without a request there is no object to look at. -/
theorem getStreamId_of_null {record : BufferRecord β} (h : record.correlationId.external = 0) :
    getStreamId record memory = some (0, record, memory) := by
  rw [getStreamId, if_neg (not_not_intro h)]

/-- A request that was answered `1` counts as delivered or not. -/
theorem Objects.deliver_of_none (h : Objects requests delivered memory) {i : ℕ} {r : Request}
    (hr : requests[i]? = some r) (hnone : r.answer = none) :
    Objects requests (delivered ++ [i]) memory where
  answered := h.answered
  live j r' hr' hj info hinfo :=
    h.live j r' hr' (fun hmem ↦ hj (List.mem_append_left _ hmem)) info hinfo
  reads j r' hr' := by
    rw [h.reads j r' hr']
    by_cases hji : j = i
    · subst hji
      rw [hr] at hr'
      cases hr'
      simp [hnone]
    · simp [hji]
  reads_lt := h.reads_lt
  deletes := h.deletes

/-- The object of a request is read and deleted. -/
theorem Objects.deliver_of_some (h : Objects requests delivered memory) {i : ℕ} {r : Request}
    (hr : requests[i]? = some r) (hi : i ∉ delivered) {info : KernelRenameAndStreamData}
    (hinfo : r.answer = some info) :
    Objects requests (delivered ++ [i])
      { cells := Function.update memory.cells r.external none
        reads := memory.reads ++ [i], deletes := memory.deletes ++ [i] } where
  answered := h.answered
  live j r' hr' hj info' hinfo' := by
    rw [List.mem_append, List.mem_singleton, not_or] at hj
    have hlive := h.live j r' hr' hj.1 info' hinfo'
    have hne : r'.external ≠ r.external := by
      intro heq
      rw [heq, h.live i r hr hi info hinfo] at hlive
      cases hlive
      exact hj.2 rfl
    simp only [Function.update_of_ne hne]
    exact hlive
  reads j r' hr' := by
    simp only [List.count_append, h.reads j r' hr']
    by_cases hji : j = i
    · subst hji
      rw [hr] at hr'
      cases hr'
      simp [hinfo, hi]
    · simp [hji, Ne.symm hji]
  reads_lt j hj := by
    rcases List.mem_append.mp hj with hj | hj
    · exact h.reads_lt j hj
    · rw [List.mem_singleton.mp hj]
      exact (List.getElem?_eq_some_iff.mp hr).1
  deletes := by simp only [h.deletes]

/-- **`get_stream_id` on a record**: it finds the region and the stream of the request, and deletes
the object. -/
theorem Objects.exists_getStreamId (h : Objects requests delivered memory) {own : Option ℕ}
    (hown : ∀ i, own = some i → i < requests.length ∧ i ∉ delivered) (internal : UInt64)
    (body : β) :
    ∃ memory', getStreamId ⟨⟨internal, externalOf requests own⟩, body⟩ memory
        = some (streamFor requests own, ⟨⟨internal, regionFor requests own⟩, body⟩, memory') ∧
      Objects requests (delivered ++ own.toList) memory' := by
  rcases own with _ | i
  · exact ⟨memory, getStreamId_of_null rfl, by simpa using h⟩
  obtain ⟨hlt, hi⟩ := hown i rfl
  have hr : requests[i]? = some requests[i] := List.getElem?_eq_getElem hlt
  have hanswered := h.answered i _ hr
  cases hinfo : requests[i].answer with
  | none =>
    simp only [Request.Answered, hinfo] at hanswered
    obtain ⟨hregion, hstream, hexternal⟩ := hanswered
    refine ⟨memory, ?_, h.deliver_of_none hr hinfo⟩
    rw [getStreamId_of_null (by simp [externalOf, hr, hexternal])]
    simp [externalOf, streamFor, regionFor, hr, hregion, hstream, hexternal]
  | some info =>
    simp only [Request.Answered, hinfo] at hanswered
    obtain ⟨rfl, hexternal⟩ := hanswered
    refine ⟨_, ?_, h.deliver_of_some hr hi hinfo⟩
    simp [getStreamId, externalOf, streamFor, regionFor, hr, hexternal,
      h.live i _ hr hi _ hinfo]

/-! ## One callback -/

/-- A store in which the deliveries so far have been decoded. -/
structure Decoded (queryRecordCounterId : ℕ → ℕ) (requests : List Request)
    (deliveries : List (Delivery β)) (store : Store β) : Prop where
  objects : Objects requests (owners deliveries) store.memory
  ringBuffer : store.ringBuffer
    = deliveries.filterMap (·.expected queryRecordCounterId requests)

/-- A record that can be delivered next. -/
def Deliverable (requests : List Request) (deliveries : List (Delivery β)) (d : Delivery β) :
    Prop :=
  d.fits requests = true ∧ ∀ i, d.own = some i → i ∉ owners deliveries

variable {queryRecordCounterId : ℕ → ℕ} {deliveries : List (Delivery β)} {store : Store β}

theorem owners_append (ds ds' : List (Delivery β)) : owners (ds ++ ds') = owners ds ++ owners ds' :=
  List.filterMap_append

theorem owners_singleton (d : Delivery β) : owners [d] = d.own.toList := by
  cases h : d.own <;> simp [owners, h]

/-- A request of a record has been made. -/
theorem lt_of_fits {d : Delivery β} (h : d.fits requests = true) {i : ℕ} (hi : d.own = some i) :
    i < requests.length := by
  rw [Delivery.fits, hi, Option.all_some] at h
  by_contra hlt
  rw [List.getElem?_eq_none (Nat.le_of_not_lt hlt)] at h
  cases h

theorem Deliverable.own {d : Delivery β} (h : Deliverable requests deliveries d) :
    ∀ i, d.own = some i → i < requests.length ∧ i ∉ owners deliveries :=
  fun i hi ↦ ⟨lt_of_fits h.1 hi, h.2 i hi⟩

/-- The record of a request is written with its stream. -/
theorem isOf_domain {kind : BufferTracingKind} {requestKind : RequestKind}
    (h : kind.isOf requestKind = true) : ∃ domain, kind.domain = some (domain, true) := by
  cases kind <;> simp [BufferTracingKind.isOf] at h <;> exact ⟨_, rfl⟩

/-- Records that are not written with a stream have not been requested. -/
theorem own_of_fits {d : HeaderDelivery β} (h : (Delivery.header d).fits requests = true)
    (hplain : d.tracing = false ∨ ∀ domain, d.kind.domain ≠ some (domain, true)) :
    d.own = none := by
  rcases hown : d.own with _ | i
  · rfl
  have hlt := lt_of_fits h hown
  simp only [Delivery.fits, Delivery.own, hown, Option.all_some, List.getElem?_eq_getElem hlt,
    Option.any_some, Bool.and_eq_true] at h
  obtain ⟨domain, hdomain⟩ := isOf_domain h.2
  rcases hplain with hplain | hplain
  · rw [hplain] at h
    cases h.1
  · exact absurd hdomain (hplain domain)

/-- `traceHeader` in one equation. -/
theorem traceHeader_eq (header : Header β) :
    traceHeader store header =
      if header.tracing then
        match header.kind.domain with
        | none => some store
        | some (domain, true) => writeExtended domain header.payload store
        | some (domain, false) => writeRecord domain header.payload store
      else some store := by
  rcases header with ⟨tracing, kind, payload⟩
  cases kind <;> rfl

theorem Decoded.append {d : Delivery β} (h : Decoded queryRecordCounterId requests deliveries store)
    {store' : Store β} (hobjects : Objects requests (owners deliveries ++ d.own.toList)
      store'.memory)
    (hring : store'.ringBuffer
      = store.ringBuffer ++ (d.expected queryRecordCounterId requests).toList) :
    Decoded queryRecordCounterId requests (deliveries ++ [d]) store' where
  objects := by rwa [owners_append, owners_singleton]
  ringBuffer := by
    rw [hring, h.ringBuffer, List.filterMap_append, List.append_cancel_left_eq]
    cases hd : d.expected queryRecordCounterId requests <;> simp [hd]

/-- **One header**: it is written as its request says. -/
theorem Decoded.exists_traceHeader (h : Decoded queryRecordCounterId requests deliveries store)
    {d : HeaderDelivery β} (hd : Deliverable requests deliveries (.header d)) :
    ∃ store', traceHeader store (d.header requests) = some store' ∧
      Decoded queryRecordCounterId requests (deliveries ++ [.header d]) store' := by
  rw [traceHeader_eq]
  by_cases htracing : d.tracing = true
  swap
  · have hown := own_of_fits hd.1 (.inl (by simpa using htracing))
    refine ⟨store, if_neg htracing, h.append ?_ ?_⟩
    · simpa [Delivery.own, hown] using h.objects
    · simp [Delivery.expected, htracing]
  rw [if_pos (by exact htracing)]
  rcases hdomain : d.kind.domain with _ | ⟨domain, _ | _⟩
  · have hown := own_of_fits hd.1 (.inr (by simp [hdomain]))
    refine ⟨store, by simp [HeaderDelivery.header, hdomain], h.append ?_ ?_⟩
    · simpa [Delivery.own, hown] using h.objects
    · simp [Delivery.expected, htracing, hdomain]
  · have hown := own_of_fits hd.1 (.inr (by simp [hdomain]))
    refine ⟨_, by simp only [HeaderDelivery.header, hdomain]; rfl, h.append ?_ ?_⟩
    · simpa [Delivery.own, hown, writeRingBuffer] using h.objects
    · simp [Delivery.expected, htracing, hdomain, writeRingBuffer, hown, externalOf, regionFor]
  · obtain ⟨memory', hget, hobjects⟩ := h.objects.exists_getStreamId hd.own d.internal d.body
    refine ⟨writeRingBuffer (.extended domain ⟨⟨d.internal, regionFor requests d.own⟩, d.body⟩
      (streamFor requests d.own)) { store with memory := memory' }, ?_, h.append hobjects ?_⟩
    · simp only [HeaderDelivery.header, hdomain, writeExtended]
      rw [show externalOf requests d.own = externalOf requests (Delivery.header d).own from rfl,
        hget]
      rfl
    · simp [Delivery.expected, htracing, hdomain, writeRingBuffer]

/-- **The counters of a kernel**: they are written as the request says. -/
theorem Decoded.exists_counterRecordCallback
    (h : Decoded queryRecordCounterId requests deliveries store) {d : CounterDelivery β}
    (hd : Deliverable requests deliveries (.counters d)) :
    ∃ store', counterRecordCallback queryRecordCounterId
        ⟨⟨d.internal, externalOf requests d.own⟩, d.body⟩ d.recordData d.userData store
          = some store' ∧
      Decoded queryRecordCounterId requests (deliveries ++ [.counters d]) store' := by
  obtain ⟨memory', hget, hobjects⟩ := h.objects.exists_getStreamId hd.own d.internal d.body
  rw [show externalOf requests d.own = externalOf requests (Delivery.counters d).own from rfl]
  rw [counterRecordCallback, hget]
  rcases hdata : d.recordData with _ | ⟨record, records⟩
  · exact ⟨_, rfl, h.append hobjects (by simp [Delivery.expected, hdata])⟩
  · refine ⟨_, rfl, h.append hobjects ?_⟩
    simp [Delivery.expected, hdata, writeRingBuffer, Delivery.own]

/-! ## Runs -/

variable {μ : Type} {metadata : Metadata μ} {s t : System μ β}

theorem System.canDeliver_iff {ds : List (Delivery β)} :
    s.canDeliver ds = true ↔
      (∀ d ∈ ds, d.fits s.requests = true) ∧ (owners (s.deliveries ++ ds)).Nodup := by
  rw [System.canDeliver, Bool.and_eq_true, List.all_eq_true, decide_eq_true_eq]

/-- What is delivered next is deliverable. -/
theorem deliverable_of_nodup {d : Delivery β} {ds : List (Delivery β)}
    (hfits : d.fits requests = true) (hnodup : (owners (deliveries ++ d :: ds)).Nodup) :
    Deliverable requests deliveries d := by
  refine ⟨hfits, fun i hi hmem ↦ ?_⟩
  rw [owners_append, List.nodup_append] at hnodup
  exact hnodup.2.2 i hmem i (by simp [owners, hi]) rfl

/-- **`buffered_tracing_callback`**: all of the headers are written as their requests say. -/
theorem Decoded.exists_foldlM (h : Decoded queryRecordCounterId requests deliveries store)
    {ds : List (HeaderDelivery β)}
    (hfits : ∀ d ∈ ds, (Delivery.header d).fits requests = true)
    (hnodup : (owners (deliveries ++ ds.map .header)).Nodup) :
    ∃ store', (ds.map (·.header requests)).foldlM traceHeader store = some store' ∧
      Decoded queryRecordCounterId requests (deliveries ++ ds.map .header) store' := by
  induction ds generalizing deliveries store with
  | nil => exact ⟨store, rfl, by simpa using h⟩
  | cons d ds ih =>
    rw [List.map_cons] at hnodup
    obtain ⟨store₁, hstore₁, h₁⟩ := h.exists_traceHeader
      (deliverable_of_nodup (hfits d List.mem_cons_self) hnodup)
    rw [List.append_cons] at hnodup
    obtain ⟨store', hstore', h'⟩ := ih h₁ (fun e he ↦ hfits e (List.mem_cons_of_mem _ he)) hnodup
    refine ⟨store', ?_, by simpa using h'⟩
    rw [List.map_cons, List.foldlM_cons, hstore₁]
    exact hstore'

/-- The invariant: no callback has failed, and what has been delivered has been decoded. -/
structure Inv (queryRecordCounterId : ℕ → ℕ) (s : System μ β) : Prop where
  failed : s.failed = false
  decoded : Decoded queryRecordCounterId s.requests s.deliveries s.store
  fits : ∀ i ∈ owners s.deliveries, i < s.requests.length

theorem inv_start (toolMetadata : μ) :
    Inv queryRecordCounterId (System.start toolMetadata : System μ β) where
  failed := rfl
  decoded :=
    { objects :=
        { answered := by simp [System.start]
          live := by simp [System.start]
          reads := by simp [System.start]
          reads_lt := by simp [System.start]
          deletes := rfl }
      ringBuffer := rfl }
  fits := by simp [System.start, owners]

/-- What is expected of a delivery does not depend on later requests. -/
theorem expected_concat {d : Delivery β} (hd : ∀ i, d.own = some i → i < requests.length)
    (r : Request) : d.expected queryRecordCounterId (requests ++ [r])
      = d.expected queryRecordCounterId requests := by
  have hget : (d.own.bind fun i ↦ (requests ++ [r])[i]?) = d.own.bind fun i ↦ requests[i]? := by
    rcases hown : d.own with _ | i
    · rfl
    · exact List.getElem?_append_left (hd i hown)
  cases d with
  | header d =>
    simp only [Delivery.expected, regionFor, streamFor, Delivery.own] at hget ⊢
    rw [hget]
  | counters d =>
    simp only [Delivery.expected, regionFor, streamFor, Delivery.own] at hget ⊢
    rw [hget]

theorem getElem?_concat_cases {r r' : Request} {i : ℕ} (h : (requests ++ [r])[i]? = some r') :
    requests[i]? = some r' ∨ i = requests.length ∧ r' = r := by
  rcases Nat.lt_or_ge i requests.length with hlt | hge
  · rw [List.getElem?_append_left hlt] at h
    exact .inl h
  · rw [List.getElem?_append_right hge, List.getElem?_singleton, Option.ite_none_right_eq_some] at h
    obtain ⟨hi, hr⟩ := h
    exact .inr ⟨by omega, (Option.some.inj hr).symm⟩

/-- **A request**: the objects that there are stay, and a new one may join them. -/
theorem Objects.concat (h : Objects requests delivered memory) {r : Request} (hr : r.Answered)
    (hdelivered : ∀ i ∈ delivered, i < requests.length) {memory' : Memory}
    (hreads : memory'.reads = memory.reads) (hdeletes : memory'.deletes = memory.deletes)
    (hold : ∀ address cell, memory.cells address = some cell → memory'.cells address = some cell)
    (hnew : ∀ info, r.answer = some info →
      memory'.cells r.external = some (requests.length, info)) :
    Objects (requests ++ [r]) delivered memory' where
  answered i r' hr' := by
    rcases getElem?_concat_cases hr' with hr' | ⟨rfl, rfl⟩
    · exact h.answered i r' hr'
    · exact hr
  live i r' hr' hi info hinfo := by
    rcases getElem?_concat_cases hr' with hr' | ⟨rfl, rfl⟩
    · exact hold _ _ (h.live i r' hr' hi info hinfo)
    · exact hnew info hinfo
  reads i r' hr' := by
    rw [hreads]
    rcases getElem?_concat_cases hr' with hr' | ⟨rfl, rfl⟩
    · exact h.reads i r' hr'
    · have hnot : requests.length ∉ delivered := fun hmem ↦ (hdelivered _ hmem).false
      rw [if_neg fun hmem ↦ hnot hmem.2, List.count_eq_zero]
      exact fun hmem ↦ (h.reads_lt _ hmem).false
  reads_lt i hi := by
    rw [hreads] at hi
    rw [List.length_append]
    exact Nat.lt_add_right _ (h.reads_lt i hi)
  deletes := by rw [hdeletes, hreads, h.deletes]

/-- **The step for a request.** -/
theorem Inv.request (h : Inv queryRecordCounterId s) (r : Request) (hr : r.Answered)
    (toolMetadata : μ) (memory : Memory) (hreads : memory.reads = s.store.memory.reads)
    (hdeletes : memory.deletes = s.store.memory.deletes)
    (hold : ∀ address cell, s.store.memory.cells address = some cell →
      memory.cells address = some cell)
    (hnew : ∀ info, r.answer = some info →
      memory.cells r.external = some (s.requests.length, info)) :
    Inv queryRecordCounterId
      { s with toolMetadata, requests := s.requests ++ [r], store.memory := memory } where
  failed := h.failed
  decoded :=
    { objects := h.decoded.objects.concat hr h.fits hreads hdeletes hold hnew
      ringBuffer := by
        refine h.decoded.ringBuffer.trans (List.filterMap_congr fun d hd ↦ ?_)
        exact (expected_concat (fun i hi ↦ h.fits i (List.mem_filterMap.mpr ⟨d, hd, hi⟩)) r).symm }
  fits i hi := by
    rw [List.length_append]
    exact Nat.lt_add_right _ (h.fits i hi)

/-- **The step for a callback.** -/
theorem Inv.deliver (h : Inv queryRecordCounterId s) {ds : List (Delivery β)}
    (hfits : ∀ d ∈ ds, d.fits s.requests = true) {store : Store β}
    (hstore : Decoded queryRecordCounterId s.requests (s.deliveries ++ ds) store) :
    Inv queryRecordCounterId (s.deliver ds (some store)) where
  failed := h.failed
  decoded := hstore
  fits i hi := by
    rw [System.deliver, owners_append, List.mem_append] at hi
    rcases hi with hi | hi
    · exact h.fits i hi
    · obtain ⟨d, hd, hown⟩ := List.mem_filterMap.mp hi
      exact lt_of_fits (hfits d hd) hown

/-- **The step.** -/
theorem inv_step (event : Event β) (h : Inv queryRecordCounterId s)
    (hstep : step metadata queryRecordCounterId s event = some t) :
    Inv queryRecordCounterId t := by
  rw [step.eq_def, Option.ite_none_left_eq_some] at hstep
  obtain ⟨-, hstep⟩ := hstep
  cases event with
  | request kind threadDispatchRename stream address =>
    obtain ⟨-, hstep⟩ := Option.ite_none_right_eq_some.mp hstep
    rcases hset : setKernelRenameAndStreamCorrelationId metadata kind threadDispatchRename stream
      s.toolMetadata with ⟨_ | info, toolMetadata⟩
    · simp only [hset, Option.some.injEq] at hstep
      subst hstep
      obtain ⟨hregion, hstream⟩ := regionOf_of_set_eq_none (congrArg Prod.fst hset)
      exact h.request ⟨kind, threadDispatchRename, stream, none, 0⟩ ⟨hregion, hstream, rfl⟩
        toolMetadata s.store.memory rfl rfl (fun _ _ hcell ↦ hcell) (by simp)
    · simp only [hset, Option.ite_none_right_eq_some, Option.some.injEq] at hstep
      obtain ⟨⟨hne, hfree⟩, rfl⟩ := hstep
      have hinfo := set_eq_some (congrArg Prod.fst hset)
      refine h.request ⟨kind, threadDispatchRename, stream, some info, address⟩ ⟨hinfo, hne⟩
        toolMetadata { s.store.memory with
          cells := s.store.memory.cells.assign address (s.requests.length, info) } rfl rfl
        (fun a cell hcell ↦ ?_) ?_
      · have ha : a ≠ address := by
          rintro rfl
          rw [hfree] at hcell
          cases hcell
        exact (UMap.assign_of_ne _ _ ha).trans hcell
      · rintro _ ⟨⟩
        exact UMap.assign_self _ _ _
  | buffered headers =>
    obtain ⟨hcan, hstep⟩ := Option.ite_none_right_eq_some.mp hstep
    cases hstep
    obtain ⟨hfits, hnodup⟩ := System.canDeliver_iff.mp hcan
    rcases headers with _ | ds
    · exact h.deliver hfits (by simpa using h.decoded)
    · rw [Option.getD_some] at hfits hnodup
      obtain ⟨store, hstore, hdecoded⟩ := h.decoded.exists_foldlM
        (fun d hd ↦ hfits _ (List.mem_map_of_mem hd)) hnodup
      show Inv queryRecordCounterId
        (s.deliver (ds.map .header) ((ds.map (·.header s.requests)).foldlM traceHeader s.store))
      rw [hstore]
      exact h.deliver hfits hdecoded
  | counters d =>
    obtain ⟨hcan, hstep⟩ := Option.ite_none_right_eq_some.mp hstep
    cases hstep
    obtain ⟨hfits, hnodup⟩ := System.canDeliver_iff.mp hcan
    obtain ⟨store, hstore, hdecoded⟩ := h.decoded.exists_counterRecordCallback
      (deliverable_of_nodup (hfits _ List.mem_cons_self) hnodup)
    rw [hstore]
    exact h.deliver hfits hdecoded

/-- **The round trip.**  Whatever is requested and delivered in between, a record is written with
the region and the stream of its own request, and every object that a request has allocated is read
and deleted once when the record is delivered, and neither before nor after that. -/
theorem ringBuffer_of_run {toolMetadata : μ} {events : List (Event β)}
    (h : run (step metadata queryRecordCounterId) (System.start toolMetadata) events = some s) :
    s.failed = false ∧
      s.store.ringBuffer
        = s.deliveries.filterMap (·.expected queryRecordCounterId s.requests) ∧
      ∀ (i : ℕ) (r : Request), s.requests[i]? = some r →
        s.store.memory.reads.count i
            = (if r.answer.isSome ∧ i ∈ owners s.deliveries then 1 else 0) ∧
          s.store.memory.deletes.count i
            = if r.answer.isSome ∧ i ∈ owners s.deliveries then 1 else 0 := by
  have hinv : Inv queryRecordCounterId s :=
    run_invariant (inv_start toolMetadata) (fun _ event _ hI ht ↦ inv_step event hI ht) h
  refine ⟨hinv.failed, hinv.decoded.ringBuffer, fun i r hr ↦ ?_⟩
  have hreads := hinv.decoded.objects.reads i r hr
  exact ⟨hreads, by rw [hinv.decoded.objects.deletes, hreads]⟩

/-- A kernel in region `9` on stream `3`, and a copy on no stream; the copy is done first. -/
def kernelAndCopy : List (Event Unit) :=
  [.request .kernelDispatch (some [9, 8]) (some 3) 4096,
    .request .memoryCopy (some [9, 8]) none 8192,
    .buffered (some [⟨some 1, true, .memoryCopy, 2, ()⟩]),
    .buffered (some [⟨some 0, true, .kernelDispatch, 1, ()⟩])]

theorem ringBuffer_of_run_kernelAndCopy :
    ∃ s, run (step renameById id) (System.start ()) kernelAndCopy = some s ∧
      s.store.ringBuffer = [.extended .memoryCopy ⟨⟨2, 0⟩, ()⟩ 0,
        .extended .kernelDispatch ⟨⟨1, 9⟩, ()⟩ 3] ∧
      s.failed = false ∧
      s.store.ringBuffer = s.deliveries.filterMap (·.expected id s.requests) ∧
      ∀ (i : ℕ) (r : Request), s.requests[i]? = some r →
        s.store.memory.reads.count i
            = (if r.answer.isSome ∧ i ∈ owners s.deliveries then 1 else 0) ∧
          s.store.memory.deletes.count i
            = if r.answer.isSome ∧ i ∈ owners s.deliveries then 1 else 0 := by
  have h : run (step renameById id) (System.start ()) kernelAndCopy = some _ := rfl
  exact ⟨_, h, rfl, ringBuffer_of_run h⟩

end Version3.Correlation
