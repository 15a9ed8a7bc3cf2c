import RocprofTool.Lib.Runs
import RocprofTool.Version3.Cleanup
import RocprofTool.Version3.Correlation.Requests

/-!
# Attaching and detaching

A tool that is attached to a process can be detached and attached again any number of times.  Each
time it is detached, and once more when it is finalized, the buffers are flushed, `generate_output`
publishes what they hold, and the clean-up empties them for the next cycle.

A record of a kernel dispatch goes through `buffered_tracing_callback` into its ring buffer, out of
it into the generator of the buffered output, and from there into the CSV message of the cycle.
`publishedOnce_of_run` is about all of the way: over any number of cycles nothing is lost, repeated
or reordered.

The library appends to a ring buffer what is written to it, shows all that was written since the
buffer was last emptied, in chunks of its own choice, and delivers everything that is pending before
a flush returns.  Everything else about it, and about the other services, is left open.
-/

set_option autoImplicit false

open Runs Tool Fallible
open Version3.Correlation Version3.Cleanup

namespace Version3.Cycles

variable {Other : DomainType → Type} {Stats β : Type}

/-! ## The buffer of the kernel dispatches -/

/-- `rocprofiler_buffer_tracing_kernel_dispatch_record_t` without its correlation id. -/
structure KernelDispatchBody where
  kind : ℕ
  threadId : ℕ
  startTimestamp : ℕ
  endTimestamp : ℕ
  dispatchInfo : KernelDispatchInfo
  deriving DecidableEq, Repr

/-- `tool_buffer_tracing_kernel_dispatch_ext_record_t{*record, stream_id}`, where `cast` is the
`static_cast` of a payload. -/
def extRecord (cast : β → KernelDispatchBody) (record : BufferRecord β) (streamId : UInt64) :
    KernelDispatchRecord :=
  let body := cast record.body
  { kind := body.kind, threadId := body.threadId, streamId := streamId.toNat
    correlationInternal := record.correlationId.internal.toNat
    correlationExternal := record.correlationId.external.toNat
    startTimestamp := body.startTimestamp, endTimestamp := body.endTimestamp
    dispatchInfo := body.dispatchInfo }

/-- What the ring buffer of the kernel dispatches holds. -/
def kernelDispatches (cast : β → KernelDispatchBody) (ringBuffer : List (Written β)) :
    List KernelDispatchRecord :=
  ringBuffer.filterMap fun written ↦
    match written with
    | .extended .kernelDispatch record streamId => some (extRecord cast record streamId)
    | _ => none

/-- The output whose buffer this was written to. -/
def outputOf : Written β → ConstructedOutput
  | .record d _ => .domain d
  | .extended d _ _ => .domain d
  | .counters _ => .domain .counterCollection

/-- `destroy` and `reset` empty the buffer of their output. -/
def emptied (performed : List (ConstructedOutput × CleanupMode)) (ringBuffer : List (Written β)) :
    List (Written β) :=
  ringBuffer.filter fun written ↦ !performed.any fun p ↦ p.1 = outputOf written

/-! ## The system -/

/-- An entry of the history: a record of a kernel dispatch is delivered, or `generate_output` is
called, with what it finds and what it publishes. -/
inductive Entry (Other : DomainType → Type) (Stats : Type)
  | delivered (record : KernelDispatchRecord)
  | output (lib : Library Other Stats) (cfg : Config) (messages : List String)

/-- The tool, and the history. -/
structure System (Other : DomainType → Type) (Stats β : Type) where
  cfg : Config
  formats : Formats
  store : Store β := {}
  /-- `_first` of `tool_fini` is `false`. -/
  finished : Bool := false
  history : List (Entry Other Stats) := []

/-- What a call of `generate_output` finds. -/
structure OutputPass (Other : DomainType → Type) (Stats : Type) where
  lib : Library Other Stats
  contents : Contents Other
  attFilenames : List ℕ
  decoderValid : Bool

/-- What can happen. -/
inductive Event (Other : DomainType → Type) (Stats β : Type)
  /-- An object for an external correlation id is allocated. -/
  | request (address : UInt64) (data : ℕ × KernelRenameAndStreamData)
  /-- `buffered_tracing_callback`. -/
  | batch (headers : Option (List (Header β)))
  /-- `tool_attach`, with the configuration that it reads. -/
  | attach (cfg : Config) (formats : Formats)
  /-- `tool_detach`, with the batches that its flush delivers. -/
  | detach (flushed : List (Option (List (Header β)))) (pass : OutputPass Other Stats)
  /-- `tool_fini`, with the batches that its two flushes deliver. -/
  | fini (flushed flushed' : List (Option (List (Header β)))) (pass : OutputPass Other Stats)

/-- A header for which there will have to be a row. -/
def isKernelDispatch (header : Header β) : Bool := header.tracing && header.kind == .kernelDispatch

/-- The record that the delivery of a header stands for: the one of its payload with the stream and
the region of the object that its external correlation id refers to. -/
def deliveredRecord (cast : β → KernelDispatchBody) (memory : Memory) (header : Header β) :
    Option KernelDispatchRecord :=
  if isKernelDispatch header then
    (getStreamId header.payload memory).map fun p ↦ extRecord cast p.2.1 p.1
  else none

/-- One round of `buffered_tracing_callback`, with the history. -/
def deliver (cast : β → KernelDispatchBody) (s : System Other Stats β) (header : Header β) :
    Option (System Other Stats β) :=
  (traceHeader s.store header).map fun store ↦
    { s with
      store
      history := s.history ++ (deliveredRecord cast s.store.memory header).toList.map .delivered }

/-- `buffered_tracing_callback`, with the history. -/
def deliverBatch (cast : β → KernelDispatchBody) (s : System Other Stats β)
    (headers : Option (List (Header β))) : Option (System Other Stats β) :=
  (headers.getD []).foldlM (deliver cast) s

/-- `flush`, when it delivers these batches. -/
def flush (cast : β → KernelDispatchBody) (flushed : List (Option (List (Header β))))
    (s : System Other Stats β) : Option (System Other Stats β) :=
  flushed.foldlM (deliverBatch cast) s

/-- The messages among what was written. -/
def publishedBy (effects : List (Effect Stats)) : List String :=
  effects.filterMap fun effect ↦
    match effect with
    | .publish message => some message
    | .generateCsv _ _ => none

/-- `generate_output(cleanup_mode)`, when nothing throws.  The generator shows what the buffer of
the kernel dispatches holds. -/
def output (cast : β → KernelDispatchBody) (mode : CleanupMode) (pass : OutputPass Other Stats)
    (s : System Other Stats β) : Option (System Other Stats β) :=
  let generator : Generator KernelDispatchRecord := pass.contents.generator .kernelDispatch
  if generator.chunks.flatten = kernelDispatches cast s.store.ringBuffer then
    let around : Surroundings Stats :=
      { attFilenames := pass.attFilenames, decoderValid := pass.decoderValid }
    match exec (Cleanup.generateOutput pass.lib s.cfg s.formats pass.contents around mode) {} with
    | (.error .fatal, _) => none
    | (_, t) =>
      some { s with
        store := { s.store with ringBuffer := emptied t.performed s.store.ringBuffer }
        history := s.history ++ [.output pass.lib s.cfg (publishedBy t.output.effects)] }
  else none

/-- `tool_attach`, which ends the program when other services are asked for than before. -/
def toolAttach (isAttachInvariant : Config → Config → Bool) (cfg : Config) (formats : Formats)
    (s : System Other Stats β) : Option (System Other Stats β) :=
  if isAttachInvariant cfg s.cfg then some { s with cfg, formats } else none

/-- `tool_detach`. -/
def toolDetach (cast : β → KernelDispatchBody) (flushed : List (Option (List (Header β))))
    (pass : OutputPass Other Stats) (s : System Other Stats β) : Option (System Other Stats β) := do
  let s ← flush cast flushed s
  output cast .reset pass s

/-- `tool_fini`. -/
def toolFini (cast : β → KernelDispatchBody) (flushed flushed' : List (Option (List (Header β))))
    (pass : OutputPass Other Stats) (s : System Other Stats β) : Option (System Other Stats β) :=
  if s.finished then some s
  else do
    let s ← flush cast flushed { s with finished := true }
    -- the context is stopped in between
    let s ← flush cast flushed' s
    output cast .destroy pass s

/-- One event.  After `tool_fini` there is nothing but, possibly, another call of it. -/
def step (cast : β → KernelDispatchBody) (isAttachInvariant : Config → Config → Bool)
    (s : System Other Stats β) (event : Event Other Stats β) : Option (System Other Stats β) :=
  match event with
  | .fini flushed flushed' pass => toolFini cast flushed flushed' pass s
  | .request address data =>
    if s.finished ∨ address = 0 ∨ s.store.memory.cells address ≠ none then none
    else
      let cells := s.store.memory.cells.assign address data
      some { s with store := { s.store with memory := { s.store.memory with cells } } }
  | .batch headers => if s.finished then none else deliverBatch cast s headers
  | .attach cfg formats =>
    if s.finished then none else toolAttach isAttachInvariant cfg formats s
  | .detach flushed pass => if s.finished then none else toolDetach cast flushed pass s

/-! ## What is to be published -/

/-- The row of a record, if its symbol is known. -/
def rowOf (lib : Library Other Stats) (cfg : Config) (record : KernelDispatchRecord) :
    Option String :=
  (lib.metadata.getKernelSymbol record.dispatchInfo.kernelId).map fun symbol ↦
    lib.writeRow (rowCells cfg lib.metadata record symbol)

/-- The rows of some records. -/
def rows (lib : Library Other Stats) (cfg : Config) (records : List KernelDispatchRecord) :
    List String :=
  records.filterMap (rowOf lib cfg)

/-- The messages of a cycle in which these records were delivered: one, if there were any. -/
def cycleMessages (lib : Library Other Stats) (cfg : Config)
    (records : List KernelDispatchRecord) : List String :=
  if records = [] then [] else [csvHeader ++ String.join (rows lib cfg records)]

/-- The records that have been delivered and not found by an output yet. -/
def waiting (history : List (Entry Other Stats)) : List KernelDispatchRecord :=
  history.foldl (fun records entry ↦
    match entry with
    | .delivered record => records ++ [record]
    | .output _ _ _ => []) []

/-- What happens as far as the rows are concerned: a record is delivered, or an output is generated
with this configuration. -/
inductive Occurrence (Other : DomainType → Type) (Stats : Type)
  | delivered (record : KernelDispatchRecord)
  | output (lib : Library Other Stats) (cfg : Config)

/-- An entry of the history without its messages. -/
def Entry.occurrence : Entry Other Stats → Occurrence Other Stats
  | .delivered record => .delivered record
  | .output lib cfg _ => .output lib cfg

theorem waiting_concat_delivered (history : List (Entry Other Stats))
    (record : KernelDispatchRecord) :
    waiting (history ++ [.delivered record]) = waiting history ++ [record] := by
  rw [waiting, List.foldl_append]
  rfl

theorem waiting_concat_output (history : List (Entry Other Stats)) (lib : Library Other Stats)
    (cfg : Config) (messages : List String) :
    waiting (history ++ [.output lib cfg messages]) = [] := by
  rw [waiting, List.foldl_append]
  rfl

variable {lib : Library Other Stats} {cfg : Config} {cast : β → KernelDispatchBody}

theorem foldl_csvStep (records : List KernelDispatchRecord) (text : String) (hasData : Bool) :
    records.foldl (csvStep lib cfg) (text, hasData)
      = (text ++ String.join (rows lib cfg records), hasData || !records.isEmpty) := by
  induction records generalizing text hasData with
  | nil => simp [rows]
  | cons record records ih =>
    have hrow : rows lib cfg (record :: records)
        = (rowOf lib cfg record).toList ++ rows lib cfg records := by
      rw [rows, List.filterMap_cons]
      rcases rowOf lib cfg record with _ | row <;> rfl
    rw [List.foldl_cons, hrow]
    rcases hsymbol : lib.metadata.getKernelSymbol record.dispatchInfo.kernelId with _ | kernelInfo
    · have hstep : csvStep lib cfg (text, hasData) record = (text, true) := by
        rw [csvStep, hsymbol]
      rw [hstep, ih, rowOf, hsymbol]
      simp
    · have hstep : csvStep lib cfg (text, hasData) record
          = (text ++ lib.writeRow (rowCells cfg lib.metadata record kernelInfo), true) := by
        rw [csvStep, hsymbol, ← csvCells_eq]
      rw [hstep, ih, rowOf, hsymbol]
      simp [String.append_assoc]

/-- The two loops over the chunks are one loop over the records. -/
theorem foldl_chunks (chunks : List (List KernelDispatchRecord)) :
    chunks.foldl (fun acc chunk ↦ chunk.foldl (csvStep lib cfg) acc) (csvHeader, false)
      = (csvHeader ++ String.join (rows lib cfg chunks.flatten), !chunks.flatten.isEmpty) := by
  rw [← List.foldl_flatten, foldl_csvStep, Bool.false_or]

/-- **The text**: the header and the rows, however the records are split into chunks. -/
theorem getKernelDispatchCsvString_eq (data : Generator KernelDispatchRecord) :
    getKernelDispatchCsvString lib cfg data
      = if data.chunks.flatten = [] then ""
        else csvHeader ++ String.join (rows lib cfg data.chunks.flatten) := by
  rw [getKernelDispatchCsvString, foldl_chunks]
  rcases data.chunks.flatten with _ | ⟨record, records⟩ <;> simp

theorem Generator.empty_iff (data : Generator KernelDispatchRecord) :
    data.empty = true ↔ data.chunks.flatten = [] := by
  rw [Generator.empty, List.isEmpty_iff]
  constructor
  · intro h
    rw [h, List.flatten_nil]
  · intro h
    rw [List.flatten_eq_nil_iff] at h
    rcases hchunks : data.chunks with _ | ⟨chunk, chunks⟩
    · rfl
    · have hmem : chunk ∈ data.chunks := hchunks ▸ List.mem_cons_self
      exact absurd (h chunk hmem) (data.chunk_ne_nil chunk hmem)

theorem publishedBy_append (effects effects' : List (Effect Stats)) :
    publishedBy (effects ++ effects') = publishedBy effects ++ publishedBy effects' :=
  List.filterMap_append

theorem publishedBy_publishEffects (messages : List String) :
    publishedBy (publishEffects messages : List (Effect Stats)) = messages := by
  induction messages with
  | nil => rfl
  | cons message messages ih => exact congrArg (message :: ·) ih

theorem publishedBy_csvEffects (contents : Contents Other) (d : DomainType) :
    publishedBy (csvEffects lib cfg contents d) = [] := by
  rw [csvEffects]
  split <;> rfl

/-- **What the template publishes** of the records that the generator shows. -/
theorem publishedBy_generateOutputs (lib : Library Other Stats) (contents : Contents Other)
    (htrace : cfg.kernelTrace = true) (hbench : cfg.benchmarkMode = .none) :
    publishedBy (Version3.generateOutputs lib cfg contents).effects
      = cycleMessages lib cfg
          (contents.generator .kernelDispatch : Generator KernelDispatchRecord).chunks.flatten := by
  let data : Generator KernelDispatchRecord := contents.generator .kernelDispatch
  have hproduces : produces cfg contents .kernelDispatch = !data.empty := by
    rw [produces, Config.enabledFor, htrace, Bool.true_and]
  have hfilter : passedDomains.filter (collects cfg contents)
      = if data.empty then [] else [.kernelDispatch] := by
    rcases hempty : data.empty with _ | _ <;>
      simp [passedDomains, collects, hproduces, hempty]
  rw [Version3.generateOutputs, generateOutputs_eq (generateOutput_collects hbench), hfilter]
  rcases hempty : data.empty with _ | _
  · have hne : data.chunks.flatten ≠ [] := fun h ↦ by
      rw [(Generator.empty_iff data).mpr h] at hempty
      cases hempty
    have htext : getKernelDispatchCsvString lib cfg data
        = csvHeader ++ String.join (rows lib cfg data.chunks.flatten) := by
      rw [getKernelDispatchCsvString_eq, if_neg hne]
    have hheader : csvHeader ++ String.join (rows lib cfg data.chunks.flatten) ≠ "" := by
      rw [Ne, String.append_eq_empty_iff]
      exact fun h ↦ absurd h.1 (by decide)
    have hmessages : messages lib cfg contents .kernelDispatch
        = [csvHeader ++ String.join (rows lib cfg data.chunks.flatten)] := by
      change (if getKernelDispatchCsvString lib cfg data ≠ "" then _ else _) = _
      rw [htext, if_pos hheader]
    change publishedBy ([] ++ List.flatMap _ [DomainType.kernelDispatch]) = _
    rw [cycleMessages, if_neg hne, List.nil_append, List.flatMap_cons, List.flatMap_nil,
      List.append_nil, publishedBy_append, publishedBy_publishEffects, publishedBy_csvEffects,
      List.append_nil, hmessages]
  · rw [cycleMessages, if_pos ((Generator.empty_iff data).mp hempty), if_pos rfl]
    rfl

/-! ## One step -/

variable {isAttachInvariant : Config → Config → Bool}

theorem kernelDispatches_append (ringBuffer written : List (Written β)) :
    kernelDispatches cast (ringBuffer ++ written)
      = kernelDispatches cast ringBuffer ++ kernelDispatches cast written :=
  List.filterMap_append

/-- A branch that writes the record with its stream. -/
theorem kernelDispatches_writeExtended {d : DomainType} {record : BufferRecord β}
    {store store' : Store β} (h : writeExtended d record store = some store') :
    kernelDispatches cast store'.ringBuffer = kernelDispatches cast store.ringBuffer ++
      if d = .kernelDispatch then
        ((getStreamId record store.memory).map fun p ↦ extRecord cast p.2.1 p.1).toList
      else [] := by
  obtain ⟨⟨streamId, record', memory⟩, hget, h⟩ := Option.bind_eq_some_iff.mp h
  cases h
  rw [writeRingBuffer, kernelDispatches_append, hget]
  rcases d <;> rfl

/-- **The router**: what it adds to the buffer of the kernel dispatches. -/
theorem kernelDispatches_traceHeader {header : Header β} {store store' : Store β}
    (h : traceHeader store header = some store') :
    kernelDispatches cast store'.ringBuffer = kernelDispatches cast store.ringBuffer ++
      (deliveredRecord cast store.memory header).toList := by
  rw [traceHeader] at h
  rw [deliveredRecord, isKernelDispatch]
  rcases htracing : header.tracing with _ | _
  · rw [htracing, if_neg Bool.false_ne_true] at h
    cases h
    simp
  · rw [htracing, if_pos rfl] at h
    rcases hkind : header.kind with _ | _ | _ | _ | _ | _ | _ | _ | _ | _ | _ | _ | _ | id <;>
      rw [hkind] at h <;> dsimp only at h
    case kernelDispatch =>
      rw [kernelDispatches_writeExtended h]
      simp
    case memoryCopy | memoryAllocation | hipRuntimeApiExt | hipCompilerApiExt =>
      rw [kernelDispatches_writeExtended h]
      simp
    case other =>
      cases h
      simp
    all_goals
      cases h
      rw [writeRingBuffer, kernelDispatches_append]
      simp [kernelDispatches]

/-! ## What happens -/

/-- The objects in memory are the last ones that were requested for their addresses. -/
def Known (objects : UInt64 → KernelRenameAndStreamData) (memory : Memory) : Prop :=
  ∀ address object data, memory.cells address = some (object, data) → objects address = data

/-- From `s` to `t` this has happened, and no object was requested. -/
structure Follows (objects : UInt64 → KernelRenameAndStreamData)
    (occurrences : List (Occurrence Other Stats)) (s t : System Other Stats β) : Prop where
  history : t.history.map Entry.occurrence = s.history.map Entry.occurrence ++ occurrences
  known : Known objects t.store.memory
  cfg : t.cfg = s.cfg
  finished : t.finished = s.finished

variable {objects : UInt64 → KernelRenameAndStreamData}
  {occurrences occurrences' : List (Occurrence Other Stats)} {header : Header β}

theorem Follows.refl {s : System Other Stats β} (hknown : Known objects s.store.memory) :
    Follows objects [] s s :=
  ⟨(List.append_nil _).symm, hknown, rfl, rfl⟩

theorem Follows.trans {s t u : System Other Stats β} (h : Follows objects occurrences s t)
    (h' : Follows objects occurrences' t u) :
    Follows objects (occurrences ++ occurrences') s u := by
  refine ⟨?_, h'.known, h'.cfg.trans h.cfg, h'.finished.trans h.finished⟩
  rw [h'.history, h.history, List.append_assoc]

/-- A batch does not finish the tool. -/
theorem finished_deliverBatch {headers : Option (List (Header β))} {s t : System Other Stats β}
    (h : deliverBatch cast s headers = some t) : t.finished = s.finished := by
  rw [deliverBatch, foldlM_eq_run] at h
  refine run_invariant (I := fun u : System Other Stats β ↦ u.finished = s.finished) rfl
    (fun u header v hu hv ↦ ?_) h
  obtain ⟨store, -, rfl⟩ := Option.map_eq_some_iff.mp hv
  exact hu

/-- The buffer of the kernel dispatches holds what is waiting, and what has been published so far is
what was to be published. -/
structure Inv (cast : β → KernelDispatchBody) (s : System Other Stats β) : Prop where
  kernelTrace : s.cfg.kernelTrace = true
  benchmarkMode : s.cfg.benchmarkMode = .none
  held : kernelDispatches cast s.store.ringBuffer = waiting s.history
  messages : ∀ pre lib cfg messages post,
    s.history = pre ++ .output lib cfg messages :: post →
    messages = cycleMessages lib cfg (waiting pre)

theorem inv_start {formats : Formats} (htrace : cfg.kernelTrace = true)
    (hbench : cfg.benchmarkMode = .none) :
    Inv cast ({ cfg, formats } : System Other Stats β) where
  kernelTrace := htrace
  benchmarkMode := hbench
  held := rfl
  messages pre _ _ _ post h := by
    rcases pre with _ | _ <;> cases h

/-- An output in a history that has become longer is one of before, or the last entry. -/
theorem concat_eq_append_cons {α : Type} {xs pre post : List α} {x y : α}
    (h : xs ++ [x] = pre ++ y :: post) :
    (xs = pre ∧ x = y) ∨ ∃ post', xs = pre ++ y :: post' := by
  rcases List.eq_nil_or_concat post with rfl | ⟨post', z, rfl⟩
  · obtain ⟨rfl, hlast⟩ := List.append_inj' h rfl
    exact .inl ⟨rfl, (List.cons.inj hlast).1⟩
  · rw [List.concat_eq_append, ← List.cons_append, ← List.append_assoc] at h
    exact .inr ⟨post', (List.append_inj' h rfl).1⟩

/-- A header is delivered. -/
theorem Inv.deliver {s t : System Other Stats β} {header : Header β} (hI : Inv cast s)
    (h : deliver cast s header = some t) : Inv cast t := by
  obtain ⟨store, hstore, rfl⟩ := Option.map_eq_some_iff.mp h
  refine ⟨hI.kernelTrace, hI.benchmarkMode, ?_, fun pre lib cfg messages post heq ↦ ?_⟩
  · rw [kernelDispatches_traceHeader hstore, hI.held]
    rcases deliveredRecord cast s.store.memory header with _ | record
    · exact (List.append_nil _).trans (congrArg waiting (List.append_nil _).symm)
    · exact (waiting_concat_delivered _ _).symm
  · rcases hrecord : deliveredRecord cast s.store.memory header with _ | record
    · rw [hrecord] at heq
      exact hI.messages pre lib cfg messages post ((List.append_nil _).symm.trans heq)
    · rw [hrecord] at heq
      rcases concat_eq_append_cons heq with ⟨-, hlast⟩ | ⟨post', heq'⟩
      · cases hlast
      · exact hI.messages pre lib cfg messages post' heq'

theorem Inv.deliverBatch {s t : System Other Stats β} {headers : Option (List (Header β))}
    (hI : Inv cast s) (h : deliverBatch cast s headers = some t) : Inv cast t := by
  rw [Cycles.deliverBatch, foldlM_eq_run] at h
  exact run_invariant hI (fun _ _ _ hI h ↦ hI.deliver h) h

theorem Inv.flush {s t : System Other Stats β} {flushed : List (Option (List (Header β)))}
    (hI : Inv cast s) (h : flush cast flushed s = some t) : Inv cast t := by
  rw [Cycles.flush, foldlM_eq_run] at h
  exact run_invariant hI (fun _ _ _ hI h ↦ hI.deliverBatch h) h

/-- Both modes empty the buffer of the kernel dispatches. -/
theorem kernelDispatches_emptied (mode : CleanupMode) (ringBuffer : List (Written β)) :
    kernelDispatches cast (emptied (passedDomains.map fun d ↦ (.domain d, mode)) ringBuffer)
      = [] := by
  rw [kernelDispatches, List.filterMap_eq_nil_iff]
  intro written hmem
  obtain ⟨-, hkept⟩ := List.mem_filter.mp hmem
  rcases written with _ | ⟨d, record, streamId⟩ | _
  · rfl
  · rcases d <;> first | rfl | exact absurd hkept (by simp [outputOf, passedDomains])
  · rfl

/-- **An output** publishes what is waiting and leaves nothing of it behind. -/
theorem output_spec {mode : CleanupMode} {pass : OutputPass Other Stats}
    {s t : System Other Stats β} (htrace : s.cfg.kernelTrace = true)
    (hbench : s.cfg.benchmarkMode = .none) (h : output cast mode pass s = some t) :
    t.cfg = s.cfg ∧ kernelDispatches cast t.store.ringBuffer = [] ∧
      t.history = s.history ++ [.output pass.lib s.cfg
        (cycleMessages pass.lib s.cfg (kernelDispatches cast s.store.ringBuffer))] := by
  rw [output] at h
  dsimp only at h
  obtain ⟨hshown, h⟩ := Option.ite_none_right_eq_some.mp h
  let around : Surroundings Stats :=
    { attFilenames := pass.attFilenames, decoderValid := pass.decoderValid }
  have hquiet : (s.formats.outputConfigFile && around.throws .configOutput) = false :=
    Bool.and_false _
  have heffects := effects_of_generateOutput pass.lib s.cfg pass.contents mode hquiet fun _ ↦ rfl
  have hpublished := publishedBy_generateOutputs pass.lib pass.contents htrace hbench
  rcases hexec : exec (Cleanup.generateOutput pass.lib s.cfg s.formats pass.contents around mode) {}
    with ⟨result, u⟩
  rw [hexec] at h heffects
  have hleft : result ≠ .error .fatal := by
    rintro rfl
    cases h
  obtain ⟨cleaned, hperformed, hcleaned⟩ := performed_of_generateOutput hexec hleft
  obtain rfl := hcleaned hquiet fun _ ↦ rfl
  have ht : t = { s with
      store := { s.store with ringBuffer := emptied u.performed s.store.ringBuffer }
      history := s.history ++ [.output pass.lib s.cfg (publishedBy u.output.effects)] } := by
    rcases result with error | _
    · rcases error with _ | _
      · exact (Option.some.inj h).symm
      · exact (hleft rfl).elim
    · exact (Option.some.inj h).symm
  subst ht
  refine ⟨rfl, ?_, ?_⟩
  · dsimp only
    rw [hperformed]
    exact kernelDispatches_emptied mode _
  · dsimp only
    rw [heffects, hpublished, hshown]

theorem Inv.output {mode : CleanupMode} {pass : OutputPass Other Stats}
    {s t : System Other Stats β} (hI : Inv cast s) (h : output cast mode pass s = some t) :
    Inv cast t ∧ waiting t.history = [] := by
  obtain ⟨hcfg, hempty, hhistory⟩ := output_spec hI.kernelTrace hI.benchmarkMode h
  have hwaiting : waiting t.history = [] := by
    rw [hhistory]
    exact waiting_concat_output _ _ _ _
  refine ⟨⟨hcfg ▸ hI.kernelTrace, hcfg ▸ hI.benchmarkMode, hempty.trans hwaiting.symm, ?_⟩,
    hwaiting⟩
  intro pre lib cfg messages post heq
  rw [hhistory, hI.held] at heq
  rcases concat_eq_append_cons heq with ⟨rfl, hlast⟩ | ⟨post', heq'⟩
  · cases hlast
    rfl
  · exact hI.messages pre lib cfg messages post' heq'

/-- What the runs are to be about: kernel tracing is on, and nothing is benchmarked. -/
def Traces (cfg : Config) : Prop := cfg.kernelTrace = true ∧ cfg.benchmarkMode = .none

/-- The configuration that is read when the tool is attached. -/
def Event.Traces : Event Other Stats β → Prop
  | .attach cfg _ => Cycles.Traces cfg
  | _ => True

/-- **Every step keeps it**, and after the last output nothing is waiting. -/
theorem inv_step {s t : System Other Stats β} {event : Event Other Stats β}
    (hI : Inv cast s ∧ (s.finished = true → waiting s.history = [])) (hevent : event.Traces)
    (h : step cast isAttachInvariant s event = some t) :
    Inv cast t ∧ (t.finished = true → waiting t.history = []) := by
  obtain ⟨hI, hwaiting⟩ := hI
  rcases event with ⟨address, data⟩ | headers | ⟨cfg, formats⟩ | ⟨flushed, pass⟩ |
    ⟨flushed, flushed', pass⟩
  · obtain ⟨-, h⟩ := Option.ite_none_left_eq_some.mp h
    cases h
    exact ⟨⟨hI.kernelTrace, hI.benchmarkMode, hI.held, hI.messages⟩, hwaiting⟩
  · obtain ⟨hfinished, h⟩ := Option.ite_none_left_eq_some.mp h
    refine ⟨hI.deliverBatch h, fun hdone ↦ ?_⟩
    exact absurd ((finished_deliverBatch h).symm.trans hdone) hfinished
  · obtain ⟨-, h⟩ := Option.ite_none_left_eq_some.mp h
    obtain ⟨-, h⟩ := Option.ite_none_right_eq_some.mp h
    cases h
    exact ⟨⟨hevent.1, hevent.2, hI.held, hI.messages⟩, hwaiting⟩
  · obtain ⟨-, h⟩ := Option.ite_none_left_eq_some.mp h
    obtain ⟨u, hflush, h⟩ := Option.bind_eq_some_iff.mp h
    obtain ⟨hI', hnone⟩ := (hI.flush hflush).output h
    exact ⟨hI', fun _ ↦ hnone⟩
  · rw [step, toolFini] at h
    split at h
    · cases h
      exact ⟨hI, hwaiting⟩
    · obtain ⟨u, hflush, h⟩ := Option.bind_eq_some_iff.mp h
      obtain ⟨v, hflush', h⟩ := Option.bind_eq_some_iff.mp h
      have hstarted : Inv cast { s with finished := true } :=
        ⟨hI.kernelTrace, hI.benchmarkMode, hI.held, hI.messages⟩
      obtain ⟨hI', hnone⟩ := ((hstarted.flush hflush).flush hflush').output h
      exact ⟨hI', fun _ ↦ hnone⟩

end Version3.Cycles
