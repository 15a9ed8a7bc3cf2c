import RocprofTool.Lib.Runs
import RocprofTool.Version1.Collecting

/-!
# Every context is collected once

The dispatches, the completion handlers, the calls of `destroy_callback` and one call of
`rocprofiler_unload` come in any order, and so do their parts: a thread that does not hold the mutex
goes on whenever it likes.  `Holder` is what the thread with the mutex is doing when that takes more
than one step; a critical section without a place to wait in is one step.

At the end `rocprofiler_unload` dumps what is left.  With an output file it goes through the array,
for which it has to wait for the mutex.  Without one it first compares the two counters, and for
that it does not take the mutex: when the last contexts are counted, but some thread is still in the
middle of `dump_context_entry`, it does not wait for that thread, deletes the array under it and
returns.  `orderly` says which steps must not come when, and then every context is collected once.

The library is in `step` as far as the tool relies on it: there is no call of `dispatch_callback`
after the callbacks have been removed, and a completion handler is called at most once for a
context, after its dispatch has returned and before it is closed.
-/

set_option autoImplicit false

open Runs

namespace Version1.Collecting

/-! ## The system -/

/-- The callers of `dump_context_array`. -/
inductive Caller
  | destroyCallback (queue : Option UInt64)
  | rocprofilerUnload
  deriving DecidableEq, Repr

/-- The argument of `dump_context_array`; a null pointer stands for all the queues. -/
def Caller.queue : Caller → Option UInt64
  | .destroyCallback queue => queue
  | .rocprofilerUnload => none

/-- What the thread that holds the mutex is doing. -/
inductive Holder
  /-- It goes through the array: the entries that are still to come, and `done`. -/
  | dumpContextArray (caller : Caller) (todo : List UInt32) (done : Bool)
  /-- There, it is in `dump_context_entry`, and has counted the context. -/
  | dumpContextEntry (caller : Caller) (key : UInt32) (todo : List UInt32) (done : Bool)
  /-- It is in `dump_context_entry`, called by `context_handler`, and has counted the context. -/
  | contextHandler (index : UInt32)
  deriving DecidableEq, Repr

/-- The context that it is in the middle of dumping. -/
def Holder.dumping : Holder → Option UInt32
  | .dumpContextArray _ _ _ => none
  | .dumpContextEntry _ key _ _ => some key
  | .contextHandler index => some index

/-- Will it use the array before it gives the mutex back? -/
def Holder.usesArray : Holder → Bool
  | .dumpContextArray _ todo _ => !todo.isEmpty
  | .dumpContextEntry _ _ _ _ => true
  | .contextHandler _ => true

/-- How far `rocprofiler_unload` has come. -/
inductive Unload
  | notCalled
  /-- `is_loaded` is reset. -/
  | called
  /-- It compares the counters; what it has read of them. -/
  | comparing (collected count : Option UInt32)
  /-- It is in `dump_context_array`. -/
  | dumping
  /-- It does not look at the array any more. -/
  | dumped
  | deleted
  | returned
  deriving DecidableEq, Repr

/-- The contexts, the thread that holds the mutex, and the calls that have not returned: of
`dispatch_callback` that pass the filter or not and have not counted yet, of `destroy_callback`, and
of `context_handler` that wait for the mutex.  The completion handlers of `handled` have been
called. -/
structure System where
  contexts : Contexts := {}
  holder : Option Holder := none
  passed : ℕ := 0
  filtered : ℕ := 0
  destroys : List (Option UInt64) := []
  handlers : List UInt32 := []
  handled : List UInt32 := []
  unload : Unload := .notCalled
  stopped : Option Stop := none

/-- What can happen. -/
inductive Event
  /-- `dispatch_callback` is called; does it pass the filter? -/
  | dispatch (passes : Bool)
  | nextContextCount
  | allocContextEntry
  | fill (index : UInt32) (queue : UInt64) (record : Option Bool)
  | activate (index : UInt32)
  | validate (index : UInt32)
  | complete (index : UInt32)
  /-- The library calls `context_handler`. -/
  | callHandler (index : UInt32)
  /-- `context_handler` gets the mutex. -/
  | contextHandler (index : UInt32)
  | deallocContextEntry
  | destroyCallback (queue : Option UInt64)
  /-- `dump_context_array` gets the mutex. -/
  | lockArray (caller : Caller)
  /-- It comes to the next entry. -/
  | nextEntry
  /-- It is done with an entry that it has counted. -/
  | dumpedEntry
  | unlockArray
  | unload
  | removeQueueCallbacks
  | readCollected
  | readCount
  | compare
  | deleteArray
  | clearArray
  deriving DecidableEq, Repr

/-- A function of the tool, and what follows when it does not stop. -/
def System.perform (s : System) (x : Except Stop Contexts) : System :=
  match x with
  | .ok contexts => { s with contexts }
  | .error e => { s with stopped := some e }

/-- There have not been `2 ^ 32` dispatches yet. -/
def System.canCount (s : System) : Bool := s.contexts.contextCount.toNat + 1 < 2 ^ 32

/-- `context_handler`, when it has the mutex. -/
def System.contextHandler (s : System) (index : UInt32) : System :=
  match s.contexts.read index with
  | .error e => { s with stopped := some e }
  | .ok entry =>
    if entry.active then
      if entry.record = some false then { s with stopped := some .notComplete }
      else { s with
        contexts := s.contexts.count index
        holder := some (.contextHandler index) }
    else s.perform (s.contexts.deallocContextEntry index)

/-- Has this caller called `dump_context_array`? -/
def System.calls (s : System) : Caller → Bool
  | .destroyCallback queue => s.destroys.contains queue
  | .rocprofilerUnload => s.unload = .dumping

/-- A round of `dump_context_array` begins. -/
def System.lockArray (s : System) (caller : Caller) : System :=
  match s.contexts.contextArray with
  | .live entries => { s with holder := some (.dumpContextArray caller entries.keys true) }
  | .null => { s with holder := some (.dumpContextArray caller [] true) }
  | .deleted => { s with stopped := some .undefined }

/-- `dump_context_array` comes to an entry; it waits for it to be valid. -/
def System.nextEntry (s : System) (caller : Caller) (key : UInt32) (todo : List UInt32)
    (done : Bool) : Option System :=
  match s.contexts.read key with
  | .error e => some { s with stopped := some e }
  | .ok entry =>
    if !entry.valid then none
    else if caller.queue.all (· == entry.queue) && entry.active then
      if entry.record = some false then
        some { s with holder := some (.dumpContextArray caller todo false) }
      else some { s with
        contexts := s.contexts.count key
        holder := some (.dumpContextEntry caller key todo done) }
    else some { s with holder := some (.dumpContextArray caller todo done) }

/-- A round of `dump_context_array` ends; if all is done, so does the call. -/
def System.unlockArray (s : System) (caller : Caller) (done : Bool) : System :=
  let s := { s with holder := none }
  if done then
    match caller with
    | .destroyCallback queue => { s with destroys := s.destroys.erase queue }
    | .rocprofilerUnload => { s with unload := .dumped }
  else s

/-- The system when it is running, with an output file or without one. -/
def System.next (resultFileOpened : Bool) (s : System) : Event → Option System
  | .dispatch passes =>
    if s.unload = .notCalled ∨ s.unload = .called then
      some (if passes then { s with passed := s.passed + 1 }
        else { s with filtered := s.filtered + 1 })
    else none
  | .nextContextCount =>
    if s.holder.isNone ∧ 0 < s.filtered ∧ s.canCount then
      some { s with contexts := s.contexts.nextContextCount, filtered := s.filtered - 1 }
    else none
  | .allocContextEntry =>
    if s.holder.isNone ∧ 0 < s.passed ∧ s.canCount then
      some ({ s with passed := s.passed - 1 }.perform s.contexts.allocContextEntry)
    else none
  | .fill index queue record =>
    if s.contexts.filling index = some .made then
      some (s.perform (s.contexts.fill index queue record))
    else none
  | .activate index =>
    if s.contexts.filling index = some .filled then
      some (s.perform (s.contexts.activate index))
    else none
  | .validate index =>
    if s.contexts.filling index = some .active then
      some (s.perform (s.contexts.validate index))
    else none
  | .complete index =>
    (s.contexts.complete index).map fun contexts ↦ { s with contexts }
  | .callHandler index =>
    if resultFileOpened ∧ index ∈ s.contexts.allocated ∧ s.contexts.filling index = none ∧
        index ∉ s.contexts.released ∧ index ∉ s.handled then
      some { s with handlers := s.handlers ++ [index], handled := s.handled ++ [index] }
    else none
  | .contextHandler index =>
    if s.holder.isNone ∧ index ∈ s.handlers then
      some ({ s with handlers := s.handlers.erase index }.contextHandler index)
    else none
  | .deallocContextEntry =>
    match s.holder with
    | some (.contextHandler index) =>
      some ({ s with holder := none }.perform do
        (← s.contexts.release index).deallocContextEntry index)
    | _ => none
  | .destroyCallback queue => some { s with destroys := s.destroys ++ [queue] }
  | .lockArray caller =>
    if s.holder.isNone ∧ s.calls caller then some (s.lockArray caller) else none
  | .nextEntry =>
    match s.holder with
    | some (.dumpContextArray caller (key :: todo) done) => s.nextEntry caller key todo done
    | _ => none
  | .dumpedEntry =>
    match s.holder with
    | some (.dumpContextEntry caller key todo done) =>
      some ({ s with holder := some (.dumpContextArray caller todo done) }.perform do
        (← s.contexts.release key).deactivate key)
    | _ => none
  | .unlockArray =>
    match s.holder with
    | some (.dumpContextArray caller [] done) => some (s.unlockArray caller done)
    | _ => none
  | .unload =>
    if s.holder.isNone ∧ s.unload = .notCalled then some { s with unload := .called } else none
  | .removeQueueCallbacks =>
    if s.unload = .called then
      some { s with unload := if resultFileOpened then .dumping else .comparing none none }
    else none
  | .readCollected =>
    match s.unload with
    | .comparing none count =>
      some { s with unload := .comparing (some s.contexts.contextCollected) count }
    | _ => none
  | .readCount =>
    match s.unload with
    | .comparing collected none =>
      some { s with unload := .comparing collected (some s.contexts.contextCount) }
    | _ => none
  | .compare =>
    match s.unload with
    | .comparing (some collected) (some count) =>
      some { s with unload := if collected ≠ count then .dumping else .dumped }
    | _ => none
  | .deleteArray =>
    if s.unload = .dumped then
      some { s with
        unload := .deleted
        contexts := { s.contexts with contextArray := .deleted } }
    else none
  | .clearArray =>
    if s.unload = .deleted then
      some { s with
        unload := .returned
        contexts := { s.contexts with contextArray := .null } }
    else none

/-- One event. -/
def step (resultFileOpened : Bool) (s : System) (event : Event) : Option System :=
  if s.stopped.isSome then none else s.next resultFileOpened event

/-! ## The property -/

/-- Each context is collected once: its index is its own, it is dumped after it is valid and at most
once, and so are its record, its name and the context given back; when `rocprofiler_unload` has
returned, all of them have been dumped.  No memory is used that is not there. -/
structure CollectedOnce (s : System) : Prop where
  distinct : s.contexts.allocated.Nodup
  running : s.stopped ≠ some .indexRepeated ∧ s.stopped ≠ some .undefined
  valid : ∀ index ∈ s.contexts.counted, index ∈ s.contexts.validated
  once : s.contexts.counted.Nodup ∧ s.contexts.released.Nodup
  all : s.unload = .returned → ∀ index ∈ s.contexts.allocated, index ∈ s.contexts.released

/-- The condition on an event: no dispatch makes an entry after `rocprofiler_unload` has looked at
the array for the last time; when this does not look at it at all, `context_count` is still what it
has read; while it deletes the array nobody is using it, or about to. -/
def orderly (s : System) : Event → Bool
  | .allocContextEntry => s.unload ≠ .dumped && s.unload ≠ .deleted && s.unload ≠ .returned
  | .compare =>
    match s.unload with
    | .comparing (some collected) (some count) =>
      collected ≠ count || count = s.contexts.contextCount
    | _ => true
  | .deleteArray => s.holder.all (!·.usesArray) && s.handlers.isEmpty
  | .lockArray _ => s.unload ≠ .deleted
  | _ => true

/-! ## The invariant -/

/-- The context that is in the middle of being dumped. -/
def System.dumping (s : System) : Option UInt32 := s.holder.bind Holder.dumping

theorem System.dumping_of_isNone {s : System} (h : s.holder.isNone) : s.dumping = none := by
  rw [System.dumping, Option.isNone_iff_eq_none.mp h]
  rfl

/-- Where the array is. -/
def ArrayOk : Unload → ContextArray → Prop
  | .deleted, a => a = .deleted
  | .returned, a => a = .null
  | _, a => ∃ entries, a = .live entries

/-- What `rocprofiler_unload` knows of the contexts. -/
def UnloadOk (c : Contexts) : Unload → Prop
  | .comparing (some collected) _ => ∃ k ≤ c.counted.length, collected = UInt32.ofNat k
  | .dumped => ∀ index ∈ c.allocated, index ∈ c.counted
  | .deleted => ∀ index ∈ c.allocated, index ∈ c.released
  | .returned => ∀ index ∈ c.allocated, index ∈ c.released
  | _ => True

/-- When `rocprofiler_unload` goes through the array and has done all up to these entries, all the
others have been dumped. -/
def SweepOk (c : Contexts) (unload : Unload) (caller : Caller) (left : List UInt32)
    (done : Bool) : Prop :=
  caller = .rocprofilerUnload → unload = .dumping ∧
    (done = true → ∀ index ∈ c.allocated, index ∉ left → index ∈ c.released)

/-- What the thread that holds the mutex knows. -/
def HolderOk (s : System) : Holder → Prop
  | .dumpContextArray caller todo done =>
    (∀ key ∈ todo, (s.contexts.contextArray.entryAt key).isSome) ∧
      SweepOk s.contexts s.unload caller todo done
  | .dumpContextEntry caller key todo done =>
    (∀ key ∈ todo, (s.contexts.contextArray.entryAt key).isSome) ∧
      SweepOk s.contexts s.unload caller (key :: todo) done
  | .contextHandler index => index ∉ s.handlers ∧ index ∈ s.handled

/-- What holds in every state. -/
structure Inv (s : System) : Prop where
  running : s.stopped ≠ some .indexRepeated ∧ s.stopped ≠ some .undefined
  tracks : Tracks s.dumping s.contexts
  array : ArrayOk s.unload s.contexts.contextArray
  unload : UnloadOk s.contexts s.unload
  holder : ∀ holder, s.holder = some holder → HolderOk s holder
  handlers : s.handlers.Nodup
  waiting : ∀ index ∈ s.handlers, index ∈ s.handled ∧
    (s.contexts.contextArray.entryAt index).isSome ∧ s.contexts.filling index = none

theorem ArrayOk.of_live {u : Unload} {a a' : ContextArray} (h : ArrayOk u a)
    (ha : ∃ entries, a = .live entries) (ha' : ∃ entries, a' = .live entries) : ArrayOk u a' := by
  obtain ⟨entries, rfl⟩ := ha
  rcases u with _ | _ | _ | _ | _ | _ | _
  · exact ha'
  · exact ha'
  · exact ha'
  · exact ha'
  · exact ha'
  · cases h
  · cases h

theorem UnloadOk.of_keeps {erased : Option UInt32} {c c' : Contexts} {u : Unload}
    (h : UnloadOk c u) (hk : Keeps erased c c') : UnloadOk c' u := by
  rcases u with _ | _ | ⟨_ | collected, count⟩ | _ | _ | _ | _
  · trivial
  · trivial
  · trivial
  · obtain ⟨k, hk', hcollected⟩ := h
    exact ⟨k, hk'.trans hk.counted.length_le, hcollected⟩
  · trivial
  · exact fun index hindex ↦ hk.counted.subset (h index (hk.allocated ▸ hindex))
  · exact fun index hindex ↦ hk.released.subset (h index (hk.allocated ▸ hindex))
  · exact fun index hindex ↦ hk.released.subset (h index (hk.allocated ▸ hindex))

theorem SweepOk.of_keeps {erased : Option UInt32} {c c' : Contexts} {u : Unload} {caller : Caller}
    {left : List UInt32} {done : Bool} (h : SweepOk c u caller left done)
    (hk : Keeps erased c c') : SweepOk c' u caller left done := by
  refine fun hcaller ↦ ⟨(h hcaller).1, fun hdone index hindex hleft ↦ ?_⟩
  exact hk.released.subset ((h hcaller).2 hdone index (hk.allocated ▸ hindex) hleft)

theorem HolderOk.of_keeps {s : System} {c' : Contexts} {holder : Holder} (h : HolderOk s holder)
    (hk : Keeps none s.contexts c') : HolderOk { s with contexts := c' } holder := by
  rcases holder with ⟨caller, todo, done⟩ | ⟨caller, key, todo, done⟩ | index
  · exact ⟨fun i hi ↦ hk.present i (by simp) (h.1 i hi), h.2.of_keeps hk⟩
  · exact ⟨fun i hi ↦ hk.present i (by simp) (h.1 i hi), h.2.of_keeps hk⟩
  · exact h

/-- **The contexts go on**, and with them the thread that holds the mutex. -/
theorem Inv.advance {s : System} {c' : Contexts} (hI : Inv s) (holder' : Option Holder)
    (ht : Tracks (holder'.bind Holder.dumping) c') (hk : Keeps none s.contexts c')
    (hok : ∀ holder, holder' = some holder → HolderOk { s with contexts := c' } holder) :
    Inv { s with contexts := c', holder := holder' } :=
  ⟨hI.running, ht, hI.array.of_live hk.live.1 hk.live.2, hI.unload.of_keeps hk, hok, hI.handlers,
    fun index hindex ↦ ⟨(hI.waiting index hindex).1,
      hk.present index (by simp) (hI.waiting index hindex).2.1,
      hk.filling index (hI.waiting index hindex).2.2⟩⟩

/-- The contexts go on, while the thread that holds the mutex does what it does. -/
theorem Inv.of_keeps {s : System} {c' : Contexts} (hI : Inv s) (ht : Tracks s.dumping c')
    (hk : Keeps none s.contexts c') : Inv { s with contexts := c' } :=
  hI.advance s.holder ht hk fun holder hholder ↦ (hI.holder holder hholder).of_keeps hk

/-- The thread that holds the mutex goes on, and does not touch the contexts. -/
theorem Inv.of_holder {s : System} {holder' : Option Holder} (hI : Inv s)
    (ht : Tracks (holder'.bind Holder.dumping) s.contexts)
    (hok : ∀ holder, holder' = some holder → HolderOk s holder) :
    Inv { s with holder := holder' } :=
  ⟨hI.running, ht, hI.array, hI.unload, hok, hI.handlers, hI.waiting⟩

theorem Inv.tracks_of_holder {s : System} {holder : Holder} (hI : Inv s)
    (h : s.holder = some holder) : Tracks holder.dumping s.contexts := by
  have htracks := hI.tracks
  rwa [System.dumping, h] at htracks

theorem Inv.array_of_unload {s : System} {u : Unload} (hI : Inv s) (h : s.unload = u) :
    ArrayOk u s.contexts.contextArray :=
  h ▸ hI.array

theorem Inv.ok_of_unload {s : System} {u : Unload} (hI : Inv s) (h : s.unload = u) :
    UnloadOk s.contexts u :=
  h ▸ hI.unload

theorem ArrayOk.exists_live {u : Unload} {a : ContextArray} (h : ArrayOk u a)
    (hdeleted : u ≠ .deleted) (hreturned : u ≠ .returned) : ∃ entries, a = .live entries := by
  rcases u with _ | _ | _ | _ | _ | _ | _
  · exact h
  · exact h
  · exact h
  · exact h
  · exact h
  · exact absurd rfl hdeleted
  · exact absurd rfl hreturned

theorem ArrayOk.eq_deleted {u : Unload} {a : ContextArray} (h : ArrayOk u a) (ha : a = .deleted) :
    u = .deleted := by
  subst ha
  by_contra hne
  rcases eq_or_ne u .returned with rfl | hreturned
  · cases h
  · obtain ⟨entries, hentries⟩ := h.exists_live hne hreturned
    cases hentries

/-! ## Dispatches -/

theorem Inv.perform {s : System} {x : Except Stop Contexts} (hI : Inv s)
    (h : ∃ c', x = .ok c' ∧ Tracks s.dumping c' ∧ Keeps none s.contexts c') :
    Inv (s.perform x) := by
  obtain ⟨c', rfl, ht, hk⟩ := h
  exact hI.of_keeps ht hk

/-- **A dispatch makes an entry**, before `rocprofiler_unload` has looked at the array for the last
time. -/
theorem Inv.allocContextEntry {s : System} (hI : Inv s) (hholder : s.holder.isNone)
    (hcan : s.canCount) (horderly : orderly s .allocContextEntry) :
    Inv ({ s with passed := s.passed - 1 }.perform s.contexts.allocContextEntry) := by
  obtain ⟨hdumped, hdeleted, hreturned⟩ :
      s.unload ≠ .dumped ∧ s.unload ≠ .deleted ∧ s.unload ≠ .returned := by
    simpa [orderly, and_assoc] using horderly
  obtain ⟨entries, hlive⟩ := hI.array.exists_live hdeleted hreturned
  obtain ⟨halloc, htracks⟩ := hI.tracks.allocContextEntry (of_decide_eq_true hcan) hlive
  rw [halloc]
  have hne : ∀ index ∈ s.handlers, index ≠ s.contexts.contextCount := by
    rintro index hindex rfl
    have hnew : s.contexts.contextCount ∉ s.contexts.allocated := fun hmem ↦
      absurd (hI.tracks.counts.below _ hmem) (UInt32.lt_irrefl _)
    have hsome := (hI.waiting _ hindex).2.1
    rw [((hI.tracks.stage _).of_notMem_allocated hnew).1] at hsome
    cases hsome
  refine ⟨hI.running, htracks, hI.array.of_live ⟨entries, hlive⟩ ⟨_, rfl⟩, ?_, fun holder h ↦ ?_,
    hI.handlers, fun index hindex ↦ ?_⟩
  · have hunload := hI.unload
    show UnloadOk (s.contexts.made entries) s.unload
    rcases hu : s.unload with _ | _ | ⟨_ | collected, count⟩ | _ | _ | _ | _
    · trivial
    · trivial
    · trivial
    · rw [hu] at hunload
      exact hunload
    · trivial
    · exact absurd hu hdumped
    · exact absurd hu hdeleted
    · exact absurd hu hreturned
  · rw [Option.isNone_iff_eq_none] at hholder
    rw [hholder] at h
    cases h
  · obtain ⟨hhandled, hsome, hfilling⟩ := hI.waiting index hindex
    refine ⟨hhandled, ?_, (UMap.assign_of_ne _ _ (hne index hindex)).trans hfilling⟩
    rw [hlive] at hsome
    show ((ContextArray.live _).entryAt index).isSome
    rwa [entry_insert_of_ne entries {} (hne index hindex)]

/-- A dispatch is counted. -/
theorem Inv.nextContextCount {s : System} (hI : Inv s) (hcan : s.canCount) :
    Inv { s with contexts := s.contexts.nextContextCount, filtered := s.filtered - 1 } :=
  ⟨hI.running, hI.tracks.nextContextCount (of_decide_eq_true hcan), hI.array, hI.unload, hI.holder,
    hI.handlers, hI.waiting⟩

/-! ## Completion handlers -/

/-- The library calls a handler. -/
theorem Inv.callHandler {s : System} {index : UInt32} (hI : Inv s)
    (hallocated : index ∈ s.contexts.allocated) (hfilling : s.contexts.filling index = none)
    (hreleased : index ∉ s.contexts.released) (hhandled : index ∉ s.handled) :
    Inv { s with handlers := s.handlers ++ [index], handled := s.handled ++ [index] } := by
  obtain ⟨e, hentry⟩ :=
    (hI.tracks.stage index).exists_of_allocated hallocated hfilling hreleased
  have hnew : index ∉ s.handlers := fun hmem ↦ hhandled (hI.waiting index hmem).1
  refine ⟨hI.running, hI.tracks, hI.array, hI.unload, fun holder hholder ↦ ?_, ?_, fun i hi ↦ ?_⟩
  · have hok := hI.holder holder hholder
    rcases holder with ⟨caller, todo, done⟩ | ⟨caller, key, todo, done⟩ | i
    · exact hok
    · exact hok
    · refine ⟨fun hmem ↦ ?_, List.mem_append_left _ hok.2⟩
      rcases List.mem_append.mp hmem with hi | hi
      · exact hok.1 hi
      · exact hhandled (List.mem_singleton.mp hi ▸ hok.2)
  · rw [← List.concat_eq_append]
    exact hI.handlers.concat hnew
  · rcases List.mem_append.mp hi with hi | hi
    · obtain ⟨hhandled', hrest⟩ := hI.waiting i hi
      exact ⟨List.mem_append_left _ hhandled', hrest⟩
    · obtain rfl := List.mem_singleton.mp hi
      refine ⟨List.mem_append_right _ (List.mem_singleton_self i), ?_, hfilling⟩
      rw [hentry]
      rfl

/-- An entry is erased, and no handler waits that is about it. -/
theorem Inv.of_erased {s : System} {c' : Contexts} {index : UInt32} {handlers : List UInt32}
    (hI : Inv s) (ht : Tracks none c') (hk : Keeps (some index) s.contexts c')
    (hsub : handlers.Sublist s.handlers) (hindex : index ∉ handlers) :
    Inv { s with contexts := c', holder := none, handlers } := by
  refine ⟨hI.running, ht, hI.array.of_live hk.live.1 hk.live.2, hI.unload.of_keeps hk,
    fun holder h ↦ (by cases h), hI.handlers.sublist hsub, fun i hi ↦ ?_⟩
  obtain ⟨hhandled, hsome, hfilling⟩ := hI.waiting i (hsub.subset hi)
  refine ⟨hhandled, hk.present i ?_ hsome, hk.filling i hfilling⟩
  rw [ne_eq, Option.some.injEq]
  rintro rfl
  exact hindex hi

/-- **A handler gets the mutex.** -/
theorem Inv.contextHandler {s : System} {index : UInt32} (hI : Inv s) (hholder : s.holder.isNone)
    (hindex : index ∈ s.handlers) :
    Inv ({ s with handlers := s.handlers.erase index }.contextHandler index) := by
  have ht : Tracks none s.contexts := System.dumping_of_isNone hholder ▸ hI.tracks
  have hnone : s.holder = none := Option.isNone_iff_eq_none.mp hholder
  have hsub := List.erase_sublist (a := index) (l := s.handlers)
  have herased : index ∉ s.handlers.erase index := hI.handlers.not_mem_erase
  obtain ⟨hhandled, hsome, hfilling⟩ := hI.waiting index hindex
  obtain ⟨e, hentry⟩ := Option.isSome_iff_exists.mp hsome
  have hvalid := (ht.stage index).valid_of_filling hentry hfilling
  have hwaiting : ∀ i ∈ s.handlers.erase index, i ∈ s.handled ∧
      (s.contexts.contextArray.entryAt i).isSome ∧ s.contexts.filling i = none :=
    fun i hi ↦ hI.waiting i (hsub.subset hi)
  simp only [System.contextHandler, read_of_entry hentry]
  split_ifs with hactive hrecord
  · exact ⟨⟨by simp, by simp⟩, hI.tracks, hI.array, hI.unload,
      fun holder h ↦ absurd h (by simp [hnone]), hI.handlers.sublist hsub, hwaiting⟩
  · obtain ⟨htracks, hkeeps⟩ := ht.count hentry hvalid hactive
    refine ⟨hI.running, htracks, hI.array.of_live hkeeps.live.1 hkeeps.live.2,
      hI.unload.of_keeps hkeeps, fun holder h ↦ ?_, hI.handlers.sublist hsub, hwaiting⟩
    cases h
    exact ⟨herased, hhandled⟩
  · obtain ⟨c', hc', htracks, hkeeps⟩ :=
      ht.deallocContextEntry hentry hvalid (by simpa using hactive)
    rw [hc']
    have hI' := hI.of_erased htracks hkeeps hsub herased
    rw [← hnone] at hI'
    exact hI'

/-- **A handler is done** with a context that it has counted. -/
theorem Inv.deallocContextEntry {s : System} {index : UInt32} (hI : Inv s)
    (hholder : s.holder = some (.contextHandler index)) :
    Inv ({ s with holder := none }.perform do
      (← s.contexts.release index).deallocContextEntry index) := by
  have ht : Tracks (some index) s.contexts := hI.tracks_of_holder hholder
  obtain ⟨c', hc', htracks, hkeeps⟩ := ht.releaseAndDealloc
  rw [hc']
  exact hI.of_erased htracks hkeeps (List.Sublist.refl _) (hI.holder _ hholder).1

/-! ## Going through the array -/

/-- **A round of `dump_context_array` begins**, unless the array is being deleted. -/
theorem Inv.lockArray {s : System} {caller : Caller} (hI : Inv s) (hholder : s.holder.isNone)
    (hcalls : s.calls caller) (horderly : orderly s (.lockArray caller)) :
    Inv (s.lockArray caller) := by
  have hnone : s.holder = none := Option.isNone_iff_eq_none.mp hholder
  have htracks : Tracks none s.contexts := System.dumping_of_isNone hholder ▸ hI.tracks
  have hdumping : caller = .rocprofilerUnload → s.unload = .dumping := by
    rintro rfl
    exact of_decide_eq_true hcalls
  rw [System.lockArray]
  split
  · next entries hlive =>
    refine hI.of_holder htracks fun holder h ↦ ?_
    obtain rfl := Option.some.inj h
    refine ⟨fun key hkey ↦ ?_, fun hcaller ↦ ⟨hdumping hcaller, fun _ index hindex hleft ↦ ?_⟩⟩
    · show (s.contexts.contextArray.entryAt key).isSome
      rw [hlive]
      exact Std.TreeMap.isSome_getElem?_iff_mem.mpr (Std.TreeMap.mem_keys.mp hkey)
    · refine (hI.tracks.stage index).released_of_none hindex ?_
      rw [hlive]
      exact Std.TreeMap.getElem?_eq_none fun hmem ↦ hleft (Std.TreeMap.mem_keys.mpr hmem)
  · next hnull =>
    refine hI.of_holder htracks fun holder h ↦ ?_
    obtain rfl := Option.some.inj h
    refine ⟨fun key hkey ↦ absurd hkey List.not_mem_nil, fun hcaller ↦ ?_⟩
    -- while `rocprofiler_unload` is there, the array is
    have harray := hI.array_of_unload (hdumping hcaller)
    rw [hnull] at harray
    obtain ⟨entries, hentries⟩ := harray
    cases hentries
  · next hdeleted =>
    exact absurd (hI.array.eq_deleted hdeleted) (of_decide_eq_true horderly)

/-- **`dump_context_array` comes to an entry.** -/
theorem Inv.nextEntry {s t : System} {caller : Caller} {key : UInt32} {todo : List UInt32}
    {done : Bool} (hI : Inv s)
    (hholder : s.holder = some (.dumpContextArray caller (key :: todo) done))
    (h : s.nextEntry caller key todo done = some t) : Inv t := by
  have ht : Tracks none s.contexts := hI.tracks_of_holder hholder
  obtain ⟨hpresent, hsweep⟩ := hI.holder _ hholder
  have hpresent' : ∀ i ∈ todo, (s.contexts.contextArray.entryAt i).isSome :=
    fun i hi ↦ hpresent i (List.mem_cons_of_mem key hi)
  obtain ⟨e, hentry⟩ := Option.isSome_iff_exists.mp (hpresent key List.mem_cons_self)
  simp only [System.nextEntry, read_of_entry hentry, Option.ite_none_left_eq_some] at h
  obtain ⟨hvalid, h⟩ := h
  have hvalid : e.valid = true := by simpa using hvalid
  split_ifs at h with htakes hrecord
  · -- the kernel is not done
    obtain rfl := Option.some.inj h
    refine hI.of_holder ht fun holder h ↦ ?_
    obtain rfl := Option.some.inj h
    exact ⟨hpresent', fun hcaller ↦ ⟨(hsweep hcaller).1, fun hdone ↦
      absurd hdone Bool.false_ne_true⟩⟩
  · obtain rfl := Option.some.inj h
    obtain ⟨-, hactive⟩ := Bool.and_eq_true_iff.mp htakes
    obtain ⟨htracks, hkeeps⟩ := ht.count hentry hvalid hactive
    refine hI.advance (some (.dumpContextEntry caller key todo done)) htracks hkeeps
      fun holder h ↦ ?_
    obtain rfl := Option.some.inj h
    exact ⟨hpresent', hsweep.of_keeps hkeeps⟩
  · obtain rfl := Option.some.inj h
    refine hI.of_holder ht fun holder h ↦ ?_
    obtain rfl := Option.some.inj h
    refine ⟨hpresent', fun hcaller ↦ ⟨(hsweep hcaller).1, fun hdone index hindex hleft ↦ ?_⟩⟩
    rcases eq_or_ne index key with rfl | hne
    · -- the final round takes every queue, so that the entry is not active
      have hinactive : e.active = false := by
        subst hcaller
        simpa [Caller.queue] using htakes
      obtain ⟨-, -, -, ⟨hactive, -⟩ | ⟨-, -, hreleased⟩⟩ :=
        (ht.stage index).exists_of_valid hentry hvalid
      · rw [hinactive] at hactive
        cases hactive
      · exact hreleased
    · exact (hsweep hcaller).2 hdone index hindex (List.not_mem_cons_of_ne_of_not_mem hne hleft)

/-- **`dump_context_array` is done with an entry** that it has counted. -/
theorem Inv.dumpedEntry {s : System} {caller : Caller} {key : UInt32} {todo : List UInt32}
    {done : Bool} (hI : Inv s)
    (hholder : s.holder = some (.dumpContextEntry caller key todo done)) :
    Inv ({ s with holder := some (.dumpContextArray caller todo done) }.perform do
      (← s.contexts.release key).deactivate key) := by
  have ht : Tracks (some key) s.contexts := hI.tracks_of_holder hholder
  obtain ⟨hpresent, hsweep⟩ := hI.holder _ hholder
  obtain ⟨c', hc', htracks, hkeeps, hreleased⟩ := ht.releaseAndDeactivate
  rw [hc']
  refine hI.advance (some (.dumpContextArray caller todo done)) htracks hkeeps fun holder h ↦ ?_
  obtain rfl := Option.some.inj h
  refine ⟨fun i hi ↦ hkeeps.present i (by simp) (hpresent i hi), fun hcaller ↦
    ⟨(hsweep hcaller).1, fun hdone index hindex hleft ↦ ?_⟩⟩
  rcases eq_or_ne index key with rfl | hne
  · exact hreleased
  · exact (hsweep.of_keeps hkeeps hcaller).2 hdone index hindex
      (List.not_mem_cons_of_ne_of_not_mem hne hleft)

/-- **A round of `dump_context_array` ends.** -/
theorem Inv.unlockArray {s : System} {caller : Caller} {done : Bool} (hI : Inv s)
    (hholder : s.holder = some (.dumpContextArray caller [] done)) :
    Inv (s.unlockArray caller done) := by
  have ht : Tracks none s.contexts := hI.tracks_of_holder hholder
  have hI' : Inv { s with holder := none } := hI.of_holder ht fun _ h ↦ by cases h
  cases done with
  | false => exact hI'
  | true =>
    rcases caller with queue | _
    · exact ⟨hI'.running, hI'.tracks, hI'.array, hI'.unload, hI'.holder, hI'.handlers, hI'.waiting⟩
    · obtain ⟨hunload, hall⟩ := (hI.holder _ hholder).2 rfl
      have harray := hI.array_of_unload hunload
      refine ⟨hI.running, ht, harray, fun index hindex ↦ ?_, fun _ h ↦ (by cases h), hI.handlers,
        hI.waiting⟩
      exact (ht.stage index).counted_of_released (hall rfl index hindex List.not_mem_nil)

/-! ## Unloading -/

theorem HolderOk.of_unload {s : System} {holder : Holder} (h : HolderOk s holder)
    (hunload : s.unload ≠ .dumping) (u : Unload) : HolderOk { s with unload := u } holder := by
  rcases holder with ⟨caller, todo, done⟩ | ⟨caller, key, todo, done⟩ | index
  · exact ⟨h.1, fun hcaller ↦ absurd (h.2 hcaller).1 hunload⟩
  · exact ⟨h.1, fun hcaller ↦ absurd (h.2 hcaller).1 hunload⟩
  · exact h

/-- `rocprofiler_unload` goes on, and does not touch the contexts. -/
theorem Inv.of_unload {s : System} (hI : Inv s) (hunload : s.unload ≠ .dumping) {u : Unload}
    (harray : ArrayOk u s.contexts.contextArray) (hok : UnloadOk s.contexts u) :
    Inv { s with unload := u } :=
  ⟨hI.running, hI.tracks, harray, hok,
    fun holder h ↦ (hI.holder holder h).of_unload hunload u, hI.handlers, hI.waiting⟩

/-- **The array is deleted**, when nobody is using it and all is counted. -/
theorem Inv.deleteArray {s : System} (hI : Inv s) (hunload : s.unload = .dumped)
    (horderly : orderly s .deleteArray) :
    Inv { s with
      unload := .deleted
      contexts := { s.contexts with contextArray := .deleted } } := by
  rw [orderly, Bool.and_eq_true, List.isEmpty_iff] at horderly
  obtain ⟨hfree, hhandlers⟩ := horderly
  have hcounted : ∀ index ∈ s.contexts.allocated, index ∈ s.contexts.counted :=
    hI.ok_of_unload hunload
  have hne : s.unload ≠ .dumping := by
    rw [hunload]
    decide
  have hnone : s.dumping = none := by
    rcases hholder : s.holder with _ | _ | _ | _
    · exact System.dumping_of_isNone (by rw [hholder]; rfl)
    · rw [System.dumping, hholder]
      rfl
    · rw [hholder] at hfree
      cases hfree
    · rw [hholder] at hfree
      cases hfree
  have ht : Tracks none s.contexts := hnone ▸ hI.tracks
  have htracks : Tracks s.dumping { s.contexts with contextArray := .deleted } := by
    rw [hnone]
    exact ht.delete hcounted fun _ ↦ rfl
  refine ⟨hI.running, htracks, rfl, fun index hindex ↦ ?_, fun holder h ↦ ?_, hI.handlers,
    fun index hindex ↦ ?_⟩
  · exact ((ht.stage index).released_of_counted (hcounted index hindex)).2.2.2
  · have hok := hI.holder holder h
    rw [show s.holder = some holder from h] at hfree
    rcases holder with ⟨caller, _ | ⟨key, todo⟩, done⟩ | _ | _
    · exact ⟨fun key hkey ↦ (by cases hkey), fun hcaller ↦ absurd (hok.2 hcaller).1 hne⟩
    · cases hfree
    · cases hfree
    · cases hfree
  · rw [hhandlers] at hindex
    cases hindex

/-- The pointer is reset, and `rocprofiler_unload` returns. -/
theorem Inv.clearArray {s : System} (hI : Inv s) (hunload : s.unload = .deleted) :
    Inv { s with
      unload := .returned
      contexts := { s.contexts with contextArray := .null } } := by
  have hdeleted : s.contexts.contextArray = .deleted := hI.array_of_unload hunload
  have hentry : ∀ index,
      ContextArray.null.entryAt index = s.contexts.contextArray.entryAt index := by
    intro index
    rw [hdeleted]
    rfl
  refine ⟨hI.running, ⟨fun index ↦ ?_, hI.tracks.counts.frame _ _ _⟩, rfl,
    hI.ok_of_unload hunload, fun holder h ↦ ?_, hI.handlers, fun index hindex ↦ ?_⟩
  · exact (hI.tracks.stage index).of_same
      ⟨Iff.rfl, hentry index, rfl, Iff.rfl, Iff.rfl, Iff.rfl, Iff.rfl⟩
  · have hok' := (hI.holder holder h).of_unload (by rw [hunload]; decide) .returned
    rcases holder with ⟨caller, todo, done⟩ | ⟨caller, key, todo, done⟩ | _
    · exact ⟨fun key hkey ↦ hentry key ▸ hok'.1 key hkey, hok'.2⟩
    · exact ⟨fun key hkey ↦ hentry key ▸ hok'.1 key hkey, hok'.2⟩
    · exact hok'
  · obtain ⟨hhandled, hsome, hfilling⟩ := hI.waiting index hindex
    exact ⟨hhandled, hentry index ▸ hsome, hfilling⟩

/-- **The counters are compared.** -/
theorem Inv.compare {s : System} {collected count : UInt32} (hI : Inv s)
    (hunload : s.unload = .comparing (some collected) (some count))
    (horderly : orderly s .compare) :
    Inv { s with unload := if collected ≠ count then .dumping else .dumped } := by
  have harray := hI.array_of_unload hunload
  have hne : s.unload ≠ .dumping := by
    rw [hunload]
    exact fun h ↦ by cases h
  obtain ⟨k, hk, rfl⟩ := hI.ok_of_unload hunload
  split_ifs with hcompare
  · exact hI.of_unload hne harray trivial
  · refine hI.of_unload hne harray (hI.tracks.counted_of_eq hk ?_)
    simp only [orderly, hunload] at horderly
    have heq : UInt32.ofNat k = count := Decidable.not_not.mp hcompare
    rw [heq] at horderly ⊢
    simpa using horderly

/-! ## Runs -/

theorem inv_start : Inv {} := by
  refine ⟨⟨by simp, by simp⟩, ⟨fun index ↦ ?_, ⟨Nat.zero_le _, fun index h ↦ (by cases h),
    List.nodup_nil, rfl, List.nodup_nil, List.nodup_nil⟩⟩, ⟨∅, rfl⟩, trivial,
    fun holder h ↦ (by cases h), List.nodup_nil, fun index h ↦ (by cases h)⟩
  exact .absent List.not_mem_nil Std.TreeMap.getElem?_emptyc rfl List.not_mem_nil List.not_mem_nil
    (by simp [System.dumping])

/-- **The step.** -/
theorem inv_step {resultFileOpened : Bool} {s t : System} {event : Event} (hI : Inv s)
    (horderly : orderly s event) (h : step resultFileOpened s event = some t) : Inv t := by
  rw [step, Option.ite_none_left_eq_some] at h
  obtain ⟨-, h⟩ := h
  cases event with
  | dispatch passes =>
    obtain ⟨-, h⟩ := Option.ite_none_right_eq_some.mp h
    cases h
    cases passes
    · exact ⟨hI.running, hI.tracks, hI.array, hI.unload, hI.holder, hI.handlers, hI.waiting⟩
    · exact ⟨hI.running, hI.tracks, hI.array, hI.unload, hI.holder, hI.handlers, hI.waiting⟩
  | nextContextCount =>
    obtain ⟨⟨-, -, hcan⟩, h⟩ := Option.ite_none_right_eq_some.mp h
    cases h
    exact hI.nextContextCount hcan
  | allocContextEntry =>
    obtain ⟨⟨hholder, -, hcan⟩, h⟩ := Option.ite_none_right_eq_some.mp h
    cases h
    exact hI.allocContextEntry hholder hcan horderly
  | fill index queue record =>
    obtain ⟨hfilling, h⟩ := Option.ite_none_right_eq_some.mp h
    cases h
    exact hI.perform (hI.tracks.fill hfilling queue record)
  | activate index =>
    obtain ⟨hfilling, h⟩ := Option.ite_none_right_eq_some.mp h
    cases h
    exact hI.perform (hI.tracks.activate hfilling)
  | validate index =>
    obtain ⟨hfilling, h⟩ := Option.ite_none_right_eq_some.mp h
    cases h
    exact hI.perform (hI.tracks.validate hfilling)
  | complete index =>
    obtain ⟨c', hc', rfl⟩ := Option.map_eq_some_iff.mp h
    obtain ⟨htracks, hkeeps⟩ := hI.tracks.complete hc'
    exact hI.of_keeps htracks hkeeps
  | callHandler index =>
    obtain ⟨⟨-, hallocated, hfilling, hreleased, hhandled⟩, h⟩ :=
      Option.ite_none_right_eq_some.mp h
    cases h
    exact hI.callHandler hallocated hfilling hreleased hhandled
  | contextHandler index =>
    obtain ⟨⟨hholder, hindex⟩, h⟩ := Option.ite_none_right_eq_some.mp h
    cases h
    exact hI.contextHandler hholder hindex
  | deallocContextEntry =>
    rw [System.next.eq_def] at h
    dsimp only at h
    split at h
    · next index hholder =>
      cases h
      exact hI.deallocContextEntry hholder
    · cases h
  | destroyCallback queue =>
    cases h
    exact ⟨hI.running, hI.tracks, hI.array, hI.unload, hI.holder, hI.handlers, hI.waiting⟩
  | lockArray caller =>
    obtain ⟨⟨hholder, hcalls⟩, h⟩ := Option.ite_none_right_eq_some.mp h
    cases h
    exact hI.lockArray hholder hcalls horderly
  | nextEntry =>
    rw [System.next.eq_def] at h
    dsimp only at h
    split at h
    · next caller key todo done hholder => exact hI.nextEntry hholder h
    · cases h
  | dumpedEntry =>
    rw [System.next.eq_def] at h
    dsimp only at h
    split at h
    · next caller key todo done hholder =>
      cases h
      exact hI.dumpedEntry hholder
    · cases h
  | unlockArray =>
    rw [System.next.eq_def] at h
    dsimp only at h
    split at h
    · next caller done hholder =>
      cases h
      exact hI.unlockArray hholder
    · cases h
  | unload =>
    obtain ⟨⟨-, hunload⟩, h⟩ := Option.ite_none_right_eq_some.mp h
    cases h
    have harray := hI.array_of_unload hunload
    exact hI.of_unload (by rw [hunload]; decide) harray trivial
  | removeQueueCallbacks =>
    obtain ⟨hunload, h⟩ := Option.ite_none_right_eq_some.mp h
    cases h
    have harray := hI.array_of_unload hunload
    cases resultFileOpened
    · exact hI.of_unload (by rw [hunload]; decide) harray trivial
    · exact hI.of_unload (by rw [hunload]; decide) harray trivial
  | readCollected =>
    rw [System.next.eq_def] at h
    dsimp only at h
    split at h
    · next count hunload =>
      cases h
      have harray := hI.array_of_unload hunload
      exact hI.of_unload (by rw [hunload]; exact fun h ↦ by cases h) harray
        ⟨_, Nat.le_refl _, hI.tracks.counts.collected⟩
    · cases h
  | readCount =>
    rw [System.next.eq_def] at h
    dsimp only at h
    split at h
    · next collected hunload =>
      cases h
      have harray := hI.array_of_unload hunload
      have hok := hI.ok_of_unload hunload
      refine hI.of_unload (by rw [hunload]; exact fun h ↦ by cases h) harray ?_
      rcases collected with _ | collected
      · trivial
      · exact hok
    · cases h
  | compare =>
    rw [System.next.eq_def] at h
    dsimp only at h
    split at h
    · next collected count hunload =>
      cases h
      exact hI.compare hunload horderly
    · cases h
  | deleteArray =>
    obtain ⟨hunload, h⟩ := Option.ite_none_right_eq_some.mp h
    cases h
    exact hI.deleteArray hunload horderly
  | clearArray =>
    obtain ⟨hunload, h⟩ := Option.ite_none_right_eq_some.mp h
    cases h
    exact hI.clearArray hunload

theorem Inv.collectedOnce {s : System} (hI : Inv s) : CollectedOnce s := by
  refine ⟨hI.tracks.counts.distinct, hI.running,
    fun index hindex ↦ ((hI.tracks.stage index).validated_of_counted hindex).2,
    ⟨hI.tracks.counts.counted, hI.tracks.counts.released⟩, fun hunload ↦ ?_⟩
  exact hI.ok_of_unload hunload

/-- **Every context is collected once**, in every orderly run. -/
theorem everywhere_collectedOnce {resultFileOpened : Bool} {events : List Event}
    (h : Along (step resultFileOpened) {} (fun s event ↦ orderly s event) events) :
    Everywhere (step resultFileOpened) {} CollectedOnce events := by
  have hinv := along_invariant inv_start
    (fun s event t hI horderly ht ↦ inv_step hI horderly ht) h
  exact fun xs t hpre ht ↦ (hinv xs t hpre ht).collectedOnce

/-- Two contexts and a dispatch that does not pass the filter, with an output file: a handler takes
the first context, and `rocprofiler_unload` the second one, for whose dispatch it waits. -/
def orderlyEvents : List Event :=
  [.dispatch true, .dispatch false, .allocContextEntry, .nextContextCount, .dispatch true,
    .fill 0 1 (some false), .activate 0, .allocContextEntry, .validate 0, .complete 0,
    .callHandler 0, .contextHandler 0, .deallocContextEntry, .unload, .removeQueueCallbacks,
    .lockArray .rocprofilerUnload, .fill 2 2 none, .activate 2, .validate 2, .nextEntry,
    .dumpedEntry, .unlockArray, .deleteArray, .clearArray]

theorem everywhere_collectedOnce_twoContexts :
    Everywhere (step true) {} CollectedOnce orderlyEvents ∧
      (run (step true) {} orderlyEvents).map
          (fun s ↦ (s.unload, s.stopped, s.contexts.allocated, s.contexts.released))
        = some (.returned, none, [0, 2], [0, 2]) :=
  ⟨everywhere_collectedOnce (along_of_checkAlong (by decide +kernel)), by decide +kernel⟩

/-- A queue is destroyed while the tool is unloaded: its only context is counted, and about to be
dumped. -/
def countedEvents : List Event :=
  [.dispatch true, .allocContextEntry, .fill 0 1 (some false), .activate 0, .validate 0,
    .complete 0, .unload, .removeQueueCallbacks, .destroyCallback (some 1),
    .lockArray (.destroyCallback (some 1)), .nextEntry]

/-- **Without an output file, `rocprofiler_unload` returns too early**: the counters are equal, so
that it skips its round, for which it would have to wait with an output file, deletes the array and
returns before the context is dumped. -/
theorem returns_before_dumped :
    (∃ t, run (step false) {}
        (countedEvents ++ [.readCollected, .readCount, .compare, .deleteArray, .clearArray])
          = some t ∧
      t.stopped = none ∧ t.unload = .returned ∧ t.contexts.allocated = [0] ∧
      t.contexts.released = [] ∧ ¬CollectedOnce t) ∧
    (run (step true) {} countedEvents).isSome ∧
      run (step true) {} (countedEvents ++ [.lockArray .rocprofilerUnload]) = none := by
  have hrun : (run (step false) {}
      (countedEvents ++ [.readCollected, .readCount, .compare, .deleteArray, .clearArray])).map
        (fun s ↦ (s.stopped, s.unload, s.contexts.allocated, s.contexts.released))
      = some (none, .returned, [0], []) := by decide +kernel
  obtain ⟨t, ht, hfields⟩ := Option.map_eq_some_iff.mp hrun
  simp only [Prod.mk.injEq] at hfields
  obtain ⟨hstopped, hunload, hallocated, hreleased⟩ := hfields
  refine ⟨⟨t, ht, hstopped, hunload, hallocated, hreleased, fun h ↦ ?_⟩, by decide +kernel, ?_⟩
  · have hmem := h.all hunload 0 (by simp [hallocated])
    rw [hreleased] at hmem
    cases hmem
  · exact Option.isNone_iff_eq_none.mp (by decide +kernel)

end Version1.Collecting
