import RocprofTool.Version1.References
import RocprofTool.Version1.Unloading

/-!
# The two models of a context

`Contexts` has the functions of the tool with all of their data, and for `Dispatches` a call of one
of them is one event.  `Collecting` has only what collecting looks at, and `Unloading` takes the
calls apart.  Here the calls are put together again: what happens in `Dispatches` can happen in
`Unloading`, where every call is the events that it is made of, without others in between
(`simulates_run`).  So what is proved there of the contexts is true here (`contextCollected_le`).

`Shows` is what the one model sees of the other: an entry has its flags and its queue, and whether
its record is complete.  For this the record of an entry has to be its own, since it is deleted with
the entry.  The entries of the pools are no contexts in this sense, and the optimised mode is left
out (`optMode`).
-/

set_option autoImplicit false

open Fallible Runs

namespace Version1.Collecting

/-! ## What is seen of an entry -/

/-- What collecting looks at in an entry. -/
def view (tool : Tool) (entry : ContextEntry) : Entry where
  valid := entry.valid
  active := entry.active
  queue := entry.data.queue
  record := entry.data.record.map fun r ↦ (tool.records r).any fun record ↦ record.complete != 0

/-- The array has the entries of the tool. -/
def Shows (tool : Tool) (a : ContextArray) : Prop :=
  ∀ key : UInt32, a.entryAt key = tool.contextArray[key]?.map (view tool)

theorem view_congr {s t : Tool} {entry : ContextEntry}
    (h : ∀ r, entry.data.record = some r → t.records r = s.records r) :
    view t entry = view s entry := by
  rw [view, view]
  rcases hrecord : entry.data.record with _ | r
  · rfl
  · rw [Option.map_some, Option.map_some, h r hrecord]

/-- **One entry of the array changes**, and the records of the others do not. -/
theorem Shows.touch {s t : Tool} {a a' : ContextArray} (h : Shows s a) (index : UInt32)
    (hself : a'.entryAt index = t.contextArray[index]?.map (view t))
    (hother : ∀ i ≠ index, a'.entryAt i = a.entryAt i)
    (hother' : ∀ i ≠ index, t.contextArray[i]? = s.contextArray[i]?)
    (hview : ∀ i ≠ index, ∀ entry, s.contextArray[i]? = some entry →
      view t entry = view s entry) : Shows t a' := by
  intro key
  rcases eq_or_ne key index with rfl | hne
  · exact hself
  · rw [hother key hne, hother' key hne, h key]
    rcases hentry : s.contextArray[key]? with _ | entry
    · rfl
    · exact congrArg some (hview key hne entry hentry).symm

/-- No entry changes, and none of their records. -/
theorem Shows.frame {s t : Tool} {a : ContextArray} (h : Shows s a)
    (ht : t.contextArray = s.contextArray)
    (hview : ∀ (i : UInt32) (entry : ContextEntry), s.contextArray[i]? = some entry →
      view t entry = view s entry) : Shows t a := by
  intro key
  rw [ht, h key]
  rcases hentry : s.contextArray[key]? with _ | entry
  · rfl
  · exact congrArg some (hview key entry hentry).symm

theorem Shows.entryAt_eq {tool : Tool} {a : ContextArray} {key : UInt32} {entry : ContextEntry}
    (h : Shows tool a) (hentry : tool.contextArray[key]? = some entry) :
    a.entryAt key = some (view tool entry) := by
  rw [h key, hentry]
  rfl

/-! ## Dumping an entry -/

/-- `dump_context_entry` has counted an entry and cleaned up. -/
structure CleanedUp (entry : ContextEntry) (s t : Tool) : Prop where
  contextArray : t.contextArray = s.contextArray
  contextCount : t.contextCount = s.contextCount
  contextCollected : t.contextCollected = s.contextCollected + 1
  records : ∀ r, t.records r = if entry.data.record = some r then none else s.records r

theorem of_exec_cleanUp {entry entry' : ContextEntry} {s t : Tool}
    (h : exec (cleanUp entry) s = (.ok entry', t)) :
    entry' = { entry with data := { entry.data with record := none, kernelName := none } } ∧
      t.contextArray = s.contextArray ∧ t.contextCount = s.contextCount ∧
      t.contextCollected = s.contextCollected ∧
      ∀ r, t.records r = if entry.data.record = some r then none else s.records r := by
  rw [cleanUp] at h
  rcases hrecord : entry.data.record with _ | r
  · rw [hrecord] at h
    obtain ⟨hret, rfl⟩ := Prod.mk.inj h
    obtain rfl := Except.ok.inj hret
    exact ⟨rfl, rfl, rfl, rfl, fun r ↦ (if_neg (by simp)).symm⟩
  · rw [hrecord] at h
    obtain ⟨hret, rfl⟩ := Prod.mk.inj h
    obtain rfl := Except.ok.inj hret
    refine ⟨rfl, rfl, rfl, rfl, fun r' ↦ ?_⟩
    rcases eq_or_ne r' r with rfl | hne
    · exact (Function.update_self _ _ _).trans (if_pos rfl).symm
    · exact (Function.update_of_ne hne _ _).trans (if_neg (by simpa using hne.symm)).symm

/-- **What `dump_context_entry` does** with an entry of `context_array`: nothing, if its kernel is
not done. -/
theorem of_exec_dumpContextEntry {m : Machine} {entry : ContextEntry} {s t : Tool}
    {p : Bool × ContextEntry} (hindex : entry.index ≠ uint32Max)
    (h : exec (dumpContextEntry m entry true) s = (.ok p, t)) :
    (p = (false, entry) ∧ t = s ∧ (view s entry).record = some false) ∨
      p = (true, { entry with data := { entry.data with record := none, kernelName := none } }) ∧
        CleanedUp entry s t ∧ (view s entry).record ≠ some false := by
  obtain ⟨record, hread, hcases⟩ := exists_of_exec_dumpContextEntry hindex h
  have hview : (view s entry).record = record.map fun record ↦ record.complete != 0 := by
    rw [Tool.readRecord.eq_def] at hread
    rw [view]
    rcases hrecord : entry.data.record with _ | r
    · rw [hrecord] at hread
      obtain rfl := Except.ok.inj hread
      rfl
    · simp only [hrecord] at hread
      rcases hr : s.records r with _ | record'
      · simp [hr] at hread
      · simp only [hr, Except.ok.injEq] at hread
        subst hread
        simp [hr]
  rcases hcases with ⟨hdone, rfl, rfl⟩ | ⟨hdone, text, entry', hclean, rfl⟩
  · refine .inl ⟨rfl, rfl, ?_⟩
    rw [Option.any_eq_true] at hdone
    obtain ⟨record', rfl, hzero⟩ := hdone
    rw [hview, Option.map_some, Option.some.injEq]
    simpa using hzero
  · obtain ⟨rfl, hcontextArray, hcount, hcollected, hrecords⟩ := of_exec_cleanUp hclean
    refine .inr ⟨rfl, ⟨hcontextArray, hcount, hcollected, hrecords⟩, ?_⟩
    rw [hview]
    rintro hfalse
    obtain ⟨record', rfl, hzero⟩ := Option.map_eq_some_iff.mp hfalse
    exact hdone (by simpa using hzero)

/-! ## Records -/

/-- The dispatch with this index has this record, in its entry or while it is between the halves of
`dispatch_callback`. -/
def Holds (S : Version1.System) (index : UInt32) (r : ℕ) : Prop :=
  (∃ entry, S.tool.contextArray[index]? = some entry ∧ entry.data.record = some r) ∨
    ∃ callbackData, S.dispatching index = some callbackData ∧ callbackData.record = some r

/-- The records of the dispatches are their own, and they are there. -/
structure OwnRecords (S : Version1.System) : Prop where
  unique : ∀ {index index' : UInt32} {r : ℕ}, Holds S index r → Holds S index' r → index = index'
  alive : ∀ {index : UInt32} {r : ℕ}, Holds S index r → (S.tool.records r).isSome

/-- Dispatches may lose their records, and memory that is not a record of theirs anything. -/
theorem OwnRecords.mono {S T : Version1.System} (h : OwnRecords S)
    (hsub : ∀ {index : UInt32} {r : ℕ}, Holds T index r → Holds S index r)
    (halive : ∀ {index : UInt32} {r : ℕ}, Holds T index r → (S.tool.records r).isSome →
      (T.tool.records r).isSome) : OwnRecords T :=
  ⟨fun hr hr' ↦ h.unique (hsub hr) (hsub hr'), fun hr ↦ halive hr (h.alive (hsub hr))⟩

/-- An entry does not have the record of another dispatch. -/
theorem OwnRecords.ne {S : Version1.System} (h : OwnRecords S) {index i : UInt32} {r : ℕ}
    {entry : ContextEntry} (hr : Holds S index r) (hentry : S.tool.contextArray[i]? = some entry)
    (hne : i ≠ index) : entry.data.record ≠ some r :=
  fun hrecord ↦ hne (h.unique (.inl ⟨entry, hentry, hrecord⟩) hr)

/-- A new dispatch has the record that it was given, and its entry has none yet. -/
theorem OwnRecords.assign {S : Version1.System} (h : OwnRecords S) {index : UInt32} {t : Tool}
    {callbackData : CallbackData} (hrecords : t.records = S.tool.records)
    (hentries : ∀ (key : UInt32) (entry : ContextEntry), t.contextArray[key]? = some entry →
      entry.data.record = none ∨ S.tool.contextArray[key]? = some entry)
    (hown : ∀ r, callbackData.record = some r →
      (∀ i, ¬Holds S i r) ∧ (S.tool.records r).isSome) :
    OwnRecords { S with tool := t, dispatching := S.dispatching.assign index callbackData } := by
  have hcases : ∀ {i : UInt32} {r : ℕ}, Holds { S with
      tool := t, dispatching := S.dispatching.assign index callbackData } i r →
        Holds S i r ∨ i = index ∧ callbackData.record = some r := by
    rintro i r (⟨entry, hentry, hr⟩ | ⟨callbackData', hdispatching, hr⟩)
    · rcases hentries i entry hentry with hnone | hentry
      · rw [hnone] at hr
        cases hr
      · exact .inl (.inl ⟨entry, hentry, hr⟩)
    · dsimp only at hdispatching
      rcases eq_or_ne i index with rfl | hne
      · rw [UMap.assign_self] at hdispatching
        obtain rfl := Option.some.inj hdispatching
        exact .inr ⟨rfl, hr⟩
      · rw [UMap.assign_of_ne _ _ hne] at hdispatching
        exact .inl (.inr ⟨callbackData', hdispatching, hr⟩)
  refine ⟨fun {i i' r} hi hi' ↦ ?_, fun {i r} hi ↦ ?_⟩
  · rcases hcases hi with hi | ⟨rfl, hr⟩
    · rcases hcases hi' with hi' | ⟨-, hr⟩
      · exact h.unique hi hi'
      · exact absurd hi ((hown r hr).1 i)
    · rcases hcases hi' with hi' | ⟨rfl, -⟩
      · exact absurd hi' ((hown r hr).1 i')
      · rfl
  · show (t.records r).isSome
    rw [hrecords]
    rcases hcases hi with hi | ⟨-, hr⟩
    · exact h.alive hi
    · exact (hown r hr).2

/-! ## The systems -/

/-- A state of `Dispatches` and one of `Unloading` of the same tool, before it is unloaded.  A
context that is given back before its handler has got the mutex is one for which the handler has
been called. -/
structure Agrees (resultFileOpened : Bool) (S : Version1.System) (C : System) : Prop where
  contextCount : C.contexts.contextCount = S.tool.contextCount
  contextCollected : C.contexts.contextCollected = S.tool.contextCollected
  shows : Shows S.tool C.contexts.contextArray
  filling : ∀ index, C.contexts.filling index = (S.dispatching index).map fun _ ↦ Progress.made
  index : ∀ (key : UInt32) (entry : ContextEntry), S.tool.contextArray[key]? = some entry →
    entry.index = key
  records : OwnRecords S
  inv : Inv C
  running : C.stopped = none
  notCalled : C.unload = .notCalled
  handled : ∀ index ∈ C.handled, index ∈ C.contexts.allocated ∧
    ((C.contexts.contextArray.entryAt index).isSome → index ∈ C.handlers)
  called : resultFileOpened = true → ∀ index ∈ C.contexts.released,
    (C.contexts.contextArray.entryAt index).isSome → index ∈ C.handlers

/-- Some events lead from the one state to the other. -/
def Reaches (resultFileOpened : Bool) (C C' : System) : Prop :=
  ∃ events, run (step resultFileOpened) C events = some C'

variable {resultFileOpened : Bool} {m : Machine} {S T : Version1.System} {C C' C'' : System}

theorem Reaches.refl (C : System) : Reaches resultFileOpened C C := ⟨[], rfl⟩

theorem Reaches.trans (h : Reaches resultFileOpened C C') (h' : Reaches resultFileOpened C' C'') :
    Reaches resultFileOpened C C'' := by
  obtain ⟨events, h⟩ := h
  obtain ⟨events', h'⟩ := h'
  exact ⟨events ++ events', by rw [run_append, h, Option.bind_some, h']⟩

/-- Before the tool is unloaded, every event is orderly. -/
theorem orderly_of_notCalled {event : Event} (h : C.unload = .notCalled)
    (hevent : event ≠ .deleteArray) : orderly C event = true := by
  cases event <;> simp_all [orderly]

/-- One event, from a state in which the invariant holds. -/
theorem reaches_of_next {event : Event} (hI : Inv C) (hrunning : C.stopped = none)
    (hnotCalled : C.unload = .notCalled) (hevent : event ≠ .deleteArray)
    (h : C.next resultFileOpened event = some C') :
    Reaches resultFileOpened C C' ∧ Inv C' := by
  have hstep : step resultFileOpened C event = some C' := by
    rw [step, hrunning, if_neg (by simp), h]
  refine ⟨⟨[event], ?_⟩, inv_step hI (orderly_of_notCalled hnotCalled hevent) hstep⟩
  rw [run_cons, hstep, Option.bind_some, run_nil]

/-! ## Handlers -/

/-- The handler for a context has been called, or it is called now. -/
theorem Agrees.callHandler {index : UInt32} {e : Entry} (h : Agrees true S C)
    (hentry : C.contexts.contextArray.entryAt index = some e)
    (hdispatching : S.dispatching index = none) :
    ∃ C', Reaches true C C' ∧ Agrees true S C' ∧ index ∈ C'.handlers ∧
      C'.contexts = C.contexts ∧ C'.holder = C.holder := by
  have hsome : (C.contexts.contextArray.entryAt index).isSome := by
    rw [hentry]
    rfl
  by_cases hindex : index ∈ C.handlers
  · exact ⟨C, .refl C, h, hindex, rfl, rfl⟩
  have hallocated := (h.inv.tracks.stage index).allocated_of_entry hentry
  have hfilling : C.contexts.filling index = none := by
    rw [h.filling, hdispatching]
    rfl
  have hnext : C.next true (.callHandler index) = some { C with
      handlers := C.handlers ++ [index], handled := C.handled ++ [index] } :=
    if_pos ⟨rfl, hallocated, hfilling, fun hmem ↦ hindex (h.called rfl index hmem hsome),
      fun hmem ↦ hindex ((h.handled index hmem).2 hsome)⟩
  obtain ⟨hreaches, hI⟩ := reaches_of_next h.inv h.running h.notCalled (by simp) hnext
  refine ⟨_, hreaches, ⟨h.contextCount, h.contextCollected, h.shows, h.filling, h.index, h.records,
    hI, h.running, h.notCalled, fun i hi ↦ ?_, fun hopened i hi hsome' ↦ ?_⟩,
    List.mem_append_right _ (List.mem_singleton_self index), rfl, rfl⟩
  · rcases List.mem_append.mp hi with hi | hi
    · exact (h.handled i hi).imp id fun hmem hsome' ↦ List.mem_append_left _ (hmem hsome')
    · obtain rfl := List.mem_singleton.mp hi
      exact ⟨hallocated, fun _ ↦ List.mem_append_right _ hi⟩
  · exact List.mem_append_left _ (h.called hopened i hi hsome')

/-! ## Dispatches -/

/-- The memory for a record is taken that no dispatch has. -/
theorem Agrees.allocate {record : Option ℕ} (h : Agrees resultFileOpened S C)
    (hfree : S.tool.canAllocate record = true) :
    Agrees resultFileOpened { S with tool := S.tool.allocate record } C ∧
      ∀ r, record = some r →
        (∀ i, ¬Holds { S with tool := S.tool.allocate record } i r) ∧
          ((S.tool.allocate record).records r).isSome := by
  rcases record with _ | r
  · exact ⟨h, fun r hr ↦ by cases hr⟩
  have hnone : S.tool.records r = none := Option.isNone_iff_eq_none.mp hfree
  have hnew : ∀ i, ¬Holds S i r := by
    intro i hi
    have halive := h.records.alive hi
    rw [hnone] at halive
    cases halive
  have hrecords : ∀ {i : UInt32} {r' : ℕ}, Holds S i r' →
      (S.tool.allocate (some r)).records r' = S.tool.records r' := by
    intro i r' hi
    refine UMap.assign_of_ne _ _ ?_
    rintro rfl
    exact hnew i hi
  refine ⟨⟨h.contextCount, h.contextCollected, h.shows.frame rfl fun i entry hentry ↦ ?_, h.filling,
    h.index, h.records.mono id fun hi hsome ↦ ?_, h.inv, h.running, h.notCalled, h.handled,
    h.called⟩, fun r' hr' ↦ ?_⟩
  · exact view_congr fun r' hr' ↦ hrecords (.inl ⟨entry, hentry, hr'⟩)
  · rwa [hrecords hi]
  · obtain rfl := Option.some.inj hr'
    refine ⟨hnew, ?_⟩
    show (S.tool.records.assign r _ r).isSome
    rw [UMap.assign_self]
    rfl

/-- An entry is made. -/
theorem Agrees.made {callbackData : CallbackData} (h : Agrees resultFileOpened S C)
    (hholder : C.holder = none) (hcan : C.canCount = true)
    (hown : ∀ r, callbackData.record = some r →
      (∀ i, ¬Holds S i r) ∧ (S.tool.records r).isSome) :
    ∃ C', Reaches resultFileOpened C C' ∧ Agrees resultFileOpened { S with
      tool := { S.tool with contextCount := S.tool.contextCount + 1 }.writeEntry
        S.tool.contextCount { index := S.tool.contextCount }
      dispatching := S.dispatching.assign S.tool.contextCount callbackData } C' ∧
        C'.holder = none := by
  have harray : ∃ entries, C.contexts.contextArray = .live entries :=
    h.inv.array_of_unload h.notCalled
  obtain ⟨entries, hlive⟩ := harray
  obtain ⟨halloc, -⟩ := h.inv.tracks.allocContextEntry (of_decide_eq_true hcan) hlive
  have hnext : C.next resultFileOpened (.dispatch true) = some { C with passed := C.passed + 1 } :=
    if_pos (.inl h.notCalled)
  obtain ⟨hreaches, hI⟩ := reaches_of_next h.inv h.running h.notCalled (by simp) hnext
  have hnext' : System.next resultFileOpened { C with passed := C.passed + 1 } .allocContextEntry
      = some { C with contexts := C.contexts.made entries } := by
    refine (if_pos ⟨by rw [hholder]; rfl, Nat.succ_pos _, hcan⟩).trans ?_
    rw [halloc]
    rfl
  obtain ⟨hreaches', hI'⟩ := reaches_of_next hI h.running h.notCalled (by simp) hnext'
  -- the other entries are as before
  have hne : ∀ {i : UInt32}, i ∈ C.contexts.allocated → i ≠ S.tool.contextCount := by
    rintro i hi rfl
    exact UInt32.lt_irrefl _ (h.contextCount ▸ h.inv.tracks.counts.below _ hi)
  have hother : ∀ i ≠ S.tool.contextCount,
      (C.contexts.made entries).contextArray.entryAt i = C.contexts.contextArray.entryAt i := by
    intro i hi
    rw [hlive]
    exact entry_insert_of_ne entries {} (h.contextCount.symm ▸ hi)
  refine ⟨_, hreaches.trans hreaches', ⟨congrArg (· + 1) h.contextCount, h.contextCollected,
    h.shows.touch S.tool.contextCount ?_ hother (fun i hi ↦ getElem?_writeEntry_of_ne _ hi)
      fun _ _ _ _ ↦ rfl,
    fun i ↦ ?_, fun key entry hentry ↦ ?_, ?_, hI', h.running, h.notCalled, fun i hi ↦ ?_,
    fun hopened i hi hsome ↦ ?_⟩, hholder⟩
  · rw [getElem?_writeEntry_self, ← h.contextCount]
    exact Std.TreeMap.getElem?_insert_self
  · show C.contexts.filling.assign C.contexts.contextCount .made i
      = (S.dispatching.assign S.tool.contextCount callbackData i).map _
    rw [h.contextCount]
    rcases eq_or_ne i S.tool.contextCount with rfl | hi
    · rw [UMap.assign_self, UMap.assign_self]
      rfl
    · rw [UMap.assign_of_ne _ _ hi, UMap.assign_of_ne _ _ hi]
      exact h.filling i
  · rcases OrderedMap.of_getElem?_insert hentry with ⟨rfl, rfl⟩ | ⟨-, hentry⟩
    · rfl
    · exact h.index key entry hentry
  · refine h.records.assign rfl (fun key entry hentry ↦ ?_) hown
    rcases OrderedMap.of_getElem?_insert hentry with ⟨-, rfl⟩ | ⟨-, hentry⟩
    · exact .inl rfl
    · exact .inr hentry
  · obtain ⟨hallocated, hmem⟩ := h.handled i hi
    refine ⟨List.mem_append_left _ hallocated, fun hsome ↦ hmem ?_⟩
    rwa [← hother i (hne hallocated)]
  · have hcounted := (h.inv.tracks.stage i).counted_of_released hi
    have hallocated := ((h.inv.tracks.stage i).validated_of_counted hcounted).1
    refine h.called hopened i hi ?_
    rwa [← hother i (hne hallocated)]

/-- **The first half of `dispatch_callback`.** -/
theorem Agrees.dispatch {callbackData : CallbackData} (h : Agrees resultFileOpened S C)
    (hholder : C.holder = none)
    (hstep : Version1.step m S (.dispatch callbackData) = some T) (hT : T.stopped = none) :
    ∃ C', Reaches resultFileOpened C C' ∧ Agrees resultFileOpened T C' ∧ C'.holder = none := by
  obtain ⟨hcan, rfl⟩ := of_step_dispatch hstep
  obtain ⟨index, tool, hexec, heq⟩ := System.exists_of_perform hT
  rw [heq]
  rw [System.canDispatch, Bool.and_eq_true, Bool.and_eq_true] at hcan
  obtain ⟨hagrees, hown⟩ := h.allocate hcan.1.2
  have hcount : (S.tool.allocate callbackData.record).contextCount = S.tool.contextCount := by
    rcases callbackData.record with _ | r <;> rfl
  have hcanCount : C.canCount = true := by
    rw [System.canCount, h.contextCount]
    exact hcan.1.1
  rcases of_exec_allocContext hexec with ⟨rfl, rfl⟩ | ⟨rfl, -, rfl⟩
  · -- the dispatch does not pass the filter
    have hnext : C.next resultFileOpened (.dispatch false)
        = some { C with filtered := C.filtered + 1 } := if_pos (.inl h.notCalled)
    obtain ⟨hreaches, hI⟩ := reaches_of_next h.inv h.running h.notCalled (by simp) hnext
    have hnext' : System.next resultFileOpened { C with filtered := C.filtered + 1 }
        .nextContextCount = some { C with contexts := C.contexts.nextContextCount } :=
      if_pos ⟨by rw [hholder]; rfl, Nat.succ_pos _, hcanCount⟩
    obtain ⟨hreaches', hI'⟩ := reaches_of_next hI h.running h.notCalled (by simp) hnext'
    exact ⟨_, hreaches.trans hreaches', ⟨congrArg (· + 1) hagrees.contextCount,
      hagrees.contextCollected, hagrees.shows, h.filling, hagrees.index,
      hagrees.records.mono id fun _ ↦ id, hI', h.running, h.notCalled, h.handled, h.called⟩,
      hholder⟩
  · exact hagrees.made hholder hcanCount fun r hr ↦ hown r hr

/-- What the rest of `dispatch_callback` does with an entry. -/
theorem exists_fill_activate_validate {c : Contexts} {index : UInt32} {e : Entry}
    (h : c.contextArray.entryAt index = some e) (queue : UInt64) (record : Option Bool) :
    ∃ c₁ c₂ a, c.fill index queue record = .ok c₁ ∧ c₁.filling index = some .filled ∧
      c₁.activate index = .ok c₂ ∧ c₂.filling index = some .active ∧
      c₂.validate index = .ok { c with
        contextArray := a
        filling := Function.update c.filling index none
        validated := c.validated ++ [index] } ∧
      a.entryAt index = some { e with queue, record, active := true, valid := true } ∧
        ∀ i ≠ index, a.entryAt i = c.contextArray.entryAt i := by
  obtain ⟨a₁, ha₁, hself₁, hother₁⟩ := exists_write { e with queue, record } h
  let c₁ : Contexts := { c with
    contextArray := a₁, filling := c.filling.assign index .filled }
  obtain ⟨a₂, ha₂, hself₂, hother₂⟩ := exists_write (c := c₁)
    { e with queue, record, active := true } hself₁
  let c₂ : Contexts := { c₁ with
    contextArray := a₂, filling := c₁.filling.assign index .active }
  obtain ⟨a₃, ha₃, hself₃, hother₃⟩ := exists_write (c := c₂)
    { e with queue, record, active := true, valid := true } hself₂
  refine ⟨c₁, c₂, a₃, ?_, UMap.assign_self _ _ _, ?_, UMap.assign_self _ _ _, ?_, hself₃,
    fun i hi ↦ (hother₃ i hi).trans ((hother₂ i hi).trans (hother₁ i hi))⟩
  · rw [Contexts.fill, read_of_entry h]
    show Except.ok _ = _
    rw [ha₁]
  · rw [Contexts.activate, read_of_entry hself₁]
    show Except.ok _ = _
    rw [ha₂]
  · rw [Contexts.validate, read_of_entry hself₂]
    show Except.ok _ = _
    rw [ha₃]
    have hfilling : Function.update c₂.filling index none =
        Function.update c.filling index none := by
      simp [c₂, c₁, UMap.assign]
    rw [hfilling]

/-- The entry is filled in, and then it is active and valid. -/
theorem reaches_validate {index : UInt32} {e : Entry} (hI : Inv C) (hrunning : C.stopped = none)
    (hnotCalled : C.unload = .notCalled) (hmade : C.contexts.filling index = some .made)
    (hentry : C.contexts.contextArray.entryAt index = some e) (queue : UInt64)
    (record : Option Bool) :
    ∃ a, a.entryAt index = some { e with queue, record, active := true, valid := true } ∧
      (∀ i ≠ index, a.entryAt i = C.contexts.contextArray.entryAt i) ∧
      Reaches resultFileOpened C { C with
        contexts := { C.contexts with
          contextArray := a
          filling := Function.update C.contexts.filling index none
          validated := C.contexts.validated ++ [index] } } ∧
      Inv { C with
        contexts := { C.contexts with
          contextArray := a
          filling := Function.update C.contexts.filling index none
          validated := C.contexts.validated ++ [index] } } := by
  obtain ⟨c₁, c₂, a, hc₁, hfilled, hc₂, hactivated, hc₃, hself, hother⟩ :=
    exists_fill_activate_validate hentry queue record
  have hnext₁ : C.next resultFileOpened (.fill index queue record)
      = some { C with contexts := c₁ } := (if_pos hmade).trans (by rw [hc₁]; rfl)
  have hnext₂ : System.next resultFileOpened { C with contexts := c₁ } (.activate index)
      = some { C with contexts := c₂ } := (if_pos hfilled).trans (by rw [hc₂]; rfl)
  have hnext₃ : System.next resultFileOpened { C with contexts := c₂ } (.validate index)
      = some { C with
        contexts := { C.contexts with
          contextArray := a
          filling := Function.update C.contexts.filling index none
          validated := C.contexts.validated ++ [index] } } :=
    (if_pos hactivated).trans (by rw [hc₃]; rfl)
  obtain ⟨hreaches₁, hI₁⟩ := reaches_of_next hI hrunning hnotCalled (by simp) hnext₁
  obtain ⟨hreaches₂, hI₂⟩ := reaches_of_next hI₁ hrunning hnotCalled (by simp) hnext₂
  obtain ⟨hreaches₃, hI₃⟩ := reaches_of_next hI₂ hrunning hnotCalled (by simp) hnext₃
  exact ⟨a, hself, hother, (hreaches₁.trans hreaches₂).trans hreaches₃, hI₃⟩

/-- The counters and the records stay. -/
structure Stays (s t : Tool) : Prop where
  contextCount : t.contextCount = s.contextCount
  contextCollected : t.contextCollected = s.contextCollected
  records : t.records = s.records

instance : Std.Refl Stays := ⟨fun _ ↦ ⟨rfl, rfl, rfl⟩⟩

instance : IsTrans Tool Stays :=
  ⟨fun _ _ _ h h' ↦ ⟨h'.contextCount.trans h.contextCount,
    h'.contextCollected.trans h.contextCollected, h'.records.trans h.records⟩⟩

theorem stays_fillContext (m : Machine) (callbackData : CallbackData) (index : UInt32)
    (context : ℕ) (currTime : UInt64) (s : Tool) :
    Stays s (after (fillContext m callbackData index context currTime) s) :=
  after_fillContext (fun _ _ ↦ ⟨rfl, rfl, rfl⟩) (fun _ ↦ meets_modify fun _ ↦ ⟨rfl, rfl, rfl⟩) m
    callbackData context currTime fun _ _ _ _ _ ↦ ⟨rfl, rfl, rfl⟩

/-- **The second half of `dispatch_callback`.** -/
theorem Agrees.fill {index : UInt32} {context : ℕ} {currTime : UInt64}
    (h : Agrees resultFileOpened S C) (hholder : C.holder = none)
    (hstep : Version1.step m S (.fill index context currTime) = some T) (hT : T.stopped = none) :
    ∃ C', Reaches resultFileOpened C C' ∧ Agrees resultFileOpened T C' ∧ C'.holder = none := by
  obtain ⟨callbackData, hdispatching, rfl⟩ := of_step_fill hstep
  obtain ⟨⟨⟩, tool, hexec, heq⟩ := System.exists_of_perform hT
  rw [heq]
  have hstays := stays_fillContext m callbackData index context currTime S.tool
  rw [after, hexec] at hstays
  obtain ⟨entry, entry', u, hentry, htakes, hdata, hindex, hactive, hvalid, rfl⟩ :=
    exists_of_fillContext hexec
  have hmade : C.contexts.filling index = some .made := by
    rw [h.filling, hdispatching]
    rfl
  obtain ⟨a, hself, hother, hreaches, hI⟩ := reaches_validate h.inv h.running h.notCalled hmade
    (h.shows.entryAt_eq hentry) callbackData.queue
    (view (u.writeEntry index entry') entry').record
  have hpresent : ∀ i, (a.entryAt i).isSome → (C.contexts.contextArray.entryAt i).isSome := by
    intro i hi
    rcases eq_or_ne i index with rfl | hne
    · rw [h.shows.entryAt_eq hentry]
      rfl
    · rwa [← hother i hne]
  have hholds : ∀ {i : UInt32} {r : ℕ}, Holds { S with
      tool := u.writeEntry index entry'
      dispatching := Function.update S.dispatching index none } i r → Holds S i r := by
    rintro i r (⟨entry'', hentry'', hr⟩ | ⟨callbackData', hdispatching', hr⟩)
    · rcases OrderedMap.of_getElem?_insert hentry'' with ⟨rfl, rfl⟩ | ⟨-, hentry''⟩
      · exact .inr ⟨callbackData, hdispatching, hdata ▸ hr⟩
      · exact .inl ⟨entry'', htakes.contextArray ▸ hentry'', hr⟩
    · dsimp only at hdispatching'
      rcases eq_or_ne i index with rfl | hne
      · simp at hdispatching'
      · rw [Function.update_of_ne hne] at hdispatching'
        exact .inr ⟨callbackData', hdispatching', hr⟩
  have hview : ∀ entry, view (u.writeEntry index entry') entry = view S.tool entry := by
    intro entry''
    rw [view, hstays.records]
    rfl
  refine ⟨_, hreaches, ⟨h.contextCount.trans hstays.contextCount.symm,
      h.contextCollected.trans hstays.contextCollected.symm,
      h.shows.touch index ?_ hother (fun i hi ↦ ?_) fun _ _ entry'' _ ↦ hview entry'',
      fun i ↦ ?_, fun key entry'' hentry'' ↦ ?_, h.records.mono hholds fun _ hsome ↦ ?_, hI,
      h.running, h.notCalled, fun i hi ↦ (h.handled i hi).imp id fun hmem hsome ↦
        hmem (hpresent i hsome),
      fun hopened i hi hsome ↦ h.called hopened i hi (hpresent i hsome)⟩, hholder⟩
  · rw [getElem?_writeEntry_self, hself, Option.map_some, Option.some.injEq]
    show (⟨true, true, callbackData.queue,
        (view (u.writeEntry index entry') entry').record⟩ : Entry)
      = ⟨entry'.valid, entry'.active, entry'.data.queue,
          (view (u.writeEntry index entry') entry').record⟩
    rw [hvalid, hactive, hdata]
  · rw [getElem?_writeEntry_of_ne _ hi, htakes.contextArray]
  · show Function.update C.contexts.filling index none i
      = (Function.update S.dispatching index none i).map _
    rcases eq_or_ne i index with rfl | hi
    · rw [Function.update_self, Function.update_self]
      rfl
    · rw [Function.update_of_ne hi, Function.update_of_ne hi]
      exact h.filling i
  · rcases OrderedMap.of_getElem?_insert hentry'' with ⟨rfl, rfl⟩ | ⟨-, hentry''⟩
    · exact hindex.trans (h.index key entry hentry)
    · exact h.index key entry'' (htakes.contextArray ▸ hentry'')
  · show ((u.writeEntry index entry').records _).isSome
    rwa [hstays.records]

/-! ## Records are written -/

/-- **A record gets complete**, which may be that of an entry. -/
theorem Agrees.complete {r : ℕ} {written : DispatchRecord} (h : Agrees resultFileOpened S C)
    (hholder : C.holder = none)
    (hstep : Version1.step m S (.complete r written) = some T) :
    ∃ C', Reaches resultFileOpened C C' ∧ Agrees resultFileOpened T C' ∧ C'.holder = none := by
  obtain ⟨record, hrecord, hzero, hwritten, rfl⟩ := of_step_complete hstep
  let t : Tool := { S.tool with records := S.tool.records.assign r written }
  have hview : ∀ {entry : ContextEntry}, entry.data.record ≠ some r →
      view t entry = view S.tool entry := by
    intro entry hne
    refine view_congr fun r' hr' ↦ UMap.assign_of_ne _ _ ?_
    rintro rfl
    exact hne hr'
  have halive : ∀ {r' : ℕ}, (S.tool.records r').isSome → (t.records r').isSome := by
    intro r' hsome
    rcases eq_or_ne r' r with rfl | hne
    · show (S.tool.records.assign r' written r').isSome
      rw [UMap.assign_self]
      rfl
    · show (S.tool.records.assign r written r').isSome
      rwa [UMap.assign_of_ne _ _ hne]
  by_cases hheld : ∃ (key : UInt32) (entry : ContextEntry),
      S.tool.contextArray[key]? = some entry ∧ entry.data.record = some r
  · obtain ⟨key, entry, hentry, hr⟩ := hheld
    have hseen := h.shows.entryAt_eq hentry
    have hfalse : (view S.tool entry).record = some false := by
      rw [view, hr, Option.map_some, hrecord]
      simp [hzero]
    obtain ⟨a, ha, hself, hother⟩ :=
      exists_write { view S.tool entry with record := some true } hseen
    have hcomplete : C.contexts.complete key = some { C.contexts with contextArray := a } := by
      rw [Contexts.complete, hseen]
      exact (if_pos hfalse).trans (congrArg some ha)
    have hnext : C.next resultFileOpened (.complete key)
        = some { C with contexts := { C.contexts with contextArray := a } } :=
      Option.map_eq_some_iff.mpr ⟨_, hcomplete, rfl⟩
    obtain ⟨hreaches, hI⟩ := reaches_of_next h.inv h.running h.notCalled (by simp) hnext
    have hpresent : ∀ i, (a.entryAt i).isSome → (C.contexts.contextArray.entryAt i).isSome := by
      intro i hi
      rcases eq_or_ne i key with rfl | hne
      · rw [hseen]
        rfl
      · rwa [← hother i hne]
    refine ⟨_, hreaches, ⟨h.contextCount, h.contextCollected,
      h.shows.touch key ?_ hother (fun _ _ ↦ rfl) fun i hi entry' hentry' ↦
        hview (h.records.ne (.inl ⟨entry, hentry, hr⟩) hentry' hi),
      h.filling, h.index, h.records.mono id fun _ ↦ halive, hI, h.running, h.notCalled,
      fun i hi ↦ (h.handled i hi).imp id fun hmem hsome ↦ hmem (hpresent i hsome),
      fun hopened i hi hsome ↦ h.called hopened i hi (hpresent i hsome)⟩, hholder⟩
    have htrue : (view t entry).record = some true := by
      rw [view, hr, Option.map_some, show t.records r = some written from UMap.assign_self _ _ _]
      simp [hwritten]
    rw [hself, hentry, Option.map_some, Option.some.injEq]
    show (⟨entry.valid, entry.active, entry.data.queue, some true⟩ : Entry)
      = ⟨entry.valid, entry.active, entry.data.queue, (view t entry).record⟩
    rw [htrue]
  · -- the record is that of a dispatch that has not returned, or of none
    have hnone : ∀ (key : UInt32) (entry : ContextEntry),
        S.tool.contextArray[key]? = some entry → entry.data.record ≠ some r :=
      fun key entry hentry hr ↦ hheld ⟨key, entry, hentry, hr⟩
    exact ⟨C, .refl C, ⟨h.contextCount, h.contextCollected,
      h.shows.frame rfl fun i entry hentry ↦ hview (hnone i entry hentry), h.filling, h.index,
      h.records.mono id fun _ ↦ halive, h.inv, h.running, h.notCalled, h.handled, h.called⟩,
      hholder⟩

/-! ## Collecting -/

/-- The index of a context is not that of the entries of the pools. -/
theorem Agrees.index_ne {key : UInt32} {entry : ContextEntry} (h : Agrees resultFileOpened S C)
    (hentry : S.tool.contextArray[key]? = some entry) : entry.index ≠ uint32Max := by
  rw [h.index key entry hentry]
  rintro rfl
  have hallocated := (h.inv.tracks.stage uint32Max).allocated_of_entry (h.shows.entryAt_eq hentry)
  have hbelow := UInt32.lt_iff_toNat_lt.mp (h.inv.tracks.counts.below _ hallocated)
  have hlt := C.contexts.contextCount.toNat_lt
  have hmax : uint32Max.toNat = 2 ^ 32 - 1 := rfl
  omega

/-- **An entry is collected**: the rule for an entry that is given back, and erased or inactive. -/
theorem Agrees.collected {index : UInt32} {entry : ContextEntry} {t : Tool} {c : Contexts}
    {handlers : List UInt32} {holder : Option Holder} (h : Agrees resultFileOpened S C)
    (hentry : S.tool.contextArray[index]? = some entry) (hdispatching : S.dispatching index = none)
    (hcount : c.contextCount = t.contextCount)
    (hcollected : c.contextCollected = t.contextCollected)
    (hself : c.contextArray.entryAt index = t.contextArray[index]?.map (view t))
    (hother : ∀ i ≠ index, c.contextArray.entryAt i = C.contexts.contextArray.entryAt i)
    (hother' : ∀ i ≠ index, t.contextArray[i]? = S.tool.contextArray[i]?)
    (hrecords : ∀ r, entry.data.record ≠ some r → t.records r = S.tool.records r)
    (hnew : ∀ entry' : ContextEntry, t.contextArray[index]? = some entry' →
      entry'.index = index ∧ entry'.data.record = none)
    (hfilling : c.filling = C.contexts.filling) (hallocated : c.allocated = C.contexts.allocated)
    (hreleased : ∀ i ∈ c.released, i = index ∨ i ∈ C.contexts.released)
    (hhandlers : ∀ i ∈ C.handlers, i ≠ index → i ∈ handlers)
    (hindex : (c.contextArray.entryAt index).isSome →
      resultFileOpened = true ∨ index ∈ C.handled → index ∈ handlers)
    (hI : Inv { C with contexts := c, handlers, holder }) :
    Agrees resultFileOpened { S with tool := t } { C with contexts := c, handlers, holder } := by
  have hholds : ∀ {i : UInt32} {r : ℕ}, Holds { S with tool := t } i r →
      i ≠ index ∧ Holds S i r := by
    rintro i r (⟨entry', hentry', hr⟩ | ⟨callbackData, hdispatching', hr⟩)
    · have hne : i ≠ index := by
        rintro rfl
        rw [(hnew entry' hentry').2] at hr
        cases hr
      exact ⟨hne, .inl ⟨entry', (hother' i hne).symm.trans hentry', hr⟩⟩
    · refine ⟨?_, .inr ⟨callbackData, hdispatching', hr⟩⟩
      rintro rfl
      exact absurd (hdispatching.symm.trans hdispatching') (by simp)
  refine ⟨hcount, hcollected, h.shows.touch index hself hother hother'
    fun i hi entry' hentry' ↦ view_congr fun r hr ↦ hrecords r fun hr' ↦ ?_,
    fun i ↦ (congrFun hfilling i).trans (h.filling i), fun key entry' hentry' ↦ ?_,
    h.records.mono (fun hr ↦ (hholds hr).2) fun {i r} hr hsome ↦ ?_, hI, h.running, h.notCalled,
    fun i hi ↦ ⟨hallocated ▸ (h.handled i hi).1, fun hsome ↦ ?_⟩, fun hopened i hi hsome ↦ ?_⟩
  · exact h.records.ne (.inl ⟨entry, hentry, hr'⟩) hentry' hi hr
  · rcases eq_or_ne key index with rfl | hne
    · exact (hnew entry' hentry').1
    · exact h.index key entry' ((hother' key hne).symm.trans hentry')
  · obtain ⟨hne, hr⟩ := hholds hr
    show (t.records r).isSome
    rwa [hrecords r fun hr' ↦ hne (h.records.unique hr (.inl ⟨entry, hentry, hr'⟩))]
  · rcases eq_or_ne i index with rfl | hne
    · exact hindex hsome (.inr hi)
    · exact hhandlers i ((h.handled i hi).2 (hother i hne ▸ hsome)) hne
  · rcases eq_or_ne i index with rfl | hne
    · exact hindex hsome (.inl hopened)
    · have hi := (hreleased i hi).resolve_left hne
      exact hhandlers i (h.called hopened i hi (hother i hne ▸ hsome)) hne

/-- What `context_handler` does. -/
theorem of_exec_contextHandler {index : UInt32} {entry : ContextEntry} {s t : Tool}
    (hentry : s.contextArray[index]? = some entry) (hkey : entry.index = index)
    (hindex : entry.index ≠ uint32Max) (h : exec (contextHandler m index) s = (.ok ⟨⟩, t)) :
    (entry.active = true ∧ (view s entry).record ≠ some false ∧
        ∃ u, CleanedUp entry s u ∧ t = { u with contextArray := u.contextArray.erase index }) ∨
      entry.active = false ∧ t = { s with contextArray := s.contextArray.erase index } := by
  rw [contextHandler, exec_bind_ok (exec_get s), hentry] at h
  dsimp only at h
  rcases hactive : entry.active with _ | _
  · rw [hactive, if_neg Bool.false_ne_true] at h
    obtain ⟨-, rfl⟩ := Prod.mk.inj h
    exact .inr ⟨rfl, by rw [hkey]⟩
  · rw [if_pos hactive] at h
    obtain ⟨p, u, hdump, hrest⟩ := exists_of_exec_bind h
    rcases of_exec_dumpContextEntry hindex hdump with ⟨rfl, rfl, -⟩ | ⟨rfl, hclean, hrecord⟩
    · cases hrest
    · obtain ⟨-, rfl⟩ := Prod.mk.inj hrest
      exact .inl ⟨rfl, hrecord, u, hclean, by rw [← hkey]⟩

/-- The handler of an active entry: it is counted, then its record is given back, and it is
erased. -/
theorem reaches_contextHandler_of_active {index : UInt32} {e : Entry} (hI : Inv C)
    (hrunning : C.stopped = none) (hnotCalled : C.unload = .notCalled) (hholder : C.holder = none)
    (hmem : index ∈ C.handlers) (hentry : C.contexts.contextArray.entryAt index = some e)
    (hactive : e.active = true) (hrecord : e.record ≠ some false) :
    ∃ entries, (ContextArray.live entries).entryAt index = none ∧
      (∀ i ≠ index, (ContextArray.live entries).entryAt i = C.contexts.contextArray.entryAt i) ∧
      Reaches true C { C with
        handlers := C.handlers.erase index
        contexts := { C.contexts.count index with
          contextArray := .live entries
          released := C.contexts.released ++ [index] }
        holder := none } ∧
      Inv { C with
        handlers := C.handlers.erase index
        contexts := { C.contexts.count index with
          contextArray := .live entries
          released := C.contexts.released ++ [index] }
        holder := none } := by
  have hnext : C.next true (.contextHandler index) = some { C with
      handlers := C.handlers.erase index
      contexts := C.contexts.count index
      holder := some (.contextHandler index) } := by
    refine (if_pos ⟨by rw [hholder]; rfl, hmem⟩).trans (congrArg some ?_)
    simp only [System.contextHandler, read_of_entry hentry]
    rw [if_pos hactive, if_neg hrecord]
  obtain ⟨hreaches, hI₁⟩ := reaches_of_next hI hrunning hnotCalled (by simp) hnext
  obtain ⟨a, hrelease, hself, hother⟩ := exists_release (c := C.contexts.count index) hentry
  obtain ⟨entries, hdealloc, hgone, hother'⟩ := exists_deallocContextEntry
    (c := { C.contexts.count index with
      contextArray := a, released := C.contexts.released ++ [index] }) index (live_of_entry hself)
  have hnext₁ : System.next true { C with
        handlers := C.handlers.erase index
        contexts := C.contexts.count index
        holder := some (.contextHandler index) } .deallocContextEntry = some { C with
      handlers := C.handlers.erase index
      contexts := { C.contexts.count index with
        contextArray := .live entries
        released := C.contexts.released ++ [index] }
      holder := none } := by
    have hfree : ((C.contexts.count index).release index).bind (fun c ↦ c.deallocContextEntry index)
        = .ok { C.contexts.count index with
          contextArray := .live entries
          released := C.contexts.released ++ [index] } := by
      rw [hrelease]
      exact hdealloc
    exact congrArg (fun x ↦ some (System.perform _ x)) hfree
  obtain ⟨hreaches₁, hI₂⟩ := reaches_of_next hI₁ hrunning hnotCalled (by simp) hnext₁
  exact ⟨entries, hgone, fun i hi ↦ (hother' i hi).trans (hother i hi), hreaches.trans hreaches₁,
    hI₂⟩

/-- The handler of an entry that has been dumped before: it is erased. -/
theorem reaches_contextHandler_of_inactive {index : UInt32} {e : Entry} (hI : Inv C)
    (hrunning : C.stopped = none) (hnotCalled : C.unload = .notCalled) (hholder : C.holder = none)
    (hmem : index ∈ C.handlers) (hentry : C.contexts.contextArray.entryAt index = some e)
    (hactive : e.active = false) :
    ∃ entries, (ContextArray.live entries).entryAt index = none ∧
      (∀ i ≠ index, (ContextArray.live entries).entryAt i = C.contexts.contextArray.entryAt i) ∧
      Reaches true C { C with
        handlers := C.handlers.erase index
        contexts := { C.contexts with contextArray := .live entries }
        holder := none } ∧
      Inv { C with
        handlers := C.handlers.erase index
        contexts := { C.contexts with contextArray := .live entries }
        holder := none } := by
  obtain ⟨entries, hdealloc, hgone, hother⟩ :=
    exists_deallocContextEntry index (live_of_entry hentry)
  have hnext : C.next true (.contextHandler index) = some { C with
      handlers := C.handlers.erase index
      contexts := { C.contexts with contextArray := .live entries }
      holder := none } := by
    refine (if_pos ⟨by rw [hholder]; rfl, hmem⟩).trans (congrArg some ?_)
    simp only [System.contextHandler, read_of_entry hentry]
    rw [if_neg (show ¬e.active = true by simp [hactive]), hdealloc, ← hholder]
    rfl
  obtain ⟨hreaches, hI₁⟩ := reaches_of_next hI hrunning hnotCalled (by simp) hnext
  exact ⟨entries, hgone, hother, hreaches, hI₁⟩

/-- **The completion handler**: it is called, unless it is waiting already, gets the mutex, and
dumps the entry when nobody has done that before. -/
theorem Agrees.contextHandler {index : UInt32} (h : Agrees m.resultPrefix S C)
    (hholder : C.holder = none)
    (hstep : Version1.step m S (.contextHandler index) = some T) (hT : T.stopped = none) :
    ∃ C', Reaches m.resultPrefix C C' ∧ Agrees m.resultPrefix T C' ∧ C'.holder = none := by
  obtain ⟨hopened, hdispatching, rfl⟩ := of_step_contextHandler hstep
  obtain ⟨⟨⟩, tool, hexec, heq⟩ := System.exists_of_perform hT
  rw [heq]
  rw [hopened] at h ⊢
  rcases hentry : S.tool.contextArray[index]? with _ | entry
  · rw [Version1.contextHandler, exec_bind_ok (exec_get _), hentry] at hexec
    cases hexec
  obtain ⟨C₁, hreaches, h₁, hmem, hcontexts, hholder₁⟩ :=
    h.callHandler (h.shows.entryAt_eq hentry) hdispatching
  have hseen := h₁.shows.entryAt_eq hentry
  have hnone : C₁.holder = none := hholder₁.trans hholder
  have hhandlers : ∀ i ∈ C₁.handlers, i ≠ index → i ∈ C₁.handlers.erase index :=
    fun i hi hne ↦ (List.mem_erase_of_ne hne).mpr hi
  rcases of_exec_contextHandler hentry (h.index index entry hentry) (h.index_ne hentry) hexec with
    ⟨hactive, hrecord, u, hclean, rfl⟩ | ⟨hactive, rfl⟩
  · obtain ⟨entries, hgone, hother, hreaches₁, hI₁⟩ := reaches_contextHandler_of_active h₁.inv
      h₁.running h₁.notCalled hnone hmem hseen hactive hrecord
    refine ⟨_, hreaches.trans hreaches₁, h₁.collected hentry hdispatching
      (h₁.contextCount.trans hclean.contextCount.symm) ?_ ?_ hother
      (fun i hi ↦ ?_) (fun r hr ↦ ?_)
      (fun entry' hentry' ↦ absurd rfl (OrderedMap.of_getElem?_erase hentry').1) rfl rfl
      (fun i hi ↦ (List.mem_append.mp hi).symm.imp List.mem_singleton.mp id) hhandlers
      (fun hsome ↦ ?_) hI₁, rfl⟩
    · exact (congrArg (· + 1) h₁.contextCollected).trans hclean.contextCollected.symm
    · rw [Std.TreeMap.getElem?_erase_self]
      exact hgone
    · exact (OrderedMap.getElem?_erase_of_ne _ hi).trans (by rw [hclean.contextArray])
    · exact (hclean.records r).trans (if_neg hr)
    · rw [show (ContextArray.live entries).entryAt index = none from hgone] at hsome
      cases hsome
  · obtain ⟨entries, hgone, hother, hreaches₁, hI₁⟩ := reaches_contextHandler_of_inactive h₁.inv
      h₁.running h₁.notCalled hnone hmem hseen hactive
    refine ⟨_, hreaches.trans hreaches₁, h₁.collected hentry hdispatching h₁.contextCount
      h₁.contextCollected ?_ hother (fun i hi ↦ OrderedMap.getElem?_erase_of_ne _ hi)
      (fun r _ ↦ rfl)
      (fun entry' hentry' ↦ absurd rfl (OrderedMap.of_getElem?_erase hentry').1) rfl rfl
      (fun i hi ↦ .inr hi) hhandlers (fun hsome ↦ ?_) hI₁, rfl⟩
    · rw [Std.TreeMap.getElem?_erase_self]
      exact hgone
    · rw [show (ContextArray.live entries).entryAt index = none from hgone] at hsome
      cases hsome

/-! ## Going through the array -/

/-- What a round of the inner loop of `dump_context_array` does. -/
theorem of_exec_dumpKey {queue : Option UInt64} {key : UInt32} {entry : ContextEntry} {s t : Tool}
    {ret : Bool} (hentry : s.contextArray[key]? = some entry) (hindex : entry.index ≠ uint32Max)
    (h : exec (dumpKey m queue key) s = (.ok ret, t)) :
    ((queue.all (· == entry.data.queue) && entry.active) = false ∧ ret = true ∧ t = s) ∨
      (queue.all (· == entry.data.queue) && entry.active) = true ∧
        ((view s entry).record = some false ∧ ret = false ∧ t = s ∨
          (view s entry).record ≠ some false ∧ ret = true ∧ ∃ u, CleanedUp entry s u ∧
            t = u.writeEntry key { entry with
              data := { entry.data with record := none, kernelName := none }
              active := false }) := by
  rw [dumpKey, exec_bind_ok (exec_get s), hentry] at h
  dsimp only at h
  rcases htakes : queue.all (· == entry.data.queue) && entry.active with _ | _
  · rw [htakes, if_neg Bool.false_ne_true] at h
    obtain ⟨hret, rfl⟩ := Prod.mk.inj h
    exact .inl ⟨rfl, (Except.ok.inj hret).symm, rfl⟩
  · rw [if_pos htakes] at h
    obtain ⟨p, u, hdump, hrest⟩ := exists_of_exec_bind h
    refine .inr ⟨rfl, ?_⟩
    rcases of_exec_dumpContextEntry hindex hdump with
      ⟨rfl, rfl, hrecord⟩ | ⟨rfl, hclean, hrecord⟩
    · obtain ⟨hret, rfl⟩ := Prod.mk.inj hrest
      exact .inl ⟨hrecord, (Except.ok.inj hret).symm, rfl⟩
    · obtain ⟨hret, rfl⟩ := Prod.mk.inj hrest
      exact .inr ⟨hrecord, (Except.ok.inj hret).symm, u, hclean, rfl⟩

/-- Before an entry is given back, its handler is called, if it has one. -/
theorem Agrees.callHandlerIf {index : UInt32} {e : Entry} (h : Agrees resultFileOpened S C)
    (hentry : C.contexts.contextArray.entryAt index = some e)
    (hdispatching : S.dispatching index = none) :
    ∃ C', Reaches resultFileOpened C C' ∧ Agrees resultFileOpened S C' ∧
      (resultFileOpened = true ∨ index ∈ C'.handled → index ∈ C'.handlers) ∧
      C'.contexts = C.contexts ∧ C'.holder = C.holder := by
  cases resultFileOpened with
  | false =>
    refine ⟨C, .refl C, h, fun hindex ↦ ?_, rfl, rfl⟩
    refine (h.handled index (hindex.resolve_left Bool.false_ne_true)).2 ?_
    rw [hentry]
    rfl
  | true =>
    obtain ⟨C', hreaches, hagrees, hmem, hrest⟩ := h.callHandler hentry hdispatching
    exact ⟨C', hreaches, hagrees, fun _ ↦ hmem, hrest⟩

/-- The dispatch of a valid entry has returned. -/
theorem Agrees.dispatching_eq_none {key : UInt32} {entry : ContextEntry}
    (h : Agrees resultFileOpened S C) (hentry : S.tool.contextArray[key]? = some entry)
    (hvalid : entry.valid = true) : S.dispatching key = none := by
  rcases hdispatching : S.dispatching key with _ | callbackData
  · rfl
  have hfilling : C.contexts.filling key = some .made := by
    rw [h.filling, hdispatching]
    rfl
  obtain ⟨-, e, hseen, hinvalid, -⟩ := (h.inv.tracks.stage key).exists_of_filling hfilling
  obtain rfl := Option.some.inj (hseen.symm.trans (h.shows.entryAt_eq hentry))
  exact absurd (hinvalid.symm.trans hvalid) Bool.false_ne_true

/-- Only the mutex and the calls that wait for it change. -/
theorem Agrees.of_holder {holder : Option Holder} {destroys : List (Option UInt64)}
    (h : Agrees resultFileOpened S C) (hI : Inv { C with holder, destroys }) :
    Agrees resultFileOpened S { C with holder, destroys } :=
  ⟨h.contextCount, h.contextCollected, h.shows, h.filling, h.index, h.records, hI, h.running,
    h.notCalled, h.handled, h.called⟩

/-- An entry that a round dumps is counted, given back, and not active any more. -/
theorem reaches_dumpedEntry {caller : Caller} {key : UInt32} {todo : List UInt32} {done : Bool}
    {e : Entry} (hI : Inv { C with
      contexts := C.contexts.count key
      holder := some (.dumpContextEntry caller key todo done) })
    (hrunning : C.stopped = none) (hnotCalled : C.unload = .notCalled)
    (hentry : C.contexts.contextArray.entryAt key = some e) :
    ∃ a, a.entryAt key = some { e with record := none, active := false } ∧
      (∀ i ≠ key, a.entryAt i = C.contexts.contextArray.entryAt i) ∧
      Reaches resultFileOpened { C with
        contexts := C.contexts.count key
        holder := some (.dumpContextEntry caller key todo done) } { C with
        contexts := { C.contexts.count key with
          contextArray := a
          released := C.contexts.released ++ [key] }
        holder := some (.dumpContextArray caller todo done) } ∧
      Inv { C with
        contexts := { C.contexts.count key with
          contextArray := a
          released := C.contexts.released ++ [key] }
        holder := some (.dumpContextArray caller todo done) } := by
  obtain ⟨a, hrelease, hself, hother⟩ := exists_release (c := C.contexts.count key) hentry
  obtain ⟨a', hdeactivate, hself', hother'⟩ := exists_deactivate
    (c := { C.contexts.count key with
      contextArray := a, released := C.contexts.released ++ [key] }) hself
  have hdumped : ((C.contexts.count key).release key).bind (fun c ↦ c.deactivate key)
      = .ok { C.contexts.count key with
        contextArray := a'
        released := C.contexts.released ++ [key] } := by
    rw [hrelease]
    exact hdeactivate
  have hnext : System.next resultFileOpened { C with
        contexts := C.contexts.count key
        holder := some (.dumpContextEntry caller key todo done) } .dumpedEntry = some { C with
      contexts := { C.contexts.count key with
        contextArray := a'
        released := C.contexts.released ++ [key] }
      holder := some (.dumpContextArray caller todo done) } :=
    congrArg (fun x ↦ some (System.perform _ x)) hdumped
  obtain ⟨hreaches, hI'⟩ := reaches_of_next hI hrunning hnotCalled (by simp) hnext
  exact ⟨a', hself', fun i hi ↦ (hother' i hi).trans (hother i hi), hreaches, hI'⟩

/-- **`dump_context_array` comes to an entry**, and is done with it. -/
theorem Agrees.dumpKey {queue : Option UInt64} {key : UInt32} {todo : List UInt32}
    {done ret : Bool} {entry : ContextEntry} {t : Tool} (h : Agrees resultFileOpened S C)
    (hholder : C.holder = some (.dumpContextArray (.destroyCallback queue) (key :: todo) done))
    (hentry : S.tool.contextArray[key]? = some entry) (hvalid : entry.valid = true)
    (hexec : exec (Version1.dumpKey m queue key) S.tool = (.ok ret, t)) :
    ∃ C', Reaches resultFileOpened C C' ∧ Agrees resultFileOpened { S with tool := t } C' ∧
      C'.holder = some (.dumpContextArray (.destroyCallback queue) todo (done && ret)) := by
  have hdispatching := h.dispatching_eq_none hentry hvalid
  obtain ⟨C₁, hreaches, h₁, hindex, hcontexts, hholder₁⟩ :=
    h.callHandlerIf (h.shows.entryAt_eq hentry) hdispatching
  rw [hholder] at hholder₁
  have hseen := h₁.shows.entryAt_eq hentry
  have hread : C₁.contexts.read key = .ok (view S.tool entry) := read_of_entry hseen
  have hnext : C₁.next resultFileOpened .nextEntry
      = C₁.nextEntry (.destroyCallback queue) key todo done := by
    rw [System.next.eq_def]
    dsimp only
    rw [hholder₁]
  have hseenValid : (!(view S.tool entry).valid) = false := by
    rw [show (view S.tool entry).valid = true from hvalid]
    rfl
  simp only [System.nextEntry, hread, hseenValid, Bool.false_eq_true, if_false] at hnext
  rcases of_exec_dumpKey hentry (h.index_ne hentry) hexec with
    ⟨htakes, rfl, rfl⟩ | ⟨htakes, ⟨hrecord, rfl, rfl⟩ | ⟨hrecord, rfl, u, hclean, rfl⟩⟩
  · -- it is none of the queue's, or has been dumped
    have htakes : ((Caller.destroyCallback queue).queue.all (· == (view S.tool entry).queue) &&
        (view S.tool entry).active) = false := htakes
    rw [htakes, if_neg Bool.false_ne_true] at hnext
    obtain ⟨hreaches₁, hI⟩ := reaches_of_next h₁.inv h₁.running h₁.notCalled (by simp) hnext
    exact ⟨_, hreaches.trans hreaches₁, h₁.of_holder hI, by rw [Bool.and_true]⟩
  · -- the kernel is not done
    have htakes : ((Caller.destroyCallback queue).queue.all (· == (view S.tool entry).queue) &&
        (view S.tool entry).active) = true := htakes
    rw [if_pos htakes, if_pos hrecord] at hnext
    obtain ⟨hreaches₁, hI⟩ := reaches_of_next h₁.inv h₁.running h₁.notCalled (by simp) hnext
    exact ⟨_, hreaches.trans hreaches₁, h₁.of_holder hI, by rw [Bool.and_false]⟩
  · -- it is counted, given back, and inactive
    have htakes : ((Caller.destroyCallback queue).queue.all (· == (view S.tool entry).queue) &&
        (view S.tool entry).active) = true := htakes
    rw [if_pos htakes, if_neg hrecord] at hnext
    obtain ⟨hreaches₁, hI₁⟩ := reaches_of_next h₁.inv h₁.running h₁.notCalled (by simp) hnext
    obtain ⟨a, hself, hother, hreaches₂, hI₂⟩ :=
      reaches_dumpedEntry hI₁ h₁.running h₁.notCalled hseen
    have hsame : u.contextArray = S.tool.contextArray := hclean.contextArray
    refine ⟨_, (hreaches.trans hreaches₁).trans hreaches₂, h₁.collected hentry hdispatching
      (h₁.contextCount.trans hclean.contextCount.symm) ?_ ?_ hother (fun i hi ↦ ?_)
      (fun r hr ↦ ?_) (fun entry' hentry' ↦ ?_) rfl rfl
      (fun i hi ↦ (List.mem_append.mp hi).symm.imp List.mem_singleton.mp id) (fun i hi _ ↦ hi)
      (fun _ ↦ hindex) hI₂, by rw [Bool.and_true]⟩
    · exact (congrArg (· + 1) h₁.contextCollected).trans hclean.contextCollected.symm
    · rw [getElem?_writeEntry_self]
      exact hself
    · rw [getElem?_writeEntry_of_ne _ hi, hsame]
    · exact (hclean.records r).trans (if_neg hr)
    · rw [getElem?_writeEntry_self] at hentry'
      obtain rfl := Option.some.inj hentry'
      exact ⟨h.index key entry hentry, rfl⟩

/-- The entries of these keys are there, and all the entries are valid. -/
def AllValid (keys : List UInt32) (tool : Tool) : Prop :=
  (∀ key ∈ keys, ∃ entry, tool.contextArray[key]? = some entry) ∧
    ∀ (key : UInt32) (entry : ContextEntry), tool.contextArray[key]? = some entry →
      entry.valid = true

theorem AllValid.of_dumpKey {queue : Option UInt64} {key : UInt32} {keys : List UInt32} {s t : Tool}
    {entry : ContextEntry} {ret : Bool} (h : AllValid keys s)
    (hentry : s.contextArray[key]? = some entry) (hindex : entry.index ≠ uint32Max)
    (hexec : exec (Version1.dumpKey m queue key) s = (.ok ret, t)) : AllValid keys t := by
  rcases of_exec_dumpKey hentry hindex hexec with
    ⟨-, -, rfl⟩ | ⟨-, ⟨-, -, rfl⟩ | ⟨-, -, u, hclean, rfl⟩⟩
  · exact h
  · exact h
  refine ⟨fun i hi ↦ ?_, fun i entry' hentry' ↦ ?_⟩
  · rcases eq_or_ne i key with rfl | hne
    · exact ⟨_, getElem?_writeEntry_self _⟩
    · rw [getElem?_writeEntry_of_ne _ hne, hclean.contextArray]
      exact h.1 i hi
  · rcases OrderedMap.of_getElem?_insert hentry' with ⟨rfl, rfl⟩ | ⟨-, hentry'⟩
    · exact h.2 i entry hentry
    · exact h.2 i entry' (hclean.contextArray ▸ hentry')

/-- **The inner loop**, entry by entry. -/
theorem Agrees.dumpKeys {queue : Option UInt64} {keys : List UInt32} {done ret : Bool} {t : Tool}
    (h : Agrees resultFileOpened S C)
    (hholder : C.holder = some (.dumpContextArray (.destroyCallback queue) keys done))
    (hvalid : AllValid keys S.tool)
    (hexec : exec (Version1.dumpKeys m queue keys) S.tool = (.ok ret, t)) :
    ∃ C', Reaches resultFileOpened C C' ∧ Agrees resultFileOpened { S with tool := t } C' ∧
      C'.holder = some (.dumpContextArray (.destroyCallback queue) [] (done && ret)) := by
  induction keys generalizing S C done ret with
  | nil =>
    obtain ⟨hret, rfl⟩ := Prod.mk.inj hexec
    obtain rfl := Except.ok.inj hret
    exact ⟨C, .refl C, h, by rw [Bool.and_true]; exact hholder⟩
  | cons key keys ih =>
    rw [Version1.dumpKeys] at hexec
    obtain ⟨ret₁, u, hkey, hrest⟩ := exists_of_exec_bind hexec
    obtain ⟨ret₂, v, hkeys, hpure⟩ := exists_of_exec_bind hrest
    obtain ⟨hret, rfl⟩ := Prod.mk.inj hpure
    obtain rfl := Except.ok.inj hret
    obtain ⟨entry, hentry⟩ := hvalid.1 key List.mem_cons_self
    obtain ⟨C₁, hreaches, h₁, hholder₁⟩ := h.dumpKey hholder hentry (hvalid.2 key entry hentry) hkey
    have hvalid₁ : AllValid keys u := AllValid.of_dumpKey
      ⟨fun i hi ↦ hvalid.1 i (List.mem_cons_of_mem key hi), hvalid.2⟩ hentry
      (h.index_ne hentry) hkey
    obtain ⟨C₂, hreaches₂, h₂, hholder₂⟩ := ih h₁ hholder₁ hvalid₁ hkeys
    exact ⟨C₂, hreaches.trans hreaches₂, h₂, by rw [hholder₂, Bool.and_assoc]⟩

/-- **A round of `dump_context_array`.** -/
theorem Agrees.dumpContextArray {queue : Option UInt64} (h : Agrees resultFileOpened S C)
    (hholder : C.holder = none)
    (hstep : Version1.step m S (.dumpContextArray queue) = some T) (hT : T.stopped = none) :
    ∃ C', Reaches resultFileOpened C C' ∧ Agrees resultFileOpened T C' ∧ C'.holder = none := by
  obtain ⟨hvalid, rfl⟩ := of_step_dumpContextArray hstep
  obtain ⟨ret, tool, hexec, heq⟩ := System.exists_of_perform hT
  rw [heq]
  rw [dumpContextArrayRound, exec_bind_ok (exec_get _)] at hexec
  have harray : ∃ entries, C.contexts.contextArray = .live entries :=
    h.inv.array_of_unload h.notCalled
  obtain ⟨entries, hlive⟩ := harray
  have hkeys : entries.keys = S.tool.contextArray.keys := by
    refine OrderedMap.keys_eq fun key ↦ ?_
    have hkey := h.shows key
    rw [hlive] at hkey
    rw [show entries[key]? = S.tool.contextArray[key]?.map (view S.tool) from hkey,
      Option.isSome_map]
  have hnext₁ : C.next resultFileOpened (.destroyCallback queue)
      = some { C with destroys := C.destroys ++ [queue] } := rfl
  obtain ⟨hreaches₁, hI₁⟩ := reaches_of_next h.inv h.running h.notCalled (by simp) hnext₁
  have hnext₂ : System.next resultFileOpened { C with destroys := C.destroys ++ [queue] }
      (.lockArray (.destroyCallback queue)) = some { C with
        destroys := C.destroys ++ [queue]
        holder := some (.dumpContextArray (.destroyCallback queue) entries.keys true) } := by
    refine (if_pos ⟨by rw [hholder]; rfl, by simp [System.calls]⟩).trans ?_
    rw [System.lockArray]
    simp only [hlive]
  obtain ⟨hreaches₂, hI₂⟩ := reaches_of_next hI₁ h.running h.notCalled (by simp) hnext₂
  have hpresent : AllValid entries.keys S.tool := by
    refine ⟨fun key hkey ↦ ?_, hvalid⟩
    rw [hkeys] at hkey
    exact Option.isSome_iff_exists.mp
      (Std.TreeMap.isSome_getElem?_iff_mem.mpr (Std.TreeMap.mem_keys.mp hkey))
  obtain ⟨C₁, hreaches₃, h₁, hholder₁⟩ :=
    (h.of_holder hI₂).dumpKeys rfl hpresent (by rw [hkeys]; exact hexec)
  have hnext₃ : C₁.next resultFileOpened .unlockArray
      = some (C₁.unlockArray (.destroyCallback queue) (true && ret)) := by
    rw [System.next.eq_def]
    dsimp only
    rw [hholder₁]
  obtain ⟨hreaches₄, hI₄⟩ := reaches_of_next h₁.inv h₁.running h₁.notCalled (by simp) hnext₃
  have hreaches := ((hreaches₁.trans hreaches₂).trans hreaches₃).trans hreaches₄
  cases ret with
  | false => exact ⟨_, hreaches, h₁.of_holder hI₄, rfl⟩
  | true => exact ⟨_, hreaches, h₁.of_holder hI₄, rfl⟩

/-! ## Runs -/

/-- Is this an event of the optimised mode? -/
def optMode : Version1.Event → Bool
  | .dispatchOpt _ _ _ => true
  | .contextPoolHandler _ => true
  | _ => false

/-- **The step**: a call of the tool is a run of the calls taken apart. -/
theorem Agrees.step {event : Version1.Event} (h : Agrees m.resultPrefix S C)
    (hholder : C.holder = none) (hmode : optMode event = false)
    (hstep : Version1.step m S event = some T) (hT : T.stopped = none) :
    ∃ C', Reaches m.resultPrefix C C' ∧ Agrees m.resultPrefix T C' ∧ C'.holder = none := by
  cases event with
  | dispatch callbackData => exact h.dispatch hholder hstep hT
  | fill index context currTime => exact h.fill hholder hstep hT
  | dispatchOpt callbackData number context => cases hmode
  | complete r written => exact h.complete hholder hstep
  | contextHandler index => exact h.contextHandler hholder hstep hT
  | contextPoolHandler slot => cases hmode
  | dumpContextArray queue => exact h.dumpContextArray hholder hstep hT

theorem agrees_start (symbols : UMap UInt64 Symbol) :
    Agrees resultFileOpened (.start symbols) {} := by
  have hentry : ∀ key : UInt32, (System.start symbols).tool.contextArray[key]? = none :=
    fun _ ↦ Std.TreeMap.getElem?_emptyc
  have hholds : ∀ {index : UInt32} {r : ℕ}, ¬Holds (.start symbols) index r := by
    rintro index r (⟨entry, h, -⟩ | ⟨callbackData, h, -⟩)
    · rw [hentry] at h
      cases h
    · cases h
  refine ⟨rfl, rfl, fun key ↦ ?_, fun _ ↦ rfl, fun key entry h ↦ ?_,
    ⟨fun h ↦ absurd h hholds, fun h ↦ absurd h hholds⟩, inv_start, rfl, rfl,
    fun index h ↦ (by cases h), fun _ index h ↦ (by cases h)⟩
  · rw [hentry]
    exact Std.TreeMap.getElem?_emptyc
  · rw [hentry] at h
    cases h

/-- **What happens in `Dispatches` can happen in `Unloading`.**  The contexts that a run of the tool
leads to are those of a run of the calls taken apart, one in which the mutex is free again. -/
theorem simulates_run {events : List Version1.Event} {symbols : UMap UInt64 Symbol}
    (hmode : ∀ event ∈ events, optMode event = false)
    (h : run (Version1.step m) (.start symbols) events = some S) (hS : S.stopped = none) :
    ∃ events' C, run (step m.resultPrefix) {} events' = some C ∧ Agrees m.resultPrefix S C ∧
      C.holder = none := by
  -- a run ends with the call that has stopped, so that the states before it are running
  let R (S : Version1.System) (C : System) : Prop :=
    S.stopped = none → Agrees m.resultPrefix S C ∧ C.holder = none
  have hsimulation : ∀ S C event T, optMode event = false → R S C →
      Version1.step m S event = some T →
        ∃ events' C', run (step m.resultPrefix) C events' = some C' ∧ R T C' := by
    intro S C event T hmode hR hstep
    by_cases hT : T.stopped = none
    · obtain ⟨hagrees, hholder⟩ := hR (of_step hstep).1
      obtain ⟨C', ⟨events', hrun⟩, hagrees'⟩ := hagrees.step hholder hmode hstep hT
      exact ⟨events', C', hrun, fun _ ↦ hagrees'⟩
    · exact ⟨[], C, rfl, fun hT' ↦ absurd hT' hT⟩
  obtain ⟨events', C, hrun, hR⟩ := exists_run_of_simulation hsimulation hmode
    (fun _ ↦ ⟨agrees_start symbols, rfl⟩) h
  exact ⟨events', C, hrun, hR hS⟩

/-- **No more contexts are collected than there were dispatches**, in every run of the tool. -/
theorem contextCollected_le {events : List Version1.Event} {symbols : UMap UInt64 Symbol}
    (hmode : ∀ event ∈ events, optMode event = false)
    (h : run (Version1.step m) (.start symbols) events = some S) (hS : S.stopped = none) :
    S.tool.contextCollected ≤ S.tool.contextCount := by
  obtain ⟨-, C, -, hagrees, -⟩ := simulates_run hmode h hS
  have hcounts := hagrees.inv.tracks.counts
  have hsub : C.contexts.counted ⊆ C.contexts.allocated := fun index hindex ↦
    ((hagrees.inv.tracks.stage index).validated_of_counted hindex).1
  rw [← hagrees.contextCollected, ← hagrees.contextCount, hcounts.collected, UInt32.le_iff_toNat_le,
    UInt32.toNat_ofNat']
  calc C.contexts.counted.length % 2 ^ 32 ≤ C.contexts.counted.length := Nat.mod_le _ _
    _ ≤ C.contexts.allocated.length := (hcounts.counted.subperm hsub).length_le
    _ ≤ C.contexts.contextCount.toNat := hcounts.count

end Version1.Collecting
