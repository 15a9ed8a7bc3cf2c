import RocprofTool.Version1.Publishing

/-!
# References to the names of the kernels

The name of a kernel that is dispatched without its code is looked up in the table of the symbols,
and the dispatch holds a reference to it there; the name of a kernel that comes with its code is
duplicated for the entry.  `set_kernel_properties` decides between the two.  The ends of a dispatch
do not look at what it has decided: `dump_context_entry`, which `context_handler` and
`dump_context_array` call, frees the name of the entry and never gives a reference back, and
`context_pool_handler` gives a reference back and never frees a name.  The tool expects that the
code is there in the one mode and not there in the other; the optimised mode has it so, but what
`set_kernel_properties` does is not tied to the mode.

A `Ledger` is the system of `Dispatches`, with the runtime that loads and unloads the symbols, and a
list of the dispatches that are open: their kernel properties are set, and they are not collected.
`Balanced` says that the reference counts are what this list says they should be.

`SetKernelNameRef` waits for a symbol to have no references before it goes on, so it is not enabled
before.  The lock of the table is left out; it makes one step of what the functions do that take it
(for a new symbol, `SetKernelNameRef` gives it back without having taken it).
-/

set_option autoImplicit false

open Fallible Runs

namespace Version1

/-! ## The symbols -/

/-- The rest of `SetKernelNameRef`, when there are no references. -/
def setKernelNameRef (addr : UInt64) (name : List Char) (free : UInt32) :
    ExceptT Fault (StateM Tool) PUnit := do
  let tool ← get
  match tool.symbols addr with
  | some _ =>
    if free = 1 then
      set { tool with symbols := Function.update tool.symbols addr none }
    else throw .abort
  | none =>
    if free = 0 then
      set { tool with symbols := tool.symbols.assign addr ⟨name, 0⟩ }
    else throw .abort

/-- The reference count of a symbol; one that is not there has no references. -/
def Tool.refsCount (tool : Tool) (addr : UInt64) : UInt64 :=
  ((tool.symbols addr).map Symbol.refsCount).getD 0

/-- Does a dispatch with this data hold a reference to the symbol at this address? -/
def CallbackData.references (callbackData : CallbackData) (addr : UInt64) : Bool :=
  callbackData.kernelCode.isNone && callbackData.packet.kernelObject == addr

/-! ## The ledger -/

/-- Where a dispatch is kept while it is open. -/
inductive Place
  | entry (index : UInt32)
  | slot (slot : Slot)
  deriving DecidableEq, Repr

/-- A dispatch whose kernel properties are set. -/
structure OpenDispatch where
  place : Place
  callbackData : CallbackData
  deriving DecidableEq, Repr

/-- The system, the dispatches that are open, and the entries of `context_array` whose
`set_kernel_properties` has duplicated a name. -/
structure Ledger where
  system : System := {}
  opens : List OpenDispatch := []
  duplicated : List UInt32 := []

/-- What can happen: an event of the system, or a call of `hsa_ksymbol_cb`. -/
inductive Action
  | call (event : Event)
  | ksymbol (object : UInt64) (name : List Char) (unload : UInt32)
  deriving DecidableEq, Repr

/-- Is the dispatch that is kept there still to be collected?  The entries of `context_array` are
`active` for as long, and those of the pools are fetched. -/
def System.keeps (s : System) : Place → Bool
  | .entry index => s.tool.contextArray[index]?.any ContextEntry.active
  | .slot slot => s.fetched slot

/-- The dispatch that an event opens, when it does not come to a stop. -/
def System.opened (m : Machine) (s : System) : Event → List OpenDispatch
  | .fill index _ _ => (s.dispatching index).toList.map fun callbackData ↦
      ⟨.entry index, callbackData⟩
  | .dispatchOpt callbackData number _ =>
    (m.devIndex callbackData.agent).toList.map fun gpuId ↦ ⟨.slot (gpuId, number), callbackData⟩
  | _ => []

/-- The entry that an event has duplicated a name for. -/
def System.duplicates (s t : System) : Event → List UInt32
  | .fill index _ _ =>
    if .duplicatedName index ∈ t.tool.effects.drop s.tool.effects.length then [index] else []
  | _ => []

/-- The ledger after an event. -/
def Ledger.advance (m : Machine) (L : Ledger) (event : Event) (t : System) : Ledger where
  system := t
  opens := L.opens.filter (t.keeps ·.place) ++ L.system.opened m event
  duplicated := L.duplicated ++ L.system.duplicates t event

/-- One step. -/
def Ledger.step (m : Machine) (L : Ledger) : Action → Option Ledger
  | .call event => (Version1.step m L.system event).map (L.advance m event)
  | .ksymbol object name unload =>
    if L.system.stopped.isSome || L.system.tool.refsCount object != 0 then none
    else some { L with
      system := L.system.perform (setKernelNameRef object name unload) fun _ s ↦ s }

/-- The tool is loaded, and no kernel is. -/
def Ledger.start : Ledger := {}

/-- The number of dispatches that hold a reference to the symbol at this address. -/
def Ledger.holders (L : Ledger) (addr : UInt64) : ℕ :=
  L.opens.countP (·.callbackData.references addr)

/-- The references are right, as long as the tool is running: the count of a symbol, which is of 64
bits, is the number of the dispatches that hold it, and a symbol that none of them holds can be
unloaded.  No name has been freed that was not duplicated for its entry. -/
structure Balanced (m : Machine) (L : Ledger) : Prop where
  counted : L.system.stopped = none → ∀ addr,
    L.system.tool.refsCount addr = UInt64.ofNat (L.holders addr)
  unloads : L.system.stopped = none → ∀ addr name, (L.system.tool.symbols addr).isSome →
    L.holders addr = 0 → ∃ t, L.step m (.ksymbol addr name 1) = some t ∧
      t.system.stopped = none ∧ t.system.tool.symbols addr = none
  freed : ∀ index, .freedName index ∈ L.system.tool.effects → index ∈ L.duplicated

/-- What a queue has ready came with its code. -/
def QueueNamed (queue : Option UInt64) (tool : Tool) : Prop :=
  ∀ (key : UInt32) (entry : ContextEntry), tool.contextArray[key]? = some entry →
    queue.all (· == entry.data.queue) = true → entry.active = true → Ready tool entry →
      entry.data.kernelCode.isSome

/-- The condition on an action: what `context_handler` and `dump_context_array` are to collect came
with the code of the kernel, and what `context_pool_handler` is to collect came without. -/
def CollectsOwn (L : Ledger) : Action → Prop
  | .call (.contextHandler index) => ∀ entry, L.system.tool.contextArray[index]? = some entry →
      entry.active = true → Ready L.system.tool entry → entry.data.kernelCode.isSome
  | .call (.dumpContextArray queue) => QueueNamed queue L.system.tool
  | .call (.contextPoolHandler slot) => ∀ payload, L.system.tool.payloads slot = some payload →
      payload.data.kernelCode = none
  | _ => True

/-! ## What is freed -/

/-- Between the two states, only names of entries in `dup` are freed. -/
def Frees (dup : List UInt32) (s t : Tool) : Prop :=
  ∀ index, .freedName index ∈ t.effects → .freedName index ∈ s.effects ∨ index ∈ dup

instance {dup : List UInt32} : Std.Refl (Frees dup) := ⟨fun _ _ ↦ .inl⟩

instance {dup : List UInt32} : IsTrans Tool (Frees dup) :=
  ⟨fun _ _ _ h h' index hindex ↦ (h' index hindex).elim (h index) .inr⟩

theorem frees_of_eq {dup : List UInt32} {s t : Tool} (h : t.effects = s.effects) :
    Frees dup s t :=
  fun _ hindex ↦ .inl (h ▸ hindex)

theorem frees_append {dup : List UInt32} {s t : Tool} {effect : Effect}
    (ht : t.effects = s.effects ++ [effect])
    (h : ∀ index, effect = .freedName index → index ∈ dup) : Frees dup s t := by
  intro index hindex
  rw [ht, List.mem_append, List.mem_singleton] at hindex
  exact hindex.imp id fun heq ↦ h index heq.symm

theorem frees_duplicatedName (dup : List UInt32) (index : UInt32) :
    Meets (Frees dup) (fun _ ↦ True) (emit (.duplicatedName index)) :=
  meets_modify fun _ ↦ frees_append rfl fun _ h ↦ by cases h

/-- The first half of `dispatch_callback` frees no name. -/
theorem frees_allocContext {dup : List UInt32} (m : Machine) (callbackData : CallbackData)
    (s : Tool) : Frees dup s (after (allocContext m callbackData) s) := by
  rw [allocContext]
  refine after_bind (refl_of _ s) fun opens t _ ↦ ?_
  cases opens with
  | false => exact frees_of_eq rfl
  | true =>
    refine after_bind ?_ fun _ u _ ↦ refl_of _ u
    refine after_bind (frees_of_eq rfl) fun count u _ ↦ after_bind (refl_of _ u) fun tool v _ ↦ ?_
    split_ifs
    · exact refl_of _ v
    · exact frees_of_eq rfl

/-- Neither does the second half. -/
theorem frees_fillContext {dup : List UInt32} (m : Machine) (callbackData : CallbackData)
    (index : UInt32) (context : ℕ) (currTime : UInt64) (s : Tool) :
    Frees dup s (after (fillContext m callbackData index context currTime) s) :=
  after_fillContext (fun _ _ ↦ frees_of_eq rfl) (frees_duplicatedName dup) m callbackData context
    currTime fun _ _ _ _ _ ↦ frees_of_eq rfl

theorem frees_dispatchCallbackOpt {dup : List UInt32} (m : Machine) (callbackData : CallbackData)
    (number context : ℕ) (s : Tool) :
    Frees dup s (after (dispatchCallbackOpt m callbackData number context) s) :=
  after_dispatchCallbackOpt (fun _ _ ↦ frees_of_eq rfl) (frees_duplicatedName dup)
    (fun _ _ ↦ frees_of_eq rfl) m callbackData number context s

/-! ## Setting the kernel properties -/

theorem refsCount_assign (s : Tool) (addr addr' : UInt64) (symbol : Symbol) :
    { s with symbols := s.symbols.assign addr symbol }.refsCount addr'
      = if addr' = addr then symbol.refsCount else s.refsCount addr' := by
  show ((s.symbols.assign addr symbol addr').map Symbol.refsCount).getD 0 = _
  split_ifs with h
  · rw [h, UMap.assign_self]
    rfl
  · rw [UMap.assign_of_ne _ _ h]
    rfl

/-- The properties of a dispatch are set: its reference is taken, or the name of the entry with this
index is duplicated. -/
structure Takes (callbackData : CallbackData) (index : UInt32) (s t : Tool) : Prop where
  contextArray : t.contextArray = s.contextArray
  payloads : t.payloads = s.payloads
  refsCount : ∀ addr, t.refsCount addr
    = s.refsCount addr + UInt64.ofNat (if callbackData.references addr then 1 else 0)
  effects : t.effects
    = s.effects ++ if callbackData.kernelCode.isSome then [.duplicatedName index] else []

theorem takes_setKernelName {m : Machine} {callbackData : CallbackData}
    {entry : ContextEntry} {p : ContextEntry × KernelCode} {s t : Tool}
    (h : exec (setKernelName m callbackData entry) s = (.ok p, t)) :
    Takes callbackData entry.index s t ∧ p.1.data = entry.data ∧ p.1.index = entry.index ∧
      (callbackData.kernelCode = none →
        p.1.kernelNameIt = some callbackData.packet.kernelObject) := by
  rw [setKernelName] at h
  rcases hcode : callbackData.kernelCode with _ | kernelCode
  · simp only [hcode] at h
    obtain ⟨it, u, hit, hret⟩ := exists_of_exec_bind h
    obtain ⟨hp, rfl⟩ := Prod.mk.inj hret
    cases hp
    rw [acquireKernelNameRef, exec_bind_ok (exec_get s)] at hit
    rcases hsymbol : s.symbols callbackData.packet.kernelObject with _ | symbol
    · simp only [hsymbol] at hit
      cases hit
    · simp only [hsymbol] at hit
      cases hit
      refine ⟨⟨rfl, rfl, fun addr ↦ ?_, by rw [hcode]; exact (List.append_nil _).symm⟩, rfl, rfl,
        fun _ ↦ rfl⟩
      refine (refsCount_assign s _ addr _).trans ?_
      rw [CallbackData.references, hcode, Option.isNone_none, Bool.true_and]
      split_ifs with h1 h2 h2
      · rw [h1, Tool.refsCount, hsymbol]
        rfl
      · exact absurd (beq_iff_eq.mpr h1.symm) h2
      · exact absurd (beq_iff_eq.mp h2).symm h1
      · exact (UInt64.add_zero _).symm
  · rcases hname : callbackData.kernelName with _ | name
    · simp only [hcode, hname] at h
      cases h
    · simp only [hcode, hname] at h
      cases h
      refine ⟨⟨rfl, rfl, fun addr ↦ ?_, by rw [hcode]; rfl⟩, rfl, rfl, fun hnone ↦ by cases hnone⟩
      rw [CallbackData.references, hcode]
      exact (UInt64.add_zero _).symm

theorem takes_setKernelProperties {m : Machine} {callbackData : CallbackData}
    {entry entry' : ContextEntry} {s t : Tool}
    (h : exec (setKernelProperties m callbackData entry) s = (.ok entry', t)) :
    Takes callbackData entry.index s t ∧ entry'.data = callbackData ∧
      entry'.index = entry.index ∧ (callbackData.kernelCode = none →
        entry'.kernelNameIt = some callbackData.packet.kernelObject) := by
  rw [setKernelProperties] at h
  obtain ⟨p, u, hname, h⟩ := exists_of_exec_bind h
  obtain ⟨gridSize, -, h⟩ := exists_of_exec_lift_bind h
  obtain ⟨xy, -, h⟩ := exists_of_exec_lift_bind h
  obtain ⟨xyz, -, h⟩ := exists_of_exec_lift_bind h
  obtain ⟨workgroupSize, -, h⟩ := exists_of_exec_lift_bind h
  cases h
  exact takes_setKernelName hname

/-- **What the second half of `dispatch_callback` does.** -/
theorem exists_of_fillContext {m : Machine} {callbackData : CallbackData} {index : UInt32}
    {context : ℕ} {currTime : UInt64} {s t : Tool}
    (h : exec (fillContext m callbackData index context currTime) s = (.ok ⟨⟩, t)) :
    ∃ entry entry' u, s.contextArray[index]? = some entry ∧ Takes callbackData entry.index s u ∧
      entry'.data = callbackData ∧ entry'.index = entry.index ∧ entry'.active = true ∧
        entry'.valid = true ∧ t = u.writeEntry index entry' := by
  rw [fillContext, exec_bind_ok (exec_get s)] at h
  rcases hentry : s.contextArray[index]? with _ | entry
  · simp only [hentry] at h
    cases h
  · simp only [hentry] at h
    obtain ⟨entry', u, hprops, h⟩ := exists_of_exec_bind h
    obtain ⟨features, -, h⟩ := exists_of_exec_lift_bind h
    obtain ⟨-, rfl⟩ := Prod.mk.inj h
    obtain ⟨htakes, hdata, hindex, -⟩ := takes_setKernelProperties hprops
    exact ⟨entry, { entry' with
      agent := callbackData.agent, currTime, group := some context, features
      active := true, valid := true }, u, rfl, htakes, hdata, hindex, rfl, rfl, rfl⟩

/-- What `context_pool_handler` relies on: an entry of a pool is not one of `context_array`, and its
iterator is at the symbol of its kernel, if the code of that was not there. -/
structure Borrows (payload : ContextEntry) : Prop where
  index : payload.index = uint32Max
  kernelNameIt : payload.data.kernelCode = none →
    payload.kernelNameIt = some payload.data.packet.kernelObject

/-- **What `dispatch_callback_opt` does.** -/
theorem exists_of_dispatchCallbackOpt {m : Machine} {callbackData : CallbackData}
    {number context : ℕ} {slot : Slot} {s t : Tool}
    (h : exec (dispatchCallbackOpt m callbackData number context) s = (.ok slot, t)) :
    ∃ gpuId index payload u, m.devIndex callbackData.agent = some gpuId ∧
      slot = (gpuId, number) ∧ Takes callbackData index s u ∧ payload.data = callbackData ∧
        Borrows payload ∧ t = { u with payloads := u.payloads.assign slot payload } := by
  rw [dispatchCallbackOpt] at h
  rcases hgpu : m.devIndex callbackData.agent with _ | gpuId
  · simp only [hgpu] at h
    cases h
  · simp only [hgpu] at h
    split_ifs at h with hcount
    · cases h
    rw [exec_bind_ok (exec_get s)] at h
    obtain ⟨entry, u, hprops, h⟩ := exists_of_exec_bind h
    obtain ⟨hslot, rfl⟩ := Prod.mk.inj h
    cases hslot
    obtain ⟨htakes, hdata, -, hit⟩ := takes_setKernelProperties hprops
    exact ⟨gpuId, _, { entry with
      index := uint32Max, agent := callbackData.agent, group := some context
      valid := true }, u, rfl, rfl, htakes, hdata, ⟨rfl, hdata ▸ hit⟩, rfl⟩

/-! ## Dumping an entry -/

/-- What dumping an entry leaves alone, and what it frees. -/
structure Dumped (dup : List UInt32) (s t : Tool) : Prop where
  contextArray : t.contextArray = s.contextArray
  payloads : t.payloads = s.payloads
  symbols : t.symbols = s.symbols
  ready : ∀ entry, Ready t entry → Ready s entry
  frees : Frees dup s t

instance {dup : List UInt32} : Std.Refl (Dumped dup) :=
  ⟨fun s ↦ ⟨rfl, rfl, rfl, fun _ ↦ id, refl_of _ s⟩⟩

instance {dup : List UInt32} : IsTrans Tool (Dumped dup) :=
  ⟨fun _ _ _ h h' ↦ ⟨h'.contextArray.trans h.contextArray, h'.payloads.trans h.payloads,
    h'.symbols.trans h.symbols, fun entry ↦ h.ready entry ∘ h'.ready entry,
    trans_of _ h.frees h'.frees⟩⟩

theorem dumped_emit {dup : List UInt32} {effect : Effect}
    (h : ∀ index, effect = .freedName index → index ∈ dup) :
    Meets (Dumped dup) (fun _ ↦ True) (emit effect) :=
  meets_modify fun _ ↦ ⟨rfl, rfl, rfl, fun _ ↦ id, frees_append rfl h⟩

theorem dumped_cleanUp {dup : List UInt32} {entry : ContextEntry} (h : entry.index ∈ dup) :
    Meets (Dumped dup) (fun e ↦ e.index = entry.index) (cleanUp entry) := by
  refine meets_cleanUp entry (fun s r ↦ ?_) (fun r ↦ dumped_emit fun _ heq ↦ by cases heq)
    (dumped_emit fun index heq ↦ ?_) fun context ↦ dumped_emit fun _ heq ↦ by cases heq
  · exact ⟨rfl, rfl, rfl, fun _ ↦ ready_of_update, frees_of_eq rfl⟩
  · cases heq
    exact h

/-- **Dumping an entry of `context_array`** frees its name, and it is done with only if the kernel
is. -/
theorem dumped_dumpContextEntry (m : Machine) (dup : List UInt32) (s : Tool) {entry : ContextEntry}
    (h : Ready s entry → entry.index ∈ dup) :
    Dumped dup s (after (dumpContextEntry m entry true) s) ∧
      ∀ p t, exec (dumpContextEntry m entry true) s = (.ok p, t) →
        p.2.index = entry.index ∧ (p.1 = true → Ready s entry) := by
  by_cases hready : Ready s entry
  · obtain ⟨record, hread, hdone⟩ := hready
    have hready : Ready s entry := ⟨record, hread, hdone⟩
    have hrest : Meets (Dumped dup) (fun p : Bool × ContextEntry ↦ p.2.index = entry.index) (do
        collect entry
        if entry.index == uint32Max then
          return (true, entry)
        let text ← liftM (message m entry record)
        emit (.published text)
        return (true, ← cleanUp entry)) := by
      refine Meets.bind (meets_modify fun _ ↦ ⟨rfl, rfl, rfl, fun _ ↦ id, ?_⟩) fun _ _ ↦ ?_
      · exact frees_append rfl fun _ heq ↦ by cases heq
      split_ifs
      · exact meets_pure rfl
      refine meets_lift_bind fun text _ ↦ ?_
      refine (dumped_emit fun _ heq ↦ by cases heq).bind fun _ _ ↦ ?_
      exact (dumped_cleanUp (h hready)).bind fun _ hindex ↦ meets_pure hindex
    rw [after, dumpContextEntry, exec_bind_ok (exec_get s), hread, exec_bind_ok (exec_lift _ s),
      if_neg (by rw [hdone]; exact Bool.false_ne_true)]
    exact ⟨(hrest s).1, fun p t hp ↦ ⟨(hrest s).2 p t hp, fun _ ↦ hready⟩⟩
  · rcases exec_dumpContextEntry_of_not_ready m true hready with heq | ⟨e, heq⟩
    · rw [after, heq]
      refine ⟨refl_of _ s, fun p t hp ↦ ?_⟩
      cases hp
      exact ⟨rfl, fun hfalse ↦ by cases hfalse⟩
    · rw [after, heq]
      refine ⟨refl_of _ s, fun p t hp ↦ ?_⟩
      cases hp

/-! ## Collecting -/

/-- The entries of `context_array` are under their indices, and the names of those with the code of
their kernel are in `dup`. -/
structure Owned (dup : List UInt32) (tool : Tool) : Prop where
  index : ∀ (key : UInt32) (entry : ContextEntry), tool.contextArray[key]? = some entry →
    entry.index = key
  name : ∀ (key : UInt32) (entry : ContextEntry), tool.contextArray[key]? = some entry →
    entry.active = true → entry.data.kernelCode.isSome → key ∈ dup

/-- Between the two states only entries with the code of their kernel are collected, and the entries
that are made are not active. -/
structure Collects (dup : List UInt32) (s t : Tool) : Prop where
  payloads : t.payloads = s.payloads
  symbols : t.symbols = s.symbols
  frees : Frees dup s t
  entries : ∀ (key : UInt32) (entry' : ContextEntry), t.contextArray[key]? = some entry' →
    (entry'.index = key ∧ entry'.active = false) ∨
      ∃ entry, s.contextArray[key]? = some entry ∧ entry'.index = entry.index ∧
        (entry'.active = true → entry' = entry)
  stays : ∀ (key : UInt32) (entry : ContextEntry), s.contextArray[key]? = some entry →
    entry.active = true → entry.data.kernelCode = none → t.contextArray[key]? = some entry

theorem collects_of_contextArray {dup : List UInt32} {s t : Tool}
    (hcontextArray : t.contextArray = s.contextArray) (hpayloads : t.payloads = s.payloads)
    (hsymbols : t.symbols = s.symbols) (hfrees : Frees dup s t) : Collects dup s t :=
  ⟨hpayloads, hsymbols, hfrees,
    fun _ entry' hentry ↦ .inr ⟨entry', hcontextArray ▸ hentry, rfl, fun _ ↦ rfl⟩,
    fun _ _ hentry _ _ ↦ hcontextArray ▸ hentry⟩

theorem Dumped.collects {dup : List UInt32} {s t : Tool} (h : Dumped dup s t) :
    Collects dup s t :=
  collects_of_contextArray h.contextArray h.payloads h.symbols h.frees

instance {dup : List UInt32} : Std.Refl (Collects dup) :=
  ⟨fun s ↦ collects_of_contextArray rfl rfl rfl (refl_of _ s)⟩

instance {dup : List UInt32} : IsTrans Tool (Collects dup) := by
  refine ⟨fun s t u h h' ↦ ⟨h'.payloads.trans h.payloads, h'.symbols.trans h.symbols,
    trans_of _ h.frees h'.frees, fun key entry'' hentry ↦ ?_, fun key entry hentry ha hc ↦ ?_⟩⟩
  · rcases h'.entries key entry'' hentry with hnew | ⟨entry', hentry', hindex', heq'⟩
    · exact .inl hnew
    rcases h.entries key entry' hentry' with ⟨hkey, hnew⟩ | ⟨entry, hentry, hindex, heq⟩
    · refine .inl ⟨hindex'.trans hkey, ?_⟩
      by_contra ha
      have ha : entry''.active = true := by simpa using ha
      rw [← heq' ha, ha] at hnew
      cases hnew
    · refine .inr ⟨entry, hentry, hindex'.trans hindex, fun ha ↦ ?_⟩
      exact (heq' ha).trans (heq (heq' ha ▸ ha))
  · exact h'.stays key entry (h.stays key entry hentry ha hc) ha hc

/-- What is active has been there before. -/
theorem Collects.of_active {dup : List UInt32} {s t : Tool} (h : Collects dup s t) {key : UInt32}
    {entry : ContextEntry} (hentry : t.contextArray[key]? = some entry)
    (hactive : entry.active = true) : s.contextArray[key]? = some entry := by
  rcases h.entries key entry hentry with ⟨-, hnew⟩ | ⟨entry', hentry', -, heq⟩
  · rw [hactive] at hnew
    cases hnew
  · exact heq hactive ▸ hentry'

theorem Owned.of_collects {dup : List UInt32} {s t : Tool} (hs : Owned dup s)
    (h : Collects dup s t) : Owned dup t := by
  refine ⟨fun key entry' hentry' ↦ ?_, fun key entry' hentry' ha hc ↦ ?_⟩
  · rcases h.entries key entry' hentry' with ⟨hkey, -⟩ | ⟨entry, hentry, hindex, -⟩
    · exact hkey
    · exact hindex.trans (hs.index key entry hentry)
  · exact hs.name key entry' (h.of_active hentry' ha) ha hc

theorem collects_erase {dup : List UInt32} {s : Tool} {key : UInt32}
    (h : ∀ entry, s.contextArray[key]? = some entry → entry.active = true →
      entry.data.kernelCode.isSome) :
    Collects dup s { s with contextArray := s.contextArray.erase key } := by
  refine ⟨rfl, rfl, frees_of_eq rfl, fun key' entry' hentry' ↦ ?_, fun key' entry hentry ha hc ↦ ?_⟩
  · exact .inr ⟨entry', (OrderedMap.of_getElem?_erase hentry').2, rfl, fun _ ↦ rfl⟩
  · have hne : key' ≠ key := by
      rintro rfl
      have hcode := h entry hentry ha
      rw [hc] at hcode
      exact absurd hcode Bool.false_ne_true
    exact (OrderedMap.getElem?_erase_of_ne _ hne).trans hentry

/-- Only the entry with this index changes. -/
theorem getElem?_writeEntry_of_ne {s : Tool} {index key : UInt32} (entry : ContextEntry)
    (h : key ≠ index) : (s.writeEntry index entry).contextArray[key]? = s.contextArray[key]? :=
  OrderedMap.getElem?_insert_of_ne _ _ h

theorem getElem?_writeEntry_self {s : Tool} {index : UInt32} (entry : ContextEntry) :
    (s.writeEntry index entry).contextArray[index]? = some entry :=
  Std.TreeMap.getElem?_insert_self

theorem collects_writeEntry {dup : List UInt32} {s : Tool} {key : UInt32}
    {entry entry' : ContextEntry} (hentry : s.contextArray[key]? = some entry)
    (hcode : entry.data.kernelCode.isSome) (hindex : entry'.index = entry.index)
    (hactive : entry'.active = false) : Collects dup s (s.writeEntry key entry') := by
  refine ⟨rfl, rfl, frees_of_eq rfl, fun key' entry'' h ↦ ?_, fun key' entry'' h ha hc ↦ ?_⟩
  · rcases OrderedMap.of_getElem?_insert h with ⟨rfl, rfl⟩ | ⟨-, h⟩
    · exact .inr ⟨entry, hentry, hindex, fun ha ↦ absurd (hactive.symm.trans ha) Bool.false_ne_true⟩
    · exact .inr ⟨entry'', h, rfl, fun _ ↦ rfl⟩
  · have hne : key' ≠ key := by
      rintro rfl
      obtain rfl := Option.some.inj (hentry.symm.trans h)
      rw [hc] at hcode
      exact absurd hcode Bool.false_ne_true
    exact (getElem?_writeEntry_of_ne entry' hne).trans h

/-- A new entry. -/
theorem collects_insert {dup : List UInt32} {s : Tool} {index count : UInt32}
    (h : s.contextArray[index]? = none) :
    Collects dup s ({ s with contextCount := count }.writeEntry index { index }) := by
  refine ⟨rfl, rfl, frees_of_eq rfl, fun key entry hentry ↦ ?_, fun key entry hentry _ _ ↦ ?_⟩
  · rcases OrderedMap.of_getElem?_insert hentry with ⟨rfl, rfl⟩ | ⟨-, hentry⟩
    · exact .inl ⟨rfl, rfl⟩
    · exact .inr ⟨entry, hentry, rfl, fun _ ↦ rfl⟩
  · have hne : key ≠ index := by
      rintro rfl
      rw [h] at hentry
      cases hentry
    exact (OrderedMap.getElem?_insert_of_ne _ _ hne).trans hentry

/-- **The completion handler** of `dispatch_callback`. -/
theorem collects_contextHandler {m : Machine} {dup : List UInt32} {s : Tool} {index : UInt32}
    (hs : Owned dup s)
    (hC : ∀ entry, s.contextArray[index]? = some entry → entry.active = true → Ready s entry →
      entry.data.kernelCode.isSome) :
    Collects dup s (after (contextHandler m index) s) := by
  rw [contextHandler, after, exec_bind_ok (exec_get s)]
  rcases hentry : s.contextArray[index]? with _ | entry
  · exact refl_of _ s
  · have hkey : entry.index = index := hs.index index entry hentry
    dsimp only
    split_ifs with hactive
    · obtain ⟨hdumped, hret⟩ := dumped_dumpContextEntry m dup s
        fun hready ↦ hkey ▸ hs.name index entry hentry hactive (hC entry hentry hactive hready)
      refine after_bind hdumped.collects fun p t hp ↦ ?_
      have ht : t.contextArray = s.contextArray := after_of_exec hp ▸ hdumped.contextArray
      obtain ⟨hindex, hready⟩ := hret p t hp
      obtain ⟨ret, entry'⟩ := p
      cases ret with
      | false => exact refl_of _ t
      | true =>
        refine collects_erase fun entry'' hentry'' _ ↦ ?_
        rw [hindex, hkey, ht, hentry] at hentry''
        cases hentry''
        exact hC entry hentry hactive (hready rfl)
    · refine collects_erase fun entry' hentry' ha ↦ ?_
      rw [hkey, hentry] at hentry'
      cases hentry'
      exact absurd ha hactive

theorem Dumped.queueNamed {dup : List UInt32} {queue : Option UInt64} {s t : Tool}
    (h : Dumped dup s t) (hs : QueueNamed queue s) : QueueNamed queue t :=
  ForQueue.mono hs h.contextArray h.ready

theorem queueNamed_writeEntry {queue : Option UInt64} {s : Tool} {key : UInt32}
    {entry : ContextEntry} (h : entry.active = false) (hs : QueueNamed queue s) :
    QueueNamed queue (s.writeEntry key entry) :=
  ForQueue.writeEntry hs h

/-- **One round of the inner loop**: what the queue still has to come is named as well. -/
theorem collects_dumpKey {m : Machine} {dup : List UInt32} {queue : Option UInt64} {s : Tool}
    (key : UInt32) (hs : Owned dup s) (hC : QueueNamed queue s) :
    Keeping (Collects dup) (QueueNamed queue) s (after (dumpKey m queue key) s) := by
  rw [dumpKey, after, exec_bind_ok (exec_get s)]
  rcases hentry : s.contextArray[key]? with _ | entry
  · exact refl_of _ s
  · dsimp only
    split_ifs with h
    · obtain ⟨hqueue, hactive⟩ := Bool.and_eq_true_iff.mp h
      have hnamed : Ready s entry → entry.data.kernelCode.isSome :=
        hC key entry hentry hqueue hactive
      obtain ⟨hdumped, hret⟩ := dumped_dumpContextEntry m dup s
        fun hready ↦ hs.index key entry hentry ▸ hs.name key entry hentry hactive (hnamed hready)
      refine after_bind (R := Keeping (Collects dup) (QueueNamed queue))
        ⟨hdumped.collects, hdumped.queueNamed⟩ fun p t hp ↦ ?_
      have ht : t.contextArray = s.contextArray := after_of_exec hp ▸ hdumped.contextArray
      obtain ⟨hindex, hready⟩ := hret p t hp
      obtain ⟨ret, entry'⟩ := p
      cases ret with
      | false => exact refl_of _ t
      | true =>
        refine ⟨?_, queueNamed_writeEntry rfl⟩
        exact collects_writeEntry (ht ▸ hentry) (hnamed (hready rfl)) hindex rfl
    · exact refl_of _ s

/-- **The inner loop.** -/
theorem collects_dumpKeys {m : Machine} {dup : List UInt32} {queue : Option UInt64} {s : Tool}
    (keys : List UInt32) (hs : Owned dup s) (hC : QueueNamed queue s) :
    Collects dup s (after (dumpKeys m queue keys) s) := by
  induction keys generalizing s with
  | nil => exact refl_of _ s
  | cons key keys ih =>
    have hkey := collects_dumpKey (m := m) key hs hC
    refine after_bind hkey.1 fun done t ht ↦ ?_
    rw [after_of_exec ht] at hkey
    exact after_bind (ih (hs.of_collects hkey.1) (hkey.2 hC)) fun rest u _ ↦ refl_of _ u

/-! ## Giving back an entry of a pool -/

/-- Dumping an entry of a pool counts it, or does nothing. -/
theorem dumpContextEntry_of_pool (m : Machine) (s : Tool) {entry : ContextEntry}
    (hindex : entry.index = uint32Max) :
    (∃ ret u, exec (dumpContextEntry m entry false) s = (.ok (ret, entry), u) ∧
        (u = s ∨ u = after (collect entry) s)) ∨
      ∃ e, exec (dumpContextEntry m entry false) s = (.error e, s) := by
  by_cases hready : Ready s entry
  · exact .inl ⟨true, _, exec_dumpContextEntry_of_sentinel m false hready hindex, .inr rfl⟩
  · rcases exec_dumpContextEntry_of_not_ready m false hready with h | ⟨e, h⟩
    · exact .inl ⟨false, s, h, .inl rfl⟩
    · exact .inr ⟨e, h⟩

theorem symbolAt_eq_ok {s : Tool} {it : Option UInt64} {addr : UInt64} {symbol : Symbol}
    (h : s.symbolAt it = .ok (addr, symbol)) : it = some addr ∧ s.symbols addr = some symbol := by
  rcases it with _ | addr'
  · cases h
  · rw [Tool.symbolAt] at h
    rcases hsymbol : s.symbols addr' with _ | symbol'
    · simp [hsymbol] at h
    · simp only [hsymbol, Except.ok.injEq, Prod.mk.injEq] at h
      obtain ⟨rfl, rfl⟩ := h
      exact ⟨rfl, hsymbol⟩

theorem exec_releaseKernelNameRef {s : Tool} {it : Option UInt64} {addr : UInt64} {symbol : Symbol}
    (h : s.symbolAt it = .ok (addr, symbol)) :
    exec (releaseKernelNameRef it) s = (.ok ⟨⟩, { s with
      symbols := s.symbols.assign addr { symbol with refsCount := symbol.refsCount - 1 } }) := by
  rw [releaseKernelNameRef, exec_bind_ok (exec_get s), h, exec_bind_ok (exec_lift _ s)]
  rfl

/-- The reference of the iterator at `it` is given back, and the entry of the pool is written. -/
structure Returns (slot : Slot) (it : Option UInt64) (s t : Tool) : Prop where
  contextArray : t.contextArray = s.contextArray
  payloads : ∃ payload, t.payloads = s.payloads.assign slot payload
  refsCount : ∃ addr, it = some addr ∧
    ∀ addr', t.refsCount addr' = if addr' = addr then s.refsCount addr - 1 else s.refsCount addr'

/-- **The completion handler of the optimised mode.** -/
theorem returns_contextPoolHandler (m : Machine) (dup : List UInt32) {s : Tool} {slot : Slot}
    {payload : ContextEntry} (hpayload : s.payloads slot = some payload)
    (hindex : payload.index = uint32Max) :
    Frees dup s (after (contextPoolHandler m slot) s) ∧
      ∀ t, exec (contextPoolHandler m slot) s = (.ok ⟨⟩, t) →
        Returns slot payload.kernelNameIt s t := by
  rw [contextPoolHandler, after, exec_bind_ok (exec_get s), hpayload]
  dsimp only
  rcases hat : s.symbolAt payload.kernelNameIt with e | ⟨addr, symbol⟩
  · exact ⟨refl_of _ s, fun t h ↦ by cases h⟩
  let entry : ContextEntry := { payload with
    features := m.handlerFeatures
    data := { payload.data with kernelName := some symbol.name } }
  rw [exec_bind_ok (exec_lift _ s)]
  rcases dumpContextEntry_of_pool m s (show entry.index = uint32Max from hindex) with
    ⟨ret, u, hdump, hu⟩ | ⟨e, hdump⟩
  · let v : Tool := { u with payloads := u.payloads.assign slot entry }
    have hmodify : exec (modify fun tool : Tool ↦
        { tool with payloads := tool.payloads.assign slot entry } :
          ExceptT Fault (StateM Tool) PUnit) u = (.ok ⟨⟩, v) := rfl
    have hv : Frees dup s v ∧ v.contextArray = s.contextArray ∧
        v.payloads = s.payloads.assign slot entry ∧ v.symbols = s.symbols := by
      rcases hu with rfl | rfl
      · exact ⟨frees_of_eq rfl, rfl, rfl, rfl⟩
      · exact ⟨frees_append rfl fun _ heq ↦ (by cases heq), rfl, rfl, rfl⟩
    obtain ⟨hfrees, hcontextArray, hpayloads, hsymbols⟩ := hv
    have hat' : v.symbolAt entry.kernelNameIt = .ok (addr, symbol) := by
      rw [Tool.symbolAt.eq_def, hsymbols]
      exact hat
    rw [exec_bind_ok hdump, exec_bind_ok hmodify, exec_releaseKernelNameRef hat']
    refine ⟨trans_of _ hfrees (frees_of_eq rfl), fun t h ↦ ?_⟩
    cases h
    obtain ⟨hit, hsymbol⟩ := symbolAt_eq_ok hat
    refine ⟨hcontextArray, ⟨entry, hpayloads⟩, addr, hit, fun addr' ↦ ?_⟩
    rw [refsCount_assign, Tool.refsCount, Tool.refsCount, Tool.refsCount, hsymbols, hsymbol]
    rfl
  · rw [exec_bind_error hdump]
    exact ⟨refl_of _ s, fun t h ↦ by cases h⟩

/-! ## The invariant -/

/-- What there is to say about the ledger while the tool is running. -/
structure Inv (L : Ledger) : Prop where
  owned : Owned L.duplicated L.system.tool
  waiting : ∀ (index : UInt32) (entry : ContextEntry), (L.system.dispatching index).isSome →
    L.system.tool.contextArray[index]? = some entry → entry.active = false
  entries : ∀ (index : UInt32) (callbackData : CallbackData),
    ⟨.entry index, callbackData⟩ ∈ L.opens → ∃ entry,
      L.system.tool.contextArray[index]? = some entry ∧ entry.active = true ∧
        entry.data = callbackData
  free : ∀ slot, L.system.fetched slot = false → L.opens.filter (·.place == .slot slot) = []
  pooled : ∀ slot, L.system.fetched slot = true → ∃ payload,
    L.system.tool.payloads slot = some payload ∧ Borrows payload ∧
      L.opens.filter (·.place == .slot slot) = [⟨.slot slot, payload.data⟩]
  counted : ∀ addr, L.system.tool.refsCount addr = UInt64.ofNat (L.holders addr)

theorem Inv.fetched {L : Ledger} (hI : Inv L) {slot : Slot} {callbackData : CallbackData}
    (h : ⟨.slot slot, callbackData⟩ ∈ L.opens) : L.system.fetched slot = true := by
  by_contra hfetched
  have hmem : ⟨.slot slot, callbackData⟩ ∈ L.opens.filter (·.place == .slot slot) :=
    List.mem_filter.mpr ⟨h, beq_self_eq_true _⟩
  rw [hI.free slot (by simpa using hfetched)] at hmem
  cases hmem

theorem keeps_entry {s : System} {index : UInt32} {entry : ContextEntry}
    (h : s.tool.contextArray[index]? = some entry) (hactive : entry.active = true) :
    s.keeps (.entry index) = true := by
  rw [System.keeps, h]
  exact hactive

/-- The filter of `Ledger.advance` does not matter for a slot that stays fetched. -/
theorem filter_keeps_slot {s : System} {slot : Slot} (h : s.fetched slot = true)
    (opens : List OpenDispatch) :
    (opens.filter (s.keeps ·.place)).filter (·.place == .slot slot)
      = opens.filter (·.place == .slot slot) := by
  rw [List.filter_filter]
  refine List.filter_congr fun d _ ↦ ?_
  by_cases hplace : d.place = .slot slot
  · rw [hplace, System.keeps, h, Bool.and_true]
  · rw [beq_false_of_ne hplace, Bool.false_and]

/-- **Collecting** entries with the code of their kernel keeps the invariant. -/
theorem Inv.of_collects {L : Ledger} {t : System} (hI : Inv L)
    (h : Collects L.duplicated L.system.tool t.tool)
    (hdispatching : ∀ (index : UInt32) (entry : ContextEntry), (t.dispatching index).isSome →
      t.tool.contextArray[index]? = some entry → entry.active = true →
        (L.system.dispatching index).isSome)
    (hfetched : t.fetched = L.system.fetched) :
    Inv ⟨t, L.opens.filter (t.keeps ·.place), L.duplicated⟩ := by
  refine ⟨hI.owned.of_collects h, fun index entry' hdisp hentry' ↦ ?_,
    fun index callbackData hmem ↦ ?_, fun slot hfree ↦ ?_, fun slot hfetch ↦ ?_, fun addr ↦ ?_⟩
  · by_contra hactive
    have hactive' : entry'.active = true := by simpa using hactive
    exact hactive (hI.waiting index entry' (hdispatching index entry' hdisp hentry' hactive')
      (h.of_active hentry' hactive'))
  · obtain ⟨hopen, hkeeps⟩ := List.mem_filter.mp hmem
    obtain ⟨entry, hentry, -, hdata⟩ := hI.entries index callbackData hopen
    rw [System.keeps, Option.any_eq_true] at hkeeps
    obtain ⟨entry', hentry', hactive⟩ := hkeeps
    have heq := h.of_active hentry' hactive
    rw [hentry] at heq
    cases heq
    exact ⟨entry, hentry', hactive, hdata⟩
  · rw [List.filter_comm, hI.free slot (hfetched ▸ hfree), List.filter_nil]
  · obtain ⟨payload, hpayload, hborrows, hfilter⟩ := hI.pooled slot (hfetched ▸ hfetch)
    exact ⟨payload, h.payloads ▸ hpayload, hborrows, (filter_keeps_slot hfetch _).trans hfilter⟩
  · rw [Tool.refsCount, h.symbols]
    refine (hI.counted addr).trans (congrArg UInt64.ofNat ?_)
    rw [Ledger.holders, Ledger.holders, List.countP_filter]
    refine List.countP_congr fun d hd ↦ ?_
    rw [Bool.and_eq_true, iff_self_and]
    intro hrefs
    obtain ⟨place, callbackData⟩ := d
    cases place with
    | entry index =>
      obtain ⟨entry, hentry, hactive, hdata⟩ := hI.entries index callbackData hd
      rw [CallbackData.references, Bool.and_eq_true, Option.isNone_iff_eq_none] at hrefs
      exact keeps_entry (h.stays index entry hentry hactive (hdata ▸ hrefs.1)) hactive
    | slot slot =>
      rw [System.keeps, hfetched]
      exact hI.fetched hd

/-- A call that has not stopped the tool has returned. -/
theorem System.exists_of_perform {α : Type} {s : System} {x : ExceptT Fault (StateM Tool) α}
    {next : α → System → System} (h : (s.perform x next).stopped = none) :
    ∃ a tool, exec x s.tool = (.ok a, tool) ∧ s.perform x next = next a { s with tool } := by
  rcases hexec : exec x s.tool with ⟨e | a, tool⟩
  · simp [System.perform, hexec] at h
  · exact ⟨a, tool, rfl, by simp only [System.perform, hexec]⟩

theorem advance_eq {m : Machine} {L : Ledger} {event : Event} {t : System}
    (hopened : L.system.opened m event = []) (hduplicates : L.system.duplicates t event = []) :
    L.advance m event t = ⟨t, L.opens.filter (t.keeps ·.place), L.duplicated⟩ := by
  rw [Ledger.advance, hopened, hduplicates, List.append_nil, List.append_nil]

/-- When everything that is open is kept, the filter of `Ledger.advance` does not matter. -/
theorem filter_keeps {L : Ledger} {t : System} (hI : Inv L)
    (hentries : ∀ (index : UInt32) (entry : ContextEntry),
      L.system.tool.contextArray[index]? = some entry → entry.active = true →
        t.tool.contextArray[index]? = some entry)
    (hfetched : ∀ slot, L.system.fetched slot = true → t.fetched slot = true) :
    L.opens.filter (t.keeps ·.place) = L.opens := by
  refine List.filter_eq_self.mpr fun d hd ↦ ?_
  obtain ⟨place, callbackData⟩ := d
  cases place with
  | entry index =>
    obtain ⟨entry, hentry, hactive, -⟩ := hI.entries index callbackData hd
    exact keeps_entry (hentries index entry hentry hactive) hactive
  | slot slot => exact hfetched slot (hI.fetched hd)

theorem collects_allocate (dup : List UInt32) (s : Tool) (record : Option ℕ) :
    Collects dup s (s.allocate record) := by
  cases record with
  | none => exact refl_of _ s
  | some r => exact collects_of_contextArray rfl rfl rfl (frees_of_eq rfl)

/-- **What the first half of `dispatch_callback` does.** -/
theorem of_exec_allocContext {m : Machine} {callbackData : CallbackData} {index : Option UInt32}
    {s t : Tool} (h : exec (allocContext m callbackData) s = (.ok index, t)) :
    (index = none ∧ t = { s with contextCount := s.contextCount + 1 }) ∨
      index = some s.contextCount ∧ s.contextArray[s.contextCount]? = none ∧
        t = { s with contextCount := s.contextCount + 1 }.writeEntry s.contextCount
          { index := s.contextCount } := by
  rw [allocContext] at h
  obtain ⟨opens, -, h⟩ := exists_of_exec_lift_bind h
  cases opens with
  | false =>
    cases h
    exact .inl ⟨rfl, rfl⟩
  | true =>
    obtain ⟨i, u, halloc, h⟩ := exists_of_exec_bind h
    cases h
    have hnext : exec nextContextCount s
        = (.ok (s.contextCount + 1), { s with contextCount := s.contextCount + 1 }) := rfl
    rw [allocContextEntry, exec_bind_ok hnext, exec_bind_ok (exec_get _),
      UInt32.add_sub_cancel] at halloc
    split_ifs at halloc with hcontains
    · cases halloc
    · cases halloc
      exact .inr ⟨rfl, Std.TreeMap.getElem?_eq_none hcontains, rfl⟩

theorem collects_allocContext {m : Machine} {callbackData : CallbackData} {index : Option UInt32}
    (dup : List UInt32) {s t : Tool} (h : exec (allocContext m callbackData) s = (.ok index, t)) :
    Collects dup s t ∧ ∀ i, index = some i → s.contextArray[i]? = none := by
  rcases of_exec_allocContext h with ⟨rfl, rfl⟩ | ⟨rfl, hnone, rfl⟩
  · refine ⟨collects_of_contextArray rfl rfl rfl (frees_of_eq rfl), fun i hi ↦ ?_⟩
    cases hi
  · refine ⟨collects_insert hnone, fun i hi ↦ ?_⟩
    obtain rfl := Option.some.inj hi
    exact hnone

/-- **The first half of `dispatch_callback`** keeps the invariant. -/
theorem Inv.dispatch {m : Machine} {L : Ledger} {t : System} {callbackData : CallbackData}
    (hI : Inv L) (hstep : Version1.step m L.system (.dispatch callbackData) = some t)
    (ht : t.stopped = none) : Inv (L.advance m (.dispatch callbackData) t) := by
  obtain ⟨-, rfl⟩ := of_step_dispatch hstep
  obtain ⟨index, tool, hexec, heq⟩ := System.exists_of_perform ht
  rw [heq, advance_eq rfl rfl]
  obtain ⟨halloc, hnew⟩ := collects_allocContext L.duplicated hexec
  have hcollects : Collects L.duplicated L.system.tool tool :=
    trans_of _ (collects_allocate _ L.system.tool callbackData.record) halloc
  rcases index with _ | i
  · exact hI.of_collects hcollects (fun _ _ h _ _ ↦ h) rfl
  · refine hI.of_collects hcollects (fun index entry hdisp hentry ha ↦ ?_) rfl
    rcases eq_or_ne index i with rfl | hne
    · -- the new entry is not active
      have hold := halloc.of_active hentry ha
      rw [hnew index rfl] at hold
      cases hold
    · have hdisp : (L.system.dispatching.assign i callbackData index).isSome := hdisp
      rwa [UMap.assign_of_ne _ _ hne] at hdisp

/-- The count of a symbol when one more dispatch is open. -/
theorem counted_concat {L : Ledger} {callbackData : CallbackData} {index : UInt32} {u : Tool}
    (hI : Inv L) (h : Takes callbackData index L.system.tool u) (place : Place) (addr : UInt64) :
    u.refsCount addr = UInt64.ofNat
      (List.countP (·.callbackData.references addr) (L.opens ++ [⟨place, callbackData⟩])) := by
  rw [h.refsCount, hI.counted, List.countP_append, UInt64.ofNat_add]
  exact congrArg _ (congrArg _ List.countP_singleton.symm)

/-- The entry of a dispatch that goes on is filled in, and becomes active. -/
theorem Inv.openEntry {L : Ledger} {callbackData : CallbackData} {index : UInt32}
    {entry entry' : ContextEntry} {u : Tool} (hI : Inv L)
    (hdisp : (L.system.dispatching index).isSome)
    (hentry : L.system.tool.contextArray[index]? = some entry)
    (htakes : Takes callbackData index L.system.tool u) (hdata : entry'.data = callbackData)
    (hindex : entry'.index = index) (hactive : entry'.active = true) :
    Inv ⟨{ L.system with
      tool := u.writeEntry index entry'
      dispatching := Function.update L.system.dispatching index none },
        L.opens ++ [⟨.entry index, callbackData⟩],
        L.duplicated ++ if callbackData.kernelCode.isSome then [index] else []⟩ := by
  -- every other entry is as before
  have hother : ∀ {key : UInt32} {entry'' : ContextEntry}, key ≠ index →
      ((u.writeEntry index entry').contextArray[key]? = some entry'' ↔
        L.system.tool.contextArray[key]? = some entry'') := by
    intro key entry'' hne
    rw [getElem?_writeEntry_of_ne entry' hne, htakes.contextArray]
  have hself : ∀ {entry'' : ContextEntry},
      (u.writeEntry index entry').contextArray[index]? = some entry'' → entry'' = entry' := by
    intro entry'' h
    rw [getElem?_writeEntry_self] at h
    exact (Option.some.inj h).symm
  have hslot : ∀ slot,
      List.filter (·.place == .slot slot) (L.opens ++ [⟨.entry index, callbackData⟩])
        = L.opens.filter (·.place == .slot slot) := by
    intro slot
    rw [List.filter_append]
    exact List.append_nil _
  refine ⟨⟨fun key entry'' h ↦ ?_, fun key entry'' h ha hc ↦ ?_⟩, fun key entry'' h h' ↦ ?_,
    fun key callbackData' hmem ↦ ?_, fun slot h ↦ (hslot slot).trans (hI.free slot h),
    fun slot h ↦ ?_, counted_concat hI htakes (.entry index)⟩
  · rcases eq_or_ne key index with rfl | hne
    · exact hself h ▸ hindex
    · exact hI.owned.index key entry'' ((hother hne).mp h)
  · rw [List.mem_append]
    rcases eq_or_ne key index with rfl | hne
    · obtain rfl := hself h
      rw [hdata] at hc
      exact .inr (by rw [if_pos hc]; exact List.mem_singleton_self key)
    · exact .inl (hI.owned.name key entry'' ((hother hne).mp h) ha hc)
  · rcases eq_or_ne key index with rfl | hne
    · simp at h
    · exact hI.waiting key entry'' (by simpa [hne] using h) ((hother hne).mp h')
  · rw [List.mem_append, List.mem_singleton] at hmem
    rcases hmem with hmem | heq
    · obtain ⟨entry'', hentry'', hactive', hdata'⟩ := hI.entries key callbackData' hmem
      have hne : key ≠ index := by
        rintro rfl
        rw [hI.waiting key entry'' hdisp hentry''] at hactive'
        cases hactive'
      exact ⟨entry'', (hother hne).mpr hentry'', hactive', hdata'⟩
    · cases heq
      exact ⟨entry', getElem?_writeEntry_self entry', hactive, hdata⟩
  · obtain ⟨payload, hpayload, hborrows, hfilter⟩ := hI.pooled slot h
    exact ⟨payload, htakes.payloads ▸ hpayload, hborrows, (hslot slot).trans hfilter⟩

/-- **The second half of `dispatch_callback`** keeps the invariant, and opens a dispatch. -/
theorem Inv.fill {m : Machine} {L : Ledger} {t : System} {index : UInt32} {context : ℕ}
    {currTime : UInt64} (hI : Inv L)
    (hstep : Version1.step m L.system (.fill index context currTime) = some t)
    (ht : t.stopped = none) : Inv (L.advance m (.fill index context currTime) t) := by
  obtain ⟨callbackData, hdisp, rfl⟩ := of_step_fill hstep
  obtain ⟨⟨⟩, tool, hexec, heq⟩ := System.exists_of_perform ht
  rw [heq]
  obtain ⟨entry, entry', u, hentry, htakes, hdata, hindex, hactive, -, rfl⟩ :=
    exists_of_fillContext hexec
  rw [hI.owned.index index entry hentry] at htakes hindex
  have hsome : (L.system.dispatching index).isSome := by
    rw [hdisp]
    rfl
  have hI' := hI.openEntry hsome hentry htakes hdata hindex hactive
  have hkeeps : L.opens.filter (System.keeps { L.system with
      tool := u.writeEntry index entry'
      dispatching := Function.update L.system.dispatching index none } ·.place) = L.opens := by
    refine filter_keeps hI (fun key entry'' hkey ha ↦ ?_) fun _ h ↦ h
    have hne : key ≠ index := by
      rintro rfl
      rw [hI.waiting key entry'' hsome hkey] at ha
      cases ha
    rw [getElem?_writeEntry_of_ne entry' hne, htakes.contextArray]
    exact hkey
  have hopened : L.system.opened m (.fill index context currTime)
      = [⟨.entry index, callbackData⟩] := by
    rw [System.opened, hdisp]
    rfl
  have hduplicates : L.system.duplicates { L.system with
      tool := u.writeEntry index entry'
      dispatching := Function.update L.system.dispatching index none }
        (.fill index context currTime)
      = if callbackData.kernelCode.isSome then [index] else [] := by
    rw [System.duplicates, show (u.writeEntry index entry').effects = u.effects from rfl,
      htakes.effects, List.drop_left]
    rcases callbackData.kernelCode with _ | kernelCode
    · rfl
    · exact if_pos (List.mem_singleton_self _)
  rw [Ledger.advance, hopened]
  rw [← hkeeps, ← hduplicates] at hI'
  exact hI'

theorem Takes.of_allocate {callbackData : CallbackData} {index : UInt32} {s t : Tool}
    {record : Option ℕ} (h : Takes callbackData index (s.allocate record) t) :
    Takes callbackData index s t := by
  cases record with
  | none => exact h
  | some r => exact ⟨h.contextArray, h.payloads, h.refsCount, h.effects⟩

/-- An entry of a pool is fetched and filled in. -/
theorem Inv.openSlot {L : Ledger} {callbackData : CallbackData} {index : UInt32} {slot : Slot}
    {payload : ContextEntry} {u : Tool} (hI : Inv L) (hfree : L.system.fetched slot = false)
    (htakes : Takes callbackData index L.system.tool u) (hdata : payload.data = callbackData)
    (hborrows : Borrows payload) :
    Inv ⟨{ L.system with
      tool := { u with payloads := u.payloads.assign slot payload }
      fetched := Function.update L.system.fetched slot true },
        L.opens ++ [⟨.slot slot, callbackData⟩], L.duplicated⟩ := by
  have hother : ∀ {slot' : Slot}, slot' ≠ slot →
      List.filter (·.place == .slot slot') (L.opens ++ [⟨.slot slot, callbackData⟩])
        = L.opens.filter (·.place == .slot slot') := by
    intro slot' hne
    have hplace : (Place.slot slot == Place.slot slot') = false := by simpa using hne.symm
    rw [List.filter_append, List.filter_singleton, hplace]
    exact List.append_nil _
  refine ⟨⟨fun key entry h ↦ ?_, fun key entry h ↦ ?_⟩, fun key entry h h' ↦ ?_,
    fun key callbackData' hmem ↦ ?_, fun slot' h ↦ ?_, fun slot' h ↦ ?_,
    counted_concat hI htakes (.slot slot)⟩
  · exact hI.owned.index key entry (htakes.contextArray ▸ h)
  · exact hI.owned.name key entry (htakes.contextArray ▸ h)
  · exact hI.waiting key entry h (htakes.contextArray ▸ h')
  · rw [List.mem_append, List.mem_singleton] at hmem
    rcases hmem with hmem | heq
    · show ∃ entry, u.contextArray[key]? = some entry ∧ _
      rw [htakes.contextArray]
      exact hI.entries key callbackData' hmem
    · cases heq
  · rcases eq_or_ne slot' slot with rfl | hne
    · simp at h
    · exact (hother hne).trans (hI.free slot' (by simpa [hne] using h))
  · rcases eq_or_ne slot' slot with rfl | hne
    · refine ⟨payload, UMap.assign_self _ _ _, hborrows, ?_⟩
      rw [List.filter_append, hI.free slot' hfree, hdata, List.nil_append]
      exact List.filter_eq_self.mpr fun d hd ↦ by simp [List.mem_singleton.mp hd]
    · obtain ⟨payload', hpayload, hborrows', hfilter⟩ := hI.pooled slot' (by simpa [hne] using h)
      refine ⟨payload', ?_, hborrows', (hother hne).trans hfilter⟩
      exact (UMap.assign_of_ne _ _ hne).trans (htakes.payloads ▸ hpayload)

/-- **`dispatch_callback_opt`** keeps the invariant, and opens a dispatch. -/
theorem Inv.dispatchOpt {m : Machine} {L : Ledger} {t : System} {callbackData : CallbackData}
    {number context : ℕ} (hI : Inv L)
    (hstep : Version1.step m L.system (.dispatchOpt callbackData number context) = some t)
    (ht : t.stopped = none) : Inv (L.advance m (.dispatchOpt callbackData number context) t) := by
  obtain ⟨hcan, rfl⟩ := of_step_dispatchOpt hstep
  obtain ⟨slot, tool, hexec, heq⟩ := System.exists_of_perform ht
  rw [heq]
  obtain ⟨gpuId, index, payload, u, hgpu, rfl, htakes, hdata, hborrows, rfl⟩ :=
    exists_of_dispatchCallbackOpt hexec
  rw [System.canDispatchOpt, hgpu, Bool.and_eq_true] at hcan
  have hfree : L.system.fetched (gpuId, number) = false := by simpa using hcan.2
  have hI' := hI.openSlot hfree htakes.of_allocate hdata hborrows
  have hkeeps : L.opens.filter (System.keeps { L.system with
      tool := { u with payloads := u.payloads.assign (gpuId, number) payload }
      fetched := Function.update L.system.fetched (gpuId, number) true } ·.place) = L.opens := by
    refine filter_keeps hI (fun key entry hentry _ ↦ ?_) fun slot' hslot ↦ ?_
    · show u.contextArray[key]? = some entry
      rw [htakes.of_allocate.contextArray]
      exact hentry
    · rcases eq_or_ne slot' (gpuId, number) with rfl | hne
      · exact Function.update_self _ _ _
      · exact (Function.update_of_ne hne _ _).trans hslot
  have hopened : L.system.opened m (.dispatchOpt callbackData number context)
      = [⟨.slot (gpuId, number), callbackData⟩] := by
    rw [System.opened, hgpu]
    rfl
  simp only [Ledger.advance, hopened, System.duplicates, List.append_nil]
  rw [← hkeeps] at hI'
  exact hI'

/-- An entry of a pool goes back, and the reference that its dispatch has held. -/
theorem Inv.closeSlot {L : Ledger} {slot : Slot} {payload : ContextEntry} {v : Tool} (hI : Inv L)
    (hpayload : L.system.tool.payloads slot = some payload)
    (hborrows : Borrows payload) (hcode : payload.data.kernelCode = none)
    (hfilter : L.opens.filter (·.place == .slot slot) = [⟨.slot slot, payload.data⟩])
    (hreturns : Returns slot payload.kernelNameIt L.system.tool v) :
    Inv ⟨{ L.system with tool := v, fetched := Function.update L.system.fetched slot false },
      L.opens.filter fun d ↦ !(d.place == .slot slot), L.duplicated⟩ := by
  have hother : ∀ {slot' : Slot}, slot' ≠ slot →
      (L.opens.filter fun d ↦ !(d.place == .slot slot)).filter (·.place == .slot slot')
        = L.opens.filter (·.place == .slot slot') := by
    intro slot' hne
    rw [List.filter_filter]
    refine List.filter_congr fun d _ ↦ ?_
    by_cases hplace : d.place = .slot slot'
    · have hne' : (Place.slot slot' == Place.slot slot) = false := by simpa using hne
      rw [hplace, hne', Bool.not_false, Bool.and_true]
    · rw [beq_false_of_ne hplace, Bool.false_and]
  refine ⟨⟨fun key entry h ↦ ?_, fun key entry h ↦ ?_⟩, fun key entry h h' ↦ ?_,
    fun key callbackData' hmem ↦ ?_, fun slot' h ↦ ?_, fun slot' h ↦ ?_, fun addr ↦ ?_⟩
  · exact hI.owned.index key entry (hreturns.contextArray ▸ h)
  · exact hI.owned.name key entry (hreturns.contextArray ▸ h)
  · exact hI.waiting key entry h (hreturns.contextArray ▸ h')
  · rw [hreturns.contextArray]
    exact hI.entries key callbackData' (List.mem_filter.mp hmem).1
  · rcases eq_or_ne slot' slot with rfl | hne
    · rw [List.filter_filter]
      exact List.filter_eq_nil_iff.mpr fun d _ ↦ by simp
    · exact (hother hne).trans (hI.free slot' (by simpa [hne] using h))
  · rcases eq_or_ne slot' slot with rfl | hne
    · simp at h
    · obtain ⟨payload', hpayload', hborrows', hfilter'⟩ := hI.pooled slot' (by simpa [hne] using h)
      obtain ⟨written, hwritten⟩ := hreturns.payloads
      refine ⟨payload', ?_, hborrows', (hother hne).trans hfilter'⟩
      show v.payloads slot' = some payload'
      rw [hwritten, UMap.assign_of_ne _ _ hne]
      exact hpayload'
  · obtain ⟨addr', hit, hcount⟩ := hreturns.refsCount
    have haddr : addr' = payload.data.packet.kernelObject := by
      rw [hborrows.kernelNameIt hcode] at hit
      exact (Option.some.inj hit).symm
    -- the dispatch is counted for its own symbol, and for no other one
    have hsplit : UInt64.ofNat (L.holders addr) = UInt64.ofNat
          (if payload.data.references addr then 1 else 0)
        + UInt64.ofNat ((L.opens.filter fun d ↦ !(d.place == .slot slot)).countP
            (·.callbackData.references addr)) := by
      rw [← UInt64.ofNat_add, Ledger.holders,
        List.countP_eq_countP_filter_add _ _ (·.place == .slot slot), hfilter]
      exact congrArg _ (congrArg (· + _) List.countP_singleton)
    have hreferences : payload.data.references addr = (addr' == addr) := by
      rw [CallbackData.references, hcode, haddr]
      rfl
    rw [hcount, hI.counted, hI.counted]
    rw [hreferences] at hsplit
    split_ifs with heq
    · rw [← heq, hsplit, heq, if_pos (beq_self_eq_true addr'), UInt64.add_comm]
      exact UInt64.add_sub_cancel _ _
    · rw [hsplit, if_neg fun h ↦ heq (beq_iff_eq.mp h).symm]
      exact UInt64.zero_add _

/-- **`context_pool_handler`** keeps the invariant, when the code of the kernel was not there. -/
theorem Inv.contextPoolHandler {m : Machine} {L : Ledger} {t : System} {slot : Slot} (hI : Inv L)
    (hC : CollectsOwn L (.call (.contextPoolHandler slot)))
    (hstep : Version1.step m L.system (.contextPoolHandler slot) = some t)
    (ht : t.stopped = none) : Inv (L.advance m (.contextPoolHandler slot) t) := by
  obtain ⟨hfetched, rfl⟩ := of_step_contextPoolHandler hstep
  obtain ⟨⟨⟩, tool, hexec, heq⟩ := System.exists_of_perform ht
  obtain ⟨payload, hpayload, hborrows, hfilter⟩ := hI.pooled slot hfetched
  have hreturns := (returns_contextPoolHandler m [] hpayload hborrows.index).2 tool hexec
  have hI' := hI.closeSlot hpayload hborrows (hC payload hpayload) hfilter hreturns
  rw [heq, advance_eq rfl rfl]
  refine cast (congrArg (fun opens ↦ Inv ⟨_, opens, _⟩) (List.filter_congr fun d hd ↦ ?_)) hI'
  obtain ⟨place, callbackData⟩ := d
  cases place with
  | entry index =>
    obtain ⟨entry, hentry, hactive, -⟩ := hI.entries index callbackData hd
    exact (keeps_entry (hreturns.contextArray ▸ hentry) hactive).symm
  | slot slot' =>
    rcases eq_or_ne slot' slot with rfl | hne
    · simp [System.keeps]
    · simp [System.keeps, hne, hI.fetched hd]

/-! ## Runs -/

theorem perform_dispatching {α : Type} (s : System) (x : ExceptT Fault (StateM Tool) α) :
    (s.perform x fun _ s ↦ s).dispatching = s.dispatching ∧
      (s.perform x fun _ s ↦ s).fetched = s.fetched := by
  rw [System.perform]
  rcases exec x s.tool with ⟨e | a, tool⟩ <;> exact ⟨rfl, rfl⟩

/-- **The step**, for an event of the system after which the tool is running. -/
theorem Inv.call {m : Machine} {L : Ledger} {t : System} {event : Event} (hI : Inv L)
    (hC : CollectsOwn L (.call event)) (hstep : Version1.step m L.system event = some t)
    (ht : t.stopped = none) : Inv (L.advance m event t) := by
  have htool := tool_of_step hstep
  cases event with
  | dispatch callbackData => exact hI.dispatch hstep ht
  | fill index context currTime => exact hI.fill hstep ht
  | dispatchOpt callbackData number context => exact hI.dispatchOpt hstep ht
  | complete r written =>
    obtain ⟨record, -, -, -, rfl⟩ := of_step_complete hstep
    rw [advance_eq rfl rfl]
    exact hI.of_collects (collects_of_contextArray rfl rfl rfl (frees_of_eq rfl))
      (fun _ _ h _ _ ↦ h) rfl
  | contextHandler index =>
    obtain ⟨-, -, rfl⟩ := of_step_contextHandler hstep
    obtain ⟨hdispatching, hfetched⟩ := perform_dispatching L.system (contextHandler m index)
    rw [advance_eq rfl rfl]
    refine hI.of_collects ?_ (fun _ _ h _ _ ↦ hdispatching ▸ h) hfetched
    rw [htool]
    exact collects_contextHandler hI.owned hC
  | contextPoolHandler slot => exact hI.contextPoolHandler hC hstep ht
  | dumpContextArray queue =>
    obtain ⟨-, rfl⟩ := of_step_dumpContextArray hstep
    obtain ⟨hdispatching, hfetched⟩ := perform_dispatching L.system (dumpContextArrayRound m queue)
    rw [advance_eq rfl rfl]
    refine hI.of_collects ?_ (fun _ _ h _ _ ↦ hdispatching ▸ h) hfetched
    rw [htool]
    exact collects_dumpKeys _ hI.owned hC

/-- What an event of the system frees, whether it stops the tool or not. -/
theorem Inv.frees {m : Machine} {L : Ledger} {t : System} {event : Event} (hI : Inv L)
    (hC : CollectsOwn L (.call event)) (hstep : Version1.step m L.system event = some t) :
    Frees L.duplicated L.system.tool t.tool := by
  have hallocate : ∀ record, Frees L.duplicated L.system.tool (L.system.tool.allocate record) :=
    fun record ↦ (collects_allocate _ _ record).frees
  rw [tool_of_step hstep]
  cases event with
  | dispatch callbackData => exact trans_of _ (hallocate _) (frees_allocContext m callbackData _)
  | fill index context currTime =>
    rw [System.toolAfter]
    rcases L.system.dispatching index with _ | callbackData
    · exact refl_of _ _
    · exact frees_fillContext m callbackData index context currTime _
  | dispatchOpt callbackData number context =>
    exact trans_of _ (hallocate _) (frees_dispatchCallbackOpt m callbackData number context _)
  | complete r written => exact frees_of_eq rfl
  | contextHandler index => exact (collects_contextHandler hI.owned hC).frees
  | contextPoolHandler slot =>
    obtain ⟨hfetched, -⟩ := of_step_contextPoolHandler hstep
    obtain ⟨payload, hpayload, hborrows, -⟩ := hI.pooled slot hfetched
    exact (returns_contextPoolHandler m _ hpayload hborrows.index).1
  | dumpContextArray queue => exact (collects_dumpKeys _ hI.owned hC).frees

/-- Loading and unloading symbols changes no count. -/
theorem refsCount_setKernelNameRef {s : Tool} {addr : UInt64} (name : List Char) (free : UInt32)
    (h : s.refsCount addr = 0) :
    ∃ symbols, after (setKernelNameRef addr name free) s = { s with symbols } ∧
      ∀ addr', { s with symbols }.refsCount addr' = s.refsCount addr' := by
  rw [setKernelNameRef, after, exec_bind_ok (exec_get s)]
  rcases hsymbol : s.symbols addr with _ | symbol
  · dsimp only
    split_ifs with hfree
    · refine ⟨_, rfl, fun addr' ↦ (refsCount_assign s addr addr' _).trans ?_⟩
      split_ifs with heq
      · rw [heq, h]
      · rfl
    · exact ⟨s.symbols, rfl, fun _ ↦ rfl⟩
  · dsimp only
    split_ifs with hfree
    · refine ⟨_, rfl, fun addr' ↦ ?_⟩
      rcases eq_or_ne addr' addr with rfl | hne
      · rw [h]
        simp [Tool.refsCount]
      · simp [Tool.refsCount, hne]
    · exact ⟨s.symbols, rfl, fun _ ↦ rfl⟩

theorem Inv.of_symbols {L : Ledger} {t : System} {symbols : UMap UInt64 Symbol} (hI : Inv L)
    (htool : t.tool = { L.system.tool with symbols })
    (hcount : ∀ addr, { L.system.tool with symbols }.refsCount addr
      = L.system.tool.refsCount addr)
    (hdispatching : t.dispatching = L.system.dispatching)
    (hfetched : t.fetched = L.system.fetched) : Inv { L with system := t } := by
  obtain ⟨tool, stopped, dispatching, fetched⟩ := t
  dsimp only at htool hdispatching hfetched
  subst htool hdispatching hfetched
  exact ⟨⟨hI.owned.index, hI.owned.name⟩, hI.waiting, hI.entries, hI.free, hI.pooled,
    fun addr ↦ (hcount addr).trans (hI.counted addr)⟩

/-- A symbol without references can be unloaded. -/
theorem exists_unload {m : Machine} {L : Ledger} {addr : UInt64} (name : List Char)
    (hstopped : L.system.stopped = none) (hsymbol : (L.system.tool.symbols addr).isSome)
    (h : L.system.tool.refsCount addr = 0) :
    ∃ t, L.step m (.ksymbol addr name 1) = some t ∧ t.system.stopped = none ∧
      t.system.tool.symbols addr = none := by
  obtain ⟨symbol, hsymbol⟩ := Option.isSome_iff_exists.mp hsymbol
  have hexec : exec (setKernelNameRef addr name 1) L.system.tool = (.ok ⟨⟩, { L.system.tool with
      symbols := Function.update L.system.tool.symbols addr none }) := by
    rw [setKernelNameRef, exec_bind_ok (exec_get _), hsymbol]
    rfl
  refine ⟨_, if_neg (by simp [hstopped, h]), ?_, ?_⟩
  · simp only [System.perform, hexec]
    exact hstopped
  · simp only [System.perform, hexec]
    exact Function.update_self _ _ _

/-- What holds in every state: the invariant while the tool is running, and nothing has been freed
that was not duplicated. -/
structure Sound (L : Ledger) : Prop where
  running : L.system.stopped = none → Inv L
  freed : ∀ index, .freedName index ∈ L.system.tool.effects → index ∈ L.duplicated

theorem sound_start : Sound Ledger.start := by
  have hnone : ∀ (key : UInt32) (entry : ContextEntry),
      Ledger.start.system.tool.contextArray[key]? ≠ some entry := by
    intro key entry h
    simp [Ledger.start] at h
  refine ⟨fun _ ↦ ⟨⟨fun key entry h ↦ absurd h (hnone key entry),
    fun key entry h ↦ absurd h (hnone key entry)⟩,
    fun index entry _ h ↦ absurd h (hnone index entry),
    fun index callbackData h ↦ (by cases h), fun slot _ ↦ rfl, fun slot h ↦ (by cases h),
    fun addr ↦ rfl⟩, fun index h ↦ (by cases h)⟩

/-- **The step.** -/
theorem sound_step {m : Machine} {L L' : Ledger} {action : Action} (hS : Sound L)
    (hC : CollectsOwn L action) (h : L.step m action = some L') : Sound L' := by
  cases action with
  | call event =>
    rw [Ledger.step, Option.map_eq_some_iff] at h
    obtain ⟨t, hstep, rfl⟩ := h
    have hI := hS.running (of_step hstep).1
    refine ⟨hI.call hC hstep, fun index hindex ↦ List.mem_append_left _ ?_⟩
    exact (hI.frees hC hstep index hindex).elim (hS.freed index) id
  | ksymbol object name unload =>
    rw [Ledger.step, Option.ite_none_left_eq_some, Option.some.injEq] at h
    obtain ⟨hcan, rfl⟩ := h
    obtain ⟨hrunning, hzero⟩ : L.system.stopped = none ∧ L.system.tool.refsCount object = 0 := by
      simpa using hcan
    have hI := hS.running hrunning
    obtain ⟨hdispatching, hfetched⟩ :=
      perform_dispatching L.system (setKernelNameRef object name unload)
    obtain ⟨symbols, hafter, hcount⟩ := refsCount_setKernelNameRef name unload hzero
    have htool : (L.system.perform (setKernelNameRef object name unload) fun _ s ↦ s).tool
        = { L.system.tool with symbols } :=
      (System.tool_perform fun _ _ ↦ rfl).trans hafter
    refine ⟨fun _ ↦ hI.of_symbols htool hcount hdispatching hfetched, fun index hindex ↦ ?_⟩
    rw [htool] at hindex
    exact hS.freed index hindex

/-- **The references balance** in every run in which what `context_handler` and
`dump_context_array` collect came with the code of its kernel, and what `context_pool_handler`
collects came without. -/
theorem everywhere_balanced {m : Machine} {actions : List Action}
    (h : Along (Ledger.step m) Ledger.start CollectsOwn actions) :
    Everywhere (Ledger.step m) Ledger.start (Balanced m) actions := by
  have hS := along_invariant (I := Sound) sound_start
    (fun L action L' hL hC hL' ↦ sound_step hL hC hL') h
  intro xs L hpre hL
  have hsound := hS xs L hpre hL
  refine ⟨fun hrunning ↦ (hsound.running hrunning).counted,
    fun hrunning addr name hsymbol hzero ↦ ?_, hsound.freed⟩
  refine exists_unload name hrunning hsymbol ?_
  rw [(hsound.running hrunning).counted, hzero]
  rfl

/-! ## One kernel -/

/-- One kernel is dispatched in each of the modes, as the condition has it: it is loaded, the
dispatches are open and collected, and it is unloaded. -/
def balancedActions : List Action :=
  [.ksymbol 100 "axpy".toList 0, .call (.dispatch (axpy true)), .call (.fill 0 7 42),
    .call (.dispatchOpt { axpy false with record := none } 0 8),
    .call (.complete 0 ⟨1, 2, 3, 4⟩), .call (.contextPoolHandler (0, 0)),
    .call (.contextHandler 0)] ++ [.ksymbol 100 "axpy".toList 1]

theorem everywhere_balanced_axpy :
    Everywhere (Ledger.step oneCounter) Ledger.start (Balanced oneCounter) balancedActions ∧
      (run (Ledger.step oneCounter) Ledger.start balancedActions).map
          (fun L ↦ (L.system.stopped, L.system.tool.contextCollected, L.duplicated))
        = some (none, 2, [0]) := by
  refine ⟨everywhere_balanced ?_, by decide +kernel⟩
  refine .concat ?_ fun _ _ ↦ trivial
  refine .cons trivial rfl (.cons trivial rfl (.cons trivial rfl (.cons trivial rfl
    (.cons trivial rfl (.cons ?_ rfl (along_singleton ?_))))))
  · intro payload hpayload
    cases hpayload
    rfl
  · intro entry hentry _ _
    cases hentry
    rfl

/-- A kernel that is dispatched through `dispatch_callback` with its name, but without its code. -/
def borrowedActions : List Action :=
  [.ksymbol 100 "axpy".toList 0, .call (.dispatch { axpy true with kernelCode := none }),
    .call (.fill 0 7 42), .call (.complete 0 ⟨1, 2, 3, 4⟩), .call (.contextHandler 0)]

/-- A kernel that is dispatched through `dispatch_callback_opt` without its code, and then, in the
same entry of the pool, with it. -/
def staleActions : List Action :=
  [.ksymbol 100 "axpy".toList 0, .call (.dispatchOpt (axpy false) 0 7),
    .call (.complete 0 ⟨1, 2, 3, 4⟩), .call (.contextPoolHandler (0, 0)),
    .call (.dispatchOpt { axpy true with record := none } 0 7),
    .call (.contextPoolHandler (0, 0))]

/-- **In the other two combinations they do not balance.**  All the dispatches are collected, but in
the one the symbol is referenced for good, so that it is never unloaded, and a name has been freed
that the entry only borrowed; in the other its count has gone below zero. -/
theorem borrowed_reference_stays :
    (∃ L, run (Ledger.step oneCounter) Ledger.start borrowedActions = some L ∧
      L.system.stopped = none ∧ L.opens = [] ∧ L.system.tool.refsCount 100 = 1 ∧
      (∀ name, L.step oneCounter (.ksymbol 100 name 1) = none) ∧
      .freedName 0 ∈ L.system.tool.effects ∧ 0 ∉ L.duplicated ∧ ¬Balanced oneCounter L) ∧
    ∃ L, run (Ledger.step oneCounter) Ledger.start staleActions = some L ∧
      L.system.stopped = none ∧ L.opens = [] ∧
      L.system.tool.refsCount 100 = 18446744073709551615 ∧ ¬Balanced oneCounter L := by
  have hborrowed : (run (Ledger.step oneCounter) Ledger.start borrowedActions).map
      (fun L ↦ (L.system.stopped, L.opens, L.system.tool.refsCount 100, L.duplicated,
        L.system.tool.effects.contains (.freedName 0))) = some (none, [], 1, [], true) := by
    decide +kernel
  obtain ⟨L, hL, hL'⟩ := Option.map_eq_some_iff.mp hborrowed
  simp only [Prod.mk.injEq, List.contains_iff_mem] at hL'
  obtain ⟨hstopped, hopens, hcount, hduplicated, hfreed⟩ := hL'
  refine ⟨⟨L, hL, hstopped, hopens, hcount, fun name ↦ if_pos (by simp [hcount]), hfreed,
    by simp [hduplicated], fun h ↦ ?_⟩, _, rfl, rfl, rfl, rfl, fun h ↦ ?_⟩
  · have hmem := h.freed 0 hfreed
    rw [hduplicated] at hmem
    cases hmem
  · exact absurd (h.counted rfl 100) (by decide)

end Version1
