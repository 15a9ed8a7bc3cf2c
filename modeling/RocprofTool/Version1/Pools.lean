import RocprofTool.Util.Agents
import RocprofTool.Version1.References

/-!
# The pools of the GPUs

In the optimised mode `OnLoadToolProp` opens a pool of contexts for each GPU, and
`dispatch_callback_opt` takes a context from one of them.  The pools are in an array: at the places
where `GetGpuAgentInfo` has the GPUs when the tool is loaded, and where `GetAgentInfo` has the index
of an agent when a kernel is dispatched to it.

* `openPools_eq` says that the array has the pools of the GPUs in the order of the enumeration.
* `everywhere_ownPools` is what this is for: a kernel on a GPU gets its context from the pool of
  this GPU.  The indices of CPUs are counted apart, so that it would not be so for a CPU.

The properties of the pools and the features that are collected are the same for all of them, and
left out.
-/

set_option autoImplicit false

open Fallible Runs HsaRsrcFactory.Agents

namespace Version1

/-- The part of `OnLoadToolProp` that opens the pools, up to the one with this number.  A pool is
what it has been opened for, and `opens` says for which agents `rocprofiler_pool_open` succeeds. -/
def openPools (s : Factory) (opens : AgentHandle → Bool) : ℕ → Except Fault (List AgentHandle)
  | 0 => .ok []
  | gpuId + 1 => do
    let pools ← openPools s opens gpuId
    match s.getGpuAgentInfo (UInt32.ofNat gpuId) with
    | none => throw .abort
    | some agentInfo =>
      if opens agentInfo.devId then return pools ++ [agentInfo.devId]
      else throw .abort

/-- `callbacks_arg->pools` -/
def onLoadPools (s : Factory) (opens : AgentHandle → Bool) : Except Fault (List AgentHandle) :=
  openPools s opens s.getCountOfGpuAgents.toNat

/-- The machine with these agents. -/
def Machine.onAgents (m : Machine) (s : Factory) : Machine :=
  { m with
    devIndex := fun agent ↦ (s.getAgentInfo agent).map AgentInfo.devIndex
    gpuCount := s.getCountOfGpuAgents.toNat }

/-- The slot is of a pool that is there, and it is the one that has been opened for this agent, if
that is a GPU. -/
def OwnPool (agents : List Agent) (pools : List AgentHandle) (slot : Slot) (agent : AgentHandle) :
    Prop :=
  ∃ pool, pools[slot.1.toNat]? = some pool ∧
    (pool = agent ↔ agent ∈ (gpus agents).map Agent.handle)

/-- The dispatches of the optimised mode have contexts of their own pools. -/
structure OwnPools (agents : List Agent) (pools : List AgentHandle) (L : Ledger) : Prop where
  /-- Each slot that has been fetched is of the pool of the kernel that is kept in it. -/
  fetched : L.system.stopped = none → ∀ slot, L.system.fetched slot = true →
    ∃ entry, L.system.tool.payloads slot = some entry ∧
      OwnPool agents pools slot entry.data.agent
  /-- So are the slots in the ledger. -/
  opens : L.system.stopped = none → ∀ (slot : Slot) (callbackData : CallbackData),
    ⟨.slot slot, callbackData⟩ ∈ L.opens → OwnPool agents pools slot callbackData.agent

/-! ## The array -/

section Array

variable {agents : List Agent} {s : Factory} {opens : AgentHandle → Bool} {pools : List AgentHandle}

theorem toNat_getCountOfGpuAgents (h : Discovered agents s)
    (hcount : (gpus agents).length < 2 ^ 32) :
    s.getCountOfGpuAgents.toNat = (gpus agents).length := by
  rw [Factory.getCountOfGpuAgents, h.gpuList, List.length_mapIdx, UInt32.toNat_ofNat',
    Nat.mod_eq_of_lt hcount]

/-- The loop, up to any number. -/
theorem openPools_take (h : Discovered agents s) (hcount : (gpus agents).length < 2 ^ 32) {n : ℕ}
    (hn : n ≤ (gpus agents).length) (hpools : openPools s opens n = .ok pools) :
    pools = ((gpus agents).map Agent.handle).take n := by
  induction n generalizing pools with
  | zero =>
    cases hpools
    rfl
  | succ gpuId ih =>
    rw [openPools] at hpools
    rcases hbefore : openPools s opens gpuId with fault | before
    · rw [hbefore] at hpools
      cases hpools
    · have hlt : gpuId < (gpus agents).length := hn
      have hidx : (UInt32.ofNat gpuId).toNat = gpuId := by
        rw [UInt32.toNat_ofNat', Nat.mod_eq_of_lt (hlt.trans hcount)]
      have hinfo : s.getGpuAgentInfo (UInt32.ofNat gpuId)
          = some (gpuInfo gpuId (gpus agents)[gpuId]) := by
        rw [h.getGpuAgentInfo hcount, hidx, List.getElem?_eq_getElem hlt, Option.map_some]
      rw [hbefore, hinfo] at hpools
      simp only [bind, Except.bind] at hpools
      split_ifs at hpools
      cases hpools
      rw [List.take_add_one, ← ih hlt.le hbefore, List.getElem?_map, List.getElem?_eq_getElem hlt]
      rfl

theorem onLoadPools_eq (h : Discovered agents s) (hcount : (gpus agents).length < 2 ^ 32)
    (hpools : onLoadPools s opens = .ok pools) : pools = (gpus agents).map Agent.handle := by
  rw [onLoadPools, toNat_getCountOfGpuAgents h hcount] at hpools
  rw [openPools_take h hcount le_rfl hpools, List.take_of_length_le]
  rw [List.length_map]

/-- **The pool of an index** that an agent has is its own, if it is a GPU. -/
theorem pool_eq_iff (h : Discovered agents s) (hcount : (gpus agents).length < 2 ^ 32)
    {handle pool : AgentHandle} {agentInfo : AgentInfo}
    (hinfo : s.getAgentInfo handle = some agentInfo)
    (hpool : ((gpus agents).map Agent.handle)[agentInfo.devIndex.toNat]? = some pool) :
    pool = handle ↔ handle ∈ (gpus agents).map Agent.handle := by
  constructor
  · rintro rfl
    exact List.mem_of_getElem? hpool
  · intro hmem
    obtain ⟨i, hi⟩ := List.mem_iff_getElem?.mp hmem
    rw [List.getElem?_map, Option.map_eq_some_iff] at hi
    obtain ⟨agent, hagent, rfl⟩ := hi
    rw [h.getAgentInfo_gpu hagent, Option.some_inj] at hinfo
    have hlt : i < 2 ^ 32 := (List.getElem?_eq_some_iff.mp hagent).1.trans hcount
    rw [← hinfo, gpuInfo, UInt32.toNat_ofNat', Nat.mod_eq_of_lt hlt, List.getElem?_map, hagent]
      at hpool
    exact (Option.some.inj hpool).symm

end Array

/-! ## The runs -/

/-- When `dispatch_callback_opt` returns, it has not looked behind the end of the array. -/
theorem devIndex_of_dispatchCallbackOpt {m : Machine} {callbackData : CallbackData}
    {number context : ℕ} {slot : Slot} {t u : Tool}
    (h : Fallible.exec (dispatchCallbackOpt m callbackData number context) t = (.ok slot, u)) :
    ∃ gpuId, m.devIndex callbackData.agent = some gpuId ∧ gpuId.toNat < m.gpuCount ∧
      slot = (gpuId, number) := by
  obtain ⟨gpuId, -, -, -, hgpu, hslot, -⟩ := exists_of_dispatchCallbackOpt h
  refine ⟨gpuId, hgpu, ?_, hslot⟩
  by_contra hle
  rw [dispatchCallbackOpt, hgpu] at h
  dsimp only at h
  rw [if_pos (not_lt.mp hle)] at h
  cases h

/-- What the open dispatches of the optimised mode say about their place. -/
def Placed (m : Machine) (L : Ledger) : Prop :=
  L.system.stopped = none → ∀ (slot : Slot) (callbackData : CallbackData),
    ⟨.slot slot, callbackData⟩ ∈ L.opens →
      m.devIndex callbackData.agent = some slot.1 ∧ slot.1.toNat < m.gpuCount

/-- The dispatch that an event opens. -/
theorem placed_opened {m : Machine} {S T : System} {event : Event}
    (hstep : step m S event = some T) (hT : T.stopped = none) {slot : Slot}
    {callbackData : CallbackData} (hmem : ⟨.slot slot, callbackData⟩ ∈ S.opened m event) :
    m.devIndex callbackData.agent = some slot.1 ∧ slot.1.toNat < m.gpuCount := by
  cases event with
  | dispatchOpt data number context =>
    obtain ⟨gpuId, hgpuId, heq⟩ := List.mem_map.mp hmem
    cases heq
    obtain ⟨-, rfl⟩ := of_step_dispatchOpt hstep
    obtain ⟨slot, tool, hexec, -⟩ := System.exists_of_perform hT
    obtain ⟨gpuId', hgpu, hlt, -⟩ := devIndex_of_dispatchCallbackOpt hexec
    obtain rfl : gpuId = gpuId' := Option.some.inj ((Option.mem_toList.mp hgpuId).symm.trans hgpu)
    exact ⟨hgpu, hlt⟩
  | fill index context currTime =>
    obtain ⟨data, -, heq⟩ := List.mem_map.mp hmem
    cases heq
  | _ => cases hmem

/-- **One step.** -/
theorem Placed.step {m : Machine} {L L' : Ledger} {action : Action} (h : Placed m L)
    (hstep : L.step m action = some L') : Placed m L' := by
  intro hrunning slot callbackData hmem
  cases action with
  | call event =>
    obtain ⟨T, hT, rfl⟩ := Option.map_eq_some_iff.mp hstep
    rcases List.mem_append.mp hmem with hmem | hmem
    · exact h (of_step hT).1 slot callbackData (List.mem_of_mem_filter hmem)
    · exact placed_opened hT hrunning hmem
  | ksymbol object name unload =>
    rw [Ledger.step, Option.ite_none_left_eq_some, Option.some.injEq] at hstep
    obtain ⟨hcan, rfl⟩ := hstep
    have hbefore : L.system.stopped = none := by
      simp only [Bool.or_eq_true, not_or, Bool.not_eq_true, Option.isSome_eq_false_iff,
        Option.isNone_iff_eq_none] at hcan
      exact hcan.1
    exact h hbefore slot callbackData hmem

/-! ## What is kept in the pools -/

/-- The entries of the other pools, and of this one but for one of them, are as they were. -/
def SameBut (slot : Option Slot) (s t : Tool) : Prop :=
  ∀ slot', some slot' ≠ slot → t.payloads slot' = s.payloads slot'

instance {slot : Option Slot} : Std.Refl (SameBut slot) := ⟨fun _ _ _ ↦ rfl⟩

instance {slot : Option Slot} : IsTrans Tool (SameBut slot) :=
  ⟨fun _ _ _ h h' slot' hne ↦ (h' slot' hne).trans (h slot' hne)⟩

section Payloads

variable {slot : Option Slot}

theorem same_emit (effect : Effect) : Meets (SameBut slot) (fun _ ↦ True) (emit effect) :=
  meets_modify fun _ _ _ ↦ rfl

theorem same_dumpContextEntry (m : Machine) (entry : ContextEntry) (toClean : Bool) :
    Meets (SameBut slot) (fun _ ↦ True) (dumpContextEntry m entry toClean) := by
  unfold dumpContextEntry
  refine meets_get.bind fun tool _ ↦ meets_lift_bind fun record _ ↦ ?_
  split_ifs
  · exact meets_pure trivial
  all_goals refine Meets.bind (meets_modify fun _ _ _ ↦ rfl) fun _ _ ↦ ?_
  · exact meets_pure trivial
  all_goals refine meets_lift_bind fun text _ ↦ (same_emit _).bind fun _ _ ↦ ?_
  · have hclean := meets_cleanUp (R := SameBut slot) entry (fun _ _ _ _ ↦ rfl)
      (fun _ ↦ same_emit _) (same_emit _) fun _ ↦ same_emit _
    exact hclean.bind fun _ _ ↦ meets_pure trivial
  · exact meets_pure trivial

theorem same_contextHandler (m : Machine) (index : UInt32) :
    Meets (SameBut slot) (fun _ ↦ True) (contextHandler m index) := by
  unfold contextHandler
  refine meets_get.bind fun tool _ ↦ ?_
  split
  · exact meets_throw _
  · split_ifs
    · refine (same_dumpContextEntry m _ _).bind fun p _ ↦ ?_
      obtain ⟨ret, entry⟩ := p
      cases ret with
      | false => exact meets_throw _
      | true => exact meets_modify fun _ _ _ ↦ rfl
    · exact meets_modify fun _ _ _ ↦ rfl

theorem same_dumpKey (m : Machine) (queue : Option UInt64) (key : UInt32) :
    Meets (SameBut slot) (fun _ ↦ True) (dumpKey m queue key) := by
  unfold dumpKey
  refine meets_get.bind fun tool _ ↦ ?_
  split
  · exact meets_pure trivial
  · split_ifs
    · refine (same_dumpContextEntry m _ _).bind fun p _ ↦ ?_
      obtain ⟨ret, entry⟩ := p
      cases ret with
      | false => exact meets_pure trivial
      | true => exact Meets.bind (meets_modify fun _ _ _ ↦ rfl) fun _ _ ↦ meets_pure trivial
    · exact meets_pure trivial

theorem same_dumpKeys (m : Machine) (queue : Option UInt64) (keys : List UInt32) :
    Meets (SameBut slot) (fun _ ↦ True) (dumpKeys m queue keys) := by
  induction keys with
  | nil => exact meets_pure trivial
  | cons key keys ih =>
    exact (same_dumpKey m queue key).bind fun _ _ ↦ ih.bind fun _ _ ↦ meets_pure trivial

theorem same_allocContext (m : Machine) (callbackData : CallbackData) :
    Meets (SameBut slot) (fun _ ↦ True) (allocContext m callbackData) := by
  have hnext : Meets (SameBut slot) (fun _ ↦ True) nextContextCount :=
    Meets.bind (meets_modify fun _ _ _ ↦ rfl) fun _ _ ↦ meets_get.bind fun _ _ ↦ meets_pure trivial
  unfold allocContext
  refine meets_lift_bind fun opens _ ↦ ?_
  split_ifs
  · refine Meets.bind (P := fun _ ↦ True) ?_ fun _ _ ↦ meets_pure trivial
    unfold allocContextEntry
    refine hnext.bind fun _ _ ↦ meets_get.bind fun tool _ ↦ ?_
    split_ifs
    · exact meets_throw _
    · exact Meets.bind (meets_modify fun _ _ _ ↦ rfl) fun _ _ ↦ meets_pure trivial
  · exact hnext.bind fun _ _ ↦ meets_pure trivial

theorem same_releaseKernelNameRef (it : Option UInt64) (s : Tool) :
    SameBut slot s (after (releaseKernelNameRef it) s) := by
  rw [releaseKernelNameRef, after, exec_bind_ok (exec_get s)]
  cases s.symbolAt it with
  | error e => exact refl_of _ s
  | ok p => exact fun _ _ ↦ rfl

/-- The completion handler of the optimised mode writes the entry that it is called for. -/
theorem same_contextPoolHandler (m : Machine) (slot : Slot) :
    Meets (SameBut (some slot)) (fun _ ↦ True) (contextPoolHandler m slot) := by
  unfold contextPoolHandler
  refine meets_get.bind fun tool _ ↦ ?_
  split
  · exact meets_throw _
  · refine meets_lift_bind fun p _ ↦ (same_dumpContextEntry m _ _).bind fun q _ ↦ ?_
    refine Meets.bind (meets_modify fun s slot' hne ↦ ?_) fun _ _ ↦ ?_
    · exact UMap.assign_of_ne _ _ fun heq ↦ hne (congrArg some heq)
    · exact fun s ↦ ⟨same_releaseKernelNameRef _ s, fun _ _ _ ↦ trivial⟩

end Payloads

/-- What is kept in the slots that have been fetched says about their pools. -/
def Held (m : Machine) (S : System) : Prop :=
  S.stopped = none → ∀ slot, S.fetched slot = true → ∃ entry, S.tool.payloads slot = some entry ∧
    m.devIndex entry.data.agent = some slot.1 ∧ slot.1.toNat < m.gpuCount

section Held

variable {m : Machine} {S T : System}

theorem Held.of_same (h : Held m S) (hrunning : S.stopped = none) (hfetched : T.fetched = S.fetched)
    (hsame : SameBut none S.tool T.tool) : Held m T := by
  intro _ slot hslot
  rw [hfetched] at hslot
  obtain ⟨entry, hentry, hplace⟩ := h hrunning slot hslot
  exact ⟨entry, (hsame slot (Option.some_ne_none _)).trans hentry, hplace⟩

theorem fetched_perform {α : Type} {x : ExceptT Fault (StateM Tool) α} {next : α → System → System}
    (hnext : ∀ a s, (next a s).fetched = s.fetched) : (S.perform x next).fetched = S.fetched := by
  rw [System.perform]
  rcases exec x S.tool with ⟨e | a, tool⟩
  · rfl
  · exact hnext a _

theorem same_allocate (s : Tool) (record : Option ℕ) : SameBut none s (s.allocate record) := by
  cases record <;> exact fun _ _ ↦ rfl

/-- **The slot that `dispatch_callback_opt` fetches** is of the pool of its kernel. -/
theorem Held.dispatchOpt {callbackData : CallbackData} {number context : ℕ} (h : Held m S)
    (hstep : Version1.step m S (.dispatchOpt callbackData number context) = some T) :
    Held m T := by
  intro hT slot' hslot'
  have hrunning := (of_step hstep).1
  obtain ⟨-, rfl⟩ := of_step_dispatchOpt hstep
  obtain ⟨slot, tool, hexec, heq⟩ := System.exists_of_perform hT
  obtain ⟨gpuId, hgpu, hlt, hslot⟩ := devIndex_of_dispatchCallbackOpt hexec
  obtain ⟨_, _, payload, u, -, -, htakes, hdata, -, rfl⟩ := exists_of_dispatchCallbackOpt hexec
  rw [heq] at hslot' ⊢
  rcases eq_or_ne slot' slot with rfl | hne
  · refine ⟨payload, UMap.assign_self _ _ _, ?_, ?_⟩
    · rw [hdata, hgpu, hslot]
    · rw [hslot]
      exact hlt
  · obtain ⟨entry, hentry, hplace⟩ := h hrunning slot' ((Function.update_of_ne hne _ _).symm.trans
      hslot')
    exact ⟨entry, (UMap.assign_of_ne _ _ hne).trans (htakes.of_allocate.payloads ▸ hentry), hplace⟩

theorem Held.contextPoolHandler {slot : Slot} (h : Held m S)
    (hstep : Version1.step m S (.contextPoolHandler slot) = some T) : Held m T := by
  intro hT slot' hslot'
  have hrunning := (of_step hstep).1
  obtain ⟨-, rfl⟩ := of_step_contextPoolHandler hstep
  obtain ⟨⟨⟩, tool, hexec, heq⟩ := System.exists_of_perform hT
  have hsame := (same_contextPoolHandler m slot S.tool).1
  rw [after_of_exec hexec] at hsame
  rw [heq] at hslot' ⊢
  have hne : slot' ≠ slot := by
    rintro rfl
    exact Bool.false_ne_true ((Function.update_self _ _ _).symm.trans hslot')
  obtain ⟨entry, hentry, hplace⟩ := h hrunning slot' ((Function.update_of_ne hne _ _).symm.trans
    hslot')
  exact ⟨entry, (hsame slot' fun heq ↦ hne (Option.some.inj heq)).trans hentry, hplace⟩

/-- **One event.** -/
theorem Held.step {event : Event} (h : Held m S) (hstep : Version1.step m S event = some T) :
    Held m T := by
  have hrunning := (of_step hstep).1
  have htool := tool_of_step hstep
  cases event with
  | dispatch callbackData =>
    obtain ⟨-, rfl⟩ := of_step_dispatch hstep
    refine h.of_same hrunning (fetched_perform fun index _ ↦ by cases index <;> rfl) ?_
    rw [htool]
    exact trans_of _ (same_allocate _ _) (same_allocContext m callbackData _).1
  | fill index context currTime =>
    obtain ⟨callbackData, hdispatching, rfl⟩ := of_step_fill hstep
    refine h.of_same hrunning (fetched_perform fun _ _ ↦ rfl) ?_
    rw [htool, System.toolAfter, hdispatching]
    exact after_fillContext (fun _ _ _ _ ↦ rfl) (fun _ ↦ same_emit _) m callbackData context
      currTime fun _ _ _ _ _ _ _ ↦ rfl
  | dispatchOpt callbackData number context => exact h.dispatchOpt hstep
  | complete r written =>
    obtain ⟨record, -, -, -, rfl⟩ := of_step_complete hstep
    exact h.of_same hrunning rfl fun _ _ ↦ rfl
  | contextHandler index =>
    obtain ⟨-, -, rfl⟩ := of_step_contextHandler hstep
    refine h.of_same hrunning (fetched_perform fun _ _ ↦ rfl) ?_
    rw [htool]
    exact (same_contextHandler m index _).1
  | contextPoolHandler slot => exact h.contextPoolHandler hstep
  | dumpContextArray queue =>
    obtain ⟨-, rfl⟩ := of_step_dumpContextArray hstep
    refine h.of_same hrunning (fetched_perform fun _ _ ↦ rfl) ?_
    rw [htool]
    exact (same_dumpKeys m queue _ _).1

/-- **One action.** -/
theorem Held.ledgerStep {L L' : Ledger} {action : Action} (h : Held m L.system)
    (hstep : L.step m action = some L') : Held m L'.system := by
  cases action with
  | call event =>
    obtain ⟨T, hT, rfl⟩ := Option.map_eq_some_iff.mp hstep
    exact h.step hT
  | ksymbol object name unload =>
    rw [Ledger.step, Option.ite_none_left_eq_some, Option.some.injEq] at hstep
    obtain ⟨hcan, rfl⟩ := hstep
    obtain ⟨hrunning, hzero⟩ : L.system.stopped = none ∧ L.system.tool.refsCount object = 0 := by
      simpa using hcan
    obtain ⟨symbols, hafter, -⟩ := refsCount_setKernelNameRef name unload hzero
    refine h.of_same hrunning (fetched_perform fun _ _ ↦ rfl) ?_
    rw [System.tool_perform fun _ _ ↦ rfl, hafter]
    exact fun _ _ ↦ rfl

end Held

/-- The place that an agent has among the pools. -/
theorem ownPool_of_devIndex {agents : List Agent} (hcount : (gpus agents).length < 2 ^ 32)
    {s : Factory} (hfound : Discovered agents s) {opens : AgentHandle → Bool}
    {pools : List AgentHandle} (hpools : onLoadPools s opens = .ok pools)
    {m : Machine} {slot : Slot} {agent : AgentHandle}
    (hdev : (m.onAgents s).devIndex agent = some slot.1)
    (hlt : slot.1.toNat < (m.onAgents s).gpuCount) : OwnPool agents pools slot agent := by
  obtain ⟨agentInfo, hinfo, hslot⟩ := Option.map_eq_some_iff.mp hdev
  change slot.1.toNat < s.getCountOfGpuAgents.toNat at hlt
  rw [toNat_getCountOfGpuAgents hfound hcount, ← List.length_map Agent.handle] at hlt
  rw [onLoadPools_eq hfound hcount hpools]
  refine ⟨_, List.getElem?_eq_getElem hlt, ?_⟩
  refine pool_eq_iff hfound hcount hinfo ?_
  rw [hslot]
  exact List.getElem?_eq_getElem hlt

/-- **Each kernel on a GPU gets its context from the pool of this GPU**, in every run of the tool on
the agents that the constructor has found, and with the pools that `OnLoadToolProp` has opened; a
kernel on another agent would not. -/
theorem everywhere_ownPools {agents : List Agent} (hnodup : (agents.map Agent.handle).Nodup)
    (hcount : (gpus agents).length < 2 ^ 32) {s : Factory} (hs : construct agents = .ok s)
    (opens : AgentHandle → Bool) {pools : List AgentHandle}
    (hpools : onLoadPools s opens = .ok pools) (m : Machine) (actions : List Action) :
    Everywhere (Ledger.step (m.onAgents s)) Ledger.start (OwnPools agents pools) actions := by
  have hfound : Discovered agents s := (discovered_of_construct hnodup hs).2
  intro xs L _ hrun
  have hheld : Held (m.onAgents s) L.system :=
    run_invariant (I := fun L ↦ Held (m.onAgents s) L.system)
      (fun _ _ hslot ↦ by cases hslot) (fun _ _ _ h hstep ↦ h.ledgerStep hstep) hrun
  have hplaced : Placed (m.onAgents s) L :=
    run_invariant (fun _ _ _ hmem ↦ by cases hmem) (fun _ _ _ h hstep ↦ h.step hstep) hrun
  refine ⟨fun hrunning slot hslot ↦ ?_, fun hrunning slot callbackData hmem ↦ ?_⟩
  · obtain ⟨entry, hentry, hdev, hlt⟩ := hheld hrunning slot hslot
    exact ⟨entry, hentry, ownPool_of_devIndex hcount hfound hpools hdev hlt⟩
  · obtain ⟨hdev, hlt⟩ := hplaced hrunning slot callbackData hmem
    exact ownPool_of_devIndex hcount hfound hpools hdev hlt

/-- A kernel is loaded, and dispatched to both GPUs. -/
def twoGpus : List Action :=
  [.ksymbol 100 "axpy".toList 0, .call (.dispatchOpt { axpy false with agent := 11 } 0 7),
    .call (.dispatchOpt { axpy false with agent := 10, record := none } 0 8)]

/-- What the constructor finds. -/
def fourFound : Factory := fourAgents.foldl discoverAgent {}

theorem everywhere_ownPools_four :
    Everywhere (Ledger.step (oneCounter.onAgents fourFound)) Ledger.start
        (OwnPools fourAgents [10, 11]) twoGpus ∧
      (run (Ledger.step (oneCounter.onAgents fourFound)) Ledger.start twoGpus).map
          (fun L ↦ (L.system.stopped, L.opens.map OpenDispatch.place))
        = some (none, [.slot (1, 0), .slot (0, 0)]) :=
  ⟨everywhere_ownPools (by decide) (by decide) (by rfl) (fun _ ↦ true) (by rfl) oneCounter twoGpus,
    by decide +kernel⟩

end Version1
