import RocprofTool.Lib.Traversal
import RocprofTool.Lib.UnorderedMap
import Mathlib.Data.List.Basic
import Mathlib.Data.List.Nodup

/-!
# The agents of the system

The constructor of `HsaRsrcFactory` goes through the agents of HSA and makes an `AgentInfo` of each,
with its place among the CPUs or among the GPUs; it takes the first pools it finds among the CPUs
for the system memory and for kernel arguments.  A callback, `GetHsaAgentsCallback`, is called for
each agent, and in it another one for each memory pool of the agent.

* `Complete` is what the constructor needs: there are CPUs and GPUs only, each GPU has a pool that
  is not for kernel arguments, and some CPU has each kind of pool.  `constructor_discovers` says
  that the program is aborted without it, and what there is in the end with it.
* `Discovered` is this: the lists are in the order of the enumeration, and an agent is found under
  its handle with the index of its place.

The calls of HSA that ask for a property succeed.  The tables of the extensions and the timer of the
constructor are left out.
-/

set_option autoImplicit false

open Traversal

namespace HsaRsrcFactory.Agents

/-! ## What HSA says -/

/-- The handle of an `hsa_agent_t`. -/
abbrev AgentHandle := UInt64

/-- The handle of an `hsa_amd_memory_pool_t`; an empty one is zero. -/
abbrev PoolHandle := UInt64

/-- `hsa_status_t`, those that are used. -/
inductive Status
  | success
  | infoBreak
  | error
  deriving DecidableEq, Repr

/-- `hsa_device_type_t`. -/
inductive DeviceType
  | cpu
  | gpu
  | dsp
  | aie
  deriving DecidableEq, Repr

/-- `hsa_amd_segment_t`. -/
inductive Segment
  | global
  | readonly
  | priv
  | group
  deriving DecidableEq, Repr

/-- `hsa_profile_t`. -/
inductive Profile
  | base
  | full
  deriving DecidableEq, Repr

/-- A memory pool. -/
structure MemoryPool where
  handle : PoolHandle
  segment : Segment
  globalFlags : UInt32
  deriving DecidableEq, Repr

/-- An agent.  The properties behind its name are those of a GPU. -/
structure Agent where
  handle : AgentHandle
  type : DeviceType
  pools : List MemoryPool
  name : List Char := []
  name_lt : name.length < 64 := by decide
  maxWaveSize : UInt32 := 0
  maxQueueSize : UInt32 := 0
  profile : Profile := .base
  cuNum : UInt32 := 0
  wavesPerCu : UInt32 := 0
  simdsPerCu : UInt32 := 0
  seNum : UInt32 := 0
  shaderArraysPerSe : UInt32 := 0
  deriving DecidableEq

/-- `AgentInfo`. -/
structure AgentInfo where
  devId : AgentHandle
  devType : DeviceType
  isApu : Bool := false
  devIndex : UInt32
  gfxip : List Char := []
  name : List Char := []
  maxWaveSize : UInt32 := 0
  maxQueueSize : UInt32 := 0
  profile : Profile := .base
  cpuPool : PoolHandle := 0
  gpuPool : PoolHandle := 0
  kernArgPool : PoolHandle := 0
  cuNum : UInt32 := 0
  wavesPerCu : UInt32 := 0
  simdsPerCu : UInt32 := 0
  seNum : UInt32 := 0
  shaderArraysPerSe : UInt32 := 0
  sgprBlockDflt : UInt32 := 0
  sgprBlockSize : UInt32 := 0
  vgprBlockSize : UInt32 := 0
  deriving DecidableEq, Repr

/-- The fields of an `HsaRsrcFactory` that are about agents.  The pointers to pools point into an
`AgentInfo` that does not change any more. -/
structure Factory where
  cpuPool : Option PoolHandle := none
  kernArgPool : Option PoolHandle := none
  cpuList : List AgentInfo := []
  cpuAgents : List AgentHandle := []
  gpuList : List AgentInfo := []
  gpuAgents : List AgentHandle := []
  agentMap : UMap AgentHandle AgentInfo := .empty

/-- Where the constructor aborts the program. -/
inductive Abort
  | gpuPool
  | iterateAgents
  | cpuPoolNotFound
  | kernArgPoolNotFound
  deriving DecidableEq, Repr

/-! ## The pools -/

/-- `HSA_AMD_MEMORY_POOL_GLOBAL_FLAG_KERNARG_INIT` -/
def kernargInit : UInt32 := 1

/-- `FindGlobalPool`: the status, and what is at `data` after it. -/
def findGlobalPool (kernArg : Bool) (pool : MemoryPool) (data : PoolHandle) :
    Except Abort (Status × PoolHandle) :=
  if pool.segment ≠ .global then .ok (.success, data)
  else
    let kargSt := pool.globalFlags &&& kernargInit
    if (kargSt = 0 ∧ kernArg = true) ∨ (kargSt ≠ 0 ∧ kernArg = false) then .ok (.success, data)
    else .ok (.infoBreak, pool.handle)

/-- `FindStandardPool` -/
def findStandardPool : MemoryPool → PoolHandle → Except Abort (Status × PoolHandle) :=
  findGlobalPool false

/-- `FindKernArgPool` -/
def findKernArgPool : MemoryPool → PoolHandle → Except Abort (Status × PoolHandle) :=
  findGlobalPool true

/-! ## The constructor -/

/-- The length of the name without the last two characters, or what the subtraction makes of it when
there are none. -/
def gfxipLabelLen (name : List Char) : UInt64 :=
  let labelLen := UInt64.ofNat name.length - 2
  if 63 < labelLen then 63 else labelLen

/-- `gfxip`; the name is followed by nulls. -/
def gfxip (name : List Char) : List Char := name.take (gfxipLabelLen name).toNat

/-- `AddAgentInfo` -/
def addAgentInfo (agent : Agent) (s : Factory) : Except Abort (Option AgentInfo × Factory) :=
  match agent.type with
  | .cpu => do
    let (status, cpuPool) ← iterate .success findStandardPool agent.pools 0
    let (status', kernArgPool) ← iterate .success findKernArgPool agent.pools 0
    let agentInfo : AgentInfo :=
      { devId := agent.handle, devType := .cpu, devIndex := UInt32.ofNat s.cpuList.length
        cpuPool, kernArgPool }
    return (some agentInfo,
      { s with
        cpuPool := if status = .infoBreak ∧ s.cpuPool = none then some cpuPool else s.cpuPool
        kernArgPool :=
          if status' = .infoBreak ∧ s.kernArgPool = none then some kernArgPool else s.kernArgPool
        cpuList := s.cpuList ++ [agentInfo]
        cpuAgents := s.cpuAgents ++ [agent.handle]
        agentMap := s.agentMap.assign agent.handle agentInfo })
  | .gpu => do
    let (status, gpuPool) ← iterate .success findStandardPool agent.pools 0
    if status ≠ .infoBreak then
      throw .gpuPool
    let agentInfo : AgentInfo :=
      { devId := agent.handle, devType := .gpu, devIndex := UInt32.ofNat s.gpuList.length
        isApu := agent.profile = .full
        name := agent.name, gfxip := gfxip agent.name
        maxWaveSize := agent.maxWaveSize, maxQueueSize := agent.maxQueueSize
        profile := agent.profile, gpuPool
        cuNum := agent.cuNum, wavesPerCu := agent.wavesPerCu, simdsPerCu := agent.simdsPerCu
        seNum := agent.seNum, shaderArraysPerSe := agent.shaderArraysPerSe
        sgprBlockDflt := if gfxip agent.name = "gfx8".toList then 1 else 2
        sgprBlockSize := 8, vgprBlockSize := 4 }
    return (some agentInfo,
      { s with
        gpuList := s.gpuList ++ [agentInfo]
        gpuAgents := s.gpuAgents ++ [agent.handle]
        agentMap := s.agentMap.assign agent.handle agentInfo })
  | .dsp | .aie => return (none, s)

/-- `GetHsaAgentsCallback` -/
def getHsaAgentsCallback (agent : Agent) (s : Factory) : Except Abort (Status × Factory) := do
  let (agentInfo, s) ← addAgentInfo agent s
  return (if agentInfo.isSome then .success else .error, s)

/-- The constructor of `HsaRsrcFactory`, with the agents of the system. -/
def construct (agents : List Agent) : Except Abort Factory := do
  let (status, s) ← iterate .success getHsaAgentsCallback agents {}
  if status ≠ .success then
    throw .iterateAgents
  if s.cpuPool = none then
    throw .cpuPoolNotFound
  if s.kernArgPool = none then
    throw .kernArgPoolNotFound
  return s

/-- `GetAgentInfo`; the null pointer is `none`. -/
def Factory.getAgentInfo (s : Factory) (agent : AgentHandle) : Option AgentInfo := s.agentMap agent

/-- `GetCountOfGpuAgents` -/
def Factory.getCountOfGpuAgents (s : Factory) : UInt32 := UInt32.ofNat s.gpuList.length

/-- `GetGpuAgentInfo`, which is `none` when it returns `false`. -/
def Factory.getGpuAgentInfo (s : Factory) (idx : UInt32) : Option AgentInfo :=
  if idx ≥ UInt32.ofNat s.gpuList.length then none else s.gpuList[idx.toNat]?

/-! ## What there is in the end -/

/-- A pool of the kind that is looked for. -/
def MemoryPool.isGlobal (kernArg : Bool) (pool : MemoryPool) : Bool :=
  pool.segment = .global && decide (pool.globalFlags &&& kernargInit ≠ 0) == kernArg

/-- The first pool of a kind. -/
def Agent.globalPool (kernArg : Bool) (agent : Agent) : Option PoolHandle :=
  (agent.pools.find? (MemoryPool.isGlobal kernArg)).map MemoryPool.handle

def cpus (agents : List Agent) : List Agent := agents.filter (·.type = .cpu)

def gpus (agents : List Agent) : List Agent := agents.filter (·.type = .gpu)

/-- The `AgentInfo` of a CPU. -/
def cpuInfo (index : ℕ) (agent : Agent) : AgentInfo where
  devId := agent.handle
  devType := .cpu
  devIndex := UInt32.ofNat index
  cpuPool := (agent.globalPool false).getD 0
  kernArgPool := (agent.globalPool true).getD 0

/-- The `AgentInfo` of a GPU. -/
def gpuInfo (index : ℕ) (agent : Agent) : AgentInfo where
  devId := agent.handle
  devType := .gpu
  devIndex := UInt32.ofNat index
  isApu := agent.profile = .full
  gfxip := gfxip agent.name
  name := agent.name
  maxWaveSize := agent.maxWaveSize
  maxQueueSize := agent.maxQueueSize
  profile := agent.profile
  gpuPool := (agent.globalPool false).getD 0
  cuNum := agent.cuNum
  wavesPerCu := agent.wavesPerCu
  simdsPerCu := agent.simdsPerCu
  seNum := agent.seNum
  shaderArraysPerSe := agent.shaderArraysPerSe
  sgprBlockDflt := if gfxip agent.name = "gfx8".toList then 1 else 2
  sgprBlockSize := 8
  vgprBlockSize := 4

/-- An agent that the callback does not stop at. -/
def Accepted (agent : Agent) : Prop :=
  agent.type = .cpu ∨ agent.type = .gpu ∧ (agent.globalPool false).isSome = true

instance (agent : Agent) : Decidable (Accepted agent) := inferInstanceAs (Decidable (_ ∨ _))

/-- What the constructor needs. -/
structure Complete (agents : List Agent) : Prop where
  accepted : ∀ agent ∈ agents, Accepted agent
  cpuPool : ∃ agent ∈ cpus agents, (agent.globalPool false).isSome = true
  kernArgPool : ∃ agent ∈ cpus agents, (agent.globalPool true).isSome = true

/-- What the constructor finds. -/
structure Discovered (agents : List Agent) (s : Factory) : Prop where
  /-- The first pools of the CPUs. -/
  cpuPool : s.cpuPool = (cpus agents).findSome? (Agent.globalPool false)
  kernArgPool : s.kernArgPool = (cpus agents).findSome? (Agent.globalPool true)
  /-- The agents are in the order of the enumeration, with their indices. -/
  cpuList : s.cpuList = (cpus agents).mapIdx cpuInfo
  cpuAgents : s.cpuAgents = (cpus agents).map Agent.handle
  gpuList : s.gpuList = (gpus agents).mapIdx gpuInfo
  gpuAgents : s.gpuAgents = (gpus agents).map Agent.handle
  /-- What is found under a handle is the agent with it. -/
  agentMap : ∀ handle agentInfo, s.agentMap handle = some agentInfo ↔
    (agentInfo ∈ s.cpuList ∨ agentInfo ∈ s.gpuList) ∧ agentInfo.devId = handle

/-! ## The callbacks -/

theorem findGlobalPool_eq (kernArg : Bool) (pool : MemoryPool) (data : PoolHandle) :
    findGlobalPool kernArg pool data = .ok (if pool.isGlobal kernArg then
      (.infoBreak, pool.handle) else (.success, data)) := by
  rw [findGlobalPool, MemoryPool.isGlobal]
  by_cases hsegment : pool.segment = .global
  · cases kernArg <;> by_cases hflag : pool.globalFlags &&& kernargInit = 0 <;>
      simp [hsegment, hflag]
  · simp [hsegment]

/-- The traversal of the pools of an agent. -/
theorem iterate_findGlobalPool (kernArg : Bool) (agent : Agent) :
    iterate .success (findGlobalPool kernArg) agent.pools 0
      = .ok (if (agent.globalPool kernArg).isSome then .infoBreak else .success,
          (agent.globalPool kernArg).getD 0) := by
  rw [iterate_find .infoBreak (by decide) (findGlobalPool_eq kernArg), Agent.globalPool]
  cases agent.pools.find? (MemoryPool.isGlobal kernArg) <;> rfl

/-- What is added for an agent. -/
def discoverAgent (s : Factory) (agent : Agent) : Factory :=
  match agent.type with
  | .cpu =>
    { s with
      cpuPool := s.cpuPool.or (agent.globalPool false)
      kernArgPool := s.kernArgPool.or (agent.globalPool true)
      cpuList := s.cpuList ++ [cpuInfo s.cpuList.length agent]
      cpuAgents := s.cpuAgents ++ [agent.handle]
      agentMap := s.agentMap.assign agent.handle (cpuInfo s.cpuList.length agent) }
  | .gpu =>
    { s with
      gpuList := s.gpuList ++ [gpuInfo s.gpuList.length agent]
      gpuAgents := s.gpuAgents ++ [agent.handle]
      agentMap := s.agentMap.assign agent.handle (gpuInfo s.gpuList.length agent) }
  | .dsp | .aie => s

/-- The first pool of its kind is kept. -/
theorem or_globalPool (pool found : Option PoolHandle) :
    (if (if found.isSome then Status.infoBreak else .success) = .infoBreak ∧ pool = none then
      some (found.getD 0) else pool) = pool.or found := by
  cases pool <;> cases found <;> rfl

theorem addAgentInfo_cpu {agent : Agent} (h : agent.type = .cpu) (s : Factory) :
    addAgentInfo agent s
      = .ok (some (cpuInfo s.cpuList.length agent), discoverAgent s agent) := by
  rw [addAgentInfo, discoverAgent, h]
  simp only [findStandardPool, findKernArgPool, iterate_findGlobalPool, bind, Except.bind, pure,
    Except.pure, or_globalPool]
  rfl

theorem addAgentInfo_gpu {agent : Agent} (h : agent.type = .gpu) (s : Factory) :
    addAgentInfo agent s = if (agent.globalPool false).isSome then
      .ok (some (gpuInfo s.gpuList.length agent), discoverAgent s agent) else .error .gpuPool := by
  rw [addAgentInfo, discoverAgent, h]
  simp only [findStandardPool, iterate_findGlobalPool, bind, Except.bind, pure, Except.pure]
  by_cases hpool : (agent.globalPool false).isSome = true
  · rw [if_pos hpool, if_pos hpool]
    rfl
  · rw [if_neg hpool, if_neg hpool]
    rfl

theorem getHsaAgentsCallback_of_accepted (agent : Agent) (s : Factory) (h : Accepted agent) :
    getHsaAgentsCallback agent s = .ok (.success, discoverAgent s agent) := by
  rw [getHsaAgentsCallback]
  rcases h with hcpu | ⟨hgpu, hpool⟩
  · rw [addAgentInfo_cpu hcpu]
    rfl
  · rw [addAgentInfo_gpu hgpu, if_pos hpool]
    rfl

/-- The traversal does not go on behind an agent that is not accepted. -/
theorem getHsaAgentsCallback_stops (agent : Agent) (s t : Factory) (h : ¬Accepted agent) :
    getHsaAgentsCallback agent s ≠ .ok (.success, t) := by
  rw [getHsaAgentsCallback]
  rcases htype : agent.type with _ | _ | _ | _
  · exact absurd (.inl htype) h
  · rw [addAgentInfo_gpu htype, if_neg fun hpool ↦ h (.inr ⟨htype, hpool⟩)]
    exact nofun
  all_goals
    rw [addAgentInfo, htype]
    exact nofun

theorem iterate_getHsaAgentsCallback {agents : List Agent} {s t : Factory} :
    iterate .success getHsaAgentsCallback agents s = .ok (.success, t) ↔
      (∀ agent ∈ agents, Accepted agent) ∧ t = agents.foldl discoverAgent s :=
  iterate_eq_ok_success_iff getHsaAgentsCallback_of_accepted getHsaAgentsCallback_stops

/-! ## The invariant -/

variable {pre : List Agent} {agent : Agent} {s : Factory}

theorem cpus_concat : cpus (pre ++ [agent]) = cpus pre ++ if agent.type = .cpu then [agent] else []
    := by
  rw [cpus, List.filter_append, List.filter_singleton, Bool.cond_decide]
  rfl

theorem gpus_concat : gpus (pre ++ [agent]) = gpus pre ++ if agent.type = .gpu then [agent] else []
    := by
  rw [gpus, List.filter_append, List.filter_singleton, Bool.cond_decide]
  rfl

theorem findSome?_singleton (kernArg : Bool) (xs : List Agent) :
    (xs ++ [agent]).findSome? (Agent.globalPool kernArg)
      = (xs.findSome? (Agent.globalPool kernArg)).or (agent.globalPool kernArg) := by
  rw [List.findSome?_append, List.findSome?_cons, List.findSome?_nil]
  cases agent.globalPool kernArg <;> rfl

/-- A map of what is under its own handle stays one. -/
theorem assign_eq_some_iff {m : UMap AgentHandle AgentInfo} {P : AgentInfo → Prop} (new : AgentInfo)
    (h : ∀ handle agentInfo, m handle = some agentInfo ↔ P agentInfo ∧ agentInfo.devId = handle)
    (hfresh : ∀ agentInfo, P agentInfo → agentInfo.devId ≠ new.devId) (handle : AgentHandle)
    (agentInfo : AgentInfo) : m.assign new.devId new handle = some agentInfo ↔
      (P agentInfo ∨ agentInfo = new) ∧ agentInfo.devId = handle := by
  by_cases hhandle : handle = new.devId
  · subst hhandle
    rw [UMap.assign_self, Option.some_inj]
    constructor
    · rintro rfl
      exact ⟨.inr rfl, rfl⟩
    · rintro ⟨hold | hnew, heq⟩
      · exact absurd heq (hfresh agentInfo hold)
      · exact hnew.symm
  · rw [UMap.assign_of_ne _ _ hhandle, h, or_and_right]
    refine (or_iff_left ?_).symm
    rintro ⟨rfl, rfl⟩
    exact hhandle rfl

theorem Discovered.devId_mem (h : Discovered pre s) {agentInfo : AgentInfo}
    (hmem : agentInfo ∈ s.cpuList ∨ agentInfo ∈ s.gpuList) :
    agentInfo.devId ∈ pre.map Agent.handle := by
  rw [h.cpuList, h.gpuList, List.mem_mapIdx, List.mem_mapIdx] at hmem
  rcases hmem with ⟨i, hi, rfl⟩ | ⟨i, hi, rfl⟩
  · exact List.mem_map_of_mem (List.mem_of_mem_filter (List.getElem_mem hi))
  · exact List.mem_map_of_mem (List.mem_of_mem_filter (List.getElem_mem hi))

/-- **One agent.** -/
theorem Discovered.discoverAgent (h : Discovered pre s)
    (hfresh : agent.handle ∉ pre.map Agent.handle) :
    Discovered (pre ++ [agent]) (discoverAgent s agent) := by
  have hnew : ∀ agentInfo, agentInfo ∈ s.cpuList ∨ agentInfo ∈ s.gpuList →
      agentInfo.devId ≠ agent.handle := fun agentInfo hmem heq ↦ hfresh (heq ▸ h.devId_mem hmem)
  have hcpus : s.cpuList.length = (cpus pre).length := by rw [h.cpuList, List.length_mapIdx]
  have hgpus : s.gpuList.length = (gpus pre).length := by rw [h.gpuList, List.length_mapIdx]
  rw [Agents.discoverAgent]
  cases htype : agent.type with
  | cpu =>
    have hc : cpus (pre ++ [agent]) = cpus pre ++ [agent] := by rw [cpus_concat, if_pos htype]
    have hg : gpus (pre ++ [agent]) = gpus pre := by
      rw [gpus_concat, if_neg (by rw [htype]; decide), List.append_nil]
    refine ⟨?_, ?_, ?_, ?_, ?_, ?_, fun handle agentInfo ↦ ?_⟩
    · rw [hc, findSome?_singleton, ← h.cpuPool]
    · rw [hc, findSome?_singleton, ← h.kernArgPool]
    · rw [hc, List.mapIdx_concat, ← h.cpuList, ← hcpus]
    · rw [hc, List.map_append, ← h.cpuAgents]
      rfl
    · rw [hg, h.gpuList]
    · rw [hg, h.gpuAgents]
    · refine (assign_eq_some_iff (cpuInfo s.cpuList.length agent) h.agentMap hnew handle
        agentInfo).trans ?_
      rw [List.mem_append, List.mem_singleton, or_right_comm]
  | gpu =>
    have hc : cpus (pre ++ [agent]) = cpus pre := by
      rw [cpus_concat, if_neg (by rw [htype]; decide), List.append_nil]
    have hg : gpus (pre ++ [agent]) = gpus pre ++ [agent] := by rw [gpus_concat, if_pos htype]
    refine ⟨?_, ?_, ?_, ?_, ?_, ?_, fun handle agentInfo ↦ ?_⟩
    · rw [hc, h.cpuPool]
    · rw [hc, h.kernArgPool]
    · rw [hc, h.cpuList]
    · rw [hc, h.cpuAgents]
    · rw [hg, List.mapIdx_concat, ← h.gpuList, ← hgpus]
    · rw [hg, List.map_append, ← h.gpuAgents]
      rfl
    · refine (assign_eq_some_iff (gpuInfo s.gpuList.length agent) h.agentMap hnew handle
        agentInfo).trans ?_
      rw [List.mem_append, List.mem_singleton, or_assoc]
  | dsp | aie =>
    have hc : cpus (pre ++ [agent]) = cpus pre := by
      rw [cpus_concat, if_neg (by rw [htype]; decide), List.append_nil]
    have hg : gpus (pre ++ [agent]) = gpus pre := by
      rw [gpus_concat, if_neg (by rw [htype]; decide), List.append_nil]
    refine ⟨?_, ?_, ?_, ?_, ?_, ?_, h.agentMap⟩
    · rw [hc, h.cpuPool]
    · rw [hc, h.kernArgPool]
    · rw [hc, h.cpuList]
    · rw [hc, h.cpuAgents]
    · rw [hg, h.gpuList]
    · rw [hg, h.gpuAgents]

/-- **The enumeration.** -/
theorem Discovered.foldl (h : Discovered pre s) (agents : List Agent)
    (hnodup : ((pre ++ agents).map Agent.handle).Nodup) :
    Discovered (pre ++ agents) (agents.foldl Agents.discoverAgent s) := by
  induction agents generalizing pre s with
  | nil =>
    rw [List.append_nil]
    exact h
  | cons agent agents ih =>
    rw [List.append_cons] at hnodup ⊢
    refine ih (h.discoverAgent fun hmem ↦ ?_) hnodup
    have hprefix : ((pre ++ [agent]).map Agent.handle).Nodup :=
      hnodup.sublist (List.Sublist.map _ (List.sublist_append_left _ _))
    rw [List.map_append, List.nodup_append] at hprefix
    exact hprefix.2.2 _ hmem _ List.mem_cons_self rfl

theorem discovered_nil : Discovered [] {} := by
  refine ⟨rfl, rfl, rfl, rfl, rfl, rfl, fun handle agentInfo ↦ iff_of_false nofun ?_⟩
  rintro ⟨hmem | hmem, -⟩ <;> cases hmem

/-! ## The result -/

theorem isSome_findSome? (kernArg : Bool) (agents : List Agent) :
    agents.findSome? (Agent.globalPool kernArg) ≠ none ↔
      ∃ agent ∈ agents, (agent.globalPool kernArg).isSome = true := by
  rw [ne_eq, List.findSome?_eq_none_iff]
  simp [Option.isSome_iff_ne_none]

theorem Discovered.cpuPool_ne_none {agents : List Agent} (h : Discovered agents s) :
    s.cpuPool ≠ none ↔ ∃ agent ∈ cpus agents, (agent.globalPool false).isSome = true := by
  rw [h.cpuPool]
  exact isSome_findSome? false (cpus agents)

theorem Discovered.kernArgPool_ne_none {agents : List Agent} (h : Discovered agents s) :
    s.kernArgPool ≠ none ↔ ∃ agent ∈ cpus agents, (agent.globalPool true).isSome = true := by
  rw [h.kernArgPool]
  exact isSome_findSome? true (cpus agents)

/-- How the constructor ends, with the traversal. -/
theorem construct_eq {agents : List Agent} {status : Status} {t : Factory}
    (h : iterate .success getHsaAgentsCallback agents {} = .ok (status, t)) :
    construct agents = if status ≠ .success then .error .iterateAgents
      else if t.cpuPool = none then .error .cpuPoolNotFound
      else if t.kernArgPool = none then .error .kernArgPoolNotFound else .ok t := by
  simp only [construct, h, bind, Except.bind, pure, Except.pure, throw, throwThe,
    MonadExceptOf.throw]

/-- A constructor that returns has found complete agents. -/
theorem discovered_of_construct {agents : List Agent} (hnodup : (agents.map Agent.handle).Nodup)
    (h : construct agents = .ok s) : Complete agents ∧ Discovered agents s := by
  have hfound : Discovered agents (agents.foldl discoverAgent {}) :=
    discovered_nil.foldl agents hnodup
  rcases hiterate : iterate .success getHsaAgentsCallback agents {} with abort | ⟨status, t⟩
  · rw [construct, hiterate] at h
    cases h
  rw [construct_eq hiterate] at h
  split_ifs at h with hstatus hcpuNone hkernArgNone
  rw [not_not] at hstatus
  subst hstatus
  obtain ⟨haccepted, rfl⟩ := iterate_getHsaAgentsCallback.mp hiterate
  cases h
  exact ⟨⟨haccepted, hfound.cpuPool_ne_none.mp hcpuNone,
    hfound.kernArgPool_ne_none.mp hkernArgNone⟩, hfound⟩

/-- **What the constructor finds.**  For agents with different handles it aborts the program unless
they are complete, and else finds each of them with its place, and the first pools of the CPUs. -/
theorem constructor_discovers {agents : List Agent} (hnodup : (agents.map Agent.handle).Nodup) :
    (Complete agents → ∃ s, construct agents = .ok s ∧ Discovered agents s) ∧
      (¬Complete agents → ∃ abort, construct agents = .error abort) := by
  constructor
  · intro hcomplete
    have hfound : Discovered agents (agents.foldl discoverAgent {}) :=
      discovered_nil.foldl agents hnodup
    have hiterate : iterate .success getHsaAgentsCallback agents {} = .ok (.success, _) :=
      iterate_getHsaAgentsCallback.mpr ⟨hcomplete.accepted, rfl⟩
    refine ⟨_, ?_, hfound⟩
    rw [construct_eq hiterate, if_neg (not_not_intro rfl),
      if_neg (hfound.cpuPool_ne_none.mpr hcomplete.cpuPool),
      if_neg (hfound.kernArgPool_ne_none.mpr hcomplete.kernArgPool)]
  · intro hnot
    rcases hconstruct : construct agents with abort | s
    · exact ⟨abort, rfl⟩
    · exact absurd (discovered_of_construct hnodup hconstruct).1 hnot

/-- Two CPUs, of which the second one has the pool for kernel arguments, and two GPUs. -/
def fourAgents : List Agent :=
  [{ handle := 40, type := .cpu, pools := [⟨1, .group, 0⟩, ⟨2, .global, 0⟩] },
    { handle := 10, type := .gpu, pools := [⟨3, .global, 0⟩], name := "gfx906".toList },
    { handle := 41, type := .cpu, pools := [⟨4, .global, 1⟩, ⟨5, .global, 0⟩] },
    { handle := 11, type := .gpu, pools := [⟨6, .global, 2⟩], name := "gfx803".toList }]

theorem fourAgents_complete : Complete fourAgents := by
  constructor <;> decide

theorem constructor_discovers_four :
    ∃ s, construct fourAgents = .ok s ∧ s.cpuPool = some 2 ∧ s.kernArgPool = some 4 ∧
      s.gpuAgents = [10, 11] := by
  obtain ⟨s, hs, hfound⟩ := (constructor_discovers (by decide)).1 fourAgents_complete
  exact ⟨s, hs, hfound.cpuPool, hfound.kernArgPool, hfound.gpuAgents⟩

/-- The name of the architecture is the one of the agent without the stepping; names of less than
two characters are kept. -/
theorem gfxip_eq (agent : Agent) :
    gfxip agent.name
      = if agent.name.length < 2 then agent.name else agent.name.take (agent.name.length - 2) := by
  have hlt := agent.name_lt
  have hlabel : (UInt64.ofNat agent.name.length - 2).toNat
      = (2 ^ 64 - 2 + agent.name.length) % 2 ^ 64 := by
    have hlength : (UInt64.ofNat agent.name.length).toNat = agent.name.length := by
      rw [UInt64.toNat_ofNat']
      omega
    rw [UInt64.toNat_sub, hlength]
    rfl
  have hsize : UInt64.toNat 63 = 63 := rfl
  rw [gfxip, gfxipLabelLen]
  by_cases hshort : agent.name.length < 2
  · -- the subtraction wraps, and the rest of the field is nulls
    rw [if_pos hshort, if_pos (UInt64.lt_iff_toNat_lt.mpr (by rw [hlabel]; omega))]
    exact List.take_of_length_le (by omega)
  · rw [if_neg hshort, if_neg (fun hlarge ↦ ?_), hlabel]
    · congr 1
      omega
    · rw [UInt64.lt_iff_toNat_lt, hlabel] at hlarge
      omega

/-! ## Looking agents up -/

theorem Discovered.getAgentInfo_gpu {agents : List Agent} (h : Discovered agents s) {i : ℕ}
    (hi : (gpus agents)[i]? = some agent) :
    s.getAgentInfo agent.handle = some (gpuInfo i agent) := by
  refine (h.agentMap _ _).mpr ⟨.inr ?_, rfl⟩
  rw [h.gpuList, List.mem_mapIdx]
  obtain ⟨hlt, rfl⟩ := List.getElem?_eq_some_iff.mp hi
  exact ⟨i, hlt, rfl⟩

theorem Discovered.getAgentInfo_cpu {agents : List Agent} (h : Discovered agents s) {i : ℕ}
    (hi : (cpus agents)[i]? = some agent) :
    s.getAgentInfo agent.handle = some (cpuInfo i agent) := by
  refine (h.agentMap _ _).mpr ⟨.inl ?_, rfl⟩
  rw [h.cpuList, List.mem_mapIdx]
  obtain ⟨hlt, rfl⟩ := List.getElem?_eq_some_iff.mp hi
  exact ⟨i, hlt, rfl⟩

theorem Discovered.getAgentInfo_none {agents : List Agent} (h : Discovered agents s)
    {handle : AgentHandle} (hnot : handle ∉ agents.map Agent.handle) :
    s.getAgentInfo handle = none := by
  refine Option.eq_none_iff_forall_ne_some.mpr fun agentInfo hsome ↦ ?_
  obtain ⟨hmem, rfl⟩ := (h.agentMap _ _).mp hsome
  exact hnot (h.devId_mem hmem)

theorem Discovered.getGpuAgentInfo {agents : List Agent} (h : Discovered agents s)
    (hcount : (gpus agents).length < UInt32.size) (idx : UInt32) :
    s.getGpuAgentInfo idx = (gpus agents)[idx.toNat]?.map (gpuInfo idx.toNat) := by
  have hlength : (UInt32.ofNat s.gpuList.length).toNat = (gpus agents).length := by
    rw [h.gpuList, List.length_mapIdx, UInt32.toNat_ofNat', Nat.mod_eq_of_lt hcount]
  rw [Factory.getGpuAgentInfo]
  by_cases hle : UInt32.ofNat s.gpuList.length ≤ idx
  · rw [if_pos hle]
    rw [UInt32.le_iff_toNat_le, hlength] at hle
    rw [List.getElem?_eq_none hle, Option.map_none]
  · rw [if_neg hle, h.gpuList, List.getElem?_mapIdx]

end HsaRsrcFactory.Agents
