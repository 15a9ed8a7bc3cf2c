import RocprofTool.Version3.CounterGroups

/-!
# The agents that are traced

`tool_init` configures the thread trace on the agents that the configuration selects by their GPU
index, or on all the GPUs when it selects none.  It goes through `agents_map`, an unordered map, and
takes the index of each agent that it configures out of the set of the selected ones; what is left
in the set in the end belongs to no GPU, and is reported.

When the GPUs have different indices, what the loop does with one of them does not depend on those
that it has come to before: `Consumed` says what there is after some entries of the map, in whatever
order they come (`consumed_foldlM`).  `traces_selected` is the result.

The set is parsed from `att_gpu_index` by a tokenizer of the library and `std::stoi`; any set is
looked at here.
-/

set_option autoImplicit false

open Version3.CounterGroups

namespace Version3.ThreadTrace.Agents

/-! ## The parameters -/

/-- `rocprofiler_thread_trace_parameter_t`. -/
inductive Parameter
  | targetCu (value : UInt64)
  | simdSelect (value : UInt64)
  | bufferSize (value : UInt64)
  | shaderEngineMask (value : UInt64)
  | serializeAll (value : UInt64)
  | perfcountersCtrl (value : UInt64)
  | perfcounter (counterId : CounterId) (simdMask : UInt64)
  deriving DecidableEq, Repr

/-- `att_perfcounter`. -/
structure AttPerfcounter where
  counterName : String
  simdMask : UInt64
  deriving DecidableEq, Repr

/-- The part of the configuration that is about the thread trace. -/
structure AttConfig where
  attParamTargetCu : UInt64
  attParamSimdSelect : UInt64
  attParamBufferSize : UInt64
  attParamShaderEngineMask : UInt64
  attParamPerfCtrl : UInt64
  attParamPerfcounters : List AttPerfcounter
  attSerializeAll : Bool
  attConsecutiveKernels : UInt64
  deriving DecidableEq, Repr

/-- How the configuration can end the program. -/
inductive Failure
  /-- The fatal error that one of `perfcounter_ctrl` and the list of the counters is missing. -/
  | perfcountersIncomplete
  /-- The exception `std::out_of_range`, of `at`. -/
  | outOfRange
  deriving DecidableEq, Repr

/-- `global_parameters`. -/
def globalParameters (cfg : AttConfig) : Except Failure (List Parameter) :=
  let parameters :=
    [.targetCu cfg.attParamTargetCu, .simdSelect cfg.attParamSimdSelect,
      .bufferSize cfg.attParamBufferSize, .shaderEngineMask cfg.attParamShaderEngineMask,
      .serializeAll (if cfg.attSerializeAll then 1 else 0)]
  if cfg.attParamPerfCtrl ≠ 0 ∧ cfg.attParamPerfcounters.isEmpty = false then
    .ok (parameters ++ [.perfcountersCtrl cfg.attParamPerfCtrl])
  else if cfg.attParamPerfCtrl ≠ 0 ∨ cfg.attParamPerfcounters.isEmpty = false then
    .error .perfcountersIncomplete
  else .ok parameters

/-- One round of `get_att_perfcounter_params`: the first counter with the name, if there is one. -/
def attPerfcounterParam (infos : List CounterInfo) (attPerfCounter : AttPerfcounter) :
    Option Parameter :=
  (infos.find? fun info ↦ info.name = attPerfCounter.counterName).map fun info ↦
    .perfcounter info.id attPerfCounter.simdMask

/-- `get_att_perfcounter_params`.  The counters of the agent are read in each round. -/
def getAttPerfcounterParams (agentCounterInfo : UMap AgentId (List CounterInfo)) (agent : AgentId) :
    List AttPerfcounter → Except Failure (List Parameter)
  | [] => .ok []
  | attPerfCounter :: attPerfCounters =>
    match agentCounterInfo agent with
    | none => .error .outOfRange
    | some infos => do
      let data ← getAttPerfcounterParams agentCounterInfo agent attPerfCounters
      return (attPerfcounterParam infos attPerfCounter).toList ++ data

/-! ## The loop -/

/-- `tool_metadata->agents_map`, in the order in which it is gone through. -/
structure AgentsMap where
  entries : List (AgentId × Agent)
  /-- An agent is found under its id. -/
  keyed : ∀ entry ∈ entries, entry.2.id = entry.1
  nodup : (entries.map Prod.fst).Nodup
  /-- The index is an integer of 64 bits. -/
  inRange : ∀ entry ∈ entries, -2 ^ 63 ≤ entry.2.gpuIndex ∧ entry.2.gpuIndex < 2 ^ 63

/-- The services that an agent can be configured for. -/
inductive Service
  /-- `rocprofiler_configure_dispatch_thread_trace_service`. -/
  | dispatch
  /-- `rocprofiler_configure_device_thread_trace_service`. -/
  | device
  deriving DecidableEq, Repr

/-- A call that configures the thread trace of an agent. -/
structure Configured where
  service : Service
  agent : AgentId
  parameters : List Parameter
  deriving DecidableEq, Repr

/-- The service for the number of consecutive kernels. -/
def serviceOf (cfg : AttConfig) : Service :=
  if cfg.attConsecutiveKernels ≥ 1 then .device else .dispatch

/-- The index of an agent, as it is looked for in the set. -/
def indexOf (agent : Agent) : UInt64 := UInt64.ofInt agent.gpuIndex

/-- The variables of the loop, with the calls that have been made. -/
structure Selection where
  gpuIdxSet : Finset UInt64
  configured : List Configured := []
  deriving DecidableEq

/-- The round of the loop for an entry of the map. -/
def configureAgent (cfg : AttConfig) (agentCounterInfo : UMap AgentId (List CounterInfo))
    (globalParameters : List Parameter) (selectingByGpuid : Bool) (selection : Selection)
    (entry : AgentId × Agent) : Except Failure Selection :=
  let (id, agent) := entry
  if agent.type ≠ .gpu then .ok selection
  else if selectingByGpuid ∧ indexOf agent ∉ selection.gpuIdxSet then .ok selection
  else do
    let gpuIdxSet :=
      if selectingByGpuid then selection.gpuIdxSet.erase (indexOf agent) else selection.gpuIdxSet
    let params ← getAttPerfcounterParams agentCounterInfo id cfg.attParamPerfcounters
    let service := serviceOf cfg
    let target := match service with
      | .dispatch => id
      | .device => agent.id
    return ⟨gpuIdxSet, selection.configured ++ [⟨service, target, globalParameters ++ params⟩]⟩

/-- The part of `tool_init` that is about the thread trace, for the indices that are selected: the
calls, and the indices that are reported. -/
def configureThreadTrace (cfg : AttConfig) (agentCounterInfo : UMap AgentId (List CounterInfo))
    (gpuIdxSet : Finset UInt64) (agentsMap : AgentsMap) : Except Failure Selection := do
  let globalParameters ← globalParameters cfg
  let selectingByGpuid := decide (gpuIdxSet ≠ ∅)
  agentsMap.entries.foldlM
    (configureAgent cfg agentCounterInfo globalParameters selectingByGpuid) ⟨gpuIdxSet, []⟩

/-! ## The property -/

/-- The agent is to be traced: it is a GPU, and selected unless none is. -/
def Selected (gpuIdxSet : Finset UInt64) (entry : AgentId × Agent) : Prop :=
  entry.2.type = .gpu ∧ (gpuIdxSet = ∅ ∨ indexOf entry.2 ∈ gpuIdxSet)

instance (gpuIdxSet : Finset UInt64) (entry : AgentId × Agent) :
    Decidable (Selected gpuIdxSet entry) :=
  inferInstanceAs (Decidable (_ ∧ _))

/-- The index is not that of a GPU among these entries. -/
def NoGpu (entries : List (AgentId × Agent)) (index : UInt64) : Prop :=
  ∀ entry ∈ entries, entry.2.type = .gpu → indexOf entry.2 ≠ index

/-- The counters of an agent that are asked for and that it has. -/
def ownParameters (cfg : AttConfig) (agentCounterInfo : UMap AgentId (List CounterInfo))
    (agent : AgentId) : List Parameter :=
  cfg.attParamPerfcounters.filterMap (attPerfcounterParam ((agentCounterInfo agent).getD []))

/-- The call for an agent. -/
def callFor (cfg : AttConfig) (agentCounterInfo : UMap AgentId (List CounterInfo))
    (globalParameters : List Parameter) (entry : AgentId × Agent) : Configured :=
  ⟨serviceOf cfg, entry.1, globalParameters ++ ownParameters cfg agentCounterInfo entry.1⟩

/-- The first of the counters with this name. -/
def FirstNamed (infos : List CounterInfo) (name : String) (info : CounterInfo) : Prop :=
  ∃ pre post, infos = pre ++ info :: post ∧ info.name = name ∧ ∀ other ∈ pre, other.name ≠ name

/-- The parameters for the counters that are asked for, on an agent with these: one for each that
the agent has, with the id of the first of that name and the mask that is asked for. -/
inductive CounterParameters (infos : List CounterInfo) :
    List AttPerfcounter → List Parameter → Prop
  | nil : CounterParameters infos [] []
  | found {counter : AttPerfcounter} {counters : List AttPerfcounter} {info : CounterInfo}
      {parameters : List Parameter} (hfirst : FirstNamed infos counter.counterName info)
      (h : CounterParameters infos counters parameters) :
      CounterParameters infos (counter :: counters)
        (.perfcounter info.id counter.simdMask :: parameters)
  | missing {counter : AttPerfcounter} {counters : List AttPerfcounter}
      {parameters : List Parameter} (hnone : ∀ info ∈ infos, info.name ≠ counter.counterName)
      (h : CounterParameters infos counters parameters) :
      CounterParameters infos (counter :: counters) parameters

/-- The call for an agent is as the configuration wants it: the service is that of a device when
consecutive kernels are traced, and the parameters are the global ones and then those for the
counters of this agent. -/
def RightCall (cfg : AttConfig) (agentCounterInfo : UMap AgentId (List CounterInfo))
    (call : Configured) : Prop :=
  call.service = (if 1 ≤ cfg.attConsecutiveKernels then .device else .dispatch) ∧
    ∃ own, CounterParameters ((agentCounterInfo call.agent).getD []) cfg.attParamPerfcounters own ∧
      call.parameters =
        [.targetCu cfg.attParamTargetCu, .simdSelect cfg.attParamSimdSelect,
          .bufferSize cfg.attParamBufferSize, .shaderEngineMask cfg.attParamShaderEngineMask,
          .serializeAll (if cfg.attSerializeAll then 1 else 0)] ++
        (if cfg.attParamPerfCtrl = 0 then [] else [.perfcountersCtrl cfg.attParamPerfCtrl]) ++ own

/-- The thread trace is configured on the selected GPUs, in the order of the map, on each of them
once and with its own parameters behind the global ones, and the selected indices that belong to no
GPU are reported. -/
structure TracesSelected (cfg : AttConfig) (agentCounterInfo : UMap AgentId (List CounterInfo))
    (gpuIdxSet : Finset UInt64) (agentsMap : AgentsMap) (selection : Selection) : Prop where
  agents : selection.configured.map Configured.agent
    = (agentsMap.entries.filter (Selected gpuIdxSet ·)).map Prod.fst
  calls : ∀ call ∈ selection.configured, RightCall cfg agentCounterInfo call
  once : (selection.configured.map Configured.agent).Nodup
  invalid : ∀ index, index ∈ selection.gpuIdxSet ↔
    index ∈ gpuIdxSet ∧ NoGpu agentsMap.entries index

/-- The GPUs have different indices. -/
def DistinctIndices (entries : List (AgentId × Agent)) : Prop :=
  ((entries.filter fun entry ↦ entry.2.type = .gpu).map fun entry ↦ entry.2.gpuIndex).Nodup

instance (entries : List (AgentId × Agent)) : Decidable (DistinctIndices entries) :=
  inferInstanceAs (Decidable (List.Nodup _))

/-- What `tool_metadata` knows about the counters: those of each GPU, if any are asked for. -/
def CountersKnown (cfg : AttConfig) (agentCounterInfo : UMap AgentId (List CounterInfo))
    (entries : List (AgentId × Agent)) : Prop :=
  cfg.attParamPerfcounters = [] ∨
    ∀ entry ∈ entries, entry.2.type = .gpu → (agentCounterInfo entry.1).isSome = true

/-! ## The loop -/

variable {cfg : AttConfig} {agentCounterInfo : UMap AgentId (List CounterInfo)}
  {global : List Parameter} {gpuIdxSet : Finset UInt64} {pre : List (AgentId × Agent)}
  {entry : AgentId × Agent} {selection : Selection}

theorem getAttPerfcounterParams_eq {agent : AgentId} {attPerfCounters : List AttPerfcounter}
    (h : attPerfCounters = [] ∨ (agentCounterInfo agent).isSome = true) :
    getAttPerfcounterParams agentCounterInfo agent attPerfCounters
      = .ok (attPerfCounters.filterMap
          (attPerfcounterParam ((agentCounterInfo agent).getD []))) := by
  induction attPerfCounters with
  | nil => rfl
  | cons attPerfCounter attPerfCounters ih =>
    have hknown := h.resolve_left (List.cons_ne_nil _ _)
    obtain ⟨infos, hinfos⟩ := Option.isSome_iff_exists.mp hknown
    rw [getAttPerfcounterParams, ih (.inr hknown), hinfos, Option.getD_some, List.filterMap_cons]
    dsimp only
    cases attPerfcounterParam infos attPerfCounter <;> rfl

/-- What there is after some of the entries. -/
structure Consumed (cfg : AttConfig) (agentCounterInfo : UMap AgentId (List CounterInfo))
    (global : List Parameter) (gpuIdxSet : Finset UInt64) (pre : List (AgentId × Agent))
    (selection : Selection) : Prop where
  configured : selection.configured
    = (pre.filter (Selected gpuIdxSet ·)).map (callFor cfg agentCounterInfo global)
  left : ∀ index, index ∈ selection.gpuIdxSet ↔ index ∈ gpuIdxSet ∧ NoGpu pre index

theorem noGpu_append {index : UInt64} :
    NoGpu (pre ++ [entry]) index ↔
      NoGpu pre index ∧ (entry.2.type = .gpu → indexOf entry.2 ≠ index) := by
  simp only [NoGpu, List.forall_mem_append, List.forall_mem_singleton]

theorem filter_selected_append (h : Selected gpuIdxSet entry) :
    (pre ++ [entry]).filter (Selected gpuIdxSet ·)
      = pre.filter (Selected gpuIdxSet ·) ++ [entry] := by
  simp [h]

theorem filter_not_selected_append (h : ¬Selected gpuIdxSet entry) :
    (pre ++ [entry]).filter (Selected gpuIdxSet ·) = pre.filter (Selected gpuIdxSet ·) := by
  simp [h]

/-- A round for an agent that is not configured. -/
theorem Consumed.skip (h : Consumed cfg agentCounterInfo global gpuIdxSet pre selection)
    (hnot : ¬Selected gpuIdxSet entry)
    (hleft : entry.2.type = .gpu → indexOf entry.2 ∉ gpuIdxSet) :
    Consumed cfg agentCounterInfo global gpuIdxSet (pre ++ [entry]) selection := by
  refine ⟨?_, fun index ↦ ?_⟩
  · rw [filter_not_selected_append hnot, h.configured]
  · rw [h.left, noGpu_append]
    refine ⟨fun ⟨hmem, hno⟩ ↦ ⟨hmem, hno, ?_⟩, fun ⟨hmem, hno, _⟩ ↦ ⟨hmem, hno⟩⟩
    rintro hgpu rfl
    exact hleft hgpu hmem

/-- **One round**, for an agent with an index that no GPU before it has. -/
theorem consumed_configureAgent (h : Consumed cfg agentCounterInfo global gpuIdxSet pre selection)
    (hkeyed : entry.2.id = entry.1)
    (hfresh : entry.2.type = .gpu → NoGpu pre (indexOf entry.2))
    (hknown : entry.2.type = .gpu →
      cfg.attParamPerfcounters = [] ∨ (agentCounterInfo entry.1).isSome = true) :
    ∃ selection', configureAgent cfg agentCounterInfo global (decide (gpuIdxSet ≠ ∅)) selection
        entry = .ok selection'
      ∧ Consumed cfg agentCounterInfo global gpuIdxSet (pre ++ [entry]) selection' := by
  rw [configureAgent]
  dsimp only
  by_cases hgpu : entry.2.type = .gpu
  · have hmem : indexOf entry.2 ∈ selection.gpuIdxSet ↔ indexOf entry.2 ∈ gpuIdxSet := by
      rw [h.left, and_iff_left (hfresh hgpu)]
    rw [if_neg (not_not_intro hgpu), getAttPerfcounterParams_eq (hknown hgpu)]
    by_cases hskip : decide (gpuIdxSet ≠ ∅) = true ∧ indexOf entry.2 ∉ selection.gpuIdxSet
    · rw [if_pos hskip]
      have hnot : indexOf entry.2 ∉ gpuIdxSet := hmem.not.mp hskip.2
      refine ⟨selection, rfl, h.skip (fun hselected ↦ ?_) fun _ ↦ hnot⟩
      exact hselected.2.elim (by simpa using hskip.1) hnot
    · rw [if_neg hskip]
      have hselected : Selected gpuIdxSet entry := by
        refine ⟨hgpu, ?_⟩
        by_contra hno
        obtain ⟨hne, hnot⟩ := not_or.mp hno
        exact hskip ⟨by simpa using hne, hmem.not.mpr hnot⟩
      refine ⟨_, rfl, ?_, fun index ↦ ?_⟩
      · rw [filter_selected_append hselected, List.map_append, ← h.configured, hkeyed]
        cases hservice : serviceOf cfg <;> simp [callFor, hservice, ownParameters]
      · rw [noGpu_append]
        by_cases hempty : gpuIdxSet = ∅
        · subst hempty
          simpa using h.left index
        · dsimp only
          rw [if_pos (by simpa using hempty), Finset.mem_erase, h.left]
          constructor
          · rintro ⟨hne, hin, hno⟩
            exact ⟨hin, hno, fun _ ↦ hne.symm⟩
          · rintro ⟨hin, hno, hne⟩
            exact ⟨(hne hgpu).symm, hin, hno⟩
  · rw [if_pos hgpu]
    exact ⟨selection, rfl, h.skip (fun hselected ↦ hgpu hselected.1) fun hno ↦ absurd hno hgpu⟩

/-! ## The result -/

theorem indexOf_inj {agent agent' : Agent}
    (h : -2 ^ 63 ≤ agent.gpuIndex ∧ agent.gpuIndex < 2 ^ 63)
    (h' : -2 ^ 63 ≤ agent'.gpuIndex ∧ agent'.gpuIndex < 2 ^ 63)
    (heq : indexOf agent = indexOf agent') : agent.gpuIndex = agent'.gpuIndex := by
  have hmod := congrArg UInt64.toNat heq
  simp only [indexOf, UInt64.ofInt, UInt64.toNat_ofNat'] at hmod
  omega

/-- A GPU behind others with different indices has an index that none of them has. -/
theorem noGpu_of_distinct {post : List (AgentId × Agent)}
    (hdistinct : DistinctIndices (pre ++ entry :: post)) (hgpu : entry.2.type = .gpu)
    (hrange : ∀ e ∈ pre ++ entry :: post, -2 ^ 63 ≤ e.2.gpuIndex ∧ e.2.gpuIndex < 2 ^ 63) :
    NoGpu pre (indexOf entry.2) := by
  intro before hbefore hgpu' heq
  rw [DistinctIndices, List.filter_append, List.map_append, List.nodup_append] at hdistinct
  refine hdistinct.2.2 _ ?_ _ ?_ (indexOf_inj (hrange _ ?_) (hrange _ ?_) heq)
  · exact List.mem_map_of_mem (List.mem_filter.mpr ⟨hbefore, decide_eq_true hgpu'⟩)
  · exact List.mem_map_of_mem (List.mem_filter.mpr ⟨List.mem_cons_self, decide_eq_true hgpu⟩)
  · exact List.mem_append_left _ hbefore
  · exact List.mem_append_right _ List.mem_cons_self

/-- **The loop**, over any entries. -/
theorem consumed_foldlM {entries : List (AgentId × Agent)}
    (hkeyed : ∀ entry ∈ entries, entry.2.id = entry.1)
    (hrange : ∀ entry ∈ entries, -2 ^ 63 ≤ entry.2.gpuIndex ∧ entry.2.gpuIndex < 2 ^ 63)
    (hdistinct : DistinctIndices entries) (hknown : CountersKnown cfg agentCounterInfo entries) :
    ∃ selection, entries.foldlM
        (configureAgent cfg agentCounterInfo global (decide (gpuIdxSet ≠ ∅))) ⟨gpuIdxSet, []⟩
        = .ok selection
      ∧ Consumed cfg agentCounterInfo global gpuIdxSet entries selection := by
  induction entries using List.reverseRecOn with
  | nil => exact ⟨_, rfl, rfl, fun index ↦ (and_iff_left fun entry hentry ↦ nomatch hentry).symm⟩
  | append_singleton pre entry ih =>
    rw [List.forall_mem_append, List.forall_mem_singleton] at hkeyed
    have hdistinct' : DistinctIndices pre := by
      rw [DistinctIndices, List.filter_append, List.map_append] at hdistinct
      exact (List.nodup_append.mp hdistinct).1
    have hknown' : CountersKnown cfg agentCounterInfo pre :=
      hknown.imp id fun hall e he ↦ hall e (List.mem_append_left _ he)
    obtain ⟨selection, hloop, hconsumed⟩ := ih hkeyed.1
      (fun e he ↦ hrange e (List.mem_append_left _ he)) hdistinct' hknown'
    obtain ⟨selection', hround, hconsumed'⟩ := consumed_configureAgent hconsumed hkeyed.2
      (fun hgpu ↦ noGpu_of_distinct hdistinct hgpu hrange)
      fun hgpu ↦ hknown.imp id fun hall ↦
        hall entry (List.mem_append_right _ List.mem_cons_self) hgpu
    refine ⟨selection', ?_, hconsumed'⟩
    rw [List.foldlM_append, hloop]
    show (configureAgent cfg agentCounterInfo global (decide (gpuIdxSet ≠ ∅)) selection entry >>=
      fun selection ↦ .ok selection) = .ok selection'
    rw [hround]
    rfl

/-- A counter is looked for under its name. -/
theorem firstNamed_of_find? {infos : List CounterInfo} {name : String} {info : CounterInfo}
    (h : infos.find? (fun info ↦ info.name = name) = some info) : FirstNamed infos name info := by
  obtain ⟨hname, pre, post, rfl, hpre⟩ := List.find?_eq_some_iff_append.mp h
  refine ⟨pre, post, rfl, of_decide_eq_true hname, fun other hother ↦ ?_⟩
  simpa using hpre other hother

/-- **The parameters for the counters** are the right ones. -/
theorem counterParameters_ownParameters (infos : List CounterInfo)
    (attPerfCounters : List AttPerfcounter) : CounterParameters infos attPerfCounters
      (attPerfCounters.filterMap (attPerfcounterParam infos)) := by
  induction attPerfCounters with
  | nil => exact .nil
  | cons attPerfCounter attPerfCounters ih =>
    rcases hparam : attPerfcounterParam infos attPerfCounter with _ | parameter
    · rw [List.filterMap_cons_none hparam]
      have hnone := List.find?_eq_none.mp (Option.map_eq_none_iff.mp hparam)
      exact .missing (fun info hinfo ↦ by simpa using hnone info hinfo) ih
    · rw [List.filterMap_cons_some hparam]
      obtain ⟨info, hfind, rfl⟩ := Option.map_eq_some_iff.mp hparam
      exact .found (firstNamed_of_find? hfind) ih

/-- The global parameters, unless one of `perfcounter_ctrl` and the list of the counters is
missing. -/
theorem globalParameters_eq (hperf : cfg.attParamPerfCtrl ≠ 0 ↔ cfg.attParamPerfcounters ≠ []) :
    globalParameters cfg = .ok
      ([.targetCu cfg.attParamTargetCu, .simdSelect cfg.attParamSimdSelect,
        .bufferSize cfg.attParamBufferSize, .shaderEngineMask cfg.attParamShaderEngineMask,
        .serializeAll (if cfg.attSerializeAll then 1 else 0)] ++
        if cfg.attParamPerfCtrl = 0 then [] else [.perfcountersCtrl cfg.attParamPerfCtrl]) := by
  have hlist : cfg.attParamPerfcounters.isEmpty = false ↔ cfg.attParamPerfcounters ≠ [] := by
    rw [List.isEmpty_eq_false_iff]
  rw [globalParameters]
  by_cases hctrl : cfg.attParamPerfCtrl = 0
  · have hnone : ¬cfg.attParamPerfcounters.isEmpty = false := fun hne ↦
      hperf.mpr (hlist.mp hne) hctrl
    rw [if_neg fun h ↦ h.1 hctrl, if_neg fun h ↦ h.elim (fun hne ↦ hne hctrl) hnone, if_pos hctrl,
      List.append_nil]
  · rw [if_pos ⟨hctrl, hlist.mpr (hperf.mp hctrl)⟩, if_neg hctrl]

theorem rightCall_callFor {global : List Parameter} (hglobal : globalParameters cfg = .ok global)
    (hperf : cfg.attParamPerfCtrl ≠ 0 ↔ cfg.attParamPerfcounters ≠ [])
    (entry : AgentId × Agent) :
    RightCall cfg agentCounterInfo (callFor cfg agentCounterInfo global entry) := by
  rw [globalParameters_eq hperf, Except.ok.injEq] at hglobal
  refine ⟨rfl, _, counterParameters_ownParameters _ _, ?_⟩
  rw [hglobal]
  rfl

/-- **The selected GPUs are traced**, for any selected indices and any map whose GPUs have different
indices, in whatever order it is gone through. -/
theorem traces_selected (cfg : AttConfig)
    (hperf : cfg.attParamPerfCtrl ≠ 0 ↔ cfg.attParamPerfcounters ≠ [])
    (agentCounterInfo : UMap AgentId (List CounterInfo)) (gpuIdxSet : Finset UInt64)
    (agentsMap : AgentsMap) (hdistinct : DistinctIndices agentsMap.entries)
    (hknown : CountersKnown cfg agentCounterInfo agentsMap.entries) :
    ∃ selection, configureThreadTrace cfg agentCounterInfo gpuIdxSet agentsMap = .ok selection
      ∧ TracesSelected cfg agentCounterInfo gpuIdxSet agentsMap selection := by
  obtain ⟨global, hglobal⟩ : ∃ global, globalParameters cfg = .ok global :=
    ⟨_, globalParameters_eq hperf⟩
  obtain ⟨selection, hloop, hconsumed⟩ := @consumed_foldlM cfg agentCounterInfo global gpuIdxSet
    agentsMap.entries agentsMap.keyed agentsMap.inRange hdistinct hknown
  have hagents : selection.configured.map Configured.agent
      = (agentsMap.entries.filter (Selected gpuIdxSet ·)).map Prod.fst := by
    rw [hconsumed.configured, List.map_map]
    rfl
  refine ⟨selection, ?_, hagents, fun call hcall ↦ ?_, ?_, hconsumed.left⟩
  · rw [configureThreadTrace, hglobal]
    exact hloop
  · rw [hconsumed.configured] at hcall
    obtain ⟨entry, -, rfl⟩ := List.mem_map.mp hcall
    exact rightCall_callFor hglobal hperf entry
  · rw [hagents]
    exact agentsMap.nodup.sublist (List.filter_sublist.map Prod.fst)

/-- Two GPUs and a CPU. -/
def threeAgents : AgentsMap where
  entries := [(11, ⟨11, .gpu, 1⟩), (9, ⟨9, .cpu, -1⟩), (10, ⟨10, .gpu, 0⟩)]
  keyed := by decide
  nodup := by decide
  inRange := by decide

/-- A configuration with one counter. -/
def wavesOnly : AttConfig := ⟨1, 3, 4096, 1, 1, [⟨"SQ_WAVES", 15⟩], false, 0⟩

/-- The counters of each GPU. -/
def twoCounters : UMap AgentId (List CounterInfo) :=
  fun _ ↦ some [⟨0, "GRBM_COUNT"⟩, ⟨1, "SQ_WAVES"⟩]

/-- One of the GPUs is selected, and one that there is not. -/
theorem traces_selected_one :
    ∃ selection, configureThreadTrace wavesOnly twoCounters {1, 4} threeAgents = .ok selection
      ∧ TracesSelected wavesOnly twoCounters {1, 4} threeAgents selection
      ∧ selection.gpuIdxSet = {4}
      ∧ selection.configured = [⟨.dispatch, 11, [.targetCu 1, .simdSelect 3, .bufferSize 4096,
          .shaderEngineMask 1, .serializeAll 0, .perfcountersCtrl 1, .perfcounter 1 15]⟩] := by
  obtain ⟨selection, hresult, htraces⟩ := traces_selected wavesOnly
    (iff_of_true (by decide) (by decide)) twoCounters {1, 4} threeAgents (by decide)
    (.inr fun _ _ _ ↦ rfl)
  refine ⟨selection, hresult, htraces, ?_⟩
  have hrun : configureThreadTrace wavesOnly twoCounters {1, 4} threeAgents
      = .ok ⟨{4}, [⟨.dispatch, 11, [.targetCu 1, .simdSelect 3, .bufferSize 4096,
          .shaderEngineMask 1, .serializeAll 0, .perfcountersCtrl 1, .perfcounter 1 15]⟩]⟩ := by
    rfl
  rw [hrun, Except.ok.injEq] at hresult
  rw [← hresult]
  exact ⟨rfl, rfl⟩

end Version3.ThreadTrace.Agents
