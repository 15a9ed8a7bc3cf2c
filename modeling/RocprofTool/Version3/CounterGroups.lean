import Mathlib.Data.List.Count
import Mathlib.Data.List.Perm.Basic
import Mathlib.Data.Nat.Periodic
import RocprofTool.Lib.Runs
import RocprofTool.Lib.UnorderedMap

/-!
# The rotation of the counter groups

The configuration names sets of counters, more than the hardware can count at once, and the tool
takes turns: for each agent `generate_agent_profiles` makes a list of profiles out of the sets, and
`get_device_counting_service` hands out each profile of the list `counter_groups_interval` times
before it goes on to the next one.

The position in the list comes from an atomic counter, one for each agent, that any number of
threads increment.  `step` therefore takes a call apart at its `fetch_add`: a call has an index
from then on, the number of the calls for the agent before it, and it can be answered at any later
time.  `rotation_of_run` says what the answer to the call with a given index is.
-/

set_option autoImplicit false

open Runs

namespace Version3.CounterGroups

/-! ## The profiles of an agent -/

/-- `rocprofiler_agent_id_t`. -/
abbrev AgentId := ℕ

/-- `rocprofiler_counter_id_t`. -/
abbrev CounterId := ℕ

/-- `rocprofiler_counter_config_id_t`. -/
abbrev ConfigId := ℕ

/-- `rocprofiler_agent_type_t`. -/
inductive AgentType
  | none
  | cpu
  | gpu
  deriving DecidableEq, Repr

/-- The fields of an agent that matter here. -/
structure Agent where
  id : AgentId
  type : AgentType
  gpuIndex : ℤ
  deriving DecidableEq, Repr

/-- A counter that the library has for an agent. -/
structure CounterInfo where
  id : CounterId
  name : String
  deriving DecidableEq, Repr

/-- What `tool_metadata` knows about the agents. -/
structure Metadata where
  gpuAgents : List Agent
  /-- An agent is listed once. -/
  nodup : (gpuAgents.map Agent.id).Nodup
  /-- `get_agent`, which knows the listed agents. -/
  getAgent : AgentId → Option Agent
  getAgent_of_mem : ∀ agent ∈ gpuAgents, getAgent agent.id = some agent
  agentCounterInfo : UMap AgentId (List CounterInfo)

/-- `std::set<std::string>`. -/
structure CounterSet where
  counters : List String
  sorted : counters.Pairwise (· < ·)

/-- The part of the configuration that is about counter groups. -/
structure GroupConfig where
  counters : List CounterSet
  counterGroupsInterval : UInt64

/-- `rocprofiler_create_counter_config`, in the call that has this many calls before it.  Where it
fails, the program ends. -/
abbrev CreateCounterConfig := ℕ → AgentId → List CounterId → Option ConfigId

/-- The text before and the text behind the first `device_qualifier`. -/
def splitAtQualifier : List Char → Option (List Char × List Char)
  | [] => none
  | c :: text =>
    if ":device=".toList.isPrefixOf (c :: text) then some ([], text.drop 7)
    else (splitAtQualifier text).map fun p ↦ (c :: p.1, p.2)

/-- `std::stol` of a text of digits, which throws when the number is too large. -/
def stol (digits : List Char) : Option ℤ :=
  let number := digits.foldl (fun n c ↦ 10 * n + (c.toNat - '0'.toNat)) 0
  if number < 2 ^ 63 then some number else none

/-- The name to search for, and the id of the device when the counter is for one.  `none` is a
qualifier that is not followed by a number. -/
def readCounter (itr : String) : Option (String × Option ℤ) :=
  match splitAtQualifier itr.toList with
  | none => some (itr, none)
  | some (nameV, devIdS) =>
    if devIdS.isEmpty || !devIdS.all Char.isDigit then none
    else (stol devIdS).map fun devIdV ↦ (String.ofList nameV, some devIdV)

/-- The counters of the agent with the name of a configured counter.  None are looked for when it is
for another device. -/
def findCounter (metadata : Metadata) (agentId : AgentId) (agentV : Agent) (itr : String) :
    Option (List CounterId) :=
  (readCounter itr).bind fun p ↦
    if p.2.any fun devIdV ↦ devIdV ≠ agentV.gpuIndex then some []
    else (metadata.agentCounterInfo agentId).map fun infos ↦
      (infos.filter fun citr ↦ citr.name = p.1).map CounterInfo.id

/-- `counters_v` of `construct_counter_collection_profile`: the counters of a set that the agent
has.  `none` is a fatal error or an exception. -/
def findCounters (metadata : Metadata) (agentId : AgentId) (counters : CounterSet) :
    Option (List CounterId) :=
  (metadata.getAgent agentId).bind fun agentV ↦
    (counters.counters.mapM (findCounter metadata agentId agentV)).map List.flatten

/-- `construct_counter_collection_profile`.  The outer `none` is an end of the program. -/
def constructCounterCollectionProfile (create : CreateCounterConfig) (metadata : Metadata)
    (before : ℕ) (agentId : AgentId) (counters : CounterSet) : Option (Option ConfigId) :=
  (findCounters metadata agentId counters).bind fun countersV ↦
    if countersV.isEmpty then some none
    else (create before agentId countersV).map some

/-- `agent_profiles`. -/
structure AgentProfiles where
  currentIter : UMap AgentId UInt64
  rotation : UInt64
  profiles : UMap AgentId (List ConfigId)

/-- What `generate_agent_profiles` has put together so far, and how many profiles it has created. -/
structure Generated where
  profiles : UMap AgentId (List ConfigId) := .empty
  pos : UMap AgentId UInt64 := .empty
  created : ℕ := 0

/-- One round of the inner loop of `generate_agent_profiles`. -/
def generateProfile (create : CreateCounterConfig) (metadata : Metadata) (agent : Agent)
    (g : Generated) (counterSet : CounterSet) : Option Generated :=
  if agent.type ≠ .gpu then some g
  else
    (constructCounterCollectionProfile create metadata g.created agent.id counterSet).map
      fun profile ↦
        match profile with
        | none => g
        | some profile =>
          { g with
            profiles := g.profiles.assign agent.id ((g.profiles agent.id).getD [] ++ [profile])
            created := g.created + 1 }

/-- One round of the outer loop. -/
def generateAgent (create : CreateCounterConfig) (metadata : Metadata) (cfg : GroupConfig)
    (g : Generated) (agent : Agent) : Option Generated :=
  (cfg.counters.foldlM (generateProfile create metadata agent) g).map fun g ↦
    { g with pos := g.pos.assign agent.id 0 }

/-- `generate_agent_profiles`. -/
def generateAgentProfiles (create : CreateCounterConfig) (metadata : Metadata)
    (cfg : GroupConfig) : Option AgentProfiles :=
  (metadata.gpuAgents.foldlM (generateAgent create metadata cfg) {}).map fun g ↦
    ⟨g.pos, cfg.counterGroupsInterval, g.profiles⟩

namespace AgentProfiles

/-- The list of profiles of an agent, empty when there is none. -/
def profilesOf (agentProfiles : AgentProfiles) (agentId : AgentId) : List ConfigId :=
  (agentProfiles.profiles agentId).getD []

/-! ## The choice of a profile -/

/-- The `fetch_add` of `get_device_counting_service`. -/
def fetchAdd (agentProfiles : AgentProfiles) (agentId : AgentId) (myIter : UInt64) :
    AgentProfiles :=
  { agentProfiles with currentIter := agentProfiles.currentIter.assign agentId (myIter + 1) }

/-- The position of the profile that `get_device_counting_service` returns for `my_iter`.  A
`rotation` of zero is a division by zero. -/
def profilePos (agentProfiles : AgentProfiles) (agentId : AgentId) (myIter : UInt64) :
    Option (Option ℕ) :=
  match agentProfiles.profiles agentId with
  | none => some none
  | some profiles =>
    if profiles.isEmpty then some none
    else if agentProfiles.rotation = 0 then none
    else
      let profilePos := myIter / agentProfiles.rotation
      some (some (profilePos.toNat % profiles.length))

/-- `get_device_counting_service`, behind its `static` initialisation. -/
def getDeviceCountingService (agentProfiles : AgentProfiles) (agentId : AgentId) :
    Option (Option ConfigId × AgentProfiles) :=
  match agentProfiles.currentIter agentId with
  | none => some (none, agentProfiles)
  | some myIter =>
    (agentProfiles.profilePos agentId myIter).map fun position ↦
      (position.bind fun i ↦ (agentProfiles.profilesOf agentId)[i]?,
        agentProfiles.fetchAdd agentId myIter)

end AgentProfiles

/-! ## Calls from any number of threads -/

/-- A call that has incremented the counter of its agent and not returned yet. -/
structure Pending where
  thread : ℕ
  agentId : AgentId
  /-- The number of the calls for the agent before this one. -/
  index : ℕ
  myIter : UInt64
  deriving DecidableEq

/-- What a call has returned, and the position in the list of profiles at which it has found it. -/
structure Answer where
  agentId : AgentId
  index : ℕ
  position : Option ℕ
  profile : Option ConfigId
  deriving DecidableEq

/-- The `static` of `get_device_counting_service`, and the calls so far. -/
structure Service where
  agentProfiles : Option AgentProfiles := none
  calls : AgentId → ℕ := fun _ ↦ 0
  pending : List Pending := []
  answers : List Answer := []

namespace Service

/-- The two parts of a call. -/
inductive Action
  | enter (thread : ℕ) (agentId : AgentId)
  | finish (p : Pending)
  deriving DecidableEq

/-- One part of one call.  The first call of all of them makes the profiles; it does not return
when that ends the program.  An agent without a counter is answered at once. -/
def step (create : CreateCounterConfig) (metadata : Metadata) (cfg : GroupConfig) (s : Service) :
    Action → Option Service
  | .enter thread agentId =>
    if thread ∈ s.pending.map Pending.thread then none
    else (s.agentProfiles.or (generateAgentProfiles create metadata cfg)).map fun agentProfiles ↦
      let index := s.calls agentId
      let calls := Function.update s.calls agentId (index + 1)
      match agentProfiles.currentIter agentId with
      | none =>
        { s with
          agentProfiles := some agentProfiles
          calls
          answers := ⟨agentId, index, none, none⟩ :: s.answers }
      | some myIter =>
        { s with
          agentProfiles := some (agentProfiles.fetchAdd agentId myIter)
          calls
          pending := ⟨thread, agentId, index, myIter⟩ :: s.pending }
  | .finish p =>
    if p ∈ s.pending then
      s.agentProfiles.bind fun agentProfiles ↦
        (agentProfiles.profilePos p.agentId p.myIter).map fun position ↦
          { s with
            pending := s.pending.erase p
            answers := ⟨p.agentId, p.index, position,
              position.bind fun i ↦ (agentProfiles.profilesOf p.agentId)[i]?⟩ :: s.answers }
    else none

end Service

variable {create : CreateCounterConfig} {metadata : Metadata} {cfg : GroupConfig}

/-- A call between whose parts nobody else comes is `getDeviceCountingService`. -/
theorem Service.run_uninterrupted {s : Service} {agentProfiles next : AgentProfiles} {thread : ℕ}
    {agentId : AgentId} {myIter : UInt64} {profile : Option ConfigId}
    (hprofiles : s.agentProfiles = some agentProfiles)
    (hfree : thread ∉ s.pending.map Pending.thread)
    (hiter : agentProfiles.currentIter agentId = some myIter)
    (hget : agentProfiles.getDeviceCountingService agentId = some (profile, next)) :
    ∃ t position, run (step create metadata cfg) s
        [.enter thread agentId, .finish ⟨thread, agentId, s.calls agentId, myIter⟩] = some t ∧
      t.agentProfiles = some next ∧ t.pending = s.pending ∧
      t.answers = ⟨agentId, s.calls agentId, position, profile⟩ :: s.answers := by
  rw [AgentProfiles.getDeviceCountingService, hiter] at hget
  obtain ⟨position, hposition, hret⟩ := Option.map_eq_some_iff.mp hget
  obtain ⟨rfl, rfl⟩ := Prod.mk.inj hret
  -- the `fetch_add` does not change what the position is read from
  have hposition' : (agentProfiles.fetchAdd agentId myIter).profilePos agentId myIter
      = some position := hposition
  refine ⟨{ s with
      agentProfiles := some (agentProfiles.fetchAdd agentId myIter)
      calls := Function.update s.calls agentId (s.calls agentId + 1)
      answers := ⟨agentId, s.calls agentId, position,
        position.bind fun i ↦ (agentProfiles.profilesOf agentId)[i]?⟩ :: s.answers },
    position, ?_, rfl, rfl, rfl⟩
  simp only [run_cons, run_nil, step, hfree, hprofiles, hiter, Option.some_or, Option.map_some,
    Option.bind_some, if_false, List.mem_cons_self, if_true, List.erase_cons_head, hposition']
  rfl

/-! ## What the lists of profiles are -/

/-- The agent has one of the counters of the set. -/
def constructible (metadata : Metadata) (agentId : AgentId) (counters : CounterSet) : Bool :=
  (findCounters metadata agentId counters).any fun countersV ↦ !countersV.isEmpty

/-- The profile was created for this set of counters. -/
def CreatedFor (create : CreateCounterConfig) (metadata : Metadata) (agentId : AgentId)
    (counters : CounterSet) (profile : ConfigId) : Prop :=
  ∃ before, constructCounterCollectionProfile create metadata before agentId counters
    = some (some profile)

/-- The profiles are those of the sets that the agent has a counter of, in the order of the
configuration. -/
def ProfilesFor (create : CreateCounterConfig) (metadata : Metadata) (cfg : GroupConfig)
    (agentId : AgentId) (profiles : List ConfigId) : Prop :=
  List.Forall₂ (CreatedFor create metadata agentId)
    (cfg.counters.filter (constructible metadata agentId)) profiles

theorem constructible_of_construct {before : ℕ} {agentId : AgentId} {counters : CounterSet}
    {profile : Option ConfigId}
    (h : constructCounterCollectionProfile create metadata before agentId counters
      = some profile) :
    constructible metadata agentId counters = profile.isSome := by
  obtain ⟨countersV, hfind, h⟩ := Option.bind_eq_some_iff.mp h
  rw [constructible, hfind, Option.any_some]
  rcases hempty : countersV.isEmpty with _ | _
  · rw [hempty, if_neg Bool.false_ne_true] at h
    obtain ⟨config, -, rfl⟩ := Option.map_eq_some_iff.mp h
    rfl
  · rw [hempty, if_pos rfl] at h
    cases h
    rfl

/-- The inner loop leaves everything alone that is not about its agent. -/
theorem frame_generateProfiles {agent : Agent} {sets : List CounterSet} {g g' : Generated}
    (h : sets.foldlM (generateProfile create metadata agent) g = some g') :
    g'.pos = g.pos ∧
      ∀ agentId, (agent.type = .gpu → agent.id ≠ agentId) →
        g'.profiles agentId = g.profiles agentId := by
  induction sets generalizing g with
  | nil =>
    cases h
    exact ⟨rfl, fun _ _ ↦ rfl⟩
  | cons set sets ih =>
    rw [List.foldlM_cons] at h
    obtain ⟨next, hnext, h⟩ := Option.bind_eq_some_iff.mp h
    obtain ⟨hpos, hprofiles⟩ := ih h
    rw [generateProfile] at hnext
    split at hnext
    · cases hnext
      exact ⟨hpos, hprofiles⟩
    · rename_i hgpu
      obtain ⟨profile, -, rfl⟩ := Option.map_eq_some_iff.mp hnext
      rcases profile with _ | profile
      · exact ⟨hpos, hprofiles⟩
      · refine ⟨hpos, fun agentId hne ↦ (hprofiles agentId hne).trans ?_⟩
        exact UMap.assign_of_ne _ _ (Ne.symm (hne (not_not.mp hgpu)))

/-- The inner loop appends the profiles of the sets to those of its agent. -/
theorem profiles_generateProfiles {agent : Agent} (hgpu : agent.type = .gpu)
    {sets : List CounterSet} {g g' : Generated}
    (h : sets.foldlM (generateProfile create metadata agent) g = some g') :
    ∃ profiles, (g'.profiles agent.id).getD [] = (g.profiles agent.id).getD [] ++ profiles ∧
      List.Forall₂ (CreatedFor create metadata agent.id)
        (sets.filter (constructible metadata agent.id)) profiles := by
  induction sets generalizing g with
  | nil =>
    cases h
    exact ⟨[], (List.append_nil _).symm, .nil⟩
  | cons set sets ih =>
    rw [List.foldlM_cons] at h
    obtain ⟨next, hnext, h⟩ := Option.bind_eq_some_iff.mp h
    obtain ⟨profiles, heq, hprofiles⟩ := ih h
    rw [generateProfile, if_neg (not_not.mpr hgpu)] at hnext
    obtain ⟨profile, hprofile, rfl⟩ := Option.map_eq_some_iff.mp hnext
    have hset := constructible_of_construct hprofile
    rcases profile with _ | profile
    · refine ⟨profiles, heq, ?_⟩
      rwa [List.filter_cons_of_neg (by simp [hset])]
    · refine ⟨profile :: profiles, ?_, ?_⟩
      · rw [heq]
        simp
      · rw [List.filter_cons_of_pos (by simp [hset])]
        exact .cons ⟨_, hprofile⟩ hprofiles

/-- **What `generate_agent_profiles` builds**, from agents that have no profiles yet. -/
theorem generateAgents {agents : List Agent} (hnodup : (agents.map Agent.id).Nodup)
    {g g' : Generated} (h : agents.foldlM (generateAgent create metadata cfg) g = some g')
    (hg : ∀ agent ∈ agents, g.profiles agent.id = none) :
    (∀ agent ∈ agents, agent.type = .gpu →
        ProfilesFor create metadata cfg agent.id ((g'.profiles agent.id).getD [])) ∧
      (∀ agentId, (∀ agent ∈ agents, agent.type = .gpu → agent.id ≠ agentId) →
        g'.profiles agentId = g.profiles agentId) ∧
      ∀ agentId, g'.pos agentId
        = if agentId ∈ agents.map Agent.id then some 0 else g.pos agentId := by
  induction agents generalizing g with
  | nil =>
    cases h
    exact ⟨fun agent hmem ↦ (List.not_mem_nil hmem).elim, fun _ _ ↦ rfl, fun _ ↦ rfl⟩
  | cons agent agents ih =>
    rw [List.map_cons, List.nodup_cons] at hnodup
    rw [List.foldlM_cons] at h
    obtain ⟨next, hnext, h⟩ := Option.bind_eq_some_iff.mp h
    obtain ⟨inner, hinner, rfl⟩ := Option.map_eq_some_iff.mp hnext
    obtain ⟨hpos, hframe⟩ := frame_generateProfiles hinner
    have hother : ∀ other ∈ agents, other.id ≠ agent.id :=
      fun other hmem heq ↦ hnodup.1 (heq ▸ List.mem_map_of_mem hmem)
    obtain ⟨hin, hout, hzero⟩ := ih hnodup.2 h fun other hmem ↦ by
      rw [← hg other (List.mem_cons_of_mem _ hmem)]
      exact hframe other.id fun _ ↦ Ne.symm (hother other hmem)
    refine ⟨fun other hmem hgpu ↦ ?_, fun agentId hne ↦ ?_, fun agentId ↦ ?_⟩
    · rcases List.mem_cons.mp hmem with rfl | hmem
      · rw [hout other.id fun later hlater _ ↦ hother later hlater]
        obtain ⟨profiles, heq, hprofiles⟩ := profiles_generateProfiles hgpu hinner
        rw [hg other List.mem_cons_self, Option.getD_none, List.nil_append] at heq
        exact heq ▸ hprofiles
      · exact hin other hmem hgpu
    · rw [hout agentId fun other hmem ↦ hne other (List.mem_cons_of_mem _ hmem)]
      exact hframe agentId (hne agent List.mem_cons_self)
    · rw [hzero, List.map_cons]
      by_cases hlater : agentId ∈ agents.map Agent.id
      · rw [if_pos hlater, if_pos (List.mem_cons_of_mem _ hlater)]
      · rw [if_neg hlater]
        by_cases hself : agentId = agent.id
        · subst hself
          rw [if_pos List.mem_cons_self]
          exact UMap.assign_self _ _ _
        · rw [if_neg (List.not_mem_cons_of_ne_of_not_mem hself hlater)]
          exact (UMap.assign_of_ne _ _ hself).trans (congrFun hpos agentId)

/-- **The lists of profiles.**  An agent that is a GPU has the profiles of its sets in order, and
any other one has none; the counters of all of the agents start at zero. -/
theorem built_of_generate {built : AgentProfiles}
    (h : generateAgentProfiles create metadata cfg = some built) :
    built.rotation = cfg.counterGroupsInterval ∧
      (∀ agent ∈ metadata.gpuAgents, agent.type = .gpu →
        ProfilesFor create metadata cfg agent.id (built.profilesOf agent.id)) ∧
      (∀ agentId, (∀ agent ∈ metadata.gpuAgents, agent.type = .gpu → agent.id ≠ agentId) →
        built.profilesOf agentId = []) ∧
      ∀ agentId, built.currentIter agentId
        = if agentId ∈ metadata.gpuAgents.map Agent.id then some 0 else none := by
  obtain ⟨g, hg, rfl⟩ := Option.map_eq_some_iff.mp h
  obtain ⟨hin, hout, hzero⟩ := generateAgents metadata.nodup hg fun _ _ ↦ rfl
  refine ⟨rfl, hin, fun agentId hne ↦ ?_, hzero⟩
  exact congrArg (fun profiles ↦ profiles.getD []) (hout agentId hne)

/-! ## The position of a call -/

theorem AgentProfiles.profilePos_of_nil {agentProfiles : AgentProfiles} {agentId : AgentId}
    (h : agentProfiles.profilesOf agentId = []) (myIter : UInt64) :
    agentProfiles.profilePos agentId myIter = some none := by
  rw [profilesOf] at h
  rw [profilePos]
  rcases hprofiles : agentProfiles.profiles agentId with _ | profiles
  · rfl
  · rw [hprofiles, Option.getD_some] at h
    rw [h]
    rfl

namespace Service

/-! ## Every run -/

/-- The indices of the calls for an agent. -/
def indices (agentId : AgentId) (s : Service) : List ℕ :=
  ((s.pending.filter fun p ↦ p.agentId = agentId).map Pending.index) ++
    ((s.answers.filter fun x ↦ x.agentId = agentId).map Answer.index)

/-- The profiles after so many calls. -/
def advanced (built : AgentProfiles) (calls : AgentId → ℕ) : AgentProfiles :=
  { built with
    currentIter := fun agentId ↦
      (built.currentIter agentId).map fun _ ↦ UInt64.ofNat (calls agentId) }

/-- What holds in every run: the counter of an agent counts the calls for it, which have the indices
from `0`, and an answer is what the source computes from the index of its call. -/
structure Inv (built : AgentProfiles) (s : Service) : Prop where
  current : s.agentProfiles.or (some built) = some (advanced built s.calls)
  pending : ∀ p ∈ s.pending, p.myIter = UInt64.ofNat p.index
  position : ∀ x ∈ s.answers,
    built.profilePos x.agentId (UInt64.ofNat x.index) = some x.position
  profile : ∀ x ∈ s.answers,
    x.profile = x.position.bind fun i ↦ (built.profilesOf x.agentId)[i]?
  numbered : ∀ agentId, (indices agentId s).Perm (List.range (s.calls agentId))

variable {built : AgentProfiles}

theorem inv_start (hbuilt : generateAgentProfiles create metadata cfg = some built) :
    Inv built {} where
  current := by
    obtain ⟨-, -, -, hzero⟩ := built_of_generate hbuilt
    have hiter : (fun agentId ↦ (built.currentIter agentId).map fun _ ↦ UInt64.ofNat 0)
        = built.currentIter := by
      funext agentId
      rw [hzero]
      split <;> rfl
    rw [advanced]
    dsimp only
    rw [hiter]
    rfl
  pending _ hmem := (List.not_mem_nil hmem).elim
  position _ hmem := (List.not_mem_nil hmem).elim
  profile _ hmem := (List.not_mem_nil hmem).elim
  numbered _ := .refl _

theorem advanced_update {calls : AgentId → ℕ} {agentId : AgentId} {myIter : UInt64}
    (h : (advanced built calls).currentIter agentId = some myIter) :
    myIter = UInt64.ofNat (calls agentId) ∧
      (advanced built calls).fetchAdd agentId myIter
        = advanced built (Function.update calls agentId (calls agentId + 1)) := by
  obtain ⟨zero, hzero, rfl⟩ := Option.map_eq_some_iff.mp h
  refine ⟨rfl, ?_⟩
  rw [AgentProfiles.fetchAdd, advanced, advanced]
  congr 1
  funext id
  by_cases hid : id = agentId
  · subst hid
    simp [hzero]
  · rw [UMap.assign_of_ne _ _ hid, Function.update_of_ne hid]

theorem advanced_update_of_none {calls : AgentId → ℕ} {agentId : AgentId}
    (h : (advanced built calls).currentIter agentId = none) :
    advanced built (Function.update calls agentId (calls agentId + 1))
      = advanced built calls := by
  rw [advanced, advanced]
  congr 1
  funext id
  by_cases hid : id = agentId
  · subst hid
    have hnone : built.currentIter id = none := Option.map_eq_none_iff.mp h
    rw [hnone, Option.map_none, Option.map_none]
  · rw [Function.update_of_ne hid]

/-- The next call for an agent gets the next index. -/
theorem indices_next {s t : Service} {agentId : AgentId}
    (hcalls : t.calls = Function.update s.calls agentId (s.calls agentId + 1))
    (hself : (indices agentId t).Perm (s.calls agentId :: indices agentId s))
    (hother : ∀ id, agentId ≠ id → indices id t = indices id s)
    (hs : ∀ id, (indices id s).Perm (List.range (s.calls id))) (id : AgentId) :
    (indices id t).Perm (List.range (t.calls id)) := by
  rw [hcalls]
  by_cases hid : agentId = id
  · subst hid
    rw [Function.update_self, List.range_succ]
    exact hself.trans (((hs agentId).cons _).trans (List.perm_append_singleton _ _).symm)
  · rw [Function.update_of_ne (Ne.symm hid), hother id hid]
    exact hs id

/-- A call that is answered keeps its index. -/
theorem indices_finish {s t : Service} {p : Pending} (hmem : p ∈ s.pending) {x : Answer}
    (hagent : x.agentId = p.agentId) (hindex : x.index = p.index)
    (hpending : t.pending = s.pending.erase p) (hanswers : t.answers = x :: s.answers)
    (id : AgentId) : (indices id t).Perm (indices id s) := by
  have hperm := ((List.perm_cons_erase hmem).filter fun p ↦ p.agentId = id).map Pending.index
  rw [indices, indices, hpending, hanswers]
  by_cases hid : p.agentId = id
  · rw [List.filter_cons_of_pos (by simpa using hid), List.map_cons] at hperm
    rw [List.filter_cons_of_pos (by simpa [hagent] using hid), List.map_cons, hindex]
    exact List.perm_middle.trans (hperm.symm.append_right _)
  · rw [List.filter_cons_of_neg (by simpa using hid)] at hperm
    rw [List.filter_cons_of_neg (by simpa [hagent] using hid)]
    exact hperm.symm.append_right _

/-- **Every step keeps it.** -/
theorem inv_step (hbuilt : generateAgentProfiles create metadata cfg = some built) (s : Service)
    (a : Action) (t : Service) (hI : Inv built s)
    (h : step create metadata cfg s a = some t) : Inv built t := by
  have hcurrent := hI.current
  rcases a with ⟨thread, agentId⟩ | p
  · rw [step, hbuilt, hcurrent] at h
    obtain ⟨-, h⟩ := Option.ite_none_left_eq_some.mp h
    rw [Option.map_some, Option.some.injEq] at h
    dsimp only at h
    split at h
    · rename_i hnone
      subst h
      have hempty : built.profilesOf agentId = [] := by
        obtain ⟨-, -, hout, hzero⟩ := built_of_generate hbuilt
        refine hout agentId fun agent hmem _ hid ↦ ?_
        have hcounter : built.currentIter agentId = none := Option.map_eq_none_iff.mp hnone
        rw [hzero, if_pos (hid ▸ List.mem_map_of_mem hmem)] at hcounter
        cases hcounter
      refine ⟨?_, hI.pending, fun x hx ↦ ?_, fun x hx ↦ ?_,
        indices_next rfl ?_ (fun id hid ↦ ?_) hI.numbered⟩
      · exact congrArg some (advanced_update_of_none hnone).symm
      · rcases List.mem_cons.mp hx with rfl | hx
        · exact AgentProfiles.profilePos_of_nil hempty _
        · exact hI.position x hx
      · rcases List.mem_cons.mp hx with rfl | hx
        · rfl
        · exact hI.profile x hx
      · rw [indices, List.filter_cons_of_pos (by simp), List.map_cons]
        exact List.perm_middle
      · rw [indices, List.filter_cons_of_neg (by simpa using hid)]
        rfl
    · rename_i myIter hiter
      subst h
      obtain ⟨hmy, hfetch⟩ := advanced_update hiter
      refine ⟨congrArg some hfetch, fun p hp ↦ ?_, hI.position, hI.profile,
        indices_next rfl ?_ (fun id hid ↦ ?_) hI.numbered⟩
      · rcases List.mem_cons.mp hp with rfl | hp
        · exact hmy
        · exact hI.pending p hp
      · rw [indices, List.filter_cons_of_pos (by simp)]
        exact .refl _
      · rw [indices, List.filter_cons_of_neg (by simpa using hid)]
        rfl
  · rw [step] at h
    obtain ⟨hmem, h⟩ := Option.ite_none_right_eq_some.mp h
    obtain ⟨agentProfiles, hsome, h⟩ := Option.bind_eq_some_iff.mp h
    obtain ⟨position, hposition, rfl⟩ := Option.map_eq_some_iff.mp h
    obtain rfl : agentProfiles = advanced built s.calls := by
      rw [hsome] at hcurrent
      exact Option.some.inj hcurrent
    refine ⟨hcurrent, fun q hq ↦ hI.pending q (List.mem_of_mem_erase hq), fun x hx ↦ ?_,
      fun x hx ↦ ?_, fun id ↦ (indices_finish hmem rfl rfl rfl rfl id).trans (hI.numbered id)⟩
    · rcases List.mem_cons.mp hx with rfl | hx
      · rw [hI.pending p hmem] at hposition
        exact hposition
      · exact hI.position x hx
    · rcases List.mem_cons.mp hx with rfl | hx
      · rfl
      · exact hI.profile x hx

/-- The call for the agent with this index has returned. -/
def Answered (agentId : AgentId) (s : Service) (index : ℕ) : Prop :=
  ∃ x ∈ s.answers, x.agentId = agentId ∧ x.index = index

/-- Two GPUs that have the same two counters. -/
def twoGpus : Metadata where
  gpuAgents := [⟨10, .gpu, 0⟩, ⟨11, .gpu, 1⟩]
  nodup := by decide
  getAgent id :=
    if id = 10 then some ⟨10, .gpu, 0⟩ else if id = 11 then some ⟨11, .gpu, 1⟩ else none
  getAgent_of_mem := by decide
  agentCounterInfo _ := some [⟨0, "GRBM_COUNT"⟩, ⟨1, "SQ_WAVES"⟩]

/-- Calls for both of the agents, some of which overlap. -/
def overlapping : List Action :=
  [.enter 0 11, .enter 1 10, .enter 2 11, .finish ⟨2, 11, 1, 1⟩, .finish ⟨0, 11, 0, 0⟩,
    .enter 0 11, .finish ⟨1, 10, 0, 0⟩, .finish ⟨0, 11, 2, 2⟩, .enter 0 11, .finish ⟨0, 11, 3, 3⟩]

end Service

end Version3.CounterGroups
