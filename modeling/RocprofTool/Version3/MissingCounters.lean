import RocprofTool.Version3.CounterSelection

/-!
# The warning about counters that are missing

`construct_counter_collection_profile` warns when it has not found all the counters it expects on an
agent.  It does not look at the list of those that are missing: it compares two numbers, of which
one begins as the size of the set and goes down by one for each text that is for another device, and
the other is the number of ids that have been found.

On an agent on which no two counters have the same name these numbers differ exactly when a text is
missing.  `Counted` is what the loop keeps: the texts that it has gone through are skipped, found or
missing, and the first kind is what the one number counts, the second kind what the other counts
(`counted_foldlM`).  So the warning is the one that `expectedWarning` asks for
(`warning_eq_expectedWarning`), and the number that goes down stays at zero or above.
-/

set_option autoImplicit false

open Version3.CounterGroups

namespace Version3.CounterSelection

/-! ## The property -/

/-- The text is for the agents with this GPU index: for all the agents, or for this one. -/
def Applies (gpuIndex : ℤ) (itr : String) : Prop :=
  ¬deviceQualifier <:+: itr.toList ∨
    ∃ name, ∃ number : ℕ, QualifiedBy itr name number ∧ (number : ℤ) = gpuIndex

/-- The text is for the agent, and names none of its counters. -/
def Missing (gpuIndex : ℤ) (infos : List CounterInfo) (itr : String) : Prop :=
  Applies gpuIndex itr ∧ ∀ info ∈ infos, ¬Names gpuIndex itr info.name

open Classical in
/-- The warning that there is to be: one with the texts that are missing, when there are any. -/
noncomputable def expectedWarning (agentV : Agent) (infos : List CounterInfo)
    (counters : CounterSet) : Option Warning :=
  if ∃ itr ∈ counters.counters, Missing agentV.gpuIndex infos itr then
    some
      { agentV
        requested := counters.counters
        found := counters.counters.filter fun itr ↦
          Applies agentV.gpuIndex itr ∧ ¬Missing agentV.gpuIndex infos itr
        missing := counters.counters.filter fun itr ↦ Missing agentV.gpuIndex infos itr }
  else none

/-! ## What becomes of a text -/

variable {metadata : Metadata} {agentId : AgentId} {agentV : Agent} {infos : List CounterInfo}
  {counters : CounterSet} {itr nameV : String} {texts : List String} {total : ℤ} {search : Search}

/-- The text is for another agent. -/
def isSkipped (agentV : Agent) (itr : String) : Bool := (requested agentV itr).isNone

/-- The text is looked up, and there is a counter. -/
def isFound (agentV : Agent) (infos : List CounterInfo) (itr : String) : Bool :=
  (requested agentV itr).any fun nameV ↦ nameV ∈ infos.map CounterInfo.name

/-- The text is looked up, and there is no counter. -/
def isMissing (agentV : Agent) (infos : List CounterInfo) (itr : String) : Bool :=
  (requested agentV itr).any fun nameV ↦ nameV ∉ infos.map CounterInfo.name

/-- A text is of one kind. -/
theorem kind_cases (agentV : Agent) (infos : List CounterInfo) (itr : String) :
    (requested agentV itr = none ∧ isSkipped agentV itr = true
        ∧ isFound agentV infos itr = false ∧ isMissing agentV infos itr = false)
      ∨ ∃ nameV, requested agentV itr = some nameV ∧ isSkipped agentV itr = false
        ∧ (nameV ∈ infos.map CounterInfo.name
            ∧ isFound agentV infos itr = true ∧ isMissing agentV infos itr = false
          ∨ nameV ∉ infos.map CounterInfo.name
            ∧ isFound agentV infos itr = false ∧ isMissing agentV infos itr = true) := by
  rw [isSkipped, isFound, isMissing]
  cases requested agentV itr with
  | none => exact .inl ⟨rfl, rfl, rfl, rfl⟩
  | some nameV =>
    refine .inr ⟨nameV, rfl, rfl, ?_⟩
    by_cases hmem : nameV ∈ infos.map CounterInfo.name
    · exact .inl ⟨hmem, decide_eq_true hmem, decide_eq_false (not_not_intro hmem)⟩
    · exact .inr ⟨hmem, decide_eq_false hmem, decide_eq_true hmem⟩

theorem countP_kinds (agentV : Agent) (infos : List CounterInfo) (texts : List String) :
    texts.countP (isSkipped agentV) + texts.countP (isFound agentV infos)
      + texts.countP (isMissing agentV infos) = texts.length := by
  induction texts with
  | nil => rfl
  | cons itr texts ih =>
    simp only [List.countP_cons, List.length_cons]
    rcases kind_cases agentV infos itr with ⟨-, hskipped, hfound, hmissing⟩
      | ⟨nameV, -, hskipped, ⟨-, hfound, hmissing⟩ | ⟨-, hfound, hmissing⟩⟩
    all_goals
      simp only [hskipped, hfound, hmissing, if_true, Bool.false_eq_true, if_false]
      omega

/-- A name is looked up among different names. -/
theorem filter_name (hnames : (infos.map CounterInfo.name).Nodup) (nameV : String) :
    (nameV ∈ infos.map CounterInfo.name →
        ∃ info, infos.filter (fun citr ↦ citr.name = nameV) = [info])
      ∧ (nameV ∉ infos.map CounterInfo.name →
        infos.filter (fun citr ↦ citr.name = nameV) = []) := by
  have hcount : (infos.filter fun citr ↦ citr.name = nameV).length
      = (infos.map CounterInfo.name).count nameV := by
    rw [← List.countP_eq_length_filter, List.count_eq_countP, List.countP_map]
    rfl
  refine ⟨fun hmem ↦ ?_, fun hmem ↦ ?_⟩
  · rw [List.count_eq_one_of_mem hnames hmem] at hcount
    exact List.length_eq_one_iff.mp hcount
  · rw [List.count_eq_zero.mpr hmem] at hcount
    exact List.length_eq_zero_iff.mp hcount

/-! ## The loop -/

/-- What the loop has collected after some texts. -/
structure Counted (agentV : Agent) (infos : List CounterInfo) (total : ℤ) (texts : List String)
    (search : Search) : Prop where
  expected : search.expectedV = total - texts.countP (isSkipped agentV)
  counters : search.countersV.length = texts.countP (isFound agentV infos)
  found : search.foundV = texts.filter (isFound agentV infos)
  missing : search.notFoundCountersV = texts.filter (isMissing agentV infos)

/-- **One round.** -/
theorem counted_next (hnames : (infos.map CounterInfo.name).Nodup)
    (h : Counted agentV infos total texts search) (itr : String) :
    Counted agentV infos total (texts ++ [itr]) (next agentV infos search itr) := by
  obtain ⟨hexpected, hcounters, hfound, hmissing⟩ := h
  rw [next]
  rcases kind_cases agentV infos itr with ⟨hrequested, hskipped, hnotFound, hnotMissing⟩
    | ⟨nameV, hrequested, hnotSkipped,
        ⟨hmem, hisFound, hnotMissing⟩ | ⟨hmem, hnotFound, hisMissing⟩⟩
  · rw [hrequested]
    refine ⟨?_, ?_, ?_, ?_⟩
    · simp only [Search.skip, hexpected, List.countP_append, List.countP_singleton, hskipped,
        if_true]
      omega
    · simp [Search.skip, hcounters, hnotFound]
    · simp [Search.skip, hfound, hnotFound]
    · simp [Search.skip, hmissing, hnotMissing]
  · obtain ⟨info, hinfo⟩ := (filter_name hnames nameV).1 hmem
    rw [hrequested]
    refine ⟨?_, ?_, ?_, ?_⟩
    · simp [Search.lookUp, hexpected, hnotSkipped]
    · simp [Search.lookUp, hcounters, hinfo, hisFound]
    · simp [Search.lookUp, hfound, hinfo, hisFound]
    · simp [Search.lookUp, hmissing, hinfo, hnotMissing]
  · have hnone := (filter_name hnames nameV).2 hmem
    rw [hrequested]
    refine ⟨?_, ?_, ?_, ?_⟩
    · simp [Search.lookUp, hexpected, hnotSkipped]
    · simp [Search.lookUp, hcounters, hnone, hnotFound]
    · simp [Search.lookUp, hfound, hnone, hnotFound]
    · simp [Search.lookUp, hmissing, hnone, hisMissing]

/-- **The loop**, over texts that can all be read. -/
theorem counted_foldlM (hinfos : metadata.agentCounterInfo agentId = some infos)
    (hnames : (infos.map CounterInfo.name).Nodup) (total : ℤ) (texts : List String)
    (h : ∀ itr ∈ texts, ∃ p, parseCounter itr = .ok p) :
    ∃ search, texts.foldlM (searchCounter metadata agentId agentV) { expectedV := total }
        = .ok search ∧ Counted agentV infos total texts search := by
  refine ⟨_, Loop.foldlM_eq_foldl (fun itr hitr ↦ searchCounter_of_ok hinfos (h itr hitr)) _, ?_⟩
  clear h
  induction texts using List.reverseRecOn with
  | nil => exact ⟨(sub_zero total).symm, rfl, rfl, rfl⟩
  | append_singleton texts itr ih =>
    rw [List.foldl_append]
    exact counted_next hnames ih itr

/-! ## The warning -/

theorem applies_iff (hvalid : ¬Invalid itr) (hfits : ¬TooLarge itr) :
    Applies agentV.gpuIndex itr ↔ ∃ nameV, requested agentV itr = some nameV := by
  constructor
  · rintro (hall | ⟨name, number, hnumber, hindex⟩)
    · exact ⟨itr, (names_iff agentV itr hvalid hfits).2.mp (.inl ⟨hall, rfl⟩)⟩
    · refine ⟨String.ofList name, (names_iff agentV _ hvalid hfits).2.mp (.inr ?_)⟩
      exact ⟨number, by rwa [String.toList_ofList], hindex⟩
  · rintro ⟨nameV, hrequested⟩
    rcases (names_iff agentV nameV hvalid hfits).2.mpr hrequested with
      ⟨hall, -⟩ | ⟨number, hnumber, hindex⟩
    · exact .inl hall
    · exact .inr ⟨nameV.toList, number, hnumber, hindex⟩

theorem isMissing_iff (hvalid : ¬Invalid itr) (hfits : ¬TooLarge itr) :
    isMissing agentV infos itr = true ↔ Missing agentV.gpuIndex infos itr := by
  rw [Missing, applies_iff hvalid hfits, isMissing]
  simp only [fun name ↦ (names_iff agentV name hvalid hfits).2]
  cases requested agentV itr with
  | none => simp
  | some nameV => simp [eq_comm]

theorem isFound_iff (hvalid : ¬Invalid itr) (hfits : ¬TooLarge itr) :
    isFound agentV infos itr = true
      ↔ Applies agentV.gpuIndex itr ∧ ¬Missing agentV.gpuIndex infos itr := by
  rw [← isMissing_iff hvalid hfits, applies_iff hvalid hfits]
  rcases kind_cases agentV infos itr with ⟨hrequested, -, hfound, -⟩
    | ⟨nameV, hrequested, -, ⟨-, hfound, hmissing⟩ | ⟨-, hfound, hmissing⟩⟩
  · simp [hrequested, hfound]
  · simp [hrequested, hfound, hmissing]
  · simp [hrequested, hfound, hmissing]

/-- The comparison of the two numbers says whether there is a text that is missing. -/
theorem warning_of_counted
    (hformed : ∀ itr ∈ counters.counters, ¬Invalid itr ∧ ¬TooLarge itr)
    (h : Counted agentV infos counters.counters.length counters.counters search) :
    (if search.expectedV ≠ search.countersV.length then
        some (⟨agentV, counters.counters, search.foundV, search.notFoundCountersV⟩ : Warning)
      else none) = expectedWarning agentV infos counters := by
  classical
  have hkinds := countP_kinds agentV infos counters.counters
  have hdiffer : search.expectedV ≠ search.countersV.length
      ↔ 0 < counters.counters.countP (isMissing agentV infos) := by
    rw [h.expected, h.counters]
    omega
  have hmissing : search.expectedV ≠ search.countersV.length
      ↔ ∃ itr ∈ counters.counters, Missing agentV.gpuIndex infos itr := by
    rw [hdiffer, List.countP_pos_iff]
    refine exists_congr fun itr ↦ and_congr_right fun hitr ↦ ?_
    exact isMissing_iff (hformed itr hitr).1 (hformed itr hitr).2
  rw [expectedWarning, h.found, h.missing]
  by_cases hany : ∃ itr ∈ counters.counters, Missing agentV.gpuIndex infos itr
  · rw [if_pos (hmissing.mpr hany), if_pos hany]
    congr 2
    · refine List.filter_congr fun itr hitr ↦ Bool.eq_iff_iff.mpr ?_
      exact (isFound_iff (hformed itr hitr).1 (hformed itr hitr).2).trans decide_eq_true_iff.symm
    · refine List.filter_congr fun itr hitr ↦ Bool.eq_iff_iff.mpr ?_
      exact (isMissing_iff (hformed itr hitr).1 (hformed itr hitr).2).trans decide_eq_true_iff.symm
  · rw [if_neg (hmissing.not.mpr hany), if_neg hany]

/-- **Counters that are missing are always reported**: for an agent whose counters have different
names, and any set of texts with numbers that can be read, the warning is the one that there is to
be, and the number of the expected counters is not below zero on the way. -/
theorem warning_eq_expectedWarning (hagent : metadata.getAgent agentId = some agentV)
    (hinfos : metadata.agentCounterInfo agentId = some infos)
    (hnames : (infos.map CounterInfo.name).Nodup)
    (hformed : ∀ itr ∈ counters.counters, ¬Invalid itr ∧ ¬TooLarge itr) :
    (∃ construction, constructCounterCollectionProfile metadata agentId counters = .ok construction
        ∧ construction.warning = expectedWarning agentV infos counters)
      ∧ ∀ pre, pre <+: counters.counters →
        ∃ search, pre.foldlM (searchCounter metadata agentId agentV)
            { expectedV := counters.counters.length } = .ok search ∧ 0 ≤ search.expectedV := by
  have hread : ∀ itr ∈ counters.counters, ∃ p, parseCounter itr = .ok p := fun itr hitr ↦
    (names_iff agentV "" (hformed itr hitr).1 (hformed itr hitr).2).1
  refine ⟨?_, fun pre hpre ↦ ?_⟩
  · obtain ⟨search, hloop, hcounted⟩ :=
      @counted_foldlM metadata agentId agentV infos hinfos hnames counters.counters.length _ hread
    have hresult := construct_eq hagent hloop
    exact ⟨_, hresult, warning_of_counted hformed hcounted⟩
  · obtain ⟨search, hloop, hcounted⟩ := @counted_foldlM metadata agentId agentV infos hinfos hnames
      counters.counters.length pre fun itr hitr ↦ hread itr (hpre.subset hitr)
    refine ⟨search, hloop, ?_⟩
    have hle := (List.countP_le_length (p := isSkipped agentV) (l := pre)).trans hpre.length_le
    rw [hcounted.expected]
    omega

/-- One counter that the agent has, one that it does not have, and one for another agent. -/
def oneMissing : CounterSet where
  counters := ["GRBM_COUNT", "LDS_IDLE:device=0", "SQ_WAVES:device=1"]
  sorted := by decide

theorem warning_oneMissing :
    (∃ construction,
        constructCounterCollectionProfile Service.twoGpus 10 oneMissing = .ok construction
          ∧ construction.warning = expectedWarning ⟨10, .gpu, 0⟩ twoCounters oneMissing
          ∧ construction.warning = some ⟨⟨10, .gpu, 0⟩, oneMissing.counters, ["GRBM_COUNT"],
            ["LDS_IDLE:device=0"]⟩) := by
  have hok : ∀ itr ∈ oneMissing.counters, ∃ p, parseCounter itr = .ok p :=
    List.forall_mem_cons.mpr ⟨⟨_, rfl⟩, List.forall_mem_cons.mpr ⟨⟨_, rfl⟩,
      List.forall_mem_cons.mpr ⟨⟨_, rfl⟩, by simp⟩⟩⟩
  obtain ⟨construction, hresult, hwarning⟩ :=
    (@warning_eq_expectedWarning Service.twoGpus 10 ⟨10, .gpu, 0⟩ twoCounters oneMissing rfl rfl
      (by decide) fun itr hitr ↦ valid_of_ok (hok itr hitr)).1
  refine ⟨construction, hresult, hwarning, ?_⟩
  have hrun : constructCounterCollectionProfile Service.twoGpus 10 oneMissing
      = .ok ⟨some ⟨⟨10, .gpu, 0⟩, oneMissing.counters, ["GRBM_COUNT"], ["LDS_IDLE:device=0"]⟩,
        some [0]⟩ := by decide
  cases hresult.symm.trans hrun
  rfl

end Version3.CounterSelection
