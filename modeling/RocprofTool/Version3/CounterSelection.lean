import RocprofTool.Lib.Loop
import RocprofTool.Version3.CounterGroups

/-!
# Which counters of an agent are selected

A set of the configuration names counters, as `SQ_WAVES` for all the agents or as
`SQ_WAVES:device=1` for the one with the GPU index `1`.  `construct_counter_collection_profile` goes
through the set, looks the names up among the counters of one agent and hands those it has found to
`rocprofiler_create_counter_config`.  `Version3.CounterGroups` is about the profiles; this module
keeps what the loop collects besides, and the ways in which it can fail.

A text behind `:device=` that is not a number is a fatal error, with a message.  Two things have not
been thought of (`correct_iff`):

* `std::stol` throws for a number that does not fit into a `long`, which nobody catches, although
  the text consists of digits.  Where `tool_init` reads a GPU index it does catch what `std::stoi`
  throws, and reports it.
* A `std::set` has no text twice, but it may well have the texts `SQ_WAVES` and `SQ_WAVES:device=0`.
  On the agent with the GPU index `0` these are the same counter, whose id is handed over twice.
-/

set_option autoImplicit false

open Version3.CounterGroups

namespace Version3.CounterSelection

/-- How `construct_counter_collection_profile` can end the program. -/
inductive Failure
  /-- The fatal error, with the text that it is about. -/
  | invalidDeviceQualifier (itr : String)
  /-- The exception `std::out_of_range`, of `std::stol` and of `at`. -/
  | outOfRange
  /-- There is no such agent. -/
  | nullAgent
  deriving DecidableEq, Repr

/-- The name to search for, and the id of the device when the counter is for one. -/
def parseCounter (itr : String) : Except Failure (String × Option ℤ) :=
  match splitAtQualifier itr.toList with
  | none => .ok (itr, none)
  | some (nameV, devIdS) =>
    if devIdS.isEmpty || !devIdS.all Char.isDigit then .error (.invalidDeviceQualifier itr)
    else
      match stol devIdS with
      | none => .error .outOfRange
      | some devIdV => .ok (String.ofList nameV, some devIdV)

/-- What the loop over the set collects.  `expected_v` does not get below zero. -/
structure Search where
  expectedV : ℤ
  countersV : List CounterId := []
  foundV : List String := []
  notFoundCountersV : List String := []
  deriving DecidableEq, Repr

/-- The counter is for another device, and not expected. -/
def Search.skip (search : Search) : Search := { search with expectedV := search.expectedV - 1 }

/-- The counters of the agent with the name. -/
def Search.lookUp (infos : List CounterInfo) (search : Search) (itr nameV : String) : Search :=
  let found := infos.filter fun citr ↦ citr.name = nameV
  { search with
    countersV := search.countersV ++ found.map CounterInfo.id
    foundV := search.foundV ++ found.map fun _ ↦ itr
    notFoundCountersV :=
      if found.isEmpty then search.notFoundCountersV ++ [itr] else search.notFoundCountersV }

/-- One round of the loop.  The counters of the agent are read in each of them. -/
def searchCounter (metadata : Metadata) (agentId : AgentId) (agentV : Agent) (search : Search)
    (itr : String) : Except Failure Search :=
  match parseCounter itr with
  | .error failure => .error failure
  | .ok (nameV, devIdV) =>
    if devIdV.any fun devIdV ↦ devIdV ≠ agentV.gpuIndex then .ok search.skip
    else
      match metadata.agentCounterInfo agentId with
      | none => .error .outOfRange
      | some infos => .ok (search.lookUp infos itr nameV)

/-- The warning that not all of the counters have been found. -/
structure Warning where
  agentV : Agent
  requested : List String
  found : List String
  missing : List String
  deriving DecidableEq, Repr

/-- The warning, and the counters that are handed to `rocprofiler_create_counter_config`, which is
not called without any. -/
structure Construction where
  warning : Option Warning
  counters : Option (List CounterId)
  deriving DecidableEq, Repr

/-- `construct_counter_collection_profile`, up to the call of
`rocprofiler_create_counter_config`. -/
def constructCounterCollectionProfile (metadata : Metadata) (agentId : AgentId)
    (counters : CounterSet) : Except Failure Construction :=
  match metadata.getAgent agentId with
  | none => .error .nullAgent
  | some agentV =>
    (counters.counters.foldlM (searchCounter metadata agentId agentV)
      { expectedV := counters.counters.length }).map fun search ↦
        { warning :=
            if search.expectedV ≠ search.countersV.length then
              some ⟨agentV, counters.counters, search.foundV, search.notFoundCountersV⟩
            else none
          counters := if search.countersV.isEmpty then none else some search.countersV }

/-! ## The property -/

/-- The text in front of the number of a device. -/
abbrev deviceQualifier : List Char := ":device=".toList

/-- A qualifier with something else than a number behind it, or with nothing. -/
def Invalid (itr : String) : Prop :=
  ∃ name suffix, itr.toList = name ++ deviceQualifier ++ suffix ∧
    (suffix = [] ∨ ∃ c ∈ suffix, c.isDigit = false)

/-- A qualifier with this number behind it. -/
def QualifiedBy (itr : String) (name : List Char) (number : ℕ) : Prop :=
  ∃ digits, itr.toList = name ++ deviceQualifier ++ digits ∧ digits ≠ [] ∧
    (∀ c ∈ digits, c.isDigit = true) ∧ Nat.ofDigitChars 10 digits 0 = number

/-- The text names this counter for an agent with the GPU index. -/
def Names (gpuIndex : ℤ) (itr name : String) : Prop :=
  ¬deviceQualifier <:+: itr.toList ∧ name = itr ∨
    ∃ number : ℕ, QualifiedBy itr name.toList number ∧ (number : ℤ) = gpuIndex

/-- What the function has to do, for an agent with these counters: end with the fatal error exactly
when there is a text to report, and else hand over the id of each counter that a text names once.
There is no call when there is no counter. -/
structure Correct (agentV : Agent) (infos : List CounterInfo) (counters : CounterSet)
    (result : Except Failure Construction) : Prop where
  fatal : (∃ itr, result = .error (.invalidDeviceQualifier itr)) ↔
    ∃ itr ∈ counters.counters, Invalid itr
  noException : ∀ failure, result = .error failure → ∃ itr, failure = .invalidDeviceQualifier itr
  nodup : ∀ construction, result = .ok construction → (construction.counters.getD []).Nodup
  selected : ∀ construction, result = .ok construction → ∀ id,
    id ∈ construction.counters.getD [] ↔
      ∃ info ∈ infos, info.id = id ∧ ∃ itr ∈ counters.counters, Names agentV.gpuIndex itr info.name

/-- A number, but one that does not fit into a `long`. -/
def TooLarge (itr : String) : Prop :=
  ¬Invalid itr ∧ ∃ name number, QualifiedBy itr name number ∧ 2 ^ 63 ≤ number

/-- A number that is too large comes behind a text that is invalid. -/
def NumbersFit (counters : CounterSet) : Prop :=
  ∀ pre itr post, counters.counters = pre ++ itr :: post → TooLarge itr → ∃ bad ∈ pre, Invalid bad

/-- No counter of the agent is named by two texts. -/
def NamedOnce (agentV : Agent) (infos : List CounterInfo) (counters : CounterSet) : Prop :=
  ∀ itr ∈ counters.counters, ∀ itr' ∈ counters.counters, itr ≠ itr' →
    ∀ info ∈ infos, Names agentV.gpuIndex itr info.name → ¬Names agentV.gpuIndex itr' info.name

/-! ## The qualifier -/

theorem exists_of_isPrefixOf {c : Char} {text : List Char}
    (h : deviceQualifier.isPrefixOf (c :: text) = true) :
    ∃ rest, c = ':' ∧ text = "device=".toList ++ rest := by
  obtain ⟨rest, hrest⟩ := List.isPrefixOf_iff_prefix.mp h
  have hcons : ':' :: ("device=".toList ++ rest) = c :: text := hrest
  obtain ⟨rfl, rfl⟩ := List.cons.inj hcons
  exact ⟨rest, rfl, rfl⟩

/-- A text that is cut is cut at a qualifier. -/
theorem splitAtQualifier_sound {text name suffix : List Char}
    (h : splitAtQualifier text = some (name, suffix)) :
    text = name ++ deviceQualifier ++ suffix := by
  induction text generalizing name with
  | nil => cases h
  | cons c text ih =>
    rw [splitAtQualifier] at h
    split_ifs at h with hhead
    · cases h
      obtain ⟨rest, rfl, rfl⟩ := exists_of_isPrefixOf hhead
      rfl
    · obtain ⟨⟨name', suffix'⟩, hsplit, heq⟩ := Option.map_eq_some_iff.mp h
      cases heq
      rw [ih hsplit]
      rfl

/-- **The first qualifier**: a text with a qualifier is cut at it, or at one before, so that there
is a colon in what comes behind. -/
theorem splitAtQualifier_of_append (name suffix : List Char) :
    ∃ name' suffix', splitAtQualifier (name ++ deviceQualifier ++ suffix) = some (name', suffix') ∧
      (name' = name ∧ suffix' = suffix ∨ ':' ∈ suffix') := by
  induction name with
  | nil => exact ⟨[], suffix, rfl, .inl ⟨rfl, rfl⟩⟩
  | cons c name ih =>
    obtain ⟨name', suffix', hsplit, hcases⟩ := ih
    rw [List.cons_append, List.cons_append, splitAtQualifier]
    split_ifs with hhead
    · refine ⟨[], _, rfl, .inr ?_⟩
      obtain ⟨rest, -, hrest⟩ := exists_of_isPrefixOf hhead
      have hcolon : ':' ∈ name ++ deviceQualifier ++ suffix :=
        List.mem_append_left _ (List.mem_append_right _ (by decide))
      rw [hrest] at hcolon ⊢
      exact (List.mem_append.mp hcolon).resolve_left (by decide)
    · rw [hsplit]
      exact ⟨c :: name', suffix', rfl, hcases.imp_left fun ⟨hname, hsuffix⟩ ↦
        ⟨congrArg _ hname, hsuffix⟩⟩

theorem splitAtQualifier_of_infix {text : List Char} (h : deviceQualifier <:+: text) :
    ∃ name suffix, splitAtQualifier text = some (name, suffix) := by
  obtain ⟨name, suffix, rfl⟩ := h
  obtain ⟨name', suffix', hsplit, -⟩ := splitAtQualifier_of_append name suffix
  exact ⟨name', suffix', hsplit⟩

theorem not_infix_of_splitAtQualifier {text : List Char} (h : splitAtQualifier text = none) :
    ¬deviceQualifier <:+: text := by
  intro hwithin
  obtain ⟨name, suffix, hsplit⟩ := splitAtQualifier_of_infix hwithin
  cases h.symm.trans hsplit

/-- What is not a number. -/
def isBad (suffix : List Char) : Bool := suffix.isEmpty || !suffix.all Char.isDigit

theorem isBad_iff {suffix : List Char} :
    isBad suffix = true ↔ suffix = [] ∨ ∃ c ∈ suffix, c.isDigit = false := by
  rw [isBad, Bool.or_eq_true, List.isEmpty_iff, Bool.not_eq_true', List.all_eq_false]
  simp only [Bool.not_eq_true]

theorem isBad_of_colon {suffix : List Char} (h : ':' ∈ suffix) : isBad suffix = true :=
  isBad_iff.mpr (.inr ⟨':', h, rfl⟩)

theorem isBad_eq_false_iff {suffix : List Char} :
    isBad suffix = false ↔ suffix ≠ [] ∧ ∀ c ∈ suffix, c.isDigit = true := by
  rw [isBad, Bool.or_eq_false_iff, Bool.not_eq_false', List.all_eq_true, List.isEmpty_eq_false_iff]

/-- The texts that are invalid, by where they are cut. -/
theorem invalid_iff {itr : String} :
    Invalid itr ↔ ∃ name suffix, splitAtQualifier itr.toList = some (name, suffix) ∧
      isBad suffix = true := by
  constructor
  · rintro ⟨name, suffix, htext, hbad⟩
    obtain ⟨name', suffix', hsplit, hcases⟩ := splitAtQualifier_of_append name suffix
    refine ⟨name', suffix', htext ▸ hsplit, ?_⟩
    rcases hcases with ⟨-, rfl⟩ | hcolon
    · exact isBad_iff.mpr hbad
    · exact isBad_of_colon hcolon
  · rintro ⟨name, suffix, hsplit, hbad⟩
    exact ⟨name, suffix, splitAtQualifier_sound hsplit, isBad_iff.mp hbad⟩

/-- The texts with a number, by where they are cut. -/
theorem qualifiedBy_iff {itr : String} {name : List Char} {number : ℕ} (hvalid : ¬Invalid itr) :
    QualifiedBy itr name number ↔ ∃ digits, splitAtQualifier itr.toList = some (name, digits) ∧
      Nat.ofDigitChars 10 digits 0 = number := by
  constructor
  · rintro ⟨digits, htext, -, -, hnumber⟩
    obtain ⟨name', digits', hsplit, hcases⟩ := splitAtQualifier_of_append name digits
    rw [← htext] at hsplit
    rcases hcases with ⟨rfl, rfl⟩ | hcolon
    · exact ⟨digits', hsplit, hnumber⟩
    · exact absurd (invalid_iff.mpr ⟨name', digits', hsplit, isBad_of_colon hcolon⟩) hvalid
  · rintro ⟨digits, hsplit, hnumber⟩
    have hgood : isBad digits = false := by
      by_contra hbad
      exact hvalid (invalid_iff.mpr ⟨name, digits, hsplit, Bool.not_eq_false _ ▸ hbad⟩)
    obtain ⟨hne, hdigits⟩ := isBad_eq_false_iff.mp hgood
    exact ⟨digits, splitAtQualifier_sound hsplit, hne, hdigits, hnumber⟩

/-! ## Reading a text -/

theorem stol_eq (digits : List Char) :
    stol digits = if Nat.ofDigitChars 10 digits 0 < 2 ^ 63
      then some (Nat.ofDigitChars 10 digits 0 : ℤ) else none := by
  rw [stol, Nat.ofDigitChars_eq_foldl]

theorem parseCounter_of_invalid {itr : String} (h : Invalid itr) :
    parseCounter itr = .error (.invalidDeviceQualifier itr) := by
  obtain ⟨name, suffix, hsplit, hbad⟩ := invalid_iff.mp h
  rw [parseCounter, hsplit]
  exact if_pos hbad

theorem parseCounter_of_none {itr : String} (h : splitAtQualifier itr.toList = none) :
    parseCounter itr = .ok (itr, none) := by
  rw [parseCounter, h]

theorem parseCounter_of_some {itr : String} {name digits : List Char} (hvalid : ¬Invalid itr)
    (h : splitAtQualifier itr.toList = some (name, digits)) :
    parseCounter itr = match stol digits with
      | none => .error .outOfRange
      | some devIdV => .ok (String.ofList name, some devIdV) := by
  rw [parseCounter, h]
  exact if_neg fun hbad ↦ hvalid (invalid_iff.mpr ⟨name, digits, h, hbad⟩)

theorem parseCounter_of_tooLarge {itr : String} (h : TooLarge itr) :
    parseCounter itr = .error .outOfRange := by
  obtain ⟨hvalid, name, number, hnumber, hlarge⟩ := h
  obtain ⟨digits, hsplit, rfl⟩ := (qualifiedBy_iff hvalid).mp hnumber
  rw [parseCounter_of_some hvalid hsplit, stol_eq, if_neg (Nat.not_lt.mpr hlarge)]

/-- The name that is looked up for an agent, unless the text is for another one. -/
def requested (agentV : Agent) (itr : String) : Option String :=
  match parseCounter itr with
  | .error _ => none
  | .ok (nameV, devIdV) =>
    if devIdV.any fun devIdV ↦ devIdV ≠ agentV.gpuIndex then none else some nameV

/-- **What is looked up is what the text names**, when it can be read. -/
theorem names_iff (agentV : Agent) {itr : String} (name : String) (hvalid : ¬Invalid itr)
    (hfits : ¬TooLarge itr) :
    (∃ p, parseCounter itr = .ok p) ∧
      (Names agentV.gpuIndex itr name ↔ requested agentV itr = some name) := by
  rcases hsplit : splitAtQualifier itr.toList with _ | ⟨name', digits⟩
  · have hparse := parseCounter_of_none hsplit
    refine ⟨⟨_, hparse⟩, ?_⟩
    rw [requested, hparse, Names]
    constructor
    · rintro (⟨-, rfl⟩ | ⟨number, hnumber, -⟩)
      · rfl
      · obtain ⟨digits, hsplit', -⟩ := (qualifiedBy_iff hvalid).mp hnumber
        cases hsplit.symm.trans hsplit'
    · intro heq
      exact .inl ⟨not_infix_of_splitAtQualifier hsplit, (Option.some.inj heq).symm⟩
  · have hsmall : Nat.ofDigitChars 10 digits 0 < 2 ^ 63 := by
      by_contra hlarge
      exact hfits ⟨hvalid, name', _, (qualifiedBy_iff hvalid).mpr ⟨digits, hsplit, rfl⟩,
        Nat.not_lt.mp hlarge⟩
    have hparse := parseCounter_of_some hvalid hsplit
    rw [stol_eq, if_pos hsmall] at hparse
    refine ⟨⟨_, hparse⟩, ?_⟩
    rw [requested, hparse, Names]
    dsimp only [Option.any_some]
    constructor
    · rintro (⟨hwithin, -⟩ | ⟨number, hnumber, hindex⟩)
      · exact absurd ⟨name', digits, (splitAtQualifier_sound hsplit).symm⟩ hwithin
      · obtain ⟨digits', hsplit', rfl⟩ := (qualifiedBy_iff hvalid).mp hnumber
        cases hsplit.symm.trans hsplit'
        rw [if_neg (by simp [hindex]), String.ofList_toList]
    · intro heq
      by_cases hindex : (Nat.ofDigitChars 10 digits 0 : ℤ) = agentV.gpuIndex
      · rw [if_neg (by simp [hindex])] at heq
        cases heq
        refine .inr ⟨_, (qualifiedBy_iff hvalid).mpr ⟨digits, ?_, rfl⟩, hindex⟩
        rw [String.toList_ofList]
        exact hsplit
      · rw [if_pos (by simp [hindex])] at heq
        cases heq

/-! ## The loop -/

/-- A round that does not fail. -/
def next (agentV : Agent) (infos : List CounterInfo) (search : Search) (itr : String) : Search :=
  match requested agentV itr with
  | none => search.skip
  | some nameV => search.lookUp infos itr nameV

/-- The ids of the counters that a text asks for. -/
def idsFor (agentV : Agent) (infos : List CounterInfo) (itr : String) : List CounterId :=
  match requested agentV itr with
  | none => []
  | some nameV => (infos.filter fun citr ↦ citr.name = nameV).map CounterInfo.id

variable {metadata : Metadata} {agentId : AgentId} {agentV : Agent} {infos : List CounterInfo}
  {counters : CounterSet} {itr : String} {search : Search}

theorem searchCounter_of_ok (hinfos : metadata.agentCounterInfo agentId = some infos)
    (h : ∃ p, parseCounter itr = .ok p) (search : Search) :
    searchCounter metadata agentId agentV search itr = .ok (next agentV infos search itr) := by
  obtain ⟨⟨nameV, devIdV⟩, hparse⟩ := h
  rw [searchCounter, next, requested, hparse]
  dsimp only
  split_ifs
  · rfl
  · rw [hinfos]

theorem searchCounter_of_error {failure : Failure} (h : parseCounter itr = .error failure)
    (search : Search) : searchCounter metadata agentId agentV search itr = .error failure := by
  rw [searchCounter, h]

theorem countersV_foldl (agentV : Agent) (infos : List CounterInfo) (search : Search)
    (texts : List String) :
    (texts.foldl (next agentV infos) search).countersV
      = search.countersV ++ texts.flatMap (idsFor agentV infos) := by
  induction texts generalizing search with
  | nil => rw [List.foldl_nil, List.flatMap_nil, List.append_nil]
  | cons itr texts ih =>
    rw [List.foldl_cons, ih, List.flatMap_cons, ← List.append_assoc]
    congr 1
    rw [next, idsFor]
    cases requested agentV itr with
    | none => exact (List.append_nil _).symm
    | some nameV => rfl

theorem mem_idsFor {id : CounterId} :
    id ∈ idsFor agentV infos itr ↔
      ∃ info ∈ infos, info.id = id ∧ requested agentV itr = some info.name := by
  rw [idsFor]
  cases requested agentV itr with
  | none => simp
  | some nameV =>
    simp only [List.mem_map, List.mem_filter, decide_eq_true_eq, Option.some.injEq]
    constructor
    · rintro ⟨info, ⟨hinfo, rfl⟩, rfl⟩
      exact ⟨info, hinfo, rfl, rfl⟩
    · rintro ⟨info, hinfo, rfl, rfl⟩
      exact ⟨info, ⟨hinfo, rfl⟩, rfl⟩

theorem nodup_idsFor (hids : (infos.map CounterInfo.id).Nodup) :
    (idsFor agentV infos itr).Nodup := by
  rw [idsFor]
  cases requested agentV itr with
  | none => exact List.nodup_nil
  | some nameV => exact hids.sublist (List.filter_sublist.map CounterInfo.id)

/-! ## The result -/

theorem construct_eq (hagent : metadata.getAgent agentId = some agentV)
    (hloop : counters.counters.foldlM (searchCounter metadata agentId agentV)
      { expectedV := counters.counters.length } = .ok search) :
    constructCounterCollectionProfile metadata agentId counters
      = .ok
        { warning :=
            if search.expectedV ≠ search.countersV.length then
              some ⟨agentV, counters.counters, search.foundV, search.notFoundCountersV⟩
            else none
          counters := if search.countersV.isEmpty then none else some search.countersV } := by
  rw [constructCounterCollectionProfile, hagent]
  dsimp only
  rw [hloop]
  rfl

/-- **All of the texts can be read**: the ids that are handed over. -/
theorem construct_of_ok (hagent : metadata.getAgent agentId = some agentV)
    (hinfos : metadata.agentCounterInfo agentId = some infos)
    (h : ∀ itr ∈ counters.counters, ∃ p, parseCounter itr = .ok p) :
    ∃ construction, constructCounterCollectionProfile metadata agentId counters
        = .ok construction ∧
      construction.counters.getD [] = counters.counters.flatMap (idsFor agentV infos) := by
  have hloop : counters.counters.foldlM (searchCounter metadata agentId agentV)
      { expectedV := counters.counters.length }
        = .ok (counters.counters.foldl (next agentV infos)
          { expectedV := counters.counters.length }) :=
    Loop.foldlM_eq_foldl (fun itr hitr ↦ searchCounter_of_ok hinfos (h itr hitr)) _
  have hcountersV := countersV_foldl agentV infos
    { expectedV := (counters.counters.length : ℤ) } counters.counters
  rw [List.nil_append] at hcountersV
  rw [← hcountersV]
  refine ⟨_, construct_eq hagent hloop, ?_⟩
  dsimp only
  split_ifs with hempty
  · exact (List.isEmpty_iff.mp hempty).symm
  · rfl

/-- **The first text that cannot be read** ends it. -/
theorem construct_of_error (hagent : metadata.getAgent agentId = some agentV)
    (hinfos : metadata.agentCounterInfo agentId = some infos) {pre post : List String}
    {failure : Failure} (htexts : counters.counters = pre ++ itr :: post)
    (hpre : ∀ itr ∈ pre, ∃ p, parseCounter itr = .ok p) (h : parseCounter itr = .error failure) :
    constructCounterCollectionProfile metadata agentId counters = .error failure := by
  have hloop : counters.counters.foldlM (searchCounter metadata agentId agentV)
      { expectedV := counters.counters.length } = .error failure := by
    have hround : ∀ itr ∈ pre, ∀ search, searchCounter metadata agentId agentV search itr
        = .ok (next agentV infos search itr) :=
      fun itr hitr ↦ searchCounter_of_ok hinfos (hpre itr hitr)
    rw [htexts]
    exact Loop.foldlM_eq_error hround (searchCounter_of_error h) post _
  rw [constructCounterCollectionProfile, hagent]
  dsimp only
  rw [hloop]
  rfl

theorem nodup_counters (counters : CounterSet) : counters.counters.Nodup := by
  refine counters.sorted.imp fun {itr itr'} hlt heq ↦ ?_
  rw [heq] at hlt
  exact String.lt_irrefl itr' hlt

/-- **No id is handed over twice** exactly when no counter is named by two texts. -/
theorem nodup_flatMap_iff (hids : (infos.map CounterInfo.id).Nodup)
    (hnames : ∀ itr ∈ counters.counters, ∀ name,
      Names agentV.gpuIndex itr name ↔ requested agentV itr = some name) :
    (counters.counters.flatMap (idsFor agentV infos)).Nodup ↔
      NamedOnce agentV infos counters := by
  rw [List.nodup_flatMap, and_iff_right fun itr _ ↦ nodup_idsFor hids]
  constructor
  · intro hpairwise itr hitr itr' hitr' hne info hinfo hname hname'
    have : Std.Symm (Function.onFun List.Disjoint (idsFor agentV infos)) := ⟨fun _ _ h ↦ h.symm⟩
    have hdisjoint := hpairwise.forall hitr hitr' hne
    exact hdisjoint (mem_idsFor.mpr ⟨info, hinfo, rfl, (hnames itr hitr _).mp hname⟩)
      (mem_idsFor.mpr ⟨info, hinfo, rfl, (hnames itr' hitr' _).mp hname'⟩)
  · intro honce
    refine (nodup_counters counters).pairwise_of_forall_ne
      fun itr hitr itr' hitr' hne id hid hid' ↦ ?_
    obtain ⟨info, hinfo, rfl, hname⟩ := mem_idsFor.mp hid
    obtain ⟨info', hinfo', heq, hname'⟩ := mem_idsFor.mp hid'
    obtain rfl := List.inj_on_of_nodup_map hids hinfo' hinfo heq
    exact honce itr hitr itr' hitr' hne info' hinfo ((hnames itr hitr _).mpr hname)
      ((hnames itr' hitr' _).mpr hname')

/-- A text that cannot be read is invalid, or has a number that is too large. -/
theorem cases_of_error {failure : Failure} (h : parseCounter itr = .error failure) :
    Invalid itr ∧ failure = .invalidDeviceQualifier itr ∨
      TooLarge itr ∧ failure = .outOfRange := by
  by_cases hinvalid : Invalid itr
  · rw [parseCounter_of_invalid hinvalid] at h
    cases h
    exact .inl ⟨hinvalid, rfl⟩
  · by_cases hlarge : TooLarge itr
    · rw [parseCounter_of_tooLarge hlarge] at h
      cases h
      exact .inr ⟨hlarge, rfl⟩
    · obtain ⟨p, hp⟩ := (names_iff ⟨0, .gpu, 0⟩ "" hinvalid hlarge).1
      cases h.symm.trans hp

/-- A text that can be read is not invalid, and has no number that is too large. -/
theorem valid_of_ok (h : ∃ p, parseCounter itr = .ok p) : ¬Invalid itr ∧ ¬TooLarge itr := by
  obtain ⟨p, hp⟩ := h
  refine ⟨fun hinvalid ↦ ?_, fun hlarge ↦ ?_⟩
  · cases hp.symm.trans (parseCounter_of_invalid hinvalid)
  · cases hp.symm.trans (parseCounter_of_tooLarge hlarge)

/-- Either all of the texts can be read, or there is a first one that cannot. -/
theorem forall_ok_or_exists_first (texts : List String) :
    (∀ itr ∈ texts, ∃ p, parseCounter itr = .ok p) ∨
      ∃ pre itr post failure, texts = pre ++ itr :: post ∧
        (∀ itr ∈ pre, ∃ p, parseCounter itr = .ok p) ∧ parseCounter itr = .error failure := by
  induction texts with
  | nil => exact .inl fun itr hitr ↦ absurd hitr List.not_mem_nil
  | cons itr texts ih =>
    cases hparse : parseCounter itr with
    | error failure =>
      exact .inr ⟨[], itr, texts, failure, rfl, fun itr h ↦ absurd h List.not_mem_nil, hparse⟩
    | ok p =>
      rcases ih with hall | ⟨pre, itr', post, failure, rfl, hpre, hfailure⟩
      · exact .inl (List.forall_mem_cons.mpr ⟨⟨p, hparse⟩, hall⟩)
      · exact .inr ⟨itr :: pre, itr', post, failure, rfl,
          List.forall_mem_cons.mpr ⟨⟨p, hparse⟩, hpre⟩, hfailure⟩

/-- When all of the texts can be read, none of them has a number that is too large. -/
theorem numbersFit_of_ok (h : ∀ itr ∈ counters.counters, ∃ p, parseCounter itr = .ok p) :
    NumbersFit counters := by
  intro pre itr post htexts hlarge
  have hitr : itr ∈ counters.counters := htexts ▸ List.mem_append_right pre List.mem_cons_self
  exact absurd hlarge (valid_of_ok (h itr hitr)).2

/-- When all of the texts can be read, they name what they request. -/
theorem names_of_ok (agentV : Agent)
    (h : ∀ itr ∈ counters.counters, ∃ p, parseCounter itr = .ok p) :
    ∀ itr ∈ counters.counters, ∀ name,
      Names agentV.gpuIndex itr name ↔ requested agentV itr = some name := by
  intro itr hitr name
  obtain ⟨hvalid, hfits⟩ := valid_of_ok (h itr hitr)
  exact (names_iff agentV name hvalid hfits).2

theorem correct_iff_of_ok (hagent : metadata.getAgent agentId = some agentV)
    (hinfos : metadata.agentCounterInfo agentId = some infos)
    (hids : (infos.map CounterInfo.id).Nodup)
    (h : ∀ itr ∈ counters.counters, ∃ p, parseCounter itr = .ok p) :
    Correct agentV infos counters (constructCounterCollectionProfile metadata agentId counters) ↔
      NamedOnce agentV infos counters := by
  have hnames := names_of_ok agentV h
  obtain ⟨construction, hresult, hcounters⟩ := construct_of_ok hagent hinfos h
  rw [← nodup_flatMap_iff hids hnames, ← hcounters, hresult]
  constructor
  · intro hcorrect
    exact hcorrect.nodup construction rfl
  · intro hnodup
    refine ⟨?_, fun failure hfailure ↦ ?_, fun construction' heq ↦ ?_,
      fun construction' heq id ↦ ?_⟩
    · refine iff_of_false (fun ⟨itr, hitr⟩ ↦ ?_) fun ⟨itr, hitr, hinvalid⟩ ↦ ?_
      · cases hitr
      · exact (valid_of_ok (h itr hitr)).1 hinvalid
    · cases hfailure
    · cases heq
      exact hnodup
    · cases heq
      rw [hcounters, List.mem_flatMap]
      constructor
      · rintro ⟨itr, hitr, hid⟩
        obtain ⟨info, hinfo, heq, hrequested⟩ := mem_idsFor.mp hid
        exact ⟨info, hinfo, heq, itr, hitr, (hnames itr hitr _).mpr hrequested⟩
      · rintro ⟨info, hinfo, heq, itr, hitr, hname⟩
        exact ⟨itr, hitr, mem_idsFor.mpr ⟨info, hinfo, heq, (hnames itr hitr _).mp hname⟩⟩

/-- Where two entries of one list are. -/
theorem mem_or_mem_or_eq {pre pre' post post' : List String} {itr itr' : String}
    (h : pre ++ itr :: post = pre' ++ itr' :: post') : itr ∈ pre' ∨ itr' ∈ pre ∨ itr = itr' := by
  rcases List.append_eq_append_iff.mp h with ⟨mid, rfl, hmid⟩ | ⟨mid, rfl, hmid⟩
  · rcases List.cons_eq_append_iff.mp hmid with ⟨-, heq⟩ | ⟨mid', rfl, -⟩
    · exact .inr (.inr (List.cons.inj heq).1.symm)
    · exact .inl (List.mem_append_right pre List.mem_cons_self)
  · rcases List.cons_eq_append_iff.mp hmid with ⟨-, heq⟩ | ⟨mid', rfl, -⟩
    · exact .inr (.inr (List.cons.inj heq).1)
    · exact .inr (.inl (List.mem_append_right pre' List.mem_cons_self))

/-- A number that is too large comes behind the first text that cannot be read, when that one is
invalid. -/
theorem numbersFit_of_invalid {pre post : List String}
    (htexts : counters.counters = pre ++ itr :: post)
    (hpre : ∀ itr ∈ pre, ∃ p, parseCounter itr = .ok p) (hinvalid : Invalid itr) :
    NumbersFit counters := by
  intro pre' itr' post' htexts' hlarge
  rcases mem_or_mem_or_eq (htexts.symm.trans htexts') with hmem | hmem | rfl
  · exact ⟨itr, hmem, hinvalid⟩
  · exact absurd hlarge (valid_of_ok (hpre itr' hmem)).2
  · exact absurd hinvalid hlarge.1

/-- **When `construct_counter_collection_profile` selects the counters that are named**, for any set
of texts and an agent whose counters have different ids: when no text before the first invalid one
has a number that is too large, and either some text is invalid or no counter of the agent is named
by two of them. -/
theorem correct_iff (hagent : metadata.getAgent agentId = some agentV)
    (hinfos : metadata.agentCounterInfo agentId = some infos)
    (hids : (infos.map CounterInfo.id).Nodup) :
    Correct agentV infos counters (constructCounterCollectionProfile metadata agentId counters) ↔
      NumbersFit counters ∧
        ((∃ itr ∈ counters.counters, Invalid itr) ∨ NamedOnce agentV infos counters) := by
  rcases forall_ok_or_exists_first counters.counters with
    hok | ⟨pre, itr, post, failure, htexts, hpre, hfailure⟩
  · rw [correct_iff_of_ok hagent hinfos hids hok]
    have hvalid : ¬∃ itr ∈ counters.counters, Invalid itr :=
      fun ⟨itr, hitr, hinvalid⟩ ↦ (valid_of_ok (hok itr hitr)).1 hinvalid
    rw [and_iff_right (numbersFit_of_ok hok), or_iff_right hvalid]
  · rw [construct_of_error hagent hinfos htexts hpre hfailure]
    rcases cases_of_error hfailure with ⟨hinvalid, rfl⟩ | ⟨hlarge, rfl⟩
    · have hitr : itr ∈ counters.counters := htexts ▸ List.mem_append_right pre List.mem_cons_self
      refine iff_of_true ⟨iff_of_true ⟨itr, rfl⟩ ⟨itr, hitr, hinvalid⟩, fun failure heq ↦ ?_,
        fun _ heq ↦ (by cases heq), fun _ heq ↦ (by cases heq)⟩
        ⟨numbersFit_of_invalid htexts hpre hinvalid, .inl ⟨itr, hitr, hinvalid⟩⟩
      cases heq
      exact ⟨itr, rfl⟩
    · refine iff_of_false (fun hcorrect ↦ ?_) fun ⟨hfit, _⟩ ↦ ?_
      · obtain ⟨itr', hitr'⟩ := hcorrect.noException .outOfRange rfl
        cases hitr'
      · obtain ⟨bad, hbad, hinvalid⟩ := hfit pre itr post htexts hlarge
        exact (valid_of_ok (hpre bad hbad)).1 hinvalid

/-- The counters of the two GPUs. -/
abbrev twoCounters : List CounterInfo := [⟨0, "GRBM_COUNT"⟩, ⟨1, "SQ_WAVES"⟩]

/-- One counter for the other GPU, and one for all of them. -/
def oneForEach : CounterSet where
  counters := ["GRBM_COUNT:device=1", "SQ_WAVES"]
  sorted := by decide

theorem correct_oneForEach :
    Correct ⟨10, .gpu, 0⟩ twoCounters oneForEach
      (constructCounterCollectionProfile Service.twoGpus 10 oneForEach) := by
  have hok : ∀ itr ∈ oneForEach.counters, ∃ p, parseCounter itr = .ok p :=
    List.forall_mem_cons.mpr ⟨⟨_, rfl⟩, List.forall_mem_cons.mpr ⟨⟨_, rfl⟩, by simp⟩⟩
  exact (correct_iff rfl rfl (by decide)).mpr ⟨numbersFit_of_ok hok,
    .inr ((nodup_flatMap_iff (by decide) (names_of_ok _ hok)).mp (by decide))⟩

/-- The same counter, for all of the GPUs and for one of them. -/
def namedTwice : CounterSet where
  counters := ["SQ_WAVES", "SQ_WAVES:device=0"]
  sorted := by decide

/-- A device with a number that does not fit into a `long`. -/
def largeNumber : CounterSet where
  counters := ["SQ_WAVES:device=9223372036854775808"]
  sorted := List.pairwise_singleton _ _

/-- **The id of a counter that is named twice is handed over twice**, and a number that is too large
is an exception. -/
theorem not_correct :
    ¬Correct ⟨10, .gpu, 0⟩ twoCounters namedTwice
        (constructCounterCollectionProfile Service.twoGpus 10 namedTwice) ∧
      ¬Correct ⟨10, .gpu, 0⟩ twoCounters largeNumber
        (constructCounterCollectionProfile Service.twoGpus 10 largeNumber) := by
  refine ⟨fun hcorrect ↦ ?_, fun hcorrect ↦ ?_⟩
  · have hresult : constructCounterCollectionProfile Service.twoGpus 10 namedTwice
        = .ok ⟨none, some [1, 1]⟩ := by decide
    exact absurd (hcorrect.nodup _ hresult) (by decide)
  · have hresult : constructCounterCollectionProfile Service.twoGpus 10 largeNumber
        = .error .outOfRange := by decide
    obtain ⟨itr, hitr⟩ := hcorrect.noException _ hresult
    cases hitr

/-! ## The profile -/

theorem toOption_parseCounter (itr : String) : (parseCounter itr).toOption = readCounter itr := by
  rw [parseCounter, readCounter]
  rcases splitAtQualifier itr.toList with _ | ⟨nameV, devIdS⟩
  · rfl
  · dsimp only
    split_ifs
    · rfl
    · cases stol devIdS with
      | none => rfl
      | some devIdV => rfl

theorem toOption_searchCounter (metadata : Metadata) (agentId : AgentId) (agentV : Agent)
    (search : Search) (itr : String) :
    (searchCounter metadata agentId agentV search itr).toOption.map Search.countersV
      = (findCounter metadata agentId agentV itr).map (search.countersV ++ ·) := by
  rw [searchCounter, findCounter, ← toOption_parseCounter]
  cases parseCounter itr with
  | error failure => rfl
  | ok p =>
    rw [show (Except.ok p : Except Failure _).toOption = some p from rfl, Option.bind_some]
    dsimp only
    split_ifs
    · exact congrArg some (List.append_nil _).symm
    · cases metadata.agentCounterInfo agentId with
      | none => rfl
      | some infos => rfl

theorem toOption_search (metadata : Metadata) (agentId : AgentId) (agentV : Agent)
    (texts : List String) (search : Search) :
    (texts.foldlM (searchCounter metadata agentId agentV) search).toOption.map Search.countersV
      = (texts.mapM (findCounter metadata agentId agentV)).map (search.countersV ++ ·.flatten) := by
  induction texts generalizing search with
  | nil => exact congrArg some (List.append_nil _).symm
  | cons itr texts ih =>
    have hround := toOption_searchCounter metadata agentId agentV search itr
    rw [List.foldlM_cons, List.mapM_cons]
    cases hsearch : searchCounter metadata agentId agentV search itr with
    | error failure =>
      rw [hsearch] at hround
      rw [Option.map_eq_none_iff.mp hround.symm]
      rfl
    | ok search' =>
      rw [hsearch] at hround
      obtain ⟨ids, hids, hcountersV⟩ := Option.map_eq_some_iff.mp hround.symm
      rw [hids]
      show (texts.foldlM (searchCounter metadata agentId agentV) search').toOption.map
        Search.countersV = _
      rw [ih, ← hcountersV]
      cases texts.mapM (findCounter metadata agentId agentV) with
      | none => rfl
      | some idss => exact congrArg some (List.append_assoc _ _ _)

/-- **The profile is created for the counters that are selected here.** -/
theorem constructCounterCollectionProfile_eq (create : CreateCounterConfig) (metadata : Metadata)
    (before : ℕ) (agentId : AgentId) (counters : CounterSet) :
    CounterGroups.constructCounterCollectionProfile create metadata before agentId counters
      = (constructCounterCollectionProfile metadata agentId counters).toOption.bind
        fun construction ↦
          match construction.counters with
          | none => some none
          | some countersV => (create before agentId countersV).map some := by
  rw [CounterGroups.constructCounterCollectionProfile, findCounters,
    constructCounterCollectionProfile]
  cases hagent : metadata.getAgent agentId with
  | none => rfl
  | some agentV =>
    have hloop := toOption_search metadata agentId agentV
      counters.counters { expectedV := counters.counters.length }
    simp only [List.nil_append] at hloop
    rw [Option.bind_some, ← hloop]
    dsimp only
    cases counters.counters.foldlM (searchCounter metadata agentId agentV)
        { expectedV := counters.counters.length } with
    | error failure => rfl
    | ok search =>
      dsimp only [Except.toOption, Except.map, Option.map_some, Option.bind_some]
      by_cases hempty : search.countersV.isEmpty = true
      · rw [if_pos hempty, if_pos hempty]
      · rw [if_neg hempty, if_neg hempty]

end Version3.CounterSelection
