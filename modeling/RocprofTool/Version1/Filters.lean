import Mathlib.Data.List.Infix
import RocprofTool.Lib.CString
import RocprofTool.Lib.Loop

/-!
# The filters of version 1

`OnLoadToolProp` reads three variables from the environment: the metrics to collect, the GPUs and
the kernels to profile.  Each is split at blanks by a loop around `strtok`, which keeps the rest of
the string it is working on between its calls, and takes it up again when it is called with a null
pointer.  That is what it is called with at the start of a loop, too, when the variable is not set.

The loop for the GPUs tests the variable `metric`, which is null once the metrics are read: it is
never entered, the GPU filter stays empty, and what is left of the string is taken for the names of
kernels when the third variable is not set.  And without a first variable the first call of
`strtok` has nothing to take up.  `onLoadToolProp_meant_iff` says for which environments the
filters mean what they say.
-/

set_option autoImplicit false

open Loop

namespace Version1

/-- The ways in which the tool can come to a stop inside of a function. -/
inductive Fault
  /-- `abort`, or a failed assertion. -/
  | abort
  /-- Behaviour that the language does not define: a null or dangling pointer, an access out of
  bounds, a signed overflow. -/
  | undefined
  deriving DecidableEq, Repr

/-! ## Dispatches and their filters -/

/-- `hsa_kernel_dispatch_packet_t`, as far as it is read. -/
structure Packet where
  gridSizeX : UInt32
  gridSizeY : UInt32
  gridSizeZ : UInt32
  workgroupSizeX : UInt16
  workgroupSizeY : UInt16
  workgroupSizeZ : UInt16
  groupSegmentSize : UInt32
  privateSegmentSize : UInt32
  kernelObject : UInt64
  deriving DecidableEq, Repr

/-- `amd_kernel_code_t`, as far as it is read. -/
structure KernelCode where
  computePgmRsrc1 : UInt32
  workgroupFbarrierCount : UInt32
  deriving DecidableEq, Repr

/-- `rocprofiler_callback_data_t`, as far as it is read.  `kernelName`, `kernelCode` and `record`
are pointers and may be null; a record is named by where it is in memory. -/
structure CallbackData where
  agent : UInt64
  agentIndex : UInt32
  queue : UInt64
  kernelName : Option (List Char)
  kernelCode : Option KernelCode
  packet : Packet
  completionSignal : UInt64
  record : Option ℕ
  deriving DecidableEq, Repr

/-- `callbacks_data_t`, as far as it is read.  The features are named by the metrics; `set`,
`gpuIndex` and `kernelString` are pointers and may be null. -/
structure CallbacksData where
  features : List (List Char)
  set : Option (List UInt32)
  filterOn : Bool
  gpuIndex : Option (List UInt32)
  kernelString : Option (List (List Char))
  deriving DecidableEq, Repr

/-- `check_filter`. -/
def checkFilter (callbackData : CallbackData) (toolData : CallbacksData) : Except Fault Bool :=
  let found :=
    match toolData.gpuIndex with
    | none => true
    | some gpuIndex => gpuIndex.any fun i ↦ i == callbackData.agentIndex
  match found, toolData.kernelString with
  | true, some kernelString =>
    match kernelString, callbackData.kernelName with
    | [], _ => .ok false
    | _ :: _, none => .error .undefined
    | _ :: _, some name => .ok (kernelString.any fun s ↦ decide (s <:+: name))
  | found, _ => .ok found

/-- The condition under which `dispatch_callback` goes on to open a profiling context. -/
def opensContext (callbackData : CallbackData) (toolData : CallbacksData) : Except Fault Bool :=
  if toolData.filterOn then checkFilter callbackData toolData else .ok true

/-! ## Reading the environment -/

/-- The variables `ROCP_INPUT_METRICS`, `ROCP_FILTER_GPUS` and `ROCP_FILTER_KERNELS`, each of
them `none` when it is not set. -/
structure Environment where
  inputMetrics : Option (List Char)
  filterGpus : Option (List Char)
  filterKernels : Option (List Char)
  deriving DecidableEq, Repr

/-- `dil`. -/
def dil (c : Char) : Bool := c == ' '

/-- `strtok(s, dil)`, with the string that it has saved: the token and what is saved now. -/
def strtok (s saved : Option (List Char)) :
    Except Fault (Option (List Char) × Option (List Char)) :=
  match CString.strtok dil s saved with
  | none => .error .undefined
  | some (token, rest) => .ok (token, some rest)

/-- What one of the three loops works on: its current token, the string that `strtok` has saved,
and the vector that it fills. -/
structure TokenLoop (β : Type) where
  token : Option (List Char)
  saved : Option (List Char)
  vec : List β
  deriving DecidableEq, Repr

/-- The body of the three loops. -/
def TokenLoop.body {β : Type} (read : List Char → β) (s : TokenLoop β) :
    Except Fault (TokenLoop β) :=
  match s.token with
  | none => .error .undefined
  | some t =>
    match strtok none s.saved with
    | .error e => .error e
    | .ok (token, saved) => .ok ⟨token, saved, s.vec ++ [read t]⟩

/-- One of the three parts: the loop is started with a variable, and `cond` is what it tests. -/
def readTokens {β : Type} (fuel : ℕ) (cond : TokenLoop β → Bool) (read : List Char → β)
    (value saved : Option (List Char)) : Except (Halt Fault) (TokenLoop β) :=
  match strtok value saved with
  | .error e => .error (.fault e)
  | .ok (token, saved) => whileLoop cond (TokenLoop.body read) fuel ⟨token, saved, []⟩

/-- What `OnLoadToolProp` sets up: the three vectors, whether the optimised mode is chosen, and
else the data for `dispatch_callback`. -/
structure Loaded where
  metricsVec : List (List Char)
  gpuIndexVec : List UInt32
  kernelStringVec : List (List Char)
  optMode : Bool
  callbacksData : Option CallbacksData
  deriving DecidableEq, Repr

/-- The data for `dispatch_callback` that `OnLoadToolProp` sets up. -/
def makeCallbacksData (metricsVec : List (List Char)) (gpuIndexVec : List UInt32)
    (kernelStringVec : List (List Char)) : CallbacksData :=
  let gpuIndex := if gpuIndexVec.isEmpty then none else some gpuIndexVec
  let kernelString := if kernelStringVec.isEmpty then none else some kernelStringVec
  { features := metricsVec
    set := none
    filterOn := gpuIndex.isSome || kernelString.isSome
    gpuIndex, kernelString }

/-- The end of `OnLoadToolProp`, from the three vectors on. -/
def choose (optMode : Bool) (metricsVec : List (List Char)) (gpuIndexVec : List UInt32)
    (kernelStringVec : List (List Char)) : Loaded :=
  let filterDisabled := gpuIndexVec.isEmpty && kernelStringVec.isEmpty
  let featuresFound := metricsVec.length
  let optModeCond := featuresFound != 0 && filterDisabled
  let optModeCond := if !optMode then false else optModeCond
  { metricsVec, gpuIndexVec, kernelStringVec
    optMode := optModeCond
    callbacksData :=
      if optModeCond then none
      else some (makeCallbacksData metricsVec gpuIndexVec kernelStringVec) }

/-- `OnLoadToolProp`, from the reading of the metrics on; `optMode` is whether the settings ask for
the optimised mode.  No string has been split before. -/
def onLoadToolProp (fuel : ℕ) (optMode : Bool) (env : Environment) :
    Except (Halt Fault) Loaded := do
  -- Getting metrics
  let metrics ← readTokens fuel (fun s ↦ s.token.isSome) id env.inputMetrics none
  let metric := metrics.token
  -- Getting GPU indexes; the loop tests the variable of the loop before
  let gpus ← readTokens fuel (fun _ ↦ metric.isSome)
    (fun gpu ↦ UInt32.ofInt (CString.atoi gpu)) env.filterGpus metrics.saved
  -- Getting kernel names
  let kernels ← readTokens fuel (fun s ↦ s.token.isSome) id env.filterKernels gpus.saved
  return choose optMode metrics.vec gpus.vec kernels.vec

/-! ## What the environment means -/

/-- The words of a variable, none when it is not set. -/
def words (value : Option (List Char)) : List (List Char) :=
  (value.map (CString.tokens dil)).getD []

/-- The GPUs that a variable names. -/
def gpuIndices (value : Option (List Char)) : List UInt32 :=
  (words value).map fun gpu ↦ UInt32.ofInt (CString.atoi gpu)

/-- The vectors are what the variables say, and with `dispatch_callback` a profiling context is
opened for just the dispatches that the filters let through. -/
structure Meant (env : Environment) (loaded : Loaded) : Prop where
  metricsVec : loaded.metricsVec = words env.inputMetrics
  gpuIndexVec : loaded.gpuIndexVec = gpuIndices env.filterGpus
  kernelStringVec : loaded.kernelStringVec = words env.filterKernels
  opens : ∀ toolData, loaded.callbacksData = some toolData → ∀ callbackData name,
    callbackData.kernelName = some name →
      (opensContext callbackData toolData = .ok true ↔
        (words env.filterGpus = [] ∨ callbackData.agentIndex ∈ gpuIndices env.filterGpus) ∧
          (words env.filterKernels = [] ∨ ∃ kernel ∈ words env.filterKernels, kernel <:+: name))

/-- **One of the loops reads all the words**, when its condition tests its own token. -/
theorem whileLoop_tokens {β : Type} (read : List Char → β) {rest : List Char}
    {ts : List (List Char)} (h : CString.tokens dil rest = ts) (vec : List β) :
    whileLoop (fun s ↦ s.token.isSome) (TokenLoop.body read) ts.length
        ⟨(CString.nextToken dil rest).1, some (CString.nextToken dil rest).2, vec⟩
      = .ok ⟨none, some [], vec ++ ts.map read⟩ := by
  induction ts generalizing rest vec with
  | nil =>
    rw [CString.nextToken_of_tokens_nil dil h, whileLoop_of_not rfl]
    simp
  | cons t ts ih =>
    obtain ⟨rest', hnext, hrest⟩ := CString.nextToken_of_tokens_cons dil h
    have hbody : TokenLoop.body read ⟨some t, some rest', vec⟩
        = .ok ⟨(CString.nextToken dil rest').1, some (CString.nextToken dil rest').2,
            vec ++ [read t]⟩ := rfl
    rw [hnext, List.length_cons, whileLoop_round rfl hbody, ih hrest]
    simp

/-- What a loop reads when there is a string to split: the variable if it is set, and else what
`strtok` has saved. -/
theorem readTokens_eq {β : Type} (read : List Char → β) {value saved : Option (List Char)}
    {s : List Char} (h : value.or saved = some s) {fuel : ℕ}
    (hfuel : (CString.tokens dil s).length ≤ fuel) :
    readTokens fuel (fun s ↦ s.token.isSome) read value saved
      = .ok ⟨none, some [], (CString.tokens dil s).map read⟩ := by
  have hstrtok : strtok value saved
      = .ok ((CString.nextToken dil s).1, some (CString.nextToken dil s).2) := by
    rw [strtok, CString.strtok, h]
    rfl
  rw [readTokens, hstrtok]
  exact whileLoop_mono hfuel (whileLoop_tokens read rfl [])

/-- A loop whose condition is false reads nothing, but its variable has been split once. -/
theorem readTokens_of_not {β : Type} {read : List Char → β} {value saved : Option (List Char)}
    {s : List Char} (h : value.or saved = some s) (fuel : ℕ) :
    readTokens fuel (fun _ ↦ false) read value saved
      = .ok ⟨(CString.nextToken dil s).1, some (CString.nextToken dil s).2, []⟩ := by
  have hstrtok : strtok value saved
      = .ok ((CString.nextToken dil s).1, some (CString.nextToken dil s).2) := by
    rw [strtok, CString.strtok, h]
    rfl
  rw [readTokens, hstrtok]
  exact whileLoop_of_not rfl fuel

theorem bind_ok {ε α β : Type} {x : Except ε α} {f : α → Except ε β} {b : β}
    (h : x >>= f = .ok b) : ∃ a, x = .ok a ∧ f a = .ok b := by
  cases x with
  | error e => cases h
  | ok a => exact ⟨a, rfl, h⟩

/-- After a loop that tests its own token there is none left. -/
theorem token_of_readTokens {β : Type} {read : List Char → β} {fuel : ℕ}
    {value saved : Option (List Char)} {t : TokenLoop β}
    (h : readTokens fuel (fun s ↦ s.token.isSome) read value saved = .ok t) : t.token = none := by
  rw [readTokens] at h
  cases hs : strtok value saved with
  | error e => simp [hs] at h
  | ok p =>
    simp only [hs] at h
    simpa using cond_of_whileLoop h

/-- **The GPU filter is always empty**: the loop that fills it is not entered. -/
theorem gpuIndexVec_of_onLoadToolProp {fuel : ℕ} {optMode : Bool} {env : Environment}
    {loaded : Loaded} (h : onLoadToolProp fuel optMode env = .ok loaded) :
    loaded.gpuIndexVec = [] ∧ env.inputMetrics ≠ none := by
  obtain ⟨metrics, hmetrics, h⟩ := bind_ok h
  obtain ⟨gpus, hgpus, h⟩ := bind_ok h
  obtain ⟨kernels, -, h⟩ := bind_ok h
  cases h
  rw [token_of_readTokens hmetrics] at hgpus
  refine ⟨?_, ?_⟩
  · rw [readTokens] at hgpus
    cases hs : strtok env.filterGpus metrics.saved with
    | error e => simp [hs] at hgpus
    | ok p =>
      simp only [hs] at hgpus
      rw [whileLoop_of_not rfl] at hgpus
      cases hgpus
      rfl
  · intro hnone
    rw [hnone] at hmetrics
    cases hmetrics

/-- A set variable without words leaves as little behind as one that is not set. -/
theorem nextToken_of_words_nil {value : Option (List Char)} (h : words value = []) :
    ∃ s, value.or (some []) = some s ∧ CString.nextToken dil s = (none, []) := by
  cases value with
  | none => exact ⟨[], rfl, rfl⟩
  | some s => exact ⟨s, rfl, CString.nextToken_of_tokens_nil dil h⟩

/-- **With metrics, and no GPU to filter for, the three vectors are right.** -/
theorem onLoadToolProp_eq {env : Environment} (optMode : Bool)
    (hmetrics : env.inputMetrics ≠ none) (hgpus : words env.filterGpus = []) :
    ∃ fuel, onLoadToolProp fuel optMode env
      = .ok (choose optMode (words env.inputMetrics) [] (words env.filterKernels)) := by
  obtain ⟨m, hm⟩ := Option.ne_none_iff_exists'.mp hmetrics
  obtain ⟨g, hg, hnext⟩ := nextToken_of_words_nil hgpus
  have hk : ∃ k, env.filterKernels.or (some []) = some k ∧
      CString.tokens dil k = words env.filterKernels := by
    cases env.filterKernels with
    | none => exact ⟨[], rfl, rfl⟩
    | some k => exact ⟨k, rfl, rfl⟩
  obtain ⟨k, hk, hkwords⟩ := hk
  let fuel := max (CString.tokens dil m).length (CString.tokens dil k).length
  have h1 : readTokens fuel (fun s ↦ s.token.isSome) id env.inputMetrics none
      = .ok ⟨none, some [], words env.inputMetrics⟩ := by
    rw [readTokens_eq id (by rw [hm]; rfl) (Nat.le_max_left _ _), List.map_id, hm]
    rfl
  have h2 : readTokens fuel (fun _ ↦ false) (fun gpu ↦ UInt32.ofInt (CString.atoi gpu))
      env.filterGpus (some []) = .ok ⟨none, some [], []⟩ := by
    rw [readTokens_of_not hg fuel, hnext]
  have h3 : readTokens fuel (fun s ↦ s.token.isSome) id env.filterKernels (some [])
      = .ok ⟨none, some [], words env.filterKernels⟩ := by
    rw [readTokens_eq id hk (Nat.le_max_right _ _), List.map_id, hkwords]
  refine ⟨fuel, ?_⟩
  rw [onLoadToolProp, h1]
  simp only [bind, Except.bind, Option.isSome_none, h2, h3]
  rfl

theorem opensContext_choose {optMode : Bool} {metricsVec kernelStringVec : List (List Char)}
    {toolData : CallbacksData}
    (h : (choose optMode metricsVec [] kernelStringVec).callbacksData = some toolData)
    {callbackData : CallbackData} {name : List Char} (hname : callbackData.kernelName = some name) :
    opensContext callbackData toolData = .ok true ↔
      kernelStringVec = [] ∨ ∃ kernel ∈ kernelStringVec, kernel <:+: name := by
  have htool : toolData = makeCallbacksData metricsVec [] kernelStringVec := by
    rw [choose, Option.ite_none_left_eq_some] at h
    exact (Option.some.inj h.2).symm
  subst htool
  cases kernelStringVec with
  | nil => simp [opensContext, makeCallbacksData]
  | cons kernel kernels => simp [opensContext, makeCallbacksData, checkFilter, hname]

/-- **Exactly when the environment means what it says**: when there is a variable for the metrics,
and no GPU is named. -/
theorem onLoadToolProp_meant_iff (optMode : Bool) (env : Environment) :
    (∃ fuel loaded, onLoadToolProp fuel optMode env = .ok loaded ∧ Meant env loaded) ↔
      env.inputMetrics ≠ none ∧ words env.filterGpus = [] := by
  constructor
  · rintro ⟨fuel, loaded, hload, hmeant⟩
    obtain ⟨hempty, hmetrics⟩ := gpuIndexVec_of_onLoadToolProp hload
    refine ⟨hmetrics, ?_⟩
    rw [hmeant.gpuIndexVec, gpuIndices, List.map_eq_nil_iff] at hempty
    exact hempty
  · rintro ⟨hmetrics, hgpus⟩
    obtain ⟨fuel, hload⟩ := onLoadToolProp_eq optMode hmetrics hgpus
    refine ⟨fuel, _, hload, rfl, ?_, rfl, fun toolData ht callbackData name hname ↦ ?_⟩
    · rw [gpuIndices, hgpus]
      rfl
    · rw [opensContext_choose ht hname, hgpus]
      exact (and_iff_right (Or.inl rfl)).symm

/-- **A GPU is named and taken for the name of a kernel**: with the variables `SQ_WAVES`, `0 1` and
none, the GPU filter is empty and the kernels are to have a `1` in their names. -/
theorem gpu_filter_leaks :
    onLoadToolProp 8 false ⟨some "SQ_WAVES".toList, some "0 1".toList, none⟩
        = .ok (choose false ["SQ_WAVES".toList] [] ["1".toList]) ∧
      gpuIndices (some "0 1".toList) = [0, 1] ∧
      ¬∃ fuel loaded,
        onLoadToolProp fuel false ⟨some "SQ_WAVES".toList, some "0 1".toList, none⟩ = .ok loaded ∧
          Meant ⟨some "SQ_WAVES".toList, some "0 1".toList, none⟩ loaded := by
  refine ⟨by decide, by decide, ?_⟩
  rintro ⟨fuel, loaded, hload, hmeant⟩
  have hempty := (gpuIndexVec_of_onLoadToolProp hload).1
  rw [hmeant.gpuIndexVec] at hempty
  revert hempty
  decide

end Version1
