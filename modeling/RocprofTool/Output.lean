import Mathlib.Algebra.BigOperators.Group.List.Basic
import Mathlib.Algebra.GroupWithZero.Nat
import RocprofTool.Config

/-!
# Buffered outputs and what is made of them

Each service of the tool writes its records to a buffer of its own.  At the end `generate_output`
goes through the buffers of thirteen services and lets the template of the same name add each of
them to the totals, to the statistics and to the CSV files.  Versions 2 and 3 have the same calls
and differ in the template; this module is what they share.

The buffers, the statistics and the CSV writer belong to the profiling library.  A buffered output
is modelled by its contents, its size and whether it is enabled; `Library` has what the templates
call.  Nothing is assumed of the records but for those of the kernel dispatches, whose CSV text
version 3 makes itself.
-/

set_option autoImplicit false

namespace Tool

/-- `domain_type`, as far as there is a buffer that `generate_output` passes on. -/
inductive DomainType
  | hsa
  | hip
  | marker
  | kernelDispatch
  | memoryCopy
  | scratchMemory
  | counterCollection
  | rccl
  | memoryAllocation
  | rocdecode
  | rocjpeg
  | pcSamplingHostTrap
  | pcSamplingStochastic
  deriving DecidableEq, Repr

/-! ## Records -/

/-- `rocprofiler_dim3_t`. -/
structure Dim3 where
  x : ℕ
  y : ℕ
  z : ℕ
  deriving DecidableEq, Repr

/-- `rocprofiler_kernel_dispatch_info_t`. -/
structure KernelDispatchInfo where
  agentId : ℕ
  queueId : ℕ
  kernelId : ℕ
  dispatchId : ℕ
  privateSegmentSize : ℕ
  workgroupSize : Dim3
  gridSize : Dim3
  deriving DecidableEq, Repr

/-- `tool_buffer_tracing_kernel_dispatch_ext_record_t`. -/
structure KernelDispatchRecord where
  kind : ℕ
  threadId : ℕ
  streamId : ℕ
  correlationInternal : ℕ
  correlationExternal : ℕ
  startTimestamp : ℕ
  endTimestamp : ℕ
  dispatchInfo : KernelDispatchInfo
  deriving DecidableEq, Repr

/-- The type of the records of a service; `Other` has those that nothing here looks into. -/
abbrev RecordOf (Other : DomainType → Type) : DomainType → Type
  | .kernelDispatch => KernelDispatchRecord
  | d => Other d

/-- `tool::generator`: the chunks of a buffer, each of which was written because there was
something to write. -/
structure Generator (ρ : Type) where
  chunks : List (List ρ)
  chunk_ne_nil : ∀ chunk ∈ chunks, chunk ≠ []

/-- `generator::empty`. -/
def Generator.empty {ρ : Type} (g : Generator ρ) : Bool := g.chunks.isEmpty

/-! ## The library -/

/-- The symbol of a kernel, as `metadata::get_kernel_symbol` finds it. -/
structure KernelSymbol where
  groupSegmentSize : UInt32
  archVgprCount : ℕ
  accumVgprCount : ℕ
  sgprCount : ℕ
  deriving DecidableEq, Repr

/-- The functions of `tool::metadata`. -/
structure Metadata where
  getKindName : ℕ → String
  /-- Takes the id of the agent and `agent_index_value`. -/
  getAgentIndex : ℕ → ℕ → String
  getKernelSymbol : ℕ → Option KernelSymbol
  /-- Takes the id of the kernel, `kernel_rename` and the external correlation id. -/
  getKernelName : ℕ → Bool → ℕ → String

/-- A cell of a CSV row. -/
inductive Cell
  | text (s : String)
  | number (n : ℕ)
  deriving DecidableEq, Repr

/-- What the templates call, with the type of `stats_entry_t`. -/
structure Library (Other : DomainType → Type) (Stats : Type) where
  metadata : Metadata
  /-- `kernel_trace_with_stream_csv_encoder::write_row`. -/
  writeRow : List Cell → String
  /-- `stats_entry_t{}`. -/
  noStats : Stats
  /-- The conversion of `stats_entry_t` to `bool`. -/
  hasStats : Stats → Bool
  generateStats : Config → (d : DomainType) → Generator (RecordOf Other d) → Stats

/-- `tool::buffered_output`. -/
structure BufferedOutput (Other : DomainType → Type) (Stats : Type) (d : DomainType) where
  enabled : Bool
  generator : Generator (RecordOf Other d)
  numBytes : ℕ
  stats : Stats

/-! ## The state of `generate_output` -/

/-- What is written while the templates run. -/
inductive Effect (Stats : Type)
  /-- `ldmsd_stream_publish` of a string. -/
  | publish (message : String)
  /-- `generate_csv` for the buffer of a service. -/
  | generateCsv (d : DomainType) (stats : Stats)
  deriving DecidableEq, Repr

/-- `output_data`, the contributions and the cleanups, with a log of what was written.  The
totals are of type `uint64_t`; they count services and the bytes of files, and do not wrap. -/
structure OutputState (Stats : Type) where
  numOutput : ℕ := 0
  numBytes : ℕ := 0
  contributions : List (DomainType × Stats) := []
  cleanups : List DomainType := []
  effects : List (Effect Stats) := []

variable {Other : DomainType → Type} {Stats : Type}

/-- Is a CSV file written for a buffer of this size? -/
def Config.writesCsv (cfg : Config) (numBytes : ℕ) : Bool :=
  cfg.csvOutput && decide (numBytes ≥ cfg.minimumOutputBytes)

/-- What both versions of the template do with an output they have found to have data: the output
with its statistics, and the state. -/
def collectOutput (lib : Library Other Stats) (cfg : Config) {d : DomainType}
    (output : BufferedOutput Other Stats d) (s : OutputState Stats) :
    BufferedOutput Other Stats d × OutputState Stats :=
  let numBytes := output.numBytes
  let s := { s with numOutput := s.numOutput + 1, numBytes := s.numBytes + numBytes }
  let output :=
    if cfg.stats || cfg.summaryOutput then
      { output with stats := lib.generateStats cfg d output.generator }
    else output
  let s :=
    if lib.hasStats output.stats then
      { s with contributions := s.contributions ++ [(d, output.stats)] }
    else s
  let s :=
    if cfg.writesCsv numBytes then
      { s with effects := s.effects ++ [.generateCsv d output.stats] }
    else s
  (output, s)

/-! ## The thirteen calls -/

/-- What the buffer of each service holds. -/
structure Contents (Other : DomainType → Type) where
  generator : (d : DomainType) → Generator (RecordOf Other d)
  numBytes : DomainType → ℕ

/-- The argument with which the output of a service is constructed. -/
def Config.enabledFor (cfg : Config) : DomainType → Bool
  | .kernelDispatch => cfg.kernelTrace
  | .hsa => cfg.hsaCoreApiTrace || cfg.hsaAmdExtApiTrace || cfg.hsaImageExtApiTrace ||
      cfg.hsaFinalizerExtApiTrace
  | .hip => cfg.hipRuntimeApiTrace || cfg.hipCompilerApiTrace
  | .memoryCopy => cfg.memoryCopyTrace
  | .marker => cfg.markerApiTrace
  | .counterCollection => cfg.counterCollection
  | .scratchMemory => cfg.scratchMemoryTrace
  | .rccl => cfg.rcclApiTrace
  | .memoryAllocation => cfg.memoryAllocationTrace
  | .pcSamplingHostTrap => cfg.pcSamplingHostTrap
  | .rocdecode => cfg.rocdecodeApiTrace
  | .rocjpeg => cfg.rocjpegApiTrace
  | .pcSamplingStochastic => cfg.pcSamplingStochastic

/-- The buffered output of a service, as `generate_output` constructs it. -/
def bufferedOutput (lib : Library Other Stats) (cfg : Config) (contents : Contents Other)
    (d : DomainType) : BufferedOutput Other Stats d where
  enabled := cfg.enabledFor d
  generator := contents.generator d
  numBytes := contents.numBytes d
  stats := lib.noStats

/-- The services that `generate_output` passes to the template, in order. -/
def passedDomains : List DomainType :=
  [.kernelDispatch, .hsa, .hip, .memoryCopy, .memoryAllocation, .marker, .rccl,
    .counterCollection, .scratchMemory, .rocdecode, .pcSamplingHostTrap, .rocjpeg,
    .pcSamplingStochastic]

/-- The type of the template. -/
abbrev Template (Other : DomainType → Type) (Stats : Type) : Type :=
  (d : DomainType) → BufferedOutput Other Stats d → OutputState Stats →
    BufferedOutput Other Stats d × OutputState Stats

/-- The calls of the template for some services, one after the other. -/
def generateOutputs (template : Template Other Stats) (lib : Library Other Stats) (cfg : Config)
    (contents : Contents Other) (ds : List DomainType) (s : OutputState Stats) :
    OutputState Stats :=
  ds.foldl (fun s d ↦ (template d (bufferedOutput lib cfg contents d) s).2) s

/-! ## What the calls add up to -/

/-- Is the output of the service enabled, and does it have data? -/
def produces (cfg : Config) (contents : Contents Other) (d : DomainType) : Bool :=
  cfg.enabledFor d && !(contents.generator d).empty

/-- The service of a CSV file. -/
def Effect.csvDomain : Effect Stats → Option DomainType
  | .publish _ => none
  | .generateCsv d _ => some d

/-- The state without what was published. -/
def OutputState.withoutPublish (s : OutputState Stats) : OutputState Stats :=
  { s with effects := s.effects.filter fun e ↦ e.csvDomain.isSome }

/-- Everything the buffers hold is accounted for. -/
structure Complete (cfg : Config) (contents : Contents Other) (s : OutputState Stats) : Prop where
  numOutput : s.numOutput = (passedDomains.filter (produces cfg contents)).length
  numBytes : s.numBytes
    = ((passedDomains.filter (produces cfg contents)).map contents.numBytes).sum
  /-- There is an entry for each output with data, if statistics are asked for. -/
  contributions : (cfg.stats || cfg.summaryOutput) = true →
    s.contributions.map Prod.fst = passedDomains.filter (produces cfg contents)
  /-- There is a CSV file for each output with enough data, if CSV is asked for. -/
  csv : cfg.csvOutput = true → s.effects.filterMap Effect.csvDomain
    = (passedDomains.filter (produces cfg contents)).filter
        fun d ↦ decide (contents.numBytes d ≥ cfg.minimumOutputBytes)

/-- The statistics of an output that is collected. -/
def statsOf (lib : Library Other Stats) (cfg : Config) (contents : Contents Other)
    (d : DomainType) : Stats :=
  if cfg.stats || cfg.summaryOutput then lib.generateStats cfg d (contents.generator d)
  else lib.noStats

/-- What the output adds to the contributions. -/
def contribution (lib : Library Other Stats) (cfg : Config) (contents : Contents Other)
    (d : DomainType) : List (DomainType × Stats) :=
  if lib.hasStats (statsOf lib cfg contents d) then [(d, statsOf lib cfg contents d)] else []

/-- The CSV file of the output. -/
def csvEffects (lib : Library Other Stats) (cfg : Config) (contents : Contents Other)
    (d : DomainType) : List (Effect Stats) :=
  if cfg.writesCsv (contents.numBytes d) then [.generateCsv d (statsOf lib cfg contents d)]
  else []

/-- The messages, as effects. -/
def publishEffects (messages : List String) : List (Effect Stats) := messages.map .publish

/-- A template that collects some outputs with data, after it has published something. -/
def Template.Collects (template : Template Other Stats) (lib : Library Other Stats) (cfg : Config)
    (contents : Contents Other) (selects : DomainType → Bool)
    (messages : DomainType → List String) : Prop :=
  ∀ d s, (template d (bufferedOutput lib cfg contents d) s).2
    = if selects d then
        { numOutput := s.numOutput + 1
          numBytes := s.numBytes + contents.numBytes d
          contributions := s.contributions ++ contribution lib cfg contents d
          cleanups := s.cleanups ++ [d]
          effects := s.effects ++ (publishEffects (messages d) ++ csvEffects lib cfg contents d) }
      else { s with cleanups := s.cleanups ++ [d] }

variable {lib : Library Other Stats} {cfg : Config} {contents : Contents Other}

/-- **What collecting an output adds to the state.** -/
theorem collectOutput_eq (d : DomainType) (s : OutputState Stats) :
    (collectOutput lib cfg (bufferedOutput lib cfg contents d) s).2
      = { numOutput := s.numOutput + 1
          numBytes := s.numBytes + contents.numBytes d
          contributions := s.contributions ++ contribution lib cfg contents d
          cleanups := s.cleanups
          effects := s.effects ++ csvEffects lib cfg contents d } := by
  cases hstats : cfg.stats || cfg.summaryOutput with
  | false =>
    cases hhas : lib.hasStats lib.noStats <;>
      cases hcsv : cfg.writesCsv (contents.numBytes d) <;>
      simp only [collectOutput, bufferedOutput, contribution, csvEffects, statsOf, hstats, hhas,
        hcsv, Bool.false_eq_true, if_true, if_false, List.append_nil]
  | true =>
    cases hhas : lib.hasStats (lib.generateStats cfg d (contents.generator d)) <;>
      cases hcsv : cfg.writesCsv (contents.numBytes d) <;>
      simp only [collectOutput, bufferedOutput, contribution, csvEffects, statsOf, hstats, hhas,
        hcsv, Bool.false_eq_true, if_true, if_false, List.append_nil]

/-- **The calls of such a template add up.** -/
theorem generateOutputs_eq {template : Template Other Stats} {selects : DomainType → Bool}
    {messages : DomainType → List String}
    (h : template.Collects lib cfg contents selects messages) (ds : List DomainType)
    (s : OutputState Stats) :
    generateOutputs template lib cfg contents ds s
      = { numOutput := s.numOutput + (ds.filter selects).length
          numBytes := s.numBytes + ((ds.filter selects).map contents.numBytes).sum
          contributions := s.contributions ++
            (ds.filter selects).flatMap (contribution lib cfg contents)
          cleanups := s.cleanups ++ ds
          effects := s.effects ++ (ds.filter selects).flatMap fun d ↦
            publishEffects (messages d) ++ csvEffects lib cfg contents d } := by
  induction ds generalizing s with
  | nil => simp [generateOutputs]
  | cons d ds ih =>
    have hstep : generateOutputs template lib cfg contents (d :: ds) s
        = generateOutputs template lib cfg contents ds
            (template d (bufferedOutput lib cfg contents d) s).2 := rfl
    rw [hstep, ih, h d s]
    cases hd : selects d with
    | false => simp [hd]
    | true => simp [hd, Nat.add_assoc, Nat.add_comm 1]

/-! ## Totals, statistics and CSV files

In this section a template has been run for all the services. -/

section Collects

variable {template : Template Other Stats} {selects : DomainType → Bool}
  {messages : DomainType → List String}

theorem map_fst_contribution {ds : List DomainType}
    (h : ∀ d ∈ ds, lib.hasStats (statsOf lib cfg contents d) = true) :
    (ds.flatMap (contribution lib cfg contents)).map Prod.fst = ds := by
  induction ds with
  | nil => rfl
  | cons d ds ih =>
    rw [List.flatMap_cons, List.map_append, ih fun e he ↦ h e (List.mem_cons_of_mem _ he),
      contribution, if_pos (h d List.mem_cons_self)]
    rfl

theorem filterMap_csvDomain_publishEffects (ms : List String) :
    (publishEffects ms : List (Effect Stats)).filterMap Effect.csvDomain = [] := by
  induction ms with
  | nil => rfl
  | cons m ms ih => exact ih

theorem filterMap_csvDomain_csvEffects (d : DomainType) :
    (csvEffects lib cfg contents d).filterMap Effect.csvDomain
      = if cfg.writesCsv (contents.numBytes d) then [d] else [] := by
  rw [csvEffects]
  split <;> rfl

theorem filterMap_csvDomain_effects (hcsv : cfg.csvOutput = true) (ds : List DomainType) :
    (ds.flatMap fun d ↦ publishEffects (messages d) ++ csvEffects lib cfg contents d).filterMap
        Effect.csvDomain
      = ds.filter fun d ↦ decide (contents.numBytes d ≥ cfg.minimumOutputBytes) := by
  induction ds with
  | nil => rfl
  | cons d ds ih =>
    rw [List.flatMap_cons, List.filterMap_append, List.filterMap_append, ih,
      filterMap_csvDomain_publishEffects, filterMap_csvDomain_csvEffects, List.nil_append,
      List.filter_cons]
    by_cases hd : contents.numBytes d ≥ cfg.minimumOutputBytes <;>
      simp [Config.writesCsv, hcsv, hd]

/-- **Everything is accounted for when the template collects just the outputs with data.** -/
theorem complete_of_collects
    (h : template.Collects lib cfg contents selects messages)
    (hsel : passedDomains.filter selects = passedDomains.filter (produces cfg contents))
    (hstats : (cfg.stats || cfg.summaryOutput) = true → ∀ d, selects d = true →
      lib.hasStats (lib.generateStats cfg d (contents.generator d)) = true) :
    Complete cfg contents (generateOutputs template lib cfg contents passedDomains {}) := by
  rw [generateOutputs_eq h, hsel]
  refine ⟨by simp, by simp, fun hon ↦ ?_, fun hcsv ↦ ?_⟩
  · rw [List.nil_append]
    refine map_fst_contribution fun d hd ↦ ?_
    rw [statsOf, if_pos hon]
    exact hstats hon d (List.mem_filter.mp (hsel ▸ hd)).2
  · rw [List.nil_append]
    exact filterMap_csvDomain_effects hcsv _

/-- What is published is the only difference between two templates that collect the same. -/
theorem withoutPublish_of_collects
    (h : template.Collects lib cfg contents selects messages) :
    (generateOutputs template lib cfg contents passedDomains {}).withoutPublish
      = { numOutput := (passedDomains.filter selects).length
          numBytes := ((passedDomains.filter selects).map contents.numBytes).sum
          contributions := (passedDomains.filter selects).flatMap (contribution lib cfg contents)
          cleanups := passedDomains
          effects := (passedDomains.filter selects).flatMap (csvEffects lib cfg contents) } := by
  have heff : ∀ ds : List DomainType,
      (ds.flatMap fun d ↦ publishEffects (messages d) ++ csvEffects lib cfg contents d).filter
          (fun e ↦ e.csvDomain.isSome)
        = ds.flatMap (csvEffects lib cfg contents) := by
    intro ds
    induction ds with
    | nil => rfl
    | cons d ds ih =>
      have hpub : (publishEffects (messages d) : List (Effect Stats)).filter
          (fun e ↦ e.csvDomain.isSome) = [] := by
        simp [publishEffects, Effect.csvDomain]
      have hcsv : (csvEffects lib cfg contents d).filter (fun e ↦ e.csvDomain.isSome)
          = csvEffects lib cfg contents d := by
        rw [csvEffects]
        split <;> rfl
      rw [List.flatMap_cons, List.flatMap_cons, List.filter_append, List.filter_append, ih, hpub,
        hcsv, List.nil_append]
  rw [generateOutputs_eq h, OutputState.withoutPublish]
  simp only [Nat.zero_add, List.nil_append, heff]

end Collects

end Tool
