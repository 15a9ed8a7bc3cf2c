import RocprofTool.Version2.Output

/-!
# The output of version 3

Version 3 publishes the kernel dispatches as CSV text to a stream.  Its template makes the text and
publishes it in a branch for `KERNEL_DISPATCH`, and the rest of the code, which in version 2 is run
for every service, has ended up in that branch too: the other twelve services are neither counted
nor do they get statistics or CSV files.

`generateOutputs_complete_iff` says when that makes a difference: as soon as one of the twelve is
enabled and has data.
-/

set_option autoImplicit false

open Tool

namespace Version3

variable {Other : DomainType → Type} {Stats : Type}

/-! ## The CSV text of the kernel dispatches -/

/-- The header of the text. -/
def csvHeader : String :=
  "Kind,Agent_Id,Queue_Id,Stream_Id,Thread_Id,Dispatch_Id,Kernel_Id," ++
  "Kernel_Name,Correlation_Id,Start_Timestamp,End_Timestamp,LDS_Block_Size," ++
  "Scratch_Size,VGPR_Count,Accum_VGPR_Count,SGPR_Count,Workgroup_Size_X," ++
  "Workgroup_Size_Y,Workgroup_Size_Z,Grid_Size_X,Grid_Size_Y,Grid_Size_Z\n"

/-- The size of the group segment, rounded up to the alignment. -/
def ldsBlockSize (groupSegmentSize : UInt32) : UInt64 :=
  let ldsAlignMask : UInt64 := 128
  (groupSegmentSize.toUInt64 + (ldsAlignMask - 1)) &&& ~~~(ldsAlignMask - 1)

/-- The cells of the row of a record. -/
def csvCells (cfg : Config) (metadata : Metadata) (record : KernelDispatchRecord)
    (kernelInfo : KernelSymbol) : List Cell :=
  let info := record.dispatchInfo
  let kernelName :=
    metadata.getKernelName info.kernelId cfg.kernelRename record.correlationExternal
  [.text (metadata.getKindName record.kind),
    .text (metadata.getAgentIndex info.agentId cfg.agentIndexValue),
    .number info.queueId, .number record.streamId, .number record.threadId,
    .number info.dispatchId, .number info.kernelId, .text kernelName,
    .number record.correlationInternal, .number record.startTimestamp, .number record.endTimestamp,
    .number (ldsBlockSize kernelInfo.groupSegmentSize).toNat, .number info.privateSegmentSize,
    .number kernelInfo.archVgprCount, .number kernelInfo.accumVgprCount,
    .number kernelInfo.sgprCount, .number info.workgroupSize.x, .number info.workgroupSize.y,
    .number info.workgroupSize.z, .number info.gridSize.x, .number info.gridSize.y,
    .number info.gridSize.z]

/-! ## The columns

What a row is to hold, without a look at the function that makes it. -/

/-- A column of the text: its name in the header, and the cell of a record and its symbol. -/
structure Column where
  name : String
  cell : Config → Metadata → KernelDispatchRecord → KernelSymbol → Cell

/-- The columns, from left to right.  A block of the LDS has a multiple of 128 bytes. -/
def columns : List Column :=
  [⟨"Kind", fun _ metadata record _ ↦ .text (metadata.getKindName record.kind)⟩,
    ⟨"Agent_Id", fun cfg metadata record _ ↦
      .text (metadata.getAgentIndex record.dispatchInfo.agentId cfg.agentIndexValue)⟩,
    ⟨"Queue_Id", fun _ _ record _ ↦ .number record.dispatchInfo.queueId⟩,
    ⟨"Stream_Id", fun _ _ record _ ↦ .number record.streamId⟩,
    ⟨"Thread_Id", fun _ _ record _ ↦ .number record.threadId⟩,
    ⟨"Dispatch_Id", fun _ _ record _ ↦ .number record.dispatchInfo.dispatchId⟩,
    ⟨"Kernel_Id", fun _ _ record _ ↦ .number record.dispatchInfo.kernelId⟩,
    ⟨"Kernel_Name", fun cfg metadata record _ ↦
      .text (metadata.getKernelName record.dispatchInfo.kernelId cfg.kernelRename
        record.correlationExternal)⟩,
    ⟨"Correlation_Id", fun _ _ record _ ↦ .number record.correlationInternal⟩,
    ⟨"Start_Timestamp", fun _ _ record _ ↦ .number record.startTimestamp⟩,
    ⟨"End_Timestamp", fun _ _ record _ ↦ .number record.endTimestamp⟩,
    ⟨"LDS_Block_Size", fun _ _ _ symbol ↦
      .number ((symbol.groupSegmentSize.toNat + 127) / 128 * 128)⟩,
    ⟨"Scratch_Size", fun _ _ record _ ↦ .number record.dispatchInfo.privateSegmentSize⟩,
    ⟨"VGPR_Count", fun _ _ _ symbol ↦ .number symbol.archVgprCount⟩,
    ⟨"Accum_VGPR_Count", fun _ _ _ symbol ↦ .number symbol.accumVgprCount⟩,
    ⟨"SGPR_Count", fun _ _ _ symbol ↦ .number symbol.sgprCount⟩,
    ⟨"Workgroup_Size_X", fun _ _ record _ ↦ .number record.dispatchInfo.workgroupSize.x⟩,
    ⟨"Workgroup_Size_Y", fun _ _ record _ ↦ .number record.dispatchInfo.workgroupSize.y⟩,
    ⟨"Workgroup_Size_Z", fun _ _ record _ ↦ .number record.dispatchInfo.workgroupSize.z⟩,
    ⟨"Grid_Size_X", fun _ _ record _ ↦ .number record.dispatchInfo.gridSize.x⟩,
    ⟨"Grid_Size_Y", fun _ _ record _ ↦ .number record.dispatchInfo.gridSize.y⟩,
    ⟨"Grid_Size_Z", fun _ _ record _ ↦ .number record.dispatchInfo.gridSize.z⟩]

/-- The header line. -/
def headerLine : String := ",".intercalate (columns.map Column.name) ++ "\n"

/-- The cells of a row, one for each column. -/
def rowCells (cfg : Config) (metadata : Metadata) (record : KernelDispatchRecord)
    (symbol : KernelSymbol) : List Cell :=
  columns.map fun column ↦ column.cell cfg metadata record symbol

theorem csvHeader_eq : csvHeader = headerLine := by decide +kernel

/-- A mask without the lowest seven bits. -/
theorem and_mask_eq {n : ℕ} (hn : n < 2 ^ 64) : n &&& (2 ^ 64 - 128) = n / 128 * 128 := by
  refine Nat.eq_of_testBit_eq fun i ↦ ?_
  have hmask : (2 ^ 64 - 128 : ℕ).testBit i = (decide (i < 64) && !decide (i < 7)) := by
    have hlow : (127 : ℕ).testBit i = decide (i < 7) := Nat.testBit_two_pow_sub_one 7 i
    rw [← hlow]
    exact Nat.testBit_two_pow_sub_succ (x := 127) (n := 64) (by decide) i
  have hlarge : 64 ≤ i → n.testBit i = false := fun hi ↦
    Nat.testBit_lt_two_pow (Nat.lt_of_lt_of_le hn (Nat.pow_le_pow_right Nat.two_pos hi))
  rw [Nat.testBit_and, hmask, show (128 : ℕ) = 2 ^ 7 from rfl, Nat.testBit_mul_two_pow,
    Nat.testBit_div_two_pow]
  by_cases hi : i < 7
  · simp [hi, Nat.not_le.mpr hi]
  · have hle := Nat.not_lt.mp hi
    rw [Nat.sub_add_cancel hle]
    by_cases hi' : i < 64
    · simp [hi, hi', hle]
    · simp [hlarge (Nat.not_lt.mp hi')]

theorem toNat_ldsBlockSize (groupSegmentSize : UInt32) :
    (ldsBlockSize groupSegmentSize).toNat = (groupSegmentSize.toNat + 127) / 128 * 128 := by
  have hlt := groupSegmentSize.toNat_lt
  have hsum : (groupSegmentSize.toUInt64 + (128 - 1)).toNat = groupSegmentSize.toNat + 127 := by
    have hone : (128 - 1 : UInt64).toNat = 127 := rfl
    rw [UInt64.toNat_add, UInt32.toNat_toUInt64, hone, Nat.mod_eq_of_lt (by omega)]
  have hmask : (~~~(128 - 1) : UInt64).toNat = 2 ^ 64 - 128 := rfl
  rw [ldsBlockSize, UInt64.toNat_and, hmask, hsum, and_mask_eq (by omega)]

/-- **The cells of a row are those of the columns.** -/
theorem csvCells_eq (cfg : Config) (metadata : Metadata) (record : KernelDispatchRecord)
    (symbol : KernelSymbol) : csvCells cfg metadata record symbol
      = rowCells cfg metadata record symbol := by
  rw [csvCells, toNat_ldsBlockSize]
  rfl

/-! ## The loops -/

/-- The body of the two loops: the text so far, and whether there was a record. -/
def csvStep (lib : Library Other Stats) (cfg : Config) (acc : String × Bool)
    (record : KernelDispatchRecord) : String × Bool :=
  match lib.metadata.getKernelSymbol record.dispatchInfo.kernelId with
  | none => (acc.1, true)  -- the symbol is missing, and the record is skipped
  | some kernelInfo => (acc.1 ++ lib.writeRow (csvCells cfg lib.metadata record kernelInfo), true)

/-- `get_kernel_dispatch_csv_string`. -/
def getKernelDispatchCsvString (lib : Library Other Stats) (cfg : Config)
    (data : Generator KernelDispatchRecord) : String :=
  let acc := data.chunks.foldl (fun acc chunk ↦ chunk.foldl (csvStep lib cfg) acc)
    (csvHeader, false)
  if !acc.2 then "" else acc.1

/-! ## The template -/

/-- `generate_output<Tp, DomainT>`. -/
def generateOutput (lib : Library Other Stats) (cfg : Config) : Template Other Stats :=
  fun d output s ↦
    let s := { s with cleanups := s.cleanups ++ [d] }
    if !output.enabled then (output, s)
    else if cfg.benchmarkMode ≠ .none then (output, s)
    else if output.generator.empty then (output, s)
    else
      match d, output with
      | .kernelDispatch, output =>
        let csvString := getKernelDispatchCsvString lib cfg output.generator
        let s :=
          if csvString ≠ "" then { s with effects := s.effects ++ [.publish csvString] } else s
        -- the rest of the code
        collectOutput lib cfg output s
      | _, output => (output, s)

/-- The thirteen calls of `generate_output`. -/
def generateOutputs (lib : Library Other Stats) (cfg : Config) (contents : Contents Other) :
    OutputState Stats :=
  Tool.generateOutputs (generateOutput lib cfg) lib cfg contents passedDomains {}

/-! ## Which outputs are accounted for -/

variable {lib : Library Other Stats} {cfg : Config} {contents : Contents Other}

/-- The outputs that the template collects. -/
def collects (cfg : Config) (contents : Contents Other) (d : DomainType) : Bool :=
  produces cfg contents d && decide (d = .kernelDispatch)

/-- The messages of the template. -/
def messages (lib : Library Other Stats) (cfg : Config) (contents : Contents Other)
    (_ : DomainType) : List String :=
  let csvString := getKernelDispatchCsvString lib cfg (contents.generator .kernelDispatch)
  if csvString ≠ "" then [csvString] else []

/-- The template collects the kernel dispatches and no other output. -/
theorem generateOutput_collects (hbench : cfg.benchmarkMode = .none) :
    (generateOutput lib cfg).Collects lib cfg contents (collects cfg contents)
      (messages lib cfg contents) := by
  intro d s
  cases hen : cfg.enabledFor d with
  | false => simp [generateOutput, bufferedOutput, collects, produces, hen]
  | true =>
    cases hempty : (contents.generator d).empty with
    | true => simp [generateOutput, bufferedOutput, collects, produces, hen, hbench, hempty]
    | false =>
      by_cases hd : d = .kernelDispatch
      · subst hd
        set csvString := getKernelDispatchCsvString lib cfg (contents.generator .kernelDispatch)
          with hcsv
        have hcollect : generateOutput lib cfg _ (bufferedOutput lib cfg contents _) s
            = collectOutput lib cfg (bufferedOutput lib cfg contents .kernelDispatch)
                { s with
                  cleanups := s.cleanups ++ [.kernelDispatch]
                  effects := s.effects ++ publishEffects (messages lib cfg contents
                    .kernelDispatch) } := by
          by_cases hne : csvString = "" <;>
            simp [generateOutput, bufferedOutput, hen, hbench, hempty, messages, ← hcsv, hne,
              publishEffects]
        rw [hcollect, collectOutput_eq]
        simp [collects, produces, hen, hempty]
      · have hnot : generateOutput lib cfg d (bufferedOutput lib cfg contents d) s
            = (bufferedOutput lib cfg contents d, { s with cleanups := s.cleanups ++ [d] }) := by
          cases d with
          | kernelDispatch => exact absurd rfl hd
          | _ => simp [generateOutput, bufferedOutput, hen, hbench, hempty]
        rw [hnot]
        simp [collects, hd]

theorem mem_passedDomains (d : DomainType) : d ∈ passedDomains := by
  cases d <;> decide

theorem filter_collects (cfg : Config) (contents : Contents Other) :
    passedDomains.filter (collects cfg contents)
      = (passedDomains.filter (produces cfg contents)).filter
          fun d ↦ decide (d = .kernelDispatch) := by
  rw [List.filter_filter]
  exact List.filter_congr fun d _ ↦ Bool.and_comm _ _

/-- If as many outputs are collected as have data, then only the kernel dispatches have. -/
theorem produces_eq_false_of_length_eq
    (h : (passedDomains.filter (collects cfg contents)).length
      = (passedDomains.filter (produces cfg contents)).length)
    {d : DomainType} (hd : d ≠ .kernelDispatch) : produces cfg contents d = false := by
  rw [filter_collects] at h
  have heq := List.filter_sublist.eq_of_length h
  by_contra hp
  have hmem : d ∈ passedDomains.filter (produces cfg contents) :=
    List.mem_filter.mpr ⟨mem_passedDomains d, by simpa using hp⟩
  rw [← heq] at hmem
  exact hd (by simpa using (List.mem_filter.mp hmem).2)

theorem collects_eq_produces (h : ∀ d, d ≠ .kernelDispatch → produces cfg contents d = false) :
    collects cfg contents = produces cfg contents := by
  funext d
  by_cases hd : d = .kernelDispatch
  · simp [collects, hd]
  · simp [collects, h d hd]

/-- **Exactly when version 3 accounts for everything, as version 2 does**: when no output but that
of the kernel dispatches is enabled and has data. -/
theorem generateOutputs_complete_iff (hbench : cfg.benchmarkMode = .none)
    (hstats : ∀ g : Generator KernelDispatchRecord, g.empty = false →
      lib.hasStats (lib.generateStats cfg .kernelDispatch g) = true) :
    (Complete cfg contents (generateOutputs lib cfg contents) ∧
      (generateOutputs lib cfg contents).withoutPublish
        = Version2.generateOutputs lib cfg contents) ↔
      ∀ d, d ≠ .kernelDispatch → produces cfg contents d = false := by
  have h3 : (generateOutput lib cfg).Collects lib cfg contents (collects cfg contents)
      (messages lib cfg contents) := generateOutput_collects hbench
  have h2 : (Version2.generateOutput lib cfg).Collects lib cfg contents (produces cfg contents)
      fun _ ↦ [] := Version2.generateOutput_collects hbench
  constructor
  · rintro ⟨hcomplete, -⟩ d hd
    have hlen := hcomplete.numOutput
    rw [generateOutputs, generateOutputs_eq h3] at hlen
    exact produces_eq_false_of_length_eq (by simpa using hlen) hd
  · intro h
    have hsel := collects_eq_produces h
    rw [hsel] at h3
    refine ⟨complete_of_collects h3 rfl fun _ d hp ↦ ?_, ?_⟩
    · have hd : d = .kernelDispatch := by
        by_contra hd
        rw [h d hd] at hp
        cases hp
      subst hd
      rw [produces, Bool.and_eq_true] at hp
      exact hstats _ (by simpa using hp.2)
    · rw [generateOutputs, withoutPublish_of_collects h3, Version2.generateOutputs,
        generateOutputs_eq h2]
      simp [publishEffects]

/-! ## An example -/

/-- A library whose statistics are the number of records. -/
def countingLibrary : Library (fun _ ↦ Unit) ℕ where
  metadata := ⟨fun _ ↦ "KERNEL_DISPATCH", fun _ _ ↦ "Agent 1",
    fun kernelId ↦ if kernelId = 16 then some ⟨0, 4, 0, 16⟩ else none, fun _ _ _ ↦ "kernel"⟩
  writeRow cells := ",".intercalate (cells.map fun
    | .text s => s
    | .number n => toString n) ++ "\n"
  noStats := 0
  hasStats n := n != 0
  generateStats _ _ g := g.chunks.flatten.length

/-- Buffers with one record each, of 48 bytes. -/
def oneRecordEach : Contents (fun _ ↦ Unit) where
  generator
    | .kernelDispatch => ⟨[[⟨11, 1, 0, 1, 0, 10, 20, ⟨1, 1, 16, 1, 0, ⟨64, 1, 1⟩, ⟨256, 1, 1⟩⟩⟩]],
        by simp⟩
    | .hsa | .hip | .marker | .memoryCopy | .scratchMemory | .counterCollection | .rccl
    | .memoryAllocation | .rocdecode | .rocjpeg | .pcSamplingHostTrap | .pcSamplingStochastic =>
      ⟨[[()]], by simp⟩
  numBytes _ := 48

theorem countingLibrary_hasStats (cfg : Config) (g : Generator KernelDispatchRecord)
    (h : g.empty = false) :
    countingLibrary.hasStats (countingLibrary.generateStats cfg .kernelDispatch g) = true := by
  obtain ⟨chunks, hne⟩ := g
  cases chunks with
  | nil => cases h
  | cons chunk rest =>
    have hpos : 0 < chunk.length := List.length_pos_iff.mpr (hne chunk List.mem_cons_self)
    simp only [countingLibrary, List.flatten_cons, List.length_append, bne_iff_ne]
    omega

/-- Only the kernel dispatches are traced. -/
theorem generateOutputs_complete_iff_kernelTrace :
    (Complete { kernelTrace := true, stats := true, csvOutput := true } oneRecordEach
        (generateOutputs countingLibrary { kernelTrace := true, stats := true, csvOutput := true }
          oneRecordEach) ∧
      (generateOutputs countingLibrary { kernelTrace := true, stats := true, csvOutput := true }
          oneRecordEach).withoutPublish
        = Version2.generateOutputs countingLibrary
            { kernelTrace := true, stats := true, csvOutput := true } oneRecordEach) ↔
      ∀ d, d ≠ .kernelDispatch →
        produces { kernelTrace := true, stats := true, csvOutput := true } oneRecordEach d
          = false :=
  generateOutputs_complete_iff rfl fun g hg ↦ countingLibrary_hasStats _ g hg

/-- **The HSA calls of an application are traced, and not accounted for.** -/
theorem hsa_output_not_counted :
    (generateOutputs countingLibrary { hsaCoreApiTrace := true, csvOutput := true }
        oneRecordEach).numOutput = 0 ∧
      (Version2.generateOutputs countingLibrary { hsaCoreApiTrace := true, csvOutput := true }
        oneRecordEach).numOutput = 1 ∧
      ¬Complete { hsaCoreApiTrace := true, csvOutput := true } oneRecordEach
        (generateOutputs countingLibrary { hsaCoreApiTrace := true, csvOutput := true }
          oneRecordEach) := by
  refine ⟨by decide, by decide, fun h ↦ ?_⟩
  exact absurd h.numOutput (by decide)

end Version3
