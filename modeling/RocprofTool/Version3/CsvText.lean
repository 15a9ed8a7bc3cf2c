import Mathlib.Logic.Relation
import RocprofTool.Version3.Cycles

/-!
# The CSV text of the kernel dispatches

`get_kernel_dispatch_csv_string` goes through the chunks of a buffer and through the records of each
chunk, and `generate_output` publishes the text if it is not empty.

* As long as there is a record, the text is the header and one row for each record with a known
  symbol (`csvString_faithful`).  It does not matter how the records are split into chunks, nor
  which records without a symbol are among them.
* Whether there is a record at all is remembered before the symbol is looked up.  So the text of
  records that are all without a symbol is the header alone, and it is published
  (`publishesData_iff`).

The chunks are any lists here, with empty ones among them; `Generator` has none.
-/

set_option autoImplicit false

open Tool
open Version3.Cycles

namespace Version3.CsvText

variable {Other : DomainType → Type} {Stats : Type}

/-- `get_kernel_dispatch_csv_string`, of any chunks. -/
def csvString (lib : Library Other Stats) (cfg : Config)
    (chunks : List (List KernelDispatchRecord)) : String :=
  let acc := chunks.foldl (fun acc chunk ↦ chunk.foldl (csvStep lib cfg) acc) (csvHeader, false)
  if !acc.2 then "" else acc.1

/-- The symbol of the kernel of a record. -/
def symbolOf (metadata : Metadata) (record : KernelDispatchRecord) : Option KernelSymbol :=
  metadata.getKernelSymbol record.dispatchInfo.kernelId

/-- A change to the chunks that does not change what there is to be published: the records are split
in another way, with or without empty chunks, or a record without a symbol is inserted. -/
inductive Variation (metadata : Metadata) :
    List (List KernelDispatchRecord) → List (List KernelDispatchRecord) → Prop
  | split {chunks chunks' : List (List KernelDispatchRecord)}
      (h : chunks'.flatten = chunks.flatten) : Variation metadata chunks chunks'
  | insert (pre post : List (List KernelDispatchRecord)) (chunk chunk' : List KernelDispatchRecord)
      {record : KernelDispatchRecord} (h : symbolOf metadata record = none) :
      Variation metadata (pre ++ (chunk ++ chunk') :: post)
        (pre ++ (chunk ++ record :: chunk') :: post)

variable {lib : Library Other Stats} {cfg : Config}
  {chunks chunks' : List (List KernelDispatchRecord)}

/-! ## The text -/

theorem csvString_eq_of_ne_nil (h : chunks.flatten ≠ []) :
    csvString lib cfg chunks = csvHeader ++ String.join (rows lib cfg chunks.flatten) := by
  rw [csvString, foldl_chunks]
  simp [h]

theorem csvString_eq_of_eq_nil (h : chunks.flatten = []) : csvString lib cfg chunks = "" := by
  rw [csvString, foldl_chunks]
  simp [h]

/-- The text is empty when there is no record. -/
theorem csvString_eq_empty_iff : csvString lib cfg chunks = "" ↔ chunks.flatten = [] := by
  refine ⟨fun h ↦ by_contra fun hne ↦ ?_, csvString_eq_of_eq_nil⟩
  rw [csvString_eq_of_ne_nil hne, String.append_eq_empty_iff] at h
  exact absurd h.1 (by decide)

theorem rowOf_eq_none_iff {record : KernelDispatchRecord} :
    rowOf lib cfg record = none ↔ symbolOf lib.metadata record = none :=
  Option.map_eq_none_iff

/-- **One change** leaves the rows alone, and does not take the last record away. -/
theorem rows_of_variation (cfg : Config) (h : Variation lib.metadata chunks chunks') :
    rows lib cfg chunks'.flatten = rows lib cfg chunks.flatten
      ∧ (chunks.flatten ≠ [] → chunks'.flatten ≠ []) := by
  cases h with
  | split h =>
    rw [h]
    exact ⟨rfl, id⟩
  | insert pre post chunk chunk' h =>
    have hrow : rowOf lib cfg _ = none := rowOf_eq_none_iff.mpr h
    refine ⟨?_, fun _ ↦ by simp⟩
    simp only [rows, List.flatten_append, List.flatten_cons, List.filterMap_append,
      List.filterMap_cons_none hrow]

/-- **The published text is faithful**: if there is a record, it is the names of the columns and one
row for each record with a symbol, in their order and with the cell of each column, and it stays the
same however the records are split into chunks and whatever records without a symbol are inserted.
-/
theorem csvString_faithful (lib : Library Other Stats) (cfg : Config)
    (chunks : List (List KernelDispatchRecord)) (hrecord : chunks.flatten ≠ []) :
    csvString lib cfg chunks = headerLine ++ String.join (chunks.flatten.filterMap fun record ↦
        (symbolOf lib.metadata record).map fun symbol ↦
          lib.writeRow (columns.map fun column ↦ column.cell cfg lib.metadata record symbol))
      ∧ (∀ chunks', Relation.ReflTransGen (Variation lib.metadata) chunks chunks' →
          csvString lib cfg chunks' = csvString lib cfg chunks)
      ∧ ∀ data : Generator KernelDispatchRecord, data.chunks = chunks →
          getKernelDispatchCsvString lib cfg data = csvString lib cfg chunks := by
  refine ⟨csvHeader_eq ▸ csvString_eq_of_ne_nil hrecord, fun chunks' hvariations ↦ ?_, ?_⟩
  · have hrows : rows lib cfg chunks'.flatten = rows lib cfg chunks.flatten
        ∧ chunks'.flatten ≠ [] := by
      induction hvariations with
      | refl => exact ⟨rfl, hrecord⟩
      | tail _ hstep ih =>
        obtain ⟨hsame, hkeeps⟩ := rows_of_variation cfg hstep
        exact ⟨hsame.trans ih.1, hkeeps ih.2⟩
    rw [csvString_eq_of_ne_nil hrows.2, hrows.1, csvString_eq_of_ne_nil hrecord]
  · rintro data rfl
    rfl

/-- A record of a kernel with this id. -/
def recordOf (kernelId : ℕ) : KernelDispatchRecord :=
  ⟨11, 1, 0, 1, 0, 10, 20, ⟨1, 1, kernelId, 1, 0, ⟨64, 1, 1⟩, ⟨256, 1, 1⟩⟩⟩

/-- Two records, one of them with a symbol, and once more with another one without. -/
theorem csvString_faithful_two :
    csvString countingLibrary {} [[recordOf 16], [], [recordOf 17, recordOf 18]]
        = csvString countingLibrary {} [[recordOf 16, recordOf 18]] ∧
      csvString countingLibrary {} [[recordOf 16, recordOf 18]]
        = headerLine ++
          "KERNEL_DISPATCH,Agent 1,1,0,1,1,16,kernel,1,10,20,0,0,4,0,16,64,1,1,256,1,1\n" := by
  obtain ⟨htext, hvariations, -⟩ :=
    csvString_faithful countingLibrary {} [[recordOf 16, recordOf 18]] (by simp)
  refine ⟨hvariations _ ?_, htext.trans (by decide +kernel)⟩
  refine .tail (.single (.insert [] [] [recordOf 16] [recordOf 18] ?_)) (.split rfl)
  exact (rfl : symbolOf countingLibrary.metadata (recordOf 17) = none)

/-! ## What is published -/

/-- A call of `ldmsd_stream_publish`, with the text and the length that it is given. -/
structure StreamCall where
  text : String
  length : ℕ
  deriving DecidableEq, Repr

/-- The calls of `ldmsd_stream_publish` in `generate_output`, for a buffer of the kernel dispatches
with these chunks. -/
def streamCalls (lib : Library Other Stats) (cfg : Config)
    (chunks : List (List KernelDispatchRecord)) : List StreamCall :=
  if !cfg.enabledFor .kernelDispatch then []
  else if cfg.benchmarkMode ≠ .none then []
  else if chunks.isEmpty then []
  else
    let csvString := csvString lib cfg chunks
    if csvString ≠ "" then [⟨csvString, csvString.utf8ByteSize + 1⟩] else []

/-- Nothing is published without data: the text is empty if it would have no row, there is a call
if tracing is on and there is a row, and the call gets the length of the text with its end. -/
structure PublishesData (lib : Library Other Stats) (cfg : Config)
    (chunks : List (List KernelDispatchRecord)) : Prop where
  text : csvString lib cfg chunks = "" ↔
    ∀ record ∈ chunks.flatten, symbolOf lib.metadata record = none
  published : streamCalls lib cfg chunks ≠ [] ↔
    cfg.kernelTrace = true ∧ cfg.benchmarkMode = .none ∧
      ∃ record ∈ chunks.flatten, (symbolOf lib.metadata record).isSome = true
  length : ∀ call ∈ streamCalls lib cfg chunks, call.length = call.text.utf8ByteSize + 1

/-- The calls with tracing on and without a benchmark. -/
theorem streamCalls_of_on (htrace : cfg.kernelTrace = true) (hbench : cfg.benchmarkMode = .none) :
    streamCalls lib cfg chunks = if chunks.flatten = [] then []
      else [⟨csvString lib cfg chunks, (csvString lib cfg chunks).utf8ByteSize + 1⟩] := by
  have htext := @csvString_eq_empty_iff _ _ lib cfg chunks
  rw [streamCalls, Config.enabledFor, htrace, if_neg (by decide), if_neg (not_not_intro hbench)]
  by_cases hnil : chunks.flatten = []
  · rw [if_pos hnil]
    split_ifs with hempty
    · rfl
    · exact if_neg (not_not_intro (htext.mpr hnil))
  · have hempty : chunks.isEmpty ≠ true := by
      rintro hempty
      rw [List.isEmpty_iff.mp hempty] at hnil
      exact hnil rfl
    rw [if_neg hnil, if_neg hempty]
    exact if_pos (htext.not.mpr hnil)

/-- The calls with tracing off, or with a benchmark. -/
theorem streamCalls_of_off (h : ¬(cfg.kernelTrace = true ∧ cfg.benchmarkMode = .none)) :
    streamCalls lib cfg chunks = [] := by
  rw [streamCalls, Config.enabledFor]
  cases htrace : cfg.kernelTrace with
  | false => rfl
  | true => exact if_pos fun hbench ↦ h ⟨htrace, hbench⟩

/-- When there is a call. -/
theorem streamCalls_ne_nil_iff :
    streamCalls lib cfg chunks ≠ [] ↔
      cfg.kernelTrace = true ∧ cfg.benchmarkMode = .none ∧ chunks.flatten ≠ [] := by
  by_cases hon : cfg.kernelTrace = true ∧ cfg.benchmarkMode = .none
  · rw [streamCalls_of_on hon.1 hon.2, and_iff_right hon.1, and_iff_right hon.2]
    by_cases hnil : chunks.flatten = []
    · simp [hnil]
    · simp [hnil]
  · rw [streamCalls_of_off hon]
    exact iff_of_false (fun h ↦ h rfl) fun h ↦ hon ⟨h.1, h.2.1⟩

theorem length_of_mem_streamCalls {call : StreamCall} (h : call ∈ streamCalls lib cfg chunks) :
    call.length = call.text.utf8ByteSize + 1 := by
  by_cases hon : cfg.kernelTrace = true ∧ cfg.benchmarkMode = .none
  · rw [streamCalls_of_on hon.1 hon.2] at h
    split_ifs at h
    · cases h
    · cases List.mem_singleton.mp h
      rfl
  · rw [streamCalls_of_off hon] at h
    cases h

/-- With a benchmark the template collects nothing. -/
theorem generateOutput_collects_of_benchmark (contents : Contents Other)
    (hbench : cfg.benchmarkMode ≠ .none) :
    (generateOutput lib cfg).Collects lib cfg contents (fun _ ↦ false) fun _ ↦ [] := by
  intro d s
  cases hen : cfg.enabledFor d with
  | false => simp [generateOutput, bufferedOutput, hen]
  | true => simp [generateOutput, bufferedOutput, hen, hbench]

/-- **The calls of the template are the messages that it publishes.** -/
theorem publishedBy_eq_streamCalls (lib : Library Other Stats) (cfg : Config)
    (contents : Contents Other) :
    publishedBy (generateOutputs lib cfg contents).effects
      = (streamCalls lib cfg
          (contents.generator .kernelDispatch : Generator KernelDispatchRecord).chunks).map
            StreamCall.text := by
  by_cases hbench : cfg.benchmarkMode = .none
  · cases htrace : cfg.kernelTrace with
    | false =>
      have hfilter : passedDomains.filter (collects cfg contents) = [] := by
        simp [passedDomains, collects, produces, Config.enabledFor, htrace]
      rw [streamCalls_of_off (by simp [htrace]), generateOutputs,
        generateOutputs_eq (generateOutput_collects hbench), hfilter]
      rfl
    | true =>
      rw [publishedBy_generateOutputs lib contents htrace hbench, streamCalls_of_on htrace hbench,
        cycleMessages]
      split_ifs with hnil
      · rfl
      · rw [csvString_eq_of_ne_nil hnil]
        rfl
  · rw [streamCalls_of_off fun h ↦ hbench h.2, generateOutputs,
      generateOutputs_eq (generateOutput_collects_of_benchmark contents hbench)]
    simp [publishedBy]

/-- **Exactly when nothing is published without data**: there is no record, or one with a symbol. -/
theorem publishesData_iff (lib : Library Other Stats) (cfg : Config)
    (chunks : List (List KernelDispatchRecord)) :
    PublishesData lib cfg chunks ↔
      chunks.flatten = [] ∨
        ∃ record ∈ chunks.flatten, (symbolOf lib.metadata record).isSome = true := by
  have hknown : (∃ record ∈ chunks.flatten, (symbolOf lib.metadata record).isSome = true)
      ↔ ¬∀ record ∈ chunks.flatten, symbolOf lib.metadata record = none := by
    simp only [Option.isSome_iff_ne_none, not_forall, exists_prop, ne_eq]
  constructor
  · intro h
    by_cases hnil : chunks.flatten = []
    · exact .inl hnil
    · refine .inr (hknown.mpr fun hnone ↦ ?_)
      exact hnil (csvString_eq_empty_iff.mp (h.text.mpr hnone))
  · intro h
    have hdata : chunks.flatten ≠ []
        ↔ ∃ record ∈ chunks.flatten, (symbolOf lib.metadata record).isSome = true := by
      refine ⟨fun hne ↦ h.resolve_left hne, fun ⟨record, hrecord, _⟩ ↦ ?_⟩
      exact List.ne_nil_of_mem hrecord
    refine ⟨?_, ?_, fun call hcall ↦ length_of_mem_streamCalls hcall⟩
    · rw [csvString_eq_empty_iff, ← not_iff_not, ← hknown]
      exact hdata
    · rw [streamCalls_ne_nil_iff, hdata]

/-- Buffers with one record each, and no symbol for that of the kernel dispatches. -/
def noSymbol : Contents (fun _ ↦ Unit) :=
  { oneRecordEach with
    generator := Function.update oneRecordEach.generator .kernelDispatch
      ⟨[[recordOf 17]], List.forall_mem_singleton.mpr (List.cons_ne_nil _ _)⟩ }

/-- **A record without a symbol**: the header is published, with no row behind it. -/
theorem noSymbol_publishes_header :
    publishedBy (generateOutputs countingLibrary { kernelTrace := true } noSymbol).effects
        = [csvHeader] ∧
      ¬PublishesData countingLibrary { kernelTrace := true } [[recordOf 17]] := by
  have hcalls : streamCalls countingLibrary { kernelTrace := true } [[recordOf 17]]
      = [⟨csvHeader, csvHeader.utf8ByteSize + 1⟩] := by decide +kernel
  refine ⟨?_, fun h ↦ ?_⟩
  · have heq := publishedBy_eq_streamCalls countingLibrary { kernelTrace := true } noSymbol
    exact heq.trans (congrArg (List.map StreamCall.text) hcalls)
  · obtain ⟨-, -, record, hrecord, hsymbol⟩ := h.published.mp (by rw [hcalls]; simp)
    rw [List.flatten_singleton, List.mem_singleton] at hrecord
    rw [hrecord] at hsymbol
    exact absurd hsymbol (by decide)

end Version3.CsvText
