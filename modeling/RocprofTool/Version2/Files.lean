import Mathlib.Data.List.Forall2
import RocprofTool.Lib.CMemory
import RocprofTool.Version2.Output

/-!
# The files that version 2 publishes

After the services, `generate_output` writes the file `agent_info.csv` and, later, the file
`results.json`.  It opens each of them again, reads the whole of it and publishes it.

* The CSV file is printed to a buffer of 4096 characters with `snprintf`, and what is published is
  the string in the buffer.  So a file of up to 4095 characters is published as a whole, and of a
  longer one the rest is missing (`whole_csvCall_iff`).
* The JSON file is copied to a vector, with a null behind it.  The length argument is not the size
  of the vector, but that of the object that the file was written with, and one.  So the length of
  the file does not matter: of a long file only a few characters are published, and of a short one
  more than there are in the vector (`payload_publishJson`).  It is published as a whole when its
  length happens to be the size of the object (`whole_publishJson_iff`).

The first length is always one that the buffer has (`length_csvCall_le`).  Whether a branch is taken
at all depends on the configuration and on what the services have (`hasOutput`).

A character of a file is a byte.
-/

set_option autoImplicit false

open CMemory Tool

namespace Version2.Files

variable {Other : DomainType → Type} {Stats : Type}

/-! ## The data -/

/-- `tool::config`, with the field that is for the JSON file alone. -/
structure FilesConfig extends Config where
  jsonOutput : Bool := false
  deriving DecidableEq, Repr

/-- `ldmsd_stream_type_t`. -/
inductive StreamType
  | string
  | json
  deriving DecidableEq, Repr

/-- A call of `ldmsd_stream_publish`: the stream, the type, the memory that the data is at the start
of, with its size, and the length argument. -/
structure PublishCall where
  stream : String
  typ : StreamType
  data : Memory
  size : ℕ
  length : ℕ

/-- What the receiver gets, if there is as much. -/
def PublishCall.payload (call : PublishCall) : Option (List Char) := load call.data 0 call.length

/-- What `generate_output` does after the services. -/
inductive FileEffect (Stats : Type)
  /-- `generate_csv` for the agents. -/
  | generateAgentsCsv
  /-- `generate_csv` for the contributions. -/
  | generateStatsCsv (contributions : List (DomainType × Stats))
  /-- From `open_json` to `close_json`. -/
  | writeJson (contributions : List (DomainType × Stats))
  | publish (call : PublishCall)
  /-- `ROCP_ERROR`. -/
  | error (text : String)

/-- The library and the system, as `generate_output` finds them. -/
structure Surroundings where
  /-- `get_output_filename`, of a name and an extension. -/
  getOutputFilename : Config → String → String → String
  /-- The contents of a file that has been written, if it can be opened again. -/
  readFile : String → Option (List Char)
  /-- The size of what `open_json` returns. -/
  sizeofJsonAr : ℕ
  /-- The dispatches in `att_filenames`. -/
  attFilenames : List ℕ

/-! ## The function -/

/-- The size of the buffer for the CSV file. -/
def bufferSize : ℕ := 4096

/-- Print the contents of the CSV file to the buffer and publish the string there.  Without a null
in the buffer `strlen` would be undefined, but there is one (`publishCsv_eq`). -/
def publishCsv (finalCsvString : List Char) : Option PublishCall := do
  let buffer := (snprintf fresh 0 bufferSize (cString finalCsvString)).1
  let length ← strlen buffer 0 bufferSize
  pure ⟨"amd_gpu_sampler", .string, buffer, bufferSize, length + 1⟩

/-- Copy the contents of the JSON file to a vector and publish it. -/
def publishJson (sizeofJsonAr : ℕ) (finalJsonString : List Char) : PublishCall :=
  let jsonBuffer := finalJsonString ++ [nul]
  ⟨"amg_gpu_sampler", .json, store fresh 0 jsonBuffer, jsonBuffer.length, sizeofJsonAr + 1⟩

/-- The name of the CSV file. -/
def csvFilename (sys : Surroundings) (cfg : FilesConfig) : String :=
  sys.getOutputFilename cfg.toConfig "agent_info" ".csv"

/-- The name of the JSON file. -/
def jsonFilename (sys : Surroundings) (cfg : FilesConfig) : String :=
  sys.getOutputFilename cfg.toConfig "results" ".json"

/-- The branch for the agents, if the files are to be written. -/
def csvBranch (sys : Surroundings) (cfg : FilesConfig) (writes : Bool) :
    Option (List (FileEffect Stats)) :=
  if cfg.csvOutput && writes then
    match sys.readFile (csvFilename sys cfg) with
    | some finalCsvString => (publishCsv finalCsvString).map fun call ↦
        [.generateAgentsCsv, .publish call]
    | none => some [.generateAgentsCsv,
        .error ("Could not re-open CSV output file for reading: " ++ csvFilename sys cfg)]
  else some []

/-- The branch for the statistics. -/
def statsBranch (cfg : FilesConfig) (writes : Bool) (contributions : List (DomainType × Stats)) :
    List (FileEffect Stats) :=
  if cfg.stats && cfg.csvOutput && writes then [.generateStatsCsv contributions] else []

/-- The branch for the JSON file. -/
def jsonBranch (sys : Surroundings) (cfg : FilesConfig) (writes : Bool)
    (contributions : List (DomainType × Stats)) : List (FileEffect Stats) :=
  if cfg.jsonOutput && writes then
    match sys.readFile (jsonFilename sys cfg) with
    | some finalJsonString =>
      [.writeJson contributions, .publish (publishJson sys.sizeofJsonAr finalJsonString)]
    | none => [.writeJson contributions,
        .error ("Could not re-open JSON output file for reading: " ++ jsonFilename sys cfg)]
  else []

/-- Does `generate_output` go on to write the files? -/
def writesFiles (sys : Surroundings) (cfg : FilesConfig) (outdata : OutputState Stats) : Bool :=
  let numOutput :=
    if cfg.advancedThreadTrace && !sys.attFilenames.isEmpty then outdata.numOutput + 1
    else outdata.numOutput
  decide (numOutput > 0) && decide (outdata.numBytes ≥ cfg.minimumOutputBytes)

/-- `generate_output(cleanup_mode)`, from the services to the JSON file. -/
def generateFiles (lib : Library Other Stats) (sys : Surroundings) (cfg : FilesConfig)
    (contents : Contents Other) : Option (List (FileEffect Stats)) := do
  let outdata := generateOutputs lib cfg.toConfig contents
  let writes := writesFiles sys cfg outdata
  let csv ← csvBranch sys cfg writes
  pure (csv ++ statsBranch cfg writes outdata.contributions ++
    jsonBranch sys cfg writes outdata.contributions)

/-! ## The property -/

/-- The call hands over a whole file: its characters and a null, with the length that they have,
and not more than there is. -/
structure PublishCall.Whole (call : PublishCall) (file : List Char) : Prop where
  payload : call.payload = some (file ++ [nul])
  length : call.length = file.length + 1
  inside : call.length ≤ call.size

/-- The call of `ldmsd_stream_publish`. -/
def FileEffect.call : FileEffect Stats → Option PublishCall
  | .publish call => some call
  | _ => none

/-- Is the output of the service counted?  With a benchmark none is. -/
def counted (cfg : Config) (contents : Contents Other) (d : DomainType) : Bool :=
  decide (cfg.benchmarkMode = .none) && produces cfg contents d

/-- Is there any output, of a service or of the thread trace, and as much as is asked for? -/
def hasOutput (sys : Surroundings) (cfg : FilesConfig) (contents : Contents Other) : Bool :=
  (passedDomains.any (counted cfg.toConfig contents) ||
      (cfg.advancedThreadTrace && !sys.attFilenames.isEmpty)) &&
    decide (((passedDomains.filter (counted cfg.toConfig contents)).map contents.numBytes).sum
      ≥ cfg.minimumOutputBytes)

/-- The CSV file, if it is to be published. -/
def csvFile (sys : Surroundings) (cfg : FilesConfig) (contents : Contents Other) :
    Option (List Char) :=
  if cfg.csvOutput && hasOutput sys cfg contents then sys.readFile (csvFilename sys cfg) else none

/-- The JSON file, if it is to be published. -/
def jsonFile (sys : Surroundings) (cfg : FilesConfig) (contents : Contents Other) :
    Option (List Char) :=
  if cfg.jsonOutput && hasOutput sys cfg contents then sys.readFile (jsonFilename sys cfg) else none

/-- The files are published as a whole, each with one call. -/
def PublishesWholeFiles (lib : Library Other Stats) (sys : Surroundings) (cfg : FilesConfig)
    (contents : Contents Other) : Prop :=
  ∃ effects, generateFiles lib sys cfg contents = some effects ∧
    List.Forall₂ PublishCall.Whole (effects.filterMap FileEffect.call)
      ((csvFile sys cfg contents).toList ++ (jsonFile sys cfg contents).toList)

variable {lib : Library Other Stats} {sys : Surroundings} {cfg : FilesConfig}
  {contents : Contents Other} {n : ℕ} {file : List Char}

/-! ## The CSV file -/

/-- What is published of the CSV file: the string that fits in the buffer. -/
def publishedCsv (file : List Char) : List Char := (cString file).take (bufferSize - 1)

/-- The call for the CSV file. -/
def csvCall (file : List Char) : PublishCall :=
  ⟨"amd_gpu_sampler", .string, store fresh 0 (publishedCsv file ++ [nul]), bufferSize,
    (publishedCsv file).length + 1⟩

theorem length_publishedCsv_lt (file : List Char) : (publishedCsv file).length < bufferSize := by
  rw [publishedCsv, List.length_take, bufferSize]
  omega

/-- **There is a string in the buffer.** -/
theorem publishCsv_eq (file : List Char) : publishCsv file = some (csvCall file) := by
  have hbuffer : (snprintf fresh 0 bufferSize (cString file)).1
      = store fresh 0 (publishedCsv file ++ [nul]) := by
    rw [snprintf, truncated_of_pos (by decide), publishedCsv]
  have hnul : nul ∉ publishedCsv file := fun h ↦ nul_notMem_cString file (List.mem_of_mem_take h)
  rw [publishCsv, hbuffer, strlen_eq holds_store hnul (length_publishedCsv_lt file)]
  rfl

theorem payload_csvCall (file : List Char) :
    (csvCall file).payload = some (publishedCsv file ++ [nul]) := by
  rw [PublishCall.payload, csvCall, load_store_fresh, List.length_append, List.length_singleton,
    if_pos (Nat.le_refl _), List.take_of_length_le (by simp)]

example : (publishCsv "ab".toList).bind PublishCall.payload = some ['a', 'b', nul] := by
  decide +kernel

/-- The call for the CSV file never exceeds its buffer. -/
theorem length_csvCall_le (file : List Char) : (csvCall file).length ≤ (csvCall file).size :=
  length_publishedCsv_lt file

theorem publishedCsv_eq_self_iff :
    publishedCsv file = file ↔ nul ∉ file ∧ file.length < bufferSize := by
  constructor
  · intro h
    refine ⟨fun hnul ↦ nul_notMem_cString file ?_, h ▸ length_publishedCsv_lt file⟩
    rw [← h] at hnul
    exact List.mem_of_mem_take hnul
  · rintro ⟨hnul, hlength⟩
    rw [publishedCsv, (cString_eq_self_iff file).mpr hnul, List.take_of_length_le]
    omega

/-- **When the CSV file is published as a whole.** -/
theorem whole_csvCall_iff : (csvCall file).Whole file ↔ nul ∉ file ∧ file.length < bufferSize := by
  rw [← publishedCsv_eq_self_iff]
  constructor
  · intro h
    have hpayload := h.payload
    rw [payload_csvCall, Option.some.injEq] at hpayload
    exact List.append_cancel_right hpayload
  · intro h
    refine ⟨?_, ?_, length_csvCall_le file⟩
    · rw [payload_csvCall, h]
    · rw [csvCall, h]

/-! ## The JSON file -/

/-- **What is published of the JSON file.** -/
theorem payload_publishJson (n : ℕ) (file : List Char) :
    (publishJson n file).payload
      = if n ≤ file.length then some ((file ++ [nul]).take (n + 1)) else none := by
  rw [PublishCall.payload, publishJson, load_store_fresh]
  simp only [List.length_append, List.length_singleton, Nat.add_le_add_iff_right]

/-- An object of 3 bytes. -/
example : (publishJson 3 "abcdef".toList).payload = some "abcd".toList := by decide

/-- **When the JSON file is published as a whole.** -/
theorem whole_publishJson_iff : (publishJson n file).Whole file ↔ file.length = n := by
  constructor
  · intro h
    exact (Nat.succ.inj h.length).symm
  · rintro rfl
    refine ⟨?_, rfl, by simp [publishJson]⟩
    rw [payload_publishJson, if_pos (Nat.le_refl _), List.take_of_length_le (by simp)]

/-! ## What is published at all -/

/-- The template collects what is counted. -/
theorem generateOutput_collects_counted {cfg : Config} :
    (generateOutput lib cfg).Collects lib cfg contents (counted cfg contents) fun _ ↦ [] := by
  by_cases hbench : cfg.benchmarkMode = .none
  · have hcounted : counted cfg contents = produces cfg contents := by
      funext d
      rw [counted, decide_eq_true hbench, Bool.true_and]
    rw [hcounted]
    exact generateOutput_collects hbench
  · intro d s
    cases hen : cfg.enabledFor d <;> simp [generateOutput, bufferedOutput, counted, hen, hbench]

/-- The files are written when there is output. -/
theorem writesFiles_generateOutputs :
    writesFiles sys cfg (generateOutputs lib cfg.toConfig contents)
      = hasOutput sys cfg contents := by
  have hany : decide ((passedDomains.filter (counted cfg.toConfig contents)).length > 0)
      = passedDomains.any (counted cfg.toConfig contents) := by
    rw [Bool.eq_iff_iff, decide_eq_true_iff, List.any_eq_true, gt_iff_lt,
      List.length_pos_iff_exists_mem]
    simp only [List.mem_filter]
  rw [generateOutputs, generateOutputs_eq generateOutput_collects_counted, writesFiles, hasOutput]
  dsimp only
  rw [Nat.zero_add, Nat.zero_add]
  congr 1
  split_ifs with hatt
  · rw [hatt, Bool.or_true]
    exact decide_eq_true (Nat.succ_pos _)
  · rw [Bool.not_eq_true] at hatt
    rw [hatt, Bool.or_false, hany]

theorem csvBranch_calls (Stats : Type) (sys : Surroundings) (cfg : FilesConfig)
    (contents : Contents Other) :
    ∃ effects : List (FileEffect Stats),
      csvBranch sys cfg (hasOutput sys cfg contents) = some effects ∧
        effects.filterMap FileEffect.call
          = ((csvFile sys cfg contents).map csvCall).toList := by
  rw [csvBranch, csvFile]
  split_ifs with hwrites
  · cases sys.readFile (csvFilename sys cfg) with
    | none => exact ⟨_, rfl, rfl⟩
    | some file =>
      dsimp only
      rw [publishCsv_eq]
      exact ⟨_, rfl, rfl⟩
  · exact ⟨[], rfl, rfl⟩

theorem statsBranch_calls (writes : Bool) (contributions : List (DomainType × Stats)) :
    (statsBranch cfg writes contributions).filterMap FileEffect.call = [] := by
  rw [statsBranch]
  split_ifs <;> rfl

theorem jsonBranch_calls (contributions : List (DomainType × Stats)) :
    (jsonBranch sys cfg (hasOutput sys cfg contents) contributions).filterMap FileEffect.call
      = ((jsonFile sys cfg contents).map (publishJson sys.sizeofJsonAr)).toList := by
  rw [jsonBranch, jsonFile]
  split_ifs with hwrites
  · cases sys.readFile (jsonFilename sys cfg) <;> rfl
  · rfl

/-- **The calls of `generate_output`**: one for each file that is to be published. -/
theorem generateFiles_calls (lib : Library Other Stats) (sys : Surroundings) (cfg : FilesConfig)
    (contents : Contents Other) :
    ∃ effects, generateFiles lib sys cfg contents = some effects ∧
      effects.filterMap FileEffect.call
        = ((csvFile sys cfg contents).map csvCall).toList ++
          ((jsonFile sys cfg contents).map (publishJson sys.sizeofJsonAr)).toList := by
  obtain ⟨csv, hcsv, hcalls⟩ := csvBranch_calls Stats sys cfg contents
  rw [generateFiles, writesFiles_generateOutputs, hcsv]
  refine ⟨_, rfl, ?_⟩
  rw [List.filterMap_append, List.filterMap_append, hcalls, statsBranch_calls, jsonBranch_calls,
    List.append_nil]

/-! ## The files as a whole -/

/-- One call for each of two files. -/
theorem forall₂_toList_append {R : PublishCall → List Char → Prop}
    {f g : List Char → PublishCall} {a b : Option (List Char)} :
    List.Forall₂ R ((a.map f).toList ++ (b.map g).toList) (a.toList ++ b.toList) ↔
      (∀ file, a = some file → R (f file) file) ∧ ∀ file, b = some file → R (g file) file := by
  cases a <;> cases b <;> simp

theorem publishesWholeFiles_iff_forall :
    PublishesWholeFiles lib sys cfg contents ↔
      (∀ file, csvFile sys cfg contents = some file → (csvCall file).Whole file) ∧
        ∀ file, jsonFile sys cfg contents = some file →
          (publishJson sys.sizeofJsonAr file).Whole file := by
  obtain ⟨effects, heffects, hcalls⟩ := generateFiles_calls lib sys cfg contents
  rw [← forall₂_toList_append, ← hcalls, PublishesWholeFiles, heffects]
  simp only [Option.some.injEq, exists_eq_left']

/-- **Exactly when the files are published as a whole**, for a CSV file without nulls: the CSV file,
if it is to be published, has fewer characters than the buffer, and the JSON file, if it is to be
published, has as many as the object that it was written with. -/
theorem publishesWholeFiles_iff (lib : Library Other Stats) (sys : Surroundings) (cfg : FilesConfig)
    (contents : Contents Other)
    (hcsv : ∀ file, sys.readFile (csvFilename sys cfg) = some file → nul ∉ file) :
    PublishesWholeFiles lib sys cfg contents ↔
      (∀ file, csvFile sys cfg contents = some file → file.length < bufferSize) ∧
        ∀ file, jsonFile sys cfg contents = some file → file.length = sys.sizeofJsonAr := by
  have hnul : ∀ file, csvFile sys cfg contents = some file → nul ∉ file := by
    intro file hfile
    rw [csvFile] at hfile
    split_ifs at hfile
    exact hcsv file hfile
  simp only [publishesWholeFiles_iff_forall, whole_csvCall_iff, whole_publishJson_iff]
  refine and_congr_left' (forall₂_congr fun file hfile ↦ ?_)
  exact and_iff_right (hnul file hfile)

/-- A library, for when no service has any records. -/
def emptyLibrary : Library (fun _ ↦ Unit) Unit where
  metadata := ⟨fun _ ↦ "", fun _ _ ↦ "", fun _ ↦ none, fun _ _ _ ↦ ""⟩
  writeRow _ := ""
  noStats := ()
  hasStats _ := false
  generateStats _ _ _ := ()

/-- No service has any records. -/
def noRecords : Contents (fun _ ↦ Unit) := ⟨fun _ ↦ ⟨[], by simp⟩, fun _ ↦ 0⟩

/-- A thread trace, with both files. -/
def threadTrace : FilesConfig :=
  { advancedThreadTrace := true, csvOutput := true, jsonOutput := true }

/-- The files after a thread trace, the JSON file written with an object of 32 bytes. -/
def writtenFiles (csv json : List Char) : Surroundings where
  getOutputFilename _ name extension := "out_" ++ name ++ extension
  readFile name :=
    if name = "out_agent_info.csv" then some csv
    else if name = "out_results.json" then some json else none
  sizeofJsonAr := 32
  attFilenames := [1]

theorem csvFile_writtenFiles (csv json : List Char) :
    csvFile (writtenFiles csv json) threadTrace noRecords = some csv := rfl

theorem jsonFile_writtenFiles (csv json : List Char) :
    jsonFile (writtenFiles csv json) threadTrace noRecords = some json := rfl

/-- A JSON file of 32 bytes. -/
def emptyJson : List Char := "\x7b \"rocprofiler-sdk-tool\": [ ] \x7d\n".toList

/-- A short CSV file, and a JSON file of just this length. -/
theorem publishesWholeFiles_emptyJson :
    PublishesWholeFiles emptyLibrary (writtenFiles "\"Node_Id\"\n0\n".toList emptyJson) threadTrace
      noRecords := by
  refine (publishesWholeFiles_iff _ _ _ _ ?_).mpr ⟨?_, ?_⟩
  · rintro file ⟨⟩
    decide
  · rintro file ⟨⟩
    decide
  · rintro file ⟨⟩
    decide

/-- **Neither file is published as a whole**: a CSV file of 4096 characters is cut off, and with a
short JSON file more is asked for than there is. -/
theorem not_publishesWholeFiles :
    ¬PublishesWholeFiles emptyLibrary
        (writtenFiles (List.replicate 4096 'a') emptyJson) threadTrace noRecords ∧
      ¬PublishesWholeFiles emptyLibrary
        (writtenFiles "\"Node_Id\"\n0\n".toList "\x7b\x7d".toList) threadTrace noRecords ∧
      (publishJson 32 "\x7b\x7d".toList).payload = none := by
  refine ⟨fun h ↦ ?_, fun h ↦ ?_, ?_⟩
  · have hwhole := (publishesWholeFiles_iff_forall.mp h).1 _ (csvFile_writtenFiles _ _)
    have hlength := (whole_csvCall_iff.mp hwhole).2
    rw [List.length_replicate] at hlength
    exact absurd hlength (by decide)
  · have hwhole := (publishesWholeFiles_iff_forall.mp h).2 _ (jsonFile_writtenFiles _ _)
    exact absurd (whole_publishJson_iff.mp hwhole) (by decide)
  · rw [payload_publishJson]
    decide

end Version2.Files
