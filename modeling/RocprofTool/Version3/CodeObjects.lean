import RocprofTool.Version3.Lifecycle.Finalized

/-!
# The code objects that are saved

For the thread trace `code_object_tracing_callback` saves each code object that is loaded: it writes
its bytes to a file and enters the file in `code_object_load`.  A code object is in the memory, at
`memory_base`, or in a file, which its `uri` names.  The two kinds have a branch each.

The branch for files reads the file into a buffer of its own, with all that can go wrong there, and
then writes what the other branch writes, the bytes at `memory_base`.  The buffer is not used
(`saveFile_eq`), and so the bytes are right only by accident (`saved_iff`).

`Version3.Lifecycle.Finalized` has the callback without the bytes; `tool_loadCodeObject` says that
this is the same one.
-/

set_option autoImplicit false

open Version3.Lifecycle.Finalized

namespace Version3.CodeObjects

/-! ## The data -/

/-- `rocprofiler_code_object_info_t`, with where the bytes are. -/
structure CodeObject extends CodeObjectInfo where
  memoryBase : UInt64
  memorySize : UInt64
  uri : String
  deriving DecidableEq, Repr

/-- The process and its files, as they are when a code object is loaded. -/
structure Process where
  /-- The bytes that can be read. -/
  memory : ℕ → Option UInt8
  /-- The contents of the files that can be opened. -/
  files : String → Option (List UInt8)
  /-- Does `new (std::nothrow)` return a buffer of this size? -/
  allocates : ℕ → Bool
  /-- Does the file turn out to be as long as `tellg` said? -/
  reads : String → Bool

/-- The bytes from a place on. -/
def Process.readMemory (process : Process) (base size : UInt64) : Option (List UInt8) :=
  (List.range size.toNat).mapM fun i ↦ process.memory (base.toNat + i)

/-- An entry of `code_object_load`. -/
structure CodeObjectLoad where
  fileName : String
  codeObjectId : UInt64
  loadBase : UInt64
  loadSize : UInt64
  deriving DecidableEq, Repr

/-- The tool, and the `.out` files that it has written. -/
structure Saving (μ σ : Type) where
  tool : ToolState μ σ
  outFiles : UMap String (List UInt8) := .empty

/-- How a code object can end the program. -/
inductive Failure
  | tool (fault : Fault)
  /-- Memory is read that there is not. -/
  | undefined
  deriving DecidableEq, Repr

variable {μ σ : Type}

/-! ## The callback -/

/-- The file name of a code object. -/
def fileName (env : Environment μ σ) (gpuName : String) (object : CodeObject) : String :=
  env.outputFilename s!"{gpuName}_code_object_id_{object.codeObjectId}"

/-- Write the bytes at `memory_base` to the file, and enter it in `code_object_load`. -/
def writeMemory (env : Environment μ σ) (process : Process) (object : CodeObject)
    (outputFilename : String) (s : Saving μ σ) : Except Failure (Saving μ σ) := do
  match process.readMemory object.memoryBase object.memorySize with
  | none => throw .undefined
  | some bytes =>
    let (_, tool) ← (useMetadata .nullDereference
      (fun metadata ↦ ((), env.metadata.pushCodeObjectLoad outputFilename object.toCodeObjectInfo
        metadata)) s.tool).mapError .tool
    pure { tool, outFiles := s.outFiles.assign outputFilename bytes }

/-- The name of the GPU of a code object. -/
def gpuName (env : Environment μ σ) (object : CodeObject) (s : Saving μ σ) :
    Except Failure (String × Saving μ σ) := do
  let (name, tool) ← (useMetadata .nullDereference
    (fun metadata ↦ (env.metadata.agentName object.rocpAgent metadata, metadata))
      s.tool).mapError .tool
  match name with
  | none => throw (.tool .exception)
  | some gpuName => pure (gpuName, { s with tool })

/-- The branch for code objects in the memory. -/
def saveMemory (env : Environment μ σ) (process : Process) (object : CodeObject)
    (s : Saving μ σ) : Except Failure (Saving μ σ) := do
  let (gpuName, s) ← gpuName env object s
  writeMemory env process object (fileName env gpuName object) s

/-- `binary`: the contents of a file, or null if it cannot be opened, there is no buffer for it, or
it is shorter than it was. -/
def readBinary (process : Process) (uri : String) : Option (List UInt8) :=
  match process.files uri with
  | none => none
  | some contents =>
    let bufferSize := contents.length
    if process.allocates bufferSize && process.reads uri then some contents else none

/-- The branch for code objects in a file. -/
def saveFile (env : Environment μ σ) (process : Process) (object : CodeObject)
    (s : Saving μ σ) : Except Failure (Saving μ σ) := do
  let (gpuName, s) ← gpuName env object s
  let _binary := readBinary process object.uri
  writeMemory env process object (fileName env gpuName object) s

/-- `code_object_tracing_callback`, for a code object that is loaded. -/
def loadCodeObject (env : Environment μ σ) (process : Process) (object : CodeObject)
    (s : Saving μ σ) : Except Failure (Saving μ σ) := do
  let (_, tool) ← (useMetadata .fatal
    (fun metadata ↦ ((), env.metadata.addCodeObject object.toCodeObjectInfo metadata))
      s.tool).mapError .tool
  let (_, tool) ←
    if env.cfg.pcSamplingHostTrap || env.cfg.pcSamplingStochastic then
      (useMetadata .fatal
        (fun metadata ↦ ((), env.metadata.addDecoder object.toCodeObjectInfo metadata))
          tool).mapError .tool
    else pure ((), tool)
  let s := { s with tool }
  if object.storageType = .memory && env.cfg.advancedThreadTrace then
    saveMemory env process object s
  else if object.storageType = .file && env.cfg.advancedThreadTrace then
    saveFile env process object s
  else pure s

/-! ## The property -/

/-- `code_object_load`, as a part of `tool_metadata`. -/
structure CodeObjectLoads (metadata : ToolMetadata μ) where
  entries : μ → List CodeObjectLoad
  entries_push : ∀ fileName info m, entries (metadata.pushCodeObjectLoad fileName info m)
    = entries m ++ [⟨fileName, info.codeObjectId, info.loadBase, info.loadSize⟩]
  entries_addCodeObject : ∀ info m, entries (metadata.addCodeObject info m) = entries m
  entries_addDecoder : ∀ info m, entries (metadata.addDecoder info m) = entries m

/-- The entries of a tool that is not finalized. -/
def CodeObjectLoads.of {metadata : ToolMetadata μ} (loads : CodeObjectLoads metadata)
    (s : Saving μ σ) : Option (List CodeObjectLoad) :=
  s.tool.toolMetadata.map loads.entries

/-- The bytes of a code object. -/
def Process.bytesOf (process : Process) (object : CodeObject) : Option (List UInt8) :=
  match object.storageType with
  | .memory => process.readMemory object.memoryBase object.memorySize
  | .file => process.files object.uri
  | .other => none

/-- A code object with these bytes has been saved: there is one entry more, and the file of this
entry has the bytes. -/
def Saved {metadata : ToolMetadata μ} (loads : CodeObjectLoads metadata) (object : CodeObject)
    (bytes : List UInt8) (s : Saving μ σ) (result : Except Failure (Saving μ σ)) : Prop :=
  ∃ s' fileName, result = .ok s' ∧ s'.outFiles fileName = some bytes
    ∧ loads.of s' = (loads.of s).map
      (· ++ [⟨fileName, object.codeObjectId, object.loadBase, object.loadSize⟩])

/-! ## What is saved -/

variable {env : Environment μ σ} {process : Process} {object : CodeObject} {s : Saving μ σ} {m : μ}
  {gpu : String}

/-- `tool_metadata` when it comes to the bytes. -/
def added (env : Environment μ σ) (object : CodeObject) (m : μ) : μ :=
  let m := env.metadata.addCodeObject object.toCodeObjectInfo m
  if env.cfg.pcSamplingHostTrap || env.cfg.pcSamplingStochastic then
    env.metadata.addDecoder object.toCodeObjectInfo m
  else m

theorem entries_added (loads : CodeObjectLoads env.metadata) (object : CodeObject) (m : μ) :
    loads.entries (added env object m) = loads.entries m := by
  rw [added]
  split_ifs
  · rw [loads.entries_addDecoder, loads.entries_addCodeObject]
  · exact loads.entries_addCodeObject _ _

/-- **The buffer of a file is not used.** -/
theorem saveFile_eq : saveFile env process object s = saveMemory env process object s := rfl

theorem useMetadata_some {α : Type} (fault : Fault) (f : μ → α × μ) {tool : ToolState μ σ}
    (h : tool.toolMetadata = some m) :
    useMetadata fault f tool = .ok ((f m).1, { tool with toolMetadata := some (f m).2 }) := by
  rw [useMetadata, h]

/-- The tool with other metadata. -/
def withMetadata (tool : ToolState μ σ) (m : μ) : ToolState μ σ :=
  { tool with toolMetadata := some m }

/-- **What is written** from the memory. -/
theorem saveMemory_eq (hmetadata : s.tool.toolMetadata = some m)
    (hgpu : env.metadata.agentName object.rocpAgent m = some gpu) :
    saveMemory env process object s =
      match process.readMemory object.memoryBase object.memorySize with
      | none => .error .undefined
      | some bytes => .ok
        { tool := withMetadata s.tool (env.metadata.pushCodeObjectLoad (fileName env gpu object)
            object.toCodeObjectInfo m)
          outFiles := s.outFiles.assign (fileName env gpu object) bytes } := by
  have hname : gpuName env object s = .ok (gpu, { s with tool := withMetadata s.tool m }) := by
    rw [gpuName, useMetadata_some _ _ hmetadata, hgpu]
    rfl
  rw [saveMemory, hname]
  show writeMemory env process object (fileName env gpu object) _ = _
  rw [writeMemory]
  cases process.readMemory object.memoryBase object.memorySize with
  | none => rfl
  | some bytes => rfl

/-- A code object of either kind is saved in the same way. -/
theorem loadCodeObject_eq_saveMemory (hatt : env.cfg.advancedThreadTrace = true)
    (hkind : object.storageType ≠ .other) (hmetadata : s.tool.toolMetadata = some m) :
    loadCodeObject env process object s
      = saveMemory env process object
        { s with tool := withMetadata s.tool (added env object m) } := by
  have hkinds : (if (decide (object.storageType = .memory) && env.cfg.advancedThreadTrace) = true
      then saveMemory env process object { s with tool := withMetadata s.tool (added env object m) }
      else if (decide (object.storageType = .file) && env.cfg.advancedThreadTrace) = true then
        saveFile env process object { s with tool := withMetadata s.tool (added env object m) }
      else pure { s with tool := withMetadata s.tool (added env object m) })
      = saveMemory env process object
        { s with tool := withMetadata s.tool (added env object m) } := by
    rw [hatt]
    cases hstorage : object.storageType with
    | memory => rfl
    | file => rfl
    | other => exact absurd hstorage hkind
  rw [← hkinds, loadCodeObject, useMetadata_some _ _ hmetadata]
  cases hdecoder : env.cfg.pcSamplingHostTrap || env.cfg.pcSamplingStochastic with
  | false =>
    rw [added, hdecoder]
    rfl
  | true =>
    rw [added, hdecoder]
    rfl

/-- The tool after a code object has been entered. -/
def entered (env : Environment μ σ) (object : CodeObject) (gpu : String) (m : μ)
    (tool : ToolState μ σ) : ToolState μ σ :=
  withMetadata tool (env.metadata.pushCodeObjectLoad (fileName env gpu object)
    object.toCodeObjectInfo (added env object m))

/-- **What is written** for a code object of either kind. -/
theorem loadCodeObject_eq (hatt : env.cfg.advancedThreadTrace = true)
    (hkind : object.storageType ≠ .other) (hmetadata : s.tool.toolMetadata = some m)
    (hgpu : env.metadata.agentName object.rocpAgent (added env object m) = some gpu) :
    loadCodeObject env process object s =
      match process.readMemory object.memoryBase object.memorySize with
      | none => .error .undefined
      | some bytes => .ok
        { tool := entered env object gpu m s.tool
          outFiles := s.outFiles.assign (fileName env gpu object) bytes } := by
  rw [loadCodeObject_eq_saveMemory hatt hkind hmetadata,
    saveMemory_eq (m := added env object m) rfl hgpu]
  rfl

/-- The entry that is made. -/
theorem of_entered (loads : CodeObjectLoads env.metadata) (hmetadata : s.tool.toolMetadata = some m)
    (outFiles : UMap String (List UInt8)) :
    loads.of ⟨entered env object gpu m s.tool, outFiles⟩ = (loads.of s).map (· ++
      [⟨fileName env gpu object, object.codeObjectId, object.loadBase, object.loadSize⟩]) := by
  rw [CodeObjectLoads.of, CodeObjectLoads.of, hmetadata, entered, withMetadata, Option.map_some,
    Option.map_some, Option.map_some, loads.entries_push, entries_added]

/-- Whatever the bytes of the code object are, those that are saved are the ones at
`memory_base`. -/
theorem saved_iff_readMemory (loads : CodeObjectLoads env.metadata) (process : Process)
    {bytes : List UInt8} (hatt : env.cfg.advancedThreadTrace = true)
    (hkind : object.storageType ≠ .other) (hmetadata : s.tool.toolMetadata = some m)
    (hgpu : env.metadata.agentName object.rocpAgent (added env object m) = some gpu) :
    Saved loads object bytes s (loadCodeObject env process object s) ↔
      process.readMemory object.memoryBase object.memorySize = some bytes := by
  rw [loadCodeObject_eq hatt hkind hmetadata hgpu]
  cases hread : process.readMemory object.memoryBase object.memorySize with
  | none =>
    refine iff_of_false ?_ fun hno ↦ nomatch hno
    rintro ⟨s', file, hno, -⟩
    cases hno
  | some bytes' =>
    constructor
    · rintro ⟨s', file, hresult, hfile, hentry⟩
      cases hresult
      -- the entry that is made names the file that is written
      rw [of_entered loads hmetadata, CodeObjectLoads.of, hmetadata] at hentry
      have hsame : fileName env gpu object = file := by
        have h := List.append_cancel_left (Option.some.inj hentry)
        exact (CodeObjectLoad.mk.inj (List.cons.inj h).1).1
      rw [← hsame] at hfile
      exact (UMap.assign_self _ _ _).symm.trans hfile
    · intro heq
      cases heq
      exact ⟨_, fileName env gpu object, rfl, UMap.assign_self _ _ _,
        of_entered loads hmetadata _⟩

/-- **Exactly when a code object is saved with its bytes**: when it is in the memory, or when what
is in the memory is, by accident, what is in the file. -/
theorem saved_iff (loads : CodeObjectLoads env.metadata) (process : Process) {bytes : List UInt8}
    (hatt : env.cfg.advancedThreadTrace = true) (hmetadata : s.tool.toolMetadata = some m)
    (hgpu : env.metadata.agentName object.rocpAgent (added env object m) = some gpu)
    (hobject : process.bytesOf object = some bytes) :
    Saved loads object bytes s (loadCodeObject env process object s) ↔
      object.storageType = .memory ∨ object.storageType = .file ∧
        process.readMemory object.memoryBase object.memorySize = process.files object.uri := by
  rw [Process.bytesOf] at hobject
  cases hstorage : object.storageType with
  | memory =>
    rw [hstorage] at hobject
    have hkind : object.storageType ≠ .other := by rw [hstorage]; decide
    rw [saved_iff_readMemory loads process hatt hkind hmetadata hgpu]
    exact iff_of_true hobject (.inl rfl)
  | file =>
    rw [hstorage] at hobject
    have hkind : object.storageType ≠ .other := by rw [hstorage]; decide
    rw [saved_iff_readMemory loads process hatt hkind hmetadata hgpu, or_iff_right (by decide),
      and_iff_right rfl]
    exact Eq.congr_right hobject.symm
  | other =>
    rw [hstorage] at hobject
    cases hobject

/-- The part that saves, without the bytes. -/
theorem tool_saveMemory (env : Environment μ σ) (process : Process) (object : CodeObject)
    (s : Saving μ σ) {bytes : List UInt8}
    (hread : process.readMemory object.memoryBase object.memorySize = some bytes) :
    (saveMemory env process object s).map Saving.tool
      = (writeCodeObject env object.toCodeObjectInfo s.tool).mapError .tool := by
  rw [writeCodeObject]
  cases hmetadata : s.tool.toolMetadata with
  | none =>
    rw [saveMemory, gpuName, useMetadata_null _ _ hmetadata]
    rfl
  | some m =>
    rw [useMetadata_some _ _ hmetadata]
    cases hgpu : env.metadata.agentName object.rocpAgent m with
    | none =>
      rw [saveMemory, gpuName, useMetadata_some _ _ hmetadata, hgpu]
      rfl
    | some gpu =>
      rw [saveMemory_eq hmetadata hgpu, hread]
      rfl

/-- **Without the bytes**, the callback is the one of `Version3.Lifecycle.Finalized`. -/
theorem tool_loadCodeObject (env : Environment μ σ) (process : Process) (object : CodeObject)
    (s : Saving μ σ) {bytes : List UInt8}
    (hread : process.readMemory object.memoryBase object.memorySize = some bytes) :
    (loadCodeObject env process object s).map Saving.tool
      = (Lifecycle.Finalized.loadCodeObject env object.toCodeObjectInfo s.tool).mapError .tool := by
  cases hmetadata : s.tool.toolMetadata with
  | none =>
    rw [loadCodeObject, Lifecycle.Finalized.loadCodeObject, useMetadata_null _ _ hmetadata]
    rfl
  | some m =>
    have hsave := tool_saveMemory env process object
      { s with tool := withMetadata s.tool (added env object m) } hread
    rw [loadCodeObject, Lifecycle.Finalized.loadCodeObject, useMetadata_some _ _ hmetadata]
    rw [added] at hsave
    cases hdecoder : env.cfg.pcSamplingHostTrap || env.cfg.pcSamplingStochastic <;>
      rw [hdecoder] at hsave <;>
      cases hstorage : object.storageType <;>
      cases hatt : env.cfg.advancedThreadTrace <;>
      first | exact hsave | rfl

/-! ## A code object in a file -/

/-- The metadata is `code_object_load`, and there is one GPU. -/
def loadsOnly : Environment (List CodeObjectLoad) Unit where
  cfg := { advancedThreadTrace := true }
  filter := ⟨"", "", ∅⟩
  logging := ⟨false, false, false⟩
  metadata :=
    { addKernelRenameVal _ id m := (id, m)
      addMarkerMessage _ _ m := m
      addExternalCorrelationId _ m := m
      addRuntimeInitialization _ m := m
      addCodeObject _ m := m
      addDecoder _ m := m
      agentName agent _ := if agent = 10 then some "gfx90a" else none
      pushCodeObjectLoad fileName info m :=
        m ++ [⟨fileName, info.codeObjectId, info.loadBase, info.loadSize⟩]
      addKernelSymbol _ m := (true, m)
      formattedKernelName _ _ := ""
      addHostFunction _ m := (true, m) }
  streams := ⟨fun _ s ↦ s, id, fun _ ↦ none⟩
  convertKind _ := 0
  regexSearch _ _ := false
  outputFilename name := name ++ ".out"

/-- Its entries. -/
def loadsOnlyEntries : CodeObjectLoads loadsOnly.metadata :=
  ⟨id, fun _ _ _ ↦ rfl, fun _ _ ↦ rfl, fun _ _ ↦ rfl⟩

/-- A process with three bytes in its memory, and one file. -/
def oneFile : Process where
  memory i := if i < 3 then some 0 else none
  files uri := if uri = "file://axpy.co" then some [0x7f, 0x45, 0x4c, 0x46] else none
  allocates _ := true
  reads _ := true

/-- A code object of this kind, with three bytes at `memory_base`. -/
def axpyObject (storageType : StorageType) : CodeObject where
  codeObjectId := 1
  rocpAgent := 10
  storageType := storageType
  loadBase := 4096
  loadSize := 64
  memoryBase := 0
  memorySize := 3
  uri := "file://axpy.co"

/-- The tool with nothing loaded. -/
def nothingLoaded : Saving (List CodeObjectLoad) Unit :=
  { tool := { toolMetadata := some [], streams _ := () } }

/-- A code object in the memory. -/
theorem saved_iff_memory :
    Saved loadsOnlyEntries (axpyObject .memory) [0, 0, 0] nothingLoaded
      (loadCodeObject loadsOnly oneFile (axpyObject .memory) nothingLoaded) :=
  (saved_iff loadsOnlyEntries oneFile rfl rfl rfl rfl).mpr (.inl rfl)

/-- **A code object in a file**: what is at `memory_base` is saved. -/
theorem file_not_saved :
    oneFile.bytesOf (axpyObject .file) = some [0x7f, 0x45, 0x4c, 0x46] ∧
      ((loadCodeObject loadsOnly oneFile (axpyObject .file) nothingLoaded).map fun s ↦
        s.outFiles "gfx90a_code_object_id_1.out") = .ok (some [0, 0, 0]) ∧
      ¬Saved loadsOnlyEntries (axpyObject .file) [0x7f, 0x45, 0x4c, 0x46] nothingLoaded
        (loadCodeObject loadsOnly oneFile (axpyObject .file) nothingLoaded) := by
  refine ⟨rfl, by decide, fun h ↦ ?_⟩
  have hread := (saved_iff_readMemory loadsOnlyEntries oneFile rfl (by decide) rfl rfl).mp h
  exact absurd hread (by decide)

end Version3.CodeObjects
