import Mathlib.Tactic.Linarith
import RocprofTool.Lib.Fallible
import RocprofTool.Lib.OrderedMap
import RocprofTool.Lib.UnorderedMap
import RocprofTool.Version1.Filters

/-!
# The profiling contexts of version 1

A kernel dispatch gets a profiling context, and an entry of `context_array` to remember it by, from
`dispatch_callback`; or, in the optimised mode, a context from a pool, whose entry is the payload of
a pool entry, from `dispatch_callback_opt`.  When the kernel is done the context is collected: by
its completion handler, `context_handler` or `context_pool_handler`, or by `dump_context_array`,
which goes through all of `context_array`.  All of them end in `dump_context_entry`.

The functions here change the state of the tool as they go and can stop in the middle, with an
`abort` or with something that the language does not define.  What they do to more than the
variables of the tool is kept, in order, in `Tool.effects`.  The lock makes each of them one step,
except that `dispatch_callback` holds it only while it makes the entry: `allocContext` and
`fillContext` are its two halves, and between them the entry is not `valid`.

What `rocprofiler` does is in `Machine` and in the arguments; its calls do not fail.  The connection
to `ldms`, what is printed besides, and the intermediate results of the verbose mode are left out.
-/

set_option autoImplicit false

open Fallible

namespace Version1

/-! ## The data -/

/-- `UINT32_MAX`, the index of an entry that is not in `context_array`. -/
def uint32Max : UInt32 := 4294967295

/-- `rocprofiler_data_t`: the two kinds that are printed, a double by its bits, and the others. -/
inductive Data
  | int64 (resultInt64 : UInt64)
  | double (resultDouble : UInt64)
  | other
  deriving DecidableEq, Repr

/-- `rocprofiler_dispatch_record_t`; `start` and `finish` are its `begin` and `end`. -/
structure DispatchRecord where
  dispatch : UInt64
  start : UInt64
  finish : UInt64
  complete : UInt64
  deriving DecidableEq, Repr

/-- `kernel_properties_t`. -/
structure KernelProperties where
  gridSize : UInt32 := 0
  workgroupSize : UInt32 := 0
  ldsSize : UInt32 := 0
  scratchSize : UInt32 := 0
  vgprCount : UInt32 := 0
  sgprCount : UInt32 := 0
  fbarrierCount : UInt32 := 0
  signal : UInt64 := 0
  object : UInt64 := 0
  deriving DecidableEq, Repr

/-- Callback data with nothing in it. -/
def CallbackData.zero : CallbackData :=
  { agent := 0, agentIndex := 0, queue := 0, kernelName := none, kernelCode := none
    packet := ⟨0, 0, 0, 0, 0, 0, 0, 0, 0⟩
    completionSignal := 0, record := none }

/-- `context_entry_t`.  `group` is `group.context`, a pointer that may be null; `kernelNameIt` is
the key that the iterator is at, and `none` before it is set. -/
structure ContextEntry where
  valid : Bool := false
  active : Bool := false
  index : UInt32 := 0
  agent : UInt64 := 0
  currTime : UInt64 := 0
  group : Option ℕ := none
  features : List (List Char) := []
  data : CallbackData := .zero
  kernelProperties : KernelProperties := {}
  kernelNameIt : Option UInt64 := none
  deriving DecidableEq, Repr

/-- `symbols_map_data_t`. -/
structure Symbol where
  name : List Char
  refsCount : UInt64
  deriving DecidableEq, Repr

/-- What the tool does to more than its own variables. -/
inductive Effect
  /-- `++context_collected`, and the entry that is counted. -/
  | collected (entry : ContextEntry)
  /-- `ldmsd_stream_publish`. -/
  | published (message : List Char)
  /-- `strdup` of the name of the entry with this index. -/
  | duplicatedName (index : UInt32)
  /-- `free` of the name of the entry with this index. -/
  | freedName (index : UInt32)
  | deletedRecord (record : ℕ)
  /-- `rocprofiler_close`. -/
  | closed (context : Option ℕ)
  deriving DecidableEq, Repr

/-- An entry of a pool: the GPU whose pool it is, and its number. -/
abbrev Slot := UInt32 × ℕ

/-- The variables of the tool, the memory that it shares with `rocprofiler` and the symbols of the
kernels. -/
structure Tool where
  contextCount : UInt32 := 0
  contextCollected : UInt32 := 0
  contextArray : Std.TreeMap UInt32 ContextEntry := ∅
  payloads : UMap Slot ContextEntry := .empty
  records : UMap ℕ DispatchRecord := .empty
  symbols : UMap UInt64 Symbol := .empty
  effects : List Effect := []

/-- What stays the same while the tool is loaded: what `rocprofiler` and the runtime say about
agents, kernels and contexts, how numbers are printed, and what the tool has been set up with. -/
structure Machine where
  /-- `GetAgentInfo(agent)->dev_index`. -/
  devIndex : UInt64 → Option UInt32
  gpuCount : ℕ
  /-- What `GetKernelCode` finds for a kernel object. -/
  getKernelCode : UInt64 → KernelCode
  /-- `AMD_HSA_BITS_GET` of the number of vector registers. -/
  granulatedVgprCount : UInt32 → UInt32
  /-- `AMD_HSA_BITS_GET` of the number of scalar registers. -/
  granulatedSgprCount : UInt32 → UInt32
  /-- What `rocprofiler_get_metrics` fills in for the features of a context. -/
  metrics : ℕ → List Data
  /-- `%f`, of an integer that is made a double. -/
  printTime : UInt64 → List Char
  /-- `<<` of a double. -/
  printDouble : UInt64 → List Char
  /-- The argument of `dispatch_callback`. -/
  toolData : CallbacksData
  /-- The features in the argument of `context_pool_handler`. -/
  handlerFeatures : List (List Char)
  /-- Is there a `result_prefix`? -/
  resultPrefix : Bool
  ctxOutstandingMax : UInt32
  toTruncateNames : Bool

/-- `%u` and `%lu`. -/
def decimal (n : ℕ) : List Char := Nat.toDigits 10 n

/-! ## Names -/

/-- The first loop of `filter_kernel_name`, over the name from its end: brackets and blanks are
skipped. -/
def skipBrackets : List Char → UInt32 → Char → Char → List Char
  | [], _, _, _ => []
  | c :: rit, counter, openToken, closeToken =>
    if counter = 0 then
      match c with
      | ')' => skipBrackets rit 1 ')' '('
      | '>' => skipBrackets rit 1 '>' '<'
      | ']' => skipBrackets rit 1 ']' '['
      | ' ' => skipBrackets rit 0 openToken closeToken
      | _ => c :: rit
    else
      let counter := if c = openToken then counter + 1 else counter
      let counter := if c = closeToken then counter - 1 else counter
      skipBrackets rit counter openToken closeToken

/-- `filter_kernel_name`. -/
def filterKernelName (name : List Char) : List Char :=
  let rbeg := skipBrackets name.reverse 0 '\x00' '\x00'
  let base := rbeg.takeWhile fun c ↦ c != ' ' && c != ':'
  let pos := UInt32.ofNat (rbeg.length - base.length)
  let length := UInt32.ofNat base.length
  (name.drop pos.toNat).take length.toNat

example : filterKernelName "void ns::axpy<int>(float*, int) [clone .kd]".toList
    = "axpy".toList := by decide

/-! ## Messages -/

/-- How the value of a feature is printed, if it is of one of the two kinds. -/
def Data.print (m : Machine) : Data → Option (List Char)
  | .int64 value => some (decimal value.toNat)
  | .double bits => some (m.printDouble bits)
  | .other => none

/-- One round of `output_results`. -/
def outputFeature (name value : List Char) : List Char :=
  ", ".toList ++ name ++ ":".toList ++ value

/-- `output_results`, with the data in the order of the features; a feature that there is no data
for is of none of the two kinds. -/
def outputResults (m : Machine) : List (List Char) → List Data → Except Fault (List Char)
  | [], _ => .ok []
  | _ :: _, [] => .error .abort
  | name :: features, d :: data =>
    match d.print m with
    | none => .error .abort
    | some value =>
      match outputResults m features data with
      | .error e => .error e
      | .ok str => .ok (outputFeature name value ++ str)

/-- The kernel name that is sent. -/
def nikName (m : Machine) (entry : ContextEntry) : Except Fault (List Char) :=
  match entry.data.kernelName with
  | none => .error .undefined
  | some name => .ok (if m.toTruncateNames then filterKernelName name else name)

/-- What the first `snprintf` prints, without the blank at its end. -/
def messageBody (gpuId time name index results : List Char) : List Char :=
  "\x7b \"gpu-id\":".toList ++ gpuId ++ ",".toList ++ " \"timestamp (ms)\":".toList ++ time
    ++ ", \"perf-data\": [ \x7b ".toList ++ "\"kernel name\" : \"".toList ++ name ++ "\"".toList
    ++ ", \"dispatch\": ".toList ++ index ++ ", \"".toList ++ results
    ++ "\" \x7d ] \x7d".toList

/-- What the first `snprintf` prints, with a GPU, a context and the name to be sent given. -/
def bodyOf (m : Machine) (entry : ContextEntry) (gpuId : UInt32) (name results : List Char) :
    List Char :=
  messageBody (decimal gpuId.toNat) (m.printTime entry.currTime) name
    (decimal entry.index.toNat) results

/-- What the second `snprintf` prints. -/
def messageTail : Option DispatchRecord → List Char
  | none => " \x7d\n".toList
  | some record =>
    ", \"dispatch_time\":".toList ++ decimal record.dispatch.toNat
      ++ ", \"start\":".toList ++ decimal record.start.toNat
      ++ ", \"end\":".toList ++ decimal record.finish.toNat
      ++ ", \"dispatch_end\":".toList ++ decimal record.complete.toNat ++ " \x7d\n".toList

/-- `bufferSize`. -/
def bufferSize : ℕ := 4096

/-- The string in the buffer after the two calls of `snprintf`.  The first one returns the length
of all that it should have printed, and the second one starts there. -/
def printBuffer (first second : List Char) : Except Fault (List Char) :=
  let cx := first.length
  if cx ≤ bufferSize then
    .ok (first.take (bufferSize - 1) ++ second.take (bufferSize - cx - 1))
  else .error .undefined

/-- The message for an entry. -/
def message (m : Machine) (entry : ContextEntry) (record : Option DispatchRecord) :
    Except Fault (List Char) := do
  let name ← nikName m entry
  match entry.group, m.devIndex entry.agent with
  | none, _ => .error .undefined -- nothing has been written to the buffer
  | some _, none => .error .undefined
  | some context, some gpuId =>
    let results ← outputResults m entry.features (m.metrics context)
    printBuffer (bodyOf m entry gpuId name results ++ [' ']) (messageTail record)

/-! ## Entries -/

/-- Keep an effect. -/
def emit (effect : Effect) : ExceptT Fault (StateM Tool) PUnit :=
  modify fun tool ↦ { tool with effects := tool.effects ++ [effect] }

/-- `++context_collected`. -/
def collect (entry : ContextEntry) : ExceptT Fault (StateM Tool) PUnit :=
  modify fun tool ↦
    { tool with
      contextCollected := tool.contextCollected + 1
      effects := tool.effects ++ [.collected entry] }

/-- The record that a pointer is at, if it is not null. -/
def Tool.readRecord (tool : Tool) : Option ℕ → Except Fault (Option DispatchRecord)
  | none => .ok none
  | some r =>
    match tool.records r with
    | none => .error .undefined
    | some record => .ok (some record)

/-- The end of `dump_context_entry`, when it is to clean up.  A freed name is as unusable as one
that is null. -/
def cleanUp (entry : ContextEntry) : ExceptT Fault (StateM Tool) ContextEntry := do
  if let some r := entry.data.record then
    modify fun tool ↦ { tool with records := Function.update tool.records r none }
    emit (.deletedRecord r)
  emit (.freedName entry.index)
  emit (.closed entry.group)
  return { entry with data := { entry.data with record := none, kernelName := none } }

/-- `dump_context_entry`, for a valid entry: what it returns, and the entry as it leaves it. -/
def dumpContextEntry (m : Machine) (entry : ContextEntry) (toClean : Bool) :
    ExceptT Fault (StateM Tool) (Bool × ContextEntry) := do
  let tool ← get
  let record ← liftM (tool.readRecord entry.data.record)
  if record.any fun record ↦ record.complete == 0 then
    return (false, entry)
  collect entry
  -- the context is counted by now, whatever its index
  if entry.index == uint32Max then
    return (true, entry)
  let text ← liftM (message m entry record)
  emit (.published text)
  if toClean then
    let entry ← cleanUp entry
    return (true, entry)
  return (true, entry)

/-- Write an entry of `context_array`. -/
def Tool.writeEntry (tool : Tool) (index : UInt32) (entry : ContextEntry) : Tool :=
  { tool with contextArray := tool.contextArray.insert index entry }

/-! ## Collecting -/

/-- The body of the inner loop of `dump_context_array`, for the entry with this key: is it done
with? -/
def dumpKey (m : Machine) (queue : Option UInt64) (key : UInt32) :
    ExceptT Fault (StateM Tool) Bool := do
  let tool ← get
  match tool.contextArray[key]? with
  | none => return true
  | some entry =>
    if queue.all (· == entry.data.queue) && entry.active then
      let (ret, entry) ← dumpContextEntry m entry true
      if ret then
        modify fun tool ↦ tool.writeEntry key { entry with active := false }
      return ret
    else return true

/-- The inner loop of `dump_context_array`. -/
def dumpKeys (m : Machine) (queue : Option UInt64) :
    List UInt32 → ExceptT Fault (StateM Tool) Bool
  | [] => return true
  | key :: keys => do
    let done ← dumpKey m queue key
    let rest ← dumpKeys m queue keys
    return done && rest

/-- One round of the outer loop of `dump_context_array`: is it done?  A null pointer stands for all
the queues. -/
def dumpContextArrayRound (m : Machine) (queue : Option UInt64) :
    ExceptT Fault (StateM Tool) Bool := do
  let tool ← get
  dumpKeys m queue tool.contextArray.keys

/-- `context_handler`, for the entry with this index. -/
def contextHandler (m : Machine) (index : UInt32) : ExceptT Fault (StateM Tool) PUnit := do
  let tool ← get
  match tool.contextArray[index]? with
  | none => throw .undefined
  | some entry =>
    if entry.active then
      let (ret, entry) ← dumpContextEntry m entry true
      if ret then
        modify fun tool ↦ { tool with contextArray := tool.contextArray.erase entry.index }
      else throw .abort
    else
      modify fun tool ↦ { tool with contextArray := tool.contextArray.erase entry.index }

/-- The symbol that an iterator is at. -/
def Tool.symbolAt (tool : Tool) (it : Option UInt64) : Except Fault (UInt64 × Symbol) :=
  match it with
  | none => .error .undefined
  | some addr =>
    match tool.symbols addr with
    | none => .error .undefined
    | some symbol => .ok (addr, symbol)

/-- `ReleaseKernelNameRef`. -/
def releaseKernelNameRef (it : Option UInt64) : ExceptT Fault (StateM Tool) PUnit := do
  let tool ← get
  let (addr, symbol) ← liftM (tool.symbolAt it)
  set { tool with
    symbols := tool.symbols.assign addr { symbol with refsCount := symbol.refsCount - 1 } }

/-- `context_pool_handler`, for the entry of a pool. -/
def contextPoolHandler (m : Machine) (slot : Slot) : ExceptT Fault (StateM Tool) PUnit := do
  let tool ← get
  match tool.payloads slot with
  | none => throw .undefined
  | some payload =>
    let (_, symbol) ← liftM (tool.symbolAt payload.kernelNameIt)
    let entry := { payload with
      features := m.handlerFeatures
      data := { payload.data with kernelName := some symbol.name } }
    -- the result is not looked at: the entry goes back to the pool in any case
    let (_, entry) ← dumpContextEntry m entry false
    modify fun tool ↦ { tool with payloads := tool.payloads.assign slot entry }
    releaseKernelNameRef entry.kernelNameIt

/-! ## Dispatching -/

/-- `next_context_count`. -/
def nextContextCount : ExceptT Fault (StateM Tool) UInt32 := do
  modify fun tool ↦ { tool with contextCount := tool.contextCount + 1 }
  let tool ← get
  return tool.contextCount

/-- What `alloc_context_entry` waits for to be over. -/
def Tool.outstanding (m : Machine) (tool : Tool) : Bool :=
  m.ctxOutstandingMax != 0 && tool.contextCount - tool.contextCollected > m.ctxOutstandingMax

/-- `alloc_context_entry`, when it has not to wait. -/
def allocContextEntry : ExceptT Fault (StateM Tool) UInt32 := do
  let count ← nextContextCount
  let index := count - 1
  let tool ← get
  if tool.contextArray.contains index then
    throw .abort
  modify fun tool ↦ tool.writeEntry index { index }
  return index

/-- The first half of `dispatch_callback`: the index of the context, if there is to be one. -/
def allocContext (m : Machine) (callbackData : CallbackData) :
    ExceptT Fault (StateM Tool) (Option UInt32) := do
  let opens ← liftM (opensContext callbackData m.toolData)
  if opens then
    let index ← allocContextEntry
    return some index
  else
    let _ ← nextContextCount
    return none

/-- `AcquireKernelNameRef`. -/
def acquireKernelNameRef (addr : UInt64) : ExceptT Fault (StateM Tool) UInt64 := do
  let tool ← get
  match tool.symbols addr with
  | none => throw .abort
  | some symbol =>
    set { tool with
      symbols := tool.symbols.assign addr { symbol with refsCount := symbol.refsCount + 1 } }
    return addr

/-- The conversion of a size to 32 bits. -/
def checkedSize (size : UInt64) : Except Fault UInt32 :=
  if size > uint32Max.toUInt64 then .error .abort else .ok size.toUInt32

/-- The product of two integers of type `int` that are not negative. -/
def mulInt (a b : ℕ) : Except Fault ℕ :=
  if a * b < 2 ^ 31 then .ok (a * b) else .error .undefined

/-- The name part of `set_kernel_properties`: without the code of the kernel, its name is looked up
later. -/
def setKernelName (m : Machine) (callbackData : CallbackData) (entry : ContextEntry) :
    ExceptT Fault (StateM Tool) (ContextEntry × KernelCode) := do
  match callbackData.kernelCode, callbackData.kernelName with
  | none, _ =>
    let kernelObject := callbackData.packet.kernelObject
    let it ← acquireKernelNameRef kernelObject
    return ({ entry with kernelNameIt := some it }, m.getKernelCode kernelObject)
  | some _, none => throw .undefined
  | some kernelCode, some _ =>
    emit (.duplicatedName entry.index)
    return (entry, kernelCode)

/-- `set_kernel_properties`.  The sizes of a grid are multiplied as `uint32_t`, those of a work
group, which are of 16 bits, as `int`. -/
def setKernelProperties (m : Machine) (callbackData : CallbackData) (entry : ContextEntry) :
    ExceptT Fault (StateM Tool) ContextEntry := do
  let packet := callbackData.packet
  let (entry, kernelCode) ← setKernelName m callbackData { entry with data := callbackData }
  let gridSize ←
    liftM (checkedSize (packet.gridSizeX * packet.gridSizeY * packet.gridSizeZ).toUInt64)
  let xy ← liftM (mulInt packet.workgroupSizeX.toNat packet.workgroupSizeY.toNat)
  let xyz ← liftM (mulInt xy packet.workgroupSizeZ.toNat)
  let workgroupSize ← liftM (checkedSize (UInt64.ofNat xyz))
  return { entry with
    kernelProperties :=
      { gridSize, workgroupSize
        ldsSize := packet.groupSegmentSize
        scratchSize := packet.privateSegmentSize
        vgprCount := m.granulatedVgprCount kernelCode.computePgmRsrc1
        sgprCount := m.granulatedSgprCount kernelCode.computePgmRsrc1
        fbarrierCount := kernelCode.workgroupFbarrierCount
        signal := callbackData.completionSignal
        object := packet.kernelObject } }

/-- The features that `dispatch_callback` opens a context with: all of them, or the group of them
that the offsets in `set` mark off. -/
def selectFeatures (toolData : CallbacksData) (index : UInt32) :
    Except Fault (List (List Char)) :=
  match toolData.set with
  | none => .ok toolData.features
  | some offsets => do
    let (setOffset, nextOffset) ←
      -- `size() - 1` wraps when there is no offset at all
      match offsets.getLast? with
      | none => .error .undefined
      | some last =>
        .ok (if index.toNat < offsets.length - 1 then
          (offsets.getD index.toNat 0, offsets.getD (index.toNat + 1) 0)
        else (last, UInt32.ofNat toolData.features.length))
    let featureCount := (nextOffset - setOffset).toNat
    if setOffset.toNat + featureCount ≤ toolData.features.length then
      .ok ((toolData.features.drop setOffset.toNat).take featureCount)
    else .error .undefined

/-- The second half of `dispatch_callback`, with the context and the time that `rocprofiler`
gives. -/
def fillContext (m : Machine) (callbackData : CallbackData) (index : UInt32) (context : ℕ)
    (currTime : UInt64) : ExceptT Fault (StateM Tool) PUnit := do
  let tool ← get
  match tool.contextArray[index]? with
  | none => throw .undefined
  | some entry =>
    let entry ← setKernelProperties m callbackData entry
    let features ← liftM (selectFeatures m.toolData entry.index)
    modify fun tool ↦ tool.writeEntry index
      { entry with
        agent := callbackData.agent, currTime, group := some context, features
        active := true, valid := true }

/-- `dispatch_callback_opt`, with the entry that `rocprofiler_pool_fetch` gives and its context. -/
def dispatchCallbackOpt (m : Machine) (callbackData : CallbackData) (number context : ℕ) :
    ExceptT Fault (StateM Tool) Slot := do
  match m.devIndex callbackData.agent with
  | none => throw .undefined
  | some gpuId =>
    if m.gpuCount ≤ gpuId.toNat then
      throw .undefined
    let tool ← get
    -- the payload of a pool entry is all zero before it is used for the first time
    let entry := (tool.payloads (gpuId, number)).getD {}
    let entry ← setKernelProperties m callbackData entry
    modify fun tool ↦
      { tool with
        payloads := tool.payloads.assign (gpuId, number)
          { entry with
            index := uint32Max, agent := callbackData.agent, group := some context
            valid := true } }
    return (gpuId, number)

end Version1
