import Mathlib.Data.Nat.Notation

/-!
# The configuration of the tool

`tool::config`, restricted to the fields that the modelled functions read.  It is filled from the
environment once, when the tool is loaded, and `tool::get_config()` is read everywhere, so it is a
parameter of the functions and not a part of their state.
-/

set_option autoImplicit false

namespace Tool

/-- `tool::config::benchmark`. -/
inductive Benchmark
  | none
  | disabledContextsOverhead
  | sdkBufferedOverhead
  | sdkCallbackOverhead
  | executionProfile
  deriving DecidableEq, Repr

/-- `tool::config`. -/
structure Config where
  benchmarkMode : Benchmark := .none
  kernelTrace : Bool := false
  hsaCoreApiTrace : Bool := false
  hsaAmdExtApiTrace : Bool := false
  hsaImageExtApiTrace : Bool := false
  hsaFinalizerExtApiTrace : Bool := false
  hipRuntimeApiTrace : Bool := false
  hipCompilerApiTrace : Bool := false
  memoryCopyTrace : Bool := false
  memoryAllocationTrace : Bool := false
  markerApiTrace : Bool := false
  rcclApiTrace : Bool := false
  counterCollection : Bool := false
  scratchMemoryTrace : Bool := false
  rocdecodeApiTrace : Bool := false
  rocjpegApiTrace : Bool := false
  pcSamplingHostTrap : Bool := false
  pcSamplingStochastic : Bool := false
  /-- Rename kernels after the marker region they are launched in. -/
  kernelRename : Bool := false
  /-- How agents are numbered in the output, a value of an enumeration of the library. -/
  agentIndexValue : ℕ := 0
  stats : Bool := false
  summaryOutput : Bool := false
  csvOutput : Bool := false
  minimumOutputBytes : ℕ := 0
  advancedThreadTrace : Bool := false
  enableSignalHandlers : Bool := false
  deriving DecidableEq, Repr

end Tool
