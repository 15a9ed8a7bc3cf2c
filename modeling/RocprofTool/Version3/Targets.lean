import Mathlib.Data.Finset.Basic
import RocprofTool.Config
import RocprofTool.Lib.UnorderedMap

/-!
# Targeted kernels

A kernel is profiled when it is in `target_kernels`, and then only in the iterations its range
asks for.  Which iteration a dispatch is, is counted in a map of type `kernel_iteration_t`, one
for each callback.

`isTargetedKernel` takes two locks on that map one after the other: a write lock to count the
dispatch (`countIteration`) and a read lock to look up what the count has become
(`lookupIteration`).  The two sections are definitions of their own, because another thread can
come between them; `Version3.Iterations` is about what it does there.
-/

set_option autoImplicit false

open Tool

namespace Version3

/-- `rocprofiler_kernel_id_t`. -/
abbrev KernelId := ℕ

/-- `targeted_kernels_map_t`: the iterations to profile of each targeted kernel, all of them when
the set is empty. -/
abbrev TargetedKernelsMap := UMap KernelId (Finset ℕ)

/-- `kernel_iteration_t`.  The counts are of type `size_t`; they number dispatches, which carry
distinct 64-bit ids, so they do not wrap. -/
abbrev KernelIteration := UMap KernelId ℕ

/-- `add_kernel_target`: the first range given to a kernel stays. -/
def addKernelTarget (targetKernels : TargetedKernelsMap) (kernId : KernelId) (range : Finset ℕ) :
    TargetedKernelsMap × Bool :=
  targetKernels.emplace kernId range

/-- The write-locked section of `is_targeted_kernel`. -/
def countIteration (kernelIter : KernelIteration) (kernelId : KernelId) : KernelIteration :=
  match kernelIter kernelId with
  | none => kernelIter.assign kernelId 1
  | some itr => kernelIter.assign kernelId (itr + 1)

/-- What the read-locked section of `is_targeted_kernel` answers for iteration `itr`. -/
def inRange (cfg : Config) (range : Finset ℕ) (itr : ℕ) : Bool :=
  if range = ∅ then
    if !cfg.advancedThreadTrace then true else decide (itr = 1)
  else
    decide (itr ∈ range)

/-- The read-locked section of `is_targeted_kernel`: the iteration it compares and its answer.
`none` is the `std::out_of_range` of `at` for a kernel that was never counted. -/
def lookupIteration (cfg : Config) (kernelIter : KernelIteration) (kernelId : KernelId)
    (range : Finset ℕ) : Option (ℕ × Bool) :=
  (kernelIter kernelId).map fun itr ↦ (itr, inRange cfg range itr)

/-- `is_targeted_kernel`, called by one thread at a time. -/
def isTargetedKernel (cfg : Config) (targetKernels : TargetedKernelsMap) (kernId : KernelId)
    (kernelIteration : KernelIteration) : Option (Bool × KernelIteration) :=
  match targetKernels kernId with
  | none => some (false, kernelIteration)
  | some range =>
    let counted := countIteration kernelIteration kernId
    (lookupIteration cfg counted kernId range).map fun p ↦ (p.2, counted)

/-! ## What the two sections do -/

/-- The count of a kernel, `0` when it is not in the map. -/
def iterations (kernelIter : KernelIteration) (kernelId : KernelId) : ℕ :=
  (kernelIter kernelId).getD 0

@[simp] theorem countIteration_self (kernelIter : KernelIteration) (k : KernelId) :
    countIteration kernelIter k k = some (iterations kernelIter k + 1) := by
  cases h : kernelIter k <;> simp [countIteration, iterations, h]

theorem countIteration_of_ne (kernelIter : KernelIteration) {k k' : KernelId} (h : k' ≠ k) :
    countIteration kernelIter k k' = kernelIter k' := by
  cases hk : kernelIter k <;> simp only [countIteration, hk] <;> exact UMap.assign_of_ne _ _ h

@[simp] theorem iterations_countIteration_self (kernelIter : KernelIteration) (k : KernelId) :
    iterations (countIteration kernelIter k) k = iterations kernelIter k + 1 := by
  simp [iterations]

theorem iterations_countIteration_of_ne (kernelIter : KernelIteration) {k k' : KernelId}
    (h : k' ≠ k) : iterations (countIteration kernelIter k) k' = iterations kernelIter k' := by
  rw [iterations, countIteration_of_ne kernelIter h, iterations]

/-- With a range, the empty one excepted, the answer does not depend on the configuration. -/
theorem inRange_of_nonempty (cfg : Config) {range : Finset ℕ} (h : range.Nonempty) (itr : ℕ) :
    inRange cfg range itr = decide (itr ∈ range) := by
  rw [inRange, if_neg h.ne_empty]

/-- **A call on its own answers by its own count**, and `at` does not throw. -/
theorem isTargetedKernel_eq (cfg : Config) {targetKernels : TargetedKernelsMap} {k : KernelId}
    {range : Finset ℕ} (h : targetKernels k = some range) (kernelIter : KernelIteration) :
    isTargetedKernel cfg targetKernels k kernelIter
      = some (inRange cfg range (iterations kernelIter k + 1), countIteration kernelIter k) := by
  simp [isTargetedKernel, h, lookupIteration]

theorem isTargetedKernel_of_not_target (cfg : Config) {targetKernels : TargetedKernelsMap}
    {k : KernelId} (h : targetKernels k = none) (kernelIter : KernelIteration) :
    isTargetedKernel cfg targetKernels k kernelIter = some (false, kernelIter) := by
  rw [isTargetedKernel, h]

/-- `is_targeted_kernel` always comes back with an answer. -/
theorem isTargetedKernel_isSome (cfg : Config) (targetKernels : TargetedKernelsMap) (k : KernelId)
    (kernelIter : KernelIteration) :
    (isTargetedKernel cfg targetKernels k kernelIter).isSome = true := by
  cases h : targetKernels k with
  | none => rw [isTargetedKernel_of_not_target cfg h]; rfl
  | some range => rw [isTargetedKernel_eq cfg h]; rfl

end Version3
