import Mathlib.Algebra.Group.Nat.Defs
import RocprofTool.Version3.Targets

/-!
# The thread trace of consecutive kernels

`att_dispatch_consecutive_kernel_callback` is called when a kernel dispatch is entered (phase
`ENTER`), when that call has returned (phase `EXIT`, which it ignores) and when the dispatch has
completed (phase `NONE`).  A targeted dispatch opens a trace of `att_consecutive_kernels`
consecutive dispatches on `att_device_context`; the trace is closed when the captured ones have
completed.

The callback has two kinds of critical sections, both under the write lock of `captured_ids`:
`enterSection` and `completionSection`.  Before either it decides, without the lock, whether to
take it at all (`enterCheck`, `completionCheck`).  `attDispatchConsecutiveKernelCallback` is the
whole callback as one thread runs it.

The state keeps a log, latest entry first, of the calls on `att_device_context` and of the changes
to `captured_ids`.  Nothing reads it; it is what the theorems speak about.
-/

set_option autoImplicit false

open Tool

namespace Version3
namespace ThreadTrace

/-- `UINT64_MAX`, which stands for "no dispatch" in `att_consecutive_kernel_dispatch_id`. -/
def uint64Max : ℕ := 2 ^ 64 - 1

/-- `rocprofiler_dispatch_id_t`. -/
abbrev DispatchId := ℕ

/-- An entry of the log. -/
inductive Op
  | startContext
  | stopContext
  | emplace (dispatchId : DispatchId)
  | erase (dispatchId : DispatchId)
  deriving DecidableEq, Repr

/-- The static variables of the callback, `kernel_iteration` excepted, and the global
`att_consecutive_kernel_dispatch_id`. -/
structure State where
  isprofiling : Bool := false
  stopProfiling : Bool := false
  numConsecutiveKernels : ℕ := 0
  capturedIds : Finset DispatchId := ∅
  attConsecutiveKernelDispatchId : DispatchId := uint64Max
  log : List Op := []

/-- Is the section of phase `ENTER` entered at all? -/
def enterCheck (s : State) (isTarget : Bool) : Bool := !(!isTarget && !s.isprofiling)

/-- The critical section of phase `ENTER`. -/
def enterSection (consecutiveKernels : ℕ) (s : State) (dispatchId : DispatchId)
    (isTarget : Bool) : State :=
  -- reset the count, and start the context if it is not started already
  let s := if isTarget then { s with numConsecutiveKernels := 0 } else s
  let s :=
    if isTarget && !s.isprofiling then
      { s with isprofiling := true, log := .startContext :: s.log }
    else s
  let localCount := s.numConsecutiveKernels
  let s := { s with numConsecutiveKernels := s.numConsecutiveKernels + 1 }
  let s :=
    if s.isprofiling && decide (localCount < consecutiveKernels) then
      { s with
        capturedIds := insert dispatchId s.capturedIds
        log := .emplace dispatchId :: s.log
        attConsecutiveKernelDispatchId :=
          if s.attConsecutiveKernelDispatchId > dispatchId then dispatchId
          else s.attConsecutiveKernelDispatchId }
    else s
  if localCount ≥ consecutiveKernels then { s with stopProfiling := true } else s

/-- Is the section of phase `NONE` entered at all? -/
def completionCheck (s : State) : Bool := s.isprofiling

/-- The critical section of phase `NONE`. -/
def completionSection (s : State) (dispatchId : DispatchId) : State :=
  let s := { s with
    capturedIds := s.capturedIds.erase dispatchId, log := .erase dispatchId :: s.log }
  if s.capturedIds ≠ ∅ ∨ s.stopProfiling = false then s
  else if s.isprofiling = false then s
  else { s with
    isprofiling := false
    log := .stopContext :: s.log
    stopProfiling := false
    attConsecutiveKernelDispatchId := uint64Max }

/-! ## The callback -/

/-- The kinds of tracing records, as far as the callback tells them apart. -/
inductive Kind
  | kernelDispatch
  | other
  deriving DecidableEq, Repr

/-- `rocprofiler_callback_phase_t`. -/
inductive Phase
  | none
  | enter
  | exit
  deriving DecidableEq, Repr

/-- The two fields of `dispatch_info` that the callback reads. -/
structure DispatchInfo where
  dispatchId : DispatchId
  kernelId : KernelId
  deriving DecidableEq, Repr

/-- `rocprofiler_callback_tracing_record_t`; the payload is a pointer and may be null. -/
structure CallbackRecord where
  kind : Kind
  phase : Phase
  payload : Option DispatchInfo
  deriving DecidableEq, Repr

/-- All the static variables of the callback. -/
structure Statics where
  kernelIteration : KernelIteration := UMap.empty
  state : State := {}

/-- `att_dispatch_consecutive_kernel_callback`; `userdata` points to `att_consecutive_kernels`.
`none` is a fatal error: a null payload or user data pointer, or an exception. -/
def attDispatchConsecutiveKernelCallback (cfg : Config) (targetKernels : TargetedKernelsMap)
    (record : CallbackRecord) (userdata : Option ℕ) (v : Statics) : Option Statics :=
  if record.kind ≠ .kernelDispatch then some v
  else if record.phase = .exit then some v
  else do
    let rdata ← record.payload
    let consecutiveKernels ← userdata
    if record.phase = .enter then
      let (isTarget, kernelIteration) ←
        isTargetedKernel cfg targetKernels rdata.kernelId v.kernelIteration
      if enterCheck v.state isTarget then
        return ⟨kernelIteration, enterSection consecutiveKernels v.state rdata.dispatchId isTarget⟩
      else return { v with kernelIteration }
    else if completionCheck v.state then
      return { v with state := completionSection v.state rdata.dispatchId }
    else return v

/-- **A call of phase `ENTER`**, by what `is_targeted_kernel` answers. -/
theorem attDispatchConsecutiveKernelCallback_enter {cfg : Config}
    {targetKernels : TargetedKernelsMap} {v : Statics} {info : DispatchInfo} {isTarget : Bool}
    {iters : KernelIteration} (n : ℕ)
    (ht : isTargetedKernel cfg targetKernels info.kernelId v.kernelIteration
      = some (isTarget, iters)) :
    attDispatchConsecutiveKernelCallback cfg targetKernels ⟨.kernelDispatch, .enter, some info⟩
        (some n) v
      = some ⟨iters, if v.state.isprofiling || isTarget then
          enterSection n v.state info.dispatchId isTarget else v.state⟩ := by
  cases hp : v.state.isprofiling <;> cases isTarget <;>
    simp [attDispatchConsecutiveKernelCallback, ht, enterCheck, hp]

/-- **A call of phase `NONE`.** -/
theorem attDispatchConsecutiveKernelCallback_none (cfg : Config)
    (targetKernels : TargetedKernelsMap) (v : Statics) (info : DispatchInfo) (n : ℕ) :
    attDispatchConsecutiveKernelCallback cfg targetKernels ⟨.kernelDispatch, .none, some info⟩
        (some n) v
      = some { v with state := if v.state.isprofiling then
          completionSection v.state info.dispatchId else v.state } := by
  cases hp : v.state.isprofiling <;>
    simp [attDispatchConsecutiveKernelCallback, completionCheck, hp]

/-! ## What the two sections do -/

/-- The dispatches counted since the most recent target, before this one. -/
def localCount (s : State) (isTarget : Bool) : ℕ :=
  if isTarget then 0 else s.numConsecutiveKernels

/-- Does the section capture the dispatch? -/
def captures (consecutiveKernels : ℕ) (s : State) (isTarget : Bool) : Bool :=
  (s.isprofiling || isTarget) && decide (localCount s isTarget < consecutiveKernels)

/-- The log after the section has started the context, if it does. -/
def startedLog (s : State) (isTarget : Bool) : List Op :=
  if isTarget && !s.isprofiling then .startContext :: s.log else s.log

/-- **Everything the section of phase `ENTER` does**, field by field. -/
theorem enterSection_eq (n : ℕ) (s : State) (id : DispatchId) (isTarget : Bool) :
    enterSection n s id isTarget =
      { isprofiling := s.isprofiling || isTarget
        stopProfiling := s.stopProfiling || decide (n ≤ localCount s isTarget)
        numConsecutiveKernels := localCount s isTarget + 1
        capturedIds := if captures n s isTarget then insert id s.capturedIds else s.capturedIds
        attConsecutiveKernelDispatchId :=
          if captures n s isTarget then min s.attConsecutiveKernelDispatchId id
          else s.attConsecutiveKernelDispatchId
        log := if captures n s isTarget then .emplace id :: startedLog s isTarget
          else startedLog s isTarget } := by
  obtain ⟨p, st, num, cap, att, log⟩ := s
  have hmin : (if att > id then id else att) = min att id := by
    rcases Nat.lt_or_ge id att with h | h
    · rw [if_pos h, Nat.min_eq_right (Nat.le_of_lt h)]
    · rw [if_neg (Nat.not_lt.mpr h), Nat.min_eq_left h]
  cases isTarget with
  | false =>
    rcases Nat.lt_or_ge num n with hn | hn
    · cases p <;> simp [enterSection, localCount, captures, startedLog, hn, Nat.not_le.mpr hn, hmin]
    · cases p <;> simp [enterSection, localCount, captures, startedLog, hn, Nat.not_lt.mpr hn]
  | true =>
    rcases Nat.eq_zero_or_pos n with hn | hn
    · cases p <;> simp [enterSection, localCount, captures, startedLog, hn]
    · cases p <;> simp [enterSection, localCount, captures, startedLog, hn, hn.ne', hmin]

/-- **Everything the section of phase `NONE` does**: it only erases the dispatch, or it also closes
the session. -/
theorem completionSection_cases (s : State) (id : DispatchId) :
    ((s.capturedIds.erase id ≠ ∅ ∨ s.stopProfiling = false ∨ s.isprofiling = false) ∧
      completionSection s id =
        { s with capturedIds := s.capturedIds.erase id, log := .erase id :: s.log }) ∨
    (s.capturedIds.erase id = ∅ ∧ s.stopProfiling = true ∧ s.isprofiling = true ∧
      completionSection s id =
        { s with
          isprofiling := false
          stopProfiling := false
          capturedIds := ∅
          attConsecutiveKernelDispatchId := uint64Max
          log := .stopContext :: .erase id :: s.log }) := by
  by_cases hc : s.capturedIds.erase id = ∅
  · cases hs : s.stopProfiling <;> cases hp : s.isprofiling
    all_goals simp [completionSection, hc, hs, hp]
  · simp [completionSection, hc]

end ThreadTrace
end Version3
