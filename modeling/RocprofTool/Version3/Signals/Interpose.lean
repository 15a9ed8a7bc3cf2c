import Mathlib.Data.Int.Notation
import Mathlib.Logic.Function.Basic
import RocprofTool.Config

/-!
# The interposed `signal` and `sigaction`

The tool wants to write its output when the application is killed.  It installs
`rocprofv3_error_signal_handler` for the four `handledSignals` and stands in for `signal` and
`sigaction`: what the application asks for one of these signals goes into the table of *chained*
handlers, and the tool's handler is installed in its place.  When such a signal is delivered the
tool writes its output, calls the chained handler and raises the signal again.

The first section is the part of the C library that this rests on: dispositions, `signal` with its
BSD meaning (the handler stays installed) and `sigaction`.  A handler is the value of a function
pointer, and `sa_handler` and `sa_sigaction` share their storage.  The masks of `sigaction` are
left out, since nothing here reads them.

`ι` is the type of what the kernel passes to a three-argument handler besides the signal: the
`siginfo_t` and the context.
-/

set_option autoImplicit false

open Tool

namespace Version3
namespace Signals

universe u

/-! ## The C library -/

/-- A signal number, of type `int`. -/
abbrev Signum := ℤ

/-- A function pointer in a disposition or in the table of chained handlers. -/
inductive Handler
  /-- `SIG_DFL`, which is the null pointer. -/
  | sigDfl
  /-- `SIG_IGN`, which is not. -/
  | sigIgn
  /-- `rocprofv3_error_signal_handler`. -/
  | errorSignalHandler
  /-- The function without a name that `rocprofv3_signal` installs. -/
  | signalWrapper
  /-- A function of the application. -/
  | app (function : ℕ)
  deriving DecidableEq, Repr

/-- The type of `sa_flags`. -/
abbrev SaFlags := BitVec 32

def saNocldstop : SaFlags := 0x00000001
def saSiginfo : SaFlags := 0x00000004
def saRestart : SaFlags := 0x10000000
def saResethand : SaFlags := 0x80000000

/-- `struct sigaction`; `sa_sigaction` is `saHandler` too. -/
structure Sigaction where
  saHandler : Handler
  saFlags : SaFlags
  deriving DecidableEq, Repr

/-- `(flags & flag) == flag`. -/
def SaFlags.has (flags flag : SaFlags) : Bool := flags &&& flag == flag

theorem SaFlags.has_or_right {flag : SaFlags} (a : SaFlags) {b : SaFlags}
    (h : b.has flag = true) : SaFlags.has (a ||| b) flag = true := by
  rw [has, beq_iff_eq] at h ⊢
  rw [← h]
  ext i hi
  simp only [BitVec.getElem_and, BitVec.getElem_or]
  cases a[i] <;> cases b[i] <;> rfl

/-- What the process does with each signal. -/
abbrev Dispositions := Signum → Sigaction

/-- Can the disposition of the signal be set?  `SIGKILL`, `SIGSTOP` and the two signals that the
C library keeps for itself are refused. -/
def catchable (signum : Signum) : Bool :=
  decide (1 ≤ signum ∧ signum ≤ 64 ∧ signum ≠ 9 ∧ signum ≠ 19 ∧ signum ≠ 32 ∧ signum ≠ 33)

/-- `signal`: the handler that was installed, or `none` for `SIG_ERR`. -/
def signal (d : Dispositions) (signum : Signum) (handler : Handler) :
    Option Handler × Dispositions :=
  if catchable signum then
    (some (d signum).saHandler, Function.update d signum ⟨handler, saRestart⟩)
  else (none, d)

/-- `sigaction`: what it writes to `oldact`, or `none` for the result `-1`. -/
def sigaction (d : Dispositions) (signum : Signum) (act : Option Sigaction) :
    Option Sigaction × Dispositions :=
  match act with
  | none => if 1 ≤ signum ∧ signum ≤ 64 then (some (d signum), d) else (none, d)
  | some act =>
    if catchable signum then (some (d signum), Function.update d signum act) else (none, d)

/-! ## The interposers -/

/-- `rocprofv3_handled_signals`: `SIGINT`, `SIGQUIT`, `SIGABRT` and `SIGTERM`. -/
def handledSignals : List Signum := [2, 3, 6, 15]

/-- `is_handled_signal`. -/
def isHandledSignal (signum : Signum) : Bool := handledSignals.any (· == signum)

/-- `chained_siginfo`. -/
structure ChainedSiginfo where
  signo : Signum := 0
  handler : Handler := .sigDfl
  action : Option Sigaction := none
  deriving DecidableEq, Repr

/-- The dispositions of the process, and `get_chained_signals()`, of which only the entries of
handled signals are used. -/
structure State where
  dispositions : Dispositions
  chained : Signum → Option ChainedSiginfo

/-- The flags of every `sigaction` call that the tool makes. -/
def toolFlags : SaFlags := saSiginfo ||| saResethand ||| saNocldstop

/-- The body of the loop of `initialize_signal_handler`, which skips a signal that is already
wrapped. -/
def installSignalHandler (s : State) (signum : Signum) : State :=
  if (s.chained signum).isSome then s
  else
    let sigAct : Sigaction := ⟨.errorSignalHandler, toolFlags⟩
    { s with dispositions := (sigaction s.dispositions signum (some sigAct)).2 }

/-- `initialize_signal_handler`. -/
def initializeSignalHandler (s : State) : State := handledSignals.foldl installSignalHandler s

/-- `rocprofv3_signal`. -/
def rocprofv3Signal (cfg : Config) (s : State) (signum : Signum) (handler : Handler) :
    Option Handler × State :=
  if !isHandledSignal signum || !cfg.enableSignalHandlers then
    let (old, d) := signal s.dispositions signum handler
    (old, { s with dispositions := d })
  else
    let chained := Function.update s.chained signum (some ⟨signum, handler, none⟩)
    let (old, d) := signal s.dispositions signum .signalWrapper
    (old, ⟨d, chained⟩)

/-- Is what `sigaction` is asked for put into the table?  Makes sure that the tool's handler
doesn't call itself. -/
def Sigaction.isChained (act : Sigaction) : Bool :=
  act.saFlags.has saSiginfo && act.saHandler != .errorSignalHandler

/-- `rocprofv3_sigaction`; a null `act` only asks for the disposition. -/
def rocprofv3Sigaction (cfg : Config) (s : State) (signum : Signum) (act : Option Sigaction) :
    Option Sigaction × State :=
  match act with
  | none =>
    let (old, d) := sigaction s.dispositions signum none
    (old, { s with dispositions := d })
  | some act =>
    if !isHandledSignal signum || !cfg.enableSignalHandlers then
      let (old, d) := sigaction s.dispositions signum (some act)
      (old, { s with dispositions := d })
    else
      let chained :=
        if act.isChained then
          Function.update s.chained signum (some ⟨signum, .sigDfl, some act⟩)
        else s.chained
      let updAct : Sigaction := ⟨.errorSignalHandler, act.saFlags ||| toolFlags⟩
      let (old, d) := sigaction s.dispositions signum (some updAct)
      (old, ⟨d, chained⟩)

/-! ## Delivery -/

/-- A call of a handler, in either of the two forms. -/
inductive Invocation (ι : Type u)
  | handler (function : Handler) (signo : Signum)
  | sigaction (function : Handler) (signo : Signum) (info : Option ι)
  deriving DecidableEq, Repr

/-- The handler that is called. -/
def Invocation.function {ι : Type u} : Invocation ι → Handler
  | .handler f _ => f
  | .sigaction f _ _ => f

/-- The chained call at the end of the block of `rocprofv3_error_signal_handler` that is run
once. -/
def chainedCall {ι : Type u} (s : State) (signo : Signum) (info : Option ι) :
    Option (Invocation ι) :=
  match s.chained signo with
  | none => none
  | some chained =>
    match chained.action with
    | some action =>
      if action.saFlags.has saSiginfo && action.saHandler != .sigDfl &&
          action.saHandler != .errorSignalHandler then
        some (.sigaction action.saHandler signo info)
      else if !action.saFlags.has saSiginfo && action.saHandler != .sigDfl &&
          action.saHandler != .errorSignalHandler then
        some (.handler action.saHandler signo)
      else none
    | none =>
      if chained.handler != .sigDfl then some (.handler chained.handler signo) else none

/-- What the kernel passes to a handler besides the signal. -/
def delivered {ι : Type u} (action : Sigaction) (info : ι) : Option ι :=
  if action.saFlags.has saSiginfo then some info else none

/-- The call that is made when the first handled signal is delivered: by the kernel if the
disposition is a function of the application, by the tool if it is one of the tool's. -/
def firstDelivery {ι : Type u} (s : State) (signo : Signum) (info : ι) : Option (Invocation ι) :=
  let action := s.dispositions signo
  match action.saHandler with
  | .sigDfl => none
  | .sigIgn => none
  | .errorSignalHandler => chainedCall s signo (delivered action info)
  | .signalWrapper => chainedCall s signo none
  | .app f =>
    if action.saFlags.has saSiginfo then some (.sigaction (.app f) signo (some info))
    else some (.handler (.app f) signo)

/-- How the delivery of a signal ends. -/
inductive Outcome
  /-- By the default disposition, which terminates the process. -/
  | killed
  /-- By `quick_exit`. -/
  | quickExit
  /-- The signal is ignored, or handled by the application. -/
  | resumed
  deriving DecidableEq, Repr

/-- The dispositions when the handler is called: `SA_RESETHAND` makes it one-shot. -/
def resetOnDelivery (d : Dispositions) (signo : Signum) : Dispositions :=
  if (d signo).saFlags.has saResethand then
    Function.update d signo { d signo with saHandler := .sigDfl }
  else d

/-- Deliver a handled signal, with the `raise` at the end of the tool's handler, which delivers
it again.  The chained handlers return and leave the dispositions as they are.  `fuel` bounds the
number of deliveries, and `none` means that it did not suffice. -/
def deliver (signalHandlerExit : Bool) : ℕ → Dispositions → Signum → Option Outcome
  | 0, _, _ => none
  | fuel + 1, d, signo =>
    match (d signo).saHandler with
    | .sigDfl => some .killed
    | .sigIgn => some .resumed
    | .app _ => some .resumed
    | .errorSignalHandler | .signalWrapper =>
      if signalHandlerExit then some .quickExit
      else deliver signalHandlerExit fuel (resetOnDelivery d signo) signo

/-! ## Sequences of calls -/

/-- The calls that change dispositions. -/
inductive Call
  | initializeSignalHandler
  | signal (signum : Signum) (handler : Handler)
  | sigaction (signum : Signum) (act : Option Sigaction)
  deriving DecidableEq, Repr

/-- The state after a call. -/
def State.call (cfg : Config) (s : State) : Call → State
  | .initializeSignalHandler => initializeSignalHandler s
  | .signal signum handler => (rocprofv3Signal cfg s signum handler).2
  | .sigaction signum act => (rocprofv3Sigaction cfg s signum act).2

/-- A call as a step, which is always enabled. -/
def State.step (cfg : Config) (s : State) (c : Call) : Option State := some (s.call cfg c)

/-- The handler that a call hands back: the result of `signal`, or the one in `oldact`. -/
def State.handsBack (cfg : Config) (s : State) : Call → Option Handler
  | .initializeSignalHandler => none
  | .signal signum handler => (rocprofv3Signal cfg s signum handler).1
  | .sigaction signum act => (rocprofv3Sigaction cfg s signum act).1.map Sigaction.saHandler

/-- The process when it starts: it inherits which signals are ignored, and nothing else. -/
def State.start (ignored : Signum → Bool) : State where
  dispositions signum := ⟨if ignored signum then .sigIgn else .sigDfl, 0⟩
  chained _ := none

/-! ## One signal at a time

Whatever is asked for a signal, the other signals do not notice: a handled signal is a small
system of its own, made of its disposition and of its entry in the table. -/

/-- The disposition of a signal and its chained handler. -/
structure Slot where
  disposition : Sigaction
  chained : Option ChainedSiginfo
  deriving DecidableEq, Repr

/-- The slot of a signal. -/
def State.slot (s : State) (signum : Signum) : Slot := ⟨s.dispositions signum, s.chained signum⟩

/-- The slot of a handled signal after a call, when signal handlers are enabled. -/
def Slot.call (signum : Signum) (slot : Slot) : Call → Slot
  | .initializeSignalHandler =>
    if slot.chained.isSome then slot
    else { slot with disposition := ⟨.errorSignalHandler, toolFlags⟩ }
  | .signal k handler =>
    if k = signum then ⟨⟨.signalWrapper, saRestart⟩, some ⟨signum, handler, none⟩⟩ else slot
  | .sigaction _ none => slot
  | .sigaction k (some act) =>
    if k = signum then
      ⟨⟨.errorSignalHandler, act.saFlags ||| toolFlags⟩,
        if act.isChained then some ⟨signum, .sigDfl, some act⟩ else slot.chained⟩
    else slot

theorem isHandledSignal_iff {signum : Signum} :
    isHandledSignal signum = true ↔ signum ∈ handledSignals := by
  simp [isHandledSignal]

theorem catchable_of_handled {signum : Signum} (h : signum ∈ handledSignals) :
    catchable signum = true := by
  simp only [handledSignals, List.mem_cons, List.not_mem_nil, or_false] at h
  rcases h with rfl | rfl | rfl | rfl <;> decide

theorem slot_installSignalHandler_self {signum : Signum} (h : signum ∈ handledSignals)
    (s : State) :
    (installSignalHandler s signum).slot signum
      = (s.slot signum).call signum .initializeSignalHandler := by
  cases hc : s.chained signum <;>
    simp [installSignalHandler, State.slot, Slot.call, sigaction, catchable_of_handled h, hc]

theorem slot_installSignalHandler_of_ne {signum k : Signum} (h : signum ≠ k) (s : State) :
    (installSignalHandler s k).slot signum = s.slot signum := by
  cases hc : s.chained k <;> cases hk : catchable k <;>
    simp [installSignalHandler, State.slot, sigaction, hk, hc, Function.update_of_ne h]

/-- Installing the handler a second time changes nothing. -/
theorem call_initializeSignalHandler_idem (signum : Signum) (slot : Slot) :
    (slot.call signum .initializeSignalHandler).call signum .initializeSignalHandler
      = slot.call signum .initializeSignalHandler := by
  cases hc : slot.chained <;> simp [Slot.call, hc]

/-- Installing the handler for some signals, one after the other. -/
theorem slot_foldl_installSignalHandler {signum : Signum} (h : signum ∈ handledSignals)
    (signums : List Signum) (s : State) :
    (signums.foldl installSignalHandler s).slot signum
      = if signum ∈ signums then (s.slot signum).call signum .initializeSignalHandler
        else s.slot signum := by
  induction signums generalizing s with
  | nil => rfl
  | cons k signums ih =>
    rw [List.foldl_cons, ih]
    by_cases hk : signum = k
    · subst hk
      simp [slot_installSignalHandler_self h, call_initializeSignalHandler_idem]
    · simp [slot_installSignalHandler_of_ne hk, hk]

/-- **A call does to a handled signal what `Slot.call` says.** -/
theorem slot_call {cfg : Config} (hcfg : cfg.enableSignalHandlers = true) {signum : Signum}
    (h : signum ∈ handledSignals) (s : State) (c : Call) :
    (s.call cfg c).slot signum = (s.slot signum).call signum c := by
  cases c with
  | initializeSignalHandler =>
    rw [State.call, initializeSignalHandler, slot_foldl_installSignalHandler h, if_pos h]
  | signal k handler =>
    by_cases hk : isHandledSignal k = true
    · have hcatch := catchable_of_handled (isHandledSignal_iff.mp hk)
      by_cases hks : k = signum
      · subst hks
        simp [State.call, rocprofv3Signal, hk, hcfg, signal, hcatch, State.slot, Slot.call]
      · have hsk : signum ≠ k := fun h ↦ hks h.symm
        simp [State.call, rocprofv3Signal, hk, hcfg, signal, hcatch, State.slot, Slot.call, hks,
          Function.update_of_ne hsk]
    · have hks : k ≠ signum := fun hks ↦ hk (isHandledSignal_iff.mpr (hks ▸ h))
      have hsk : signum ≠ k := fun h ↦ hks h.symm
      cases hcatch : catchable k <;>
        simp [State.call, rocprofv3Signal, hk, signal, hcatch, State.slot, Slot.call, hks,
          Function.update_of_ne hsk]
  | sigaction k act =>
    cases act with
    | none =>
      simp only [State.call, rocprofv3Sigaction, sigaction, State.slot, Slot.call]
      split <;> rfl
    | some act =>
      by_cases hk : isHandledSignal k = true
      · have hcatch := catchable_of_handled (isHandledSignal_iff.mp hk)
        by_cases hks : k = signum
        · subst hks
          cases hact : act.isChained <;>
            simp [State.call, rocprofv3Sigaction, hk, hcfg, sigaction, hcatch, State.slot,
              Slot.call, hact]
        · have hsk : signum ≠ k := fun h ↦ hks h.symm
          simp [State.call, rocprofv3Sigaction, hk, hcfg, sigaction, hcatch, State.slot,
            Slot.call, hks, ite_apply, Function.update_of_ne hsk]
      · have hks : k ≠ signum := fun hks ↦ hk (isHandledSignal_iff.mpr (hks ▸ h))
        have hsk : signum ≠ k := fun h ↦ hks h.symm
        cases hcatch : catchable k <;>
          simp [State.call, rocprofv3Sigaction, hk, sigaction, hcatch, State.slot, Slot.call, hks,
            Function.update_of_ne hsk]

end Signals
end Version3
