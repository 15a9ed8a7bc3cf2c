import RocprofTool.Lib.Runs
import RocprofTool.Version3.Signals.Interpose

/-!
# Entering the handler again

There are two ways back into `rocprofv3_error_signal_handler`.

The first is the `raise` at its end.  It is meant to reach the default disposition, and it does if
the disposition was *one-shot*: two of the three functions that install the handler set
`SA_RESETHAND`, but `rocprofv3_signal` installs it with `signal`, and then every `raise` enters the
handler once more.  `everywhere_oneShot_iff` shows that these calls are the only ones that break
the property.

The second is the chained call, which is made from inside the block that is run once, so that the
handler must not be chained to itself.  The functions of the tool get into the hands of the
application as the old handlers that `signal` and `sigaction` return, and come back when it
restores them.  `Process` keeps track of what has been handed back, and
`everywhere_notSelfChained_iff` says which calls then chain the tool to itself.
-/

set_option autoImplicit false

open Tool

namespace Version3
namespace Signals

/-- One of the two functions of the tool that lead to `rocprofv3_error_signal_handler`. -/
def Handler.isTool : Handler → Bool
  | .errorSignalHandler => true
  | .signalWrapper => true
  | _ => false

/-! ## The signal that is raised again -/

/-- Delivering the signal ends the process, whatever the number of deliveries it takes. -/
def Terminates (d : Dispositions) (signum : Signum) : Prop :=
  ∀ signalHandlerExit, ∃ fuel outcome,
    deliver signalHandlerExit fuel d signum = some outcome ∧ outcome ≠ .resumed

/-- Wherever the disposition of a handled signal leads to the tool's handler, it is one-shot, and
the signal raised by the handler ends the process. -/
def OneShot (s : State) : Prop :=
  ∀ signum ∈ handledSignals, (s.dispositions signum).saHandler.isTool = true →
    (s.dispositions signum).saFlags.has saResethand = true ∧ Terminates s.dispositions signum

/-- The call does not install a handler with `signal`. -/
def NotSignal : Call → Prop
  | .signal signum _ => signum ∉ handledSignals
  | _ => True

/-- **A one-shot disposition is default when the signal is raised again.** -/
theorem terminates_of_resethand {d : Dispositions} {signum : Signum}
    (htool : (d signum).saHandler.isTool = true)
    (hreset : (d signum).saFlags.has saResethand = true) : Terminates d signum := by
  have hdfl : (resetOnDelivery d signum signum).saHandler = .sigDfl := by
    simp [resetOnDelivery, hreset]
  intro signalHandlerExit
  refine ⟨2, if signalHandlerExit then .quickExit else .killed, ?_, by split <;> simp⟩
  cases h : (d signum).saHandler <;> rw [h] at htool <;> cases htool
  all_goals
    cases signalHandlerExit <;> simp [deliver, h, hdfl]

/-- **A disposition that is not one-shot leads to the handler again and again.** -/
theorem deliver_persistent {d : Dispositions} {signum : Signum}
    (htool : (d signum).saHandler.isTool = true)
    (hreset : (d signum).saFlags.has saResethand = false) (fuel : ℕ) :
    deliver false fuel d signum = none := by
  have hsame : resetOnDelivery d signum = d := by simp [resetOnDelivery, hreset]
  induction fuel with
  | zero => rfl
  | succ fuel ih =>
    cases h : (d signum).saHandler <;> rw [h] at htool <;> cases htool
    all_goals
      simp only [deliver, h, hsame, Bool.false_eq_true, if_false]
      exact ih

theorem toolFlags_has_saResethand : toolFlags.has saResethand = true := by decide

theorem saRestart_has_saResethand : saRestart.has saResethand = false := by decide

/-- Only the flag has to be looked at. -/
theorem oneShot_iff (s : State) : OneShot s ↔ ∀ signum ∈ handledSignals,
    (s.dispositions signum).saHandler.isTool = true →
      (s.dispositions signum).saFlags.has saResethand = true :=
  ⟨fun h signum hs ht ↦ (h signum hs ht).1,
    fun h signum hs ht ↦ ⟨h signum hs ht, terminates_of_resethand ht (h signum hs ht)⟩⟩

theorem oneShot_start (ignored : Signum → Bool) : OneShot (State.start ignored) := by
  intro signum _ ht
  cases hi : ignored signum <;> simp [State.start, hi, Handler.isTool] at ht

/-- A call other than `signal` for this signal leaves its disposition one-shot. -/
theorem Slot.has_saResethand_call {signum : Signum} {slot : Slot} {c : Call}
    (hnot : ∀ handler, c ≠ .signal signum handler)
    (hslot : slot.disposition.saHandler.isTool = true →
      slot.disposition.saFlags.has saResethand = true) :
    (slot.call signum c).disposition.saHandler.isTool = true →
      (slot.call signum c).disposition.saFlags.has saResethand = true := by
  cases c with
  | initializeSignalHandler =>
    by_cases hc : slot.chained.isSome = true
    · rw [Slot.call, if_pos hc]
      exact hslot
    · rw [Slot.call, if_neg hc]
      exact fun _ ↦ toolFlags_has_saResethand
  | signal k handler =>
    have hk : k ≠ signum := fun hk ↦ hnot handler (by rw [hk])
    rw [Slot.call, if_neg hk]
    exact hslot
  | sigaction k act =>
    cases act with
    | none => exact hslot
    | some act =>
      by_cases hk : k = signum
      · rw [Slot.call, if_pos hk]
        exact fun _ ↦ SaFlags.has_or_right act.saFlags toolFlags_has_saResethand
      · rw [Slot.call, if_neg hk]
        exact hslot

/-- **One call.** -/
theorem oneShot_step_iff {cfg : Config} (hcfg : cfg.enableSignalHandlers = true) (s : State)
    (c : Call) (t : State) (hs : OneShot s) (ht : s.step cfg c = some t) :
    OneShot t ↔ NotSignal c := by
  obtain rfl : s.call cfg c = t := by simpa [State.step] using ht
  have hdisp : ∀ signum ∈ handledSignals, (s.call cfg c).dispositions signum
      = ((s.slot signum).call signum c).disposition := fun signum h ↦ by
    rw [← slot_call hcfg h]
    rfl
  rw [oneShot_iff] at hs ⊢
  constructor
  · intro hone
    cases c with
    | signal k handler =>
      intro hk
      have hflag := hone k hk
      rw [hdisp k hk, Slot.call, if_pos rfl] at hflag
      have hset : saRestart.has saResethand = true := hflag rfl
      rw [saRestart_has_saResethand] at hset
      cases hset
    | initializeSignalHandler => trivial
    | sigaction k act => trivial
  · intro hnot signum h
    rw [hdisp signum h]
    refine Slot.has_saResethand_call (fun handler hc ↦ ?_) (hs signum h)
    subst hc
    exact hnot h

/-- **Exactly which runs always reach the default disposition**: those in which the application
never calls `signal` for a handled signal. -/
theorem everywhere_oneShot_iff {cfg : Config} (hcfg : cfg.enableSignalHandlers = true)
    {ignored : Signum → Bool} {calls : List Call} {s : State}
    (hrun : Runs.run (State.step cfg) (State.start ignored) calls = some s) :
    Runs.Everywhere (State.step cfg) (State.start ignored) OneShot calls ↔
      Runs.Along (State.step cfg) (State.start ignored) (fun _ c ↦ NotSignal c) calls :=
  Runs.everywhere_iff_along (I := fun _ ↦ True) trivial (fun _ _ _ _ _ ↦ trivial)
    (oneShot_start ignored) (fun s c t _ hs ht ↦ oneShot_step_iff hcfg s c t hs ht) hrun

/-- The handler is installed, and the application installs its own with `sigaction`. -/
theorem everywhere_oneShot_iff_sigaction :
    Runs.Everywhere (State.step { enableSignalHandlers := true }) (State.start fun _ ↦ false)
        OneShot [.initializeSignalHandler, .sigaction 2 (some ⟨.app 0, saSiginfo⟩)] ↔
      Runs.Along (State.step { enableSignalHandlers := true }) (State.start fun _ ↦ false)
        (fun _ c ↦ NotSignal c)
        [.initializeSignalHandler, .sigaction 2 (some ⟨.app 0, saSiginfo⟩)] :=
  everywhere_oneShot_iff rfl rfl

/-- **After `signal` the handler is entered without end**: for no number of deliveries does the
process come to an end. -/
theorem signal_reraises_forever :
    ∃ s, Runs.run (State.step { enableSignalHandlers := true }) (State.start fun _ ↦ false)
          [.initializeSignalHandler, .signal 2 (.app 0)] = some s ∧
      ¬OneShot s ∧ ∀ fuel, deliver false fuel s.dispositions 2 = none := by
  refine ⟨_, rfl, fun h ↦ ?_, deliver_persistent (by decide) (by decide)⟩
  exact absurd (h 2 (by decide) (by decide)).1 (by decide)

/-! ## The handler that is chained to itself -/

/-- The function in an entry of the table. -/
def ChainedSiginfo.function (chained : ChainedSiginfo) : Handler :=
  match chained.action with
  | some action => action.saHandler
  | none => chained.handler

/-- No handled signal is chained to a function of the tool, and so no delivery calls one from
inside the tool's handler. -/
def NotSelfChained (s : State) : Prop :=
  ∀ signum ∈ handledSignals,
    (∀ chained, s.chained signum = some chained → chained.function.isTool = false) ∧
      ∀ call, firstDelivery s signum () = some call → call.function.isTool = false

/-- The application, as far as it can pass functions of the tool on. -/
structure Process where
  state : State
  /-- The handlers that earlier calls have handed back. -/
  handedBack : List Handler

/-- The handler that a call passes. -/
def Call.handler : Call → Option Handler
  | .initializeSignalHandler => none
  | .signal _ handler => some handler
  | .sigaction _ act => act.map Sigaction.saHandler

/-- A call that the application can make: it passes one of its own functions, `SIG_DFL`, `SIG_IGN`
or what it was handed back. -/
def Process.step (cfg : Config) (p : Process) (c : Call) : Option Process :=
  if ∀ handler ∈ c.handler, handler.isTool = false ∨ handler ∈ p.handedBack then
    some ⟨p.state.call cfg c, (p.state.handsBack cfg c).toList ++ p.handedBack⟩
  else none

/-- The call does not pass a function of the tool for a handled signal, as far as the check in
`sigaction` does not see it. -/
def NotPassedBack : Call → Prop
  | .initializeSignalHandler => True
  | .signal signum handler => signum ∈ handledSignals → handler.isTool = false
  | .sigaction _ none => True
  | .sigaction signum (some act) => signum ∈ handledSignals →
      act.saFlags.has saSiginfo = true → act.saHandler ≠ .signalWrapper

/-- The chained call is a call of the chained function. -/
theorem chainedCall_function {ι : Type} {s : State} {signum : Signum} {passed : Option ι}
    {call : Invocation ι} (h : chainedCall s signum passed = some call) :
    ∃ chained, s.chained signum = some chained ∧ call.function = chained.function := by
  rw [chainedCall] at h
  cases hc : s.chained signum with
  | none => simp [hc] at h
  | some chained =>
    refine ⟨chained, rfl, ?_⟩
    cases ha : chained.action with
    | none =>
      simp only [hc, ha] at h
      split at h
      · cases h
        simp [Invocation.function, ChainedSiginfo.function, ha]
      · cases h
    | some action =>
      simp only [hc, ha] at h
      split at h
      · cases h
        simp [Invocation.function, ChainedSiginfo.function, ha]
      · split at h
        · cases h
          simp [Invocation.function, ChainedSiginfo.function, ha]
        · cases h

/-- Only the table has to be looked at. -/
theorem notSelfChained_iff (s : State) : NotSelfChained s ↔ ∀ signum ∈ handledSignals,
    ∀ chained, s.chained signum = some chained → chained.function.isTool = false := by
  refine ⟨fun h signum hs ↦ (h signum hs).1, fun h signum hs ↦ ⟨h signum hs, fun call hcall ↦ ?_⟩⟩
  have hchained : ∀ passed, chainedCall s signum passed = some call →
      call.function.isTool = false := fun passed hp ↦ by
    obtain ⟨chained, hc, hf⟩ := chainedCall_function hp
    rw [hf]
    exact h signum hs chained hc
  cases hd : (s.dispositions signum).saHandler with
  | sigDfl => simp [firstDelivery, hd] at hcall
  | sigIgn => simp [firstDelivery, hd] at hcall
  | errorSignalHandler =>
    simp only [firstDelivery, hd] at hcall
    exact hchained _ hcall
  | signalWrapper =>
    simp only [firstDelivery, hd] at hcall
    exact hchained _ hcall
  | app f =>
    simp only [firstDelivery, hd] at hcall
    split at hcall <;> cases hcall <;> rfl

theorem notSelfChained_start (ignored : Signum → Bool) :
    NotSelfChained (State.start ignored) := by
  rw [notSelfChained_iff]
  intro signum _ chained h
  cases h

/-- The entry that a call puts into the table for a signal, if it puts one there. -/
def Call.chains (signum : Signum) : Call → Option ChainedSiginfo
  | .initializeSignalHandler => none
  | .signal k handler => if k = signum then some ⟨signum, handler, none⟩ else none
  | .sigaction _ none => none
  | .sigaction k (some act) =>
    if k = signum ∧ act.isChained = true then some ⟨signum, .sigDfl, some act⟩ else none

theorem Slot.chained_call (signum : Signum) (slot : Slot) (c : Call) :
    (slot.call signum c).chained = (c.chains signum).or slot.chained := by
  cases c with
  | initializeSignalHandler =>
    rw [Slot.call]
    split <;> rfl
  | signal k handler => by_cases hk : k = signum <;> simp [Slot.call, Call.chains, hk]
  | sigaction k act =>
    cases act with
    | none => rfl
    | some act =>
      by_cases hk : k = signum <;> by_cases hact : act.isChained = true <;>
        simp [Slot.call, Call.chains, hk, hact]

/-- What is not to be passed back is what would get into the table. -/
theorem notPassedBack_iff (c : Call) : NotPassedBack c ↔ ∀ signum ∈ handledSignals,
    ∀ chained, c.chains signum = some chained → chained.function.isTool = false := by
  cases c with
  | initializeSignalHandler => simp [NotPassedBack, Call.chains]
  | signal k handler =>
    constructor
    · intro hok signum h chained hc
      rw [Call.chains, Option.ite_none_right_eq_some] at hc
      obtain ⟨rfl, hc⟩ := hc
      cases hc
      exact hok h
    · intro hok h
      exact hok k h ⟨k, handler, none⟩ (if_pos rfl)
  | sigaction k act =>
    cases act with
    | none => simp [NotPassedBack, Call.chains]
    | some act =>
      have htool : act.isChained = true →
          (act.saHandler.isTool = false ↔ act.saHandler ≠ .signalWrapper) := fun hact ↦ by
        obtain ⟨-, hself⟩ := Bool.and_eq_true_iff.mp hact
        cases hf : act.saHandler <;> simp_all [Handler.isTool]
      constructor
      · intro hok signum h chained hc
        rw [Call.chains, Option.ite_none_right_eq_some] at hc
        obtain ⟨⟨rfl, hact⟩, hc⟩ := hc
        cases hc
        exact (htool hact).mpr (hok h (Bool.and_eq_true_iff.mp hact).1)
      · intro hok h hinfo hwrap
        have hact : act.isChained = true := by simp [Sigaction.isChained, hinfo, hwrap]
        have hclean := hok k h ⟨k, .sigDfl, some act⟩ (if_pos ⟨rfl, hact⟩)
        exact (htool hact).mp hclean hwrap

/-- **One call.** -/
theorem notSelfChained_step_iff {cfg : Config} (hcfg : cfg.enableSignalHandlers = true)
    (p : Process) (c : Call) (q : Process) (hp : NotSelfChained p.state)
    (hq : p.step cfg c = some q) : NotSelfChained q.state ↔ NotPassedBack c := by
  have hstate : q.state = p.state.call cfg c := by
    rw [Process.step, Option.ite_none_right_eq_some] at hq
    cases hq.2
    rfl
  have hentry : ∀ signum ∈ handledSignals,
      q.state.chained signum = (c.chains signum).or (p.state.chained signum) := fun signum h ↦ by
    have hslot := congrArg Slot.chained (slot_call hcfg h p.state c)
    rw [Slot.chained_call, ← hstate] at hslot
    exact hslot
  rw [notSelfChained_iff] at hp ⊢
  rw [notPassedBack_iff]
  constructor
  · intro hclean signum h chained hc
    exact hclean signum h chained (by rw [hentry signum h, hc, Option.some_or])
  · intro hok signum h chained hc
    rw [hentry signum h, Option.or_eq_some_iff] at hc
    rcases hc with hc | ⟨-, hc⟩
    · exact hok signum h chained hc
    · exact hp signum h chained hc

/-- **Exactly which runs never chain the tool to itself**: those in which, for a handled signal,
no function of the tool is passed to `signal`, nor the function that `signal` installs to
`sigaction` with `SA_SIGINFO`. -/
theorem everywhere_notSelfChained_iff {cfg : Config} (hcfg : cfg.enableSignalHandlers = true)
    {ignored : Signum → Bool} {calls : List Call} {p : Process}
    (hrun : Runs.run (Process.step cfg) ⟨State.start ignored, []⟩ calls = some p) :
    Runs.Everywhere (Process.step cfg) ⟨State.start ignored, []⟩
        (fun p ↦ NotSelfChained p.state) calls ↔
      Runs.Along (Process.step cfg) ⟨State.start ignored, []⟩ (fun _ c ↦ NotPassedBack c) calls :=
  Runs.everywhere_iff_along (I := fun _ ↦ True) (P := fun p : Process ↦ NotSelfChained p.state)
    trivial (fun _ _ _ _ _ ↦ trivial) (notSelfChained_start ignored)
    (fun p c q _ hp hq ↦ notSelfChained_step_iff hcfg p c q hp hq) hrun

/-- The application restores with `sigaction` what `sigaction` has handed back. -/
theorem everywhere_notSelfChained_iff_restored :
    Runs.Everywhere (Process.step { enableSignalHandlers := true })
        ⟨State.start fun _ ↦ false, []⟩ (fun p ↦ NotSelfChained p.state)
        [.initializeSignalHandler, .sigaction 2 (some ⟨.app 0, saSiginfo⟩),
          .sigaction 2 (some ⟨.errorSignalHandler, toolFlags⟩)] ↔
      Runs.Along (Process.step { enableSignalHandlers := true })
        ⟨State.start fun _ ↦ false, []⟩ (fun _ c ↦ NotPassedBack c)
        [.initializeSignalHandler, .sigaction 2 (some ⟨.app 0, saSiginfo⟩),
          .sigaction 2 (some ⟨.errorSignalHandler, toolFlags⟩)] :=
  everywhere_notSelfChained_iff rfl rfl

/-- **Saving and restoring a handler with `signal` chains the tool to itself.** -/
theorem restored_handler_self_chained :
    ∃ p, Runs.run (Process.step { enableSignalHandlers := true })
          ⟨State.start fun _ ↦ false, []⟩
          [.initializeSignalHandler, .signal 2 (.app 0), .signal 2 .errorSignalHandler] = some p ∧
      p.state.chained 2 = some ⟨2, .errorSignalHandler, none⟩ ∧
      firstDelivery p.state 2 () = some (.handler .errorSignalHandler 2) ∧
      ¬NotSelfChained p.state := by
  refine ⟨_, rfl, rfl, rfl, fun h ↦ ?_⟩
  have hclean := (h 2 (by decide)).1 ⟨2, .errorSignalHandler, none⟩ rfl
  cases hclean

end Signals
end Version3
