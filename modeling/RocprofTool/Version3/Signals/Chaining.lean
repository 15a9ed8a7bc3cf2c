import RocprofTool.Lib.Runs
import RocprofTool.Version3.Signals.Interpose

/-!
# Which handler the tool chains to

When the first handled signal is delivered, the application should notice nothing: the function it
has asked for last should be called, in the form it was asked for, and nothing should be called
where it has asked for nothing, for the default or for the signal to be ignored.

The table of chained handlers does not keep everything that is asked for.  `signal` always writes
to it; `sigaction` only does with `SA_SIGINFO` and for another function than the tool's own,
although the delivery has a branch for actions without `SA_SIGINFO`.  `Slot.Tracks` says what is
in the table at any time, the last request that was *recorded*, and `firstDelivery_eq` what is made
of it.  `firstDelivery_faithful_iff` compares it with the last request.
-/

set_option autoImplicit false

open Tool

namespace Version3
namespace Signals

universe u

/-! ## What the application asks for -/

/-- What is asked for a signal. -/
inductive Request
  | signal (handler : Handler)
  | sigaction (act : Sigaction)
  deriving DecidableEq, Repr

/-- The request for this signal that a call makes, if it makes one. -/
def Call.request (signum : Signum) : Call → Option Request
  | .initializeSignalHandler => none
  | .signal k handler => if k = signum then some (.signal handler) else none
  | .sigaction _ none => none
  | .sigaction k (some act) => if k = signum then some (.sigaction act) else none

/-- All the requests for a signal, in the order they were made. -/
def requests (signum : Signum) (calls : List Call) : List Request :=
  calls.filterMap (Call.request signum)

/-- The function that is to be called. -/
def Request.handler : Request → Handler
  | .signal handler => handler
  | .sigaction act => act.saHandler

/-- Is it to be called with the `siginfo_t` and the context? -/
def Request.withInfo : Request → Bool
  | .signal _ => false
  | .sigaction act => act.saFlags.has saSiginfo

/-- The function to call for a request and its form, if there is one to call. -/
def Request.asks (r : Request) : Option (Handler × Bool) :=
  if r.handler = .sigDfl ∨ r.handler = .sigIgn then none else some (r.handler, r.withInfo)

/-- The call of a function in one of the two forms. -/
def Invocation.make {ι : Type u} (signum : Signum) (info : ι) : Handler × Bool → Invocation ι
  | (f, true) => .sigaction f signum (some info)
  | (f, false) => .handler f signum

/-- What should be called when the signal is delivered. -/
def dueCall {ι : Type u} (signum : Signum) (info : ι) (last : Option Request) :
    Option (Invocation ι) :=
  (last.bind Request.asks).map (Invocation.make signum info)

/-! ## What the tool records -/

/-- Does the request get into the table? -/
def Request.isRecorded : Request → Bool
  | .signal _ => true
  | .sigaction act => act.isChained

/-- The last of the requests that got into the table. -/
def lastRecorded (rs : List Request) : Option Request := (rs.filter Request.isRecorded).getLast?

/-- The entry of the table for a request. -/
def Request.entry (signum : Signum) : Request → ChainedSiginfo
  | .signal handler => ⟨signum, handler, none⟩
  | .sigaction act => ⟨signum, .sigDfl, some act⟩

/-- What a slot has to do with the requests made so far: the table holds the last one recorded, and
the disposition is one of the two functions of the tool, the one that loses the `siginfo_t` only
after a `signal`. -/
structure Slot.Tracks (signum : Signum) (rs : List Request) (slot : Slot) : Prop where
  chained : slot.chained = (lastRecorded rs).map (Request.entry signum)
  disposition :
    (slot.disposition.saHandler = .errorSignalHandler ∧
      slot.disposition.saFlags.has saSiginfo = true) ∨
    (slot.disposition.saHandler = .signalWrapper ∧
      ∃ handler, lastRecorded rs = some (.signal handler))

theorem toolFlags_has_saSiginfo : toolFlags.has saSiginfo = true := by decide

theorem requests_concat (signum : Signum) (calls : List Call) (c : Call) :
    requests signum (calls ++ [c]) = requests signum calls ++ (c.request signum).toList := by
  rw [requests, requests, List.filterMap_append]
  cases h : c.request signum <;> simp [h]

theorem lastRecorded_concat (rs : List Request) (r : Request) :
    lastRecorded (rs ++ [r]) = if r.isRecorded then some r else lastRecorded rs := by
  cases h : r.isRecorded <;> simp [lastRecorded, h]

/-- What is recorded last was recorded. -/
theorem isRecorded_of_lastRecorded {rs : List Request} {r : Request}
    (h : lastRecorded rs = some r) : r.isRecorded = true :=
  (List.mem_filter.mp (List.mem_of_getLast? h)).2

/-- A call keeps the slots in step with the requests. -/
theorem Slot.Tracks.call {signum : Signum} {rs : List Request} {slot : Slot}
    (h : slot.Tracks signum rs) (c : Call) :
    (slot.call signum c).Tracks signum (rs ++ (c.request signum).toList) := by
  cases c with
  | initializeSignalHandler =>
    rw [Call.request, Option.toList_none, List.append_nil]
    by_cases hc : slot.chained.isSome = true
    · rw [Slot.call, if_pos hc]
      exact h
    · rw [Slot.call, if_neg hc]
      exact ⟨h.chained, Or.inl ⟨rfl, toolFlags_has_saSiginfo⟩⟩
  | signal k handler =>
    by_cases hk : k = signum
    · rw [Slot.call, Call.request, if_pos hk, if_pos hk, Option.toList_some]
      have hlast : lastRecorded (rs ++ [.signal handler]) = some (.signal handler) := by
        rw [lastRecorded_concat]; rfl
      exact ⟨by rw [hlast]; rfl, Or.inr ⟨rfl, handler, hlast⟩⟩
    · rw [Slot.call, Call.request, if_neg hk, if_neg hk, Option.toList_none, List.append_nil]
      exact h
  | sigaction k act =>
    cases act with
    | none => simpa [Slot.call, Call.request] using h
    | some act =>
      by_cases hk : k = signum
      · rw [Slot.call, Call.request, if_pos hk, if_pos hk, Option.toList_some]
        refine ⟨?_, Or.inl ⟨rfl, SaFlags.has_or_right _ toolFlags_has_saSiginfo⟩⟩
        rw [lastRecorded_concat]
        by_cases hact : act.isChained = true
        · rw [if_pos hact, if_pos (show Request.isRecorded (.sigaction act) = true from hact)]
          rfl
        · rw [if_neg hact, if_neg (show ¬Request.isRecorded (.sigaction act) = true from hact)]
          exact h.chained
      · rw [Slot.call, Call.request, if_neg hk, if_neg hk, Option.toList_none, List.append_nil]
        exact h

/-- The tool's handler is installed for the handled signals before the application starts. -/
theorem tracks_start {signum : Signum} (h : signum ∈ handledSignals) (ignored : Signum → Bool) :
    ((initializeSignalHandler (State.start ignored)).slot signum).Tracks signum [] := by
  rw [initializeSignalHandler, slot_foldl_installSignalHandler h, if_pos h]
  exact ⟨rfl, Or.inl ⟨rfl, toolFlags_has_saSiginfo⟩⟩

/-- **In every run the table holds the last recorded request of every handled signal.** -/
theorem tracks_of_run {cfg : Config} (hcfg : cfg.enableSignalHandlers = true) {signum : Signum}
    (h : signum ∈ handledSignals) {ignored : Signum → Bool} {calls : List Call} {s : State}
    (hrun : Runs.run (State.step cfg) (initializeSignalHandler (State.start ignored)) calls
      = some s) : (s.slot signum).Tracks signum (requests signum calls) := by
  refine Runs.run_induction (P := fun calls s ↦ (s.slot signum).Tracks signum
    (requests signum calls)) (tracks_start h ignored) (fun calls s c t _ hs ht ↦ ?_) hrun
  obtain rfl : s.call cfg c = t := by simpa [State.step] using ht
  rw [slot_call hcfg h, requests_concat]
  exact hs.call c

/-! ## What the delivery makes of it -/

/-- The call that is made for a recorded request: also one of `SIG_IGN`, as if it were a
function. -/
def Request.calls (r : Request) : Option (Handler × Bool) :=
  if r.handler = .sigDfl then none else some (r.handler, r.withInfo)

theorem chainedCall_of_signal {ι : Type u} {s : State} {signum : Signum} {handler : Handler}
    (h : s.chained signum = some (Request.entry signum (.signal handler))) (passed : Option ι)
    (info : ι) : chainedCall s signum passed
      = (Request.signal handler).calls.map (Invocation.make signum info) := by
  rw [chainedCall, h]
  by_cases hd : handler = .sigDfl
  · simp [Request.entry, Request.calls, Request.handler, hd]
  · simp [Request.entry, Request.calls, Request.handler, Request.withInfo, Invocation.make, hd]

theorem chainedCall_of_sigaction {ι : Type u} {s : State} {signum : Signum} {act : Sigaction}
    (h : s.chained signum = some (Request.entry signum (.sigaction act)))
    (hact : act.isChained = true) (info : ι) : chainedCall s signum (some info)
      = (Request.sigaction act).calls.map (Invocation.make signum info) := by
  obtain ⟨hinfo, hself⟩ := Bool.and_eq_true_iff.mp hact
  rw [chainedCall, h]
  by_cases hd : act.saHandler = .sigDfl
  · simp [Request.entry, Request.calls, Request.handler, hd]
  · simp [Request.entry, Request.calls, Request.handler, Request.withInfo, Invocation.make, hd,
      hinfo, hself]

/-- **The first delivery calls what was recorded last.** -/
theorem firstDelivery_eq {ι : Type u} {s : State} {signum : Signum} {rs : List Request}
    (h : (s.slot signum).Tracks signum rs) (info : ι) :
    firstDelivery s signum info
      = ((lastRecorded rs).bind Request.calls).map (Invocation.make signum info) := by
  have hchained : s.chained signum = (lastRecorded rs).map (Request.entry signum) := h.chained
  have hdisp := h.disposition
  simp only [State.slot] at hdisp
  have hcall : ∀ passed : Option ι,
      (passed = some info ∨ ∃ handler, lastRecorded rs = some (.signal handler)) →
        chainedCall s signum passed
          = ((lastRecorded rs).bind Request.calls).map (Invocation.make signum info) := by
    intro passed hpassed
    cases hr : lastRecorded rs with
    | none => simp [chainedCall, hchained, hr]
    | some r =>
      rw [hr, Option.map_some] at hchained
      cases r with
      | signal handler => exact chainedCall_of_signal hchained passed info
      | sigaction act =>
        obtain rfl : passed = some info := by
          rcases hpassed with hp | ⟨handler, hh⟩
          · exact hp
          · rw [hr] at hh
            cases hh
        exact chainedCall_of_sigaction hchained (isRecorded_of_lastRecorded hr) info
  rcases hdisp with ⟨herr, hinfo⟩ | ⟨hwrap, hsig⟩
  · simp only [firstDelivery, herr]
    rw [hcall _ (Or.inl (by simp [delivered, hinfo]))]
  · simp only [firstDelivery, hwrap]
    rw [hcall none (Or.inr hsig)]

/-! ## Faithful chaining -/

/-- The application has asked for the same with its last request as with the last one that was
recorded, and that was not to ignore the signal. -/
def RecordedIsLast (rs : List Request) : Prop :=
  (∀ r, lastRecorded rs = some r → r.handler ≠ .sigIgn) ∧
    (lastRecorded rs).bind Request.asks = rs.getLast?.bind Request.asks

instance (rs : List Request) : Decidable (RecordedIsLast rs) := by
  unfold RecordedIsLast
  cases lastRecorded rs <;> infer_instance

theorem invocation_make_injective {ι : Type u} (signum : Signum) (info : ι) :
    Function.Injective (Invocation.make signum info) := by
  rintro ⟨f, a⟩ ⟨g, b⟩ h
  cases a <;> cases b <;> cases h <;> rfl

theorem Request.calls_eq_asks {r : Request} (h : r.handler ≠ .sigIgn) : r.calls = r.asks := by
  simp [calls, asks, h]

theorem Request.asks_ne_sigIgn (r : Request) (b : Bool) : r.asks ≠ some (.sigIgn, b) := by
  rw [asks]
  split
  · simp
  · rename_i hr
    rw [not_or] at hr
    intro heq
    rw [Option.some.injEq, Prod.mk.injEq] at heq
    exact hr.2 heq.1

/-- What is called for the requests is what is due exactly when the record is right. -/
theorem calls_eq_asks_iff (rs : List Request) :
    (lastRecorded rs).bind Request.calls = rs.getLast?.bind Request.asks ↔ RecordedIsLast rs := by
  by_cases h : ∀ r, lastRecorded rs = some r → r.handler ≠ .sigIgn
  · have hsame : (lastRecorded rs).bind Request.calls = (lastRecorded rs).bind Request.asks := by
      cases hr : lastRecorded rs with
      | none => rfl
      | some r => exact Request.calls_eq_asks (h r hr)
    rw [hsame]
    exact ⟨fun heq ↦ ⟨h, heq⟩, fun heq ↦ heq.2⟩
  · refine iff_of_false (fun heq ↦ ?_) fun hrec ↦ h hrec.1
    push Not at h
    obtain ⟨r, hr, hign⟩ := h
    -- the pointer `SIG_IGN` is called, which nobody asks for
    have hcalls : r.calls = some (.sigIgn, r.withInfo) := by simp [Request.calls, hign]
    rw [hr, Option.bind_some, hcalls] at heq
    obtain ⟨last, -, hlast⟩ := Option.bind_eq_some_iff.mp heq.symm
    exact last.asks_ne_sigIgn _ hlast

/-- **Exactly when chaining is faithful.**  The first delivery of a handled signal calls the
function that the application has asked for last, in the form it was asked for, and nothing if
there is none, if and only if the last *recorded* request asks for the same as the last one, and
does not ask to ignore the signal. -/
theorem firstDelivery_faithful_iff {ι : Type u} {cfg : Config}
    (hcfg : cfg.enableSignalHandlers = true) {signum : Signum} (h : signum ∈ handledSignals)
    {ignored : Signum → Bool} {calls : List Call} {s : State}
    (hrun : Runs.run (State.step cfg) (initializeSignalHandler (State.start ignored)) calls
      = some s) (info : ι) :
    firstDelivery s signum info = dueCall signum info (requests signum calls).getLast? ↔
      RecordedIsLast (requests signum calls) := by
  rw [firstDelivery_eq (tracks_of_run hcfg h hrun), dueCall,
    Option.map_inj_right fun _ _ heq ↦ invocation_make_injective signum info heq]
  exact calls_eq_asks_iff _

/-- The last request is one that is recorded. -/
theorem firstDelivery_faithful_iff_recorded :
    ∃ s, Runs.run (State.step { enableSignalHandlers := true })
          (initializeSignalHandler (State.start fun _ ↦ false))
          [.sigaction 2 (some ⟨.app 1, 0⟩), .signal 2 (.app 2)] = some s ∧
      (firstDelivery s 2 () = dueCall 2 ()
          (requests 2 [.sigaction 2 (some ⟨.app 1, 0⟩), .signal 2 (.app 2)]).getLast? ↔
        RecordedIsLast (requests 2 [.sigaction 2 (some ⟨.app 1, 0⟩), .signal 2 (.app 2)])) :=
  ⟨_, rfl, firstDelivery_faithful_iff rfl (show (2 : Signum) ∈ handledSignals by decide) rfl ()⟩

/-- **What is not recorded is not called.**  A handler asked for without `SA_SIGINFO` is never
called, and a signal to be ignored makes the tool call the pointer `SIG_IGN`. -/
theorem unrecorded_handler_not_called :
    (∃ s, Runs.run (State.step { enableSignalHandlers := true })
        (initializeSignalHandler (State.start fun _ ↦ false))
        [.sigaction 2 (some ⟨.app 1, 0⟩)] = some s ∧
      firstDelivery s 2 () = none ∧
      dueCall 2 () (requests 2 [.sigaction 2 (some ⟨.app 1, 0⟩)]).getLast?
        = some (.handler (.app 1) 2)) ∧
    ∃ s, Runs.run (State.step { enableSignalHandlers := true })
        (initializeSignalHandler (State.start fun _ ↦ false)) [.signal 2 .sigIgn] = some s ∧
      firstDelivery s 2 () = some (.handler .sigIgn 2) ∧
      dueCall 2 () (requests 2 [.signal 2 .sigIgn]).getLast? = none :=
  ⟨⟨_, rfl, by decide, by decide⟩, ⟨_, rfl, by decide, by decide⟩⟩

end Signals
end Version3
