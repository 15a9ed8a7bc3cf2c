import RocprofTool.Util.Submit

/-!
# The doorbell of a queue

The packet processor of `submit_fifo` may look at the ring at any time.  The standard does not ask
this of it: once it has found the header of an invalid packet it may sleep until the doorbell is
rung, and then has to go on up to the next such header.  Here it does no more than that, so that a
packet is processed because `Submit` rings the doorbell, after it has stored the header.

* `heard_step`: no ring is lost.  While the packet processor sleeps there is nothing for it to do,
  or a thread is about to ring.
* `submit_completes`: every call returns and every packet is processed.
-/

set_option autoImplicit false

open Runs

namespace HsaRsrcFactory

universe u

variable {τ : Type u}

/-- The packet processor goes to sleep, until the next value is stored in the doorbell. -/
def QueueState.sleep (q : Queue) (s : QueueState τ) : Option (QueueState τ) :=
  if s.doorbell.isSome && s.idle q then some { s with doorbell := none } else none

/-- What can happen next. -/
inductive MachineAction (τ : Type u)
  | queue (action : QueueAction τ)
  | sleep

def MachineAction.isCall : MachineAction τ → Bool
  | .queue action => action.isCall
  | .sleep => false

section Step

variable [DecidableEq τ]

/-- One step: the packet processor does not look at a slot while it sleeps. -/
def machineStep (q : Queue) (s : QueueState τ) : MachineAction τ → Option (QueueState τ)
  | .queue .fetch => if s.doorbell.isSome then queueStep q s .fetch else none
  | .queue action => queueStep q s action
  | .sleep => if s.aborted then none else s.sleep q

/-- What the threads and the packet processor do to the queue. -/
def queueActions (actions : List (MachineAction τ)) : List (QueueAction τ) :=
  actions.filterMap fun
    | .queue action => some action
    | .sleep => none

variable {q : Queue} {s t u : QueueState τ} {actions : List (MachineAction τ)}

theorem of_sleep (h : machineStep q s .sleep = some t) :
    s.doorbell.isSome = true ∧ s.idle q = true ∧ t = { s with doorbell := none } := by
  rw [machineStep, Option.ite_none_left_eq_some, QueueState.sleep, Option.ite_none_right_eq_some,
    Option.some.injEq, Bool.and_eq_true] at h
  exact ⟨h.2.1.1, h.2.1.2, h.2.2.symm⟩

theorem queueStep_of_machineStep {action : QueueAction τ}
    (h : machineStep q s (.queue action) = some t) : queueStep q s action = some t := by
  cases action with
  | fetch =>
    rw [machineStep, Option.ite_none_right_eq_some] at h
    exact h.2
  | _ => exact h

/-! ## What a step does not read -/

/-- The state but for the doorbell. -/
def QueueState.unrung (s : QueueState τ) : QueueState τ := { s with doorbell := none }

omit [DecidableEq τ] in
theorem of_unrung_eq (h : u.unrung = s.unrung) :
    u.calls = s.calls ∧ u.processed = s.processed ∧ u.aborted = s.aborted := by
  unfold QueueState.unrung at h
  rw [QueueState.mk.injEq] at h
  obtain ⟨-, -, -, -, hcalls, -, haborted, -, -, hprocessed⟩ := h
  exact ⟨hcalls, hprocessed, haborted⟩

omit [DecidableEq τ] in
theorem map_unrung_bind {f g : Call → Option (QueueState τ)}
    (h : ∀ call, (f call).map QueueState.unrung = (g call).map QueueState.unrung)
    (call : Option Call) : (call.bind f).map QueueState.unrung = (call.bind g).map .unrung := by
  cases call with
  | none => rfl
  | some call => exact h call

/-- **The queue does not read the doorbell.** -/
theorem map_unrung_queueStep (action : QueueAction τ) :
    (queueStep q s.unrung action).map QueueState.unrung
      = (queueStep q s action).map QueueState.unrung := by
  unfold queueStep
  by_cases haborted : s.aborted = true
  · rw [if_pos haborted, if_pos (show s.unrung.aborted = true from haborted)]
  rw [if_neg haborted, if_neg (show ¬s.unrung.aborted = true from haborted)]
  cases action with
  | submit thread packet sizeBytes =>
    unfold QueueState.submit
    simp only [apply_ite (Option.map QueueState.unrung)]
    rfl
  | addWriteIndex thread =>
    refine map_unrung_bind (fun call ↦ ?_) _
    rw [Call.addWriteIndex, Call.addWriteIndex]
    simp only [apply_ite (Option.map QueueState.unrung)]
    rfl
  | leaveLoop thread =>
    refine map_unrung_bind (fun call ↦ ?_) _
    unfold Call.leaveLoop QueueState.unrung
    split
    · split_ifs <;> rfl
    · rfl
  | memcpy thread word =>
    refine map_unrung_bind (fun call ↦ ?_) _
    unfold Call.memcpy
    split
    · split_ifs <;> rfl
    · rfl
  | storeHeader thread =>
    refine map_unrung_bind (fun call ↦ ?_) _
    unfold Call.storeHeader
    split <;> rfl
  | ringDoorbell thread =>
    refine map_unrung_bind (fun call ↦ ?_) _
    unfold Call.ringDoorbell
    split <;> rfl
  | ret thread =>
    refine map_unrung_bind (fun call ↦ ?_) _
    rw [Call.ret, Call.ret]
    simp only [apply_ite (Option.map QueueState.unrung)]
    rfl
  | fetch =>
    rw [QueueState.fetch, QueueState.fetch]
    simp only [apply_dite (Option.map QueueState.unrung), apply_ite (Option.map QueueState.unrung)]
    rfl
  | retire =>
    rw [QueueState.retire, QueueState.retire]
    simp only [apply_ite (Option.map QueueState.unrung)]
    rfl
  | advance =>
    rw [QueueState.advance, QueueState.advance]
    simp only [apply_ite (Option.map QueueState.unrung)]
    rfl

/-- A run of the machine is one of the queue, but for the doorbell. -/
theorem run_queueActions (h : run (machineStep q) s actions = some t)
    (hsame : u.unrung = s.unrung) :
    ∃ v, run (queueStep q) u (queueActions actions) = some v ∧ v.unrung = t.unrung := by
  induction actions generalizing s u with
  | nil =>
    cases h
    exact ⟨u, rfl, hsame⟩
  | cons action actions ih =>
    obtain ⟨s', hs', hrest⟩ := Option.bind_eq_some_iff.mp h
    cases action with
    | queue action =>
      have hstep : (queueStep q u action).map QueueState.unrung = some s'.unrung := by
        rw [← map_unrung_queueStep, hsame, map_unrung_queueStep, queueStep_of_machineStep hs',
          Option.map_some]
      obtain ⟨u', hu', hsame'⟩ := Option.map_eq_some_iff.mp hstep
      obtain ⟨v, hv, hlast⟩ := ih hrest hsame'
      refine ⟨v, ?_, hlast⟩
      show (queueStep q u action).bind _ = some v
      rw [hu', Option.bind_some]
      exact hv
    | sleep =>
      obtain ⟨-, -, rfl⟩ := of_sleep hs'
      exact ih hrest hsame

/-- **The packet processor sleeps no more than once for a step of the queue.** -/
theorem length_le_of_queueActions (h : run (machineStep q) s actions = some t) :
    actions.length + t.doorbell.isSome.toNat
      ≤ 2 * (queueActions actions).length + s.doorbell.isSome.toNat := by
  induction actions generalizing s with
  | nil =>
    cases h
    exact Nat.le_refl _
  | cons action actions ih =>
    obtain ⟨s', hs', h⟩ := Option.bind_eq_some_iff.mp h
    have hrest := ih h
    cases action with
    | queue action =>
      have hone := s'.doorbell.isSome.toNat_le
      have hlength : (queueActions (.queue action :: actions)).length
          = (queueActions actions).length + 1 := rfl
      rw [hlength, List.length_cons]
      omega
    | sleep =>
      obtain ⟨hawake, -, rfl⟩ := of_sleep hs'
      have hlength : (queueActions (.sleep :: actions)).length = (queueActions actions).length :=
        rfl
      have hasleep : { s with doorbell := none : QueueState τ }.doorbell.isSome.toNat = 0 := rfl
      rw [hasleep] at hrest
      rw [hlength, hawake, List.length_cons, Bool.toNat_true]
      omega

/-! ## No ring is lost -/

/-- A thread is about to ring. -/
def QueueState.RingsNext (s : QueueState τ) (thread : τ) : Prop :=
  ∃ writeIdx, (s.calls thread).bind Call.submission = some ⟨writeIdx, .published⟩

/-- While the packet processor sleeps, there is nothing to do for it or a thread is about to ring.
-/
def Heard (q : Queue) (s : QueueState τ) : Prop :=
  s.doorbell = none → s.idle q = true ∨ ∃ thread, s.RingsNext thread

/-- Another thread takes a step. -/
theorem QueueState.RingsNext.put {ringing thread : τ} (h : s.RingsNext ringing)
    {call : Option Call} (hcalls : u.calls = s.calls) (hown : ¬s.RingsNext thread) :
    (u.put thread call).RingsNext ringing := by
  obtain ⟨writeIdx, hpublished⟩ := h
  have hne : ringing ≠ thread := by
    rintro rfl
    exact hown ⟨writeIdx, hpublished⟩
  refine ⟨writeIdx, ?_⟩
  show (Function.update u.calls thread call ringing).bind _ = _
  rw [Function.update_of_ne hne, hcalls, hpublished]

theorem Heard.put (h : Heard q s) {thread : τ} {call : Option Call} (hcalls : u.calls = s.calls)
    (hdoorbell : u.doorbell = s.doorbell) (hidle : u.idle q = s.idle q)
    (hown : ¬s.RingsNext thread) : Heard q (u.put thread call) := by
  intro hasleep
  rcases h (hdoorbell.symm.trans hasleep) with hi | ⟨ringing, hringing⟩
  · exact .inl (hidle.trans hi)
  · exact .inr ⟨ringing, hringing.put hcalls hown⟩

omit [DecidableEq τ] in
/-- A thread that is elsewhere in `Submit` is not about to ring. -/
theorem not_ringsNext {thread : τ} {call : Call} (hcall : s.calls thread = some call)
    (hsubmission : ∀ writeIdx, call.submission ≠ some ⟨writeIdx, .published⟩) :
    ¬s.RingsNext thread := by
  rintro ⟨writeIdx, hpublished⟩
  rw [hcall, Option.bind_some] at hpublished
  exact hsubmission writeIdx hpublished

omit [DecidableEq τ] in
/-- The packet processor is at a slot. -/
theorem Heard.of_busy (h : Heard q s) (hbusy : ¬s.idle q = true) (hcalls : t.calls = s.calls)
    (hdoorbell : t.doorbell = s.doorbell) : Heard q t := by
  intro hasleep
  obtain ⟨thread, writeIdx, hpublished⟩ :=
    (h (hdoorbell.symm.trans hasleep)).resolve_left hbusy
  exact .inr ⟨thread, writeIdx, by rw [hcalls, hpublished]⟩

omit [DecidableEq τ] in
/-- Where a slot has its body is not where one has its header. -/
theorem queueSlot_succ_ne (size : UInt32) (idx : UInt64) (word : Fin 15) (slot : ℕ) :
    slotAddress slot 0 ≠ queueSlot size idx word.succ := by
  have hword := word.isLt
  rw [queueSlot, slotOffset_toNat, slotAddress, Fin.val_succ, Fin.val_zero]
  omega

theorem heard_memcpy (h : Heard q s) {thread : τ} {word : Fin 15} {call : Call}
    (hcall : s.calls thread = some call) (ht : call.memcpy q s thread word = some t) :
    Heard q t := by
  unfold Call.memcpy at ht
  split at ht
  · rename_i writeIdx left hsubmission
    rw [Option.ite_none_right_eq_some, Option.some.injEq] at ht
    obtain ⟨-, rfl⟩ := ht
    refine h.put rfl rfl ?_ (not_ringsNext hcall fun _ ↦ by rw [hsubmission]; simp)
    rw [QueueState.idle, QueueState.idle]
    dsimp only
    rw [Function.update_of_ne (queueSlot_succ_ne _ _ _ _)]
  · cases ht

/-- The header is stored, and the doorbell is next. -/
theorem ringsNext_storeHeader {thread : τ} {call : Call}
    (ht : call.storeHeader q s thread = some t) : t.RingsNext thread := by
  unfold Call.storeHeader at ht
  split at ht
  · rename_i writeIdx hsubmission
    cases ht
    refine ⟨writeIdx, ?_⟩
    show (Function.update s.calls thread _ thread).bind _ = _
    rw [Function.update_self]
    rfl
  · cases ht

theorem heard_ringDoorbell {thread : τ} {call : Call}
    (ht : call.ringDoorbell s thread = some t) : Heard q t := by
  unfold Call.ringDoorbell at ht
  split at ht
  · cases ht
    exact fun hasleep ↦ (by cases hasleep)
  · cases ht

/-- The steps of a thread, but for those that store something. -/
theorem heard_leaveLoop (h : Heard q s) {thread : τ} {call : Call}
    (hcall : s.calls thread = some call) (ht : call.leaveLoop q s thread = some t) :
    Heard q t := by
  unfold Call.leaveLoop at ht
  split at ht
  · rename_i writeIdx hsubmission
    rw [Option.ite_none_right_eq_some, Option.some.injEq] at ht
    obtain ⟨-, rfl⟩ := ht
    exact h.put rfl rfl rfl (not_ringsNext hcall fun _ ↦ by rw [hsubmission]; simp)
  · cases ht

/-- What the packet processor does when it is awake, or has begun. -/
theorem heard_fetch (ht : machineStep q s (.queue .fetch) = some t) : Heard q t := by
  have hstep := queueStep_of_machineStep ht
  rw [machineStep, Option.ite_none_right_eq_some] at ht
  unfold queueStep at hstep
  rw [Option.ite_none_left_eq_some] at hstep
  have hdoorbell : t.doorbell = s.doorbell := by
    have hfetch := hstep.2
    rw [QueueState.fetch] at hfetch
    split_ifs at hfetch
    cases hfetch
    rfl
  intro hasleep
  rw [← hdoorbell, hasleep] at ht
  cases ht.1

/-- **No ring is lost** by a step. -/
theorem heard_step {action : MachineAction τ} (h : Heard q s)
    (ht : machineStep q s action = some t) : Heard q t := by
  cases action with
  | sleep =>
    obtain ⟨-, hidle, rfl⟩ := of_sleep ht
    exact fun _ ↦ .inl hidle
  | queue action =>
    have hstep := queueStep_of_machineStep ht
    unfold queueStep at hstep
    rw [Option.ite_none_left_eq_some] at hstep
    replace hstep := hstep.2
    cases action with
    | submit thread packet sizeBytes =>
      dsimp only at hstep
      unfold QueueState.submit at hstep
      split_ifs at hstep with hnone hsize
      · cases hstep
        exact h
      · cases hstep
        refine h.put rfl rfl rfl ?_
        rintro ⟨writeIdx, hpublished⟩
        rw [Option.not_isSome_iff_eq_none.mp hnone] at hpublished
        cases hpublished
    | addWriteIndex thread =>
      obtain ⟨call, hcall, hstep⟩ := Option.bind_eq_some_iff.mp hstep
      rw [Call.addWriteIndex, Option.ite_none_right_eq_some, Option.some.injEq,
        Bool.and_eq_true, Option.isNone_iff_eq_none] at hstep
      obtain ⟨⟨hnone, -⟩, rfl⟩ := hstep
      exact h.put rfl rfl rfl (not_ringsNext hcall fun _ ↦ by rw [hnone]; simp)
    | leaveLoop thread =>
      obtain ⟨call, hcall, hstep⟩ := Option.bind_eq_some_iff.mp hstep
      exact heard_leaveLoop h hcall hstep
    | memcpy thread word =>
      obtain ⟨call, hcall, hstep⟩ := Option.bind_eq_some_iff.mp hstep
      exact heard_memcpy h hcall hstep
    | storeHeader thread =>
      obtain ⟨call, -, hstep⟩ := Option.bind_eq_some_iff.mp hstep
      exact fun _ ↦ .inr ⟨thread, ringsNext_storeHeader hstep⟩
    | ringDoorbell thread =>
      obtain ⟨call, -, hstep⟩ := Option.bind_eq_some_iff.mp hstep
      exact heard_ringDoorbell hstep
    | ret thread =>
      obtain ⟨call, hcall, hstep⟩ := Option.bind_eq_some_iff.mp hstep
      rw [Call.ret, Option.ite_none_right_eq_some, Option.some.injEq, Bool.and_eq_true,
        Option.isNone_iff_eq_none] at hstep
      obtain ⟨⟨hnone, -⟩, rfl⟩ := hstep
      exact h.put rfl rfl rfl (not_ringsNext hcall fun _ ↦ by rw [hnone]; simp)
    | fetch => exact heard_fetch ht
    | retire =>
      rw [QueueState.retire, Option.ite_none_right_eq_some, Option.some.injEq] at hstep
      obtain ⟨hgot, rfl⟩ := hstep
      refine h.of_busy (fun hidle ↦ ?_) rfl rfl
      simp only [QueueState.idle, Bool.and_eq_true, List.isEmpty_iff] at hidle
      rw [hidle.1.1] at hgot
      cases hgot
    | advance =>
      rw [QueueState.advance, Option.ite_none_right_eq_some, Option.some.injEq] at hstep
      obtain ⟨hretired, rfl⟩ := hstep
      refine h.of_busy (fun hidle ↦ ?_) rfl rfl
      simp [QueueState.idle, hretired] at hidle

omit [DecidableEq τ] in
theorem heard_start {ring : ℕ → UInt32} (hring : Blank q ring) :
    Heard q (queueStart ring : QueueState τ) := by
  refine fun _ ↦ .inl ?_
  have hblank := hring (0 % q.size.toNat) (Nat.mod_lt _ q.size_pos)
  simpa [QueueState.idle, queueStart] using hblank

omit [DecidableEq τ] in
theorem fetch_of_idle (hidle : s.idle q = true) : s.fetch q = none := by
  simp only [QueueState.idle, Bool.and_eq_true, Bool.not_eq_true'] at hidle
  obtain ⟨⟨hempty, -⟩, hinvalid⟩ := hidle
  rw [QueueState.fetch]
  simp [hempty, hinvalid]

theorem ringDoorbell_of_ringsNext {thread : τ} (h : s.RingsNext thread)
    (hrunning : s.aborted = false) : queueStep q s (.ringDoorbell thread) ≠ none := by
  obtain ⟨writeIdx, hpublished⟩ := h
  obtain ⟨call, hcall, hsubmission⟩ := Option.bind_eq_some_iff.mp hpublished
  unfold queueStep
  rw [hrunning, if_neg Bool.false_ne_true]
  dsimp only
  rw [hcall, Option.bind_some, Call.ringDoorbell, hsubmission]
  exact Option.some_ne_none _

/-- **Where no step is left**, there would be none if the packet processor were awake. -/
theorem stuck_of_machine (h : Heard q s) (hrunning : s.aborted = false)
    (hstuck : ∀ action : MachineAction τ, action.isCall = false → machineStep q s action = none)
    {action : QueueAction τ} (hcall : action.isCall = false) : queueStep q s action = none := by
  have hqueue := hstuck (.queue action) hcall
  cases action with
  | fetch =>
    rcases hdoorbell : s.doorbell with _ | writeIdx
    · rcases h hdoorbell with hidle | ⟨thread, hringing⟩
      · unfold queueStep
        rw [hrunning, if_neg Bool.false_ne_true]
        exact fetch_of_idle hidle
      · exact absurd (hstuck (.queue (.ringDoorbell thread)) rfl)
          (ringDoorbell_of_ringsNext (q := q) hringing hrunning)
    · rw [machineStep, hdoorbell] at hqueue
      exact hqueue
  | _ => exact hqueue

/-! ## Every call returns -/

omit [DecidableEq τ] in
theorem isCall_of_mem_queueActions (hmore : ∀ action ∈ actions, action.isCall = false) :
    ∀ action ∈ queueActions actions, action.isCall = false := by
  intro action hmem
  obtain ⟨step, hstep, hqueue⟩ := List.mem_filterMap.mp hmem
  cases step with
  | queue action' =>
    cases hqueue
    exact hmore _ hstep
  | sleep => cases hqueue

/-- **Every call returns and every packet is processed**, by a packet processor that sleeps until
the doorbell is rung.  When no new calls are made, the threads and the packet processor come to an
end after a bounded number of steps, whatever their order, and there all calls have returned and all
packets are processed. -/
theorem submit_completes {ring : ℕ → UInt32} [Fintype τ] (hcard : Fintype.card τ ≤ 2 ^ 63)
    (hring : Blank q ring)
    (hvalid : ∀ thread, ∀ packet ∈ submitted thread (queueActions actions),
      packetType (packet 0) ≠ hsaPacketTypeInvalid)
    (h : run (machineStep q) (queueStart ring) actions = some s) (hrunning : s.aborted = false) :
    ∃ bound, ∀ more t, (∀ action ∈ more, action.isCall = false) →
      run (machineStep q) s more = some t →
      more.length ≤ bound ∧
        ((∀ action, action.isCall = false → machineStep q t action = none) →
          (∀ thread, t.calls thread = none) ∧ ∃ log : List (τ × Words),
            t.processed = log.map (fun entry ↦ List.ofFn entry.2) ∧
              ∀ thread, TicketRing.own thread log = submitted thread (queueActions actions)) := by
  obtain ⟨u, hu, hsame⟩ := run_queueActions h rfl
  have hrunning' : u.aborted = false := (of_unrung_eq hsame).2.2.trans hrunning
  obtain ⟨bound, hbound⟩ := polling_completes hcard hring hvalid hu hrunning'
  refine ⟨2 * bound + 1, fun more t hmore ht ↦ ?_⟩
  obtain ⟨v, hv, hsame'⟩ := run_queueActions ht hsame
  have hcalls := isCall_of_mem_queueActions hmore
  obtain ⟨hlength, hdone⟩ := hbound (queueActions more) v hcalls hv
  have hsleeps := length_le_of_queueActions ht
  have hone := s.doorbell.isSome.toNat_le
  refine ⟨by omega, fun hstuck ↦ ?_⟩
  have hheard : Heard q t := by
    have hrun : run (machineStep q) (queueStart ring) (actions ++ more) = some t := by
      rw [run_append, h, Option.bind_some, ht]
    exact run_invariant (heard_start hring) (fun _ _ _ ↦ heard_step) hrun
  obtain ⟨hcallsEq, hprocessedEq, haborted⟩ := of_unrung_eq hsame'
  have hrunning'' : t.aborted = false :=
    haborted.symm.trans (aborted_of_run hcard hring hu hrunning' hcalls hv)
  obtain ⟨hidle, log, hprocessed, howns⟩ := hdone fun action hcall ↦ by
    have hnone := map_unrung_queueStep (q := q) (s := v) action
    rw [hsame', map_unrung_queueStep, stuck_of_machine hheard hrunning'' hstuck hcall] at hnone
    exact Option.map_eq_none_iff.mp hnone.symm
  refine ⟨fun thread ↦ ?_, log, ?_, howns⟩
  · rw [← hcallsEq, hidle]
  · rw [← hprocessedEq, hprocessed]

end Step

/-! ## Two threads -/

/-- The steps of `twoThreads`.  The packet processor wakes when the second packet is there, finds
that the first one is not, and sleeps until the doorbell is rung for this one. -/
def twoThreadsAsleep : List (MachineAction (Fin 2)) :=
  (twoThreads.take 24).map .queue ++ [.sleep] ++ (twoThreads.drop 24).map .queue

theorem queueActions_twoThreadsAsleep : queueActions twoThreadsAsleep = twoThreads := by
  rfl

theorem run_twoThreadsAsleep :
    (run (machineStep twoSlots) (queueStart fun _ ↦ hsaPacketTypeInvalid) twoThreadsAsleep).map
      (fun s ↦ (s.writeIndex, s.readIndex, s.processed.length, s.aborted))
      = some (3, 1, 1, false) := by
  decide +kernel

theorem twoThreads_valid (thread : Fin 2) : ∀ packet ∈ submitted thread twoThreads,
    packetType (packet 0) ≠ hsaPacketTypeInvalid := by
  have hall : ∀ thread : Fin 2, (submitted thread twoThreads).all
      (fun packet ↦ packetType (packet 0) != hsaPacketTypeInvalid) = true := by decide +kernel
  exact fun packet hmem ↦ bne_iff_ne.mp (List.all_eq_true.mp (hall thread) packet hmem)

theorem submit_completes_twoThreads : ∃ s bound,
    run (machineStep twoSlots) (queueStart fun _ ↦ hsaPacketTypeInvalid) twoThreadsAsleep = some s ∧
      ∀ more t, (∀ action ∈ more, action.isCall = false) →
        run (machineStep twoSlots) s more = some t →
        more.length ≤ bound ∧
          ((∀ action, action.isCall = false → machineStep twoSlots t action = none) →
            ∀ thread, t.calls thread = none) := by
  obtain ⟨s, hs, hvalues⟩ := Option.map_eq_some_iff.mp run_twoThreadsAsleep
  have hvalid := twoThreads_valid
  rw [← queueActions_twoThreadsAsleep] at hvalid
  obtain ⟨bound, hbound⟩ := submit_completes (by simp) blank_twoSlots hvalid hs
    (congrArg (fun v ↦ v.2.2.2) hvalues)
  refine ⟨s, bound, hs, fun more t hmore ht ↦ ?_⟩
  obtain ⟨hlength, hdone⟩ := hbound more t hmore ht
  exact ⟨hlength, fun hstuck ↦ (hdone hstuck).1⟩

end HsaRsrcFactory
