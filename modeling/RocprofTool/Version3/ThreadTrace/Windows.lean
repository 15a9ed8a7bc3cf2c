import Mathlib.Data.Finset.SDiff
import RocprofTool.Version3.ThreadTrace.Bookkeeping

/-!
# The windows of the thread trace

The *window* of a targeted dispatch is that dispatch and the ones entered after it, up to the next
target.  A session is meant to capture the first `att_consecutive_kernels` dispatches of the last
window and to be closed when these have completed.

Here the callback is called for one event after the other, so what goes wrong below does so without
any race.  Two things do:

* `stop_profiling` survives the target that opens a new window, and the next completions then act
  on a request that was made for the old one.  `not_cut_of_notReopened` shows that this is the only
  way for a window to be cut short.
* `stop_profiling` is raised by the first dispatch *after* the window.  When all of the window has
  completed before that dispatch comes, or when it never comes, nothing closes the session.
  `everywhere_closed_iff` gives the step that leaves it open.

Both use `Serial.Inv`, which relates the state of the callback to the history of its calls.
-/

set_option autoImplicit false

open Tool

namespace Version3
namespace ThreadTrace

/-! ## The callback and the history of its calls -/

/-- What the callback is called for, the calls that it ignores left out. -/
inductive Event
  /-- Phase `ENTER`. -/
  | enter (info : DispatchInfo)
  /-- Phase `NONE`. -/
  | complete (info : DispatchInfo)
  deriving DecidableEq, Repr

/-- The static variables of the callback, and what it has been called for. -/
structure Serial where
  statics : Statics := {}
  /-- The dispatches that were entered, the latest first, and whether they were targets. -/
  entered : List (DispatchId × Bool) := []
  completed : Finset DispatchId := ∅

/-- The dispatches that were entered and have not completed. -/
def Serial.inFlight (c : Serial) : Finset DispatchId :=
  (c.entered.map Prod.fst).toFinset \ c.completed

/-- The most recent target and the dispatches entered after it, in order. -/
def window : List (DispatchId × Bool) → List DispatchId
  | [] => []
  | (id, true) :: _ => [id]
  | (id, false) :: earlier => if window earlier = [] then [] else window earlier ++ [id]

/-- One event, `n` being `att_consecutive_kernels`.  A dispatch id is entered once, is below
`UINT64_MAX`, and completes once, after it was entered. -/
def Serial.step (cfg : Config) (targetKernels : TargetedKernelsMap) (n : ℕ) (c : Serial) :
    Event → Option Serial
  | .enter info =>
    if info.dispatchId ∉ c.entered.map Prod.fst ∧ info.dispatchId < uint64Max then do
      let record : CallbackRecord := ⟨.kernelDispatch, .enter, some info⟩
      let v ← attDispatchConsecutiveKernelCallback cfg targetKernels record (some n) c.statics
      let (isTarget, _) ←
        isTargetedKernel cfg targetKernels info.kernelId c.statics.kernelIteration
      return { c with statics := v, entered := (info.dispatchId, isTarget) :: c.entered }
    else none
  | .complete info =>
    if info.dispatchId ∈ c.inFlight then do
      let record : CallbackRecord := ⟨.kernelDispatch, .none, some info⟩
      let v ← attDispatchConsecutiveKernelCallback cfg targetKernels record (some n) c.statics
      return { c with statics := v, completed := insert info.dispatchId c.completed }
    else none

variable {cfg : Config} {targetKernels : TargetedKernelsMap} {n : ℕ} {c d : Serial}

/-! ## What a step does -/

/-- Does `is_targeted_kernel` find that this dispatch is a target? -/
def Serial.isTarget (cfg : Config) (targetKernels : TargetedKernelsMap) (c : Serial)
    (kernelId : KernelId) : Bool :=
  (isTargetedKernel cfg targetKernels kernelId c.statics.kernelIteration).elim false Prod.fst

/-- **A dispatch is entered**: outside of a session and if it is no target nothing happens, else
the section of phase `ENTER` is run. -/
theorem step_enter {info : DispatchInfo}
    (h : c.step cfg targetKernels n (.enter info) = some d) :
    info.dispatchId ∉ c.entered.map Prod.fst ∧ info.dispatchId < uint64Max ∧
      d.entered = (info.dispatchId, c.isTarget cfg targetKernels info.kernelId) :: c.entered ∧
      d.completed = c.completed ∧
      d.statics.state =
        if c.statics.state.isprofiling || c.isTarget cfg targetKernels info.kernelId then
          enterSection n c.statics.state info.dispatchId
            (c.isTarget cfg targetKernels info.kernelId)
        else c.statics.state := by
  obtain ⟨⟨isTarget, iters⟩, ht⟩ := Option.isSome_iff_exists.mp
    (isTargetedKernel_isSome cfg targetKernels info.kernelId c.statics.kernelIteration)
  have htarget : c.isTarget cfg targetKernels info.kernelId = isTarget := by
    rw [Serial.isTarget, ht]; rfl
  rw [htarget]
  simp only [Serial.step, attDispatchConsecutiveKernelCallback_enter n ht, ht] at h
  split at h
  · rename_i hg
    cases h
    exact ⟨hg.1, hg.2, rfl, rfl, rfl⟩
  · cases h

/-- **A dispatch completes**: outside of a session nothing happens, else the section of phase
`NONE` is run. -/
theorem step_complete {info : DispatchInfo}
    (h : c.step cfg targetKernels n (.complete info) = some d) :
    info.dispatchId ∈ c.inFlight ∧ d.entered = c.entered ∧
      d.completed = insert info.dispatchId c.completed ∧
      d.statics.state =
        if c.statics.state.isprofiling then completionSection c.statics.state info.dispatchId
        else c.statics.state := by
  simp only [Serial.step, attDispatchConsecutiveKernelCallback_none] at h
  split at h
  · rename_i hg
    cases h
    exact ⟨hg, rfl, rfl, rfl⟩
  · cases h

/-! ## The window -/

/-- What the window of a dispatch that has just been entered begins with. -/
def windowBefore (entered : List (DispatchId × Bool)) (isTarget : Bool) : List DispatchId :=
  if isTarget then [] else window entered

theorem window_cons {entered : List (DispatchId × Bool)} {isTarget : Bool}
    (h : isTarget = true ∨ window entered ≠ []) (id : DispatchId) :
    window ((id, isTarget) :: entered) = windowBefore entered isTarget ++ [id] := by
  cases isTarget with
  | true => rfl
  | false =>
    have hw : window entered ≠ [] := h.resolve_left (by simp)
    simp [window, windowBefore, hw]

/-- One of the first `n` dispatches of the window is one of the older ones, or the new one. -/
theorem mem_take_concat {l : List DispatchId} {n : ℕ} {x id : DispatchId}
    (h : x ∈ (l ++ [id]).take n) : x ∈ l.take n ∨ (x = id ∧ l.length < n) := by
  rw [List.take_append, List.mem_append] at h
  refine h.imp_right fun hx ↦ ?_
  refine ⟨by simpa using List.mem_of_mem_take hx, ?_⟩
  by_contra hle
  rw [Nat.sub_eq_zero_of_le (Nat.le_of_not_lt hle)] at hx
  simp at hx

theorem mem_inFlight_enter {id : DispatchId} {isTarget : Bool}
    (he : d.entered = (id, isTarget) :: c.entered) (hd : d.completed = c.completed)
    (hid : id ∉ c.completed) : d.inFlight = insert id c.inFlight := by
  ext x
  simp only [Serial.inFlight, he, hd, List.map_cons, List.toFinset_cons, Finset.mem_sdiff,
    Finset.mem_insert]
  constructor
  · rintro ⟨rfl | hx, hc⟩
    · exact Or.inl rfl
    · exact Or.inr ⟨hx, hc⟩
  · rintro (rfl | ⟨hx, hc⟩)
    · exact ⟨Or.inl rfl, hid⟩
    · exact ⟨Or.inr hx, hc⟩

theorem inFlight_complete {id : DispatchId} (he : d.entered = c.entered)
    (hd : d.completed = insert id c.completed) : d.inFlight = c.inFlight.erase id := by
  ext x
  simp only [Serial.inFlight, he, hd, Finset.mem_sdiff, Finset.mem_insert, Finset.mem_erase]
  tauto

/-! ## The invariant -/

/-- The state of the callback and the history of its calls agree. -/
structure Serial.Inv (n : ℕ) (c : Serial) : Prop where
  bookkeeping : ThreadTrace.Inv c.statics.state
  /-- What has completed was entered. -/
  completed : ∀ id ∈ c.completed, id ∈ c.entered.map Prod.fst
  /-- What is captured is in flight. -/
  waiting : c.statics.state.capturedIds ⊆ c.inFlight
  /-- In a session there is a window, and its dispatches are counted. -/
  counted : c.statics.state.isprofiling = true → window c.entered ≠ [] ∧
    c.statics.state.numConsecutiveKernels = (window c.entered).length
  /-- In a session, the first `n` of the window are captured until they have completed. -/
  captured : c.statics.state.isprofiling = true → ∀ id ∈ (window c.entered).take n,
    .emplace id ∈ c.statics.state.log ∧ (id ∈ c.statics.state.capturedIds ∨ id ∈ c.completed)
  /-- Outside of a session no stop is requested. -/
  idle : c.statics.state.isprofiling = false → c.statics.state.stopProfiling = false
  /-- While no stop is requested, no more than `n` dispatches are counted. -/
  below : c.statics.state.isprofiling = true → c.statics.state.stopProfiling = false →
    c.statics.state.numConsecutiveKernels ≤ n
  /-- While a stop is requested, there is a completion to come that can act on it. -/
  pending : c.statics.state.isprofiling = true → c.statics.state.stopProfiling = true →
    c.inFlight ≠ ∅

theorem Serial.inv_init : Serial.Inv n {} where
  bookkeeping := ThreadTrace.inv_init
  completed id h := absurd h (Finset.notMem_empty id)
  waiting := Finset.empty_subset _
  counted h := by cases h
  captured h := by cases h
  idle _ := rfl
  below h := by cases h
  pending h := by cases h

/-- What is captured was entered, and what was not entered has not completed. -/
theorem Serial.Inv.notMem_completed {id : DispatchId} (h : c.Inv n)
    (hid : id ∉ c.entered.map Prod.fst) : id ∉ c.completed :=
  fun hc ↦ hid (h.completed id hc)

/-- When the section of phase `ENTER` is run, the dispatch is the next of its window, and the
count tells how many were before it. -/
theorem Serial.Inv.window_enter {isTarget : Bool} (h : c.Inv n)
    (hp : (c.statics.state.isprofiling || isTarget) = true) (id : DispatchId) :
    window ((id, isTarget) :: c.entered) = windowBefore c.entered isTarget ++ [id] ∧
      localCount c.statics.state isTarget = (windowBefore c.entered isTarget).length := by
  cases isTarget with
  | true => exact ⟨rfl, rfl⟩
  | false =>
    obtain ⟨hw, hnum⟩ := h.counted (by simpa using hp)
    exact ⟨window_cons (Or.inr hw) id, hnum⟩

/-- The first `n` of the window, after the section of phase `ENTER`: one that was entered before, in
a session that was on already, is still captured or done, and the new one is captured. -/
theorem Serial.Inv.captured_enter {isTarget : Bool} {id x : DispatchId} (h : c.Inv n)
    (hp : (c.statics.state.isprofiling || isTarget) = true)
    (hx : x ∈ (windowBefore c.entered isTarget ++ [id]).take n) :
    .emplace x ∈ (enterSection n c.statics.state id isTarget).log ∧
      (x ∈ (enterSection n c.statics.state id isTarget).capturedIds ∨ x ∈ c.completed) := by
  rw [enterSection_eq]
  dsimp only
  rcases mem_take_concat hx with hold | ⟨rfl, hlen⟩
  · have hnt : isTarget = false := by
      cases isTarget with
      | true => simp [windowBefore] at hold
      | false => rfl
    subst hnt
    obtain ⟨hlog, hmem⟩ := h.captured (by simpa using hp) x hold
    refine ⟨by split <;> simp [startedLog, hlog], hmem.imp_left fun hm ↦ ?_⟩
    split
    · exact Finset.mem_insert_of_mem hm
    · exact hm
  · rw [← (h.window_enter hp x).2] at hlen
    have hcap : captures n c.statics.state isTarget = true := by simp [captures, hp, hlen]
    simp [hcap]

theorem Serial.inv_enter (hn : 1 ≤ n) {info : DispatchInfo} (h : c.Inv n)
    (hd : c.step cfg targetKernels n (.enter info) = some d) : d.Inv n := by
  obtain ⟨hnew, hlt, he, hcomp, hs⟩ := step_enter hd
  generalize c.isTarget cfg targetKernels info.kernelId = isTarget at he hs
  have hfly := mem_inFlight_enter he hcomp (h.notMem_completed hnew)
  have hdone : ∀ id ∈ d.completed, id ∈ d.entered.map Prod.fst := fun id hid ↦ by
    rw [hcomp] at hid
    rw [he]
    exact List.mem_cons_of_mem _ (h.completed id hid)
  have hsub : c.inFlight ⊆ d.inFlight := hfly ▸ Finset.subset_insert _ _
  cases hp : c.statics.state.isprofiling || isTarget with
  | false =>
    rw [hp, if_neg (by simp)] at hs
    obtain ⟨hpc, -⟩ : c.statics.state.isprofiling = false ∧ isTarget = false := by simpa using hp
    refine ⟨hs ▸ h.bookkeeping, hdone, hs ▸ h.waiting.trans hsub, ?_, ?_, hs ▸ h.idle, ?_, ?_⟩
    all_goals
      intro hpd
      rw [hs, hpc] at hpd
      cases hpd
  | true =>
    rw [hp, if_pos rfl] at hs
    obtain ⟨hwin, hlocal⟩ := h.window_enter hp info.dispatchId
    rw [← he] at hwin
    have hbook : ThreadTrace.Inv d.statics.state :=
      hs ▸ inv_enterSection hn hlt isTarget h.bookkeeping
    have hcaptured : ∀ id ∈ (window d.entered).take n, .emplace id ∈ d.statics.state.log ∧
        (id ∈ d.statics.state.capturedIds ∨ id ∈ d.completed) := fun id hid ↦ by
      rw [hs, hcomp]
      exact h.captured_enter hp (hwin ▸ hid)
    rw [enterSection_eq, hp] at hs
    refine ⟨hbook, hdone, ?_, fun _ ↦ ⟨by simp [hwin], by simp [hs, hwin, hlocal]⟩,
      fun _ ↦ hcaptured, ?_, ?_, ?_⟩
    · rw [hs, hfly]
      dsimp only
      split
      · exact Finset.insert_subset_insert _ h.waiting
      · exact h.waiting.trans (Finset.subset_insert _ _)
    · intro hf
      rw [hs] at hf
      cases hf
    · intro _ hst
      rw [hs] at hst ⊢
      simp only [Bool.or_eq_false_iff, decide_eq_false_iff_not] at hst
      dsimp only
      omega
    · intro _ _
      rw [hfly]
      exact Finset.insert_ne_empty _ _

/-- What completes is erased from what is captured, and everything else is still in flight. -/
theorem Serial.Inv.erase_subset {id : DispatchId} (h : c.Inv n) (he : d.entered = c.entered)
    (hcomp : d.completed = insert id c.completed) :
    c.statics.state.capturedIds.erase id ⊆ d.inFlight := by
  rw [inFlight_complete he hcomp]
  exact Finset.erase_subset_erase _ h.waiting

/-- A dispatch of the window, after one more completion. -/
theorem Serial.Inv.captured_complete {id x : DispatchId} (h : c.Inv n)
    (hp : c.statics.state.isprofiling = true) (hx : x ∈ (window c.entered).take n) :
    .emplace x ∈ c.statics.state.log ∧
      (x ∈ c.statics.state.capturedIds.erase id ∨ x ∈ insert id c.completed) := by
  obtain ⟨hlog, hmem⟩ := h.captured hp x hx
  refine ⟨hlog, ?_⟩
  by_cases hxid : x = id
  · exact Or.inr (hxid ▸ Finset.mem_insert_self _ _)
  · exact hmem.imp (fun hm ↦ Finset.mem_erase.mpr ⟨hxid, hm⟩) Finset.mem_insert_of_mem

theorem Serial.inv_complete {info : DispatchInfo} (h : c.Inv n)
    (hd : c.step cfg targetKernels n (.complete info) = some d) : d.Inv n := by
  obtain ⟨hin, he, hcomp, hs⟩ := step_complete hd
  have hdone : ∀ id ∈ d.completed, id ∈ d.entered.map Prod.fst := by
    intro id hid
    rw [he]
    rcases Finset.mem_insert.mp (hcomp ▸ hid) with rfl | hid
    · exact List.mem_toFinset.mp (Finset.mem_sdiff.mp hin).1
    · exact h.completed id hid
  cases hp : c.statics.state.isprofiling with
  | false =>
    rw [hp, if_neg (by simp)] at hs
    have hempty : d.statics.state.capturedIds ⊆ d.inFlight := by
      rw [hs, (h.bookkeeping.idle hp).1]
      exact Finset.empty_subset _
    refine ⟨hs ▸ h.bookkeeping, hdone, hempty, ?_, ?_, hs ▸ h.idle, ?_, ?_⟩
    all_goals
      intro hpd
      rw [hs, hp] at hpd
      cases hpd
  | true =>
    rw [hp, if_pos rfl] at hs
    have hbook : ThreadTrace.Inv d.statics.state :=
      hs ▸ inv_completionSection info.dispatchId h.bookkeeping
    have hsub := h.erase_subset he hcomp
    rcases completionSection_cases c.statics.state info.dispatchId with
      ⟨hgo, heq⟩ | ⟨-, -, -, heq⟩
    · rw [heq] at hs
      refine ⟨hbook, hdone, by rw [hs]; exact hsub, ?_, ?_, ?_, ?_, ?_⟩
      · rw [hs, he]; exact h.counted
      · intro _ x hx
        rw [hs, hcomp]
        obtain ⟨hlog, hmem⟩ := h.captured_complete hp (he ▸ hx)
        exact ⟨List.mem_cons_of_mem _ hlog, hmem⟩
      · rw [hs]; exact h.idle
      · rw [hs]; exact h.below
      · intro _ hst
        rw [hs] at hst
        have hne : c.statics.state.capturedIds.erase info.dispatchId ≠ ∅ :=
          hgo.resolve_right (by simp [show c.statics.state.stopProfiling = true from hst, hp])
        obtain ⟨x, hx⟩ := Finset.nonempty_iff_ne_empty.mpr hne
        exact Finset.ne_empty_of_mem (hsub hx)
    · rw [heq] at hs
      refine ⟨hbook, hdone, by rw [hs]; exact Finset.empty_subset _, ?_, ?_, fun _ ↦ by rw [hs],
        ?_, ?_⟩
      all_goals
        intro hpd
        rw [hs] at hpd
        cases hpd

theorem Serial.inv_step (hn : 1 ≤ n) (c : Serial) (e : Event) (d : Serial) (h : c.Inv n)
    (hd : c.step cfg targetKernels n e = some d) : d.Inv n := by
  cases e with
  | enter info => exact inv_enter hn h hd
  | complete info => exact inv_complete h hd

/-! ## No window is cut short -/

/-- The event makes the callback stop the context. -/
def Stops (c d : Serial) : Prop :=
  contextCalls d.statics.state.log = contextCalls c.statics.state.log ++ [.stop]

/-- At least `n` dispatches of the window were entered, and the first `n` were captured and have
completed. -/
def WindowDone (n : ℕ) (c : Serial) : Prop :=
  n ≤ (window c.entered).length ∧
    ∀ id ∈ (window c.entered).take n, .emplace id ∈ c.statics.state.log ∧ id ∈ c.completed

/-- If the event stops the context, the window is done. -/
def NotCut (cfg : Config) (targetKernels : TargetedKernelsMap) (n : ℕ) (c : Serial)
    (e : Event) : Prop :=
  ∀ d, c.step cfg targetKernels n e = some d → Stops c d → WindowDone n d

/-- The event is not the entry of a target while a stop is requested, unless the windows are of
one dispatch. -/
def NotReopened (cfg : Config) (targetKernels : TargetedKernelsMap) (n : ℕ) (c : Serial) :
    Event → Prop
  | .enter info => 2 ≤ n → c.isTarget cfg targetKernels info.kernelId = true →
      c.statics.state.stopProfiling = false
  | .complete _ => True

/-- A requested stop is meant for the current window. -/
def StopIsOwn (n : ℕ) (c : Serial) : Prop :=
  c.statics.state.isprofiling = true → c.statics.state.stopProfiling = true →
    n ≤ (window c.entered).length

theorem not_stops_of_eq (h : d.statics.state = c.statics.state) : ¬Stops c d := by
  rw [Stops, h]
  simp

theorem not_stops_enter {info : DispatchInfo}
    (hd : c.step cfg targetKernels n (.enter info) = some d) : ¬Stops c d := by
  obtain ⟨-, -, -, -, hs⟩ := step_enter hd
  split at hs
  · rw [Stops, hs, enterSection_eq]
    dsimp only
    rw [apply_ite contextCalls, contextCalls_emplace, ite_self, startedLog]
    split <;> simp
  · exact not_stops_of_eq hs

/-- **When a completion stops the context**, a stop was requested and nothing is captured any
more. -/
theorem stops_complete {info : DispatchInfo}
    (hd : c.step cfg targetKernels n (.complete info) = some d) (hstop : Stops c d) :
    c.statics.state.isprofiling = true ∧ c.statics.state.stopProfiling = true ∧
      c.statics.state.capturedIds.erase info.dispatchId = ∅ := by
  obtain ⟨-, -, -, hs⟩ := step_complete hd
  split at hs
  · rcases completionSection_cases c.statics.state info.dispatchId with
      ⟨-, heq⟩ | ⟨hempty, hst, hp, -⟩
    · rw [Stops, hs, heq, contextCalls_erase] at hstop
      simp at hstop
    · exact ⟨hp, hst, hempty⟩
  · exact absurd hstop (not_stops_of_eq hs)

/-- **When the session goes on after a completion**, the request and the count are as before. -/
theorem step_complete_profiling {info : DispatchInfo}
    (hd : c.step cfg targetKernels n (.complete info) = some d)
    (hp : d.statics.state.isprofiling = true) :
    c.statics.state.isprofiling = true ∧
      d.statics.state.stopProfiling = c.statics.state.stopProfiling ∧
      d.statics.state.numConsecutiveKernels = c.statics.state.numConsecutiveKernels := by
  obtain ⟨-, -, -, hs⟩ := step_complete hd
  split at hs
  · rename_i hpc
    rcases completionSection_cases c.statics.state info.dispatchId with ⟨-, heq⟩ | ⟨-, -, -, heq⟩
    · rw [hs, heq]
      exact ⟨hpc, rfl, rfl⟩
    · rw [hs, heq] at hp
      cases hp
  · rw [hs] at hp ⊢
    exact ⟨hp, rfl, rfl⟩

/-- **When a completion ends the session**, a stop was requested. -/
theorem stopProfiling_of_closing {info : DispatchInfo}
    (hd : c.step cfg targetKernels n (.complete info) = some d)
    (hpc : c.statics.state.isprofiling = true) (hp : d.statics.state.isprofiling = false) :
    c.statics.state.stopProfiling = true := by
  obtain ⟨-, -, -, hs⟩ := step_complete hd
  rw [if_pos hpc] at hs
  rcases completionSection_cases c.statics.state info.dispatchId with ⟨-, heq⟩ | ⟨-, hst, -, -⟩
  · rw [hs, heq] at hp
    rw [hpc] at hp
    cases hp
  · exact hst

theorem stopIsOwn_step (e : Event) (h : c.Inv n) (hown : StopIsOwn n c)
    (hok : NotReopened cfg targetKernels n c e) (hd : c.step cfg targetKernels n e = some d) :
    StopIsOwn n d := by
  intro hp hst
  cases e with
  | enter info =>
    obtain ⟨-, -, he, -, hs⟩ := step_enter hd
    cases hpt : c.statics.state.isprofiling || c.isTarget cfg targetKernels info.kernelId with
    | false =>
      rw [hpt, if_neg (by simp)] at hs
      rw [hs] at hp
      simp [hp] at hpt
    | true =>
      obtain ⟨hwin, hlocal⟩ := h.window_enter hpt info.dispatchId
      rw [hpt, if_pos rfl, enterSection_eq] at hs
      rw [he, hwin, List.length_append, List.length_singleton]
      have hst' : c.statics.state.stopProfiling = true ∨
          n ≤ (windowBefore c.entered (c.isTarget cfg targetKernels info.kernelId)).length := by
        simpa [hs, hlocal] using hst
      rcases hst' with hst' | hle
      · -- the request is older than this dispatch
        cases ht : c.isTarget cfg targetKernels info.kernelId with
        | true =>
          have hone : ¬2 ≤ n := fun h2 ↦ by simp [hok h2 ht] at hst'
          omega
        | false =>
          have := hown (by simpa [ht] using hpt) hst'
          simp only [windowBefore, Bool.false_eq_true, if_false]
          omega
      · omega
  | complete info =>
    obtain ⟨hpc, hstop, -⟩ := step_complete_profiling hd hp
    rw [(step_complete hd).2.1]
    exact hown hpc (hstop ▸ hst)

theorem notCut_of_stopIsOwn (e : Event) (h : c.Inv n) (hown : StopIsOwn n c) :
    NotCut cfg targetKernels n c e := by
  intro d hd hstop
  cases e with
  | enter info => exact absurd hstop (not_stops_enter hd)
  | complete info =>
    obtain ⟨hp, hst, hempty⟩ := stops_complete hd hstop
    obtain ⟨-, he, hcomp, hs⟩ := step_complete hd
    refine ⟨he ▸ hown hp hst, fun id hid ↦ ?_⟩
    rw [he] at hid
    obtain ⟨hlog, hmem⟩ := h.captured_complete hp hid
    rw [hempty] at hmem
    have hd' : d.Inv n := Serial.inv_complete h hd
    have hlog' : .emplace id ∈ d.statics.state.log := by
      rw [hs, if_pos hp]
      rcases completionSection_cases c.statics.state info.dispatchId with
        ⟨-, heq⟩ | ⟨-, -, -, heq⟩ <;> rw [heq] <;> simp [hlog]
    exact ⟨hlog', hcomp ▸ hmem.resolve_left (Finset.notMem_empty id)⟩

/-- **No window is cut short in a run in which no target is entered while a stop is requested.**
The handler only stops the context when the first `n` dispatches of the current window have been
captured and have completed. -/
theorem not_cut_of_notReopened (hn : 1 ≤ n) {events : List Event}
    (h : Runs.Along (Serial.step cfg targetKernels n) {} (NotReopened cfg targetKernels n) events) :
    Runs.Along (Serial.step cfg targetKernels n) {} (NotCut cfg targetKernels n) events := by
  have hinv : Runs.Everywhere (Serial.step cfg targetKernels n) {}
      (fun c ↦ c.Inv n ∧ StopIsOwn n c) events := by
    refine Runs.along_invariant ⟨Serial.inv_init, fun hp ↦ by cases hp⟩ ?_ h
    intro c e d ⟨hc, hown⟩ hok hd
    exact ⟨Serial.inv_step hn c e d hc hd, stopIsOwn_step e hc hown hok hd⟩
  intro xs e c hpre hc
  obtain ⟨hI, hown⟩ := hinv xs c ((List.prefix_append xs [e]).trans hpre) hc
  exact notCut_of_stopIsOwn e hI hown

/-- The second target is entered while the window of the first is still open, and its dispatches
complete in the other order; the last completion stops the context. -/
theorem not_cut_of_notReopened_early :
    Runs.Along (Serial.step {} (UMap.empty.assign 7 {1, 2}) 2) {}
        (NotCut {} (UMap.empty.assign 7 {1, 2}) 2)
        [.enter ⟨1, 7⟩, .enter ⟨2, 7⟩, .enter ⟨3, 8⟩, .enter ⟨4, 8⟩, .complete ⟨1, 7⟩,
          .complete ⟨3, 8⟩, .complete ⟨2, 7⟩] ∧
      ∃ c d, Runs.run (Serial.step {} (UMap.empty.assign 7 {1, 2}) 2) {}
          [.enter ⟨1, 7⟩, .enter ⟨2, 7⟩, .enter ⟨3, 8⟩, .enter ⟨4, 8⟩, .complete ⟨1, 7⟩,
            .complete ⟨3, 8⟩] = some c ∧
        c.step {} (UMap.empty.assign 7 {1, 2}) 2 (.complete ⟨2, 7⟩) = some d ∧
        Stops c d ∧ (window d.entered).take 2 = [2, 3] ∧ WindowDone 2 d := by
  refine ⟨not_cut_of_notReopened (by decide) ?_, _, _, rfl, rfl, rfl, rfl, ?_⟩
  · refine .cons (fun _ _ ↦ rfl) rfl (.cons (fun _ _ ↦ rfl) rfl (.cons (fun _ _ ↦ rfl) rfl ?_))
    refine .cons (fun _ h ↦ absurd h (by decide)) rfl (.cons trivial rfl (.cons trivial rfl ?_))
    exact Runs.along_singleton trivial
  · exact ⟨by decide, by decide⟩

/-- **A window is cut short when a target is entered while a stop is requested**: with windows of
two dispatches, the session is closed with dispatch `4` as the only one of its window. -/
theorem reopened_window_is_cut :
    ¬Runs.Along (Serial.step {} (UMap.empty.assign 7 {1, 2}) 2) {}
      (NotCut {} (UMap.empty.assign 7 {1, 2}) 2)
      [.enter ⟨1, 7⟩, .enter ⟨2, 8⟩, .enter ⟨3, 8⟩, .complete ⟨1, 7⟩, .enter ⟨4, 7⟩,
        .complete ⟨2, 8⟩, .complete ⟨4, 7⟩] := by
  intro h
  have hcut := h [.enter ⟨1, 7⟩, .enter ⟨2, 8⟩, .enter ⟨3, 8⟩, .complete ⟨1, 7⟩, .enter ⟨4, 7⟩,
    .complete ⟨2, 8⟩] (.complete ⟨4, 7⟩) _ (List.prefix_refl _) rfl _ rfl rfl
  exact absurd hcut.1 (by decide)

/-! ## A finished session is closed -/

/-- When nothing is in flight and the window has its `n` dispatches, the session is closed. -/
def Closed (n : ℕ) (c : Serial) : Prop :=
  c.inFlight = ∅ → n ≤ (window c.entered).length →
    c.statics.state.isprofiling = false ∧
      (contextCalls c.statics.state.log).getLast? ≠ some .start

/-- The event is not the completion of the last dispatch in flight while exactly `n` dispatches
are counted and no stop is requested. -/
def NotLeftOpen (n : ℕ) (c : Serial) : Event → Prop
  | .enter _ => True
  | .complete info => ¬(c.statics.state.isprofiling = true ∧
      c.statics.state.stopProfiling = false ∧ c.statics.state.numConsecutiveKernels = n ∧
      c.inFlight = {info.dispatchId})

/-- Without a session there is nothing to close. -/
theorem closed_of_not_profiling (h : c.Inv n) (hp : c.statics.state.isprofiling = false) :
    Closed n c := by
  intro _ _
  refine ⟨hp, fun hlast ↦ ?_⟩
  rw [h.bookkeeping.started, hp] at hlast
  cases hlast

theorem closed_of_inFlight (h : c.inFlight ≠ ∅) : Closed n c := fun hempty ↦ absurd hempty h

theorem closed_step_iff (hn : 1 ≤ n) (c : Serial) (e : Event) (d : Serial) (h : c.Inv n)
    (hd : c.step cfg targetKernels n e = some d) : Closed n d ↔ NotLeftOpen n c e := by
  have hI : d.Inv n := Serial.inv_step hn c e d h hd
  cases e with
  | enter info =>
    obtain ⟨hnew, -, he, hcomp, -⟩ := step_enter hd
    have hfly := mem_inFlight_enter he hcomp (h.notMem_completed hnew)
    exact iff_of_true (closed_of_inFlight (hfly ▸ Finset.insert_ne_empty _ _)) trivial
  | complete info =>
    obtain ⟨hin, he, hcomp, -⟩ := step_complete hd
    by_cases hpd : d.statics.state.isprofiling = true
    · -- the session goes on
      obtain ⟨hp, hsame⟩ := step_complete_profiling hd hpd
      have hfly : d.inFlight = ∅ ↔ c.inFlight = {info.dispatchId} := by
        rw [inFlight_complete he hcomp, Finset.erase_eq_empty_iff]
        exact or_iff_right (Finset.ne_empty_of_mem hin)
      have hlen := (hI.counted hpd).2
      have hbelow := hI.below hpd
      have hpend := hI.pending hpd
      rw [hsame.1] at hbelow hpend
      rw [hsame.2] at hlen hbelow
      constructor
      · rintro hclosed ⟨-, -, hnum, hone⟩
        have := (hclosed (hfly.mpr hone) (by omega)).1
        rw [hpd] at this
        cases this
      · intro hnot hempty hle
        have hst : c.statics.state.stopProfiling = false := by
          by_contra hst
          exact hpend (by simpa using hst) hempty
        have := hbelow hst
        exact absurd ⟨hp, hst, by omega, hfly.mp hempty⟩ hnot
    · rw [Bool.not_eq_true] at hpd
      refine iff_of_true (closed_of_not_profiling hI hpd) ?_
      rintro ⟨hp, hst, -, -⟩
      rw [stopProfiling_of_closing hd hp hpd] at hst
      cases hst

/-- **Exactly which runs close every finished session**: those in which the last dispatch in
flight never completes while exactly `n` dispatches of the window are counted and no stop is
requested, that is, before the dispatch that would have requested it. -/
theorem everywhere_closed_iff (hn : 1 ≤ n) {events : List Event} {c : Serial}
    (h : Runs.run (Serial.step cfg targetKernels n) {} events = some c) :
    Runs.Everywhere (Serial.step cfg targetKernels n) {} (Closed n) events ↔
      Runs.Along (Serial.step cfg targetKernels n) {} (NotLeftOpen n) events := by
  refine Runs.everywhere_iff_along Serial.inv_init (Serial.inv_step hn) ?_ ?_ h
  · exact closed_of_not_profiling Serial.inv_init rfl
  · exact fun c e d hc _ hd ↦ closed_step_iff hn c e d hc hd

/-- The window is followed by one more dispatch before it has completed. -/
theorem everywhere_closed_iff_followed :
    Runs.Everywhere (Serial.step {} (UMap.empty.assign 7 {1}) 1) {} (Closed 1)
        [.enter ⟨1, 7⟩, .enter ⟨2, 8⟩, .complete ⟨1, 7⟩, .complete ⟨2, 8⟩] ↔
      Runs.Along (Serial.step {} (UMap.empty.assign 7 {1}) 1) {} (NotLeftOpen 1)
        [.enter ⟨1, 7⟩, .enter ⟨2, 8⟩, .complete ⟨1, 7⟩, .complete ⟨2, 8⟩] :=
  everywhere_closed_iff (by decide) rfl

/-- **A session is left open when the window completes before another dispatch is entered.** -/
theorem finished_session_left_open :
    ¬Runs.Everywhere (Serial.step {} (UMap.empty.assign 7 {1}) 1) {} (Closed 1)
      [.enter ⟨1, 7⟩, .complete ⟨1, 7⟩] := by
  intro h
  have hclosed := h _ _ (List.prefix_refl _) rfl (by decide) (by decide)
  exact absurd hclosed.1 (by decide)

end ThreadTrace
end Version3
