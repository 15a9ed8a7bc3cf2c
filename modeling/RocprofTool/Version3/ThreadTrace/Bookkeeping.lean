import Mathlib.Order.Lattice.Nat
import Mathlib.Data.List.Infix
import Mathlib.Order.Bounds.Basic
import RocprofTool.Lib.Runs
import RocprofTool.Version3.ThreadTrace.Callback

/-!
# The bookkeeping of the thread trace, under any interleaving

Any number of threads are in `att_dispatch_consecutive_kernel_callback` at once.  Each call first
checks, without the lock, whether it has anything to do, and then runs its critical section: the
two are separate steps of `Conf.step`, and the session a thread saw in its check may be over, or a
new one may have begun, by the time it gets the lock.

`Bookkeeping` is what holds between any two steps.  The context is started and stopped in turn; it
is started exactly while `isprofiling` is set; while it is not, nothing is captured; while it is,
`att_consecutive_kernel_dispatch_id` is the least id captured in the session; and no session is
closed before everything it captured has completed.  `Inv` adds the one fact that makes this
inductive: what the session captured is still in `captured_ids` or has been erased from it since.

Both are about `State` alone.  `inv_enterSection` and `inv_completionSection` show that each
critical section preserves them from *any* state, which is why it does not matter what a thread
saw in its check.
-/

set_option autoImplicit false

namespace Version3
namespace ThreadTrace

/-! ## Reading the log -/

/-- A call on `att_device_context`. -/
inductive ContextCall
  | start
  | stop
  deriving DecidableEq, Repr

/-- The call on `att_device_context` that an entry of the log is, if it is one. -/
def Op.contextCall : Op → Option ContextCall
  | .startContext => some .start
  | .stopContext => some .stop
  | _ => none

/-- The calls on `att_device_context`, in the order they were made. -/
def contextCalls (log : List Op) : List ContextCall := (log.filterMap Op.contextCall).reverse

/-- Starts and stops take turns, and a start comes first. -/
def Alternates (calls : List ContextCall) : Prop :=
  calls.IsChain (· ≠ ·) ∧ calls.head? ≠ some .stop

/-- The log since the context was last started. -/
def session (log : List Op) : List Op := log.takeWhile (· ≠ .startContext)

/-- The dispatches captured since the context was last started. -/
def capturedSince (log : List Op) : Set DispatchId := {id | .emplace id ∈ session log}

/-- Every dispatch captured since the context was last started has completed since. -/
def AllCompleted (log : List Op) : Prop :=
  ∀ later earlier id, session log = later ++ .emplace id :: earlier → .erase id ∈ later

@[simp] theorem contextCalls_emplace (id : DispatchId) (log : List Op) :
    contextCalls (.emplace id :: log) = contextCalls log := rfl

@[simp] theorem contextCalls_erase (id : DispatchId) (log : List Op) :
    contextCalls (.erase id :: log) = contextCalls log := rfl

@[simp] theorem contextCalls_startContext (log : List Op) :
    contextCalls (.startContext :: log) = contextCalls log ++ [.start] := by
  simp [contextCalls, Op.contextCall]

@[simp] theorem contextCalls_stopContext (log : List Op) :
    contextCalls (.stopContext :: log) = contextCalls log ++ [.stop] := by
  simp [contextCalls, Op.contextCall]

@[simp] theorem session_startContext (log : List Op) : session (.startContext :: log) = [] := by
  simp [session]

theorem session_cons {op : Op} (h : op ≠ .startContext) (log : List Op) :
    session (op :: log) = op :: session log := by
  simp [session, h]

theorem Alternates.start {calls : List ContextCall} (h : Alternates calls)
    (hlast : calls.getLast? ≠ some .start) : Alternates (calls ++ [.start]) := by
  refine ⟨List.isChain_append.mpr ⟨h.1, List.isChain_singleton _, fun x hx y hy hxy ↦ ?_⟩, ?_⟩
  · obtain rfl : ContextCall.start = y := by simpa using hy
    subst hxy
    exact hlast hx
  · cases calls with
    | nil => simp
    | cons c cs => simpa using h.2

theorem Alternates.stop {calls : List ContextCall} (h : Alternates calls)
    (hlast : calls.getLast? = some .start) : Alternates (calls ++ [.stop]) := by
  refine ⟨List.isChain_append.mpr ⟨h.1, List.isChain_singleton _, fun x hx y hy hxy ↦ ?_⟩, ?_⟩
  · obtain rfl : ContextCall.stop = y := by simpa using hy
    rw [hlast] at hx
    subst hxy
    cases hx
  · cases calls with
    | nil => simp at hlast
    | cons c cs => simpa using h.2

/-! ## The invariant -/

/-- The bookkeeping of the thread trace. -/
structure Bookkeeping (s : State) : Prop where
  /-- The context is started and stopped in turn, beginning with a start. -/
  alternates : Alternates (contextCalls s.log)
  /-- The context is started exactly when `isprofiling` is set. -/
  started : (contextCalls s.log).getLast? = some .start ↔ s.isprofiling = true
  /-- Outside of a session nothing is captured. -/
  idle : s.isprofiling = false →
    s.capturedIds = ∅ ∧ s.attConsecutiveKernelDispatchId = uint64Max
  /-- In a session, the id for the shader callback is the least one captured. -/
  least : s.isprofiling = true → IsLeast (capturedSince s.log) s.attConsecutiveKernelDispatchId
  /-- The context was only ever stopped when everything captured had completed. -/
  stops : ∀ earlier, .stopContext :: earlier <:+ s.log → AllCompleted earlier

/-- `Bookkeeping`, with what makes it inductive. -/
structure Inv (s : State) : Prop extends Bookkeeping s where
  /-- What was captured is still there, or it has been erased since. -/
  kept : ∀ later earlier id, session s.log = later ++ .emplace id :: earlier →
    id ∈ s.capturedIds ∨ .erase id ∈ later

theorem inv_init : Inv {} where
  alternates := ⟨List.isChain_nil, by simp [contextCalls]⟩
  started := by simp [contextCalls]
  idle _ := ⟨rfl, rfl⟩
  least h := by cases h
  stops earlier h := by simp at h
  kept later earlier id h := by simp [session] at h

/-- The invariant does not look at the other fields. -/
theorem Inv.congr {s t : State} (h : Inv s) (hp : t.isprofiling = s.isprofiling)
    (hc : t.capturedIds = s.capturedIds)
    (ha : t.attConsecutiveKernelDispatchId = s.attConsecutiveKernelDispatchId)
    (hl : t.log = s.log) : Inv t := by
  refine ⟨⟨?_, ?_, ?_, ?_, ?_⟩, ?_⟩
  · rw [hl]; exact h.alternates
  · rw [hl, hp]; exact h.started
  · rw [hp, hc, ha]; exact h.idle
  · rw [hl, hp, ha]; exact h.least
  · rw [hl]; exact h.stops
  · rw [hl, hc]; exact h.kept

/-- Logging one more entry, if it is not a stop, adds no stop. -/
theorem stops_cons {op : Op} {log : List Op} (hop : op ≠ .stopContext)
    (h : ∀ earlier, .stopContext :: earlier <:+ log → AllCompleted earlier) :
    ∀ earlier, .stopContext :: earlier <:+ op :: log → AllCompleted earlier := by
  intro earlier he
  rcases List.suffix_cons_iff.mp he with he | he
  · rw [List.cons.injEq] at he
    exact (hop he.1.symm).elim
  · exact h earlier he

/-- Where a captured dispatch stands in the log when one more entry is logged. -/
theorem split_cons {op : Op} {l later earlier : List Op} {id : DispatchId}
    (h : op :: l = later ++ .emplace id :: earlier) :
    (op = .emplace id ∧ later = []) ∨
      ∃ later', later = op :: later' ∧ l = later' ++ .emplace id :: earlier := by
  cases later with
  | nil =>
    rw [List.nil_append, List.cons.injEq] at h
    exact Or.inl ⟨h.1, rfl⟩
  | cons x later' =>
    rw [List.cons_append, List.cons.injEq] at h
    exact Or.inr ⟨later', by rw [h.1], h.2⟩

/-- A dispatch is captured in a running session. -/
theorem Inv.capture {s t : State} {id : DispatchId} (h : Inv s) (hp : s.isprofiling = true)
    (hp' : t.isprofiling = true) (hc : t.capturedIds = insert id s.capturedIds)
    (ha : t.attConsecutiveKernelDispatchId = min s.attConsecutiveKernelDispatchId id)
    (hl : t.log = .emplace id :: s.log) : Inv t := by
  have hses : session t.log = .emplace id :: session s.log := by
    rw [hl]; exact session_cons (by simp) _
  refine ⟨⟨?_, ?_, ?_, fun _ ↦ ?_, ?_⟩, ?_⟩
  · rw [hl, contextCalls_emplace]; exact h.alternates
  · rw [hl, contextCalls_emplace]
    exact ⟨fun _ ↦ hp', fun _ ↦ h.started.mpr hp⟩
  · intro hf; rw [hp'] at hf; cases hf
  · have hset : capturedSince t.log = insert id (capturedSince s.log) := by
      ext x
      simp [capturedSince, hses]
    rw [hset, ha, min_comm]
    exact (h.least hp).insert id
  · rw [hl]; exact stops_cons (by simp) h.stops
  · intro later earlier x hx
    rw [hses] at hx
    rw [hc]
    rcases split_cons hx with ⟨hid, -⟩ | ⟨later', rfl, hold⟩
    · rw [Op.emplace.injEq] at hid
      exact Or.inl (by simp [hid])
    · rcases h.kept later' earlier x hold with hm | hm
      · exact Or.inl (Finset.mem_insert_of_mem hm)
      · exact Or.inr (List.mem_cons_of_mem _ hm)

/-- A dispatch opens a session and is the first it captures. -/
theorem Inv.opening {s t : State} {id : DispatchId} (h : Inv s) (hid : id < uint64Max)
    (hp : s.isprofiling = false) (hp' : t.isprofiling = true)
    (hc : t.capturedIds = insert id s.capturedIds)
    (ha : t.attConsecutiveKernelDispatchId = min s.attConsecutiveKernelDispatchId id)
    (hl : t.log = .emplace id :: .startContext :: s.log) : Inv t := by
  have hses : session t.log = [.emplace id] := by
    rw [hl, session_cons (by simp), session_startContext]
  have hnot : (contextCalls s.log).getLast? ≠ some .start := by
    rw [Ne, h.started, hp]; simp
  refine ⟨⟨?_, ?_, ?_, fun _ ↦ ?_, ?_⟩, ?_⟩
  · rw [hl, contextCalls_emplace, contextCalls_startContext]
    exact h.alternates.start hnot
  · rw [hl, contextCalls_emplace, contextCalls_startContext]
    simp [hp']
  · intro hf; rw [hp'] at hf; cases hf
  · have hset : capturedSince t.log = {id} := by
      ext x
      simp [capturedSince, hses]
    rw [hset, ha, (h.idle hp).2, Nat.min_eq_right (Nat.le_of_lt hid)]
    exact isLeast_singleton
  · rw [hl]; exact stops_cons (by simp) (stops_cons (by simp) h.stops)
  · intro later earlier x hx
    rw [hses] at hx
    rcases split_cons hx with ⟨hid, -⟩ | ⟨later', rfl, hold⟩
    · rw [Op.emplace.injEq] at hid
      exact Or.inl (by simp [hc, hid])
    · simp at hold

/-- A dispatch completes, and the session goes on. -/
theorem Inv.erase {s t : State} {id : DispatchId} (h : Inv s)
    (hp : t.isprofiling = s.isprofiling) (hc : t.capturedIds = s.capturedIds.erase id)
    (ha : t.attConsecutiveKernelDispatchId = s.attConsecutiveKernelDispatchId)
    (hl : t.log = .erase id :: s.log) : Inv t := by
  have hses : session t.log = .erase id :: session s.log := by
    rw [hl]; exact session_cons (by simp) _
  refine ⟨⟨?_, ?_, ?_, ?_, ?_⟩, ?_⟩
  · rw [hl, contextCalls_erase]; exact h.alternates
  · rw [hl, contextCalls_erase, hp]; exact h.started
  · intro hf
    rw [hp] at hf
    rw [hc, ha, (h.idle hf).1]
    exact ⟨rfl, (h.idle hf).2⟩
  · intro ht
    have hset : capturedSince t.log = capturedSince s.log := by
      ext x
      simp [capturedSince, hses]
    rw [hset, ha]
    exact h.least (hp ▸ ht)
  · rw [hl]; exact stops_cons (by simp) h.stops
  · intro later earlier x hx
    rw [hses] at hx
    rcases split_cons hx with ⟨hid, -⟩ | ⟨later', rfl, hold⟩
    · cases hid
    · rw [hc]
      rcases h.kept later' earlier x hold with hm | hm
      · by_cases hxid : x = id
        · exact Or.inr (by simp [hxid])
        · exact Or.inl (Finset.mem_erase.mpr ⟨hxid, hm⟩)
      · exact Or.inr (List.mem_cons_of_mem _ hm)

/-- The last captured dispatch completes, and the session is closed. -/
theorem Inv.closing {s t : State} (h : Inv s) (hp : s.isprofiling = true)
    (hempty : s.capturedIds = ∅) (hp' : t.isprofiling = false) (hc : t.capturedIds = ∅)
    (ha : t.attConsecutiveKernelDispatchId = uint64Max) (hl : t.log = .stopContext :: s.log) :
    Inv t := by
  have hses : session t.log = .stopContext :: session s.log := by
    rw [hl]; exact session_cons (by simp) _
  have hdone : AllCompleted s.log := by
    intro later earlier id hs
    rcases h.kept later earlier id hs with hm | hm
    · rw [hempty] at hm
      exact absurd hm (Finset.notMem_empty id)
    · exact hm
  refine ⟨⟨?_, ?_, fun _ ↦ ⟨hc, ha⟩, ?_, ?_⟩, ?_⟩
  · rw [hl, contextCalls_stopContext]
    exact h.alternates.stop (h.started.mpr hp)
  · rw [hl, contextCalls_stopContext]
    simp [hp']
  · intro ht; rw [hp'] at ht; cases ht
  · intro earlier he
    rw [hl] at he
    rcases List.suffix_cons_iff.mp he with he | he
    · rw [List.cons.injEq] at he
      rw [he.2]
      exact hdone
    · exact h.stops earlier he
  · intro later earlier x hx
    rw [hses] at hx
    rcases split_cons hx with ⟨hid, -⟩ | ⟨later', rfl, hold⟩
    · cases hid
    · exact Or.inr (List.mem_cons_of_mem _ (hdone later' earlier x hold))

/-! ## The two critical sections preserve it -/

theorem inv_enterSection {n : ℕ} (hn : 1 ≤ n) {s : State} {id : DispatchId}
    (hid : id < uint64Max) (isTarget : Bool) (h : Inv s) : Inv (enterSection n s id isTarget) := by
  rw [enterSection_eq]
  cases hc : captures n s isTarget with
  | false =>
    -- a target always captures itself, so here the context has not just been started
    have hstart : (isTarget && !s.isprofiling) = false := by
      cases isTarget with
      | false => rfl
      | true =>
        have : 0 < n := hn
        simp [captures, localCount, this] at hc
    have hp : (s.isprofiling || isTarget) = s.isprofiling := by
      cases hs : s.isprofiling <;> cases isTarget <;> simp_all
    exact h.congr hp rfl rfl (by simp [startedLog, hstart])
  | true =>
    have hrun : (s.isprofiling || isTarget) = true := by
      rw [captures, Bool.and_eq_true] at hc
      exact hc.1
    by_cases hs : s.isprofiling = true
    · exact h.capture hs hrun rfl rfl (by simp [startedLog, hs])
    · rw [Bool.not_eq_true] at hs
      have ht : isTarget = true := by simpa [hs] using hrun
      exact h.opening hid hs hrun rfl rfl (by simp [startedLog, hs, ht])

theorem inv_completionSection {s : State} (id : DispatchId) (h : Inv s) :
    Inv (completionSection s id) := by
  rcases completionSection_cases s id with ⟨-, heq⟩ | ⟨hempty, -, hp, heq⟩
  · rw [heq]
    exact h.erase rfl rfl rfl rfl
  · rw [heq]
    have hmid : Inv { s with capturedIds := s.capturedIds.erase id, log := .erase id :: s.log } :=
      h.erase rfl rfl rfl rfl
    exact hmid.closing hp hempty rfl rfl rfl rfl

/-! ## Concurrent calls of the callback -/

/-- Where a dispatch is in its two calls of the callback. -/
inductive Progress
  | notEntered
  /-- Past the check of phase `ENTER`, waiting for the lock. -/
  | entering (isTarget : Bool)
  /-- The call of phase `ENTER` has returned. -/
  | entered
  /-- Past the check of phase `NONE`, waiting for the lock. -/
  | completing
  | completed
  deriving DecidableEq, Repr

/-- The shared state, and how far each dispatch has come. -/
structure Conf where
  state : State
  progress : DispatchId → Progress

/-- No dispatch has been entered yet. -/
def Conf.init : Conf := ⟨{}, fun _ ↦ .notEntered⟩

/-- A step of one thread. -/
inductive Action
  | enterCheck (dispatchId : DispatchId) (isTarget : Bool)
  | enterSection (dispatchId : DispatchId)
  | completionCheck (dispatchId : DispatchId)
  | completionSection (dispatchId : DispatchId)
  deriving DecidableEq, Repr

/-- One step of one thread, `n` being `att_consecutive_kernels`.  Nothing is assumed of what
`is_targeted_kernel` answers in the check of phase `ENTER`.  A dispatch id is entered once, is
below `UINT64_MAX`, and completes after its call of phase `ENTER` has returned. -/
def Conf.step (n : ℕ) (c : Conf) : Action → Option Conf
  | .enterCheck id isTarget =>
    if c.progress id = .notEntered ∧ id < uint64Max then
      let next := if ThreadTrace.enterCheck c.state isTarget then .entering isTarget else .entered
      some { c with progress := Function.update c.progress id next }
    else none
  | .enterSection id =>
    match c.progress id with
    | .entering isTarget => some
        { state := ThreadTrace.enterSection n c.state id isTarget
          progress := Function.update c.progress id .entered }
    | _ => none
  | .completionCheck id =>
    if c.progress id = .entered then
      let next := if ThreadTrace.completionCheck c.state then .completing else .completed
      some { c with progress := Function.update c.progress id next }
    else none
  | .completionSection id =>
    if c.progress id = .completing then some
      { state := ThreadTrace.completionSection c.state id
        progress := Function.update c.progress id .completed }
    else none

/-- The invariant of the concurrent calls: that of the shared state, and that no thread enters
with the id that stands for "no dispatch". -/
def Conf.Inv (c : Conf) : Prop :=
  ThreadTrace.Inv c.state ∧ ∀ id isTarget, c.progress id = .entering isTarget → id < uint64Max

theorem Conf.inv_step {n : ℕ} (hn : 1 ≤ n) (c : Conf) (a : Action) (d : Conf) (h : c.Inv)
    (hd : c.step n a = some d) : d.Inv := by
  obtain ⟨hs, hids⟩ := h
  -- a dispatch whose progress is set to `p` is waiting with an id that the hypothesis allows
  have hupd : ∀ (id : DispatchId) (p : Progress), (∀ b, p = .entering b → id < uint64Max) →
      ∀ id' b, Function.update c.progress id p id' = .entering b → id' < uint64Max := by
    intro id p hp id' b hb
    by_cases hid : id' = id
    · subst hid
      rw [Function.update_self] at hb
      exact hp b hb
    · rw [Function.update_of_ne hid] at hb
      exact hids id' b hb
  cases a with
  | enterCheck id isTarget =>
    simp only [Conf.step] at hd
    split at hd
    · rename_i hg
      cases hd
      exact ⟨hs, hupd id _ fun _ _ ↦ hg.2⟩
    · cases hd
  | enterSection id =>
    simp only [Conf.step] at hd
    split at hd
    · rename_i isTarget hg
      cases hd
      exact ⟨inv_enterSection hn (hids id isTarget hg) isTarget hs, hupd id _ (by simp)⟩
    · cases hd
  | completionCheck id =>
    simp only [Conf.step] at hd
    split at hd
    · cases hd
      refine ⟨hs, hupd id _ fun b hb ↦ ?_⟩
      split at hb <;> cases hb
    · cases hd
  | completionSection id =>
    simp only [Conf.step] at hd
    split at hd
    · cases hd
      exact ⟨inv_completionSection id hs, hupd id _ (by simp)⟩
    · cases hd

/-- **The bookkeeping of the thread trace is right in every state that any interleaving of any
number of calls of the callback can reach.** -/
theorem bookkeeping_of_run {n : ℕ} (hn : 1 ≤ n) {acts : List Action} {c : Conf}
    (h : Runs.run (Conf.step n) Conf.init acts = some c) : Bookkeeping c.state := by
  have hinit : Conf.init.Inv := ⟨inv_init, fun id b hb ↦ by cases hb⟩
  exact (Runs.run_invariant hinit (Conf.inv_step hn) h).1.toBookkeeping

/-- Two dispatches of one session overlap: the second waits for the lock while the first, already
captured, starts to complete. -/
theorem bookkeeping_of_run_overlapping :
    ∃ c, Runs.run (Conf.step 2) Conf.init
        [.enterCheck 5 true, .enterSection 5, .enterCheck 7 false, .completionCheck 5,
          .enterSection 7, .completionSection 5] = some c ∧
      c.state.isprofiling = true ∧ Bookkeeping c.state := by
  have hrun : ∃ c, Runs.run (Conf.step 2) Conf.init
      [.enterCheck 5 true, .enterSection 5, .enterCheck 7 false, .completionCheck 5,
        .enterSection 7, .completionSection 5] = some c ∧ c.state.isprofiling = true :=
    ⟨_, rfl, rfl⟩
  obtain ⟨c, hc, hp⟩ := hrun
  exact ⟨c, hc, hp, bookkeeping_of_run (by decide) hc⟩

end ThreadTrace
end Version3
