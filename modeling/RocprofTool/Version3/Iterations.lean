import Mathlib.Data.Finset.Card
import Mathlib.Data.List.Count
import Mathlib.Data.Multiset.AddSub
import RocprofTool.Lib.Runs
import RocprofTool.Version3.Targets

/-!
# Counting the iterations of a kernel from several threads

`is_targeted_kernel` counts a dispatch in one critical section and reads the count back in
another.  Here any number of threads call it on the same iteration map, and the two sections of
different calls interleave in any way: `Calls.step` is one critical section of one thread.

* `Calls.Inv` is what always holds: the count of a kernel is the number of calls that are through
  with it plus the number of calls that are between their two sections.
* `Calls.Numbered` is what the counting is for: after `n` calls the iterations that were compared
  with the range are `1, …, n`, each by one call.
* `numbered_lookup_iff` says when the next answer keeps it that way: exactly when no other call
  for the kernel has counted and not yet looked up.  `everywhere_numbered_iff` is the same for a
  whole run.
-/

set_option autoImplicit false

open Tool

namespace Version3

/-- What one completed call found: the iteration it compared with the range, and its answer. -/
structure Answer where
  kernelId : KernelId
  itr : ℕ
  targeted : Bool
  deriving DecidableEq, Repr

/-- Any number of threads in calls of `is_targeted_kernel` on one iteration map. -/
structure Calls where
  kernelIteration : KernelIteration
  /-- The calls that have counted and not yet looked up: the thread and the kernel. -/
  between : List (ℕ × KernelId)
  /-- The completed calls, the latest first. -/
  answers : List Answer

namespace Calls

/-- No call has been made yet. -/
def init : Calls := ⟨UMap.empty, [], []⟩

/-- A critical section of one thread. -/
inductive Action
  | count (thread : ℕ) (kernelId : KernelId)
  | lookup (thread : ℕ) (kernelId : KernelId)
  deriving DecidableEq, Repr

/-- One critical section.  A thread is in at most one call at a time.  A kernel that is not
targeted is turned away before the first of the two sections. -/
def step (cfg : Config) (targetKernels : TargetedKernelsMap) (c : Calls) : Action → Option Calls
  | .count thread k =>
    if (targetKernels k).isNone ∨ thread ∈ c.between.map Prod.fst then none
    else some { c with
      kernelIteration := countIteration c.kernelIteration k
      between := (thread, k) :: c.between }
  | .lookup thread k =>
    if (thread, k) ∈ c.between then
      (targetKernels k).bind fun range ↦
        (lookupIteration cfg c.kernelIteration k range).map fun p ↦
          { c with
            between := c.between.erase (thread, k)
            answers := ⟨k, p.1, p.2⟩ :: c.answers }
    else none

/-- The number of calls for `k` that have counted and not yet looked up. -/
def pending (c : Calls) (k : KernelId) : ℕ := c.between.countP fun p ↦ p.2 = k

/-- The completed calls for `k`. -/
def answersFor (c : Calls) (k : KernelId) : List Answer := c.answers.filter fun a ↦ a.kernelId = k

/-- The iterations of `k` that the completed calls compared with the range. -/
def itrs (c : Calls) (k : KernelId) : List ℕ := (c.answersFor k).map Answer.itr

/-- The number of calls for `k` that answered `true`. -/
def trues (c : Calls) (k : KernelId) : ℕ := (c.answersFor k).countP Answer.targeted

variable {cfg : Config} {targetKernels : TargetedKernelsMap} {k : KernelId} {range : Finset ℕ}

/-! ## What a step can do -/

/-- **What counting does.** -/
theorem step_count {c d : Calls} {thread : ℕ} {k' : KernelId}
    (h : step cfg targetKernels c (.count thread k') = some d) :
    d = { c with
      kernelIteration := countIteration c.kernelIteration k'
      between := (thread, k') :: c.between } := by
  rw [step] at h
  split at h
  · cases h
  · exact (Option.some.inj h).symm

/-- **What looking up does.** -/
theorem step_lookup {c d : Calls} {thread : ℕ} {k' : KernelId}
    (h : step cfg targetKernels c (.lookup thread k') = some d) :
    (thread, k') ∈ c.between ∧ ∃ range itr, targetKernels k' = some range ∧
      c.kernelIteration k' = some itr ∧
      d = { c with
        between := c.between.erase (thread, k')
        answers := ⟨k', itr, inRange cfg range itr⟩ :: c.answers } := by
  rw [step] at h
  split at h
  · rename_i hmem
    obtain ⟨range, hr, h⟩ := Option.bind_eq_some_iff.mp h
    obtain ⟨p, hp, rfl⟩ := Option.map_eq_some_iff.mp h
    obtain ⟨itr, hi, rfl⟩ := Option.map_eq_some_iff.mp hp
    exact ⟨hmem, range, itr, hr, hi, rfl⟩
  · cases h

/-- A call between whose sections nobody else comes is `isTargetedKernel`. -/
theorem run_uninterrupted (hk : targetKernels k = some range) {c : Calls} {thread : ℕ}
    (hfree : thread ∉ c.between.map Prod.fst) :
    ∃ d itr b, Runs.run (step cfg targetKernels) c [.count thread k, .lookup thread k] = some d ∧
      d.between = c.between ∧ d.answers = ⟨k, itr, b⟩ :: c.answers ∧
      isTargetedKernel cfg targetKernels k c.kernelIteration = some (b, d.kernelIteration) := by
  let itr := iterations c.kernelIteration k + 1
  refine ⟨{ c with
      kernelIteration := countIteration c.kernelIteration k
      answers := ⟨k, itr, inRange cfg range itr⟩ :: c.answers },
    itr, inRange cfg range itr, ?_, rfl, rfl, isTargetedKernel_eq cfg hk _⟩
  simp [step, hk, hfree, lookupIteration, itr]

/-! ## The count of a kernel -/

/-- The count of each kernel is the number of its calls that have counted, and what a completed
call answered is what its range says about the iteration it compared. -/
structure Inv (cfg : Config) (targetKernels : TargetedKernelsMap) (c : Calls) : Prop where
  /-- The count is the number of calls that have been through the first section. -/
  count : ∀ k, iterations c.kernelIteration k = (c.itrs k).length + c.pending k
  /-- A kernel is in the map once it was counted. -/
  mem : ∀ k, 0 < c.pending k → (c.kernelIteration k).isSome
  /-- The answers are those of the range. -/
  answer : ∀ a ∈ c.answers, ∀ range, targetKernels a.kernelId = some range →
    a.targeted = inRange cfg range a.itr

theorem inv_init : Inv cfg targetKernels init := by
  refine ⟨fun k ↦ rfl, fun k h ↦ ?_, fun a ha ↦ by simp [init] at ha⟩
  simp [pending, init] at h

theorem pending_cons (c : Calls) (thread : ℕ) (k k' : KernelId) (m : KernelIteration) :
    ({ c with kernelIteration := m, between := (thread, k') :: c.between } : Calls).pending k
      = c.pending k + if k' = k then 1 else 0 := by
  simp [pending, List.countP_cons]

theorem pending_erase {c : Calls} {thread : ℕ} {k' : KernelId} (h : (thread, k') ∈ c.between)
    (k : KernelId) (as : List Answer) :
    c.pending k
      = ({ c with between := c.between.erase (thread, k'), answers := as } : Calls).pending k
        + if k' = k then 1 else 0 := by
  have hp := (List.perm_cons_erase h).countP_eq fun p ↦ decide (p.2 = k)
  rw [List.countP_cons] at hp
  simpa [pending] using hp

theorem itrs_cons (c : Calls) (k k' : KernelId) (itr : ℕ) (b : Bool) (l : List (ℕ × KernelId)) :
    ({ c with between := l, answers := ⟨k', itr, b⟩ :: c.answers } : Calls).itrs k
      = if k' = k then itr :: c.itrs k else c.itrs k := by
  by_cases h : k' = k <;> simp [itrs, answersFor, h]

/-- **Every step keeps the count.** -/
theorem inv_step (c : Calls) (a : Action) (d : Calls) (hI : Inv cfg targetKernels c)
    (h : step cfg targetKernels c a = some d) : Inv cfg targetKernels d := by
  cases a with
  | count thread k' =>
    obtain rfl := step_count h
    refine ⟨fun k ↦ ?_, fun k hk ↦ ?_, hI.answer⟩
    · have hc := hI.count k
      rw [pending_cons]
      by_cases hkk : k' = k
      · subst hkk
        simp only [iterations_countIteration_self, if_true]
        rw [hc, Nat.add_assoc]
        rfl
      · simp only [iterations_countIteration_of_ne _ (Ne.symm hkk), if_neg hkk]
        exact hc
    · rw [pending_cons] at hk
      by_cases hkk : k' = k
      · subst hkk
        simp
      · simp only [countIteration_of_ne _ (Ne.symm hkk)]
        exact hI.mem k (by simpa [hkk] using hk)
  | lookup thread k' =>
    obtain ⟨hmem, range, itr, hr, hi, rfl⟩ := step_lookup h
    refine ⟨fun k ↦ ?_, fun k hk ↦ ?_, fun a ha range' hr' ↦ ?_⟩
    · have hc := hI.count k
      rw [pending_erase hmem k (⟨k', itr, inRange cfg range itr⟩ :: c.answers)] at hc
      rw [itrs_cons]
      by_cases hkk : k' = k
      · rw [if_pos hkk] at hc ⊢
        rw [List.length_cons]
        simp only at hc ⊢
        omega
      · rw [if_neg hkk] at hc ⊢
        exact hc
    · refine hI.mem k ?_
      rw [pending_erase hmem k (⟨k', itr, inRange cfg range itr⟩ :: c.answers)]
      omega
    · rcases List.mem_cons.mp ha with rfl | ha
      · rw [hr] at hr'
        cases hr'
        rfl
      · exact hI.answer a ha range' hr'

/-- The `at` of the second section does not throw: a call that has counted can look up. -/
theorem lookup_enabled {acts : List Action} {c : Calls}
    (h : Runs.run (step cfg targetKernels) init acts = some c) {thread : ℕ}
    (hmem : (thread, k) ∈ c.between) (hk : targetKernels k = some range) :
    (step cfg targetKernels c (.lookup thread k)).isSome = true := by
  have hI : Inv cfg targetKernels c := Runs.run_invariant inv_init inv_step h
  have hpos : 0 < c.pending k := List.countP_pos_iff.mpr ⟨(thread, k), hmem, by simp⟩
  have hsome := hI.mem k hpos
  simp [step, hmem, hk, lookupIteration, hsome]

/-! ## The iterations that are compared -/

/-- What the counting is for.  After `n` completed calls for `k` the iterations that they compared
with the range are `1, …, n`, each used by one of them; so, when there is a range, as many of them
have answered `true` as the range has elements up to `n`. -/
structure Numbered (k : KernelId) (range : Finset ℕ) (c : Calls) : Prop where
  /-- Each iteration is compared once. -/
  perm : (c.itrs k).Perm (List.range' 1 (c.itrs k).length)
  /-- The range is met as often as it should be. -/
  trues : range.Nonempty → c.trues k = (range.filter (· ≤ (c.itrs k).length)).card

/-- The condition on a step: whoever looks up for `k` is the only one to have counted for `k` and
not yet looked up. -/
def Alone (k : KernelId) (c : Calls) (a : Action) : Prop :=
  ∀ thread, a = .lookup thread k → c.pending k = 1

theorem trues_eq {c : Calls} (hI : Inv cfg targetKernels c) (hk : targetKernels k = some range) :
    c.trues k = (c.itrs k).countP (inRange cfg range) := by
  rw [trues, itrs, List.countP_map]
  refine List.countP_congr fun a ha ↦ ?_
  obtain ⟨ha, hak⟩ := List.mem_filter.mp ha
  have hak' : a.kernelId = k := by simpa using hak
  rw [hI.answer a ha range (hak' ▸ hk)]
  rfl

theorem countP_range'_mem (h0 : 0 ∉ range) (n : ℕ) :
    (List.range' 1 n).countP (fun i ↦ decide (i ∈ range)) = (range.filter (· ≤ n)).card := by
  have hnd : ((List.range' 1 n).filter fun i ↦ decide (i ∈ range)).Nodup :=
    List.Nodup.filter _ List.nodup_range'
  rw [List.countP_eq_length_filter, ← List.toFinset_card_of_nodup hnd]
  congr 1
  ext i
  have hpos : i ∈ range → i ≠ 0 := fun hi h ↦ h0 (h ▸ hi)
  simp only [List.mem_toFinset, List.mem_filter, List.mem_range'_1, decide_eq_true_eq,
    Finset.mem_filter]
  constructor
  · rintro ⟨⟨-, hlt⟩, hi⟩
    exact ⟨hi, by omega⟩
  · rintro ⟨hi, hle⟩
    have := hpos hi
    exact ⟨by omega, hi⟩

/-- Unless the range asks for an iteration `0`, which no dispatch is, the numbering decides how
often the answer is `true`. -/
theorem numbered_iff_perm {c : Calls} (hI : Inv cfg targetKernels c)
    (hk : targetKernels k = some range) (h0 : 0 ∉ range) :
    Numbered k range c ↔ (c.itrs k).Perm (List.range' 1 (c.itrs k).length) := by
  refine ⟨fun h ↦ h.perm, fun h ↦ ⟨h, fun hne ↦ ?_⟩⟩
  have hfun : inRange cfg range = fun i ↦ decide (i ∈ range) :=
    funext (inRange_of_nonempty cfg hne)
  rw [trues_eq hI hk, h.countP_eq, hfun, countP_range'_mem h0]

/-- One more number completes `1, …, n` exactly when it is `n + 1`. -/
theorem cons_perm_range'_iff {l : List ℕ} {n x : ℕ} (h : l.Perm (List.range' 1 n)) :
    (x :: l).Perm (List.range' 1 (n + 1)) ↔ x = n + 1 := by
  have hlast : (List.range' 1 (n + 1)).Perm ((n + 1) :: l) := by
    rw [List.range'_1_concat, Nat.add_comm 1 n]
    exact (List.perm_append_singleton _ _).trans (h.symm.cons _)
  rw [show (x :: l).Perm (List.range' 1 (n + 1)) ↔ (x :: l).Perm ((n + 1) :: l) from
    ⟨fun hx ↦ hx.trans hlast, fun hx ↦ hx.trans hlast.symm⟩]
  rw [← Multiset.coe_eq_coe, ← Multiset.cons_coe, ← Multiset.cons_coe]
  exact Multiset.cons_inj_left _

/-- **The next answer.**  It continues the numbering exactly when the call that looks up is the
only one between its two sections. -/
theorem numbered_step_iff {c d : Calls} {a : Action} (hI : Inv cfg targetKernels c)
    (hk : targetKernels k = some range) (h0 : 0 ∉ range) (hN : Numbered k range c)
    (h : step cfg targetKernels c a = some d) : Numbered k range d ↔ Alone k c a := by
  have hId : Inv cfg targetKernels d := inv_step c a d hI h
  rw [numbered_iff_perm hId hk h0]
  cases a with
  | count thread k' =>
    obtain rfl := step_count h
    refine ⟨fun _ t ht ↦ ?_, fun _ ↦ hN.perm⟩
    cases ht
  | lookup thread k' =>
    obtain ⟨-, range', itr, hr, hi, rfl⟩ := step_lookup h
    rw [itrs_cons]
    by_cases hkk : k' = k
    · subst hkk
      have hc := hI.count k'
      rw [iterations, hi, Option.getD_some] at hc
      rw [if_pos rfl, List.length_cons, cons_perm_range'_iff hN.perm, hc]
      constructor
      · intro hp t _
        omega
      · intro hA
        rw [hA thread rfl]
    · rw [if_neg hkk]
      refine ⟨fun _ t ht ↦ ?_, fun _ ↦ hN.perm⟩
      cases ht
      exact (hkk rfl).elim

/-- **The iterations are numbered without loss throughout a run exactly when every call for the
kernel looks up alone** and the range does not ask for an iteration `0`. -/
theorem everywhere_numbered_iff (hk : targetKernels k = some range) {acts : List Action}
    {c : Calls} (h : Runs.run (step cfg targetKernels) init acts = some c) :
    Runs.Everywhere (step cfg targetKernels) init (Numbered k range) acts ↔
      0 ∉ range ∧ Runs.Along (step cfg targetKernels) init (Alone k) acts := by
  by_cases h0 : 0 ∈ range
  · refine ⟨fun hE ↦ ?_, fun hA ↦ (hA.1 h0).elim⟩
    -- already before the first call the range has an element that is at most `0`
    have hN := hE [] init List.nil_prefix rfl
    have hcard : 0 = (range.filter (· ≤ 0)).card := hN.trues ⟨0, h0⟩
    have hmem : 0 ∈ range.filter (· ≤ 0) := Finset.mem_filter.mpr ⟨h0, Nat.le_refl 0⟩
    rw [Finset.card_eq_zero.mp hcard.symm] at hmem
    exact absurd hmem (Finset.notMem_empty 0)
  · have hI0 : Inv cfg targetKernels init := inv_init
    have hN0 : Numbered k range init := (numbered_iff_perm hI0 hk h0).mpr (List.Perm.refl _)
    rw [Runs.everywhere_iff_along hI0 inv_step hN0
      (fun c a d hI hN hd ↦ numbered_step_iff hI hk h0 hN hd) h]
    exact ⟨fun hA ↦ ⟨h0, hA⟩, fun hA ↦ hA.2⟩

/-- Two calls one after the other are numbered `1` and `2`. -/
theorem everywhere_numbered_sequential :
    Runs.Everywhere (step {} fun _ ↦ some {1}) init (Numbered 7 {1})
        [.count 0 7, .lookup 0 7, .count 1 7, .lookup 1 7] ↔
      0 ∉ ({1} : Finset ℕ) ∧ Runs.Along (step {} fun _ ↦ some {1}) init (Alone 7)
        [.count 0 7, .lookup 0 7, .count 1 7, .lookup 1 7] :=
  everywhere_numbered_iff rfl rfl

/-- **Two overlapping calls.**  When both count before either looks up, both compare iteration `2`
with the range: iteration `1`, the only one asked for, is never profiled. -/
theorem overlapping_calls_lose_iteration :
    ∃ c, Runs.run (step {} fun _ ↦ some {1}) init
          [.count 0 7, .count 1 7, .lookup 0 7, .lookup 1 7] = some c ∧
      c.itrs 7 = [2, 2] ∧ c.trues 7 = 0 ∧ ¬ Numbered 7 {1} c := by
  refine ⟨_, rfl, by decide, by decide, fun h ↦ ?_⟩
  have hp := h.perm
  revert hp
  decide

end Calls

end Version3
