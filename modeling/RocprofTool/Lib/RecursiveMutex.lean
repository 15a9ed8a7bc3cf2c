import Mathlib.Data.Nat.Notation

/-!
# A recursive mutex

A thread that holds a recursive mutex can lock it again and has to unlock it as often.  What matters
to a thread is its hold depth, `RecursiveMutex.depth`: locking and unlocking move that of one thread
up and down by one and leave those of the other threads alone, and at most one of them is positive.
-/

set_option autoImplicit false

universe u

/-- Free, or held by a thread: the number is how often it was locked again. -/
abbrev RecursiveMutex (τ : Type u) := Option (τ × ℕ)

namespace RecursiveMutex

variable {τ : Type u} [DecidableEq τ]

/-- How often the thread holds the mutex. -/
def depth (m : RecursiveMutex τ) (thread : τ) : ℕ :=
  match m with
  | none => 0
  | some (owner, again) => if owner = thread then again + 1 else 0

/-- Locking; `none` is having to wait. -/
def lock (m : RecursiveMutex τ) (thread : τ) : Option (RecursiveMutex τ) :=
  match m with
  | none => some (some (thread, 0))
  | some (owner, again) => if owner = thread then some (some (owner, again + 1)) else none

/-- Unlocking; `none` is the error for a mutex that the thread does not hold. -/
def unlock (m : RecursiveMutex τ) (thread : τ) : Option (RecursiveMutex τ) :=
  match m with
  | none => none
  | some (owner, 0) => if owner = thread then some none else none
  | some (owner, again + 1) => if owner = thread then some (some (owner, again)) else none

variable {m m' : RecursiveMutex τ} {thread : τ}

/-- **Locking** is felt by the thread that locks. -/
theorem depth_lock (h : m.lock thread = some m') (other : τ) :
    m'.depth other = m.depth other + if thread = other then 1 else 0 := by
  rcases m with _ | ⟨owner, again⟩
  · cases h
    simp [depth]
  · rw [lock, Option.ite_none_right_eq_some] at h
    obtain ⟨rfl, h⟩ := h
    cases h
    by_cases howner : owner = other <;> simp [depth, howner]

/-- **Unlocking** is felt by the thread that unlocks. -/
theorem depth_unlock (h : m.unlock thread = some m') (other : τ) :
    m.depth other = m'.depth other + if thread = other then 1 else 0 := by
  rcases m with _ | ⟨owner, _ | again⟩
  · cases h
  all_goals
    rw [unlock, Option.ite_none_right_eq_some] at h
    obtain ⟨rfl, h⟩ := h
    cases h
    by_cases howner : owner = other <;> simp [depth, howner]

theorem depth_lock_self (h : m.lock thread = some m') :
    m'.depth thread = m.depth thread + 1 := by
  rw [depth_lock h, if_pos rfl]

theorem depth_lock_of_ne (h : m.lock thread = some m') {other : τ} (hne : other ≠ thread) :
    m'.depth other = m.depth other := by
  rw [depth_lock h, if_neg hne.symm, Nat.add_zero]

theorem depth_unlock_self (h : m.unlock thread = some m') :
    m.depth thread = m'.depth thread + 1 := by
  rw [depth_unlock h, if_pos rfl]

theorem depth_unlock_of_ne (h : m.unlock thread = some m') {other : τ} (hne : other ≠ thread) :
    m'.depth other = m.depth other := by
  rw [depth_unlock h, if_neg hne.symm, Nat.add_zero]

/-- One thread holds the mutex at most. -/
theorem eq_of_depth_pos {other : τ} (h : 0 < m.depth thread) (h' : 0 < m.depth other) :
    thread = other := by
  rcases m with _ | ⟨owner, again⟩
  · exact absurd h (Nat.lt_irrefl 0)
  · by_cases howner : owner = thread
    · by_cases howner' : owner = other
      · exact howner.symm.trans howner'
      · simp [depth, howner'] at h'
    · simp [depth, howner] at h

/-- A thread that holds the mutex can unlock it. -/
theorem unlock_isSome (h : 0 < m.depth thread) : (m.unlock thread).isSome = true := by
  rcases m with _ | ⟨owner, again⟩
  · exact absurd h (Nat.lt_irrefl 0)
  · by_cases howner : owner = thread
    · subst howner
      rcases again with _ | again <;> simp [unlock]
    · rw [depth, if_neg howner] at h
      exact absurd h (Nat.lt_irrefl 0)

end RecursiveMutex
