import Mathlib.Tactic.Common

/-!
# Traversals with a callback

A library that has a list of things lets the user go through them with a callback: it calls it for
one after the other, and when the status that comes back is not that of success it stops, and
returns this status.  The callback works on data of the user, and can also end the program.

* `iterate_eq_ok_success_iff` is the rule for a callback that accepts things and stops at the other
  ones: a traversal that succeeds is a loop, over things that have all been accepted.
* `iterate_find` is the one for a callback that looks for something.
-/

set_option autoImplicit false

universe u v w x

namespace Traversal

variable {ε : Type u} {σ : Type v} {α : Type w} {τ : Type x} [DecidableEq τ] (success : τ)

/-- The traversal: the status, and the data in the end. -/
def iterate (callback : α → σ → Except ε (τ × σ)) : List α → σ → Except ε (τ × σ)
  | [], s => .ok (success, s)
  | a :: as, s =>
    match callback a s with
    | .error e => .error e
    | .ok (status, s') =>
      if status = success then iterate callback as s' else .ok (status, s')

variable {success} {callback : α → σ → Except ε (τ × σ)} {a : α} {as : List α} {s t : σ}

theorem iterate_cons_success (h : callback a s = .ok (success, t)) :
    iterate success callback (a :: as) s = iterate success callback as t := by
  rw [iterate, h]
  exact if_pos rfl

theorem iterate_cons_stop {status : τ} (h : callback a s = .ok (status, t))
    (hne : status ≠ success) : iterate success callback (a :: as) s = .ok (status, t) := by
  rw [iterate, h]
  exact if_neg hne

/-- **Accepting things.** -/
theorem iterate_eq_ok_success_iff {Accepts : α → Prop} {step : σ → α → σ}
    (haccepts : ∀ a s, Accepts a → callback a s = .ok (success, step s a))
    (hstops : ∀ a s t, ¬Accepts a → callback a s ≠ .ok (success, t)) :
    iterate success callback as s = .ok (success, t) ↔
      (∀ a ∈ as, Accepts a) ∧ t = as.foldl step s := by
  induction as generalizing s with
  | nil =>
    constructor
    · rintro ⟨⟩
      exact ⟨nofun, rfl⟩
    · rintro ⟨-, rfl⟩
      rfl
  | cons a as ih =>
    rw [List.forall_mem_cons, List.foldl_cons]
    by_cases ha : Accepts a
    · rw [iterate_cons_success (haccepts a s ha), ih, and_iff_right ha]
    · refine iff_of_false (fun h ↦ ?_) fun h ↦ ha h.1.1
      rw [iterate] at h
      rcases hcall : callback a s with e | ⟨status, s'⟩
      · rw [hcall] at h
        cases h
      · rw [hcall] at h
        dsimp only at h
        by_cases hstatus : status = success
        · exact hstops a s s' ha (hstatus ▸ hcall)
        · rw [if_neg hstatus] at h
          cases h
          exact hstatus rfl

/-- **Looking for something.** -/
theorem iterate_find {P : α → Bool} {write : α → σ} (stop : τ) (hne : stop ≠ success)
    (hcallback : ∀ a s, callback a s = .ok (if P a then (stop, write a) else (success, s))) :
    iterate success callback as s = .ok (match as.find? P with
      | some a => (stop, write a)
      | none => (success, s)) := by
  induction as with
  | nil => rfl
  | cons a as ih =>
    have ha := hcallback a s
    by_cases hP : P a = true
    · rw [if_pos hP] at ha
      rw [iterate_cons_stop ha hne, List.find?_cons_of_pos hP]
    · rw [if_neg hP] at ha
      rw [iterate_cons_success ha, List.find?_cons_of_neg hP, ih]

end Traversal
