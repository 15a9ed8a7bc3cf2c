import Mathlib.Data.Nat.Notation
import Mathlib.Order.Basic

/-!
# Loops

`Loop.whileLoop cond body` is `while (cond) body` for a body that can fail.  `fuel` bounds the
number of rounds; when it does not suffice the result is `outOfFuel`, which is no result of the
loop.  So "the loop comes to an end" is: for some fuel the result is another one, and
`whileLoop_mono` says that it is then the result for any larger fuel too.

A `while` loop is used through three facts: what one round does (`whileLoop_round`), that the
condition is false after it (`cond_of_whileLoop`) and that it does nothing when the condition is
false before it (`whileLoop_of_not`).

`exists_whileLoop` is the rule for a loop that comes to an end: some number gets smaller with each
round.

A loop over a list is `List.foldlM`.  It goes through the list when no round fails
(`foldlM_eq_foldl`), and ends with the first one that does (`foldlM_eq_error`).
-/

set_option autoImplicit false

namespace Loop

universe u v

/-- Why a computation has not come to its end. -/
inductive Halt (ε : Type v)
  | outOfFuel
  | fault (e : ε)
  deriving DecidableEq, Repr

variable {σ : Type u} {ε : Type v} {cond : σ → Bool} {body : σ → Except ε σ}

/-- `while (cond) body`, for at most `fuel` rounds. -/
def whileLoop (cond : σ → Bool) (body : σ → Except ε σ) : ℕ → σ → Except (Halt ε) σ
  | 0, s => if cond s then .error .outOfFuel else .ok s
  | fuel + 1, s =>
    if cond s then
      match body s with
      | .error e => .error (.fault e)
      | .ok s' => whileLoop cond body fuel s'
    else .ok s

theorem whileLoop_of_not {s : σ} (h : cond s = false) (fuel : ℕ) :
    whileLoop cond body fuel s = .ok s := by
  cases fuel <;> simp [whileLoop, h]

/-- **One round.** -/
theorem whileLoop_round {s s' : σ} (h : cond s = true) (hb : body s = .ok s') (fuel : ℕ) :
    whileLoop cond body (fuel + 1) s = whileLoop cond body fuel s' := by
  simp [whileLoop, h, hb]

/-- After the loop its condition is false. -/
theorem cond_of_whileLoop {fuel : ℕ} {s t : σ} (h : whileLoop cond body fuel s = .ok t) :
    cond t = false := by
  induction fuel generalizing s with
  | zero =>
    rw [whileLoop] at h
    split at h
    · cases h
    · rename_i hc
      cases h
      simpa using hc
  | succ fuel ih =>
    rw [whileLoop] at h
    split at h
    · split at h
      · cases h
      · exact ih h
    · rename_i hc
      cases h
      simpa using hc

/-- **More fuel does not change a result.** -/
theorem whileLoop_mono {fuel fuel' : ℕ} (hle : fuel ≤ fuel') {s t : σ}
    (h : whileLoop cond body fuel s = .ok t) : whileLoop cond body fuel' s = .ok t := by
  induction fuel generalizing s fuel' with
  | zero =>
    have hc : cond s = false := by
      by_contra hc
      rw [whileLoop, if_pos (by simpa using hc)] at h
      cases h
    rw [whileLoop_of_not hc] at h ⊢
    exact h
  | succ fuel ih =>
    obtain ⟨k, rfl⟩ := Nat.exists_eq_add_of_le hle
    rw [Nat.add_right_comm]
    cases hc : cond s with
    | false =>
      rw [whileLoop_of_not hc] at h ⊢
      exact h
    | true =>
      cases hb : body s with
      | error e => simp [whileLoop, hc, hb] at h
      | ok s' =>
        rw [whileLoop_round hc hb] at h ⊢
        exact ih (Nat.le_add_right fuel k) h

/-- **A loop that comes to an end**: no round fails, and each of them lowers a number. -/
theorem exists_whileLoop {next : σ → σ} {μ : σ → ℕ}
    (hbody : ∀ s, cond s = true → body s = .ok (next s))
    (hlt : ∀ s, cond s = true → μ (next s) < μ s) {fuel : ℕ} {s : σ} (h : μ s ≤ fuel) :
    ∃ t, whileLoop cond body fuel s = .ok t := by
  induction fuel generalizing s with
  | zero =>
    have hc : cond s = false := by
      by_contra hc
      exact absurd (hlt s (by simpa using hc)) (by omega)
    exact ⟨s, whileLoop_of_not hc 0⟩
  | succ fuel ih =>
    cases hc : cond s with
    | false => exact ⟨s, whileLoop_of_not hc _⟩
    | true =>
      rw [whileLoop_round hc (hbody s hc)]
      exact ih (Nat.le_of_lt_succ (Nat.lt_of_lt_of_le (hlt s hc) h))

/-! ## Loops over a list -/

variable {α : Type*} {round : σ → α → Except ε σ} {next : σ → α → σ}

/-- A loop in which no round fails. -/
theorem foldlM_eq_foldl {xs : List α} (h : ∀ x ∈ xs, ∀ s, round s x = .ok (next s x)) (s : σ) :
    xs.foldlM round s = .ok (xs.foldl next s) := by
  induction xs generalizing s with
  | nil => rfl
  | cons x xs ih =>
    rw [List.forall_mem_cons] at h
    rw [List.foldlM_cons, h.1 s]
    exact ih h.2 (next s x)

/-- A loop that ends with the first round that fails. -/
theorem foldlM_eq_error {pre : List α} {x : α} {e : ε}
    (hpre : ∀ y ∈ pre, ∀ s, round s y = .ok (next s y)) (hx : ∀ s, round s x = .error e)
    (post : List α) (s : σ) : (pre ++ x :: post).foldlM round s = .error e := by
  rw [List.foldlM_append, foldlM_eq_foldl hpre]
  show (x :: post).foldlM round (pre.foldl next s) = .error e
  rw [List.foldlM_cons, hx]
  rfl

end Loop
