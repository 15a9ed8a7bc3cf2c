import Mathlib.Order.Defs.Unbundled

/-!
# Computations that work on a state and can fail

`ExceptT ε (StateM σ)` is the monad of code that changes a state as it goes and can stop in the
middle: what it has done to the state up to then stays done.

* `exec x s` is what `x` returns from `s`, or how it fails, and the state that it leaves behind in
  either case; `after x s` is this state alone.  `exec_bind` says how parts make up a whole, and
  `onExit` does something on every way out of a part.
* `Meets R Q x` says that wherever `x` starts it ends in a state that `R` relates to the start, and
  that what it returns, if it does, satisfies `Q`.  For a preorder this is a property of the parts:
  a computation moves along `R` when all of its steps do, whether it gets to its end or not.  With
  `R` the relation "the logs are the same" it is a frame rule; with `R` the relation "`I` survives"
  it is an invariant rule.
-/

set_option autoImplicit false

namespace Fallible

variable {ε σ α β : Type}

/-- What a computation returns and the state it leaves behind. -/
def exec (x : ExceptT ε (StateM σ) α) (s : σ) : Except ε α × σ := StateT.run (ExceptT.run x) s

/-- The state that a computation leaves behind, whether it fails or not. -/
def after (x : ExceptT ε (StateM σ) α) (s : σ) : σ := (exec x s).2

theorem after_of_exec {x : ExceptT ε (StateM σ) α} {s t : σ} {r : Except ε α}
    (h : exec x s = (r, t)) : after x s = t := congrArg Prod.snd h

theorem exec_get (s : σ) : exec (get : ExceptT ε (StateM σ) σ) s = (.ok s, s) := rfl

theorem exec_lift (x : Except ε α) (s : σ) :
    exec (liftM x : ExceptT ε (StateM σ) α) s = (x, s) := rfl

theorem exec_bind (x : ExceptT ε (StateM σ) α) (f : α → ExceptT ε (StateM σ) β) (s : σ) :
    exec (x >>= f) s =
      match exec x s with
      | (.ok a, t) => exec (f a) t
      | (.error e, t) => (.error e, t) := by
  change StateT.run (ExceptT.bindCont f (exec x s).1) (exec x s).2 = _
  rcases exec x s with ⟨e | a, t⟩ <;> rfl

/-- The first part returns, and the rest goes on from there. -/
theorem exec_bind_ok {x : ExceptT ε (StateM σ) α} {f : α → ExceptT ε (StateM σ) β} {a : α}
    {s t : σ} (h : exec x s = (.ok a, t)) : exec (x >>= f) s = exec (f a) t := by
  rw [exec_bind, h]

/-- The first part fails, and so does the whole. -/
theorem exec_bind_error {x : ExceptT ε (StateM σ) α} {f : α → ExceptT ε (StateM σ) β} {e : ε}
    {s t : σ} (h : exec x s = (.error e, t)) : exec (x >>= f) s = (.error e, t) := by
  rw [exec_bind, h]

/-- What is lifted returns, and the rest goes on from the same state. -/
theorem exec_lift_bind_ok {x : Except ε α} {f : α → ExceptT ε (StateM σ) β} {a : α}
    (h : x = .ok a) (s : σ) : exec ((liftM x : ExceptT ε (StateM σ) α) >>= f) s = exec (f a) s :=
  exec_bind_ok ((exec_lift x s).trans (by rw [h]))

/-- What is lifted fails, and so does the whole. -/
theorem exec_lift_bind_error {x : Except ε α} {f : α → ExceptT ε (StateM σ) β} {e : ε}
    (h : x = .error e) (s : σ) :
    exec ((liftM x : ExceptT ε (StateM σ) α) >>= f) s = (.error e, s) :=
  exec_bind_error ((exec_lift x s).trans (by rw [h]))

/-- When the whole returns, so do the parts. -/
theorem exists_of_exec_bind {x : ExceptT ε (StateM σ) α} {f : α → ExceptT ε (StateM σ) β} {b : β}
    {s u : σ} (h : exec (x >>= f) s = (.ok b, u)) :
    ∃ a t, exec x s = (.ok a, t) ∧ exec (f a) t = (.ok b, u) := by
  rcases hx : exec x s with ⟨e | a, t⟩
  · rw [exec_bind_error hx] at h
    cases h
  · rw [exec_bind_ok hx] at h
    exact ⟨a, t, rfl, h⟩

/-- When the whole returns, so does what is lifted in it. -/
theorem exists_of_exec_lift_bind {x : Except ε α} {f : α → ExceptT ε (StateM σ) β} {b : β}
    {s u : σ} (h : exec ((liftM x : ExceptT ε (StateM σ) α) >>= f) s = (.ok b, u)) :
    ∃ a, x = .ok a ∧ exec (f a) s = (.ok b, u) := by
  obtain ⟨a, t, hx, hf⟩ := exists_of_exec_bind h
  obtain ⟨rfl, rfl⟩ := Prod.mk.inj hx
  exact ⟨a, rfl, hf⟩

/-- `x`, and then `f` in whatever way `x` is left.  Failing with an error that does not `leave` is
the end of everything, and `f` is not run. -/
def onExit (f : σ → σ) (leaves : ε → Bool) (x : ExceptT ε (StateM σ) α) : ExceptT ε (StateM σ) α :=
  fun s ↦
    match exec x s with
    | (.ok a, t) => (.ok a, f t)
    | (.error e, t) => (.error e, if leaves e then f t else t)

theorem exec_onExit (f : σ → σ) (leaves : ε → Bool) (x : ExceptT ε (StateM σ) α) (s : σ) :
    exec (onExit f leaves x) s =
      match exec x s with
      | (.ok a, t) => (.ok a, f t)
      | (.error e, t) => (.error e, if leaves e then f t else t) := rfl

/-! ## Moving along a preorder -/

/-- Wherever `x` starts, it ends in a state that `R` relates to the start, and what it returns
satisfies `Q`. -/
def Meets (R : σ → σ → Prop) (Q : α → Prop) (x : ExceptT ε (StateM σ) α) : Prop :=
  ∀ s, R s (after x s) ∧ ∀ a t, exec x s = (.ok a, t) → Q a

variable {R : σ → σ → Prop} {P : α → Prop} {Q : β → Prop}

section Refl

variable [Std.Refl R]

theorem meets_pure {a : α} (h : P a) : Meets R P (pure a : ExceptT ε (StateM σ) α) := by
  refine fun s ↦ ⟨refl_of R s, fun b t hb ↦ ?_⟩
  cases hb
  exact h

theorem meets_get : Meets R (fun _ ↦ True) (get : ExceptT ε (StateM σ) σ) :=
  fun s ↦ ⟨refl_of R s, fun _ _ _ ↦ trivial⟩

theorem meets_throw (e : ε) : Meets R P (throw e : ExceptT ε (StateM σ) α) := by
  refine fun s ↦ ⟨refl_of R s, fun b t hb ↦ ?_⟩
  cases hb

end Refl

theorem meets_modify {f : σ → σ} (h : ∀ s, R s (f s)) :
    Meets R (fun _ ↦ True) (modify f : ExceptT ε (StateM σ) PUnit) :=
  fun s ↦ ⟨h s, fun _ _ _ ↦ trivial⟩

theorem Meets.mono {S : σ → σ → Prop} {x : ExceptT ε (StateM σ) α} (h : Meets R P x)
    (hRS : ∀ s t, R s t → S s t) : Meets S P x :=
  fun s ↦ ⟨hRS _ _ (h s).1, (h s).2⟩

/-- **The rule for one part after the other**, from a given state. -/
theorem after_bind [IsTrans σ R] {x : ExceptT ε (StateM σ) α} {f : α → ExceptT ε (StateM σ) β}
    {s : σ} (hx : R s (after x s)) (hf : ∀ a t, exec x s = (.ok a, t) → R t (after (f a) t)) :
    R s (after (x >>= f) s) := by
  rcases h : exec x s with ⟨e | a, t⟩
  · rw [after, exec_bind_error h]
    rwa [after, h] at hx
  · rw [after, exec_bind_ok h]
    rw [after, h] at hx
    exact trans_of R hx (hf a t h)

/-- **The rule for one part after the other**, from everywhere. -/
theorem Meets.bind [IsTrans σ R] {x : ExceptT ε (StateM σ) α}
    {f : α → ExceptT ε (StateM σ) β} (hx : Meets R P x) (hf : ∀ a, P a → Meets R Q (f a)) :
    Meets R Q (x >>= f) := by
  intro s
  refine ⟨after_bind (hx s).1 fun a t h ↦ (hf a ((hx s).2 a t h) t).1, fun b u hb ↦ ?_⟩
  rcases h : exec x s with ⟨e | a, t⟩
  · rw [exec_bind_error h] at hb
    cases hb
  · rw [exec_bind_ok h] at hb
    exact (hf a ((hx s).2 a t h) t).2 b u hb

/-- What is lifted leaves the state alone. -/
theorem meets_lift_bind [Std.Refl R] [IsTrans σ R] {x : Except ε α}
    {f : α → ExceptT ε (StateM σ) β} (h : ∀ a, x = .ok a → Meets R Q (f a)) :
    Meets R Q ((liftM x : ExceptT ε (StateM σ) α) >>= f) := by
  refine Meets.bind (P := fun a ↦ x = .ok a) (fun s ↦ ⟨refl_of R s, fun a t ha ↦ ?_⟩) h
  exact congrArg Prod.fst ha

/-! ## Moving along a preorder that keeps an invariant -/

/-- `R` relates the states, and `I` survives. -/
def Keeping (R : σ → σ → Prop) (I : σ → Prop) (s t : σ) : Prop := R s t ∧ (I s → I t)

instance {I : σ → Prop} [Std.Refl R] : Std.Refl (Keeping R I) := ⟨fun s ↦ ⟨refl_of R s, id⟩⟩

instance {I : σ → Prop} [IsTrans σ R] : IsTrans σ (Keeping R I) :=
  ⟨fun _ _ _ h h' ↦ ⟨trans_of R h.1 h'.1, h'.2 ∘ h.2⟩⟩

end Fallible
