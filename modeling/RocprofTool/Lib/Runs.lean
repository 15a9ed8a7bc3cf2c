import Mathlib.Data.List.Basic
import Mathlib.Data.List.Infix

/-!
# Runs of a partial step function

A system is given by a step function `step : σ → α → Option σ`: from a state, an action either is
not enabled (`none`) or leads to exactly one next state.  Nondeterminism is in the choice of the
actions, so a statement about *every* interleaving is a statement about every list of actions.

* `Runs.run` executes a list of actions; `run_concat` exposes the last step, which is where every
  induction over a run takes hold.
* `run_invariant` is the rule for a property of states, `run_induction` the one for a property
  that also sees the actions taken so far.
* `add_length_of_run` bounds the length of a run by a measure.
* `Everywhere P` says that `P` holds in every state a run goes through, `Along C` that every step
  of it is taken under the condition `C`, a relation between the state *before* the step and the
  action.  `along_invariant` is the invariant rule for the runs whose steps all meet `C`.
* `everywhere_iff_along` turns a statement about single steps — "`P` survives the step exactly
  when the step meets `C`" — into the same statement about runs.  It is a case of
  `everywhere_iff_along_of_invariant`, whose invariant need not survive the other steps.
-/

set_option autoImplicit false

namespace Runs

universe u v

variable {σ : Type u} {α : Type v} {step : σ → α → Option σ} {s₀ : σ}

/-- The state in which the actions end when they are taken one after the other, or `none` when
one of them is not enabled. -/
def run (step : σ → α → Option σ) : σ → List α → Option σ
  | s, [] => some s
  | s, a :: acts => (step s a).bind fun s' ↦ run step s' acts

@[simp] theorem run_nil (s : σ) : run step s [] = some s := rfl

@[simp] theorem run_cons (s : σ) (a : α) (acts : List α) :
    run step s (a :: acts) = (step s a).bind fun s' ↦ run step s' acts := rfl

theorem run_append (s : σ) (xs ys : List α) :
    run step s (xs ++ ys) = (run step s xs).bind fun s' ↦ run step s' ys := by
  induction xs generalizing s with
  | nil => rfl
  | cons a xs ih =>
    rw [List.cons_append, run_cons, run_cons, Option.bind_assoc]
    exact congrArg _ (funext fun s' ↦ ih s')

/-- **The last step of a run.** -/
theorem run_concat {s t : σ} {xs : List α} {a : α} :
    run step s (xs ++ [a]) = some t ↔ ∃ s', run step s xs = some s' ∧ step s' a = some t := by
  rw [run_append, Option.bind_eq_some_iff]
  simp

/-- A run that gets to its end gets to the end of each of its prefixes. -/
theorem exists_run_of_prefix {s t : σ} {xs acts : List α} (hpre : xs <+: acts)
    (h : run step s acts = some t) : ∃ s', run step s xs = some s' := by
  obtain ⟨ys, rfl⟩ := hpre
  rw [run_append, Option.bind_eq_some_iff] at h
  obtain ⟨s', hs', -⟩ := h
  exact ⟨s', hs'⟩

/-- **Induction over a run**, for a property of the actions taken so far and of the state they
lead to. -/
theorem run_induction {P : List α → σ → Prop} (h0 : P [] s₀)
    (hstep : ∀ xs s a t, run step s₀ xs = some s → P xs s → step s a = some t → P (xs ++ [a]) t)
    {acts : List α} {t : σ} (h : run step s₀ acts = some t) : P acts t := by
  induction acts using List.reverseRecOn generalizing t with
  | nil => cases h; exact h0
  | append_singleton xs a ih =>
    obtain ⟨s, hs, ha⟩ := run_concat.mp h
    exact hstep xs s a t hs (ih hs) ha

/-- **The invariant rule**: what holds at the start and is preserved by every step holds at the
end of every run. -/
theorem run_invariant {I : σ → Prop} (h0 : I s₀)
    (hstep : ∀ s a t, I s → step s a = some t → I t)
    {acts : List α} {t : σ} (h : run step s₀ acts = some t) : I t :=
  run_induction h0 (fun _ s a t _ hs ha ↦ hstep s a t hs ha) h

/-- **The counting rule**: when every step takes one from a measure, a run takes its length from it.
-/
theorem add_length_of_run {I : σ → Prop} {P : α → Prop} {μ : σ → ℕ}
    (hI : ∀ s a t, I s → step s a = some t → I t)
    (hμ : ∀ s a t, I s → P a → step s a = some t → μ t + 1 = μ s) {acts : List α} {s t : σ}
    (hs : I s) (hacts : ∀ a ∈ acts, P a) (h : run step s acts = some t) :
    μ t + acts.length = μ s := by
  induction acts generalizing s with
  | nil =>
    cases h
    rfl
  | cons a acts ih =>
    obtain ⟨u, hu, h⟩ := Option.bind_eq_some_iff.mp h
    rw [List.forall_mem_cons] at hacts
    have hrest := ih (hI s a u hs hu) hacts.2 h
    have hfirst := hμ s a u hs hacts.1 hu
    rw [List.length_cons]
    omega

/-- **The bounding rule**: a measure that every step makes smaller bounds the length of a run. -/
theorem length_le_of_run {I : σ → Prop} {P : α → Prop} {μ : σ → ℕ}
    (hstep : ∀ s a t, I s → P a → step s a = some t → I t ∧ μ t < μ s) {acts : List α} {s t : σ}
    (hs : I s) (hacts : ∀ a ∈ acts, P a) (h : run step s acts = some t) :
    acts.length ≤ μ s := by
  induction acts generalizing s with
  | nil => exact Nat.zero_le _
  | cons a acts ih =>
    obtain ⟨u, hu, h⟩ := Option.bind_eq_some_iff.mp h
    rw [List.forall_mem_cons] at hacts
    obtain ⟨hIu, hlt⟩ := hstep s a u hs hacts.1 hu
    exact (ih hIu hacts.2 h).trans_lt hlt

/-- **The simulation rule**: two systems whose steps, from related states, either are not enabled in
both of them or lead to related states do the same over whole runs. -/
theorem run_rel {σ' : Type u} {step' : σ' → α → Option σ'} {R : σ → σ' → Prop}
    (hstep : ∀ s s' a, R s s' → Option.Rel R (step s a) (step' s' a)) {s : σ} {s' : σ'}
    (h : R s s') (acts : List α) : Option.Rel R (run step s acts) (run step' s' acts) := by
  induction acts generalizing s s' with
  | nil => exact .some h
  | cons a acts ih =>
    rw [run_cons, run_cons]
    have hrel := hstep s s' a h
    generalize step s a = next, step' s' a = next' at hrel
    rcases hrel with ht | _
    · exact ih ht
    · exact .none

/-- Two such systems get to the end of the same runs. -/
theorem isSome_run_eq {σ' : Type u} {step' : σ' → α → Option σ'} {R : σ → σ' → Prop}
    (hstep : ∀ s s' a, R s s' → Option.Rel R (step s a) (step' s' a)) {s : σ} {s' : σ'}
    (h : R s s') (acts : List α) : (run step s acts).isSome = (run step' s' acts).isSome := by
  have hrel := run_rel hstep h acts
  generalize run step s acts = last, run step' s' acts = last' at hrel
  rcases hrel with _ | _ <;> rfl

/-- **The simulation rule for a finer system**: when each step of the one system, taken from related
states, is a run of the other one to related states, so is each of its runs. -/
theorem exists_run_of_simulation {σ' : Type u} {α' : Type v} {step' : σ' → α' → Option σ'}
    {R : σ → σ' → Prop} {P : α → Prop}
    (hstep : ∀ s s' a t, P a → R s s' → step s a = some t →
      ∃ acts' t', run step' s' acts' = some t' ∧ R t t')
    {s t : σ} {s' : σ'} {acts : List α} (hacts : ∀ a ∈ acts, P a) (h : R s s')
    (ht : run step s acts = some t) : ∃ acts' t', run step' s' acts' = some t' ∧ R t t' := by
  induction acts generalizing s s' with
  | nil =>
    cases ht
    exact ⟨[], s', rfl, h⟩
  | cons a acts ih =>
    obtain ⟨u, hu, ht⟩ := Option.bind_eq_some_iff.mp ht
    rw [List.forall_mem_cons] at hacts
    obtain ⟨pre, u', hu', hrel⟩ := hstep s s' a u hacts.1 h hu
    obtain ⟨post, t', ht', hrel'⟩ := ih hacts.2 hrel ht
    refine ⟨pre ++ post, t', ?_, hrel'⟩
    rw [run_append, hu', Option.bind_some, ht']

/-- A loop over a list that can stop is a run. -/
theorem foldlM_eq_run (s : σ) (acts : List α) : acts.foldlM step s = run step s acts := by
  induction acts generalizing s with
  | nil => rfl
  | cons a acts ih =>
    rw [List.foldlM_cons, run_cons]
    exact congrArg _ (funext ih)

/-! ## Properties of all the states and of all the steps of a run -/

/-- `P` holds in every state the run goes through, its first and its last one included. -/
def Everywhere (step : σ → α → Option σ) (s₀ : σ) (P : σ → Prop) (acts : List α) : Prop :=
  ∀ xs t, xs <+: acts → run step s₀ xs = some t → P t

/-- Every step of the run meets `C`, a condition on the state before it and on its action. -/
def Along (step : σ → α → Option σ) (s₀ : σ) (C : σ → α → Prop) (acts : List α) : Prop :=
  ∀ xs a s, xs ++ [a] <+: acts → run step s₀ xs = some s → C s a

theorem along_nil {C : σ → α → Prop} : Along step s₀ C [] := by
  intro xs a s hpre
  simp at hpre

/-- A run is along `C` when its first step is and, if that leads anywhere, the rest of it is. -/
theorem Along.cons_of {C : σ → α → Prop} {a : α} {acts : List α} (hC : C s₀ a)
    (h : ∀ s, step s₀ a = some s → Along step s C acts) : Along step s₀ C (a :: acts) := by
  intro xs b t hpre ht
  cases xs with
  | nil =>
    cases ht
    rw [List.nil_append, List.cons_prefix_cons] at hpre
    exact hpre.1 ▸ hC
  | cons x xs =>
    rw [List.cons_append, List.cons_prefix_cons] at hpre
    rw [hpre.1, run_cons, Option.bind_eq_some_iff] at ht
    obtain ⟨s, hs, ht⟩ := ht
    exact h s hs xs b t hpre.2 ht

/-- A run is along `C` when its first step is and the rest of it is. -/
theorem Along.cons {C : σ → α → Prop} {s : σ} {a : α} {acts : List α} (hC : C s₀ a)
    (ha : step s₀ a = some s) (h : Along step s C acts) : Along step s₀ C (a :: acts) := by
  refine .cons_of hC fun t ht ↦ ?_
  rw [ha, Option.some.injEq] at ht
  exact ht ▸ h

/-- The last step of a run need not lead anywhere. -/
theorem along_singleton {C : σ → α → Prop} {a : α} (hC : C s₀ a) : Along step s₀ C [a] :=
  .cons_of hC fun _ _ ↦ along_nil

/-- A run is along `C` when all of it but the last step is, and the last step is. -/
theorem Along.concat {C : σ → α → Prop} {a : α} {acts : List α} (h : Along step s₀ C acts)
    (ha : ∀ s, run step s₀ acts = some s → C s a) : Along step s₀ C (acts ++ [a]) := by
  intro xs b s hpre hs
  rcases List.prefix_concat_iff.mp hpre with heq | hpre
  · obtain ⟨rfl, rfl⟩ := List.append_inj' heq rfl |>.imp id List.singleton_inj.mp
    exact ha s hs
  · exact h xs b s hpre hs

/-- A condition on the actions alone is checked in the list of them. -/
theorem along_of_forall_mem {C : α → Prop} {acts : List α} (h : ∀ a ∈ acts, C a) :
    Along step s₀ (fun _ a ↦ C a) acts :=
  fun xs a _ hpre _ ↦ h a (hpre.subset (List.mem_append_right xs List.mem_cons_self))

/-- Is every step of the run taken under the condition? -/
def checkAlong (step : σ → α → Option σ) (c : σ → α → Bool) : σ → List α → Bool
  | _, [] => true
  | s, a :: acts => c s a && (step s a).all fun t ↦ checkAlong step c t acts

/-- A condition that can be computed is checked along a run by running it. -/
theorem along_of_checkAlong {c : σ → α → Bool} {acts : List α}
    (h : checkAlong step c s₀ acts = true) : Along step s₀ (fun s a ↦ c s a = true) acts := by
  induction acts generalizing s₀ with
  | nil => exact along_nil
  | cons a acts ih =>
    rw [checkAlong, Bool.and_eq_true, Option.all_eq_true] at h
    exact .cons_of h.1 fun s hs ↦ ih (h.2 s hs)

/-- **The invariant rule under a condition on the steps.** -/
theorem along_invariant {I : σ → Prop} {C : σ → α → Prop} (h0 : I s₀)
    (hstep : ∀ s a t, I s → C s a → step s a = some t → I t)
    {acts : List α} (hC : Along step s₀ C acts) : Everywhere step s₀ I acts := by
  intro xs t hpre h
  induction xs using List.reverseRecOn generalizing t with
  | nil => cases h; exact h0
  | append_singleton xs a ih =>
    obtain ⟨s, hs, ha⟩ := run_concat.mp h
    have hpre' : xs <+: acts := (List.prefix_append xs [a]).trans hpre
    exact hstep s a t (ih s hpre' hs) (hC xs a s hpre hs) ha

/-- **From steps to runs.**  Suppose that the invariant `J`, which implies `P`, survives every step
that meets `C`, and that a step from a state with `J` meets `C` when it leads to a state with `P`.
Then `P` holds throughout a run exactly when all of its steps meet `C`. -/
theorem everywhere_iff_along_of_invariant {J P : σ → Prop} {C : σ → α → Prop} (h0 : J s₀)
    (hstep : ∀ s a t, J s → C s a → step s a = some t → J t) (hP : ∀ s, J s → P s)
    (hC : ∀ s a t, J s → step s a = some t → P t → C s a)
    {acts : List α} {s : σ} (h : run step s₀ acts = some s) :
    Everywhere step s₀ P acts ↔ Along step s₀ C acts := by
  constructor
  · intro hE
    have hJ : ∀ xs t, xs <+: acts → run step s₀ xs = some t → J t := by
      intro xs t hpre ht
      induction xs using List.reverseRecOn generalizing t with
      | nil => cases ht; exact h0
      | append_singleton xs a ih =>
        obtain ⟨s', hs', ha⟩ := run_concat.mp ht
        have hJs := ih s' ((List.prefix_append xs [a]).trans hpre) hs'
        exact hstep s' a t hJs (hC s' a t hJs ha (hE _ t hpre ht)) ha
    intro xs a s' hpre hs'
    have hxs : xs <+: acts := (List.prefix_append xs [a]).trans hpre
    obtain ⟨t, ht⟩ := exists_run_of_prefix hpre h
    obtain ⟨s'', hs'', ha⟩ := run_concat.mp ht
    rw [hs'] at hs''
    cases hs''
    exact hC s' a t (hJ xs s' hxs hs') ha (hE _ t hpre ht)
  · exact fun hA xs t hpre ht ↦ hP t (along_invariant h0 hstep hA xs t hpre ht)

/-- The same with an invariant `I` of all the steps: from the states that it describes, a step from
a state with `P` leads to a state with `P` exactly when it meets `C`. -/
theorem everywhere_iff_along {I P : σ → Prop} {C : σ → α → Prop} (hI0 : I s₀)
    (hI : ∀ s a t, I s → step s a = some t → I t) (hP0 : P s₀)
    (hP : ∀ s a t, I s → P s → step s a = some t → (P t ↔ C s a))
    {acts : List α} {s : σ} (h : run step s₀ acts = some s) :
    Everywhere step s₀ P acts ↔ Along step s₀ C acts :=
  everywhere_iff_along_of_invariant (J := fun s ↦ I s ∧ P s) ⟨hI0, hP0⟩
    (fun s a t ⟨hIs, hPs⟩ hCs ha ↦ ⟨hI s a t hIs ha, (hP s a t hIs hPs ha).mpr hCs⟩)
    (fun _ hs ↦ hs.2) (fun s a t ⟨hIs, hPs⟩ ha ↦ (hP s a t hIs hPs ha).mp) h

end Runs
