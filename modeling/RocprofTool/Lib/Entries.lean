import Mathlib.Algebra.GroupWithZero.Nat
import Mathlib.Data.List.Basic

/-!
# Lists with entries that change

A list of components, numbered by their places, grows at its end and has single entries replaced.

* `Each R xs ys`: all the entries of `xs` are still there in `ys`, and have changed as `R` says.  It
  is kept by what a step does to a list (`Each.set`, `Each.append`) and by one step after the other
  (`Each.trans`).
* `sum_map_set`: a replaced entry changes a sum over the entries by the difference.
-/

set_option autoImplicit false

namespace Entries

variable {α : Type*} {xs ys zs : List α} {R : α → α → Prop} {i : ℕ} {x y : α}

/-- All entries are still there, and have changed in this way. -/
def Each (R : α → α → Prop) (xs ys : List α) : Prop :=
  ∀ (i : ℕ) (x : α), xs[i]? = some x → ∃ y, ys[i]? = some y ∧ R x y

theorem Each.refl (hR : ∀ x, R x x) : Each R xs xs := fun _ x hx ↦ ⟨x, hx, hR x⟩

theorem Each.trans (hR : ∀ x y z, R x y → R y z → R x z) (h : Each R xs ys) (h' : Each R ys zs) :
    Each R xs zs := by
  intro i x hx
  obtain ⟨y, hy, hxy⟩ := h i x hx
  obtain ⟨z, hz, hyz⟩ := h' i y hy
  exact ⟨z, hz, hR x y z hxy hyz⟩

theorem Each.append (hR : ∀ x, R x x) : Each R xs (xs ++ ys) := by
  intro i x hx
  exact ⟨x, by rw [List.getElem?_append_left (List.getElem?_eq_some_iff.mp hx).1, hx], hR x⟩

theorem getElem?_set_some (hx : xs[i]? = some x) (j : ℕ) :
    (xs.set i y)[j]? = if i = j then some y else xs[j]? := by
  have hlt := (List.getElem?_eq_some_iff.mp hx).1
  by_cases hij : i = j
  · subst hij
    rw [if_pos rfl, List.getElem?_set_self hlt]
  · rw [if_neg hij, List.getElem?_set_ne hij]

theorem Each.set (hR : ∀ x, R x x) (hx : xs[i]? = some x) (hxy : R x y) :
    Each R xs (xs.set i y) := by
  intro j z hz
  rw [getElem?_set_some hx]
  by_cases hij : i = j
  · subst hij
    obtain rfl := Option.some.inj (hx.symm.trans hz)
    exact ⟨y, if_pos rfl, hxy⟩
  · exact ⟨z, by rw [if_neg hij, hz], hR z⟩

theorem sum_map_set (f : α → ℕ) (hx : xs[i]? = some x) :
    ((xs.set i y).map f).sum + f x = (xs.map f).sum + f y := by
  induction xs generalizing i with
  | nil => cases hx
  | cons z xs ih =>
    cases i with
    | zero =>
      obtain rfl := Option.some.inj hx
      simp only [List.set_cons_zero, List.map_cons, List.sum_cons]
      omega
    | succ i =>
      have hrest := ih hx
      simp only [List.set_cons_succ, List.map_cons, List.sum_cons]
      omega

end Entries
