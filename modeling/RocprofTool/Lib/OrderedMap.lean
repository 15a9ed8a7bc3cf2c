import Mathlib.Tactic.Common

/-!
# Ordered maps

`std::map` is `Std.TreeMap`, whose lookups are stated there with `compare`.  For keys that are
equal when they compare so, these are the lookups with `=`: what is found in a map with a key
written, or erased, and that the other keys are not touched.  Maps that have the same keys list them
in the same order.
-/

set_option autoImplicit false

universe u v w

namespace OrderedMap

variable {κ : Type u} {υ : Type v} [Ord κ] [Std.TransOrd κ] [Std.LawfulEqOrd κ]
  {m : Std.TreeMap κ υ} {k k' : κ} {x y : υ}

theorem getElem?_insert_of_ne (m : Std.TreeMap κ υ) (x : υ) (h : k' ≠ k) :
    (m.insert k x)[k']? = m[k']? := by
  rw [Std.TreeMap.getElem?_insert, if_neg]
  exact fun heq ↦ h (Std.LawfulEqOrd.eq_of_compare heq).symm

theorem getElem?_erase_of_ne (m : Std.TreeMap κ υ) (h : k' ≠ k) : (m.erase k)[k']? = m[k']? := by
  rw [Std.TreeMap.getElem?_erase, if_neg]
  exact fun heq ↦ h (Std.LawfulEqOrd.eq_of_compare heq).symm

/-- What is found was written, or has been there before. -/
theorem of_getElem?_insert (h : (m.insert k x)[k']? = some y) :
    k' = k ∧ y = x ∨ k' ≠ k ∧ m[k']? = some y := by
  by_cases heq : k' = k
  · subst heq
    rw [Std.TreeMap.getElem?_insert_self] at h
    exact .inl ⟨rfl, (Option.some.inj h).symm⟩
  · rw [getElem?_insert_of_ne m x heq] at h
    exact .inr ⟨heq, h⟩

theorem of_getElem?_erase (h : (m.erase k)[k']? = some y) : k' ≠ k ∧ m[k']? = some y := by
  by_cases heq : k' = k
  · subst heq
    simp at h
  · exact ⟨heq, getElem?_erase_of_ne m heq ▸ h⟩

theorem keys_eq {υ' : Type w} {m' : Std.TreeMap κ υ'} (h : ∀ k : κ, m[k]?.isSome = m'[k]?.isSome) :
    m.keys = m'.keys := by
  have hmem : ∀ k, k ∈ m.keys ↔ k ∈ m'.keys := by
    intro k
    rw [Std.TreeMap.mem_keys, Std.TreeMap.mem_keys, ← Std.TreeMap.isSome_getElem?_iff_mem,
      ← Std.TreeMap.isSome_getElem?_iff_mem, h]
  have hperm : m.keys.Perm m'.keys :=
    (List.perm_ext_iff_of_nodup Std.TreeMap.nodup_keys Std.TreeMap.nodup_keys).mpr hmem
  refine hperm.eq_of_pairwise (fun a b _ _ hab hba ↦ ?_) Std.TreeMap.ordered_keys
    Std.TreeMap.ordered_keys
  rw [Std.OrientedCmp.gt_of_lt hab] at hba
  cases hba

end OrderedMap
