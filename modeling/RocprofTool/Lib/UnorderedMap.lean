import Mathlib.Logic.Function.Basic

/-!
# Unordered maps

`std::unordered_map` as code sees it that looks keys up and inserts them but never depends on an
iteration order: a partial function.  Lookup is application, so `m k` is both `find` and `at`, with
`none` for a missing key.  `UMap.assign` writes a key whatever it held before, `UMap.emplace` only
writes a key that is free, and says whether it did.
-/

set_option autoImplicit false

universe u v

/-- A map from keys to values, without an order. -/
abbrev UMap (κ : Type u) (υ : Type v) := κ → Option υ

namespace UMap

variable {κ : Type u} {υ : Type v}

/-- The map without keys. -/
def empty : UMap κ υ := fun _ ↦ none

variable [DecidableEq κ]

/-- `m[k] = v`. -/
def assign (m : UMap κ υ) (k : κ) (v : υ) : UMap κ υ := Function.update m k (some v)

@[simp] theorem assign_self (m : UMap κ υ) (k : κ) (v : υ) : m.assign k v k = some v := by
  simp [assign]

theorem assign_of_ne (m : UMap κ υ) {k k' : κ} (v : υ) (h : k' ≠ k) : m.assign k v k' = m k' := by
  simp [assign, h]

/-- `m.emplace(k, v)`: the first value given to a key stays. -/
def emplace (m : UMap κ υ) (k : κ) (v : υ) : UMap κ υ × Bool :=
  if (m k).isSome then (m, false) else (m.assign k v, true)

end UMap
