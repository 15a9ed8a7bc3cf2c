import Mathlib.Algebra.Group.Int.Defs
import Mathlib.Algebra.Group.Nat.Defs
import Mathlib.Data.List.TakeWhile
import Mathlib.Order.Basic

/-!
# Writing strings into memory

A memory says, for each place, which character has been written there, if any has: what `malloc`
returns is `fresh`, and to read it before it is written is an error.  The places are counted from
the start of one block, so that the block has the places from zero to its size, and a write that
starts before it, or runs past its end, is one at any other place.

`snprintf` stores at most `size` characters, the last of them a null, and returns the length of the
whole text, or a negative number when that is not an `int`.  `Holds` is the assertion that a list of
characters is at a place, with the usual rules: it holds after they have been stored there
(`holds_store`), and it survives a store elsewhere (`Holds.store`).

`load` and `strlen` read.  What they find follows from what the memory holds (`load_eq_some_iff`,
`strlen_eq`).
-/

set_option autoImplicit false

namespace CMemory

/-- The characters that have been written. -/
abbrev Memory := ℤ → Option Char

/-- What `malloc` returns. -/
def fresh : Memory := fun _ ↦ none

/-- The end of a string. -/
def nul : Char := '\x00'

/-- The memory after some characters have been written from a place on. -/
def store (mem : Memory) (place : ℤ) (chars : List Char) : Memory := fun i ↦
  if place ≤ i ∧ i < place + chars.length then chars[(i - place).toNat]? else mem i

/-- The characters are in the memory from a place on. -/
def Holds (mem : Memory) (place : ℤ) (chars : List Char) : Prop :=
  ∀ (k : ℕ) (c : Char), chars[k]? = some c → mem (place + k) = some c

/-! ## Storing -/

variable {mem : Memory} {place place' : ℤ} {chars chars' : List Char}

/-- **A store.** -/
theorem holds_store : Holds (store mem place chars) place chars := by
  intro k c hk
  obtain ⟨hlt, -⟩ := List.getElem?_eq_some_iff.mp hk
  rw [store, if_pos (by omega), show (place + k - place).toNat = k by omega, hk]

/-- **The frame rule**: a store elsewhere. -/
theorem Holds.store (h : Holds mem place chars)
    (hdisjoint : place + chars.length ≤ place' ∨ place' + chars'.length ≤ place) :
    Holds (CMemory.store mem place' chars') place chars := by
  intro k c hk
  obtain ⟨hlt, -⟩ := List.getElem?_eq_some_iff.mp hk
  rw [CMemory.store, if_neg (by omega)]
  exact h k c hk

/-- What is behind each other in the memory is one text. -/
theorem Holds.append (h : Holds mem place chars) (h' : Holds mem (place + chars.length) chars') :
    Holds mem place (chars ++ chars') := by
  intro k c hk
  by_cases hlt : k < chars.length
  · rw [List.getElem?_append_left hlt] at hk
    exact h k c hk
  · rw [List.getElem?_append_right (Nat.not_lt.mp hlt)] at hk
    have hplace : place + k = place + chars.length + (k - chars.length : ℕ) := by omega
    rw [hplace]
    exact h' _ c hk

/-- A part of what is in the memory. -/
theorem Holds.of_initial (h : Holds mem place chars) (hhead : chars' <+: chars) :
    Holds mem place chars' := by
  intro k c hk
  obtain ⟨rest, rfl⟩ := hhead
  obtain ⟨hlt, -⟩ := List.getElem?_eq_some_iff.mp hk
  exact h k c (by rw [List.getElem?_append_left hlt, hk])

/-- A store writes where it stores. -/
theorem of_isSome_store {i : ℤ} (h : (store mem place chars i).isSome = true) :
    place ≤ i ∧ i < place + chars.length ∨ (mem i).isSome = true := by
  rw [store] at h
  by_cases hin : place ≤ i ∧ i < place + chars.length
  · exact .inl hin
  · rw [if_neg hin] at h
    exact .inr h

/-! ## Reading -/

/-- The characters from a place on, if all of them have been written. -/
def load (mem : Memory) (place : ℤ) : ℕ → Option (List Char)
  | 0 => some []
  | n + 1 => (mem place).bind fun c ↦ (load mem (place + 1) n).map (c :: ·)

/-- `strlen`, in a block with this much room from the place on.  A null has to be found there, and
before anything that has not been written. -/
def strlen (mem : Memory) (place : ℤ) : ℕ → Option ℕ
  | 0 => none
  | room + 1 => (mem place).bind fun c ↦
    if c = nul then some 0 else (strlen mem (place + 1) room).map (· + 1)

theorem holds_cons {c : Char} :
    Holds mem place (c :: chars) ↔ mem place = some c ∧ Holds mem (place + 1) chars := by
  constructor
  · intro h
    refine ⟨by simpa using h 0 c rfl, fun k d hk ↦ ?_⟩
    rw [show place + 1 + k = place + (k + 1 : ℕ) by omega]
    exact h (k + 1) d hk
  · rintro ⟨hc, h⟩ k d hk
    cases k with
    | zero =>
      obtain rfl : c = d := by simpa using hk
      simpa using hc
    | succ k =>
      rw [show place + (k + 1 : ℕ) = place + 1 + k by omega]
      exact h k d hk

/-- **What is read is what the memory holds.** -/
theorem load_eq_some_iff {n : ℕ} :
    load mem place n = some chars ↔ chars.length = n ∧ Holds mem place chars := by
  induction n generalizing place chars with
  | zero =>
    rw [load, Option.some.injEq, List.length_eq_zero_iff, eq_comm, iff_self_and]
    rintro rfl k c hk
    cases hk
  | succ n ih =>
    cases chars with
    | nil => simp [load, Option.bind_eq_some_iff]
    | cons c chars =>
      rw [List.length_cons, Nat.add_right_cancel_iff, holds_cons, and_left_comm, ← ih]
      simp [load, Option.bind_eq_some_iff]

/-- What is read from where something has been stored in fresh memory. -/
theorem load_store_fresh (n : ℕ) :
    load (store fresh place chars) place n
      = if n ≤ chars.length then some (chars.take n) else none := by
  split_ifs with h
  · exact load_eq_some_iff.mpr
      ⟨List.length_take_of_le h, holds_store.of_initial (List.take_prefix _ _)⟩
  · refine Option.eq_none_iff_forall_not_mem.mpr fun read hread ↦ ?_
    -- the place behind what has been stored
    obtain ⟨hlength, hholds⟩ := load_eq_some_iff.mp hread
    have hend := hholds chars.length read[chars.length] (List.getElem?_eq_getElem (by omega))
    rw [store, if_neg (by omega)] at hend
    cases hend

/-- **The length of a string** is that of the characters before the null. -/
theorem strlen_eq {room : ℕ} (h : Holds mem place (chars ++ [nul])) (hnul : nul ∉ chars)
    (hroom : chars.length < room) : strlen mem place room = some chars.length := by
  induction chars generalizing place room with
  | nil =>
    obtain ⟨room, rfl⟩ := Nat.exists_eq_succ_of_ne_zero (Nat.ne_of_gt hroom)
    rw [strlen, (holds_cons.mp h).1]
    rfl
  | cons c chars ih =>
    obtain ⟨room, rfl⟩ := Nat.exists_eq_succ_of_ne_zero (Nat.ne_of_gt (Nat.zero_lt_of_lt hroom))
    obtain ⟨hc, hrest⟩ := holds_cons.mp h
    obtain ⟨hne, hnul⟩ := not_or.mp (mt List.mem_cons.mpr hnul)
    rw [strlen, hc, Option.bind_some, if_neg (Ne.symm hne),
      ih hrest hnul (Nat.lt_of_succ_lt_succ hroom)]
    rfl

/-! ## `snprintf` -/

/-- What `%s` prints of a string that is given by its characters and a null at the end: it stops at
the first null. -/
def cString (chars : List Char) : List Char := chars.takeWhile (· ≠ nul)

/-- What is stored of a text. -/
def truncated (size : ℕ) (text : List Char) : List Char :=
  if size = 0 then [] else text.take (size - 1) ++ [nul]

/-- An integer as a `size_t`. -/
def sizeT (n : ℤ) : ℕ := (n % 2 ^ 64).toNat

/-- The largest `int`. -/
def intMax : ℕ := 2 ^ 31 - 1

/-- `snprintf` of a text: the memory, and what is returned. -/
def snprintf (mem : Memory) (place : ℤ) (size : ℕ) (text : List Char) : Memory × ℤ :=
  (store mem place (truncated size text), if text.length ≤ intMax then text.length else -1)

theorem truncated_zero (text : List Char) : truncated 0 text = [] := if_pos rfl

theorem truncated_of_pos {size : ℕ} (h : 0 < size) (text : List Char) :
    truncated size text = text.take (size - 1) ++ [nul] := if_neg (Nat.ne_of_gt h)

/-- **The bound of a call.** -/
theorem length_truncated_le (size : ℕ) (text : List Char) :
    (truncated size text).length ≤ size := by
  rcases Nat.eq_zero_or_pos size with rfl | hpos
  · rw [truncated_zero]
    exact Nat.le_refl 0
  · rw [truncated_of_pos hpos, List.length_append, List.length_take, List.length_singleton]
    omega

theorem nul_notMem_cString (chars : List Char) : nul ∉ cString chars := by
  intro h
  simpa using List.mem_takeWhile_imp h

theorem cString_eq_self_iff (chars : List Char) : cString chars = chars ↔ nul ∉ chars := by
  rw [cString, List.takeWhile_eq_self_iff]
  simp only [decide_eq_true_eq]
  exact ⟨fun h hnul ↦ h nul hnul rfl, fun h c hc heq ↦ h (heq ▸ hc)⟩

theorem sizeT_natCast {n : ℕ} (h : n < 2 ^ 64) : sizeT n = n := by
  rw [sizeT]
  omega

/-- A negative number is a large size. -/
theorem le_sizeT_of_neg {n : ℤ} (h : n < 0) (h' : -2 ^ 63 ≤ n) : 2 ^ 63 ≤ sizeT n := by
  rw [sizeT]
  omega

end CMemory
