import Mathlib.Algebra.Group.Int.Defs
import Mathlib.Algebra.Group.Nat.Defs
import Mathlib.Data.List.TakeWhile

/-!
# C strings

The strings of C as lists of characters, one for each byte, without the terminating null.

`CString.tokens` is what it means to split a string at delimiters, and `CString.strtok` is the
function of the C library that does it one token at a time, with the rest of the string saved
between the calls.  `tokens_eq_nextToken` is the connection.

`CString.atoi` reads a decimal number the way the GNU C library does: as a `long`, clamped to its
range, and then cut down to an `int`.

`CString.ofNat` and `CString.ofInt` print one.  What is printed has no underscore in it, so that
numbers with underscores between them can be told apart (`append_cons_inj`).
-/

set_option autoImplicit false

namespace CString

/-! ## Tokens -/

section Tokens

universe u

variable {α : Type u} (delim : α → Bool)

/-- The parts between delimiters that are not empty. -/
def tokens (s : List α) : List (List α) := (s.splitOnP delim).filter fun t ↦ !t.isEmpty

/-- The first token and what is after it and its delimiter. -/
def nextToken (s : List α) : Option (List α) × List α :=
  match s.dropWhile delim with
  | [] => (none, [])
  | c :: rest =>
    (some (c :: rest.takeWhile fun d ↦ !delim d), (rest.dropWhile fun d ↦ !delim d).tail)

/-- `strtok(s, delim)`; the null pointer is `none`.  It continues the string that was `saved` when
`s` is null; without one its behaviour is undefined, which is the outer `none`.  Else the result
is the token, if there is one more, and the rest of the string. -/
def strtok (s saved : Option (List α)) : Option (Option (List α) × List α) :=
  (s.or saved).map (nextToken delim)

theorem tokens_cons_of_delim {c : α} (h : delim c = true) (s : List α) :
    tokens delim (c :: s) = tokens delim s := by
  rw [tokens, List.splitOnP_cons_eq_if_modifyHead, if_pos h]
  rfl

theorem tokens_dropWhile (s : List α) : tokens delim (s.dropWhile delim) = tokens delim s := by
  induction s with
  | nil => rfl
  | cons c s ih =>
    by_cases h : delim c = true
    · rw [List.dropWhile_cons_of_pos h, ih, tokens_cons_of_delim delim h]
    · rw [List.dropWhile_cons_of_neg h]

/-- **The tokens one by one.** -/
theorem tokens_eq_nextToken (s : List α) :
    tokens delim s = match nextToken delim s with
      | (none, _) => []
      | (some t, rest) => t :: tokens delim rest := by
  rw [← tokens_dropWhile, nextToken]
  cases hs : s.dropWhile delim with
  | nil => rfl
  | cons c rest =>
    have hc : delim c = false := by
      have := List.head_dropWhile_not delim (l := s) (by simp [hs])
      simpa [hs] using this
    have htoken : ∀ d ∈ c :: rest.takeWhile (fun d ↦ !delim d), delim d = false := by
      intro d hd
      rcases List.mem_cons.mp hd with rfl | hd
      · exact hc
      · simpa using List.mem_takeWhile_imp hd
    have hsplit : c :: rest = (c :: rest.takeWhile fun d ↦ !delim d) ++
        rest.dropWhile fun d ↦ !delim d := by
      rw [List.cons_append, List.takeWhile_append_dropWhile]
    dsimp only
    rw [tokens, hsplit]
    cases hrest : rest.dropWhile fun d ↦ !delim d with
    | nil =>
      rw [List.append_nil, List.splitOnP_eq_singleton htoken]
      rfl
    | cons d after =>
      have hd : delim d = true := by
        have := List.head_dropWhile_not (fun d ↦ !delim d) (l := rest) (by simp [hrest])
        simpa [hrest] using this
      rw [List.splitOnP_append_cons_of_forall_mem htoken d hd]
      rfl

theorem nextToken_of_tokens_nil {s : List α} (h : tokens delim s = []) :
    nextToken delim s = (none, []) := by
  rw [tokens_eq_nextToken] at h
  rw [nextToken] at h ⊢
  cases hs : s.dropWhile delim with
  | nil => rfl
  | cons c rest => simp [hs] at h

theorem nextToken_of_tokens_cons {s t : List α} {ts : List (List α)}
    (h : tokens delim s = t :: ts) :
    ∃ rest, nextToken delim s = (some t, rest) ∧ tokens delim rest = ts := by
  rw [tokens_eq_nextToken] at h
  cases hn : nextToken delim s with
  | mk token rest =>
    cases token with
    | none => simp [hn] at h
    | some t' =>
      rw [hn, List.cons.injEq] at h
      exact ⟨rest, by rw [h.1], h.2⟩

end Tokens

/-! ## Numbers -/

/-- `isspace` in the C locale: a blank, or one of the characters from the tab to the carriage
return. -/
def isspace (c : Char) : Bool := c.toNat == 32 || (9 ≤ c.toNat && c.toNat ≤ 13)

/-- The number that the digits at the start of a string make. -/
def leadingNumber (s : List Char) : ℕ :=
  (s.takeWhile Char.isDigit).foldl (fun n c ↦ 10 * n + (c.toNat - 48)) 0

/-- `strtol(s, NULL, 10)`, with a `long` of 64 bits. -/
def strtol (s : List Char) : ℤ :=
  let number : ℤ :=
    match s.dropWhile isspace with
    | '-' :: s => -leadingNumber s
    | '+' :: s => leadingNumber s
    | s => leadingNumber s
  max (-2 ^ 63) (min number (2 ^ 63 - 1))

/-- `atoi`, with an `int` of 32 bits: the lower half of the `long`. -/
def atoi (s : List Char) : ℤ := (strtol s).bmod (2 ^ 32)

/-! ## Printing numbers -/

/-- A number in decimal. -/
def ofNat (n : ℕ) : List Char := Nat.toDigits 10 n

/-- A number in decimal, with its sign if it is negative. -/
def ofInt : ℤ → List Char
  | .ofNat n => ofNat n
  | .negSucc n => '-' :: ofNat (n + 1)

theorem ofNat_inj {m n : ℕ} (h : ofNat m = ofNat n) : m = n := by
  rw [← Nat.ofDigitChars_ten_toDigits (n := m), ← ofNat, h, ofNat, Nat.ofDigitChars_ten_toDigits]

theorem isDigit_of_mem_ofNat {n : ℕ} {c : Char} (h : c ∈ ofNat n) : c.isDigit = true :=
  Nat.isDigit_of_mem_toDigits (by decide) (by decide) h

theorem ofInt_inj {a b : ℤ} (h : ofInt a = ofInt b) : a = b := by
  have hsign : ∀ m n : ℕ, ofNat m ≠ '-' :: ofNat n := by
    intro m n heq
    have hdigit : '-'.isDigit = true := isDigit_of_mem_ofNat (n := m) (by rw [heq]; simp)
    exact absurd hdigit (by decide)
  cases a with
  | ofNat m =>
    cases b with
    | ofNat n => rw [ofNat_inj h]
    | negSucc n => exact absurd h (hsign m _)
  | negSucc m =>
    cases b with
    | ofNat n => exact absurd h.symm (hsign n _)
    | negSucc n => rw [Nat.succ_injective (ofNat_inj (List.cons.inj h).2)]

theorem underscore_notMem_ofNat (n : ℕ) : '_' ∉ ofNat n := Nat.underscore_not_in_toDigits

theorem underscore_notMem_ofInt (a : ℤ) : '_' ∉ ofInt a := by
  cases a with
  | ofNat n => exact underscore_notMem_ofNat n
  | negSucc n =>
    intro h
    rcases List.mem_cons.mp h with h | h
    · exact absurd h (by decide)
    · exact underscore_notMem_ofNat _ h

/-- **The first separator** tells where the first part ends. -/
theorem append_cons_inj {c : Char} {xs xs' rest rest' : List Char} (hx : c ∉ xs) (hx' : c ∉ xs')
    (h : xs ++ c :: rest = xs' ++ c :: rest') : xs = xs' ∧ rest = rest' := by
  have htake : ∀ {xs : List Char} (rest : List Char), c ∉ xs →
      (xs ++ c :: rest).takeWhile (· ≠ c) = xs := by
    intro xs rest hx
    have hall : ∀ d ∈ xs, decide (d ≠ c) = true := by
      intro d hd
      exact decide_eq_true fun heq ↦ hx (heq ▸ hd)
    rw [List.takeWhile_append_of_pos hall, List.takeWhile_cons_of_neg (by simp), List.append_nil]
  obtain rfl : xs = xs' := by rw [← htake rest hx, h, htake rest' hx']
  exact ⟨rfl, (List.cons.inj (List.append_cancel_left h)).2⟩

end CString
