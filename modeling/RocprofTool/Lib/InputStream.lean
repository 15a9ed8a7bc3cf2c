import RocprofTool.Lib.CString

/-!
# Reading numbers from a stream

A `std::istream` has the characters that have not been read yet and two flags.  `eofbit` is set by
an operation that has looked behind the last character, `failbit` by one that has not got what it
was to read; `>>` does nothing but set `failbit` when one of them is set already.

`IStream.getInt` is `>>` for an `int`, in the C locale: it skips what is white, and takes a sign and
the digits after it.  A number at the very end is read, and sets `eofbit` since only the end has
shown that there are no more digits (`getInt_ofNat`); behind it there is nothing to be read
(`getInt_blank`).
-/

set_option autoImplicit false

open CString

/-- An input stream. -/
structure IStream where
  rest : List Char
  eof : Bool := false
  fail : Bool := false
  deriving DecidableEq, Repr

namespace IStream

/-- `operator>>` for an `int` that has this value before: the value after it, and the stream. -/
def getInt (val : ℤ) (ifs : IStream) : ℤ × IStream :=
  if ifs.eof || ifs.fail then (val, { ifs with fail := true })
  else
    match ifs.rest.dropWhile isspace with
    | [] => (val, ⟨[], true, true⟩)
    | c :: cs =>
      let digits := if c = '-' ∨ c = '+' then cs else c :: cs
      let number : ℤ := if c = '-' then -leadingNumber digits else leadingNumber digits
      let rest := digits.dropWhile Char.isDigit
      (max (-2 ^ 31) (min number (2 ^ 31 - 1)),
        { rest := rest
          eof := rest.isEmpty
          fail := (digits.takeWhile Char.isDigit).isEmpty || number < -2 ^ 31 || 2 ^ 31 ≤ number })

/-- Nothing is left. -/
theorem getInt_blank (val : ℤ) {blanks : List Char} (h : ∀ c ∈ blanks, isspace c = true) :
    getInt val { rest := blanks } = (val, ⟨[], true, true⟩) := by
  simp only [getInt, List.dropWhile_eq_nil_iff.mpr h, Bool.or_self, Bool.false_eq_true, if_false]

/-- A stream that is not good fails. -/
theorem fail_getInt_of_eof (val : ℤ) {ifs : IStream} (h : ifs.eof = true) :
    getInt val ifs = (val, { ifs with fail := true }) := by
  rw [getInt, h, Bool.true_or, if_pos rfl]

/-- **Something is read, or the stream fails.** -/
theorem fail_or_length_getInt (val : ℤ) (ifs : IStream) :
    (getInt val ifs).2.fail = true ∨ (getInt val ifs).2.rest.length < ifs.rest.length := by
  rw [getInt]
  split_ifs
  · exact .inl rfl
  have hskip : (ifs.rest.dropWhile isspace).length ≤ ifs.rest.length :=
    (List.dropWhile_suffix _).length_le
  split
  · exact .inl rfl
  next c cs hcs =>
    dsimp only
    generalize hdigits : (if c = '-' ∨ c = '+' then cs else c :: cs) = digits
    have hle : digits.length ≤ (c :: cs).length := by
      rw [← hdigits]
      split_ifs
      · exact Nat.le_succ _
      · exact Nat.le_refl _
    rcases htake : digits.takeWhile Char.isDigit with _ | ⟨d, ds⟩
    · exact .inl rfl
    · right
      have hsplit := congrArg List.length (digits.takeWhile_append_dropWhile (p := Char.isDigit))
      rw [htake, List.length_append, List.length_cons] at hsplit
      rw [hcs] at hskip
      omega

/-! ## Digits -/

theorem ofNat_ne_nil (n : ℕ) : ofNat n ≠ [] := Nat.toDigits_ne_nil

theorem takeWhile_isDigit_ofNat (n : ℕ) {tail : List Char}
    (htail : ∀ c ∈ tail.head?, c.isDigit = false) :
    (ofNat n ++ tail).takeWhile Char.isDigit = ofNat n := by
  rw [List.takeWhile_append_of_pos fun c hc ↦ isDigit_of_mem_ofNat hc]
  cases tail with
  | nil => rw [List.takeWhile_nil, List.append_nil]
  | cons c tail =>
    rw [List.takeWhile_cons_of_neg (by simp [htail c rfl]), List.append_nil]

theorem dropWhile_isDigit_ofNat (n : ℕ) {tail : List Char}
    (htail : ∀ c ∈ tail.head?, c.isDigit = false) :
    (ofNat n ++ tail).dropWhile Char.isDigit = tail := by
  rw [List.dropWhile_append_of_pos fun c hc ↦ isDigit_of_mem_ofNat hc]
  cases tail with
  | nil => rfl
  | cons c tail => rw [List.dropWhile_cons_of_neg (by simp [htail c rfl])]

theorem leadingNumber_ofNat (n : ℕ) {tail : List Char}
    (htail : ∀ c ∈ tail.head?, c.isDigit = false) : leadingNumber (ofNat n ++ tail) = n := by
  rw [leadingNumber, takeWhile_isDigit_ofNat n htail, ofNat]
  exact Nat.ofDigitChars_ten_toDigits

/-- A digit is neither white nor a sign. -/
theorem of_isDigit {c : Char} (h : c.isDigit = true) :
    isspace c = false ∧ c ≠ '-' ∧ c ≠ '+' := by
  have hrange : 48 ≤ c.toNat ∧ c.toNat ≤ 57 := by
    simpa [Char.isDigit, UInt32.le_iff_toNat_le] using h
  refine ⟨?_, ?_, ?_⟩
  · simp only [isspace, Bool.or_eq_false_iff, beq_eq_false_iff_ne, Bool.and_eq_false_imp,
      decide_eq_true_eq, decide_eq_false_iff_not]
    omega
  · rintro rfl
    exact absurd hrange.1 (by decide)
  · rintro rfl
    exact absurd hrange.1 (by decide)

/-- **A number is read**, and the stream is at its end when nothing comes after it. -/
theorem getInt_ofNat (val : ℤ) {n : ℕ} (hn : n < 2 ^ 31) {blanks : List Char} (tail : List Char)
    (hblanks : ∀ c ∈ blanks, isspace c = true) (htail : ∀ c ∈ tail.head?, c.isDigit = false) :
    getInt val { rest := blanks ++ (ofNat n ++ tail) }
      = ((n : ℤ), { rest := tail, eof := tail.isEmpty }) := by
  have hskip : (blanks ++ (ofNat n ++ tail)).dropWhile isspace = ofNat n ++ tail := by
    rw [List.dropWhile_append_of_pos hblanks]
    rcases hdigits : ofNat n with _ | ⟨c, cs⟩
    · exact absurd hdigits (ofNat_ne_nil n)
    · have hc : c.isDigit = true := isDigit_of_mem_ofNat (n := n) (by simp [hdigits])
      rw [List.cons_append, List.dropWhile_cons_of_neg (by simp [(of_isDigit hc).1])]
  have htake := takeWhile_isDigit_ofNat n htail
  have hdrop := dropWhile_isDigit_ofNat n htail
  have hnumber := leadingNumber_ofNat n htail
  rw [getInt, hskip]
  rcases hdigits : ofNat n with _ | ⟨c, cs⟩
  · exact absurd hdigits (ofNat_ne_nil n)
  have hc : c.isDigit = true := isDigit_of_mem_ofNat (n := n) (by simp [hdigits])
  obtain ⟨-, hminus, hplus⟩ := of_isDigit hc
  rw [hdigits, List.cons_append] at htake hdrop hnumber
  simp only [Bool.or_self, Bool.false_eq_true, if_false, List.cons_append, hminus, hplus, or_self,
    htake, hdrop, hnumber]
  refine Prod.ext ?_ ?_
  · show max (-2 ^ 31) (min (n : ℤ) (2 ^ 31 - 1)) = n
    omega
  · show IStream.mk tail tail.isEmpty _ = IStream.mk tail tail.isEmpty false
    simp only [List.isEmpty_cons, Bool.false_or, mk.injEq, true_and, Bool.or_eq_false_iff,
      decide_eq_false_iff_not]
    omega

end IStream
