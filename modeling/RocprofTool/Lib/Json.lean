import Mathlib.Data.List.Infix
import Mathlib.Tactic.Common

/-!
# JSON texts

The texts of RFC 8259, read by recursive descent: each function takes the text that is left and
returns what it has read and the text that is left then.  `Parses text v` says that the text is
well formed, and that `v` is what it stands for.  There is fuel for the nesting, and as much of it
as it takes, so that the fuel is no limit.

* A number is kept as it is written.  A string is kept as what it stands for: its escapes are
  decoded, and what a single surrogate stands for, which is nothing, is U+FFFD.
* The members of an object are kept in their order, with names that may be equal.

What is read as a string, or as a name, is in the text between quotes, where it takes a backslash to
write a quote or a backslash.  So a text can have strings of which it is made only as long as there
are no backslashes in it: these strings are in the text longer than they are
(`not_mem_of_quoted`).
-/

set_option autoImplicit false

namespace Json

/-- A JSON value. -/
inductive Value
  | null
  | bool (b : Bool)
  | number (token : List Char)
  | string (s : List Char)
  | array (elements : List Value)
  | object (members : List (List Char × Value))

/-- A member, of the value or of anything in it. -/
inductive Value.HasMember (key : List Char) (v : Value) : Value → Prop
  | here {ms : List (List Char × Value)} (h : (key, v) ∈ ms) : HasMember key v (.object ms)
  | member {ms : List (List Char × Value)} {k : List Char} {u : Value} (hu : (k, u) ∈ ms)
      (h : HasMember key v u) : HasMember key v (.object ms)
  | element {vs : List Value} {u : Value} (hu : u ∈ vs) (h : HasMember key v u) :
      HasMember key v (.array vs)

/-- A string, or a name, that is the value or anywhere in it. -/
inductive Value.Has (s : List Char) : Value → Prop
  | string : Has s (.string s)
  | key {ms : List (List Char × Value)} {u : Value} (h : (s, u) ∈ ms) : Has s (.object ms)
  | member {ms : List (List Char × Value)} {k : List Char} {u : Value} (hu : (k, u) ∈ ms)
      (h : Has s u) : Has s (.object ms)
  | element {vs : List Value} {u : Value} (hu : u ∈ vs) (h : Has s u) : Has s (.array vs)

/-! ## Spaces and tokens -/

def isSpace (c : Char) : Bool := c == ' ' || c == '\t' || c == '\n' || c == '\r'

def skip (text : List Char) : List Char := text.dropWhile isSpace

/-- Spaces, and then this character. -/
def expect (c : Char) (text : List Char) : Option (List Char) :=
  match skip text with
  | [] => none
  | c' :: rest => if c' = c then some rest else none

/-! ## Strings -/

/-- What is between the quotes of a string, of which the first has been read. -/
def scan : List Char → Option (List Char × List Char)
  | [] => none
  | '\\' :: c :: rest => (scan rest).map fun p ↦ ('\\' :: c :: p.1, p.2)
  | c :: rest => if c = '"' then some ([], rest) else (scan rest).map fun p ↦ (c :: p.1, p.2)

/-- What stands for itself, or something else, after a backslash. -/
def escape : Char → Option ℕ
  | '"' => some 34
  | '\\' => some 92
  | '/' => some 47
  | 'b' => some 8
  | 'f' => some 12
  | 'n' => some 10
  | 'r' => some 13
  | 't' => some 9
  | _ => none

def hexDigit (c : Char) : Option ℕ :=
  if '0' ≤ c ∧ c ≤ '9' then some (c.toNat - '0'.toNat)
  else if 'a' ≤ c ∧ c ≤ 'f' then some (c.toNat - 'a'.toNat + 10)
  else if 'A' ≤ c ∧ c ≤ 'F' then some (c.toNat - 'A'.toNat + 10)
  else none

/-- Four hexadecimal digits. -/
def hex4 (a b c d : Char) : Option ℕ := do
  let a ← hexDigit a
  let b ← hexDigit b
  let c ← hexDigit c
  let d ← hexDigit d
  return ((a * 16 + b) * 16 + c) * 16 + d

/-- The quote and the backslash. -/
def isSpecial (c : Char) : Bool := c == '"' || c == '\\'

/-- Can a string have the character as it is? -/
def isPlain (c : Char) : Bool := !isSpecial c && !decide (c < ' ')

/-- The code points, and halves of surrogate pairs, that what is between the quotes stands for. -/
def units : List Char → Option (List ℕ)
  | [] => some []
  | '\\' :: 'u' :: a :: b :: c :: d :: rest => do
    let n ← hex4 a b c d
    let ns ← units rest
    return n :: ns
  | '\\' :: c :: rest => do
    let n ← escape c
    let ns ← units rest
    return n :: ns
  | c :: rest => if isPlain c then (units rest).map (c.toNat :: ·) else none

/-- The character with this code, or U+FFFD when there is none. -/
def scalar (n : ℕ) : Char := if n.isValidChar then .ofNat n else '\uFFFD'

/-- Surrogate pairs are put together. -/
def join : List ℕ → List Char
  | [] => []
  | [n] => [scalar n]
  | hi :: lo :: ns =>
    if 0xD800 ≤ hi ∧ hi < 0xDC00 ∧ 0xDC00 ≤ lo ∧ lo < 0xE000 then
      scalar (0x10000 + (hi - 0xD800) * 0x400 + (lo - 0xDC00)) :: join ns
    else scalar hi :: join (lo :: ns)

/-- A string, of which the first quote has been read. -/
def string (text : List Char) : Option (List Char × List Char) := do
  let (raw, rest) ← scan text
  let ns ← units raw
  return (join ns, rest)

/-! ## Numbers and names -/

/-- Can the character be in a number, or in one of the three names? -/
def isTokenChar (c : Char) : Bool := c.isAlphanum || c == '+' || c == '-' || c == '.'

/-- An exponent, or nothing. -/
def isExponent : List Char → Bool
  | [] => true
  | c :: rest =>
    let digits := match rest with
      | '+' :: digits => digits
      | '-' :: digits => digits
      | _ => rest
    (c == 'e' || c == 'E') && !digits.isEmpty && digits.all Char.isDigit

/-- A fraction or nothing, and an exponent or nothing. -/
def isFraction : List Char → Bool
  | '.' :: rest =>
    !(rest.takeWhile Char.isDigit).isEmpty && isExponent (rest.dropWhile Char.isDigit)
  | rest => isExponent rest

/-- A number: digits, without a zero that leads, and what may be around them. -/
def isNumber (token : List Char) : Bool :=
  let rest := match token with
    | '-' :: rest => rest
    | _ => token
  let digits := rest.takeWhile Char.isDigit
  (digits == ['0'] || digits.head?.any (· != '0')) && isFraction (rest.dropWhile Char.isDigit)

/-- A number or one of the three names.  After either of them there is a space, a delimiter or the
end of the text, so that it can be read as far as it goes. -/
def atom (text : List Char) : Option (Value × List Char) :=
  let token := text.takeWhile isTokenChar
  let rest := text.dropWhile isTokenChar
  if token = "null".toList then some (.null, rest)
  else if token = "true".toList then some (.bool true, rest)
  else if token = "false".toList then some (.bool false, rest)
  else if isNumber token then some (.number token, rest)
  else none

/-! ## Values -/

mutual

/-- A value. -/
def value : ℕ → List Char → Option (Value × List Char)
  | 0, _ => none
  | fuel + 1, text =>
    match skip text with
    | '{' :: rest =>
      match expect '}' rest with
      | some rest => some (.object [], rest)
      | none => (members fuel rest).map fun p ↦ (.object p.1, p.2)
    | '[' :: rest =>
      match expect ']' rest with
      | some rest => some (.array [], rest)
      | none => (elements fuel rest).map fun p ↦ (.array p.1, p.2)
    | '"' :: rest => (string rest).map fun p ↦ (.string p.1, p.2)
    | rest => atom rest

/-- The members of an object, up to its end. -/
def members : ℕ → List Char → Option (List (List Char × Value) × List Char)
  | 0, _ => none
  | fuel + 1, text => do
    let rest ← expect '"' text
    let (key, rest) ← string rest
    let rest ← expect ':' rest
    let (v, rest) ← value fuel rest
    match expect ',' rest with
    | some rest =>
      let (ms, rest) ← members fuel rest
      return ((key, v) :: ms, rest)
    | none =>
      let rest ← expect '}' rest
      return ([(key, v)], rest)

/-- The elements of an array, up to its end. -/
def elements : ℕ → List Char → Option (List Value × List Char)
  | 0, _ => none
  | fuel + 1, text => do
    let (v, rest) ← value fuel text
    match expect ',' rest with
    | some rest =>
      let (vs, rest) ← elements fuel rest
      return (v :: vs, rest)
    | none =>
      let rest ← expect ']' rest
      return ([v], rest)

end

/-- The text is well formed, and this is its value. -/
def Parses (text : List Char) (v : Value) : Prop :=
  ∃ fuel rest, value fuel text = some (v, rest) ∧ skip rest = []

example : value 6 "\x7b \"a\": [-1.5, \"\\ud83d\\ude00\\\"\"], \"b\" : \x7b\x7d\x7d".toList matches
    some (.object [(['a'], .array [.number ['-', '1', '.', '5'], .string [_, '"']]),
      (['b'], .object [])], []) := by decide +kernel

/-! ## What is left is a suffix -/

variable {text rest raw x y : List Char} {fuel : ℕ}

theorem skip_suffix (text : List Char) : skip text <:+ text := List.dropWhile_suffix _

theorem skip_cons (c : Char) (text : List Char) :
    skip (c :: text) = if isSpace c then skip text else c :: text := List.dropWhile_cons

theorem expect_eq_some {c : Char} : expect c text = some rest ↔ skip text = c :: rest := by
  rw [expect]
  rcases skip text with _ | ⟨c', text'⟩
  · simp
  · simp

theorem expect_suffix {c : Char} (h : expect c text = some rest) : rest <:+ text := by
  have hskip : c :: rest <:+ text := expect_eq_some.mp h ▸ skip_suffix text
  exact (List.suffix_cons c rest).trans hskip

theorem scan_eq (h : scan text = some (raw, rest)) : text = raw ++ '"' :: rest := by
  induction text using scan.induct generalizing raw with
  | case1 => cases h
  | case2 c text ih =>
    rw [scan] at h
    obtain ⟨⟨raw', rest'⟩, hscan, heq⟩ := Option.map_eq_some_iff.mp h
    cases heq
    rw [ih hscan]
    rfl
  | case3 text hne =>
    rw [scan.eq_3 _ _ hne, if_pos rfl] at h
    cases h
    rfl
  | case4 c text hne hc ih =>
    rw [scan.eq_3 _ _ hne, if_neg hc] at h
    obtain ⟨⟨raw', rest'⟩, hscan, heq⟩ := Option.map_eq_some_iff.mp h
    cases heq
    rw [ih hscan]
    rfl

/-! ## How a string is written -/

theorem of_isPlain {c : Char} (h : isPlain c = true) : c ≠ '"' ∧ c ≠ '\\' ∧ ¬c < ' ' := by
  rw [isPlain, isSpecial, Bool.and_eq_true, Bool.not_eq_true', Bool.or_eq_false_iff,
    Bool.not_eq_true', decide_eq_false_iff_not, beq_eq_false_iff_ne, beq_eq_false_iff_ne] at h
  exact ⟨h.1.1, h.1.2, h.2⟩

/-- The codes of the quote and of the characters that no escape has. -/
def marks : List ℕ := ['"'.toNat, ','.toNat, ':'.toNat, ' '.toNat]

/-- In a string, this is how a character with the code `n` can be written: it takes a backslash to
write what is special, and a quote or one of the others is not there for anything else. -/
structure Codes (x : List Char) (n : ℕ) : Prop where
  ne_nil : x ≠ []
  special : n = '"'.toNat ∨ n = '\\'.toNat → '\\' ∈ x ∧ 2 ≤ x.length
  unmarked : n ∉ marks → ∀ c ∈ x, c.toNat ∉ marks

/-- `raw` is what is between the quotes of the string `s`. -/
inductive Written : List Char → List Char → Prop
  | nil : Written [] []
  | cons {x raw s : List Char} {c : Char} (hx : Codes x c.toNat) (h : Written raw s) :
      Written (x ++ raw) (c :: s)

theorem codes_plain {c : Char} (h : isPlain c = true) : Codes [c] c.toNat := by
  obtain ⟨hquote, hback, -⟩ := of_isPlain h
  refine ⟨List.cons_ne_nil _ _, fun hc ↦ ?_, fun hc d hd ↦ ?_⟩
  · rcases hc with hc | hc
    · exact absurd (Char.toNat_inj.mp hc) hquote
    · exact absurd (Char.toNat_inj.mp hc) hback
  · rwa [List.mem_singleton.mp hd]

theorem not_mem_marks {n : ℕ} (h : ':'.toNat < n) : n ∉ marks := by
  simp only [marks, List.mem_cons, List.not_mem_nil, or_false, Char.reduceToNat] at h ⊢
  omega

theorem toNat_of_hexDigit {c : Char} {n : ℕ} (h : hexDigit c = some n) : c.toNat ∉ marks := by
  have hrange : '0'.toNat ≤ c.toNat ∧ c.toNat ≤ '9'.toNat ∨ 'A'.toNat ≤ c.toNat := by
    rw [hexDigit] at h
    split_ifs at h with hdigit hlower hupper
    · exact .inl hdigit
    · exact .inr (Nat.le_trans (by decide) hlower.1)
    · exact .inr hupper.1
  simp only [marks, List.mem_cons, List.not_mem_nil, or_false, not_or]
  simp only [Char.reduceToNat] at hrange ⊢
  omega

theorem codes_hex4 {a b c d : Char} {n : ℕ} (h : hex4 a b c d = some n) :
    Codes ['\\', 'u', a, b, c, d] n := by
  refine ⟨List.cons_ne_nil _ _, fun _ ↦ ⟨List.mem_cons_self, Nat.le_add_left 2 4⟩, fun _ ↦ ?_⟩
  obtain ⟨na, ha, h⟩ := Option.bind_eq_some_iff.mp h
  obtain ⟨nb, hb, h⟩ := Option.bind_eq_some_iff.mp h
  obtain ⟨nc, hc, h⟩ := Option.bind_eq_some_iff.mp h
  obtain ⟨nd, hd, -⟩ := Option.bind_eq_some_iff.mp h
  simp only [List.forall_mem_cons, List.not_mem_nil, false_implies, implies_true, and_true]
  exact ⟨by decide, by decide, toNat_of_hexDigit ha, toNat_of_hexDigit hb, toNat_of_hexDigit hc,
    toNat_of_hexDigit hd⟩

theorem codes_escape {c : Char} {n : ℕ} (h : escape c = some n) : Codes ['\\', c] n := by
  refine ⟨List.cons_ne_nil _ _, fun _ ↦ ⟨List.mem_cons_self, le_rfl⟩, fun hn ↦ ?_⟩
  simp only [List.forall_mem_cons, List.not_mem_nil, false_implies, implies_true, and_true]
  refine ⟨by decide, ?_⟩
  rw [escape.eq_def] at h
  split at h
  · cases h
    exact hn
  all_goals first | decide | cases h

theorem Codes.scalar {n : ℕ} (h : Codes x n) : Codes x (scalar n).toNat := by
  rw [Json.scalar]
  split_ifs with hvalid
  · have htoNat : (Char.ofNat n).toNat = n := by
      rw [Char.ofNat, dif_pos hvalid]
      rfl
    rwa [htoNat]
  · refine ⟨h.ne_nil, fun hn ↦ absurd hn (by decide), fun _ ↦ h.unmarked fun hn ↦ hvalid ?_⟩
    simp only [marks, List.mem_cons, List.not_mem_nil, or_false] at hn
    rcases hn with rfl | rfl | rfl | rfl
    all_goals decide

/-- Two surrogates. -/
theorem Codes.append {hi lo n : ℕ} (hx : Codes x hi) (hy : Codes y lo) (hhi : hi ∉ marks)
    (hlo : lo ∉ marks) (hn : '\\'.toNat < n) : Codes (x ++ y) n := by
  refine ⟨List.append_ne_nil_of_left_ne_nil hx.ne_nil _, fun hspecial ↦ ?_, fun _ c hc ↦ ?_⟩
  · rcases hspecial with rfl | rfl
    · exact absurd hn (by decide)
    · exact absurd hn (Nat.lt_irrefl _)
  · rcases List.mem_append.mp hc with hc | hc
    · exact hx.unmarked hhi c hc
    · exact hy.unmarked hlo c hc

theorem codes_of_units {ns : List ℕ} (h : units raw = some ns) :
    ∃ xs : List (List Char), raw = xs.flatten ∧ List.Forall₂ Codes xs ns := by
  induction raw using units.induct generalizing ns with
  | case1 =>
    cases h
    exact ⟨[], rfl, .nil⟩
  | case2 a b c d text ih =>
    rw [units] at h
    obtain ⟨n, hn, h⟩ := Option.bind_eq_some_iff.mp h
    obtain ⟨ns', hns, h⟩ := Option.bind_eq_some_iff.mp h
    cases h
    obtain ⟨xs, rfl, hxs⟩ := ih hns
    exact ⟨['\\', 'u', a, b, c, d] :: xs, rfl, .cons (codes_hex4 hn) hxs⟩
  | case3 c text hne ih =>
    rw [units.eq_3 _ _ hne] at h
    obtain ⟨n, hn, h⟩ := Option.bind_eq_some_iff.mp h
    obtain ⟨ns', hns, h⟩ := Option.bind_eq_some_iff.mp h
    cases h
    obtain ⟨xs, rfl, hxs⟩ := ih hns
    exact ⟨['\\', c] :: xs, rfl, .cons (codes_escape hn) hxs⟩
  | case4 c text hne hne' hplain ih =>
    rw [units.eq_4 _ _ hne hne', if_pos hplain] at h
    obtain ⟨ns', hns, heq⟩ := Option.map_eq_some_iff.mp h
    cases heq
    obtain ⟨xs, rfl, hxs⟩ := ih hns
    exact ⟨[c] :: xs, rfl, .cons (codes_plain hplain) hxs⟩
  | case5 c text hne hne' hplain =>
    rw [units.eq_4 _ _ hne hne', if_neg hplain] at h
    cases h

theorem written_join {xs : List (List Char)} {ns : List ℕ} (h : List.Forall₂ Codes xs ns) :
    Written xs.flatten (join ns) := by
  induction ns using join.induct generalizing xs with
  | case1 =>
    cases h
    exact .nil
  | case2 n =>
    cases h with
    | cons hx hxs =>
      cases hxs
      exact .cons hx.scalar .nil
  | case3 hi lo ns hpair ih =>
    cases h with
    | @cons x _ _ _ hx h =>
      cases h with
      | @cons y _ _ _ hy hxs =>
        rw [join, if_pos hpair, List.flatten_cons, List.flatten_cons, ← List.append_assoc]
        refine .cons (Codes.scalar (hx.append hy ?_ ?_ ?_)) (ih hxs)
        · exact not_mem_marks (Nat.lt_of_lt_of_le (by decide) hpair.1)
        · exact not_mem_marks (Nat.lt_of_lt_of_le (by decide) hpair.2.2.1)
        · rw [Nat.add_assoc]
          exact Nat.lt_of_lt_of_le (by decide) (Nat.le_add_right 0x10000 _)
  | case4 hi lo ns hpair ih =>
    cases h with
    | cons hx hxs =>
      rw [join, if_neg hpair]
      exact .cons hx.scalar (ih hxs)

/-- **A string is read from what is written.** -/
theorem of_string {s : List Char} (h : string text = some (s, rest)) :
    ∃ raw, text = raw ++ '"' :: rest ∧ scan text = some (raw, rest) ∧ Written raw s := by
  rw [string, Option.bind_eq_bind, Option.bind_eq_some_iff] at h
  obtain ⟨⟨raw, rest'⟩, hscan, h⟩ := h
  rw [Option.bind_eq_bind, Option.bind_eq_some_iff] at h
  obtain ⟨ns, hunits, h⟩ := h
  cases h
  obtain ⟨xs, rfl, hxs⟩ := codes_of_units hunits
  exact ⟨_, scan_eq hscan, hscan, written_join hxs⟩

theorem string_suffix {s : List Char} (h : string text = some (s, rest)) : rest <:+ text := by
  obtain ⟨raw, rfl, -⟩ := of_string h
  exact (List.suffix_cons _ _).trans (List.suffix_append raw _)

theorem scan_append (h : ∀ c ∈ x, isSpecial c = false) (rest : List Char) :
    scan (x ++ '"' :: rest) = some (x, rest) := by
  induction x with
  | nil => rfl
  | cons c x ih =>
    obtain ⟨hc, hx⟩ := List.forall_mem_cons.mp h
    rw [isSpecial, Bool.or_eq_false_iff, beq_eq_false_iff_ne, beq_eq_false_iff_ne] at hc
    rw [List.cons_append, scan.eq_3 _ _ fun _ _ heq ↦ absurd heq hc.2, if_neg hc.1, ih hx]
    rfl

/-- A string in which nothing is special ends at its quote. -/
theorem rest_of_string {s : List Char} (hx : ∀ c ∈ x, isSpecial c = false)
    (h : string (x ++ '"' :: y) = some (s, rest)) : rest = y := by
  obtain ⟨raw, -, hscan, -⟩ := of_string h
  rw [scan_append hx] at hscan
  cases hscan
  rfl

theorem isSpecial_of_isPlain {c : Char} (h : isPlain c = true) : isSpecial c = false := by
  obtain ⟨hquote, hback, -⟩ := of_isPlain h
  rw [isSpecial, Bool.or_eq_false_iff, beq_eq_false_iff_ne, beq_eq_false_iff_ne]
  exact ⟨hquote, hback⟩

theorem units_of_plain (h : x.all isPlain = true) : units x = some (x.map Char.toNat) := by
  induction x with
  | nil => rfl
  | cons c x ih =>
    rw [List.all_cons, Bool.and_eq_true] at h
    obtain ⟨-, hback, -⟩ := of_isPlain h.1
    rw [units.eq_4 _ _ (fun _ _ _ _ _ heq ↦ absurd heq hback) fun _ _ heq ↦ absurd heq hback,
      if_pos h.1, ih h.2]
    rfl

theorem scalar_toNat (c : Char) : scalar c.toNat = c := by
  rw [scalar, if_pos (show c.toNat.isValidChar from c.valid), Char.ofNat_toNat]

theorem join_map_toNat (x : List Char) : join (x.map Char.toNat) = x := by
  induction x with
  | nil => rfl
  | cons c x ih =>
    rcases x with _ | ⟨d, x⟩
    · exact congrArg (· :: []) (scalar_toNat c)
    · rw [List.map_cons, List.map_cons, join, if_neg, scalar_toNat, ← List.map_cons, ih]
      -- the codes of characters are not those of surrogates
      have hvalid : c.toNat < 0xD800 ∨ 0xDFFF < c.toNat ∧ c.toNat < 0x110000 := c.valid
      omega

/-- **What is plain stands for itself.** -/
theorem string_append (h : x.all isPlain = true) (rest : List Char) :
    string (x ++ '"' :: rest) = some (x, rest) := by
  rw [string, scan_append fun c hc ↦ isSpecial_of_isPlain (List.all_eq_true.mp h c hc)]
  show (units x).bind _ = _
  rw [units_of_plain h]
  exact congrArg (fun s ↦ some (s, rest)) (join_map_toNat x)

/-! ## Strings in a text -/

section Quoted

variable {s w a b : List Char}

/-- The text has the string somewhere. -/
def Quoted (text s : List Char) : Prop := ∃ raw, raw <:+: text ∧ Written raw s

theorem Quoted.of_suffix (h : Quoted x s) (hx : x <:+ text) : Quoted text s := by
  obtain ⟨raw, hraw, hwritten⟩ := h
  exact ⟨raw, hraw.trans hx.isInfix, hwritten⟩

theorem quoted_of_string (h : string text = some (s, rest)) : Quoted text s := by
  obtain ⟨raw, rfl, -, hwritten⟩ := of_string h
  exact ⟨raw, (List.prefix_append _ _).isInfix, hwritten⟩

theorem Written.of_append (h : Written raw (a ++ b)) :
    ∃ ra rb, raw = ra ++ rb ∧ Written ra a ∧ Written rb b := by
  induction a generalizing raw with
  | nil => exact ⟨[], raw, rfl, .nil, h⟩
  | cons c a ih =>
    cases h with
    | cons hx h =>
      obtain ⟨ra, rb, rfl, ha, hb⟩ := ih h
      exact ⟨_ ++ ra, rb, (List.append_assoc _ _ _).symm, .cons hx ha, hb⟩

/-- A part of a string is in the text as well. -/
theorem Quoted.mono (h : Quoted text s) (hw : w <:+: s) : Quoted text w := by
  obtain ⟨raw, hraw, hwritten⟩ := h
  obtain ⟨a, b, rfl⟩ := hw
  obtain ⟨ra, rb, rfl, haw, -⟩ := hwritten.of_append
  obtain ⟨ra, raw, rfl, -, hw⟩ := haw.of_append
  exact ⟨raw, List.IsInfix.trans ⟨ra, rb, rfl⟩ hraw, hw⟩

theorem Written.length_le (h : Written raw s) : s.length ≤ raw.length := by
  induction h with
  | nil => exact le_rfl
  | cons hx h ih =>
    rw [List.length_cons, List.length_append]
    have := List.length_pos_of_ne_nil hx.ne_nil
    omega

/-- **It takes more to write what is special.** -/
theorem Written.special (h : Written raw s) {c : Char} (hc : c ∈ s)
    (hspecial : isSpecial c = true) : '\\' ∈ raw ∧ s.length < raw.length := by
  induction h with
  | nil => cases hc
  | cons hx h ih =>
    rw [List.length_cons, List.length_append, List.mem_append]
    have hlength := h.length_le
    have hpos := List.length_pos_of_ne_nil hx.ne_nil
    rcases List.mem_cons.mp hc with rfl | hc
    · rw [isSpecial, Bool.or_eq_true, beq_iff_eq, beq_iff_eq] at hspecial
      obtain ⟨hback, htwo⟩ := hx.special (hspecial.imp (congrArg _) (congrArg _))
      exact ⟨.inl hback, by omega⟩
    · obtain ⟨hback, hlt⟩ := ih hc
      exact ⟨.inr hback, by omega⟩

theorem Written.unmarked (h : Written raw s) (hs : ∀ c ∈ s, c.toNat ∉ marks) :
    ∀ c ∈ raw, c.toNat ∉ marks := by
  induction h with
  | nil => exact hs
  | cons hx h ih =>
    obtain ⟨hc, hs⟩ := List.forall_mem_cons.mp hs
    intro d hd
    rcases List.mem_append.mp hd with hd | hd
    · exact hx.unmarked hc d hd
    · exact ih hs d hd

/-- A word with a backslash, without quotes and spaces and what is between words. -/
structure IsWord (w : List Char) : Prop where
  back : '\\' ∈ w
  unmarked : ∀ c ∈ w, c.toNat ∉ marks

theorem IsWord.not_isInfix (h : IsWord w) (hx : '\\' ∉ x) : ¬w <:+: x :=
  fun hw ↦ hx (hw.subset h.back)

/-- A word is on one side of what is not in words. -/
theorem IsWord.isInfix_or_isInfix {c : Char} (h : IsWord w) (hc : c.toNat ∈ marks)
    (hw : w <:+: x ++ c :: y) : w <:+: x ∨ w <:+: y := by
  have hstart : ∀ {l₁ l₂ : List Char}, l₂ ≠ [] → w = l₁ ++ l₂ → ¬l₂ <+: c :: y := by
    rintro l₁ l₂ hne rfl hl₂
    rcases List.prefix_cons_iff.mp hl₂ with hnil | ⟨l, rfl, -⟩
    · exact hne hnil
    · exact h.unmarked c (List.mem_append_right _ List.mem_cons_self) hc
  rcases List.infix_append_iff_ne_nil.mp hw with hw | hw | ⟨l₁, l₂, -, hne, heq, -, hl₂⟩
  · exact .inl hw
  · rcases List.infix_cons_iff.mp hw with hw | hw
    · exact absurd hw (hstart (List.ne_nil_of_mem h.back) (List.nil_append w).symm)
    · exact .inr hw
  · exact absurd hl₂ (hstart hne heq)

theorem IsWord.isInfix_of_not_mem {c : Char} (h : IsWord w) (hc : c.toNat ∈ marks) (hx : '\\' ∉ x)
    (hw : w <:+: x ++ c :: y) : w <:+: y :=
  (h.isInfix_or_isInfix hc hw).resolve_left (h.not_isInfix hx)

/-- A word is in the text as a longer word. -/
theorem IsWord.exists_of_quoted (h : IsWord w) (hw : Quoted text w) :
    ∃ w', IsWord w' ∧ w' <:+: text ∧ w.length < w'.length := by
  obtain ⟨raw, hraw, hwritten⟩ := hw
  obtain ⟨hback, hlength⟩ := hwritten.special h.back rfl
  exact ⟨raw, ⟨hback, hwritten.unmarked h.unmarked⟩, hraw, hlength⟩

/-- **A text does not have strings with a backslash** if all of its words are from these strings:
each of them is there as a longer one, which is again from one of the strings. -/
theorem not_mem_of_quoted {strings : List (List Char)} (hquoted : ∀ s ∈ strings, Quoted text s)
    (hwords : ∀ w, IsWord w → w <:+: text → ∃ s ∈ strings, w <:+: s) : '\\' ∉ text := by
  intro hback
  have hlong : ∀ n, ∃ w, IsWord w ∧ w <:+: text ∧ n ≤ w.length := by
    intro n
    induction n with
    | zero =>
      refine ⟨['\\'], ⟨List.mem_singleton_self _, ?_⟩, ?_, Nat.zero_le _⟩
      · intro c hc
        rw [List.mem_singleton.mp hc]
        decide
      · obtain ⟨x, y, rfl⟩ := List.append_of_mem hback
        exact ⟨x, y, by simp⟩
    | succ n ih =>
      obtain ⟨w, hw, htext, hn⟩ := ih
      obtain ⟨s, hs, hpart⟩ := hwords w hw htext
      obtain ⟨w', hw', htext', hlength⟩ := hw.exists_of_quoted ((hquoted s hs).mono hpart)
      exact ⟨w', hw', htext', by omega⟩
  obtain ⟨w, -, htext, hlength⟩ := hlong (text.length + 1)
  exact absurd htext.length_le (by omega)

/-- It has no strings with a quote then either. -/
theorem isSpecial_of_quoted (hback : '\\' ∉ text) (hs : Quoted text s) :
    ∀ c ∈ s, isSpecial c = false := by
  intro c hc
  obtain ⟨raw, hraw, hwritten⟩ := hs
  by_contra hspecial
  rw [Bool.not_eq_false] at hspecial
  exact hback (hraw.subset (hwritten.special hc hspecial).1)

end Quoted

/-! ## One step -/

section Steps

variable {v : Value} {vs : List Value} {ms : List (List Char × Value)}

/-- What an object is read from. -/
theorem of_members (h : members (fuel + 1) text = some (ms, rest)) :
    ∃ r₀ key r₁ r₂ v r₃, expect '"' text = some r₀ ∧ string r₀ = some (key, r₁) ∧
      expect ':' r₁ = some r₂ ∧ value fuel r₂ = some (v, r₃) ∧
        ((∃ r₄ ms', expect ',' r₃ = some r₄ ∧ members fuel r₄ = some (ms', rest) ∧
          ms = (key, v) :: ms') ∨ expect '}' r₃ = some rest ∧ ms = [(key, v)]) := by
  rw [members] at h
  obtain ⟨r₀, hquote, h⟩ := Option.bind_eq_some_iff.mp h
  obtain ⟨⟨key, r₁⟩, hkey, h⟩ := Option.bind_eq_some_iff.mp h
  obtain ⟨r₂, hcolon, h⟩ := Option.bind_eq_some_iff.mp h
  obtain ⟨⟨v, r₃⟩, hvalue, h⟩ := Option.bind_eq_some_iff.mp h
  refine ⟨r₀, key, r₁, r₂, v, r₃, hquote, hkey, hcolon, hvalue, ?_⟩
  dsimp only at h
  rcases hcomma : expect ',' r₃ with _ | r₄
  · rw [hcomma] at h
    obtain ⟨r₄, hend, h⟩ := Option.bind_eq_some_iff.mp h
    cases h
    exact .inr ⟨hend, rfl⟩
  · rw [hcomma] at h
    obtain ⟨⟨ms', r₅⟩, hmembers, h⟩ := Option.bind_eq_some_iff.mp h
    cases h
    exact .inl ⟨r₄, ms', rfl, hmembers, rfl⟩

/-- What an array is read from. -/
theorem of_elements (h : elements (fuel + 1) text = some (vs, rest)) :
    ∃ v r₀, value fuel text = some (v, r₀) ∧
      ((∃ r₁ vs', expect ',' r₀ = some r₁ ∧ elements fuel r₁ = some (vs', rest) ∧ vs = v :: vs') ∨
        expect ']' r₀ = some rest ∧ vs = [v]) := by
  rw [elements] at h
  obtain ⟨⟨v, r₀⟩, hvalue, h⟩ := Option.bind_eq_some_iff.mp h
  refine ⟨v, r₀, hvalue, ?_⟩
  dsimp only at h
  rcases hcomma : expect ',' r₀ with _ | r₁
  · rw [hcomma] at h
    obtain ⟨r₁, hend, h⟩ := Option.bind_eq_some_iff.mp h
    cases h
    exact .inr ⟨hend, rfl⟩
  · rw [hcomma] at h
    obtain ⟨⟨vs', r₂⟩, helements, h⟩ := Option.bind_eq_some_iff.mp h
    cases h
    exact .inl ⟨r₁, vs', rfl, helements, rfl⟩

/-- What a value is read from. -/
theorem of_value (h : value (fuel + 1) text = some (v, rest)) :
    (∃ r, expect '{' text = some r ∧ ((expect '}' r = some rest ∧ v = .object []) ∨
        ∃ ms, members fuel r = some (ms, rest) ∧ v = .object ms)) ∨
      (∃ r, expect '[' text = some r ∧ ((expect ']' r = some rest ∧ v = .array []) ∨
        ∃ vs, elements fuel r = some (vs, rest) ∧ v = .array vs)) ∨
      (∃ r s, expect '"' text = some r ∧ string r = some (s, rest) ∧ v = .string s) ∨
      atom (skip text) = some (v, rest) := by
  rw [value] at h
  split at h
  · rename_i r hskip
    refine .inl ⟨r, expect_eq_some.mpr hskip, ?_⟩
    rcases hend : expect '}' r with _ | r'
    · rw [hend] at h
      obtain ⟨⟨ms, r'⟩, hmembers, heq⟩ := Option.map_eq_some_iff.mp h
      cases heq
      exact .inr ⟨ms, hmembers, rfl⟩
    · rw [hend] at h
      cases h
      exact .inl ⟨rfl, rfl⟩
  · rename_i r hskip
    refine .inr (.inl ⟨r, expect_eq_some.mpr hskip, ?_⟩)
    rcases hend : expect ']' r with _ | r'
    · rw [hend] at h
      obtain ⟨⟨vs, r'⟩, helements, heq⟩ := Option.map_eq_some_iff.mp h
      cases heq
      exact .inr ⟨vs, helements, rfl⟩
    · rw [hend] at h
      cases h
      exact .inl ⟨rfl, rfl⟩
  · rename_i r hskip
    obtain ⟨⟨s, r'⟩, hstring, heq⟩ := Option.map_eq_some_iff.mp h
    cases heq
    exact .inr (.inr (.inl ⟨r, s, expect_eq_some.mpr hskip, hstring, rfl⟩))
  · exact .inr (.inr (.inr h))

theorem atom_rest (h : atom text = some (v, rest)) : rest = text.dropWhile isTokenChar := by
  rw [atom] at h
  split_ifs at h <;> cases h <;> rfl

theorem value_object {r : List Char} (hopen : skip text = '{' :: r) (hend : expect '}' r = none) :
    value (fuel + 1) text = (members fuel r).map fun p ↦ (.object p.1, p.2) := by
  simp only [value, hopen, hend]

theorem value_array {r : List Char} (hopen : skip text = '[' :: r) (hend : expect ']' r = none) :
    value (fuel + 1) text = (elements fuel r).map fun p ↦ (.array p.1, p.2) := by
  simp only [value, hopen, hend]

theorem value_string {r : List Char} (hopen : skip text = '"' :: r) :
    value (fuel + 1) text = (string r).map fun p ↦ (.string p.1, p.2) := by
  simp only [value, hopen]

/-- A value does not depend on the spaces before it. -/
theorem value_congr {text' : List Char} (h : skip text = skip text') :
    value fuel text = value fuel text' := by
  cases fuel with
  | zero => rfl
  | succ fuel => rw [value, value, h]

end Steps

/-! ## Values -/

/-- **What is left is a suffix** of the text, after a value, an object or an array. -/
theorem suffixes (fuel : ℕ) :
    (∀ text v rest, value fuel text = some (v, rest) → rest <:+ text) ∧
      (∀ text ms rest, members fuel text = some (ms, rest) → rest <:+ text) ∧
        ∀ text vs rest, elements fuel text = some (vs, rest) → rest <:+ text := by
  induction fuel with
  | zero =>
    exact ⟨fun _ _ _ h ↦ (by cases h), fun _ _ _ h ↦ (by cases h), fun _ _ _ h ↦ by cases h⟩
  | succ fuel ih =>
    obtain ⟨ihValue, ihMembers, ihElements⟩ := ih
    refine ⟨fun text v rest h ↦ ?_, fun text ms rest h ↦ ?_, fun text vs rest h ↦ ?_⟩
    · rcases of_value h with ⟨r, hr, ⟨hend, -⟩ | ⟨ms, hms, -⟩⟩ |
        ⟨r, hr, ⟨hend, -⟩ | ⟨vs, hvs, -⟩⟩ | ⟨r, s, hr, hs, -⟩ | hatom
      · exact (expect_suffix hend).trans (expect_suffix hr)
      · exact (ihMembers r ms rest hms).trans (expect_suffix hr)
      · exact (expect_suffix hend).trans (expect_suffix hr)
      · exact (ihElements r vs rest hvs).trans (expect_suffix hr)
      · exact (string_suffix hs).trans (expect_suffix hr)
      · rw [atom_rest hatom]
        exact (List.dropWhile_suffix _).trans (skip_suffix text)
    · obtain ⟨r₀, key, r₁, r₂, v, r₃, h₀, hkey, h₁, hv, hrest⟩ := of_members h
      have hr₃ : r₃ <:+ text := (((ihValue r₂ v r₃ hv).trans (expect_suffix h₁)).trans
        (string_suffix hkey)).trans (expect_suffix h₀)
      rcases hrest with ⟨r₄, ms', h₄, hms, -⟩ | ⟨hend, -⟩
      · exact ((ihMembers r₄ ms' rest hms).trans (expect_suffix h₄)).trans hr₃
      · exact (expect_suffix hend).trans hr₃
    · obtain ⟨v, r₀, hv, ⟨r₁, vs', h₁, hvs, -⟩ | ⟨hend, -⟩⟩ := of_elements h
      · exact ((ihElements r₁ vs' rest hvs).trans (expect_suffix h₁)).trans (ihValue text v r₀ hv)
      · exact (expect_suffix hend).trans (ihValue text v r₀ hv)

variable {v : Value} {vs : List Value} {ms : List (List Char × Value)}

theorem value_suffix (h : value fuel text = some (v, rest)) : rest <:+ text :=
  (suffixes fuel).1 text v rest h

section Has

variable {s key : List Char}

theorem Value.HasMember.has_key {u : Value} (h : Value.HasMember key u v) : v.Has key := by
  induction h with
  | here h => exact .key h
  | member hu h ih => exact .member hu ih
  | element hu h ih => exact .element hu ih

theorem Value.HasMember.has {u : Value} (h : Value.HasMember key u v) (hs : u.Has s) : v.Has s := by
  induction h with
  | here h => exact .member h hs
  | member hu h ih => exact .member hu ih
  | element hu h ih => exact .element hu ih

theorem has_object_cons (h : (Value.object ((key, v) :: ms)).Has s) :
    s = key ∨ v.Has s ∨ (Value.object ms).Has s := by
  cases h with
  | key h =>
    rcases List.mem_cons.mp h with heq | h
    · exact .inl (congrArg Prod.fst heq)
    · exact .inr (.inr (.key h))
  | member hu h =>
    rcases List.mem_cons.mp hu with heq | hu
    · cases heq
      exact .inr (.inl h)
    · exact .inr (.inr (.member hu h))

theorem has_array_cons (h : (Value.array (v :: vs)).Has s) : v.Has s ∨ (Value.array vs).Has s := by
  cases h with
  | element hu h =>
    rcases List.mem_cons.mp hu with rfl | hu
    · exact .inl h
    · exact .inr (.element hu h)

theorem not_has_atom (h : atom text = some (v, rest)) : ¬v.Has s := by
  intro hs
  rw [atom] at h
  split_ifs at h
  all_goals
    cases h
    cases hs

theorem not_has_nil : ¬(Value.object []).Has s ∧ ¬(Value.array []).Has s := by
  refine ⟨fun h ↦ ?_, fun h ↦ ?_⟩
  · cases h with
    | key h => cases h
    | member hu h => cases hu
  · cases h with
    | element hu h => cases hu

/-- **All that is read is in the text**, in a value, an object or an array. -/
theorem quoted_of_has (fuel : ℕ) :
    (∀ text v rest, value fuel text = some (v, rest) → v.Has s → Quoted text s) ∧
      (∀ text ms rest, members fuel text = some (ms, rest) → (Value.object ms).Has s →
        Quoted text s) ∧
      ∀ text vs rest, elements fuel text = some (vs, rest) → (Value.array vs).Has s →
        Quoted text s := by
  induction fuel with
  | zero =>
    exact ⟨fun _ _ _ h ↦ (by cases h), fun _ _ _ h ↦ (by cases h), fun _ _ _ h ↦ by cases h⟩
  | succ fuel ih =>
    obtain ⟨ihValue, ihMembers, ihElements⟩ := ih
    refine ⟨fun text v rest h hs ↦ ?_, fun text ms rest h hs ↦ ?_, fun text vs rest h hs ↦ ?_⟩
    · rcases of_value h with ⟨r, hr, ⟨-, rfl⟩ | ⟨ms, hms, rfl⟩⟩ |
        ⟨r, hr, ⟨-, rfl⟩ | ⟨vs, hvs, rfl⟩⟩ | ⟨r, s', hr, hs', rfl⟩ | hatom
      · exact absurd hs not_has_nil.1
      · exact (ihMembers r ms rest hms hs).of_suffix (expect_suffix hr)
      · exact absurd hs not_has_nil.2
      · exact (ihElements r vs rest hvs hs).of_suffix (expect_suffix hr)
      · cases hs
        exact (quoted_of_string hs').of_suffix (expect_suffix hr)
      · exact absurd hs (not_has_atom hatom)
    · obtain ⟨r₀, key, r₁, r₂, v, r₃, h₀, hkey, h₁, hv, hrest⟩ := of_members h
      have hr₂ : r₂ <:+ text :=
        ((expect_suffix h₁).trans (string_suffix hkey)).trans (expect_suffix h₀)
      have hr₃ : r₃ <:+ text := (value_suffix hv).trans hr₂
      obtain ⟨ms', rfl, hms'⟩ : ∃ ms', ms = (key, v) :: ms' ∧
          ((Value.object ms').Has s → Quoted text s) := by
        rcases hrest with ⟨r₄, ms', h₄, hms, rfl⟩ | ⟨-, rfl⟩
        · refine ⟨ms', rfl, fun hs ↦ (ihMembers r₄ ms' rest hms hs).of_suffix ?_⟩
          exact (expect_suffix h₄).trans hr₃
        · exact ⟨[], rfl, fun hs ↦ absurd hs not_has_nil.1⟩
      rcases has_object_cons hs with rfl | hs | hs
      · exact (quoted_of_string hkey).of_suffix (expect_suffix h₀)
      · exact (ihValue r₂ v r₃ hv hs).of_suffix hr₂
      · exact hms' hs
    · obtain ⟨v, r₀, hv, hrest⟩ := of_elements h
      obtain ⟨vs', rfl, hvs'⟩ : ∃ vs', vs = v :: vs' ∧
          ((Value.array vs').Has s → Quoted text s) := by
        rcases hrest with ⟨r₁, vs', h₁, hvs, rfl⟩ | ⟨-, rfl⟩
        · refine ⟨vs', rfl, fun hs ↦ (ihElements r₁ vs' rest hvs hs).of_suffix ?_⟩
          exact (expect_suffix h₁).trans (value_suffix hv)
        · exact ⟨[], rfl, fun hs ↦ absurd hs not_has_nil.2⟩
      rcases has_array_cons hs with hs | hs
      · exact ihValue text v r₀ hv hs
      · exact hvs' hs

theorem Parses.quoted (h : Parses text v) (hs : v.Has s) : Quoted text s := by
  obtain ⟨fuel, rest, hvalue, -⟩ := h
  exact (quoted_of_has fuel).1 text v rest hvalue hs

end Has

/-! ## Tokens and names -/

theorem isSpace_of_isTokenChar {c : Char} (h : isTokenChar c = true) : isSpace c = false := by
  by_contra hspace
  rw [Bool.not_eq_false, isSpace, Bool.or_eq_true, Bool.or_eq_true, Bool.or_eq_true] at hspace
  rcases hspace with ((hc | hc) | hc) | hc
  all_goals
    rw [eq_of_beq hc] at h
    exact absurd h (by decide)

/-- **A token, and then a comma**: it is read up to there. -/
theorem value_token (h : x.all isTokenChar = true)
    (hv : value fuel (x ++ ',' :: text) = some (v, rest)) : rest = ',' :: text := by
  have hhead : ∃ c r, x ++ ',' :: text = c :: r ∧ (c = ',' ∨ isTokenChar c = true) := by
    rcases x with _ | ⟨c, x⟩
    · exact ⟨',', text, rfl, .inl rfl⟩
    · rw [List.all_cons, Bool.and_eq_true] at h
      exact ⟨c, x ++ ',' :: text, rfl, .inr h.1⟩
  obtain ⟨c, r, heq, hc⟩ := hhead
  have hskip : skip (x ++ ',' :: text) = x ++ ',' :: text := by
    rw [heq, skip_cons, if_neg]
    rcases hc with rfl | hc
    · decide
    · rw [isSpace_of_isTokenChar hc]
      exact Bool.false_ne_true
  have hexpect : ∀ {c' : Char} {y : List Char}, isTokenChar c' = false → c' ≠ ',' →
      expect c' (x ++ ',' :: text) ≠ some y := by
    intro c' y htoken hcomma hy
    rw [expect_eq_some, hskip, heq, List.cons.injEq] at hy
    obtain ⟨rfl, -⟩ := hy
    rcases hc with rfl | hc
    · exact hcomma rfl
    · rw [hc] at htoken
      cases htoken
  cases fuel with
  | zero => cases hv
  | succ fuel =>
    rcases of_value hv with ⟨r, hr, -⟩ | ⟨r, hr, -⟩ | ⟨r, s, hr, -⟩ | hatom
    · exact absurd hr (hexpect (by decide) (by decide))
    · exact absurd hr (hexpect (by decide) (by decide))
    · exact absurd hr (hexpect (by decide) (by decide))
    · rw [hskip] at hatom
      rw [atom_rest hatom, List.dropWhile_append_of_pos (by simpa using h),
        List.dropWhile_cons_of_neg (by decide)]

/-- **A member whose name is plain.** -/
theorem of_members_key {key r r' : List Char} (hkey : key.all isPlain = true)
    (hquote : skip text = '"' :: (key ++ '"' :: r)) (hcolon : skip r = ':' :: r')
    (h : members fuel text = some (ms, rest)) :
    ∃ fuel' v r₃, value fuel' r' = some (v, r₃) ∧
      ((∃ r₄ ms', expect ',' r₃ = some r₄ ∧ members fuel' r₄ = some (ms', rest) ∧
        ms = (key, v) :: ms') ∨ expect '}' r₃ = some rest ∧ ms = [(key, v)]) := by
  cases fuel with
  | zero => cases h
  | succ fuel =>
    obtain ⟨r₀, key', r₁, r₂, v, r₃, h₀, hkey', h₁, hv, hrest⟩ := of_members h
    rw [expect_eq_some, hquote, List.cons.injEq] at h₀
    rw [← h₀.2, string_append hkey] at hkey'
    cases hkey'
    rw [expect_eq_some, hcolon, List.cons.injEq] at h₁
    exact ⟨fuel, v, r₃, h₁.2 ▸ hv, hrest⟩

/-- **A member whose name is plain and whose value is a token**, and others after it. -/
theorem of_members_token {key r r' : List Char} (hkey : key.all isPlain = true)
    (hquote : skip text = '"' :: (key ++ '"' :: r)) (hcolon : skip r = ':' :: r')
    (hx : x.all isTokenChar = true) (hr : skip r' = skip (x ++ ',' :: y))
    (h : members fuel text = some (ms, rest)) :
    ∃ fuel' v ms', members fuel' y = some (ms', rest) ∧ ms = (key, v) :: ms' := by
  obtain ⟨fuel', v, r₃, hv, hrest⟩ := of_members_key hkey hquote hcolon h
  rw [value_congr hr] at hv
  obtain rfl := value_token hx hv
  rcases hrest with ⟨r₄, ms', h₄, hms, rfl⟩ | ⟨hend, -⟩
  · rw [expect_eq_some, skip_cons, if_neg (by decide), List.cons.injEq] at h₄
    exact ⟨fuel', v, ms', h₄.2 ▸ hms, rfl⟩
  · rw [expect_eq_some, skip_cons, if_neg (by decide), List.cons.injEq] at hend
    exact absurd hend.1 (by decide)

end Json
