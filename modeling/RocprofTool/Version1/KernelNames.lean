import Mathlib.Data.List.Infix
import RocprofTool.Lib.Loop
import RocprofTool.Version1.Contexts

/-!
# The base name of a kernel

`filter_kernel_name` goes through the name of a kernel from its end.  The first loop skips blanks
and bracket groups, the second one takes what comes then up to a blank or a colon, and `substr`
cuts that out, by the positions of the iterators.

* `skipBrackets` ends where it should: what it leaves is an initial part of the name, and it ends in
  a character that is no closing bracket and no blank (`closesNothing_skipBrackets`), unless nothing
  is left.  A bracket group is skipped as a whole (`skipBrackets_group`).
* So the result is a part of the name without blanks and colons that is its own result
  (`filterKernelName_projection`), and of a name made of something in front, a base name and bracket
  groups it is the base name (`filterKernelName_append`).
* `filterKernelNameLoops` is the function once more, with its reverse iterators as positions, where
  reading outside the name and `substr` behind its end are errors.  There are none
  (`filterKernelNameLoops_eq`), for names of any length.
-/

set_option autoImplicit false

namespace Version1
namespace KernelNames

open Loop

/-! ## The first loop -/

/-- The kinds of brackets that are skipped. -/
def brackets : List (Char × Char) := [('(', ')'), ('<', '>'), ('[', ']')]

/-- The characters that the first loop does not stop at, outside of brackets. -/
def skipped : List Char := [' ', ')', '>', ']']

/-- The characters that the second loop stops at. -/
def separators : List Char := [' ', ':']

/-- The counter after a character inside of brackets. -/
def count (counter : UInt32) (openToken closeToken c : Char) : UInt32 :=
  let counter := if c = openToken then counter + 1 else counter
  if c = closeToken then counter - 1 else counter

variable {rit : List Char} {c openToken closeToken : Char}

theorem skipBrackets_closer {opener closer : Char} (h : (opener, closer) ∈ brackets) :
    skipBrackets (closer :: rit) 0 openToken closeToken = skipBrackets rit 1 closer opener := by
  simp only [brackets, List.mem_cons, Prod.mk.injEq, List.not_mem_nil, or_false] at h
  rcases h with ⟨rfl, rfl⟩ | ⟨rfl, rfl⟩ | ⟨rfl, rfl⟩ <;> rfl

theorem skipBrackets_blank :
    skipBrackets (' ' :: rit) 0 openToken closeToken = skipBrackets rit 0 openToken closeToken :=
  rfl

theorem skipBrackets_stop (h : c ∉ skipped) :
    skipBrackets (c :: rit) 0 openToken closeToken = c :: rit := by
  simp only [skipped, List.mem_cons, List.not_mem_nil, or_false, not_or] at h
  obtain ⟨hblank, hround, hangle, hsquare⟩ := h
  rw [skipBrackets, if_pos rfl] <;> assumption

theorem skipBrackets_of_head (h : ∀ c ∈ rit.head?, c ∉ skipped) :
    skipBrackets rit 0 openToken closeToken = rit := by
  cases rit with
  | nil => rfl
  | cons c rit => exact skipBrackets_stop (h c rfl)

theorem skipBrackets_inside {counter : UInt32} (h : counter ≠ 0) :
    skipBrackets (c :: rit) counter openToken closeToken
      = skipBrackets rit (count counter openToken closeToken c) openToken closeToken := by
  rw [skipBrackets.eq_def]
  exact if_neg h

/-- A character outside of brackets is skipped as a blank, begins a bracket group, or ends the
loop. -/
theorem outside_cases (c : Char) :
    c = ' ' ∨ (∃ opener, (opener, c) ∈ brackets) ∨ c ∉ skipped := by
  by_cases h : c ∈ skipped
  · simp only [skipped, List.mem_cons, List.not_mem_nil, or_false] at h
    rcases h with rfl | rfl | rfl | rfl
    · exact .inl rfl
    · exact .inr (.inl ⟨'(', by decide⟩)
    · exact .inr (.inl ⟨'<', by decide⟩)
    · exact .inr (.inl ⟨'[', by decide⟩)
  · exact .inr (.inr h)

/-- The tokens are only looked at inside of brackets. -/
theorem skipBrackets_outside (rit : List Char) (openToken closeToken : Char) :
    skipBrackets rit 0 openToken closeToken = skipBrackets rit 0 '\x00' '\x00' := by
  induction rit with
  | nil => rfl
  | cons c rit ih =>
    rcases outside_cases c with rfl | ⟨opener, h⟩ | h
    · rw [skipBrackets_blank, skipBrackets_blank, ih]
    · rw [skipBrackets_closer h, skipBrackets_closer h]
    · rw [skipBrackets_stop h, skipBrackets_stop h]

/-- The first loop leaves a part of what it goes through. -/
theorem skipBrackets_suffix (rit : List Char) (counter : UInt32) (openToken closeToken : Char) :
    skipBrackets rit counter openToken closeToken <:+ rit := by
  induction rit generalizing counter openToken closeToken with
  | nil => exact List.suffix_rfl
  | cons c rit ih =>
    by_cases hzero : counter = 0
    · subst hzero
      rcases outside_cases c with rfl | ⟨opener, h⟩ | h
      · rw [skipBrackets_blank]
        exact (ih _ _ _).trans (List.suffix_cons _ _)
      · rw [skipBrackets_closer h]
        exact (ih _ _ _).trans (List.suffix_cons _ _)
      · rw [skipBrackets_stop h]
    · rw [skipBrackets_inside hzero]
      exact (ih _ _ _).trans (List.suffix_cons _ _)

/-- **The first loop stops at a character that it does not skip**, however the brackets are
nested, or at the start of the name. -/
theorem closesNothing_skipBrackets (rit : List Char) (counter : UInt32)
    (openToken closeToken : Char) :
    ∀ c ∈ (skipBrackets rit counter openToken closeToken).head?, c ∉ skipped := by
  induction rit generalizing counter openToken closeToken with
  | nil => exact fun c hc ↦ nomatch hc
  | cons c rit ih =>
    by_cases hzero : counter = 0
    · subst hzero
      rcases outside_cases c with rfl | ⟨opener, h⟩ | h
      · rw [skipBrackets_blank]
        exact ih _ _ _
      · rw [skipBrackets_closer h]
        exact ih _ _ _
      · rw [skipBrackets_stop h]
        rintro d hd
        cases hd
        exact h
    · rw [skipBrackets_inside hzero]
      exact ih _ _ _

/-! ## Bracket groups -/

/-- A bracket group: it begins with the opening bracket and ends with the closing one, and from its
end on these two are balanced for the first time at its beginning.  Other brackets do not matter. -/
structure IsGroup (opener closer : Char) (group : List Char) : Prop where
  kind : (opener, closer) ∈ brackets
  opens : group.head? = some opener
  closes : group.getLast? = some closer
  balanced : group.count opener = group.count closer
  first : ∀ part ∈ group.tails, part ≠ [] → part ≠ group → part.count opener ≠ part.count closer

instance (opener closer : Char) (group : List Char) : Decidable (IsGroup opener closer group) :=
  decidable_of_iff ((opener, closer) ∈ brackets ∧ group.head? = some opener
      ∧ group.getLast? = some closer ∧ group.count opener = group.count closer
      ∧ ∀ part ∈ group.tails, part ≠ [] → part ≠ group → part.count opener ≠ part.count closer)
    ⟨fun h ↦ ⟨h.1, h.2.1, h.2.2.1, h.2.2.2.1, h.2.2.2.2⟩,
      fun h ↦ ⟨h.kind, h.opens, h.closes, h.balanced, h.first⟩⟩

/-- A blank, or a bracket group. -/
def IsPiece (piece : List Char) : Prop :=
  piece = [' '] ∨ ∃ kind ∈ brackets, IsGroup kind.1 kind.2 piece

instance (piece : List Char) : Decidable (IsPiece piece) :=
  decidable_of_iff
    (piece = [' '] ∨ (brackets.any fun kind ↦ decide (IsGroup kind.1 kind.2 piece)) = true)
    (or_congr_right (by simp only [List.any_eq_true, decide_eq_true_eq]))

/-- What may follow the base name: blanks and bracket groups. -/
def IsTrailer (pieces : List (List Char)) : Prop := ∀ piece ∈ pieces, IsPiece piece

instance (pieces : List (List Char)) : Decidable (IsTrailer pieces) :=
  List.decidableBAll IsPiece pieces

theorem toNat_count {opener closer : Char} (hne : opener ≠ closer) {counter : UInt32}
    (hpos : 0 < counter.toNat) (hsize : counter.toNat + 1 < 2 ^ 32) (c : Char) :
    (count counter closer opener c).toNat + (if c = opener then 1 else 0)
      = counter.toNat + (if c = closer then 1 else 0) := by
  by_cases hcloser : c = closer
  · subst hcloser
    rw [count, if_pos rfl, if_neg hne.symm, if_neg hne.symm, if_pos rfl, UInt32.toNat_add]
    exact Nat.mod_eq_of_lt hsize
  · by_cases hopener : c = opener
    · subst hopener
      have hle : (1 : UInt32) ≤ counter := UInt32.le_iff_toNat_le.mpr hpos
      rw [count, if_neg hcloser, if_pos rfl, if_pos rfl, if_neg hcloser,
        UInt32.toNat_sub_of_le _ _ hle]
      exact Nat.sub_add_cancel hpos
    · rw [count, if_neg hcloser, if_neg hopener, if_neg hopener, if_neg hcloser]

/-- What comes in a group after some of it: the counter is zero at the end of it for the first
time. -/
theorem skipBrackets_part {opener closer : Char} (hne : opener ≠ closer) {part : List Char}
    {counter : UInt32} (hpos : 0 < counter.toNat)
    (hsize : counter.toNat + part.length < 2 ^ 32)
    (hbalanced : part.count opener = counter.toNat + part.count closer)
    (hfirst : ∀ start, start <+: part → start ≠ part →
      start.count opener ≠ counter.toNat + start.count closer) (rest : List Char) :
    skipBrackets (part ++ rest) counter closer opener = skipBrackets rest 0 closer opener := by
  induction part generalizing counter with
  | nil =>
    have hzero : 0 = counter.toNat := hbalanced
    omega
  | cons c part ih =>
    rw [List.length_cons] at hsize
    have hcounter : counter ≠ 0 := by
      rintro rfl
      exact Nat.lt_irrefl _ hpos
    have hnext := toNat_count hne hpos (by omega) c
    -- counting on from the counter after `c` is counting on from the one before it
    have hon (start : List Char) : (c :: start).count opener = counter.toNat
        + (c :: start).count closer ↔ start.count opener
          = (count counter closer opener c).toNat + start.count closer := by
      simp only [List.count_cons, beq_iff_eq]
      omega
    rw [List.cons_append, skipBrackets_inside hcounter]
    rcases eq_or_ne part [] with rfl | hpart
    · have hzero : count counter closer opener c = 0 :=
        UInt32.toNat_inj.mp ((hon []).mp hbalanced).symm
      rw [hzero, List.nil_append]
    · refine ih ?_ ?_ ((hon part).mp hbalanced) fun start hstart hproper ↦ ?_
      · have hnot := hfirst [c] ⟨part, rfl⟩ (by simpa using hpart.symm)
        have hnonzero := (hon []).not.mp hnot
        exact Nat.pos_of_ne_zero fun h ↦ hnonzero h.symm
      · split at hnext <;> split at hnext <;> omega
      · refine (hon start).not.mp (hfirst (c :: start) ?_ ?_)
        · exact (List.prefix_cons_inj c).mpr hstart
        · simpa using hproper

/-- **A bracket group is skipped as a whole.** -/
theorem skipBrackets_group {opener closer : Char} {group : List Char}
    (h : IsGroup opener closer group) (hsize : group.length < 2 ^ 32) (rest : List Char) :
    skipBrackets (group.reverse ++ rest) 0 '\x00' '\x00' = skipBrackets rest 0 '\x00' '\x00' := by
  have hne : opener ≠ closer := by
    have hall : ∀ kind ∈ brackets, kind.1 ≠ kind.2 := by decide
    exact hall _ h.kind
  obtain ⟨front, rfl⟩ := List.getLast?_eq_some_iff.mp h.closes
  have hbalanced := h.balanced
  rw [List.length_append, List.length_singleton] at hsize
  rw [List.count_append, List.count_append, List.count_singleton_self,
    List.count_singleton, if_neg (by simpa using hne.symm), Nat.add_zero] at hbalanced
  rw [List.reverse_append, List.reverse_singleton, List.append_assoc, List.singleton_append,
    skipBrackets_closer h.kind, ← skipBrackets_outside rest closer opener]
  have hone : 0 < (1 : UInt32).toNat := Nat.one_pos
  refine skipBrackets_part hne hone ?_ ?_ (fun start hstart hproper ↦ ?_) rest
  · rw [List.length_reverse]
    exact (Nat.add_comm _ _).trans_lt hsize
  · rw [List.count_reverse, List.count_reverse, hbalanced]
    exact Nat.add_comm _ _
  · -- what has been counted so far is a part of the group that ends where the group does
    obtain ⟨rest, hrest⟩ := hstart
    have hfront : front = rest.reverse ++ start.reverse := by
      rw [← List.reverse_append, hrest, List.reverse_reverse]
    have hpart : start.reverse ++ [closer] ∈ (front ++ [closer]).tails := by
      rw [List.mem_tails, hfront, List.append_assoc]
      exact List.suffix_append _ _
    have hnot := h.first _ hpart (by simp) fun heq ↦ ?_
    · rw [List.count_append, List.count_append, List.count_singleton_self,
        List.count_singleton, if_neg (by simpa using hne.symm), List.count_reverse,
        List.count_reverse, Nat.add_zero, Nat.add_comm] at hnot
      exact hnot
    · rw [List.append_cancel_right_eq] at heq
      rw [← heq, List.reverse_reverse] at hproper
      exact hproper rfl

theorem skipBrackets_trailer {pieces : List (List Char)} (h : IsTrailer pieces)
    (hsize : pieces.flatten.length < 2 ^ 32) (rest : List Char) :
    skipBrackets (pieces.flatten.reverse ++ rest) 0 '\x00' '\x00'
      = skipBrackets rest 0 '\x00' '\x00' := by
  induction pieces generalizing rest with
  | nil => rfl
  | cons piece pieces ih =>
    rw [IsTrailer, List.forall_mem_cons] at h
    rw [List.flatten_cons, List.length_append] at hsize
    rw [List.flatten_cons, List.reverse_append, List.append_assoc, ih h.2 (by omega)]
    rcases h.1 with rfl | ⟨⟨opener, closer⟩, -, hgroup⟩
    · rfl
    · exact skipBrackets_group hgroup (by omega) rest

/-! ## The base name -/

/-- The second loop goes on at this character. -/
abbrev isBase (c : Char) : Bool := c != ' ' && c != ':'

theorem isBase_iff {c : Char} : isBase c = true ↔ c ∉ separators := by
  simp [isBase, separators]

/-- What the second loop takes. -/
def base (name : List Char) : List Char :=
  (skipBrackets name.reverse 0 '\x00' '\x00').takeWhile isBase

/-- The name has the base name in it, the other way round. -/
theorem exists_base (name : List Char) :
    ∃ front back : List Char, skipBrackets name.reverse 0 '\x00' '\x00' = base name ++ front
      ∧ name = front.reverse ++ (base name).reverse ++ back.reverse := by
  obtain ⟨back, hback⟩ := skipBrackets_suffix name.reverse 0 '\x00' '\x00'
  refine ⟨(skipBrackets name.reverse 0 '\x00' '\x00').dropWhile isBase, back, ?_, ?_⟩
  · exact List.takeWhile_append_dropWhile.symm
  · rw [← List.reverse_append, ← List.reverse_append, base, List.takeWhile_append_dropWhile,
      hback, List.reverse_reverse]

/-- **The result** of `filter_kernel_name`, for a name whose positions fit into 32 bits. -/
theorem filterKernelName_eq {name : List Char} (hsize : name.length < 2 ^ 32) :
    filterKernelName name = (base name).reverse := by
  obtain ⟨front, back, hrbeg, hname⟩ := exists_base name
  have hlength : name.length = front.length + (base name).length + back.length := by
    have h := congrArg List.length hname
    simpa only [List.length_append, List.length_reverse] using h
  have hpos : (UInt32.ofNat front.length).toNat = front.length :=
    UInt32.toNat_ofNat_of_lt' (show _ < 2 ^ 32 by omega)
  have hlen : (UInt32.ofNat (base name).length).toNat = (base name).length :=
    UInt32.toNat_ofNat_of_lt' (show _ < 2 ^ 32 by omega)
  have hcut : ∀ name', name' = front.reverse ++ (base name).reverse ++ back.reverse →
      (name'.drop front.length).take (base name).length = (base name).reverse := by
    rintro _ rfl
    rw [List.append_assoc, List.drop_left' List.length_reverse, List.take_left' List.length_reverse]
  show ((name.drop (UInt32.ofNat
    ((skipBrackets name.reverse 0 '\x00' '\x00').length - (base name).length)).toNat).take
      (UInt32.ofNat (base name).length).toNat) = _
  rw [hrbeg, List.length_append, Nat.add_sub_cancel_left, hpos, hlen, hcut name hname]

theorem not_mem_separators_of_mem_base {name : List Char} {c : Char} (h : c ∈ base name) :
    c ∉ separators :=
  isBase_iff.mp (List.mem_takeWhile_imp h)

/-- The base name ends in a character that the first loop stops at. -/
theorem head_base {name : List Char} : ∀ c ∈ (base name).head?, c ∉ skipped := by
  intro c hc
  refine closesNothing_skipBrackets name.reverse 0 '\x00' '\x00' c ?_
  obtain ⟨front, back, hrbeg, -⟩ := exists_base name
  rw [hrbeg, List.head?_append, Option.mem_def.mp hc]
  rfl

/-- The base name of something in front, a base name, and blanks and bracket groups. -/
theorem base_append {front name : List Char} {pieces : List (List Char)} (hname : name ≠ [])
    (hbase : ∀ c ∈ name, c ∉ separators) (hlast : ∀ c ∈ name.getLast?, c ∉ skipped)
    (hfront : ∀ c ∈ front.getLast?, c ∈ separators) (htrailer : IsTrailer pieces)
    (hsize : (front ++ name ++ pieces.flatten).length < 2 ^ 32) :
    base (front ++ name ++ pieces.flatten) = name.reverse := by
  rw [List.length_append] at hsize
  have hrbeg : skipBrackets (front ++ name ++ pieces.flatten).reverse 0 '\x00' '\x00'
      = name.reverse ++ front.reverse := by
    rw [List.reverse_append, skipBrackets_trailer htrailer (by omega), List.reverse_append]
    refine skipBrackets_of_head ?_
    rw [List.head?_append, List.head?_reverse, Option.or_of_isSome (by simpa using hname)]
    exact hlast
  have hstop : front.reverse.takeWhile isBase = [] := by
    rw [← List.head?_eq_none_iff, List.head?_takeWhile, List.head?_reverse,
      Option.filter_eq_none_iff]
    exact fun c hc ↦ isBase_iff.not.mpr (not_not_intro (hfront c hc))
  rw [base, hrbeg, List.takeWhile_append_of_pos, hstop, List.append_nil]
  intro c hc
  exact isBase_iff.mpr (hbase c (List.mem_reverse.mp hc))

/-- What `filter_kernel_name` is for: of a name that is something in front, a base name, and blanks
and bracket groups, it returns the base name. -/
theorem filterKernelName_append {front name : List Char} {pieces : List (List Char)}
    (hname : name ≠ []) (hbase : ∀ c ∈ name, c ∉ separators)
    (hlast : ∀ c ∈ name.getLast?, c ∉ skipped) (hfront : ∀ c ∈ front.getLast?, c ∈ separators)
    (htrailer : IsTrailer pieces) (hsize : (front ++ name ++ pieces.flatten).length < 2 ^ 32) :
    filterKernelName (front ++ name ++ pieces.flatten) = name := by
  rw [filterKernelName_eq hsize, base_append hname hbase hlast hfront htrailer hsize,
    List.reverse_reverse]

/-- A base name is its own base name. -/
theorem filterKernelName_self {name : List Char} (hname : name ≠ [])
    (hbase : ∀ c ∈ name, c ∉ separators) (hlast : ∀ c ∈ name.getLast?, c ∉ skipped)
    (hsize : name.length < 2 ^ 32) : filterKernelName name = name := by
  have h := @filterKernelName_append [] name [] hname hbase hlast
    (fun c hc ↦ nomatch hc) (fun piece hpiece ↦ nomatch hpiece)
  rw [List.flatten_nil, List.append_nil, List.nil_append] at h
  exact h hsize

/-- **`filter_kernel_name` is a projection**: the result is a part of the name that has no
separators in it and does not end in a closing bracket, and it is its own result. -/
theorem filterKernelName_projection (name : List Char) (hsize : name.length < 2 ^ 32) :
    filterKernelName name <:+: name
      ∧ (∀ c ∈ filterKernelName name, c ≠ ' ' ∧ c ≠ ':')
      ∧ (∀ c ∈ (filterKernelName name).getLast?, c ≠ ')' ∧ c ≠ '>' ∧ c ≠ ']')
      ∧ filterKernelName (filterKernelName name) = filterKernelName name := by
  obtain ⟨front, back, -, hname⟩ := exists_base name
  rw [filterKernelName_eq hsize]
  have hpart : (base name).reverse <:+: name := ⟨front.reverse, back.reverse, hname.symm⟩
  have hbase : ∀ c ∈ (base name).reverse, c ∉ separators := fun c hc ↦
    not_mem_separators_of_mem_base (List.mem_reverse.mp hc)
  have hlast : ∀ c ∈ (base name).reverse.getLast?, c ∉ skipped := by
    rw [List.getLast?_reverse]
    exact head_base
  refine ⟨hpart, fun c hc ↦ ?_, fun c hc ↦ ?_, ?_⟩
  · have hnot := hbase c hc
    simpa only [separators, List.mem_cons, List.not_mem_nil, or_false, not_or] using hnot
  · have hnot := hlast c hc
    simp only [skipped, List.mem_cons, List.not_mem_nil, or_false, not_or] at hnot
    exact hnot.2
  · rcases eq_or_ne (base name).reverse [] with hnil | hne
    · rw [hnil]
      rfl
    · exact filterKernelName_self hne hbase hlast (hpart.length_le.trans_lt hsize)

/-- Brackets that do not match. -/
theorem filterKernelName_projection_unbalanced :
    filterKernelName "void ns::g<((int) [clone .kd]".toList = "g<(".toList
      ∧ filterKernelName "void ns::g<((int) [clone .kd]".toList <:+:
          "void ns::g<((int) [clone .kd]".toList
      ∧ (∀ c ∈ filterKernelName "void ns::g<((int) [clone .kd]".toList, c ≠ ' ' ∧ c ≠ ':')
      ∧ (∀ c ∈ (filterKernelName "void ns::g<((int) [clone .kd]".toList).getLast?,
          c ≠ ')' ∧ c ≠ '>' ∧ c ≠ ']')
      ∧ filterKernelName (filterKernelName "void ns::g<((int) [clone .kd]".toList)
        = filterKernelName "void ns::g<((int) [clone .kd]".toList :=
  ⟨by decide, filterKernelName_projection _ (by decide)⟩

/-! ## The iterators -/

/-- What a string does not allow. -/
inductive StringFault
  /-- An iterator is read or moved where there is no character. -/
  | outOfRange
  /-- `std::out_of_range`, of `substr`. -/
  | thrown
  deriving DecidableEq, Repr

/-- `*rit`.  The reverse iterator `rit` is the number of characters before it and the one it is at,
so that `rbegin` is the length of the string and `rend` is zero. -/
def deref (name : List Char) : ℕ → Except StringFault Char
  | 0 => .error .outOfRange
  | before + 1 =>
    match name[before]? with
    | none => .error .outOfRange
    | some c => .ok c

/-- `++rit`. -/
def advance : ℕ → Except StringFault ℕ
  | 0 => .error .outOfRange
  | before + 1 => .ok before

/-- `std::string::substr`. -/
def substr (name : List Char) (pos length : ℕ) : Except StringFault (List Char) :=
  if pos ≤ name.length then .ok ((name.drop pos).take length) else .error .thrown

/-- The variables of `filter_kernel_name`; `left` says that the loop has been left before `rend`. -/
structure Scan where
  rit : ℕ
  counter : UInt32 := 0
  openToken : Char := '\x00'
  closeToken : Char := '\x00'
  left : Bool := false

/-- Is there another round? -/
def Scan.running (scan : Scan) : Bool := scan.rit != 0 && !scan.left

/-- A round of the first loop. -/
def bracketRound (name : List Char) (scan : Scan) : Except StringFault Scan := do
  if scan.counter = 0 then
    match ← deref name scan.rit with
    | ')' =>
      let rit ← advance scan.rit
      return { scan with counter := 1, openToken := ')', closeToken := '(', rit := rit }
    | '>' =>
      let rit ← advance scan.rit
      return { scan with counter := 1, openToken := '>', closeToken := '<', rit := rit }
    | ']' =>
      let rit ← advance scan.rit
      return { scan with counter := 1, openToken := ']', closeToken := '[', rit := rit }
    | ' ' => return { scan with rit := ← advance scan.rit }
    | _ => return { scan with left := true }
  else
    let c ← deref name scan.rit
    let counter := if c = scan.openToken then scan.counter + 1 else scan.counter
    let counter := if c = scan.closeToken then counter - 1 else counter
    return { scan with counter := counter, rit := ← advance scan.rit }

/-- A round of the second loop, which begins with the part of the condition that reads. -/
def baseRound (name : List Char) (scan : Scan) : Except StringFault Scan := do
  let c ← deref name scan.rit
  if c ≠ ' ' ∧ c ≠ ':' then
    return { scan with rit := ← advance scan.rit }
  else
    return { scan with left := true }

/-- `filter_kernel_name`, with its iterators. -/
def filterKernelNameLoops (fuel : ℕ) (name : List Char) :
    Except (Halt StringFault) (List Char) := do
  let rbeg ← whileLoop Scan.running (bracketRound name) fuel { rit := name.length }
  let rit ← whileLoop Scan.running (baseRound name) fuel { rit := rbeg.rit }
  let pos := UInt32.ofNat rit.rit
  let length := UInt32.ofNat (rbeg.rit - rit.rit)
  (substr name pos.toNat length.toNat).mapError .fault

/-- What is left to read, from its end on. -/
def unread (name : List Char) (rit : ℕ) : List Char := (name.take rit).reverse

section Rounds

variable {name : List Char} {before fuel : ℕ} {c : Char} {scan : Scan}

theorem unread_succ (h : name[before]? = some c) :
    unread name (before + 1) = c :: unread name before := by
  rw [unread, List.take_add_one, h, List.reverse_append]
  rfl

theorem deref_succ_bind {α : Type} (h : name[before]? = some c)
    (f : Char → Except StringFault α) : (deref name (before + 1) >>= f) = f c := by
  rw [deref, h]
  rfl

theorem running_iff : scan.running = true ↔ scan.rit ≠ 0 ∧ scan.left = false := by
  simp [Scan.running]

/-- **One round of the first loop** does what `skipBrackets` does with one character. -/
theorem bracketRound_succ (hrit : scan.rit = before + 1) (hleft : scan.left = false)
    (h : name[before]? = some c) :
    ∃ next, bracketRound name scan = .ok next
      ∧ (next.left = false ∧ next.rit = before
          ∧ skipBrackets (unread name next.rit) next.counter next.openToken next.closeToken
            = skipBrackets (unread name scan.rit) scan.counter scan.openToken scan.closeToken
        ∨ next.left = true ∧ next.rit = scan.rit
          ∧ unread name next.rit
            = skipBrackets (unread name scan.rit) scan.counter scan.openToken scan.closeToken) := by
  obtain ⟨rit, counter, openToken, closeToken, left⟩ := scan
  dsimp only at hrit hleft
  subst hrit hleft
  rw [unread_succ h]
  by_cases hzero : counter = 0
  · subst hzero
    rcases outside_cases c with rfl | ⟨opener, hkind⟩ | hstop
    · refine ⟨⟨before, 0, openToken, closeToken, false⟩, ?_, .inl ⟨rfl, rfl, rfl⟩⟩
      rw [bracketRound, if_pos rfl, deref_succ_bind h]
      rfl
    · refine ⟨⟨before, 1, c, opener, false⟩, ?_, .inl ⟨rfl, rfl, (skipBrackets_closer hkind).symm⟩⟩
      simp only [brackets, List.mem_cons, Prod.mk.injEq, List.not_mem_nil, or_false] at hkind
      rw [bracketRound, if_pos rfl, deref_succ_bind h]
      rcases hkind with ⟨rfl, rfl⟩ | ⟨rfl, rfl⟩ | ⟨rfl, rfl⟩ <;> rfl
    · refine ⟨⟨before + 1, 0, openToken, closeToken, true⟩, ?_, .inr ⟨rfl, rfl, ?_⟩⟩
      · simp only [skipped, List.mem_cons, List.not_mem_nil, or_false, not_or] at hstop
        obtain ⟨hblank, hround, hangle, hsquare⟩ := hstop
        rw [bracketRound, if_pos rfl, deref_succ_bind h]
        split <;> first | contradiction | rfl
      · rw [unread_succ h, skipBrackets_stop hstop]
  · refine ⟨⟨before, count counter openToken closeToken c, openToken, closeToken, false⟩, ?_,
      .inl ⟨rfl, rfl, (skipBrackets_inside hzero).symm⟩⟩
    rw [bracketRound, if_neg hzero, deref_succ_bind h]
    rfl

/-- One round of the second loop. -/
theorem baseRound_succ (hrit : scan.rit = before + 1) (h : name[before]? = some c) :
    baseRound name scan = .ok (if isBase c then { scan with rit := before }
      else { scan with left := true }) := by
  rw [baseRound, hrit, deref_succ_bind h]
  by_cases hc : isBase c = true
  · rw [if_pos hc, if_pos (by simpa [isBase] using hc)]
    rfl
  · rw [if_neg hc, if_neg (by simpa [isBase] using hc)]
    rfl

/-- **The first loop**, from anywhere in a string. -/
theorem whileLoop_bracketRound (hsize : scan.rit ≤ name.length) (hleft : scan.left = false)
    (hfuel : scan.rit ≤ fuel) :
    ∃ rbeg, whileLoop Scan.running (bracketRound name) fuel scan = .ok rbeg
      ∧ rbeg.rit ≤ scan.rit
      ∧ unread name rbeg.rit
        = skipBrackets (unread name scan.rit) scan.counter scan.openToken scan.closeToken := by
  induction hrit : scan.rit generalizing scan fuel with
  | zero =>
    have hstop : scan.running = false := by simp [Scan.running, hrit]
    refine ⟨scan, whileLoop_of_not hstop fuel, hrit.le, ?_⟩
    rw [hrit]
    rfl
  | succ before ih =>
    rw [hrit] at hsize hfuel
    obtain ⟨fuel, rfl⟩ := Nat.exists_eq_add_of_le' (Nat.one_le_of_lt hfuel)
    have hrun : scan.running = true := running_iff.mpr ⟨by omega, hleft⟩
    obtain ⟨next, hround, hnext⟩ := bracketRound_succ hrit hleft (List.getElem?_eq_getElem hsize)
    rw [whileLoop_round hrun hround, ← hrit]
    rcases hnext with ⟨hgoes, hbefore, hskip⟩ | ⟨hleaves, hstays, hskip⟩
    · have hfuel' : next.rit ≤ fuel := by omega
      obtain ⟨rbeg, hloop, hle, hunread⟩ := ih (by omega) hgoes hfuel' hbefore
      exact ⟨rbeg, hloop, by omega, by rw [hunread, ← hskip, hbefore]⟩
    · have hstop : next.running = false := by simp [Scan.running, hleaves]
      exact ⟨next, whileLoop_of_not hstop fuel, hstays.le, hskip⟩

/-- **The second loop**, from anywhere in a string. -/
theorem whileLoop_baseRound (hsize : scan.rit ≤ name.length) (hleft : scan.left = false)
    (hfuel : scan.rit ≤ fuel) :
    ∃ rit, whileLoop Scan.running (baseRound name) fuel scan = .ok rit
      ∧ rit.rit + ((unread name scan.rit).takeWhile isBase).length = scan.rit := by
  induction hrit : scan.rit generalizing scan fuel with
  | zero =>
    have hstop : scan.running = false := by simp [Scan.running, hrit]
    exact ⟨scan, whileLoop_of_not hstop fuel, hrit⟩
  | succ before ih =>
    rw [hrit] at hsize hfuel
    obtain ⟨fuel, rfl⟩ := Nat.exists_eq_add_of_le' (Nat.one_le_of_lt hfuel)
    have hrun : scan.running = true := running_iff.mpr ⟨by omega, hleft⟩
    have hc := List.getElem?_eq_getElem hsize
    rw [whileLoop_round hrun (baseRound_succ hrit hc), unread_succ hc]
    by_cases hbase : isBase name[before] = true
    · rw [if_pos hbase, List.takeWhile_cons_of_pos hbase, List.length_cons]
      have hsize' : Scan.rit { scan with rit := before } ≤ name.length := Nat.le_of_succ_le hsize
      have hfuel' : Scan.rit { scan with rit := before } ≤ fuel := Nat.le_of_succ_le_succ hfuel
      obtain ⟨rit, hloop, hend⟩ := ih hsize' hleft hfuel' rfl
      exact ⟨rit, hloop, by omega⟩
    · rw [if_neg hbase, List.takeWhile_cons_of_neg hbase]
      have hstop : Scan.running { scan with left := true } = false := by simp [Scan.running]
      exact ⟨_, whileLoop_of_not hstop fuel, hrit⟩

end Rounds

/-- **The iterators stay in the string, `substr` does not throw, and the result is the one of
`filterKernelName`**, for a name of any length. -/
theorem filterKernelNameLoops_eq {name : List Char} {fuel : ℕ} (h : name.length ≤ fuel) :
    filterKernelNameLoops fuel name = .ok (filterKernelName name) := by
  obtain ⟨rbeg, hbrackets, hle, hunread⟩ := @whileLoop_bracketRound name fuel { rit := name.length }
    (Nat.le_refl _) rfl h
  obtain ⟨rit, hloop, hend⟩ := @whileLoop_baseRound name fuel { rit := rbeg.rit } hle rfl
    (hle.trans h)
  have hskip : unread name rbeg.rit = skipBrackets name.reverse 0 '\x00' '\x00' := by
    rw [hunread]
    show skipBrackets (unread name name.length) 0 '\x00' '\x00' = _
    rw [unread, List.take_length]
  replace hend : rit.rit + (base name).length = rbeg.rit := by
    rw [base, ← hskip]
    exact hend
  -- the positions are the lengths of what `filterKernelName` goes through
  have hrbeg : (skipBrackets name.reverse 0 '\x00' '\x00').length = rbeg.rit := by
    rw [← hskip, unread, List.length_reverse, List.length_take, Nat.min_eq_left hle]
  have hpos : (UInt32.ofNat rit.rit).toNat ≤ name.length := by
    rw [UInt32.toNat_ofNat']
    exact (Nat.mod_le _ _).trans (Nat.le_trans (by omega) hle)
  have hsubstr : filterKernelName name
      = (name.drop (UInt32.ofNat rit.rit).toNat).take
        (UInt32.ofNat (rbeg.rit - rit.rit)).toNat := by
    show (name.drop (UInt32.ofNat ((skipBrackets name.reverse 0 '\x00' '\x00').length
      - (base name).length)).toNat).take (UInt32.ofNat (base name).length).toNat = _
    rw [hrbeg, ← hend, Nat.add_sub_cancel, Nat.add_sub_cancel_left]
  rw [filterKernelNameLoops, hbrackets]
  show (whileLoop Scan.running (baseRound name) fuel { rit := rbeg.rit } >>= _) = _
  rw [hloop]
  show (substr name _ _).mapError _ = _
  rw [substr, if_pos hpos, hsubstr]
  rfl

/-- **`filter_kernel_name` returns the base name**, and there is no name that it reads outside of or
throws for. -/
theorem filterKernelName_baseName :
    (∀ (front name : List Char) (pieces : List (List Char)),
      name ≠ [] → (∀ c ∈ name, c ≠ ' ' ∧ c ≠ ':') →
      (∀ c ∈ name.getLast?, c ≠ ' ' ∧ c ≠ ')' ∧ c ≠ '>' ∧ c ≠ ']') →
      (∀ c ∈ front.getLast?, c = ' ' ∨ c = ':') → IsTrailer pieces →
      (front ++ name ++ pieces.flatten).length < 2 ^ 32 →
      filterKernelName (front ++ name ++ pieces.flatten) = name)
    ∧ ∀ (name : List Char) (fuel : ℕ), name.length ≤ fuel →
      filterKernelNameLoops fuel name = .ok (filterKernelName name) := by
  refine ⟨fun front name pieces hname hbase hlast hfront htrailer hsize ↦ ?_,
    fun name fuel hfuel ↦ filterKernelNameLoops_eq hfuel⟩
  refine filterKernelName_append hname (fun c hc ↦ ?_) (fun c hc ↦ ?_) (fun c hc ↦ ?_) htrailer
    hsize
  · simpa [separators] using hbase c hc
  · simpa [skipped] using hlast c hc
  · simpa [separators] using hfront c hc

/-- Brackets inside of others, which need not match. -/
theorem filterKernelName_baseName_nested :
    filterKernelName ("void ns::".toList ++ "axpy".toList
        ++ ["<f(int>".toList, " ".toList, "(a(b)[)".toList].flatten) = "axpy".toList
      ∧ filterKernelNameLoops 40 "a)] b".toList = .ok (filterKernelName "a)] b".toList) := by
  have hlast : "axpy".toList.getLast? = some 'y' := by decide
  have hfront : "void ns::".toList.getLast? = some ':' := by decide
  refine ⟨filterKernelName_baseName.1 _ _ _ (by decide) (by simp) ?_ ?_ (by decide) (by decide),
    filterKernelName_baseName.2 _ _ (by decide)⟩
  · rw [hlast]
    rintro c ⟨⟩
    decide
  · rw [hfront]
    rintro c ⟨⟩
    decide

end KernelNames
end Version1
