import RocprofTool.Lib.CMemory
import RocprofTool.Version1.Publishing

/-!
# The buffer of a message

`dump_context_entry` prints a message into a buffer of 4096 characters, with two calls of
`snprintf`, and publishes the string that it finds there.  The second call starts where the first
one would have stopped: at the length that it returns, with `bufferSize - cx` as the room that is
left.

* When the first text is longer than the buffer, the second call starts behind it, and the room that
  is left is a negative number, which is a very large one as a `size_t`.
* When the entry has no context, nothing is printed, but the buffer is published all the same.

In all the other cases both calls stay within the buffer and there is a string to be published
(`bufferSafe_iff`); it is the message of `Version1.Contexts` (`holds_message`), and it is published
with the null behind it (`published_message`).
-/

set_option autoImplicit false

open CMemory

namespace Version1

/-- A call of `snprintf`: the place in the buffer, the size that it is told, and the text. -/
structure SnprintfCall where
  place : ℤ
  size : ℕ
  text : List Char
  deriving DecidableEq

/-- What has been done with the buffer when it is published: the calls, and what is in it. -/
structure BufferUse where
  calls : List SnprintfCall
  buffer : Memory

/-- The two calls of `snprintf`. -/
def printCalls (first second : List Char) : BufferUse :=
  let (buffer, cx) := snprintf fresh 0 bufferSize first
  let size := sizeT (bufferSize - cx)
  ⟨[⟨0, bufferSize, first⟩, ⟨cx, size, second⟩], (snprintf buffer cx size second).1⟩

/-- `dump_context_entry`, for a valid entry with an index, from `malloc` to
`ldmsd_stream_publish`. -/
def fillBuffer (m : Machine) (entry : ContextEntry) (record : Option DispatchRecord) :
    Except Fault BufferUse := do
  let name ← nikName m entry
  match entry.group, m.devIndex entry.agent with
  | none, _ => return ⟨[], fresh⟩
  | some _, none => .error .undefined
  | some context, some gpuId =>
    let results ← outputResults m entry.features (m.metrics context)
    return printCalls (bodyOf m entry gpuId name results ++ [' ']) (messageTail record)

/-! ## The property -/

/-- The buffer is used as it should be: each call starts in it and is told the room that is left,
nothing is written outside of it, and a string that has been written is in it. -/
structure BufferSafe (use : BufferUse) : Prop where
  calls : ∀ call ∈ use.calls, 0 ≤ call.place ∧ call.place + call.size = bufferSize
  inside : ∀ i, (use.buffer i).isSome = true → 0 ≤ i ∧ i < bufferSize
  published : ∃ text, text.length < bufferSize ∧ Holds use.buffer 0 (text ++ [nul])

/-! ## The two calls -/

/-- The string that two texts leave in the buffer. -/
def printed (first second : List Char) : List Char :=
  first.take (bufferSize - 1) ++ second.take (bufferSize - first.length - 1)

theorem length_printed_lt (first second : List Char) :
    (printed first second).length < bufferSize := by
  rw [printed, List.length_append, List.length_take, List.length_take, bufferSize]
  omega

theorem cx_eq {first : List Char} (h : first.length ≤ bufferSize) :
    (snprintf fresh 0 bufferSize first).2 = first.length := by
  have hint : first.length ≤ intMax := Nat.le_trans h (by decide)
  exact if_pos hint

/-- A first text that is not longer than the buffer: the second call is told the room that is
left. -/
theorem printCalls_eq {first : List Char} (h : first.length ≤ bufferSize) (second : List Char) :
    printCalls first second
      = ⟨[⟨0, bufferSize, first⟩, ⟨first.length, bufferSize - first.length, second⟩],
        store (store fresh 0 (truncated bufferSize first)) first.length
          (truncated (bufferSize - first.length) second)⟩ := by
  have hsize : sizeT (bufferSize - (snprintf fresh 0 bufferSize first).2)
      = bufferSize - first.length := by
    rw [cx_eq h, ← Nat.cast_sub h]
    exact sizeT_natCast (Nat.lt_of_le_of_lt (Nat.sub_le _ _) (by decide))
  dsimp only [printCalls]
  rw [hsize, cx_eq h]
  rfl

/-- **What is in the buffer in the end.** -/
theorem holds_printed {first : List Char} (h : first.length ≤ bufferSize) (second : List Char) :
    Holds (printCalls first second).buffer 0 (printed first second ++ [nul]) := by
  rw [printCalls_eq h]
  dsimp only
  have hfirst : Holds (store fresh 0 (truncated bufferSize first)) 0
      (first.take (bufferSize - 1) ++ [nul]) := by
    rw [← truncated_of_pos (by decide) first]
    exact holds_store
  rcases Nat.eq_or_lt_of_le h with heq | hlt
  · -- there is no room left, and the first text is cut off
    have hprinted : printed first second = first.take (bufferSize - 1) := by
      rw [printed, heq, Nat.sub_self, Nat.zero_sub, List.take_zero, List.append_nil]
    rw [hprinted, heq, Nat.sub_self, truncated_zero]
    refine hfirst.store (.inl ?_)
    rw [List.length_append, List.length_take, heq]
    decide
  · have htake : first.take (bufferSize - 1) = first := List.take_of_length_le (by omega)
    rw [htake] at hfirst
    rw [printed, htake, List.append_assoc, ← truncated_of_pos (Nat.sub_pos_of_lt hlt)]
    refine Holds.append ((hfirst.of_initial (List.prefix_append _ _)).store (.inl ?_)) ?_
    · rw [Int.zero_add]
    · rw [Int.zero_add]
      exact holds_store

/-- A first text that is not longer than the buffer. -/
theorem bufferSafe_printCalls {first : List Char} (h : first.length ≤ bufferSize)
    (second : List Char) : BufferSafe (printCalls first second) := by
  refine ⟨?_, ?_, printed first second, length_printed_lt first second, holds_printed h second⟩
  · rw [printCalls_eq h]
    refine List.forall_mem_cons.mpr ⟨⟨Int.le_refl 0, Int.zero_add _⟩,
      List.forall_mem_singleton.mpr ⟨Int.natCast_nonneg _, ?_⟩⟩
    dsimp only
    omega
  · rw [printCalls_eq h]
    intro i hi
    have hlength := length_truncated_le (bufferSize - first.length) second
    have hlength' := length_truncated_le bufferSize first
    rcases of_isSome_store hi with hi | hi
    · omega
    · rcases of_isSome_store hi with hi | hi
      · omega
      · cases hi

/-- A first text that is longer than the buffer. -/
theorem not_bufferSafe_printCalls {first : List Char} (h : bufferSize < first.length)
    (second : List Char) : ¬BufferSafe (printCalls first second) := by
  intro hsafe
  obtain ⟨hplace, hsum⟩ := hsafe.calls _ (List.mem_cons_of_mem _ List.mem_cons_self)
  dsimp only at hplace hsum
  by_cases hint : first.length ≤ intMax
  · rw [if_pos hint] at hsum
    rw [intMax] at hint
    have hlarge : 2 ^ 63 ≤ sizeT ((bufferSize : ℤ) - first.length) :=
      le_sizeT_of_neg (by omega) (by omega)
    omega
  · -- the length is not an `int`, and `cx` is negative
    rw [if_neg hint] at hplace
    exact absurd hplace (by decide)

theorem bufferSafe_printCalls_iff (first second : List Char) :
    BufferSafe (printCalls first second) ↔ first.length ≤ bufferSize := by
  rcases Nat.lt_or_ge bufferSize first.length with hlt | hle
  · exact iff_of_false (not_bufferSafe_printCalls hlt second) (Nat.not_le.mpr hlt)
  · exact iff_of_true (bufferSafe_printCalls hle second) hle

/-- In a buffer that nobody has written to there is no string. -/
theorem not_bufferSafe_fresh : ¬BufferSafe ⟨[], fresh⟩ := by
  rintro ⟨-, -, text, -, hholds⟩
  have hnul := hholds text.length nul (List.getElem?_concat_length)
  cases hnul

theorem length_name_le_bodyOf (m : Machine) (entry : ContextEntry) (gpuId : UInt32)
    (name results : List Char) : name.length ≤ (bodyOf m entry gpuId name results).length := by
  have hwithin := (messageBody_kernelName (decimal gpuId.toNat) (m.printTime entry.currTime) name
    (decimal entry.index.toNat) results).length_le
  rw [List.length_append, List.length_append] at hwithin
  refine Nat.le_trans ?_ hwithin
  omega

/-! ## The whole of it -/

variable {m : Machine} {entry : ContextEntry} {record : Option DispatchRecord} {use : BufferUse}

/-- What `dump_context_entry` does with the buffer, when it comes to publishing it. -/
theorem of_fillBuffer (h : fillBuffer m entry record = .ok use) :
    ∃ name, nikName m entry = .ok name ∧
      (entry.group = none ∧ use = ⟨[], fresh⟩ ∨
        ∃ context gpuId results, entry.group = some context ∧
          m.devIndex entry.agent = some gpuId ∧
          outputResults m entry.features (m.metrics context) = .ok results ∧
          use = printCalls (bodyOf m entry gpuId name results ++ [' ']) (messageTail record)) := by
  cases hname : nikName m entry with
  | error fault => rw [fillBuffer, hname] at h; cases h
  | ok name =>
    refine ⟨name, rfl, ?_⟩
    rw [fillBuffer, hname] at h
    cases hgroup : entry.group with
    | none =>
      rw [hgroup] at h
      cases h
      exact .inl ⟨rfl, rfl⟩
    | some context =>
      cases hgpu : m.devIndex entry.agent with
      | none => rw [hgroup, hgpu] at h; cases h
      | some gpuId =>
        cases hresults : outputResults m entry.features (m.metrics context) with
        | error fault =>
          simp only [hgroup, hgpu, bind, Except.bind, hresults] at h
          cases h
        | ok results =>
          simp only [hgroup, hgpu, bind, Except.bind, hresults] at h
          cases h
          exact .inr ⟨context, gpuId, results, rfl, rfl, hresults, rfl⟩

/-- The first text fits: there is a context, and what is printed about the kernel and its features
is not longer than the buffer. -/
def FirstTextFits (m : Machine) (entry : ContextEntry) : Prop :=
  ∃ name context gpuId results, nikName m entry = .ok name ∧ entry.group = some context ∧
    m.devIndex entry.agent = some gpuId ∧
    outputResults m entry.features (m.metrics context) = .ok results ∧
    (bodyOf m entry gpuId name results ++ [' ']).length ≤ bufferSize

/-- **Exactly when the buffer is used as it should be**, for any entry whose message comes to be
published: when the entry has a context and the first text is not longer than the buffer. -/
theorem bufferSafe_iff (h : fillBuffer m entry record = .ok use) :
    BufferSafe use ↔ FirstTextFits m entry := by
  obtain ⟨name, hname, ⟨hgroup, rfl⟩ |
    ⟨context, gpuId, results, hgroup, hgpu, hresults, rfl⟩⟩ := of_fillBuffer h
  · refine iff_of_false not_bufferSafe_fresh ?_
    rintro ⟨name, context, gpuId, results, -, hgroup', -⟩
    cases hgroup.symm.trans hgroup'
  · rw [bufferSafe_printCalls_iff]
    constructor
    · intro hlength
      exact ⟨name, context, gpuId, results, hname, hgroup, hgpu, hresults, hlength⟩
    · rintro ⟨name', context', gpuId', results', hname', hgroup', hgpu', hresults', hlength⟩
      cases hname.symm.trans hname'
      cases hgroup.symm.trans hgroup'
      cases hgpu.symm.trans hgpu'
      cases hresults.symm.trans hresults'
      exact hlength

/-- The entry of a kernel with this name, and with this context. -/
def entryFor (name : List Char) (group : Option ℕ) : ContextEntry :=
  { valid := true, active := true, index := 0, agent := 1, group
    features := ["SQ_WAVES".toList], data := { axpy true with kernelName := some name } }

theorem fillBuffer_entryFor (name : List Char) (record : Option DispatchRecord) :
    fillBuffer oneCounter (entryFor name (some 7)) record
      = .ok (printCalls (bodyOf oneCounter (entryFor name (some 7)) 0 name ", SQ_WAVES:5".toList
          ++ [' ']) (messageTail record)) := rfl

theorem bufferSafe_axpy :
    ∃ use, fillBuffer oneCounter (entryFor "axpy".toList (some 7)) (some ⟨1, 2, 3, 4⟩) = .ok use ∧
      BufferSafe use := by
  have hfits : FirstTextFits oneCounter (entryFor "axpy".toList (some 7)) :=
    ⟨"axpy".toList, 7, 0, ", SQ_WAVES:5".toList, rfl, rfl, rfl, rfl, by decide +kernel⟩
  exact ⟨_, fillBuffer_entryFor _ _, (bufferSafe_iff (fillBuffer_entryFor _ _)).mpr hfits⟩

theorem not_bufferSafe_of_length {name : List Char} (h : bufferSize ≤ name.length)
    (record : Option DispatchRecord) :
    ∃ use, fillBuffer oneCounter (entryFor name (some 7)) record = .ok use ∧ ¬BufferSafe use := by
  refine ⟨_, fillBuffer_entryFor _ _, not_bufferSafe_printCalls ?_ _⟩
  rw [List.length_append, List.length_singleton]
  exact Nat.lt_succ_of_le (Nat.le_trans h (length_name_le_bodyOf _ _ _ _ _))

/-- **A long name runs out of the buffer**, and without a context what is published has not been
written. -/
theorem not_bufferSafe :
    (∃ use, fillBuffer oneCounter (entryFor (List.replicate bufferSize 'a') (some 7)) none
        = .ok use ∧ ¬BufferSafe use) ∧
      ∃ use, fillBuffer oneCounter (entryFor "axpy".toList none) none = .ok use ∧
        ¬BufferSafe use :=
  ⟨not_bufferSafe_of_length (Nat.le_of_eq List.length_replicate.symm) none,
    ⟨_, rfl, not_bufferSafe_fresh⟩⟩

/-! ## The message -/

theorem printBuffer_ok_iff (first second text : List Char) :
    printBuffer first second = .ok text ↔
      first.length ≤ bufferSize ∧ text = printed first second := by
  rw [printBuffer]
  by_cases hlength : first.length ≤ bufferSize
  · rw [if_pos hlength, and_iff_right hlength, Except.ok.injEq, eq_comm, printed]
  · rw [if_neg hlength]
    exact iff_of_false (fun h ↦ by cases h) fun h ↦ hlength h.1

/-- **The message that is published** is the string in the buffer; it is there exactly when the
buffer is used as it should be. -/
theorem holds_message (h : fillBuffer m entry record = .ok use) :
    (BufferSafe use ↔ ∃ text, message m entry record = .ok text) ∧
      ∀ text, message m entry record = .ok text → Holds use.buffer 0 (text ++ [nul]) := by
  obtain ⟨name, hname, ⟨hgroup, rfl⟩ |
    ⟨context, gpuId, results, hgroup, hgpu, hresults, rfl⟩⟩ := of_fillBuffer h
  · have hmessage : message m entry record = .error .undefined := by
      simp only [message, hname, hgroup, bind, Except.bind]
    rw [hmessage]
    refine ⟨iff_of_false not_bufferSafe_fresh ?_, ?_⟩
    · rintro ⟨text, htext⟩
      cases htext
    · intro text htext
      cases htext
  · rw [message_eq hname hgroup hgpu hresults, bufferSafe_printCalls_iff]
    refine ⟨⟨?_, ?_⟩, ?_⟩
    · intro hlength
      exact ⟨_, (printBuffer_ok_iff _ _ _).mpr ⟨hlength, rfl⟩⟩
    · rintro ⟨text, htext⟩
      exact ((printBuffer_ok_iff _ _ _).mp htext).1
    · intro text htext
      obtain ⟨hlength, rfl⟩ := (printBuffer_ok_iff _ _ _).mp htext
      exact holds_printed hlength _

/-- **The data that is published**: the length argument is `strlen` and one, and if the message has
no null in it, this is the message and a null. -/
theorem published_message (h : fillBuffer m entry record = .ok use) {text : List Char}
    (htext : message m entry record = .ok text) (hnul : nul ∉ text) :
    strlen use.buffer 0 bufferSize = some text.length ∧
      load use.buffer 0 (text.length + 1) = some (text ++ [nul]) := by
  obtain ⟨hsafe, hmessage⟩ := holds_message h
  have hholds := hmessage text htext
  obtain ⟨string, hlength, hstring⟩ := (hsafe.mpr ⟨text, htext⟩).published
  have hle : text.length ≤ string.length := by
    -- else the message would go on behind the end of the string
    by_contra hlt
    have hchar := hholds string.length text[string.length]
      (by rw [List.getElem?_append_left (by omega), List.getElem?_eq_getElem])
    rw [hstring string.length nul List.getElem?_concat_length, Option.some.injEq] at hchar
    exact hnul (hchar ▸ List.getElem_mem _)
  exact ⟨strlen_eq hholds hnul (by omega), load_eq_some_iff.mpr ⟨by simp, hholds⟩⟩

end Version1
