import RocprofTool.Lib.TicketRing.Calls

/-!
# Submitting packets to a queue

`HsaRsrcFactory::Submit` puts a packet into the ring of an HSA queue: it adds one to the write
index, waits for the read index to come close enough, copies the fifteen dwords of the body into the
slot, stores the header over the invalid one last, and rings the doorbell.  With a size in bytes it
does so for one packet after the other, and a size that is not a multiple of that of a slot aborts
the program before the first one.

The indices are of 64 bits and wrap, and the offset of a slot is computed with 32 bits.  The model
below follows the source, with the ring as memory and every access to it, to the indices and to the
doorbell as a step of its own; the packet processor of the queue, which is not part of the source,
is what the standard says of it.  It refines the ring of `TicketRing`, whose tickets and slots are
natural numbers:

* `slotOffset_eq` and `hasRoom_iff` say that the arithmetic of the machine is that of the numbers;
  for the offsets this needs no more than `2 ^ 26` slots (`slotOffset_injOn_iff`).
* `refines_step` is the lockstep, and `refines_run` the same for the runs.
* `submit_fifo` and `polling_completes` are what follows for the queue, with a packet processor that
  looks at the ring whenever it can.
-/

set_option autoImplicit false

open Runs

namespace HsaRsrcFactory

universe u

/-! ## The queue -/

/-- The dwords of a packet, or of a slot of `CMD_SLOT_SIZE_B` bytes. -/
abbrev Words := TicketRing.Packet UInt32 15

/-- `CMD_SLOT_SIZE_B` -/
def cmdSlotSizeB : UInt32 := 0x40

/-- `HSA_PACKET_TYPE_INVALID` -/
def hsaPacketTypeInvalid : UInt32 := 1

/-- The type of a packet is in the low eight bits of its header. -/
def packetType (header : UInt32) : UInt32 := header &&& 0xff

/-- An `hsa_queue_t`, with what its packet processor stores into the header of a slot that it is
done with.  The number of slots is a power of two. -/
structure Queue where
  size : UInt32
  exponent : ℕ
  size_eq : size.toNat = 2 ^ exponent
  /-- The offset of a slot is computed with 32 bits. -/
  exponent_le : exponent ≤ 26
  invalidate : UInt32 → UInt32
  invalidate_type : ∀ header, packetType (invalidate header) = hsaPacketTypeInvalid

/-- The offset of the slot of an index from `base_address`, in `Submit` and in `GetReadPointer`. -/
def slotOffset (size : UInt32) (idx : UInt64) : UInt32 :=
  let slotIdx := (idx % size.toUInt64).toUInt32
  slotIdx * cmdSlotSizeB

/-- The address of a dword of that slot, as an offset from `base_address`. -/
def queueSlot (size : UInt32) (idx : UInt64) (word : Fin 16) : ℕ :=
  (slotOffset size idx).toNat + 4 * word

/-- The address of a dword of a slot for the packet processor. -/
def slotAddress (slot : ℕ) (word : Fin 16) : ℕ := 64 * slot + 4 * word

/-- The condition for leaving the loop of `Submit`. -/
def hasRoom (size : UInt32) (writeIdx readIdx : UInt64) : Bool :=
  !(writeIdx - readIdx ≥ size.toUInt64)

/-- A call of `Submit` for one packet, from the increment of the write index on. -/
structure Submission where
  writeIdx : UInt64
  stage : TicketRing.Stage 15

/-- A call of `Submit` for `size_bytes`: the memory at `packet`, in dwords, the offset of `ptr` from
`begin`, and the value to be returned.  A call for one packet is one for the size of a slot. -/
structure Call where
  packet : ℕ → UInt32
  sizeBytes : UInt64
  ptr : ℕ := 0
  writeIdx : UInt64 := 0
  submission : Option Submission := none

/-- The dwords at `ptr`. -/
def slotData (packet : ℕ → UInt32) (ptr : ℕ) : Words := fun word ↦ packet (ptr / 4 + word)

/-- The packets in the memory of that size. -/
def packets (packet : ℕ → UInt32) (sizeBytes : UInt64) : List Words :=
  (List.range (sizeBytes.toNat / 64)).map fun i ↦ slotData packet (64 * i)

/-- The queue, the threads in a call, and the packet processor.  The ring is the memory from
`base_address` on; the processor reads a slot into `got`, takes its header back and then moves the
read index. -/
structure QueueState (τ : Type u) where
  writeIndex : UInt64 := 0
  readIndex : UInt64 := 0
  ring : ℕ → UInt32
  doorbell : Option UInt64 := none
  calls : τ → Option Call := fun _ ↦ none
  returned : List (τ × List Words × UInt64) := []
  aborted : Bool := false
  got : List UInt32 := []
  retired : Bool := false
  processed : List (List UInt32) := []

/-- What can happen next. -/
inductive QueueAction (τ : Type u)
  | submit (thread : τ) (packet : ℕ → UInt32) (sizeBytes : UInt64)
  | addWriteIndex (thread : τ)
  | leaveLoop (thread : τ)
  | memcpy (thread : τ) (word : Fin 15)
  | storeHeader (thread : τ)
  | ringDoorbell (thread : τ)
  | ret (thread : τ)
  | fetch
  | retire
  | advance

/-- Is it the beginning of a call? -/
def QueueAction.isCall {τ : Type u} : QueueAction τ → Bool
  | .submit _ _ _ => true
  | _ => false

variable {τ : Type u} [DecidableEq τ]

/-- The state with a call replaced. -/
def QueueState.put (s : QueueState τ) (thread : τ) (call : Option Call) : QueueState τ :=
  { s with calls := Function.update s.calls thread call }

/-- `hsa_queue_add_write_index_scacq_screl(queue, 1)` -/
def Call.addWriteIndex (s : QueueState τ) (thread : τ) (call : Call) : Option (QueueState τ) :=
  if call.submission.isNone && call.ptr < call.sizeBytes.toNat then
    some ({ s with writeIndex := s.writeIndex + 1 }.put thread
      (some { call with submission := some ⟨s.writeIndex, .waiting⟩ }))
  else none

/-- The loop is left when there is room; before that, the thread yields and tries again. -/
def Call.leaveLoop (q : Queue) (s : QueueState τ) (thread : τ) (call : Call) :
    Option (QueueState τ) :=
  match call.submission with
  | some ⟨writeIdx, .waiting⟩ =>
    if hasRoom q.size writeIdx s.readIndex then
      some (s.put thread
        (some { call with submission := some ⟨writeIdx, .copying (List.finRange 15)⟩ }))
    else none
  | _ => none

/-- `memcpy(&queue_slot[1], &slot_data[1], slot_size_b - sizeof(uint32_t))` copies a dword. -/
def Call.memcpy (q : Queue) (s : QueueState τ) (thread : τ) (word : Fin 15) (call : Call) :
    Option (QueueState τ) :=
  match call.submission with
  | some ⟨writeIdx, .copying left⟩ =>
    if word ∈ left then
      some ({ s with
        ring := Function.update s.ring (queueSlot q.size writeIdx word.succ)
          (slotData call.packet call.ptr word.succ) }.put thread
        (some { call with submission := some ⟨writeIdx, .copying (left.erase word)⟩ }))
    else none
  | _ => none

/-- `header_atomic_ptr->store(slot_data[0], std::memory_order_release)` -/
def Call.storeHeader (q : Queue) (s : QueueState τ) (thread : τ) (call : Call) :
    Option (QueueState τ) :=
  match call.submission with
  | some ⟨writeIdx, .copying []⟩ =>
    some ({ s with
      ring := Function.update s.ring (queueSlot q.size writeIdx 0)
        (slotData call.packet call.ptr 0) }.put thread
      (some { call with submission := some ⟨writeIdx, .published⟩ }))
  | _ => none

/-- `hsa_signal_store_relaxed(queue->doorbell_signal, write_idx)`, and on to the next packet. -/
def Call.ringDoorbell (s : QueueState τ) (thread : τ) (call : Call) : Option (QueueState τ) :=
  match call.submission with
  | some ⟨writeIdx, .published⟩ =>
    some ({ s with doorbell := some writeIdx }.put thread
      (some { call with ptr := call.ptr + cmdSlotSizeB.toNat, writeIdx, submission := none }))
  | _ => none

/-- The call returns. -/
def Call.ret (s : QueueState τ) (thread : τ) (call : Call) : Option (QueueState τ) :=
  if call.submission.isNone && call.sizeBytes.toNat ≤ call.ptr then
    some ({ s with
      returned := s.returned ++
        [(thread, packets call.packet call.sizeBytes, call.writeIdx)] }.put thread none)
  else none

/-- The packet processor reads the next dword of the slot at the read index; it goes on from the
first one only when that is not the header of an invalid packet. -/
def QueueState.fetch (q : Queue) (s : QueueState τ) : Option (QueueState τ) :=
  let slot := s.readIndex.toNat % q.size.toNat
  if h : s.got.length < 16 then
    if s.retired || (s.got.isEmpty &&
        packetType (s.ring (slotAddress slot 0)) == hsaPacketTypeInvalid) then none
    else some { s with got := s.got ++ [s.ring (slotAddress slot ⟨s.got.length, h⟩)] }
  else none

/-- There is nothing to do for the packet processor. -/
def QueueState.idle (q : Queue) (s : QueueState τ) : Bool :=
  let header := s.ring (slotAddress (s.readIndex.toNat % q.size.toNat) 0)
  s.got.isEmpty && !s.retired && packetType header == hsaPacketTypeInvalid

/-- It processes the packet, and makes the header of the slot invalid. -/
def QueueState.retire (q : Queue) (s : QueueState τ) : Option (QueueState τ) :=
  let header := slotAddress (s.readIndex.toNat % q.size.toNat) 0
  if s.got.length = 16 then
    some { s with
      ring := Function.update s.ring header (q.invalidate (s.ring header))
      got := []
      retired := true
      processed := s.processed ++ [s.got] }
  else none

/-- It moves the read index. -/
def QueueState.advance (s : QueueState τ) : Option (QueueState τ) :=
  if s.retired then some { s with readIndex := s.readIndex + 1, retired := false } else none

/-- `Submit` is called. -/
def QueueState.submit (s : QueueState τ) (thread : τ) (packet : ℕ → UInt32) (sizeBytes : UInt64) :
    Option (QueueState τ) :=
  if (s.calls thread).isSome then none
  else if sizeBytes &&& (cmdSlotSizeB.toUInt64 - 1) ≠ 0 then some { s with aborted := true }
  else some (s.put thread (some { packet, sizeBytes }))

/-- One step, as long as the program is not aborted. -/
def queueStep (q : Queue) (s : QueueState τ) (action : QueueAction τ) : Option (QueueState τ) :=
  if s.aborted then none
  else match action with
    | .submit thread packet sizeBytes => s.submit thread packet sizeBytes
    | .addWriteIndex thread => (s.calls thread).bind (Call.addWriteIndex s thread)
    | .leaveLoop thread => (s.calls thread).bind (Call.leaveLoop q s thread)
    | .memcpy thread word => (s.calls thread).bind (Call.memcpy q s thread word)
    | .storeHeader thread => (s.calls thread).bind (Call.storeHeader q s thread)
    | .ringDoorbell thread => (s.calls thread).bind (Call.ringDoorbell s thread)
    | .ret thread => (s.calls thread).bind (Call.ret s thread)
    | .fetch => s.fetch q
    | .retire => s.retire q
    | .advance => s.advance

/-- The queue as it is created. -/
def queueStart (ring : ℕ → UInt32) : QueueState τ := { ring }

/-! ## The arithmetic of the machine -/

theorem Queue.size_pos (q : Queue) : 0 < q.size.toNat := by
  rw [q.size_eq]
  exact Nat.two_pow_pos _

theorem Queue.size_le (q : Queue) : q.size.toNat ≤ 2 ^ 26 := by
  rw [q.size_eq]
  exact Nat.pow_le_pow_right (by decide) q.exponent_le

theorem Queue.size_dvd (q : Queue) : q.size.toNat ∣ 2 ^ 64 := by
  rw [q.size_eq]
  exact Nat.pow_dvd_pow 2 (q.exponent_le.trans (by decide))

/-- An index that has wrapped is at the slot of the one that has not. -/
theorem Queue.ofNat_mod (q : Queue) (k : ℕ) :
    (UInt64.ofNat k).toNat % q.size.toNat = k % q.size.toNat := by
  rw [UInt64.toNat_ofNat']
  exact Nat.mod_mod_of_dvd k q.size_dvd

theorem slotOffset_toNat (size : UInt32) (idx : UInt64) :
    (slotOffset size idx).toNat = idx.toNat % size.toNat * 64 % 2 ^ 32 := by
  rw [slotOffset, UInt32.toNat_mul, UInt64.toNat_toUInt32, UInt64.toNat_mod,
    UInt32.toNat_toUInt64, Nat.mod_mul_mod]
  rfl

/-- **The offsets tell the slots apart** exactly when there are no more than `2 ^ 26` of them, since
they are computed with 32 bits. -/
theorem slotOffset_injOn_iff (size : UInt32) :
    (∀ i j, i < size.toNat → j < size.toNat →
      slotOffset size (UInt64.ofNat i) = slotOffset size (UInt64.ofNat j) → i = j) ↔
      size.toNat ≤ 2 ^ 26 := by
  have hoffset : ∀ i, i < size.toNat →
      (slotOffset size (UInt64.ofNat i)).toNat = i * 64 % 2 ^ 32 := by
    intro i hi
    have hlt := size.toNat_lt
    have hwrap : i % 2 ^ 64 = i := Nat.mod_eq_of_lt (by omega)
    rw [slotOffset_toNat, UInt64.toNat_ofNat', hwrap, Nat.mod_eq_of_lt hi]
  constructor
  · intro hinj
    by_contra hlarge
    have heq : (0 : ℕ) = 2 ^ 26 := by
      refine hinj 0 (2 ^ 26) (by omega) (by omega) ?_
      rw [← UInt32.toNat_inj, hoffset 0 (by omega), hoffset (2 ^ 26) (by omega)]
      rfl
    omega
  · intro hle i j hi hj heq
    rw [← UInt32.toNat_inj, hoffset i hi, hoffset j hj] at heq
    omega

theorem Queue.slotOffset_eq (q : Queue) (k : ℕ) :
    (slotOffset q.size (UInt64.ofNat k)).toNat = 64 * (k % q.size.toNat) := by
  have hlt := Nat.mod_lt k q.size_pos
  have hle := q.size_le
  rw [slotOffset_toNat, q.ofNat_mod]
  omega

/-- `Submit` and the packet processor are at the same slot. -/
theorem Queue.queueSlot_eq (q : Queue) (k : ℕ) (word : Fin 16) :
    queueSlot q.size (UInt64.ofNat k) word = slotAddress (k % q.size.toNat) word := by
  rw [queueSlot, q.slotOffset_eq, slotAddress]

theorem slotAddress_inj {slot slot' : ℕ} {word word' : Fin 16} :
    slotAddress slot word = slotAddress slot' word' ↔ slot = slot' ∧ word = word' := by
  rw [slotAddress, slotAddress, Fin.ext_iff]
  omega

/-- The distance of two indices that have wrapped. -/
theorem Queue.hasRoom_iff (q : Queue) {ticket read : ℕ} (hle : read ≤ ticket)
    (hlt : ticket < read + 2 ^ 64) :
    hasRoom q.size (UInt64.ofNat ticket) (UInt64.ofNat read) = true ↔
      ticket < read + q.size.toNat := by
  rw [hasRoom, ← UInt64.ofNat_sub hle, Bool.not_eq_true', decide_eq_false_iff_not, ge_iff_le,
    UInt64.le_iff_toNat_le, UInt32.toNat_toUInt64, UInt64.toNat_ofNat', Nat.mod_eq_of_lt (by omega)]
  omega

/-- A size that passes the check is that of a number of packets. -/
theorem size_check (sizeBytes : UInt64) :
    sizeBytes &&& (cmdSlotSizeB.toUInt64 - 1) = 0 ↔ sizeBytes.toNat % 64 = 0 := by
  rw [← UInt64.toNat_inj, UInt64.toNat_and]
  show sizeBytes.toNat &&& (2 ^ 6 - 1) = 0 ↔ _
  rw [Nat.and_two_pow_sub_one_eq_mod]

/-! ## The refinement -/

/-- The queue as a ring of slots. -/
def Queue.device (q : Queue) : TicketRing.Device UInt32 where
  size := q.size.toNat
  valid header := packetType header != hsaPacketTypeInvalid
  invalidate := q.invalidate
  size_pos := q.size_pos
  valid_invalidate header := by simp [q.invalidate_type header]

/-- What the thread is at is what the producer is filling. -/
def Call.AtFill (call : Call) (p : TicketRing.Producer UInt32 15) : Prop :=
  match call.submission, p.fill with
  | none, none => call.ptr = 64 * p.sent ∧
      call.writeIdx = UInt64.ofNat (p.last.getD 0)
  | some submission, some fill => call.ptr + 64 = 64 * p.sent ∧ p.last = some fill.ticket ∧
      submission.writeIdx = UInt64.ofNat fill.ticket ∧ submission.stage = fill.stage ∧
      fill.packet = slotData call.packet call.ptr
  | _, _ => False

/-- A call is a producer that works through its packets. -/
structure Call.Refines (call : Call) (p : TicketRing.Producer UInt32 15) : Prop where
  size : call.sizeBytes.toNat % 64 = 0
  packets : p.packets = HsaRsrcFactory.packets call.packet call.sizeBytes
  atFill : call.AtFill p

/-- **The refinement relation**: the indices have wrapped, the slots are in memory, and the rest is
the same. -/
structure Refines (q : Queue) (c : QueueState τ) (a : TicketRing.State τ UInt32 15) : Prop where
  running : c.aborted = false
  writeIndex : c.writeIndex = UInt64.ofNat a.log.length
  readIndex : c.readIndex = UInt64.ofNat a.read
  ring : ∀ slot word, slot < q.size.toNat → c.ring (slotAddress slot word) = a.slots slot word
  doorbell : c.doorbell = a.bell.map UInt64.ofNat
  calls : ∀ thread, Option.Rel Call.Refines (c.calls thread) (a.producers thread)
  returned : c.returned = a.finished.map fun ret ↦
    (ret.1, ret.2.1, UInt64.ofNat (ret.2.2.getD 0))
  got : c.got = a.got
  retired : c.retired = a.retired
  processed : c.processed = a.taken

/-- The steps of the two systems. -/
def QueueAction.toRing : QueueAction τ → TicketRing.Action τ UInt32 15
  | .submit thread packet sizeBytes => .call thread (packets packet sizeBytes)
  | .addWriteIndex thread => .reserve thread
  | .leaveLoop thread => .enter thread
  | .memcpy thread word => .copy thread word
  | .storeHeader thread => .publish thread
  | .ringDoorbell thread => .notify thread
  | .ret thread => .finish thread
  | .fetch => .fetch
  | .retire => .retire
  | .advance => .advance

section Lockstep

variable {q : Queue} {c c' : QueueState τ} {a a' : TicketRing.State τ UInt32 15} {thread : τ}
  {call : Call} {p : TicketRing.Producer UInt32 15}

omit [DecidableEq τ] in
/-- A thread that is not in a call is one that no producer is for. -/
theorem Refines.bind (h : Refines q c a) {f : Call → Option (QueueState τ)}
    {g : TicketRing.Producer UInt32 15 → Option (TicketRing.State τ UInt32 15)}
    (hfg : ∀ call p, call.Refines p → a.producers thread = some p →
      Option.Rel (Refines q) (f call) (g p)) :
    Option.Rel (Refines q) ((c.calls thread).bind f) ((a.producers thread).bind g) := by
  have hrel := h.calls thread
  rcases hcall : c.calls thread with _ | call <;> rcases hp : a.producers thread with _ | p <;>
    rw [hcall, hp] at hrel
  · exact .none
  · cases hrel
  · cases hrel
  · cases hrel with
    | some hrefines => exact hfg call p hrefines hp

/-- What refines it still does with a producer replaced. -/
theorem Refines.put (h : Refines q c a) {call : Option Call}
    {p : Option (TicketRing.Producer UInt32 15)} (hrel : Option.Rel Call.Refines call p) :
    Refines q (c.put thread call) (a.put thread p) := by
  refine ⟨h.running, h.writeIndex, h.readIndex, h.ring, h.doorbell, fun other ↦ ?_, h.returned,
    h.got, h.retired, h.processed⟩
  rcases eq_or_ne other thread with rfl | hne
  · simpa [QueueState.put, TicketRing.State.put] using hrel
  · simpa [QueueState.put, TicketRing.State.put, hne] using h.calls other

omit [DecidableEq τ] in
/-- A word is written to the slot of a ticket. -/
theorem Refines.write (h : Refines q c a) (ticket : ℕ) (word : Fin 16) (w : UInt32) :
    Refines q { c with
      ring := Function.update c.ring (queueSlot q.size (UInt64.ofNat ticket) word) w }
      (a.write q.device ticket word w) := by
  refine ⟨h.running, h.writeIndex, h.readIndex, fun slot word' hslot ↦ ?_, h.doorbell, h.calls,
    h.returned, h.got, h.retired, h.processed⟩
  rw [TicketRing.State.write]
  dsimp only
  rw [q.queueSlot_eq]
  by_cases hat : slot = ticket % q.size.toNat
  · subst hat
    rw [show q.device.size = q.size.toNat from rfl, Function.update_self]
    rcases eq_or_ne word' word with rfl | hne
    · rw [Function.update_self, Function.update_self]
    · rw [Function.update_of_ne hne, Function.update_of_ne, h.ring _ _ hslot]
      exact fun heq ↦ hne (slotAddress_inj.mp heq).2
  · rw [Function.update_of_ne fun heq ↦ hat (slotAddress_inj.mp heq).1,
      Function.update_of_ne (show slot ≠ ticket % q.device.size from hat), h.ring _ _ hslot]

/-- The two cases of a call. -/
theorem Call.AtFill.cases (h : call.AtFill p) :
    (call.submission = none ∧ p.fill = none ∧ call.ptr = 64 * p.sent ∧
      call.writeIdx = UInt64.ofNat (p.last.getD 0)) ∨
    ∃ ticket stage, call.submission = some ⟨UInt64.ofNat ticket, stage⟩ ∧
      p.fill = some ⟨ticket, slotData call.packet call.ptr, stage⟩ ∧
      call.ptr + 64 = 64 * p.sent ∧ p.last = some ticket := by
  unfold Call.AtFill at h
  split at h
  · next hsubmission hfill => exact .inl ⟨hsubmission, hfill, h⟩
  · next submission fill hsubmission hfill =>
    obtain ⟨writeIdx, stage⟩ := submission
    obtain ⟨ticket, packet, stage'⟩ := fill
    obtain ⟨hptr, hlast, hwriteIdx, hstage, hpacket⟩ := h
    dsimp only at hlast hwriteIdx hstage hpacket
    subst hwriteIdx hstage hpacket
    exact .inr ⟨ticket, stage, hsubmission, hfill, hptr, hlast⟩
  · cases h

theorem packets_getElem? (packet : ℕ → UInt32) (sizeBytes : UInt64) (i : ℕ) :
    (packets packet sizeBytes)[i]? =
      if i < sizeBytes.toNat / 64 then some (slotData packet (64 * i)) else none := by
  by_cases hlt : i < sizeBytes.toNat / 64
  · simp [packets, hlt]
  · simp [packets, hlt]

theorem Refines.addWriteIndex (h : Refines q c a) (hcall : call.Refines p) :
    Option.Rel (Refines q) (call.addWriteIndex c thread) (p.reserve a thread) := by
  obtain ⟨hsize, hpackets, hat⟩ := hcall
  rw [Call.addWriteIndex, TicketRing.Producer.reserve, hpackets, packets_getElem?]
  rcases hat.cases with ⟨hsubmission, hfill, hptr, -⟩ | ⟨ticket, stage, hsubmission, hfill, -⟩
  · have hguard : call.ptr < call.sizeBytes.toNat ↔ p.sent < call.sizeBytes.toNat / 64 := by omega
    by_cases hlt : p.sent < call.sizeBytes.toNat / 64
    · simp only [hsubmission, hfill, hguard, hlt, Option.isNone_none, decide_true, Bool.and_self,
        if_true, Option.isSome_none, Bool.false_eq_true, if_false, Option.map_some]
      refine .some (Refines.put ?_ (.some ⟨hsize, rfl, ?_⟩))
      · refine ⟨h.running, ?_, h.readIndex, h.ring, h.doorbell, h.calls, h.returned, h.got,
          h.retired, h.processed⟩
        dsimp only
        rw [List.length_append, List.length_singleton, UInt64.ofNat_add, h.writeIndex]
        rfl
      · exact ⟨by rw [hptr]; rfl, rfl, h.writeIndex, rfl, by rw [hptr]⟩
    · simp [hsubmission, hfill, hguard, hlt]
  · simp [hsubmission, hfill]

theorem Refines.leaveLoop [Fintype τ] (hcard : Fintype.card τ ≤ 2 ^ 63)
    (hinv : TicketRing.Inv q.device a) (h : Refines q c a) (hcall : call.Refines p)
    (hp : a.producers thread = some p) :
    Option.Rel (Refines q) (call.leaveLoop q c thread) (p.enter q.device a thread) := by
  obtain ⟨hsize, hpackets, hat⟩ := hcall
  unfold Call.leaveLoop TicketRing.Producer.enter
  rcases hat.cases with ⟨hsubmission, hfill, -⟩ | ⟨ticket, stage, hsubmission, hfill, hptr, hlast⟩
  · simp [hsubmission, hfill]
  · rcases stage with _ | left | _
    · have hfill' := (TicketRing.State.fill_of_producers hp).trans hfill
      have hle : a.gone ≤ ticket := hinv.ahead ticket ⟨thread, _, hfill', nofun, rfl⟩
      have hlt : ticket < a.log.length :=
        (List.getElem?_eq_some_iff.mp (hinv.drawn thread _ hfill')).1
      have hlog := hinv.log_le
      have hread : a.read ≤ a.gone := Nat.le_add_right _ _
      have hsize' : q.device.size ≤ 2 ^ 26 := q.size_le
      have hroom := q.hasRoom_iff (hread.trans hle) (by omega)
      simp only [hsubmission, hfill, h.readIndex, hroom]
      by_cases hcan : ticket < a.read + q.size.toNat
      · simp only [hcan, if_true, show q.device.size = q.size.toNat from rfl]
        exact .some (h.put (.some ⟨hsize, hpackets, hptr, hlast, rfl, rfl, rfl⟩))
      · simp only [hcan, if_false, show q.device.size = q.size.toNat from rfl]
        exact .none
    · simp [hsubmission, hfill]
    · simp [hsubmission, hfill]

theorem Refines.memcpy (h : Refines q c a) (hcall : call.Refines p) (word : Fin 15) :
    Option.Rel (Refines q) (call.memcpy q c thread word) (p.copy q.device a thread word) := by
  obtain ⟨hsize, hpackets, hat⟩ := hcall
  unfold Call.memcpy TicketRing.Producer.copy
  rcases hat.cases with ⟨hsubmission, hfill, -⟩ | ⟨ticket, stage, hsubmission, hfill, hptr, hlast⟩
  · simp [hsubmission, hfill]
  · rcases stage with _ | left | _
    · simp [hsubmission, hfill]
    · simp only [hsubmission, hfill]
      split_ifs
      · exact .some ((h.write ticket word.succ _).put
          (.some ⟨hsize, hpackets, hptr, hlast, rfl, rfl, rfl⟩))
      · exact .none
    · simp [hsubmission, hfill]

theorem Refines.storeHeader (h : Refines q c a) (hcall : call.Refines p) :
    Option.Rel (Refines q) (call.storeHeader q c thread) (p.publish q.device a thread) := by
  obtain ⟨hsize, hpackets, hat⟩ := hcall
  unfold Call.storeHeader TicketRing.Producer.publish
  rcases hat.cases with ⟨hsubmission, hfill, -⟩ | ⟨ticket, stage, hsubmission, hfill, hptr, hlast⟩
  · simp [hsubmission, hfill]
  · rcases stage with _ | (_ | ⟨word, left⟩) | _
    · simp [hsubmission, hfill]
    · simp only [hsubmission, hfill]
      exact .some ((h.write ticket 0 _).put
        (.some ⟨hsize, hpackets, hptr, hlast, rfl, rfl, rfl⟩))
    · simp [hsubmission, hfill]
    · simp [hsubmission, hfill]

theorem Refines.ringDoorbell (h : Refines q c a) (hcall : call.Refines p) :
    Option.Rel (Refines q) (call.ringDoorbell c thread) (p.notify a thread) := by
  obtain ⟨hsize, hpackets, hat⟩ := hcall
  unfold Call.ringDoorbell TicketRing.Producer.notify
  rcases hat.cases with ⟨hsubmission, hfill, -⟩ | ⟨ticket, stage, hsubmission, hfill, hptr, hlast⟩
  · simp [hsubmission, hfill]
  · rcases stage with _ | left | _
    · simp [hsubmission, hfill]
    · simp [hsubmission, hfill]
    · simp only [hsubmission, hfill]
      refine .some (Refines.put ?_ (.some ⟨hsize, hpackets, hptr, ?_⟩))
      · exact ⟨h.running, h.writeIndex, h.readIndex, h.ring, rfl, h.calls, h.returned, h.got,
          h.retired, h.processed⟩
      · rw [hlast]
        rfl

theorem Refines.ret (h : Refines q c a) (hcall : call.Refines p) :
    Option.Rel (Refines q) (call.ret c thread) (p.finish a thread) := by
  obtain ⟨hsize, hpackets, hat⟩ := hcall
  rw [Call.ret, TicketRing.Producer.finish, hpackets]
  rcases hat.cases with ⟨hsubmission, hfill, hptr, hwriteIdx⟩ |
    ⟨ticket, stage, hsubmission, hfill, -⟩
  · have hguard : call.sizeBytes.toNat ≤ call.ptr ↔
        (packets call.packet call.sizeBytes).length ≤ p.sent := by
      rw [packets, List.length_map, List.length_range]
      omega
    by_cases hle : (packets call.packet call.sizeBytes).length ≤ p.sent
    · simp only [hsubmission, hfill, hguard, hle, Option.isNone_none, decide_true, Bool.and_self,
        if_true]
      refine .some (Refines.put ?_ .none)
      refine ⟨h.running, h.writeIndex, h.readIndex, h.ring, h.doorbell, h.calls, ?_, h.got,
        h.retired, h.processed⟩
      dsimp only
      rw [h.returned, List.map_append, hwriteIdx]
      rfl
    · simp [hsubmission, hfill, hguard, hle]
  · simp [hsubmission, hfill]

omit [DecidableEq τ] in
/-- The packet processor sees the slot that its ticket is for. -/
theorem Refines.ring_readIndex (h : Refines q c a) (word : Fin 16) :
    c.ring (slotAddress (c.readIndex.toNat % q.size.toNat) word)
      = a.slots (a.read % q.device.size) word := by
  rw [h.readIndex, q.ofNat_mod, h.ring _ _ (Nat.mod_lt _ q.size_pos)]
  rfl

omit [DecidableEq τ] in
theorem Refines.fetch (h : Refines q c a) :
    Option.Rel (Refines q) (c.fetch q) (a.fetch q.device) := by
  unfold QueueState.fetch TicketRing.State.fetch
  simp only [h.ring_readIndex, h.got, h.retired]
  split_ifs with hlt hcan hcan' hcan'
  · exact .none
  · simp [Queue.device, bne] at hcan hcan'
    exact absurd hcan (by simpa using hcan')
  · simp [Queue.device, bne] at hcan hcan'
    exact absurd hcan' (by simpa using hcan)
  · exact .some ⟨h.running, h.writeIndex, h.readIndex, h.ring, h.doorbell, h.calls, h.returned, rfl,
      rfl,
      h.processed⟩
  · exact .none

omit [DecidableEq τ] in
theorem Refines.retire (h : Refines q c a) :
    Option.Rel (Refines q) (c.retire q) (a.retire q.device) := by
  unfold QueueState.retire TicketRing.State.retire
  simp only [h.ring_readIndex, h.got]
  split_ifs
  · have hwrite := h.write a.read 0 (q.invalidate (a.slots (a.read % q.device.size) 0))
    rw [q.queueSlot_eq, ← q.ofNat_mod, ← h.readIndex] at hwrite
    exact .some ⟨hwrite.running, hwrite.writeIndex, hwrite.readIndex, hwrite.ring, hwrite.doorbell,
      hwrite.calls, hwrite.returned, rfl, rfl, by rw [h.processed]⟩
  · exact .none

omit [DecidableEq τ] in
theorem Refines.advance (h : Refines q c a) :
    Option.Rel (Refines q) c.advance a.advance := by
  unfold QueueState.advance TicketRing.State.advance
  rw [h.retired]
  split_ifs
  · refine .some ⟨h.running, h.writeIndex, ?_, h.ring, h.doorbell, h.calls, h.returned, h.got, rfl,
      h.processed⟩
    dsimp only
    rw [UInt64.ofNat_add, h.readIndex]
    rfl
  · exact .none

theorem Refines.submit (h : Refines q c a) {packet : ℕ → UInt32} {sizeBytes : UInt64}
    (hsize : sizeBytes.toNat % 64 = 0) :
    Option.Rel (Refines q) (c.submit thread packet sizeBytes)
      (TicketRing.step q.device a (.call thread (packets packet sizeBytes))) := by
  have hrel := h.calls thread
  have hcheck : ¬sizeBytes &&& (cmdSlotSizeB.toUInt64 - 1) ≠ 0 :=
    not_not.mpr ((size_check sizeBytes).mpr hsize)
  rw [QueueState.submit, TicketRing.step, if_neg hcheck]
  rcases hcall : c.calls thread with _ | call <;> rcases hp : a.producers thread with _ | p <;>
    rw [hcall, hp] at hrel
  · exact .some (h.put (.some ⟨hsize, rfl, rfl, rfl⟩))
  · cases hrel
  · cases hrel
  · exact .none

/-- Is the size, if the action begins a call, one that passes the check? -/
def QueueAction.sized : QueueAction τ → Bool
  | .submit _ _ sizeBytes => sizeBytes.toNat % 64 = 0
  | _ => true

/-- **The lockstep.** -/
theorem refines_step [Fintype τ] (hcard : Fintype.card τ ≤ 2 ^ 63)
    (hinv : TicketRing.Inv q.device a) (h : Refines q c a) {action : QueueAction τ}
    (hsized : action.sized = true) :
    Option.Rel (Refines q) (queueStep q c action)
      (TicketRing.step q.device a action.toRing) := by
  unfold queueStep
  rw [h.running, if_neg Bool.false_ne_true]
  cases action with
  | submit thread packet sizeBytes => exact h.submit (of_decide_eq_true hsized)
  | addWriteIndex thread => exact h.bind fun call p hcall _ ↦ h.addWriteIndex hcall
  | leaveLoop thread => exact h.bind fun call p hcall hp ↦ h.leaveLoop hcard hinv hcall hp
  | memcpy thread word => exact h.bind fun call p hcall _ ↦ h.memcpy hcall word
  | storeHeader thread => exact h.bind fun call p hcall _ ↦ h.storeHeader hcall
  | ringDoorbell thread => exact h.bind fun call p hcall _ ↦ h.ringDoorbell hcall
  | ret thread => exact h.bind fun call p hcall _ ↦ h.ret hcall
  | fetch => exact h.fetch
  | retire => exact h.retire
  | advance => exact h.advance

/-- The steps of the ring: a call that aborts the program is not one. -/
def ringActions (actions : List (QueueAction τ)) : List (TicketRing.Action τ UInt32 15) :=
  (actions.filter QueueAction.sized).map QueueAction.toRing

/-- The ring is as its slots are. -/
def ringSlots (ring : ℕ → UInt32) : ℕ → Words := fun slot word ↦ ring (slotAddress slot word)

/-- The header of each slot is that of an invalid packet. -/
def Blank (q : Queue) (ring : ℕ → UInt32) : Prop :=
  ∀ slot, slot < q.size.toNat → packetType (ring (slotAddress slot 0)) = hsaPacketTypeInvalid

variable {ring : ℕ → UInt32} {actions : List (QueueAction τ)}

theorem Blank.not_valid (hring : Blank q ring) (slot : ℕ) (hslot : slot < q.device.size) :
    q.device.valid (ringSlots ring slot 0) = false := by
  simp [Queue.device, ringSlots, hring slot hslot]

theorem step_of_unsized {action : QueueAction τ} (hsized : action.sized = false)
    (h : queueStep q c action = some c') : c' = { c with aborted := true } := by
  cases action with
  | submit thread packet sizeBytes =>
    have hsize : sizeBytes.toNat % 64 ≠ 0 := of_decide_eq_false hsized
    unfold queueStep at h
    dsimp only at h
    rw [Option.ite_none_left_eq_some, QueueState.submit, Option.ite_none_left_eq_some,
      if_pos fun hcheck ↦ hsize ((size_check sizeBytes).mp hcheck)] at h
    exact (Option.some.inj h.2.2).symm
  | _ => cases hsized

/-- **A run of the queue is a run of the ring**, up to the call that aborts the program. -/
theorem refines_run [Fintype τ] (hcard : Fintype.card τ ≤ 2 ^ 63) (hring : Blank q ring)
    (h : run (queueStep q) (queueStart ring) actions = some c) :
    (c.aborted = false ↔ ∀ action ∈ actions, action.sized = true) ∧
      ∃ a, run (TicketRing.step q.device) (TicketRing.start (ringSlots ring)) (ringActions actions)
        = some a ∧ Refines q { c with aborted := false } a := by
  refine run_induction (P := fun actions c ↦
    (c.aborted = false ↔ ∀ action ∈ actions, action.sized = true) ∧
      ∃ a, run (TicketRing.step q.device) (TicketRing.start (ringSlots ring)) (ringActions actions)
        = some a ∧ Refines q { c with aborted := false } a)
    ⟨by simp [queueStart],
      _, rfl, rfl, rfl, rfl, fun _ _ _ ↦ rfl, rfl, fun _ ↦ .none, rfl, rfl, rfl, rfl⟩ ?_ h
  rintro actions c action c' - ⟨haborted, a, ha, hrefines⟩ hstep
  have hrunning : c.aborted = false := by
    unfold queueStep at hstep
    rw [Option.ite_none_left_eq_some] at hstep
    exact Bool.eq_false_of_not_eq_true hstep.1
  rw [show { c with aborted := false } = c by rw [← hrunning]] at hrefines
  rcases hsized : action.sized with _ | _
  · rw [step_of_unsized hsized hstep]
    refine ⟨by simp [hsized], a, ?_, ?_⟩
    · rw [ringActions, List.filter_append, List.filter_singleton, hsized]
      simpa [ringActions] using ha
    · show Refines q { c with aborted := false } a
      rwa [show { c with aborted := false } = c by rw [← hrunning]]
  · have hinv := TicketRing.inv_run hring.not_valid ha
    have hrel := refines_step hcard hinv hrefines hsized
    rw [hstep] at hrel
    rcases ha' : TicketRing.step q.device a action.toRing with _ | a'
    · rw [ha'] at hrel
      cases hrel
    · rw [ha'] at hrel
      cases hrel with
      | some hrefines' =>
        refine ⟨?_, a', ?_, ?_⟩
        · simp only [hrefines'.running, List.mem_append, List.mem_singleton, true_iff]
          rintro other (hmem | rfl)
          exacts [haborted.mp hrunning other hmem, hsized]
        · rw [ringActions, List.filter_append, List.map_append, List.filter_singleton, hsized]
          exact run_concat.mpr ⟨a, ha, ha'⟩
        · rwa [show { c' with aborted := false } = c' by rw [← hrefines'.running]]

end Lockstep

/-! ## What is submitted -/

/-- The packets that an action submits for a thread. -/
def QueueAction.given (thread : τ) : QueueAction τ → List Words
  | .submit other packet sizeBytes =>
    if other = thread ∧ sizeBytes.toNat % 64 = 0 then packets packet sizeBytes else []
  | _ => []

/-- The packets that a thread submits, call for call and packet for packet. -/
def submitted (thread : τ) (actions : List (QueueAction τ)) : List Words :=
  actions.flatMap (QueueAction.given thread)

/-- Those of its call that the write index has not been added to for. -/
def QueueState.unsent (s : QueueState τ) (thread : τ) : List Words :=
  match s.calls thread with
  | none => []
  | some call => (packets call.packet call.sizeBytes).drop
      (call.ptr / 64 + call.submission.isSome.toNat)

/-- **An order of the packets that explains a state**: the index of each is its place in the order.
The packets of a thread are in the order of its calls; what has been processed, dword by dword, is
the beginning of the order, and the read index is at its end; a call has returned the index of its
last packet, and the doorbell has been rung with an index that is in the order.  The program is
aborted when a call has a size that is not one of packets, of which no packet is in the order. -/
structure Explains (log : List (τ × Words)) (actions : List (QueueAction τ)) (s : QueueState τ) :
    Prop where
  writeIndex : s.writeIndex = UInt64.ofNat log.length
  threads : ∀ thread,
    TicketRing.own thread log ++ s.unsent thread = submitted thread actions
  processed : s.processed <+: log.map fun entry ↦ List.ofFn entry.2
  readIndex : s.readIndex = UInt64.ofNat (s.processed.length - s.retired.toNat)
  returned : ∀ thread packets writeIdx, (thread, packets, writeIdx) ∈ s.returned →
    packets = [] ∧ writeIdx = 0 ∨ ∃ ticket packet, writeIdx = UInt64.ofNat ticket ∧
      packets.getLast? = some packet ∧ log[ticket]? = some (thread, packet)
  doorbell : ∀ writeIdx, s.doorbell = some writeIdx →
    ∃ ticket, writeIdx = UInt64.ofNat ticket ∧ ticket < log.length
  aborted : s.aborted = true ↔ ∃ action ∈ actions, action.sized = false

section Results

variable {q : Queue} {ring : ℕ → UInt32} {actions : List (QueueAction τ)} {s : QueueState τ}
  {a : TicketRing.State τ UInt32 15}

theorem QueueAction.given_of_unsized (thread : τ) {action : QueueAction τ}
    (h : action.sized = false) : action.given thread = [] := by
  cases action with
  | submit other packet sizeBytes => exact if_neg fun hand ↦ of_decide_eq_false h hand.2
  | _ => cases h

theorem QueueAction.packets_toRing (thread : τ) {action : QueueAction τ}
    (h : action.sized = true) : action.toRing.packets thread = action.given thread := by
  cases action with
  | submit other packet sizeBytes =>
    have hsize : sizeBytes.toNat % 64 = 0 := of_decide_eq_true h
    simp [QueueAction.toRing, QueueAction.given, TicketRing.Action.packets, hsize]
  | _ => rfl

theorem given_ringActions (thread : τ) (actions : List (QueueAction τ)) :
    TicketRing.given thread (ringActions actions) = submitted thread actions := by
  induction actions with
  | nil => rfl
  | cons action actions ih =>
    rw [submitted, List.flatMap_cons, ← submitted, ← ih]
    rcases hsized : action.sized with _ | _
    · rw [ringActions, List.filter_cons_of_neg (by simp [hsized]),
        action.given_of_unsized thread hsized]
      rfl
    · rw [ringActions, List.filter_cons_of_pos hsized, ← action.packets_toRing thread hsized]
      rfl

omit [DecidableEq τ] in
theorem Refines.unsent (h : Refines q s a) (thread : τ) : s.unsent thread = a.unsent thread := by
  have hrel := h.calls thread
  rw [QueueState.unsent, TicketRing.State.unsent]
  rcases hcall : s.calls thread with _ | call <;> rcases hp : a.producers thread with _ | p <;>
    rw [hcall, hp] at hrel
  · rfl
  · cases hrel
  · cases hrel
  · cases hrel with
    | some hcall =>
      obtain ⟨-, hpackets, hat⟩ := hcall
      rw [Option.map_some, Option.getD_some, hpackets]
      rcases hat.cases with ⟨hsubmission, -, hptr, -⟩ | ⟨ticket, stage, hsubmission, -, hptr, -⟩
      · simp [hsubmission, hptr]
      · have hsent : call.ptr / 64 + 1 = p.sent := by omega
        simp [hsubmission, hsent]

/-- **First in, first out.**  Whatever the threads and the packet processor do, and in whatever
order, there is an order of the packets that explains the state. -/
theorem submit_fifo [Fintype τ] (hcard : Fintype.card τ ≤ 2 ^ 63) (hring : Blank q ring)
    (h : run (queueStep q) (queueStart ring) actions = some s) :
    ∃ log, Explains log actions s := by
  obtain ⟨haborted, a, ha, hrefines⟩ := refines_run hcard hring h
  have hinv := TicketRing.inv_run hring.not_valid ha
  refine ⟨a.log, hrefines.writeIndex, fun thread ↦ ?_, ?_, ?_, ?_, ?_, ?_⟩
  · rw [← given_ringActions, ← TicketRing.own_log ha, ← hrefines.unsent]
    rfl
  · rw [show s.processed = a.taken from hrefines.processed]
    exact TicketRing.taken_prefix hring.not_valid ha
  · rw [show s.readIndex = _ from hrefines.readIndex, show s.processed = _ from hrefines.processed,
      show s.retired = _ from hrefines.retired, hinv.taken, List.length_map, List.length_take,
      Nat.min_eq_left hinv.gone_le, TicketRing.State.gone, Nat.add_sub_cancel]
  · intro thread packets writeIdx hmem
    rw [show s.returned = _ from hrefines.returned, List.mem_map] at hmem
    obtain ⟨⟨thread', packets', last⟩, hmem, heq⟩ := hmem
    cases heq
    have hanswer := TicketRing.answer_of_finished ha hmem
    rcases last with _ | ticket
    · exact .inl ⟨hanswer, rfl⟩
    · obtain ⟨packet, hlast, hget⟩ := hanswer
      exact .inr ⟨ticket, packet, rfl, hlast, hget⟩
  · intro writeIdx hdoorbell
    rw [show s.doorbell = _ from hrefines.doorbell, Option.map_eq_some_iff] at hdoorbell
    obtain ⟨ticket, hbell, rfl⟩ := hdoorbell
    exact ⟨ticket, rfl, (hinv.bell ticket hbell).1⟩
  · rw [← Bool.not_eq_false, haborted]
    simp

omit [DecidableEq τ] in
theorem ringActions_append (actions more : List (QueueAction τ)) :
    ringActions (actions ++ more) = ringActions actions ++ ringActions more := by
  rw [ringActions, List.filter_append, List.map_append, ringActions, ringActions]

omit [DecidableEq τ] in
theorem QueueAction.sized_of_isCall {action : QueueAction τ} (h : action.isCall = false) :
    action.sized = true := by
  cases action with
  | submit _ _ _ => cases h
  | _ => rfl

omit [DecidableEq τ] in
theorem exists_toRing {b : TicketRing.Action τ UInt32 15} (h : b.isCall = false) :
    ∃ action : QueueAction τ, action.isCall = false ∧ action.toRing = b := by
  cases b with
  | call _ _ => cases h
  | reserve thread => exact ⟨.addWriteIndex thread, rfl, rfl⟩
  | enter thread => exact ⟨.leaveLoop thread, rfl, rfl⟩
  | copy thread word => exact ⟨.memcpy thread word, rfl, rfl⟩
  | publish thread => exact ⟨.storeHeader thread, rfl, rfl⟩
  | notify thread => exact ⟨.ringDoorbell thread, rfl, rfl⟩
  | finish thread => exact ⟨.ret thread, rfl, rfl⟩
  | fetch => exact ⟨.fetch, rfl, rfl⟩
  | retire => exact ⟨.retire, rfl, rfl⟩
  | advance => exact ⟨.advance, rfl, rfl⟩

/-- What is not a call of `Submit` does not abort the program. -/
theorem aborted_of_run [Fintype τ] (hcard : Fintype.card τ ≤ 2 ^ 63) (hring : Blank q ring)
    (h : run (queueStep q) (queueStart ring) actions = some s) (hrunning : s.aborted = false)
    {more : List (QueueAction τ)} {t : QueueState τ}
    (hmore : ∀ action ∈ more, action.isCall = false) (ht : run (queueStep q) s more = some t) :
    t.aborted = false := by
  obtain ⟨haborted, -⟩ := refines_run hcard hring h
  have hrun : run (queueStep q) (queueStart ring) (actions ++ more) = some t := by
    rw [run_append, h, Option.bind_some, ht]
  obtain ⟨haborted', -⟩ := refines_run hcard hring hrun
  rw [haborted']
  intro action hmem
  rw [List.mem_append] at hmem
  exact hmem.elim (haborted.mp hrunning action)
    fun hmem ↦ QueueAction.sized_of_isCall (hmore action hmem)

/-- **Every call returns and every packet is processed** when the packet processor looks at the ring
by itself.  When no new calls are made, the threads and the packet processor come to an end after a
bounded number of steps, whatever their order, and there all calls have returned and all packets are
processed. -/
theorem polling_completes [Fintype τ] (hcard : Fintype.card τ ≤ 2 ^ 63) (hring : Blank q ring)
    (hvalid : ∀ thread, ∀ packet ∈ submitted thread actions,
      packetType (packet 0) ≠ hsaPacketTypeInvalid)
    (h : run (queueStep q) (queueStart ring) actions = some s) (hrunning : s.aborted = false) :
    ∃ bound, ∀ more t, (∀ action ∈ more, action.isCall = false) →
      run (queueStep q) s more = some t →
      more.length ≤ bound ∧ ((∀ action, action.isCall = false → queueStep q t action = none) →
        (∀ thread, t.calls thread = none) ∧ ∃ log : List (τ × Words),
          t.processed = log.map (fun entry ↦ List.ofFn entry.2) ∧
            ∀ thread, TicketRing.own thread log = submitted thread actions) := by
  obtain ⟨-, a, ha, -⟩ := refines_run hcard hring h
  refine ⟨a.work, fun more t hmore ht ↦ ?_⟩
  have hrun : run (queueStep q) (queueStart ring) (actions ++ more) = some t := by
    rw [run_append, h, Option.bind_some, ht]
  obtain ⟨-, r, hr, hrefines⟩ := refines_run hcard hring hrun
  have hsized : ∀ action ∈ more, action.sized = true :=
    fun action hmem ↦ QueueAction.sized_of_isCall (hmore action hmem)
  have hrunning' : t.aborted = false := aborted_of_run hcard hring h hrunning hmore ht
  rw [show { t with aborted := false } = t by rw [← hrunning']] at hrefines
  rw [ringActions_append, run_append, ha, Option.bind_some] at hr
  have hcalls : ∀ b ∈ ringActions more, b.isCall = false := by
    intro b hmem
    obtain ⟨action, haction, rfl⟩ := List.mem_map.mp hmem
    have hcall := hmore action (List.mem_filter.mp haction).1
    cases action <;> first | rfl | cases hcall
  have hgiven : ∀ thread, ∀ packet ∈ TicketRing.given thread (ringActions actions),
      q.device.valid (packet 0) = true := by
    intro thread packet hmem
    rw [given_ringActions] at hmem
    simpa [Queue.device] using hvalid thread packet hmem
  obtain ⟨hbound, hdone⟩ := TicketRing.completes hring.not_valid hgiven ha hcalls hr
  rw [ringActions, List.filter_eq_self.mpr hsized, List.length_map] at hbound
  refine ⟨hbound, fun hstuck ↦ ?_⟩
  have hring' : run (TicketRing.step q.device) (TicketRing.start (ringSlots ring))
      (ringActions actions ++ ringActions more) = some r := by
    rw [run_append, ha, Option.bind_some, hr]
  have hinv := TicketRing.inv_run hring.not_valid hring'
  -- where the threads and the packet processor are stuck, so are the producers and the consumer
  obtain ⟨hidle, howns, htaken⟩ := hdone fun b hcall ↦ by
    obtain ⟨action, hcall', rfl⟩ := exists_toRing hcall
    have hrel := refines_step hcard hinv hrefines (QueueAction.sized_of_isCall hcall')
    rw [hstuck action hcall'] at hrel
    rcases hstep : TicketRing.step q.device r action.toRing with _ | r'
    · rfl
    · rw [hstep] at hrel
      cases hrel
  refine ⟨fun thread ↦ ?_, r.log, hrefines.processed.trans htaken, fun thread ↦ ?_⟩
  · have hrel := hrefines.calls thread
    rw [hidle thread] at hrel
    rcases hcall : t.calls thread with _ | call
    · rfl
    · rw [hcall] at hrel
      cases hrel
  · rw [howns, given_ringActions]

end Results

/-! ## Two threads -/

/-- A queue of two slots. -/
def twoSlots : Queue where
  size := 2
  exponent := 1
  size_eq := rfl
  exponent_le := by decide
  invalidate _ := hsaPacketTypeInvalid
  invalidate_type _ := rfl

/-- Packets of a type that is not invalid, one after the other. -/
def dispatches (first : UInt32) (i : ℕ) : UInt32 :=
  if i % 16 = 0 then 2 else first + UInt32.ofNat i

/-- One thread submits two packets and the other one submits one.  The second one is faster with the
slot it has, but comes after the first one; the third packet waits for the slot of the first. -/
def twoThreads : List (QueueAction (Fin 2)) :=
  [.submit 0 (dispatches 100) 128, .submit 1 (dispatches 200) 64, .addWriteIndex 0,
    .addWriteIndex 1, .leaveLoop 1, .leaveLoop 0] ++ (List.finRange 15).map (.memcpy 1) ++
  [.storeHeader 1, .ringDoorbell 1, .ret 1] ++ (List.finRange 15).reverse.map (.memcpy 0) ++
  [.storeHeader 0, .ringDoorbell 0, .addWriteIndex 0] ++ List.replicate 16 .fetch ++
  [.retire, .advance, .leaveLoop 0]

theorem blank_twoSlots : Blank twoSlots fun _ ↦ hsaPacketTypeInvalid :=
  fun _ _ ↦ (by decide : packetType hsaPacketTypeInvalid = hsaPacketTypeInvalid)

theorem run_twoThreads :
    (run (queueStep twoSlots) (queueStart fun _ ↦ hsaPacketTypeInvalid) twoThreads).map
      (fun s ↦ (s.writeIndex, s.readIndex, s.processed.length, s.aborted))
      = some (3, 1, 1, false) := by
  decide +kernel

theorem submit_fifo_twoThreads : ∃ s log,
    run (queueStep twoSlots) (queueStart fun _ ↦ hsaPacketTypeInvalid) twoThreads = some s ∧
      s.processed.length = 1 ∧ Explains log twoThreads s := by
  obtain ⟨s, hs, hvalues⟩ := Option.map_eq_some_iff.mp run_twoThreads
  obtain ⟨log, hlog⟩ := submit_fifo (by simp) blank_twoSlots hs
  exact ⟨s, log, hs, by simpa using congrArg (fun v ↦ v.2.2.1) hvalues, hlog⟩

end HsaRsrcFactory
