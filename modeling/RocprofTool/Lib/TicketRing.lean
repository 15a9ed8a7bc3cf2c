import RocprofTool.Lib.Runs
import Mathlib.Data.List.FinRange
import Mathlib.Data.List.OfFn

/-!
# A ring of slots with many producers

Producers put packets into a ring of `size` slots, one consumer takes them out.  A producer draws a
ticket, waits until less than `size` tickets are before it, copies the body of its packet into the
slot of the ticket word by word, in any order, and stores the header last; the consumer polls the
header of the slot of the next ticket, reads the slot word by word, takes the header back and moves
on.  A producer works through a list of packets and comes back with its last ticket.

Every step of every party is a step of its own, so a list of actions is an interleaving, and what
holds after every run holds for every number of producers and every order of their steps.

* `Inv` is the invariant, `inv_step` its step lemma and `inv_run` what follows for the runs.  Its
  core are two statements about the `size` tickets from the next one on: the slot of one that is
  drawn and `Pending` nowhere holds its packet, and the header of the slot of any other is not
  valid.
* `taken_prefix`: what the consumer has taken is the beginning of what was given a ticket, in the
  order of the tickets, so no packet is torn, lost, overwritten or taken twice.
-/

set_option autoImplicit false

open Runs

namespace TicketRing

universe u v

variable {τ : Type u} {ω : Type v} {n : ℕ}

/-! ## The parties -/

/-- The words of a packet: the header is word zero. -/
abbrev Packet (ω : Type v) (n : ℕ) := Fin (n + 1) → ω

/-- How many slots there are, which headers the consumer goes on for, and what it leaves of one. -/
structure Device (ω : Type v) where
  size : ℕ
  valid : ω → Bool
  invalidate : ω → ω
  size_pos : 0 < size
  valid_invalidate : ∀ w, valid (invalidate w) = false

/-- How far a producer is with a ticket. -/
inductive Stage (n : ℕ)
  | waiting
  | copying (left : List (Fin n))
  | published
  deriving DecidableEq, Repr

/-- A ticket that a producer is not done with. -/
structure Fill (ω : Type v) (n : ℕ) where
  ticket : ℕ
  packet : Packet ω n
  stage : Stage n

/-- A producer in a call: the packets of the call, how many of them have a ticket, and the last
ticket. -/
structure Producer (ω : Type v) (n : ℕ) where
  packets : List (Packet ω n)
  sent : ℕ := 0
  last : Option ℕ := none
  fill : Option (Fill ω n) := none

/-- The ring and the parties.  The tickets are the positions in `log`, so that its length is the
write index. -/
structure State (τ : Type u) (ω : Type v) (n : ℕ) where
  log : List (τ × Packet ω n) := []
  read : ℕ := 0
  slots : ℕ → Packet ω n
  bell : Option ℕ := none
  producers : τ → Option (Producer ω n) := fun _ ↦ none
  finished : List (τ × List (Packet ω n) × Option ℕ) := []
  /-- The words that the consumer has read of the slot it is at. -/
  got : List ω := []
  /-- Has the consumer taken the header of that slot back? -/
  retired : Bool := false
  taken : List (List ω) := []

/-- What can happen next. -/
inductive Action (τ : Type u) (ω : Type v) (n : ℕ)
  | call (thread : τ) (packets : List (Packet ω n))
  | reserve (thread : τ)
  | enter (thread : τ)
  | copy (thread : τ) (word : Fin n)
  | publish (thread : τ)
  | notify (thread : τ)
  | finish (thread : τ)
  | fetch
  | retire
  | advance

/-- Is it the beginning of a call? -/
def Action.isCall : Action τ ω n → Bool
  | .call _ _ => true
  | _ => false

section Step

variable [DecidableEq τ]

/-- The state with a producer replaced. -/
def State.put (s : State τ ω n) (thread : τ) (p : Option (Producer ω n)) : State τ ω n :=
  { s with producers := Function.update s.producers thread p }

/-- The slots after a word is written to the slot of a ticket. -/
def State.write (s : State τ ω n) (d : Device ω) (ticket : ℕ) (word : Fin (n + 1)) (w : ω) :
    State τ ω n :=
  { s with
    slots := Function.update s.slots (ticket % d.size)
      (Function.update (s.slots (ticket % d.size)) word w) }

/-- The next packet of the call draws a ticket. -/
def Producer.reserve (s : State τ ω n) (thread : τ) (p : Producer ω n) : Option (State τ ω n) :=
  if p.fill.isSome then none
  else p.packets[p.sent]?.map fun packet ↦
    { s with log := s.log ++ [(thread, packet)] }.put thread (some { p with
      sent := p.sent + 1
      last := some s.log.length
      fill := some ⟨s.log.length, packet, .waiting⟩ })

/-- There is room for the ticket. -/
def Producer.enter (d : Device ω) (s : State τ ω n) (thread : τ) (p : Producer ω n) :
    Option (State τ ω n) :=
  match p.fill with
  | some ⟨ticket, packet, .waiting⟩ =>
    if ticket < s.read + d.size then
      some (s.put thread (some { p with
        fill := some ⟨ticket, packet, .copying (List.finRange n)⟩ }))
    else none
  | _ => none

/-- A word of the body is copied. -/
def Producer.copy (d : Device ω) (s : State τ ω n) (thread : τ) (word : Fin n)
    (p : Producer ω n) : Option (State τ ω n) :=
  match p.fill with
  | some ⟨ticket, packet, .copying left⟩ =>
    if word ∈ left then
      some ((s.write d ticket word.succ (packet word.succ)).put thread (some { p with
        fill := some ⟨ticket, packet, .copying (left.erase word)⟩ }))
    else none
  | _ => none

/-- The header is stored. -/
def Producer.publish (d : Device ω) (s : State τ ω n) (thread : τ) (p : Producer ω n) :
    Option (State τ ω n) :=
  match p.fill with
  | some ⟨ticket, packet, .copying []⟩ =>
    some ((s.write d ticket 0 (packet 0)).put thread (some { p with
      fill := some ⟨ticket, packet, .published⟩ }))
  | _ => none

/-- The consumer is told. -/
def Producer.notify (s : State τ ω n) (thread : τ) (p : Producer ω n) : Option (State τ ω n) :=
  match p.fill with
  | some ⟨ticket, _, .published⟩ =>
    some ({ s with bell := some ticket }.put thread (some { p with fill := none }))
  | _ => none

/-- The call comes back. -/
def Producer.finish (s : State τ ω n) (thread : τ) (p : Producer ω n) : Option (State τ ω n) :=
  if p.fill.isNone && p.packets.length ≤ p.sent then
    some ({ s with finished := s.finished ++ [(thread, p.packets, p.last)] }.put thread none)
  else none

/-- The next word of the slot is read; the first one only when it is a valid header. -/
def State.fetch (d : Device ω) (s : State τ ω n) : Option (State τ ω n) :=
  if h : s.got.length < n + 1 then
    if s.retired || (s.got.isEmpty && !d.valid (s.slots (s.read % d.size) 0)) then none
    else some { s with got := s.got ++ [s.slots (s.read % d.size) ⟨s.got.length, h⟩] }
  else none

/-- The slot is read, and its header is taken back. -/
def State.retire (d : Device ω) (s : State τ ω n) : Option (State τ ω n) :=
  if s.got.length = n + 1 then
    some { s.write d s.read 0 (d.invalidate (s.slots (s.read % d.size) 0)) with
      got := []
      retired := true
      taken := s.taken ++ [s.got] }
  else none

/-- The read index moves on. -/
def State.advance (s : State τ ω n) : Option (State τ ω n) :=
  if s.retired then some { s with read := s.read + 1, retired := false } else none

/-- One step. -/
def step (d : Device ω) (s : State τ ω n) : Action τ ω n → Option (State τ ω n)
  | .call thread packets =>
    if (s.producers thread).isSome then none else some (s.put thread (some { packets }))
  | .reserve thread => (s.producers thread).bind (Producer.reserve s thread)
  | .enter thread => (s.producers thread).bind (Producer.enter d s thread)
  | .copy thread word => (s.producers thread).bind (Producer.copy d s thread word)
  | .publish thread => (s.producers thread).bind (Producer.publish d s thread)
  | .notify thread => (s.producers thread).bind (Producer.notify s thread)
  | .finish thread => (s.producers thread).bind (Producer.finish s thread)
  | .fetch => s.fetch d
  | .retire => s.retire d
  | .advance => s.advance

/-! ## What a step does -/

section Inversion

variable {d : Device ω} {s t : State τ ω n} {thread : τ}

theorem of_call {packets : List (Packet ω n)} (h : step d s (.call thread packets) = some t) :
    s.producers thread = none ∧ t = s.put thread (some { packets }) := by
  rw [step, Option.ite_none_left_eq_some, Option.not_isSome_iff_eq_none] at h
  exact ⟨h.1, (Option.some.inj h.2).symm⟩

theorem of_reserve (h : step d s (.reserve thread) = some t) :
    ∃ p packet, s.producers thread = some p ∧ p.fill = none ∧ p.packets[p.sent]? = some packet ∧
      t = { s with log := s.log ++ [(thread, packet)] }.put thread (some { p with
        sent := p.sent + 1
        last := some s.log.length
        fill := some ⟨s.log.length, packet, .waiting⟩ }) := by
  obtain ⟨p, hp, h⟩ := Option.bind_eq_some_iff.mp h
  rw [Producer.reserve, Option.ite_none_left_eq_some, Option.not_isSome_iff_eq_none,
    Option.map_eq_some_iff] at h
  obtain ⟨hfill, packet, hpacket, rfl⟩ := h
  exact ⟨p, packet, hp, hfill, hpacket, rfl⟩

theorem of_enter (h : step d s (.enter thread) = some t) :
    ∃ p ticket packet, s.producers thread = some p ∧ p.fill = some ⟨ticket, packet, .waiting⟩ ∧
      ticket < s.read + d.size ∧ t = s.put thread (some { p with
        fill := some ⟨ticket, packet, .copying (List.finRange n)⟩ }) := by
  obtain ⟨p, hp, h⟩ := Option.bind_eq_some_iff.mp h
  unfold Producer.enter at h
  split at h
  · next ticket packet hfill =>
      rw [Option.ite_none_right_eq_some] at h
      exact ⟨p, ticket, packet, hp, hfill, h.1, (Option.some.inj h.2).symm⟩
  · cases h

theorem of_copy {word : Fin n} (h : step d s (.copy thread word) = some t) :
    ∃ p ticket packet left, s.producers thread = some p ∧
      p.fill = some ⟨ticket, packet, .copying left⟩ ∧ word ∈ left ∧
      t = (s.write d ticket word.succ (packet word.succ)).put thread (some { p with
        fill := some ⟨ticket, packet, .copying (left.erase word)⟩ }) := by
  obtain ⟨p, hp, h⟩ := Option.bind_eq_some_iff.mp h
  unfold Producer.copy at h
  split at h
  · next ticket packet left hfill =>
      rw [Option.ite_none_right_eq_some] at h
      exact ⟨p, ticket, packet, left, hp, hfill, h.1, (Option.some.inj h.2).symm⟩
  · cases h

theorem of_publish (h : step d s (.publish thread) = some t) :
    ∃ p ticket packet, s.producers thread = some p ∧
      p.fill = some ⟨ticket, packet, .copying []⟩ ∧
      t = (s.write d ticket 0 (packet 0)).put thread (some { p with
        fill := some ⟨ticket, packet, .published⟩ }) := by
  obtain ⟨p, hp, h⟩ := Option.bind_eq_some_iff.mp h
  unfold Producer.publish at h
  split at h
  · next ticket packet hfill => exact ⟨p, ticket, packet, hp, hfill, (Option.some.inj h).symm⟩
  · cases h

theorem of_notify (h : step d s (.notify thread) = some t) :
    ∃ p ticket packet, s.producers thread = some p ∧
      p.fill = some ⟨ticket, packet, .published⟩ ∧
      t = { s with bell := some ticket }.put thread (some { p with fill := none }) := by
  obtain ⟨p, hp, h⟩ := Option.bind_eq_some_iff.mp h
  unfold Producer.notify at h
  split at h
  · next ticket packet hfill => exact ⟨p, ticket, packet, hp, hfill, (Option.some.inj h).symm⟩
  · cases h

theorem of_finish (h : step d s (.finish thread) = some t) :
    ∃ p, s.producers thread = some p ∧ p.fill = none ∧ p.packets.length ≤ p.sent ∧
      t = { s with finished := s.finished ++ [(thread, p.packets, p.last)] }.put thread none := by
  obtain ⟨p, hp, h⟩ := Option.bind_eq_some_iff.mp h
  rw [Producer.finish, Option.ite_none_right_eq_some] at h
  obtain ⟨hdone, h⟩ := h
  simp only [Bool.and_eq_true, Option.isNone_iff_eq_none, decide_eq_true_eq] at hdone
  exact ⟨p, hp, hdone.1, hdone.2, (Option.some.inj h).symm⟩

omit [DecidableEq τ] in
theorem of_fetch (h : s.fetch d = some t) :
    s.retired = false ∧ (s.got = [] → d.valid (s.slots (s.read % d.size) 0) = true) ∧
      ∃ hlt : s.got.length < n + 1,
        t = { s with got := s.got ++ [s.slots (s.read % d.size) ⟨s.got.length, hlt⟩] } := by
  unfold State.fetch at h
  split_ifs at h with hlt hcan
  simp only [Bool.or_eq_true, Bool.and_eq_true, List.isEmpty_iff, Bool.not_eq_true', not_or,
    not_and, Bool.not_eq_true, Bool.not_eq_false] at hcan
  exact ⟨hcan.1, hcan.2, hlt, (Option.some.inj h).symm⟩

omit [DecidableEq τ] in
theorem of_retire (h : s.retire d = some t) :
    s.got.length = n + 1 ∧
      t = { s.write d s.read 0 (d.invalidate (s.slots (s.read % d.size) 0)) with
        got := []
        retired := true
        taken := s.taken ++ [s.got] } := by
  rw [State.retire, Option.ite_none_right_eq_some] at h
  exact ⟨h.1, (Option.some.inj h.2).symm⟩

omit [DecidableEq τ] in
theorem of_advance (h : s.advance = some t) :
    s.retired = true ∧ t = { s with read := s.read + 1, retired := false } := by
  rw [State.advance, Option.ite_none_right_eq_some] at h
  exact ⟨h.1, (Option.some.inj h.2).symm⟩

end Inversion

end Step

/-! ## The invariant -/

/-- What a producer is filling. -/
def State.fill (s : State τ ω n) (thread : τ) : Option (Fill ω n) :=
  (s.producers thread).bind Producer.fill

/-- How many packets the consumer is done with. -/
def State.gone (s : State τ ω n) : ℕ := s.read + s.retired.toNat

/-- Is the slot of this ticket still to be filled? -/
def OpenAt (fill : Option (Fill ω n)) (ticket : ℕ) : Prop :=
  ∃ f, fill = some f ∧ f.stage ≠ .published ∧ f.ticket = ticket

/-- A producer has the ticket, and its slot is not filled. -/
def State.Pending (s : State τ ω n) (ticket : ℕ) : Prop := ∃ thread, OpenAt (s.fill thread) ticket

/-- **The invariant.**  The window is the `size` tickets from the first one on that the consumer is
not done with. -/
structure Inv (d : Device ω) (s : State τ ω n) : Prop where
  gone_le : s.gone ≤ s.log.length
  drawn : ∀ thread f, s.fill thread = some f → s.log[f.ticket]? = some (thread, f.packet)
  ahead : ∀ ticket, s.Pending ticket → s.gone ≤ ticket
  copied : ∀ thread ticket packet left, s.fill thread = some ⟨ticket, packet, .copying left⟩ →
    ticket < s.read + d.size ∧
      ∀ word, word ∉ left → s.slots (ticket % d.size) word.succ = packet word.succ
  full : ∀ ticket thread packet, s.gone ≤ ticket → s.log[ticket]? = some (thread, packet) →
    ¬s.Pending ticket → ticket < s.read + d.size ∧ s.slots (ticket % d.size) = packet
  blank : ∀ ticket, s.gone ≤ ticket → ticket < s.gone + d.size →
    (s.log.length ≤ ticket ∨ s.Pending ticket) → d.valid (s.slots (ticket % d.size) 0) = false
  got : s.got ≠ [] → s.retired = false ∧ ¬s.Pending s.read ∧
    ∃ thread packet, s.log[s.read]? = some (thread, packet) ∧
      s.got = (List.ofFn packet).take s.got.length
  taken : s.taken = (s.log.take s.gone).map fun entry ↦ List.ofFn entry.2
  bell : ∀ ticket, s.bell = some ticket → ticket < s.log.length ∧ ¬s.Pending ticket

theorem slot_inj {size a b : ℕ} (h : a % size = b % size) (hab : a < b + size)
    (hba : b < a + size) : a = b := by
  wlog hle : a ≤ b generalizing a b
  · exact (this h.symm hba hab (Nat.le_of_not_le hle)).symm
  have hdvd : size ∣ b - a := Nat.dvd_of_mod_eq_zero (Nat.sub_mod_eq_zero_of_mod_eq h.symm)
  have hzero := Nat.eq_zero_of_dvd_of_lt hdvd (by omega)
  omega

section

variable {d : Device ω} {s t : State τ ω n}

/-- Two producers never have one ticket. -/
theorem Inv.unique (h : Inv d s) {a b : τ} {f g : Fill ω n} (hf : s.fill a = some f)
    (hg : s.fill b = some g) (heq : f.ticket = g.ticket) : a = b := by
  have hlog := h.drawn a f hf
  rw [heq, h.drawn b g hg] at hlog
  exact (congrArg Prod.fst (Option.some.inj hlog)).symm

theorem not_openAt_none {ticket : ℕ} : ¬OpenAt (none : Option (Fill ω n)) ticket := by
  simp [OpenAt]

theorem openAt_some {f : Fill ω n} {ticket : ℕ} :
    OpenAt (some f) ticket ↔ f.stage ≠ .published ∧ f.ticket = ticket := by
  simp [OpenAt]

theorem State.fill_of_producers {thread : τ} {p : Producer ω n} (h : s.producers thread = some p) :
    s.fill thread = p.fill := by
  rw [State.fill, h, Option.bind_some]

theorem State.write_slots_succ (ticket ticket' : ℕ) (word : Fin n) (w : ω) :
    (s.write d ticket word.succ w).slots (ticket' % d.size) 0 = s.slots (ticket' % d.size) 0 := by
  rcases eq_or_ne (ticket' % d.size) (ticket % d.size) with heq | hne
  · simp [State.write, heq, (Fin.succ_ne_zero word).symm]
  · simp [State.write, hne]

theorem State.write_slots_of_ne {ticket ticket' : ℕ} (word : Fin (n + 1)) (w : ω)
    (h : ticket' % d.size ≠ ticket % d.size) :
    (s.write d ticket word w).slots (ticket' % d.size) = s.slots (ticket' % d.size) := by
  simp [State.write, h]

/-- Replacing what one producer is filling. -/
theorem State.pending_update [DecidableEq τ] {thread : τ} {f : Option (Fill ω n)}
    (ht : t.fill = Function.update s.fill thread f) (ticket : ℕ) :
    t.Pending ticket ↔
      OpenAt f ticket ∨ ∃ other, other ≠ thread ∧ OpenAt (s.fill other) ticket := by
  rw [State.Pending, ht]
  constructor
  · rintro ⟨other, hopen⟩
    rcases eq_or_ne other thread with rfl | hne
    · rw [Function.update_self] at hopen
      exact .inl hopen
    · rw [Function.update_of_ne hne] at hopen
      exact .inr ⟨other, hne, hopen⟩
  · rintro (hopen | ⟨other, hne, hopen⟩)
    · exact ⟨thread, by rwa [Function.update_self]⟩
    · exact ⟨other, by rwa [Function.update_of_ne hne]⟩

/-- A step that leaves the ring alone and what is being filled keeps the invariant. -/
theorem Inv.of_fill_eq (h : Inv d s) (hlog : t.log = s.log) (hread : t.read = s.read)
    (hslots : t.slots = s.slots) (hbell : t.bell = s.bell) (hgot : t.got = s.got)
    (hretired : t.retired = s.retired) (htaken : t.taken = s.taken) (hfill : t.fill = s.fill) :
    Inv d t := by
  have hpending : ∀ ticket, t.Pending ticket ↔ s.Pending ticket := fun ticket ↦ by
    rw [State.Pending, hfill, State.Pending]
  have hgone : t.gone = s.gone := by rw [State.gone, hread, hretired, State.gone]
  constructor
  all_goals simp only [hlog, hread, hslots, hbell, hgot, hretired, htaken, hfill, hpending, hgone]
  exacts [h.gone_le, h.drawn, h.ahead, h.copied, h.full, h.blank, h.got, h.taken, h.bell]

/-! ### The consumer -/

/-- What the consumer reads is the packet of its ticket. -/
theorem Inv.exists_of_valid (h : Inv d s) (hretired : s.retired = false)
    (hvalid : d.valid (s.slots (s.read % d.size) 0) = true) :
    ¬s.Pending s.read ∧ ∃ thread packet, s.log[s.read]? = some (thread, packet) := by
  have hgone : s.gone = s.read := by rw [State.gone, hretired]; rfl
  have hpos := d.size_pos
  have hblank := h.blank s.read hgone.le (by omega)
  rw [hvalid] at hblank
  have hnot : ¬(s.log.length ≤ s.read ∨ s.Pending s.read) := fun hor ↦ by cases hblank hor
  rw [not_or, not_le] at hnot
  exact ⟨hnot.2, _, _, List.getElem?_eq_getElem hnot.1⟩

theorem Inv.got_eq_nil (h : Inv d s) (hretired : s.retired = true) : s.got = [] := by
  by_contra hne
  have hfalse := (h.got hne).1
  rw [hretired] at hfalse
  cases hfalse

theorem Inv.fetch (h : Inv d s) (hstep : s.fetch d = some t) : Inv d t := by
  obtain ⟨hretired, hvalid, hlt, rfl⟩ := of_fetch hstep
  have hgone : s.gone = s.read := by rw [State.gone, hretired]; rfl
  obtain ⟨hnot, thread, packet, hget, htake⟩ : ¬s.Pending s.read ∧ ∃ thread packet,
      s.log[s.read]? = some (thread, packet) ∧ s.got = (List.ofFn packet).take s.got.length := by
    rcases eq_or_ne s.got [] with hnil | hne
    · obtain ⟨hnot, thread, packet, hget⟩ := h.exists_of_valid hretired (hvalid hnil)
      exact ⟨hnot, thread, packet, hget, by rw [hnil]; rfl⟩
    · exact (h.got hne).2
  have hslot := (h.full s.read thread packet hgone.le hget hnot).2
  refine ⟨h.gone_le, h.drawn, h.ahead, h.copied, h.full, h.blank, fun _ ↦ ?_, h.taken, h.bell⟩
  refine ⟨hretired, hnot, thread, packet, hget, ?_⟩
  rw [List.length_append, List.length_singleton, List.take_add_one, ← htake, hslot,
    List.getElem?_ofFn, dif_pos hlt]
  rfl

theorem Inv.retire (h : Inv d s) (hstep : s.retire d = some t) : Inv d t := by
  obtain ⟨hlen, ht⟩ := of_retire hstep
  have hne : s.got ≠ [] := by
    rintro hnil
    rw [hnil] at hlen
    cases hlen
  obtain ⟨hretired, hnot, thread, packet, hget, htake⟩ := h.got hne
  have hgone : s.gone = s.read := by rw [State.gone, hretired]; rfl
  have hgone' : t.gone = s.read + 1 := by rw [ht]; rfl
  have hlog : t.log = s.log := by rw [ht]; rfl
  have hread : t.read = s.read := by rw [ht]; rfl
  have hfill : t.fill = s.fill := by rw [ht]; rfl
  have hlt := (List.getElem?_eq_some_iff.mp hget).1
  have hslots : ∀ ticket, ticket ≠ s.read → s.read ≤ ticket → ticket < s.read + d.size →
      t.slots (ticket % d.size) = s.slots (ticket % d.size) := by
    intro ticket hne hge hlt
    rw [ht]
    refine State.write_slots_of_ne _ _ fun heq ↦ hne ?_
    exact slot_inj heq (by omega) (by omega)
  have hahead : ∀ ticket, s.Pending ticket → s.read + 1 ≤ ticket := by
    intro ticket hticket
    have hge := h.ahead ticket hticket
    have hne : ticket ≠ s.read := fun heq ↦ hnot (heq ▸ hticket)
    omega
  have hpending : ∀ ticket, t.Pending ticket ↔ s.Pending ticket := fun ticket ↦ by
    rw [State.Pending, hfill, State.Pending]
  constructor
  · rw [hgone', hlog]
    exact hlt
  · rw [hlog, hfill]
    exact h.drawn
  · intro ticket hticket
    rw [hgone']
    exact hahead ticket ((hpending ticket).mp hticket)
  · intro other ticket packet' left hf
    rw [hfill] at hf
    obtain ⟨hroom, hwords⟩ := h.copied other ticket packet' left hf
    have hge := hahead ticket ⟨other, _, hf, nofun, rfl⟩
    rw [hread, hslots ticket (by omega) (by omega) hroom]
    exact ⟨hroom, hwords⟩
  · intro ticket other packet' hge hget' hnot'
    rw [hgone'] at hge
    rw [hlog] at hget'
    rw [hpending] at hnot'
    obtain ⟨hroom, hslot⟩ := h.full ticket other packet' (by omega) hget' hnot'
    rw [hread, hslots ticket (by omega) (by omega) hroom]
    exact ⟨hroom, hslot⟩
  · intro ticket hge hroom hor
    rw [hgone'] at hge hroom
    rw [hlog, hpending] at hor
    rcases eq_or_ne ticket (s.read + d.size) with rfl | hne
    -- the slot that has just become free
    · rw [Nat.add_mod_right, ht]
      simp [State.write, d.valid_invalidate]
    · rw [hslots ticket (by omega) (by omega) (by omega)]
      exact h.blank ticket (by omega) (by omega) hor
  · intro hgot
    rw [ht] at hgot
    exact absurd rfl hgot
  · have htaken : t.taken = s.taken ++ [s.got] := by rw [ht]
    rw [htaken, hlog, hgone', List.take_add_one, hget, List.map_append, h.taken, hgone, htake, hlen,
      List.take_of_length_le (List.length_ofFn).le]
    rfl
  · intro ticket hbell
    rw [hlog, hpending]
    rw [ht] at hbell
    exact h.bell ticket hbell

theorem Inv.advance (h : Inv d s) (hstep : s.advance = some t) : Inv d t := by
  obtain ⟨hretired, rfl⟩ := of_advance hstep
  have hgone : s.gone = s.read + 1 := by rw [State.gone, hretired]; rfl
  have hnil := h.got_eq_nil hretired
  have hgone' : ({ s with read := s.read + 1, retired := false } : State τ ω n).gone = s.gone := by
    rw [hgone]
    rfl
  refine ⟨hgone' ▸ h.gone_le, h.drawn, fun ticket hticket ↦ hgone' ▸ h.ahead ticket hticket, ?_, ?_,
    ?_, fun hne ↦ absurd hnil hne, hgone' ▸ h.taken, h.bell⟩
  · intro thread ticket packet left hf
    obtain ⟨hroom, hwords⟩ := h.copied thread ticket packet left hf
    exact ⟨hroom.trans_le (Nat.add_le_add_right (Nat.le_succ _) _), hwords⟩
  · intro ticket thread packet hge hget hnot
    obtain ⟨hroom, hslot⟩ := h.full ticket thread packet (hgone' ▸ hge) hget hnot
    exact ⟨hroom.trans_le (Nat.add_le_add_right (Nat.le_succ _) _), hslot⟩
  · intro ticket hge hlt hor
    rw [hgone'] at hge hlt
    exact h.blank ticket hge hlt hor

/-! ### The start -/

/-- The ring is empty, and no header in it is valid. -/
def start (slots : ℕ → Packet ω n) : State τ ω n := { slots }

theorem inv_start {slots : ℕ → Packet ω n}
    (h : ∀ i, i < d.size → d.valid (slots i 0) = false) :
    Inv d (start slots : State τ ω n) := by
  have hnot : ∀ ticket, ¬(start slots : State τ ω n).Pending ticket := by
    rintro ticket ⟨thread, f, hf, -⟩
    cases hf
  refine ⟨le_rfl, nofun, fun ticket hticket ↦ absurd hticket (hnot ticket), nofun, nofun, ?_,
    fun hne ↦ absurd rfl hne, rfl, nofun⟩
  exact fun ticket _ _ _ ↦ h _ (Nat.mod_lt _ d.size_pos)

variable [DecidableEq τ] {thread : τ}

theorem State.fill_put (p : Option (Producer ω n)) :
    (s.put thread p).fill = Function.update s.fill thread (p.bind Producer.fill) := by
  funext other
  rcases eq_or_ne other thread with rfl | hne
  · simp [State.fill, State.put]
  · simp [State.fill, State.put, hne]

theorem forall_fill_update {P : τ → Fill ω n → Prop} {f : Option (Fill ω n)}
    (hself : ∀ g, f = some g → P thread g)
    (hother : ∀ other g, other ≠ thread → s.fill other = some g → P other g) (other : τ)
    (g : Fill ω n) (h : Function.update s.fill thread f other = some g) : P other g := by
  rcases eq_or_ne other thread with rfl | hne
  · rw [Function.update_self] at h
    exact hself g h
  · rw [Function.update_of_ne hne] at h
    exact hother other g hne h

/-! ### The producers -/

theorem Inv.call {packets : List (Packet ω n)} (h : Inv d s)
    (hstep : step d s (.call thread packets) = some t) : Inv d t := by
  obtain ⟨hp, rfl⟩ := of_call hstep
  refine h.of_fill_eq rfl rfl rfl rfl rfl rfl rfl ?_
  rw [State.fill_put, Function.update_eq_self_iff, State.fill, hp]
  rfl

theorem Inv.finish (h : Inv d s) (hstep : step d s (.finish thread) = some t) : Inv d t := by
  obtain ⟨p, hp, hfill, -, rfl⟩ := of_finish hstep
  refine h.of_fill_eq rfl rfl rfl rfl rfl rfl rfl ?_
  rw [State.fill_put]
  exact Function.update_eq_self_iff.mpr ((State.fill_of_producers hp).trans hfill).symm

theorem Inv.reserve (h : Inv d s) (hstep : step d s (.reserve thread) = some t) : Inv d t := by
  obtain ⟨p, packet, hp, hnone, hpacket, ht⟩ := of_reserve hstep
  have hlog : t.log = s.log ++ [(thread, packet)] := by rw [ht]; rfl
  have hgone : t.gone = s.gone := by rw [ht]; rfl
  have hfill : t.fill = Function.update s.fill thread (some ⟨s.log.length, packet, .waiting⟩) := by
    rw [ht, State.fill_put]
    rfl
  have hlt : ∀ ticket, s.Pending ticket → ticket < s.log.length := by
    rintro ticket ⟨other, f, hf, -, rfl⟩
    exact (List.getElem?_eq_some_iff.mp (h.drawn other f hf)).1
  have hpending : ∀ ticket, t.Pending ticket ↔ ticket = s.log.length ∨ s.Pending ticket := by
    intro ticket
    rw [State.pending_update hfill, openAt_some, eq_comm (b := s.log.length),
      State.pending_update (Function.update_eq_self thread s.fill).symm,
      State.fill_of_producers hp, hnone]
    simp [not_openAt_none]
  have hold : ∀ ticket, ticket < s.log.length → t.log[ticket]? = s.log[ticket]? :=
    fun ticket hlt ↦ by rw [hlog, List.getElem?_append_left hlt]
  have hlen : t.log.length = s.log.length + 1 := by simp [hlog]
  have hslots : t.slots = s.slots := by rw [ht]; rfl
  have hread : t.read = s.read := by rw [ht]; rfl
  constructor
  · rw [hgone, hlen]
    exact Nat.le_succ_of_le h.gone_le
  · rw [hfill]
    refine forall_fill_update ?_ fun other f _ hf ↦ ?_
    · rintro f ⟨⟩
      rw [hlog, List.getElem?_concat_length]
    · rw [hold _ (List.getElem?_eq_some_iff.mp (h.drawn other f hf)).1]
      exact h.drawn other f hf
  · intro ticket hticket
    rw [hgone]
    rcases (hpending ticket).mp hticket with rfl | hticket
    · exact h.gone_le
    · exact h.ahead ticket hticket
  · intro other ticket packet' left hf
    rw [hread, hslots]
    revert hf
    rw [hfill]
    intro hf
    refine forall_fill_update (P := fun _ f ↦ f = ⟨ticket, packet', .copying left⟩ → _) ?_ ?_ other
      _ hf rfl
    · rintro f ⟨⟩ ⟨⟩
    · rintro other f - hf rfl
      exact h.copied other ticket packet' left hf
  · intro ticket other packet' hge hget hnot
    rw [hpending, not_or] at hnot
    have hlt' : ticket < s.log.length := by
      have := (List.getElem?_eq_some_iff.mp hget).1
      omega
    rw [hread, hslots]
    rw [hold ticket hlt'] at hget
    exact h.full ticket other packet' (hgone ▸ hge) hget hnot.2
  · intro ticket hge hlt' hor
    rw [hgone] at hge hlt'
    rw [hslots]
    refine h.blank ticket hge hlt' ?_
    rw [hpending, hlen] at hor
    rcases hor with hle | rfl | hor
    · exact .inl (by omega)
    · exact .inl le_rfl
    · exact .inr hor
  · intro hgot
    have hgot' : t.got = s.got := by rw [ht]; rfl
    rw [hgot'] at hgot ⊢
    obtain ⟨hretired, hnot, other, packet', hget, htake⟩ := h.got hgot
    have hlt' := (List.getElem?_eq_some_iff.mp hget).1
    refine ⟨by rw [ht]; exact hretired, ?_, other, packet', ?_, htake⟩
    · rw [hpending, hread, not_or]
      exact ⟨hlt'.ne, hnot⟩
    · rw [hread, hold _ hlt', hget]
  · rw [hgone, hlog, List.take_append_of_le_length h.gone_le, ← h.taken, ht]
    rfl
  · intro ticket hbell
    have hbell' : t.bell = s.bell := by rw [ht]; rfl
    obtain ⟨hlt', hnot⟩ := h.bell ticket (hbell' ▸ hbell)
    rw [hpending, hlen, not_or]
    exact ⟨by omega, hlt'.ne, hnot⟩

/-- **A step that replaces what one producer is filling**, and may have written to the slot for it
while it was open. -/
theorem Inv.refill (h : Inv d s) {f : Option (Fill ω n)}
    (hfill : t.fill = Function.update s.fill thread f) (hlog : t.log = s.log)
    (hread : t.read = s.read) (hretired : t.retired = s.retired) (hgot : t.got = s.got)
    (htaken : t.taken = s.taken)
    (hopen : ∀ ticket, OpenAt f ticket → OpenAt (s.fill thread) ticket)
    (hdrawn : ∀ g, f = some g → s.log[g.ticket]? = some (thread, g.packet))
    (hslots : ∀ ticket, s.gone ≤ ticket → ticket < s.gone + d.size →
      ¬OpenAt (s.fill thread) ticket → t.slots (ticket % d.size) = s.slots (ticket % d.size))
    (hcopied : ∀ ticket packet left, f = some ⟨ticket, packet, .copying left⟩ →
      ticket < s.read + d.size ∧
        ∀ word, word ∉ left → t.slots (ticket % d.size) word.succ = packet word.succ)
    (hfull : ∀ g, s.fill thread = some g → g.stage ≠ .published → ¬OpenAt f g.ticket →
      g.ticket < s.read + d.size ∧ t.slots (g.ticket % d.size) = g.packet)
    (hblank : ∀ ticket, OpenAt f ticket → ticket < s.gone + d.size →
      d.valid (t.slots (ticket % d.size) 0) = false)
    (hbell : ∀ ticket, t.bell = some ticket → s.bell = some ticket ∨
      (ticket < s.log.length ∧ ¬s.Pending ticket)) : Inv d t := by
  have hgone : t.gone = s.gone := by rw [State.gone, hread, hretired, State.gone]
  have hsub : ∀ ticket, t.Pending ticket → s.Pending ticket := by
    intro ticket hticket
    rcases (State.pending_update hfill ticket).mp hticket with hf | ⟨other, -, hf⟩
    · exact ⟨thread, hopen ticket hf⟩
    · exact ⟨other, hf⟩
  have hlt : ∀ ticket, s.Pending ticket → ticket < s.log.length := by
    rintro ticket ⟨other, g, hg, -, rfl⟩
    exact (List.getElem?_eq_some_iff.mp (h.drawn other g hg)).1
  -- what another producer has open is not open here
  have hother : ∀ other, other ≠ thread → ∀ ticket, OpenAt (s.fill other) ticket →
      ¬OpenAt (s.fill thread) ticket := by
    rintro other hne ticket ⟨g, hg, -, rfl⟩ ⟨g', hg', -, heq⟩
    exact hne (h.unique hg hg' heq.symm)
  constructor
  · rw [hgone, hlog]
    exact h.gone_le
  · rw [hfill, hlog]
    exact forall_fill_update hdrawn fun other g _ ↦ h.drawn other g
  · intro ticket hticket
    rw [hgone]
    exact h.ahead ticket (hsub ticket hticket)
  · intro other ticket packet left hg
    rw [hread]
    rw [hfill] at hg
    refine forall_fill_update (P := fun _ g ↦ g = ⟨ticket, packet, .copying left⟩ → _) ?_ ?_ other
      _ hg rfl
    · rintro g hg rfl
      exact hcopied ticket packet left hg
    · rintro other g hne hg rfl
      obtain ⟨hroom, hwords⟩ := h.copied other ticket packet left hg
      have hticket : OpenAt (s.fill other) ticket := ⟨_, hg, nofun, rfl⟩
      have hle : s.read ≤ s.gone := Nat.le_add_right _ _
      rw [hslots ticket (h.ahead ticket ⟨other, hticket⟩) (by omega)
        (hother other hne ticket hticket)]
      exact ⟨hroom, hwords⟩
  · intro ticket other packet hge hget hnot
    rw [hgone] at hge
    rw [hlog] at hget
    rw [hread]
    rw [State.pending_update hfill, not_or] at hnot
    by_cases hhere : OpenAt (s.fill thread) ticket
    · obtain ⟨g, hg, hstage, rfl⟩ := hhere
      have hentry := h.drawn thread g hg
      rw [hget, Option.some.injEq, Prod.mk.injEq] at hentry
      exact hentry.2 ▸ hfull g hg hstage hnot.1
    · have hnot' : ¬s.Pending ticket := by
        rintro ⟨other', hopen'⟩
        rcases eq_or_ne other' thread with rfl | hne
        · exact hhere hopen'
        · exact hnot.2 ⟨other', hne, hopen'⟩
      obtain ⟨hroom, hslot⟩ := h.full ticket other packet hge hget hnot'
      have hle : s.read ≤ s.gone := Nat.le_add_right _ _
      rw [hslots ticket hge (by omega) hhere]
      exact ⟨hroom, hslot⟩
  · intro ticket hge hroom hor
    rw [hgone] at hge hroom
    rw [hlog, State.pending_update hfill] at hor
    have hthere : OpenAt f ticket ∨
        ¬OpenAt (s.fill thread) ticket ∧ (s.log.length ≤ ticket ∨ s.Pending ticket) := by
      rcases hor with hle | hhere | ⟨other, hne, hticket⟩
      · exact .inr ⟨fun hhere ↦ (hlt ticket ⟨thread, hhere⟩).not_ge hle, .inl hle⟩
      · exact .inl hhere
      · exact .inr ⟨hother other hne ticket hticket, .inr ⟨other, hticket⟩⟩
    rcases hthere with hhere | ⟨hnot, hor⟩
    · exact hblank ticket hhere hroom
    · rw [hslots ticket hge hroom hnot]
      exact h.blank ticket hge hroom hor
  · rw [hgot, hretired, hread, hlog]
    intro hne
    obtain ⟨hretired, hnot, hentry⟩ := h.got hne
    exact ⟨hretired, fun hticket ↦ hnot (hsub _ hticket), hentry⟩
  · rw [htaken, hlog, hgone]
    exact h.taken
  · intro ticket hticket
    rw [hlog]
    obtain ⟨hlt', hnot⟩ := (hbell ticket hticket).elim (h.bell ticket) id
    exact ⟨hlt', fun hpending ↦ hnot (hsub ticket hpending)⟩

theorem Inv.enter (h : Inv d s) (hstep : step d s (.enter thread) = some t) : Inv d t := by
  obtain ⟨p, ticket, packet, hp, hfill, hroom, ht⟩ := of_enter hstep
  rw [← State.fill_of_producers hp] at hfill
  have hdrawn := h.drawn thread _ hfill
  have hfill' : t.fill = Function.update s.fill thread
      (some ⟨ticket, packet, .copying (List.finRange n)⟩) := by
    rw [ht, State.fill_put]
    rfl
  have hslots : t.slots = s.slots := by rw [ht]; rfl
  refine h.refill hfill' (by rw [ht]; rfl) (by rw [ht]; rfl) (by rw [ht]; rfl) (by rw [ht]; rfl)
    (by rw [ht]; rfl) ?_ ?_ ?_ ?_ ?_ ?_ ?_
  · rintro _ ⟨g, ⟨⟩, -, rfl⟩
    exact ⟨_, hfill, nofun, rfl⟩
  · rintro g ⟨⟩
    exact hdrawn
  · exact fun ticket' _ _ _ ↦ by rw [hslots]
  · rintro _ _ _ ⟨⟩
    exact ⟨hroom, fun word hword ↦ absurd (List.mem_finRange word) hword⟩
  · intro g hg _ hnot
    rw [hfill] at hg
    cases hg
    exact absurd ⟨_, rfl, nofun, rfl⟩ hnot
  · rintro _ ⟨g, ⟨⟩, -, rfl⟩ hlt
    have hpending : s.Pending ticket := ⟨thread, _, hfill, nofun, rfl⟩
    rw [hslots]
    exact h.blank ticket (h.ahead ticket hpending) hlt (.inr hpending)
  · intro ticket' hbell
    rw [ht] at hbell
    exact .inl hbell

theorem Inv.copy {word : Fin n} (h : Inv d s) (hstep : step d s (.copy thread word) = some t) :
    Inv d t := by
  obtain ⟨p, ticket, packet, left, hp, hfill, hword, ht⟩ := of_copy hstep
  rw [← State.fill_of_producers hp] at hfill
  have hdrawn := h.drawn thread _ hfill
  have hfill' : t.fill = Function.update s.fill thread
      (some ⟨ticket, packet, .copying (left.erase word)⟩) := by
    rw [ht, State.fill_put]
    rfl
  have hslots : t.slots = (s.write d ticket word.succ (packet word.succ)).slots := by rw [ht]; rfl
  have hpending : s.Pending ticket := ⟨thread, _, hfill, nofun, rfl⟩
  have hge := h.ahead ticket hpending
  obtain ⟨hroom, hwords⟩ := h.copied thread ticket packet left hfill
  have hle : s.read ≤ s.gone := Nat.le_add_right _ _
  refine h.refill hfill' (by rw [ht]; rfl) (by rw [ht]; rfl) (by rw [ht]; rfl) (by rw [ht]; rfl)
    (by rw [ht]; rfl) ?_ ?_ ?_ ?_ ?_ ?_ ?_
  · rintro _ ⟨g, ⟨⟩, -, rfl⟩
    exact ⟨_, hfill, nofun, rfl⟩
  · rintro g ⟨⟩
    exact hdrawn
  · intro ticket' hge' hlt' hnot
    rw [hslots]
    refine State.write_slots_of_ne _ _ fun heq ↦ hnot ⟨_, hfill, nofun, ?_⟩
    show ticket = ticket'
    exact slot_inj heq.symm (by omega) (by omega)
  · rintro _ _ _ ⟨⟩
    refine ⟨hroom, fun word' hword' ↦ ?_⟩
    rw [hslots]
    rcases eq_or_ne word' word with rfl | hne
    · simp [State.write]
    · rw [List.mem_erase_of_ne hne] at hword'
      simp [State.write, hne, hwords word' hword']
  · intro g hg _ hnot
    rw [hfill] at hg
    cases hg
    exact absurd ⟨_, rfl, nofun, rfl⟩ hnot
  · rintro _ ⟨g, ⟨⟩, -, rfl⟩ hlt
    rw [hslots, State.write_slots_succ]
    exact h.blank ticket hge hlt (.inr hpending)
  · intro ticket' hbell
    rw [ht] at hbell
    exact .inl hbell

theorem Inv.publish (h : Inv d s) (hstep : step d s (.publish thread) = some t) : Inv d t := by
  obtain ⟨p, ticket, packet, hp, hfill, ht⟩ := of_publish hstep
  rw [← State.fill_of_producers hp] at hfill
  have hdrawn := h.drawn thread _ hfill
  have hfill' : t.fill = Function.update s.fill thread (some ⟨ticket, packet, .published⟩) := by
    rw [ht, State.fill_put]
    rfl
  have hslots : t.slots = (s.write d ticket 0 (packet 0)).slots := by rw [ht]; rfl
  have hge := h.ahead ticket ⟨thread, _, hfill, nofun, rfl⟩
  obtain ⟨hroom, hwords⟩ := h.copied thread ticket packet [] hfill
  have hle : s.read ≤ s.gone := Nat.le_add_right _ _
  have hclosed : ∀ ticket', ¬OpenAt (some ⟨ticket, packet, Stage.published⟩) ticket' :=
    fun _ hopen ↦ (openAt_some.mp hopen).1 rfl
  refine h.refill hfill' (by rw [ht]; rfl) (by rw [ht]; rfl) (by rw [ht]; rfl) (by rw [ht]; rfl)
    (by rw [ht]; rfl) (fun ticket' hopen ↦ absurd hopen (hclosed ticket')) ?_ ?_
    (by rintro _ _ _ ⟨⟩)
    ?_ (fun ticket' hopen ↦ absurd hopen (hclosed ticket')) ?_
  · rintro g ⟨⟩
    exact hdrawn
  · intro ticket' hge' hlt' hnot
    rw [hslots]
    refine State.write_slots_of_ne _ _ fun heq ↦ hnot ⟨_, hfill, nofun, ?_⟩
    show ticket = ticket'
    exact slot_inj heq.symm (by omega) (by omega)
  · intro g hg _ _
    rw [hfill] at hg
    cases hg
    refine ⟨hroom, ?_⟩
    rw [hslots]
    funext word
    cases word using Fin.cases with
    | zero => simp [State.write]
    | succ word => simpa [State.write] using hwords word
  · intro ticket' hbell
    rw [ht] at hbell
    exact .inl hbell

theorem Inv.notify (h : Inv d s) (hstep : step d s (.notify thread) = some t) : Inv d t := by
  obtain ⟨p, ticket, packet, hp, hfill, ht⟩ := of_notify hstep
  rw [← State.fill_of_producers hp] at hfill
  have hfill' : t.fill = Function.update s.fill thread none := by
    rw [ht, State.fill_put]
    rfl
  have hslots : t.slots = s.slots := by rw [ht]; rfl
  refine h.refill hfill' (by rw [ht]; rfl) (by rw [ht]; rfl) (by rw [ht]; rfl) (by rw [ht]; rfl)
    (by rw [ht]; rfl) (fun _ hopen ↦ absurd hopen not_openAt_none) (by rintro g ⟨⟩)
    (fun _ _ _ _ ↦ by rw [hslots]) (by rintro _ _ _ ⟨⟩) ?_
    (fun _ hopen ↦ absurd hopen not_openAt_none) ?_
  · intro g hg hstage
    rw [hfill] at hg
    cases hg
    exact absurd rfl hstage
  · intro ticket' hbell
    rw [ht] at hbell
    cases hbell
    refine .inr ⟨(List.getElem?_eq_some_iff.mp (h.drawn thread _ hfill)).1, ?_⟩
    rintro ⟨other, g, hg, hstage, heq⟩
    cases h.unique hg hfill heq
    rw [hfill] at hg
    cases hg
    exact hstage rfl

/-! ### Every step -/

/-- **The step.** -/
theorem inv_step {a : Action τ ω n} (h : Inv d s) (hstep : step d s a = some t) : Inv d t := by
  cases a with
  | call thread packets => exact h.call hstep
  | reserve thread => exact h.reserve hstep
  | enter thread => exact h.enter hstep
  | copy thread word => exact h.copy hstep
  | publish thread => exact h.publish hstep
  | notify thread => exact h.notify hstep
  | finish thread => exact h.finish hstep
  | fetch => exact h.fetch hstep
  | retire => exact h.retire hstep
  | advance => exact h.advance hstep

/-! ### Runs -/

theorem inv_run {slots : ℕ → Packet ω n} (hslots : ∀ i, i < d.size → d.valid (slots i 0) = false)
    {acts : List (Action τ ω n)} (h : run (step d) (start slots) acts = some s) : Inv d s :=
  run_invariant (inv_start hslots) (fun _ _ _ ↦ inv_step) h

/-- **First in, first out.**  What the consumer has taken is the beginning of what has a ticket. -/
theorem taken_prefix {slots : ℕ → Packet ω n}
    (hslots : ∀ i, i < d.size → d.valid (slots i 0) = false) {acts : List (Action τ ω n)}
    (h : run (step d) (start slots) acts = some s) :
    s.taken <+: s.log.map fun entry ↦ List.ofFn entry.2 := by
  rw [(inv_run hslots h).taken]
  exact (List.take_prefix _ _).map _

end

end TicketRing
