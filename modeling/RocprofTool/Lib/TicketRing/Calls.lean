import RocprofTool.Lib.TicketRing
import Mathlib.Algebra.BigOperators.Group.Finset.Piecewise
import Mathlib.Data.Fintype.Card
import Mathlib.Order.Interval.Finset.Nat

/-!
# The calls of the producers of a ring

What a producer of `TicketRing` can rely on, from its call to the answer.

* `own_log`: the tickets of one producer are in the order of its packets.
* `answer_of_finished`: what a call comes back with is the ticket of its last packet.
* `State.work` counts what there is left to do, since every step but a new call takes one from it
  (`work_step`), and as long as it is not zero some party can go on (`exists_step`), so that all
  calls come to their end (`completes`).  This takes a number of producers that is finite, which
  also bounds how far the tickets get ahead of the consumer (`Inv.log_le`).
-/

set_option autoImplicit false

open Runs

namespace TicketRing

universe u v

variable {τ : Type u} {ω : Type v} {n : ℕ}

section

variable {d : Device ω} {s t : State τ ω n}

variable [DecidableEq τ] {thread : τ}

/-! ## The order of the packets of a producer -/

/-- The packets that an action gives to a producer. -/
def Action.packets (thread : τ) : Action τ ω n → List (Packet ω n)
  | .call other packets => if other = thread then packets else []
  | _ => []

/-- The packets that a producer is given, in order. -/
def given (thread : τ) (acts : List (Action τ ω n)) : List (Packet ω n) :=
  acts.flatMap (Action.packets thread)

/-- The packets of a producer among those that have a ticket. -/
def own (thread : τ) (log : List (τ × Packet ω n)) : List (Packet ω n) :=
  (log.filter fun entry ↦ entry.1 = thread).map Prod.snd

/-- The packets of the producer's call that have no ticket yet. -/
def State.unsent (s : State τ ω n) (thread : τ) : List (Packet ω n) :=
  ((s.producers thread).map fun p ↦ p.packets.drop p.sent).getD []

theorem given_concat (thread : τ) (acts : List (Action τ ω n)) (a : Action τ ω n) :
    given thread (acts ++ [a]) = given thread acts ++ a.packets thread := by
  simp [given]

theorem Action.packets_eq_nil (thread : τ) {a : Action τ ω n} (h : a.isCall = false) :
    a.packets thread = [] := by
  cases a with
  | call _ _ => cases h
  | _ => rfl

theorem own_concat (other : τ) (log : List (τ × Packet ω n)) (packet : Packet ω n) :
    own other (log ++ [(thread, packet)]) =
      own other log ++ if thread = other then [packet] else [] := by
  rw [own, List.filter_append, List.map_append, own]
  split_ifs with heq <;> simp [heq]

theorem State.unsent_put (p : Option (Producer ω n)) (other : τ) :
    (s.put thread p).unsent other =
      if thread = other then (p.map fun p ↦ p.packets.drop p.sent).getD [] else s.unsent other := by
  rcases eq_or_ne other thread with rfl | hne
  · simp [State.unsent, State.put]
  · simp [State.unsent, State.put, hne, hne.symm]

theorem own_put {s' : State τ ω n} {p : Producer ω n} {p' : Option (Producer ω n)}
    (hp : s.producers thread = some p) (hlog : s'.log = s.log)
    (hproducers : s'.producers = s.producers)
    (h : (p'.map fun p ↦ p.packets.drop p.sent).getD [] = p.packets.drop p.sent) (other : τ) :
    own other (s'.put thread p').log ++ (s'.put thread p').unsent other =
      own other s.log ++ s.unsent other := by
  rw [State.unsent_put, h, State.unsent, hproducers]
  show own other s'.log ++ _ = _
  rw [hlog]
  split_ifs with heq
  · rw [← heq, State.unsent, hp]
    rfl
  · rfl

/-- A step takes the packets it gives a ticket from those that have none, in order. -/
theorem own_step {a : Action τ ω n} (hstep : step d s a = some t) (other : τ) :
    own other t.log ++ t.unsent other =
      own other s.log ++ s.unsent other ++ a.packets other := by
  cases a with
  | call thread packets =>
    obtain ⟨hnone, rfl⟩ := of_call hstep
    rw [State.unsent_put, Action.packets]
    split_ifs with heq
    · subst heq
      simp [State.unsent, hnone, State.put]
    · rw [List.append_nil]
      rfl
  | reserve thread =>
    obtain ⟨p, packet, hp, -, hpacket, rfl⟩ := of_reserve hstep
    refine Eq.trans ?_ (List.append_nil _).symm
    rw [State.unsent_put]
    show own other (s.log ++ [(thread, packet)]) ++ _ = _
    rw [own_concat]
    split_ifs with heq
    · subst heq
      obtain ⟨hlt, rfl⟩ := List.getElem?_eq_some_iff.mp hpacket
      rw [State.unsent, hp, Option.map_some, Option.getD_some, Option.map_some, Option.getD_some,
        List.append_assoc, List.singleton_append, List.drop_eq_getElem_cons hlt]
    · rw [List.append_nil]
      rfl
  | enter thread =>
    obtain ⟨p, ticket, packet, hp, -, -, rfl⟩ := of_enter hstep
    exact (own_put hp rfl rfl rfl other).trans (List.append_nil _).symm
  | copy thread word =>
    obtain ⟨p, ticket, packet, left, hp, -, -, rfl⟩ := of_copy hstep
    exact (own_put hp rfl rfl rfl other).trans (List.append_nil _).symm
  | publish thread =>
    obtain ⟨p, ticket, packet, hp, -, rfl⟩ := of_publish hstep
    exact (own_put hp rfl rfl rfl other).trans (List.append_nil _).symm
  | notify thread =>
    obtain ⟨p, ticket, packet, hp, -, rfl⟩ := of_notify hstep
    exact (own_put hp rfl rfl rfl other).trans (List.append_nil _).symm
  | finish thread =>
    obtain ⟨p, hp, -, hdone, rfl⟩ := of_finish hstep
    refine (own_put hp rfl rfl ?_ other).trans (List.append_nil _).symm
    rw [List.drop_eq_nil_of_le hdone]
    rfl
  | fetch =>
    obtain ⟨-, -, -, rfl⟩ := of_fetch hstep
    exact (List.append_nil _).symm
  | retire =>
    obtain ⟨-, rfl⟩ := of_retire hstep
    exact (List.append_nil _).symm
  | advance =>
    obtain ⟨-, rfl⟩ := of_advance hstep
    exact (List.append_nil _).symm

/-- **The tickets of a producer are in the order of its packets.**  What it was given is what it has
tickets for, and then what it has none for. -/
theorem own_log {slots : ℕ → Packet ω n} {acts : List (Action τ ω n)}
    (h : run (step d) (start slots) acts = some s) (thread : τ) :
    own thread s.log ++ s.unsent thread = given thread acts := by
  refine run_induction (P := fun acts s ↦ own thread s.log ++ s.unsent thread = given thread acts)
    rfl (fun acts s a t _ hs hstep ↦ ?_) h
  rw [own_step hstep, hs, given_concat]

/-! ## The ticket that comes back -/

/-- What a producer knows of its last ticket. -/
def Remembers (log : List (τ × Packet ω n)) (thread : τ) (packets : List (Packet ω n)) (sent : ℕ)
    (last : Option ℕ) : Prop :=
  match last with
  | none => sent = 0
  | some ticket => 0 < sent ∧ ∃ packet, packets[sent - 1]? = some packet ∧
      log[ticket]? = some (thread, packet)

omit [DecidableEq τ] in
theorem Remembers.concat {log : List (τ × Packet ω n)} {packets : List (Packet ω n)} {sent : ℕ}
    {last : Option ℕ} (h : Remembers log thread packets sent last) (entry : τ × Packet ω n) :
    Remembers (log ++ [entry]) thread packets sent last := by
  rcases last with _ | ticket
  · exact h
  · obtain ⟨hpos, packet, hpacket, hget⟩ := h
    refine ⟨hpos, packet, hpacket, ?_⟩
    rw [List.getElem?_append_left (List.getElem?_eq_some_iff.mp hget).1, hget]

/-- The producers and the calls that are back. -/
structure Answered (s : State τ ω n) : Prop where
  producers : ∀ thread p, s.producers thread = some p →
    Remembers s.log thread p.packets p.sent p.last
  finished : ∀ thread packets last, (thread, packets, last) ∈ s.finished →
    ∃ sent, packets.length ≤ sent ∧ Remembers s.log thread packets sent last

theorem Answered.put (h : Answered s) {p : Option (Producer ω n)} (hlog : t.log = s.log)
    (hfinished : t.finished = s.finished)
    (hproducers : t.producers = Function.update s.producers thread p)
    (hp : ∀ p', p = some p' → Remembers s.log thread p'.packets p'.sent p'.last) : Answered t := by
  refine ⟨fun other p' hp' ↦ ?_, hlog ▸ hfinished ▸ h.finished⟩
  rw [hlog]
  rw [hproducers] at hp'
  rcases eq_or_ne other thread with rfl | hne
  · rw [Function.update_self] at hp'
    exact hp p' hp'
  · rw [Function.update_of_ne hne] at hp'
    exact h.producers other p' hp'

theorem answered_step {a : Action τ ω n} (h : Answered s) (hstep : step d s a = some t) :
    Answered t := by
  cases a with
  | call thread packets =>
    obtain ⟨-, rfl⟩ := of_call hstep
    exact h.put rfl rfl rfl (by rintro p' ⟨⟩; rfl)
  | reserve thread =>
    obtain ⟨p, packet, hp, -, hpacket, rfl⟩ := of_reserve hstep
    refine Answered.put (s := { s with log := s.log ++ [(thread, packet)] }) ?_ rfl rfl rfl ?_
    · refine ⟨fun other p' hp' ↦ (h.producers other p' hp').concat _,
        fun other packets last hmem ↦ ?_⟩
      obtain ⟨sent, hle, hremembers⟩ := h.finished other packets last hmem
      exact ⟨sent, hle, hremembers.concat _⟩
    · rintro p' ⟨⟩
      exact ⟨Nat.succ_pos _, packet, hpacket, List.getElem?_concat_length⟩
  | enter thread =>
    obtain ⟨p, ticket, packet, hp, -, -, rfl⟩ := of_enter hstep
    exact h.put rfl rfl rfl (by rintro p' ⟨⟩; exact h.producers thread p hp)
  | copy thread word =>
    obtain ⟨p, ticket, packet, left, hp, -, -, rfl⟩ := of_copy hstep
    exact h.put rfl rfl rfl (by rintro p' ⟨⟩; exact h.producers thread p hp)
  | publish thread =>
    obtain ⟨p, ticket, packet, hp, -, rfl⟩ := of_publish hstep
    exact h.put rfl rfl rfl (by rintro p' ⟨⟩; exact h.producers thread p hp)
  | notify thread =>
    obtain ⟨p, ticket, packet, hp, -, rfl⟩ := of_notify hstep
    exact h.put rfl rfl rfl (by rintro p' ⟨⟩; exact h.producers thread p hp)
  | finish thread =>
    obtain ⟨p, hp, -, hdone, rfl⟩ := of_finish hstep
    refine Answered.put (s := { s with finished := s.finished ++ [(thread, p.packets, p.last)] })
      ⟨h.producers, fun other packets last hmem ↦ ?_⟩ rfl rfl rfl nofun
    rw [List.mem_append, List.mem_singleton] at hmem
    rcases hmem with hmem | heq
    · exact h.finished other packets last hmem
    · cases heq
      exact ⟨p.sent, hdone, h.producers thread p hp⟩
  | fetch =>
    obtain ⟨-, -, -, rfl⟩ := of_fetch hstep
    exact ⟨h.producers, h.finished⟩
  | retire =>
    obtain ⟨-, rfl⟩ := of_retire hstep
    exact ⟨h.producers, h.finished⟩
  | advance =>
    obtain ⟨-, rfl⟩ := of_advance hstep
    exact ⟨h.producers, h.finished⟩

/-- What a call comes back with: the ticket of its last packet, when there is one. -/
def Answer (log : List (τ × Packet ω n)) (thread : τ) (packets : List (Packet ω n))
    (last : Option ℕ) : Prop :=
  match last with
  | none => packets = []
  | some ticket => ∃ packet, packets.getLast? = some packet ∧ log[ticket]? = some (thread, packet)

/-- **A call comes back with the ticket of its last packet.** -/
theorem answer_of_finished {slots : ℕ → Packet ω n} {acts : List (Action τ ω n)}
    (h : run (step d) (start slots) acts = some s) {packets : List (Packet ω n)} {last : Option ℕ}
    (hmem : (thread, packets, last) ∈ s.finished) : Answer s.log thread packets last := by
  have hanswered : Answered s := run_invariant ⟨nofun, nofun⟩ (fun _ _ _ ↦ answered_step) h
  obtain ⟨sent, hle, hremembers⟩ := hanswered.finished thread packets last hmem
  rcases last with _ | ticket
  · rw [show sent = 0 from hremembers, Nat.le_zero, List.length_eq_zero_iff] at hle
    exact hle
  · obtain ⟨hpos, packet, hpacket, hget⟩ := hremembers
    have hlt := (List.getElem?_eq_some_iff.mp hpacket).1
    refine ⟨packet, ?_, hget⟩
    rw [List.getLast?_eq_getElem?, ← hpacket]
    congr 1
    omega

end

/-! ## What there is left to do -/

/-- The steps that a producer needs for the ticket it has. -/
def Stage.work : Stage n → ℕ
  | .waiting => n + 3
  | .copying left => left.length + 2
  | .published => 1

/-- The steps for the call of a producer, those of the consumer for packets without a ticket
included. -/
def Producer.work (p : Producer ω n) : ℕ :=
  (p.packets.length - p.sent) * (2 * n + 7) + (p.fill.map fun f ↦ f.stage.work).getD 0 + 1

/-- The same for a producer that may not be in a call. -/
def callWork (p : Option (Producer ω n)) : ℕ := (p.map Producer.work).getD 0

/-- The steps of the consumer for the packets with a ticket. -/
def State.owed (s : State τ ω n) : ℕ :=
  (s.log.length - s.gone) * (n + 3) + s.retired.toNat - s.got.length

section

variable {d : Device ω} {s t : State τ ω n}

theorem Inv.got_length_le (h : Inv d s) : s.got.length ≤ n + 1 := by
  rcases eq_or_ne s.got [] with hnil | hne
  · rw [hnil]
    exact Nat.zero_le _
  · obtain ⟨-, -, thread, packet, -, htake⟩ := h.got hne
    rw [htake]
    exact (List.length_take_le' _ _).trans (List.length_ofFn).le

theorem Inv.got_lt (h : Inv d s) (hne : s.got ≠ []) :
    s.got.length < (s.log.length - s.gone) * (n + 3) := by
  obtain ⟨hretired, -, thread, packet, hget, -⟩ := h.got hne
  have hgone : s.gone = s.read := by rw [State.gone, hretired]; rfl
  have hlt := (List.getElem?_eq_some_iff.mp hget).1
  have hlen := h.got_length_le
  have hmul : 1 * (n + 3) ≤ (s.log.length - s.gone) * (n + 3) :=
    Nat.mul_le_mul_right _ (by omega)
  omega

theorem State.owed_reserve (h : Inv d s) (thread : τ) (packet : Packet ω n) :
    ({ s with log := s.log ++ [(thread, packet)] } : State τ ω n).owed = s.owed + (n + 3) := by
  have hgot : s.got.length ≤ (s.log.length - s.gone) * (n + 3) + s.retired.toNat := by
    rcases eq_or_ne s.got [] with hnil | hne
    · rw [hnil]
      exact Nat.zero_le _
    · have hlt := h.got_lt hne
      omega
  have hmul : (s.log.length + 1 - s.gone) * (n + 3)
      = (s.log.length - s.gone) * (n + 3) + (n + 3) := by
    rw [Nat.succ_sub h.gone_le, Nat.succ_mul]
  show (_ - s.gone) * (n + 3) + s.retired.toNat - s.got.length = _
  rw [List.length_append, List.length_singleton, hmul, State.owed]
  omega

theorem owed_fetch (h : Inv d s) (hstep : s.fetch d = some t) : t.owed + 1 = s.owed := by
  have h' := h.fetch hstep
  obtain ⟨hretired, -, hlt, rfl⟩ := of_fetch hstep
  obtain ⟨-, -, other, packet', hget, -⟩ := h'.got (by simp)
  have hgone : s.gone = s.read := by rw [State.gone, hretired]; rfl
  have hlog : s.read < s.log.length := (List.getElem?_eq_some_iff.mp hget).1
  have hmul : 1 * (n + 3) ≤ (s.log.length - s.gone) * (n + 3) :=
    Nat.mul_le_mul_right _ (by omega)
  rw [State.owed, State.owed]
  show (s.log.length - s.gone) * (n + 3) + s.retired.toNat - (s.got ++ [_]).length + 1 = _
  rw [List.length_append, List.length_singleton]
  omega

theorem owed_retire (h : Inv d s) (hstep : s.retire d = some t) : t.owed + 1 = s.owed := by
  obtain ⟨hlen, rfl⟩ := of_retire hstep
  obtain ⟨hretired, -, other, packet', hget, -⟩ := h.got fun hnil ↦ by simp [hnil] at hlen
  have hlog := (List.getElem?_eq_some_iff.mp hget).1
  obtain ⟨k, hk⟩ := Nat.exists_eq_add_one_of_ne_zero (Nat.sub_ne_zero_of_lt hlog)
  have hk' : s.log.length - (s.read + 1) = k := by omega
  rw [State.owed, State.owed, State.gone, State.gone]
  show (s.log.length - (s.read + 1)) * (n + 3) + 1 - 0 + 1 = _
  simp only [hretired, hlen, Bool.toNat_false, Nat.add_zero, hk, hk', Nat.succ_mul]
  omega

theorem owed_advance (h : Inv d s) (hstep : s.advance = some t) : t.owed + 1 = s.owed := by
  obtain ⟨hretired, rfl⟩ := of_advance hstep
  have hnil : s.got = [] := h.got_eq_nil hretired
  rw [State.owed, State.owed, State.gone, State.gone]
  show (s.log.length - (s.read + 1)) * (n + 3) + 0 - s.got.length + 1 = _
  rw [hretired, hnil]
  rfl

/-- There are no more tickets than slots and producers ahead of the consumer. -/
theorem Inv.log_le [Fintype τ] (h : Inv d s) : s.log.length ≤ s.read + d.size + Fintype.card τ := by
  have hpos := d.size_pos
  have hpending : ∀ ticket, s.read + d.size ≤ ticket → ticket < s.log.length →
      s.Pending ticket := by
    intro ticket hge hlt
    by_contra hnot
    have hgone : s.gone ≤ ticket := by
      have hle : s.retired.toNat ≤ 1 := Bool.toNat_le _
      rw [State.gone]
      omega
    have hroom := (h.full ticket _ _ hgone (List.getElem?_eq_getElem hlt) hnot).1
    omega
  have hcard : (Finset.Ico (s.read + d.size) s.log.length).card ≤
      (Finset.univ : Finset τ).card := by
    refine Finset.card_le_card_of_surjOn (fun thread ↦ ((s.fill thread).map Fill.ticket).getD 0) ?_
    intro ticket hticket
    obtain ⟨hge, hlt⟩ := Finset.mem_Ico.mp hticket
    obtain ⟨thread, f, hf, -, hticket⟩ := hpending ticket hge hlt
    exact ⟨thread, Finset.mem_coe.mpr (Finset.mem_univ thread), by simp [hf, hticket]⟩
  rw [Nat.card_Ico, Finset.card_univ] at hcard
  omega

variable [DecidableEq τ] {thread : τ}

/-- What a producer does next, unless it waits for room. -/
theorem exists_producer_step {p : Producer ω n} (hp : s.producers thread = some p)
    (hroom : ∀ ticket packet, p.fill = some ⟨ticket, packet, .waiting⟩ →
      ticket < s.read + d.size) : ∃ a, a.isCall = false ∧ (step d s a).isSome := by
  rcases hfill : p.fill with _ | ⟨ticket, packet, _ | left | _⟩
  · rcases Nat.lt_or_ge p.sent p.packets.length with hlt | hge
    · exact ⟨.reserve thread, rfl, by simp [step, hp, Producer.reserve, hfill, hlt]⟩
    · exact ⟨.finish thread, rfl, by simp [step, hp, Producer.finish, hfill, hge]⟩
  · exact ⟨.enter thread, rfl, by
      simp [step, hp, Producer.enter, hfill, hroom ticket packet hfill]⟩
  · rcases left with _ | ⟨word, left⟩
    · exact ⟨.publish thread, rfl, by simp [step, hp, Producer.publish, hfill]⟩
    · exact ⟨.copy thread word, rfl, by simp [step, hp, Producer.copy, hfill]⟩
  · exact ⟨.notify thread, rfl, by simp [step, hp, Producer.notify, hfill]⟩

/-- What the consumer does next, when its ticket is drawn and the slot filled. -/
theorem exists_consumer_step (h : Inv d s) (hlog : ∀ entry ∈ s.log, d.valid (entry.2 0) = true)
    (hlt : s.read < s.log.length) (hnot : ¬s.Pending s.read) :
    ∃ a, a.isCall = false ∧ (step d s a).isSome := by
  rcases hretired : s.retired with _ | _
  · have hgone : s.gone = s.read := by rw [State.gone, hretired]; rfl
    have hget := List.getElem?_eq_getElem hlt
    have hslot := (h.full s.read _ _ hgone.le hget hnot).2
    have hvalid : d.valid (s.slots (s.read % d.size) 0) = true := by
      rw [hslot]
      exact hlog _ (List.getElem_mem hlt)
    rcases Nat.lt_or_ge s.got.length (n + 1) with hgot | hgot
    · exact ⟨.fetch, rfl, by simp [step, State.fetch, hgot, hretired, hvalid]⟩
    · have hlen := Nat.le_antisymm h.got_length_le hgot
      exact ⟨.retire, rfl, by simp [step, State.retire, hlen]⟩
  · exact ⟨.advance, rfl, by simp [step, State.advance, hretired]⟩

variable [Fintype τ]

/-- All the steps that are left when no new call is begun. -/
def State.work (s : State τ ω n) : ℕ := ∑ thread, callWork (s.producers thread) + s.owed

theorem State.work_put (s' : State τ ω n) (thread : τ) (hproducers : s'.producers = s.producers)
    (p : Option (Producer ω n)) :
    (s'.put thread p).work + callWork (s.producers thread) + s.owed =
      s.work + callWork p + s'.owed := by
  have hsum : ∑ other, callWork ((s'.put thread p).producers other) + callWork (s.producers thread)
      = ∑ other, callWork (s.producers other) + callWork p := by
    have hupdate : (fun other ↦ callWork ((s'.put thread p).producers other))
        = Function.update (fun other ↦ callWork (s.producers other)) thread (callWork p) := by
      rw [State.put, hproducers]
      exact Function.comp_update callWork s.producers thread p
    rw [hupdate, Finset.sum_update_of_mem (Finset.mem_univ thread),
      Finset.sdiff_singleton_eq_erase,
      ← Finset.add_sum_erase _ (fun other ↦ callWork (s.producers other)) (Finset.mem_univ thread)]
    omega
  have howed : (s'.put thread p).owed = s'.owed := rfl
  rw [State.work, State.work, howed]
  omega

/-- A step that only replaces a producer takes as much from the work as from that of the producer.
-/
theorem State.work_put_same {s' : State τ ω n} {p p' : Option (Producer ω n)}
    (hproducers : s'.producers = s.producers) (howed : s'.owed = s.owed)
    (hp : s.producers thread = p) (h : callWork p' + 1 = callWork p) :
    (s'.put thread p').work + 1 = s.work := by
  have hwork := State.work_put s' thread hproducers p'
  rw [howed, hp] at hwork
  omega

/-- **The work gets less.**  Every step but a new call takes one from it. -/
theorem work_step {a : Action τ ω n} (h : Inv d s) (ha : a.isCall = false)
    (hstep : step d s a = some t) : t.work + 1 = s.work := by
  cases a with
  | call thread packets => cases ha
  | reserve thread =>
    obtain ⟨p, packet, hp, hnone, hpacket, rfl⟩ := of_reserve hstep
    have hwork := State.work_put (s := s) { s with log := s.log ++ [(thread, packet)] } thread rfl
      (some { p with
        sent := p.sent + 1
        last := some s.log.length
        fill := some ⟨s.log.length, packet, .waiting⟩ })
    have hlt := (List.getElem?_eq_some_iff.mp hpacket).1
    obtain ⟨k, hk⟩ := Nat.exists_eq_add_one_of_ne_zero (Nat.sub_ne_zero_of_lt hlt)
    have hk' : p.packets.length - (p.sent + 1) = k := by omega
    have howed := State.owed_reserve h thread packet
    simp only [hp, callWork, Option.map_some, Option.getD_some, Producer.work, hnone, hk, hk',
      Stage.work, Option.map_none, Option.getD_none, Nat.succ_mul] at hwork
    omega
  | enter thread =>
    obtain ⟨p, ticket, packet, hp, hfill, -, rfl⟩ := of_enter hstep
    refine State.work_put_same rfl rfl hp ?_
    simp [callWork, Producer.work, hfill, Stage.work]
    omega
  | copy thread word =>
    obtain ⟨p, ticket, packet, left, hp, hfill, hword, rfl⟩ := of_copy hstep
    refine State.work_put_same rfl rfl hp ?_
    have hpos := List.length_pos_of_mem hword
    simp [callWork, Producer.work, hfill, Stage.work, List.length_erase_of_mem hword]
    omega
  | publish thread =>
    obtain ⟨p, ticket, packet, hp, hfill, rfl⟩ := of_publish hstep
    refine State.work_put_same rfl rfl hp ?_
    simp [callWork, Producer.work, hfill, Stage.work]
  | notify thread =>
    obtain ⟨p, ticket, packet, hp, hfill, rfl⟩ := of_notify hstep
    refine State.work_put_same rfl rfl hp ?_
    simp [callWork, Producer.work, hfill, Stage.work]
  | finish thread =>
    obtain ⟨p, hp, hfill, hdone, rfl⟩ := of_finish hstep
    refine State.work_put_same rfl rfl hp ?_
    simp [callWork, Producer.work, hfill, Nat.sub_eq_zero_of_le hdone]
  | fetch =>
    have howed := owed_fetch h hstep
    obtain ⟨-, -, hlt, rfl⟩ := of_fetch hstep
    rw [State.work, State.work, ← howed, ← Nat.add_assoc]
  | retire =>
    have howed := owed_retire h hstep
    obtain ⟨-, rfl⟩ := of_retire hstep
    rw [State.work, State.work, ← howed, ← Nat.add_assoc]
    rfl
  | advance =>
    have howed := owed_advance h hstep
    obtain ⟨-, rfl⟩ := of_advance hstep
    rw [State.work, State.work, ← howed, ← Nat.add_assoc]

/-! ## Some party can always go on -/

/-- **No deadlock.**  As long as there is work left, some party can go on. -/
theorem exists_step (h : Inv d s) (hlog : ∀ entry ∈ s.log, d.valid (entry.2 0) = true)
    (hwork : s.work ≠ 0) : ∃ a, a.isCall = false ∧ (step d s a).isSome := by
  by_cases hcan : ∃ thread p, s.producers thread = some p ∧ ∀ ticket packet,
      p.fill = some ⟨ticket, packet, .waiting⟩ → ticket < s.read + d.size
  · obtain ⟨thread, p, hp, hroom⟩ := hcan
    exact exists_producer_step hp hroom
  -- every producer in a call waits for room, so that the consumer is the one to go on
  have hwaits : ∀ thread p, s.producers thread = some p →
      ∃ ticket packet, p.fill = some ⟨ticket, packet, .waiting⟩ ∧ s.read + d.size ≤ ticket := by
    intro thread p hp
    by_contra hnone
    refine hcan ⟨thread, p, hp, fun ticket packet hfill ↦ ?_⟩
    by_contra hge
    exact hnone ⟨ticket, packet, hfill, Nat.le_of_not_lt hge⟩
  have hpos := d.size_pos
  have hnot : ¬s.Pending s.read := by
    rintro ⟨thread, f, hf, -, hticket⟩
    obtain ⟨p, hp, hfill⟩ := Option.bind_eq_some_iff.mp hf
    obtain ⟨ticket, packet, hwaiting, hge⟩ := hwaits thread p hp
    rw [hfill, Option.some.injEq] at hwaiting
    subst hwaiting
    dsimp only at hticket
    omega
  by_cases hidle : ∀ thread, s.producers thread = none
  · rw [State.work, Finset.sum_eq_zero fun thread _ ↦ by rw [hidle thread]; rfl, Nat.zero_add,
      State.owed] at hwork
    rcases hretired : s.retired with _ | _
    · refine exists_consumer_step h hlog ?_ hnot
      by_contra hge
      have hzero : s.log.length - s.gone = 0 := by
        rw [State.gone, hretired]
        exact Nat.sub_eq_zero_of_le (Nat.le_of_not_lt hge)
      simp [hzero, hretired] at hwork
    · exact ⟨.advance, rfl, by simp [step, State.advance, hretired]⟩
  · obtain ⟨thread, hthread⟩ := not_forall.mp hidle
    obtain ⟨p, hp⟩ := Option.ne_none_iff_exists'.mp hthread
    obtain ⟨ticket, packet, hfill, hge⟩ := hwaits thread p hp
    have hdrawn := h.drawn thread _ ((State.fill_of_producers hp).trans hfill)
    have hlt : ticket < s.log.length := (List.getElem?_eq_some_iff.mp hdrawn).1
    exact exists_consumer_step h hlog (by omega) hnot

/-! ## Runs -/

omit [DecidableEq τ] in
/-- When there is no work left, everything is taken. -/
theorem eq_of_work_eq_zero (h : Inv d s) (hwork : s.work = 0) :
    (∀ thread, s.producers thread = none) ∧
      s.taken = s.log.map fun entry ↦ List.ofFn entry.2 := by
  rw [State.work, Nat.add_eq_zero_iff, Finset.sum_eq_zero_iff] at hwork
  obtain ⟨hproducers, howed⟩ := hwork
  have hidle : ∀ thread, s.producers thread = none := by
    intro thread
    have hzero := hproducers thread (Finset.mem_univ thread)
    rcases hp : s.producers thread with _ | p
    · rfl
    · rw [hp] at hzero
      exact absurd hzero (Nat.succ_ne_zero _)
  rw [State.owed] at howed
  have hnil : s.got = [] := by
    by_contra hne
    have hlt := h.got_lt hne
    omega
  rw [hnil, List.length_nil, Nat.sub_zero, Nat.add_eq_zero_iff, Nat.mul_eq_zero] at howed
  have hle : s.log.length ≤ s.gone := by omega
  rw [h.taken, List.take_of_length_le hle]
  exact ⟨hidle, rfl⟩

/-- **Every call comes to its end.**  From any state that is reached, the steps without a new call
are bounded, and where no party can go on, no producer is in a call and what the consumer has taken
is what has a ticket: for each producer, what it was given. -/
theorem completes {slots : ℕ → Packet ω n}
    (hslots : ∀ i, i < d.size → d.valid (slots i 0) = false) {acts more : List (Action τ ω n)}
    (hvalid : ∀ thread, ∀ packet ∈ given thread acts, d.valid (packet 0) = true)
    (h : run (step d) (start slots) acts = some s) (hmore : ∀ a ∈ more, a.isCall = false)
    (ht : run (step d) s more = some t) :
    more.length ≤ s.work ∧ ((∀ a, a.isCall = false → step d t a = none) →
      (∀ thread, t.producers thread = none) ∧ (∀ thread, own thread t.log = given thread acts) ∧
        t.taken = t.log.map fun entry ↦ List.ofFn entry.2) := by
  have hcount := add_length_of_run (I := Inv d) (P := fun a ↦ a.isCall = false)
    (fun _ _ _ ↦ inv_step) (fun _ _ _ ↦ work_step) (inv_run hslots h) hmore ht
  refine ⟨by omega, fun hstuck ↦ ?_⟩
  have hrun : run (step d) (start slots) (acts ++ more) = some t := by
    rw [run_append, h, Option.bind_some, ht]
  have hgiven : ∀ thread, given thread (acts ++ more) = given thread acts := by
    intro thread
    rw [given, List.flatMap_append,
      List.flatMap_eq_nil_iff.mpr fun a ha ↦ Action.packets_eq_nil thread (hmore a ha),
      List.append_nil, given]
  have hlog : ∀ entry ∈ t.log, d.valid (entry.2 0) = true := by
    intro entry hentry
    refine hvalid entry.1 entry.2 ?_
    rw [← hgiven, ← own_log hrun entry.1]
    exact List.mem_append_left _
      (List.mem_map.mpr ⟨entry, List.mem_filter.mpr ⟨hentry, decide_eq_true rfl⟩, rfl⟩)
  have hinv := inv_run hslots hrun
  have hwork : t.work = 0 := by
    by_contra hwork
    obtain ⟨a, ha, hsome⟩ := exists_step hinv hlog hwork
    rw [hstuck a ha] at hsome
    cases hsome
  obtain ⟨hidle, htaken⟩ := eq_of_work_eq_zero hinv hwork
  refine ⟨hidle, fun thread ↦ ?_, htaken⟩
  have hown := own_log hrun thread
  rwa [State.unsent, hidle thread, Option.map_none, Option.getD_none, List.append_nil,
    hgiven] at hown

end

end TicketRing
