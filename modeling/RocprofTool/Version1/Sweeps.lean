import RocprofTool.Version1.Outstanding

/-!
# What `dump_context_array` leaves behind

`destroy_callback` calls `dump_context_array` with its queue, and `rocprofiler_unload` with a null
pointer, for all of the queues.  It goes through the whole of `context_array`, with the mutex, and
dumps what is active and belongs to the queue; when the kernel of an entry is not done yet it goes
through the array once more, and again, and gives the mutex back in between.  Then completion
handlers come in, which dump entries themselves and erase them, and new dispatches.

A `Call` is one call of it, in the system of `Dispatches`: its rounds, and between them anything
else that can happen.  Only other calls that would take entries of the same queue are left out; they
would dump what this one is for.  `dumpContextArray_returns` says what is true when it returns.

* A round is described as a whole by `Swept`: what it does with an entry depends on the flag, the
  queue and the record of the entry alone, as they were before the round.
* What happens in between is described by what it leaves alone (`Leaves`).
* `Tracked` follows one entry of the queue from the start of the call: either nobody has dumped it
  and nothing about it has changed, or it has been dumped once and it is no longer active.
-/

set_option autoImplicit false

open Fallible Runs

namespace Version1.Sweeps

/-! ## A call -/

/-- Does an entry belong to the queue?  A null pointer stands for all the queues. -/
def belongs (queue : Option UInt64) (entry : ContextEntry) : Bool :=
  queue.all (· == entry.data.queue)

/-- The entries that are dumped by these effects: they are counted, and the message about them is
published. -/
def dumps : List Effect → List ContextEntry
  | .collected entry :: .published _ :: effects => entry :: dumps effects
  | _ :: effects => dumps effects
  | [] => []

/-- The entries that are dumped between two states. -/
def dumpedBetween (s t : Tool) : List ContextEntry := dumps (t.effects.drop s.effects.length)

/-- What happens while a call of `dump_context_array` is going on: one of its rounds, or something
else between them. -/
inductive CallEvent
  | round
  | other (event : Event)
  deriving DecidableEq, Repr

/-- A call of `dump_context_array`, with the entries that have been dumped since it began and what
has dumped them. -/
structure Call where
  system : System
  log : List (CallEvent × ContextEntry) := []
  returned : Bool := false

/-- Does a round have nothing left to do? -/
def done (m : Machine) (queue : Option UInt64) (tool : Tool) : Bool :=
  match exec (dumpContextArrayRound m queue) tool with
  | (.ok done, _) => done
  | (.error _, _) => false

/-- Is this another call of `dump_context_array`, for some of the same entries? -/
def overlaps (queue : Option UInt64) : Event → Bool
  | .dumpContextArray queue' => queue.isNone || queue'.isNone || queue == queue'
  | _ => false

/-- The call goes on. -/
def Call.advance (c : Call) (event : CallEvent) (t : System) (returned : Bool) : Call where
  system := t
  log := c.log ++ (dumpedBetween c.system.tool t.tool).map fun entry ↦ (event, entry)
  returned := returned

/-- One step of a call that has not returned. -/
def Call.step (m : Machine) (queue : Option UInt64) (c : Call) (event : CallEvent) : Option Call :=
  if c.returned then none
  else
    match event with
    | .round => (Version1.step m c.system (.dumpContextArray queue)).map fun t ↦
        c.advance .round t (done m queue c.system.tool)
    | .other event =>
      if overlaps queue event then none
      else (Version1.step m c.system event).map fun t ↦ c.advance (.other event) t false

/-- The kernel of an entry is not done. -/
def Incomplete (tool : Tool) (entry : ContextEntry) : Prop :=
  ∃ r record, entry.data.record = some r ∧ tool.records r = some record ∧ record.complete = 0

/-- What a round leaves as it is: the entries of other queues, and those whose kernels are not done,
together with their records. -/
structure Frame (queue : Option UInt64) (s t : Tool) : Prop where
  others : ∀ (key : UInt32) (entry : ContextEntry), s.contextArray[key]? = some entry →
    belongs queue entry = false → t.contextArray[key]? = some entry
  incomplete : ∀ (key : UInt32) (entry : ContextEntry), s.contextArray[key]? = some entry →
    Incomplete s entry → t.contextArray[key]? = some entry ∧ Incomplete t entry

/-- What is true of a call that has returned. -/
structure Returned (m : Machine) (queue : Option UInt64) (s : System) (events : List CallEvent)
    (c : Call) : Prop where
  /-- Nothing of the queue that is still there is active. -/
  inactive : ∀ (key : UInt32) (entry : ContextEntry),
    c.system.tool.contextArray[key]? = some entry → belongs queue entry = true →
      entry.active = false
  /-- What was active is dumped exactly once, by the call or by its completion handler. -/
  once : ∀ (key : UInt32) (entry : ContextEntry), s.tool.contextArray[key]? = some entry →
    belongs queue entry = true → entry.active = true →
      ∃ event, c.log.filter (·.2.index == key) = [(event, entry)] ∧
        (event = .round ∨ event = .other (.contextHandler key))
  /-- The call dumps nothing of another queue. -/
  own : ∀ entry, (.round, entry) ∈ c.log → belongs queue entry = true
  frame : Along (Call.step m queue) { system := s } (fun v event ↦ event = .round →
    Frame queue v.system.tool (after (dumpContextArrayRound m queue) v.system.tool)) events

/-! ## The effects of a dump -/

/-- What `dump_context_entry` adds to the effects when it dumps an entry. -/
def dumpEffects (entry : ContextEntry) (text : List Char) : List Effect :=
  .collected entry :: .published text ::
    (entry.data.record.toList.map .deletedRecord ++ [.freedName entry.index, .closed entry.group])

theorem dumps_append {effects : List Effect} (h : ∀ effect ∈ effects, effect.counts = none)
    (rest : List Effect) : dumps (effects ++ rest) = dumps rest := by
  induction effects with
  | nil => rfl
  | cons effect effects ih =>
    rw [List.forall_mem_cons] at h
    rw [List.cons_append, ← ih h.2]
    cases effect with
    | collected entry => cases h.1
    | _ => rfl

theorem dumps_dumpEffects (entry : ContextEntry) (text : List Char) (rest : List Effect) :
    dumps (dumpEffects entry text ++ rest) = entry :: dumps rest := by
  refine congrArg (entry :: ·) (dumps_append ?_ rest)
  rcases entry.data.record with _ | r <;> simp [Effect.counts]

theorem dumpedBetween_eq {s t : Tool} {effects : List Effect}
    (h : t.effects = s.effects ++ effects) : dumpedBetween s t = dumps effects := by
  rw [dumpedBetween, h, List.drop_left]

theorem effects_of_cleanUp {entry entry' : ContextEntry} {s t : Tool}
    (h : exec (cleanUp entry) s = (.ok entry', t)) :
    t.payloads = s.payloads ∧
      t.effects = s.effects ++ (entry.data.record.toList.map .deletedRecord
        ++ [.freedName entry.index, .closed entry.group]) := by
  rw [cleanUp] at h
  rcases hrecord : entry.data.record with _ | r
  · rw [hrecord] at h
    obtain ⟨-, rfl⟩ := Prod.mk.inj h
    exact ⟨rfl, List.append_assoc _ _ _⟩
  · rw [hrecord] at h
    obtain ⟨-, rfl⟩ := Prod.mk.inj h
    exact ⟨rfl, (List.append_assoc _ _ _).trans (List.append_assoc _ _ _)⟩

/-- The record of an entry is read; it is dumped, or nothing happens. -/
theorem effects_of_dumpContextEntry {m : Machine} {entry : ContextEntry} {s t : Tool}
    {p : Bool × ContextEntry} (hindex : entry.index ≠ uint32Max)
    (h : exec (dumpContextEntry m entry true) s = (.ok p, t)) :
    (∃ record, s.readRecord entry.data.record = .ok record) ∧ t.payloads = s.payloads ∧
      (p.1 = false ∧ t.effects = s.effects ∨
        p.1 = true ∧ ∃ text, t.effects = s.effects ++ dumpEffects entry text) := by
  obtain ⟨record, hread, ⟨-, rfl, rfl⟩ | ⟨-, text, entry', hclean, rfl⟩⟩ :=
    exists_of_exec_dumpContextEntry hindex h
  · exact ⟨⟨record, hread⟩, rfl, .inl ⟨rfl, rfl⟩⟩
  · obtain ⟨hpayloads, heffects⟩ := effects_of_cleanUp hclean
    refine ⟨⟨record, hread⟩, hpayloads, .inr ⟨rfl, text, ?_⟩⟩
    rw [heffects, dumpEffects]
    simp [Tool.publish]

/-! ## A round -/

/-- Is the kernel of an entry done, as far as its record says? -/
def complete (tool : Tool) (entry : ContextEntry) : Bool :=
  entry.data.record.all fun r ↦ (tool.records r).any fun record ↦ record.complete != 0

/-- Does a round try to dump the entry? -/
def takes (queue : Option UInt64) (entry : ContextEntry) : Bool :=
  belongs queue entry && entry.active

/-- Does a round dump the entry? -/
def ready (queue : Option UInt64) (tool : Tool) (entry : ContextEntry) : Bool :=
  takes queue entry && complete tool entry

/-- An entry after a round. -/
def visit (queue : Option UInt64) (tool : Tool) (entry : ContextEntry) : ContextEntry :=
  if ready queue tool entry then
    { entry with
      data := { entry.data with record := none, kernelName := none }
      active := false }
  else entry

/-- The entry with this key, if a round dumps it. -/
def dumped (queue : Option UInt64) (tool : Tool) (key : UInt32) : Option ContextEntry :=
  tool.contextArray[key]?.filter (ready queue tool)

/-- **What the inner loop does** with the entries of these keys, and what it returns. -/
structure Swept (queue : Option UInt64) (keys : List UInt32) (s t : Tool) (done : Bool) :
    Prop where
  visited : ∀ key ∈ keys, t.contextArray[key]? = s.contextArray[key]?.map (visit queue s)
  others : ∀ key ∉ keys, t.contextArray[key]? = s.contextArray[key]?
  effects : ∃ effects, t.effects = s.effects ++ effects ∧
    ∀ rest, dumps (effects ++ rest) = keys.filterMap (dumped queue s) ++ dumps rest
  done : done = true ↔ ∀ key ∈ keys, ∀ entry : ContextEntry, s.contextArray[key]? = some entry →
    takes queue entry = true → complete s entry = true
  present : ∀ key ∈ keys, ∀ entry : ContextEntry, s.contextArray[key]? = some entry →
    takes queue entry = true → ∀ r, entry.data.record = some r → (s.records r).isSome
  records : ∀ r, t.records r = s.records r ∨
    t.records r = none ∧ ∃ record, s.records r = some record ∧ record.complete ≠ 0
  contextCount : t.contextCount = s.contextCount
  payloads : t.payloads = s.payloads

variable {m : Machine} {queue : Option UInt64} {key : UInt32} {keys : List UInt32} {s t u : Tool}

theorem complete_eq_true {entry : ContextEntry}
    (hview : (Collecting.view s entry).record ≠ some false) : complete s entry = true := by
  rw [complete]
  rw [Collecting.view] at hview
  rcases hrecord : entry.data.record with _ | r
  · rfl
  · rw [hrecord] at hview
    simpa using hview

theorem complete_eq_false {entry : ContextEntry}
    (hview : (Collecting.view s entry).record = some false) : complete s entry = false := by
  rw [complete]
  rw [Collecting.view] at hview
  rcases hrecord : entry.data.record with _ | r
  · rw [hrecord] at hview
    cases hview
  · rw [hrecord] at hview
    exact Option.some.inj hview

/-- A record that can be read is there. -/
theorem isSome_of_readRecord {record : Option ℕ} (h : ∃ x, s.readRecord record = .ok x) {r : ℕ}
    (hr : record = some r) : (s.records r).isSome := by
  obtain ⟨x, hx⟩ := h
  rw [hr, Tool.readRecord] at hx
  rcases hrecord : s.records r with _ | record
  · simp [hrecord] at hx
  · rfl

theorem dumped_eq {entry : ContextEntry} (hentry : s.contextArray[key]? = some entry) :
    dumped queue s key = if ready queue s entry then some entry else none := by
  rw [dumped, hentry, Option.filter_some]

/-- What one entry needs to be swept. -/
theorem Swept.single {done : Bool} {entry : ContextEntry}
    (hentry : s.contextArray[key]? = some entry)
    (hself : t.contextArray[key]? = some (visit queue s entry))
    (hother : ∀ i ≠ key, t.contextArray[i]? = s.contextArray[i]?)
    (heffects : ∃ effects, t.effects = s.effects ++ effects ∧
      ∀ rest, dumps (effects ++ rest) = (if ready queue s entry then [entry] else []) ++ dumps rest)
    (hdone : done = true ↔ (takes queue entry = true → complete s entry = true))
    (hpresent : takes queue entry = true → ∀ r, entry.data.record = some r → (s.records r).isSome)
    (hrecords : ∀ r, t.records r = s.records r ∨
      t.records r = none ∧ ∃ record, s.records r = some record ∧ record.complete ≠ 0)
    (hcount : t.contextCount = s.contextCount) (hpayloads : t.payloads = s.payloads) :
    Swept queue [key] s t done := by
  have heq : ∀ {entry' : ContextEntry}, s.contextArray[key]? = some entry' → entry' = entry :=
    fun h ↦ Option.some.inj (h.symm.trans hentry)
  refine ⟨fun i hi ↦ ?_, fun i hi ↦ hother i fun h ↦ hi (List.mem_singleton.mpr h), ?_, ?_,
    fun i hi entry' hentry' ↦ ?_, hrecords, hcount, hpayloads⟩
  · obtain rfl := List.mem_singleton.mp hi
    rw [hself, hentry]
    rfl
  · obtain ⟨effects, happend, hdumps⟩ := heffects
    refine ⟨effects, happend, fun rest ↦ (hdumps rest).trans ?_⟩
    rw [List.filterMap_cons, List.filterMap_nil, dumped_eq hentry]
    split_ifs <;> rfl
  · rw [hdone]
    refine ⟨fun h i hi entry' hentry' ↦ ?_,
      fun h ↦ h key (List.mem_singleton_self key) entry hentry⟩
    obtain rfl := List.mem_singleton.mp hi
    exact heq hentry' ▸ h
  · obtain rfl := List.mem_singleton.mp hi
    exact heq hentry' ▸ hpresent

/-- What one entry needs to be swept when it is left as it is. -/
theorem Swept.of_not_ready {done : Bool} {entry : ContextEntry}
    (hentry : s.contextArray[key]? = some entry) (hready : ready queue s entry = false)
    (hdone : done = true ↔ (takes queue entry = true → complete s entry = true))
    (hpresent : takes queue entry = true → ∀ r, entry.data.record = some r →
      (s.records r).isSome) : Swept queue [key] s s done := by
  refine .single hentry ?_ (fun _ _ ↦ rfl) ⟨[], (List.append_nil _).symm, fun rest ↦ ?_⟩ hdone
    hpresent (fun _ ↦ .inl rfl) rfl rfl
  · rw [visit, hready, if_neg Bool.false_ne_true]
    exact hentry
  · rw [hready]
    rfl

theorem effects_of_dumpKey {entry : ContextEntry} {done : Bool}
    (hentry : s.contextArray[key]? = some entry) (hindex : entry.index ≠ uint32Max)
    (htakes : takes queue entry = true) (h : exec (dumpKey m queue key) s = (.ok done, t)) :
    (∃ record, s.readRecord entry.data.record = .ok record) ∧ t.payloads = s.payloads ∧
      (done = false ∧ t.effects = s.effects ∨
        done = true ∧ ∃ text, t.effects = s.effects ++ dumpEffects entry text) := by
  rw [dumpKey, exec_bind_ok (exec_get s), hentry] at h
  dsimp only at h
  rw [if_pos (show (queue.all (· == entry.data.queue) && entry.active) = true from htakes)] at h
  obtain ⟨⟨ret, entry'⟩, u, hdump, hrest⟩ := exists_of_exec_bind h
  obtain ⟨hread, hpayloads, heffects⟩ := effects_of_dumpContextEntry hindex hdump
  refine ⟨hread, ?_⟩
  cases ret with
  | false =>
    obtain ⟨hret, rfl⟩ := Prod.mk.inj hrest
    obtain rfl := Except.ok.inj hret
    exact ⟨hpayloads, heffects⟩
  | true =>
    obtain ⟨hret, rfl⟩ := Prod.mk.inj hrest
    obtain rfl := Except.ok.inj hret
    exact ⟨hpayloads, heffects⟩

/-- **The body of the inner loop.** -/
theorem swept_dumpKey {done : Bool} {entry : ContextEntry}
    (hentry : s.contextArray[key]? = some entry) (hindex : entry.index ≠ uint32Max)
    (h : exec (dumpKey m queue key) s = (.ok done, t)) : Swept queue [key] s t done := by
  rcases Collecting.of_exec_dumpKey hentry hindex h with
    ⟨htakes, rfl, rfl⟩ | ⟨htakes, hcase⟩
  · have htakes : takes queue entry = false := htakes
    have hready : ready queue t entry = false := by rw [ready, htakes]; rfl
    exact .of_not_ready hentry hready (by simp [htakes]) (by simp [htakes])
  have htakes : takes queue entry = true := htakes
  obtain ⟨hread, hpayloads, heffects⟩ := effects_of_dumpKey hentry hindex htakes h
  have hpresent : takes queue entry = true → ∀ r, entry.data.record = some r →
      (s.records r).isSome := fun _ r hr ↦ isSome_of_readRecord hread hr
  rcases hcase with ⟨hrecord, rfl, rfl⟩ | ⟨hrecord, rfl, u, hclean, rfl⟩
  · -- the kernel is not done
    have hcomplete := complete_eq_false hrecord
    have hready : ready queue t entry = false := by rw [ready, hcomplete, Bool.and_false]
    exact .of_not_ready hentry hready (by simp [htakes, hcomplete]) hpresent
  · have hcomplete := complete_eq_true hrecord
    have hready : ready queue s entry = true := by rw [ready, htakes, hcomplete]; rfl
    obtain ⟨text, heffects⟩ := (heffects.resolve_left (by simp)).2
    refine .single hentry ?_ (fun i hi ↦ ?_) ⟨_, heffects, fun rest ↦ ?_⟩ ?_ hpresent
      (fun r ↦ ?_) hclean.contextCount hpayloads
    · rw [visit, hready, if_pos rfl]
      exact getElem?_writeEntry_self _
    · rw [getElem?_writeEntry_of_ne _ hi, hclean.contextArray]
    · rw [hready, if_pos rfl, dumps_dumpEffects]
      rfl
    · simp [hcomplete]
    · rw [show ((u.writeEntry key _).records r) = u.records r from rfl, hclean.records]
      split_ifs with hr
      · rw [complete, hr, Option.all_some, Option.any_eq_true] at hcomplete
        obtain ⟨record, hrecord, hzero⟩ := hcomplete
        exact .inr ⟨rfl, record, hrecord, by simpa using hzero⟩
      · exact .inl rfl

theorem Swept.dumpedBetween_eq {done : Bool} (h : Swept queue keys s t done) :
    dumpedBetween s t = keys.filterMap (dumped queue s) := by
  obtain ⟨effects, happend, hdumps⟩ := h.effects
  have hnil := hdumps []
  rw [List.append_nil, show dumps [] = [] from rfl, List.append_nil] at hnil
  exact (Sweeps.dumpedBetween_eq happend).trans hnil

theorem Swept.indexed {done : Bool} (h : Swept queue keys s t done) (hI : Indexed s) :
    Indexed t := by
  intro key entry hentry
  by_cases hkey : key ∈ keys
  · rw [h.visited key hkey] at hentry
    obtain ⟨entry', hentry', rfl⟩ := Option.map_eq_some_iff.mp hentry
    rw [visit]
    split_ifs
    · exact hI key entry' hentry'
    · exact hI key entry' hentry'
  · exact hI key entry (h.others key hkey ▸ hentry)

/-- What a round does with an entry has not changed, once the entries before it are swept: their
records may be gone, but not the one of an entry that is still to be dumped. -/
theorem Swept.ready_eq {a b : Bool} (h : Swept queue [key] s t a) (h' : Swept queue keys t u b)
    {i : UInt32} (hi : i ∈ keys) {entry : ContextEntry} (hentry : t.contextArray[i]? = some entry)
    (htakes : takes queue entry = true) :
    (∀ r, entry.data.record = some r → t.records r = s.records r) ∧
      complete t entry = complete s entry := by
  have hrecords : ∀ r, entry.data.record = some r → t.records r = s.records r := by
    intro r hr
    rcases h.records r with heq | ⟨hnone, -⟩
    · exact heq
    · have hsome := h'.present i hi entry hentry htakes r hr
      rw [hnone] at hsome
      cases hsome
  refine ⟨hrecords, ?_⟩
  rw [complete, complete]
  rcases hrecord : entry.data.record with _ | r
  · rfl
  · rw [Option.all_some, Option.all_some, hrecords r hrecord]

/-- **One entry, and then the others.** -/
theorem Swept.cons {a b : Bool} (h : Swept queue [key] s t a) (h' : Swept queue keys t u b)
    (hkey : key ∉ keys) : Swept queue (key :: keys) s u (a && b) := by
  have hne : ∀ i ∈ keys, i ∉ [key] := fun i hi heq ↦ hkey (List.mem_singleton.mp heq ▸ hi)
  have hentries : ∀ i ∈ keys, t.contextArray[i]? = s.contextArray[i]? :=
    fun i hi ↦ h.others i (hne i hi)
  have hready : ∀ i ∈ keys, ∀ entry : ContextEntry, s.contextArray[i]? = some entry →
      ready queue t entry = ready queue s entry := by
    intro i hi entry hentry
    rw [ready, ready]
    rcases htakes : takes queue entry with _ | _
    · rfl
    · rw [(h.ready_eq h' hi ((hentries i hi).trans hentry) htakes).2]
  refine ⟨fun i hi ↦ ?_, fun i hi ↦ ?_, ?_, ?_, fun i hi entry hentry htakes r hr ↦ ?_,
    fun r ↦ ?_, h'.contextCount.trans h.contextCount, h'.payloads.trans h.payloads⟩
  · rcases List.mem_cons.mp hi with rfl | hi
    · rw [h'.others i hkey, h.visited i (List.mem_singleton_self i)]
    · rw [h'.visited i hi, hentries i hi]
      refine Option.map_congr fun entry hentry ↦ ?_
      rw [visit, visit, hready i hi entry hentry]
  · rw [List.mem_cons, not_or] at hi
    rw [h'.others i hi.2, h.others i (by simpa using hi.1)]
  · obtain ⟨effects, happend, hdumps⟩ := h.effects
    obtain ⟨effects', happend', hdumps'⟩ := h'.effects
    refine ⟨effects ++ effects', by rw [happend', happend, List.append_assoc], fun rest ↦ ?_⟩
    have hrest : keys.filterMap (dumped queue t) = keys.filterMap (dumped queue s) := by
      refine List.filterMap_congr fun i hi ↦ ?_
      rw [dumped, dumped, hentries i hi]
      rcases hentry : s.contextArray[i]? with _ | entry
      · rfl
      · rw [Option.filter_some, Option.filter_some, hready i hi entry hentry]
    rw [List.append_assoc, hdumps, hdumps', hrest, ← List.append_assoc, ← List.filterMap_append]
    rfl
  · rw [Bool.and_eq_true, h.done, h'.done]
    simp only [List.forall_mem_cons, List.not_mem_nil, false_implies, implies_true, and_true]
    refine and_congr_right fun _ ↦ forall₂_congr fun i hi ↦ ?_
    rw [hentries i hi]
    refine forall₂_congr fun entry hentry ↦ imp_congr_right fun htakes ↦ ?_
    rw [(h.ready_eq h' hi ((hentries i hi).trans hentry) htakes).2]
  · rcases List.mem_cons.mp hi with rfl | hi
    · exact h.present i (List.mem_singleton_self i) entry hentry htakes r hr
    · have hentry' := (hentries i hi).trans hentry
      rw [← (h.ready_eq h' hi hentry' htakes).1 r hr]
      exact h'.present i hi entry hentry' htakes r hr
  · rcases h.records r with heq | ⟨hnone, hrecord⟩
    · rw [← heq]
      exact h'.records r
    · refine .inr ⟨?_, hrecord⟩
      rcases h'.records r with heq | ⟨hnone', -⟩
      · exact heq.trans hnone
      · exact hnone'

/-- **The inner loop.** -/
theorem swept_dumpKeys {done : Bool} (hI : Indexed s) (hkeys : keys.Nodup)
    (hpresent : ∀ key ∈ keys, ∃ entry, s.contextArray[key]? = some entry)
    (h : exec (dumpKeys m queue keys) s = (.ok done, t)) : Swept queue keys s t done := by
  induction keys generalizing s done with
  | nil =>
    obtain ⟨hret, rfl⟩ := Prod.mk.inj h
    obtain rfl := Except.ok.inj hret
    exact ⟨by simp, fun _ _ ↦ rfl, ⟨[], (List.append_nil _).symm, fun _ ↦ rfl⟩, by simp, by simp,
      fun _ ↦ .inl rfl, rfl, rfl⟩
  | cons key keys ih =>
    rw [dumpKeys] at h
    obtain ⟨a, u, hkey, hrest⟩ := exists_of_exec_bind h
    obtain ⟨b, v, hloop, hpure⟩ := exists_of_exec_bind hrest
    obtain ⟨hret, rfl⟩ := Prod.mk.inj hpure
    obtain rfl := Except.ok.inj hret
    rw [List.nodup_cons] at hkeys
    obtain ⟨entry, hentry⟩ := hpresent key List.mem_cons_self
    have hswept := swept_dumpKey hentry (hI key entry hentry) hkey
    refine hswept.cons (ih (hswept.indexed hI) hkeys.2 (fun i hi ↦ ?_) hloop) hkeys.1
    rw [hswept.others i fun heq ↦ hkeys.1 (List.mem_singleton.mp heq ▸ hi)]
    exact hpresent i (List.mem_cons_of_mem key hi)

theorem mem_keys_iff : key ∈ s.contextArray.keys ↔ ∃ entry, s.contextArray[key]? = some entry := by
  rw [Std.TreeMap.mem_keys, ← Std.TreeMap.isSome_getElem?_iff_mem, Option.isSome_iff_exists]

/-- **A round of `dump_context_array`.** -/
theorem swept_dumpContextArrayRound {done : Bool} (hI : Indexed s)
    (h : exec (dumpContextArrayRound m queue) s = (.ok done, t)) :
    Swept queue s.contextArray.keys s t done := by
  rw [dumpContextArrayRound, exec_bind_ok (exec_get s)] at h
  exact swept_dumpKeys hI Std.TreeMap.nodup_keys (fun key hkey ↦ mem_keys_iff.mp hkey) h

theorem getElem?_of_swept {done : Bool} (h : Swept queue s.contextArray.keys s t done) :
    t.contextArray[key]? = s.contextArray[key]?.map (visit queue s) := by
  by_cases hkey : key ∈ s.contextArray.keys
  · exact h.visited key hkey
  · rcases hentry : s.contextArray[key]? with _ | entry
    · exact (h.others key hkey).trans hentry
    · exact absurd (mem_keys_iff.mpr ⟨entry, hentry⟩) hkey

theorem visit_eq_self {entry : ContextEntry} (h : ready queue s entry = false) :
    visit queue s entry = entry := by
  rw [visit, h, if_neg Bool.false_ne_true]

/-- **What a round leaves as it is.** -/
theorem Swept.frame {done : Bool} (h : Swept queue s.contextArray.keys s t done) :
    Frame queue s t := by
  refine ⟨fun key entry hentry hqueue ↦ ?_, fun key entry hentry hincomplete ↦ ?_⟩
  · rw [getElem?_of_swept h, hentry, Option.map_some, visit_eq_self]
    rw [ready, takes, hqueue]
    rfl
  · obtain ⟨r, record, hr, hrecord, hzero⟩ := hincomplete
    refine ⟨?_, r, record, hr, ?_, hzero⟩
    · rw [getElem?_of_swept h, hentry, Option.map_some, visit_eq_self]
      rw [ready, complete, hr, Option.all_some, hrecord, Option.any_some, hzero]
      exact Bool.and_false _
    · rcases h.records r with heq | ⟨-, record', hrecord', hne⟩
      · exact heq.trans hrecord
      · obtain rfl := Option.some.inj (hrecord.symm.trans hrecord')
        exact absurd hzero hne

theorem active_visit (queue : Option UInt64) (s : Tool) (entry : ContextEntry) :
    (visit queue s entry).active = (entry.active && !ready queue s entry) := by
  rw [visit]
  split_ifs with h
  · simp [h]
  · simp [h]

/-- **The flag**: when a round has nothing left to do, nothing of the queue is active. -/
theorem Swept.active_eq_false (h : Swept queue s.contextArray.keys s t true) {entry : ContextEntry}
    (hentry : t.contextArray[key]? = some entry) (hqueue : belongs queue entry = true) :
    entry.active = false := by
  rw [getElem?_of_swept h] at hentry
  obtain ⟨entry', hentry', rfl⟩ := Option.map_eq_some_iff.mp hentry
  have hcomplete := h.done.mp rfl key (mem_keys_iff.mpr ⟨entry', hentry'⟩) entry' hentry'
  rw [active_visit]
  rcases hready : ready queue s entry' with _ | _
  · rw [visit_eq_self hready] at hqueue
    rw [ready, takes, hqueue, Bool.true_and] at hready
    rw [takes, hqueue, Bool.true_and] at hcomplete
    rcases hactive : entry'.active with _ | _
    · rfl
    · rw [hactive, hcomplete hactive] at hready
      cases hready
  · exact Bool.and_false _

/-- The entries that are dumped have different indices. -/
theorem filter_filterMap_index {f : UInt32 → Option ContextEntry}
    (hindex : ∀ key entry, f key = some entry → entry.index = key) (hkeys : keys.Nodup) :
    (keys.filterMap f).filter (·.index == key) = if key ∈ keys then (f key).toList else [] := by
  induction keys with
  | nil => rfl
  | cons i keys ih =>
    rw [List.nodup_cons] at hkeys
    have hhead : (f i).toList.filter (·.index == key) = if key = i then (f key).toList else [] := by
      rcases hf : f i with _ | entry
      · split_ifs with heq
        · rw [heq, hf]
          rfl
        · rfl
      · have hentry := hindex i entry hf
        split_ifs with heq
        · rw [heq, hf]
          simp [hentry]
        · simp [hentry, Ne.symm heq]
    have hcons : (i :: keys).filterMap f = (f i).toList ++ keys.filterMap f := by
      rw [List.filterMap_cons]
      cases f i <;> rfl
    rw [hcons, List.filter_append, hhead, ih hkeys.2]
    by_cases heq : key = i
    · rw [if_pos heq, if_neg (heq ▸ hkeys.1), if_pos (heq ▸ List.mem_cons_self), List.append_nil]
    · rw [if_neg heq, List.nil_append]
      simp [heq]

/-- Of the entries that a round dumps, those with this index. -/
theorem Swept.filter_dumpedBetween {done : Bool} (h : Swept queue s.contextArray.keys s t done)
    (hindex : ∀ (key : UInt32) (entry : ContextEntry), s.contextArray[key]? = some entry →
      entry.index = key) :
    (dumpedBetween s t).filter (·.index == key) = (dumped queue s key).toList := by
  rw [h.dumpedBetween_eq, filter_filterMap_index (fun i entry hentry ↦ ?_) Std.TreeMap.nodup_keys]
  · split_ifs with hkey
    · rfl
    · rw [dumped, Option.eq_none_iff_forall_not_mem.mpr fun entry hentry ↦
        hkey (mem_keys_iff.mpr ⟨entry, hentry⟩)]
      rfl
  · exact hindex i entry (Option.eq_some_of_filter_eq_some hentry)

/-! ## What happens in between -/

/-- Between the calls: the entries are under their indices, which are below `context_count`; an
entry is not active before `dispatch_callback` has returned; and the entries of the pools that are
in use have the index of the optimised mode. -/
structure Orderly (s : System) : Prop where
  entries : ∀ (key : UInt32) (entry : ContextEntry), s.tool.contextArray[key]? = some entry →
    entry.index = key ∧ key.toNat < s.tool.contextCount.toNat
  dispatching : ∀ key, (s.dispatching key).isSome → key.toNat < s.tool.contextCount.toNat ∧
    ∀ entry : ContextEntry, s.tool.contextArray[key]? = some entry → entry.active = false
  pooled : ∀ slot, s.fetched slot = true → ∃ payload, s.tool.payloads slot = some payload ∧
    payload.index = uint32Max

/-- An event leaves the entry with this key as it is, and does not dump it. -/
structure Leaves (key : UInt32) (s t : System) : Prop where
  entry : t.tool.contextArray[key]? = s.tool.contextArray[key]?
  dumped : (dumpedBetween s.tool t.tool).filter (·.index == key) = []
  dispatching : t.dispatching key = s.dispatching key
  contextCount : s.tool.contextCount.toNat ≤ t.tool.contextCount.toNat

section Events

variable {S T : System}

theorem Orderly.indexed (hO : Orderly S) : Indexed S.tool := by
  intro key entry hentry
  obtain ⟨hindex, hlt⟩ := hO.entries key entry hentry
  rw [hindex]
  rintro rfl
  have hmax := S.tool.contextCount.toNat_lt
  revert hlt
  rw [show uint32Max.toNat = 2 ^ 32 - 1 from rfl]
  omega

theorem Orderly.pooled_of_eq (hO : Orderly S) (h : t.payloads = S.tool.payloads) {slot : Slot}
    (hslot : S.fetched slot = true) :
    ∃ payload, t.payloads slot = some payload ∧ payload.index = uint32Max := by
  rw [h]
  exact hO.pooled slot hslot

/-- The entries that there are have been there before, and the rest is as it was. -/
theorem Orderly.of_entries (hO : Orderly S)
    (hentries : ∀ (key : UInt32) (entry' : ContextEntry), T.tool.contextArray[key]? = some entry' →
      ∃ entry, S.tool.contextArray[key]? = some entry ∧ entry'.index = entry.index ∧
        (entry'.active = true → entry.active = true))
    (hdispatching : T.dispatching = S.dispatching)
    (hcount : T.tool.contextCount = S.tool.contextCount)
    (hpooled : ∀ slot, T.fetched slot = true → ∃ payload, T.tool.payloads slot = some payload ∧
      payload.index = uint32Max) : Orderly T := by
  refine ⟨fun key entry' hentry' ↦ ?_, fun key hkey ↦ ⟨?_, fun entry' hentry' ↦ ?_⟩, hpooled⟩
  · obtain ⟨entry, hentry, hindex, -⟩ := hentries key entry' hentry'
    rw [hindex, hcount]
    exact hO.entries key entry hentry
  · rw [hcount]
    exact (hO.dispatching key (hdispatching ▸ hkey)).1
  · obtain ⟨entry, hentry, -, hactive⟩ := hentries key entry' hentry'
    have hfalse := (hO.dispatching key (hdispatching ▸ hkey)).2 entry hentry
    by_contra htrue
    rw [hactive (by simpa using htrue)] at hfalse
    cases hfalse

theorem Leaves.of_eq (harray : T.tool.contextArray = S.tool.contextArray)
    (hdumped : dumpedBetween S.tool T.tool = []) (hdispatching : T.dispatching = S.dispatching)
    (hcount : T.tool.contextCount = S.tool.contextCount) : Leaves key S T :=
  ⟨by rw [harray], by rw [hdumped]; rfl, by rw [hdispatching], by rw [hcount]⟩

theorem dumpedBetween_of_eq (h : t.effects = s.effects) : dumpedBetween s t = [] :=
  dumpedBetween_eq (h.trans (List.append_nil _).symm)

theorem effects_allocate (s : Tool) (record : Option ℕ) :
    (s.allocate record).effects = s.effects := by
  cases record <;> rfl

/-- **The first half of `dispatch_callback`** makes an entry with a new index. -/
theorem Orderly.dispatch {callbackData : CallbackData} (hO : Orderly S)
    (h : Version1.step m S (.dispatch callbackData) = some T) (hT : T.stopped = none) :
    Orderly T ∧ ∀ key, key.toNat < S.tool.contextCount.toNat → Leaves key S T := by
  have hnext := Outstanding.toNat_add_one (contextCount_of_step_dispatch h)
  have harray := Outstanding.contextArray_allocate S.tool callbackData.record
  have heffects := effects_allocate S.tool callbackData.record
  have hpooled : ∀ slot, S.fetched slot = true → ∃ payload,
      (S.tool.allocate callbackData.record).payloads slot = some payload ∧
        payload.index = uint32Max := by
    cases callbackData.record <;> exact hO.pooled
  have hlt : ∀ {key : UInt32}, key.toNat < S.tool.contextCount.toNat →
      key.toNat < (S.tool.contextCount + 1).toNat := fun h ↦ hnext ▸ Nat.lt_succ_of_lt h
  rcases Outstanding.of_step_dispatch (Outstanding.step_of_step h hT) with ⟨-, rfl⟩ | ⟨-, rfl⟩
  · have hentries : ∀ key : UInt32,
        (Outstanding.counted S callbackData).contextArray[key]? = S.tool.contextArray[key]? :=
      fun key ↦ congrArg (·[key]?) harray
    refine ⟨⟨fun key entry hentry ↦ ?_, fun key hkey ↦ ?_, hpooled⟩, fun key _ ↦
      ⟨hentries key, ?_, rfl, hnext ▸ Nat.le_succ _⟩⟩
    · exact (hO.entries key entry (hentries key ▸ hentry)).imp_right hlt
    · obtain ⟨hkey, hactive⟩ := hO.dispatching key hkey
      exact ⟨hlt hkey, fun entry hentry ↦ hactive entry (hentries key ▸ hentry)⟩
    · exact congrArg (List.filter _) (dumpedBetween_of_eq heffects)
  · have hentries : ∀ key ≠ S.tool.contextCount,
        ((Outstanding.counted S callbackData).writeEntry S.tool.contextCount
          { index := S.tool.contextCount }).contextArray[key]? = S.tool.contextArray[key]? :=
      fun key hne ↦ (getElem?_writeEntry_of_ne _ hne).trans (congrArg (·[key]?) harray)
    have hself : S.tool.contextCount.toNat < (S.tool.contextCount + 1).toNat :=
      hnext ▸ Nat.lt_succ_self _
    refine ⟨⟨fun key entry hentry ↦ ?_, fun key hkey ↦ ?_, hpooled⟩, fun key hkey ↦ ?_⟩
    · rcases eq_or_ne key S.tool.contextCount with rfl | hne
      · rw [getElem?_writeEntry_self] at hentry
        cases hentry
        exact ⟨rfl, hself⟩
      · exact (hO.entries key entry (hentries key hne ▸ hentry)).imp_right hlt
    · rcases eq_or_ne key S.tool.contextCount with rfl | hne
      · refine ⟨hself, fun entry hentry ↦ ?_⟩
        rw [getElem?_writeEntry_self] at hentry
        cases hentry
        rfl
      · dsimp only at hkey
        rw [UMap.assign_of_ne _ _ hne] at hkey
        obtain ⟨hkey, hactive⟩ := hO.dispatching key hkey
        exact ⟨hlt hkey, fun entry hentry ↦ hactive entry (hentries key hne ▸ hentry)⟩
    · have hne : key ≠ S.tool.contextCount := by
        rintro rfl
        exact Nat.lt_irrefl _ hkey
      refine ⟨hentries key hne, ?_, UMap.assign_of_ne _ _ hne, hnext ▸ Nat.le_succ _⟩
      exact congrArg (List.filter _) (dumpedBetween_of_eq heffects)

theorem Takes.dumpedBetween_eq_nil {callbackData : CallbackData} {index : UInt32}
    (h : Takes callbackData index s t) : dumpedBetween s t = [] := by
  rw [dumpedBetween_eq h.effects]
  split_ifs <;> rfl

/-- **The second half of `dispatch_callback`** writes an entry that is not active. -/
theorem Orderly.fill {index : UInt32} {context : ℕ} {currTime : UInt64} (hO : Orderly S)
    (h : Version1.step m S (.fill index context currTime) = some T) (hT : T.stopped = none) :
    Orderly T ∧ ∀ key, S.dispatching key = none → Leaves key S T := by
  obtain ⟨callbackData, hdispatching, rfl⟩ := of_step_fill h
  obtain ⟨⟨⟩, tool, hexec, heq⟩ := System.exists_of_perform hT
  rw [heq]
  have hstays := Collecting.stays_fillContext m callbackData index context currTime S.tool
  rw [after, hexec] at hstays
  have hcount : tool.contextCount = S.tool.contextCount := hstays.contextCount
  obtain ⟨entry, entry', u, hentry, htakes, -, hindex, hactive, -, rfl⟩ :=
    exists_of_fillContext hexec
  have hentries : ∀ key ≠ index,
      (u.writeEntry index entry').contextArray[key]? = S.tool.contextArray[key]? :=
    fun key hne ↦ (getElem?_writeEntry_of_ne _ hne).trans (congrArg (·[key]?) htakes.contextArray)
  refine ⟨⟨fun key entry'' hentry'' ↦ ?_, fun key hkey ↦ ?_, fun slot hslot ↦ ?_⟩,
    fun key hkey ↦ ?_⟩
  · dsimp only at hentry'' ⊢
    rw [hcount]
    rcases eq_or_ne key index with rfl | hne
    · rw [getElem?_writeEntry_self] at hentry''
      cases hentry''
      rw [hindex]
      exact hO.entries key entry hentry
    · exact hO.entries key entry'' (hentries key hne ▸ hentry'')
  · dsimp only at hkey ⊢
    rw [hcount]
    have hne : key ≠ index := by
      rintro rfl
      simp at hkey
    rw [Function.update_of_ne hne] at hkey
    rw [hentries key hne]
    exact hO.dispatching key hkey
  · exact hO.pooled_of_eq htakes.payloads hslot
  · have hne : key ≠ index := by
      rintro rfl
      cases hkey.symm.trans hdispatching
    refine ⟨hentries key hne, ?_, Function.update_of_ne hne _ _, by rw [← hcount]⟩
    exact congrArg (List.filter _) (Takes.dumpedBetween_eq_nil htakes)

theorem Orderly.dispatchOpt {callbackData : CallbackData} {number context : ℕ} (hO : Orderly S)
    (h : Version1.step m S (.dispatchOpt callbackData number context) = some T)
    (hT : T.stopped = none) : Orderly T ∧ ∀ key, Leaves key S T := by
  obtain ⟨-, rfl⟩ := of_step_dispatchOpt h
  obtain ⟨slot, tool, hexec, heq⟩ := System.exists_of_perform hT
  rw [heq]
  have hstays := Outstanding.stays_dispatchCallbackOpt m callbackData number context
    (S.tool.allocate callbackData.record)
  rw [after, hexec] at hstays
  have hcount : tool.contextCount = S.tool.contextCount :=
    hstays.contextCount.trans (contextCount_allocate S.tool callbackData.record)
  obtain ⟨gpuId, i, payload, u, -, -, htakes, -, hborrows, rfl⟩ :=
    exists_of_dispatchCallbackOpt hexec
  have harray : u.contextArray = S.tool.contextArray :=
    htakes.contextArray.trans (Outstanding.contextArray_allocate S.tool callbackData.record)
  have hpayloads : u.payloads = S.tool.payloads :=
    htakes.payloads.trans (by cases callbackData.record <;> rfl)
  have hdumped : dumpedBetween S.tool u = [] := by
    have hnil := Takes.dumpedBetween_eq_nil htakes
    rwa [dumpedBetween, effects_allocate] at hnil
  refine ⟨hO.of_entries (fun key entry hentry ↦ ⟨entry, harray ▸ hentry, rfl, id⟩) rfl hcount
    fun slot' hslot' ↦ ?_, fun key ↦ .of_eq harray hdumped rfl hcount⟩
  dsimp only at hslot' ⊢
  rcases eq_or_ne slot' slot with rfl | hne
  · exact ⟨payload, UMap.assign_self _ _ _, hborrows.index⟩
  · rw [Function.update_of_ne hne] at hslot'
    rw [UMap.assign_of_ne _ _ hne, hpayloads]
    exact hO.pooled slot' hslot'

theorem Orderly.complete {r : ℕ} {written : DispatchRecord} (hO : Orderly S)
    (h : Version1.step m S (.complete r written) = some T) :
    Orderly T ∧ ∀ key, Leaves key S T := by
  obtain ⟨record, -, -, -, rfl⟩ := of_step_complete h
  exact ⟨⟨hO.entries, hO.dispatching, hO.pooled⟩,
    fun key ↦ .of_eq rfl (dumpedBetween_of_eq rfl) rfl rfl⟩

/-- **The completion handler of the optimised mode** counts its context, but does not publish
anything. -/
theorem of_exec_contextPoolHandler {slot : Slot} {payload : ContextEntry}
    (hpayload : s.payloads slot = some payload) (hindex : payload.index = uint32Max)
    (h : exec (contextPoolHandler m slot) s = (.ok ⟨⟩, t)) :
    t.contextArray = s.contextArray ∧ t.contextCount = s.contextCount ∧
      dumpedBetween s t = [] ∧ ∀ i ≠ slot, t.payloads i = s.payloads i := by
  rw [contextPoolHandler, exec_bind_ok (exec_get s), hpayload] at h
  obtain ⟨p, -, h⟩ := exists_of_exec_lift_bind h
  let entry : ContextEntry := { payload with
    features := m.handlerFeatures
    data := { payload.data with kernelName := some p.2.name } }
  rcases dumpContextEntry_of_pool m s (show entry.index = uint32Max from hindex) with
    ⟨ret, u, hdump, hu⟩ | ⟨e, hdump⟩
  · dsimp only at h
    rw [exec_bind_ok hdump] at h
    obtain ⟨⟨⟩, v, hassign, h⟩ := exists_of_exec_bind h
    obtain ⟨-, rfl⟩ := Prod.mk.inj hassign
    rw [releaseKernelNameRef, exec_bind_ok (exec_get _)] at h
    obtain ⟨q, -, h⟩ := exists_of_exec_lift_bind h
    obtain ⟨-, rfl⟩ := Prod.mk.inj h
    rcases hu with rfl | rfl
    · exact ⟨rfl, rfl, dumpedBetween_of_eq rfl, fun i hne ↦ UMap.assign_of_ne _ _ hne⟩
    · exact ⟨rfl, rfl, dumpedBetween_eq (show _ = s.effects ++ [.collected entry] from rfl),
        fun i hne ↦ UMap.assign_of_ne _ _ hne⟩
  · dsimp only at h
    rw [exec_bind_error hdump] at h
    cases h

theorem Orderly.contextPoolHandler {slot : Slot} (hO : Orderly S)
    (h : Version1.step m S (.contextPoolHandler slot) = some T) (hT : T.stopped = none) :
    Orderly T ∧ ∀ key, Leaves key S T := by
  obtain ⟨hfetched, rfl⟩ := of_step_contextPoolHandler h
  obtain ⟨⟨⟩, tool, hexec, heq⟩ := System.exists_of_perform hT
  rw [heq]
  obtain ⟨payload, hpayload, hindex⟩ := hO.pooled slot hfetched
  obtain ⟨harray, hcount, hdumped, hpayloads⟩ := of_exec_contextPoolHandler hpayload hindex hexec
  refine ⟨hO.of_entries (fun key entry hentry ↦ ⟨entry, harray ▸ hentry, rfl, id⟩) rfl hcount
    fun slot' hslot' ↦ ?_, fun key ↦ .of_eq harray hdumped rfl hcount⟩
  dsimp only at hslot' ⊢
  rcases eq_or_ne slot' slot with rfl | hne
  · simp at hslot'
  · rw [Function.update_of_ne hne] at hslot'
    rw [hpayloads slot' hne]
    exact hO.pooled slot' hslot'

/-- **The completion handler** erases its entry, when that is not active any more or has been
dumped. -/
structure Handled (key : UInt32) (entry : ContextEntry) (S T : System) : Prop where
  erased : T.tool.contextArray[key]? = none
  others : ∀ i ≠ key, T.tool.contextArray[i]? = S.tool.contextArray[i]?
  dumped : dumpedBetween S.tool T.tool = if entry.active then [entry] else []
  dispatching : T.dispatching = S.dispatching
  fetched : T.fetched = S.fetched
  contextCount : T.tool.contextCount = S.tool.contextCount
  payloads : T.tool.payloads = S.tool.payloads

theorem effects_of_contextHandler {entry : ContextEntry}
    (hentry : s.contextArray[key]? = some entry) (hindex : entry.index ≠ uint32Max)
    (h : exec (contextHandler m key) s = (.ok ⟨⟩, t)) :
    t.payloads = s.payloads ∧ dumpedBetween s t = if entry.active then [entry] else [] := by
  rw [contextHandler, exec_bind_ok (exec_get s), hentry] at h
  dsimp only at h
  rcases hactive : entry.active with _ | _
  · rw [hactive, if_neg Bool.false_ne_true] at h
    obtain ⟨-, rfl⟩ := Prod.mk.inj h
    exact ⟨rfl, dumpedBetween_of_eq rfl⟩
  · rw [if_pos hactive] at h
    obtain ⟨⟨ret, entry'⟩, u, hdump, hrest⟩ := exists_of_exec_bind h
    obtain ⟨-, hpayloads, ⟨hret, -⟩ | ⟨hret, text, heffects⟩⟩ :=
      effects_of_dumpContextEntry hindex hdump
    · obtain rfl : ret = false := hret
      cases hrest
    · obtain rfl : ret = true := hret
      obtain ⟨-, rfl⟩ := Prod.mk.inj hrest
      refine ⟨hpayloads, (dumpedBetween_eq heffects).trans ?_⟩
      rw [← List.append_nil (dumpEffects entry text), dumps_dumpEffects]
      rfl

theorem Orderly.contextHandler (hO : Orderly S)
    (h : Version1.step m S (.contextHandler key) = some T) (hT : T.stopped = none) :
    Orderly T ∧ ∃ entry, S.tool.contextArray[key]? = some entry ∧ Handled key entry S T := by
  obtain ⟨-, -, rfl⟩ := of_step_contextHandler h
  obtain ⟨⟨⟩, tool, hexec, heq⟩ := System.exists_of_perform hT
  rw [heq]
  rcases hentry : S.tool.contextArray[key]? with _ | entry
  · rw [Version1.contextHandler, exec_bind_ok (exec_get _), hentry] at hexec
    cases hexec
  have hindex := hO.indexed key entry hentry
  have hkey := (hO.entries key entry hentry).1
  obtain ⟨hpayloads, hdumped⟩ := effects_of_contextHandler hentry hindex hexec
  have herase : tool.contextArray = S.tool.contextArray.erase key ∧
      tool.contextCount = S.tool.contextCount := by
    rcases Collecting.of_exec_contextHandler hentry hkey hindex hexec with
      ⟨-, -, u, hclean, rfl⟩ | ⟨-, rfl⟩
    · exact ⟨by rw [hclean.contextArray], hclean.contextCount⟩
    · exact ⟨rfl, rfl⟩
  obtain ⟨herase, hcount⟩ := herase
  refine ⟨hO.of_entries (fun i entry' hentry' ↦ ?_) rfl hcount fun slot hslot ↦ ?_, entry, rfl,
    ?_, fun i hne ↦ ?_, hdumped, rfl, rfl, hcount, hpayloads⟩
  · dsimp only at hentry'
    rw [herase] at hentry'
    exact ⟨entry', (OrderedMap.of_getElem?_erase hentry').2, rfl, id⟩
  · exact hO.pooled_of_eq hpayloads hslot
  · dsimp only
    rw [herase]
    exact Std.TreeMap.getElem?_erase_self
  · dsimp only
    rw [herase]
    exact OrderedMap.getElem?_erase_of_ne _ hne

/-- **A round of `dump_context_array`**, of this call or of another one. -/
theorem Orderly.dumpContextArray (hO : Orderly S)
    (h : Version1.step m S (.dumpContextArray queue) = some T) (hT : T.stopped = none) :
    Orderly T ∧ T.dispatching = S.dispatching ∧
      Swept queue S.tool.contextArray.keys S.tool T.tool (done m queue S.tool) := by
  obtain ⟨-, rfl⟩ := of_step_dumpContextArray h
  obtain ⟨ret, tool, hexec, heq⟩ := System.exists_of_perform hT
  rw [heq]
  have hswept := swept_dumpContextArrayRound hO.indexed hexec
  refine ⟨hO.of_entries (fun i entry' hentry' ↦ ?_) rfl hswept.contextCount fun slot hslot ↦ ?_,
    rfl, by rw [done, hexec]; exact hswept⟩
  · dsimp only at hentry'
    rw [getElem?_of_swept hswept] at hentry'
    obtain ⟨entry, hentry, rfl⟩ := Option.map_eq_some_iff.mp hentry'
    refine ⟨entry, hentry, by rw [visit]; split_ifs <;> rfl, fun hactive ↦ ?_⟩
    rw [active_visit, Bool.and_eq_true] at hactive
    exact hactive.1
  · exact hO.pooled_of_eq hswept.payloads hslot

/-- **Every event keeps the entries in order.** -/
theorem Orderly.step {event : Event} (hO : Orderly S) (h : Version1.step m S event = some T)
    (hT : T.stopped = none) : Orderly T := by
  cases event with
  | dispatch callbackData => exact (hO.dispatch h hT).1
  | fill index context currTime => exact (hO.fill h hT).1
  | dispatchOpt callbackData number context => exact (hO.dispatchOpt h hT).1
  | complete r written => exact (hO.complete h).1
  | contextHandler index => exact (hO.contextHandler h hT).1
  | contextPoolHandler slot => exact (hO.contextPoolHandler h hT).1
  | dumpContextArray queue => exact (hO.dumpContextArray h hT).1

theorem orderly_start (symbols : UMap UInt64 Symbol) : Orderly (.start symbols) := by
  have hentry : ∀ key : UInt32, (System.start symbols).tool.contextArray[key]? = none :=
    fun _ ↦ Std.TreeMap.getElem?_emptyc
  refine ⟨fun key entry h ↦ ?_, fun key h ↦ (by cases h), fun slot h ↦ (by cases h)⟩
  cases (hentry key).symm.trans h

/-- They are in order in every state that the tool gets to. -/
theorem orderly_of_run {events : List Event} {symbols : UMap UInt64 Symbol}
    (h : run (Version1.step m) (.start symbols) events = some S) (hS : S.stopped = none) :
    Orderly S :=
  run_invariant (I := fun S ↦ S.stopped = none → Orderly S) (fun _ ↦ orderly_start symbols)
    (fun _ _ _ hI hstep hT ↦ (hI (of_step hstep).1).step hstep hT) h hS

end Events

/-! ## One entry, as the call goes on -/

/-- An entry of the queue that was active when the call began: nobody has dumped it yet, and it is
as it was; or it has been dumped once. -/
structure Tracked (key : UInt32) (entry : ContextEntry) (c : Call) : Prop where
  dispatching : c.system.dispatching key = none
  below : key.toNat < c.system.tool.contextCount.toNat
  state : (c.log.filter (·.2.index == key) = [] ∧
      c.system.tool.contextArray[key]? = some entry) ∨
    ∃ event, c.log.filter (·.2.index == key) = [(event, entry)] ∧
      (event = .round ∨ event = .other (.contextHandler key)) ∧
        ∀ entry' : ContextEntry, c.system.tool.contextArray[key]? = some entry' →
          entry'.active = false

section Calls

variable {c c' : Call} {T : System} {entry : ContextEntry}

theorem filter_advance (c : Call) (event : CallEvent) (T : System) (returned : Bool)
    (key : UInt32) : (c.advance event T returned).log.filter (·.2.index == key)
      = c.log.filter (·.2.index == key)
        ++ ((dumpedBetween c.system.tool T.tool).filter (·.index == key)).map (event, ·) := by
  rw [Call.advance, List.filter_append, List.filter_map]
  rfl

theorem Tracked.leaves (h : Tracked key entry c) (hleaves : Leaves key c.system T)
    (event : CallEvent) (returned : Bool) : Tracked key entry (c.advance event T returned) := by
  refine ⟨hleaves.dispatching.trans h.dispatching,
    Nat.lt_of_lt_of_le h.below hleaves.contextCount, ?_⟩
  rw [filter_advance, hleaves.dumped, List.map_nil, List.append_nil]
  rw [show (c.advance event T returned).system = T from rfl, hleaves.entry]
  exact h.state

/-- An entry that a round does not take is left as it is. -/
theorem leaves_of_swept {done : Bool} {S : System} (hO : Orderly S)
    (h : Swept queue S.tool.contextArray.keys S.tool T.tool done)
    (hdispatching : T.dispatching = S.dispatching)
    (htakes : ∀ entry : ContextEntry, S.tool.contextArray[key]? = some entry →
      takes queue entry = false) : Leaves key S T := by
  have hready : ∀ entry : ContextEntry, S.tool.contextArray[key]? = some entry →
      ready queue S.tool entry = false :=
    fun entry hentry ↦ by rw [ready, htakes entry hentry, Bool.false_and]
  refine ⟨?_, ?_, by rw [hdispatching], by rw [h.contextCount]⟩
  · rw [getElem?_of_swept h]
    rcases hentry : S.tool.contextArray[key]? with _ | entry
    · rfl
    · rw [Option.map_some, visit_eq_self (hready entry hentry)]
  · rw [h.filter_dumpedBetween fun i entry hentry ↦ (hO.entries i entry hentry).1, dumped]
    rcases hentry : S.tool.contextArray[key]? with _ | entry
    · rfl
    · rw [Option.filter_some, hready entry hentry]
      rfl

/-- **A round of the call** dumps the entry, if its kernel is done. -/
theorem Tracked.round (hO : Orderly c.system) (h : Tracked key entry c)
    (hstep : Version1.step m c.system (.dumpContextArray queue) = some T) (hT : T.stopped = none)
    (returned : Bool) : Tracked key entry (c.advance .round T returned) := by
  obtain ⟨-, hdispatching, hswept⟩ := hO.dumpContextArray hstep hT
  have hindex : ∀ (i : UInt32) (entry' : ContextEntry),
      c.system.tool.contextArray[i]? = some entry' → entry'.index = i :=
    fun i entry' hentry' ↦ (hO.entries i entry' hentry').1
  rcases h.state with ⟨hlog, hentry⟩ | ⟨event, hlog, hevent, hinactive⟩
  · have hvisit : T.tool.contextArray[key]? = some (visit queue c.system.tool entry) := by
      rw [getElem?_of_swept hswept, hentry, Option.map_some]
    have hfilter : (dumpedBetween c.system.tool T.tool).filter (·.index == key)
        = (dumped queue c.system.tool key).toList := hswept.filter_dumpedBetween hindex
    rw [dumped_eq hentry] at hfilter
    refine ⟨(congrFun hdispatching key).trans h.dispatching,
      Nat.lt_of_lt_of_eq h.below (congrArg _ hswept.contextCount.symm), ?_⟩
    rw [filter_advance, hfilter, hlog]
    rcases hready : ready queue c.system.tool entry with _ | _
    · exact .inl ⟨rfl, hvisit.trans (by rw [visit_eq_self hready])⟩
    · refine .inr ⟨.round, rfl, .inl rfl, fun entry' hentry' ↦ ?_⟩
      obtain rfl := Option.some.inj (hvisit.symm.trans hentry')
      rw [active_visit, hready]
      exact Bool.and_false _
  · refine h.leaves (leaves_of_swept hO hswept hdispatching fun entry' hentry' ↦ ?_) _ _
    rw [takes, hinactive entry' hentry', Bool.and_false]

/-- Another call of `dump_context_array` does not take what this one is for. -/
theorem belongs_eq_false {queue' : Option UInt64} (hqueue : belongs queue entry = true)
    (h : overlaps queue (.dumpContextArray queue') = false) : belongs queue' entry = false := by
  rw [overlaps, Bool.or_eq_false_iff, Bool.or_eq_false_iff] at h
  obtain ⟨⟨hsome, hsome'⟩, hne⟩ := h
  rcases queue with _ | q
  · cases hsome
  rcases queue' with _ | q'
  · cases hsome'
  rw [belongs, Option.all_some, beq_iff_eq] at hqueue
  rw [belongs, Option.all_some, ← hqueue]
  exact beq_false_of_ne fun heq ↦ by simp [heq] at hne

/-- **What happens in between**: the completion handler of the entry dumps it, if nobody has done
that, and everything else leaves it as it is. -/
theorem Tracked.other {event : Event} (hO : Orderly c.system) (h : Tracked key entry c)
    (hqueue : belongs queue entry = true) (hactive : entry.active = true)
    (hoverlaps : overlaps queue event = false)
    (hstep : Version1.step m c.system event = some T) (hT : T.stopped = none) (returned : Bool) :
    Tracked key entry (c.advance (.other event) T returned) := by
  cases event with
  | dispatch callbackData => exact h.leaves ((hO.dispatch hstep hT).2 key h.below) _ _
  | fill index context currTime => exact h.leaves ((hO.fill hstep hT).2 key h.dispatching) _ _
  | dispatchOpt callbackData number context => exact h.leaves ((hO.dispatchOpt hstep hT).2 key) _ _
  | complete r written => exact h.leaves ((hO.complete hstep).2 key) _ _
  | contextHandler index =>
    obtain ⟨-, entry', hentry', hhandled⟩ := hO.contextHandler hstep hT
    have hindex : entry'.index = index := (hO.entries index entry' hentry').1
    rcases eq_or_ne key index with rfl | hne
    · refine ⟨(congrFun hhandled.dispatching key).trans h.dispatching,
        Nat.lt_of_lt_of_eq h.below (congrArg _ hhandled.contextCount.symm), .inr ?_⟩
      have hgone : ∀ entry'' : ContextEntry, T.tool.contextArray[key]? = some entry'' →
          entry''.active = false := fun entry'' h ↦ by rw [hhandled.erased] at h; cases h
      rw [filter_advance, hhandled.dumped]
      rcases h.state with ⟨hlog, hentry⟩ | ⟨event, hlog, hevent, hinactive⟩
      · obtain rfl := Option.some.inj (hentry.symm.trans hentry')
        refine ⟨_, ?_, .inr rfl, hgone⟩
        rw [hlog, hactive]
        simp [hindex]
      · refine ⟨event, ?_, hevent, hgone⟩
        rw [hlog, hinactive entry' hentry']
        rfl
    · refine h.leaves ⟨hhandled.others key hne, ?_, by rw [hhandled.dispatching],
        by rw [hhandled.contextCount]⟩ _ _
      rw [hhandled.dumped]
      split_ifs
      · simp [hindex, hne.symm]
      · rfl
  | contextPoolHandler slot => exact h.leaves ((hO.contextPoolHandler hstep hT).2 key) _ _
  | dumpContextArray queue' =>
    obtain ⟨-, hdispatching, hswept⟩ := hO.dumpContextArray hstep hT
    refine h.leaves (leaves_of_swept hO hswept hdispatching fun entry' hentry' ↦ ?_) _ _
    rcases h.state with ⟨-, hentry⟩ | ⟨-, -, -, hinactive⟩
    · obtain rfl := Option.some.inj (hentry.symm.trans hentry')
      rw [takes, belongs_eq_false hqueue hoverlaps, Bool.false_and]
    · rw [takes, hinactive entry' hentry', Bool.and_false]

/-! ## The whole call -/

/-- What one step of a call says. -/
theorem of_callStep {event : CallEvent} (h : Call.step m queue c event = some c') :
    (event = .round ∧ ∃ T, Version1.step m c.system (.dumpContextArray queue) = some T ∧
        c' = c.advance .round T (done m queue c.system.tool)) ∨
      ∃ e T, event = .other e ∧ overlaps queue e = false ∧
        Version1.step m c.system e = some T ∧ c' = c.advance (.other e) T false := by
  obtain ⟨-, h⟩ := Option.ite_none_left_eq_some.mp h
  cases event with
  | round =>
    obtain ⟨T, hT, rfl⟩ := Option.map_eq_some_iff.mp h
    exact .inl ⟨rfl, T, hT, rfl⟩
  | other e =>
    obtain ⟨hoverlaps, h⟩ := Option.ite_none_left_eq_some.mp h
    obtain ⟨T, hT, rfl⟩ := Option.map_eq_some_iff.mp h
    exact .inr ⟨e, T, rfl, by simpa using hoverlaps, hT, rfl⟩

theorem running_of_callStep {event : CallEvent} (h : Call.step m queue c event = some c') :
    c.system.stopped = none := by
  rcases of_callStep h with ⟨-, T, hstep, -⟩ | ⟨e, T, -, -, hstep, -⟩
  · exact (of_step hstep).1
  · exact (of_step hstep).1

/-- A round that has nothing left to do has not come to a stop. -/
theorem stopped_of_done {S : System} (h : Version1.step m S (.dumpContextArray queue) = some T)
    (hdone : done m queue S.tool = true) : T.stopped = none := by
  have hrunning := (of_step h).1
  obtain ⟨-, rfl⟩ := of_step_dumpContextArray h
  rw [System.perform]
  rcases hexec : exec (dumpContextArrayRound m queue) S.tool with ⟨e | a, tool⟩
  · rw [done, hexec] at hdone
    cases hdone
  · exact hrunning

/-- What is true all through a call that began in the state `s`. -/
structure Inv (queue : Option UInt64) (s : System) (c : Call) : Prop where
  orderly : Orderly c.system
  tracked : ∀ (key : UInt32) (entry : ContextEntry), s.tool.contextArray[key]? = some entry →
    belongs queue entry = true → entry.active = true → Tracked key entry c
  own : ∀ entry, (.round, entry) ∈ c.log → belongs queue entry = true
  inactive : c.returned = true → ∀ (key : UInt32) (entry : ContextEntry),
    c.system.tool.contextArray[key]? = some entry → belongs queue entry = true →
      entry.active = false

theorem inv_start {S : System} (hO : Orderly S) : Inv queue S { system := S } := by
  refine ⟨hO, fun key entry hentry hqueue hactive ↦ ⟨?_, (hO.entries key entry hentry).2,
    .inl ⟨rfl, hentry⟩⟩, fun entry h ↦ (by cases h), fun h ↦ by cases h⟩
  by_contra hne
  have hfalse := (hO.dispatching key (Option.isSome_iff_ne_none.mpr hne)).2 entry hentry
  rw [hactive] at hfalse
  cases hfalse

/-- A round dumps entries of its queue only. -/
theorem belongs_of_dumped {S : System} {done : Bool}
    (h : Swept queue S.tool.contextArray.keys S.tool T.tool done)
    (hentry : entry ∈ dumpedBetween S.tool T.tool) : belongs queue entry = true := by
  rw [h.dumpedBetween_eq, List.mem_filterMap] at hentry
  obtain ⟨key, -, hdumped⟩ := hentry
  rw [dumped, Option.filter_eq_some_iff, ready, takes, Bool.and_eq_true, Bool.and_eq_true]
    at hdumped
  exact hdumped.2.1.1

/-- **The step of a call.** -/
theorem Inv.step {S : System} {event : CallEvent} (hI : Inv queue S c)
    (h : Call.step m queue c event = some c') (hT : c'.system.stopped = none) :
    Inv queue S c' := by
  rcases of_callStep h with ⟨rfl, T, hstep, rfl⟩ | ⟨e, T, rfl, hoverlaps, hstep, rfl⟩
  · obtain ⟨hO, -, hswept⟩ := hI.orderly.dumpContextArray hstep hT
    refine ⟨hO, fun key entry hentry hqueue hactive ↦
      (hI.tracked key entry hentry hqueue hactive).round hI.orderly hstep hT _,
      fun entry hentry ↦ ?_, fun hreturned key entry hentry hqueue ↦ ?_⟩
    · rcases List.mem_append.mp hentry with hentry | hentry
      · exact hI.own entry hentry
      · obtain ⟨entry', hentry', heq⟩ := List.mem_map.mp hentry
        cases heq
        exact belongs_of_dumped hswept hentry'
    · have hdone : done m queue c.system.tool = true := hreturned
      rw [hdone] at hswept
      exact hswept.active_eq_false hentry hqueue
  · refine ⟨hI.orderly.step hstep hT, fun key entry hentry hqueue hactive ↦
      (hI.tracked key entry hentry hqueue hactive).other hI.orderly hqueue hactive hoverlaps hstep
        hT _, fun entry hentry ↦ ?_, fun hreturned ↦ (by cases hreturned)⟩
    rcases List.mem_append.mp hentry with hentry | hentry
    · exact hI.own entry hentry
    · obtain ⟨entry', -, heq⟩ := List.mem_map.mp hentry
      cases heq

variable {S : System} {events : List CallEvent}

/-- In a call that returns, nothing has come to a stop. -/
theorem running_of_returned (h : run (Call.step m queue) { system := S } events = some c)
    (hreturned : c.returned = true) :
    Everywhere (Call.step m queue) { system := S } (fun v ↦ v.system.stopped = none) events := by
  have hlast : c.system.stopped = none := by
    refine run_invariant (I := fun c ↦ c.returned = true → c.system.stopped = none)
      (fun h ↦ (by cases h)) (fun v event v' _ hstep hreturned' ↦ ?_) h hreturned
    rcases of_callStep hstep with ⟨rfl, T, hround, rfl⟩ | ⟨e, T, rfl, -, -, rfl⟩
    · exact stopped_of_done hround hreturned'
    · cases hreturned'
  rintro xs v ⟨ys, rfl⟩ hv
  rw [run_append, hv, Option.bind_some] at h
  cases ys with
  | nil =>
    cases h
    exact hlast
  | cons event ys =>
    obtain ⟨v', hstep, -⟩ := Option.bind_eq_some_iff.mp h
    exact running_of_callStep hstep

/-- **What `dump_context_array` leaves behind when it returns**, whatever entries there were when it
was called and whatever has happened between its rounds. -/
theorem dumpContextArray_returns {symbols : UMap UInt64 Symbol} {before : List Event}
    (hbefore : run (Version1.step m) (.start symbols) before = some S)
    (h : run (Call.step m queue) { system := S } events = some c) (hreturned : c.returned = true) :
    Returned m queue S events c := by
  have hrunning := running_of_returned h hreturned
  have hS : S.stopped = none := hrunning [] _ (List.nil_prefix) rfl
  have hinv : ∀ xs v, xs <+: events → run (Call.step m queue) { system := S } xs = some v →
      Inv queue S v := by
    intro xs v hpre hv
    refine run_invariant (I := fun v ↦ v.system.stopped = none → Inv queue S v)
      (fun _ ↦ inv_start (orderly_of_run hbefore hS)) (fun u event u' hI hstep hT ↦ ?_) hv
      (hrunning xs v hpre hv)
    exact (hI (running_of_callStep hstep)).step hstep hT
  have hI := hinv events c (List.prefix_refl _) h
  refine ⟨hI.inactive hreturned, fun key entry hentry hqueue hactive ↦ ?_, hI.own, ?_⟩
  · rcases (hI.tracked key entry hentry hqueue hactive).state with
      ⟨-, hstill⟩ | ⟨event, hlog, hevent, -⟩
    · -- the flag of the last round says that it is not active
      have hfalse := hI.inactive hreturned key entry hstill hqueue
      rw [hactive] at hfalse
      cases hfalse
    · exact ⟨event, hlog, hevent⟩
  · rintro xs event v hpre hv rfl
    obtain ⟨v', hv'⟩ := exists_run_of_prefix hpre h
    obtain ⟨u, hu, hstep⟩ := run_concat.mp hv'
    obtain rfl := Option.some.inj (hv.symm.trans hu)
    rcases of_callStep hstep with ⟨-, T, hround, rfl⟩ | ⟨e, T, heq, -, -, -⟩
    · have hxs := hinv xs v ((List.prefix_append xs _).trans hpre) hv
      have hT : T.stopped = none := hrunning _ _ hpre hv'
      have htool : T.tool = after (dumpContextArrayRound m queue) v.system.tool :=
        tool_of_step hround
      rw [← htool]
      exact (hxs.orderly.dumpContextArray hround hT).2.2.frame
    · cases heq

end Calls

/-- Two kernels of the queue `1`, and one of the queue `2`. -/
def threeKernels : List Event :=
  [.dispatch (axpy true), .fill 0 7 42,
    .dispatch { axpy true with record := some 1 }, .fill 1 8 43,
    .dispatch { axpy true with queue := 2, record := some 2 }, .fill 2 9 44]

/-- The first round finds none of them done; then the first one is, and its handler is called, and
the second one. -/
def twoRounds : List CallEvent :=
  [.round, .other (.complete 0 ⟨1, 2, 3, 4⟩), .other (.contextHandler 0),
    .other (.complete 1 ⟨5, 6, 7, 8⟩), .round]

theorem dumpContextArray_returns_twoRounds :
    ∃ s c, run (step oneCounter) (.start axpySymbols) threeKernels = some s ∧
      run (Call.step oneCounter (some 1)) { system := s } twoRounds = some c ∧
      c.log.map (fun p ↦ (p.1, p.2.index)) = [(.other (.contextHandler 0), 0), (.round, 1)] ∧
      c.returned = true ∧ Returned oneCounter (some 1) s twoRounds c := by
  have hrun : ((run (step oneCounter) (.start axpySymbols) threeKernels).bind fun s ↦
      run (Call.step oneCounter (some 1)) { system := s } twoRounds).map
        (fun c ↦ (c.returned, c.log.map fun p ↦ (p.1, p.2.index)))
      = some (true, [(.other (.contextHandler 0), 0), (.round, 1)]) := by decide +kernel
  obtain ⟨c, hc, heq⟩ := Option.map_eq_some_iff.mp hrun
  obtain ⟨s, hs, hc⟩ := Option.bind_eq_some_iff.mp hc
  obtain ⟨hreturned, hlog⟩ := Prod.mk.inj heq
  exact ⟨s, c, hs, hc, hlog, hreturned, dumpContextArray_returns hs hc hreturned⟩

end Version1.Sweeps
