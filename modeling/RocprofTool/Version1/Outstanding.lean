import RocprofTool.Version1.Simulation

/-!
# The contexts that are outstanding

`context_count` counts the contexts that are made and `context_collected` those that are dumped, and
the difference is taken for the number of the contexts that are outstanding: `alloc_context_entry`
waits when it is too large, and `rocprofiler_unload` takes it for zero when nothing is left to be
dumped.  Both counters are `uint32_t`, and so is the difference.

It is the number of the dispatches with a context that has not been dumped as long as every dispatch
goes through `dispatch_callback`, passes the filter and is not the last one that the counter can
count (`everywhere_accounts_iff`).

* A dispatch that does not pass the filter is counted all the same, by `next_context_count`.
* A dispatch of the optimised mode is not counted, but its context is when it is dumped.
* When the counter starts again from zero, more contexts are collected than there are.

The runs are those of `Version1.Dispatches`, but with any number of dispatches, and only as long as
no call comes to a stop.
-/

set_option autoImplicit false

open Fallible Runs

namespace Version1.Outstanding

/-- `dispatch_callback` can be called, however many dispatches there have been. -/
def canDispatch (m : Machine) (s : System) (callbackData : CallbackData) : Bool :=
  s.tool.canAllocate callbackData.record &&
    !(s.tool.outstanding m && opensContext callbackData m.toolData matches .ok true)

/-- What can happen, however many dispatches there have been. -/
def next (m : Machine) (s : System) : Event → Option System
  | .dispatch callbackData =>
    if canDispatch m s callbackData then
      let s := { s with tool := s.tool.allocate callbackData.record }
      some (s.perform (allocContext m callbackData) fun index s ↦
        match index with
        | none => s
        | some index => { s with dispatching := s.dispatching.assign index callbackData })
    else none
  | event => s.next m event

/-- One event, after which the tool is still running. -/
def step (m : Machine) (s : System) (event : Event) : Option System :=
  if s.stopped.isSome then none else (next m s event).filter fun t ↦ t.stopped.isNone

/-- What happens with fewer than `2 ^ 32` dispatches can happen here. -/
theorem step_of_step {m : Machine} {s t : System} {event : Event}
    (h : Version1.step m s event = some t) (ht : t.stopped = none) :
    step m s event = some t := by
  obtain ⟨hs, hnext⟩ := Option.ite_none_left_eq_some.mp h
  have hnext' : next m s event = some t := by
    cases event with
    | dispatch callbackData =>
      obtain ⟨hcan, heq⟩ := Option.ite_none_right_eq_some.mp hnext
      rw [System.canDispatch, Bool.and_assoc, Bool.and_eq_true] at hcan
      exact Option.ite_none_right_eq_some.mpr ⟨hcan.2, heq⟩
    | _ => exact hnext
  rw [step, if_neg hs, hnext']
  exact Option.filter_some_pos (by rw [ht]; rfl)

/-- So do its runs, as long as no call comes to a stop. -/
theorem run_of_run {m : Machine} {s t : System} {events : List Event}
    (h : run (Version1.step m) s events = some t) (ht : t.stopped = none) :
    run (step m) s events = some t := by
  induction events using List.reverseRecOn generalizing t with
  | nil => exact h
  | append_singleton events event ih =>
    obtain ⟨u, hu, hstep⟩ := run_concat.mp h
    exact run_concat.mpr ⟨u, ih hu (Version1.of_step hstep).1, step_of_step hstep ht⟩

/-! ## The property -/

/-- Does the dispatch that is kept there have a context that has not been dumped?  Between the two
halves of `dispatch_callback` it has the entry, and is about to get the context for it. -/
def awaits (s : System) : Place → Bool
  | .entry index => (s.dispatching index).isSome || s.keeps (.entry index)
  | .slot slot => s.keeps (.slot slot)

/-- The difference of the counters is the number of these dispatches, and no more contexts are
collected than there are. -/
def Accounts (s : System) : Prop :=
  s.tool.contextCollected ≤ s.tool.contextCount ∧
    ∃ places : List Place, places.Nodup ∧ (∀ place, place ∈ places ↔ awaits s place = true) ∧
      (s.tool.contextCount - s.tool.contextCollected).toNat = places.length

/-- The condition on an event: a dispatch goes through `dispatch_callback`, passes the filter, and
can be counted. -/
def countsContext (m : Machine) (s : System) : Event → Bool
  | .dispatch callbackData =>
    (opensContext callbackData m.toolData matches .ok true) &&
      s.tool.contextCount.toNat + 1 < 2 ^ 32
  | .dispatchOpt _ _ _ => false
  | _ => true

/-! ## The invariant -/

/-- The entries with these indices, and no others, wait to be dumped. -/
structure Balanced (s : System) (indices : List UInt32) : Prop where
  nodup : indices.Nodup
  mem : ∀ index, index ∈ indices ↔ awaits s (.entry index) = true
  count : s.tool.contextCount.toNat = s.tool.contextCollected.toNat + indices.length

/-- As long as the condition is met: the pools are not used, and the entries are at their indices,
all of them below `context_count`. -/
structure Inv (s : System) : Prop where
  running : s.stopped = none
  fetched : ∀ slot, s.fetched slot = false
  entries : ∀ (key : UInt32) (entry : ContextEntry), s.tool.contextArray[key]? = some entry →
    entry.index = key ∧ key.toNat < s.tool.contextCount.toNat
  dispatching : ∀ key, (s.dispatching key).isSome = true →
    ∃ entry, s.tool.contextArray[key]? = some entry ∧ entry.valid = false
  balanced : ∃ indices, Balanced s indices

variable {m : Machine} {s t : System} {indices : List UInt32} {key : UInt32}

theorem Balanced.nodup_places (h : Balanced s indices) : (indices.map Place.entry).Nodup :=
  h.nodup.map fun _ _ heq ↦ by cases heq; rfl

/-- The entries are all that waits to be dumped. -/
theorem Inv.mem_places (hI : Inv s) (h : Balanced s indices) (place : Place) :
    place ∈ indices.map Place.entry ↔ awaits s place = true := by
  cases place with
  | entry index => simp [h.mem]
  | slot slot => simp [awaits, System.keeps, hI.fetched slot]

theorem Inv.accounts (hI : Inv s) : Accounts s := by
  obtain ⟨indices, hbalanced⟩ := hI.balanced
  have hcount := hbalanced.count
  have hle : s.tool.contextCollected ≤ s.tool.contextCount := by
    rw [UInt32.le_iff_toNat_le, hcount]
    exact Nat.le_add_right _ _
  refine ⟨hle, indices.map .entry, hbalanced.nodup_places, hI.mem_places hbalanced, ?_⟩
  rw [UInt32.toNat_sub_of_le _ _ hle, hcount, Nat.add_sub_cancel_left, List.length_map]

/-! ## What relies on the difference -/

/-- `alloc_context_entry` waits when there are too many contexts. -/
theorem Accounts.outstanding_iff (h : Accounts s) (m : Machine) :
    s.tool.outstanding m = true ↔ m.ctxOutstandingMax ≠ 0 ∧
      ∃ places : List Place, places.Nodup ∧ (∀ place, place ∈ places ↔ awaits s place = true) ∧
        m.ctxOutstandingMax.toNat < places.length := by
  obtain ⟨-, places, hnodup, hmem, hlength⟩ := h
  rw [Tool.outstanding, Bool.and_eq_true, bne_iff_ne, decide_eq_true_iff, gt_iff_lt,
    UInt32.lt_iff_toNat_lt, hlength]
  refine and_congr_right fun _ ↦ ⟨fun hlt ↦ ⟨places, hnodup, hmem, hlt⟩, ?_⟩
  rintro ⟨places', hnodup', hmem', hlt⟩
  have hperm := (List.perm_ext_iff_of_nodup hnodup' hnodup).mpr fun place ↦ by rw [hmem, hmem']
  rwa [hperm.length_eq] at hlt

/-- `rocprofiler_unload` finds the counters equal when nothing is left to be dumped. -/
theorem Accounts.collected_eq_iff (h : Accounts s) :
    s.tool.contextCollected = s.tool.contextCount ↔ ∀ place, awaits s place = false := by
  obtain ⟨hle, places, -, hmem, hlength⟩ := h
  rw [UInt32.toNat_sub_of_le _ _ hle] at hlength
  have hle' := UInt32.le_iff_toNat_le.mp hle
  constructor
  · intro heq place
    rw [heq, Nat.sub_self] at hlength
    have hnil : places = [] := List.eq_nil_of_length_eq_zero hlength.symm
    rw [hnil] at hmem
    exact Bool.eq_false_iff.mpr fun hawaits ↦ List.not_mem_nil ((hmem place).mpr hawaits)
  · intro hnone
    have hnil : places = [] := List.eq_nil_iff_forall_not_mem.mpr fun place hplace ↦
      Bool.eq_false_iff.mp (hnone place) ((hmem place).mp hplace)
    rw [hnil, List.length_nil] at hlength
    exact UInt32.toNat_inj.mp (by omega)

/-! ## One entry changes -/

/-- Nothing is different but the entry at this index, the counters, and what is not looked at. -/
structure Touches (key : UInt32) (s t : System) : Prop where
  running : t.stopped = none
  fetched : t.fetched = s.fetched
  entries : ∀ i ≠ key, t.tool.contextArray[i]? = s.tool.contextArray[i]?
  dispatching : ∀ i ≠ key, t.dispatching i = s.dispatching i
  self : ∀ entry, t.tool.contextArray[key]? = some entry →
    entry.index = key ∧ key.toNat < t.tool.contextCount.toNat
  filling : (t.dispatching key).isSome = true →
    ∃ entry, t.tool.contextArray[key]? = some entry ∧ entry.valid = false
  count : s.tool.contextCount.toNat ≤ t.tool.contextCount.toNat

theorem Touches.awaits_eq (h : Touches key s t) {i : UInt32} (hne : i ≠ key) :
    awaits t (.entry i) = awaits s (.entry i) := by
  rw [awaits, awaits, System.keeps, System.keeps, h.entries i hne, h.dispatching i hne]

theorem Inv.touch (hI : Inv s) (h : Touches key s t) (hbalanced : Balanced t indices) : Inv t := by
  refine ⟨h.running, fun slot ↦ h.fetched ▸ hI.fetched slot, fun i entry hentry ↦ ?_,
    fun i hi ↦ ?_, ⟨indices, hbalanced⟩⟩
  · rcases eq_or_ne i key with rfl | hne
    · exact h.self entry hentry
    · rw [h.entries i hne] at hentry
      exact (hI.entries i entry hentry).imp id fun hlt ↦ Nat.lt_of_lt_of_le hlt h.count
  · rcases eq_or_ne i key with rfl | hne
    · exact h.filling hi
    · rw [h.dispatching i hne] at hi
      rw [h.entries i hne]
      exact hI.dispatching i hi

theorem toNat_add_one {n : UInt32} (h : n.toNat + 1 < 2 ^ 32) : (n + 1).toNat = n.toNat + 1 := by
  rw [UInt32.toNat_add]
  exact Nat.mod_eq_of_lt h

/-- The entry waits to be dumped if it did before. -/
theorem Balanced.keep (h : Balanced s indices) (htouches : Touches key s t)
    (hself : awaits t (.entry key) = awaits s (.entry key))
    (hcount : t.tool.contextCount = s.tool.contextCount)
    (hcollected : t.tool.contextCollected = s.tool.contextCollected) : Balanced t indices := by
  refine ⟨h.nodup, fun i ↦ ?_, by rw [hcount, hcollected]; exact h.count⟩
  rcases eq_or_ne i key with rfl | hne
  · rw [hself]
    exact h.mem i
  · rw [htouches.awaits_eq hne]
    exact h.mem i

/-- The entry is made. -/
theorem Balanced.add (h : Balanced s indices) (htouches : Touches key s t)
    (hbefore : awaits s (.entry key) = false) (hafter : awaits t (.entry key) = true)
    (hcount : t.tool.contextCount.toNat = s.tool.contextCount.toNat + 1)
    (hcollected : t.tool.contextCollected = s.tool.contextCollected) :
    Balanced t (key :: indices) := by
  have hnew : key ∉ indices := by
    rw [h.mem, hbefore]
    exact Bool.false_ne_true
  refine ⟨List.nodup_cons.mpr ⟨hnew, h.nodup⟩, fun i ↦ ?_, ?_⟩
  · rcases eq_or_ne i key with rfl | hne
    · exact iff_of_true List.mem_cons_self hafter
    · rw [List.mem_cons, or_iff_right hne, htouches.awaits_eq hne]
      exact h.mem i
  · rw [hcount, hcollected, h.count, List.length_cons, Nat.add_assoc]

/-- The entry is dumped. -/
theorem Balanced.remove (h : Balanced s indices) (htouches : Touches key s t)
    (hbefore : awaits s (.entry key) = true) (hafter : awaits t (.entry key) = false)
    (hcount : t.tool.contextCount = s.tool.contextCount)
    (hcollected : t.tool.contextCollected = s.tool.contextCollected + 1) :
    Balanced t (indices.erase key) := by
  have hmem : key ∈ indices := (h.mem key).mpr hbefore
  refine ⟨h.nodup.erase key, fun i ↦ ?_, ?_⟩
  · rw [h.nodup.mem_erase_iff]
    rcases eq_or_ne i key with rfl | hne
    · rw [hafter]
      exact iff_of_false (fun hi ↦ hi.1 rfl) Bool.false_ne_true
    · rw [and_iff_right hne, htouches.awaits_eq hne]
      exact h.mem i
  · have hlength := List.length_erase_add_one hmem
    have hlt := s.tool.contextCount.toNat_lt
    have hbalance := h.count
    rw [hcount, hcollected, toNat_add_one (by omega)]
    omega

/-! ## Dispatches -/

/-- The entry that `context_count` is at is not there yet. -/
theorem Inv.awaits_next (hI : Inv s) : awaits s (.entry s.tool.contextCount) = false := by
  have hentry : s.tool.contextArray[s.tool.contextCount]? = none := by
    rw [Option.eq_none_iff_forall_not_mem]
    exact fun entry hentry ↦ Nat.lt_irrefl _ (hI.entries _ entry hentry).2
  rw [awaits, System.keeps, hentry]
  rcases hdispatching : s.dispatching s.tool.contextCount with _ | callbackData
  · rfl
  · obtain ⟨entry, hentry', -⟩ := hI.dispatching s.tool.contextCount (by rw [hdispatching]; rfl)
    cases hentry.symm.trans hentry'

theorem of_step {event : Event} (h : step m s event = some t) :
    s.stopped = none ∧ next m s event = some t ∧ t.stopped = none := by
  obtain ⟨hs, hnext⟩ := Option.ite_none_left_eq_some.mp h
  obtain ⟨hnext, ht⟩ := Option.filter_eq_some_iff.mp hnext
  exact ⟨by simpa using hs, hnext, by simpa using ht⟩

/-- An event other than a dispatch is one of `Version1.Dispatches`. -/
theorem step_of_ne {event : Event} (h : step m s event = some t)
    (hevent : ∀ callbackData, event ≠ .dispatch callbackData) :
    Version1.step m s event = some t ∧ t.stopped = none := by
  obtain ⟨hs, hnext, ht⟩ := of_step h
  refine ⟨?_, ht⟩
  rw [Version1.step, if_neg (by rw [hs]; exact Bool.false_ne_true), ← hnext]
  cases event with
  | dispatch callbackData => exact absurd rfl (hevent callbackData)
  | _ => rfl

/-- What the filter has said is what `alloc_context_entry` is called for. -/
theorem opensContext_of_exec {callbackData : CallbackData} {index : Option UInt32} {s t : Tool}
    (h : exec (allocContext m callbackData) s = (.ok index, t)) :
    opensContext callbackData m.toolData = .ok index.isSome := by
  rw [allocContext] at h
  obtain ⟨opens, hopens, h⟩ := exists_of_exec_lift_bind h
  cases opens with
  | false =>
    cases h
    exact hopens
  | true =>
    obtain ⟨i, u, -, h⟩ := exists_of_exec_bind h
    cases h
    exact hopens

/-- The tool after a dispatch that is counted. -/
def counted (s : System) (callbackData : CallbackData) : Tool :=
  { s.tool.allocate callbackData.record with contextCount := s.tool.contextCount + 1 }

/-- **The first half of `dispatch_callback`**: the dispatch is counted, and has an entry if it
passes the filter. -/
theorem of_step_dispatch {callbackData : CallbackData}
    (h : step m s (.dispatch callbackData) = some t) :
    (opensContext callbackData m.toolData = .ok false ∧
        t = { s with tool := counted s callbackData }) ∨
      opensContext callbackData m.toolData = .ok true ∧
        t = { s with
          tool := (counted s callbackData).writeEntry s.tool.contextCount
            { index := s.tool.contextCount }
          dispatching := s.dispatching.assign s.tool.contextCount callbackData } := by
  obtain ⟨-, hnext, ht⟩ := of_step h
  obtain ⟨-, heq⟩ := Option.ite_none_right_eq_some.mp hnext
  obtain rfl := Option.some.inj heq
  obtain ⟨index, tool, hexec, heq⟩ := System.exists_of_perform ht
  have hopens := opensContext_of_exec hexec
  have hcount : (s.tool.allocate callbackData.record).contextCount = s.tool.contextCount :=
    contextCount_allocate s.tool callbackData.record
  rw [heq]
  rcases of_exec_allocContext hexec with ⟨rfl, rfl⟩ | ⟨rfl, -, rfl⟩
  · refine .inl ⟨hopens, ?_⟩
    dsimp only
    rw [hcount]
    rfl
  · refine .inr ⟨hopens, ?_⟩
    dsimp only
    rw [hcount]
    rfl

theorem contextArray_allocate (s : Tool) (record : Option ℕ) :
    (s.allocate record).contextArray = s.contextArray := by
  cases record <;> rfl

theorem contextCollected_allocate (s : Tool) (record : Option ℕ) :
    (s.allocate record).contextCollected = s.contextCollected := by
  cases record <;> rfl

/-- A dispatch that gets an entry, and can be counted. -/
theorem Inv.dispatch {callbackData : CallbackData} (hI : Inv s)
    (hlt : s.tool.contextCount.toNat + 1 < 2 ^ 32) :
    Inv { s with
      tool := (counted s callbackData).writeEntry s.tool.contextCount
        { index := s.tool.contextCount }
      dispatching := s.dispatching.assign s.tool.contextCount callbackData } := by
  obtain ⟨indices, hbalanced⟩ := hI.balanced
  have htouches : Touches s.tool.contextCount s { s with
      tool := (counted s callbackData).writeEntry s.tool.contextCount
        { index := s.tool.contextCount }
      dispatching := s.dispatching.assign s.tool.contextCount callbackData } := by
    refine ⟨hI.running, rfl, fun i hne ↦ ?_, fun i hne ↦ UMap.assign_of_ne _ _ hne,
      fun entry hentry ↦ ?_, fun _ ↦ ⟨_, getElem?_writeEntry_self _, rfl⟩, ?_⟩
    · rw [getElem?_writeEntry_of_ne _ hne]
      exact congrArg (·[i]?) (contextArray_allocate s.tool callbackData.record)
    · rw [getElem?_writeEntry_self] at hentry
      cases hentry
      refine ⟨rfl, ?_⟩
      show s.tool.contextCount.toNat < (s.tool.contextCount + 1).toNat
      rw [toNat_add_one hlt]
      exact Nat.lt_succ_self _
    · show s.tool.contextCount.toNat ≤ (s.tool.contextCount + 1).toNat
      rw [toNat_add_one hlt]
      exact Nat.le_succ _
  refine hI.touch htouches (hbalanced.add htouches hI.awaits_next ?_ (toNat_add_one hlt)
    (contextCollected_allocate s.tool callbackData.record))
  rw [awaits]
  dsimp only
  rw [UMap.assign_self]
  rfl

/-- **The second half of `dispatch_callback`**: the entry has a context. -/
theorem Inv.fill {index : UInt32} {context : ℕ} {currTime : UInt64} (hI : Inv s)
    (hstep : Version1.step m s (.fill index context currTime) = some t) (ht : t.stopped = none) :
    Inv t := by
  obtain ⟨indices, hbalanced⟩ := hI.balanced
  obtain ⟨callbackData, hdispatching, rfl⟩ := of_step_fill hstep
  obtain ⟨⟨⟩, tool, hexec, heq⟩ := System.exists_of_perform ht
  rw [heq] at ht ⊢
  have hstays := Collecting.stays_fillContext m callbackData index context currTime s.tool
  rw [after, hexec] at hstays
  obtain ⟨entry, entry', u, hentry, htakes, -, hindex, hactive, -, rfl⟩ :=
    exists_of_fillContext hexec
  have htouches : Touches index s { s with
      tool := u.writeEntry index entry'
      dispatching := Function.update s.dispatching index none } := by
    refine ⟨ht, rfl, fun i hne ↦ ?_, fun i hne ↦ Function.update_of_ne hne _ _,
      fun entry'' hentry'' ↦ ?_, fun hsome ↦ ?_, ?_⟩
    · rw [getElem?_writeEntry_of_ne _ hne, htakes.contextArray]
    · rw [getElem?_writeEntry_self] at hentry''
      cases hentry''
      rw [hindex, hstays.contextCount]
      exact hI.entries index entry hentry
    · simp at hsome
    · exact Nat.le_of_eq (congrArg _ hstays.contextCount.symm)
  refine hI.touch htouches (hbalanced.keep htouches ?_ hstays.contextCount
    hstays.contextCollected)
  have hafter : System.keeps { s with
      tool := u.writeEntry index entry'
      dispatching := Function.update s.dispatching index none } (.entry index) = true := by
    rw [System.keeps, getElem?_writeEntry_self]
    exact hactive
  rw [awaits, awaits, hafter, Bool.or_true, hdispatching]
  rfl

/-! ## Collecting -/

/-- An index is not `UINT32_MAX`. -/
theorem Inv.index_ne {entry : ContextEntry} (hI : Inv s)
    (hentry : s.tool.contextArray[key]? = some entry) : entry.index ≠ uint32Max := by
  obtain ⟨rfl, hlt⟩ := hI.entries key entry hentry
  intro heq
  rw [heq] at hlt
  exact absurd s.tool.contextCount.toNat_lt (Nat.not_lt.mpr hlt)

/-- **An entry is dumped**, and then it is gone or not active. -/
theorem Inv.dumped {entry : ContextEntry} {u v : Tool} (hI : Inv s)
    (hentry : s.tool.contextArray[key]? = some entry) (hactive : entry.active = true)
    (hdispatching : s.dispatching key = none) (hclean : Collecting.CleanedUp entry s.tool u)
    (hother : ∀ i ≠ key, v.contextArray[i]? = u.contextArray[i]?)
    (hself : ∀ entry', v.contextArray[key]? = some entry' →
      entry'.index = entry.index ∧ entry'.active = false)
    (hcount : v.contextCount = u.contextCount)
    (hcollected : v.contextCollected = u.contextCollected) : Inv { s with tool := v } := by
  obtain ⟨indices, hbalanced⟩ := hI.balanced
  have hcount' : v.contextCount = s.tool.contextCount := hcount.trans hclean.contextCount
  have htouches : Touches key s { s with tool := v } := by
    refine ⟨hI.running, rfl, fun i hne ↦ ?_, fun _ _ ↦ rfl, fun entry' hentry' ↦ ?_,
      fun hsome ↦ ?_, Nat.le_of_eq (congrArg _ hcount'.symm)⟩
    · rw [← hclean.contextArray]
      exact hother i hne
    · obtain ⟨hindex, hlt⟩ := hI.entries key entry hentry
      exact ⟨(hself entry' hentry').1.trans hindex, hcount'.symm ▸ hlt⟩
    · have hsome : (s.dispatching key).isSome = true := hsome
      rw [hdispatching] at hsome
      cases hsome
  refine hI.touch htouches (hbalanced.remove htouches ?_ ?_ hcount'
    (hcollected.trans hclean.contextCollected))
  · rw [awaits, System.keeps, hentry, Option.any_some, hactive, Bool.or_true]
  · rw [awaits]
    dsimp only
    rw [hdispatching, Option.isSome_none, Bool.false_or, System.keeps]
    dsimp only
    cases hentry' : v.contextArray[key]? with
    | none => rfl
    | some entry' => exact (hself entry' hentry').2

/-- **An entry that has been dumped is erased.** -/
theorem Inv.erased {entry : ContextEntry} (hI : Inv s)
    (hentry : s.tool.contextArray[key]? = some entry) (hactive : entry.active = false)
    (hdispatching : s.dispatching key = none) :
    Inv { s with tool := { s.tool with contextArray := s.tool.contextArray.erase key } } := by
  obtain ⟨indices, hbalanced⟩ := hI.balanced
  have hgone : (s.tool.contextArray.erase key)[key]? = none :=
    Std.TreeMap.getElem?_erase_self
  have htouches : Touches key s
      { s with tool := { s.tool with contextArray := s.tool.contextArray.erase key } } := by
    refine ⟨hI.running, rfl, fun i hne ↦ OrderedMap.getElem?_erase_of_ne _ hne, fun _ _ ↦ rfl,
      fun entry' hentry' ↦ ?_, fun hsome ↦ ?_, Nat.le_refl _⟩
    · cases hgone.symm.trans hentry'
    · have hsome : (s.dispatching key).isSome = true := hsome
      rw [hdispatching] at hsome
      cases hsome
  refine hI.touch htouches (hbalanced.keep htouches ?_ rfl rfl)
  rw [awaits, awaits, System.keeps, System.keeps]
  dsimp only
  rw [hgone, hentry, hdispatching, Option.any_none, Option.any_some, hactive]

/-- **The completion handler.** -/
theorem Inv.contextHandler {index : UInt32} (hI : Inv s)
    (hstep : Version1.step m s (.contextHandler index) = some t) (ht : t.stopped = none) :
    Inv t := by
  obtain ⟨-, hdispatching, rfl⟩ := of_step_contextHandler hstep
  obtain ⟨⟨⟩, tool, hexec, heq⟩ := System.exists_of_perform ht
  rw [heq]
  cases hentry : s.tool.contextArray[index]? with
  | none =>
    rw [contextHandler, exec_bind_ok (exec_get _), hentry] at hexec
    cases hexec
  | some entry =>
    rcases Collecting.of_exec_contextHandler hentry (hI.entries index entry hentry).1
      (hI.index_ne hentry) hexec with ⟨hactive, -, u, hclean, rfl⟩ | ⟨hactive, rfl⟩
    · refine hI.dumped hentry hactive hdispatching hclean
        (fun i hne ↦ OrderedMap.getElem?_erase_of_ne _ hne) (fun entry' hentry' ↦ ?_) rfl rfl
      have hgone : (u.contextArray.erase index)[index]? = none :=
        Std.TreeMap.getElem?_erase_self
      cases hgone.symm.trans hentry'
    · exact hI.erased hentry hactive hdispatching

/-- While all the entries are valid, no dispatch is between its two halves. -/
theorem Inv.dispatching_eq_none {keys : List UInt32} (hI : Inv s)
    (hvalid : Collecting.AllValid keys s.tool) (key : UInt32) : s.dispatching key = none := by
  cases hdispatching : s.dispatching key with
  | none => rfl
  | some callbackData =>
    obtain ⟨entry, hentry, hfalse⟩ := hI.dispatching key (by rw [hdispatching]; rfl)
    cases hfalse.symm.trans (hvalid.2 key entry hentry)

/-- **A round of the inner loop of `dump_context_array`.** -/
theorem Inv.dumpKey {queue : Option UInt64} {keys : List UInt32} {entry : ContextEntry} {ret : Bool}
    {u : Tool} (hI : Inv s) (hvalid : Collecting.AllValid keys s.tool)
    (hentry : s.tool.contextArray[key]? = some entry)
    (hexec : exec (Version1.dumpKey m queue key) s.tool = (.ok ret, u)) :
    Inv { s with tool := u } := by
  rcases Collecting.of_exec_dumpKey hentry (hI.index_ne hentry) hexec with
    ⟨-, -, rfl⟩ | ⟨htakes, ⟨-, -, rfl⟩ | ⟨-, -, v, hclean, rfl⟩⟩
  · exact hI
  · exact hI
  · rw [Bool.and_eq_true] at htakes
    refine hI.dumped hentry htakes.2 (hI.dispatching_eq_none hvalid key) hclean
      (fun i hne ↦ getElem?_writeEntry_of_ne _ hne) (fun entry' hentry' ↦ ?_) rfl rfl
    rw [getElem?_writeEntry_self] at hentry'
    cases hentry'
    exact ⟨rfl, rfl⟩

/-- **The inner loop**, entry by entry. -/
theorem Inv.dumpKeys {queue : Option UInt64} {keys : List UInt32} {ret : Bool} {u : Tool}
    (hI : Inv s) (hvalid : Collecting.AllValid keys s.tool)
    (hexec : exec (Version1.dumpKeys m queue keys) s.tool = (.ok ret, u)) :
    Inv { s with tool := u } := by
  induction keys generalizing s ret with
  | nil =>
    obtain ⟨-, rfl⟩ := Prod.mk.inj hexec
    exact hI
  | cons key keys ih =>
    rw [Version1.dumpKeys] at hexec
    obtain ⟨ret₁, v, hkey, hrest⟩ := exists_of_exec_bind hexec
    obtain ⟨ret₂, w, hkeys, hpure⟩ := exists_of_exec_bind hrest
    obtain ⟨-, rfl⟩ := Prod.mk.inj hpure
    obtain ⟨entry, hentry⟩ := hvalid.1 key List.mem_cons_self
    have hvalid' : Collecting.AllValid keys v := Collecting.AllValid.of_dumpKey
      ⟨fun i hi ↦ hvalid.1 i (List.mem_cons_of_mem key hi), hvalid.2⟩ hentry
      (hI.index_ne hentry) hkey
    have hI' : Inv { s with tool := v } := hI.dumpKey hvalid hentry hkey
    have hrest := ih hI' hvalid' hkeys
    exact hrest

/-- **A round of `dump_context_array`.** -/
theorem Inv.dumpContextArray {queue : Option UInt64} (hI : Inv s)
    (hstep : Version1.step m s (.dumpContextArray queue) = some t) (ht : t.stopped = none) :
    Inv t := by
  obtain ⟨hvalid, rfl⟩ := of_step_dumpContextArray hstep
  obtain ⟨ret, tool, hexec, heq⟩ := System.exists_of_perform ht
  rw [heq]
  rw [dumpContextArrayRound, exec_bind_ok (exec_get _)] at hexec
  refine hI.dumpKeys ⟨fun key hkey ↦ ?_, hvalid⟩ hexec
  exact Option.isSome_iff_exists.mp
    (Std.TreeMap.isSome_getElem?_iff_mem.mpr (Std.TreeMap.mem_keys.mp hkey))

/-! ## Steps -/

/-- **An event under the condition keeps the invariant.** -/
theorem inv_step {event : Event} (hI : Inv s) (hC : countsContext m s event = true)
    (h : step m s event = some t) : Inv t := by
  cases event with
  | dispatch callbackData =>
    rw [countsContext, Bool.and_eq_true, decide_eq_true_iff] at hC
    rcases of_step_dispatch h with ⟨hopens, -⟩ | ⟨-, rfl⟩
    · rw [hopens] at hC
      exact absurd hC.1 Bool.false_ne_true
    · exact hI.dispatch hC.2
  | fill index context currTime =>
    obtain ⟨hstep, ht⟩ := step_of_ne h (by simp)
    exact hI.fill hstep ht
  | dispatchOpt callbackData number context => cases hC
  | complete r written =>
    obtain ⟨hstep, -⟩ := step_of_ne h (by simp)
    obtain ⟨record, -, -, -, rfl⟩ := of_step_complete hstep
    obtain ⟨indices, hbalanced⟩ := hI.balanced
    exact ⟨hI.running, hI.fetched, hI.entries, hI.dispatching,
      indices, hbalanced.nodup, hbalanced.mem, hbalanced.count⟩
  | contextHandler index =>
    obtain ⟨hstep, ht⟩ := step_of_ne h (by simp)
    exact hI.contextHandler hstep ht
  | contextPoolHandler slot =>
    obtain ⟨hstep, -⟩ := step_of_ne h (by simp)
    have hfetched := (of_step_contextPoolHandler hstep).1
    cases (hI.fetched slot).symm.trans hfetched
  | dumpContextArray queue =>
    obtain ⟨hstep, ht⟩ := step_of_ne h (by simp)
    exact hI.dumpContextArray hstep ht

/-- The first counter starts again from zero. -/
theorem add_one_eq_zero {n : UInt32} (h : ¬n.toNat + 1 < 2 ^ 32) : n + 1 = 0 := by
  refine UInt32.toNat_inj.mp ?_
  have hlt := n.toNat_lt
  rw [UInt32.toNat_add]
  show (n.toNat + 1) % 2 ^ 32 = 0
  omega

/-- When it does, nothing can be outstanding. -/
theorem Accounts.awaits_eq_false (h : Accounts t) (hcount : t.tool.contextCount = 0)
    (place : Place) : awaits t place = false := by
  have hle := h.1
  rw [hcount] at hle
  have hcollected : t.tool.contextCollected = 0 := UInt32.le_antisymm hle UInt32.zero_le
  exact h.collected_eq_iff.mp (hcollected.trans hcount.symm) place

/-- A dispatch that does not pass the filter is counted, and there is no context for it. -/
theorem not_accounts_filtered {callbackData : CallbackData} (hI : Inv s) :
    ¬Accounts { s with tool := counted s callbackData } := by
  intro haccounts
  obtain ⟨indices, hbalanced⟩ := hI.balanced
  have hbalance := hbalanced.count
  have hawaits : ∀ place, awaits { s with tool := counted s callbackData } place
      = awaits s place := by
    intro place
    cases place with
    | entry index =>
      rw [awaits, awaits, System.keeps, System.keeps]
      dsimp only [counted]
      rw [contextArray_allocate]
    | slot slot => rfl
  by_cases hlt : s.tool.contextCount.toNat + 1 < 2 ^ 32
  · obtain ⟨hle, places, hnodup, hmem, hlength⟩ := haccounts
    have hsame : places.length = (indices.map Place.entry).length := by
      refine List.Perm.length_eq ?_
      refine (List.perm_ext_iff_of_nodup hnodup hbalanced.nodup_places).mpr fun place ↦ ?_
      rw [hmem, hawaits, hI.mem_places hbalanced]
    rw [UInt32.toNat_sub_of_le _ _ hle] at hlength
    dsimp only [counted] at hlength
    rw [contextCollected_allocate, toNat_add_one hlt, hsame, List.length_map] at hlength
    omega
  · have hnone : indices = [] := by
      refine List.eq_nil_iff_forall_not_mem.mpr fun index hindex ↦ ?_
      have hfalse := haccounts.awaits_eq_false (add_one_eq_zero hlt) (.entry index)
      rw [hawaits, (hbalanced.mem index).mp hindex] at hfalse
      cases hfalse
    have hle : s.tool.contextCollected ≤ s.tool.contextCount + 1 :=
      contextCollected_allocate s.tool callbackData.record ▸ haccounts.1
    rw [add_one_eq_zero hlt, UInt32.le_iff_toNat_le, UInt32.toNat_zero] at hle
    rw [hnone, List.length_nil] at hbalance
    omega

/-- `dispatch_callback_opt` does not count anything. -/
theorem stays_dispatchCallbackOpt (m : Machine) (callbackData : CallbackData) (number context : ℕ)
    (s : Tool) :
    Collecting.Stays s (after (dispatchCallbackOpt m callbackData number context) s) :=
  after_dispatchCallbackOpt (fun _ _ ↦ ⟨rfl, rfl, rfl⟩)
    (fun _ ↦ meets_modify fun _ ↦ ⟨rfl, rfl, rfl⟩) (fun _ _ ↦ ⟨rfl, rfl, rfl⟩) m callbackData
    number context s

/-- A dispatch of the optimised mode has a context, and is not counted. -/
theorem not_accounts_dispatchOpt {callbackData : CallbackData} {number context : ℕ} (hI : Inv s)
    (hstep : Version1.step m s (.dispatchOpt callbackData number context) = some t)
    (ht : t.stopped = none) : ¬Accounts t := by
  rintro ⟨hle, places, hnodup, hmem, hlength⟩
  obtain ⟨indices, hbalanced⟩ := hI.balanced
  have hbalance := hbalanced.count
  obtain ⟨-, rfl⟩ := Version1.of_step_dispatchOpt hstep
  obtain ⟨slot, tool, hexec, heq⟩ := System.exists_of_perform ht
  rw [heq] at hle hmem hlength
  have hstays := stays_dispatchCallbackOpt m callbackData number context
    (s.tool.allocate callbackData.record)
  rw [after, hexec] at hstays
  have hcount := hstays.contextCount.trans (contextCount_allocate s.tool callbackData.record)
  have hcollected :=
    hstays.contextCollected.trans (contextCollected_allocate s.tool callbackData.record)
  obtain ⟨gpuId, i, payload, u, -, -, htakes, -, -, rfl⟩ := exists_of_dispatchCallbackOpt hexec
  -- all the places from before, and the new one
  have hsub : .slot slot :: indices.map Place.entry ⊆ places := by
    intro place hplace
    rw [hmem]
    rcases List.mem_cons.mp hplace with rfl | hplace
    · exact Function.update_self slot true s.fetched
    · obtain ⟨index, hindex, rfl⟩ := List.mem_map.mp hplace
      rw [← (hbalanced.mem index).mp hindex, awaits, awaits, System.keeps, System.keeps]
      dsimp only
      rw [htakes.contextArray, contextArray_allocate]
  have hnew : (.slot slot :: indices.map Place.entry).Nodup := by
    refine List.nodup_cons.mpr ⟨fun hmem ↦ ?_, hbalanced.nodup_places⟩
    obtain ⟨index, -, heq⟩ := List.mem_map.mp hmem
    cases heq
  have hlonger := (hnew.subperm hsub).length_le
  rw [List.length_cons, List.length_map] at hlonger
  rw [UInt32.toNat_sub_of_le _ _ hle] at hlength
  dsimp only at hlength hcount hcollected
  rw [hcount, hcollected] at hlength
  omega

/-- **A state that is accounted for is reached by an event under the condition.** -/
theorem countsContext_of_accounts {event : Event} (hI : Inv s) (h : step m s event = some t)
    (haccounts : Accounts t) : countsContext m s event = true := by
  cases event with
  | dispatch callbackData =>
    rw [countsContext, Bool.and_eq_true, decide_eq_true_iff]
    rcases of_step_dispatch h with ⟨-, rfl⟩ | ⟨hopens, rfl⟩
    · exact absurd haccounts (not_accounts_filtered hI)
    · rw [hopens]
      refine ⟨rfl, ?_⟩
      by_contra hlt
      have hfalse := haccounts.awaits_eq_false (add_one_eq_zero hlt) (.entry s.tool.contextCount)
      rw [awaits] at hfalse
      dsimp only at hfalse
      rw [UMap.assign_self] at hfalse
      cases hfalse
  | dispatchOpt callbackData number context =>
    obtain ⟨hstep, ht⟩ := step_of_ne h (by simp)
    exact absurd haccounts (not_accounts_dispatchOpt hI hstep ht)
  | _ => rfl

theorem inv_start (symbols : UMap UInt64 Symbol) : Inv (.start symbols) := by
  have hentry : ∀ key : UInt32, (System.start symbols).tool.contextArray[key]? = none :=
    fun _ ↦ Std.TreeMap.getElem?_emptyc
  refine ⟨rfl, fun _ ↦ rfl, fun key entry h ↦ ?_, fun key h ↦ (by cases h), [], List.nodup_nil,
    fun index ↦ ?_, rfl⟩
  · cases (hentry key).symm.trans h
  · rw [awaits, System.keeps, hentry]
    exact iff_of_false List.not_mem_nil Bool.false_ne_true

/-- **When the counters account for the contexts**, in every state of a run of dispatches through
either callback, completions and dumps: when each dispatch goes through `dispatch_callback`, passes
the filter, and is not the last one that can be counted. -/
theorem everywhere_accounts_iff {symbols : UMap UInt64 Symbol} {events : List Event}
    (h : run (step m) (.start symbols) events = some t) :
    Everywhere (step m) (.start symbols) Accounts events ↔
      Along (step m) (.start symbols) (fun s event ↦ countsContext m s event = true) events :=
  everywhere_iff_along_of_invariant (inv_start symbols) (fun _ _ _ hI hC ht ↦ inv_step hI hC ht)
    (fun _ hI ↦ hI.accounts) (fun _ _ _ hI ht hP ↦ countsContext_of_accounts hI ht hP) h

/-- One kernel, from its dispatch to its completion handler. -/
def oneKernel : List Event :=
  [.dispatch (axpy true), .fill 0 7 42, .complete 0 ⟨1, 2, 3, 4⟩, .contextHandler 0]

theorem accounts_oneKernel :
    Everywhere (step oneCounter) (.start axpySymbols) Accounts oneKernel := by
  have hsome : (run (step oneCounter) (.start axpySymbols) oneKernel).isSome = true := by
    decide +kernel
  obtain ⟨t, hrun⟩ := Option.isSome_iff_exists.mp hsome
  exact (everywhere_accounts_iff hrun).mpr (along_of_checkAlong (by decide +kernel))

/-- A machine that profiles the kernels with another name only. -/
def gemmOnly : Machine :=
  { oneCounter with
    toolData := { oneCounter.toolData with
      filterOn := true
      kernelString := some ["gemm".toList] } }

/-- **A dispatch that is not profiled stays outstanding**, and one of the optimised mode is
collected without having been counted. -/
theorem not_accounts :
    ¬Everywhere (step gemmOnly) (.start axpySymbols) Accounts [.dispatch (axpy true)] ∧
      ¬Everywhere (step oneCounter) (.start axpySymbols) Accounts
        [.dispatchOpt (axpy false) 0 7, .complete 0 ⟨1, 2, 3, 4⟩, .contextPoolHandler (0, 0)] := by
  refine ⟨fun hall ↦ ?_, fun hall ↦ ?_⟩
  · have hlast : Accounts { System.start axpySymbols with
        tool := counted (.start axpySymbols) (axpy true) } :=
      hall _ _ (List.prefix_refl _) rfl
    exact not_accounts_filtered (inv_start axpySymbols) hlast
  · have hrun : run (step oneCounter) (.start axpySymbols)
        [.dispatchOpt (axpy false) 0 7, .complete 0 ⟨1, 2, 3, 4⟩, .contextPoolHandler (0, 0)]
          = some _ := rfl
    exact absurd (hall _ _ (List.prefix_refl _) hrun).1 (by decide)

end Version1.Outstanding
