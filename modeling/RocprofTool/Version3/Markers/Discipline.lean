import RocprofTool.Version3.Markers.Callbacks

/-!
# What is on the stack of a thread

`kernel_rename_callback` pushes an entry when a thread range is entered and pops one when it is
left, so that the kernels in between are renamed after the range, and those outside of all ranges
are not renamed.  For this the entry that is popped has to be the one that the range has pushed.

It also pushes an entry for a mark, and nothing ever pops that; and it pushes none for a range
without a message, which pops one all the same.  `disciplined_iff` says that these are the only
exceptions.
-/

set_option autoImplicit false

open Runs Nesting Version3.Correlation

namespace Version3.Markers

variable {μ : Type}

/-- `kernel_rename_callback` for one event. -/
def renameStep (metadata : Metadata μ) (s : State μ) (record : Record) : Option (State μ) :=
  (kernelRenameCallback metadata record s).toOption

/-- A thread range is entered. -/
def Record.entersRange (record : Record) : Bool :=
  record.kind = .markerCoreRangeApi && record.operation = .roctxThreadRangeA &&
    record.phase = .enter

/-- A mark with a message. -/
def Record.isMark (record : Record) : Bool :=
  record.kind = .markerCoreRangeApi && record.operation = .roctxMarkA && record.phase = .exit &&
    record.message.isSome

/-- Neither the beginning nor the end of a thread range. -/
def Outside (record : Record) : Prop := record.entersRange = false ∧ record.pops = false

/-- The beginning and the end of a thread range. -/
def IsRange (enter leave : Record) : Prop := enter.entersRange = true ∧ leave.pops = true

/-- The thread ranges are well nested, and the other events are anywhere. -/
def WellNestedRanges (records : List Record) : Prop := WellNested Outside IsRange records

/-- From this state, a range pushes an entry when it is entered, the events inside of it leave this
entry and those below it in place, and it is what is removed when the range is left. -/
def RemovesOwn (metadata : Metadata μ) (s : State μ) (enter : Record) (body : List Record)
    (leave : Record) : Prop :=
  ∃ region stack s₁ s₂ s₃, s.threadDispatchRename = some stack ∧
    renameStep metadata s enter = some s₁ ∧
    s₁.threadDispatchRename = some (region :: stack) ∧
    (∀ xs t, xs <+: body → run (renameStep metadata) s₁ xs = some t →
      ∃ above, t.threadDispatchRename = some (above ++ region :: stack)) ∧
    run (renameStep metadata) s₁ body = some s₂ ∧
    s₂.threadDispatchRename = some (region :: stack) ∧
    renameStep metadata s₂ leave = some s₃ ∧
    s₃.threadDispatchRename = some stack

/-- The region that a kernel gets that is dispatched now. -/
def kernelRegion (metadata : Metadata μ) (s : State μ) (stream : Option UInt64) : UInt64 :=
  (setKernelRenameAndStreamCorrelationId metadata .kernelDispatch s.threadDispatchRename stream
    s.toolMetadata).1.elim 0 KernelRenameAndStreamData.regionId

/-- The discipline of the stack, for a thread with these events. -/
structure Disciplined (metadata : Metadata μ) (toolMetadata : μ) (records : List Record) :
    Prop where
  /-- Each range removes the entry that it has pushed. -/
  ranges : ∀ pre enter body leave post, records = pre ++ (enter :: (body ++ leave :: post)) →
    IsRange enter leave → WellNestedRanges body →
    ∃ s, run (renameStep metadata) (State.start toolMetadata) pre = some s ∧
      RemovesOwn metadata s enter body leave
  /-- The stack after a well-nested segment is the stack before it. -/
  segments : ∀ pre segment post, records = pre ++ (segment ++ post) → WellNestedRanges segment →
    ∃ s t, run (renameStep metadata) (State.start toolMetadata) pre = some s ∧
      run (renameStep metadata) s segment = some t ∧
      t.threadDispatchRename = s.threadDispatchRename
  /-- A kernel that is dispatched while no range is open is not renamed. -/
  kernels : ∀ pre post stream, records = pre ++ post → WellNestedRanges pre →
    ∃ s, run (renameStep metadata) (State.start toolMetadata) pre = some s ∧
      kernelRegion metadata s stream = 0

/-- No marks, and no ranges without a message. -/
def Named (records : List Record) : Prop :=
  ∀ record ∈ records, record.isMark = false ∧
    (record.entersRange = true → record.message.isSome = true)

/-! ## What is pushed and popped -/

variable {metadata : Metadata μ} {s t : State μ} {record : Record} {records : List Record}

theorem pushes_eq (record : Record) :
    record.pushes = (record.isMark || (record.entersRange && record.message.isSome)) := by
  rcases record with ⟨kind, operation, phase, threadId, correlationId, message, userData, ts⟩
  rcases message with _ | message <;> simp only [Record.pushes, Record.isMark, Record.entersRange,
    Option.isSome_none, Option.isSome_some, Bool.and_false, Bool.false_and, Bool.and_true,
    Bool.or_false, Bool.and_assoc, Bool.and_or_distrib_left]

theorem not_pops_of_entersRange (h : record.entersRange = true) : record.pops = false := by
  simp only [Record.entersRange, Bool.and_eq_true, decide_eq_true_eq] at h
  simp [Record.pops, h]

theorem not_isMark_of_entersRange (h : record.entersRange = true) : record.isMark = false := by
  simp only [Record.entersRange, Bool.and_eq_true, decide_eq_true_eq] at h
  simp [Record.isMark, h]

theorem outside_of_isMark (h : record.isMark = true) : Outside record := by
  simp only [Record.isMark, Bool.and_eq_true, decide_eq_true_eq] at h
  simp [Outside, Record.entersRange, Record.pops, h]

theorem renameStep_of_pushes (metadata : Metadata μ) (h : record.pushes = true)
    {stack : List UInt64} (hs : s.threadDispatchRename = some stack) :
    ∃ region t, renameStep metadata s record = some t ∧
      t.threadDispatchRename = some (region :: stack) := by
  obtain ⟨region, t, ht, hstack⟩ := kernelRenameCallback_of_pushes h hs
  exact ⟨region, t, by rw [renameStep, ht]; rfl, hstack⟩

theorem renameStep_of_neither (hpush : record.pushes = false) (hpop : record.pops = false) :
    renameStep metadata s record = some s := by
  rw [renameStep, kernelRenameCallback_of_neither hpush hpop]
  rfl

theorem renameStep_of_null (hs : s.threadDispatchRename = none) :
    renameStep metadata s record = some s := by
  rw [renameStep, kernelRenameCallback]
  simp only [hs]
  rfl

theorem renameStep_of_pops (h : record.pops = true) {region : UInt64} {stack : List UInt64}
    (hs : s.threadDispatchRename = some (region :: stack)) :
    renameStep metadata s record = some { s with threadDispatchRename := some stack } := by
  rw [renameStep, kernelRenameCallback_of_pops h hs]
  rfl

/-- A thread keeps its stack. -/
theorem isSome_of_renameStep (h : renameStep metadata s record = some t)
    (hs : s.threadDispatchRename.isSome = true) : t.threadDispatchRename.isSome = true := by
  obtain ⟨stack, hstack⟩ := Option.isSome_iff_exists.mp hs
  rcases hpop : record.pops with _ | _
  · rcases hpush : record.pushes with _ | _
    · rw [renameStep_of_neither hpush hpop] at h
      cases h
      exact hs
    · obtain ⟨region, t', ht', hstack'⟩ := renameStep_of_pushes metadata hpush hstack
      rw [h] at ht'
      cases ht'
      rw [hstack']
      rfl
  · rcases stack with _ | ⟨region, stack⟩
    · rw [renameStep, kernelRenameCallback_of_pops_nil hpop hstack] at h
      cases h
    · rw [renameStep_of_pops hpop hstack] at h
      cases h
      rfl

theorem exists_stack_of_run {toolMetadata : μ}
    (h : run (renameStep metadata) (State.start toolMetadata) records = some s) :
    ∃ stack, s.threadDispatchRename = some stack :=
  Option.isSome_iff_exists.mp (run_invariant (I := fun s ↦ s.threadDispatchRename.isSome = true)
    rfl (fun _ _ _ hs ht ↦ isSome_of_renameStep ht hs) h)

/-- A kernel gets the region on top of the stack. -/
theorem kernelRegion_eq (metadata : Metadata μ) (s : State μ) (stream : Option UInt64) :
    kernelRegion metadata s stream = regionOf .kernelDispatch s.threadDispatchRename := by
  rw [kernelRegion]
  rcases hset : (setKernelRenameAndStreamCorrelationId metadata .kernelDispatch
    s.threadDispatchRename stream s.toolMetadata).1 with _ | info
  · exact (regionOf_of_set_eq_none hset).1.symm
  · rw [set_eq_some hset]
    rfl

/-! ## Named ranges -/

/-- The stack has only grown. -/
def OnTop (x y : Option (List UInt64)) : Prop :=
  ∀ stack, x = some stack → ∃ above, y = some (above ++ stack)

instance : Std.Refl OnTop := ⟨fun _ _ h ↦ ⟨[], h⟩⟩

instance : IsTrans (Option (List UInt64)) OnTop where
  trans x y z hxy hyz stack hx := by
    obtain ⟨above, hy⟩ := hxy stack hx
    obtain ⟨above', hz⟩ := hyz _ hy
    exact ⟨above' ++ above, by rw [hz, List.append_assoc]⟩

/-- Outside of the ranges nothing is pushed. -/
theorem Named.plain (h : Named records) (metadata : Metadata μ) :
    ∀ record ∈ records, Outside record → ∀ s : State μ, ∃ t,
      renameStep metadata s record = some t ∧ t.threadDispatchRename = s.threadDispatchRename := by
  intro record hrecord hout s
  have hpush : record.pushes = false := by
    rw [pushes_eq, (h record hrecord).1, hout.1]
    rfl
  exact ⟨s, renameStep_of_neither hpush hout.2, rfl⟩

/-- A range pushes one entry and pops one. -/
theorem Named.pair (h : Named records) (metadata : Metadata μ) :
    ∀ enter ∈ records, ∀ leave ∈ records, IsRange enter leave → ∀ s : State μ, ∃ t,
      renameStep metadata s enter = some t ∧
      OnTop s.threadDispatchRename t.threadDispatchRename ∧
      ∀ u : State μ, u.threadDispatchRename = t.threadDispatchRename → ∃ v,
        renameStep metadata u leave = some v ∧
        v.threadDispatchRename = s.threadDispatchRename := by
  intro enter henter leave _ hrange s
  have hpush : enter.pushes = true := by
    rw [pushes_eq, hrange.1, (h enter henter).2 hrange.1, Bool.true_and, Bool.or_true]
  rcases hs : s.threadDispatchRename with _ | stack
  · refine ⟨s, renameStep_of_null hs, by rw [hs]; exact refl_of OnTop _, fun u hu ↦ ?_⟩
    rw [hs] at hu
    exact ⟨u, renameStep_of_null hu, hu⟩
  · obtain ⟨region, t, ht, hstack⟩ := renameStep_of_pushes metadata hpush hs
    refine ⟨t, ht, ?_, fun u hu ↦ ?_⟩
    · rintro _ ⟨⟩
      exact ⟨[region], hstack⟩
    · rw [hstack] at hu
      exact ⟨_, renameStep_of_pops hrange.2 hu, rfl⟩

theorem Named.of_subset (h : Named records) {segment : List Record} (hsub : segment ⊆ records) :
    Named segment :=
  fun record hrecord ↦ h record (hsub hrecord)

/-- **A well-nested segment of named ranges** runs, and leaves the stack as it was. -/
theorem Named.run_segment (h : Named records) (hnested : WellNestedRanges records)
    (metadata : Metadata μ) (s : State μ) :
    ∃ t, run (renameStep metadata) s records = some t ∧
      t.threadDispatchRename = s.threadDispatchRename := by
  refine hnested.run_view (h.plain metadata) (fun enter henter leave hleave hrange u ↦ ?_) s
  obtain ⟨t, ht, -, hback⟩ := h.pair metadata enter henter leave hleave hrange u
  exact ⟨t, ht, hback⟩

/-- **A named range** removes its own entry. -/
theorem Named.removesOwn {enter leave : Record} {body : List Record}
    (h : Named (enter :: (body ++ [leave]))) (hrange : IsRange enter leave)
    (hbody : WellNestedRanges body) (metadata : Metadata μ) {stack : List UInt64}
    (hs : s.threadDispatchRename = some stack) : RemovesOwn metadata s enter body leave := by
  have hnamed : Named body := h.of_subset fun record hrecord ↦ by simp [hrecord]
  have hpush : enter.pushes = true := by
    rw [pushes_eq, hrange.1, (h enter List.mem_cons_self).2 hrange.1, Bool.true_and, Bool.or_true]
  obtain ⟨region, s₁, hs₁, hstack₁⟩ := renameStep_of_pushes metadata hpush hs
  obtain ⟨s₂, hs₂, hstack₂⟩ := hnamed.run_segment hbody metadata s₁
  rw [hstack₁] at hstack₂
  refine ⟨region, stack, s₁, s₂, _, hs, hs₁, hstack₁, fun xs t hxs ht ↦ ?_, hs₂, hstack₂,
    renameStep_of_pops hrange.2 hstack₂, rfl⟩
  exact hbody.run_floor (R := OnTop) (hnamed.plain metadata) (hnamed.pair metadata) hxs ht _ hstack₁

/-- **Exactly when the discipline of the stack holds**: when there are no marks with a message, and
every thread range has one. -/
theorem disciplined_iff (metadata : Metadata μ) (toolMetadata : μ) {records : List Record}
    (hnested : WellNestedRanges records) :
    Disciplined metadata toolMetadata records ↔ Named records := by
  constructor
  · intro h record hrecord
    refine ⟨?_, fun henters ↦ ?_⟩
    · by_contra hmark
      rw [Bool.not_eq_false] at hmark
      obtain ⟨pre, post, rfl⟩ := List.append_of_mem hrecord
      obtain ⟨s, t, hs, ht, heq⟩ := h.segments pre [record] post rfl
        (wellNested_singleton (outside_of_isMark hmark))
      obtain ⟨stack, hstack⟩ := exists_stack_of_run hs
      have hpush : record.pushes = true := by
        rw [pushes_eq, hmark, Bool.true_or]
      obtain ⟨region, t', ht', hstack'⟩ := renameStep_of_pushes metadata hpush hstack
      rw [run_cons, ht', Option.bind_some, run_nil] at ht
      cases ht
      rw [hstack', hstack] at heq
      simp at heq
    · by_contra hmessage
      rw [Bool.not_eq_true] at hmessage
      obtain ⟨pre, body, leave, post, rfl, hrange, hbody⟩ :=
        hnested.exists_pair hrecord (fun hout ↦ by simp [hout.1] at henters)
          (fun enter hrange ↦ by simp [not_pops_of_entersRange henters, IsRange] at hrange)
      obtain ⟨s, -, region, stack, s₁, s₂, s₃, hs, hs₁, hstack₁, -⟩ :=
        h.ranges pre record body leave post rfl hrange hbody
      have hpush : record.pushes = false := by
        rw [pushes_eq, not_isMark_of_entersRange henters, hmessage, Bool.and_false, Bool.or_false]
      rw [renameStep_of_neither hpush (not_pops_of_entersRange henters)] at hs₁
      cases hs₁
      rw [hs] at hstack₁
      simp at hstack₁
  · intro h
    obtain ⟨last, hlast, -⟩ := h.run_segment hnested metadata (State.start toolMetadata)
    have hprefix : ∀ pre, pre <+: records →
        ∃ s, run (renameStep metadata) (State.start toolMetadata) pre = some s :=
      fun pre hpre ↦ exists_run_of_prefix hpre hlast
    refine ⟨?_, ?_, ?_⟩
    · rintro pre enter body leave post rfl hrange hbody
      obtain ⟨s, hs⟩ := hprefix pre (List.prefix_append _ _)
      obtain ⟨stack, hstack⟩ := exists_stack_of_run hs
      have hsub : Named (enter :: (body ++ [leave])) := h.of_subset fun record hrecord ↦ by
        simp at hrecord ⊢
        tauto
      exact ⟨s, hs, hsub.removesOwn hrange hbody metadata hstack⟩
    · rintro pre segment post rfl hsegment
      obtain ⟨s, hs⟩ := hprefix pre (List.prefix_append _ _)
      have hsub : Named segment := h.of_subset fun record hrecord ↦ by simp [hrecord]
      obtain ⟨t, ht, heq⟩ := hsub.run_segment hsegment metadata s
      exact ⟨s, t, hs, ht, heq⟩
    · rintro pre post stream rfl hpre
      have hsub : Named pre := h.of_subset fun record hrecord ↦ by simp [hrecord]
      obtain ⟨s, hs, heq⟩ := hsub.run_segment hpre metadata (State.start toolMetadata)
      refine ⟨s, hs, ?_⟩
      rw [kernelRegion_eq, heq]
      rfl

/-! ## A mark in a range -/

/-- The events of a call. -/
def callRecords (operation : Operation) (internal : UInt64) (message : List Char)
    (body : List Record) : List Record :=
  { operation, phase := .enter, correlationId := ⟨internal, 0⟩, message := some message } ::
    (body ++
      [{ operation, phase := .exit, correlationId := ⟨internal, 0⟩, message := some message }])

/-- In the range `"solve"`, region `1`, there is a mark `"converged"`, region `2`. -/
def markInRange : List Record :=
  callRecords .roctxThreadRangeA 1 "solve".toList
    (callRecords .roctxMarkA 2 "converged".toList [])

theorem wellNested_markInRange : WellNestedRanges markInRange :=
  wellNested_pair ⟨rfl, rfl⟩ (.plain ⟨rfl, rfl⟩ (.plain ⟨rfl, rfl⟩ .nil))

/-- **The range removes the mark**, and the kernels after it are renamed after the range. -/
theorem mark_in_range_stays :
    WellNestedRanges markInRange ∧
      (∃ s, run (renameStep renameById) (State.start ()) markInRange = some s ∧
        s.threadDispatchRename = some [1] ∧ kernelRegion renameById s none = 1) ∧
      ¬Disciplined renameById () markInRange := by
  refine ⟨wellNested_markInRange, ⟨_, rfl, rfl, rfl⟩, fun h ↦ ?_⟩
  obtain ⟨s, hs, hregion⟩ := h.kernels markInRange [] none (by simp) wellNested_markInRange
  cases hs
  exact absurd hregion (by decide)

/-- Nested ranges, each with a message. -/
theorem disciplined_iff_nestedRanges :
    Disciplined renameById ()
        (callRecords .roctxThreadRangeA 1 "solve".toList
          (callRecords .roctxThreadRangeA 2 "iterate".toList [])) ↔
      Named (callRecords .roctxThreadRangeA 1 "solve".toList
        (callRecords .roctxThreadRangeA 2 "iterate".toList [])) :=
  disciplined_iff renameById () (wellNested_pair ⟨rfl, rfl⟩ (wellNested_pair ⟨rfl, rfl⟩ .nil))

end Version3.Markers
