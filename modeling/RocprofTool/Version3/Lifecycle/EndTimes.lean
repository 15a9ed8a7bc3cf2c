import RocprofTool.Lib.Runs

/-!
# When a cycle ends

`process_end_ns` of `tool_metadata` is the end of what the output is about.  A tool that is attached
to a process has to set it for every cycle: `tool_detach` says so in a comment, and `tool_fini` does
it for the last one.  Both read the clock only as long as `process_end_ns` is zero, and so does
`rocprofv3_main` when the main function has returned; `tool_attach` does not set it back to zero.

So the end of the first cycle is the end of all of them, and lies before a later one has begun
(`endsAfterAttach_iff`).

The clock is strictly increasing, and each call reads it once.  What the calls do besides is left
out, and so is a `tool_attach` that ends the program because the configuration has changed.
-/

set_option autoImplicit false

open Runs

namespace Version3.Lifecycle.EndTimes

/-- The field of `tool::metadata` that this is about; `set_process_id` does not write it. -/
structure Metadata where
  processEndNs : UInt64 := 0
  deriving DecidableEq, Repr

/-- A call of `generate_output`: when `tool_attach` was last called before it, if ever, and the end
of the process in the output. -/
structure Output where
  attachedAt : Option UInt64
  processEndNs : UInt64
  deriving DecidableEq, Repr

/-- The tool, the clock and the outputs so far.  `tool_metadata` is a pointer and may be null. -/
structure System where
  toolMetadata : Option Metadata := some {}
  first : Bool := true
  now : UInt64 := 0
  attachedAt : Option UInt64 := none
  outputs : List Output := []
  deriving DecidableEq, Repr

/-- The calls, with the times at which they read the clock. -/
inductive Event
  | attach (ts : UInt64)
  | detach (ts : UInt64)
  | fini (ts : UInt64)
  /-- The main function returns to `rocprofv3_main`. -/
  | mainReturned (ts : UInt64)
  deriving DecidableEq, Repr

/-- The time of a call. -/
def Event.ts : Event → UInt64
  | .attach ts | .detach ts | .fini ts | .mainReturned ts => ts

/-- Set `process_end_ns`, if it is not set yet. -/
def Metadata.setProcessEnd (metadata : Metadata) (ts : UInt64) : Metadata :=
  if metadata.processEndNs = 0 then { metadata with processEndNs := ts } else metadata

/-- `generate_output`, with this in `tool_metadata`. -/
def System.generateOutput (s : System) (metadata : Metadata) : System :=
  { s with
    toolMetadata := some metadata
    outputs := s.outputs ++ [⟨s.attachedAt, metadata.processEndNs⟩] }

/-- `tool_attach`; it does not work without `tool_metadata`. -/
def toolAttach (ts : UInt64) (s : System) : Option System :=
  s.toolMetadata.map fun _ ↦ { s with attachedAt := some ts }

/-- `tool_detach`; it does not work without `tool_metadata` either. -/
def toolDetach (ts : UInt64) (s : System) : Option System :=
  s.toolMetadata.map fun metadata ↦ s.generateOutput (metadata.setProcessEnd ts)

/-- `tool_fini`, which deletes `tool_metadata` at its end. -/
def toolFini (ts : UInt64) (s : System) : Option System :=
  if s.first then
    s.toolMetadata.map fun metadata ↦
      { s.generateOutput (metadata.setProcessEnd ts) with first := false, toolMetadata := none }
  else some s

/-- What `rocprofv3_main` does when the main function has returned. -/
def mainReturned (ts : UInt64) (s : System) : System :=
  { s with toolMetadata := s.toolMetadata.map fun metadata ↦ metadata.setProcessEnd ts }

/-- One call, at a later time than those before. -/
def step (s : System) (event : Event) : Option System :=
  if s.now < event.ts then
    let s := { s with now := event.ts }
    match event with
    | .attach ts => toolAttach ts s
    | .detach ts => toolDetach ts s
    | .fini ts => toolFini ts s
    | .mainReturned ts => some (mainReturned ts s)
  else none

/-! ## The property -/

/-- In every output, the end is after the `tool_attach` of its cycle. -/
def EndsAfterAttach (s : System) : Prop :=
  ∀ output ∈ s.outputs, ∀ ts, output.attachedAt = some ts → ts < output.processEndNs

/-- The condition on a call: `tool_attach` is called as long as no end of the process is set. -/
def attachesBeforeEnd (s : System) : Event → Bool
  | .attach _ => s.toolMetadata.all fun metadata ↦ metadata.processEndNs == 0
  | _ => true

/-! ## The clock -/

/-- The times are not in the future, and `tool_metadata` is there until `tool_fini` is called. -/
structure Inv (s : System) : Prop where
  attached : ∀ ts, s.attachedAt = some ts → ts ≤ s.now
  ended : ∀ metadata, s.toolMetadata = some metadata → metadata.processEndNs ≤ s.now
  first : ∀ metadata, s.toolMetadata = some metadata → s.first = true

variable {s t : System} {metadata : Metadata} {ts : UInt64}

theorem setProcessEnd_le {now : UInt64} (h : metadata.processEndNs ≤ now) (hts : now < ts) :
    (metadata.setProcessEnd ts).processEndNs ≤ ts := by
  rw [Metadata.setProcessEnd]
  split_ifs
  · exact UInt64.le_refl ts
  · exact UInt64.le_trans h (UInt64.le_of_lt hts)

/-- **What a call does.**  `tool_fini` does something the first time only; the others that need
`tool_metadata` have it. -/
theorem of_step {event : Event} (h : step s event = some t) :
    s.now < event.ts ∧
      ((∃ ts metadata, event = .attach ts ∧ s.toolMetadata = some metadata ∧
          t = { s with now := ts, attachedAt := some ts }) ∨
        (∃ ts metadata, event = .detach ts ∧ s.toolMetadata = some metadata ∧
          t = { s with now := ts }.generateOutput (metadata.setProcessEnd ts)) ∨
        (∃ ts metadata, event = .fini ts ∧ s.first = true ∧ s.toolMetadata = some metadata ∧
          t = { { s with now := ts }.generateOutput (metadata.setProcessEnd ts) with
            first := false, toolMetadata := none }) ∨
        (∃ ts, event = .fini ts ∧ s.first = false ∧ t = { s with now := ts }) ∨
        ∃ ts, event = .mainReturned ts ∧ t = { s with
          now := ts
          toolMetadata := s.toolMetadata.map fun metadata ↦ metadata.setProcessEnd ts }) := by
  obtain ⟨hnow, h⟩ := Option.ite_none_right_eq_some.mp h
  refine ⟨hnow, ?_⟩
  cases event with
  | attach ts =>
    obtain ⟨metadata, hmetadata, rfl⟩ := Option.map_eq_some_iff.mp h
    exact .inl ⟨ts, metadata, rfl, hmetadata, rfl⟩
  | detach ts =>
    obtain ⟨metadata, hmetadata, rfl⟩ := Option.map_eq_some_iff.mp h
    exact .inr (.inl ⟨ts, metadata, rfl, hmetadata, rfl⟩)
  | fini ts =>
    dsimp only [toolFini] at h
    split_ifs at h with hfirst
    · obtain ⟨metadata, hmetadata, rfl⟩ := Option.map_eq_some_iff.mp h
      exact .inr (.inr (.inl ⟨ts, metadata, rfl, hfirst, hmetadata, rfl⟩))
    · obtain rfl := Option.some.inj h
      exact .inr (.inr (.inr (.inl ⟨ts, rfl, eq_false_of_ne_true hfirst, rfl⟩)))
  | mainReturned ts =>
    obtain rfl := Option.some.inj h
    exact .inr (.inr (.inr (.inr ⟨ts, rfl, rfl⟩)))

theorem inv_step {event : Event} (hI : Inv s) (h : step s event = some t) : Inv t := by
  obtain ⟨hnow, hcases⟩ := of_step h
  have hlater : ∀ {ts : UInt64}, ts ≤ s.now → ts ≤ event.ts :=
    fun hle ↦ UInt64.le_trans hle (UInt64.le_of_lt hnow)
  obtain ⟨ts, metadata, rfl, hmetadata, rfl⟩ | ⟨ts, metadata, rfl, hmetadata, rfl⟩ |
    ⟨ts, metadata, rfl, -, hmetadata, rfl⟩ | ⟨ts, rfl, -, rfl⟩ | ⟨ts, rfl, rfl⟩ := hcases
  · refine ⟨fun ts' hts' ↦ ?_, fun metadata' h' ↦ hlater (hI.ended metadata' h'), hI.first⟩
    rw [← Option.some.inj hts']
    exact UInt64.le_refl ts
  · refine ⟨fun ts' hts' ↦ hlater (hI.attached ts' hts'), fun metadata' h' ↦ ?_,
      fun _ _ ↦ hI.first metadata hmetadata⟩
    rw [← Option.some.inj h']
    exact setProcessEnd_le (hI.ended metadata hmetadata) hnow
  · exact ⟨fun ts' hts' ↦ hlater (hI.attached ts' hts'), fun metadata' h' ↦ (by cases h'),
      fun metadata' h' ↦ (by cases h')⟩
  · exact ⟨fun ts' hts' ↦ hlater (hI.attached ts' hts'),
      fun metadata' h' ↦ hlater (hI.ended metadata' h'), hI.first⟩
  · refine ⟨fun ts' hts' ↦ hlater (hI.attached ts' hts'), fun metadata' h' ↦ ?_,
      fun metadata' h' ↦ ?_⟩
    · obtain ⟨metadata, hmetadata, rfl⟩ := Option.map_eq_some_iff.mp h'
      exact setProcessEnd_le (hI.ended metadata hmetadata) hnow
    · obtain ⟨metadata, hmetadata, -⟩ := Option.map_eq_some_iff.mp h'
      exact hI.first metadata hmetadata

/-! ## While `tool_attach` comes before the end -/

/-- No end is set, or it is after the last `tool_attach`; so it is in all of the outputs. -/
structure Fresh (s : System) : Prop where
  inv : Inv s
  current : ∀ metadata ts, s.toolMetadata = some metadata → s.attachedAt = some ts →
    metadata.processEndNs ≠ 0 → ts < metadata.processEndNs
  outputs : EndsAfterAttach s

/-- The end that `tool_detach` and `tool_fini` put into the output. -/
theorem Fresh.lt_setProcessEnd (h : Fresh s) (hmetadata : s.toolMetadata = some metadata)
    (hnow : s.now < ts) {ts' : UInt64} (hts' : s.attachedAt = some ts') :
    ts' < (metadata.setProcessEnd ts).processEndNs := by
  rw [Metadata.setProcessEnd]
  split_ifs with hzero
  · exact UInt64.lt_of_le_of_lt (h.inv.attached ts' hts') hnow
  · exact h.current metadata ts' hmetadata hts' hzero

theorem Fresh.generateOutput (h : Fresh s) (hmetadata : s.toolMetadata = some metadata)
    (hnow : s.now < ts) : ∀ output ∈ s.outputs ++ [⟨s.attachedAt,
      (metadata.setProcessEnd ts).processEndNs⟩], ∀ ts', output.attachedAt = some ts' →
        ts' < output.processEndNs := by
  intro output houtput ts' hts'
  rcases List.mem_append.mp houtput with houtput | houtput
  · exact h.outputs output houtput ts' hts'
  · obtain rfl := List.mem_singleton.mp houtput
    exact h.lt_setProcessEnd hmetadata hnow hts'

theorem fresh_step {event : Event} (hF : Fresh s) (hC : attachesBeforeEnd s event = true)
    (h : step s event = some t) : Fresh t := by
  have hI := inv_step hF.inv h
  obtain ⟨hnow, hcases⟩ := of_step h
  obtain ⟨ts, metadata, rfl, hmetadata, rfl⟩ | ⟨ts, metadata, rfl, hmetadata, rfl⟩ |
    ⟨ts, metadata, rfl, -, hmetadata, rfl⟩ | ⟨ts, rfl, -, rfl⟩ | ⟨ts, rfl, rfl⟩ := hcases
  · refine ⟨hI, fun metadata' ts' h' hts' hne ↦ absurd ?_ hne, hF.outputs⟩
    have hmetadata' : s.toolMetadata = some metadata' := h'
    rw [attachesBeforeEnd, hmetadata'] at hC
    exact beq_iff_eq.mp hC
  · refine ⟨hI, fun metadata' ts' h' hts' _ ↦ ?_, hF.generateOutput hmetadata hnow⟩
    rw [← Option.some.inj h']
    exact hF.lt_setProcessEnd hmetadata hnow hts'
  · exact ⟨hI, fun metadata' ts' h' ↦ (by cases h'), hF.generateOutput hmetadata hnow⟩
  · exact ⟨hI, hF.current, hF.outputs⟩
  · refine ⟨hI, fun metadata' ts' h' hts' _ ↦ ?_, hF.outputs⟩
    obtain ⟨metadata, hmetadata, rfl⟩ := Option.map_eq_some_iff.mp h'
    exact hF.lt_setProcessEnd hmetadata hnow hts'

/-! ## After the end -/

/-- The tool is attached, and the end that is set is not after that. -/
def Stale (s : System) : Prop :=
  s.first = true ∧ ∃ metadata ts, s.toolMetadata = some metadata ∧ s.attachedAt = some ts ∧
    metadata.processEndNs ≠ 0 ∧ metadata.processEndNs ≤ ts

theorem not_endsAfterAttach_of_le {outputs : List Output} {end' : UInt64}
    (houtputs : t.outputs = outputs ++ [⟨some ts, end'⟩]) (hle : end' ≤ ts) :
    ¬EndsAfterAttach t := by
  intro hends
  have hlt := hends ⟨some ts, end'⟩ (by rw [houtputs]; simp) ts rfl
  exact UInt64.not_lt.mpr hle hlt

/-- **A stale end stays**, until it gets into the output. -/
theorem stale_step {event : Event} (hI : Inv s) (hS : Stale s) (h : step s event = some t) :
    Stale t ∨ ¬EndsAfterAttach t := by
  obtain ⟨hfirst, stale, attached, hstale, hattached, hne, hle⟩ := hS
  -- nobody sets the end again
  have hset : ∀ ts', stale.setProcessEnd ts' = stale := fun ts' ↦ if_neg hne
  obtain ⟨hnow, hcases⟩ := of_step h
  obtain ⟨ts, metadata, rfl, -, rfl⟩ | ⟨ts, metadata, rfl, hmetadata, rfl⟩ |
    ⟨ts, metadata, rfl, -, hmetadata, rfl⟩ | ⟨ts, rfl, hnotFirst, -⟩ | ⟨ts, rfl, rfl⟩ := hcases
  · refine .inl ⟨hfirst, stale, ts, hstale, rfl, hne, ?_⟩
    exact UInt64.le_trans (hI.ended stale hstale) (UInt64.le_of_lt hnow)
  · obtain rfl := Option.some.inj (hstale.symm.trans hmetadata)
    rw [hset]
    exact .inr (not_endsAfterAttach_of_le (by rw [System.generateOutput, hattached]) hle)
  · obtain rfl := Option.some.inj (hstale.symm.trans hmetadata)
    rw [hset]
    exact .inr (not_endsAfterAttach_of_le (by rw [System.generateOutput, hattached]) hle)
  · rw [hfirst] at hnotFirst
    cases hnotFirst
  · refine .inl ⟨hfirst, stale, attached, ?_, hattached, hne, hle⟩
    show s.toolMetadata.map _ = _
    rw [hstale, Option.map_some, hset]

/-- The outputs stay as they are. -/
theorem outputs_step {event : Event} (h : step s event = some t) : s.outputs <+: t.outputs := by
  obtain ⟨-, hcases⟩ := of_step h
  obtain ⟨ts, metadata, -, -, rfl⟩ | ⟨ts, metadata, -, -, rfl⟩ | ⟨ts, metadata, -, -, -, rfl⟩ |
    ⟨ts, -, -, rfl⟩ | ⟨ts, -, rfl⟩ := hcases
  · exact List.prefix_refl _
  · exact List.prefix_append _ _
  · exact List.prefix_append _ _
  · exact List.prefix_refl _
  · exact List.prefix_refl _

/-- After `tool_fini` it is not the first call any more. -/
theorem first_of_step_fini (h : step s (.fini ts) = some t) : t.first = false := by
  obtain ⟨-, hcases⟩ := of_step h
  obtain ⟨ts', metadata, heq, -, -⟩ | ⟨ts', metadata, heq, -, -⟩ |
    ⟨ts', metadata, -, -, -, rfl⟩ | ⟨ts', -, hnotFirst, rfl⟩ | ⟨ts', heq, -⟩ := hcases
  · cases heq
  · cases heq
  · rfl
  · exact hnotFirst
  · cases heq

/-- A run that is stale at one time ends with an output that is. -/
theorem not_endsAfterAttach_of_stale {events : List Event} (hI : Inv s) (hS : Stale s)
    (h : run step s (events ++ [.fini ts]) = some t) : ¬EndsAfterAttach t := by
  have hrun : Inv t ∧ (Stale t ∨ ¬EndsAfterAttach t) := by
    refine run_invariant (I := fun u ↦ Inv u ∧ (Stale u ∨ ¬EndsAfterAttach u)) ⟨hI, .inl hS⟩
      (fun u event v ⟨hIu, hu⟩ hv ↦ ?_) h
    refine ⟨inv_step hIu hv, ?_⟩
    rcases hu with hu | hu
    · exact stale_step hIu hu hv
    · exact .inr fun hends ↦ hu fun output houtput ↦
        hends output ((outputs_step hv).subset houtput)
  rcases hrun.2 with ⟨hfirst, -⟩ | hends
  · obtain ⟨u, -, hfini⟩ := run_concat.mp h
    rw [first_of_step_fini hfini] at hfirst
    cases hfirst
  · exact hends

/-! ## Runs -/

theorem inv_start : Inv {} := by
  refine ⟨fun ts h ↦ (by cases h), fun metadata h ↦ ?_, fun _ _ ↦ rfl⟩
  cases h
  exact UInt64.le_refl 0

theorem fresh_start : Fresh {} := by
  refine ⟨inv_start, fun metadata ts h h' ↦ (by cases h'), fun output h ↦ ?_⟩
  cases h

/-- A list that ends with a `tool_fini` has one at the end of the rest after any other call. -/
theorem exists_rest_of_prefix {xs events : List Event} {ts' : UInt64}
    (hpre : xs ++ [.attach ts'] <+: events ++ [.fini ts]) :
    ∃ rest, xs ++ [.attach ts'] ++ (rest ++ [.fini ts]) = events ++ [.fini ts] := by
  obtain ⟨rest, heq⟩ := hpre
  rcases List.eq_nil_or_concat rest with rfl | ⟨rest, event, rfl⟩
  · rw [List.append_nil] at heq
    cases (List.append_inj' heq rfl).2
  · rw [List.concat_eq_append, ← List.append_assoc] at heq
    cases (List.append_inj' heq rfl).2
    exact ⟨rest, by rw [← List.append_assoc, heq]⟩

/-- **Exactly when every output has the end of its own cycle**, in a run of any cycles that ends
with `tool_fini`: when `tool_attach` is only called as long as no end has been set. -/
theorem endsAfterAttach_iff {events : List Event}
    (h : run step {} (events ++ [.fini ts]) = some t) :
    EndsAfterAttach t ↔
      Along step {} (fun s event ↦ attachesBeforeEnd s event = true) (events ++ [.fini ts]) := by
  constructor
  · intro hends xs event s hpre hs
    have hI : Inv s := run_invariant inv_start (fun _ _ _ hI ht ↦ inv_step hI ht) hs
    cases event with
    | attach ts' =>
      obtain ⟨rest, heq⟩ := exists_rest_of_prefix hpre
      rw [← heq, run_append, Option.bind_eq_some_iff] at h
      obtain ⟨u, hu, hrest⟩ := h
      obtain ⟨s', hs', hattach⟩ := run_concat.mp hu
      obtain rfl := Option.some.inj (hs.symm.trans hs')
      have hIu := inv_step hI hattach
      obtain ⟨hnow, hattach⟩ := Option.ite_none_right_eq_some.mp hattach
      obtain ⟨metadata, hmetadata, rfl⟩ := Option.map_eq_some_iff.mp hattach
      have hmetadata : s.toolMetadata = some metadata := hmetadata
      rw [attachesBeforeEnd, hmetadata, Option.all_some, beq_iff_eq]
      -- otherwise the rest of the run starts with a stale end
      by_contra hne
      refine not_endsAfterAttach_of_stale hIu ⟨hI.first metadata hmetadata, metadata, ts',
        hmetadata, rfl, hne, ?_⟩ hrest hends
      exact UInt64.le_trans (hI.ended metadata hmetadata) (UInt64.le_of_lt hnow)
    | _ => rfl
  · intro hC
    have hF : Everywhere step {} Fresh (events ++ [.fini ts]) :=
      along_invariant fresh_start (fun _ _ _ hF hC ht ↦ fresh_step hF hC ht) hC
    exact (hF _ t (List.prefix_refl _) h).outputs

/-- After one cycle. -/
def afterOneCycle : System :=
  { toolMetadata := none, first := false, now := 3, attachedAt := some 1
    outputs := [⟨some 1, 2⟩, ⟨some 1, 2⟩] }

/-- One cycle has an end of its own. -/
theorem endsAfterAttach_oneCycle : EndsAfterAttach afterOneCycle := by
  have hrun : run step {} ([.attach 1, .detach 2] ++ [.fini 3]) = some afterOneCycle := by
    decide +kernel
  exact (endsAfterAttach_iff hrun).mpr (along_of_checkAlong (by decide +kernel))

/-- After two cycles; the second one has the end of the first one, before it was attached. -/
def afterTwoCycles : System :=
  { toolMetadata := none, first := false, now := 5, attachedAt := some 3
    outputs := [⟨some 1, 2⟩, ⟨some 3, 2⟩, ⟨some 3, 2⟩] }

theorem not_endsAfterAttach_twoCycles :
    run step {} ([.attach 1, .detach 2, .attach 3, .detach 4] ++ [.fini 5])
        = some afterTwoCycles ∧
      ¬EndsAfterAttach afterTwoCycles := by
  refine ⟨by decide +kernel, fun hends ↦ ?_⟩
  exact absurd (hends ⟨some 3, 2⟩ (by decide) 3 rfl) (by decide)

end Version3.Lifecycle.EndTimes
