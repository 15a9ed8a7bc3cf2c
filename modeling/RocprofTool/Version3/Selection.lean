import RocprofTool.Lib.Runs
import RocprofTool.Version3.Targets

/-!
# Which dispatches are selected

A kernel becomes a target when its symbol is registered and its name passes the filters; the kernel
with the id `0`, for which there is no symbol, becomes one in `tool_init` when the text `0` does.
From then on its dispatches are counted, by each of the callbacks for itself, and the count of
`counter_dispatch_callback` decides which of the dispatches are profiled.

The calls here come one after the other; `Version3.Iterations` is about calls that overlap.  What
the state says about one kernel is its `Progress`, which no event for another kernel changes, and
`targeted_iff` reads the answer off the history of a run.
-/

set_option autoImplicit false

open Runs Tool

namespace Version3

/-! ## The functions -/

/-- The filters of the configuration. -/
structure KernelFilter where
  kernelFilterInclude : String
  kernelFilterExclude : String
  kernelFilterRange : Finset ℕ
  deriving DecidableEq

/-- `regex_search` of a text for a pattern, and `format_name`. -/
structure NameLibrary where
  regexSearch : String → String → Bool
  formatName : String → String

/-- `rocprofiler_callback_phase_t`, for code objects. -/
inductive CodeObjectPhase
  | load
  | unload
  deriving DecidableEq, Repr

/-- The symbols in `tool_metadata`, the targets, and the counts of `counter_dispatch_callback` and
of each of the thread trace callbacks. -/
structure Selection where
  kernelSymbols : UMap KernelId String := .empty
  targetKernels : TargetedKernelsMap := .empty
  kernelIteration : KernelIteration := .empty
  attIteration : ℕ → KernelIteration := fun _ ↦ .empty

/-- `code_object_tracing_callback` for the symbol of a kernel.  The first symbol that is added for
an id stays. -/
def registerKernelSymbol (lib : NameLibrary) (filter : KernelFilter) (phase : CodeObjectPhase)
    (kernelId : KernelId) (kernelName : String) (s : Selection) : Selection :=
  match phase with
  | .unload => s
  | .load =>
    let formattedKernelName := lib.formatName kernelName
    let (kernelSymbols, success) := s.kernelSymbols.emplace kernelId formattedKernelName
    let s := { s with kernelSymbols }
    if success then
      if lib.regexSearch formattedKernelName filter.kernelFilterInclude then
        if filter.kernelFilterExclude.isEmpty ||
            !lib.regexSearch formattedKernelName filter.kernelFilterExclude then
          { s with
            targetKernels := (addKernelTarget s.targetKernels kernelId
              filter.kernelFilterRange).1 }
        else s
      else s
    else s

/-- The part of `tool_init` for the kernel id of zero. -/
def registerKernelZero (lib : NameLibrary) (filter : KernelFilter) (s : Selection) : Selection :=
  let includes := lib.regexSearch "0" filter.kernelFilterInclude
  let excludes := lib.regexSearch "0" filter.kernelFilterExclude
  if includes && (!excludes || filter.kernelFilterExclude.isEmpty) then
    { s with
      targetKernels := (addKernelTarget s.targetKernels 0 filter.kernelFilterRange).1 }
  else s

/-- `counter_dispatch_callback`, up to the choice of a profile: is the dispatch targeted?  `none` is
what `is_targeted_kernel` can throw. -/
def counterDispatchCallback (cfg : Config) (kernelId : KernelId) (s : Selection) :
    Option (Bool × Selection) :=
  (isTargetedKernel cfg s.targetKernels kernelId s.kernelIteration).map fun p ↦
    (p.1, { s with kernelIteration := p.2 })

/-- A thread trace callback asks about a kernel. -/
def attDispatch (cfg : Config) (callback : ℕ) (kernelId : KernelId) (s : Selection) :
    Option Selection :=
  (isTargetedKernel cfg s.targetKernels kernelId (s.attIteration callback)).map fun p ↦
    { s with attIteration := Function.update s.attIteration callback p.2 }

/-! ## Runs -/

namespace Selection

/-- What can happen. -/
inductive Event
  | kernelSymbol (phase : CodeObjectPhase) (kernelId : KernelId) (kernelName : String)
  | toolInit
  | dispatch (kernelId : KernelId)
  | attDispatch (callback : ℕ) (kernelId : KernelId)
  deriving DecidableEq, Repr

/-- One event. -/
def step (lib : NameLibrary) (filter : KernelFilter) (cfg : Config) (s : Selection) :
    Event → Option Selection
  | .kernelSymbol phase kernelId kernelName =>
    some (registerKernelSymbol lib filter phase kernelId kernelName s)
  | .toolInit => some (registerKernelZero lib filter s)
  | .dispatch kernelId => (counterDispatchCallback cfg kernelId s).map Prod.snd
  | .attDispatch callback kernelId => Version3.attDispatch cfg callback kernelId s

/-- Is a dispatch of the kernel targeted after this history? -/
def targeted (lib : NameLibrary) (filter : KernelFilter) (cfg : Config) (history : List Event)
    (kernelId : KernelId) : Option Bool :=
  (run (step lib filter cfg) {} history).bind fun s ↦
    (counterDispatchCallback cfg kernelId s).map Prod.fst

/-! ## What the history says -/

/-- The text passes the filters. -/
def passes (lib : NameLibrary) (filter : KernelFilter) (text : String) : Bool :=
  lib.regexSearch text filter.kernelFilterInclude &&
    !(!filter.kernelFilterExclude.isEmpty && lib.regexSearch text filter.kernelFilterExclude)

/-- The number of the dispatches of a kernel since it has become a target, when it has.  It can
become one when its first symbol is loaded, and the kernel `0` in `tool_init`; `registered` says
whether it has a symbol already. -/
def dispatchesSince (lib : NameLibrary) (filter : KernelFilter) (kernelId : KernelId) :
    Bool → List Event → Option ℕ
  | _, [] => none
  | registered, .kernelSymbol .load id name :: history =>
    if id = kernelId ∧ registered = false then
      if passes lib filter (lib.formatName name) then
        some (history.count (.dispatch kernelId))
      else dispatchesSince lib filter kernelId true history
    else dispatchesSince lib filter kernelId registered history
  | registered, .toolInit :: history =>
    if kernelId = 0 ∧ passes lib filter "0" = true then
      some (history.count (.dispatch kernelId))
    else dispatchesSince lib filter kernelId registered history
  | registered, _ :: history => dispatchesSince lib filter kernelId registered history

/-- An event that has nothing to say about a kernel: one about another kernel, the question of a
thread trace callback, or another symbol for the kernel. -/
def Irrelevant (kernelId : KernelId) (history : List Event) : Event → Prop
  | .kernelSymbol _ id _ =>
    id ≠ kernelId ∨ ∃ name, Event.kernelSymbol .load kernelId name ∈ history
  | .toolInit => False
  | .dispatch id => id ≠ kernelId
  | .attDispatch _ _ => True

/-! ## The progress of a kernel -/

/-- What there is to know about a kernel: whether it has a symbol, and how often it has been
dispatched since it has become a target. -/
structure Progress where
  registered : Bool := false
  since : Option ℕ := none
  deriving DecidableEq, Repr

/-- The kernel is made a target, if it is not one yet. -/
def Progress.target (p : Progress) : Progress := { p with since := some (p.since.getD 0) }

/-- One event, for one kernel. -/
def Progress.next (lib : NameLibrary) (filter : KernelFilter) (kernelId : KernelId)
    (p : Progress) : Event → Progress
  | .kernelSymbol .load id name =>
    if id = kernelId ∧ p.registered = false then
      let p := { p with registered := true }
      if passes lib filter (lib.formatName name) then p.target else p
    else p
  | .kernelSymbol .unload _ _ => p
  | .toolInit => if kernelId = 0 ∧ passes lib filter "0" = true then p.target else p
  | .dispatch id => if id = kernelId then { p with since := p.since.map (· + 1) } else p
  | .attDispatch _ _ => p

/-- The state says about the kernel what its progress says. -/
structure Describes (filter : KernelFilter) (kernelId : KernelId) (p : Progress) (s : Selection) :
    Prop where
  registered : (s.kernelSymbols kernelId).isSome = p.registered
  target : s.targetKernels kernelId = p.since.map fun _ ↦ filter.kernelFilterRange
  since : iterations s.kernelIteration kernelId = p.since.getD 0

variable {lib : NameLibrary} {filter : KernelFilter} {cfg : Config} {kernelId : KernelId}
  {p : Progress} {s : Selection}

theorem describes_start : Describes filter kernelId {} {} where
  registered := rfl
  target := rfl
  since := rfl

/-- The kernel is made a target. -/
theorem Describes.addKernelTarget_self (h : Describes filter kernelId p s) :
    Describes filter kernelId p.target
      { s with
        targetKernels :=
          (addKernelTarget s.targetKernels kernelId filter.kernelFilterRange).1 } where
  registered := h.registered
  target := by
    rcases hsince : p.since with _ | n <;>
      simp [addKernelTarget, UMap.emplace, h.target, hsince, Progress.target]
  since := by
    rw [h.since]
    rfl

/-- Another kernel is made a target. -/
theorem Describes.addKernelTarget_of_ne (h : Describes filter kernelId p s) {id : KernelId}
    (hne : kernelId ≠ id) :
    Describes filter kernelId p
      { s with
        targetKernels := (addKernelTarget s.targetKernels id filter.kernelFilterRange).1 } where
  registered := h.registered
  target := by
    rw [← h.target, addKernelTarget, UMap.emplace]
    split
    · rfl
    · exact UMap.assign_of_ne _ _ hne
  since := h.since

/-- A symbol passes the filters as the text of its name does. -/
theorem registerKernelSymbol_load (id : KernelId) (name : String) (s : Selection) :
    registerKernelSymbol lib filter .load id name s =
      if (s.kernelSymbols id).isSome then s
      else
        let s := { s with kernelSymbols := s.kernelSymbols.assign id (lib.formatName name) }
        if passes lib filter (lib.formatName name) then
          { s with
            targetKernels := (addKernelTarget s.targetKernels id filter.kernelFilterRange).1 }
        else s := by
  rw [registerKernelSymbol]
  rcases hsymbol : s.kernelSymbols id with _ | symbol
  · generalize lib.formatName name = text
    rcases hinclude : lib.regexSearch text filter.kernelFilterInclude with _ | _ <;>
      rcases hempty : filter.kernelFilterExclude.isEmpty with _ | _ <;>
      rcases hexclude : lib.regexSearch text filter.kernelFilterExclude with _ | _ <;>
      simp [UMap.emplace, hsymbol, passes, hinclude, hempty, hexclude]
  · simp [UMap.emplace, hsymbol]

/-- The kernel id of zero passes the filters as the text `0` does. -/
theorem registerKernelZero_eq (s : Selection) :
    registerKernelZero lib filter s =
      if passes lib filter "0" then
        { s with targetKernels := (addKernelTarget s.targetKernels 0 filter.kernelFilterRange).1 }
      else s := by
  rw [registerKernelZero, passes]
  rcases filter.kernelFilterExclude.isEmpty with _ | _ <;>
    rcases lib.regexSearch "0" filter.kernelFilterExclude with _ | _ <;> simp

/-- The answer for a kernel with this progress, and what the call does to the counts. -/
theorem Describes.counterDispatchCallback (h : Describes filter kernelId p s) :
    Version3.counterDispatchCallback cfg kernelId s
      = some (p.since.elim false fun n ↦ inRange cfg filter.kernelFilterRange (n + 1),
        if p.since.isSome then
          { s with kernelIteration := countIteration s.kernelIteration kernelId }
        else s) := by
  rcases hsince : p.since with _ | n
  · have htarget : s.targetKernels kernelId = none := by rw [h.target, hsince, Option.map_none]
    rw [Version3.counterDispatchCallback, isTargetedKernel_of_not_target cfg htarget]
    rfl
  · have htarget : s.targetKernels kernelId = some filter.kernelFilterRange := by
      rw [h.target, hsince, Option.map_some]
    rw [Version3.counterDispatchCallback, isTargetedKernel_eq cfg htarget, h.since, hsince]
    rfl

/-- A dispatch of another kernel. -/
theorem Describes.dispatch_of_ne (h : Describes filter kernelId p s) {id : KernelId}
    (hne : kernelId ≠ id) :
    ∃ t, step lib filter cfg s (.dispatch id) = some t ∧ Describes filter kernelId p t := by
  rcases htarget : s.targetKernels id with _ | range
  · refine ⟨s, ?_, h⟩
    rw [step, Version3.counterDispatchCallback, isTargetedKernel_of_not_target cfg htarget]
    rfl
  · refine ⟨{ s with kernelIteration := countIteration s.kernelIteration id }, ?_,
      h.registered, h.target, ?_⟩
    · rw [step, Version3.counterDispatchCallback, isTargetedKernel_eq cfg htarget]
      rfl
    · rw [← h.since]
      exact iterations_countIteration_of_ne _ hne

/-- A dispatch of the kernel itself. -/
theorem Describes.dispatch_self (h : Describes filter kernelId p s) :
    ∃ t, step lib filter cfg s (.dispatch kernelId) = some t ∧
      Describes filter kernelId { p with since := p.since.map (· + 1) } t := by
  refine ⟨_, by rw [step, h.counterDispatchCallback]; rfl, ?_⟩
  rcases hsince : p.since with _ | n
  · exact ⟨h.registered, by simpa [hsince] using h.target, by simpa [hsince] using h.since⟩
  · refine ⟨h.registered, by simpa [hsince] using h.target, ?_⟩
    simp [h.since, hsince]

/-- **The step**: the state follows the progress of the kernel. -/
theorem Describes.next (h : Describes filter kernelId p s) (event : Event) :
    ∃ t, step lib filter cfg s event = some t ∧
      Describes filter kernelId (p.next lib filter kernelId event) t := by
  rcases event with ⟨_ | _, id, name⟩ | _ | id | ⟨callback, id⟩
  · refine ⟨_, rfl, ?_⟩
    rw [registerKernelSymbol_load, Progress.next]
    by_cases hid : id = kernelId
    · subst hid
      rcases hreg : p.registered with _ | _
      · rw [h.registered, hreg, if_neg Bool.false_ne_true, if_pos ⟨rfl, rfl⟩]
        have hadded : Describes filter id { p with registered := true }
            { s with kernelSymbols := s.kernelSymbols.assign id (lib.formatName name) } :=
          ⟨by simp, h.target, h.since⟩
        rcases passes lib filter (lib.formatName name) with _ | _
        · exact hadded
        · exact hadded.addKernelTarget_self
      · rw [h.registered, hreg, if_pos rfl, if_neg (by simp)]
        exact h
    · rw [if_neg fun hboth ↦ hid hboth.1]
      rcases (s.kernelSymbols id).isSome with _ | _
      · have hadded : Describes filter kernelId p
            { s with kernelSymbols := s.kernelSymbols.assign id (lib.formatName name) } :=
          ⟨(congrArg _ (UMap.assign_of_ne _ _ (Ne.symm hid))).trans h.registered, h.target, h.since⟩
        rcases passes lib filter (lib.formatName name) with _ | _
        · exact hadded
        · exact hadded.addKernelTarget_of_ne (Ne.symm hid)
      · exact h
  · exact ⟨s, rfl, h⟩
  · refine ⟨_, rfl, ?_⟩
    rw [registerKernelZero_eq, Progress.next]
    rcases passes lib filter "0" with _ | _
    · rw [if_neg (by simp), if_neg (by simp)]
      exact h
    · by_cases hid : kernelId = 0
      · subst hid
        rw [if_pos rfl, if_pos ⟨rfl, rfl⟩]
        exact h.addKernelTarget_self
      · rw [if_pos rfl, if_neg (by simp [hid])]
        exact h.addKernelTarget_of_ne hid
  · rw [Progress.next]
    by_cases hid : id = kernelId
    · subst hid
      rw [if_pos rfl]
      exact h.dispatch_self
    · rw [if_neg hid]
      exact h.dispatch_of_ne (Ne.symm hid)
  · -- the counts of the thread trace callbacks are maps of their own
    obtain ⟨answer, hanswer⟩ := Option.isSome_iff_exists.mp
      (isTargetedKernel_isSome cfg s.targetKernels id (s.attIteration callback))
    exact ⟨{ s with attIteration := Function.update s.attIteration callback answer.2 },
      by rw [step, attDispatch, hanswer]; rfl, h.registered, h.target, h.since⟩

/-- **The run**: the state follows the progress of the kernel through a history. -/
theorem Describes.run (h : Describes filter kernelId p s) (history : List Event) :
    ∃ t, Runs.run (step lib filter cfg) s history = some t ∧
      Describes filter kernelId (history.foldl (Progress.next lib filter kernelId) p) t := by
  induction history generalizing p s with
  | nil => exact ⟨s, rfl, h⟩
  | cons event history ih =>
    obtain ⟨t, ht, hnext⟩ := h.next event
    obtain ⟨u, hu, hlast⟩ := ih hnext
    exact ⟨u, by rw [run_cons, ht, Option.bind_some, hu], hlast⟩

/-! ## The answer -/

theorem since_next_of_some {n : ℕ} (hsince : p.since = some n) (event : Event) :
    (p.next lib filter kernelId event).since
      = some (n + if event = .dispatch kernelId then 1 else 0) := by
  rcases event with ⟨_ | _, id, name⟩ | _ | id | ⟨callback, id⟩
  · rw [Progress.next]
    split
    · split <;> simp [Progress.target, hsince]
    · simp [hsince]
  · simp [Progress.next, hsince]
  · rw [Progress.next]
    split <;> simp [Progress.target, hsince]
  · by_cases hid : id = kernelId <;> simp [Progress.next, hid, hsince]
  · simp [Progress.next, hsince]

/-- Once a kernel is a target, its dispatches are counted. -/
theorem since_foldl_of_some {n : ℕ} (hsince : p.since = some n) (history : List Event) :
    (history.foldl (Progress.next lib filter kernelId) p).since
      = some (n + history.count (.dispatch kernelId)) := by
  induction history generalizing p n with
  | nil => simpa using hsince
  | cons event history ih =>
    rw [List.foldl_cons, ih (since_next_of_some hsince event), List.count_cons]
    simp only [beq_iff_eq, Option.some.injEq]
    omega

/-- **The progress of a kernel** is what the history says. -/
theorem since_foldl_of_none (hsince : p.since = none) (history : List Event) :
    (history.foldl (Progress.next lib filter kernelId) p).since
      = dispatchesSince lib filter kernelId p.registered history := by
  induction history generalizing p with
  | nil => exact hsince
  | cons event history ih =>
    rw [List.foldl_cons]
    rcases event with ⟨_ | _, id, name⟩ | _ | id | ⟨callback, id⟩
    · rw [dispatchesSince, Progress.next]
      split
      · split
        · rw [since_foldl_of_some (n := 0) (by simp [Progress.target, hsince]), Nat.zero_add]
        · exact ih hsince
      · exact ih hsince
    · exact ih hsince
    · rw [dispatchesSince, Progress.next]
      split
      · rw [since_foldl_of_some (n := 0) (by simp [Progress.target, hsince]), Nat.zero_add]
      · exact ih hsince
    · rw [dispatchesSince, Progress.next]
      · split
        · exact ih (by simp [hsince])
        · exact ih hsince
      · simp
      · simp
    · exact ih hsince

/-- The answer after a history, by the progress of the kernel. -/
theorem targeted_eq (lib : NameLibrary) (filter : KernelFilter) (cfg : Config)
    (history : List Event) (kernelId : KernelId) :
    targeted lib filter cfg history kernelId
      = some ((history.foldl (Progress.next lib filter kernelId) {}).since.elim false fun n ↦
          inRange cfg filter.kernelFilterRange (n + 1)) := by
  have hstart : Describes filter kernelId {} {} := describes_start
  obtain ⟨s, hs, h⟩ : ∃ s, Runs.run (step lib filter cfg) {} history = some s ∧
      Describes filter kernelId (history.foldl (Progress.next lib filter kernelId) {}) s :=
    hstart.run history
  rw [targeted, hs, Option.bind_some, h.counterDispatchCallback, Option.map_some]

theorem inRange_iff {range : Finset ℕ} {itr : ℕ} :
    inRange cfg range itr = true ↔
      itr ∈ range ∨ range = ∅ ∧ (cfg.advancedThreadTrace = false ∨ itr = 1) := by
  by_cases hrange : range = ∅
  · subst hrange
    rcases hatt : cfg.advancedThreadTrace with _ | _ <;> simp [inRange, hatt]
  · simp [inRange, hrange]

theorem registered_of_mem {name : String} {history : List Event}
    (h : Event.kernelSymbol .load kernelId name ∈ history ∨ p.registered = true) :
    (history.foldl (Progress.next lib filter kernelId) p).registered = true := by
  induction history generalizing p with
  | nil => simpa using h
  | cons event history ih =>
    have hkeep : p.registered = true →
        (p.next lib filter kernelId event).registered = true := by
      intro hreg
      rcases event with ⟨_ | _, id, name'⟩ | _ | id | ⟨callback, id⟩ <;> rw [Progress.next]
      · rw [if_neg (by simp [hreg]), hreg]
      · exact hreg
      · split <;> exact hreg
      · split <;> exact hreg
      · exact hreg
    refine ih ?_
    rcases h with h | hreg
    · rcases List.mem_cons.mp h with rfl | h
      · rcases hreg : p.registered with _ | _
        · refine .inr ?_
          rw [Progress.next, if_pos ⟨rfl, hreg⟩]
          dsimp only
          split <;> rfl
        · exact .inr (hkeep hreg)
      · exact .inl h
    · exact .inr (hkeep hreg)

/-- An irrelevant event makes no progress. -/
theorem next_of_irrelevant {history : List Event} {event : Event}
    (h : Irrelevant kernelId history event) :
    (history.foldl (Progress.next lib filter kernelId) p).next lib filter kernelId event
      = history.foldl (Progress.next lib filter kernelId) p := by
  rcases event with ⟨_ | _, id, name⟩ | _ | id | ⟨callback, id⟩
  · rw [Progress.next, if_neg]
    rintro ⟨rfl, hreg⟩
    rcases h with hne | ⟨name', hmem⟩
    · exact hne rfl
    · rw [registered_of_mem (.inl hmem)] at hreg
      cases hreg
  · rfl
  · exact h.elim
  · rw [Progress.next, if_neg h]
  · rfl

/-- **Which dispatches are selected.**  After any history of registrations and dispatches, a
dispatch of a kernel is targeted exactly when the kernel has become a target and the configured
range has the number of this dispatch among those since then; without a range all of them are, or
with the thread trace the first one.  Events that are irrelevant for the kernel can be left out of
the history. -/
theorem targeted_iff (lib : NameLibrary) (filter : KernelFilter) (cfg : Config)
    (history : List Event) (kernelId : KernelId) :
    (∃ answer, targeted lib filter cfg history kernelId = some answer ∧
      (answer = true ↔ ∃ n, dispatchesSince lib filter kernelId false history = some n ∧
        (n + 1 ∈ filter.kernelFilterRange ∨ filter.kernelFilterRange = ∅ ∧
          (cfg.advancedThreadTrace = false ∨ n + 1 = 1)))) ∧
      ∀ pre event post, history = pre ++ event :: post → Irrelevant kernelId pre event →
        targeted lib filter cfg (pre ++ post) kernelId
          = targeted lib filter cfg history kernelId := by
  constructor
  · refine ⟨_, targeted_eq lib filter cfg history kernelId, ?_⟩
    rw [since_foldl_of_none rfl]
    rcases dispatchesSince lib filter kernelId false history with _ | n
    · simp
    · simp only [Option.elim_some, inRange_iff, Option.some.injEq, exists_eq_left']
  · rintro pre event post rfl hirrelevant
    rw [targeted_eq, targeted_eq, List.foldl_append, List.foldl_append, List.foldl_cons,
      next_of_irrelevant hirrelevant]

/-- Patterns that match one text, and the empty pattern, which matches all of them. -/
def plainPatterns : NameLibrary where
  regexSearch text pattern := pattern.isEmpty || text == pattern
  formatName name := name

/-- The second dispatch of `axpy` is the one to profile, whatever else is dispatched. -/
theorem targeted_iff_axpy :
    targeted plainPatterns ⟨"axpy", "", {2}⟩ {} [.kernelSymbol .load 7 "axpy", .dispatch 7] 7
        = some true ∧
      targeted plainPatterns ⟨"axpy", "", {2}⟩ {}
          ([.kernelSymbol .load 7 "axpy"] ++ [.dispatch 7]) 7
        = targeted plainPatterns ⟨"axpy", "", {2}⟩ {}
          [.kernelSymbol .load 7 "axpy", .dispatch 8, .dispatch 7] 7 :=
  ⟨by decide, (targeted_iff plainPatterns ⟨"axpy", "", {2}⟩ {} _ 7).2
    [.kernelSymbol .load 7 "axpy"] (.dispatch 8) [.dispatch 7] rfl (show 8 ≠ 7 by decide)⟩

end Selection

end Version3
