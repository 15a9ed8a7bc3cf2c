import RocprofTool.Lib.Runs

/-!
# Finalizing once

There are many ways into the finalization: the main function returns, the process exits, a signal
arrives, or the library calls `tool_fini` on its own account.  The first three go through
`finalize_rocprofv3`, which calls the library, which calls `tool_fini`.  All of them can happen
again while one of them is still under way.

Two pointers and a flag keep them apart.  `tool_fini` clears all of them before it does anything
else, so that what it does is done once, and the library is not called any more; this is
`everywhere_atMostOnce`.

A call that is under way is a `Frame`, and what is called while it is under way goes on top of it.
-/

set_option autoImplicit false

open Runs

namespace Version3.Lifecycle.Finalization

/-- What a call that is under way has called: `finalize_rocprofv3` has called `client_finalizer`, or
the body of `tool_fini` one of the four things that it does. -/
inductive Frame
  | clientFinalizer
  | flush
  | stop
  | flushAgain
  | generateOutput
  deriving DecidableEq, Repr

/-- What has been done: `client_finalizer` was called, with what `client_identifier` pointed to, or
the body of `tool_fini` has begun, or has called `generate_output`. -/
inductive Entry
  | clientFinalizer (identifier : ℕ)
  | toolFini
  | generateOutput
  deriving DecidableEq, Repr

/-- The tool. -/
structure System where
  /-- The pointer is not null. -/
  clientFinalizer : Bool
  /-- `none` is the null pointer. -/
  clientIdentifier : Option ℕ
  /-- `_first` of `tool_fini`. -/
  first : Bool := true
  stack : List Frame := []
  log : List Entry := []
  /-- A null pointer has been dereferenced. -/
  nullDereferenced : Bool := false
  deriving DecidableEq, Repr

/-- What can happen. -/
inductive Event
  /-- `finalize_rocprofv3` is called, by whomever. -/
  | finalize
  /-- The library calls `tool_fini`. -/
  | toolFini
  /-- What was called last returns. -/
  | ret
  deriving DecidableEq, Repr

/-- `finalize_rocprofv3`, up to the call of `client_finalizer`. -/
def finalizeRocprofv3 (s : System) : System :=
  if s.clientFinalizer && s.clientIdentifier.isSome then
    match s.clientIdentifier with
    | none => { s with nullDereferenced := true }
    | some identifier =>
      { s with stack := .clientFinalizer :: s.stack, log := s.log ++ [.clientFinalizer identifier] }
  else s

/-- `tool_fini`, up to its first flush. -/
def toolFini (s : System) : System :=
  if s.first then
    { s with
      first := false
      clientIdentifier := none
      clientFinalizer := false
      stack := .flush :: s.stack
      log := s.log ++ [.toolFini] }
  else s

/-- What goes on after a call has returned, on top of the stack of the other calls. -/
def afterReturn (s : System) (stack : List Frame) : Frame → System
  | .clientFinalizer => { s with clientFinalizer := false, clientIdentifier := none, stack }
  | .flush => { s with stack := .stop :: stack }
  | .stop => { s with stack := .flushAgain :: stack }
  | .flushAgain =>
    { s with stack := .generateOutput :: stack, log := s.log ++ [.generateOutput] }
  | .generateOutput => { s with stack }

/-- One event. -/
def step (s : System) : Event → Option System
  | .finalize => some (finalizeRocprofv3 s)
  | .toolFini => some (toolFini s)
  | .ret =>
    match s.stack with
    | [] => none
    | frame :: stack => some (afterReturn s stack frame)

/-! ## The property -/

/-- The body of `tool_fini` has begun once at most, and so has the output; `client_finalizer` was
not called after that; and nobody has dereferenced a null pointer. -/
structure AtMostOnce (s : System) : Prop where
  body : s.log.count .toolFini ≤ 1
  output : s.log.count .generateOutput ≤ 1
  finalizer : ∀ before after identifier, s.log = before ++ .toolFini :: after →
    Entry.clientFinalizer identifier ∉ after
  identifier : s.nullDereferenced = false

/-- A body that has not called `generate_output` yet. -/
def Frame.beforeOutput : Frame → Bool
  | .flush | .stop | .flushAgain => true
  | _ => false

/-- **What keeps the calls apart.**  The flag says whether the body has begun, and when it has, the
pointers are null; each output is of a body that has begun, and so is each call that an output
still has to come from. -/
structure Inv (s : System) : Prop where
  body : s.log.count .toolFini = if s.first then 0 else 1
  cleared : s.first = false → s.clientFinalizer = false ∧ s.clientIdentifier = none
  output : s.stack.countP Frame.beforeOutput + s.log.count .generateOutput
    ≤ s.log.count .toolFini
  finalizer : ∀ before after identifier, s.log = before ++ .toolFini :: after →
    Entry.clientFinalizer identifier ∉ after
  identifier : s.nullDereferenced = false

variable {s t : System} {event : Event}

theorem Inv.atMostOnce (h : Inv s) : AtMostOnce s := by
  have hbody : s.log.count .toolFini ≤ 1 := by
    rw [h.body]
    split_ifs <;> omega
  exact ⟨hbody, by have := h.output; omega, h.finalizer, h.identifier⟩

/-- An entry that is appended stands after the body, or is it. -/
theorem not_mem_after_append {log before after : List Entry} {entry : Entry} {identifier : ℕ}
    (hlog : ∀ before after, log = before ++ .toolFini :: after →
      Entry.clientFinalizer identifier ∉ after)
    (hentry : entry = .clientFinalizer identifier → Entry.toolFini ∉ log)
    (h : log ++ [entry] = before ++ .toolFini :: after) :
    Entry.clientFinalizer identifier ∉ after := by
  rcases List.eq_nil_or_concat after with rfl | ⟨after, last, rfl⟩
  · exact List.not_mem_nil
  · rw [List.concat_eq_append, ← List.cons_append, ← List.append_assoc] at h
    obtain ⟨rfl, hlast⟩ := List.append_inj' h rfl
    obtain rfl := List.singleton_inj.mp hlast
    intro hmem
    rw [List.concat_eq_append] at hmem
    rcases List.mem_append.mp hmem with hmem | hmem
    · exact hlog before after rfl hmem
    · exact hentry (List.mem_singleton.mp hmem).symm (by simp)

theorem inv_finalize (h : Inv s) : Inv (finalizeRocprofv3 s) := by
  rw [finalizeRocprofv3]
  rcases hidentifier : s.clientIdentifier with _ | identifier
  · rw [Option.isSome_none, Bool.and_false, if_neg Bool.false_ne_true]
    exact h
  rcases hfinalizer : s.clientFinalizer with _ | _
  · exact h
  -- the pointers are not null, so the body has not begun
  have hfirst : s.first = true := by
    rw [← Bool.not_eq_false]
    intro hfirst
    have hnull := (h.cleared hfirst).1
    rw [hfinalizer] at hnull
    cases hnull
  have hbody : Entry.toolFini ∉ s.log := by
    have hcount := h.body
    rw [hfirst, if_pos rfl] at hcount
    exact List.count_eq_zero.mp hcount
  refine ⟨?_, fun hfalse ↦ absurd (hfirst.symm.trans hfalse) (by decide), ?_, ?_, h.identifier⟩
  · simp [h.body]
  · have houtput := h.output
    simp [Frame.beforeOutput]
    exact houtput
  · intro before after identifier' hlog
    exact not_mem_after_append (fun before after ↦ h.finalizer before after identifier')
      (fun _ ↦ hbody) hlog

theorem inv_toolFini (h : Inv s) : Inv (toolFini s) := by
  rw [toolFini]
  rcases hfirst : s.first with _ | _
  · exact h
  have hcount := h.body
  have houtput := h.output
  rw [hfirst, if_pos rfl] at hcount
  refine ⟨?_, fun _ ↦ ⟨rfl, rfl⟩, ?_, ?_, h.identifier⟩
  · simp [hcount]
  · simp only [List.countP_cons, Frame.beforeOutput, List.count_append, if_true]
    simp
    omega
  · intro before after identifier hlog
    exact not_mem_after_append (fun before after ↦ h.finalizer before after identifier)
      (fun hentry ↦ Entry.noConfusion hentry) hlog

/-- What is left of the stack, with the call that is on top of it. -/
theorem inv_afterReturn {frame : Frame} {stack : List Frame} (h : Inv s)
    (hstack : s.stack = frame :: stack) : Inv (afterReturn s stack frame) := by
  have houtput := h.output
  rw [hstack, List.countP_cons] at houtput
  cases frame with
  | clientFinalizer =>
    exact ⟨h.body, fun _ ↦ ⟨rfl, rfl⟩, houtput, h.finalizer, h.identifier⟩
  | flush =>
    refine ⟨h.body, h.cleared, ?_, h.finalizer, h.identifier⟩
    rw [afterReturn, List.countP_cons]
    exact houtput
  | stop =>
    refine ⟨h.body, h.cleared, ?_, h.finalizer, h.identifier⟩
    rw [afterReturn, List.countP_cons]
    exact houtput
  | flushAgain =>
    refine ⟨?_, h.cleared, ?_, ?_, h.identifier⟩
    · show (s.log ++ [Entry.generateOutput]).count .toolFini = if s.first then 0 else 1
      rw [List.count_append, h.body]
      rfl
    · simp [afterReturn, Frame.beforeOutput] at houtput ⊢
      omega
    · intro before after identifier hlog
      exact not_mem_after_append (fun before after ↦ h.finalizer before after identifier)
        (fun hentry ↦ Entry.noConfusion hentry) hlog
  | generateOutput => exact ⟨h.body, h.cleared, houtput, h.finalizer, h.identifier⟩

theorem inv_step (h : Inv s) (ht : step s event = some t) : Inv t := by
  cases event with
  | finalize =>
    cases ht
    exact inv_finalize h
  | toolFini =>
    cases ht
    exact inv_toolFini h
  | ret =>
    rw [step] at ht
    rcases hstack : s.stack with _ | ⟨frame, stack⟩
    · rw [hstack] at ht
      cases ht
    · rw [hstack] at ht
      cases ht
      exact inv_afterReturn h hstack

theorem inv_start (clientFinalizer : Bool) (clientIdentifier : Option ℕ) :
    Inv { clientFinalizer, clientIdentifier } where
  body := rfl
  cleared h := (by cases h)
  output := Nat.le_refl 0
  finalizer before after identifier h := by simp at h
  identifier := rfl

/-- **The tool is finalized once**, however the calls of `finalize_rocprofv3` and of `tool_fini` are
nested, and whatever the pointers are when it begins. -/
theorem everywhere_atMostOnce (clientFinalizer : Bool) (clientIdentifier : Option ℕ)
    (events : List Event) :
    Everywhere step { clientFinalizer, clientIdentifier } AtMostOnce events := by
  intro xs t _ ht
  exact (run_invariant (inv_start clientFinalizer clientIdentifier)
    (fun _ _ _ hs ht ↦ inv_step hs ht) ht).atMostOnce

/-- A signal arrives in `generate_output`, after the main function has returned. -/
example : (run step { clientFinalizer := true, clientIdentifier := some 1 }
    [.finalize, .toolFini, .ret, .ret, .ret, .finalize, .toolFini, .ret, .ret, .finalize]).map
      System.log = some [.clientFinalizer 1, .toolFini, .generateOutput] := by
  decide

end Version3.Lifecycle.Finalization
