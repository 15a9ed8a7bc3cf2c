import RocprofTool.Lib.CString
import RocprofTool.Lib.Runs
import RocprofTool.Version3.ThreadTrace.Callback

/-!
# The files of the thread trace

`att_shader_data_callback` writes what a shader engine has recorded to a file of its own, and lists
the file under the dispatch that it belongs to, in `att_filenames`.  There it also says which agent
the files of the dispatch are of, because the decoder writes one directory for each dispatch, with
the agent in its name.

The dispatch is given with the data when single dispatches are traced.  When consecutive kernels
are, the data has no dispatch, and the one is taken that the session has begun with.  There is one
session for all of the agents, so that they write to the same entry of `att_filenames`, and each of
them writes its own name over that of the others.  `everywhere_attributed_iff` says that nothing
else goes wrong.

The name of a file has the agent, the shader engine and the dispatch in it, so that two of them have
different files (`shaderFilename_inj`).
-/

set_option autoImplicit false

open Runs CString

namespace Version3.ThreadTrace.ShaderData

/-- The handle of an agent. -/
abbrev AgentId := ℕ

/-- The name of a file. -/
abbrev FileName := List Char

/-- The arguments of `att_shader_data_callback`. -/
structure ShaderCall where
  agent : AgentId
  seId : ℤ
  seData : List UInt8
  userdata : ℕ
  deriving DecidableEq, Repr

/-- What has been written to a file, and the agent that it is of. -/
structure Written where
  file : FileName
  agent : AgentId
  data : List UInt8
  deriving DecidableEq, Repr

/-- The callback for consecutive kernels, the files by their dispatches, and what was written. -/
structure Tool where
  trace : State := {}
  attFilenames : UMap DispatchId (AgentId × List FileName) := fun _ ↦ none
  written : List Written := []

/-- `{agent}_shader_engine_{se_id}_{dispatch_id}`. -/
def shaderFilename (agent : AgentId) (seId : ℤ) (dispatchId : DispatchId) : FileName :=
  ofNat agent ++ '_' :: ("shader_engine_".toList ++ (ofInt seId ++ '_' :: ofNat dispatchId))

/-- The dispatch of a call.  Without one, it is that of the session. -/
def dispatchOf (s : Tool) (call : ShaderCall) : DispatchId :=
  if call.userdata = 0 then s.trace.attConsecutiveKernelDispatchId else call.userdata

/-- The entry of a dispatch, which `operator[]` makes if there is none: what is written to its first
component is left to the caller. -/
def filesOf (s : Tool) (dispatchId : DispatchId) : List FileName :=
  (s.attFilenames dispatchId).elim [] Prod.snd

variable (outputFilename : FileName → FileName) (consecutiveKernels : ℕ)

/-- `att_shader_data_callback`, where `outputFilename` is `get_output_filename` for such files. -/
def attShaderDataCallback (call : ShaderCall) (s : Tool) : Tool :=
  let dispatchId := dispatchOf s call
  let file := outputFilename (shaderFilename call.agent call.seId dispatchId)
  { s with
    attFilenames :=
      s.attFilenames.assign dispatchId (call.agent, filesOf s dispatchId ++ [file])
    written := s.written ++ [⟨file, call.agent, call.seData⟩] }

/-- What can happen: data of a shader engine, or one of the two sections of the callback for
consecutive kernels, on whatever thread. -/
inductive Event
  | shaderData (call : ShaderCall)
  | enter (dispatchId : DispatchId) (isTarget : Bool)
  | complete (dispatchId : DispatchId)
  deriving DecidableEq, Repr

/-- One event. -/
def step (s : Tool) : Event → Option Tool
  | .shaderData call => some (attShaderDataCallback outputFilename call s)
  | .enter dispatchId isTarget =>
    some { s with trace := enterSection consecutiveKernels s.trace dispatchId isTarget }
  | .complete dispatchId => some { s with trace := completionSection s.trace dispatchId }

/-! ## The property -/

/-- The file is listed under the dispatch. -/
def Lists (s : Tool) (dispatchId : DispatchId) (file : FileName) : Prop :=
  file ∈ filesOf s dispatchId

/-- The files have data of the agents that they are listed with, and those that were written are
listed under one dispatch each. -/
structure Attributed (s : Tool) : Prop where
  agent : ∀ dispatchId agent files, s.attFilenames dispatchId = some (agent, files) →
    ∀ w ∈ s.written, w.file ∈ files → w.agent = agent
  listed : ∀ w ∈ s.written, ∃! dispatchId, Lists s dispatchId w.file

/-- The condition on a call: the files that are listed under its dispatch are of its agent. -/
def sameAgent (s : Tool) : Event → Bool
  | .shaderData call => (s.attFilenames (dispatchOf s call)).all fun entry ↦ entry.1 = call.agent
  | _ => true

/-! ## The names of the files -/

/-- **The name of a file** says what it is of. -/
theorem shaderFilename_inj {agent agent' : AgentId} {seId seId' : ℤ}
    {dispatchId dispatchId' : DispatchId}
    (h : shaderFilename agent seId dispatchId = shaderFilename agent' seId' dispatchId') :
    agent = agent' ∧ seId = seId' ∧ dispatchId = dispatchId' := by
  obtain ⟨hagent, h⟩ :=
    append_cons_inj (underscore_notMem_ofNat agent) (underscore_notMem_ofNat agent') h
  obtain ⟨hse, h⟩ := append_cons_inj (underscore_notMem_ofInt seId) (underscore_notMem_ofInt seId')
    (List.append_cancel_left h)
  exact ⟨ofNat_inj hagent, ofInt_inj hse, ofNat_inj h⟩

/-! ## What is known without the condition -/

variable {outputFilename consecutiveKernels} {s t : Tool} {call : ShaderCall} {event : Event}

/-- Every file that was written is listed under the dispatch in its name, and every file that is
listed was written. -/
structure Inv (outputFilename : FileName → FileName) (s : Tool) : Prop where
  written : ∀ w ∈ s.written, ∃ seId dispatchId,
    w.file = outputFilename (shaderFilename w.agent seId dispatchId) ∧ Lists s dispatchId w.file
  listed : ∀ dispatchId, ∀ file ∈ filesOf s dispatchId, ∃ w ∈ s.written, ∃ seId,
    w.file = file ∧ file = outputFilename (shaderFilename w.agent seId dispatchId)
  nonempty : ∀ dispatchId, s.attFilenames dispatchId ≠ none → filesOf s dispatchId ≠ []

theorem attFilenames_callback :
    (attShaderDataCallback outputFilename call s).attFilenames
      = s.attFilenames.assign (dispatchOf s call) (call.agent, filesOf s (dispatchOf s call) ++
        [outputFilename (shaderFilename call.agent call.seId (dispatchOf s call))]) := rfl

theorem filesOf_callback_self :
    filesOf (attShaderDataCallback outputFilename call s) (dispatchOf s call)
      = filesOf s (dispatchOf s call) ++
        [outputFilename (shaderFilename call.agent call.seId (dispatchOf s call))] := by
  rw [filesOf, attFilenames_callback, UMap.assign_self, Option.elim_some]

theorem filesOf_callback_of_ne {dispatchId : DispatchId} (h : dispatchId ≠ dispatchOf s call) :
    filesOf (attShaderDataCallback outputFilename call s) dispatchId = filesOf s dispatchId := by
  rw [filesOf, attFilenames_callback, UMap.assign_of_ne _ _ h, filesOf]

/-- Nothing is taken off a list. -/
theorem Lists.callback {dispatchId : DispatchId} {file : FileName} (h : Lists s dispatchId file) :
    Lists (attShaderDataCallback outputFilename call s) dispatchId file := by
  rw [Lists]
  by_cases hid : dispatchId = dispatchOf s call
  · subst hid
    rw [filesOf_callback_self]
    exact List.mem_append_left _ h
  · rw [filesOf_callback_of_ne hid]
    exact h

theorem inv_callback (h : Inv outputFilename s) :
    Inv outputFilename (attShaderDataCallback outputFilename call s) := by
  refine ⟨fun w hw ↦ ?_, fun dispatchId file hfile ↦ ?_, fun dispatchId hne ↦ ?_⟩
  · rcases List.mem_append.mp hw with hw | hw
    · obtain ⟨seId, dispatchId, hfile, hlists⟩ := h.written w hw
      exact ⟨seId, dispatchId, hfile, hlists.callback⟩
    · obtain rfl := List.mem_singleton.mp hw
      refine ⟨call.seId, dispatchOf s call, rfl, ?_⟩
      rw [Lists, filesOf_callback_self]
      exact List.mem_append_right _ (List.mem_singleton_self _)
  · have hold : file ∈ filesOf s dispatchId →
        ∃ w ∈ (attShaderDataCallback outputFilename call s).written, ∃ seId,
          w.file = file ∧ file = outputFilename (shaderFilename w.agent seId dispatchId) := by
      intro hfile
      obtain ⟨w, hw, seId, heq⟩ := h.listed dispatchId file hfile
      exact ⟨w, List.mem_append_left _ hw, seId, heq⟩
    by_cases hid : dispatchId = dispatchOf s call
    · subst hid
      rw [filesOf_callback_self] at hfile
      rcases List.mem_append.mp hfile with hfile | hfile
      · exact hold hfile
      · obtain rfl := List.mem_singleton.mp hfile
        exact ⟨_, List.mem_append_right _ (List.mem_singleton_self _), call.seId, rfl, rfl⟩
    · rw [filesOf_callback_of_ne hid] at hfile
      exact hold hfile
  · by_cases hid : dispatchId = dispatchOf s call
    · subst hid
      rw [filesOf_callback_self]
      exact List.append_ne_nil_of_right_ne_nil _ (List.cons_ne_nil _ _)
    · rw [filesOf_callback_of_ne hid]
      rw [attFilenames_callback, UMap.assign_of_ne _ _ hid] at hne
      exact h.nonempty dispatchId hne

theorem inv_step (h : Inv outputFilename s)
    (ht : step outputFilename consecutiveKernels s event = some t) : Inv outputFilename t := by
  cases event with
  | shaderData call =>
    cases ht
    exact inv_callback h
  | enter dispatchId isTarget =>
    cases ht
    exact ⟨h.written, h.listed, h.nonempty⟩
  | complete dispatchId =>
    cases ht
    exact ⟨h.written, h.listed, h.nonempty⟩

theorem inv_start : Inv outputFilename {} :=
  ⟨fun _ hw ↦ (by cases hw), fun _ _ hfile ↦ (by cases hfile), fun _ hne ↦ absurd rfl hne⟩

/-! ## The agents -/

section Injective

variable (hinj : Function.Injective outputFilename)

include hinj

/-- A file is listed under one dispatch only. -/
theorem Inv.existsUnique (h : Inv outputFilename s) :
    ∀ w ∈ s.written, ∃! dispatchId, Lists s dispatchId w.file := by
  intro w hw
  obtain ⟨seId, dispatchId, hfile, hlists⟩ := h.written w hw
  refine ⟨dispatchId, hlists, fun dispatchId' hlists' ↦ ?_⟩
  obtain ⟨w', -, seId', -, hfile'⟩ := h.listed dispatchId' w.file hlists'
  exact (shaderFilename_inj (hinj (hfile'.symm.trans hfile))).2.2

/-- The file of a call is written by its agent only. -/
theorem Inv.agent_of_file_eq (h : Inv outputFilename s) {w : Written} (hw : w ∈ s.written)
    {agent : AgentId} {seId : ℤ} {dispatchId : DispatchId}
    (hfile : w.file = outputFilename (shaderFilename agent seId dispatchId)) : w.agent = agent := by
  obtain ⟨seId', dispatchId', hfile', -⟩ := h.written w hw
  exact (shaderFilename_inj (hinj (hfile'.symm.trans hfile))).1

/-- It is not listed under another dispatch. -/
theorem Inv.not_lists_of_ne (h : Inv outputFilename s) {agent : AgentId} {seId : ℤ}
    {dispatchId dispatchId' : DispatchId} (hne : dispatchId' ≠ dispatchId) :
    ¬Lists s dispatchId' (outputFilename (shaderFilename agent seId dispatchId)) := by
  intro hlists
  obtain ⟨w, -, seId', -, hfile⟩ := h.listed dispatchId' _ hlists
  exact hne (shaderFilename_inj (hinj hfile)).2.2.symm

/-- **A call keeps the agents right** when it is of the agent that is there. -/
theorem attributed_callback (hI : Inv outputFilename s) (hA : Attributed s)
    (hC : sameAgent s (.shaderData call) = true) :
    Attributed (attShaderDataCallback outputFilename call s) := by
  refine ⟨fun dispatchId agent files hentry w hw hfile ↦ ?_, (inv_callback hI).existsUnique hinj⟩
  rw [attFilenames_callback] at hentry
  by_cases hid : dispatchId = dispatchOf s call
  · subst hid
    rw [UMap.assign_self] at hentry
    cases hentry
    rcases List.mem_append.mp hw with hw | hw
    · rcases List.mem_append.mp hfile with hfile | hfile
      · -- a file from before, which is listed with the agent of the call
        rcases hold : s.attFilenames (dispatchOf s call) with _ | ⟨agent, files⟩
        · rw [filesOf, hold] at hfile
          cases hfile
        · rw [filesOf, hold] at hfile
          rw [sameAgent, hold, Option.all_some, decide_eq_true_eq] at hC
          exact (hA.agent _ agent files hold w hw hfile).trans hC
      · exact hI.agent_of_file_eq hinj hw (List.mem_singleton.mp hfile)
    · rw [List.mem_singleton.mp hw]
  · rw [UMap.assign_of_ne _ _ hid] at hentry
    have hfiles : filesOf s dispatchId = files := by rw [filesOf, hentry, Option.elim_some]
    rcases List.mem_append.mp hw with hw | hw
    · exact hA.agent dispatchId agent files hentry w hw hfile
    · obtain rfl := List.mem_singleton.mp hw
      exact absurd (hfiles ▸ hfile) (hI.not_lists_of_ne hinj hid)

omit hinj in
/-- A call of another agent makes it wrong: there is a file already. -/
theorem sameAgent_of_attributed (hI : Inv outputFilename s) (hA : Attributed s)
    (ht : Attributed (attShaderDataCallback outputFilename call s)) :
    sameAgent s (.shaderData call) = true := by
  rw [sameAgent]
  rcases hold : s.attFilenames (dispatchOf s call) with _ | ⟨agent, files⟩
  · rfl
  rw [Option.all_some, decide_eq_true_eq]
  have hfiles : filesOf s (dispatchOf s call) = files := by rw [filesOf, hold, Option.elim_some]
  obtain ⟨file, hfile⟩ := List.exists_mem_of_ne_nil _
    (hI.nonempty (dispatchOf s call) (by rw [hold]; exact Option.some_ne_none _))
  obtain ⟨w, hw, -, rfl, -⟩ := hI.listed _ file hfile
  have hbefore : w.agent = agent := hA.agent _ agent files hold w hw (hfiles ▸ hfile)
  have hentry : (attShaderDataCallback outputFilename call s).attFilenames (dispatchOf s call)
      = some (call.agent, filesOf s (dispatchOf s call) ++
        [outputFilename (shaderFilename call.agent call.seId (dispatchOf s call))]) := by
    rw [attFilenames_callback, UMap.assign_self]
  have hafter : w.agent = call.agent :=
    ht.agent _ _ _ hentry w (List.mem_append_left _ hw) (List.mem_append_left _ hfile)
  exact hbefore.symm.trans hafter

theorem attributed_step_iff (hI : Inv outputFilename s) (hA : Attributed s)
    (ht : step outputFilename consecutiveKernels s event = some t) :
    Attributed t ↔ sameAgent s event = true := by
  cases event with
  | shaderData call =>
    cases ht
    exact ⟨sameAgent_of_attributed hI hA, attributed_callback hinj hI hA⟩
  | enter dispatchId isTarget =>
    cases ht
    exact iff_of_true ⟨hA.agent, hA.listed⟩ rfl
  | complete dispatchId =>
    cases ht
    exact iff_of_true ⟨hA.agent, hA.listed⟩ rfl

end Injective

theorem attributed_start : Attributed {} :=
  ⟨fun _ _ _ h ↦ (by cases h), fun _ hw ↦ (by cases hw)⟩

/-- Every event leads somewhere. -/
theorem exists_run (outputFilename : FileName → FileName) (consecutiveKernels : ℕ)
    (events : List Event) (s : Tool) :
    ∃ t, run (step outputFilename consecutiveKernels) s events = some t := by
  induction events generalizing s with
  | nil => exact ⟨s, rfl⟩
  | cons event events ih =>
    rcases event with call | ⟨dispatchId, isTarget⟩ | dispatchId
    · exact ih (attShaderDataCallback outputFilename call s)
    · exact ih { s with trace := enterSection consecutiveKernels s.trace dispatchId isTarget }
    · exact ih { s with trace := completionSection s.trace dispatchId }

/-- **Exactly when the files are attributed right**: when no data comes for a dispatch that has
files of another agent. -/
theorem everywhere_attributed_iff (hinj : Function.Injective outputFilename)
    (consecutiveKernels : ℕ) (events : List Event) :
    Everywhere (step outputFilename consecutiveKernels) {} Attributed events ↔
      Along (step outputFilename consecutiveKernels) {} (fun s event ↦ sameAgent s event = true)
        events := by
  obtain ⟨t, ht⟩ := exists_run outputFilename consecutiveKernels events {}
  exact everywhere_iff_along inv_start (fun _ _ _ hI ht ↦ inv_step hI ht) attributed_start
    (fun _ _ _ hI hA ht ↦ attributed_step_iff hinj hI hA ht) ht

/-! ## Single dispatches -/

/-- Every entry is of the agent of its dispatch. -/
def OfAgents (agentOf : DispatchId → AgentId) (s : Tool) : Prop :=
  ∀ dispatchId entry, s.attFilenames dispatchId = some entry → entry.1 = agentOf dispatchId

/-- Data comes for a dispatch only, and is of its agent. -/
def ofDispatch (agentOf : DispatchId → AgentId) : Event → Prop
  | .shaderData call => call.userdata ≠ 0 ∧ call.agent = agentOf call.userdata
  | _ => True

theorem ofAgents_step {agentOf : DispatchId → AgentId} (hs : OfAgents agentOf s)
    (hevent : ofDispatch agentOf event)
    (ht : step outputFilename consecutiveKernels s event = some t) : OfAgents agentOf t := by
  cases event with
  | shaderData call =>
    obtain ⟨hne, hagent⟩ := hevent
    obtain rfl := Option.some.inj ht
    intro dispatchId entry hentry
    rw [attFilenames_callback, dispatchOf, if_neg hne] at hentry
    rcases eq_or_ne dispatchId call.userdata with rfl | hid
    · rw [UMap.assign_self] at hentry
      rw [← Option.some.inj hentry]
      exact hagent
    · rw [UMap.assign_of_ne _ _ hid] at hentry
      exact hs dispatchId entry hentry
  | enter dispatchId isTarget =>
    obtain rfl := Option.some.inj ht
    exact hs
  | complete dispatchId =>
    obtain rfl := Option.some.inj ht
    exact hs

theorem sameAgent_of_ofAgents {agentOf : DispatchId → AgentId} (hs : OfAgents agentOf s)
    (hevent : ofDispatch agentOf event) : sameAgent s event = true := by
  cases event with
  | shaderData call =>
    obtain ⟨hne, hagent⟩ := hevent
    rw [sameAgent, Option.all_eq_true]
    intro entry hentry
    rw [hs _ entry hentry, dispatchOf, if_neg hne, hagent]
    exact decide_eq_true rfl
  | enter dispatchId isTarget => rfl
  | complete dispatchId => rfl

/-- **Single dispatches** are of one agent each, and have their files attributed right. -/
theorem everywhere_attributed_of_dispatches (hinj : Function.Injective outputFilename)
    (consecutiveKernels : ℕ) {events : List Event} (agentOf : DispatchId → AgentId)
    (h : ∀ call, .shaderData call ∈ events →
      call.userdata ≠ 0 ∧ call.agent = agentOf call.userdata) :
    Everywhere (step outputFilename consecutiveKernels) {} Attributed events := by
  have hevents : ∀ event ∈ events, ofDispatch agentOf event := by
    intro event hevent
    cases event with
    | shaderData call => exact h call hevent
    | enter dispatchId isTarget => trivial
    | complete dispatchId => trivial
  have hstart : OfAgents agentOf {} := fun _ _ hentry ↦ (by cases hentry)
  have hall : Everywhere (step outputFilename consecutiveKernels) {}
      (fun s ↦ Inv outputFilename s ∧ OfAgents agentOf s ∧ Attributed s) events := by
    refine along_invariant ⟨inv_start, hstart, attributed_start⟩ ?_ (along_of_forall_mem hevents)
    rintro s event t ⟨hI, hs, hA⟩ hevent ht
    have hsame : sameAgent s event = true := sameAgent_of_ofAgents hs hevent
    exact ⟨inv_step hI ht, ofAgents_step hs hevent ht,
      (attributed_step_iff hinj hI hA ht).mpr hsame⟩
  exact fun xs s hpre hs ↦ (hall xs s hpre hs).2.2

/-! ## Two agents in one session -/

/-- The files are in a directory, with an extension. -/
def inDirectory (file : FileName) : FileName := "out/".toList ++ (file ++ ".att".toList)

theorem inDirectory_injective : Function.Injective inDirectory :=
  fun _ _ h ↦ List.append_cancel_right (List.append_cancel_left h)

/-- Data of the first shader engine of an agent, without a dispatch. -/
def deviceData (agent : AgentId) : ShaderCall := { agent, seId := 0, seData := [1], userdata := 0 }

/-- **The second agent takes over the files of the first one**, when both have data of the session
that has begun with dispatch `5`. -/
theorem second_agent_takes_over :
    ∃ t, run (step inDirectory 1) {}
        [.enter 5 true, .shaderData (deviceData 1), .shaderData (deviceData 2)] = some t ∧
      t.attFilenames 5 = some (2, [inDirectory "1_shader_engine_0_5".toList,
        inDirectory "2_shader_engine_0_5".toList]) ∧
      ⟨inDirectory "1_shader_engine_0_5".toList, 1, [1]⟩ ∈ t.written ∧ ¬Attributed t := by
  refine ⟨_, rfl, by decide +kernel, by decide +kernel, fun h ↦ ?_⟩
  have hagent := h.agent 5 2 [inDirectory "1_shader_engine_0_5".toList,
    inDirectory "2_shader_engine_0_5".toList] (by decide +kernel)
    ⟨inDirectory "1_shader_engine_0_5".toList, 1, [1]⟩ (by decide +kernel) (by decide +kernel)
  cases hagent

/-- One agent has data of a session, and then of another one, and a dispatch of the other agent is
traced on its own. -/
theorem attributed_one_agent :
    Everywhere (step inDirectory 1) {} Attributed
      [.enter 5 true, .shaderData (deviceData 1), .shaderData { deviceData 1 with seId := -1 },
        .enter 6 false, .complete 5, .shaderData { deviceData 2 with userdata := 7 },
        .enter 8 true, .shaderData (deviceData 1)] :=
  (everywhere_attributed_iff inDirectory_injective 1 _).mpr
    (along_of_checkAlong (by decide +kernel))

end Version3.ThreadTrace.ShaderData
