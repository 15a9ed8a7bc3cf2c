import RocprofTool.Version3.Initialization.Buffers
import Mathlib.Data.List.Nodup

/-!
# The services and their contexts

A service is configured for a context, and for each context at most once; a context with its
services is started, and then what they trace is recorded.  Most services of `tool_init` have a
context of their own.  The client context has several: those that the user asks for, which begin and
end together.

* `Separate` is the invariant: no service has been configured twice for a context of its own, and
  for a context that is not there yet there is none.
* `toolInit_services` says which services the client context has in the end, and
  `toolInit_services_nodup_iff` when one of them has been configured twice: the kernels are traced
  to measure the callbacks of the library, and also counted for the thread trace.
* `toolInit_started` says which contexts are started, and which service comes too late for that.
-/

set_option autoImplicit false

open Version3.CounterGroups Version3.ThreadTrace Tool

namespace Version3.Initialization

/-! ## What the calls do about services -/

/-- A service of a context. -/
inductive Service
  | callback (kind : CallbackTracingKind)
  | buffered (kind : BufferTracingKind)
  | threadTrace (agent : AgentId)
  | counting
  | externalCorrelation
  | pcSampling (agent : AgentId)
  deriving DecidableEq, Repr

/-- The service that a call configures, and its context. -/
def Call.service : Call → Option (ContextId × Service)
  | .configureCallbackTracing context kind _ _ => some (context, .callback kind)
  | .configureBufferTracing context kind _ => some (context, .buffered kind)
  | .configureThreadTrace context configured _ _ => some (context, .threadTrace configured.agent)
  | .configureCounting context _ _ => some (context, .counting)
  | .configureExternalCorrelation context _ _ => some (context, .externalCorrelation)
  | .configurePcSampling context agent _ _ _ _ => some (context, .pcSampling agent)
  | _ => none

/-- The context that a call starts. -/
def Call.starts : Call → Option ContextId
  | .startContext context => some context
  | _ => none

/-- The services that are configured for a context, in order. -/
def services (calls : List Call) (context : ContextId) : List Service :=
  ((calls.filterMap Call.service).filter fun service ↦ service.1 = context).map Prod.snd

/-- The contexts that are started, in order. -/
def started (calls : List Call) : List ContextId := calls.filterMap Call.starts

/-- The services that are configured for a context that has been started before, by calls that come
after other ones. -/
def lateAfter (before : List Call) : List Call → List (ContextId × Service)
  | [] => []
  | call :: calls =>
    (call.service.toList.filter fun service ↦ service.1 ∈ started before)
      ++ lateAfter (before ++ [call]) calls

def late (calls : List Call) : List (ContextId × Service) := lateAfter [] calls

section Lists

variable (xs ys : List Call)

@[simp] theorem services_append (context : ContextId) :
    services (xs ++ ys) context = services xs context ++ services ys context := by
  rw [services, List.filterMap_append, List.filter_append, List.map_append]
  rfl

@[simp] theorem started_append : started (xs ++ ys) = started xs ++ started ys :=
  List.filterMap_append

theorem lateAfter_append (before : List Call) :
    lateAfter before (xs ++ ys) = lateAfter before xs ++ lateAfter (before ++ xs) ys := by
  induction xs generalizing before with
  | nil => rw [List.append_nil]; rfl
  | cons call xs ih =>
    rw [List.cons_append, lateAfter, lateAfter, ih, List.append_assoc, List.append_assoc,
      List.singleton_append]

theorem late_append : late (xs ++ ys) = late xs ++ lateAfter xs ys :=
  lateAfter_append xs ys []

/-- Calls for contexts that have not been started, none of which starts one. -/
theorem lateAfter_eq_nil {xs ys : List Call} (hstarts : started ys = [])
    (h : ∀ service ∈ ys.filterMap Call.service, service.1 ∉ started xs) : lateAfter xs ys = [] := by
  induction ys generalizing xs with
  | nil => rfl
  | cons call ys ih =>
    rw [← List.singleton_append, started_append, List.append_eq_nil_iff] at hstarts
    rw [lateAfter, List.append_eq_nil_iff]
    refine ⟨List.filter_eq_nil_iff.mpr fun service hmem ↦ ?_, ih hstarts.2 fun service hmem ↦ ?_⟩
    · rw [decide_eq_true_eq]
      refine h service (List.mem_filterMap.mpr ⟨call, List.mem_cons_self, ?_⟩)
      exact Option.mem_toList.mp hmem
    · rw [started_append, hstarts.1, List.append_nil]
      obtain ⟨call', hcall', hservice⟩ := List.mem_filterMap.mp hmem
      exact h service (List.mem_filterMap.mpr ⟨call', List.mem_cons_of_mem _ hcall', hservice⟩)

end Lists

/-- A service with a callback is configured, to measure the library. -/
def Measured (env : Environment) (service : CallbackServiceConfig) : Prop :=
  service.option = true ∧ env.cfg.benchmarkMode = .sdkCallbackOverhead

instance (env : Environment) (service : CallbackServiceConfig) :
    Decidable (Measured env service) :=
  inferInstanceAs (Decidable (_ ∧ _))

instance (env : Environment) : Decidable (Samples env) := inferInstanceAs (Decidable (_ ∨ _))

/-- The kinds of the buffered services that are asked for. -/
def bufferedKinds (env : Environment) : List BufferTracingKind :=
  ((bufferServices env.cfg).filter (Enabled env ·)).map BufferServiceConfig.kind

/-- The kinds of the services that are configured to measure the library. -/
def measuredKinds (env : Environment) : List CallbackTracingKind :=
  ((callbackServices env.cfg).filter (Measured env ·)).map CallbackServiceConfig.kind

/-- The agents whose threads are traced. -/
def tracedAgents (env : Environment) : List AgentId :=
  match Agents.configureThreadTrace env.att env.agentCounterInfo env.attGpuIndex env.agentsMap with
  | .error _ => []
  | .ok selection => selection.configured.map Agents.Configured.agent

/-- The agents that are sampled. -/
def sampledAgents (env : Environment) : List AgentId :=
  if Samples env then env.gpuAgents.filter (ifPcSampleConfigMatch env) else []

/-- The client context is started at once. -/
def Records (env : Environment) : Prop :=
  env.cfg.benchmarkMode ≠ .disabledContextsOverhead ∧ env.selectedRegions = false ∧
    env.hasCollectionPeriods = false

instance (env : Environment) : Decidable (Records env) := inferInstanceAs (Decidable (_ ∧ _ ∧ _))

/-- What the thread trace adds to the client context. -/
def threadTraceServices (env : Environment) : List Service :=
  if env.cfg.advancedThreadTrace then
    if env.att.attConsecutiveKernels ≥ 1 then [.callback .kernelDispatch]
    else (tracedAgents env).map .threadTrace
  else []

/-- The services of the client context before it is started, in order. -/
def configuredServices (env : Environment) : List Service :=
  (if env.cfg.markerApiTrace then [.callback .markerCoreRangeApi] else []) ++
  (bufferedKinds env).map .buffered ++ (measuredKinds env).map .callback ++
  threadTraceServices env ++
  (if env.cfg.benchmarkMode ≠ .executionProfile then [.externalCorrelation] else []) ++
  (sampledAgents env).map .pcSampling

/-- **The services of the client context.**  With `execution_profile` one is configured when the
context is started. -/
def clientServices (env : Environment) : List Service :=
  configuredServices env ++
    if Records env ∧ env.cfg.benchmarkMode = .executionProfile then [.externalCorrelation] else []

/-! ## The invariant -/

/-- Is it a service that traces threads?  Those of the device are started for each dispatch. -/
def Service.tracesThreads : Service → Bool
  | .threadTrace _ => true
  | _ => false

/-- The context has a service that does not trace threads. -/
def Used (calls : List Call) (context : ContextId) : Prop :=
  ∃ service ∈ services calls context, service.tracesThreads = false

/-- The context has been created. -/
def Given (env : Environment) (s : Setup) (context : ContextId) : Prop :=
  ∃ i < s.contexts, context = env.handles.context i

/-- **The contexts are kept apart.**  The ones that are used are started, unless nothing is. -/
structure Separate (env : Environment) (s : Setup) : Prop where
  client_given : Given env s s.clientCtx
  fresh : ∀ context, ¬Given env s context → services s.calls context = []
  nodup : ∀ context, context ≠ s.clientCtx → (services s.calls context).Nodup
  started_nodup : (started s.calls).Nodup
  mem_started : ∀ context, context ∈ started s.calls ↔
    env.cfg.benchmarkMode ≠ .disabledContextsOverhead ∧ context ≠ s.clientCtx ∧
      Used s.calls context

/-- What a part of `tool_init` does: the client context gets these services, and the other contexts
that are there already get none. -/
structure Extends (env : Environment) (new : List Service) (s t : Setup) : Prop where
  separate : Separate env t
  clientCtx : t.clientCtx = s.clientCtx
  contexts : s.contexts ≤ t.contexts
  client : services t.calls s.clientCtx = services s.calls s.clientCtx ++ new
  others : ∀ context, context ≠ s.clientCtx → Given env s context →
    services t.calls context = services s.calls context
  late_eq : late t.calls = late s.calls

section Steps

variable {env : Environment} {s t u : Setup} {new new' : List Service}

theorem Given.mono {context : ContextId} (h : Given env s context) (hle : s.contexts ≤ t.contexts) :
    Given env t context := by
  obtain ⟨i, hi, hcontext⟩ := h
  exact ⟨i, hi.trans_le hle, hcontext⟩

/-- The context that is created next is a new one. -/
theorem not_given_next (env : Environment) (s : Setup) : ¬Given env s (s.nextContext env) := by
  rintro ⟨i, hi, heq⟩
  exact hi.ne' (env.handles.context_injective heq)

theorem given_next (hcontexts : t.contexts = s.contexts + 1) : Given env t (s.nextContext env) :=
  ⟨s.contexts, hcontexts ▸ Nat.lt_succ_self _, rfl⟩

theorem Given.ne_next {context : ContextId} (h : Given env s context) :
    context ≠ s.nextContext env := by
  rintro rfl
  exact not_given_next env s h

theorem Given.ne_zero {context : ContextId} (h : Given env s context) : context ≠ 0 := by
  obtain ⟨i, -, rfl⟩ := h
  exact env.handles.context_ne_zero i

theorem Extends.refl (h : Separate env s) : Extends env [] s s :=
  ⟨h, rfl, le_rfl, (List.append_nil _).symm, fun _ _ _ ↦ rfl, rfl⟩

theorem Extends.trans (h : Extends env new s t) (h' : Extends env new' t u) :
    Extends env (new ++ new') s u := by
  refine ⟨h'.separate, h'.clientCtx.trans h.clientCtx, h.contexts.trans h'.contexts, ?_,
    fun context hne hgiven ↦ ?_, h'.late_eq.trans h.late_eq⟩
  · have hclient := h'.client
    rw [h.clientCtx] at hclient
    rw [hclient, h.client, List.append_assoc]
  · rw [h'.others context (h.clientCtx ▸ hne) (hgiven.mono h.contexts),
      h.others context hne hgiven]

/-- The services of calls that are all for one context. -/
theorem services_of_eq {calls : List Call} {context : ContextId}
    (h : calls.filterMap Call.service = new.map fun service ↦ (context, service)) :
    services calls context = new ∧
      ∀ context', context' ≠ context → services calls context' = [] := by
  constructor
  · rw [services, h, List.filter_eq_self.mpr fun service hmem ↦ ?_, List.map_map]
    · exact List.map_id _
    · obtain ⟨_, -, rfl⟩ := List.mem_map.mp hmem
      exact decide_eq_true rfl
  · intro context' hne
    rw [services, h, List.filter_eq_nil_iff.mpr, List.map_nil]
    intro service hmem
    obtain ⟨_, -, rfl⟩ := List.mem_map.mp hmem
    rw [decide_eq_true_eq]
    exact hne.symm

/-- They do not come late when the context has not been started. -/
theorem lateAfter_of_eq {before calls : List Call} {context : ContextId}
    (hstarts : started calls = []) (hnot : context ∉ started before)
    (h : calls.filterMap Call.service = new.map fun service ↦ (context, service)) :
    lateAfter before calls = [] := by
  refine lateAfter_eq_nil hstarts fun service hmem ↦ ?_
  rw [h] at hmem
  obtain ⟨_, -, rfl⟩ := List.mem_map.mp hmem
  exact hnot

theorem Separate.client_notMem (h : Separate env s) : s.clientCtx ∉ started s.calls :=
  fun hmem ↦ ((h.mem_started _).mp hmem).2.1 rfl

theorem Separate.notMem_started (h : Separate env s) {context : ContextId}
    (hnot : ¬Given env s context) : context ∉ started s.calls := by
  intro hmem
  obtain ⟨-, -, service, hservice, -⟩ := (h.mem_started _).mp hmem
  rw [h.fresh context hnot] at hservice
  cases hservice

theorem used_congr {xs ys : List Call} {context : ContextId}
    (h : services xs context = services ys context) : Used xs context ↔ Used ys context := by
  rw [Used, h, Used]

/-- Calls that configure services of the client context. -/
theorem Separate.of_calls (h : Separate env s) (calls : List Call)
    (hcalls : t.calls = s.calls ++ calls) (hclientCtx : t.clientCtx = s.clientCtx)
    (hcontexts : s.contexts ≤ t.contexts) (hstarts : started calls = [])
    (hnew : calls.filterMap Call.service = new.map fun service ↦ (s.clientCtx, service)) :
    Extends env new s t := by
  obtain ⟨hself, hne⟩ := services_of_eq hnew
  have hother : ∀ context, context ≠ s.clientCtx →
      services t.calls context = services s.calls context := fun context hcontext ↦ by
    rw [hcalls, services_append, hne context hcontext, List.append_nil]
  have hstarted : started t.calls = started s.calls := by
    rw [hcalls, started_append, hstarts, List.append_nil]
  refine ⟨⟨?_, fun context hnot ↦ ?_, fun context hcontext ↦ ?_, ?_, fun context ↦ ?_⟩,
    hclientCtx, hcontexts, ?_, fun context hcontext _ ↦ hother context hcontext, ?_⟩
  · rw [hclientCtx]
    exact h.client_given.mono hcontexts
  · have hnot' : ¬Given env s context := fun hgiven ↦ hnot (hgiven.mono hcontexts)
    rw [hother context fun heq ↦ hnot' (heq ▸ h.client_given), h.fresh context hnot']
  · rw [hclientCtx] at hcontext
    rw [hother context hcontext]
    exact h.nodup context hcontext
  · rw [hstarted]
    exact h.started_nodup
  · rw [hstarted, h.mem_started, hclientCtx]
    exact and_congr_right fun _ ↦ and_congr_right fun hcontext ↦
      used_congr (hother context hcontext).symm
  · rw [hcalls, services_append, hself]
  · rw [hcalls, late_append, lateAfter_of_eq hstarts h.client_notMem hnew, List.append_nil]

theorem Separate.call (h : Separate env s) (call : Call) {service : Service}
    (hstarts : call.starts = none) (hservice : call.service = some (s.clientCtx, service)) :
    Extends env [service] s (s.call call) := by
  refine h.of_calls [call] rfl rfl le_rfl (List.filterMap_cons_none hstarts) ?_
  rw [List.filterMap_cons_some hservice, List.filterMap_nil]
  rfl

/-! ## A context of its own -/

/-- What `execution_profile` adds to a context that is started. -/
def profileServices (env : Environment) : List Service :=
  if env.cfg.benchmarkMode = .executionProfile then [.externalCorrelation] else []

/-- The calls of `start_context`. -/
def startCalls (env : Environment) (context : ContextId) : List Call :=
  (if env.cfg.benchmarkMode = .executionProfile then
    [.configureExternalCorrelation context [] .recordExecutionProfile] else []) ++
  if env.cfg.benchmarkMode = .disabledContextsOverhead then [] else [.startContext context]

theorem startContext_eq {context : ContextId} (hne : context ≠ 0) :
    s.startContext env context = s.callAll (startCalls env context) := by
  rw [Setup.startContext, startCalls]
  by_cases hdisabled : env.cfg.benchmarkMode = .disabledContextsOverhead
  · rw [if_neg fun hmode ↦ hmode.1 hdisabled, if_pos hdisabled, if_neg (by rw [hdisabled]; decide)]
    exact congrArg (fun calls ↦ { s with calls }) (List.append_nil _).symm
  · rw [if_pos ⟨hdisabled, hne⟩, if_neg hdisabled]
    split_ifs
    · exact congrArg (fun calls ↦ { s with calls }) (List.append_assoc _ _ _)
    · rfl

theorem services_startCalls (env : Environment) (context : ContextId) :
    (startCalls env context).filterMap Call.service
      = (profileServices env).map fun service ↦ (context, service) := by
  rw [startCalls, profileServices]
  split_ifs <;> rfl

theorem started_startCalls (context : ContextId) :
    started (startCalls env context)
      = if env.cfg.benchmarkMode = .disabledContextsOverhead then [] else [context] := by
  rw [startCalls]
  split_ifs <;> rfl

/-- A context is started after its services are configured. -/
theorem lateAfter_startCalls {xs : List Call} {context : ContextId} (h : context ∉ started xs) :
    lateAfter xs (startCalls env context) = [] := by
  rw [startCalls, lateAfter_append, List.append_eq_nil_iff]
  constructor
  · split_ifs
    · refine lateAfter_eq_nil rfl fun service hmem ↦ ?_
      rw [List.mem_singleton.mp hmem]
      exact h
    · rfl
  · split_ifs <;> rfl

theorem nextContext_ne_zero (env : Environment) (s : Setup) : s.nextContext env ≠ 0 :=
  env.handles.context_ne_zero _

theorem contexts_ownContext (env : Environment) (s : Setup) (configure : ContextId → Call) :
    (s.ownContext env configure).contexts = s.contexts + 1 := by
  rw [Setup.ownContext, startContext_eq (nextContext_ne_zero env s)]
  rfl

theorem counterCollectionCtx_ownContext (env : Environment) (s : Setup)
    (configure : ContextId → Call) :
    (s.ownContext env configure).counterCollectionCtx = s.counterCollectionCtx := by
  rw [Setup.ownContext, startContext_eq (nextContext_ne_zero env s)]
  rfl

/-- **A context of its own.** -/
theorem Separate.ownContext (h : Separate env s) (configure : ContextId → Call) (service : Service)
    (hstarts : ∀ context, (configure context).starts = none)
    (hservice : ∀ context, (configure context).service = some (context, service))
    (hne : service ≠ .externalCorrelation) (htraces : service.tracesThreads = false) :
    Extends env [] s (s.ownContext env configure) ∧
      services (s.ownContext env configure).calls (s.nextContext env)
        = service :: profileServices env := by
  have hnot := not_given_next env s
  have hnext : Given env (s.ownContext env configure) (s.nextContext env) :=
    given_next (contexts_ownContext env s configure)
  have heq : s.ownContext env configure = { s with contexts := s.contexts + 1 }.callAll
      ([Call.createContext (s.nextContext env), configure (s.nextContext env)]
        ++ startCalls env (s.nextContext env)) := by
    rw [Setup.ownContext, startContext_eq (nextContext_ne_zero env s)]
    refine congrArg (fun calls ↦ { s with contexts := s.contexts + 1, calls }) ?_
    show ((s.calls ++ [_]) ++ [_]) ++ _ = s.calls ++ _
    rw [List.append_assoc, List.append_assoc]
    rfl
  have hclient : s.clientCtx ≠ s.nextContext env := h.client_given.ne_next
  have hgiven : ∀ context, Given env s context → context ≠ s.nextContext env :=
    fun _ hcontext ↦ hcontext.ne_next
  generalize s.nextContext env = next at *
  have hpre : [Call.createContext next, configure next].filterMap Call.service
      = [(next, service)] := by
    rw [List.filterMap_cons_none rfl, List.filterMap_cons_some (hservice _), List.filterMap_nil]
  have hprestart : started [Call.createContext next, configure next] = [] := by
    rw [started, List.filterMap_cons_none rfl, List.filterMap_cons_none (hstarts _),
      List.filterMap_nil]
  generalize [Call.createContext next, configure next] = pre at *
  have hnotMem : next ∉ started s.calls := h.notMem_started hnot
  have hservices : (pre ++ startCalls env next).filterMap Call.service
      = (service :: profileServices env).map fun service ↦ (next, service) := by
    rw [List.filterMap_append, hpre, services_startCalls]
    rfl
  obtain ⟨hown, hnone⟩ := services_of_eq hservices
  have hstarted : started (pre ++ startCalls env next)
      = if env.cfg.benchmarkMode = .disabledContextsOverhead then [] else [next] := by
    rw [started_append, hprestart, started_startCalls, List.nil_append]
  have hother : ∀ context, context ≠ next →
      services (s.ownContext env configure).calls context = services s.calls context := by
    intro context hcontext
    rw [heq]
    show services (s.calls ++ _) context = _
    rw [services_append, hnone context hcontext, List.append_nil]
  have hself : services (s.ownContext env configure).calls next
      = service :: profileServices env := by
    rw [heq]
    show services (s.calls ++ _) _ = _
    rw [services_append, h.fresh _ hnot, hown, List.nil_append]
  have hclientCtx : (s.ownContext env configure).clientCtx = s.clientCtx := by rw [heq]; rfl
  have hcontexts : s.contexts ≤ (s.ownContext env configure).contexts :=
    contexts_ownContext env s configure ▸ Nat.le_succ _
  have hcalls : (s.ownContext env configure).calls
      = s.calls ++ (pre ++ startCalls env next) := by rw [heq]; rfl
  refine ⟨⟨⟨?_, fun context hfresh ↦ ?_, fun context hcontext ↦ ?_, ?_, fun context ↦ ?_⟩,
    hclientCtx, hcontexts, ?_, fun context _ hcontext ↦ hother context (hgiven context hcontext),
    ?_⟩, hself⟩
  · rw [hclientCtx]
    exact h.client_given.mono hcontexts
  · rw [hother context fun heq ↦ hfresh (heq ▸ hnext),
      h.fresh context fun hcontext ↦ hfresh (hcontext.mono hcontexts)]
  · rcases eq_or_ne context next with rfl | hnew
    · rw [hself, profileServices]
      split_ifs
      · exact List.nodup_cons.mpr ⟨by rwa [List.mem_singleton], List.nodup_singleton _⟩
      · exact List.nodup_singleton _
    · rw [hother context hnew]
      rw [hclientCtx] at hcontext
      exact h.nodup context hcontext
  · rw [hcalls, started_append, hstarted]
    split_ifs
    · rw [List.append_nil]
      exact h.started_nodup
    · refine List.nodup_append.mpr ⟨h.started_nodup, List.nodup_singleton _, ?_⟩
      rintro context hmem _ hself rfl
      exact hnotMem (List.mem_singleton.mp hself ▸ hmem)
  · rw [hcalls, started_append, hstarted, List.mem_append, h.mem_started, ← hcalls, hclientCtx]
    rcases eq_or_ne context next with rfl | hnew
    · have hused : Used (s.ownContext env configure).calls context :=
        ⟨service, hself ▸ List.mem_cons_self, htraces⟩
      have hunused : ¬Used s.calls context := by
        rintro ⟨service, hmem, -⟩
        rw [h.fresh _ hnot] at hmem
        cases hmem
      split_ifs with hdisabled
      · simp [hdisabled]
      · simp [hdisabled, hused, hunused, hclient.symm]
    · rw [used_congr (hother context hnew)]
      split_ifs <;> simp [hnew]
  · rw [hother _ hclient, List.append_nil]
  · rw [hcalls, late_append, lateAfter_append, lateAfter_eq_nil hprestart, List.nil_append,
      lateAfter_startCalls, List.append_nil]
    · rw [started_append, hprestart, List.append_nil]
      exact hnotMem
    · rw [hpre]
      exact List.forall_mem_singleton.mpr hnotMem

/-! ## The parts -/

theorem Separate.client (env : Environment) : Separate env (({} : Setup).client env) :=
  ⟨⟨0, Nat.one_pos, rfl⟩, fun _ _ ↦ rfl, fun _ _ ↦ .nil, .nil, fun _ ↦
    iff_of_false nofun fun ⟨_, _, _, hmem, _⟩ ↦ nomatch hmem⟩

theorem Separate.codeObjects (h : Separate env s) : Extends env [] s (s.codeObjects env) :=
  (h.ownContext _ (.callback .codeObject) (fun _ ↦ rfl) (fun _ ↦ rfl) (by decide) rfl).1

theorem Separate.markers (h : Separate env s) :
    Extends env (if env.cfg.markerApiTrace then [.callback .markerCoreRangeApi] else []) s
      (s.markers env) := by
  rw [Setup.markers]
  split_ifs
  · have hcall := h.call (.configureCallbackTracing s.clientCtx .markerCoreRangeApi []
      (getTracingCallbacks env.cfg).callbackTracing) rfl rfl
    exact hcall.trans (hcall.separate.ownContext _ (.callback .markerControlApi) (fun _ ↦ rfl)
      (fun _ ↦ rfl) (by decide) rfl).1
  · exact .refl h

theorem Separate.ensureBuffer (h : Separate env s) (name : BufferName) :
    Extends env [] s (s.ensureBuffer env name) := by
  rw [Setup.ensureBuffer]
  split_ifs
  · exact h.of_calls [.createBuffer s.clientCtx (getTracingCallbacks env.cfg).bufferedTracing
      (env.handles.buffer s.buffers), .createCallbackThread (env.handles.thread s.threads),
      .assignCallbackThread _ _] (List.append_assoc _ _ _) rfl le_rfl rfl rfl
  · exact .refl h

theorem Separate.bufferService (h : Separate env s) (service : BufferServiceConfig) :
    Extends env (if Enabled env service then [.buffered service.kind] else []) s
      (s.bufferService env service) := by
  rw [Setup.bufferService]
  by_cases hoption : service.option = true
  · rw [if_pos hoption]
    by_cases hmode : env.cfg.benchmarkMode = .sdkCallbackOverhead
    · rw [if_pos hmode, if_neg fun henabled ↦ henabled.2 hmode]
      exact .refl h
    · rw [if_neg hmode, if_pos ⟨hoption, hmode⟩]
      have hensured := h.ensureBuffer service.buffer
      exact hensured.trans (hensured.separate.call _ rfl rfl)
  · rw [if_neg hoption, if_neg fun henabled ↦ hoption henabled.1]
    exact .refl h

theorem Separate.callbackService (h : Separate env s) (service : CallbackServiceConfig) :
    Extends env (if Measured env service then [.callback service.kind] else []) s
      (s.callbackService env service) := by
  rw [Setup.callbackService]
  by_cases hoption : service.option = true
  · rw [if_pos hoption]
    by_cases hmode : env.cfg.benchmarkMode = .sdkCallbackOverhead
    · rw [if_neg (not_not_intro hmode), if_pos ⟨hoption, hmode⟩]
      exact h.call _ rfl rfl
    · rw [if_pos hmode, if_neg fun hmeasured ↦ hmode hmeasured.2]
      exact .refl h
  · rw [if_neg hoption, if_neg fun hmeasured ↦ hoption hmeasured.1]
    exact .refl h

/-- **A loop**, whose rounds configure a service each when a condition holds. -/
theorem Separate.foldl {α : Type} {step : Setup → α → Setup} {P : α → Prop} [DecidablePred P]
    {service : α → Service}
    (hstep : ∀ s a, Separate env s → Extends env (if P a then [service a] else []) s (step s a))
    (h : Separate env s) (configs : List α) :
    Extends env ((configs.filter (P ·)).map service) s (configs.foldl step s) := by
  induction configs generalizing s with
  | nil => exact .refl h
  | cons a configs ih =>
    have hround := hstep s a h
    have hall := hround.trans (ih hround.separate)
    by_cases hP : P a
    · have hfilter : (a :: configs).filter (P ·) = a :: configs.filter (P ·) :=
        List.filter_cons_of_pos (decide_eq_true hP)
      rw [if_pos hP] at hall
      rw [hfilter]
      exact hall
    · have hfilter : (a :: configs).filter (P ·) = configs.filter (P ·) :=
        List.filter_cons_of_neg fun htrue ↦ hP (of_decide_eq_true htrue)
      rw [if_neg hP] at hall
      rw [hfilter]
      exact hall

/-! ## The thread trace -/

/-- What the loop over the agents adds: a call of the same service for some of them. -/
theorem exists_of_configureAgents {params : List Agents.Parameter} {selecting : Bool}
    {entries : List (AgentId × Agent)} (hkeyed : ∀ entry ∈ entries, entry.2.id = entry.1)
    {before after : Agents.Selection}
    (h : entries.foldlM (Agents.configureAgent env.att env.agentCounterInfo params selecting) before
      = .ok after) :
    ∃ new, after.configured = before.configured ++ new ∧
      (new.map Agents.Configured.agent).Sublist (entries.map Prod.fst) ∧
      ∀ configured ∈ new, configured.service = Agents.serviceOf env.att := by
  induction entries generalizing before with
  | nil =>
    cases h
    exact ⟨[], (List.append_nil _).symm, .slnil, nofun⟩
  | cons entry entries ih =>
    rw [List.forall_mem_cons] at hkeyed
    rw [List.foldlM_cons] at h
    rcases hround : Agents.configureAgent env.att env.agentCounterInfo params selecting before
        entry with failure | next
    · rw [hround] at h
      cases h
    · rw [hround] at h
      obtain ⟨new, hnew, hsub, hservice⟩ := ih hkeyed.2 h
      rw [Agents.configureAgent] at hround
      dsimp only at hround
      split_ifs at hround
      · cases hround
        exact ⟨new, hnew, hsub.cons _, hservice⟩
      · cases hround
        exact ⟨new, hnew, hsub.cons _, hservice⟩
      all_goals
        rcases hparams : Agents.getAttPerfcounterParams env.agentCounterInfo entry.1
            env.att.attParamPerfcounters with failure | own
        · rw [hparams] at hround
          cases hround
        · rw [hparams] at hround
          cases hround
          rw [List.append_assoc] at hnew
          refine ⟨_, hnew, ?_, List.forall_mem_cons.mpr ⟨rfl, hservice⟩⟩
          rw [List.singleton_append, List.map_cons, List.map_cons]
          cases hkind : Agents.serviceOf env.att
          · exact hsub.cons_cons _
          · exact hkeyed.1 ▸ hsub.cons_cons _

/-- The calls for a context that is new, and traces threads only. -/
theorem Extends.threadTrace (h : Extends env new s t) {calls : List Call} {context : ContextId}
    {agents : List AgentId} (hclient : Given env s s.clientCtx) (hnot : ¬Given env s context)
    (hgiven : Given env t context) (hempty : services t.calls context = [])
    (hstarts : started calls = [])
    (hservices : calls.filterMap Call.service
      = (agents.map Service.threadTrace).map fun service ↦ (context, service))
    (hnodup : agents.Nodup) : Extends env new s (t.callAll calls) := by
  obtain ⟨hown, hnone⟩ := services_of_eq hservices
  have hself : services (t.calls ++ calls) context = agents.map .threadTrace := by
    rw [services_append, hempty, hown, List.nil_append]
  have hother : ∀ context', context' ≠ context →
      services (t.calls ++ calls) context' = services t.calls context' := fun context' hne ↦ by
    rw [services_append, hnone context' hne, List.append_nil]
  have hstarted : started (t.calls ++ calls) = started t.calls := by
    rw [started_append, hstarts, List.append_nil]
  have hused : ∀ context', Used (t.calls ++ calls) context' ↔ Used t.calls context' := by
    intro context'
    rcases eq_or_ne context' context with rfl | hne
    · refine iff_of_false ?_ ?_
      · rintro ⟨service, hmem, htraces⟩
        rw [hself] at hmem
        obtain ⟨agent, -, rfl⟩ := List.mem_map.mp hmem
        cases htraces
      · rintro ⟨service, hmem, -⟩
        rw [hempty] at hmem
        cases hmem
    · exact used_congr (hother context' hne)
  have hsep := h.separate
  refine ⟨⟨hsep.client_given, fun context' hfresh ↦ ?_, fun context' hne ↦ ?_, ?_,
    fun context' ↦ ?_⟩, h.clientCtx, h.contexts, ?_, fun context' hne hcontext ↦ ?_, ?_⟩
  · exact (hother context' fun heq ↦ hfresh (heq ▸ hgiven)).trans (hsep.fresh context' hfresh)
  · show (services (t.calls ++ calls) context').Nodup
    rcases eq_or_ne context' context with rfl | hne'
    · rw [hself]
      exact hnodup.map fun _ _ heq ↦ Service.threadTrace.inj heq
    · rw [hother context' hne']
      exact hsep.nodup context' hne
  · exact hstarted ▸ hsep.started_nodup
  · show context' ∈ started (t.calls ++ calls) ↔ _ ∧ _ ∧ Used (t.calls ++ calls) context'
    rw [hstarted, hused]
    exact hsep.mem_started context'
  · exact (hother _ fun heq ↦ hnot (heq ▸ hclient)).trans h.client
  · exact (hother context' fun heq ↦ hnot (heq ▸ hcontext)).trans (h.others context' hne hcontext)
  · show late (t.calls ++ calls) = _
    rw [late_append, lateAfter_of_eq hstarts ?_ hservices, List.append_nil, h.late_eq]
    intro hmem
    obtain ⟨-, -, service, hservice, -⟩ := (hsep.mem_started context).mp hmem
    rw [hempty] at hservice
    cases hservice

/-- The agents that are configured are different ones. -/
theorem configured_of_configureThreadTrace {selection : Agents.Selection}
    (h : Agents.configureThreadTrace env.att env.agentCounterInfo env.attGpuIndex env.agentsMap
      = .ok selection) :
    (selection.configured.map Agents.Configured.agent).Nodup ∧
      ∀ configured ∈ selection.configured, configured.service = Agents.serviceOf env.att := by
  rw [Agents.configureThreadTrace] at h
  rcases hglobal : Agents.globalParameters env.att with failure | params
  · rw [hglobal] at h
    cases h
  · rw [hglobal] at h
    obtain ⟨new, hnew, hsub, hservice⟩ := exists_of_configureAgents env.agentsMap.keyed h
    rw [List.nil_append] at hnew
    rw [hnew]
    exact ⟨env.agentsMap.nodup.sublist hsub, hservice⟩

/-- The calls for the agents are all for one context. -/
theorem service_threadTraceCall (s : Setup) {configured : List Agents.Configured}
    {context : ContextId} (hcontext : ∀ c ∈ configured, (s.threadTraceCall env c).service
      = some (context, .threadTrace c.agent)) :
    (configured.map (s.threadTraceCall env)).filterMap Call.service
      = ((configured.map Agents.Configured.agent).map Service.threadTrace).map
        fun service ↦ (context, service) := by
  rw [List.filterMap_map, List.map_map, List.map_map, ← List.filterMap_eq_map']
  exact List.filterMap_congr hcontext

theorem started_threadTraceCall (s : Setup) (configured : List Agents.Configured) :
    started (configured.map (s.threadTraceCall env)) = [] := by
  refine List.filterMap_eq_nil_iff.mpr fun call hcall ↦ ?_
  obtain ⟨c, -, rfl⟩ := List.mem_map.mp hcall
  rw [Setup.threadTraceCall]
  cases c.service <;> rfl

/-- **The thread trace**: it is the client context that traces single kernels, and a context of its
own that traces consecutive ones. -/
theorem Separate.advancedThreadTrace (h : Separate env s) (ht : s.advancedThreadTrace env = .ok t) :
    Extends env (threadTraceServices env) s t := by
  rw [Setup.advancedThreadTrace] at ht
  rw [threadTraceServices]
  by_cases hatt : env.cfg.advancedThreadTrace = true
  swap
  · rw [if_neg hatt] at ht ⊢
    cases ht
    exact .refl h
  rw [if_pos hatt] at ht ⊢
  rw [tracedAgents]
  rcases hselection : Agents.configureThreadTrace env.att env.agentCounterInfo env.attGpuIndex
      env.agentsMap with failure | selection
  · rw [hselection] at ht
    cases ht
  · rw [hselection] at ht
    obtain ⟨hnodup, hservice⟩ := configured_of_configureThreadTrace hselection
    cases ht
    rw [Setup.consecutiveKernels]
    by_cases hconsecutive : env.att.attConsecutiveKernels ≥ 1
    · rw [if_pos hconsecutive, if_pos hconsecutive]
      have hclient : [Call.createContext (s.nextContext env), .configureCallbackTracing s.clientCtx
          .kernelDispatch [] (getTracingCallbacks env.cfg).attDispatchConsecutiveKernel].filterMap
          Call.service = [Service.callback .kernelDispatch].map fun service ↦
            (s.clientCtx, service) := rfl
      have hcounted : Extends env [.callback .kernelDispatch] s ({ s.createContext env with
          attDeviceContext := s.nextContext env }.call (.configureCallbackTracing s.clientCtx
            .kernelDispatch [] (getTracingCallbacks env.cfg).attDispatchConsecutiveKernel)) :=
        h.of_calls _ (List.append_assoc _ _ _) rfl (Nat.le_succ _) rfl hclient
      refine hcounted.threadTrace h.client_given (not_given_next env s) (given_next rfl) ?_
        (started_threadTraceCall _ _) (service_threadTraceCall _ fun c hmem ↦ ?_) hnodup
      · show services ((s.calls ++ [_]) ++ [_]) (s.nextContext env) = []
        rw [List.append_assoc, services_append, h.fresh _ (not_given_next env s), List.nil_append]
        exact (services_of_eq hclient).2 _ h.client_given.ne_next.symm
      · rw [Setup.threadTraceCall, hservice c hmem, Agents.serviceOf, if_pos hconsecutive]
        rfl
    · rw [if_neg hconsecutive, if_neg hconsecutive]
      refine h.of_calls _ rfl rfl le_rfl (started_threadTraceCall _ _)
        (service_threadTraceCall s fun c hmem ↦ ?_)
      rw [Setup.threadTraceCall, hservice c hmem, Agents.serviceOf, if_neg hconsecutive]
      rfl

/-! ## The other contexts -/

/-- The context of the counters, which it is the only one that `tool_init` comes back to. -/
structure Counting (env : Environment) (s : Setup) : Prop where
  ne : s.counterCollectionCtx ≠ s.clientCtx
  given : Given env s s.counterCollectionCtx
  services_eq : services s.calls s.counterCollectionCtx = .counting :: profileServices env

theorem Counting.of_extends (h : Counting env s) (hext : Extends env new s t)
    (hctx : t.counterCollectionCtx = s.counterCollectionCtx) : Counting env t := by
  refine ⟨?_, ?_, ?_⟩
  · rw [hctx, hext.clientCtx]
    exact h.ne
  · rw [hctx]
    exact h.given.mono hext.contexts
  · rw [hctx, hext.others _ h.ne h.given, h.services_eq]

theorem Extends.withCounting (h : Extends env new s t) (context : ContextId) :
    Extends env new s { t with counterCollectionCtx := context } :=
  ⟨⟨h.separate.client_given, h.separate.fresh, h.separate.nodup,
    h.separate.started_nodup, h.separate.mem_started⟩, h.clientCtx, h.contexts, h.client, h.others,
    h.late_eq⟩

theorem Separate.counterCollection (h : Separate env s) :
    Extends env [] s (s.counterCollection env) ∧
      (env.cfg.counterCollection = true → Counting env (s.counterCollection env)) := by
  rw [Setup.counterCollection]
  split_ifs with hcounted
  · have hown := h.ownContext (fun context ↦ .configureCounting context
      (getTracingCallbacks env.cfg).counterDispatch (getTracingCallbacks env.cfg).counterRecord)
      .counting (fun _ ↦ rfl) (fun _ ↦ rfl) (by decide) rfl
    refine ⟨hown.1.withCounting _, fun _ ↦ ⟨?_, given_next (contexts_ownContext _ _ _), hown.2⟩⟩
    show s.nextContext env ≠ (s.ownContext env _).clientCtx
    rw [hown.1.clientCtx]
    exact h.client_given.ne_next.symm
  · exact ⟨.refl h, fun htrue ↦ absurd htrue hcounted⟩

/-- The three contexts after that. -/
theorem Separate.watchers (h : Separate env s)
    (hcounting : env.cfg.counterCollection = true → Counting env s) :
    Extends env [] s (((s.kernelRename env).hipStream env).runtimeInitialization env) ∧
      (env.cfg.counterCollection = true →
        Counting env (((s.kernelRename env).hipStream env).runtimeInitialization env)) := by
  have hrename := (h.ownContext _ (.callback .markerCoreRangeApi) (fun _ ↦ rfl) (fun _ ↦ rfl)
    (by decide) rfl : Extends env [] s (s.kernelRename env) ∧ _).1
  have hstream := (hrename.separate.ownContext _ (.callback .hipStream) (fun _ ↦ rfl) (fun _ ↦ rfl)
    (by decide) rfl : Extends env [] _ ((s.kernelRename env).hipStream env) ∧ _).1
  have hruntime := (hstream.separate.ownContext _ (.callback .runtimeInitialization) (fun _ ↦ rfl)
    (fun _ ↦ rfl) (by decide) rfl :
      Extends env [] _ (((s.kernelRename env).hipStream env).runtimeInitialization env) ∧ _).1
  have hall := (hrename.trans hstream).trans hruntime
  refine ⟨hall, fun hcounted ↦ (hcounting hcounted).of_extends hall ?_⟩
  exact (counterCollectionCtx_ownContext _ _ _).trans
    ((counterCollectionCtx_ownContext _ _ _).trans (counterCollectionCtx_ownContext _ _ _))

/-! ## The external correlation ids -/

/-- The service that the context of the counters gets when it has been started. -/
def lateServices (env : Environment) (counterCollectionCtx : ContextId) :
    List (ContextId × Service) :=
  if env.cfg.counterCollection = true ∧ env.cfg.benchmarkMode ≠ .executionProfile ∧
      env.cfg.benchmarkMode ≠ .disabledContextsOverhead then
    [(counterCollectionCtx, .externalCorrelation)]
  else []

/-- What there is when the services have been configured. -/
structure Correlated (env : Environment) (s t : Setup) : Prop where
  separate : Separate env t
  clientCtx : t.clientCtx = s.clientCtx
  counterCollectionCtx : t.counterCollectionCtx = s.counterCollectionCtx
  client : services t.calls s.clientCtx = services s.calls s.clientCtx ++
    if env.cfg.benchmarkMode ≠ .executionProfile then [.externalCorrelation] else []
  late_eq : late t.calls = late s.calls ++ lateServices env s.counterCollectionCtx

/-- A service that comes late, for a context that is used. -/
theorem Separate.callLate (h : Separate env s) (call : Call) {context : ContextId}
    {service : Service} (hne : context ≠ s.clientCtx) (hgiven : Given env s context)
    (hstarts : call.starts = none) (hservice : call.service = some (context, service))
    (hused : Used s.calls context) (hnew : service ∉ services s.calls context) :
    Separate env (s.call call) ∧
      services (s.call call).calls s.clientCtx = services s.calls s.clientCtx ∧
      late (s.call call).calls = late s.calls ++
        if env.cfg.benchmarkMode ≠ .disabledContextsOverhead then [(context, service)] else [] := by
  have hlist : [call].filterMap Call.service = [service].map fun service ↦ (context, service) := by
    rw [List.filterMap_cons_some hservice, List.filterMap_nil]
    rfl
  obtain ⟨hown, hnone⟩ := services_of_eq hlist
  have hself : services (s.call call).calls context = services s.calls context ++ [service] := by
    show services (s.calls ++ [call]) context = _
    rw [services_append, hown]
  have hother : ∀ context', context' ≠ context →
      services (s.call call).calls context' = services s.calls context' := fun context' hne' ↦ by
    show services (s.calls ++ [call]) context' = _
    rw [services_append, hnone context' hne', List.append_nil]
  have hstarted : started (s.call call).calls = started s.calls := by
    show started (s.calls ++ [call]) = _
    rw [started_append]
    exact (congrArg _ (List.filterMap_cons_none hstarts)).trans (List.append_nil _)
  refine ⟨⟨h.client_given, fun context' hfresh ↦ ?_, fun context' hne' ↦ ?_, ?_,
    fun context' ↦ ?_⟩, hother _ hne.symm, ?_⟩
  · rw [hother context' fun heq ↦ hfresh (heq ▸ hgiven)]
    exact h.fresh context' hfresh
  · rcases eq_or_ne context' context with rfl | hcontext
    · rw [hself]
      refine List.nodup_append.mpr ⟨h.nodup context' hne', List.nodup_singleton _, ?_⟩
      rintro a ha b hb rfl
      exact hnew (List.mem_singleton.mp hb ▸ ha)
    · rw [hother context' hcontext]
      exact h.nodup context' hne'
  · rw [hstarted]
    exact h.started_nodup
  · rw [hstarted, h.mem_started]
    refine and_congr_right fun _ ↦ and_congr_right fun _ ↦ ?_
    rcases eq_or_ne context' context with rfl | hcontext
    · refine iff_of_true hused ?_
      obtain ⟨other, hmem, htraces⟩ := hused
      exact ⟨other, hself ▸ List.mem_append_left _ hmem, htraces⟩
    · exact used_congr (hother context' hcontext).symm
  · show late (s.calls ++ [call]) = _
    have hmem : context ∈ started s.calls ↔ env.cfg.benchmarkMode ≠ .disabledContextsOverhead := by
      rw [h.mem_started, and_iff_left ⟨hne, hused⟩]
    rw [late_append, lateAfter, lateAfter, List.append_nil, hservice, Option.toList_some,
      List.filter_singleton, Bool.cond_decide]
    simp only [hmem]

/-- **The requests for external correlation ids.** -/
theorem Separate.externalCorrelation (h : Separate env s)
    (hcounting : env.cfg.counterCollection = true → Counting env s) :
    Correlated env s (s.externalCorrelation env) := by
  rw [Setup.externalCorrelation]
  by_cases hprofile : env.cfg.benchmarkMode = .executionProfile
  · rw [if_neg (not_not_intro hprofile)]
    refine ⟨h, rfl, rfl, ?_, ?_⟩
    · rw [if_neg (not_not_intro hprofile), List.append_nil]
    · rw [lateServices, if_neg fun hlate ↦ hlate.2.1 hprofile, List.append_nil]
  rw [if_pos hprofile]
  have hclient := h.call (.configureExternalCorrelation s.clientCtx
    [.kernelDispatch, .memoryCopy, .memoryAllocation, .hipRuntimeApi]
    .setKernelRenameAndStreamCorrelationId) rfl rfl
  dsimp only
  split_ifs with hcounted
  · have hcontext := (hcounting hcounted).of_extends hclient rfl
    have hservices := hcontext.services_eq
    rw [profileServices, if_neg hprofile] at hservices
    have hlate := hclient.separate.callLate (.configureExternalCorrelation s.counterCollectionCtx
      [.kernelDispatch] .setKernelRenameAndStreamCorrelationId) hcontext.ne hcontext.given rfl rfl
      ⟨.counting, hservices ▸ List.mem_cons_self, rfl⟩ (by rw [hservices]; decide)
    refine ⟨hlate.1, rfl, rfl, ?_, ?_⟩
    · rw [if_pos hprofile, ← hclient.client]
      exact hlate.2.1
    · refine hlate.2.2.trans ?_
      rw [hclient.late_eq, lateServices]
      simp only [hcounted, hprofile, ne_eq, not_false_iff, true_and]
      rfl
  · refine ⟨hclient.separate, rfl, rfl, ?_, ?_⟩
    · rw [if_pos hprofile, hclient.client]
    · rw [lateServices, if_neg fun hlate ↦ hcounted hlate.1, List.append_nil, hclient.late_eq]

/-! ## The sampling -/

theorem Separate.configurePcSamplingOnAllAgents (h : Separate env s)
    (ht : s.configurePcSamplingOnAllAgents env = .ok t) :
    Extends env ((env.gpuAgents.filter (ifPcSampleConfigMatch env)).map Service.pcSampling)
      s t := by
  rw [Setup.configurePcSamplingOnAllAgents] at ht
  split_ifs at ht
  cases ht
  refine h.of_calls (.createBuffer _ _ _ :: _) (List.append_assoc _ _ _) rfl le_rfl ?_ ?_
  · refine List.filterMap_eq_nil_iff.mpr (List.forall_mem_cons.mpr ⟨rfl, fun call hcall ↦ ?_⟩)
    obtain ⟨agent, -, rfl⟩ := List.mem_map.mp hcall
    rfl
  · rw [List.filterMap_cons_none rfl]
    show (List.map _ _).filterMap Call.service = _
    rw [List.filterMap_map, List.map_map, ← List.filterMap_eq_map']
    rfl

theorem Separate.pcSampling (h : Separate env s) (ht : s.pcSampling env = .ok t) :
    Extends env ((sampledAgents env).map Service.pcSampling) s t := by
  rw [Setup.pcSampling] at ht
  rw [sampledAgents]
  split_ifs at ht with hhost hstochastic
  · rw [if_pos (.inl hhost)]
    exact h.configurePcSamplingOnAllAgents ht
  · rw [if_pos (.inr hstochastic)]
    exact h.configurePcSamplingOnAllAgents ht
  · cases ht
    rw [if_neg fun hsamples ↦ hsamples.elim hhost hstochastic]
    exact .refl h

theorem Separate.pcSamplingThread (h : Separate env s) (name : BufferName) :
    Extends env [] s (s.pcSamplingThread env name) := by
  rw [Setup.pcSamplingThread]
  split_ifs
  · exact h.of_calls [.createCallbackThread (env.handles.thread s.threads),
      .assignCallbackThread _ _] rfl rfl le_rfl rfl rfl
  · exact .refl h

theorem Separate.pcSamplingThreads (h : Separate env s) (names : List BufferName) :
    Extends env [] s (names.foldl (Setup.pcSamplingThread env) s) := by
  induction names generalizing s with
  | nil => exact .refl h
  | cons name names ih =>
    have hround := h.pcSamplingThread name
    exact hround.trans (ih hround.separate)

theorem counterCollectionCtx_pcSampling (ht : s.pcSampling env = .ok t) :
    t.counterCollectionCtx = s.counterCollectionCtx := by
  rw [Setup.pcSampling, Setup.configurePcSamplingOnAllAgents] at ht
  split_ifs at ht <;> cases ht <;> rfl

theorem counterCollectionCtx_pcSamplingThreads (s : Setup) (names : List BufferName) :
    (names.foldl (Setup.pcSamplingThread env) s).counterCollectionCtx = s.counterCollectionCtx := by
  induction names generalizing s with
  | nil => rfl
  | cons name names ih =>
    refine (ih _).trans ?_
    rw [Setup.pcSamplingThread]
    split_ifs <;> rfl

/-! ## The result -/

/-- What there is in the end. -/
structure Ready (env : Environment) (s : Setup) : Prop where
  client : services s.calls s.clientCtx = clientServices env
  nodup : ∀ context, context ≠ s.clientCtx → (services s.calls context).Nodup
  started_nodup : (started s.calls).Nodup
  mem_started : ∀ context, context ∈ started s.calls ↔
    env.cfg.benchmarkMode ≠ .disabledContextsOverhead ∧ Used s.calls context ∧
      (context = s.clientCtx → Records env)
  late_eq : late s.calls = lateServices env s.counterCollectionCtx

theorem Separate.ready_of_not_records (h : Separate env s)
    (hclient : services s.calls s.clientCtx = configuredServices env)
    (hlate : late s.calls = lateServices env s.counterCollectionCtx) (hrecords : ¬Records env) :
    Ready env s := by
  refine ⟨?_, h.nodup, h.started_nodup, fun context ↦ ?_, hlate⟩
  · rw [hclient, clientServices, if_neg fun hboth ↦ hrecords hboth.1, List.append_nil]
  · rw [h.mem_started]
    exact and_congr_right fun _ ↦ and_comm.trans (and_congr_right fun _ ↦
      ⟨fun hne heq ↦ absurd heq hne, fun himp heq ↦ hrecords (himp heq)⟩)

theorem Separate.ready_of_records (h : Separate env s)
    (hclient : services s.calls s.clientCtx = configuredServices env)
    (hlate : late s.calls = lateServices env s.counterCollectionCtx) (hrecords : Records env) :
    Ready env (s.callAll (startCalls env s.clientCtx)) := by
  obtain ⟨hown, hnone⟩ := services_of_eq (services_startCalls env s.clientCtx)
  have hother : ∀ context, context ≠ s.clientCtx →
      services (s.calls ++ startCalls env s.clientCtx) context = services s.calls context :=
    fun context hne ↦ by rw [services_append, hnone context hne, List.append_nil]
  have hservices : services (s.calls ++ startCalls env s.clientCtx) s.clientCtx
      = clientServices env := by
    rw [services_append, hclient, hown, clientServices, profileServices]
    simp only [hrecords, true_and]
  have hstarted : started (s.calls ++ startCalls env s.clientCtx)
      = started s.calls ++ [s.clientCtx] := by
    rw [started_append, started_startCalls, if_neg hrecords.1]
  have hused : Used (s.calls ++ startCalls env s.clientCtx) s.clientCtx := by
    refine ⟨.externalCorrelation, ?_, rfl⟩
    rw [hservices, clientServices, configuredServices]
    by_cases hprofile : env.cfg.benchmarkMode = .executionProfile <;> simp [hprofile, hrecords]
  refine ⟨hservices, fun context hne ↦ ?_, ?_, fun context ↦ ?_, ?_⟩
  · exact (hother context hne).symm ▸ h.nodup context hne
  · show (started (s.calls ++ _)).Nodup
    rw [hstarted]
    refine List.nodup_append.mpr ⟨h.started_nodup, List.nodup_singleton _, ?_⟩
    rintro context hmem _ hself rfl
    exact h.client_notMem (List.mem_singleton.mp hself ▸ hmem)
  · show context ∈ started (s.calls ++ _) ↔ _ ∧ Used (s.calls ++ _) context ∧ _
    rw [hstarted, List.mem_append, List.mem_singleton, h.mem_started]
    rcases eq_or_ne context s.clientCtx with rfl | hne
    · exact iff_of_true (.inr rfl) ⟨hrecords.1, hused, fun _ ↦ hrecords⟩
    · rw [used_congr (hother context hne), or_iff_left hne]
      exact and_congr_right fun _ ↦ and_comm.trans
        (and_congr_right fun _ ↦ iff_of_true hne fun heq ↦ absurd heq hne)
  · show late (s.calls ++ _) = _
    rw [late_append, lateAfter_startCalls h.client_notMem, List.append_nil]
    exact hlate

/-- **How recording begins.** -/
theorem Separate.record (h : Separate env s)
    (hclient : services s.calls s.clientCtx = configuredServices env)
    (hlate : late s.calls = lateServices env s.counterCollectionCtx) :
    Ready env (s.record env) := by
  rw [Setup.record]
  by_cases hdisabled : env.cfg.benchmarkMode = .disabledContextsOverhead
  · rw [if_pos hdisabled]
    exact h.ready_of_not_records hclient hlate fun hrecords ↦ hrecords.1 hdisabled
  rw [if_neg hdisabled]
  split_ifs with hregions hperiods
  · exact h.ready_of_not_records hclient hlate fun hrecords ↦
      Bool.false_ne_true (hrecords.2.1.symm.trans hregions)
  · have hcontrol : Extends env [] s (s.call (.collectionPeriodCntrl s.clientCtx)) :=
      h.of_calls [_] rfl rfl le_rfl rfl rfl
    refine hcontrol.separate.ready_of_not_records ?_ (hcontrol.late_eq.trans hlate) fun hrecords ↦
      Bool.false_ne_true (hrecords.2.2.symm.trans hperiods)
    exact hcontrol.client.trans ((List.append_nil _).trans hclient)
  · rw [startContext_eq h.client_given.ne_zero]
    exact h.ready_of_records hclient hlate ⟨hdisabled, Bool.eq_false_of_not_eq_true hregions,
      Bool.eq_false_of_not_eq_true hperiods⟩

/-- The parts one after the other. -/
theorem ready_of_toolInit (h : toolInit env = .ok s) : Ready env s := by
  obtain ⟨t, u, ht, hu, rfl⟩ := exists_of_toolInit h
  have hclient := Separate.client env
  have hobjects := hclient.codeObjects
  have hfirst := hobjects.trans hobjects.separate.markers
  have hbuffers := hfirst.trans (hfirst.separate.foldl
    (fun _ service hs ↦ hs.bufferService service) (bufferServices env.cfg))
  have htracing := hbuffers.trans (hbuffers.separate.foldl
    (fun _ service hs ↦ hs.callbackService service) (callbackServices env.cfg))
  have htrace := htracing.trans (htracing.separate.advancedThreadTrace ht)
  obtain ⟨hcounted, hcounting⟩ := htrace.separate.counterCollection
  obtain ⟨hwatched, hcounting'⟩ := hcounted.separate.watchers hcounting
  have hbefore := (htrace.trans hcounted).trans hwatched
  have hcorrelated : Correlated env _ (t.observers env) :=
    hbefore.separate.externalCorrelation hcounting'
  have hsampled := hcorrelated.separate.pcSampling hu
  have hafter := hsampled.trans (hsampled.separate.pcSamplingThreads pcSamplingBuffersAsArray)
  refine hafter.separate.record ?_ ?_
  · rw [hafter.clientCtx, hafter.client, hcorrelated.clientCtx, hcorrelated.client,
      hbefore.clientCtx, hbefore.client, configuredServices, bufferedKinds, measuredKinds,
      List.map_map, List.map_map]
    simp only [List.append_nil, List.nil_append, List.append_assoc]
    rfl
  · have hctx : (pcSamplingBuffersAsArray.foldl (Setup.pcSamplingThread env) u).counterCollectionCtx
        = (t.observers env).counterCollectionCtx :=
      (counterCollectionCtx_pcSamplingThreads _ _).trans (counterCollectionCtx_pcSampling hu)
    rw [hafter.late_eq, hcorrelated.late_eq, hbefore.late_eq, hctx,
      hcorrelated.counterCollectionCtx]
    rfl

end Steps

/-! ## Services that are configured twice -/

/-- The kernels are traced with callbacks, to measure the library and for the thread trace. -/
def CountedTwice (env : Environment) : Prop :=
  env.cfg.kernelTrace = true ∧ env.cfg.benchmarkMode = .sdkCallbackOverhead ∧
    env.cfg.advancedThreadTrace = true ∧ env.att.attConsecutiveKernels ≥ 1

/-- The kinds of services. -/
inductive Group
  | callback
  | buffered
  | threadTrace
  | counting
  | externalCorrelation
  | pcSampling
  deriving DecidableEq, Repr

def Service.group : Service → Group
  | .callback _ => .callback
  | .buffered _ => .buffered
  | .threadTrace _ => .threadTrace
  | .counting => .counting
  | .externalCorrelation => .externalCorrelation
  | .pcSampling _ => .pcSampling

/-- Services of different kinds are different. -/
theorem nodup_append_of_groups {l l' : List Service} (group : Group)
    (h : ∀ service ∈ l, service.group = group) (h' : ∀ service ∈ l', service.group ≠ group) :
    (l ++ l').Nodup ↔ l.Nodup ∧ l'.Nodup := by
  rw [List.nodup_append, ← and_assoc, and_iff_left]
  rintro service hmem _ hmem' rfl
  exact h' service hmem' (h service hmem)

theorem measuredKinds_nodup (env : Environment) : (measuredKinds env).Nodup := by
  have hall : ((callbackServices env.cfg).map CallbackServiceConfig.kind).Nodup := by
    simp only [callbackServices, List.map_cons, List.map_nil]
    decide
  exact hall.sublist (List.filter_sublist.map _)

theorem kernelDispatch_mem_measuredKinds {env : Environment} :
    .kernelDispatch ∈ measuredKinds env ↔
      env.cfg.kernelTrace = true ∧ env.cfg.benchmarkMode = .sdkCallbackOverhead := by
  rw [measuredKinds, List.mem_map]
  constructor
  · rintro ⟨service, hmem, hkind⟩
    obtain ⟨hmem, hmeasured⟩ := List.mem_filter.mp hmem
    have hmeasured : Measured env service := of_decide_eq_true hmeasured
    simp only [callbackServices, List.mem_cons, List.not_mem_nil, or_false] at hmem
    rcases hmem with rfl | rfl | rfl | rfl | rfl | rfl | rfl | rfl | rfl | rfl | rfl | rfl | rfl <;>
      first | exact hmeasured | cases hkind
  · rintro hmeasured
    exact ⟨_, List.mem_filter.mpr ⟨List.mem_cons_self, decide_eq_true hmeasured⟩, rfl⟩

theorem markerCoreRangeApi_notMem_measuredKinds (env : Environment) :
    .markerCoreRangeApi ∉ measuredKinds env := by
  simp [measuredKinds, callbackServices]

theorem tracedAgents_nodup (env : Environment) : (tracedAgents env).Nodup := by
  rw [tracedAgents]
  rcases hselection : Agents.configureThreadTrace env.att env.agentCounterInfo env.attGpuIndex
      env.agentsMap with failure | selection
  · exact .nil
  · exact (configured_of_configureThreadTrace hselection).1

/-- The kinds of services with callbacks that are asked for. -/
def callbackKinds (env : Environment) : List CallbackTracingKind :=
  (if env.cfg.markerApiTrace then [.markerCoreRangeApi] else []) ++ measuredKinds env

theorem callbackKinds_nodup (env : Environment) : (callbackKinds env).Nodup := by
  rw [callbackKinds]
  split_ifs
  · exact List.nodup_cons.mpr ⟨markerCoreRangeApi_notMem_measuredKinds env, measuredKinds_nodup env⟩
  · exact measuredKinds_nodup env

theorem kernelDispatch_mem_callbackKinds {env : Environment} :
    .kernelDispatch ∈ callbackKinds env ↔
      env.cfg.kernelTrace = true ∧ env.cfg.benchmarkMode = .sdkCallbackOverhead := by
  rw [callbackKinds, List.mem_append, kernelDispatch_mem_measuredKinds]
  refine or_iff_right fun hmem ↦ ?_
  split_ifs at hmem
  · cases List.mem_singleton.mp hmem
  · cases hmem

/-- The requests for external correlation ids, of which there is one at most. -/
def externalServices (env : Environment) : List Service :=
  (if env.cfg.benchmarkMode ≠ .executionProfile then [.externalCorrelation] else []) ++
    if Records env ∧ env.cfg.benchmarkMode = .executionProfile then [.externalCorrelation] else []

/-- The services of the client context, by their kinds. -/
theorem clientServices_perm (env : Environment) :
    (clientServices env).Perm
      ((bufferedKinds env).map .buffered ++ ((sampledAgents env).map .pcSampling ++
        (externalServices env ++
          ((callbackKinds env).map .callback ++ threadTraceServices env)))) := by
  have hkinds : (callbackKinds env).map Service.callback
      = (if env.cfg.markerApiTrace then [.callback .markerCoreRangeApi] else [])
        ++ (measuredKinds env).map .callback := by
    rw [callbackKinds, List.map_append]
    split_ifs <;> rfl
  refine List.perm_iff_count.mpr fun service ↦ ?_
  simp only [clientServices, configuredServices, externalServices, hkinds, List.count_append]
  omega

/-- The thread trace configures a service that may be there already. -/
theorem callbacks_nodup_iff (env : Environment) :
    ((callbackKinds env).map Service.callback ++ threadTraceServices env).Nodup ↔
      ¬CountedTwice env := by
  have hnodup : ((callbackKinds env).map Service.callback).Nodup :=
    (callbackKinds_nodup env).map fun _ _ heq ↦ Service.callback.inj heq
  rw [threadTraceServices, CountedTwice]
  by_cases hatt : env.cfg.advancedThreadTrace = true
  swap
  · rw [if_neg hatt, List.append_nil]
    exact iff_of_true hnodup fun htwice ↦ hatt htwice.2.2.1
  rw [if_pos hatt]
  by_cases hconsecutive : env.att.attConsecutiveKernels ≥ 1
  · rw [if_pos hconsecutive, List.nodup_append_comm, List.singleton_append, List.nodup_cons,
      and_iff_left hnodup, List.mem_map_of_injective fun _ _ heq ↦ Service.callback.inj heq,
      kernelDispatch_mem_callbackKinds, and_iff_left (And.intro hatt hconsecutive)]
  · rw [if_neg hconsecutive, nodup_append_of_groups .callback]
    · exact iff_of_true ⟨hnodup, (tracedAgents_nodup env).map fun _ _ heq ↦
        Service.threadTrace.inj heq⟩ fun htwice ↦ hconsecutive htwice.2.2.2
    · exact List.forall_mem_map.mpr fun _ _ ↦ rfl
    · exact List.forall_mem_map.mpr fun _ _ ↦ nofun

theorem bufferedKinds_nodup (env : Environment) : (bufferedKinds env).Nodup := by
  have hall : ((bufferServices env.cfg).map BufferServiceConfig.kind).Nodup := by
    simp only [bufferServices, List.map_cons, List.map_nil]
    decide
  exact hall.sublist (List.filter_sublist.map _)

theorem sampledAgents_nodup (env : Environment) : (sampledAgents env).Nodup := by
  rw [sampledAgents]
  split_ifs
  · exact env.gpuAgents_nodup.filter _
  · exact .nil

theorem mem_externalServices {env : Environment} {service : Service}
    (h : service ∈ externalServices env) : service = .externalCorrelation := by
  rw [externalServices] at h
  rcases List.mem_append.mp h with h | h <;> split_ifs at h <;>
    first | exact List.mem_singleton.mp h | cases h

theorem externalServices_nodup (env : Environment) : (externalServices env).Nodup := by
  rw [externalServices]
  by_cases hprofile : env.cfg.benchmarkMode = .executionProfile
  · rw [if_neg (not_not_intro hprofile), List.nil_append]
    split_ifs
    · exact List.nodup_singleton _
    · exact .nil
  · rw [if_pos hprofile, if_neg fun hboth ↦ hprofile hboth.2]
    exact List.nodup_singleton _

theorem group_of_mem_callbacks {env : Environment} {service : Service}
    (h : service ∈ (callbackKinds env).map Service.callback ++ threadTraceServices env) :
    service.group = .callback ∨ service.group = .threadTrace := by
  rw [List.mem_append, threadTraceServices] at h
  rcases h with h | h
  · obtain ⟨kind, -, rfl⟩ := List.mem_map.mp h
    exact .inl rfl
  · split_ifs at h
    · rw [List.mem_singleton.mp h]
      exact .inl rfl
    · obtain ⟨agent, -, rfl⟩ := List.mem_map.mp h
      exact .inr rfl
    · cases h

theorem clientServices_nodup_iff (env : Environment) :
    (clientServices env).Nodup ↔ ¬CountedTwice env := by
  have hbuffered : ((bufferedKinds env).map Service.buffered).Nodup :=
    (bufferedKinds_nodup env).map fun _ _ heq ↦ Service.buffered.inj heq
  have hsampled : ((sampledAgents env).map Service.pcSampling).Nodup :=
    (sampledAgents_nodup env).map fun _ _ heq ↦ Service.pcSampling.inj heq
  have hsampling : ∀ service ∈ (sampledAgents env).map Service.pcSampling,
      service.group = .pcSampling := List.forall_mem_map.mpr fun _ _ ↦ rfl
  have hexternal : ∀ service ∈ externalServices env, service.group = .externalCorrelation :=
    fun _ hmem ↦ congrArg Service.group (mem_externalServices hmem)
  have hcallbacks : ∀ group, group ≠ .callback → group ≠ .threadTrace →
      ∀ service ∈ (callbackKinds env).map Service.callback ++ threadTraceServices env,
        service.group ≠ group := fun group hcallback htrace _ hmem heq ↦
    (group_of_mem_callbacks hmem).elim (hcallback <| heq.symm.trans ·) (htrace <| heq.symm.trans ·)
  rw [(clientServices_perm env).nodup_iff, nodup_append_of_groups .buffered,
    nodup_append_of_groups .pcSampling hsampling,
    nodup_append_of_groups .externalCorrelation hexternal (hcallbacks _ nofun nofun),
    callbacks_nodup_iff, and_iff_right hbuffered, and_iff_right hsampled,
    and_iff_right (externalServices_nodup env)]
  · refine List.forall_mem_append.mpr ⟨fun service hmem ↦ ?_, hcallbacks _ nofun nofun⟩
    rw [hexternal service hmem]
    decide
  · exact List.forall_mem_map.mpr fun _ _ ↦ rfl
  · refine List.forall_mem_append.mpr ⟨fun service hmem ↦ ?_, List.forall_mem_append.mpr
      ⟨fun service hmem ↦ ?_, hcallbacks _ nofun nofun⟩⟩
    · rw [hsampling service hmem]
      decide
    · rw [hexternal service hmem]
      decide

/-! ## The theorems -/

/-- **The services of the client context**, whatever the configuration. -/
theorem toolInit_services {env : Environment} {s : Setup} (h : toolInit env = .ok s) :
    services s.calls s.clientCtx = clientServices env :=
  (ready_of_toolInit h).client

/-- **No service is configured twice for a context**, unless the kernels are traced to measure the
callbacks of the library and the thread trace counts them. -/
theorem toolInit_services_nodup_iff {env : Environment} {s : Setup} (h : toolInit env = .ok s) :
    (∀ context, (services s.calls context).Nodup) ↔ ¬CountedTwice env := by
  rw [← clientServices_nodup_iff, ← toolInit_services h]
  refine ⟨fun hall ↦ hall s.clientCtx, fun hclient context ↦ ?_⟩
  rcases eq_or_ne context s.clientCtx with rfl | hne
  · exact hclient
  · exact (ready_of_toolInit h).nodup context hne

/-- Kernels are traced to measure the callbacks, with the thread trace of two kernels. -/
def countedEnvironment : Environment :=
  { tracedEnvironment with
    cfg := {
      kernelTrace := true
      advancedThreadTrace := true
      benchmarkMode := .sdkCallbackOverhead }
    att := { tracedEnvironment.att with attConsecutiveKernels := 2 } }

theorem toolInit_services_nodup_iff_counted :
    ∃ s, toolInit countedEnvironment = .ok s ∧ ¬∀ context, (services s.calls context).Nodup := by
  obtain ⟨s, h⟩ : ∃ s, toolInit countedEnvironment = .ok s := ⟨_, rfl⟩
  exact ⟨s, h, fun hall ↦ (toolInit_services_nodup_iff h).mp hall ⟨rfl, rfl, rfl, by decide⟩⟩

/-- **What is started.**  Every context that has a service other than the thread trace of a device
is started, and once, except for the client context when recording begins later, and unless the
overhead of contexts that are not active is measured; no service is configured for a context after
it has been started, except for the correlation ids of the counters. -/
theorem toolInit_started {env : Environment} {s : Setup} (h : toolInit env = .ok s) :
    (started s.calls).Nodup ∧
      (∀ context, context ∈ started s.calls ↔
        env.cfg.benchmarkMode ≠ .disabledContextsOverhead ∧ Used s.calls context ∧
          (context = s.clientCtx → Records env)) ∧
      late s.calls = lateServices env s.counterCollectionCtx :=
  ⟨(ready_of_toolInit h).started_nodup, (ready_of_toolInit h).mem_started,
    (ready_of_toolInit h).late_eq⟩

/-- Counters are collected in the regions that the user selects. -/
def regionsEnvironment : Environment :=
  { tracedEnvironment with
    cfg := { counterCollection := true }
    selectedRegions := true }

theorem toolInit_started_regions :
    ∃ s, toolInit regionsEnvironment = .ok s ∧ s.clientCtx ∉ started s.calls ∧
      late s.calls = [(s.counterCollectionCtx, .externalCorrelation)] := by
  obtain ⟨s, h⟩ : ∃ s, toolInit regionsEnvironment = .ok s := ⟨_, rfl⟩
  obtain ⟨-, hstarted, hlate⟩ := toolInit_started h
  exact ⟨s, h, fun hmem ↦ absurd (((hstarted _).mp hmem).2.2 rfl) (by decide), hlate⟩

end Version3.Initialization
