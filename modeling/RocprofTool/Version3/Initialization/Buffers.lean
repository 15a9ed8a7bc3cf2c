import RocprofTool.Version3.Initialization.Setup
import Mathlib.Data.List.Nodup
import Mathlib.Data.List.Perm.Basic

/-!
# The buffers

A buffered service puts its records into a buffer, which a thread delivers to the tool, and which
`flush` asks for in the end.  Several services share a buffer: it is created for the first one of
them that is asked for.  For the sampling there is one of two buffers, and its thread is created
later.

* `Numbered` is the invariant: the buffers have been given out in order, each to one variable, and
  the first `threads` ones of them have a thread.
* `Looped` adds, in the loop over the services, which buffers there are and what has been
  configured.
* `toolInit_delivers` is what follows: a buffer is there exactly when something needs it, it has one
  thread, each service that is asked for writes to its own, and all of them are flushed.
-/

set_option autoImplicit false

open Version3.CounterGroups Version3.ThreadTrace Tool

namespace Version3.Initialization

/-! ## What the calls do about buffers -/

/-- The buffers that are created. -/
def created (calls : List Call) : List BufferId :=
  calls.filterMap fun
    | .createBuffer _ _ buffer => some buffer
    | _ => none

/-- The threads that are created. -/
def threadsCreated (calls : List Call) : List CallbackThread :=
  calls.filterMap fun
    | .createCallbackThread thread => some thread
    | _ => none

/-- The buffers that get a thread, with the thread. -/
def assigned (calls : List Call) : List (BufferId × CallbackThread) :=
  calls.filterMap fun
    | .assignCallbackThread buffer thread => some (buffer, thread)
    | _ => none

/-- The buffered services that are configured, with their buffers. -/
def buffered (calls : List Call) : List (ContextId × BufferTracingKind × BufferId) :=
  calls.filterMap fun
    | .configureBufferTracing context kind buffer => some (context, kind, buffer)
    | _ => none

/-- Is the service configured? -/
def Enabled (env : Environment) (service : BufferServiceConfig) : Prop :=
  service.option = true ∧ env.cfg.benchmarkMode ≠ .sdkCallbackOverhead

instance (env : Environment) (service : BufferServiceConfig) : Decidable (Enabled env service) :=
  inferInstanceAs (Decidable (_ ∧ _))

/-- Is the sampling asked for? -/
def Samples (env : Environment) : Prop :=
  env.cfg.pcSamplingHostTrap = true ∨ env.cfg.pcSamplingStochastic = true

/-- Is the buffer needed: for a service, or for the sampling? -/
def Needed (env : Environment) (name : BufferName) : Prop :=
  (∃ service ∈ bufferServices env.cfg, Enabled env service ∧ service.buffer = name) ∨
    Samples env ∧ name = pcSamplingBuffer env

/-- **What `tool_init` does about buffers.** -/
structure Delivers (env : Environment) (s : Setup) : Prop where
  /-- A buffer is there when it is needed. -/
  needed : ∀ name, s.bufferIds name ≠ 0 ↔ Needed env name
  /-- No two variables have the same one. -/
  distinct : ∀ name name', s.bufferIds name = s.bufferIds name' → s.bufferIds name ≠ 0 →
    name = name'
  /-- The services that are asked for write to their buffers, and no other ones. -/
  configured : buffered s.calls = ((bufferServices env.cfg).filter (Enabled env ·)).map
    fun service ↦ (s.clientCtx, service.kind, s.bufferIds service.buffer)
  created_nodup : (created s.calls).Nodup
  /-- Each buffer has a thread, and each thread a buffer. -/
  threads : (assigned s.calls).map Prod.fst = created s.calls
  threadsCreated_eq : (assigned s.calls).map Prod.snd = threadsCreated s.calls
  threadsCreated_nodup : (threadsCreated s.calls).Nodup
  /-- Each buffer is flushed. -/
  flushed : s.flush.Perm (created s.calls)

section Lists

variable (xs ys : List Call)

@[simp] theorem created_append : created (xs ++ ys) = created xs ++ created ys :=
  List.filterMap_append

@[simp] theorem threadsCreated_append :
    threadsCreated (xs ++ ys) = threadsCreated xs ++ threadsCreated ys :=
  List.filterMap_append

@[simp] theorem assigned_append : assigned (xs ++ ys) = assigned xs ++ assigned ys :=
  List.filterMap_append

@[simp] theorem buffered_append : buffered (xs ++ ys) = buffered xs ++ buffered ys :=
  List.filterMap_append

/-- Calls that have nothing to do with buffers. -/
def NoBuffers : Prop :=
  created xs = [] ∧ threadsCreated xs = [] ∧ assigned xs = [] ∧ buffered xs = []

end Lists

/-! ## The invariant -/

/-- The buffers and the threads have been given out in order. -/
structure Numbered (env : Environment) (s : Setup) : Prop where
  created_eq : created s.calls = (List.range s.buffers).map env.handles.buffer
  threadsCreated_eq : threadsCreated s.calls = (List.range s.threads).map env.handles.thread
  assigned_eq : assigned s.calls
    = (List.range s.threads).map fun i ↦ (env.handles.buffer i, env.handles.thread i)
  given : ∀ name, s.bufferIds name ≠ 0 →
    ∃ i < s.buffers, s.bufferIds name = env.handles.buffer i
  distinct : ∀ name name', s.bufferIds name = s.bufferIds name' → s.bufferIds name ≠ 0 →
    name = name'
  named : ∀ i < s.buffers, ∃ name, s.bufferIds name = env.handles.buffer i

/-- What the other parts of `tool_init` leave alone. -/
structure SameBuffers (s t : Setup) : Prop where
  buffers : t.buffers = s.buffers
  threads : t.threads = s.threads
  bufferIds : t.bufferIds = s.bufferIds
  clientCtx : t.clientCtx = s.clientCtx
  calls : ∃ calls, t.calls = s.calls ++ calls ∧ NoBuffers calls

section Same

variable {s t u : Setup}

theorem SameBuffers.refl (s : Setup) : SameBuffers s s :=
  ⟨rfl, rfl, rfl, rfl, [], (List.append_nil _).symm, rfl, rfl, rfl, rfl⟩

theorem SameBuffers.trans (h : SameBuffers s t) (h' : SameBuffers t u) : SameBuffers s u := by
  obtain ⟨xs, hxs, hc, ht, ha, hb⟩ := h.calls
  obtain ⟨ys, hys, hc', ht', ha', hb'⟩ := h'.calls
  refine ⟨h'.buffers.trans h.buffers, h'.threads.trans h.threads, h'.bufferIds.trans h.bufferIds,
    h'.clientCtx.trans h.clientCtx, xs ++ ys, ?_, ?_, ?_, ?_, ?_⟩
  · rw [hys, hxs, List.append_assoc]
  · rw [created_append, hc, hc', List.append_nil]
  · rw [threadsCreated_append, ht, ht', List.append_nil]
  · rw [assigned_append, ha, ha', List.append_nil]
  · rw [buffered_append, hb, hb', List.append_nil]

theorem SameBuffers.callAll (s : Setup) {calls : List Call} (h : NoBuffers calls) :
    SameBuffers s (s.callAll calls) :=
  ⟨rfl, rfl, rfl, rfl, calls, rfl, h⟩

theorem SameBuffers.call (s : Setup) {call : Call} (h : NoBuffers [call]) :
    SameBuffers s (s.call call) :=
  .callAll s h

theorem Numbered.of_same {env : Environment} (h : Numbered env s) (hsame : SameBuffers s t) :
    Numbered env t := by
  obtain ⟨calls, hcalls, hc, ht, ha, -⟩ := hsame.calls
  refine ⟨?_, ?_, ?_, ?_, ?_, ?_⟩
  · rw [hcalls, created_append, hc, List.append_nil, hsame.buffers, h.created_eq]
  · rw [hcalls, threadsCreated_append, ht, List.append_nil, hsame.threads, h.threadsCreated_eq]
  · rw [hcalls, assigned_append, ha, List.append_nil, hsame.threads, h.assigned_eq]
  · rw [hsame.bufferIds, hsame.buffers]
    exact h.given
  · rw [hsame.bufferIds]
    exact h.distinct
  · rw [hsame.bufferIds, hsame.buffers]
    exact h.named

theorem SameBuffers.buffered_eq (h : SameBuffers s t) : buffered t.calls = buffered s.calls := by
  obtain ⟨calls, hcalls, -, -, -, hb⟩ := h.calls
  rw [hcalls, buffered_append, hb, List.append_nil]

/-! ## The parts that have nothing to do with buffers -/

variable (env : Environment) (s)

theorem same_createContext : SameBuffers s (s.createContext env) :=
  ⟨rfl, rfl, rfl, rfl, [.createContext (s.nextContext env)], rfl, rfl, rfl, rfl, rfl⟩

theorem same_startContext (context : ContextId) : SameBuffers s (s.startContext env context) := by
  rw [Setup.startContext]
  split_ifs
  · exact (SameBuffers.call s ⟨rfl, rfl, rfl, rfl⟩).trans (.call _ ⟨rfl, rfl, rfl, rfl⟩)
  · exact .call s ⟨rfl, rfl, rfl, rfl⟩
  · exact .refl s

theorem same_ownContext (configure : ContextId → Call)
    (h : ∀ context, NoBuffers [configure context]) : SameBuffers s (s.ownContext env configure) :=
  ((same_createContext s env).trans (.call _ (h _))).trans (same_startContext _ env _)

theorem same_codeObjects : SameBuffers s (s.codeObjects env) :=
  same_ownContext s env _ fun _ ↦ ⟨rfl, rfl, rfl, rfl⟩

theorem same_markers : SameBuffers s (s.markers env) := by
  rw [Setup.markers]
  split_ifs
  · exact (SameBuffers.call s ⟨rfl, rfl, rfl, rfl⟩).trans
      (same_ownContext _ env _ fun _ ↦ ⟨rfl, rfl, rfl, rfl⟩)
  · exact .refl s

theorem same_callbackService (service : CallbackServiceConfig) :
    SameBuffers s (s.callbackService env service) := by
  rw [Setup.callbackService]
  split_ifs
  · exact .refl s
  · exact .call s ⟨rfl, rfl, rfl, rfl⟩
  · exact .refl s

theorem same_callbackServices (services : List CallbackServiceConfig) :
    SameBuffers s (services.foldl (Setup.callbackService env) s) := by
  induction services generalizing s with
  | nil => exact .refl s
  | cons service services ih => exact (same_callbackService s env service).trans (ih _)

theorem same_consecutiveKernels : SameBuffers s (s.consecutiveKernels env) := by
  rw [Setup.consecutiveKernels]
  split_ifs
  · refine (same_createContext s env).trans ?_
    exact ⟨rfl, rfl, rfl, rfl, _, rfl, rfl, rfl, rfl, rfl⟩
  · exact .refl s

theorem noBuffers_threadTrace (configured : List Agents.Configured) :
    NoBuffers (configured.map (s.threadTraceCall env)) := by
  have hnone : ∀ configured : Agents.Configured, NoBuffers [s.threadTraceCall env configured] := by
    intro configured
    rw [Setup.threadTraceCall]
    cases configured.service <;> exact ⟨rfl, rfl, rfl, rfl⟩
  induction configured with
  | nil => exact ⟨rfl, rfl, rfl, rfl⟩
  | cons first rest ih =>
    obtain ⟨hc, ht, ha, hb⟩ := hnone first
    rw [List.map_cons, ← List.singleton_append]
    refine ⟨?_, ?_, ?_, ?_⟩
    · rw [created_append, hc, ih.1, List.append_nil]
    · rw [threadsCreated_append, ht, ih.2.1, List.append_nil]
    · rw [assigned_append, ha, ih.2.2.1, List.append_nil]
    · rw [buffered_append, hb, ih.2.2.2, List.append_nil]

theorem same_advancedThreadTrace {t : Setup} (h : s.advancedThreadTrace env = .ok t) :
    SameBuffers s t := by
  rw [Setup.advancedThreadTrace] at h
  split_ifs at h
  · split at h
    · cases h
    · cases h
      exact (same_consecutiveKernels s env).trans (.callAll _ (noBuffers_threadTrace _ env _))
  · cases h
    exact .refl s

theorem same_counterCollection : SameBuffers s (s.counterCollection env) := by
  rw [Setup.counterCollection]
  split_ifs
  · have hown := same_ownContext s env (fun context ↦ .configureCounting context
      (getTracingCallbacks env.cfg).counterDispatch (getTracingCallbacks env.cfg).counterRecord)
      fun _ ↦ ⟨rfl, rfl, rfl, rfl⟩
    exact ⟨hown.buffers, hown.threads, hown.bufferIds, hown.clientCtx, hown.calls⟩
  · exact .refl s

theorem same_kernelRename : SameBuffers s (s.kernelRename env) :=
  same_ownContext s env _ fun _ ↦ ⟨rfl, rfl, rfl, rfl⟩

theorem same_hipStream : SameBuffers s (s.hipStream env) :=
  same_ownContext s env _ fun _ ↦ ⟨rfl, rfl, rfl, rfl⟩

theorem same_runtimeInitialization : SameBuffers s (s.runtimeInitialization env) :=
  same_ownContext s env _ fun _ ↦ ⟨rfl, rfl, rfl, rfl⟩

theorem same_externalCorrelation : SameBuffers s (s.externalCorrelation env) := by
  rw [Setup.externalCorrelation]
  split_ifs
  · exact (SameBuffers.call s ⟨rfl, rfl, rfl, rfl⟩).trans (.call _ ⟨rfl, rfl, rfl, rfl⟩)
  · exact .call s ⟨rfl, rfl, rfl, rfl⟩
  · exact .refl s

theorem same_record : SameBuffers s (s.record env) := by
  rw [Setup.record]
  split_ifs
  · exact .refl s
  · exact .refl s
  · exact .call s ⟨rfl, rfl, rfl, rfl⟩
  · exact same_startContext s env _

end Same

/-! ## A buffer and its thread -/

section Steps

variable {env : Environment} {s : Setup}

/-- No variable has the buffer that is created next. -/
theorem Numbered.ne_next (h : Numbered env s) (name : BufferName) :
    s.bufferIds name ≠ env.handles.buffer s.buffers := by
  intro heq
  obtain ⟨i, hi, hname⟩ := h.given name (heq ▸ env.handles.buffer_ne_zero _)
  exact hi.ne (env.handles.buffer_injective (hname.symm.trans heq))

/-- A new buffer, for a variable that has none. -/
theorem Numbered.createBuffer (h : Numbered env s) (callback : Option Callback) {name : BufferName}
    (hnone : s.bufferIds name = 0) : Numbered env (s.createBuffer env callback name) := by
  have hself : (s.createBuffer env callback name).bufferIds name = env.handles.buffer s.buffers :=
    Function.update_self _ _ _
  have hother : ∀ name', name' ≠ name →
      (s.createBuffer env callback name).bufferIds name' = s.bufferIds name' :=
    fun name' hne ↦ Function.update_of_ne hne _ _
  refine ⟨?_, ?_, ?_, fun name' hne' ↦ ?_, fun name₁ name₂ heq hne ↦ ?_, fun i hlt ↦ ?_⟩
  · show created (s.calls ++ [_]) = (List.range (s.buffers + 1)).map _
    rw [created_append, h.created_eq, List.range_succ, List.map_append]
    rfl
  · show threadsCreated (s.calls ++ [_]) = (List.range s.threads).map _
    rw [threadsCreated_append, h.threadsCreated_eq]
    exact List.append_nil _
  · show assigned (s.calls ++ [_]) = _
    rw [assigned_append, h.assigned_eq]
    exact List.append_nil _
  · show ∃ i < s.buffers + 1, _
    rcases eq_or_ne name' name with rfl | hne
    · exact ⟨s.buffers, Nat.lt_succ_self _, hself⟩
    · rw [hother name' hne] at hne' ⊢
      obtain ⟨i, hi, hname⟩ := h.given name' hne'
      exact ⟨i, Nat.lt_succ_of_lt hi, hname⟩
  · rcases eq_or_ne name₁ name with rfl | hne₁
    · rcases eq_or_ne name₂ name₁ with rfl | hne₂
      · rfl
      · rw [hself, hother name₂ hne₂] at heq
        exact absurd heq.symm (h.ne_next name₂)
    · rcases eq_or_ne name₂ name with rfl | hne₂
      · rw [hself, hother name₁ hne₁] at heq
        exact absurd heq (h.ne_next name₁)
      · rw [hother name₁ hne₁] at heq hne
        rw [hother name₂ hne₂] at heq
        exact h.distinct name₁ name₂ heq hne
  · rcases Nat.lt_succ_iff_lt_or_eq.mp hlt with hlt | rfl
    · obtain ⟨name', hname⟩ := h.named i hlt
      have hne : name' ≠ name := by
        rintro rfl
        exact env.handles.buffer_ne_zero i (hname.symm.trans hnone)
      exact ⟨name', (hother name' hne).trans hname⟩
    · exact ⟨name, hself⟩

/-- The thread of a new buffer. -/
theorem Numbered.assignThread (h : Numbered env s) {name : BufferName}
    (hlast : s.bufferIds name = env.handles.buffer s.threads) :
    Numbered env (s.assignThread env name) := by
  refine ⟨?_, ?_, ?_, h.given, h.distinct, h.named⟩
  · show created (s.calls ++ [_, _]) = _
    rw [created_append, h.created_eq]
    exact List.append_nil _
  · show threadsCreated (s.calls ++ [_, _]) = (List.range (s.threads + 1)).map _
    rw [threadsCreated_append, h.threadsCreated_eq, List.range_succ, List.map_append]
    rfl
  · show assigned (s.calls ++ [_, _]) = (List.range (s.threads + 1)).map _
    rw [assigned_append, h.assigned_eq, List.range_succ, List.map_append]
    show _ ++ [(s.bufferIds name, env.handles.thread s.threads)] = _
    rw [hlast]
    rfl

/-! ## The loop over the services -/

/-- What there is after some of the services. -/
structure Looped (env : Environment) (pre : List BufferServiceConfig) (s : Setup) : Prop where
  numbered : Numbered env s
  threads : s.threads = s.buffers
  needed : ∀ name, s.bufferIds name ≠ 0 ↔
    ∃ service ∈ pre, Enabled env service ∧ service.buffer = name
  configured : buffered s.calls = (pre.filter (Enabled env ·)).map
    fun service ↦ (s.clientCtx, service.kind, s.bufferIds service.buffer)

/-- What a service finds: its buffer is there, and so are the other ones. -/
structure Ensured (env : Environment) (s t : Setup) (name : BufferName) : Prop where
  numbered : Numbered env t
  threads : t.threads = t.buffers
  clientCtx : t.clientCtx = s.clientCtx
  pos : t.bufferIds name ≠ 0
  same : ∀ name', name' ≠ name ∨ s.bufferIds name' ≠ 0 → t.bufferIds name' = s.bufferIds name'
  buffered_eq : buffered t.calls = buffered s.calls

theorem ensured_ensureBuffer (env : Environment) (h : Numbered env s)
    (hthreads : s.threads = s.buffers) (name : BufferName) :
    Ensured env s (s.ensureBuffer env name) name := by
  rw [Setup.ensureBuffer]
  split_ifs with hnone
  · have hself : (s.createBuffer env (getTracingCallbacks env.cfg).bufferedTracing name).bufferIds
        name = env.handles.buffer s.buffers := Function.update_self _ _ _
    have hcreated := h.createBuffer (getTracingCallbacks env.cfg).bufferedTracing hnone
    refine ⟨hcreated.assignThread ?_, ?_, rfl, ?_, ?_, ?_⟩
    · rw [hself, ← hthreads]
      rfl
    · exact congrArg (· + 1) hthreads
    · exact hself ▸ env.handles.buffer_ne_zero _
    · rintro name' (hne | hne)
      · exact Function.update_of_ne hne _ _
      · refine Function.update_of_ne ?_ _ _
        rintro rfl
        exact hne hnone
    · show buffered ((s.calls ++ [_]) ++ [_, _]) = _
      rw [buffered_append, buffered_append]
      simp [buffered]
  · exact ⟨h, hthreads, rfl, hnone, fun _ _ ↦ rfl, rfl⟩

theorem filter_enabled_append {pre : List BufferServiceConfig} {service : BufferServiceConfig} :
    (pre ++ [service]).filter (Enabled env ·)
      = pre.filter (Enabled env ·) ++ if Enabled env service then [service] else [] := by
  rw [List.filter_append, List.filter_singleton]
  split_ifs with h <;> simp [h]

theorem Looped.skip {pre : List BufferServiceConfig} {service : BufferServiceConfig}
    (h : Looped env pre s) (hnot : ¬Enabled env service) : Looped env (pre ++ [service]) s := by
  refine ⟨h.numbered, h.threads, fun name ↦ ?_, ?_⟩
  · rw [h.needed]
    constructor
    · rintro ⟨before, hmem, henabled⟩
      exact ⟨before, List.mem_append_left _ hmem, henabled⟩
    · rintro ⟨before, hmem, henabled, hname⟩
      rcases List.mem_append.mp hmem with hmem | hmem
      · exact ⟨before, hmem, henabled, hname⟩
      · rw [List.mem_singleton.mp hmem] at henabled
        exact absurd henabled hnot
  · rw [filter_enabled_append, if_neg hnot, List.append_nil, h.configured]

/-- **One round.** -/
theorem Looped.bufferService {pre : List BufferServiceConfig} (h : Looped env pre s)
    (service : BufferServiceConfig) :
    Looped env (pre ++ [service]) (s.bufferService env service) := by
  rw [Setup.bufferService]
  by_cases hoption : service.option = true
  swap
  · rw [if_neg hoption]
    exact h.skip fun henabled ↦ hoption henabled.1
  rw [if_pos hoption]
  by_cases hmode : env.cfg.benchmarkMode = .sdkCallbackOverhead
  · rw [if_pos hmode]
    exact h.skip fun henabled ↦ henabled.2 hmode
  rw [if_neg hmode]
  have henabled : Enabled env service := ⟨hoption, hmode⟩
  have hensured := ensured_ensureBuffer env h.numbered h.threads service.buffer
  generalize s.ensureBuffer env service.buffer = t at hensured ⊢
  have hnumbered : Numbered env (t.call (.configureBufferTracing t.clientCtx service.kind
      (t.bufferIds service.buffer))) := by
    refine ⟨?_, ?_, ?_, hensured.numbered.given, hensured.numbered.distinct,
      hensured.numbered.named⟩
    · show created (t.calls ++ [_]) = _
      rw [created_append, hensured.numbered.created_eq]
      exact List.append_nil _
    · show threadsCreated (t.calls ++ [_]) = _
      rw [threadsCreated_append, hensured.numbered.threadsCreated_eq]
      exact List.append_nil _
    · show assigned (t.calls ++ [_]) = _
      rw [assigned_append, hensured.numbered.assigned_eq]
      exact List.append_nil _
  have hkept : ∀ before ∈ pre, Enabled env before →
      t.bufferIds before.buffer = s.bufferIds before.buffer := fun before hmem hbefore ↦
    hensured.same _ (.inr ((h.needed _).mpr ⟨before, hmem, hbefore, rfl⟩))
  refine ⟨hnumbered, hensured.threads, fun name ↦ ?_, ?_⟩
  · show t.bufferIds name ≠ 0 ↔ _
    rcases eq_or_ne name service.buffer with rfl | hne
    · exact iff_of_true hensured.pos
        ⟨service, List.mem_append_right _ List.mem_cons_self, henabled, rfl⟩
    · rw [hensured.same name (.inl hne), h.needed]
      constructor
      · rintro ⟨before, hmem, hbefore⟩
        exact ⟨before, List.mem_append_left _ hmem, hbefore⟩
      · rintro ⟨before, hmem, hbefore, hname⟩
        rcases List.mem_append.mp hmem with hmem | hmem
        · exact ⟨before, hmem, hbefore, hname⟩
        · rw [List.mem_singleton.mp hmem] at hname
          exact absurd hname.symm hne
  · show buffered (t.calls ++ [_]) = _
    rw [buffered_append, hensured.buffered_eq, h.configured, filter_enabled_append,
      if_pos henabled, List.map_append]
    refine congrArg (· ++ _) (List.map_congr_left fun before hbefore ↦ ?_)
    obtain ⟨hmem, hbefore⟩ := List.mem_filter.mp hbefore
    rw [← hkept before hmem (of_decide_eq_true hbefore), ← hensured.clientCtx]
    rfl

/-- **The loop.** -/
theorem Looped.foldl {pre : List BufferServiceConfig} (h : Looped env pre s)
    (services : List BufferServiceConfig) :
    Looped env (pre ++ services) (services.foldl (Setup.bufferService env) s) := by
  induction services generalizing pre s with
  | nil =>
    rw [List.append_nil]
    exact h
  | cons service services ih =>
    rw [List.append_cons]
    exact ih (h.bufferService service)

theorem Looped.of_same {pre : List BufferServiceConfig} {t : Setup} (h : Looped env pre s)
    (hsame : SameBuffers s t) : Looped env pre t := by
  refine ⟨h.numbered.of_same hsame, ?_, ?_, ?_⟩
  · rw [hsame.threads, hsame.buffers, h.threads]
  · rw [hsame.bufferIds]
    exact h.needed
  · rw [hsame.buffered_eq, hsame.clientCtx, hsame.bufferIds, h.configured]

/-! ## The sampling -/

/-- No service writes to a buffer for the sampling. -/
theorem buffer_notMem_pcSamplingBuffers {cfg : Config} {service : BufferServiceConfig}
    (h : service ∈ bufferServices cfg) : service.buffer ∉ pcSamplingBuffersAsArray := by
  simp only [bufferServices, List.mem_cons, List.not_mem_nil, or_false] at h
  rcases h with rfl | rfl | rfl | rfl | rfl | rfl | rfl | rfl | rfl | rfl | rfl | rfl | rfl <;>
    simp [pcSamplingBuffersAsArray]

theorem pcSamplingBuffer_mem (env : Environment) :
    pcSamplingBuffer env ∈ pcSamplingBuffersAsArray := by
  rw [pcSamplingBuffer]
  split_ifs <;> simp [pcSamplingBuffersAsArray]

/-- What there is of buffers in the end. -/
structure Finished (env : Environment) (s : Setup) : Prop where
  numbered : Numbered env s
  threads : s.threads = s.buffers
  needed : ∀ name, s.bufferIds name ≠ 0 ↔ Needed env name
  configured : buffered s.calls = ((bufferServices env.cfg).filter (Enabled env ·)).map
    fun service ↦ (s.clientCtx, service.kind, s.bufferIds service.buffer)

theorem Finished.of_same {t : Setup} (h : Finished env s) (hsame : SameBuffers s t) :
    Finished env t := by
  refine ⟨h.numbered.of_same hsame, ?_, ?_, ?_⟩
  · rw [hsame.threads, hsame.buffers, h.threads]
  · rw [hsame.bufferIds]
    exact h.needed
  · rw [hsame.buffered_eq, hsame.clientCtx, hsame.bufferIds, h.configured]

theorem noBuffers_pcSampling (calls : List AgentId) (context : ContextId)
    (method : PcSamplingMethod) (unit : ℕ) (interval : UInt64) (buffer : BufferId) :
    NoBuffers (calls.map fun agent ↦
      .configurePcSampling context agent method unit interval buffer) := by
  refine ⟨?_, ?_, ?_, ?_⟩
  all_goals
    refine List.filterMap_eq_nil_iff.mpr fun call hcall ↦ ?_
    obtain ⟨agent, -, rfl⟩ := List.mem_map.mp hcall
    rfl

/-- The thread of the buffer for the sampling, of which there is one. -/
theorem foldl_pcSamplingThread {name : BufferName} (hmem : name ∈ pcSamplingBuffersAsArray)
    (hpos : 0 < s.bufferIds name)
    (hother : ∀ name' ∈ pcSamplingBuffersAsArray, name' ≠ name → s.bufferIds name' = 0) :
    pcSamplingBuffersAsArray.foldl (Setup.pcSamplingThread env) s = s.assignThread env name := by
  have hself : ∀ name', (s.assignThread env name).bufferIds name' = s.bufferIds name' :=
    fun _ ↦ rfl
  simp only [pcSamplingBuffersAsArray, List.mem_cons, List.not_mem_nil, or_false] at hmem hother
  simp only [pcSamplingBuffersAsArray, List.foldl_cons, List.foldl_nil, Setup.pcSamplingThread]
  rcases hmem with rfl | rfl
  · have hzero := hother .pcSamplingStochastic (.inr rfl) (by decide)
    rw [if_pos hpos, hself, hzero, if_neg (lt_irrefl 0)]
  · have hzero := hother .pcSamplingHostTrap (.inl rfl) (by decide)
    rw [hzero, if_neg (lt_irrefl 0), if_pos hpos]

/-- **The sampling has a buffer of its own**, with a thread, when it is asked for. -/
theorem Looped.pcSampling {t : Setup} (h : Looped env (bufferServices env.cfg) s)
    (ht : s.pcSampling env = .ok t) :
    Finished env (pcSamplingBuffersAsArray.foldl (Setup.pcSamplingThread env) t) := by
  have hnone : ∀ name ∈ pcSamplingBuffersAsArray, s.bufferIds name = 0 := by
    intro name hmem
    by_contra hne
    obtain ⟨service, hservice, -, rfl⟩ := (h.needed name).mp hne
    exact buffer_notMem_pcSamplingBuffers hservice hmem
  have hconfigure : Samples env → s.configurePcSamplingOnAllAgents env = .ok t →
      Finished env (pcSamplingBuffersAsArray.foldl (Setup.pcSamplingThread env) t) := by
    intro hsamples ht
    rw [Setup.configurePcSamplingOnAllAgents] at ht
    split_ifs at ht
    cases ht
    have hpc := hnone _ (pcSamplingBuffer_mem env)
    have hcreated := h.numbered.createBuffer (getTracingCallbacks env.cfg).pcSampling hpc
    have hself : (s.createBuffer env (getTracingCallbacks env.cfg).pcSampling
        (pcSamplingBuffer env)).bufferIds (pcSamplingBuffer env) = env.handles.buffer s.buffers :=
      Function.update_self _ _ _
    have hother : ∀ name, name ≠ pcSamplingBuffer env →
        (s.createBuffer env (getTracingCallbacks env.cfg).pcSampling
          (pcSamplingBuffer env)).bufferIds name = s.bufferIds name :=
      fun name hne ↦ Function.update_of_ne hne _ _
    have hbuffered : buffered (s.createBuffer env (getTracingCallbacks env.cfg).pcSampling
        (pcSamplingBuffer env)).calls = buffered s.calls := by
      show buffered (s.calls ++ [_]) = _
      rw [buffered_append]
      exact List.append_nil _
    have hthreads : (s.createBuffer env (getTracingCallbacks env.cfg).pcSampling
        (pcSamplingBuffer env)).threads = s.buffers := h.threads
    have hbuffers : (s.createBuffer env (getTracingCallbacks env.cfg).pcSampling
        (pcSamplingBuffer env)).buffers = s.buffers + 1 := rfl
    have hclient : (s.createBuffer env (getTracingCallbacks env.cfg).pcSampling
        (pcSamplingBuffer env)).clientCtx = s.clientCtx := rfl
    generalize s.createBuffer env (getTracingCallbacks env.cfg).pcSampling (pcSamplingBuffer env)
      = u at hcreated hself hother hbuffered hthreads hbuffers hclient ⊢
    have hsame : SameBuffers u (u.callAll _) := .callAll u (noBuffers_pcSampling
      (env.gpuAgents.filter (ifPcSampleConfigMatch env)) u.clientCtx env.pcSamplingMethodValue
      env.pcSamplingUnitValue env.pcSamplingInterval (u.bufferIds (pcSamplingBuffer env)))
    generalize u.callAll _ = v at hsame ⊢
    rw [foldl_pcSamplingThread (pcSamplingBuffer_mem env)
      (by rw [hsame.bufferIds, hself]; exact Nat.pos_of_ne_zero (env.handles.buffer_ne_zero _))
      fun name hmem hne ↦ by rw [hsame.bufferIds, hother name hne, hnone name hmem]]
    refine ⟨(hcreated.of_same hsame).assignThread ?_, ?_, fun name ↦ ?_, ?_⟩
    · rw [hsame.bufferIds, hself, hsame.threads, hthreads]
    · show v.threads + 1 = v.buffers
      rw [hsame.threads, hsame.buffers, hthreads, hbuffers]
    · show v.bufferIds name ≠ 0 ↔ _
      rw [hsame.bufferIds]
      rcases eq_or_ne name (pcSamplingBuffer env) with rfl | hne
      · rw [hself]
        exact iff_of_true (env.handles.buffer_ne_zero _) (.inr ⟨hsamples, rfl⟩)
      · rw [hother name hne, h.needed, Needed, and_iff_right hsamples, or_iff_left hne]
    · show buffered (v.calls ++ [_, _]) = _
      rw [buffered_append, hsame.buffered_eq, hbuffered, h.configured]
      refine (List.append_nil _).trans (List.map_congr_left fun service hmem ↦ ?_)
      have hne : service.buffer ≠ pcSamplingBuffer env := fun heq ↦
        buffer_notMem_pcSamplingBuffers (List.mem_of_mem_filter hmem)
          (heq ▸ pcSamplingBuffer_mem env)
      show _ = (v.clientCtx, service.kind, v.bufferIds service.buffer)
      rw [hsame.clientCtx, hclient, hsame.bufferIds, hother _ hne]
  rw [Setup.pcSampling] at ht
  split_ifs at ht with hhost hstochastic
  · exact hconfigure (.inl hhost) ht
  · exact hconfigure (.inr hstochastic) ht
  · cases ht
    have hfold : pcSamplingBuffersAsArray.foldl (Setup.pcSamplingThread env) s = s := by
      have hhost' := hnone .pcSamplingHostTrap (by decide)
      have hstochastic' := hnone .pcSamplingStochastic (by decide)
      simp only [pcSamplingBuffersAsArray, List.foldl_cons, List.foldl_nil, Setup.pcSamplingThread,
        hhost', hstochastic', gt_iff_lt, lt_irrefl, if_false]
    rw [hfold]
    refine ⟨h.numbered, h.threads, fun name ↦ ?_, h.configured⟩
    rw [h.needed, Needed]
    refine (or_iff_left ?_).symm
    rintro ⟨hsamples, -⟩
    exact hsamples.elim hhost hstochastic

/-! ## The result -/

/-- What is flushed is what has been created. -/
theorem Numbered.flush_perm (h : Numbered env s) : s.flush.Perm (created s.calls) := by
  have hall : ∀ name, name ∈ asArray := by
    intro name
    cases name <;> decide
  have hnodup : s.flush.Nodup := by
    rw [Setup.flush, List.filter_map]
    refine List.Nodup.map_on ?_ (List.Nodup.filter _ (by decide))
    intro name hname name' _ heq
    have hpos : 0 < s.bufferIds name := of_decide_eq_true (List.mem_filter.mp hname).2
    exact h.distinct name name' heq hpos.ne'
  refine (List.perm_ext_iff_of_nodup hnodup ?_).mpr fun buffer ↦ ?_
  · rw [h.created_eq]
    exact List.nodup_range.map env.handles.buffer_injective
  · rw [h.created_eq, List.mem_map, Setup.flush, List.mem_filter, List.mem_map, decide_eq_true_eq]
    constructor
    · rintro ⟨⟨name, -, rfl⟩, hpos⟩
      obtain ⟨i, hi, hname⟩ := h.given name hpos.ne'
      exact ⟨i, List.mem_range.mpr hi, hname.symm⟩
    · rintro ⟨i, hi, rfl⟩
      obtain ⟨name, hname⟩ := h.named i (List.mem_range.mp hi)
      exact ⟨⟨name, hall name, hname⟩, Nat.pos_of_ne_zero (env.handles.buffer_ne_zero i)⟩

theorem Finished.delivers (h : Finished env s) : Delivers env s := by
  refine ⟨h.needed, h.numbered.distinct, h.configured, ?_, ?_, ?_, ?_, h.numbered.flush_perm⟩
  · rw [h.numbered.created_eq]
    exact List.nodup_range.map env.handles.buffer_injective
  · rw [h.numbered.assigned_eq, h.numbered.created_eq, h.threads, List.map_map]
    rfl
  · rw [h.numbered.assigned_eq, h.numbered.threadsCreated_eq, List.map_map]
    rfl
  · rw [h.numbered.threadsCreated_eq]
    exact List.nodup_range.map env.handles.thread_injective

end Steps

/-- **Every record is delivered.**  When `tool_init` returns, whatever the configuration, each
buffered service that is asked for writes to a buffer that is there, has a thread of its own, and is
flushed, and there is no buffer that nothing needs. -/
theorem toolInit_delivers {env : Environment} {s : Setup} (h : toolInit env = .ok s) :
    Delivers env s := by
  obtain ⟨t, u, ht, hu, rfl⟩ := exists_of_toolInit h
  have hfirst : Looped env [] (first env) := by
    have hclient : Looped env [] (({} : Setup).client env) :=
      ⟨⟨rfl, rfl, rfl, fun _ hne ↦ absurd rfl hne, fun _ _ _ hne ↦ absurd rfl hne, fun _ hlt ↦
        absurd hlt (Nat.not_lt_zero _)⟩, rfl, fun _ ↦ iff_of_false (not_not_intro rfl) nofun, rfl⟩
    exact hclient.of_same ((same_codeObjects _ env).trans (same_markers _ env))
  have htracing : Looped env (bufferServices env.cfg) (tracing env) :=
    (hfirst.foldl (bufferServices env.cfg)).of_same (same_callbackServices _ env _)
  have hobservers : SameBuffers (tracing env) (t.observers env) :=
    (same_advancedThreadTrace _ env ht).trans ((same_counterCollection t env).trans
      ((same_kernelRename _ env).trans ((same_hipStream _ env).trans
        ((same_runtimeInitialization _ env).trans (same_externalCorrelation _ env)))))
  exact (((htracing.of_same hobservers).pcSampling hu).of_same (same_record _ env)).delivers

/-- A library that gives out every other number. -/
def everyOther : Handles where
  context i := 2 * i + 1
  buffer i := 2 * i + 1
  thread i := 2 * i + 1
  context_injective _ _ heq := Nat.eq_of_mul_eq_mul_left Nat.two_pos (Nat.succ.inj heq)
  context_ne_zero _ := Nat.succ_ne_zero _
  buffer_injective _ _ heq := Nat.eq_of_mul_eq_mul_left Nat.two_pos (Nat.succ.inj heq)
  buffer_ne_zero _ := Nat.succ_ne_zero _
  thread_injective _ _ heq := Nat.eq_of_mul_eq_mul_left Nat.two_pos (Nat.succ.inj heq)

/-- Kernels are traced, and two tables of HSA, with one agent that can be sampled. -/
def tracedEnvironment : Environment where
  handles := everyOther
  cfg := {
    kernelTrace := true
    hsaCoreApiTrace := true
    hsaAmdExtApiTrace := true
    pcSamplingHostTrap := true }
  att := ⟨1, 15, 4096, 1, 0, [], false, 0⟩
  attGpuIndex := ∅
  agentCounterInfo := fun _ ↦ none
  agentsMap := ⟨[], nofun, .nil, nofun⟩
  gpuAgents := [10, 11]
  gpuAgents_nodup := by decide
  pcSampleConfigInfo := fun agent ↦ if agent = 11 then [⟨.hostTrap, 1, 1, 100⟩] else []
  pcSamplingMethodValue := .hostTrap
  pcSamplingUnitValue := 1
  pcSamplingInterval := 100
  selectedRegions := false
  hasCollectionPeriods := false

theorem toolInit_delivers_traced :
    ∃ s, toolInit tracedEnvironment = .ok s ∧ Delivers tracedEnvironment s ∧
      s.flush = [s.bufferIds .hsaApiTrace, s.bufferIds .kernelTrace,
        s.bufferIds .pcSamplingHostTrap] :=
  ⟨_, rfl, toolInit_delivers rfl, rfl⟩

end Version3.Initialization
