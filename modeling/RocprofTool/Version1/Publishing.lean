import Mathlib.Data.List.Forall2
import RocprofTool.Lib.Runs
import RocprofTool.Version1.Dispatches

/-!
# Every context that is counted is published

`dump_context_entry` counts a context in `context_collected` and then publishes a message about it,
with the GPU, the name of the kernel and the values of the features.  Between the two it looks at
the index of the entry: with `UINT32_MAX` there is no message.  That is the index of all entries of
the optimised mode, so that `context_pool_handler`, which fills in the features and the name for a
message, never gets one sent, while the contexts are counted all the same.

`Publishes` relates a state to a later one when what has been counted in between has been published
as well, one message for each context and in the same order.  It is a preorder, so it is enough to
look at the steps: everything but `dump_context_entry` keeps both logs, and `dump_context_entry`
adds to both of them when the context is `Publishable` and its index is one of `context_array`.
-/

set_option autoImplicit false

open Fallible Runs

namespace Version1

/-! ## What is counted and what is published -/

/-- The entry that an effect counts, if it counts one. -/
def Effect.counts : Effect → Option ContextEntry
  | .collected entry => some entry
  | _ => none

/-- The message that an effect publishes, if it publishes one. -/
def Effect.publishes : Effect → Option (List Char)
  | .published text => some text
  | _ => none

/-- The entries that have been counted. -/
def Tool.collected (tool : Tool) : List ContextEntry := tool.effects.filterMap Effect.counts

/-- The messages that have been published. -/
def Tool.published (tool : Tool) : List (List Char) := tool.effects.filterMap Effect.publishes

/-- A message is about an entry: it has its GPU, the name of its kernel, and all of its features
with the values that `rocprofiler` has for them. -/
structure Carries (m : Machine) (entry : ContextEntry) (text : List Char) : Prop where
  gpuId : ∃ gpuId, m.devIndex entry.agent = some gpuId ∧
    "\x7b \"gpu-id\":".toList ++ decimal gpuId.toNat ++ ",".toList <+: text
  kernelName : ∃ name, nikName m entry = .ok name ∧
    "\"kernel name\" : \"".toList ++ name ++ "\"".toList <:+: text
  features : ∃ context, entry.group = some context ∧
    ∀ (i : ℕ) (feature : List Char), entry.features[i]? = some feature →
      ∃ d value, (m.metrics context)[i]? = some d ∧ d.print m = some value ∧
        outputFeature feature value <:+: text

/-- The counter is right, and there is one message for every entry that it counts. -/
structure EachPublished (m : Machine) (tool : Tool) : Prop where
  counted : tool.contextCollected = UInt32.ofNat tool.collected.length
  each : List.Forall₂ (Carries m) tool.collected tool.published

/-- There is a message for the entry, and it fits into the buffer up to the features. -/
def Publishable (m : Machine) (entry : ContextEntry) : Prop :=
  ∃ context gpuId name results, entry.group = some context ∧
    m.devIndex entry.agent = some gpuId ∧ nikName m entry = .ok name ∧
    outputResults m entry.features (m.metrics context) = .ok results ∧
    (bodyOf m entry gpuId name results).length < bufferSize

/-- The kernel of an entry is done, as far as its record says. -/
def Ready (tool : Tool) (entry : ContextEntry) : Prop :=
  ∃ record, tool.readRecord entry.data.record = .ok record ∧
    record.any (fun record ↦ record.complete == 0) = false

/-! ## Messages -/

theorem of_outputResults_cons {m : Machine} {name : List Char} {features : List (List Char)}
    {data : List Data} {results : List Char}
    (h : outputResults m (name :: features) data = .ok results) :
    ∃ d data' value str, data = d :: data' ∧ d.print m = some value ∧
      outputResults m features data' = .ok str ∧ results = outputFeature name value ++ str := by
  cases data with
  | nil => cases h
  | cons d data =>
    rw [outputResults] at h
    cases hv : d.print m with
    | none => simp [hv] at h
    | some value =>
      cases hstr : outputResults m features data with
      | error e => simp [hv, hstr] at h
      | ok str =>
        simp only [hv, hstr, Except.ok.injEq] at h
        exact ⟨d, data, value, str, rfl, hv, hstr, h.symm⟩

theorem message_eq {m : Machine} {entry : ContextEntry} {context : ℕ} {gpuId : UInt32}
    {name results : List Char} (hname : nikName m entry = .ok name)
    (hgroup : entry.group = some context) (hgpu : m.devIndex entry.agent = some gpuId)
    (hresults : outputResults m entry.features (m.metrics context) = .ok results)
    (record : Option DispatchRecord) :
    message m entry record
      = printBuffer (bodyOf m entry gpuId name results ++ [' ']) (messageTail record) := by
  simp only [message, hname, hgroup, hgpu, bind, Except.bind, hresults]

/-- All of the features are in the results, with their values. -/
theorem outputFeature_of_outputResults {m : Machine} {features : List (List Char)}
    {data : List Data} {results : List Char} (h : outputResults m features data = .ok results)
    {i : ℕ} {feature : List Char} (hi : features[i]? = some feature) :
    ∃ d value, data[i]? = some d ∧ d.print m = some value ∧
      outputFeature feature value <:+: results := by
  induction features generalizing data results i with
  | nil => simp at hi
  | cons name features ih =>
    obtain ⟨d, data, value, str, rfl, hv, hstr, rfl⟩ := of_outputResults_cons h
    cases i with
    | zero =>
      cases hi
      exact ⟨d, value, rfl, hv, (List.prefix_append _ _).isInfix⟩
    | succ i =>
      obtain ⟨d', value', hd', hv', hmem⟩ := ih hstr hi
      exact ⟨d', value', hd', hv', hmem.trans (List.suffix_append _ _).isInfix⟩

/-- The GPU is at the beginning of the message. -/
theorem messageBody_gpuId (gpuId time name index results : List Char) :
    "\x7b \"gpu-id\":".toList ++ gpuId ++ ",".toList
      <+: messageBody gpuId time name index results := by
  unfold messageBody
  iterate 11 refine List.IsPrefix.trans ?_ (List.prefix_append _ _)
  exact List.prefix_refl _

/-- The name of the kernel is in the message. -/
theorem messageBody_kernelName (gpuId time name index results : List Char) :
    "\"kernel name\" : \"".toList ++ name ++ "\"".toList
      <:+: messageBody gpuId time name index results := by
  unfold messageBody
  iterate 5 refine List.IsInfix.trans ?_ (List.prefix_append _ _).isInfix
  simp only [List.append_assoc]
  iterate 6 refine List.IsInfix.trans ?_ (List.suffix_append _ _).isInfix
  exact List.infix_refl _

/-- The results are in the message. -/
theorem messageBody_results (gpuId time name index results : List Char) :
    results <:+: messageBody gpuId time name index results :=
  ⟨_, "\" \x7d ] \x7d".toList, rfl⟩

/-- A text that leaves room for a blank and the end of the string gets into the buffer whole. -/
theorem printBuffer_eq {body : List Char} (h : body.length < bufferSize) (second : List Char) :
    ∃ text, printBuffer (body ++ [' ']) second = .ok text ∧ body <+: text := by
  have hlen : (body ++ [' ']).length ≤ bufferSize := by
    rw [List.length_append, List.length_singleton]
    omega
  have htake : (body ++ [' ']).take (bufferSize - 1)
      = body ++ [' '].take (bufferSize - 1 - body.length) := by
    rw [List.take_append, List.take_of_length_le (by omega)]
  refine ⟨_, by rw [printBuffer]; exact if_pos hlen, ?_⟩
  rw [htake, List.append_assoc]
  exact List.prefix_append _ _

/-- **There is a message about an entry that is publishable**, whatever its record says. -/
theorem message_of_publishable {m : Machine} {entry : ContextEntry} (h : Publishable m entry)
    (record : Option DispatchRecord) :
    ∃ text, message m entry record = .ok text ∧ Carries m entry text := by
  obtain ⟨context, gpuId, name, results, hgroup, hgpu, hname, hresults, hlen⟩ := h
  obtain ⟨text, htext, hbody⟩ := printBuffer_eq hlen (messageTail record)
  have hmessage : message m entry record = .ok text := by
    rw [message_eq hname hgroup hgpu hresults, htext]
  refine ⟨text, hmessage, ⟨gpuId, hgpu, ?_⟩, ⟨name, hname, ?_⟩, context, hgroup, ?_⟩
  · exact (messageBody_gpuId _ _ _ _ _).trans hbody
  · exact (messageBody_kernelName _ _ _ _ _).trans hbody.isInfix
  · intro i feature hi
    obtain ⟨d, value, hd, hvalue, hmem⟩ := outputFeature_of_outputResults hresults hi
    exact ⟨d, value, hd, hvalue,
      (hmem.trans (messageBody_results _ _ _ _ _)).trans hbody.isInfix⟩

/-! ## The two logs grow together -/

/-- What is counted between two states is published between them as well. -/
def Publishes (m : Machine) (s t : Tool) : Prop :=
  ∃ entries texts, List.Forall₂ (Carries m) entries texts ∧
    t.collected = s.collected ++ entries ∧ t.published = s.published ++ texts ∧
    t.contextCollected = s.contextCollected + UInt32.ofNat entries.length

theorem publishes_of_eq {m : Machine} {s t : Tool} (heffects : t.effects = s.effects)
    (hcount : t.contextCollected = s.contextCollected) : Publishes m s t := by
  refine ⟨[], [], .nil, ?_, ?_, ?_⟩
  · rw [Tool.collected, heffects, List.append_nil, Tool.collected]
  · rw [Tool.published, heffects, List.append_nil, Tool.published]
  · rw [hcount]
    exact (UInt32.add_zero _).symm

instance {m : Machine} : Std.Refl (Publishes m) := ⟨fun _ ↦ publishes_of_eq rfl rfl⟩

instance {m : Machine} : IsTrans Tool (Publishes m) := by
  refine ⟨?_⟩
  rintro s t u ⟨es, ts, h, hes, hts, hn⟩ ⟨es', ts', h', hes', hts', hn'⟩
  refine ⟨es ++ es', ts ++ ts', List.rel_append h h', ?_, ?_, ?_⟩
  · rw [hes', hes, List.append_assoc]
  · rw [hts', hts, List.append_assoc]
  · rw [hn', hn, List.length_append, UInt32.ofNat_add, UInt32.add_assoc]

/-- What has been published stays published. -/
theorem EachPublished.of_publishes {m : Machine} {s t : Tool} (hs : EachPublished m s)
    (h : Publishes m s t) : EachPublished m t := by
  obtain ⟨entries, texts, hcarries, hentries, htexts, hcount⟩ := h
  refine ⟨?_, ?_⟩
  · rw [hcount, hs.counted, hentries, List.length_append, UInt32.ofNat_add]
  · rw [hentries, htexts]
    exact List.rel_append hs.each hcarries

/-- The tool when an entry has been counted and a message published. -/
def Tool.publish (tool : Tool) (entry : ContextEntry) (text : List Char) : Tool :=
  { tool with
    contextCollected := tool.contextCollected + 1
    effects := tool.effects ++ [.collected entry] ++ [.published text] }

theorem publishes_publish {m : Machine} {entry : ContextEntry} {text : List Char}
    (h : Carries m entry text) (s : Tool) : Publishes m s (s.publish entry text) := by
  refine ⟨[entry], [text], .cons h .nil, ?_, ?_, rfl⟩
  · simp only [Tool.collected, Tool.publish, List.append_assoc, List.filterMap_append]
    rfl
  · simp only [Tool.published, Tool.publish, List.append_assoc, List.filterMap_append]
    rfl

/-- What dumping an entry does to the rest: the entries stay, and no kernel gets done. -/
structure Dumps (m : Machine) (s t : Tool) : Prop where
  publishes : Publishes m s t
  contextArray : t.contextArray = s.contextArray
  ready : ∀ entry, Ready t entry → Ready s entry

instance {m : Machine} : Std.Refl (Dumps m) := ⟨fun s ↦ ⟨refl_of _ s, rfl, fun _ ↦ id⟩⟩

instance {m : Machine} : IsTrans Tool (Dumps m) :=
  ⟨fun _ _ _ h h' ↦ ⟨trans_of _ h.publishes h'.publishes, h'.contextArray.trans h.contextArray,
    fun entry ↦ h.ready entry ∘ h'.ready entry⟩⟩

/-- The indices of `context_array` are not the one of the optimised mode. -/
def Indexed (tool : Tool) : Prop :=
  ∀ (key : UInt32) (entry : ContextEntry), tool.contextArray[key]? = some entry →
    entry.index ≠ uint32Max

/-- What every step does, as long as what it counts is publishable. -/
abbrev Extends (m : Machine) : Tool → Tool → Prop := Keeping (Publishes m) Indexed

theorem Dumps.extends {m : Machine} {s t : Tool} (h : Dumps m s t) : Extends m s t :=
  ⟨h.publishes, fun hI key entry hentry ↦ hI key entry (h.contextArray ▸ hentry)⟩

theorem indexed_writeEntry {s : Tool} {key : UInt32} {entry : ContextEntry}
    (h : entry.index ≠ uint32Max) (hI : Indexed s) : Indexed (s.writeEntry key entry) := by
  intro key' entry' hentry
  rcases OrderedMap.of_getElem?_insert hentry with ⟨-, rfl⟩ | ⟨-, hentry⟩
  · exact h
  · exact hI key' entry' hentry

theorem extends_writeEntry {m : Machine} {s : Tool} {key : UInt32} {entry : ContextEntry}
    (h : entry.index ≠ uint32Max) : Extends m s (s.writeEntry key entry) :=
  ⟨publishes_of_eq rfl rfl, indexed_writeEntry h⟩

theorem extends_erase {m : Machine} (s : Tool) (key : UInt32) :
    Extends m s { s with contextArray := s.contextArray.erase key } := by
  refine ⟨publishes_of_eq rfl rfl, fun hI key' entry' hentry ↦ hI key' entry' ?_⟩
  exact (OrderedMap.of_getElem?_erase hentry).2

/-! ## Dumping an entry -/

theorem meets_emit {m : Machine} {effect : Effect} (hcounts : effect.counts = none)
    (hpublishes : effect.publishes = none) : Meets (Dumps m) (fun _ ↦ True) (emit effect) := by
  refine meets_modify fun s ↦ ⟨⟨[], [], .nil, ?_, ?_, (UInt32.add_zero _).symm⟩, rfl, fun _ ↦ id⟩
  · simp [Tool.collected, hcounts]
  · simp [Tool.published, hpublishes]

/-- Without a record, there is none to be ready. -/
theorem ready_of_update {s : Tool} {r : ℕ} {entry : ContextEntry}
    (h : Ready { s with records := Function.update s.records r none } entry) : Ready s entry := by
  obtain ⟨record, hread, hdone⟩ := h
  refine ⟨record, ?_, hdone⟩
  cases hr : entry.data.record with
  | none => simpa [hr, Tool.readRecord] using hread
  | some r' =>
    rw [hr, Tool.readRecord] at hread
    rw [Tool.readRecord]
    rcases eq_or_ne r' r with rfl | hne
    · simp at hread
    · simpa [hne] using hread

/-- `cleanUp` moves along a relation when the memory that it gives back does. -/
theorem meets_cleanUp {R : Tool → Tool → Prop} [Std.Refl R] [IsTrans Tool R] (entry : ContextEntry)
    (hrecord : ∀ s r, R s { s with records := Function.update s.records r none })
    (hdeleted : ∀ r, Meets R (fun _ ↦ True) (emit (.deletedRecord r)))
    (hfreed : Meets R (fun _ ↦ True) (emit (.freedName entry.index)))
    (hclosed : ∀ context, Meets R (fun _ ↦ True) (emit (.closed context))) :
    Meets R (fun e ↦ e.index = entry.index) (cleanUp entry) := by
  unfold cleanUp
  have hrest : Meets R (fun e : ContextEntry ↦ e.index = entry.index) (do
      emit (.freedName entry.index)
      emit (.closed entry.group)
      return { entry with data := { entry.data with record := none, kernelName := none } }) :=
    hfreed.bind fun _ _ ↦ (hclosed _).bind fun _ _ ↦ meets_pure rfl
  cases entry.data.record with
  | none => exact hrest
  | some r =>
    exact (meets_modify fun s ↦ hrecord s r).bind fun _ _ ↦ (hdeleted r).bind fun _ _ ↦ hrest

theorem dumps_cleanUp (m : Machine) (entry : ContextEntry) :
    Meets (Dumps m) (fun e ↦ e.index = entry.index) (cleanUp entry) :=
  meets_cleanUp entry (fun _ _ ↦ ⟨publishes_of_eq rfl rfl, rfl, fun _ ↦ ready_of_update⟩)
    (fun _ ↦ meets_emit rfl rfl) (meets_emit rfl rfl) fun _ ↦ meets_emit rfl rfl

theorem exec_emit (effect : Effect) (s : Tool) :
    exec (emit effect) s = (.ok ⟨⟩, after (emit effect) s) := rfl

theorem exec_collect (entry : ContextEntry) (s : Tool) :
    exec (collect entry) s = (.ok ⟨⟩, after (collect entry) s) := rfl

theorem collected_collect (entry : ContextEntry) (s : Tool) :
    (after (collect entry) s).collected = s.collected ++ [entry] := List.filterMap_append

theorem published_collect (entry : ContextEntry) (s : Tool) :
    (after (collect entry) s).published = s.published :=
  List.filterMap_append.trans (List.append_nil _)

/-- **Before the kernel is done**, nothing happens. -/
theorem exec_dumpContextEntry_of_not_ready (m : Machine) {s : Tool} {entry : ContextEntry}
    (toClean : Bool) (h : ¬Ready s entry) :
    exec (dumpContextEntry m entry toClean) s = (.ok (false, entry), s) ∨
      ∃ e, exec (dumpContextEntry m entry toClean) s = (.error e, s) := by
  rw [dumpContextEntry, exec_bind_ok (exec_get s)]
  cases hread : s.readRecord entry.data.record with
  | error e => exact Or.inr ⟨e, exec_bind_error (exec_lift _ s)⟩
  | ok record =>
    left
    have hdone : record.any (fun record ↦ record.complete == 0) = true := by
      by_contra hdone
      exact h ⟨record, hread, by simpa using hdone⟩
    rw [exec_bind_ok (exec_lift _ s), if_pos hdone]
    rfl

/-- **A context of the optimised mode** is counted, and that is all. -/
theorem exec_dumpContextEntry_of_sentinel (m : Machine) {s : Tool} {entry : ContextEntry}
    (toClean : Bool) (hready : Ready s entry) (hindex : entry.index = uint32Max) :
    exec (dumpContextEntry m entry toClean) s = (.ok (true, entry), after (collect entry) s) := by
  obtain ⟨record, hread, hdone⟩ := hready
  have hsentinel : (entry.index == uint32Max) = true := beq_iff_eq.mpr hindex
  rw [dumpContextEntry, exec_bind_ok (exec_get s), hread, exec_bind_ok (exec_lift _ s),
    if_neg (by rw [hdone]; exact Bool.false_ne_true), exec_bind_ok (exec_collect _ s),
    if_pos hsentinel]
  rfl

/-- **A context that is publishable** is counted and published; then the entry may be cleaned
up. -/
theorem exec_dumpContextEntry_of_publishable {m : Machine} {s : Tool} {entry : ContextEntry}
    (toClean : Bool) (hready : Ready s entry) (hindex : entry.index ≠ uint32Max)
    (hpub : Publishable m entry) :
    ∃ text, Carries m entry text ∧ exec (dumpContextEntry m entry toClean) s
      = exec (if toClean then do return (true, ← cleanUp entry) else return (true, entry))
          (s.publish entry text) := by
  obtain ⟨record, hread, hdone⟩ := hready
  obtain ⟨text, htext, hcarries⟩ := message_of_publishable hpub record
  refine ⟨text, hcarries, ?_⟩
  rw [dumpContextEntry, exec_bind_ok (exec_get s), hread, exec_bind_ok (exec_lift _ s),
    if_neg (by rw [hdone]; exact Bool.false_ne_true), exec_bind_ok (exec_collect _ s),
    if_neg (by simpa using hindex), htext, exec_bind_ok (exec_lift _ _),
    exec_bind_ok (exec_emit _ _)]
  rfl

/-- **What has been done when `dump_context_entry` returns** for an entry of `context_array`:
nothing, if the kernel is not done, and else the entry is counted, published and cleaned up. -/
theorem exists_of_exec_dumpContextEntry {m : Machine} {entry : ContextEntry} {s t : Tool}
    {p : Bool × ContextEntry} (hindex : entry.index ≠ uint32Max)
    (h : exec (dumpContextEntry m entry true) s = (.ok p, t)) :
    ∃ record, s.readRecord entry.data.record = .ok record ∧
      ((record.any fun record ↦ record.complete == 0) = true ∧ p = (false, entry) ∧ t = s ∨
        ¬(record.any fun record ↦ record.complete == 0) = true ∧ ∃ text entry',
          exec (cleanUp entry) (s.publish entry text) = (.ok entry', t) ∧ p = (true, entry')) := by
  rw [dumpContextEntry, exec_bind_ok (exec_get s)] at h
  obtain ⟨record, hread, h⟩ := exists_of_exec_lift_bind h
  refine ⟨record, hread, ?_⟩
  by_cases hdone : record.any fun record ↦ record.complete == 0
  · rw [if_pos hdone] at h
    obtain ⟨hret, rfl⟩ := Prod.mk.inj h
    exact .inl ⟨hdone, (Except.ok.inj hret).symm, rfl⟩
  · rw [if_neg hdone] at h
    obtain ⟨⟨⟩, u, hcollect, h⟩ := exists_of_exec_bind h
    obtain ⟨-, rfl⟩ := Prod.mk.inj hcollect
    rw [if_neg (by simpa using hindex)] at h
    obtain ⟨text, -, h⟩ := exists_of_exec_lift_bind h
    obtain ⟨⟨⟩, v, hemit, h⟩ := exists_of_exec_bind h
    obtain ⟨-, rfl⟩ := Prod.mk.inj hemit
    rw [if_pos rfl] at h
    obtain ⟨entry', w, hclean, h⟩ := exists_of_exec_bind h
    obtain ⟨hret, rfl⟩ := Prod.mk.inj h
    exact .inr ⟨hdone, text, entry', hclean, (Except.ok.inj hret).symm⟩

/-- **Dumping an entry of `context_array`** adds to both logs, when it is publishable as soon as it
is ready. -/
theorem dumps_dumpContextEntry {m : Machine} {s : Tool} {entry : ContextEntry}
    (hindex : entry.index ≠ uint32Max) (hpub : Ready s entry → Publishable m entry) :
    Dumps m s (after (dumpContextEntry m entry true) s) ∧
      ∀ p t, exec (dumpContextEntry m entry true) s = (.ok p, t) → p.2.index = entry.index := by
  by_cases hready : Ready s entry
  · obtain ⟨text, hcarries, heq⟩ :=
      exec_dumpContextEntry_of_publishable true hready hindex (hpub hready)
    have hmeets : Meets (Dumps m) (fun p : Bool × ContextEntry ↦ p.2.index = entry.index)
        (do return (true, ← cleanUp entry)) :=
      (dumps_cleanUp m entry).bind fun _ h ↦ meets_pure h
    have hpublish : Dumps m s (s.publish entry text) :=
      ⟨publishes_publish hcarries s, rfl, fun _ ↦ id⟩
    rw [after, heq]
    exact ⟨trans_of _ hpublish (hmeets _).1, (hmeets _).2⟩
  · rcases exec_dumpContextEntry_of_not_ready m true hready with h | ⟨e, h⟩
    · rw [after, h]
      refine ⟨refl_of _ s, fun p t hp ↦ ?_⟩
      cases hp
      rfl
    · rw [after, h]
      refine ⟨refl_of _ s, fun p t hp ↦ ?_⟩
      cases hp

/-! ## Collecting -/

/-- What a queue has ready is publishable. -/
def QueuePublishable (m : Machine) (queue : Option UInt64) (tool : Tool) : Prop :=
  ∀ (key : UInt32) (entry : ContextEntry), tool.contextArray[key]? = some entry →
    queue.all (· == entry.data.queue) = true → entry.active = true → Ready tool entry →
      Publishable m entry

/-- Something holds of each entry that is still to be dumped for the queue, as
`QueuePublishable` has it. -/
def ForQueue (queue : Option UInt64) (P : ContextEntry → Prop) (tool : Tool) : Prop :=
  ∀ (key : UInt32) (entry : ContextEntry), tool.contextArray[key]? = some entry →
    queue.all (· == entry.data.queue) = true → entry.active = true → Ready tool entry → P entry

/-- The entries are the same, and no more of them are ready. -/
theorem ForQueue.mono {queue : Option UInt64} {P : ContextEntry → Prop} {s t : Tool}
    (hs : ForQueue queue P s) (harray : t.contextArray = s.contextArray)
    (hready : ∀ entry, Ready t entry → Ready s entry) : ForQueue queue P t :=
  fun key entry hentry hqueue hactive h ↦
    hs key entry (harray ▸ hentry) hqueue hactive (hready entry h)

/-- An entry that is no longer active is none of the queue's. -/
theorem ForQueue.writeEntry {queue : Option UInt64} {P : ContextEntry → Prop} {s : Tool}
    {key : UInt32} {entry : ContextEntry} (hs : ForQueue queue P s) (h : entry.active = false) :
    ForQueue queue P (s.writeEntry key entry) := by
  intro key' entry' hentry hqueue hactive hready
  rcases OrderedMap.of_getElem?_insert hentry with ⟨-, rfl⟩ | ⟨-, hentry⟩
  · exact absurd (h.symm.trans hactive) Bool.false_ne_true
  · exact hs key' entry' hentry hqueue hactive hready

theorem Dumps.queuePublishable {m : Machine} {queue : Option UInt64} {s t : Tool}
    (h : Dumps m s t) (hs : QueuePublishable m queue s) : QueuePublishable m queue t :=
  ForQueue.mono hs h.contextArray h.ready

theorem queuePublishable_writeEntry {m : Machine} {queue : Option UInt64} {s : Tool} {key : UInt32}
    {entry : ContextEntry} (h : entry.active = false) (hs : QueuePublishable m queue s) :
    QueuePublishable m queue (s.writeEntry key entry) :=
  ForQueue.writeEntry hs h

/-- What the rounds of `dump_context_array` do: what is still to come stays publishable. -/
abbrev Sweeps (m : Machine) (queue : Option UInt64) : Tool → Tool → Prop :=
  Keeping (Extends m) (QueuePublishable m queue)

/-- **One round of the inner loop.** -/
theorem sweeps_dumpKey {m : Machine} {queue : Option UInt64} {s : Tool} (key : UInt32)
    (hI : Indexed s) (hs : QueuePublishable m queue s) :
    Sweeps m queue s (after (dumpKey m queue key) s) := by
  rw [dumpKey, after, exec_bind_ok (exec_get s)]
  cases hentry : s.contextArray[key]? with
  | none => exact refl_of _ s
  | some entry =>
    dsimp only
    split_ifs with h
    · obtain ⟨hqueue, hactive⟩ := Bool.and_eq_true_iff.mp h
      obtain ⟨hdumps, hindex⟩ := dumps_dumpContextEntry (m := m) (hI key entry hentry)
        (hs key entry hentry hqueue hactive)
      refine after_bind (R := Sweeps m queue) ⟨hdumps.extends, hdumps.queuePublishable⟩
        fun p t hp ↦ ?_
      obtain ⟨ret, entry'⟩ := p
      have hindex' : entry'.index ≠ uint32Max := hindex _ t hp ▸ hI key entry hentry
      cases ret with
      | true => exact ⟨extends_writeEntry hindex', queuePublishable_writeEntry rfl⟩
      | false => exact refl_of _ t
    · exact refl_of _ s

/-- **The inner loop.** -/
theorem sweeps_dumpKeys {m : Machine} {queue : Option UInt64} {s : Tool} (keys : List UInt32)
    (hI : Indexed s) (hs : QueuePublishable m queue s) :
    Sweeps m queue s (after (dumpKeys m queue keys) s) := by
  induction keys generalizing s with
  | nil => exact refl_of _ s
  | cons key keys ih =>
    have hkey := sweeps_dumpKey key hI hs
    refine after_bind hkey fun done t ht ↦ ?_
    rw [after_of_exec ht] at hkey
    exact after_bind (ih (hkey.1.2 hI) (hkey.2 hs)) fun rest u _ ↦ refl_of _ u

/-- **The completion handler** of `dispatch_callback`. -/
theorem extends_contextHandler {m : Machine} {s : Tool} {index : UInt32} (hI : Indexed s)
    (hpub : ∀ entry, s.contextArray[index]? = some entry → entry.active = true → Ready s entry →
      Publishable m entry) :
    Extends m s (after (contextHandler m index) s) := by
  rw [contextHandler, after, exec_bind_ok (exec_get s)]
  cases hentry : s.contextArray[index]? with
  | none => exact refl_of _ s
  | some entry =>
    dsimp only
    split_ifs with hactive
    · obtain ⟨hdumps, -⟩ := dumps_dumpContextEntry (m := m) (hI index entry hentry)
        (hpub entry hentry hactive)
      refine after_bind hdumps.extends fun p t _ ↦ ?_
      obtain ⟨ret, entry'⟩ := p
      cases ret with
      | true => exact extends_erase t _
      | false => exact refl_of _ t
    · exact extends_erase s _

/-! ## Dispatching -/

theorem extends_symbols {m : Machine} (s : Tool) (symbols : UMap UInt64 Symbol) :
    Extends m s { s with symbols } :=
  ⟨publishes_of_eq rfl rfl, id⟩

theorem extends_payloads {m : Machine} (s : Tool) (payloads : UMap Slot ContextEntry) :
    Extends m s { s with payloads } :=
  ⟨publishes_of_eq rfl rfl, id⟩

theorem meets_acquireKernelNameRef {R : Tool → Tool → Prop} [Std.Refl R]
    (hsymbols : ∀ s symbols, R s { s with symbols }) (addr : UInt64) :
    Meets R (fun _ ↦ True) (acquireKernelNameRef addr) := by
  intro s
  refine ⟨?_, fun _ _ _ ↦ trivial⟩
  rw [acquireKernelNameRef, after, exec_bind_ok (exec_get s)]
  cases s.symbols addr with
  | none => exact refl_of _ s
  | some symbol => exact hsymbols s _

section Names

variable {R : Tool → Tool → Prop} [Std.Refl R] [IsTrans Tool R]

theorem meets_setKernelName (hsymbols : ∀ s symbols, R s { s with symbols })
    (hname : ∀ index, Meets R (fun _ ↦ True) (emit (.duplicatedName index))) (m : Machine)
    (callbackData : CallbackData) (entry : ContextEntry) :
    Meets R (fun p ↦ p.1.index = entry.index) (setKernelName m callbackData entry) := by
  unfold setKernelName
  split
  · exact (meets_acquireKernelNameRef hsymbols _).bind fun _ _ ↦ meets_pure rfl
  · exact meets_throw _
  · exact (hname _).bind fun _ _ ↦ meets_pure rfl

/-- `set_kernel_properties` leaves the index alone, and what it does to the tool is done to the
symbols and to a name. -/
theorem meets_setKernelProperties (hsymbols : ∀ s symbols, R s { s with symbols })
    (hname : ∀ index, Meets R (fun _ ↦ True) (emit (.duplicatedName index))) (m : Machine)
    (callbackData : CallbackData) (entry : ContextEntry) :
    Meets R (fun e ↦ e.index = entry.index) (setKernelProperties m callbackData entry) := by
  unfold setKernelProperties
  refine (meets_setKernelName hsymbols hname m callbackData _).bind fun p hp ↦ ?_
  refine meets_lift_bind fun gridSize _ ↦ meets_lift_bind fun xy _ ↦ ?_
  refine meets_lift_bind fun xyz _ ↦ meets_lift_bind fun workgroupSize _ ↦ ?_
  exact meets_pure hp

/-- The second half of `dispatch_callback` sets the properties, and writes the entry. -/
theorem after_fillContext (hsymbols : ∀ s symbols, R s { s with symbols })
    (hname : ∀ index, Meets R (fun _ ↦ True) (emit (.duplicatedName index))) (m : Machine)
    (callbackData : CallbackData) {index : UInt32} (context : ℕ) (currTime : UInt64) {s : Tool}
    (hwrite : ∀ t entry entry', s.contextArray[index]? = some entry →
      entry'.index = entry.index → R t (t.writeEntry index entry')) :
    R s (after (fillContext m callbackData index context currTime) s) := by
  rw [fillContext, after, exec_bind_ok (exec_get s)]
  cases hentry : s.contextArray[index]? with
  | none => exact refl_of _ s
  | some entry =>
    obtain ⟨hprops, hindex⟩ := meets_setKernelProperties hsymbols hname m callbackData entry s
    refine after_bind hprops fun entry' t ht ↦ ?_
    exact after_bind (refl_of _ t) fun features u _ ↦
      hwrite u entry _ hentry (hindex entry' t ht)

/-- `dispatch_callback_opt` sets them too, and writes the payload. -/
theorem after_dispatchCallbackOpt (hsymbols : ∀ s symbols, R s { s with symbols })
    (hname : ∀ index, Meets R (fun _ ↦ True) (emit (.duplicatedName index)))
    (hpayloads : ∀ s payloads, R s { s with payloads }) (m : Machine)
    (callbackData : CallbackData) (number context : ℕ) (s : Tool) :
    R s (after (dispatchCallbackOpt m callbackData number context) s) := by
  rw [dispatchCallbackOpt]
  cases m.devIndex callbackData.agent with
  | none => exact refl_of _ s
  | some gpuId =>
    dsimp only
    split_ifs with hgpu
    · exact refl_of _ s
    · rw [after, exec_bind_ok (exec_get s)]
      have hprops := meets_setKernelProperties hsymbols hname m callbackData
        ((s.payloads (gpuId, number)).getD {})
      exact after_bind (hprops s).1 fun entry t _ ↦ hpayloads t _

end Names

theorem extends_duplicatedName (m : Machine) (index : UInt32) :
    Meets (Extends m) (fun _ ↦ True) (emit (.duplicatedName index)) :=
  (meets_emit rfl rfl).mono fun _ _ ↦ Dumps.extends

theorem extends_nextContextCount (m : Machine) (s : Tool) :
    Extends m s { s with contextCount := s.contextCount + 1 } :=
  ⟨publishes_of_eq rfl rfl, id⟩

/-- The indices of `alloc_context_entry` only come to `UINT32_MAX` with the last count. -/
theorem extends_allocContextEntry {m : Machine} {s : Tool}
    (hcount : s.contextCount.toNat + 1 < 2 ^ 32) :
    Extends m s (after allocContextEntry s) := by
  have hindex : s.contextCount + 1 - 1 ≠ uint32Max := by
    rw [UInt32.add_sub_cancel]
    rintro hmax
    rw [hmax] at hcount
    revert hcount
    decide
  refine trans_of _ (extends_nextContextCount m s) ?_
  have hnext : exec nextContextCount s
      = (.ok (s.contextCount + 1), { s with contextCount := s.contextCount + 1 }) := rfl
  rw [allocContextEntry, after, exec_bind_ok hnext, exec_bind_ok (exec_get _)]
  split_ifs with hcontains
  · exact refl_of _ _
  · exact extends_writeEntry hindex

/-- The first half of `dispatch_callback`. -/
theorem extends_allocContext {m : Machine} {s : Tool} (callbackData : CallbackData)
    (hcount : s.contextCount.toNat + 1 < 2 ^ 32) :
    Extends m s (after (allocContext m callbackData) s) := by
  rw [allocContext]
  refine after_bind (refl_of _ s) fun opens t ht ↦ ?_
  obtain rfl : s = t := after_of_exec ht
  cases opens with
  | false => exact extends_nextContextCount m s
  | true => exact after_bind (extends_allocContextEntry hcount) fun index u _ ↦ refl_of _ u

/-- The second half of `dispatch_callback`. -/
theorem extends_fillContext {m : Machine} {s : Tool} (callbackData : CallbackData) (index : UInt32)
    (context : ℕ) (currTime : UInt64) (hI : Indexed s) :
    Extends m s (after (fillContext m callbackData index context currTime) s) := by
  refine after_fillContext extends_symbols (extends_duplicatedName m) m callbackData context
    currTime fun t entry entry' hentry hindex ↦ extends_writeEntry ?_
  exact hindex ▸ hI index entry hentry

theorem extends_dispatchCallbackOpt (m : Machine) (s : Tool) (callbackData : CallbackData)
    (number context : ℕ) :
    Extends m s (after (dispatchCallbackOpt m callbackData number context) s) :=
  after_dispatchCallbackOpt extends_symbols (extends_duplicatedName m) extends_payloads m
    callbackData number context s

theorem extends_releaseKernelNameRef (m : Machine) (s : Tool) (it : Option UInt64) :
    Extends m s (after (releaseKernelNameRef it) s) := by
  rw [releaseKernelNameRef, after, exec_bind_ok (exec_get s)]
  cases h : s.symbolAt it with
  | error e => exact refl_of _ s
  | ok p => exact extends_symbols s _

/-- **The completion handler of the optimised mode**, when it does not count the context. -/
theorem extends_contextPoolHandler {m : Machine} {s : Tool} {slot : Slot}
    (h : ∀ payload p, s.payloads slot = some payload →
      s.symbolAt payload.kernelNameIt = .ok p → ¬Ready s payload) :
    Extends m s (after (contextPoolHandler m slot) s) := by
  rw [contextPoolHandler, after, exec_bind_ok (exec_get s)]
  cases hpayload : s.payloads slot with
  | none => exact refl_of _ s
  | some payload =>
    dsimp only
    cases hsymbol : s.symbolAt payload.kernelNameIt with
    | error e => exact refl_of _ s
    | ok p =>
      have hnot := h payload p hpayload hsymbol
      rw [exec_bind_ok (exec_lift _ s)]
      refine after_bind ?_ fun q t _ ↦ ?_
      · -- whether the kernel is done does not depend on what has been filled in
        rcases exec_dumpContextEntry_of_not_ready m false (show ¬Ready s { payload with
          features := m.handlerFeatures
          data := { payload.data with kernelName := some p.2.name } } from hnot) with hd | ⟨e, hd⟩
        · rw [after, hd]
          exact refl_of _ s
        · rw [after, hd]
          exact refl_of _ s
      · refine after_bind (extends_payloads t _) fun _ u _ ↦ ?_
        exact extends_releaseKernelNameRef m u _

/-- **The completion handler of the optimised mode** does count the contexts whose kernels are done,
and then the counts do not match. -/
theorem not_eachPublished_contextPoolHandler {m : Machine} {s : Tool} {slot : Slot}
    {payload : ContextEntry} {p : UInt64 × Symbol} (hs : EachPublished m s)
    (hpayload : s.payloads slot = some payload)
    (hsymbol : s.symbolAt payload.kernelNameIt = .ok p) (hready : Ready s payload)
    (hindex : payload.index = uint32Max) :
    ¬EachPublished m (after (contextPoolHandler m slot) s) := by
  let entry : ContextEntry := { payload with
    features := m.handlerFeatures
    data := { payload.data with kernelName := some p.2.name } }
  let t : Tool := { after (collect entry) s with payloads := s.payloads.assign slot entry }
  have hafter : after (contextPoolHandler m slot) s
      = after (releaseKernelNameRef entry.kernelNameIt) t := by
    have hdump : exec (dumpContextEntry m entry false) s
        = (.ok (true, entry), after (collect entry) s) :=
      exec_dumpContextEntry_of_sentinel m false hready hindex
    rw [contextPoolHandler, after, exec_bind_ok (exec_get s), hpayload]
    dsimp only
    rw [hsymbol, exec_bind_ok (exec_lift _ s), exec_bind_ok hdump]
    rfl
  obtain ⟨⟨entries, texts, hcarries, hentries, htexts, -⟩, -⟩ :=
    extends_releaseKernelNameRef m t entry.kernelNameIt
  have hcollected : t.collected = s.collected ++ [entry] := collected_collect entry s
  have hpublished : t.published = s.published := published_collect entry s
  rw [hafter]
  intro h
  have hlen := h.each.length_eq
  have hlen' := hs.each.length_eq
  have hlen'' := hcarries.length_eq
  rw [hentries, htexts, hcollected, hpublished] at hlen
  simp only [List.length_append, List.length_singleton] at hlen
  omega

/-! ## Runs -/

/-- The condition on an event: what `context_handler` and `dump_context_array` are to collect is
publishable, and `context_pool_handler` has nothing to collect. -/
def PublishesAll (m : Machine) (s : System) : Event → Prop
  | .contextHandler index => ∀ entry, s.tool.contextArray[index]? = some entry →
      entry.active = true → Ready s.tool entry → Publishable m entry
  | .dumpContextArray queue => QueuePublishable m queue s.tool
  | .contextPoolHandler slot => ∀ payload p, s.tool.payloads slot = some payload →
      s.tool.symbolAt payload.kernelNameIt = .ok p → ¬Ready s.tool payload
  | _ => True

theorem extends_records {m : Machine} (s : Tool) (records : UMap ℕ DispatchRecord) :
    Extends m s { s with records } :=
  ⟨publishes_of_eq rfl rfl, id⟩

theorem extends_allocate (m : Machine) (s : Tool) (record : Option ℕ) :
    Extends m s (s.allocate record) := by
  cases record with
  | none => exact refl_of _ s
  | some r => exact extends_records s _

theorem contextCount_allocate (s : Tool) (record : Option ℕ) :
    (s.allocate record).contextCount = s.contextCount := by
  cases record <;> rfl

/-- **The step**: an event under the condition adds to both logs, or to none. -/
theorem extends_step {m : Machine} {s t : System} {event : Event} (hI : Indexed s.tool)
    (hC : PublishesAll m s event) (h : step m s event = some t) : Extends m s.tool t.tool := by
  rw [tool_of_step h]
  cases event with
  | dispatch callbackData =>
    refine trans_of _ (extends_allocate m s.tool callbackData.record) (extends_allocContext _ ?_)
    rw [contextCount_allocate]
    exact contextCount_of_step_dispatch h
  | fill index context currTime =>
    rw [System.toolAfter]
    cases s.dispatching index with
    | none => exact refl_of _ s.tool
    | some callbackData => exact extends_fillContext callbackData index _ _ hI
  | dispatchOpt callbackData number context =>
    exact trans_of _ (extends_allocate m s.tool callbackData.record)
      (extends_dispatchCallbackOpt m _ callbackData number context)
  | complete r written => exact extends_records s.tool _
  | contextHandler index => exact extends_contextHandler hI hC
  | contextPoolHandler slot => exact extends_contextPoolHandler hC
  | dumpContextArray queue => exact (sweeps_dumpKeys _ hI hC).1

/-- **Every context that is counted is published**, with its GPU, its kernel and its features, in
every run in which what is collected by `context_handler` and `dump_context_array` is publishable
and `context_pool_handler` has nothing to collect. -/
theorem everywhere_eachPublished {m : Machine} {symbols : UMap UInt64 Symbol} {events : List Event}
    (h : Along (step m) (System.start symbols) (PublishesAll m) events) :
    Everywhere (step m) (System.start symbols) (fun s ↦ EachPublished m s.tool) events := by
  have hstart : Indexed (System.start symbols).tool := by
    intro key entry hentry
    simp [System.start] at hentry
  have hinv : Everywhere (step m) (System.start symbols)
      (fun s ↦ Indexed s.tool ∧ EachPublished m s.tool) events := by
    refine along_invariant ⟨hstart, rfl, .nil⟩ (fun s event t hs hC ht ↦ ?_) h
    have hextends := extends_step hs.1 hC ht
    exact ⟨hextends.2 hs.1, hs.2.of_publishes hextends.1⟩
  exact fun xs t hpre ht ↦ (hinv xs t hpre ht).2

/-! ## One kernel -/

/-- A machine with one GPU and one counter, which is `5` for every kernel. -/
def oneCounter : Machine where
  devIndex agent := if agent = 1 then some 0 else none
  gpuCount := 1
  getKernelCode _ := ⟨0, 0⟩
  granulatedVgprCount rsrc1 := rsrc1 &&& 0x3f
  granulatedSgprCount rsrc1 := rsrc1 >>> 6 &&& 0xf
  metrics _ := [.int64 5]
  printTime time := decimal time.toNat ++ ".000000".toList
  printDouble _ := []
  toolData := ⟨["SQ_WAVES".toList], none, false, none, none⟩
  handlerFeatures := ["SQ_WAVES".toList]
  resultPrefix := true
  ctxOutstandingMax := 0
  toTruncateNames := false

/-- The dispatch of a kernel `axpy`, with its name and its code or without them. -/
def axpy (named : Bool) : CallbackData where
  agent := 1
  agentIndex := 0
  queue := 1
  kernelName := if named then some "axpy".toList else none
  kernelCode := if named then some ⟨0, 0⟩ else none
  packet := ⟨64, 1, 1, 64, 1, 1, 0, 0, 100⟩
  completionSignal := 0
  record := some 0

/-- The symbol of the kernel. -/
def axpySymbols : UMap UInt64 Symbol := UMap.empty.assign 100 ⟨"axpy".toList, 0⟩

/-- Through `dispatch_callback` and `context_handler`, one context is counted and published. -/
theorem everywhere_eachPublished_axpy :
    Everywhere (step oneCounter) (System.start axpySymbols)
        (fun s ↦ EachPublished oneCounter s.tool)
        [.dispatch (axpy true), .fill 0 7 42, .complete 0 ⟨1, 2, 3, 4⟩, .contextHandler 0] ∧
      (run (step oneCounter) (System.start axpySymbols)
          [.dispatch (axpy true), .fill 0 7 42, .complete 0 ⟨1, 2, 3, 4⟩, .contextHandler 0]).map
            (fun s ↦ (s.stopped, s.tool.contextCollected)) = some (none, 1) := by
  refine ⟨everywhere_eachPublished ?_, by decide +kernel⟩
  refine .cons trivial rfl (.cons trivial rfl (.cons trivial rfl (along_singleton ?_)))
  intro entry hentry _ _
  cases hentry
  exact ⟨7, 0, "axpy".toList, ", SQ_WAVES:5".toList, rfl, rfl, rfl, rfl, by decide +kernel⟩

/-- **In the optimised mode nothing is published**: a kernel is dispatched, done and counted. -/
theorem pooled_context_not_published :
    ∃ t, run (step oneCounter) (System.start axpySymbols)
        [.dispatchOpt (axpy false) 0 7, .complete 0 ⟨1, 2, 3, 4⟩, .contextPoolHandler (0, 0)]
          = some t ∧
      t.stopped = none ∧ t.tool.contextCollected = 1 ∧ t.tool.published = [] ∧
        ¬EachPublished oneCounter t.tool := by
  refine ⟨_, rfl, rfl, rfl, rfl, fun h ↦ ?_⟩
  exact absurd h.each.length_eq (by decide)

end Version1
