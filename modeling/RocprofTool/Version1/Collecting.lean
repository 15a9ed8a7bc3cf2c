import Mathlib.Algebra.Group.Nat.Defs
import Mathlib.Data.List.Nodup
import Mathlib.Data.List.Perm.Subperm
import Mathlib.Tactic.SplitIfs
import RocprofTool.Lib.OrderedMap
import RocprofTool.Lib.UnorderedMap

/-!
# The life of a context

In the mode that is not optimised, a dispatch makes an entry in `context_array`, fills it in, makes
it `active` and then `valid`; some thread that holds the mutex dumps the entry, which counts the
context and gives back its record, its name and the context itself, and leaves it inactive or erases
it; and `rocprofiler_unload` deletes the array at the end.

The functions of `Contexts` are taken apart here at the places where other threads can come in
between, and of the entries only that is kept which collecting looks at.  A pointer to an entry, or
to the array, need not be good any more when it is used; what happens then is not defined, and
stops everything.

Five `Stage`s make up the life of a context, and `Tracks` says that each index is in one of them and
that the counters count what they should.  Each operation takes the context that it is about to the
next stage and leaves the others where they are (`Tracks.touch`).
-/

set_option autoImplicit false

namespace Version1.Collecting

/-! ## The data -/

/-- What ends a run. -/
inductive Stop
  /-- `abort`, in `alloc_context_entry`. -/
  | indexRepeated
  /-- `abort`, in `context_handler`. -/
  | notComplete
  /-- Memory is used that is not there. -/
  | undefined
  deriving DecidableEq, Repr

/-- `context_entry_t`. -/
structure Entry where
  valid : Bool := false
  active : Bool := false
  queue : UInt64 := 0
  /-- `data.record`: if there is one, is it complete? -/
  record : Option Bool := none
  deriving DecidableEq, Repr

/-- The pointer `context_array`: the array, memory that has been deleted, or null. -/
inductive ContextArray
  | live (entries : Std.TreeMap UInt32 Entry)
  | deleted
  | null

/-- The entry with an index. -/
def ContextArray.entryAt : ContextArray → UInt32 → Option Entry
  | .live entries, index => entries[index]?
  | .deleted, _ => none
  | .null, _ => none

/-- How far `dispatch_callback` has come with an entry. -/
inductive Progress
  | made
  | filled
  | active
  deriving DecidableEq, Repr

/-- The counters and the array, the calls of `dispatch_callback` that have made an entry, and the
indices of the contexts that have been allocated, made valid, counted and given back. -/
structure Contexts where
  contextCount : UInt32 := 0
  contextCollected : UInt32 := 0
  contextArray : ContextArray := .live ∅
  filling : UMap UInt32 Progress := .empty
  allocated : List UInt32 := []
  validated : List UInt32 := []
  counted : List UInt32 := []
  released : List UInt32 := []

/-! ## The functions -/

/-- `next_context_count`. -/
def Contexts.nextContextCount (c : Contexts) : Contexts :=
  { c with contextCount := c.contextCount + 1 }

/-- `alloc_context_entry`; it does not wait, since `CTX_OUTSTANDING_MAX` is zero. -/
def Contexts.allocContextEntry (c : Contexts) : Except Stop Contexts :=
  let c := c.nextContextCount
  let index := c.contextCount - 1
  match c.contextArray with
  | .live entries =>
    if entries.contains index then .error .indexRepeated
    else .ok { c with
      contextArray := .live (entries.insert index {})
      filling := c.filling.assign index .made
      allocated := c.allocated ++ [index] }
  | .deleted => .error .undefined
  | .null => .error .undefined

/-- What the pointer to an entry is at. -/
def Contexts.read (c : Contexts) (index : UInt32) : Except Stop Entry :=
  match c.contextArray.entryAt index with
  | some entry => .ok entry
  | none => .error .undefined

/-- Write an entry that is there. -/
def Contexts.write (c : Contexts) (index : UInt32) (entry : Entry) : Contexts :=
  match c.contextArray with
  | .live entries => { c with contextArray := .live (entries.insert index entry) }
  | .deleted => c
  | .null => c

/-- `entry->data = *callback_data`, and all else that `dispatch_callback` sets up to there. -/
def Contexts.fill (c : Contexts) (index : UInt32) (queue : UInt64) (record : Option Bool) :
    Except Stop Contexts := do
  let entry ← c.read index
  return { c.write index { entry with queue, record } with
    filling := c.filling.assign index .filled }

/-- `entry->active = true`. -/
def Contexts.activate (c : Contexts) (index : UInt32) : Except Stop Contexts := do
  let entry ← c.read index
  return { c.write index { entry with active := true } with
    filling := c.filling.assign index .active }

/-- `entry->valid` is set, and `dispatch_callback` returns. -/
def Contexts.validate (c : Contexts) (index : UInt32) : Except Stop Contexts := do
  let entry ← c.read index
  return { c.write index { entry with valid := true } with
    filling := Function.update c.filling index none
    validated := c.validated ++ [index] }

/-- `dump_context_entry` counts the context. -/
def Contexts.count (c : Contexts) (index : UInt32) : Contexts :=
  { c with
    contextCollected := c.contextCollected + 1
    counted := c.counted ++ [index] }

/-- The rest of `dump_context_entry`: it gives back the record, the name and the context. -/
def Contexts.release (c : Contexts) (index : UInt32) : Except Stop Contexts := do
  let entry ← c.read index
  return { c.write index { entry with record := none } with released := c.released ++ [index] }

/-- `entry->active = false`. -/
def Contexts.deactivate (c : Contexts) (index : UInt32) : Except Stop Contexts := do
  let entry ← c.read index
  return c.write index { entry with active := false }

/-- `dealloc_context_entry`. -/
def Contexts.deallocContextEntry (c : Contexts) (index : UInt32) : Except Stop Contexts :=
  match c.contextArray with
  | .live entries => .ok { c with contextArray := .live (entries.erase index) }
  | .deleted => .error .undefined
  | .null => .error .undefined

/-- The record of the context is written when its kernel is done. -/
def Contexts.complete (c : Contexts) (index : UInt32) : Option Contexts :=
  match c.contextArray.entryAt index with
  | none => none
  | some entry =>
    if entry.record = some false then some (c.write index { entry with record := some true })
    else none

/-! ## The stages -/

/-- Where a context is in its life, when the thread that holds the mutex is in the middle of dumping
`dumping`, if of any. -/
inductive Stage (dumping : Option UInt32) (c : Contexts) (index : UInt32) : Prop
  /-- There is no such context yet. -/
  | absent (allocated : index ∉ c.allocated) (entry : c.contextArray.entryAt index = none)
      (filling : c.filling index = none) (counted : index ∉ c.counted)
      (released : index ∉ c.released) (dumping : dumping ≠ some index)
  /-- Its dispatch has not returned. -/
  | filling (e : Entry) (progress : Progress) (allocated : index ∈ c.allocated)
      (entry : c.contextArray.entryAt index = some e) (filling : c.filling index = some progress)
      (valid : e.valid = false) (active : progress = .active → e.active = true)
      (counted : index ∉ c.counted) (released : index ∉ c.released)
      (dumping : dumping ≠ some index)
  /-- It is to be dumped. -/
  | ready (e : Entry) (allocated : index ∈ c.allocated)
      (entry : c.contextArray.entryAt index = some e) (filling : c.filling index = none)
      (valid : e.valid = true) (active : e.active = true) (validated : index ∈ c.validated)
      (counted : index ∉ c.counted) (released : index ∉ c.released)
      (dumping : dumping ≠ some index)
  /-- It is counted, and not yet given back. -/
  | dumping (e : Entry) (allocated : index ∈ c.allocated)
      (entry : c.contextArray.entryAt index = some e) (filling : c.filling index = none)
      (valid : e.valid = true) (active : e.active = true) (validated : index ∈ c.validated)
      (counted : index ∈ c.counted) (released : index ∉ c.released)
      (dumping : dumping = some index)
  /-- It has been dumped; there may still be an entry. -/
  | collected (allocated : index ∈ c.allocated)
      (entry : ∀ e, c.contextArray.entryAt index = some e → e.valid = true ∧ e.active = false)
      (filling : c.filling index = none) (validated : index ∈ c.validated)
      (counted : index ∈ c.counted) (released : index ∈ c.released)
      (dumping : dumping ≠ some index)

/-- The counters count what they should. -/
structure Counts (c : Contexts) : Prop where
  count : c.allocated.length ≤ c.contextCount.toNat
  below : ∀ index ∈ c.allocated, index < c.contextCount
  distinct : c.allocated.Nodup
  collected : c.contextCollected = UInt32.ofNat c.counted.length
  counted : c.counted.Nodup
  released : c.released.Nodup

theorem Counts.frame {c : Contexts} (h : Counts c) (contextArray : ContextArray)
    (filling : UMap UInt32 Progress) (validated : List UInt32) :
    Counts { c with contextArray, filling, validated } :=
  ⟨h.count, h.below, h.distinct, h.collected, h.counted, h.released⟩

/-- Each index is in one of the stages. -/
structure Tracks (dumping : Option UInt32) (c : Contexts) : Prop where
  stage : ∀ index, Stage dumping c index
  counts : Counts c

/-- Nothing has happened to the context with this index. -/
structure Same (dumping dumping' : Option UInt32) (c c' : Contexts) (index : UInt32) : Prop where
  allocated : index ∈ c'.allocated ↔ index ∈ c.allocated
  entry : c'.contextArray.entryAt index = c.contextArray.entryAt index
  filling : c'.filling index = c.filling index
  validated : index ∈ c'.validated ↔ index ∈ c.validated
  counted : index ∈ c'.counted ↔ index ∈ c.counted
  released : index ∈ c'.released ↔ index ∈ c.released
  dumping : dumping' = some index ↔ dumping = some index

theorem Stage.of_same {dumping dumping' : Option UInt32} {index : UInt32} {c c' : Contexts}
    (hs : Stage dumping c index) (h : Same dumping dumping' c c' index) :
    Stage dumping' c' index := by
  obtain ⟨allocated', entry', filling', validated', counted', released', dumping'⟩ := h
  rcases hs with ⟨allocated, entry, filling, counted, released, dumping⟩ |
    ⟨e, progress, allocated, entry, filling, valid, active, counted, released, dumping⟩ |
    ⟨e, allocated, entry, filling, valid, active, validated, counted, released, dumping⟩ |
    ⟨e, allocated, entry, filling, valid, active, validated, counted, released, dumping⟩ |
    ⟨allocated, entry, filling, validated, counted, released, dumping⟩
  · exact .absent (allocated'.not.mpr allocated) (entry'.trans entry) (filling'.trans filling)
      (counted'.not.mpr counted) (released'.not.mpr released) (dumping'.not.mpr dumping)
  · exact .filling e progress (allocated'.mpr allocated) (entry'.trans entry)
      (filling'.trans filling) valid active (counted'.not.mpr counted)
      (released'.not.mpr released) (dumping'.not.mpr dumping)
  · exact .ready e (allocated'.mpr allocated) (entry'.trans entry) (filling'.trans filling) valid
      active (validated'.mpr validated) (counted'.not.mpr counted) (released'.not.mpr released)
      (dumping'.not.mpr dumping)
  · exact .dumping e (allocated'.mpr allocated) (entry'.trans entry) (filling'.trans filling)
      valid active (validated'.mpr validated) (counted'.mpr counted) (released'.not.mpr released)
      (dumping'.mpr dumping)
  · exact .collected (allocated'.mpr allocated) (fun e he ↦ entry e (entry' ▸ he))
      (filling'.trans filling) (validated'.mpr validated) (counted'.mpr counted)
      (released'.mpr released) (dumping'.not.mpr dumping)

/-- **The rule for an operation**: the context that it touches gets to a stage, and the counters
stay right. -/
theorem Tracks.touch {dumping dumping' : Option UInt32} {c c' : Contexts} (h : Tracks dumping c)
    (index : UInt32) (hsame : ∀ i ≠ index, Same dumping dumping' c c' i)
    (hstage : Stage dumping' c' index) (hcounts : Counts c') : Tracks dumping' c' := by
  refine ⟨fun i ↦ ?_, hcounts⟩
  rcases eq_or_ne i index with rfl | hi
  · exact hstage
  · exact (h.stage i).of_same (hsame i hi)

/-! ## Entries -/

/-- The array is there when one of its entries is. -/
theorem live_of_entry {a : ContextArray} {index : UInt32} {e : Entry}
    (h : a.entryAt index = some e) : ∃ entries, a = .live entries := by
  rcases a with entries | _ | _
  · exact ⟨entries, rfl⟩
  · cases h
  · cases h

theorem read_of_entry {c : Contexts} {index : UInt32} {e : Entry}
    (h : c.contextArray.entryAt index = some e) : c.read index = .ok e := by
  rw [Contexts.read, h]

theorem entry_insert_of_ne (entries : Std.TreeMap UInt32 Entry) {index i : UInt32} (e : Entry)
    (hi : i ≠ index) :
    (ContextArray.live (entries.insert index e)).entryAt i
      = (ContextArray.live entries).entryAt i :=
  OrderedMap.getElem?_insert_of_ne entries e hi

/-- Writing an entry is about this entry of the array alone. -/
theorem exists_write {c : Contexts} {index : UInt32} {e : Entry} (e' : Entry)
    (h : c.contextArray.entryAt index = some e) :
    ∃ a, c.write index e' = { c with contextArray := a } ∧ a.entryAt index = some e' ∧
      ∀ i ≠ index, a.entryAt i = c.contextArray.entryAt i := by
  obtain ⟨entries, hlive⟩ := live_of_entry h
  refine ⟨.live (entries.insert index e'), by rw [Contexts.write, hlive],
    Std.TreeMap.getElem?_insert_self, fun i hi ↦ ?_⟩
  rw [hlive]
  exact entry_insert_of_ne entries e' hi

/-- What `dump_context_entry` does when it has counted an entry. -/
theorem exists_release {c : Contexts} {index : UInt32} {e : Entry}
    (h : c.contextArray.entryAt index = some e) :
    ∃ a, c.release index
        = .ok { c with contextArray := a, released := c.released ++ [index] } ∧
      a.entryAt index = some { e with record := none } ∧
        ∀ i ≠ index, a.entryAt i = c.contextArray.entryAt i := by
  obtain ⟨a, ha, hself, hother⟩ := exists_write { e with record := none } h
  refine ⟨a, ?_, hself, hother⟩
  rw [Contexts.release, read_of_entry h]
  exact congrArg Except.ok (by rw [ha])

theorem exists_deactivate {c : Contexts} {index : UInt32} {e : Entry}
    (h : c.contextArray.entryAt index = some e) :
    ∃ a, c.deactivate index = .ok { c with contextArray := a } ∧
      a.entryAt index = some { e with active := false } ∧
        ∀ i ≠ index, a.entryAt i = c.contextArray.entryAt i := by
  obtain ⟨a, ha, hself, hother⟩ := exists_write { e with active := false } h
  refine ⟨a, ?_, hself, hother⟩
  rw [Contexts.deactivate, read_of_entry h]
  exact congrArg Except.ok ha

/-- What `dealloc_context_entry` does. -/
theorem exists_deallocContextEntry {c : Contexts} (index : UInt32)
    (h : ∃ entries, c.contextArray = .live entries) :
    ∃ entries', c.deallocContextEntry index = .ok { c with contextArray := .live entries' } ∧
      (ContextArray.live entries').entryAt index = none ∧
        ∀ i ≠ index, (ContextArray.live entries').entryAt i = c.contextArray.entryAt i := by
  obtain ⟨entries, hlive⟩ := h
  refine ⟨entries.erase index, by rw [Contexts.deallocContextEntry, hlive],
    Std.TreeMap.getElem?_erase_self, fun i hi ↦ ?_⟩
  rw [hlive]
  exact OrderedMap.getElem?_erase_of_ne entries hi

/-- What all the operations leave of the contexts, but for an entry that is erased. -/
structure Keeps (erased : Option UInt32) (c c' : Contexts) : Prop where
  live : (∃ entries, c.contextArray = .live entries) ∧ ∃ entries, c'.contextArray = .live entries
  allocated : c'.allocated = c.allocated
  counted : c.counted <+: c'.counted
  released : c.released <+: c'.released
  present : ∀ i, erased ≠ some i → (c.contextArray.entryAt i).isSome →
    (c'.contextArray.entryAt i).isSome
  filling : ∀ i, c.filling i = none → c'.filling i = none

/-- An entry that is written stays there, and so do all the others. -/
theorem keeps_of_write {c : Contexts} {a : ContextArray} {index : UInt32} {e e' : Entry}
    {filling : UMap UInt32 Progress} {released : List UInt32} (validated : List UInt32)
    (hentry : c.contextArray.entryAt index = some e) (hself : a.entryAt index = some e')
    (hother : ∀ i ≠ index, a.entryAt i = c.contextArray.entryAt i)
    (hfilling : ∀ i, c.filling i = none → filling i = none) (hreleased : c.released <+: released) :
    Keeps none c { c with contextArray := a, filling, validated, released } := by
  refine ⟨⟨live_of_entry hentry, live_of_entry hself⟩, rfl, List.prefix_rfl, hreleased,
    fun i _ h ↦ ?_, hfilling⟩
  rcases eq_or_ne i index with rfl | hi
  · show (a.entryAt i).isSome
    rw [hself]
    rfl
  · show (a.entryAt i).isSome
    rwa [hother i hi]

/-- When an entry is erased, all the others stay. -/
theorem keeps_of_erase {c : Contexts} {a : ContextArray} {index : UInt32} {released : List UInt32}
    (hlive : ∃ entries, c.contextArray = .live entries) (ha : ∃ entries, a = .live entries)
    (hother : ∀ i ≠ index, a.entryAt i = c.contextArray.entryAt i)
    (hreleased : c.released <+: released) :
    Keeps (some index) c { c with contextArray := a, released } := by
  refine ⟨⟨hlive, ha⟩, rfl, List.prefix_rfl, hreleased, fun i hi h ↦ ?_, fun _ ↦ id⟩
  show (a.entryAt i).isSome
  rwa [hother i fun heq ↦ hi (heq ▸ rfl)]

/-! ## Dispatching -/

theorem Stage.exists_of_filling {dumping : Option UInt32} {c : Contexts} {index : UInt32}
    {progress : Progress} (h : Stage dumping c index) (hfilling : c.filling index = some progress) :
    index ∈ c.allocated ∧ ∃ e, c.contextArray.entryAt index = some e ∧ e.valid = false ∧
      (progress = .active → e.active = true) ∧ index ∉ c.counted ∧ index ∉ c.released ∧
        dumping ≠ some index := by
  rcases h with ⟨-, -, filling, -⟩ |
    ⟨e, progress', allocated, entry, filling, valid, active, counted, released, dumping⟩ |
    ⟨-, -, -, filling, -⟩ | ⟨-, -, -, filling, -⟩ | ⟨-, -, filling, -⟩
  · rw [hfilling] at filling
    cases filling
  · rw [hfilling] at filling
    cases filling
    exact ⟨allocated, e, entry, valid, active, counted, released, dumping⟩
  · rw [hfilling] at filling
    cases filling
  · rw [hfilling] at filling
    cases filling
  · rw [hfilling] at filling
    cases filling

/-- A step of a dispatch that leaves its entry invalid. -/
theorem Tracks.progress {dumping : Option UInt32} {c : Contexts} {index : UInt32} {e e' : Entry}
    {old new : Progress} (h : Tracks dumping c) (hfilling : c.filling index = some old)
    (hentry : c.contextArray.entryAt index = some e) (hvalid : e'.valid = e.valid)
    (hactive : new = .active → e'.active = true) :
    Tracks dumping { c.write index e' with filling := c.filling.assign index new } ∧
      Keeps none c { c.write index e' with filling := c.filling.assign index new } := by
  obtain ⟨a, ha, hself, hother⟩ := exists_write e' hentry
  obtain ⟨hallocated, e₀, hentry₀, hinvalid, -, hcounted, hreleased, hdumping⟩ :=
    (h.stage index).exists_of_filling hfilling
  obtain rfl := Option.some.inj (hentry.symm.trans hentry₀)
  rw [ha]
  refine ⟨h.touch index (fun i hi ↦ ?_) ?_ (h.counts.frame _ _ _),
    keeps_of_write _ hentry hself hother (fun i hi ↦ ?_) List.prefix_rfl⟩
  · exact ⟨Iff.rfl, hother i hi, UMap.assign_of_ne _ _ hi, Iff.rfl, Iff.rfl, Iff.rfl, Iff.rfl⟩
  · exact .filling e' new hallocated hself (UMap.assign_self _ _ _) (hvalid.trans hinvalid) hactive
      hcounted hreleased hdumping
  · have hne : i ≠ index := by
      rintro rfl
      rw [hfilling] at hi
      cases hi
    exact (UMap.assign_of_ne _ _ hne).trans hi

theorem Tracks.fill {dumping : Option UInt32} {c : Contexts} {index : UInt32} (h : Tracks dumping c)
    (hfilling : c.filling index = some .made) (queue : UInt64) (record : Option Bool) :
    ∃ c', c.fill index queue record = .ok c' ∧ Tracks dumping c' ∧ Keeps none c c' := by
  obtain ⟨-, e, hentry, -⟩ := (h.stage index).exists_of_filling hfilling
  refine ⟨_, by rw [Contexts.fill, read_of_entry hentry]; rfl, ?_⟩
  exact h.progress hfilling hentry rfl fun heq ↦ by cases heq

theorem Tracks.activate {dumping : Option UInt32} {c : Contexts} {index : UInt32}
    (h : Tracks dumping c) (hfilling : c.filling index = some .filled) :
    ∃ c', c.activate index = .ok c' ∧ Tracks dumping c' ∧ Keeps none c c' := by
  obtain ⟨-, e, hentry, -⟩ := (h.stage index).exists_of_filling hfilling
  refine ⟨_, by rw [Contexts.activate, read_of_entry hentry]; rfl, ?_⟩
  exact h.progress hfilling hentry rfl fun _ ↦ rfl

/-- **The dispatch returns**, and its context is to be dumped. -/
theorem Tracks.validate {dumping : Option UInt32} {c : Contexts} {index : UInt32}
    (h : Tracks dumping c) (hfilling : c.filling index = some .active) :
    ∃ c', c.validate index = .ok c' ∧ Tracks dumping c' ∧ Keeps none c c' := by
  obtain ⟨hallocated, e, hentry, -, hactive, hcounted, hreleased, hdumping⟩ :=
    (h.stage index).exists_of_filling hfilling
  obtain ⟨a, ha, hself, hother⟩ := exists_write { e with valid := true } hentry
  refine ⟨_, by rw [Contexts.validate, read_of_entry hentry]; rfl, ?_⟩
  rw [ha]
  refine ⟨h.touch index (fun i hi ↦ ?_) ?_ (h.counts.frame _ _ _),
    keeps_of_write _ hentry hself hother (fun i hi ↦ ?_) List.prefix_rfl⟩
  · refine ⟨Iff.rfl, hother i hi, Function.update_of_ne hi _ _, ?_, Iff.rfl, Iff.rfl, Iff.rfl⟩
    rw [List.mem_append, List.mem_singleton, or_iff_left hi]
  · exact .ready _ hallocated hself (Function.update_self _ _ _) rfl (hactive rfl)
      (List.mem_append_right _ (List.mem_singleton_self index)) hcounted hreleased hdumping
  · rcases eq_or_ne i index with rfl | hne
    · exact Function.update_self _ _ _
    · exact (Function.update_of_ne hne _ _).trans hi

theorem toNat_nextContextCount {c : Contexts} (h : c.contextCount.toNat + 1 < 2 ^ 32) :
    (c.contextCount + 1).toNat = c.contextCount.toNat + 1 := by
  rw [UInt32.toNat_add]
  exact Nat.mod_eq_of_lt h

theorem counts_nextContextCount {c : Contexts} (h : Counts c)
    (hlt : c.contextCount.toNat + 1 < 2 ^ 32) : Counts c.nextContextCount := by
  have htoNat := toNat_nextContextCount hlt
  refine ⟨?_, fun index hindex ↦ ?_, h.distinct, h.collected, h.counted, h.released⟩
  · show c.allocated.length ≤ (c.contextCount + 1).toNat
    have hcount := h.count
    omega
  · show index < c.contextCount + 1
    have hbelow := UInt32.lt_iff_toNat_lt.mp (h.below index hindex)
    rw [UInt32.lt_iff_toNat_lt]
    omega

/-- A dispatch that does not pass the filter. -/
theorem Tracks.nextContextCount {dumping : Option UInt32} {c : Contexts} (h : Tracks dumping c)
    (hlt : c.contextCount.toNat + 1 < 2 ^ 32) : Tracks dumping c.nextContextCount := by
  refine ⟨fun i ↦ ?_, counts_nextContextCount h.counts hlt⟩
  exact (h.stage i).of_same ⟨Iff.rfl, rfl, rfl, Iff.rfl, Iff.rfl, Iff.rfl, Iff.rfl⟩

theorem Stage.of_notMem_allocated {dumping : Option UInt32} {c : Contexts} {index : UInt32}
    (h : Stage dumping c index) (hnew : index ∉ c.allocated) :
    c.contextArray.entryAt index = none ∧ c.filling index = none ∧ index ∉ c.counted ∧
      index ∉ c.released ∧ dumping ≠ some index := by
  rcases h with ⟨-, entry, filling, counted, released, dumping⟩ | ⟨-, -, allocated, -⟩ |
    ⟨-, allocated, -⟩ | ⟨-, allocated, -⟩ | ⟨allocated, -⟩
  · exact ⟨entry, filling, counted, released, dumping⟩
  · exact absurd allocated hnew
  · exact absurd allocated hnew
  · exact absurd allocated hnew
  · exact absurd allocated hnew

theorem Stage.allocated_of_entry {dumping : Option UInt32} {c : Contexts} {index : UInt32}
    {e : Entry} (h : Stage dumping c index) (hentry : c.contextArray.entryAt index = some e) :
    index ∈ c.allocated := by
  by_contra hnew
  rw [(h.of_notMem_allocated hnew).1] at hentry
  cases hentry

/-- The contexts after `alloc_context_entry`. -/
def Contexts.made (c : Contexts) (entries : Std.TreeMap UInt32 Entry) : Contexts :=
  { c.nextContextCount with
    contextArray := .live (entries.insert c.contextCount {})
    filling := c.filling.assign c.contextCount .made
    allocated := c.allocated ++ [c.contextCount] }

/-- **The index of a new context is a new one.** -/
theorem Tracks.allocContextEntry {dumping : Option UInt32} {c : Contexts}
    {entries : Std.TreeMap UInt32 Entry} (h : Tracks dumping c)
    (hlt : c.contextCount.toNat + 1 < 2 ^ 32) (hlive : c.contextArray = .live entries) :
    c.allocContextEntry = .ok (c.made entries) ∧ Tracks dumping (c.made entries) := by
  have hnew : c.contextCount ∉ c.allocated := fun hmem ↦
    absurd (h.counts.below _ hmem) (UInt32.lt_irrefl _)
  obtain ⟨hentry, -, hcounted, hreleased, hdumping⟩ :=
    (h.stage c.contextCount).of_notMem_allocated hnew
  have hcontains : entries.contains c.contextCount = false := by
    rw [hlive] at hentry
    rw [Std.TreeMap.contains_eq_isSome_getElem?, show entries[c.contextCount]? = none from hentry]
    rfl
  have hindex : c.contextCount + 1 - 1 = c.contextCount := UInt32.add_sub_cancel _ _
  refine ⟨?_, h.touch c.contextCount (fun i hi ↦ ⟨?_, ?_, UMap.assign_of_ne _ _ hi,
    Iff.rfl, Iff.rfl, Iff.rfl, Iff.rfl⟩) ?_ ?_⟩
  · simp only [Contexts.allocContextEntry, Contexts.nextContextCount, Contexts.made, hlive, hindex,
      hcontains]
    rfl
  · show i ∈ c.allocated ++ [c.contextCount] ↔ i ∈ c.allocated
    rw [List.mem_append, List.mem_singleton, or_iff_left hi]
  · rw [hlive]
    exact entry_insert_of_ne entries {} hi
  · exact .filling {} .made (List.mem_append_right _ (List.mem_singleton_self _))
      Std.TreeMap.getElem?_insert_self (UMap.assign_self _ _ _) rfl (fun heq ↦ by cases heq)
      hcounted hreleased hdumping
  · have htoNat := toNat_nextContextCount hlt
    refine ⟨?_, fun index hindex ↦ ?_, ?_, h.counts.collected, h.counts.counted,
      h.counts.released⟩
    · show (c.allocated ++ [c.contextCount]).length ≤ (c.contextCount + 1).toNat
      rw [List.length_append, List.length_singleton, htoNat]
      exact Nat.succ_le_succ h.counts.count
    · show index < c.contextCount + 1
      rw [UInt32.lt_iff_toNat_lt, htoNat]
      rcases List.mem_append.mp hindex with hmem | hmem
      · exact Nat.lt_succ_of_lt (UInt32.lt_iff_toNat_lt.mp (h.counts.below index hmem))
      · rw [List.mem_singleton.mp hmem]
        exact Nat.lt_succ_self _
    · show (c.allocated ++ [c.contextCount]).Nodup
      rw [← List.concat_eq_append]
      exact h.counts.distinct.concat hnew

/-! ## Dumping -/

/-- A record is written. -/
theorem Tracks.complete {dumping : Option UInt32} {c c' : Contexts} {index : UInt32}
    (h : Tracks dumping c) (hc : c.complete index = some c') :
    Tracks dumping c' ∧ Keeps none c c' := by
  rw [Contexts.complete] at hc
  rcases hentry : c.contextArray.entryAt index with _ | e
  · simp [hentry] at hc
  simp only [hentry, Option.ite_none_right_eq_some, Option.some.injEq] at hc
  obtain ⟨-, rfl⟩ := hc
  obtain ⟨a, ha, hself, hother⟩ := exists_write { e with record := some true } hentry
  rw [ha]
  refine ⟨h.touch index (fun i hi ↦ ?_) ?_ (h.counts.frame _ _ _),
    keeps_of_write _ hentry hself hother (fun _ ↦ id) List.prefix_rfl⟩
  · exact ⟨Iff.rfl, hother i hi, rfl, Iff.rfl, Iff.rfl, Iff.rfl, Iff.rfl⟩
  -- the stages do not depend on the record
  rcases h.stage index with ⟨-, entry, -⟩ |
    ⟨e', progress, allocated, entry, filling, valid, active, counted, released, dumping⟩ |
    ⟨e', allocated, entry, filling, valid, active, validated, counted, released, dumping⟩ |
    ⟨e', allocated, entry, filling, valid, active, validated, counted, released, dumping⟩ |
    ⟨allocated, entry, filling, validated, counted, released, dumping⟩
  · rw [hentry] at entry
    cases entry
  · rw [hentry] at entry
    cases entry
    exact .filling _ progress allocated hself filling valid active counted released dumping
  · rw [hentry] at entry
    cases entry
    exact .ready _ allocated hself filling valid active validated counted released dumping
  · rw [hentry] at entry
    cases entry
    exact .dumping _ allocated hself filling valid active validated counted released dumping
  · refine .collected allocated (fun e' he' ↦ ?_) filling validated counted released dumping
    rw [hself] at he'
    cases he'
    exact entry e hentry

theorem Stage.exists_of_valid {c : Contexts} {index : UInt32} {e : Entry}
    (h : Stage none c index) (hentry : c.contextArray.entryAt index = some e)
    (hvalid : e.valid = true) :
    index ∈ c.allocated ∧ c.filling index = none ∧ index ∈ c.validated ∧
      ((e.active = true ∧ index ∉ c.counted ∧ index ∉ c.released) ∨
        e.active = false ∧ index ∈ c.counted ∧ index ∈ c.released) := by
  rcases h with ⟨-, entry, -⟩ | ⟨e', -, -, entry, -, invalid, -⟩ |
    ⟨e', allocated, entry, filling, -, active, validated, counted, released, -⟩ |
    ⟨e', -, -, -, -, -, -, -, -, dumping⟩ |
    ⟨allocated, entry, filling, validated, counted, released, -⟩
  · rw [hentry] at entry
    cases entry
  · rw [hentry] at entry
    cases entry
    rw [hvalid] at invalid
    cases invalid
  · rw [hentry] at entry
    cases entry
    exact ⟨allocated, filling, validated, .inl ⟨active, counted, released⟩⟩
  · cases dumping
  · exact ⟨allocated, filling, validated, .inr ⟨(entry e hentry).2, counted, released⟩⟩

/-- A dispatch that has returned has an entry until its context has been given back. -/
theorem Stage.exists_of_allocated {dumping : Option UInt32} {c : Contexts} {index : UInt32}
    (h : Stage dumping c index) (hallocated : index ∈ c.allocated)
    (hfilling : c.filling index = none) (hreleased : index ∉ c.released) :
    ∃ e, c.contextArray.entryAt index = some e := by
  rcases h with ⟨allocated, -⟩ | ⟨_, _, -, -, filling, -⟩ | ⟨e, -, entry, -⟩ | ⟨e, -, entry, -⟩ |
    ⟨-, -, -, -, -, released, -⟩
  · exact absurd hallocated allocated
  · rw [hfilling] at filling
    cases filling
  · exact ⟨e, entry⟩
  · exact ⟨e, entry⟩
  · exact absurd released hreleased

theorem Stage.valid_of_filling {dumping : Option UInt32} {c : Contexts} {index : UInt32} {e : Entry}
    (h : Stage dumping c index) (hentry : c.contextArray.entryAt index = some e)
    (hfilling : c.filling index = none) : e.valid = true := by
  rcases h with ⟨-, entry, -⟩ | ⟨_, _, -, -, filling, -⟩ | ⟨e', -, entry, -, valid, -⟩ |
    ⟨e', -, entry, -, valid, -⟩ | ⟨-, entry, -⟩
  · rw [hentry] at entry
    cases entry
  · rw [hfilling] at filling
    cases filling
  · rw [hentry] at entry
    cases entry
    exact valid
  · rw [hentry] at entry
    cases entry
    exact valid
  · exact (entry e hentry).1

/-- Without an entry, it has been given back. -/
theorem Stage.released_of_none {dumping : Option UInt32} {c : Contexts} {index : UInt32}
    (h : Stage dumping c index) (hallocated : index ∈ c.allocated)
    (hentry : c.contextArray.entryAt index = none) : index ∈ c.released := by
  rcases h with ⟨allocated, -⟩ | ⟨e, -, -, entry, -⟩ | ⟨e, -, entry, -⟩ | ⟨e, -, entry, -⟩ |
    ⟨-, -, -, -, -, released, -⟩
  · exact absurd hallocated allocated
  · rw [hentry] at entry
    cases entry
  · rw [hentry] at entry
    cases entry
  · rw [hentry] at entry
    cases entry
  · exact released

/-- When none is in the middle of being dumped, what is counted has been given back. -/
theorem Stage.released_of_counted {c : Contexts} {index : UInt32} (h : Stage none c index)
    (hcounted : index ∈ c.counted) :
    index ∈ c.allocated ∧ c.filling index = none ∧ index ∈ c.validated ∧ index ∈ c.released := by
  rcases h with ⟨-, -, -, counted, -⟩ | ⟨-, -, -, -, -, -, -, counted, -⟩ |
    ⟨-, -, -, -, -, -, -, counted, -⟩ | ⟨-, -, -, -, -, -, -, -, -, dumping⟩ |
    ⟨allocated, -, filling, validated, -, released, -⟩
  · exact absurd hcounted counted
  · exact absurd hcounted counted
  · exact absurd hcounted counted
  · cases dumping
  · exact ⟨allocated, filling, validated, released⟩

/-- What is counted is valid, and what has been given back is counted. -/
theorem Stage.validated_of_counted {dumping : Option UInt32} {c : Contexts} {index : UInt32}
    (h : Stage dumping c index) (hcounted : index ∈ c.counted) :
    index ∈ c.allocated ∧ index ∈ c.validated := by
  rcases h with ⟨-, -, -, counted, -⟩ | ⟨-, -, -, -, -, -, -, counted, -⟩ |
    ⟨-, -, -, -, -, -, -, counted, -⟩ | ⟨-, allocated, -, -, -, -, validated, -⟩ |
    ⟨allocated, -, -, validated, -⟩
  · exact absurd hcounted counted
  · exact absurd hcounted counted
  · exact absurd hcounted counted
  · exact ⟨allocated, validated⟩
  · exact ⟨allocated, validated⟩

theorem Stage.counted_of_released {dumping : Option UInt32} {c : Contexts} {index : UInt32}
    (h : Stage dumping c index) (hreleased : index ∈ c.released) : index ∈ c.counted := by
  rcases h with ⟨-, -, -, -, released, -⟩ | ⟨-, -, -, -, -, -, -, -, released, -⟩ |
    ⟨-, -, -, -, -, -, -, -, released, -⟩ | ⟨-, -, -, -, -, -, -, counted, -⟩ |
    ⟨-, -, -, -, counted, -⟩
  · exact absurd hreleased released
  · exact absurd hreleased released
  · exact absurd hreleased released
  · exact counted
  · exact counted

/-- **A context is counted.** -/
theorem Tracks.count {c : Contexts} {index : UInt32} {e : Entry} (h : Tracks none c)
    (hentry : c.contextArray.entryAt index = some e) (hvalid : e.valid = true)
    (hactive : e.active = true) :
    Tracks (some index) (c.count index) ∧ Keeps none c (c.count index) := by
  obtain ⟨hallocated, hfilling, hvalidated, ⟨-, hcounted, hreleased⟩ | ⟨hinactive, -⟩⟩ :=
    (h.stage index).exists_of_valid hentry hvalid
  · refine ⟨h.touch index (fun i hi ↦ ⟨Iff.rfl, rfl, rfl, Iff.rfl, ?_, Iff.rfl, ?_⟩) ?_ ?_,
      ⟨live_of_entry hentry, live_of_entry hentry⟩, rfl, List.prefix_append _ _, List.prefix_rfl,
      fun _ _ ↦ id, fun _ ↦ id⟩
    · show i ∈ c.counted ++ [index] ↔ i ∈ c.counted
      rw [List.mem_append, List.mem_singleton, or_iff_left hi]
    · rw [Option.some.injEq]
      exact iff_of_false hi.symm (by simp)
    · exact .dumping e hallocated hentry hfilling hvalid hactive hvalidated
        (List.mem_append_right _ (List.mem_singleton_self index)) hreleased rfl
    · refine ⟨h.counts.count, h.counts.below, h.counts.distinct, ?_, ?_, h.counts.released⟩
      · show c.contextCollected + 1 = UInt32.ofNat (c.counted ++ [index]).length
        rw [h.counts.collected, List.length_append, UInt32.ofNat_add]
        rfl
      · show (c.counted ++ [index]).Nodup
        rw [← List.concat_eq_append]
        exact h.counts.counted.concat hcounted
  · rw [hactive] at hinactive
    cases hinactive

theorem Stage.exists_of_dumping {c : Contexts} {index : UInt32}
    (h : Stage (some index) c index) :
    ∃ e, index ∈ c.allocated ∧ c.contextArray.entryAt index = some e ∧ c.filling index = none ∧
      e.valid = true ∧ index ∈ c.validated ∧ index ∈ c.counted ∧ index ∉ c.released := by
  rcases h with ⟨-, -, -, -, -, dumping⟩ | ⟨-, -, -, -, -, -, -, -, -, dumping⟩ |
    ⟨-, -, -, -, -, -, -, -, -, dumping⟩ |
    ⟨e, allocated, entry, filling, valid, -, validated, counted, released, -⟩ |
    ⟨-, -, -, -, -, -, dumping⟩
  · exact absurd rfl dumping
  · exact absurd rfl dumping
  · exact absurd rfl dumping
  · exact ⟨e, allocated, entry, filling, valid, validated, counted, released⟩
  · exact absurd rfl dumping

/-- **A context is given back**, and its entry is inactive or erased. -/
theorem Tracks.collected {c : Contexts} {index : UInt32} {a : ContextArray}
    (h : Tracks (some index) c) (hother : ∀ i ≠ index, a.entryAt i = c.contextArray.entryAt i)
    (hself : ∀ e, a.entryAt index = some e → e.valid = true ∧ e.active = false) :
    Tracks none { c with contextArray := a, released := c.released ++ [index] } := by
  obtain ⟨e, hallocated, -, hfilling, -, hvalidated, hcounted, hreleased⟩ :=
    (h.stage index).exists_of_dumping
  refine h.touch index (fun i hi ↦ ⟨Iff.rfl, hother i hi, rfl, Iff.rfl, Iff.rfl, ?_, ?_⟩)
    (.collected hallocated hself hfilling hvalidated hcounted
      (List.mem_append_right _ (List.mem_singleton_self index)) (by simp))
    ⟨h.counts.count, h.counts.below, h.counts.distinct, h.counts.collected, h.counts.counted, ?_⟩
  · show i ∈ c.released ++ [index] ↔ i ∈ c.released
    rw [List.mem_append, List.mem_singleton, or_iff_left hi]
  · rw [Option.some.injEq]
    exact iff_of_false (by simp) hi.symm
  · rw [← List.concat_eq_append]
    exact h.counts.released.concat hreleased

/-- What `dump_context_array` does with an entry that is counted. -/
theorem Tracks.releaseAndDeactivate {c : Contexts} {index : UInt32} (h : Tracks (some index) c) :
    ∃ c', (do (← c.release index).deactivate index) = .ok c' ∧ Tracks none c' ∧
      Keeps none c c' ∧ index ∈ c'.released := by
  obtain ⟨e, -, hentry, -, hvalid, -⟩ := (h.stage index).exists_of_dumping
  obtain ⟨a, hrelease, hself, hother⟩ := exists_release hentry
  let c₁ : Contexts := { c with contextArray := a, released := c.released ++ [index] }
  obtain ⟨a', hdeactivate, hself', hother'⟩ := exists_deactivate (c := c₁) hself
  have hothers : ∀ i ≠ index, a'.entryAt i = c.contextArray.entryAt i :=
    fun i hi ↦ (hother' i hi).trans (hother i hi)
  refine ⟨_, ?_, h.collected hothers fun e' he' ↦ ?_,
    keeps_of_write _ hentry hself' hothers (fun _ ↦ id) (List.prefix_append _ _),
    List.mem_append_right _ (List.mem_singleton_self index)⟩
  · rw [hrelease]
    exact hdeactivate
  · rw [hself'] at he'
    cases he'
    exact ⟨hvalid, rfl⟩

/-- What `context_handler` does with an entry that is counted. -/
theorem Tracks.releaseAndDealloc {c : Contexts} {index : UInt32} (h : Tracks (some index) c) :
    ∃ c', (do (← c.release index).deallocContextEntry index) = .ok c' ∧ Tracks none c' ∧
      Keeps (some index) c c' := by
  obtain ⟨e, -, hentry, -⟩ := (h.stage index).exists_of_dumping
  obtain ⟨a, hrelease, hself, hother⟩ := exists_release hentry
  let c₁ : Contexts := { c with contextArray := a, released := c.released ++ [index] }
  obtain ⟨entries, hdealloc, hnone, hother'⟩ :=
    exists_deallocContextEntry (c := c₁) index (live_of_entry hself)
  have hothers : ∀ i ≠ index, (ContextArray.live entries).entryAt i = c.contextArray.entryAt i :=
    fun i hi ↦ (hother' i hi).trans (hother i hi)
  refine ⟨_, ?_, h.collected hothers (fun e' he' ↦ ?_),
    keeps_of_erase (live_of_entry hentry) ⟨_, rfl⟩ hothers (List.prefix_append _ _)⟩
  · rw [hrelease]
    exact hdealloc
  · rw [hnone] at he'
    cases he'

/-- What `context_handler` does with an entry that has been dumped. -/
theorem Tracks.deallocContextEntry {c : Contexts} {index : UInt32} {e : Entry} (h : Tracks none c)
    (hentry : c.contextArray.entryAt index = some e) (hvalid : e.valid = true)
    (hinactive : e.active = false) :
    ∃ c', c.deallocContextEntry index = .ok c' ∧ Tracks none c' ∧ Keeps (some index) c c' := by
  obtain ⟨entries, hdealloc, hnone, hother⟩ :=
    exists_deallocContextEntry index (live_of_entry hentry)
  obtain ⟨hallocated, hfilling, hvalidated, ⟨hactive, -⟩ | ⟨-, hcounted, hreleased⟩⟩ :=
    (h.stage index).exists_of_valid hentry hvalid
  · rw [hinactive] at hactive
    cases hactive
  refine ⟨_, hdealloc, h.touch index (fun i hi ↦ ?_) ?_ (h.counts.frame _ _ _),
    keeps_of_erase (live_of_entry hentry) ⟨_, rfl⟩ hother List.prefix_rfl⟩
  · exact ⟨Iff.rfl, hother i hi, rfl, Iff.rfl, Iff.rfl, Iff.rfl, Iff.rfl⟩
  · refine .collected hallocated (fun e' he' ↦ ?_) hfilling hvalidated hcounted hreleased
      (by simp)
    rw [hnone] at he'
    cases he'

/-! ## The end -/

/-- The array is deleted when all that has been allocated is counted. -/
theorem Tracks.delete {c : Contexts} {a : ContextArray} (h : Tracks none c)
    (hcounted : ∀ index ∈ c.allocated, index ∈ c.counted) (ha : ∀ index, a.entryAt index = none) :
    Tracks none { c with contextArray := a } := by
  refine ⟨fun index ↦ ?_, h.counts.frame _ _ _⟩
  by_cases hallocated : index ∈ c.allocated
  · have hindex := hcounted index hallocated
    obtain ⟨-, hfilling, hvalidated, hreleased⟩ := (h.stage index).released_of_counted hindex
    refine .collected hallocated (fun e he ↦ ?_) hfilling hvalidated hindex hreleased (by simp)
    rw [ha index] at he
    cases he
  · obtain ⟨-, hfilling, hcounted, hreleased, hdumping⟩ :=
      (h.stage index).of_notMem_allocated hallocated
    exact .absent hallocated (ha index) hfilling hcounted hreleased hdumping

theorem toNat_ofNat_of_le {c : Contexts} (h : Counts c) {k : ℕ} (hk : k ≤ c.allocated.length) :
    (UInt32.ofNat k).toNat = k := by
  have hcount := h.count
  have hlt := c.contextCount.toNat_lt
  rw [UInt32.toNat_ofNat']
  exact Nat.mod_eq_of_lt (by omega)

/-- **All is counted** when the counters are equal. -/
theorem Tracks.counted_of_eq {dumping : Option UInt32} {c : Contexts} (h : Tracks dumping c) {k : ℕ}
    (hk : k ≤ c.counted.length) (heq : UInt32.ofNat k = c.contextCount) :
    ∀ index ∈ c.allocated, index ∈ c.counted := by
  have hsub : c.counted ⊆ c.allocated := fun index hindex ↦
    ((h.stage index).validated_of_counted hindex).1
  have hsubperm := List.subperm_of_subset h.counts.counted hsub
  have hle := hsubperm.length_le
  have htoNat := toNat_ofNat_of_le h.counts (Nat.le_trans hk hle)
  have hcount := h.counts.count
  rw [heq] at htoNat
  exact fun index hindex ↦ (hsubperm.perm_of_length_le (by omega)).mem_iff.mpr hindex

end Version1.Collecting
