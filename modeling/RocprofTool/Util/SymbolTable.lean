import RocprofTool.Lib.RecursiveMutex
import RocprofTool.Lib.Runs
import RocprofTool.Version1.References
import Mathlib.Data.List.Count

/-!
# The table of the kernel names, thread by thread

`symbols_map_` has the name of each kernel that is loaded, and how many dispatches refer to it.
Names come and go through `SetKernelNameRef`, called for the kernels of an executable by the
interceptors of `hsa_executable_freeze` and `hsa_executable_destroy`, which lock the mutex for all
of it, and by `hsa_ksymbol_cb` of the tool, which does not.  Dispatches take references with
`AcquireKernelNameRef` and give them back, from any thread, with `ReleaseKernelNameRef`.

`SetKernelNameRef` looks for the name without the mutex.  When it finds it, it waits for the
references to be gone, locks the mutex, looks at the count again, and then deletes the name; when it
does not, it inserts the name, and unlocks the mutex that it has not locked.

The model takes every access to the table, to a count and to the mutex as a step of its own.  The
nodes of the table have identities, so that an iterator can be to a node that is not there any more;
unlocking a mutex that the thread does not hold is an error of `pthread_mutex_unlock`, which
`std::recursive_mutex` does not pass on, and is remembered in `unheld`.

* `Inv` is the invariant: the count of a node is the number of the references to it, which are to
  nodes that are there; `Thread` says what holds of a thread at each place of its code.
* `inv_run` shows it for the runs in which no two calls of `SetKernelNameRef` for one address
  overlap (`Serial`).
* `names_safe` is what follows.  `unload_twice` is a run of two calls that do overlap.
-/

set_option autoImplicit false

open Runs

namespace HsaRsrcFactory

universe u

/-! ## The table -/

/-- A call `SetKernelNameRef(addr, name, free)`. -/
structure SetCall where
  addr : UInt64
  name : List Char
  free : UInt32
  deriving DecidableEq, Repr

/-- A symbol of an executable, as `executable_symbols_cb` sees it. -/
structure ExecutableSymbol where
  isKernel : Bool
  addr : UInt64
  name : List Char
  deriving DecidableEq, Repr

/-- `executable_symbols_cb`: the calls for the kernels of an executable.  The name is demangled for
one that is loaded, and null for one that is to be freed. -/
def symbolCalls (demangle : List Char → List Char) (free : UInt32)
    (symbols : List ExecutableSymbol) : List SetCall :=
  (symbols.filter ExecutableSymbol.isKernel).map fun symbol ↦
    ⟨symbol.addr, if free = 0 then demangle symbol.name else [], free⟩

/-- An entry of the map: its key, and `symbols_map_data_t`. -/
structure Node where
  addr : UInt64
  symbol : Version1.Symbol
  deriving DecidableEq, Repr

/-- Who calls `SetKernelNameRef`. -/
inductive Caller
  | ksymbolCb
  | freezeInterceptor
  | destroyInterceptor
  deriving DecidableEq, Repr

/-- The places in a caller and in `SetKernelNameRef`, with the iterator that it has. -/
inductive SetPlace
  /-- Before the `lock_guard` of an interceptor. -/
  | entering
  /-- Before the next call of `SetKernelNameRef`. -/
  | next
  | starting
  /-- Before and in the block that makes the map. -/
  | creating
  | making
  | finding
  | spinning (it : ℕ)
  | locking (it : ℕ)
  | checking (it : ℕ)
  | retrying (it : ℕ)
  | deleting (it : ℕ)
  | inserting
  /-- Before the `unlock` at the end, for a symbol that is new or not. -/
  | unlocking (new : Bool)
  /-- Before the end of the `lock_guard`. -/
  | leaving
  deriving DecidableEq, Repr

/-- The places in `AcquireKernelNameRef`. -/
inductive AcquirePlace
  | starting
  | locking
  | finding
  | adding (it : ℕ)
  | unlocking
  deriving DecidableEq, Repr

/-- What a thread is doing.  `guarded` says that it still has the lock of the `lock_guard`. -/
inductive Task
  | set (caller : Caller) (guarded : Bool) (todo : List SetCall) (place : SetPlace)
  | acquire (addr : UInt64) (place : AcquirePlace)
  deriving DecidableEq, Repr

/-- What a thread has done to the table. -/
inductive Op
  | set (call : SetCall)
  | acquire (addr : UInt64)
  | release (addr : UInt64)
  deriving DecidableEq, Repr

/-- What can go wrong. -/
inductive TableFault
  /-- A node is used that is not in the map any more. -/
  | dangling
  | abort
  deriving DecidableEq, Repr

/-- The table, the mutex and the threads.  `held` are the nodes that dispatches have references to,
`inserted` and `unheld` the threads that have inserted a name, and unlocked a mutex that they did
not hold; `called` and `history` are the calls, in the order in which they have begun and in the
order in which they have done what they do to the table. -/
structure Table (τ : Type u) where
  made : Bool := false
  table : UMap UInt64 ℕ := .empty
  nodes : ℕ → Option Node := fun _ ↦ none
  fresh : ℕ := 0
  mutex : RecursiveMutex τ := none
  tasks : τ → Option Task := fun _ ↦ none
  held : List ℕ := []
  inserted : List τ := []
  unheld : List τ := []
  called : List (τ × Op) := []
  history : List (τ × Op) := []
  fault : Option TableFault := none

/-- What can happen next: a thread begins something, releases a reference, or goes on. -/
inductive TableAction (τ : Type u)
  | ksymbol (thread : τ) (call : SetCall)
  | freeze (thread : τ) (symbols : List ExecutableSymbol)
  | destroy (thread : τ) (symbols : List ExecutableSymbol)
  | acquire (thread : τ) (addr : UInt64)
  | release (thread : τ) (it : ℕ)
  | go (thread : τ)
  deriving DecidableEq, Repr

variable {τ : Type u} [DecidableEq τ]

/-- The thread is at its next place. -/
def Table.put (s : Table τ) (thread : τ) (task : Option Task) : Table τ :=
  { s with tasks := Function.update s.tasks thread task }

/-- A call begins. -/
def Table.call (s : Table τ) (thread : τ) (op : Op) : Table τ :=
  { s with called := s.called ++ [(thread, op)] }

/-- `mutex_.unlock()`. -/
def Table.unlock (s : Table τ) (thread : τ) : Table τ :=
  match s.mutex.unlock thread with
  | some mutex => { s with mutex }
  | none => { s with unheld := s.unheld ++ [thread] }

/-- A use of the node that an iterator is at. -/
def Table.use (s : Table τ) (it : ℕ) (f : Node → Option (Table τ)) : Option (Table τ) :=
  match s.nodes it with
  | none => some { s with fault := some .dangling }
  | some node => f node

/-- The node and its name are deleted. -/
def Table.erase (s : Table τ) (thread : τ) (call : SetCall) (it : ℕ) (node : Node) : Table τ :=
  { s with
    table := Function.update s.table node.addr none
    nodes := Function.update s.nodes it none
    history := s.history ++ [(thread, .set call)] }

/-- `symbols_map_->insert({addr, symbols_map_data_t{name, 0}})`, which leaves a key alone that is
there. -/
def Table.insert (s : Table τ) (thread : τ) (call : SetCall) : Table τ :=
  if (s.table call.addr).isSome then
    { s with
      inserted := s.inserted ++ [thread]
      history := s.history ++ [(thread, .set call)] }
  else
    { s with
      table := s.table.assign call.addr s.fresh
      nodes := Function.update s.nodes s.fresh (some ⟨call.addr, ⟨call.name, 0⟩⟩)
      fresh := s.fresh + 1
      inserted := s.inserted ++ [thread]
      history := s.history ++ [(thread, .set call)] }

/-- The count of a node is changed. -/
def Table.count (s : Table τ) (it : ℕ) (node : Node) (refsCount : UInt64) : Table τ :=
  { s with
    nodes := Function.update s.nodes it
      (some { node with symbol := { node.symbol with refsCount } }) }

/-- The next step in a caller of `SetKernelNameRef`, for the first of the calls that are left. -/
def Table.goSet (s : Table τ) (thread : τ) (caller : Caller) (guarded : Bool)
    (todo : List SetCall) (place : SetPlace) : Option (Table τ) :=
  let at' := fun (s : Table τ) place ↦ s.put thread (some (.set caller guarded todo place))
  match place, todo with
  | .entering, _ =>
    (s.mutex.lock thread).map fun mutex ↦
      -- `freeze` makes the map, and `destroy` goes on only when there is one
      { s with mutex, made := s.made || caller == Caller.freezeInterceptor }.put thread
        (some (.set caller true todo
          (if s.made || caller == Caller.freezeInterceptor then .next else .leaving)))
  | .next, [] => some (if caller = .ksymbolCb then s.put thread none else at' s .leaving)
  | .next, _ :: _ => some (at' s .starting)
  | .starting, call :: _ =>
    some (at' (s.call thread (.set call)) (if s.made then .finding else .creating))
  | .creating, _ => (s.mutex.lock thread).map fun mutex ↦ at' { s with mutex } .making
  | .making, _ => some (at' ({ s with made := true }.unlock thread) .finding)
  | .finding, call :: _ =>
    match s.table call.addr with
    | some it => some (at' s (.spinning it))
    | none => some (at' s .inserting)
  | .spinning it, _ => s.use it fun node ↦
      if node.symbol.refsCount = 0 then some (at' s (.locking it)) else none
  | .locking it, _ => (s.mutex.lock thread).map fun mutex ↦ at' { s with mutex } (.checking it)
  | .checking it, _ => s.use it fun node ↦
      some (at' s (if node.symbol.refsCount = 0 then .deleting it else .retrying it))
  | .retrying it, _ => some (at' (s.unlock thread) (.spinning it))
  | .deleting it, call :: _ => s.use it fun node ↦
      if call.free = 1 then some (at' (s.erase thread call it node) (.unlocking false))
      else some { s with fault := some .abort }
  | .inserting, call :: _ =>
    if call.free = 0 then some (at' (s.insert thread call) (.unlocking true))
    else some { s with fault := some .abort }
  | .unlocking new, _ :: todo =>
    some ((s.unlock thread).put thread (some (.set caller (guarded && !new) todo .next)))
  | .leaving, _ => some ((s.unlock thread).put thread none)
  | _, [] => none

/-- The next step in `AcquireKernelNameRef`. -/
def Table.goAcquire (s : Table τ) (thread : τ) (addr : UInt64) (place : AcquirePlace) :
    Option (Table τ) :=
  let at' := fun (s : Table τ) place ↦ s.put thread (some (.acquire addr place))
  match place with
  | .starting =>
    some (if s.made then at' (s.call thread (.acquire addr)) .locking
      else { s with fault := some .abort })
  | .locking => (s.mutex.lock thread).map fun mutex ↦ at' { s with mutex } .finding
  | .finding =>
    match s.table addr with
    | some it => some (at' s (.adding it))
    | none => some { s with fault := some .abort }
  | .adding it => s.use it fun node ↦
      some (at' { s.count it node (node.symbol.refsCount + 1) with
        held := s.held ++ [it]
        history := s.history ++ [(thread, .acquire addr)] } .unlocking)
  | .unlocking => some ((s.unlock thread).put thread none)

/-- `ReleaseKernelNameRef`, for a reference that is held, by a thread that does nothing else. -/
def Table.release (s : Table τ) (thread : τ) (it : ℕ) : Option (Table τ) :=
  if s.tasks thread = none ∧ it ∈ s.held then
    s.use it fun node ↦ some { s.count it node (node.symbol.refsCount - 1) with
      held := s.held.erase it
      called := s.called ++ [(thread, .release node.addr)]
      history := s.history ++ [(thread, .release node.addr)] }
  else none

/-- A thread that does nothing begins something. -/
def Table.begin (s : Table τ) (thread : τ) (task : Task) : Option (Table τ) :=
  if (s.tasks thread).isSome then none else some (s.put thread (some task))

/-- One step, as long as nothing has gone wrong. -/
def tableStep (demangle : List Char → List Char) (s : Table τ) (action : TableAction τ) :
    Option (Table τ) :=
  if s.fault.isSome then none
  else match action with
    | .ksymbol thread call => s.begin thread (.set .ksymbolCb false [call] .next)
    | .freeze thread symbols =>
      s.begin thread (.set .freezeInterceptor false (symbolCalls demangle 0 symbols) .entering)
    | .destroy thread symbols =>
      s.begin thread (.set .destroyInterceptor false (symbolCalls demangle 1 symbols) .entering)
    | .acquire thread addr => s.begin thread (.acquire addr .starting)
    | .release thread it => s.release thread it
    | .go thread =>
      match s.tasks thread with
      | none => none
      | some (.set caller guarded todo place) => s.goSet thread caller guarded todo place
      | some (.acquire addr place) => s.goAcquire thread addr place

/-! ## What a thread can rely on -/

/-- How often a thread holds the mutex there. -/
def Task.depth : Task → ℕ
  | .set _ guarded _ place => guarded.toNat + match place with
    | .making | .checking _ | .retrying _ | .deleting _ | .unlocking false => 1
    | _ => 0
  | .acquire _ place => match place with
    | .finding | .adding _ | .unlocking => 1
    | _ => 0

/-- How many names the thread has inserted, in what it is doing, more often than it has unlocked a
mutex that it did not hold. -/
def Task.owes : Task → ℕ
  | .set caller guarded _ place => match place with
    | .entering => 0
    | .unlocking true => 1 + (caller != .ksymbolCb && !guarded).toNat
    | _ => (caller != .ksymbolCb && !guarded).toNat
  | .acquire _ _ => 0

/-- The address of the call of `SetKernelNameRef` that is going on. -/
def Task.active : Task → Option UInt64
  | .set _ _ (call :: _) place => match place with
    | .entering | .next | .unlocking _ | .leaving => none
    | _ => some call.addr
  | _ => none

/-- What else a thread knows there about the table. -/
def Task.Knows (s : Table τ) : Task → Prop
  | .set _ _ [] _ => True
  | .set _ _ (call :: _) place => match place with
    | .spinning it | .locking it | .checking it | .retrying it => s.table call.addr = some it
    | .deleting it => s.table call.addr = some it ∧ it ∉ s.held
    | .inserting => s.table call.addr = none
    | _ => True
  | .acquire addr place => match place with
    | .adding it => s.table addr = some it
    | _ => True

/-- A place where calls are left has one. -/
def Task.HasCall : Task → Prop
  | .set caller guarded todo place => (caller = .ksymbolCb → guarded = false) ∧ match place with
    | .entering => guarded = false ∧ caller ≠ .ksymbolCb
    | .next => True
    | .leaving => caller ≠ .ksymbolCb
    | _ => todo ≠ []
  | .acquire _ _ => True

/-- **What holds of a thread.**  One that does nothing holds no mutex, and has unlocked a mutex that
it did not hold once for each name that it has inserted. -/
structure Thread (s : Table τ) (thread : τ) : Prop where
  depth : s.mutex.depth thread = ((s.tasks thread).map Task.depth).getD 0
  inserted : s.inserted.count thread
    = s.unheld.count thread + ((s.tasks thread).map Task.owes).getD 0
  hasCall : ∀ task, s.tasks thread = some task → task.HasCall
  knows : ∀ task, s.tasks thread = some task → task.Knows s

/-- **The invariant.** -/
structure Inv (s : Table τ) : Prop where
  table : ∀ addr it, s.table addr = some it → ∃ node, s.nodes it = some node ∧ node.addr = addr
  nodes : ∀ it node, s.nodes it = some node → s.table node.addr = some it
  fresh : ∀ it, s.fresh ≤ it → s.nodes it = none
  refsCount : ∀ it node, s.nodes it = some node →
    node.symbol.refsCount = UInt64.ofNat (s.held.count it)
  held : ∀ it ∈ s.held, (s.nodes it).isSome = true
  threads : ∀ thread, Thread s thread
  apart : ∀ thread other task task' addr, thread ≠ other → s.tasks thread = some task →
    s.tasks other = some task' → task.active = some addr → task'.active ≠ some addr
  safe : s.fault ≠ some .dangling

/-- The calls of `SetKernelNameRef` for one address do not overlap, and there are fewer references
than a count can hold. -/
def Serial (s : Table τ) (action : TableAction τ) : Prop :=
  s.held.length < 2 ^ 64 ∧ match action with
    | .go thread => match s.tasks thread with
      | some (.set _ _ (call :: _) .next) => ∀ other task, other ≠ thread →
          s.tasks other = some task → task.active ≠ some call.addr
      | _ => True
    | _ => True

/-! ## One step -/

section Steps

variable {s t : Table τ} {thread : τ}

omit [DecidableEq τ] in
theorem Table.use_of_node {it : ℕ} {node : Node} {f : Node → Option (Table τ)}
    (h : s.nodes it = some node) : s.use it f = f node := by
  rw [Table.use, h]

/-- What unlocking leaves alone. -/
theorem Table.unlock_eq (s : Table τ) (thread : τ) :
    ∃ mutex unheld, s.unlock thread = { s with mutex, unheld } := by
  rw [Table.unlock]
  rcases s.mutex.unlock thread with _ | mutex
  · exact ⟨_, _, rfl⟩
  · exact ⟨_, _, rfl⟩

theorem Table.depth_unlock_of_ne {other : τ} (hne : other ≠ thread) :
    (s.unlock thread).mutex.depth other = s.mutex.depth other := by
  rw [Table.unlock]
  rcases hunlock : s.mutex.unlock thread with _ | mutex
  · rfl
  · exact RecursiveMutex.depth_unlock_of_ne hunlock hne

theorem Table.unheld_unlock_of_ne {other : τ} (hne : other ≠ thread) :
    (s.unlock thread).unheld.count other = s.unheld.count other := by
  rw [Table.unlock]
  rcases s.mutex.unlock thread with _ | mutex
  · rw [List.count_append, List.count_singleton, beq_eq_false_iff_ne.mpr hne.symm]
    rfl
  · rfl

/-- **Unlocking**: the thread gives back a lock that it has, or it does not have one. -/
theorem Table.unlock_self (s : Table τ) (thread : τ) :
    ((s.unlock thread).mutex.depth thread + 1 = s.mutex.depth thread ∧
      (s.unlock thread).unheld = s.unheld) ∨
    (s.mutex.depth thread = 0 ∧ (s.unlock thread).mutex.depth thread = 0 ∧
      (s.unlock thread).unheld.count thread = s.unheld.count thread + 1) := by
  rw [Table.unlock]
  rcases hunlock : s.mutex.unlock thread with _ | mutex
  · have hzero : s.mutex.depth thread = 0 := by
      by_contra hpos
      have hsome := RecursiveMutex.unlock_isSome (Nat.pos_of_ne_zero hpos)
      rw [hunlock] at hsome
      cases hsome
    exact .inr ⟨hzero, hzero, by simp⟩
  · exact .inl ⟨(RecursiveMutex.depth_unlock_self hunlock).symm, rfl⟩

omit [DecidableEq τ] in
theorem Task.Knows.of_eq {task : Task} (h : task.Knows s)
    (htable : t.table = s.table) (hheld : t.held = s.held) : task.Knows t := by
  cases task with
  | set caller guarded todo place =>
    rcases todo with _ | ⟨call, todo⟩
    · trivial
    · unfold Task.Knows at h ⊢
      rw [htable, hheld]
      exact h
  | acquire addr place =>
    unfold Task.Knows at h ⊢
    rw [htable]
    exact h

theorem Inv.call (h : Inv s) (thread : τ) (op : Op) : Inv (s.call thread op) :=
  ⟨h.table, h.nodes, h.fresh, h.refsCount, h.held,
    fun thread ↦ ⟨(h.threads thread).depth, (h.threads thread).inserted, (h.threads thread).hasCall,
      fun task htask ↦ ((h.threads thread).knows task htask).of_eq rfl rfl⟩, h.apart, h.safe⟩

theorem Inv.of_fault (h : Inv s) : Inv { s with fault := some .abort } :=
  ⟨h.table, h.nodes, h.fresh, h.refsCount, h.held,
    fun thread ↦ ⟨(h.threads thread).depth, (h.threads thread).inserted, (h.threads thread).hasCall,
      fun task htask ↦ ((h.threads thread).knows task htask).of_eq rfl rfl⟩, h.apart, nofun⟩

/-- The other threads are where they were. -/
theorem Inv.other (h : Inv s) {task : Option Task}
    (htasks : t.tasks = Function.update s.tasks thread task)
    (hdepth : ∀ other, other ≠ thread → t.mutex.depth other = s.mutex.depth other)
    (hinserted : ∀ other, other ≠ thread → t.inserted.count other = s.inserted.count other)
    (hunheld : ∀ other, other ≠ thread → t.unheld.count other = s.unheld.count other)
    {other : τ} (hne : other ≠ thread)
    (hknows : ∀ task, s.tasks other = some task → task.Knows s → task.Knows t) :
    Thread t other := by
  have heq : t.tasks other = s.tasks other := by rw [htasks, Function.update_of_ne hne]
  obtain ⟨hd, hi, hc, hk⟩ := h.threads other
  refine ⟨?_, ?_, ?_, ?_⟩
  · rw [hdepth other hne, heq, hd]
  · rw [hinserted other hne, hunheld other hne, heq, hi]
  · rw [heq]
    exact hc
  · rw [heq]
    exact fun task htask ↦ hknows task htask (hk task htask)

/-- Calls stay apart when the new one is for an address that no other one is for. -/
theorem apart_update (h : Inv s) {task : Option Task}
    (htasks : t.tasks = Function.update s.tasks thread task)
    (hactive : ∀ task', task = some task' → ∀ addr, task'.active = some addr →
      ∀ other task'', other ≠ thread → s.tasks other = some task'' → task''.active ≠ some addr)
    {a b : τ} {task₁ task₂ : Task} {addr : UInt64} (hne : a ≠ b) (ha : t.tasks a = some task₁)
    (hb : t.tasks b = some task₂) (haddr : task₁.active = some addr) :
    task₂.active ≠ some addr := by
  rw [htasks] at ha hb
  rcases eq_or_ne a thread with rfl | hna
  · rw [Function.update_self] at ha
    rw [Function.update_of_ne hne.symm] at hb
    exact hactive task₁ ha addr haddr b task₂ hne.symm hb
  · rw [Function.update_of_ne hna] at ha
    rcases eq_or_ne b thread with rfl | hnb
    · rw [Function.update_self] at hb
      exact fun heq ↦ hactive task₂ hb addr heq a task₁ hna ha haddr
    · rw [Function.update_of_ne hnb] at hb
      exact h.apart a b task₁ task₂ addr hne ha hb haddr

/-- **A step that leaves the table alone.** -/
theorem Inv.move (h : Inv s) {task : Option Task}
    (htasks : t.tasks = Function.update s.tasks thread task) (htable : t.table = s.table)
    (hnodes : t.nodes = s.nodes) (hfresh : t.fresh = s.fresh) (hheld : t.held = s.held)
    (hinserted : t.inserted = s.inserted) (hfault : t.fault = s.fault)
    (hdepth : ∀ other, other ≠ thread → t.mutex.depth other = s.mutex.depth other)
    (hunheld : ∀ other, other ≠ thread → t.unheld.count other = s.unheld.count other)
    (hthread : Thread t thread)
    (hactive : ∀ task', task = some task' → ∀ addr, task'.active = some addr →
      ∀ other task'', other ≠ thread → s.tasks other = some task'' →
        task''.active ≠ some addr) : Inv t := by
  refine ⟨?_, ?_, ?_, ?_, ?_, fun other ↦ ?_,
    fun a b task₁ task₂ addr ↦ apart_update h htasks hactive, hfault ▸ h.safe⟩
  · rw [htable, hnodes]
    exact h.table
  · rw [htable, hnodes]
    exact h.nodes
  · rw [hfresh, hnodes]
    exact h.fresh
  · rw [hnodes, hheld]
    exact h.refsCount
  · rw [hnodes, hheld]
    exact h.held
  · rcases eq_or_ne other thread with rfl | hne
    · exact hthread
    · exact h.other htasks hdepth (fun _ _ ↦ by rw [hinserted]) hunheld hne
        fun task _ hknows ↦ hknows.of_eq htable hheld

/-- A step of one thread from one place to the next. -/
theorem Inv.goto (h : Inv s) {old new : Task} (htask : s.tasks thread = some old)
    (hdepth : new.depth = old.depth) (howes : new.owes = old.owes) (hcall : new.HasCall)
    (hknows : new.Knows s) (hactive : ∀ addr, new.active = some addr → ∀ other task,
      other ≠ thread → s.tasks other = some task → task.active ≠ some addr) :
    Inv (s.put thread (some new)) := by
  obtain ⟨hd, hi, -, -⟩ := h.threads thread
  rw [htask] at hd hi
  refine h.move rfl rfl rfl rfl rfl rfl rfl (fun _ _ ↦ rfl) (fun _ _ ↦ rfl) ?_ ?_
  · refine ⟨?_, ?_, ?_, ?_⟩
    · simpa [Table.put, hdepth] using hd
    · simpa [Table.put, howes] using hi
    · simpa [Table.put] using hcall
    · simp only [Table.put, Function.update_self]
      rintro task ⟨⟩
      exact hknows.of_eq rfl rfl
  · rintro task ⟨⟩
    exact hactive

/-- A thread has done what it was doing, and does nothing. -/
theorem Inv.retire (h : Inv s) {old : Task} (htask : s.tasks thread = some old)
    (hdepth : old.depth = 0) (howes : old.owes = 0) : Inv (s.put thread none) := by
  obtain ⟨hd, hi, -, -⟩ := h.threads thread
  rw [htask] at hd hi
  refine h.move rfl rfl rfl rfl rfl rfl rfl (fun _ _ ↦ rfl) (fun _ _ ↦ rfl) ?_ nofun
  refine ⟨?_, ?_, ?_, ?_⟩
  · simpa [Table.put, hdepth] using hd
  · simpa [Table.put, howes] using hi
  · simp [Table.put]
  · simp [Table.put]

/-- The call that goes on stays apart from the other ones. -/
theorem Inv.stays (h : Inv s) {old new : Task} (htask : s.tasks thread = some old)
    (hactive : ∀ addr, new.active = some addr → old.active = some addr) (addr : UInt64)
    (haddr : new.active = some addr) (other : τ) (task : Task) (hne : other ≠ thread)
    (htask' : s.tasks other = some task) : task.active ≠ some addr :=
  h.apart thread other old task addr hne.symm htask htask' (hactive addr haddr)

/-- A thread locks the mutex. -/
theorem Inv.lock (h : Inv s) {old new : Task} {mutex : RecursiveMutex τ} {made : Bool}
    (htask : s.tasks thread = some old) (hlock : s.mutex.lock thread = some mutex)
    (hdepth : new.depth = old.depth + 1) (howes : new.owes = old.owes) (hcall : new.HasCall)
    (hknows : new.Knows s) (hactive : ∀ addr, new.active = some addr → old.active = some addr) :
    Inv ({ s with mutex, made }.put thread (some new)) := by
  obtain ⟨hd, hi, -, -⟩ := h.threads thread
  rw [htask] at hd hi
  refine h.move rfl rfl rfl rfl rfl rfl rfl
    (fun other hne ↦ RecursiveMutex.depth_lock_of_ne hlock hne) (fun _ _ ↦ rfl) ?_ ?_
  · refine ⟨?_, ?_, ?_, ?_⟩
    · simpa [Table.put, hdepth, RecursiveMutex.depth_lock_self hlock] using hd
    · simpa [Table.put, howes] using hi
    · simpa [Table.put] using hcall
    · simp only [Table.put, Function.update_self]
      rintro task ⟨⟩
      exact hknows.of_eq rfl rfl
  · rintro task ⟨⟩
    exact h.stays htask hactive

/-- A thread unlocks the mutex: it has a lock to give back, or owes one for a name that it has
inserted. -/
theorem Inv.unlock (h : Inv s) (made : Bool) {old : Task} {new : Option Task}
    (htask : s.tasks thread = some old)
    (hbalance : (new.map Task.depth).getD 0 + 1 = old.depth ∧ (new.map Task.owes).getD 0 = old.owes
      ∨ old.depth = 0 ∧ (new.map Task.depth).getD 0 = 0 ∧
        (new.map Task.owes).getD 0 + 1 = old.owes)
    (hcall : ∀ task, new = some task → task.HasCall)
    (hknows : ∀ task, new = some task → task.Knows s)
    (hactive : ∀ task, new = some task → ∀ addr, task.active = some addr →
      old.active = some addr) :
    Inv (({ s with made }.unlock thread).put thread new) := by
  have hself := Table.unlock_self { s with made } thread
  have hother : ∀ other, other ≠ thread → ({ s with made }.unlock thread).mutex.depth other
      = s.mutex.depth other := fun other hne ↦ Table.depth_unlock_of_ne hne
  have hother' : ∀ other, other ≠ thread → ({ s with made }.unlock thread).unheld.count other
      = s.unheld.count other := fun other hne ↦ Table.unheld_unlock_of_ne hne
  obtain ⟨mutex, unheld, heq⟩ := Table.unlock_eq { s with made } thread
  rw [heq] at hself hother hother' ⊢
  obtain ⟨hd, hi, -, -⟩ := h.threads thread
  rw [htask] at hd hi
  dsimp only [Option.map_some, Option.getD_some] at hd hi hself
  refine h.move rfl rfl rfl rfl rfl rfl rfl hother hother' ?_ ?_
  · refine ⟨?_, ?_, ?_, ?_⟩
    · simp only [Table.put, Function.update_self]
      omega
    · simp only [Table.put, Function.update_self]
      rcases hself with ⟨hlocked, rfl⟩ | ⟨hzero, hzero', hcount⟩ <;> omega
    · simpa [Table.put] using hcall
    · simp only [Table.put, Function.update_self]
      exact fun task hnew ↦ (hknows task hnew).of_eq rfl rfl
  · exact fun task hnew ↦ h.stays htask (hactive task hnew)

omit [DecidableEq τ] in
/-- What a thread knows is still so when the table changes at another address, and no reference is
taken. -/
theorem Task.Knows.of_table {task : Task} (h : task.Knows s)
    (hactive : ∀ addr, task.active = some addr → t.table addr = s.table addr)
    (hadding : ∀ addr it, task = .acquire addr (.adding it) → t.table addr = s.table addr)
    (hheld : ∀ it, it ∉ s.held → it ∉ t.held) : task.Knows t := by
  cases task with
  | set caller guarded todo place =>
    rcases todo with _ | ⟨call, todo⟩
    · trivial
    · cases place with
      | spinning it => exact (hactive call.addr rfl).trans h
      | locking it => exact (hactive call.addr rfl).trans h
      | checking it => exact (hactive call.addr rfl).trans h
      | retrying it => exact (hactive call.addr rfl).trans h
      | deleting it => exact ⟨(hactive call.addr rfl).trans h.1, hheld it h.2⟩
      | inserting => exact (hactive call.addr rfl).trans h
      | _ => trivial
  | acquire addr place =>
    cases place with
    | adding it => exact (hadding addr it rfl).trans h
    | _ => trivial

/-- Two threads are not both at a place with the mutex. -/
theorem Inv.eq_of_depth (h : Inv s) {other : τ} {task task' : Task}
    (htask : s.tasks thread = some task) (htask' : s.tasks other = some task')
    (hpos : 0 < task.depth) (hpos' : 0 < task'.depth) : thread = other := by
  have hd := (h.threads thread).depth
  have hd' := (h.threads other).depth
  rw [htask, Option.map_some, Option.getD_some] at hd
  rw [htask', Option.map_some, Option.getD_some] at hd'
  exact RecursiveMutex.eq_of_depth_pos (hd ▸ hpos) (hd' ▸ hpos')

/-- **A name is deleted.** -/
theorem Inv.erase (h : Inv s) {caller : Caller} {guarded : Bool} {call : SetCall}
    {todo : List SetCall} {it : ℕ} {node : Node}
    (htask : s.tasks thread = some (.set caller guarded (call :: todo) (.deleting it)))
    (hnode : s.nodes it = some node) :
    Inv ((s.erase thread call it node).put thread
      (some (.set caller guarded (call :: todo) (.unlocking false)))) := by
  obtain ⟨hd, hi, hc, hk⟩ := h.threads thread
  obtain ⟨hat, hheld⟩ := hk _ htask
  rw [htask] at hd hi
  have haddr : node.addr = call.addr := by
    obtain ⟨node', hnode', haddr⟩ := h.table call.addr it hat
    rw [hnode] at hnode'
    cases hnode'
    exact haddr
  have hne : ∀ addr, addr ≠ call.addr →
      (s.erase thread call it node).table addr = s.table addr := fun addr hne ↦ by
    rw [Table.erase]
    exact Function.update_of_ne (haddr ▸ hne) _ _
  refine ⟨?_, ?_, ?_, ?_, ?_, fun other ↦ ?_, ?_, h.safe⟩
  · intro addr it' hit'
    rcases eq_or_ne addr call.addr with rfl | hna
    · simp [Table.put, Table.erase, haddr] at hit'
    · have hit : s.table addr = some it' := (hne addr hna).symm.trans hit'
      obtain ⟨node', hnode', haddr'⟩ := h.table addr it' hit
      have hni : it' ≠ it := by
        rintro rfl
        rw [hnode] at hnode'
        cases hnode'
        exact hna (haddr'.symm.trans haddr)
      exact ⟨node', by simpa [Table.put, Table.erase, hni] using hnode', haddr'⟩
  · intro it' node' hnode'
    rcases eq_or_ne it' it with rfl | hni
    · simp [Table.put, Table.erase] at hnode'
    · have hold : s.nodes it' = some node' := by simpa [Table.put, Table.erase, hni] using hnode'
      have htable := h.nodes it' node' hold
      have hna : node'.addr ≠ call.addr := by
        intro heq
        rw [heq, hat] at htable
        exact hni (Option.some.inj htable).symm
      exact (hne _ hna).trans htable
  · intro it' hle
    rcases eq_or_ne it' it with rfl | hni
    · simp [Table.put, Table.erase]
    · simpa [Table.put, Table.erase, hni] using h.fresh it' hle
  · intro it' node' hnode'
    rcases eq_or_ne it' it with rfl | hni
    · simp [Table.put, Table.erase] at hnode'
    · exact h.refsCount it' node' (by simpa [Table.put, Table.erase, hni] using hnode')
  · intro it' hmem
    have hni : it' ≠ it := fun heq ↦ hheld (heq ▸ hmem)
    simpa [Table.put, Table.erase, hni] using h.held it' hmem
  · rcases eq_or_ne other thread with rfl | hno
    · refine ⟨?_, ?_, ?_, ?_⟩
      · simpa [Table.put, Table.erase, Task.depth] using hd
      · simpa [Table.put, Table.erase, Task.owes] using hi
      · rintro task htask'
        simp only [Table.put, Function.update_self, Option.some.injEq] at htask'
        subst htask'
        exact ⟨(hc _ htask).1, by simp⟩
      · rintro task htask'
        simp only [Table.put, Function.update_self, Option.some.injEq] at htask'
        subst htask'
        trivial
    · refine h.other (t := (s.erase thread call it node).put thread _) rfl (fun _ _ ↦ rfl)
        (fun _ _ ↦ rfl) (fun _ _ ↦ rfl) hno fun task htask' hknows ↦
          hknows.of_table (fun addr hactive ↦ hne addr ?_) (fun addr it' heq ↦ hne addr ?_)
            fun _ ↦ id
      · rintro rfl
        exact h.apart thread other _ task call.addr hno.symm htask htask' rfl hactive
      -- the other thread would have to have the mutex
      · subst heq
        refine absurd (h.eq_of_depth htask htask' ?_ ?_) hno.symm
        · simp [Task.depth]
        · simp [Task.depth]
  · exact fun a b task₁ task₂ addr ↦ apart_update (s := s) h rfl (by rintro _ ⟨⟩ _ ⟨⟩)

/-- **A name is inserted.** -/
theorem Inv.insert (h : Inv s) {caller : Caller} {guarded : Bool} {call : SetCall}
    {todo : List SetCall}
    (htask : s.tasks thread = some (.set caller guarded (call :: todo) .inserting)) :
    Inv ((s.insert thread call).put thread
      (some (.set caller guarded (call :: todo) (.unlocking true)))) := by
  obtain ⟨hd, hi, hc, hk⟩ := h.threads thread
  have hnone : s.table call.addr = none := hk _ htask
  rw [htask] at hd hi
  have hfree : s.nodes s.fresh = none := h.fresh s.fresh le_rfl
  have hcount : s.held.count s.fresh = 0 := by
    refine List.count_eq_zero.mpr fun hmem ↦ ?_
    have hsome := h.held s.fresh hmem
    rw [hfree] at hsome
    cases hsome
  have hne : ∀ addr, addr ≠ call.addr →
      (s.table.assign call.addr s.fresh) addr = s.table addr :=
    fun addr hne ↦ UMap.assign_of_ne _ _ hne
  have heq : s.insert thread call = _ := if_neg (by rw [hnone]; exact Bool.false_ne_true)
  have hother : ∀ other, other ≠ thread → Thread ((s.insert thread call).put thread
      (some (.set caller guarded (call :: todo) (.unlocking true)))) other := by
    intro other hno
    have htable : (s.insert thread call).table = s.table.assign call.addr s.fresh := by rw [heq]
    refine h.other (by rw [heq]; rfl) (fun _ _ ↦ ?_) (fun other hne ↦ ?_) (fun _ _ ↦ ?_) hno
      fun task htask' hknows ↦ hknows.of_table (fun addr hactive ↦ ?_) (fun addr it heq ↦ ?_) ?_
    · rw [heq]
      rfl
    · simp [heq, Table.put, List.count_append, hne.symm]
    · rw [heq]
      rfl
    · refine (congrFun htable addr).trans (hne addr ?_)
      rintro rfl
      exact h.apart thread other _ task call.addr hno.symm htask htask' rfl hactive
    -- the other thread has found the address
    · refine (congrFun htable addr).trans (hne addr ?_)
      rintro rfl
      subst heq
      rw [show s.table call.addr = some it from hknows] at hnone
      cases hnone
    · rw [heq]
      exact fun _ ↦ id
  rw [heq] at hother ⊢
  refine ⟨?_, ?_, ?_, ?_, ?_, fun other ↦ ?_, ?_, h.safe⟩
  · intro addr it hit
    rcases eq_or_ne addr call.addr with rfl | hna
    · have heq : s.fresh = it := by simpa [Table.put] using hit
      subst heq
      exact ⟨_, Function.update_self _ _ _, rfl⟩
    · obtain ⟨node, hnode, haddr⟩ := h.table addr it ((hne addr hna).symm.trans hit)
      have hni : it ≠ s.fresh := by
        rintro rfl
        rw [hfree] at hnode
        cases hnode
      exact ⟨node, (Function.update_of_ne hni _ _).trans hnode, haddr⟩
  · intro it node hnode
    rcases eq_or_ne it s.fresh with rfl | hni
    · have heq : (⟨call.addr, ⟨call.name, 0⟩⟩ : Node) = node := by simpa [Table.put] using hnode
      subst heq
      exact UMap.assign_self _ _ _
    · have htable := h.nodes it node ((Function.update_of_ne hni _ _).symm.trans hnode)
      have hna : node.addr ≠ call.addr := by
        intro heq
        rw [heq, hnone] at htable
        cases htable
      exact (hne _ hna).trans htable
  · intro it hle
    have hle' : s.fresh + 1 ≤ it := hle
    exact (Function.update_of_ne (by omega) _ _).trans (h.fresh it (by omega))
  · intro it node hnode
    rcases eq_or_ne it s.fresh with rfl | hni
    · have heq : (⟨call.addr, ⟨call.name, 0⟩⟩ : Node) = node := by simpa [Table.put] using hnode
      subst heq
      show 0 = UInt64.ofNat (s.held.count s.fresh)
      rw [hcount]
      rfl
    · exact h.refsCount it node ((Function.update_of_ne hni _ _).symm.trans hnode)
  · intro it hmem
    have hni : it ≠ s.fresh := by
      rintro rfl
      exact List.count_eq_zero.mp hcount hmem
    exact (congrArg Option.isSome (Function.update_of_ne hni _ _)).trans (h.held it hmem)
  · rcases eq_or_ne other thread with rfl | hno
    · refine ⟨?_, ?_, ?_, ?_⟩
      · simpa [Table.put, Task.depth] using hd
      · simp only [Table.put, Function.update_self, List.count_append, List.count_singleton_self,
          hi, Option.map_some, Option.getD_some, Task.owes]
        omega
      · rintro task htask'
        simp only [Table.put, Function.update_self, Option.some.injEq] at htask'
        subst htask'
        exact ⟨(hc _ htask).1, by simp⟩
      · rintro task htask'
        simp only [Table.put, Function.update_self, Option.some.injEq] at htask'
        subst htask'
        trivial
    · exact hother other hno
  · exact fun a b task₁ task₂ addr ↦ apart_update (s := s) h rfl (by rintro _ ⟨⟩ _ ⟨⟩)

/-- **A reference is taken or given back.** -/
theorem Inv.recount (h : Inv s) (thread : τ) {task : Option Task} {it : ℕ} {node : Node}
    {refsCount : UInt64}
    (hnode : s.nodes it = some node) (htasks : t.tasks = Function.update s.tasks thread task)
    (htable : t.table = s.table)
    (hnodes : t.nodes = Function.update s.nodes it
      (some { node with symbol := { node.symbol with refsCount } }))
    (hfresh : t.fresh = s.fresh) (hmutex : t.mutex = s.mutex) (hinserted : t.inserted = s.inserted)
    (hunheld : t.unheld = s.unheld) (hfault : t.fault = s.fault)
    (hcount : refsCount = UInt64.ofNat (t.held.count it))
    (hsame : ∀ it', it' ≠ it → t.held.count it' = s.held.count it')
    (hknows : ∀ other task', other ≠ thread → s.tasks other = some task' → task'.Knows s →
      task'.Knows t) (hthread : Thread t thread)
    (hactive : ∀ task', task = some task' → ∀ addr, task'.active = some addr →
      ∀ other task'', other ≠ thread → s.tasks other = some task'' →
        task''.active ≠ some addr) : Inv t := by
  refine ⟨?_, ?_, ?_, ?_, ?_, fun other ↦ ?_,
    fun a b task₁ task₂ addr ↦ apart_update h htasks hactive, hfault ▸ h.safe⟩
  · intro addr it' hit'
    rw [htable] at hit'
    obtain ⟨node', hnode', haddr⟩ := h.table addr it' hit'
    rw [hnodes]
    rcases eq_or_ne it' it with rfl | hni
    · rw [hnode] at hnode'
      cases hnode'
      exact ⟨_, Function.update_self _ _ _, haddr⟩
    · exact ⟨node', (Function.update_of_ne hni _ _).trans hnode', haddr⟩
  · intro it' node' hnode'
    rw [hnodes] at hnode'
    rw [htable]
    rcases eq_or_ne it' it with rfl | hni
    · rw [Function.update_self, Option.some.injEq] at hnode'
      subst hnode'
      exact h.nodes it' node hnode
    · rw [Function.update_of_ne hni] at hnode'
      exact h.nodes it' node' hnode'
  · intro it' hle
    rw [hfresh] at hle
    have hnone := h.fresh it' hle
    have hni : it' ≠ it := by
      rintro rfl
      rw [hnode] at hnone
      cases hnone
    rw [hnodes, Function.update_of_ne hni, hnone]
  · intro it' node' hnode'
    rw [hnodes] at hnode'
    rcases eq_or_ne it' it with rfl | hni
    · rw [Function.update_self, Option.some.injEq] at hnode'
      subst hnode'
      exact hcount
    · rw [Function.update_of_ne hni] at hnode'
      rw [hsame it' hni]
      exact h.refsCount it' node' hnode'
  · intro it' hmem
    rw [hnodes]
    rcases eq_or_ne it' it with rfl | hni
    · rw [Function.update_self]
      rfl
    · rw [Function.update_of_ne hni]
      refine h.held it' (List.count_pos_iff.mp ?_)
      rw [← hsame it' hni]
      exact List.count_pos_iff.mpr hmem
  · rcases eq_or_ne other thread with rfl | hno
    · exact hthread
    · exact h.other htasks (fun _ _ ↦ by rw [hmutex]) (fun _ _ ↦ by rw [hinserted])
        (fun _ _ ↦ by rw [hunheld]) hno fun task' htask' ↦ hknows other task' hno htask'

theorem Inv.acquire (h : Inv s) {addr : UInt64} {it : ℕ} {node : Node}
    (htask : s.tasks thread = some (.acquire addr (.adding it))) (hnode : s.nodes it = some node) :
    Inv ({ s.count it node (node.symbol.refsCount + 1) with
      held := s.held ++ [it]
      history := s.history ++ [(thread, Op.acquire addr)] }.put thread
        (some (.acquire addr .unlocking))) := by
  obtain ⟨hd, hi, -, -⟩ := h.threads thread
  rw [htask] at hd hi
  refine h.recount thread hnode rfl rfl rfl rfl rfl rfl rfl rfl ?_ (fun it' hne ↦ ?_)
    (fun other task hno htask' hknows ↦ ?_) ⟨?_, ?_, ?_, ?_⟩ (by rintro _ ⟨⟩ _ ⟨⟩)
  · show _ = UInt64.ofNat ((s.held ++ [it]).count it)
    rw [List.count_append, List.count_singleton_self, UInt64.ofNat_add, h.refsCount it node hnode]
    rfl
  · simp [Table.put, List.count_append, hne.symm]
  · -- a thread that is about to delete the node would have to have the mutex
    cases task with
    | set caller guarded todo place =>
      rcases todo with _ | ⟨call, todo⟩
      · trivial
      · cases place with
        | deleting it' =>
          refine absurd (h.eq_of_depth htask htask' ?_ ?_) hno.symm
          · simp [Task.depth]
          · simp [Task.depth]
        | _ => exact hknows
    | acquire addr place => exact hknows
  · simpa [Table.put, Table.count, Task.depth] using hd
  · simpa [Table.put, Table.count, Task.owes] using hi
  · rintro task htask'
    simp only [Table.put, Function.update_self, Option.some.injEq] at htask'
    subst htask'
    trivial
  · rintro task htask'
    simp only [Table.put, Function.update_self, Option.some.injEq] at htask'
    subst htask'
    trivial

theorem Inv.release (h : Inv s) (thread : τ) {it : ℕ} {node : Node}
    (hnode : s.nodes it = some node) (hmem : it ∈ s.held) (called history : List (τ × Op)) :
    Inv { s.count it node (node.symbol.refsCount - 1) with
      held := s.held.erase it
      called
      history } := by
  have hknows : ∀ task : Task, task.Knows s → task.Knows
      { s.count it node (node.symbol.refsCount - 1) with
        held := s.held.erase it
        called
        history } :=
    fun task hknows ↦ hknows.of_table (fun _ _ ↦ rfl) (fun _ _ _ ↦ rfl)
      fun _ hnot hmem ↦ hnot (List.mem_of_mem_erase hmem)
  obtain ⟨hd, hi, hc, hk⟩ := h.threads thread
  refine h.recount thread hnode (Function.update_eq_self thread s.tasks).symm rfl rfl rfl rfl rfl
    rfl rfl ?_ (fun it' hne ↦ List.count_erase_of_ne hne)
    (fun other task hno htask' ↦ hknows task)
    ⟨hd, hi, hc, fun task htask ↦ hknows task (hk task htask)⟩ ?_
  · have hpos : 1 ≤ s.held.count it := List.count_pos_iff.mpr hmem
    show _ = UInt64.ofNat ((s.held.erase it).count it)
    rw [List.count_erase_self, UInt64.ofNat_sub hpos, h.refsCount it node hnode]
    rfl
  · intro task htask addr haddr other task' hne htask'
    exact h.apart thread other task task' addr hne.symm htask htask' haddr

/-- The node that a thread is at is there. -/
theorem Inv.exists_node (h : Inv s) {addr : UInt64} {it : ℕ} (hat : s.table addr = some it) :
    ∃ node, s.nodes it = some node := by
  obtain ⟨node, hnode, -⟩ := h.table addr it hat
  exact ⟨node, hnode⟩

/-- A count of zero is no reference, since there are fewer than a count can hold. -/
theorem Inv.notMem_held (h : Inv s) (hlen : s.held.length < 2 ^ 64) {it : ℕ} {node : Node}
    (hnode : s.nodes it = some node) (hzero : node.symbol.refsCount = 0) : it ∉ s.held := by
  have hcount := h.refsCount it node hnode
  rw [hzero, ← UInt64.toNat_inj, UInt64.toNat_ofNat',
    Nat.mod_eq_of_lt (List.count_le_length.trans_lt hlen)] at hcount
  exact List.count_eq_zero.mp hcount.symm

/-- **A step in a caller of `SetKernelNameRef`.** -/
theorem Inv.goSet (h : Inv s) {caller : Caller} {guarded : Bool} {todo : List SetCall}
    {place : SetPlace} (hlen : s.held.length < 2 ^ 64)
    (htask : s.tasks thread = some (.set caller guarded todo place))
    (hserial : ∀ call rest, todo = call :: rest → place = .next → ∀ other task, other ≠ thread →
      s.tasks other = some task → task.active ≠ some call.addr)
    (hstep : s.goSet thread caller guarded todo place = some t) : Inv t := by
  obtain ⟨-, -, hc, hk⟩ := h.threads thread
  obtain ⟨hguard, hcall⟩ := hc _ htask
  have hknows := hk _ htask
  cases place with
  | entering =>
    obtain ⟨rfl, hcaller⟩ := hcall
    obtain ⟨mutex, hlock, rfl⟩ := Option.map_eq_some_iff.mp hstep
    split_ifs
    · exact h.lock htask hlock rfl (by simp [Task.owes]) ⟨fun heq ↦ absurd heq hcaller, trivial⟩
        (by cases todo <;> trivial) (by cases todo <;> exact nofun)
    · exact h.lock htask hlock rfl (by simp [Task.owes]) ⟨fun heq ↦ absurd heq hcaller, hcaller⟩
        (by cases todo <;> trivial) (by cases todo <;> exact nofun)
  | next =>
    rcases todo with _ | ⟨call, todo⟩
    · rw [Table.goSet, Option.some.injEq] at hstep
      subst hstep
      split_ifs with hcaller
      · -- `hsa_ksymbol_cb` returns
        have hfree : guarded = false := hguard hcaller
        subst hcaller hfree
        exact h.retire htask rfl rfl
      · exact h.goto htask rfl rfl ⟨hguard, hcaller⟩ trivial nofun
    · cases hstep
      refine h.goto htask rfl rfl ⟨hguard, nofun⟩ trivial ?_
      rintro _ ⟨⟩
      exact hserial call todo rfl rfl
  | starting =>
    rcases todo with _ | ⟨call, todo⟩
    · exact absurd rfl hcall
    · cases hstep
      have h' := h.call thread (.set call)
      split_ifs
      · exact h'.goto htask rfl rfl ⟨hguard, nofun⟩ trivial (h.stays htask fun _ ↦ id)
      · exact h'.goto htask rfl rfl ⟨hguard, nofun⟩ trivial (h.stays htask fun _ ↦ id)
  | creating =>
    rcases todo with _ | ⟨call, todo⟩
    · exact absurd rfl hcall
    · obtain ⟨mutex, hlock, rfl⟩ := Option.map_eq_some_iff.mp hstep
      exact h.lock htask hlock rfl rfl ⟨hguard, nofun⟩ trivial fun _ ↦ id
  | making =>
    cases hstep
    rcases todo with _ | ⟨call, todo⟩
    · exact absurd rfl hcall
    · exact h.unlock true htask (.inl ⟨rfl, rfl⟩) (by rintro _ ⟨⟩; exact ⟨hguard, nofun⟩)
        (by rintro _ ⟨⟩; trivial) (by rintro _ ⟨⟩ _; exact id)
  | finding =>
    rcases todo with _ | ⟨call, todo⟩
    · exact absurd rfl hcall
    · rw [Table.goSet] at hstep
      rcases hat : s.table call.addr with _ | it
      · rw [hat] at hstep
        cases hstep
        exact h.goto htask rfl rfl ⟨hguard, nofun⟩ hat (h.stays htask fun _ ↦ id)
      · rw [hat] at hstep
        cases hstep
        exact h.goto htask rfl rfl ⟨hguard, nofun⟩ hat (h.stays htask fun _ ↦ id)
  | spinning it =>
    rcases todo with _ | ⟨call, todo⟩
    · exact absurd rfl hcall
    · obtain ⟨node, hnode⟩ := h.exists_node hknows
      rw [Table.goSet, Table.use_of_node hnode, Option.ite_none_right_eq_some] at hstep
      cases hstep.2
      exact h.goto htask rfl rfl ⟨hguard, nofun⟩ hknows (h.stays htask fun _ ↦ id)
  | locking it =>
    rcases todo with _ | ⟨call, todo⟩
    · exact absurd rfl hcall
    · obtain ⟨mutex, hlock, rfl⟩ := Option.map_eq_some_iff.mp hstep
      exact h.lock htask hlock rfl rfl ⟨hguard, nofun⟩ hknows fun _ ↦ id
  | checking it =>
    rcases todo with _ | ⟨call, todo⟩
    · exact absurd rfl hcall
    · obtain ⟨node, hnode⟩ := h.exists_node hknows
      rw [Table.goSet, Table.use_of_node hnode, Option.some.injEq] at hstep
      subst hstep
      split_ifs with hzero
      · exact h.goto htask rfl rfl ⟨hguard, nofun⟩ ⟨hknows, h.notMem_held hlen hnode hzero⟩
          (h.stays htask fun _ ↦ id)
      · exact h.goto htask rfl rfl ⟨hguard, nofun⟩ hknows (h.stays htask fun _ ↦ id)
  | retrying it =>
    cases hstep
    rcases todo with _ | ⟨call, todo⟩
    · exact absurd rfl hcall
    · exact h.unlock s.made htask (.inl ⟨rfl, rfl⟩)
        (by rintro _ ⟨⟩; exact ⟨hguard, nofun⟩) (by rintro _ ⟨⟩; exact hknows)
        (by rintro _ ⟨⟩ _; exact id)
  | deleting it =>
    rcases todo with _ | ⟨call, todo⟩
    · exact absurd rfl hcall
    · obtain ⟨node, hnode⟩ := h.exists_node hknows.1
      rw [Table.goSet, Table.use_of_node hnode] at hstep
      split_ifs at hstep
      · cases hstep
        exact h.erase htask hnode
      · cases hstep
        exact h.of_fault
  | inserting =>
    rcases todo with _ | ⟨call, todo⟩
    · exact absurd rfl hcall
    · rw [Table.goSet] at hstep
      split_ifs at hstep
      · cases hstep
        exact h.insert htask
      · cases hstep
        exact h.of_fault
  | unlocking new =>
    rcases todo with _ | ⟨call, todo⟩
    · exact absurd rfl hcall
    · cases hstep
      refine h.unlock s.made htask ?_ ?_ ?_ ?_
      · cases new
        · exact .inl ⟨by simp [Task.depth], by simp [Task.owes]⟩
        · cases guarded
          -- the lock of the `lock_guard` is unlocked in place of one of the call
          · exact .inr ⟨rfl, rfl, by simp [Task.owes, Nat.add_comm]⟩
          · refine .inl ⟨by simp [Task.depth], ?_⟩
            cases caller <;> first | rfl | cases hguard rfl
      · rintro _ ⟨⟩
        exact ⟨fun heq ↦ by rw [hguard heq, Bool.false_and], trivial⟩
      · rintro _ ⟨⟩
        cases todo <;> trivial
      · rintro _ ⟨⟩ _ hactive
        cases todo <;> cases hactive
  | leaving =>
    cases hstep
    refine h.unlock s.made htask ?_ nofun nofun nofun
    have hcaller : (caller != .ksymbolCb) = true := bne_iff_ne.mpr hcall
    cases guarded
    · exact .inr ⟨rfl, rfl, by simp [Task.owes, hcaller]⟩
    · exact .inl ⟨rfl, by simp [Task.owes]⟩

/-- **A step in `AcquireKernelNameRef`.** -/
theorem Inv.goAcquire (h : Inv s) {addr : UInt64} {place : AcquirePlace}
    (htask : s.tasks thread = some (.acquire addr place))
    (hstep : s.goAcquire thread addr place = some t) : Inv t := by
  have hknows := (h.threads thread).knows _ htask
  cases place with
  | starting =>
    rw [Table.goAcquire, Option.some.injEq] at hstep
    subst hstep
    split_ifs
    · exact (h.call thread _).goto htask rfl rfl trivial trivial nofun
    · exact h.of_fault
  | locking =>
    obtain ⟨mutex, hlock, rfl⟩ := Option.map_eq_some_iff.mp hstep
    exact h.lock htask hlock rfl rfl trivial trivial nofun
  | finding =>
    rw [Table.goAcquire] at hstep
    rcases hat : s.table addr with _ | it
    · rw [hat] at hstep
      cases hstep
      exact h.of_fault
    · rw [hat] at hstep
      cases hstep
      exact h.goto htask rfl rfl trivial hat nofun
  | adding it =>
    obtain ⟨node, hnode⟩ := h.exists_node hknows
    rw [Table.goAcquire, Table.use_of_node hnode, Option.some.injEq] at hstep
    subst hstep
    exact h.acquire htask hnode
  | unlocking =>
    cases hstep
    exact h.unlock s.made htask (.inl ⟨rfl, rfl⟩) nofun nofun nofun

/-- A thread begins something. -/
theorem Inv.begin (h : Inv s) {task : Task} (hstep : s.begin thread task = some t)
    (hdepth : task.depth = 0) (howes : task.owes = 0) (hcall : task.HasCall) (hknows : task.Knows s)
    (hactive : task.active = none) : Inv t := by
  rw [Table.begin] at hstep
  split_ifs at hstep with hidle
  rw [Option.some.injEq] at hstep
  subst hstep
  rw [Bool.not_eq_true, Option.isSome_eq_false_iff, Option.isNone_iff_eq_none] at hidle
  obtain ⟨hd, hi, -, -⟩ := h.threads thread
  rw [hidle] at hd hi
  refine h.move rfl rfl rfl rfl rfl rfl rfl (fun _ _ ↦ rfl) (fun _ _ ↦ rfl) ⟨?_, ?_, ?_, ?_⟩ ?_
  · simpa [Table.put, hdepth] using hd
  · simpa [Table.put, howes] using hi
  · simpa [Table.put] using hcall
  · simp only [Table.put, Function.update_self]
    rintro _ ⟨⟩
    exact hknows.of_eq rfl rfl
  · rintro _ ⟨⟩ addr haddr
    rw [hactive] at haddr
    cases haddr

/-- **The invariant survives every step** of calls that do not overlap. -/
theorem inv_step {demangle : List Char → List Char} {action : TableAction τ} (h : Inv s)
    (hserial : Serial s action) (hstep : tableStep demangle s action = some t) : Inv t := by
  unfold tableStep at hstep
  rw [Option.ite_none_left_eq_some] at hstep
  obtain ⟨-, hstep⟩ := hstep
  cases action with
  | ksymbol thread call => exact h.begin hstep rfl rfl ⟨fun _ ↦ rfl, trivial⟩ trivial rfl
  | freeze thread symbols =>
    refine h.begin hstep rfl rfl ⟨nofun, rfl, nofun⟩ ?_ ?_
    · cases symbolCalls demangle 0 symbols <;> trivial
    · cases symbolCalls demangle 0 symbols <;> rfl
  | destroy thread symbols =>
    refine h.begin hstep rfl rfl ⟨nofun, rfl, nofun⟩ ?_ ?_
    · cases symbolCalls demangle 1 symbols <;> trivial
    · cases symbolCalls demangle 1 symbols <;> rfl
  | acquire thread addr => exact h.begin hstep rfl rfl trivial trivial rfl
  | release thread it =>
    dsimp only [Table.release] at hstep
    split_ifs at hstep with hmem
    obtain ⟨node, hnode⟩ := Option.isSome_iff_exists.mp (h.held it hmem.2)
    rw [Table.use_of_node hnode, Option.some.injEq] at hstep
    subst hstep
    exact h.release thread hnode hmem.2 _ _
  | go thread =>
    dsimp only at hstep
    rcases htask : s.tasks thread with _ | task
    · rw [htask] at hstep
      cases hstep
    · rw [htask] at hstep
      cases task with
      | set caller guarded todo place =>
        refine h.goSet hserial.1 htask ?_ hstep
        rintro call rest rfl rfl
        have hgo := hserial.2
        dsimp only at hgo
        rw [htask] at hgo
        exact hgo
      | acquire addr place => exact h.goAcquire htask hstep

end Steps

/-! ## Runs -/

/-- No kernel is loaded, and no thread does anything. -/
def Table.start : Table τ := {}

theorem inv_start : Inv (Table.start : Table τ) := by
  refine ⟨?_, ?_, fun _ _ ↦ rfl, ?_, ?_, fun thread ↦ ⟨rfl, rfl, ?_, ?_⟩, ?_, nofun⟩
  · rintro addr it ⟨⟩
  · rintro it node ⟨⟩
  · rintro it node ⟨⟩
  · rintro it ⟨⟩
  · rintro task ⟨⟩
  · rintro task ⟨⟩
  · rintro thread other task task' addr - ⟨⟩

/-- The invariant holds throughout the runs in which the calls for one address do not overlap. -/
theorem inv_run {demangle : List Char → List Char} {actions : List (TableAction τ)}
    (hserial : Along (tableStep demangle) Table.start Serial actions) :
    Everywhere (tableStep demangle) Table.start Inv actions :=
  along_invariant inv_start (fun _ _ _ h hserial hstep ↦ inv_step h hserial hstep) hserial

/-- **The names are there for as long as they are referred to.**  When the calls of
`SetKernelNameRef` for one address do not overlap, no thread ever uses a name that has been deleted:
a name to which there are references is in the map, and its count is the number of them.  A thread
that has returned does not hold the mutex; it has unlocked it once more than it has locked it for
each name that it has inserted. -/
theorem names_safe {demangle : List Char → List Char} {actions : List (TableAction τ)} {t : Table τ}
    (hserial : Along (tableStep demangle) Table.start Serial actions)
    (hrun : run (tableStep demangle) Table.start actions = some t) :
    t.fault ≠ some .dangling ∧
    (∀ it ∈ t.held, ∃ node, t.nodes it = some node ∧ t.table node.addr = some it ∧
      node.symbol.refsCount = UInt64.ofNat (t.held.count it)) ∧
    ∀ thread, t.tasks thread = none →
      t.mutex.depth thread = 0 ∧ t.unheld.count thread = t.inserted.count thread := by
  have hinv := inv_run hserial actions t (List.prefix_refl actions) hrun
  refine ⟨hinv.safe, fun it hmem ↦ ?_, fun thread hidle ↦ ?_⟩
  · obtain ⟨node, hnode⟩ := Option.isSome_iff_exists.mp (hinv.held it hmem)
    exact ⟨node, hnode, hinv.nodes it node hnode, hinv.refsCount it node hnode⟩
  · obtain ⟨hd, hi, -, -⟩ := hinv.threads thread
    rw [hidle] at hd hi
    exact ⟨hd, hi.symm⟩

/-- An executable with two kernels is loaded; a dispatch takes a reference to the first one and
gives it back while the executable is unloaded. -/
def loadedRun : List (TableAction Bool) :=
  [.freeze true [⟨true, 8, ['k']⟩, ⟨false, 12, ['v']⟩, ⟨true, 16, ['m']⟩]] ++
  List.replicate 13 (.go true) ++ [.acquire false 8] ++ List.replicate 5 (.go false) ++
  [.destroy true [⟨true, 8, ['k']⟩, ⟨true, 16, ['m']⟩]] ++ List.replicate 4 (.go true) ++
  [.release false 0] ++ List.replicate 15 (.go true)

/-- `Serial` when there are two threads, as it is computed. -/
def isSerial (s : Table Bool) : TableAction Bool → Bool
  | .go thread => s.held.length < 2 ^ 64 && match s.tasks thread with
    | some (.set _ _ (call :: _) .next) =>
      (s.tasks !thread).all fun task ↦ task.active != some call.addr
    | _ => true
  | _ => s.held.length < 2 ^ 64

theorem serial_of_isSerial {s : Table Bool} {action : TableAction Bool}
    (h : isSerial s action = true) : Serial s action := by
  cases action with
  | go thread =>
    rw [isSerial, Bool.and_eq_true, decide_eq_true_eq] at h
    refine ⟨h.1, ?_⟩
    have hgo := h.2
    dsimp only at hgo ⊢
    split at hgo
    · intro other task hne htask'
      rw [← Bool.eq_not_of_ne hne, htask', Option.all_some, bne_iff_ne] at hgo
      exact hgo
    · trivial
  | _ => exact ⟨decide_eq_true_eq.mp h, trivial⟩

theorem names_safe_executable :
    Along (tableStep id) Table.start Serial loadedRun ∧
      ∃ t, run (tableStep id) Table.start loadedRun = some t ∧ t.fault ≠ some .dangling ∧
        t.tasks true = none ∧ t.unheld.count true = t.inserted.count true := by
  have hserial : Along (tableStep id) Table.start Serial loadedRun := fun xs a s hpre hs ↦
    serial_of_isSerial (along_of_checkAlong (by decide +kernel) xs a s hpre hs)
  have hsome : (run (tableStep id) (Table.start : Table Bool) loadedRun).isSome = true := by
    decide +kernel
  obtain ⟨t, ht⟩ := Option.isSome_iff_exists.mp hsome
  have hidle : ((run (tableStep id) (Table.start : Table Bool) loadedRun).map
      fun t ↦ t.tasks true) = some none := by decide +kernel
  rw [ht, Option.map_some, Option.some.injEq] at hidle
  obtain ⟨hsafe, -, hreturned⟩ := names_safe hserial ht
  exact ⟨hserial, t, ht, hsafe, hidle, (hreturned true hidle).2⟩

/-- A name is inserted, and two threads delete it at once. -/
def unloadTwice : List (TableAction Bool) :=
  [.ksymbol true ⟨8, ['k'], 0⟩] ++ List.replicate 8 (.go true) ++
  [.ksymbol true ⟨8, [], 1⟩, .ksymbol false ⟨8, [], 1⟩] ++ List.replicate 3 (.go false) ++
  List.replicate 8 (.go true) ++ [.go false]

/-- Of two calls that overlap, the second one waits for the references to a name that the first one
has deleted. -/
theorem unload_twice :
    (run (tableStep id) (Table.start : Table Bool) unloadTwice).map Table.fault
      = some (some .dangling) := by decide +kernel

end HsaRsrcFactory
