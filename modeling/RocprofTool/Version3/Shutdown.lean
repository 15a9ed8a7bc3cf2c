import RocprofTool.Lib.Entries
import RocprofTool.Lib.Runs
import RocprofTool.Version3.Children

/-!
# The end of a tree of processes

A signal to a group of processes runs `rocprofv3_error_signal_handler` in each of them.  It reads
the children of its process, waits for one after the other in `wait_pid`, finalizes the tool, and
raises the signal again, which ends the process.

* `everywhere_waited`: when a process finalizes, the children that it has read have ended, but for
  those that were stopped while it waited.  `waitpid` is asked to report these as well
  (`WUNTRACED`), and `wait_pid` takes every report for the end of its child (`stopped_child`).
* `shutdown_completes`: the handlers do not wait for each other forever.  A process waits for
  processes only that were started after it, so that one of those that wait can always go on.  This
  is so as long as the handlers are those that `initialize_signal_handler` has installed.
* `raise_again`: a handler that `rocprofv3_signal` has installed raises the signal forever.

The processes are numbered in the order in which they are started, and a process keeps its number
for good.  Not in the model are `wait_peer_finished`, which the handler calls when processes are to
be synchronised, and `signal_handler_exit`, with which it exits instead of raising the signal.
-/

set_option autoImplicit false

open Entries Runs

namespace Version3.Shutdown

/-- The number of a process. -/
abbrev Pid := ℕ

/-- What `waitpid` reports of a child. -/
inductive Status
  | exited
  | stopped
  deriving DecidableEq, Repr

/-- Is a process stopped? -/
inductive Stop
  | running
  /-- It is, and its parent has not been told yet. -/
  | unreported
  | reported
  deriving DecidableEq, Repr

/-- What the signal does to a process. -/
inductive Disposition
  /-- It ends the process. -/
  | default
  /-- It runs the handler and is set back (`SA_RESETHAND`): `initialize_signal_handler` and
  `rocprofv3_sigaction` install it like this. -/
  | oneShot
  /-- It runs the handler each time: `rocprofv3_signal` installs it like this. -/
  | persistent
  deriving DecidableEq, Repr

/-- Where a process is. -/
inductive Phase
  | program
  /-- In the handler, with the children that it has read, those of them that are left to be waited
  for, and what `wait_pid` has returned for the others. -/
  | waiting (children todo : List Pid) (statuses : List (Pid × Option Status))
  | finalized (children : List Pid) (statuses : List (Pid × Option Status))
  | ended (hasFinalized : Bool)
  deriving DecidableEq, Repr

structure Process where
  parent : Option Pid
  /-- Has the main thread of the parent started it? -/
  listed : Bool
  stop : Stop := .running
  phase : Phase := .program
  reaped : Bool := false
  disposition : Disposition := .oneShot
  /-- Is the `call_once` of the handler entered, and never left again? -/
  blocked : Bool := false
  deriving DecidableEq, Repr

/-- The processes in the order in which they were started. -/
abbrev System := List Process

def Phase.hasEnded : Phase → Bool
  | .ended _ => true
  | _ => false

def Phase.hasFinalized : Phase → Bool
  | .finalized _ _ => true
  | .ended hasFinalized => hasFinalized
  | _ => false

/-- In the handler, where all that it does but raising the signal is inside of `call_once`. -/
def Phase.inHandler : Phase → Bool
  | .waiting _ _ _ | .finalized _ _ => true
  | _ => false

def Process.hasEnded (p : Process) : Bool := p.phase.hasEnded

/-- It can go on. -/
def Process.runs (p : Process) : Bool := !p.hasEnded && p.stop = .running

/-- Its handler can go on. -/
def Process.serves (p : Process) : Bool := p.runs && !p.blocked

/-! ## What one process does -/

/-- It is stopped. -/
def Process.halt (p : Process) : Option Process :=
  if p.runs then some { p with stop := .unreported } else none

def Process.resume (p : Process) : Option Process :=
  if p.stop = .running then none else some { p with stop := .running }

def Process.exit (p : Process) : Option Process :=
  if p.hasEnded then none else some { p with phase := .ended p.phase.hasFinalized }

/-- Another wait reports it: one of the program itself, or of the process that takes orphans. -/
def Process.otherWait (p : Process) : Option Process :=
  if p.reaped then none
  else if p.hasEnded then some { p with reaped := true }
  else if p.stop = .unreported then some { p with stop := .reported }
  else none

/-- The process with this number forks: its child has a copy of its memory. -/
def Process.child (listed : Bool) (pid : Pid) (p : Process) : Process where
  parent := some pid
  listed := listed
  disposition := p.disposition
  blocked := p.blocked || p.phase.inHandler

/-- It begins another program, in which `initialize_signal_handler` installs the handler. -/
def Process.exec (p : Process) : Option Process :=
  if p.runs && p.phase = .program then some { p with disposition := .oneShot, blocked := false }
  else none

/-- It calls `signal` or `sigaction`. -/
def Process.install (disposition : Disposition) (p : Process) : Option Process :=
  if p.runs then some { p with disposition } else none

/-- Another one of the signals that are handled comes into the handler, which enters its `call_once`
a second time. -/
def Process.signalAgain (p : Process) : Option Process :=
  if p.runs && p.phase.inHandler then some { p with blocked := true } else none

/-- The disposition once the handler has begun. -/
def Disposition.afterSignal : Disposition → Disposition
  | .oneShot => .default
  | disposition => disposition

/-- The handler begins, and reads these children. -/
def Process.signal (children : List Pid) (p : Process) : Option Process :=
  if p.serves && p.phase = .program && p.disposition ≠ .default then
    some { p with
      phase := .waiting children children []
      disposition := p.disposition.afterSignal }
  else none

/-- `finalize_rocprofv3` in the handler. -/
def Process.finalize (p : Process) : Option Process :=
  match p.phase with
  | .waiting children [] statuses =>
    if p.serves then some { p with phase := .finalized children statuses } else none
  | _ => none

/-- The end of the handler: it raises the signal.  Where that runs the handler once more, the
`call_once` in it does nothing, and the signal is raised again. -/
def Process.raise (p : Process) : Option Process :=
  match p.phase with
  | .finalized _ _ =>
    if p.serves then
      match p.disposition with
      | .default => some { p with phase := .ended true }
      | disposition => some { p with disposition := disposition.afterSignal }
    else none
  | _ => none

/-! ## The system -/

/-- The children in the file of this process. -/
def getChildren (s : System) (pid : Pid) : List Pid :=
  (List.range s.length).filter fun child ↦
    s[child]?.any fun c ↦ c.parent = some pid && c.listed && !c.reaped

/-- `wait_pid`, when it returns: the status, which is `none` if there is no such child.  As long as
`waitpid` returns zero the loop in it goes on. -/
def waitPid (pid child : Pid) (s : System) : Option (Option Status × System) :=
  match s[child]? with
  | none => some (none, s)
  | some c =>
    if c.parent ≠ some pid ∨ c.reaped = true then some (none, s)
    else if c.hasEnded then some (some .exited, s.set child { c with reaped := true })
    else if c.stop = .unreported then
      some (some .stopped, s.set child { c with stop := .reported })
    else none

/-- One round of the loop over the children. -/
def waitForChild (pid : Pid) (s : System) : Option System :=
  s[pid]?.bind fun p ↦
    match p.phase with
    | .waiting children (child :: todo) statuses =>
      if p.serves then
        (waitPid pid child s).map fun (status, t) ↦
          t.set pid { p with phase := .waiting children todo (statuses ++ [(child, status)]) }
      else none
    | _ => none

inductive Event
  | fork (parent : Option Pid) (listed : Bool)
  | halt (pid : Pid)
  | resume (pid : Pid)
  /-- It ends, and not at the end of its handler: by itself, or by another signal. -/
  | exit (pid : Pid)
  | otherWait (pid : Pid)
  | exec (pid : Pid)
  | install (pid : Pid) (disposition : Disposition)
  | signalAgain (pid : Pid)
  | signal (pid : Pid)
  | waitPid (pid : Pid)
  | finalize (pid : Pid)
  | raise (pid : Pid)
  deriving DecidableEq, Repr

/-- One process does this. -/
def act (pid : Pid) (move : Process → Option Process) (s : System) : Option System :=
  (s[pid]?.bind move).map fun p ↦ s.set pid p

/-- One process starts another one. -/
def fork (pid : Pid) (listed : Bool) (s : System) : Option System :=
  s[pid]?.bind fun p ↦ if p.runs then some (s ++ [p.child listed pid]) else none

/-- One step of one process. -/
def step (s : System) : Event → Option System
  | .fork none listed => some (s ++ [{ parent := none, listed }])
  | .fork (some pid) listed => fork pid listed s
  | .halt pid => act pid Process.halt s
  | .resume pid => act pid Process.resume s
  | .exit pid => act pid Process.exit s
  | .otherWait pid => act pid Process.otherWait s
  | .exec pid => act pid Process.exec s
  | .install pid disposition => act pid (Process.install disposition) s
  | .signalAgain pid => act pid Process.signalAgain s
  | .signal pid => act pid (Process.signal (getChildren s pid)) s
  | .waitPid pid => waitForChild pid s
  | .finalize pid => act pid Process.finalize s
  | .raise pid => act pid Process.raise s

/-- The steps of the handler. -/
def Event.ofHandler : Event → Bool
  | .signal _ | .waitPid _ | .finalize _ | .raise _ => true
  | _ => false

/-- The process with this number has ended. -/
def HasEnded (s : System) (pid : Pid) : Prop := ∃ p, s[pid]? = some p ∧ p.hasEnded = true

/-- Who has finalized has waited: all of its children have ended, or were reported as stopped. -/
def Waited (s : System) : Prop :=
  ∀ (pid : Pid) (p : Process) (children : List Pid) (statuses : List (Pid × Option Status)),
    s[pid]? = some p → p.phase = .finalized children statuses →
      statuses.map Prod.fst = children ∧
        ∀ entry ∈ statuses, entry.2 = some .stopped ∨ HasEnded s entry.1

/-! ## What a step has done -/

variable {s t : System} {pid : Pid} {p p' : Process}

theorem of_act {move : Process → Option Process} (h : act pid move s = some t) :
    ∃ p p', s[pid]? = some p ∧ move p = some p' ∧ t = s.set pid p' := by
  obtain ⟨p', hp', rfl⟩ := Option.map_eq_some_iff.mp h
  obtain ⟨p, hp, hmove⟩ := Option.bind_eq_some_iff.mp hp'
  exact ⟨p, p', hp, hmove, rfl⟩

theorem act_eq {move : Process → Option Process} (hp : s[pid]? = some p)
    (hmove : move p = some p') : act pid move s = some (s.set pid p') := by
  rw [act, hp, Option.bind_some, hmove, Option.map_some]

theorem of_waitForChild (h : waitForChild pid s = some t) :
    ∃ p children child todo statuses status u, s[pid]? = some p ∧ p.serves = true ∧
      p.phase = .waiting children (child :: todo) statuses ∧
      waitPid pid child s = some (status, u) ∧
      t = u.set pid { p with phase := .waiting children todo (statuses ++ [(child, status)]) } := by
  obtain ⟨p, hp, h⟩ := Option.bind_eq_some_iff.mp h
  split at h
  · rename_i children child todo statuses hphase
    split_ifs at h with hserves
    obtain ⟨⟨status, u⟩, hu, rfl⟩ := Option.map_eq_some_iff.mp h
    exact ⟨p, children, child, todo, statuses, status, u, hp, hserves, hphase, hu, rfl⟩
  · cases h

theorem waitPid_cases {child : Pid} {status : Option Status}
    (h : waitPid pid child s = some (status, t)) :
    (∀ c, s[child]? = some c → c.parent = some pid → c.reaped = true) ∧ status = none ∧ t = s ∨
      ∃ c, s[child]? = some c ∧ c.parent = some pid ∧
        (c.hasEnded = true ∧ status = some .exited ∧ t = s.set child { c with reaped := true } ∨
          c.stop = .unreported ∧ status = some .stopped ∧
            t = s.set child { c with stop := .reported }) := by
  rw [waitPid] at h
  rcases hchild : s[child]? with _ | c
  · rw [hchild] at h
    cases h
    exact .inl ⟨fun _ hc ↦ (by cases hc), rfl, rfl⟩
  · rw [hchild] at h
    dsimp only at h
    split_ifs at h with hother hended hstop
    · cases h
      refine .inl ⟨fun c' hc' hparent ↦ ?_, rfl, rfl⟩
      cases hc'
      exact hother.resolve_left (not_not_intro hparent)
    · cases h
      rw [not_or, not_not] at hother
      exact .inr ⟨c, rfl, hother.1, .inl ⟨hended, rfl, rfl⟩⟩
    · cases h
      rw [not_or, not_not] at hother
      exact .inr ⟨c, rfl, hother.1, .inr ⟨hstop, rfl, rfl⟩⟩

/-! ## The invariant -/

def Phase.children : Phase → List Pid
  | .waiting children _ _ | .finalized children _ => children
  | .program | .ended _ => []

def Phase.todo : Phase → List Pid
  | .waiting _ todo _ => todo
  | _ => []

def Phase.statuses : Phase → List (Pid × Option Status)
  | .waiting _ _ statuses | .finalized _ statuses => statuses
  | .program | .ended _ => []

/-- What `wait_pid` has returned is right. -/
def Right (s : System) (entry : Pid × Option Status) : Prop :=
  entry.2 = some .stopped ∨ HasEnded s entry.1

/-- What is known of a process: it is younger than its parent, and older than the children that it
waits for. -/
structure Process.Ok (s : System) (pid : Pid) (p : Process) : Prop where
  parent_lt : ∀ parent, p.parent = some parent → parent < pid
  children : ∀ child ∈ p.phase.children, ∃ c, s[child]? = some c ∧ c.parent = some pid
  split : p.phase.statuses.map Prod.fst ++ p.phase.todo = p.phase.children
  right : ∀ entry ∈ p.phase.statuses, Right s entry
  ended_of_reaped : p.reaped = true → p.hasEnded = true

def Inv (s : System) : Prop := ∀ (pid : Pid) (p : Process), s[pid]? = some p → p.Ok s pid

/-- A process keeps its parent, and does not come back. -/
def Ages (p p' : Process) : Prop :=
  p'.parent = p.parent ∧ (p.hasEnded = true → p'.hasEnded = true)

theorem Ages.refl (p : Process) : Ages p p := ⟨rfl, id⟩

theorem Right.mono (hage : Each Ages s t) {entry : Pid × Option Status} (h : Right s entry) :
    Right t entry := by
  refine h.imp_right fun hended ↦ ?_
  obtain ⟨c, hc, hended⟩ := hended
  obtain ⟨c', hc', -, hended'⟩ := hage _ c hc
  exact ⟨c', hc', hended' hended⟩

theorem Process.Ok.mono (hage : Each Ages s t) (h : p.Ok s pid) : p.Ok t pid where
  parent_lt := h.parent_lt
  children child hchild := by
    obtain ⟨c, hc, hparent⟩ := h.children child hchild
    obtain ⟨c', hc', hage', -⟩ := hage child c hc
    exact ⟨c', hc', hage'.trans hparent⟩
  split := h.split
  right entry hentry := (h.right entry hentry).mono hage
  ended_of_reaped := h.ended_of_reaped

/-- Only where a process is matters. -/
theorem Process.Ok.congr (h : p.Ok s pid) (hparent : p'.parent = p.parent)
    (hphase : p'.phase = p.phase) (hreaped : p'.reaped = true → p.hasEnded = true) :
    p'.Ok s pid := by
  obtain ⟨hlt, hchildren, hsplit, hright, -⟩ := h
  rw [← hparent] at hlt
  rw [← hphase] at hchildren hsplit hright
  refine ⟨hlt, hchildren, hsplit, hright, fun h ↦ ?_⟩
  rw [Process.hasEnded, hphase]
  exact hreaped h

theorem Process.Ok.ended (h : p.Ok s pid) (hasFinalized : Bool) :
    { p with phase := .ended hasFinalized : Process }.Ok s pid :=
  ⟨h.parent_lt, fun _ hmem ↦ (by cases hmem), rfl, fun _ hmem ↦ (by cases hmem), fun _ ↦ rfl⟩

theorem Inv.set (hI : Inv s) (hp : s[pid]? = some p) (hage : Ages p p') (hok : p'.Ok s pid) :
    Inv (s.set pid p') := by
  have hset : Each Ages s (s.set pid p') := Each.set Ages.refl hp hage
  intro i q hq
  rw [getElem?_set_some hp] at hq
  split_ifs at hq with hi
  · cases hq
    subst hi
    exact hok.mono hset
  · exact (hI i q hq).mono hset

theorem Inv.append (hI : Inv s) (hok : p.Ok s s.length) : Inv (s ++ [p]) := by
  have happend : Each Ages s (s ++ [p]) := Each.append Ages.refl
  intro i q hq
  rcases Nat.lt_trichotomy i s.length with hi | rfl | hi
  · rw [List.getElem?_append_left hi] at hq
    exact (hI i q hq).mono happend
  · rw [List.getElem?_concat_length] at hq
    cases hq
    exact hok.mono happend
  · rw [List.getElem?_eq_none (by rw [List.length_append, List.length_singleton]; omega)] at hq
    cases hq

/-- **What is waited for is over**, or stopped. -/
theorem waitPid_spec (hI : Inv s) (hp : s[pid]? = some p) {child : Pid}
    (hchild : child ∈ p.phase.children) {status : Option Status}
    (h : waitPid pid child s = some (status, t)) :
    Inv t ∧ Each Ages s t ∧ t[pid]? = some p ∧ Right t (child, status) := by
  obtain ⟨c, hc, hparent⟩ := (hI pid p hp).children child hchild
  have hok : c.Ok s child := hI child c hc
  have hne : child ≠ pid := (hok.parent_lt pid hparent).ne'
  rcases waitPid_cases h with ⟨hgone, rfl, rfl⟩ | ⟨c', hc', -, hcases⟩
  · exact ⟨hI, .refl Ages.refl, hp, .inr ⟨c, hc, hok.ended_of_reaped (hgone c hc hparent)⟩⟩
  · obtain rfl := Option.some.inj (hc.symm.trans hc')
    rcases hcases with ⟨hended, rfl, rfl⟩ | ⟨-, rfl, rfl⟩
    · refine ⟨hI.set hc ⟨rfl, id⟩ (hok.congr rfl rfl fun _ ↦ hended), .set Ages.refl hc ⟨rfl, id⟩,
        ?_, .inr ⟨{ c with reaped := true }, ?_, hended⟩⟩
      · rw [getElem?_set_some hc, if_neg hne, hp]
      · rw [getElem?_set_some hc, if_pos rfl]
    · refine ⟨hI.set hc ⟨rfl, id⟩ (hok.congr rfl rfl hok.ended_of_reaped),
        .set Ages.refl hc ⟨rfl, id⟩, ?_, .inl rfl⟩
      rw [getElem?_set_some hc, if_neg hne, hp]

theorem mem_children_of_todo {children todo : List Pid} {child : Pid}
    {statuses : List (Pid × Option Status)} (hok : p.Ok s pid)
    (hphase : p.phase = .waiting children (child :: todo) statuses) : child ∈ p.phase.children := by
  rw [← hok.split, hphase]
  exact List.mem_append_right _ List.mem_cons_self

theorem inv_waitForChild (hI : Inv s) (h : waitForChild pid s = some t) : Inv t := by
  obtain ⟨p, children, child, todo, statuses, status, u, hp, -, hphase, hu, rfl⟩ :=
    of_waitForChild h
  have hsplit := (hI pid p hp).split
  rw [hphase] at hsplit
  have hchild : child ∈ p.phase.children := mem_children_of_todo (hI pid p hp) hphase
  obtain ⟨hIu, -, hpu, hright⟩ := waitPid_spec hI hp hchild hu
  have hok : p.Ok u pid := hIu pid p hpu
  refine hIu.set hpu ⟨rfl, fun hended ↦ ?_⟩ ⟨hok.parent_lt, ?_, ?_, ?_, fun hreaped ↦ ?_⟩
  · rw [Process.hasEnded, hphase] at hended
    cases hended
  · have hchildren := hok.children
    rw [hphase] at hchildren
    exact hchildren
  · show (statuses ++ [(child, status)]).map Prod.fst ++ todo = children
    rw [List.map_append, List.append_assoc]
    exact hsplit
  · have hrights := hok.right
    rw [hphase] at hrights
    intro entry hentry
    rcases List.mem_append.mp hentry with hentry | hentry
    · exact hrights entry hentry
    · rw [List.mem_singleton.mp hentry]
      exact hright
  · have hended := hok.ended_of_reaped hreaped
    rw [Process.hasEnded, hphase] at hended
    cases hended

/-- The handler reads all of them, whatever process ids they have. -/
theorem getChildren_file (pidOf : Pid → ℕ)
    (h : ∀ child ∈ getChildren s pid, 0 < pidOf child ∧ pidOf child < 2 ^ 31) :
    Children.getChildren (some (Children.childrenFile ((getChildren s pid).map pidOf)))
      = (getChildren s pid).map fun child : Pid ↦ (pidOf child : ℤ) := by
  rw [Children.getChildren, Children.readPids_childrenFile (List.forall_mem_map.mpr h),
    List.map_map]
  rfl

theorem mem_getChildren {child : Pid} (h : child ∈ getChildren s pid) :
    ∃ c, s[child]? = some c ∧ c.parent = some pid := by
  obtain ⟨-, hany⟩ := List.mem_filter.mp h
  obtain ⟨c, hc, hlisted⟩ := (Option.any_eq_true ..).mp hany
  simp only [Bool.and_eq_true, decide_eq_true_eq] at hlisted
  exact ⟨c, hc, hlisted.1.1⟩

theorem Process.runs_of_serves (h : p.serves = true) : p.runs = true := by
  rw [Process.serves, Bool.and_eq_true] at h
  exact h.1

theorem Process.hasEnded_of_runs (h : p.runs = true) : p.hasEnded = false := by
  rw [Process.runs, Bool.and_eq_true, Bool.not_eq_true'] at h
  exact h.1

theorem Process.hasEnded_of_serves (h : p.serves = true) : p.hasEnded = false :=
  Process.hasEnded_of_runs (Process.runs_of_serves h)

theorem Process.signal_cases {children : List Pid} (h : p.signal children = some p') :
    p.serves = true ∧ p.phase = .program ∧ p.disposition ≠ .default ∧ p' = { p with
      phase := .waiting children children []
      disposition := p.disposition.afterSignal } := by
  rw [Process.signal, Option.ite_none_right_eq_some, Option.some.injEq, Bool.and_eq_true,
    Bool.and_eq_true, decide_eq_true_eq, decide_eq_true_eq] at h
  obtain ⟨⟨⟨hserves, hphase⟩, hdisposition⟩, rfl⟩ := h
  exact ⟨hserves, hphase, hdisposition, rfl⟩

theorem Process.finalize_cases (h : p.finalize = some p') :
    ∃ children statuses, p.phase = .waiting children [] statuses ∧ p.serves = true ∧
      p' = { p with phase := .finalized children statuses } := by
  rw [Process.finalize] at h
  split at h
  · rename_i children statuses hphase
    rw [Option.ite_none_right_eq_some, Option.some.injEq] at h
    exact ⟨children, statuses, hphase, h.1, h.2.symm⟩
  · cases h

theorem Process.raise_cases (h : p.raise = some p') :
    ∃ children statuses, p.phase = .finalized children statuses ∧ p.serves = true ∧
      (p.disposition = .default ∧ p' = { p with phase := .ended true } ∨
        p.disposition ≠ .default ∧ p' = { p with disposition := p.disposition.afterSignal }) := by
  rw [Process.raise] at h
  split at h
  · rename_i children statuses hphase
    split_ifs at h with hserves
    refine ⟨children, statuses, hphase, hserves, ?_⟩
    split at h
    · rename_i hdefault
      cases h
      exact .inl ⟨hdefault, rfl⟩
    · rename_i hother
      cases h
      exact .inr ⟨hother, rfl⟩
  · cases h

theorem inv_signal (hI : Inv s) (h : act pid (Process.signal (getChildren s pid)) s = some t) :
    Inv t := by
  obtain ⟨p, p', hp, hmove, rfl⟩ := of_act h
  have hok := hI pid p hp
  obtain ⟨hserves, -, -, rfl⟩ := Process.signal_cases hmove
  have hnot : ¬p.hasEnded = true := by
    rw [Process.hasEnded_of_serves hserves]
    exact Bool.false_ne_true
  refine hI.set hp ⟨rfl, fun hended ↦ absurd hended hnot⟩
    ⟨hok.parent_lt, fun _ ↦ mem_getChildren, rfl, fun _ hmem ↦ (by cases hmem), fun hreaped ↦ ?_⟩
  exact absurd (hok.ended_of_reaped hreaped) hnot

theorem inv_finalize (hI : Inv s) (h : act pid Process.finalize s = some t) : Inv t := by
  obtain ⟨p, p', hp, hmove, rfl⟩ := of_act h
  have hok := hI pid p hp
  obtain ⟨children, statuses, hphase, hserves, rfl⟩ := Process.finalize_cases hmove
  have hnot : ¬p.hasEnded = true := by
    rw [Process.hasEnded_of_serves hserves]
    exact Bool.false_ne_true
  obtain ⟨hlt, hchildren, hsplit, hright, hreaped⟩ := hok
  rw [hphase] at hchildren hsplit hright
  exact hI.set hp ⟨rfl, fun hended ↦ absurd hended hnot⟩
    ⟨hlt, hchildren, hsplit, hright, fun hreaped' ↦ absurd (hreaped hreaped') hnot⟩

theorem inv_fork {parent : Option Pid} {listed : Bool} (hI : Inv s)
    (h : step s (.fork parent listed) = some t) : Inv t := by
  cases parent with
  | none =>
    cases h
    exact hI.append ⟨fun _ hq ↦ (by cases hq), fun _ hmem ↦ (by cases hmem), rfl,
      fun _ hmem ↦ (by cases hmem), fun hreaped ↦ (by cases hreaped)⟩
  | some pid =>
    obtain ⟨p, hp, h⟩ := Option.bind_eq_some_iff.mp h
    rw [Option.ite_none_right_eq_some, Option.some.injEq] at h
    obtain ⟨-, rfl⟩ := h
    refine hI.append ⟨fun q hq ↦ ?_, fun _ hmem ↦ (by cases hmem), rfl,
      fun _ hmem ↦ (by cases hmem), fun hreaped ↦ (by cases hreaped)⟩
    cases hq
    exact (List.getElem?_eq_some_iff.mp hp).1

theorem inv_step {event : Event} (hI : Inv s) (h : step s event = some t) : Inv t := by
  cases event with
  | fork parent listed => exact inv_fork hI h
  | halt pid =>
    obtain ⟨p, p', hp, hmove, rfl⟩ := of_act h
    rw [Process.halt, Option.ite_none_right_eq_some, Option.some.injEq] at hmove
    obtain ⟨-, rfl⟩ := hmove
    exact hI.set hp ⟨rfl, id⟩ ((hI pid p hp).congr rfl rfl (hI pid p hp).ended_of_reaped)
  | resume pid =>
    obtain ⟨p, p', hp, hmove, rfl⟩ := of_act h
    rw [Process.resume, Option.ite_none_left_eq_some, Option.some.injEq] at hmove
    obtain ⟨-, rfl⟩ := hmove
    exact hI.set hp ⟨rfl, id⟩ ((hI pid p hp).congr rfl rfl (hI pid p hp).ended_of_reaped)
  | exit pid =>
    obtain ⟨p, p', hp, hmove, rfl⟩ := of_act h
    rw [Process.exit, Option.ite_none_left_eq_some, Option.some.injEq] at hmove
    obtain ⟨-, rfl⟩ := hmove
    exact hI.set hp ⟨rfl, fun _ ↦ rfl⟩ ((hI pid p hp).ended _)
  | otherWait pid =>
    obtain ⟨p, p', hp, hmove, rfl⟩ := of_act h
    rw [Process.otherWait] at hmove
    split_ifs at hmove with hreaped hended hstop
    · cases hmove
      exact hI.set hp ⟨rfl, id⟩ ((hI pid p hp).congr rfl rfl fun _ ↦ hended)
    · cases hmove
      exact hI.set hp ⟨rfl, id⟩ ((hI pid p hp).congr rfl rfl (hI pid p hp).ended_of_reaped)
  | exec pid =>
    obtain ⟨p, p', hp, hmove, rfl⟩ := of_act h
    rw [Process.exec, Option.ite_none_right_eq_some, Option.some.injEq] at hmove
    obtain ⟨-, rfl⟩ := hmove
    exact hI.set hp ⟨rfl, id⟩ ((hI pid p hp).congr rfl rfl (hI pid p hp).ended_of_reaped)
  | install pid disposition =>
    obtain ⟨p, p', hp, hmove, rfl⟩ := of_act h
    rw [Process.install, Option.ite_none_right_eq_some, Option.some.injEq] at hmove
    obtain ⟨-, rfl⟩ := hmove
    exact hI.set hp ⟨rfl, id⟩ ((hI pid p hp).congr rfl rfl (hI pid p hp).ended_of_reaped)
  | signalAgain pid =>
    obtain ⟨p, p', hp, hmove, rfl⟩ := of_act h
    rw [Process.signalAgain, Option.ite_none_right_eq_some, Option.some.injEq] at hmove
    obtain ⟨-, rfl⟩ := hmove
    exact hI.set hp ⟨rfl, id⟩ ((hI pid p hp).congr rfl rfl (hI pid p hp).ended_of_reaped)
  | signal pid => exact inv_signal hI h
  | waitPid pid => exact inv_waitForChild hI h
  | finalize pid => exact inv_finalize hI h
  | raise pid =>
    obtain ⟨p, p', hp, hmove, rfl⟩ := of_act h
    obtain ⟨_, _, -, -, ⟨-, rfl⟩ | ⟨-, rfl⟩⟩ := Process.raise_cases hmove
    · exact hI.set hp ⟨rfl, fun _ ↦ rfl⟩ ((hI pid p hp).ended true)
    · exact hI.set hp ⟨rfl, id⟩ ((hI pid p hp).congr rfl rfl (hI pid p hp).ended_of_reaped)

theorem inv_start : Inv [] := fun _ _ hp ↦ by cases hp

theorem Inv.waited (hI : Inv s) : Waited s := by
  intro pid p children statuses hp hphase
  obtain ⟨-, -, hsplit, hright, -⟩ := hI pid p hp
  rw [hphase] at hsplit hright
  exact ⟨(List.append_nil _).symm.trans hsplit, hright⟩

/-- **A process finalizes after its children**, in every run: those that it has read have ended by
then, but for those that were reported as stopped. -/
theorem everywhere_waited (events : List Event) : Everywhere step [] Waited events := by
  intro xs s _ hs
  have hI : Inv s := run_invariant inv_start (fun _ _ _ hI hstep ↦ inv_step hI hstep) hs
  exact hI.waited

/-- A parent with a child that is stopped. -/
def stoppedChild : List Event :=
  [.fork none true, .fork (some 0) true, .halt 1, .signal 0, .waitPid 0, .finalize 0]

/-- **The parent of a stopped child finalizes before it**: the child can still go on, and is in its
program. -/
theorem stopped_child :
    (run step [] stoppedChild).map (fun s ↦ s.map fun p ↦ (p.phase, p.stop))
      = some [(.finalized [1] [(1, some .stopped)], .running), (.program, .reported)] := by
  decide

/-- **A handler that stays installed** raises the signal forever. -/
theorem raise_again (hp : s[pid]? = some p) (hserves : p.serves = true)
    (hpersistent : p.disposition = .persistent) {children : List Pid}
    {statuses : List (Pid × Option Status)} (hphase : p.phase = .finalized children statuses)
    (n : ℕ) : run step s (List.replicate n (.raise pid)) = some s := by
  have hraise : p.raise = some p := by
    cases p
    cases hphase
    cases hpersistent
    exact if_pos hserves
  have hset : s.set pid p = s := by
    refine List.ext_getElem? fun i ↦ ?_
    rw [getElem?_set_some hp]
    split_ifs with hi
    · exact hi ▸ hp.symm
    · rfl
  have hstep : step s (.raise pid) = some s := by
    rw [step, act_eq hp hraise, hset]
  induction n with
  | zero => rfl
  | succ n ih => rw [List.replicate_succ, run_cons, hstep, Option.bind_some, ih]

/-! ## The steps of the handlers -/

/-- How the handlers change a process: they leave it alone when it has ended, and do not end it
before it has finalized. -/
structure Served (p p' : Process) : Prop where
  phase_of_ended : p.hasEnded = true → p'.phase = p.phase
  finalized : p'.phase = .ended false → p.hasEnded = true

/-- What matters is where it is. -/
theorem Served.of_phase_eq (hphase : p'.phase = p.phase) : Served p p' := by
  refine ⟨fun _ ↦ hphase, fun hfalse ↦ ?_⟩
  rw [Process.hasEnded, ← hphase, hfalse]
  rfl

theorem Served.refl (p : Process) : Served p p := .of_phase_eq rfl

theorem Served.hasEnded (h : Served p p') (hended : p.hasEnded = true) : p'.hasEnded = true := by
  rw [Process.hasEnded, h.phase_of_ended hended]
  exact hended

theorem Served.trans {p'' : Process} (h : Served p p') (h' : Served p' p'') : Served p p'' := by
  refine ⟨fun hp ↦ ?_, fun hphase ↦ ?_⟩
  · rw [h'.phase_of_ended (h.hasEnded hp), h.phase_of_ended hp]
  · rw [h'.phase_of_ended (h'.finalized hphase)] at hphase
    exact h.finalized hphase

/-- A process in the handler goes on. -/
theorem Served.of_serves (hserves : p.serves = true) (hphase : p'.phase ≠ .ended false) :
    Served p p' := by
  refine ⟨fun hended ↦ ?_, fun hfalse ↦ absurd hfalse hphase⟩
  rw [Process.hasEnded_of_serves hserves] at hended
  cases hended

/-- How many steps the handler of a process may still take, among so many processes. -/
def Phase.work (count : ℕ) : Phase → ℕ
  | .program => count + 3
  | .waiting _ todo _ => todo.length + 2
  | .finalized _ _ => 1
  | .ended _ => 0

def work (s : System) : ℕ := (s.map fun p ↦ p.phase.work s.length).sum

theorem work_set (hp : s[pid]? = some p) (q : Process) :
    work (s.set pid q) + p.phase.work s.length = work s + q.phase.work s.length := by
  rw [work, work, List.length_set]
  exact sum_map_set (fun p ↦ p.phase.work s.length) hp

/-- A process whose signal is as `initialize_signal_handler` has left it, or as the first signal
has, and that can go on. -/
structure Process.Ready (p : Process) : Prop where
  running : p.stop = .running
  unblocked : p.blocked = false
  disposition : p.disposition = if p.phase = .program then .oneShot else .default

/-- All processes that have not ended are like this. -/
def Calm (s : System) : Prop :=
  ∀ (pid : Pid) (p : Process), s[pid]? = some p → p.hasEnded = false → p.Ready

theorem Process.Ready.serves (h : p.Ready) (hgoing : p.hasEnded = false) : p.serves = true := by
  rw [Process.serves, Process.runs, hgoing, h.running, h.unblocked]
  rfl

theorem Calm.set (h : Calm s) (hp : s[pid]? = some p) (hready : p'.hasEnded = false → p'.Ready) :
    Calm (s.set pid p') := by
  intro i q hq hgoing
  rw [getElem?_set_some hp] at hq
  split_ifs at hq
  · cases hq
    exact hready hgoing
  · exact h i q hq hgoing

/-- What the handlers have done. -/
structure Handled (s t : System) : Prop where
  calm : Calm t
  length : t.length = s.length
  each : Each Served s t
  work_lt : work t < work s

theorem Handled.set (hcalm : Calm s) (hp : s[pid]? = some p) (hserved : Served p p')
    (hready : p'.hasEnded = false → p'.Ready)
    (hlt : p'.phase.work s.length < p.phase.work s.length) : Handled s (s.set pid p') := by
  refine ⟨hcalm.set hp hready, List.length_set, .set Served.refl hp hserved, ?_⟩
  have hwork := work_set hp p'
  omega

theorem handled_signal (hcalm : Calm s)
    (h : act pid (Process.signal (getChildren s pid)) s = some t) : Handled s t := by
  obtain ⟨p, p', hp, hmove, rfl⟩ := of_act h
  obtain ⟨hserves, hphase, -, rfl⟩ := Process.signal_cases hmove
  have hready : p.Ready := hcalm pid p hp (Process.hasEnded_of_serves hserves)
  have hlength : (getChildren s pid).length ≤ s.length :=
    (List.length_filter_le _ _).trans_eq List.length_range
  refine .set hcalm hp (.of_serves hserves fun heq ↦ (by cases heq)) (fun _ ↦ ?_) ?_
  · refine ⟨hready.running, hready.unblocked, ?_⟩
    show p.disposition.afterSignal = .default
    rw [hready.disposition, if_pos hphase]
    rfl
  · show (getChildren s pid).length + 2 < p.phase.work s.length
    rw [hphase, Phase.work]
    omega

/-- In the handler the signal is set back. -/
theorem Process.Ready.default (h : p.Ready) (hphase : p.phase.inHandler = true) :
    p.disposition = .default := by
  rw [h.disposition]
  refine if_neg fun hprogram ↦ ?_
  rw [hprogram] at hphase
  cases hphase

theorem Process.Ready.move (h : p.Ready) (hphase : p.phase.inHandler = true) {phase : Phase}
    (hphase' : phase ≠ .program) : { p with phase : Process }.Ready :=
  ⟨h.running, h.unblocked, (h.default hphase).trans (if_neg hphase').symm⟩

theorem handled_finalize (hcalm : Calm s) (h : act pid Process.finalize s = some t) :
    Handled s t := by
  obtain ⟨p, p', hp, hmove, rfl⟩ := of_act h
  obtain ⟨children, statuses, hphase, hserves, rfl⟩ := Process.finalize_cases hmove
  have hready : p.Ready := hcalm pid p hp (Process.hasEnded_of_serves hserves)
  refine .set hcalm hp (.of_serves hserves fun heq ↦ (by cases heq)) (fun _ ↦ ?_) ?_
  · exact hready.move (by rw [hphase]; rfl) fun heq ↦ (by cases heq)
  · rw [hphase]
    exact Nat.one_lt_two

theorem handled_raise (hcalm : Calm s) (h : act pid Process.raise s = some t) : Handled s t := by
  obtain ⟨p, p', hp, hmove, rfl⟩ := of_act h
  obtain ⟨children, statuses, hphase, hserves, hcases⟩ := Process.raise_cases hmove
  have hready : p.Ready := hcalm pid p hp (Process.hasEnded_of_serves hserves)
  have hdefault : p.disposition = .default := hready.default (by rw [hphase]; rfl)
  rcases hcases with ⟨-, rfl⟩ | ⟨hother, -⟩
  · refine .set hcalm hp (.of_serves hserves fun heq ↦ (by cases heq)) (fun hgoing ↦ ?_) ?_
    · cases hgoing
    · rw [hphase]
      exact Nat.one_pos
  · exact absurd hdefault hother

/-- Waiting leaves every process where it is. -/
theorem served_waitPid (hcalm : Calm s) {child : Pid} {status : Option Status}
    (h : waitPid pid child s = some (status, t)) :
    Calm t ∧ t.length = s.length ∧ Each Served s t ∧ work t = work s := by
  rcases waitPid_cases h with ⟨-, -, rfl⟩ | ⟨c, hc, -, hcases⟩
  · exact ⟨hcalm, rfl, .refl Served.refl, rfl⟩
  · rcases hcases with ⟨hended, -, rfl⟩ | ⟨hstop, -, rfl⟩
    · refine ⟨hcalm.set hc fun hgoing ↦ ?_, List.length_set, .set Served.refl hc (.of_phase_eq rfl),
        Nat.add_right_cancel (work_set hc _)⟩
      cases hended.symm.trans hgoing
    · refine ⟨hcalm.set hc fun hgoing ↦ ?_, List.length_set, .set Served.refl hc (.of_phase_eq rfl),
        Nat.add_right_cancel (work_set hc _)⟩
      cases hstop.symm.trans (hcalm child c hc hgoing).running

theorem handled_waitForChild (hI : Inv s) (hcalm : Calm s) (h : waitForChild pid s = some t) :
    Handled s t := by
  obtain ⟨p, children, child, todo, statuses, status, u, hp, hserves, hphase, hu, rfl⟩ :=
    of_waitForChild h
  have hchild : child ∈ p.phase.children := mem_children_of_todo (hI pid p hp) hphase
  obtain ⟨-, -, hpu, -⟩ := waitPid_spec hI hp hchild hu
  obtain ⟨hcalmu, hlength, heach, hwork⟩ := served_waitPid hcalm hu
  have hready : p.Ready := hcalm pid p hp (Process.hasEnded_of_serves hserves)
  have hset : Handled u
      (u.set pid { p with phase := .waiting children todo (statuses ++ [(child, status)]) }) := by
    refine .set hcalmu hpu (.of_serves hserves fun heq ↦ (by cases heq)) (fun _ ↦ ?_) ?_
    · exact hready.move (by rw [hphase]; rfl) fun heq ↦ (by cases heq)
    · rw [hphase]
      exact Nat.lt_succ_self _
  exact ⟨hset.calm, hset.length.trans hlength, heach.trans (fun _ _ _ ↦ Served.trans) hset.each,
    hset.work_lt.trans_eq hwork⟩

theorem handled_step {event : Event} (hI : Inv s) (hcalm : Calm s)
    (hevent : event.ofHandler = true) (h : step s event = some t) : Handled s t := by
  cases event with
  | signal pid => exact handled_signal hcalm h
  | waitPid pid => exact handled_waitForChild hI hcalm h
  | finalize pid => exact handled_finalize hcalm h
  | raise pid => exact handled_raise hcalm h
  | _ => cases hevent

/-! ## The end -/

theorem Phase.exists_of_hasEnded {phase : Phase} (h : phase.hasEnded = true) :
    ∃ hasFinalized, phase = .ended hasFinalized := by
  cases phase with
  | ended hasFinalized => exact ⟨hasFinalized, rfl⟩
  | _ => cases h

/-- **One of those that wait can go on**: the youngest of a chain of them. -/
theorem exists_handler_step (hI : Inv s) (hcalm : Calm s) (hp : s[pid]? = some p)
    (hended : p.hasEnded = false) :
    ∃ event : Event, event.ofHandler = true ∧ step s event ≠ none := by
  have hlt := (List.getElem?_eq_some_iff.mp hp).1
  -- the processes after this one are those that it may wait for
  induction hrest : s.length - pid using Nat.strong_induction_on generalizing pid p with
  | _ rest ih =>
    have hready : p.Ready := hcalm pid p hp hended
    have hserves : p.serves = true := hready.serves hended
    rcases hphase : p.phase with
      _ | ⟨children, _ | ⟨child, todo⟩, statuses⟩ | ⟨children, statuses⟩ | _
    · refine ⟨.signal pid, rfl, ?_⟩
      have hmove : p.signal (getChildren s pid) = some _ :=
        if_pos (by rw [hserves, hready.disposition, hphase]; rfl)
      rw [step, act_eq hp hmove]
      exact Option.some_ne_none _
    · refine ⟨.finalize pid, rfl, ?_⟩
      have hmove : p.finalize = some { p with phase := .finalized children statuses } := by
        rw [Process.finalize, hphase]
        exact if_pos hserves
      rw [step, act_eq hp hmove]
      exact Option.some_ne_none _
    · have hchild : child ∈ p.phase.children := mem_children_of_todo (hI pid p hp) hphase
      obtain ⟨c, hc, hparent⟩ := (hI pid p hp).children child hchild
      have hyounger : pid < child := (hI child c hc).parent_lt pid hparent
      rcases hc' : c.hasEnded with _ | _
      · have hchildLt := (List.getElem?_eq_some_iff.mp hc).1
        have hless : s.length - child < rest := hrest ▸ Nat.sub_lt_sub_left hlt hyounger
        exact ih (s.length - child) hless hc hc' hchildLt rfl
      · refine ⟨.waitPid pid, rfl, ?_⟩
        have hwait : (waitPid pid child s).isSome = true := by
          rw [waitPid, hc]
          dsimp only
          rw [if_pos hc']
          split_ifs <;> rfl
        obtain ⟨⟨status, u⟩, hu⟩ := Option.isSome_iff_exists.mp hwait
        rw [step, waitForChild, hp, Option.bind_some, hphase]
        dsimp only
        rw [if_pos hserves, hu]
        exact Option.some_ne_none _
    · refine ⟨.raise pid, rfl, ?_⟩
      have hmove : p.raise = some { p with phase := .ended true } := by
        rw [Process.raise, hphase]
        dsimp only
        rw [if_pos hserves, hready.default (by rw [hphase]; rfl)]
      rw [step, act_eq hp hmove]
      exact Option.some_ne_none _
    · rw [Process.hasEnded, hphase] at hended
      cases hended

/-- **The handlers come to an end.**  When nobody is stopped, the handlers are those of
`initialize_signal_handler` and none of them has been entered by a second signal, and they alone go
on, they take boundedly many steps, in whatever order; and where none of them can take one more,
each process has finalized and ended that had not ended before. -/
theorem shutdown_completes {events : List Event} (h : run step [] events = some s)
    (hcalm : Calm s) :
    ∃ bound, ∀ more t, (∀ event ∈ more, event.ofHandler = true) → run step s more = some t →
      more.length ≤ bound ∧
        ((∀ event : Event, event.ofHandler = true → step t event = none) →
          ∀ (pid : Pid) (p : Process), s[pid]? = some p → p.hasEnded = false →
            ∃ q, t[pid]? = some q ∧ q.phase = .ended true) := by
  have hI : Inv s := run_invariant inv_start (fun _ _ _ hI hstep ↦ inv_step hI hstep) h
  refine ⟨work s, fun more t hmore ht ↦ ⟨?_, fun hstuck pid p hp hended ↦ ?_⟩⟩
  · refine length_le_of_run (I := fun s ↦ Inv s ∧ Calm s) ?_ ⟨hI, hcalm⟩ hmore ht
    rintro s event t ⟨hI, hcalm⟩ hevent hstep
    have hhandled := handled_step hI hcalm hevent hstep
    exact ⟨⟨inv_step hI hstep, hhandled.calm⟩, hhandled.work_lt⟩
  · have hall : Everywhere step s (fun t ↦ Inv t ∧ Calm t ∧ Each Served s t) more := by
      refine along_invariant ⟨hI, hcalm, .refl Served.refl⟩ ?_ (along_of_forall_mem hmore)
      rintro t event u ⟨hIt, hcalmt, heach⟩ hevent hstep
      have hhandled := handled_step hIt hcalmt hevent hstep
      exact ⟨inv_step hIt hstep, hhandled.calm,
        heach.trans (fun _ _ _ ↦ Served.trans) hhandled.each⟩
    obtain ⟨hIt, hcalm', heach⟩ := hall more t (List.prefix_refl more) ht
    obtain ⟨q, hq, hserved⟩ := heach pid p hp
    have hq' : q.hasEnded = true := by
      by_contra hgoing
      rw [Bool.not_eq_true] at hgoing
      obtain ⟨event, hevent, hstep⟩ := exists_handler_step hIt hcalm' hq hgoing
      exact hstep (hstuck event hevent)
    obtain ⟨hasFinalized, hphase⟩ := Phase.exists_of_hasEnded hq'
    cases hasFinalized with
    | true => exact ⟨q, hq, hphase⟩
    | false =>
      rw [hserved.finalized hphase] at hended
      cases hended

/-- A parent that has been sent the signal, and its child. -/
def parentAndChild : List Event := [.fork none true, .fork (some 0) true, .signal 0]

/-- The parent waits for the child. -/
def parentWaits : System :=
  [{ parent := none, listed := true, phase := .waiting [1] [1] [], disposition := .default },
    { parent := some 0, listed := true }]

theorem calm_parentWaits : Calm parentWaits := by
  intro pid p hp _
  rcases pid with _ | _ | pid
  · cases hp
    exact ⟨rfl, rfl, rfl⟩
  · cases hp
    exact ⟨rfl, rfl, rfl⟩
  · cases hp

theorem shutdown_completes_parentAndChild :
    run step [] parentAndChild = some parentWaits ∧
      (∃ bound, ∀ more t, (∀ event ∈ more, event.ofHandler = true) →
        run step parentWaits more = some t →
          more.length ≤ bound ∧
            ((∀ event : Event, event.ofHandler = true → step t event = none) →
              ∃ p, t[0]? = some p ∧ p.phase = .ended true)) ∧
      (run step parentWaits [.signal 1, .finalize 1, .raise 1, .waitPid 0, .finalize 0,
        .raise 0]).map (fun t ↦ t.map Process.phase) = some [.ended true, .ended true] := by
  have hrun : run step [] parentAndChild = some parentWaits := by decide
  obtain ⟨bound, hbound⟩ := shutdown_completes hrun calm_parentWaits
  refine ⟨hrun, ⟨bound, fun more t hmore ht ↦ ?_⟩, by decide⟩
  obtain ⟨hlength, hends⟩ := hbound more t hmore ht
  exact ⟨hlength, fun hstuck ↦ hends hstuck 0 _ rfl rfl⟩

end Version3.Shutdown
