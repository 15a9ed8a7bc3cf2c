import Mathlib.Data.List.Nodup
import Mathlib.Data.List.Perm.Subperm
import Mathlib.Logic.Function.Basic
import RocprofTool.Lib.Runs

/-!
# Waiting for the peers

At its end a process can be told to wait for its peers, the processes under the same parent.
`wait_peer_finished` reads the children of the parent once, posts a semaphore that all of them
share, and reads the value of the semaphore until it is not less than the number of the children
it has read.

The value says how many have posted, and not who.  The snapshots are taken at different times, so a
process that one of them does not have (it was started later, or is gone already) may well be among
those who have posted, in the place of one that is still being waited for (`outsider_counted`).
As long as only members of its snapshot have posted when it leaves the loop, all of them have
(`everywhere_allPosted_of_postedByPeers`); it leaves too early exactly when the posts from outside
make up for the missing ones (`everywhere_allPosted_iff`).

`SemaphoreGuard` is not part of the sources: what it opens is one semaphore, which starts with zero
and is shared by all the processes.  A pid stands for one process throughout.  A process reads the
children at once; it may also fail to open, to post and to read the semaphore.
-/

set_option autoImplicit false

open Runs

namespace Version3.PeerBarrier

/-- A process id. -/
abbrev Pid := ℕ

/-- Where a process is, with its `_peers_pid` and its `_sem_val`. -/
inductive Phase
  | running
  /-- It has read its peers, and there are others among them. -/
  | readPeers (peersPid : List Pid)
  | opened (peersPid : List Pid)
  /-- In the loop, before `sem_getvalue`. -/
  | reading (peersPid : List Pid) (semVal : ℕ)
  /-- In the loop, before its condition. -/
  | checking (peersPid : List Pid) (semVal : ℕ)
  /-- It has left the loop through the condition. -/
  | passed (peersPid : List Pid)
  /-- It has returned before the loop. -/
  | returned
  | exited
  deriving DecidableEq, Repr

/-- The processes under one parent: those in `/proc/<ppid>/task/<ppid>/children`, where each of
them is, and the semaphore.  Who has posted it is not to be seen in its value. -/
structure System where
  children : List Pid := []
  procs : Pid → Option Phase := fun _ ↦ none
  semaphore : ℕ := 0
  posted : List Pid := []

/-- What the processes do; the parent starts them and sees their exit. -/
inductive Event
  /-- A new process; the file lists it when the main thread of the parent has started it. -/
  | fork (pid : Pid) (listed : Bool)
  | exit (pid : Pid)
  | getPeerPid (pid : Pid)
  | openOrCreate (pid : Pid) (succeeds : Bool)
  | semPost (pid : Pid) (succeeds : Bool)
  | semGetvalue (pid : Pid) (succeeds : Bool)
  | loopCondition (pid : Pid)
  deriving DecidableEq, Repr

/-- The process goes on to this phase. -/
def System.goTo (s : System) (pid : Pid) (phase : Phase) : System :=
  { s with procs := Function.update s.procs pid (some phase) }

def fork (pid : Pid) (listed : Bool) (s : System) : Option System :=
  match s.procs pid with
  | none =>
    some { s.goTo pid .running with
      children := if listed then s.children ++ [pid] else s.children }
  | some _ => none

def exit (pid : Pid) (s : System) : Option System :=
  (s.procs pid).map fun _ ↦ { s.goTo pid .exited with children := s.children.erase pid }

/-- `get_peer_pid`, and the return of a process that has no peers. -/
def getPeerPid (pid : Pid) (s : System) : Option System :=
  match s.procs pid with
  | some .running =>
    some (s.goTo pid (if s.children.length ≤ 1 then .returned else .readPeers s.children))
  | _ => none

/-- `guard.open_or_create`. -/
def openOrCreate (pid : Pid) (succeeds : Bool) (s : System) : Option System :=
  match s.procs pid with
  | some (.readPeers peersPid) =>
    some (s.goTo pid (if succeeds then .opened peersPid else .returned))
  | _ => none

/-- `sem_post`; then `_sem_val` is zero. -/
def semPost (pid : Pid) (succeeds : Bool) (s : System) : Option System :=
  match s.procs pid with
  | some (.opened peersPid) =>
    some (if succeeds then
      { s.goTo pid (.reading peersPid 0) with
        semaphore := s.semaphore + 1, posted := s.posted ++ [pid] }
    else s.goTo pid .returned)
  | _ => none

/-- `sem_getvalue`; when it fails, `_sem_val` stays as it is. -/
def semGetvalue (pid : Pid) (succeeds : Bool) (s : System) : Option System :=
  match s.procs pid with
  | some (.reading peersPid semVal) =>
    some (s.goTo pid (.checking peersPid (if succeeds then s.semaphore else semVal)))
  | _ => none

/-- The condition of the loop: go on waiting when `_sem_val` is less than the number of peers. -/
def loopCondition (pid : Pid) (s : System) : Option System :=
  match s.procs pid with
  | some (.checking peersPid semVal) =>
    some (s.goTo pid
      (if semVal < peersPid.length then .reading peersPid semVal else .passed peersPid))
  | _ => none

/-- One step of one process. -/
def step (s : System) : Event → Option System
  | .fork pid listed => fork pid listed s
  | .exit pid => exit pid s
  | .getPeerPid pid => getPeerPid pid s
  | .openOrCreate pid succeeds => openOrCreate pid succeeds s
  | .semPost pid succeeds => semPost pid succeeds s
  | .semGetvalue pid succeeds => semGetvalue pid succeeds s
  | .loopCondition pid => loopCondition pid s

/-! ## The property -/

/-- Who has left the loop through its condition has waited for all of its peers. -/
def AllPosted (s : System) : Prop :=
  ∀ pid peersPid, s.procs pid = some (.passed peersPid) → ∀ peer ∈ peersPid, peer ∈ s.posted

/-- How many of those who have posted are not among these peers. -/
def System.outsiders (s : System) (peersPid : List Pid) : ℕ :=
  (s.posted.filter fun pid ↦ pid ∉ peersPid).length

/-- The condition on a step: when a process leaves the loop, the value of the semaphore is not
less than the number of its peers without the posts from outside. -/
def notMadeUp (s : System) : Event → Bool
  | .loopCondition pid =>
    match s.procs pid with
    | some (.checking peersPid semVal) =>
      semVal < peersPid.length || peersPid.length + s.outsiders peersPid ≤ s.semaphore
    | _ => true
  | _ => true

/-! ## Counting those who have posted -/

section Counting

variable {α : Type*} [DecidableEq α] {xs ys : List α}

/-- **Counting without repetition**: a list has all of the members of another one exactly when it
has at least as many entries as that one beside those that are not in there. -/
theorem subset_iff_length_add_le (hxs : xs.Nodup) (hys : ys.Nodup) :
    xs ⊆ ys ↔ xs.length + (ys.filter fun y ↦ y ∉ xs).length ≤ ys.length := by
  have hsplit := ys.length_eq_length_filter_add fun y ↦ decide (y ∈ xs)
  have hnot : (ys.filter fun y ↦ !decide (y ∈ xs)) = ys.filter fun y ↦ y ∉ xs :=
    List.filter_congr fun y _ ↦ (decide_not).symm
  rw [hnot] at hsplit
  rw [hsplit, Nat.add_le_add_iff_right]
  constructor
  · intro hsub
    refine (hxs.subperm fun x hx ↦ ?_).length_le
    exact List.mem_filter.mpr ⟨hsub hx, decide_eq_true hx⟩
  · intro hle x hx
    have hinside : (ys.filter fun y ↦ decide (y ∈ xs)).Subperm xs :=
      List.subperm_of_subset (hys.filter _) fun y hy ↦
        of_decide_eq_true (List.mem_filter.mp hy).2
    exact (List.mem_filter.mp ((hinside.perm_of_length_le hle).mem_iff.mpr hx)).1

end Counting

/-! ## The invariant -/

/-- The snapshot of a process that waits, or has waited. -/
def Phase.peersPid : Phase → List Pid
  | .readPeers peersPid | .opened peersPid | .reading peersPid _ | .checking peersPid _
  | .passed peersPid => peersPid
  | .running | .returned | .exited => []

/-- The value of the semaphore that it has read last. -/
def Phase.semVal : Phase → ℕ
  | .reading _ semVal | .checking _ semVal => semVal
  | _ => 0

/-- Has it still to post? -/
def Phase.beforePost : Phase → Bool
  | .running | .readPeers _ | .opened _ => true
  | _ => false

/-- Nobody is twice among the children, in a snapshot or among those who have posted, and the
semaphore counts the latter. -/
structure Inv (s : System) : Prop where
  children : s.children.Nodup
  posted : s.posted.Nodup
  semaphore : s.semaphore = s.posted.length
  started : ∀ pid, s.procs pid = none → pid ∉ s.children ∧ pid ∉ s.posted
  peersPid : ∀ pid phase, s.procs pid = some phase → phase.peersPid.Nodup
  semVal : ∀ pid phase, s.procs pid = some phase → phase.semVal ≤ s.semaphore
  beforePost : ∀ pid phase, s.procs pid = some phase → phase.beforePost = true →
    pid ∉ s.posted

variable {s t : System} {pid : Pid} {phase : Phase}

theorem goTo_procs_self : (s.goTo pid phase).procs pid = some phase := by
  show Function.update s.procs pid (some phase) pid = _
  exact Function.update_self ..

theorem goTo_procs_of_ne {pid' : Pid} (h : pid' ≠ pid) :
    (s.goTo pid phase).procs pid' = s.procs pid' := by
  show Function.update s.procs pid (some phase) pid' = _
  exact Function.update_of_ne h ..

/-- What holds of the phases of all the processes, holds when one of them goes on to such a
phase. -/
theorem forall_goTo {P : Pid → Phase → Prop} (h : ∀ pid phase, s.procs pid = some phase →
    P pid phase) (hphase : P pid phase) (pid' : Pid) (phase' : Phase)
    (h' : (s.goTo pid phase).procs pid' = some phase') : P pid' phase' := by
  by_cases heq : pid' = pid
  · subst heq
    rw [goTo_procs_self] at h'
    cases h'
    exact hphase
  · rw [goTo_procs_of_ne heq] at h'
    exact h pid' phase' h'

/-! ### What a process can do in which phase -/

theorem of_fork {listed : Bool} (h : fork pid listed s = some t) :
    s.procs pid = none ∧ t = { s.goTo pid .running with
      children := if listed then s.children ++ [pid] else s.children } := by
  rw [fork] at h
  split at h
  · exact ⟨‹_›, (Option.some.inj h).symm⟩
  · cases h

theorem of_exit (h : exit pid s = some t) :
    t = { s.goTo pid .exited with children := s.children.erase pid } := by
  obtain ⟨phase, -, rfl⟩ := Option.map_eq_some_iff.mp h
  rfl

theorem of_getPeerPid (h : getPeerPid pid s = some t) :
    s.procs pid = some .running ∧
      t = s.goTo pid (if s.children.length ≤ 1 then .returned else .readPeers s.children) := by
  rw [getPeerPid] at h
  split at h
  · exact ⟨‹_›, (Option.some.inj h).symm⟩
  · cases h

theorem of_openOrCreate {succeeds : Bool} (h : openOrCreate pid succeeds s = some t) :
    ∃ peersPid, s.procs pid = some (.readPeers peersPid) ∧
      t = s.goTo pid (if succeeds then .opened peersPid else .returned) := by
  rw [openOrCreate] at h
  split at h
  · exact ⟨_, ‹_›, (Option.some.inj h).symm⟩
  · cases h

theorem of_semPost {succeeds : Bool} (h : semPost pid succeeds s = some t) :
    ∃ peersPid, s.procs pid = some (.opened peersPid) ∧
      ((succeeds = true ∧ t = { s.goTo pid (.reading peersPid 0) with
          semaphore := s.semaphore + 1, posted := s.posted ++ [pid] }) ∨
        (succeeds = false ∧ t = s.goTo pid .returned)) := by
  rw [semPost] at h
  split at h
  · refine ⟨_, ‹_›, ?_⟩
    obtain rfl := Option.some.inj h
    cases succeeds
    · exact .inr ⟨rfl, rfl⟩
    · exact .inl ⟨rfl, rfl⟩
  · cases h

theorem of_semGetvalue {succeeds : Bool} (h : semGetvalue pid succeeds s = some t) :
    ∃ peersPid semVal, s.procs pid = some (.reading peersPid semVal) ∧
      t = s.goTo pid (.checking peersPid (if succeeds then s.semaphore else semVal)) := by
  rw [semGetvalue] at h
  split at h
  · exact ⟨_, _, ‹_›, (Option.some.inj h).symm⟩
  · cases h

theorem of_loopCondition (h : loopCondition pid s = some t) :
    ∃ peersPid semVal, s.procs pid = some (.checking peersPid semVal) ∧
      t = s.goTo pid
        (if semVal < peersPid.length then .reading peersPid semVal else .passed peersPid) := by
  rw [loopCondition] at h
  split at h
  · exact ⟨_, _, ‹_›, (Option.some.inj h).symm⟩
  · cases h

/-! ### The steps -/

theorem Inv.goTo (hI : Inv s) (hpeers : phase.peersPid.Nodup)
    (hval : phase.semVal ≤ s.semaphore) (hbefore : phase.beforePost = true → pid ∉ s.posted) :
    Inv (s.goTo pid phase) := by
  refine ⟨hI.children, hI.posted, hI.semaphore, fun pid' hpid' ↦ ?_, ?_, ?_, ?_⟩
  · by_cases heq : pid' = pid
    · subst heq
      rw [goTo_procs_self] at hpid'
      cases hpid'
    · rw [goTo_procs_of_ne heq] at hpid'
      exact hI.started pid' hpid'
  · exact forall_goTo (P := fun _ phase ↦ phase.peersPid.Nodup) hI.peersPid hpeers
  · exact forall_goTo (P := fun _ phase ↦ phase.semVal ≤ s.semaphore) hI.semVal hval
  · exact forall_goTo (P := fun pid phase ↦ phase.beforePost = true → pid ∉ s.posted)
      hI.beforePost hbefore

/-- The parent gets other children, all of which have been started. -/
theorem Inv.withChildren {children : List Pid} (hI : Inv s) (hnodup : children.Nodup)
    (hstarted : ∀ pid, s.procs pid = none → pid ∉ children) :
    Inv { s with children := children } :=
  ⟨hnodup, hI.posted, hI.semaphore, fun pid hpid ↦ ⟨hstarted pid hpid, (hI.started pid hpid).2⟩,
    hI.peersPid, hI.semVal, hI.beforePost⟩

theorem nodup_concat {xs : List Pid} (h : xs.Nodup) (hnew : pid ∉ xs) : (xs ++ [pid]).Nodup :=
  List.concat_eq_append ▸ List.Nodup.concat hnew h

/-- A process that goes on to its loop posts the semaphore. -/
theorem Inv.post (hI : Inv s) (hphase : s.procs pid = some phase)
    (hafter : phase.beforePost = false) (hnew : pid ∉ s.posted) :
    Inv { s with semaphore := s.semaphore + 1, posted := s.posted ++ [pid] } := by
  refine ⟨hI.children, ?_, ?_, fun pid' hpid' ↦ ?_, hI.peersPid, fun pid' phase' hphase' ↦ ?_,
    fun pid' phase' hphase' hbefore hmem ↦ ?_⟩
  · exact nodup_concat hI.posted hnew
  · show s.semaphore + 1 = (s.posted ++ [pid]).length
    rw [List.length_append, List.length_singleton, hI.semaphore]
  · refine ⟨(hI.started pid' hpid').1, fun hmem ↦ ?_⟩
    rcases List.mem_append.mp hmem with hmem | hmem
    · exact (hI.started pid' hpid').2 hmem
    · obtain rfl := List.mem_singleton.mp hmem
      cases hphase.symm.trans hpid'
  · exact Nat.le_succ_of_le (hI.semVal pid' phase' hphase')
  · rcases List.mem_append.mp hmem with hmem | hmem
    · exact hI.beforePost pid' phase' hphase' hbefore hmem
    · obtain rfl := List.mem_singleton.mp hmem
      cases hphase.symm.trans hphase'
      cases hafter.symm.trans hbefore

theorem inv_fork {listed : Bool} (hI : Inv s) (h : fork pid listed s = some t) : Inv t := by
  obtain ⟨hpid, rfl⟩ := of_fork h
  obtain ⟨hchildren, hposted⟩ := hI.started pid hpid
  have hgone : Inv (s.goTo pid .running) :=
    hI.goTo List.nodup_nil (Nat.zero_le _) fun _ ↦ hposted
  refine hgone.withChildren ?_ fun pid' hpid' hmem ↦ ?_
  · split_ifs
    · exact nodup_concat hI.children hchildren
    · exact hI.children
  · have hold := (hgone.started pid' hpid').1
    split_ifs at hmem
    · rcases List.mem_append.mp hmem with hmem | hmem
      · exact hold hmem
      · obtain rfl := List.mem_singleton.mp hmem
        rw [goTo_procs_self] at hpid'
        cases hpid'
    · exact hold hmem

theorem inv_exit (hI : Inv s) (h : exit pid s = some t) : Inv t := by
  obtain rfl := of_exit h
  have hgone : Inv (s.goTo pid .exited) :=
    hI.goTo List.nodup_nil (Nat.zero_le _) fun hbefore ↦ (by cases hbefore)
  exact hgone.withChildren (hI.children.erase pid) fun pid' hpid' hmem ↦
    (hgone.started pid' hpid').1 (List.mem_of_mem_erase hmem)

theorem inv_getPeerPid (hI : Inv s) (h : getPeerPid pid s = some t) : Inv t := by
  obtain ⟨hpid, rfl⟩ := of_getPeerPid h
  split_ifs
  · exact hI.goTo List.nodup_nil (Nat.zero_le _) fun hbefore ↦ (by cases hbefore)
  · exact hI.goTo hI.children (Nat.zero_le _) fun _ ↦ hI.beforePost pid _ hpid rfl

theorem inv_openOrCreate {succeeds : Bool} (hI : Inv s)
    (h : openOrCreate pid succeeds s = some t) : Inv t := by
  obtain ⟨peersPid, hpid, rfl⟩ := of_openOrCreate h
  have hpeers : peersPid.Nodup := hI.peersPid pid _ hpid
  split_ifs
  · exact hI.goTo hpeers (Nat.zero_le _) fun _ ↦ hI.beforePost pid _ hpid rfl
  · exact hI.goTo List.nodup_nil (Nat.zero_le _) fun hbefore ↦ (by cases hbefore)

theorem inv_semPost {succeeds : Bool} (hI : Inv s) (h : semPost pid succeeds s = some t) :
    Inv t := by
  obtain ⟨peersPid, hpid, ⟨-, rfl⟩ | ⟨-, rfl⟩⟩ := of_semPost h
  · have hpeers : peersPid.Nodup := hI.peersPid pid _ hpid
    have hgone : Inv (s.goTo pid (.reading peersPid 0)) :=
      hI.goTo hpeers (Nat.zero_le _) fun hbefore ↦ (by cases hbefore)
    exact hgone.post goTo_procs_self rfl (hI.beforePost pid _ hpid rfl)
  · exact hI.goTo List.nodup_nil (Nat.zero_le _) fun hbefore ↦ (by cases hbefore)

theorem inv_semGetvalue {succeeds : Bool} (hI : Inv s)
    (h : semGetvalue pid succeeds s = some t) : Inv t := by
  obtain ⟨peersPid, semVal, hpid, rfl⟩ := of_semGetvalue h
  have hpeers : peersPid.Nodup := hI.peersPid pid _ hpid
  have hval : semVal ≤ s.semaphore := hI.semVal pid _ hpid
  refine hI.goTo hpeers ?_ fun hbefore ↦ (by cases hbefore)
  show (if succeeds then s.semaphore else semVal) ≤ s.semaphore
  split_ifs
  · exact Nat.le_refl s.semaphore
  · exact hval

theorem inv_loopCondition (hI : Inv s) (h : loopCondition pid s = some t) : Inv t := by
  obtain ⟨peersPid, semVal, hpid, rfl⟩ := of_loopCondition h
  have hpeers : peersPid.Nodup := hI.peersPid pid _ hpid
  have hval : semVal ≤ s.semaphore := hI.semVal pid _ hpid
  split_ifs
  · exact hI.goTo hpeers hval fun hbefore ↦ (by cases hbefore)
  · exact hI.goTo hpeers (Nat.zero_le _) fun hbefore ↦ (by cases hbefore)

/-- **Every step keeps the invariant.** -/
theorem inv_step {event : Event} (hI : Inv s) (h : step s event = some t) : Inv t := by
  cases event with
  | fork pid listed => exact inv_fork hI h
  | exit pid => exact inv_exit hI h
  | getPeerPid pid => exact inv_getPeerPid hI h
  | openOrCreate pid succeeds => exact inv_openOrCreate hI h
  | semPost pid succeeds => exact inv_semPost hI h
  | semGetvalue pid succeeds => exact inv_semGetvalue hI h
  | loopCondition pid => exact inv_loopCondition hI h

theorem inv_start : Inv {} :=
  ⟨List.nodup_nil, List.nodup_nil, rfl, fun _ _ ↦ ⟨List.not_mem_nil, List.not_mem_nil⟩,
    fun _ _ h ↦ (by cases h), fun _ _ h ↦ (by cases h), fun _ _ h ↦ (by cases h)⟩

/-! ## Leaving the loop -/

/-- The phases of the others do not matter to a process that has left its loop. -/
theorem AllPosted.goTo (hP : AllPosted s)
    (hphase : ∀ peersPid, phase = .passed peersPid → ∀ peer ∈ peersPid, peer ∈ s.posted) :
    AllPosted (s.goTo pid phase) := by
  intro pid' peersPid h'
  exact forall_goTo
    (P := fun _ phase ↦ ∀ peersPid, phase = .passed peersPid → ∀ peer ∈ peersPid, peer ∈ s.posted)
    (fun pid phase hpid peersPid heq ↦ hP pid peersPid (heq ▸ hpid)) hphase pid' _ h' peersPid rfl

theorem AllPosted.goTo_of_ne (hP : AllPosted s) (hphase : ∀ peersPid, phase ≠ .passed peersPid) :
    AllPosted (s.goTo pid phase) :=
  hP.goTo fun peersPid heq ↦ absurd heq (hphase peersPid)

/-- A step that leaves no loop keeps the property. -/
theorem allPosted_step {event : Event} (hP : AllPosted s) (h : step s event = some t)
    (hevent : ∀ pid, event ≠ .loopCondition pid) : AllPosted t := by
  cases event with
  | fork pid listed =>
    obtain ⟨-, rfl⟩ := of_fork h
    have hgone : AllPosted (s.goTo pid .running) := hP.goTo_of_ne fun peersPid ↦ nofun
    exact hgone
  | exit pid =>
    obtain rfl := of_exit h
    have hgone : AllPosted (s.goTo pid .exited) := hP.goTo_of_ne fun peersPid ↦ nofun
    exact hgone
  | getPeerPid pid =>
    obtain ⟨-, rfl⟩ := of_getPeerPid h
    split_ifs
    · exact hP.goTo_of_ne fun peersPid ↦ nofun
    · exact hP.goTo_of_ne fun peersPid ↦ nofun
  | openOrCreate pid succeeds =>
    obtain ⟨peersPid, -, rfl⟩ := of_openOrCreate h
    split_ifs
    · exact hP.goTo_of_ne fun peersPid ↦ nofun
    · exact hP.goTo_of_ne fun peersPid ↦ nofun
  | semPost pid succeeds =>
    obtain ⟨peersPid, -, ⟨-, rfl⟩ | ⟨-, rfl⟩⟩ := of_semPost h
    · have hgone : AllPosted (s.goTo pid (.reading peersPid 0)) :=
        hP.goTo_of_ne fun peersPid ↦ nofun
      exact fun pid' peersPid' h' peer hpeer ↦
        List.mem_append_left [pid] (hgone pid' peersPid' h' peer hpeer)
    · exact hP.goTo_of_ne fun peersPid ↦ nofun
  | semGetvalue pid succeeds =>
    obtain ⟨peersPid, semVal, -, rfl⟩ := of_semGetvalue h
    exact hP.goTo_of_ne fun peersPid ↦ nofun
  | loopCondition pid => exact absurd rfl (hevent pid)

/-- **The posts of all the peers, counted**: the value of the semaphore without the posts from
outside. -/
theorem forall_mem_posted_iff {peersPid : List Pid} (hI : Inv s) (hpeers : peersPid.Nodup) :
    (∀ peer ∈ peersPid, peer ∈ s.posted) ↔
      peersPid.length + s.outsiders peersPid ≤ s.semaphore := by
  rw [hI.semaphore]
  exact subset_iff_length_add_le hpeers hI.posted

/-- **Who leaves the loop has waited for its peers exactly when the posts from outside did not
make up for them.** -/
theorem allPosted_loopCondition (hI : Inv s) (hP : AllPosted s)
    (h : loopCondition pid s = some t) :
    AllPosted t ↔ notMadeUp s (.loopCondition pid) = true := by
  obtain ⟨peersPid, semVal, hpid, rfl⟩ := of_loopCondition h
  have hpeers : peersPid.Nodup := hI.peersPid pid _ hpid
  rw [notMadeUp, hpid]
  by_cases hless : semVal < peersPid.length
  · rw [if_pos hless]
    dsimp only
    rw [decide_eq_true hless, Bool.true_or]
    exact iff_of_true (hP.goTo_of_ne fun peersPid' ↦ nofun) rfl
  · rw [if_neg hless]
    dsimp only
    rw [decide_eq_false hless, Bool.false_or, decide_eq_true_iff,
      ← forall_mem_posted_iff hI hpeers]
    refine ⟨fun hQ ↦ hQ pid peersPid goTo_procs_self, fun hall ↦ hP.goTo fun peersPid' heq ↦ ?_⟩
    cases heq
    exact hall

theorem allPosted_step_iff {event : Event} (hI : Inv s) (hP : AllPosted s)
    (hstep : step s event = some t) : AllPosted t ↔ notMadeUp s event = true := by
  by_cases hevent : ∃ pid, event = .loopCondition pid
  · obtain ⟨pid, rfl⟩ := hevent
    exact allPosted_loopCondition hI hP hstep
  · have hevent : ∀ pid, event ≠ .loopCondition pid := fun pid heq ↦ hevent ⟨pid, heq⟩
    refine iff_of_true (allPosted_step hP hstep hevent) ?_
    cases event with
    | loopCondition pid => exact absurd rfl (hevent pid)
    | _ => rfl

theorem allPosted_start : AllPosted {} := fun _ _ hpid ↦ by cases hpid

/-- **When a process waits for all of its peers**: in exactly those runs in which no process leaves
its loop by posts from outside of its snapshot that stand for missing ones. -/
theorem everywhere_allPosted_iff {events : List Event} (h : run step {} events = some t) :
    Everywhere step {} AllPosted events ↔
      Along step {} (fun s event ↦ notMadeUp s event = true) events :=
  everywhere_iff_along inv_start (fun _ _ _ hI hstep ↦ inv_step hI hstep) allPosted_start
    (fun _ _ _ hI hP hstep ↦ allPosted_step_iff hI hP hstep) h

/-! ## Without posts from outside -/

/-- When a process leaves the loop, all those who have posted are among its peers. -/
def postedByPeers (s : System) : Event → Bool
  | .loopCondition pid =>
    match s.procs pid with
    | some (.checking peersPid semVal) =>
      semVal < peersPid.length || s.posted.all fun pid ↦ pid ∈ peersPid
    | _ => true
  | _ => true

theorem outsiders_eq_zero {peersPid : List Pid} (h : ∀ pid ∈ s.posted, pid ∈ peersPid) :
    s.outsiders peersPid = 0 := by
  rw [System.outsiders, List.length_eq_zero_iff, List.filter_eq_nil_iff]
  exact fun pid hpid hout ↦ of_decide_eq_true hout (h pid hpid)

theorem notMadeUp_of_postedByPeers {event : Event} (hI : Inv s)
    (h : postedByPeers s event = true) : notMadeUp s event = true := by
  cases event with
  | loopCondition pid =>
    rw [postedByPeers] at h
    rw [notMadeUp]
    split at h
    · rename_i peersPid semVal hpid
      have hval : semVal ≤ s.semaphore := hI.semVal pid _ hpid
      rw [Bool.or_eq_true, decide_eq_true_iff] at h ⊢
      by_cases hless : semVal < peersPid.length
      · exact .inl hless
      · have hposted := List.all_eq_true.mp (h.resolve_left hless)
        have hzero := outsiders_eq_zero fun pid hpid ↦ of_decide_eq_true (hposted pid hpid)
        refine .inr (decide_eq_true ?_)
        rw [hzero, Nat.add_zero]
        exact Nat.le_trans (Nat.not_lt.mp hless) hval
    · rfl
  | _ => rfl

/-- **As long as only its peers have posted when a process leaves the loop**, all of its peers
have: in all the runs, with whatever processes are started, read their peers and post at whatever
times. -/
theorem everywhere_allPosted_of_postedByPeers {events : List Event}
    (h : Along step {} (fun s event ↦ postedByPeers s event = true) events) :
    Everywhere step {} AllPosted events := by
  have hall : Everywhere step {} (fun s ↦ Inv s ∧ AllPosted s) events := by
    refine along_invariant ⟨inv_start, allPosted_start⟩ ?_ h
    rintro s event t ⟨hI, hP⟩ hevent hstep
    have hnotMadeUp : notMadeUp s event = true := notMadeUp_of_postedByPeers hI hevent
    exact ⟨inv_step hI hstep, (allPosted_step_iff hI hP hstep).mpr hnotMadeUp⟩
  exact fun xs s hpre hs ↦ (hall xs s hpre hs).2

/-- Two processes wait for each other. -/
def twoPeers : List Event :=
  [.fork 1 true, .fork 2 true, .getPeerPid 1, .getPeerPid 2, .openOrCreate 1 true,
    .openOrCreate 2 true, .semPost 1 true, .semGetvalue 1 true, .loopCondition 1,
    .semPost 2 true, .semGetvalue 2 true, .loopCondition 2, .semGetvalue 1 true, .loopCondition 1]

/-- Both of them leave the loop, the first one after another round. -/
theorem allPosted_twoPeers :
    Everywhere step {} AllPosted twoPeers ∧
      (run step {} twoPeers).map (fun s ↦ (s.procs 1, s.procs 2, s.posted))
        = some (some (.passed [1, 2]), some (.passed [1, 2]), [1, 2]) :=
  ⟨everywhere_allPosted_of_postedByPeers (along_of_checkAlong rfl), rfl⟩

/-- The first process has read the pids of itself and of a second one; a third one, started
later, reads all three and posts. -/
def lateProcess : List Event :=
  [.fork 1 true, .fork 2 true, .getPeerPid 1, .fork 3 true, .getPeerPid 3, .openOrCreate 3 true,
    .semPost 3 true, .openOrCreate 1 true, .semPost 1 true, .semGetvalue 1 true, .loopCondition 1]

/-- **The third post counts for that of the second process**, which has not posted. -/
theorem outsider_counted : ¬Everywhere step {} AllPosted lateProcess := by
  intro hall
  have hrun : run step {} lateProcess = some _ := rfl
  have hmem := hall lateProcess _ (List.prefix_refl _) hrun 1 [1, 2] rfl 2 (by decide)
  exact absurd hmem (by decide)

end Version3.PeerBarrier
