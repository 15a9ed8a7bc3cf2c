import RocprofTool.Lib.RecursiveMutex
import RocprofTool.Lib.Runs

/-!
# Who holds the mutex

One recursive mutex guards the contexts and the flag `is_loaded`.  The functions that use it lock
and unlock it by hand, some of them call each other while they hold it, and two of them,
`OnLoadToolProp` and `rocprofiler_unload`, return early on the flag before they have unlocked it.

`body` is the control flow of these functions, with what they do with the mutex and the flag; every
condition on other data can come out either way, and so can the number of rounds of a loop.  Threads
execute the bodies step by step and interleave in any way.

A function is *balanced* when it returns with the hold depth it was called with.  Which positions of
the bodies lead to a balanced return is a check of finitely many cases (`follows_of_mem`).  All of
them do but for the two early returns, so that the calls of a run are balanced exactly when none of
these is taken (`everywhere_balanced_iff`).
-/

set_option autoImplicit false

open Runs

namespace Version1.Mutex

/-! ## The functions -/

/-- The functions that lock the mutex, and the two that call `rocprofiler_unload`. -/
inductive Function
  | nextContextCount
  | allocContextEntry
  | deallocContextEntry
  | dumpContextArray
  | contextHandler
  | contextPoolHandler
  | onLoadToolProp
  | rocprofilerUnload
  | onUnloadTool
  | destructor
  deriving DecidableEq, Repr

/-- What is left to do of a function. -/
inductive Code
  | ret
  | abort
  /-- The next round of a loop around the whole body. -/
  | again
  | lock (next : Code)
  | unlock (next : Code)
  | setLoaded (value : Bool) (next : Code)
  | ifLoaded (yes no : Code)
  /-- A condition on data that is not modelled. -/
  | ifData (yes no : Code)
  | call (f : Function) (next : Code)
  deriving DecidableEq, Repr

/-- `dump_context_entry` leaves the mutex alone; it ends the program when the value of a feature is
of an undefined kind. -/
def Code.dumpContextEntry (next : Code) : Code := .ifData .abort next

/-- The functions of the source. -/
def body : Function → Code
  | .nextContextCount => .lock (.unlock .ret)
  | .allocContextEntry =>
    .lock (.call .nextContextCount
      (.ifData .abort  -- the index is repeated
        (.unlock .ret)))
  | .deallocContextEntry => .lock (.unlock .ret)
  | .dumpContextArray =>
    .lock (.dumpContextEntry (.unlock
      (.ifData .again  -- not done
        .ret)))
  | .contextHandler =>
    .lock (.ifData
      -- the entry is active
      (.dumpContextEntry (.ifData .abort  -- it is not complete
        (.call .deallocContextEntry (.unlock .ret))))
      (.call .deallocContextEntry (.unlock .ret)))
  | .contextPoolHandler => .lock (.dumpContextEntry (.unlock .ret))
  | .onLoadToolProp =>
    .lock (.ifLoaded .ret (.setLoaded true (.unlock
      (.ifData .abort  -- the output cannot be opened, or an agent is missing
        .ret))))
  | .rocprofilerUnload =>
    .lock (.ifLoaded (.setLoaded false (.unlock
      (.ifData (.call .dumpContextArray .ret) .ret))) .ret)
  | .onUnloadTool => .ifLoaded (.call .rocprofilerUnload .ret) .ret
  | .destructor => .ifLoaded (.call .rocprofilerUnload .ret) .ret

/-! ## Threads -/

/-- A call that has not returned: the function, the hold depth at the call and what is left. -/
structure Frame where
  function : Function
  entryDepth : ℕ
  code : Code
  deriving DecidableEq, Repr

/-- A call that has returned. -/
structure Return where
  thread : ℕ
  function : Function
  entryDepth : ℕ
  returnDepth : ℕ
  deriving DecidableEq, Repr

/-- The mutex, the flag, the calls that each thread is in, innermost first, and those that have
returned. -/
structure System where
  isLoaded : Bool := false
  mutex : RecursiveMutex ℕ := none
  frames : ℕ → List Frame := fun _ ↦ []
  returns : List Return := []
  aborted : Bool := false

/-- What can happen. -/
inductive Event
  /-- A thread calls a function, from outside or from another call. -/
  | enter (thread : ℕ) (f : Function)
  /-- A thread goes on; `data` is how a condition that is not modelled comes out. -/
  | step (thread : ℕ) (data : Bool)
  deriving DecidableEq, Repr

/-- The calls at whose end the thread is, with this hold depth, return. -/
def settle (thread depth : ℕ) : List Frame → List Frame × List Return
  | [] => ([], [])
  | frame :: rest =>
    if frame.code = .ret then
      let p := settle thread depth rest
      (p.1, ⟨thread, frame.function, frame.entryDepth, depth⟩ :: p.2)
    else (frame :: rest, [])

/-- The thread goes on with these calls. -/
def System.goOn (s : System) (thread : ℕ) (frames : List Frame) : System :=
  let p := settle thread (s.mutex.depth thread) frames
  { s with frames := Function.update s.frames thread p.1, returns := s.returns ++ p.2 }

/-- The thread calls a function, before it goes on with these calls. -/
def System.call (s : System) (thread : ℕ) (f : Function) (frames : List Frame) : System :=
  let frame : Frame := ⟨f, s.mutex.depth thread, body f⟩
  { s with frames := Function.update s.frames thread (frame :: frames) }

/-- The next step of a thread in these calls.  It has to wait while another one holds the mutex;
unlocking what the thread does not hold is an error, and ends the program. -/
def System.advance (s : System) (thread : ℕ) (data : Bool) (frame : Frame) (rest : List Frame) :
    Option System :=
  let goOn (s : System) (next : Code) := s.goOn thread ({ frame with code := next } :: rest)
  match frame.code with
  | .ret => none
  | .abort => some { s with aborted := true }
  | .again => some (goOn s (body frame.function))
  | .lock next => (s.mutex.lock thread).map fun mutex ↦ goOn { s with mutex } next
  | .unlock next =>
    some ((s.mutex.unlock thread).elim { s with aborted := true } fun mutex ↦
      goOn { s with mutex } next)
  | .setLoaded value next => some (goOn { s with isLoaded := value } next)
  | .ifLoaded yes no => some (goOn s (if s.isLoaded then yes else no))
  | .ifData yes no => some (goOn s (if data then yes else no))
  | .call f next => some (s.call thread f ({ frame with code := next } :: rest))

/-- One event. -/
def step (s : System) (event : Event) : Option System :=
  if s.aborted then none
  else
    match event with
    | .enter thread f => some (s.call thread f (s.frames thread))
    | .step thread data =>
      match s.frames thread with
      | [] => none
      | frame :: rest => s.advance thread data frame rest

/-! ## The positions of the functions -/

/-- The positions in a piece of code, each with the number of times that the mutex is held there,
when the code is entered with this number. -/
def Code.positions : ℕ → Code → List (ℕ × Code)
  | n, .ret => [(n, .ret)]
  | n, .abort => [(n, .abort)]
  | n, .again => [(n, .again)]
  | n, .lock next => (n, .lock next) :: positions (n + 1) next
  | n, .unlock next => (n, .unlock next) :: positions (n - 1) next
  | n, .setLoaded value next => (n, .setLoaded value next) :: positions n next
  | n, .ifLoaded yes no => (n, .ifLoaded yes no) :: (positions n yes ++ positions n no)
  | n, .ifData yes no => (n, .ifData yes no) :: (positions n yes ++ positions n no)
  | n, .call f next => (n, .call f next) :: positions n next

/-- A position of the function that is not a return with the mutex held. -/
def placed (f : Function) (n : ℕ) (code : Code) : Bool :=
  ((body f).positions 0).contains (n, code) && (code ≠ .ret || n = 0)

/-- What comes after a position of the function is a position of it that is not a return with the
mutex held, unless it is one of the two early returns. -/
def follows (f : Function) (p : ℕ × Code) : Bool :=
  match p.2 with
  | .ret | .abort => true
  | .again => p.1 = 0
  | .lock next => placed f (p.1 + 1) next
  | .unlock next => 0 < p.1 && placed f (p.1 - 1) next
  | .setLoaded _ next => placed f p.1 next
  | .ifData yes no => placed f p.1 yes && placed f p.1 no
  | .call _ next => placed f p.1 next
  | .ifLoaded yes no =>
    match f with
    | .onLoadToolProp => p.1 = 1 && yes = .ret && placed f 1 no
    | .rocprofilerUnload => p.1 = 1 && no = .ret && placed f 1 yes
    | _ => placed f p.1 yes && placed f p.1 no

/-- **The check of the bodies.** -/
theorem follows_of_mem {f : Function} {p : ℕ × Code} (h : p ∈ (body f).positions 0) :
    follows f p = true := by
  have hall : ((body f).positions 0).all (follows f) = true := by rcases f <;> decide
  exact List.all_eq_true.mp hall p h

theorem placed_body (f : Function) : placed f 0 (body f) = true := by
  rcases f <;> decide

/-! ## Balance -/

/-- The calls that have returned have done so with the hold depth they were called with, and a
thread that is in no call does not hold the mutex. -/
structure Balanced (s : System) : Prop where
  returned : ∀ r ∈ s.returns, r.returnDepth = r.entryDepth
  idle : ∀ thread, s.frames thread = [] → s.mutex.depth thread = 0

/-- The condition on a step: when `OnLoadToolProp` looks at the flag the tool is not loaded, and
when `rocprofiler_unload` does it is. -/
def InTurn (s : System) (event : Event) : Prop :=
  ∀ thread data frame rest yes no, event = .step thread data →
    s.frames thread = frame :: rest → frame.code = .ifLoaded yes no →
    (frame.function = .onLoadToolProp → s.isLoaded = false) ∧
      (frame.function = .rocprofilerUnload → s.isLoaded = true)

/-- The hold depth of a thread that is in these calls, innermost first: each of them holds the
mutex as often as its position says, beyond the depth it was called with. -/
def Stacked : ℕ → List Frame → Prop
  | depth, [] => depth = 0
  | depth, frame :: rest => ∃ n, depth = frame.entryDepth + n ∧
      placed frame.function n frame.code = true ∧ Stacked frame.entryDepth rest

/-- The hold depths of all threads are right. -/
def AllStacked (s : System) : Prop :=
  ∀ thread, Stacked (s.mutex.depth thread) (s.frames thread)

theorem mem_positions_of_placed {f : Function} {n : ℕ} {code : Code} (h : placed f n code = true) :
    (n, code) ∈ (body f).positions 0 := by
  rw [placed, Bool.and_eq_true, List.contains_iff_mem] at h
  exact h.1

theorem eq_zero_of_placed_ret {f : Function} {n : ℕ} (h : placed f n .ret = true) : n = 0 := by
  rw [placed, Bool.and_eq_true] at h
  simpa using h.2

/-- Calls in order return in order. -/
theorem stacked_settle (thread : ℕ) {depth : ℕ} {frames : List Frame} (h : Stacked depth frames) :
    Stacked depth (settle thread depth frames).1 ∧
      ∀ r ∈ (settle thread depth frames).2, r.returnDepth = r.entryDepth := by
  induction frames with
  | nil => exact ⟨h, fun r hr ↦ (List.not_mem_nil hr).elim⟩
  | cons frame rest ih =>
    rw [settle]
    split
    · rename_i hret
      obtain ⟨n, hdepth, hplaced, hrest⟩ := h
      rw [hret] at hplaced
      obtain rfl := eq_zero_of_placed_ret hplaced
      rw [Nat.add_zero] at hdepth
      subst hdepth
      obtain ⟨hstacked, hreturns⟩ := ih hrest
      refine ⟨hstacked, fun r hr ↦ ?_⟩
      rcases List.mem_cons.mp hr with rfl | hr
      · rfl
      · exact hreturns r hr
    · exact ⟨h, fun r hr ↦ (List.not_mem_nil hr).elim⟩

/-- What a step may do: the hold depths stay right, and the calls that return are balanced. -/
def Proceeds (s t : System) : Prop :=
  AllStacked t ∧ ∃ rs, t.returns = s.returns ++ rs ∧ ∀ r ∈ rs, r.returnDepth = r.entryDepth

theorem proceeds_goOn {s : System} {thread : ℕ} {frames : List Frame}
    (h : Stacked (s.mutex.depth thread) frames)
    (hother : ∀ other, other ≠ thread → Stacked (s.mutex.depth other) (s.frames other)) :
    Proceeds s (s.goOn thread frames) := by
  obtain ⟨hstacked, hreturns⟩ := stacked_settle thread h
  refine ⟨fun other ↦ ?_, _, rfl, hreturns⟩
  by_cases hself : other = thread
  · subst hself
    rw [System.goOn]
    simpa using hstacked
  · rw [System.goOn]
    simpa [Function.update_of_ne hself] using hother other hself

theorem proceeds_call {s : System} {thread : ℕ} {frames : List Frame} (f : Function)
    (h : Stacked (s.mutex.depth thread) frames)
    (hother : ∀ other, other ≠ thread → Stacked (s.mutex.depth other) (s.frames other)) :
    Proceeds s (s.call thread f frames) := by
  refine ⟨fun other ↦ ?_, [], (List.append_nil _).symm, fun r hr ↦ (List.not_mem_nil hr).elim⟩
  by_cases hself : other = thread
  · subst hself
    rw [System.call]
    simp only [Function.update_self]
    exact ⟨0, rfl, placed_body f, h⟩
  · rw [System.call]
    simpa [Function.update_of_ne hself] using hother other hself

/-- Going on at a position of the function, with the mutex held as often as it says. -/
theorem proceeds_next {s u : System} {thread n : ℕ} {frame : Frame} {rest : List Frame}
    {next : Code} (hs : AllStacked s) (hplaced : placed frame.function n next = true)
    (hrest : Stacked frame.entryDepth rest) (hdepth : u.mutex.depth thread = frame.entryDepth + n)
    (hframes : u.frames = s.frames) (hreturns : u.returns = s.returns)
    (hother : ∀ other, other ≠ thread → u.mutex.depth other = s.mutex.depth other) :
    Proceeds s (u.goOn thread ({ frame with code := next } :: rest)) := by
  have hgoOn : Proceeds u (u.goOn thread ({ frame with code := next } :: rest)) := by
    refine proceeds_goOn ⟨n, hdepth, hplaced, hrest⟩ fun other hne ↦ ?_
    rw [hother other hne, hframes]
    exact hs other
  rw [Proceeds, hreturns] at hgoOn
  exact hgoOn

theorem proceeds_aborted {s : System} (hs : AllStacked s) :
    Proceeds s { s with aborted := true } :=
  ⟨hs, [], (List.append_nil _).symm, fun _ hr ↦ (List.not_mem_nil hr).elim⟩

/-- **A step of a thread in turn.** -/
theorem proceeds_advance {s t : System} {thread : ℕ} {data : Bool} {frame : Frame}
    {rest : List Frame} (hs : AllStacked s) (hframes : s.frames thread = frame :: rest)
    (hturn : ∀ yes no, frame.code = .ifLoaded yes no →
      (frame.function = .onLoadToolProp → s.isLoaded = false) ∧
        (frame.function = .rocprofilerUnload → s.isLoaded = true))
    (h : s.advance thread data frame rest = some t) : Proceeds s t := by
  have hself := hs thread
  rw [hframes] at hself
  obtain ⟨n, hdepth, hplaced, hrest⟩ := hself
  have hfollows := follows_of_mem (mem_positions_of_placed hplaced)
  rw [System.advance] at h
  rcases hcode : frame.code with _ | _ | _ | next | next | ⟨value, next⟩ | ⟨yes, no⟩ | ⟨yes, no⟩ |
    ⟨f, next⟩ <;> rw [hcode] at h hfollows <;> dsimp only at h <;> rw [follows] at hfollows
  · cases h
  · cases h
    exact proceeds_aborted hs
  · cases h
    have hzero : n = 0 := by simpa using hfollows
    subst hzero
    exact proceeds_next hs (placed_body _) hrest hdepth rfl rfl fun _ _ ↦ rfl
  · obtain ⟨mutex, hlock, rfl⟩ := Option.map_eq_some_iff.mp h
    refine proceeds_next hs hfollows hrest ?_ rfl rfl fun other hne ↦ ?_
    · rw [RecursiveMutex.depth_lock_self hlock, hdepth, Nat.add_assoc]
    · exact RecursiveMutex.depth_lock_of_ne hlock hne
  · rw [Bool.and_eq_true, decide_eq_true_eq] at hfollows
    have hheld : 0 < s.mutex.depth thread := by omega
    obtain ⟨mutex, hunlock⟩ := Option.isSome_iff_exists.mp (RecursiveMutex.unlock_isSome hheld)
    rw [hunlock] at h
    cases h
    have hself := RecursiveMutex.depth_unlock_self hunlock
    refine proceeds_next hs hfollows.2 hrest ?_ rfl rfl fun other hne ↦ ?_
    · show mutex.depth thread = frame.entryDepth + (n - 1)
      omega
    · exact RecursiveMutex.depth_unlock_of_ne hunlock hne
  · cases h
    exact proceeds_next hs hfollows hrest hdepth rfl rfl fun _ _ ↦ rfl
  · cases h
    refine proceeds_next (n := n) hs ?_ hrest hdepth rfl rfl fun _ _ ↦ rfl
    obtain ⟨hload, hunload⟩ := hturn yes no hcode
    rcases hfunction : frame.function with _ | _ | _ | _ | _ | _ | _ | _ | _ | _
    case onLoadToolProp =>
      rw [hload hfunction, if_neg Bool.false_ne_true]
      simp only [hfunction, Bool.and_eq_true, decide_eq_true_eq] at hfollows
      obtain ⟨⟨rfl, -⟩, hno⟩ := hfollows
      exact hno
    case rocprofilerUnload =>
      rw [hunload hfunction, if_pos rfl]
      simp only [hfunction, Bool.and_eq_true, decide_eq_true_eq] at hfollows
      obtain ⟨⟨rfl, -⟩, hyes⟩ := hfollows
      exact hyes
    all_goals
      simp only [hfunction, Bool.and_eq_true] at hfollows
      split
      · exact hfollows.1
      · exact hfollows.2
  · cases h
    rw [Bool.and_eq_true] at hfollows
    refine proceeds_next hs ?_ hrest hdepth rfl rfl fun _ _ ↦ rfl
    split
    · exact hfollows.1
    · exact hfollows.2
  · cases h
    exact proceeds_call f ⟨n, hdepth, hfollows, hrest⟩ fun other _ ↦ hs other

/-- **A step of a thread out of turn** returns with the mutex held. -/
theorem unbalanced_advance {s t : System} {thread : ℕ} {data : Bool} {frame : Frame}
    {rest : List Frame} (hs : AllStacked s) (hframes : s.frames thread = frame :: rest)
    {yes no : Code} (hcode : frame.code = .ifLoaded yes no)
    (hturn : frame.function = .onLoadToolProp ∧ s.isLoaded = true ∨
      frame.function = .rocprofilerUnload ∧ s.isLoaded = false)
    (h : s.advance thread data frame rest = some t) :
    ∃ r ∈ t.returns, r.returnDepth ≠ r.entryDepth := by
  have hself := hs thread
  rw [hframes] at hself
  obtain ⟨n, hdepth, hplaced, hrest⟩ := hself
  have hfollows := follows_of_mem (mem_positions_of_placed hplaced)
  rw [hcode, follows] at hfollows
  rw [System.advance, hcode] at h
  cases h
  have hearly : n = 1 ∧ (if s.isLoaded then yes else no) = .ret := by
    rcases hturn with ⟨hfunction, hloaded⟩ | ⟨hfunction, hloaded⟩ <;>
      simp only [hfunction, Bool.and_eq_true, decide_eq_true_eq] at hfollows <;>
      rw [hloaded] <;>
      exact hfollows.1
  refine ⟨⟨thread, frame.function, frame.entryDepth, s.mutex.depth thread⟩, ?_, ?_⟩
  · show _ ∈ s.returns ++ (settle thread _ (_ :: rest)).2
    rw [settle, if_pos hearly.2]
    exact List.mem_append_right _ List.mem_cons_self
  · show s.mutex.depth thread ≠ frame.entryDepth
    omega

/-- A step keeps the calls that have returned. -/
theorem returns_step {s t : System} {event : Event} (h : step s event = some t) :
    ∃ rs, t.returns = s.returns ++ rs := by
  rw [step.eq_def] at h
  obtain ⟨-, h⟩ := Option.ite_none_left_eq_some.mp h
  rcases event with ⟨thread, f⟩ | ⟨thread, data⟩
  · cases h
    exact ⟨[], (List.append_nil _).symm⟩
  · dsimp only at h
    rcases hframes : s.frames thread with _ | ⟨frame, rest⟩
    · rw [hframes] at h
      cases h
    · rw [hframes] at h
      dsimp only at h
      rw [System.advance] at h
      rcases hcode : frame.code with _ | _ | _ | next | next | ⟨value, next⟩ | ⟨yes, no⟩ |
        ⟨yes, no⟩ | ⟨f, next⟩ <;> rw [hcode] at h <;> dsimp only at h
      case ret => cases h
      case lock =>
        obtain ⟨mutex, -, rfl⟩ := Option.map_eq_some_iff.mp h
        exact ⟨_, rfl⟩
      case unlock =>
        cases h
        rcases s.mutex.unlock thread with _ | mutex
        · exact ⟨[], (List.append_nil _).symm⟩
        · exact ⟨_, rfl⟩
      case abort | call =>
        cases h
        exact ⟨[], (List.append_nil _).symm⟩
      all_goals
        cases h
        exact ⟨_, rfl⟩

/-- **One event**: it keeps the hold depths right when it is in turn, and otherwise a call returns
with the mutex held. -/
theorem proceeds_step {s t : System} {event : Event} (hs : AllStacked s)
    (h : step s event = some t) :
    (InTurn s event → Proceeds s t) ∧
      (¬InTurn s event → ∃ r ∈ t.returns, r.returnDepth ≠ r.entryDepth) := by
  rw [step.eq_def] at h
  obtain ⟨-, h⟩ := Option.ite_none_left_eq_some.mp h
  rcases event with ⟨thread, f⟩ | ⟨thread, data⟩
  · cases h
    refine ⟨fun _ ↦ proceeds_call f (hs thread) fun other _ ↦ hs other, fun hnot ↦ ?_⟩
    refine (hnot fun _ _ _ _ _ _ heq ↦ ?_).elim
    cases heq
  · dsimp only at h
    rcases hframes : s.frames thread with _ | ⟨frame, rest⟩
    · rw [hframes] at h
      cases h
    · rw [hframes] at h
      refine ⟨fun hturn ↦ ?_, fun hnot ↦ ?_⟩
      · exact proceeds_advance hs hframes
          (fun yes no hcode ↦ hturn thread data frame rest yes no rfl hframes hcode) h
      · rw [InTurn] at hnot
        push Not at hnot
        obtain ⟨thread', data', frame', rest', yes, no, heq, hframes', hcode, hturn⟩ := hnot
        cases heq
        rw [hframes] at hframes'
        cases hframes'
        refine unbalanced_advance hs hframes hcode ?_ h
        by_cases hload : frame.function = .onLoadToolProp ∧ s.isLoaded = true
        · exact .inl hload
        · refine .inr ?_
          have hunload := hturn fun hfunction ↦ by
            simpa [hfunction] using hload
          simpa using hunload

/-! ## Every run -/

/-- What holds in every run: the hold depths are right as long as the calls that have returned were
balanced. -/
def Inv (s : System) : Prop :=
  (∀ r ∈ s.returns, r.returnDepth = r.entryDepth) → AllStacked s

theorem inv_step (s : System) (event : Event) (t : System) (hI : Inv s)
    (h : step s event = some t) : Inv t := by
  intro ht
  obtain ⟨rs, hreturns⟩ := returns_step h
  have hs : AllStacked s := hI fun r hr ↦ ht r (hreturns ▸ List.mem_append_left _ hr)
  by_cases hturn : InTurn s event
  · exact ((proceeds_step hs h).1 hturn).1
  · obtain ⟨r, hr, hne⟩ := (proceeds_step hs h).2 hturn
    exact (hne (ht r hr)).elim

theorem balanced_step_iff (s : System) (event : Event) (t : System) (hI : Inv s)
    (hs : Balanced s) (h : step s event = some t) : Balanced t ↔ InTurn s event := by
  have hstacked : AllStacked s := hI hs.returned
  constructor
  · intro ht
    by_contra hturn
    obtain ⟨r, hr, hne⟩ := (proceeds_step hstacked h).2 hturn
    exact hne (ht.returned r hr)
  · intro hturn
    obtain ⟨hall, rs, hreturns, hbalanced⟩ := (proceeds_step hstacked h).1 hturn
    refine ⟨fun r hr ↦ ?_, fun thread hidle ↦ ?_⟩
    · rw [hreturns] at hr
      rcases List.mem_append.mp hr with hr | hr
      · exact hs.returned r hr
      · exact hbalanced r hr
    · have hdepth := hall thread
      rw [hidle] at hdepth
      exact hdepth

theorem balanced_start : Balanced {} := by
  refine ⟨fun r hr ↦ (List.not_mem_nil hr).elim, fun thread _ ↦ rfl⟩

/-- **Exactly when the calls are balanced**, for any number of threads and any calls: when
`OnLoadToolProp` never finds the tool loaded already, and `rocprofiler_unload` never finds that it
is not. -/
theorem everywhere_balanced_iff {events : List Event} {s : System}
    (h : run step {} events = some s) :
    Everywhere step {} Balanced events ↔ Along step {} InTurn events :=
  everywhere_iff_along (fun _ _ ↦ rfl) inv_step balanced_start balanced_step_iff h

/-- The tool is loaded, a context is allocated, and the tool is unloaded. -/
def loadAndUnload : List Event :=
  [.enter 0 .onLoadToolProp, .step 0 false, .step 0 false, .step 0 false, .step 0 false,
    .step 0 false, .enter 1 .allocContextEntry, .step 1 false, .step 1 false, .step 1 false,
    .step 1 false, .step 1 false, .step 1 false, .enter 0 .onUnloadTool, .step 0 false,
    .step 0 false, .step 0 false, .step 0 false, .step 0 false, .step 0 false, .step 0 false]

/-- In such a run the condition decides. -/
theorem everywhere_balanced_iff_loadAndUnload :
    ∃ s, run step {} loadAndUnload = some s ∧ s.returns.length = 5 ∧
      (Everywhere step {} Balanced loadAndUnload ↔ Along step {} InTurn loadAndUnload) := by
  have h : run step {} loadAndUnload = some _ := rfl
  exact ⟨_, h, rfl, everywhere_balanced_iff h⟩

/-- `OnLoadToolProp` is called twice. -/
def loadTwice : List Event :=
  [.enter 0 .onLoadToolProp, .step 0 false, .step 0 false, .step 0 false, .step 0 false,
    .step 0 false, .enter 0 .onLoadToolProp, .step 0 false, .step 0 false]

/-- **The second call returns with the mutex held**, and from then on no other thread gets it. -/
theorem loaded_twice_keeps_mutex :
    ∃ s, run step {} loadTwice = some s ∧ s.frames 0 = [] ∧ s.mutex.depth 0 = 1 ∧
      s.mutex.lock 1 = none ∧ ¬Everywhere step {} Balanced loadTwice := by
  have h : run step {} loadTwice = some _ := rfl
  refine ⟨_, h, rfl, rfl, rfl, fun hE ↦ ?_⟩
  exact absurd ((hE loadTwice _ (List.prefix_refl _) h).idle 0 rfl) (by decide)

end Version1.Mutex
