import Mathlib.Data.List.Basic
import RocprofTool.Lib.InputStream
import RocprofTool.Lib.Loop
import RocprofTool.Version3.PeerBarrier

/-!
# The children of a process

The file `/proc/<pid>/task/<pid>/children` has the ids of the processes that the main thread of a
process has started, with a blank after each of them.  `wait_peer_finished` and the signal handler
read it with the same loop.

* `exists_readLoop`: the loop comes to an end, for any file.
* `readPids_eq` says what it takes from a text of numbers.  It takes a number only when the stream
  is still good after it, so that a number at the very end of the file is lost.
* `readPids_childrenFile`: nothing is lost of what the kernel writes, so that a process that waits
  for its peers has all of those that are listed (`getPeerPid_children`).
-/

set_option autoImplicit false

open CString Loop

namespace Version3.Children

/-! ## The loop -/

/-- The stream, and the ids that have been taken from it. -/
structure Reading where
  ifs : IStream
  pids : List ℤ := []
  deriving DecidableEq, Repr

/-- The condition of the loop. -/
def Reading.good (r : Reading) : Bool := !r.ifs.fail

/-- The body of the loop. -/
def readPid (r : Reading) : Reading :=
  let (val, ifs) := r.ifs.getInt 0
  { ifs, pids := if !ifs.fail && !ifs.eof && 0 < val then r.pids ++ [val] else r.pids }

/-- How many rounds there can be. -/
def Reading.rounds (r : Reading) : ℕ :=
  if r.ifs.fail then 0 else if r.ifs.eof then 1 else r.ifs.rest.length + 2

/-- The loop. -/
def readLoop (fuel : ℕ) (r : Reading) : Except (Halt Empty) Reading :=
  whileLoop Reading.good (fun r ↦ .ok (readPid r)) fuel r

/-- The lambda of both functions, with the file, which is `none` when it cannot be opened. -/
def readPids (file : Option (List Char)) : List ℤ :=
  let start : Reading := { ifs := { rest := file.getD [], fail := file.isNone } }
  match readLoop start.rounds start with
  | .ok r => r.pids
  | .error _ => []

/-- `get_peer_pid` of `wait_peer_finished`, with the file of the parent. -/
def getPeerPid (file : Option (List Char)) : List ℤ := readPids file

/-- `get_children` of `rocprofv3_error_signal_handler`, with the file of the process. -/
def getChildren (file : Option (List Char)) : List ℤ := readPids file

/-- What the kernel writes. -/
def childrenFile (pids : List ℕ) : List Char := pids.flatMap fun pid ↦ ofNat pid ++ [' ']

/-! ## The rounds -/

/-- The loop comes to an end with these ids. -/
def Ends (r : Reading) (pids : List ℤ) : Prop :=
  ∀ fuel, r.rounds ≤ fuel → ∃ t, readLoop fuel r = .ok t ∧ t.pids = pids

theorem rounds_readPid_lt {r : Reading} (h : r.good = true) : (readPid r).rounds < r.rounds := by
  have hgood : ¬r.ifs.fail = true := by simpa [Reading.good] using h
  have hifs : (readPid r).ifs = (r.ifs.getInt 0).2 := rfl
  rw [Reading.rounds, Reading.rounds, hifs, if_neg hgood]
  by_cases heof : r.ifs.eof = true
  · have hfail : (r.ifs.getInt 0).2.fail = true := by rw [IStream.fail_getInt_of_eof 0 heof]
    rw [if_pos hfail, if_pos heof]
    exact Nat.one_pos
  · rw [if_neg heof]
    rcases IStream.fail_or_length_getInt 0 r.ifs with hfail | hlt
    · rw [if_pos hfail]
      omega
    · by_cases hfail : (r.ifs.getInt 0).2.fail = true
      · rw [if_pos hfail]
        omega
      · rw [if_neg hfail]
        split_ifs <;> omega

/-- **The loop comes to an end** for every file, and with a stream that has failed. -/
theorem exists_readLoop (r : Reading) : ∃ t, readLoop r.rounds r = .ok t ∧ t.ifs.fail = true := by
  have hloop : ∃ t, readLoop r.rounds r = .ok t :=
    exists_whileLoop (fun _ _ ↦ rfl) (fun _ ↦ rounds_readPid_lt) (Nat.le_refl r.rounds)
  obtain ⟨t, ht⟩ := hloop
  exact ⟨t, ht, by simpa [Reading.good] using cond_of_whileLoop ht⟩

theorem Ends.round {r : Reading} {pids : List ℤ} (hgood : r.good = true)
    (h : Ends (readPid r) pids) : Ends r pids := by
  intro fuel hfuel
  have hlt := rounds_readPid_lt hgood
  obtain ⟨fuel, rfl⟩ := Nat.exists_eq_add_of_lt (Nat.zero_lt_of_lt hlt |>.trans_le hfuel)
  rw [Nat.zero_add] at hfuel ⊢
  have hround : readLoop (fuel + 1) r = readLoop fuel (readPid r) := by
    rw [readLoop, readLoop, whileLoop, if_pos hgood]
  rw [hround]
  exact h fuel (by omega)

theorem ends_of_fail {r : Reading} (hfail : r.ifs.fail = true) : Ends r r.pids := by
  intro fuel _
  exact ⟨r, whileLoop_of_not (by simp [Reading.good, hfail]) fuel, rfl⟩

/-- Nothing is left but blanks. -/
theorem ends_blank {blanks : List Char} (h : ∀ c ∈ blanks, isspace c = true) (pids : List ℤ) :
    Ends { ifs := { rest := blanks }, pids } pids := by
  refine .round rfl ?_
  have hread : readPid { ifs := { rest := blanks }, pids } = { ifs := ⟨[], true, true⟩, pids } := by
    simp [readPid, IStream.getInt_blank 0 h]
  rw [hread]
  exact ends_of_fail rfl

/-- **A number at the end of the text** is lost. -/
theorem ends_last {n : ℕ} (hn : n < 2 ^ 31) {blanks : List Char}
    (h : ∀ c ∈ blanks, isspace c = true) (pids : List ℤ) :
    Ends { ifs := { rest := blanks ++ ofNat n }, pids } pids := by
  refine .round rfl ?_
  have hget := IStream.getInt_ofNat 0 hn [] h (by simp)
  rw [List.append_nil] at hget
  have hread : readPid { ifs := { rest := blanks ++ ofNat n }, pids }
      = { ifs := ⟨[], true, false⟩, pids } := by
    simp [readPid, hget]
  rw [hread]
  refine .round rfl ?_
  have hread' : readPid { ifs := ⟨[], true, false⟩, pids } = { ifs := ⟨[], true, true⟩, pids } := by
    simp [readPid, IStream.fail_getInt_of_eof]
  rw [hread']
  exact ends_of_fail rfl

/-! ## A text of numbers -/

/-- A number, and what is white after it. -/
structure Item where
  number : ℕ
  blanks : List Char
  number_lt : number < 2 ^ 31
  blanks_ne_nil : blanks ≠ []
  isspace_blanks : ∀ c ∈ blanks, isspace c = true

def Item.text (item : Item) : List Char := ofNat item.number ++ item.blanks

/-- A number with one blank. -/
def item (number : ℕ) (blank : Char) (hnumber : number < 2 ^ 31) (hblank : isspace blank = true) :
    Item where
  number := number
  blanks := [blank]
  number_lt := hnumber
  blanks_ne_nil := List.cons_ne_nil _ _
  isspace_blanks c hc := by rwa [List.mem_singleton.mp hc]

/-- The ids among the numbers: zero is none. -/
def pidsOf (items : List Item) : List ℤ :=
  (items.filter (0 < ·.number)).map fun item ↦ (item.number : ℤ)

/-- **One number.** -/
theorem readPid_item (item : Item) {blanks tail : List Char}
    (h : ∀ c ∈ blanks, isspace c = true) (pids : List ℤ) :
    readPid { ifs := { rest := blanks ++ (item.text ++ tail) }, pids }
      = { ifs := { rest := item.blanks ++ tail }, pids := pids ++ pidsOf [item] } := by
  have hhead : ∀ c ∈ (item.blanks ++ tail).head?, c.isDigit = false := by
    intro c hc
    rcases hblanks : item.blanks with _ | ⟨d, ds⟩
    · exact absurd hblanks item.blanks_ne_nil
    · rw [hblanks, List.cons_append, List.head?_cons, Option.mem_some_iff] at hc
      subst hc
      by_contra hdigit
      rw [Bool.not_eq_false] at hdigit
      have hspace := item.isspace_blanks d (by rw [hblanks]; exact List.mem_cons_self)
      rw [(IStream.of_isDigit hdigit).1] at hspace
      cases hspace
  have hne : (item.blanks ++ tail).isEmpty = false := by
    simp [item.blanks_ne_nil]
  have hget := IStream.getInt_ofNat 0 item.number_lt _ h hhead
  rw [hne] at hget
  rw [Item.text, List.append_assoc, readPid, hget, pidsOf]
  by_cases hpos : 0 < item.number
  · simp [hpos]
  · simp [hpos]

/-- **What the loop takes** from numbers that are followed by blanks, whatever comes after them. -/
theorem ends_items (items : List Item) (tail : List Char) (taken : List ℤ) (blanks : List Char)
    (pids : List ℤ) (h : ∀ c ∈ blanks, isspace c = true)
    (htail : ∀ blanks pids, (∀ c ∈ blanks, isspace c = true) →
      Ends { ifs := { rest := blanks ++ tail }, pids } (pids ++ taken)) :
    Ends { ifs := { rest := blanks ++ (items.flatMap Item.text ++ tail) }, pids }
      (pids ++ (pidsOf items ++ taken)) := by
  induction items generalizing blanks pids with
  | nil => exact htail blanks pids h
  | cons item items ih =>
    refine .round rfl ?_
    rw [List.flatMap_cons, List.append_assoc, readPid_item item h]
    have hrest := ih item.blanks (pids ++ pidsOf [item]) item.isspace_blanks
    rw [List.append_assoc, ← List.append_assoc (pidsOf [item])] at hrest
    have hcons : pidsOf (item :: items) = pidsOf [item] ++ pidsOf items := by
      rw [pidsOf, pidsOf, pidsOf, ← List.map_append, ← List.filter_append]
      rfl
    rw [hcons]
    exact hrest

theorem readPids_of_ends {text : List Char} {pids : List ℤ}
    (h : Ends { ifs := { rest := text } } pids) : readPids (some text) = pids := by
  obtain ⟨t, ht, rfl⟩ := h _ (Nat.le_refl _)
  rw [readPids]
  simp only [Option.getD_some, Option.isNone_some, ht]

/-- **What the kernel writes is read back.** -/
theorem readPids_childrenFile {pids : List ℕ} (h : ∀ pid ∈ pids, 0 < pid ∧ pid < 2 ^ 31) :
    readPids (some (childrenFile pids)) = pids.map fun pid : ℕ ↦ (pid : ℤ) := by
  have hitems : ∃ items : List Item, items.flatMap Item.text = childrenFile pids ∧
      pidsOf items = pids.map fun pid : ℕ ↦ (pid : ℤ) := by
    induction pids with
    | nil => exact ⟨[], rfl, rfl⟩
    | cons pid pids ih =>
      obtain ⟨items, htext, hpids⟩ := ih fun p hp ↦ h p (List.mem_cons_of_mem _ hp)
      obtain ⟨hpos, hlt⟩ := h pid List.mem_cons_self
      have hspace : isspace ' ' = true := rfl
      refine ⟨item pid ' ' hlt hspace :: items, ?_, ?_⟩
      · rw [List.flatMap_cons, htext]
        rfl
      · rw [pidsOf, List.filter_cons_of_pos (by exact decide_eq_true hpos), List.map_cons, ← pidsOf,
          hpids]
        rfl
  obtain ⟨items, htext, hpids⟩ := hitems
  have hends := ends_items items [] [] [] [] (by simp) fun blanks pids hblanks ↦ by
    rw [List.append_nil, List.append_nil]
    exact ends_blank hblanks pids
  rw [List.nil_append, List.nil_append, List.append_nil, List.append_nil, htext, hpids] at hends
  exact readPids_of_ends hends

/-- **The peers that a process waits for** are those that it reads in the file of its parent; it
returns when there is only one of them. -/
theorem getPeerPid_children {s t : PeerBarrier.System} {pid : PeerBarrier.Pid} {peersPid : List ℤ}
    (hchildren : ∀ child ∈ s.children, 0 < child ∧ child < 2 ^ 31)
    (hpeers : getPeerPid (some (childrenFile s.children)) = peersPid)
    (h : PeerBarrier.step s (.getPeerPid pid) = some t) :
    t.procs pid = some .returned ∧ peersPid.length ≤ 1 ∨
      ∃ snapshot, t.procs pid = some (.readPeers snapshot) ∧ 1 < peersPid.length ∧
        peersPid = snapshot.map fun child : ℕ ↦ (child : ℤ) := by
  have hread : peersPid = s.children.map fun child : ℕ ↦ (child : ℤ) := by
    rw [← hpeers, getPeerPid, readPids_childrenFile hchildren]
  have hlength : peersPid.length = s.children.length := by rw [hread, List.length_map]
  obtain ⟨-, rfl⟩ := PeerBarrier.of_getPeerPid h
  rw [hlength]
  by_cases hone : s.children.length ≤ 1
  · rw [if_pos hone]
    exact .inl ⟨PeerBarrier.goTo_procs_self, hone⟩
  · rw [if_neg hone]
    exact .inr ⟨s.children, PeerBarrier.goTo_procs_self, Nat.not_le.mp hone, hread⟩

/-- **The ids that are read** from a text of numbers: those that have something white after them,
and zero is none.  One more number at the very end is lost. -/
theorem readPids_eq (blanks : List Char) (h : ∀ c ∈ blanks, isspace c = true)
    (items : List Item) (last : Option ℕ) (hlast : ∀ n ∈ last, n < 2 ^ 31) :
    readPids (some (blanks ++ (items.flatMap Item.text ++ (last.map ofNat).getD [])))
      = pidsOf items := by
  have htail : ∀ blanks pids, (∀ c ∈ blanks, isspace c = true) →
      Ends { ifs := { rest := blanks ++ (last.map ofNat).getD [] }, pids } (pids ++ []) := by
    intro blanks pids hblanks
    rw [List.append_nil]
    cases last with
    | none =>
      rw [Option.map_none, Option.getD_none, List.append_nil]
      exact ends_blank hblanks pids
    | some n => exact ends_last (hlast n rfl) hblanks pids
  have hends := ends_items items _ [] blanks [] h htail
  rw [List.nil_append, List.append_nil] at hends
  exact readPids_of_ends hends

/-- Three numbers in a text with a fourth one at its end; one of them is zero. -/
theorem readPids_eq_fourNumbers :
    readPids (some [' ', '1', '2', ' ', '0', ' ', '7', '\n', '3', '4']) = [12, 7] := by
  have hblank : ∀ c ∈ [' '], isspace c = true := by
    intro c hc
    rw [List.mem_singleton.mp hc]
    rfl
  have hlast : ∀ n ∈ some 34, n < 2 ^ 31 := by
    rintro n ⟨⟩
    decide
  exact readPids_eq [' '] hblank
    [item 12 ' ' (by decide) rfl, item 0 ' ' (by decide) rfl, item 7 '\n' (by decide) rfl]
    (some 34) hlast

end Version3.Children
