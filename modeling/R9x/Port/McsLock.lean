import Mathlib.Algebra.Ring.Nat
import Mathlib.Logic.Function.Basic

/-!
# The MCS lock

`port/src/mcslock.rs`: each call of `lock` brings a node, which stands in a queue from the swap on
the tail until the call of `unlock` has finished.
-/

namespace R9x.Port.McsLock

open Function (update)

/-- Where a call is. Every phase but `idle`, `returning` and `held` is named after the access that
comes next. -/
inductive Phase (Node : Type) where
  | idle
  | storeNext
  | storeUnlocked
  | swap
  | storeLocked (predecessor : Node)
  | storeSuccessor (predecessor : Node)
  | spinLocked
  | returning
  | held
  | loadNext
  | compareExchange
  | spinNext
  | reloadNext
  | storeReleased (successor : Node)
  deriving DecidableEq

/-- The queue of one lock and the nodes: `MCSLock` and `LockNode`. -/
structure Mcs (Node : Type) where
  queue : Option Node
  next : Node → Option Node
  locked : Node → Bool
  phase : Node → Phase Node

/-- What a step may report. -/
inductive Event (Node : Type) where
  | swapped (node : Node) (predecessor : Option Node)
  | granted (node : Node)
  | released (node successor : Node)
  | vacated (node : Node)
  deriving DecidableEq

variable {Core Node : Type} [DecidableEq Core] [DecidableEq Node]

namespace Mcs

/-- Move a call to another phase. -/
def goto (mcs : Mcs Node) (node : Node) (phase : Phase Node) : Mcs Node :=
  { mcs with phase := update mcs.phase node phase }

/-- A store to `next`. -/
def setNext (mcs : Mcs Node) (node : Node) (value : Option Node) : Mcs Node :=
  { mcs with next := update mcs.next node value }

/-- A store to `locked`. -/
def setLocked (mcs : Mcs Node) (node : Node) (value : Bool) : Mcs Node :=
  { mcs with locked := update mcs.locked node value }

/-- The next access of a call. A weak `compare_exchange` may fail for no reason. A load of a null
`next` that is then followed has no successor state. -/
def advance (mcs : Mcs Node) (node : Node) (spurious : Bool) :
    Option (Mcs Node × Option (Event Node)) :=
  match mcs.phase node with
  | .idle => none
  | .storeNext => some ((mcs.setNext node none).goto node .storeUnlocked, none)
  | .storeUnlocked => some ((mcs.setLocked node false).goto node .swap, none)
  | .swap =>
    let phase := match mcs.queue with
      | none => .returning
      | some predecessor => .storeLocked predecessor
    some ({ mcs with queue := some node }.goto node phase, some (.swapped node mcs.queue))
  | .storeLocked predecessor =>
    some ((mcs.setLocked node true).goto node (.storeSuccessor predecessor), none)
  | .storeSuccessor predecessor =>
      some ((mcs.setNext predecessor (some node)).goto node .spinLocked, none)
  | .spinLocked => some (if mcs.locked node then mcs else mcs.goto node .returning, none)
  | .returning => some (mcs.goto node .held, some (.granted node))
  | .held => none
  | .loadNext =>
    some (mcs.goto node (if mcs.next node = none then .compareExchange else .reloadNext), none)
  | .compareExchange =>
    if mcs.queue = some node ∧ spurious = false then
      some ({ mcs with queue := none }.goto node .idle, some (.vacated node))
    else some (mcs.goto node .spinNext, none)
  | .spinNext => some (if mcs.next node = none then mcs else mcs.goto node .reloadNext, none)
  | .reloadNext =>
    match mcs.next node with
    | none => none
    | some successor => some (mcs.goto node (.storeReleased successor), none)
  | .storeReleased successor =>
    some ((mcs.setLocked successor false).goto node .idle, some (.released node successor))

end Mcs

/-- What has happened to the lock. A call has the number of swaps before its own as its ticket. -/
structure History (Node : Type) where
  swaps : List (Node × Option Node)
  ticket : Node → Nat
  granted : List Nat
  released : List (Nat × Nat)
  finished : Nat

def History.add (history : History Node) : Option (Event Node) → History Node
  | none => history
  | some (.swapped node predecessor) =>
    { history with swaps := history.swaps ++ [(node, predecessor)],
                   ticket := update history.ticket node history.swaps.length }
  | some (.granted node) => { history with granted := history.granted ++ [history.ticket node] }
  | some (.released node successor) =>
    { history with released := history.released ++
      [(history.ticket node, history.ticket successor)],
                   finished := history.finished + 1 }
  | some (.vacated _) => { history with finished := history.finished + 1 }

/-- The cores that use the lock. -/
structure System (Core Node : Type) where
  mcs : Mcs Node
  call : Core → Option Node
  history : History Node

/-- What a core does. -/
inductive Action (Node : Type) where
  | lock (node : Node)
  | unlock
  | access (spurious : Bool)
  deriving DecidableEq

/-- One step of one core. It calls `lock` outside any call and with a node that no call uses. -/
def System.step (system : System Core Node) (label : Core × Action Node) :
    Option (System Core Node) :=
  match label.2, system.call label.1 with
  | .lock node, none =>
    if system.mcs.phase node = .idle then
      some { system with mcs := system.mcs.goto node .storeNext,
                         call := update system.call label.1 (some node) }
    else none
  | .unlock, some node =>
    if system.mcs.phase node = .held then some { system with mcs := system.mcs.goto node .loadNext }
    else none
  | .access spurious, some node =>
    (system.mcs.advance node spurious).map fun (mcs, event) =>
      { mcs := mcs, call := if mcs.phase node = .idle then update system.call label.1 none
        else system.call,
        history := system.history.add event }
  | _, _ => none

/-- A new lock. The nodes may hold anything. -/
def System.start (next : Node → Option Node) (locked : Node → Bool) : System Core Node where
  mcs :=
  ⟨none, next, locked, fun _ => .idle⟩
  call := fun _ => none
  history := ⟨[], fun _ => 0, [], [], 0⟩

end R9x.Port.McsLock
