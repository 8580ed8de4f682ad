import RttIctl.Kernel.Ipc
import RttIctl.Lib.StepSystem
import Mathlib.Algebra.Group.Nat.Defs

/-!
Owns the mutex of `ipc.c`: `rt_mutex_take` with the priority it lends to the owner,
`rt_mutex_release` with the hand-over to the first thread that waits, and the thread
timer, over any order of calls by threads whose priorities nothing else changes.

It does not own the scheduler, nor what priorities are for.
-/

namespace RttIctl.Kernel

open Lib

/-- A thread suspended in `rt_mutex_take`, and whether its timer runs. -/
structure MutexWaiter where
  thread : Nat
  timed : Bool
  deriving DecidableEq, Repr

/-- The mutex with the `current_priority` of all threads. `resumed` are the threads on
their way out of `rt_mutex_take`; `depth` records for each thread how many more takes
than releases have succeeded. -/
structure Mutex where
  value : Nat
  originalPriority : Nat
  hold : Nat
  owner : Option Nat
  suspendThread : List MutexWaiter
  currentPriority : Nat → Nat
  resumed : List Nat
  depth : Nat → Nat

/-- `rt_mutex_init`, with the priorities the threads start out with. -/
def rtMutexInit (initPriority : Nat → Nat) : Mutex :=
  { value := 1
    originalPriority := 0xFF
    hold := 0
    owner := none
    suspendThread := []
    currentPriority := initPriority
    resumed := []
    depth := fun _ => 0 }

namespace Mutex

/-- The priorities after a thread has come to wait: the owner's is raised to its. -/
def lent (mutex : Mutex) (thread : Nat) : Nat → Nat :=
  match mutex.owner with
  | some owner =>
      if mutex.currentPriority thread < mutex.currentPriority owner then
        Function.update mutex.currentPriority owner (mutex.currentPriority thread)
      else mutex.currentPriority
  | none => mutex.currentPriority

/-- `rt_mutex_take` until it returns or the thread is suspended. -/
def rtMutexTake (flag : IpcFlag) (mutex : Mutex) (thread : Nat) (time : Int) : Mutex :=
  if mutex.owner = some thread then
    { mutex with
      hold := (mutex.hold + 1) % 2 ^ 8
      depth := Function.update mutex.depth thread (mutex.depth thread + 1) }
  else if 0 < mutex.value then
    { mutex with
      value := mutex.value - 1
      owner := some thread
      originalPriority := mutex.currentPriority thread
      hold := (mutex.hold + 1) % 2 ^ 8
      depth := Function.update mutex.depth thread (mutex.depth thread + 1) }
  else if time = 0 then mutex
  else
    { mutex with
      currentPriority := mutex.lent thread
      suspendThread := rtIpcListSuspend MutexWaiter.thread flag (mutex.lent thread)
        ⟨thread, 0 < time⟩ mutex.suspendThread }

/-- The end of `rt_mutex_release` when nothing is held any more: the priority goes
back, and the mutex to the first thread that waits. -/
def handOver (mutex : Mutex) (thread : Nat) : Mutex :=
  let priority :=
    if mutex.originalPriority ≠ mutex.currentPriority thread then
      Function.update mutex.currentPriority thread mutex.originalPriority
    else mutex.currentPriority
  match mutex.suspendThread with
  | waiter :: rest =>
      { mutex with
        owner := some waiter.thread
        originalPriority := priority waiter.thread
        hold := (mutex.hold + 1) % 2 ^ 8
        currentPriority := priority
        suspendThread := rest
        resumed := mutex.resumed ++ [waiter.thread]
        depth := Function.update mutex.depth waiter.thread (mutex.depth waiter.thread + 1) }
  | [] =>
      { mutex with
        value := (mutex.value + 1) % 2 ^ 16
        owner := none
        originalPriority := 0xFF
        currentPriority := priority }

/-- `rt_mutex_release`; `hold` has 8 bits. -/
def rtMutexRelease (mutex : Mutex) (thread : Nat) : Mutex :=
  if mutex.owner ≠ some thread then mutex
  else
    let less :=
      { mutex with
        hold := (mutex.hold + 2 ^ 8 - 1) % 2 ^ 8
        depth := Function.update mutex.depth thread (mutex.depth thread - 1) }
    if less.hold = 0 then less.handOver thread else less

/-- The timer of a suspended thread runs out. -/
def expire (mutex : Mutex) (thread : Nat) : Option Mutex :=
  if ∃ waiter ∈ mutex.suspendThread, waiter.thread = thread ∧ waiter.timed = true then
    some { mutex with
      suspendThread := mutex.suspendThread.filter fun waiter => waiter.thread ≠ thread
      resumed := mutex.resumed ++ [thread] }
  else none

/-- The thread does not run inside a call. -/
def isOutside (mutex : Mutex) (thread : Nat) : Bool :=
  mutex.suspendThread.all (fun waiter => waiter.thread ≠ thread) &&
    mutex.resumed.all (· ≠ thread)

end Mutex

inductive MutexCall where
  | take (thread : Nat) (time : Int)
  | release (thread : Nat)
  | returns (thread : Nat)
  | expires (thread : Nat)
  deriving DecidableEq, Repr

/-- One section with interrupts disabled. -/
def mutexStep (flag : IpcFlag) (mutex : Mutex) : MutexCall → Option Mutex
  | .take thread time =>
      if mutex.isOutside thread then some (mutex.rtMutexTake flag thread time) else none
  | .release thread =>
      if mutex.isOutside thread then some (mutex.rtMutexRelease thread) else none
  | .returns thread =>
      if thread ∈ mutex.resumed then
        some { mutex with resumed := mutex.resumed.erase thread }
      else none
  | .expires thread => mutex.expire thread

/-- From `rt_mutex_init` on. -/
def mutexes (flag : IpcFlag) (initPriority : Nat → Nat) : StepSystem Mutex MutexCall :=
  ⟨rtMutexInit initPriority, mutexStep flag⟩

end RttIctl.Kernel
