import RttIctl.Lib.WaitList

/-!
Owns how a thread joins the list of threads suspended on an object of `ipc.c`.

It does not own the objects, nor what suspending a thread does to the scheduler.
-/

namespace RttIctl.Kernel

open Lib

universe u

/-- `RT_IPC_FLAG_FIFO` and `RT_IPC_FLAG_PRIO`. -/
inductive IpcFlag where
  | fifo
  | prio
  deriving DecidableEq, Repr

variable {ω : Type u}

/-- `rt_ipc_list_suspend`, with the priorities the threads have at the time. -/
def rtIpcListSuspend (thread : ω → Nat) (flag : IpcFlag) (priority : Nat → Nat) (waiter : ω)
    (list : List ω) : List ω :=
  match flag with
  | .fifo => list ++ [waiter]
  | .prio =>
      insertAhead (fun other => priority (thread waiter) < priority (thread other)) waiter list

theorem rtIpcListSuspend_perm (thread : ω → Nat) (flag : IpcFlag) (priority : Nat → Nat)
    (waiter : ω) (list : List ω) :
    (rtIpcListSuspend thread flag priority waiter list).Perm (waiter :: list) := by
  cases flag with
  | fifo => exact List.perm_append_singleton waiter list
  | prio => exact insertAhead_perm _ waiter list

end RttIctl.Kernel
