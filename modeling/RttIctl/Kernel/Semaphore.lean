import RttIctl.Kernel.Ipc
import RttIctl.Lib.StepSystem
import Mathlib.Algebra.Group.Nat.Defs

/-!
Owns the semaphore of `ipc.c`: `rt_sem_take`, `rt_sem_release`, the thread timer and
`rt_sem_control`, over any order of calls, with the count of what was taken and
released.

It does not own the scheduler, nor what the semaphore stands for.
-/

namespace RttIctl.Kernel

open Lib

/-- A thread suspended in `rt_sem_take`, and whether its timer runs. -/
structure SemWaiter where
  thread : Nat
  timed : Bool
  deriving DecidableEq, Repr

/-- The semaphore. `resumed` are the threads on their way out of `rt_sem_take`. Since
the last reset, when the value was `start`, `taken` takes and `released` releases have
succeeded, and `wrapped` of the latter found the value at its end. -/
structure Semaphore where
  value : Nat
  suspendThread : List SemWaiter
  resumed : List Nat
  start : Nat
  taken : Nat
  released : Nat
  wrapped : Nat
  deriving DecidableEq, Repr

/-- `rt_sem_init`. -/
def rtSemInit (value : Nat) : Semaphore :=
  { value := value % 2 ^ 16
    suspendThread := []
    resumed := []
    start := value % 2 ^ 16
    taken := 0
    released := 0
    wrapped := 0 }

namespace Semaphore

/-- `rt_sem_take` until it returns or the thread is suspended. -/
def rtSemTake (flag : IpcFlag) (priority : Nat → Nat) (sem : Semaphore) (thread : Nat)
    (time : Int) : Semaphore :=
  if 0 < sem.value then
    { sem with
      value := sem.value - 1
      taken := sem.taken + 1 }
  else if time = 0 then sem
  else
    { sem with
      suspendThread := rtIpcListSuspend SemWaiter.thread flag priority ⟨thread, 0 < time⟩
        sem.suspendThread }

/-- `rt_sem_release`; `value` has 16 bits. -/
def rtSemRelease (sem : Semaphore) : Semaphore :=
  match sem.suspendThread with
  | waiter :: rest =>
      { sem with
        suspendThread := rest
        resumed := sem.resumed ++ [waiter.thread]
        taken := sem.taken + 1
        released := sem.released + 1 }
  | [] =>
      { sem with
        value := (sem.value + 1) % 2 ^ 16
        released := sem.released + 1
        wrapped := if sem.value + 1 = 2 ^ 16 then sem.wrapped + 1 else sem.wrapped }

/-- The timer of a suspended thread runs out. -/
def expire (sem : Semaphore) (thread : Nat) : Option Semaphore :=
  if ∃ waiter ∈ sem.suspendThread, waiter.thread = thread ∧ waiter.timed = true then
    some { sem with
      suspendThread := sem.suspendThread.filter fun waiter => waiter.thread ≠ thread
      resumed := sem.resumed ++ [thread] }
  else none

/-- `rt_sem_control` with `RT_IPC_CMD_RESET`. -/
def reset (sem : Semaphore) (value : Nat) : Semaphore :=
  { sem with
    value := value % 2 ^ 16
    suspendThread := []
    resumed := sem.resumed ++ sem.suspendThread.map SemWaiter.thread
    start := value % 2 ^ 16
    taken := 0
    released := 0
    wrapped := 0 }

/-- The thread does not run inside a call. -/
def isOutside (sem : Semaphore) (thread : Nat) : Bool :=
  sem.suspendThread.all (fun waiter => waiter.thread ≠ thread) && sem.resumed.all (· ≠ thread)

end Semaphore

/-- Any context may release; an interrupt takes with a time of 0. -/
inductive SemCall where
  | take (priority : Nat → Nat) (thread : Nat) (time : Int)
  | release
  | returns (thread : Nat)
  | expires (thread : Nat)
  | reset (value : Nat)

/-- One section with interrupts disabled. -/
def semStep (flag : IpcFlag) (sem : Semaphore) : SemCall → Option Semaphore
  | .take priority thread time =>
      if sem.isOutside thread then some (sem.rtSemTake flag priority thread time) else none
  | .release => some sem.rtSemRelease
  | .returns thread =>
      if thread ∈ sem.resumed then some { sem with resumed := sem.resumed.erase thread } else none
  | .expires thread => sem.expire thread
  | .reset value => some (sem.reset value)

/-- From `rt_sem_init` on. -/
def semaphores (flag : IpcFlag) (value : Nat) : StepSystem Semaphore SemCall :=
  ⟨rtSemInit value, semStep flag⟩

namespace Semaphore

/-! ### What a call keeps -/

variable {sem sem' : Semaphore} {flag : IpcFlag}

/-- Nobody waits while there is something to take, and every take and release is
accounted for, up to the values that were lost when the count wrapped. -/
structure Sound (sem : Semaphore) : Prop where
  small : sem.value < 2 ^ 16
  waits : sem.suspendThread ≠ [] → sem.value = 0
  account : sem.value + sem.taken + 2 ^ 16 * sem.wrapped = sem.start + sem.released

theorem Sound.rtSemTake (sound : sem.Sound) (priority : Nat → Nat) (thread : Nat) (time : Int) :
    (sem.rtSemTake flag priority thread time).Sound := by
  obtain ⟨small, waits, account⟩ := sound
  unfold Semaphore.rtSemTake
  split
  · next available =>
      refine ⟨?_, fun some => ?_, ?_⟩
      · show sem.value - 1 < 2 ^ 16
        omega
      · exact absurd (waits some) (Nat.ne_of_gt available)
      · show sem.value - 1 + (sem.taken + 1) + 2 ^ 16 * sem.wrapped = sem.start + sem.released
        omega
  · next empty =>
      have zero : sem.value = 0 := by omega
      split
      · exact ⟨small, waits, account⟩
      · exact ⟨small, fun _ => zero, account⟩

/-- A release goes to the first thread that waits, or to the value. -/
theorem Sound.rtSemRelease (sound : sem.Sound) : sem.rtSemRelease.Sound := by
  obtain ⟨small, waits, account⟩ := sound
  unfold Semaphore.rtSemRelease
  split
  · next waiter rest isList =>
      have zero : sem.value = 0 := waits (isList ▸ List.cons_ne_nil waiter rest)
      refine ⟨small, fun _ => zero, ?_⟩
      show sem.value + (sem.taken + 1) + 2 ^ 16 * sem.wrapped = sem.start + (sem.released + 1)
      omega
  · next isList =>
      refine ⟨Nat.mod_lt _ (by decide), fun some => absurd isList some, ?_⟩
      show (sem.value + 1) % 2 ^ 16 + sem.taken +
        2 ^ 16 * (if sem.value + 1 = 2 ^ 16 then sem.wrapped + 1 else sem.wrapped) =
          sem.start + (sem.released + 1)
      split
      · omega
      · omega

theorem Sound.step (sound : sem.Sound) {call : SemCall}
    (taken : semStep flag sem call = some sem') : sem'.Sound := by
  cases call with
  | take priority thread time =>
      rw [semStep] at taken
      split at taken
      · cases taken
        exact sound.rtSemTake priority thread time
      · cases taken
  | release =>
      cases taken
      exact sound.rtSemRelease
  | returns thread =>
      rw [semStep] at taken
      split at taken
      · cases taken
        exact ⟨sound.small, sound.waits, sound.account⟩
      · cases taken
  | expires thread =>
      rw [semStep, Semaphore.expire] at taken
      split at taken
      · cases taken
        refine ⟨sound.small, fun some => sound.waits fun none => some ?_, sound.account⟩
        rw [none]
        rfl
      · cases taken
  | reset value =>
      cases taken
      exact ⟨Nat.mod_lt _ (by decide), fun some => absurd rfl some, rfl⟩

end Semaphore

/-! ### Any order of calls -/

section Runs

variable {flag : IpcFlag} {value : Nat} {sem : Semaphore}

theorem semaphore_sound (reachable : (semaphores flag value).Reachable sem) : sem.Sound := by
  apply reachable.invariant Semaphore.Sound
  · exact ⟨Nat.mod_lt _ (by decide), fun some => absurd rfl some, rfl⟩
  · exact fun _ _ _ sound _ taken => sound.step taken

/-- One permit; the second thread waits, the third is refused, then two releases. -/
def onePermit : List SemCall :=
  let priority := fun thread => thread
  [.take priority 1 0, .take priority 2 (-1), .take priority 3 0, .release, .release]

/-- No wake-up is lost: nobody waits while there is something to take. -/
theorem semaphore_no_lost_wakeup (reachable : (semaphores flag value).Reachable sem)
    (waiting : sem.suspendThread ≠ []) : sem.value = 0 :=
  (semaphore_sound reachable).waits waiting

theorem semaphore_no_lost_wakeup_run :
    ((semaphores .fifo 1).run (onePermit.take 3)).suspendThread = [⟨2, false⟩] ∧
      ((semaphores .fifo 1).run (onePermit.take 3)).value = 0 := by
  have waits : ((semaphores .fifo 1).run (onePermit.take 3)).suspendThread = [⟨2, false⟩] := by
    decide
  refine ⟨waits, semaphore_no_lost_wakeup
    ((semaphores .fifo 1).run_reachable (onePermit.take 3)) ?_⟩
  rw [waits]
  exact List.cons_ne_nil _ _

/-- Since the last reset, what was there and what was released is what was taken, what
is left and 2^16 for each release that found the value at its end. -/
theorem semaphore_account (reachable : (semaphores flag value).Reachable sem) :
    sem.start + sem.released = sem.taken + sem.value + 2 ^ 16 * sem.wrapped := by
  have account := (semaphore_sound reachable).account
  omega

theorem semaphore_account_run :
    ((semaphores .fifo 1).run onePermit).taken = 2 ∧
      ((semaphores .fifo 1).run onePermit).start + ((semaphores .fifo 1).run onePermit).released =
        2 + ((semaphores .fifo 1).run onePermit).value := by
  have taken : ((semaphores .fifo 1).run onePermit).taken = 2 := by decide
  have wrapped : ((semaphores .fifo 1).run onePermit).wrapped = 0 := by decide
  have account := semaphore_account ((semaphores .fifo 1).run_reachable onePermit)
  rw [taken, wrapped] at account
  exact ⟨taken, account⟩

end Runs

end RttIctl.Kernel
