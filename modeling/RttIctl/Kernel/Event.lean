import RttIctl.Kernel.Ipc
import RttIctl.Lib.StepSystem

/-!
Owns the event object of `ipc.c`: `rt_event_send`, `rt_event_recv` up to the
suspension of the thread, the thread timer and `rt_event_control`, each a section
with interrupts disabled, over any order of calls. It follows who waits, who was
handed which flags, and what was ever posted.

It does not own the scheduler: a thread that was resumed returns at some time.
-/

namespace RttIctl.Kernel

open Lib

def eventFlagAnd : BitVec 8 := 0x01
def eventFlagOr : BitVec 8 := 0x02
def eventFlagClear : BitVec 8 := 0x04

/-- A suspended thread with its `event_set` and `event_info`, and whether its timer
runs. -/
structure EventWaiter where
  thread : Nat
  eventSet : BitVec 32
  eventInfo : BitVec 8
  timed : Bool
  deriving DecidableEq, Repr

/-- What a call of `rt_event_recv` was handed. -/
structure EventReceipt where
  thread : Nat
  asked : BitVec 32
  option : BitVec 8
  received : BitVec 32
  deriving DecidableEq, Repr

/-- The event object. `resumed` are the threads that were suspended and are on their
way out of `rt_event_recv`; `received` and `posted` record all receipts and all sets
sent. -/
structure EventObject where
  set : BitVec 32
  suspendThread : List EventWaiter
  resumed : List Nat
  received : List EventReceipt
  posted : List (BitVec 32)
  deriving Repr

/-- The test of `rt_event_recv`, made again by `rt_event_send` for each waiter. -/
def eventStatus (set eventSet : BitVec 32) (option : BitVec 8) : Bool :=
  if option &&& eventFlagAnd ≠ 0 then eventSet &&& set = eventSet
  else if option &&& eventFlagOr ≠ 0 then eventSet &&& set ≠ 0
  else false

/-- The flags that are left after a receipt. -/
def eventClear (set received : BitVec 32) (option : BitVec 8) : BitVec 32 :=
  if option &&& eventFlagClear ≠ 0 then set &&& ~~~received else set

/-- One pass of the loop of `rt_event_send`: an OR event saves the flags that are
there. -/
def eventGrant (set : BitVec 32) (waiter : EventWaiter) :
    Option (BitVec 32 × EventReceipt) :=
  if eventStatus set waiter.eventSet waiter.eventInfo then
    let eventSet :=
      if waiter.eventInfo &&& eventFlagAnd ≠ 0 then waiter.eventSet else waiter.eventSet &&& set
    some (eventClear set eventSet waiter.eventInfo,
      ⟨waiter.thread, waiter.eventSet, waiter.eventInfo, eventSet⟩)
  else none

namespace EventObject

def rtEventSend (event : EventObject) (set : BitVec 32) : EventObject :=
  if set = 0 then event
  else
    let served := serve eventGrant (event.set ||| set) event.suspendThread
    { set := served.1
      suspendThread := served.2.2
      resumed := event.resumed ++ served.2.1.map EventReceipt.thread
      received := event.received ++ served.2.1
      posted := event.posted ++ [set] }

/-- `rt_event_recv` until it returns or the thread is suspended. It asserts that the
option is an AND or an OR. -/
def rtEventRecv (flag : IpcFlag) (priority : Nat → Nat) (event : EventObject) (thread : Nat)
    (set : BitVec 32) (option : BitVec 8) (timeout : Int) : Option EventObject :=
  if set = 0 then some event
  else if option &&& eventFlagAnd = 0 ∧ option &&& eventFlagOr = 0 then none
  else if eventStatus event.set set option then
    some { event with
      -- `event->set &= ~set` clears the flags asked for, received or not
      set := eventClear event.set set option
      received := event.received ++ [⟨thread, set, option, event.set &&& set⟩] }
  else if timeout = 0 then some event
  else
    some { event with
      suspendThread := rtIpcListSuspend EventWaiter.thread flag priority
        ⟨thread, set, option, 0 < timeout⟩ event.suspendThread }

/-- The timer of a suspended thread runs out. -/
def expire (event : EventObject) (thread : Nat) : Option EventObject :=
  if ∃ waiter ∈ event.suspendThread, waiter.thread = thread ∧ waiter.timed = true then
    some { event with
      suspendThread := event.suspendThread.filter fun waiter => waiter.thread ≠ thread
      resumed := event.resumed ++ [thread] }
  else none

/-- `rt_event_control` with `RT_IPC_CMD_RESET`. -/
def reset (event : EventObject) : EventObject :=
  { event with
    set := 0
    suspendThread := []
    resumed := event.resumed ++ event.suspendThread.map EventWaiter.thread }

/-- The thread does not run inside a call. -/
def isOutside (event : EventObject) (thread : Nat) : Bool :=
  event.suspendThread.all (fun waiter => waiter.thread ≠ thread) &&
    event.resumed.all (· ≠ thread)

end EventObject

inductive EventCall where
  | send (set : BitVec 32)
  | recv (priority : Nat → Nat) (thread : Nat) (set : BitVec 32) (option : BitVec 8)
      (timeout : Int)
  | returns (thread : Nat)
  | expires (thread : Nat)
  | reset

/-- One section with interrupts disabled. Any context may send; a thread calls
`rt_event_recv` when it is not inside it. -/
def eventStep (flag : IpcFlag) (event : EventObject) : EventCall → Option EventObject
  | .send set => some (event.rtEventSend set)
  | .recv priority thread set option timeout =>
      if event.isOutside thread then
        event.rtEventRecv flag priority thread set option timeout
      else none
  | .returns thread =>
      if thread ∈ event.resumed then
        some { event with resumed := event.resumed.erase thread }
      else none
  | .expires thread => event.expire thread
  | .reset => some event.reset

/-- From `rt_event_init` on. -/
def eventSystem (flag : IpcFlag) : StepSystem EventObject EventCall :=
  ⟨⟨0, [], [], [], []⟩, eventStep flag⟩

/-! ### Flags bit by bit -/

variable {set left eventSet : BitVec 32} {option : BitVec 8}

theorem bits_of_ne_zero (nonzero : set ≠ 0) : ∃ b, set.getLsbD b = true := by
  by_contra none
  apply nonzero
  apply BitVec.eq_of_getLsbD_eq
  intro b _
  have unset : set.getLsbD b = false := Bool.eq_false_iff.mpr fun isSet => none ⟨b, isSet⟩
  simp [unset]

theorem ne_zero_of_bit {b : Nat} (isSet : set.getLsbD b = true) : set ≠ 0 := by
  rintro rfl
  simp at isSet

/-- A status that holds with fewer flags holds with more. -/
theorem eventStatus_mono (fewer : ∀ b, left.getLsbD b = true → set.getLsbD b = true)
    (status : eventStatus left eventSet option = true) :
    eventStatus set eventSet option = true := by
  unfold eventStatus at status ⊢
  split at status
  · rw [if_pos ‹_›]
    have all := of_decide_eq_true status
    apply decide_eq_true
    apply BitVec.eq_of_getLsbD_eq
    intro b _
    rw [BitVec.getLsbD_and]
    cases isAsked : eventSet.getLsbD b with
    | false => rfl
    | true =>
        have isLeft := congrArg (fun bits => bits.getLsbD b) all
        simp only [BitVec.getLsbD_and, isAsked, Bool.true_and] at isLeft
        rw [fewer b isLeft]
        rfl
  · rw [if_neg ‹_›]
    split at status
    · rw [if_pos ‹_›]
      obtain ⟨b, isSet⟩ := bits_of_ne_zero (of_decide_eq_true status)
      rw [BitVec.getLsbD_and, Bool.and_eq_true] at isSet
      apply decide_eq_true
      apply ne_zero_of_bit (b := b)
      rw [BitVec.getLsbD_and, isSet.1, fewer b isSet.2]
      rfl
    · cases status

theorem eventClear_le (received : BitVec 32) {b : Nat}
    (isSet : (eventClear set received option).getLsbD b = true) : set.getLsbD b = true := by
  unfold eventClear at isSet
  split at isSet
  · rw [BitVec.getLsbD_and, Bool.and_eq_true] at isSet
    exact isSet.1
  · exact isSet

/-- A receipt that clears takes its flags away. -/
theorem eventClear_taken {received : BitVec 32} {b : Nat}
    (clears : option &&& eventFlagClear ≠ 0) (isReceived : received.getLsbD b = true) :
    (eventClear set received option).getLsbD b = false := by
  rw [eventClear, if_pos clears, BitVec.getLsbD_and, BitVec.getLsbD_not, isReceived]
  simp

/-- Clearing all flags asked for clears no flag that is there and was not received. -/
theorem eventClear_asked :
    eventClear set eventSet option = eventClear set (set &&& eventSet) option := by
  unfold eventClear
  split
  · apply BitVec.eq_of_getLsbD_eq
    intro b inside
    simp only [BitVec.getLsbD_and, BitVec.getLsbD_not, inside, decide_true, Bool.true_and]
    cases set.getLsbD b with
    | false => rfl
    | true => rfl
  · rfl

/-! ### What one receipt hands over -/

variable {waiter other : EventWaiter} {receipt : EventReceipt}

/-- What is true of the flags of a receipt out of `set`. -/
structure Granted (set left : BitVec 32) (waiter : EventWaiter) (receipt : EventReceipt) :
    Prop where
  left_eq : left = eventClear set receipt.received receipt.option
  asked_eq : receipt.asked = waiter.eventSet
  option_eq : receipt.option = waiter.eventInfo
  there : ∀ b, receipt.received.getLsbD b = true → set.getLsbD b = true
  asked : ∀ b, receipt.received.getLsbD b = true → receipt.asked.getLsbD b = true
  whole : receipt.option &&& eventFlagAnd ≠ 0 → receipt.received = receipt.asked
  some_of_asked : waiter.eventSet ≠ 0 → receipt.received ≠ 0

theorem eventGrant_eq_none_iff :
    eventGrant set waiter = none ↔
      eventStatus set waiter.eventSet waiter.eventInfo = false := by
  unfold eventGrant
  cases eventStatus set waiter.eventSet waiter.eventInfo <;> simp

theorem eventGrant_granted (given : eventGrant set waiter = some (left, receipt)) :
    Granted set left waiter receipt := by
  unfold eventGrant at given
  split at given
  · next status =>
      obtain ⟨rfl, rfl⟩ := Prod.mk.inj (Option.some.inj given)
      unfold eventStatus at status
      split at status
      · next isAnd =>
          have all := of_decide_eq_true status
          rw [if_pos isAnd]
          refine ⟨rfl, rfl, rfl, fun b isSet => ?_, fun b isSet => isSet, fun _ => rfl, id⟩
          have both : (waiter.eventSet &&& set).getLsbD b = true := all.symm ▸ isSet
          rw [BitVec.getLsbD_and, Bool.and_eq_true] at both
          exact both.2
      · next notAnd =>
          rw [if_neg notAnd]
          split at status
          · refine ⟨rfl, rfl, rfl, fun b isSet => ?_, fun b isSet => ?_,
              fun isAnd => absurd isAnd notAnd, fun _ => of_decide_eq_true status⟩
            · rw [BitVec.getLsbD_and, Bool.and_eq_true] at isSet
              exact isSet.2
            · rw [BitVec.getLsbD_and, Bool.and_eq_true] at isSet
              exact isSet.1
          · cases status
  · cases given

/-- A receiver that finds its flags gets what a waiter with the same request gets. -/
theorem eventGrant_of_status (status : eventStatus set waiter.eventSet waiter.eventInfo = true) :
    eventGrant set waiter =
      some (eventClear set waiter.eventSet waiter.eventInfo,
        ⟨waiter.thread, waiter.eventSet, waiter.eventInfo, set &&& waiter.eventSet⟩) := by
  rw [eventGrant, if_pos status]
  split
  · next isAnd =>
      rw [eventStatus, if_pos isAnd] at status
      rw [BitVec.and_comm set, of_decide_eq_true status]
  · rw [eventClear_asked, BitVec.and_comm set]

/-- A receipt never makes a flag, so whoever could not be served before it cannot be
served after it. -/
theorem eventGrant_antitone (set : BitVec 32) (waiter : EventWaiter) (left : BitVec 32)
    (receipt : EventReceipt) (other : EventWaiter)
    (given : eventGrant set waiter = some (left, receipt)) (refused : eventGrant set other = none) :
    eventGrant left other = none := by
  have granted := eventGrant_granted given
  rw [eventGrant_eq_none_iff, ← Bool.not_eq_true] at refused ⊢
  rw [granted.left_eq]
  exact mt (eventStatus_mono fun b => eventClear_le receipt.received) refused

end RttIctl.Kernel
