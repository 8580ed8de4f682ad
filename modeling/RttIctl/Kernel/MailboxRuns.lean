import RttIctl.Kernel.Mailbox

/-!
Owns what holds of a mailbox after any order of calls: mails arrive in the order they
were sent, none twice and none left out, the offsets stay in the pool, and a thread
stays suspended only while enough resumed threads are there to take what it waits for.

It does not own that a resumed thread goes on.
-/

namespace RttIctl.Kernel

open Lib

namespace Mailbox

variable {mb : Mailbox} {flag : IpcFlag} {priority : Nat → Nat}

/-! ### The pool as a queue -/

/-- The mails in the pool, the oldest first. -/
def contents (mb : Mailbox) : List (BitVec 32) :=
  ringContents mb.msgPool mb.size mb.outOffset mb.entry

/-- The pool holds what was sent and not received, from `out_offset` to
`in_offset`. -/
structure InOrder (mb : Mailbox) : Prop where
  small : mb.size < 2 ^ 16
  fits : mb.entry ≤ mb.size
  out : 0 < mb.size → mb.outOffset < mb.size
  behind : mb.inOffset = (mb.outOffset + mb.entry) % mb.size
  order : mb.received ++ mb.contents = mb.sent

theorem nextOffset_eq {size offset : Nat} (small : size < 2 ^ 16) (inside : offset < size) :
    nextOffset size offset = (offset + 1) % size := by
  rw [nextOffset, Nat.mod_eq_of_lt (by omega), next_index_eq inside]

theorem InOrder.inside (inOrder : mb.InOrder) (room : mb.entry ≠ mb.size) :
    mb.inOffset < mb.size := by
  have fits := inOrder.fits
  exact inOrder.behind ▸ Nat.mod_lt _ (by omega)

theorem InOrder.put (inOrder : mb.InOrder) (room : mb.entry ≠ mb.size) (value : BitVec 32) :
    (mb.put value).InOrder := by
  have free : mb.entry < mb.size := Nat.lt_of_le_of_ne inOrder.fits room
  have small := inOrder.small
  have inside : mb.inOffset < mb.size := inOrder.inside room
  have counted : (mb.entry + 1) % 2 ^ 16 = mb.entry + 1 := Nat.mod_eq_of_lt (by omega)
  refine ⟨small, ?_, inOrder.out, ?_, ?_⟩
  · show (mb.entry + 1) % 2 ^ 16 ≤ mb.size
    omega
  · show nextOffset mb.size mb.inOffset = (mb.outOffset + (mb.entry + 1) % 2 ^ 16) % mb.size
    rw [nextOffset_eq small inside, counted, inOrder.behind, Nat.mod_add_mod, Nat.add_assoc]
  · have pushed := ringContents_push mb.msgPool mb.outOffset value free
    rw [← inOrder.behind, ← counted] at pushed
    show mb.received ++ ringContents (Function.update mb.msgPool mb.inOffset value) mb.size
      mb.outOffset ((mb.entry + 1) % 2 ^ 16) = mb.sent ++ [value]
    rw [pushed, ← List.append_assoc, ← inOrder.order]
    rfl

theorem InOrder.take (inOrder : mb.InOrder) (some : mb.entry ≠ 0) : mb.take.InOrder := by
  have fits := inOrder.fits
  have small := inOrder.small
  have inside : mb.outOffset < mb.size := inOrder.out (by omega)
  have moved : nextOffset mb.size mb.outOffset = (mb.outOffset + 1) % mb.size :=
    nextOffset_eq small inside
  have counted : mb.entry - 1 + 1 = mb.entry := by omega
  refine ⟨small, ?_, ?_, ?_, ?_⟩
  · show mb.entry - 1 ≤ mb.size
    omega
  · intro positive
    show nextOffset mb.size mb.outOffset < mb.size
    rw [moved]
    exact Nat.mod_lt _ positive
  · show mb.inOffset = (nextOffset mb.size mb.outOffset + (mb.entry - 1)) % mb.size
    rw [moved, Nat.mod_add_mod, inOrder.behind, Nat.add_assoc, Nat.add_comm 1, counted]
  · have popped := @ringContents_pop _ mb.msgPool mb.size mb.outOffset (mb.entry - 1) inside
    rw [counted] at popped
    show (mb.received ++ [mb.msgPool mb.outOffset]) ++
      ringContents mb.msgPool mb.size (nextOffset mb.size mb.outOffset) (mb.entry - 1) = mb.sent
    rw [moved, List.append_assoc, List.singleton_append, ← popped]
    exact inOrder.order

/-- The threads are no part of the queue. -/
theorem InOrder.threads (inOrder : mb.InOrder) (suspendThread : List MailReceiver)
    (suspendSenderThread : List MailSender) (resumedReceivers : List MailReceiver)
    (resumedSenders : List MailSender) (leaving : List Nat) :
    Mailbox.InOrder
      { mb with
        suspendThread := suspendThread
        suspendSenderThread := suspendSenderThread
        resumedReceivers := resumedReceivers
        resumedSenders := resumedSenders
        leaving := leaving } :=
  ⟨inOrder.small, inOrder.fits, inOrder.out, inOrder.behind, inOrder.order⟩

theorem InOrder.resumeReceiver (inOrder : mb.InOrder) : mb.resumeReceiver.InOrder := by
  unfold Mailbox.resumeReceiver
  split
  · exact inOrder
  · exact inOrder.threads _ _ _ _ _

theorem InOrder.resumeSender (inOrder : mb.InOrder) : mb.resumeSender.InOrder := by
  unfold Mailbox.resumeSender
  split
  · exact inOrder
  · exact inOrder.threads _ _ _ _ _

theorem InOrder.rtMbSendWait (inOrder : mb.InOrder) (sender : MailSender) :
    (mb.rtMbSendWait flag priority sender).InOrder := by
  unfold Mailbox.rtMbSendWait
  split
  · split
    · exact inOrder
    · exact inOrder.threads _ _ _ _ _
  · next room => exact (inOrder.put room sender.value).resumeReceiver

theorem InOrder.rtMbRecv (inOrder : mb.InOrder) (receiver : MailReceiver) :
    (mb.rtMbRecv flag priority receiver).InOrder := by
  unfold Mailbox.rtMbRecv
  split
  · split
    · exact inOrder
    · exact inOrder.threads _ _ _ _ _
  · next some => exact (inOrder.take some).resumeSender

theorem InOrder.reset (inOrder : mb.InOrder) : mb.reset.InOrder :=
  ⟨inOrder.small, Nat.zero_le _, id, (Nat.zero_mod _).symm, rfl⟩

/-! ### Inside the pool -/

/-- The size stays, and so does all memory from the end of the pool on. -/
def PoolKept (mb mb' : Mailbox) : Prop :=
  mb'.size = mb.size ∧ ∀ i, mb.size ≤ i → mb'.msgPool i = mb.msgPool i

theorem poolKept_rtMbSendWait (inOrder : mb.InOrder) (sender : MailSender) :
    PoolKept mb (mb.rtMbSendWait flag priority sender) := by
  unfold Mailbox.rtMbSendWait
  split
  · split
    · exact ⟨rfl, fun _ _ => rfl⟩
    · exact ⟨rfl, fun _ _ => rfl⟩
  · next room =>
      have written : ∀ i, mb.size ≤ i → (mb.put sender.value).msgPool i = mb.msgPool i := by
        intro i outside
        have inside := inOrder.inside room
        exact Function.update_of_ne (by omega) _ _
      unfold Mailbox.resumeReceiver
      split
      · exact ⟨rfl, written⟩
      · exact ⟨rfl, written⟩

theorem poolKept_rtMbRecv (receiver : MailReceiver) :
    PoolKept mb (mb.rtMbRecv flag priority receiver) := by
  unfold Mailbox.rtMbRecv
  split
  · split
    · exact ⟨rfl, fun _ _ => rfl⟩
    · exact ⟨rfl, fun _ _ => rfl⟩
  · unfold Mailbox.resumeSender
    split
    · exact ⟨rfl, fun _ _ => rfl⟩
    · exact ⟨rfl, fun _ _ => rfl⟩

/-! ### Nobody is left behind -/

/-- While a receiver is suspended there are no more mails than resumed receivers, up
to `going`; while a sender is, there is no more room than resumed senders. -/
structure Awake (mb : Mailbox) (goingReceivers goingSenders : Nat) : Prop where
  receivers : mb.suspendThread ≠ [] → mb.entry ≤ mb.resumedReceivers.length + goingReceivers
  senders : mb.suspendSenderThread ≠ [] →
    mb.size ≤ mb.entry + mb.resumedSenders.length + goingSenders

theorem Awake.rtMbSendWait (awake : mb.Awake 0 1) (inOrder : mb.InOrder) (sender : MailSender) :
    (mb.rtMbSendWait flag priority sender).Awake 0 0 := by
  have fits := inOrder.fits
  have small := inOrder.small
  unfold Mailbox.rtMbSendWait
  split
  · next full =>
      split
      · exact ⟨awake.receivers, fun _ => by omega⟩
      · refine ⟨awake.receivers, fun _ => ?_⟩
        show mb.size ≤ mb.entry + mb.resumedSenders.length + 0
        omega
  · next room =>
      have counted : (mb.entry + 1) % 2 ^ 16 = mb.entry + 1 := Nat.mod_eq_of_lt (by omega)
      have senders : mb.suspendSenderThread ≠ [] →
          mb.size ≤ (mb.entry + 1) % 2 ^ 16 + mb.resumedSenders.length + 0 := by
        intro waits
        have := awake.senders waits
        omega
      unfold Mailbox.resumeReceiver
      split
      · next none => exact ⟨fun waits => absurd none waits, senders⟩
      · next receiver rest isList =>
          refine ⟨fun _ => ?_, senders⟩
          have waits : mb.suspendThread ≠ [] := isList ▸ List.cons_ne_nil receiver rest
          have before := awake.receivers waits
          show (mb.entry + 1) % 2 ^ 16 ≤ (mb.resumedReceivers ++ [receiver]).length + 0
          rw [List.length_append, List.length_singleton]
          omega

theorem Awake.rtMbRecv (awake : mb.Awake 1 0) (receiver : MailReceiver) :
    (mb.rtMbRecv flag priority receiver).Awake 0 0 := by
  unfold Mailbox.rtMbRecv
  split
  · next empty =>
      split
      · exact ⟨fun _ => by omega, awake.senders⟩
      · refine ⟨fun _ => ?_, awake.senders⟩
        show mb.entry ≤ mb.resumedReceivers.length + 0
        omega
  · next some =>
      have receivers : mb.suspendThread ≠ [] → mb.entry - 1 ≤ mb.resumedReceivers.length + 0 := by
        intro waits
        have := awake.receivers waits
        omega
      unfold Mailbox.resumeSender
      split
      · next none => exact ⟨receivers, fun waits => absurd none waits⟩
      · next sender rest isList =>
          refine ⟨receivers, fun _ => ?_⟩
          have waits : mb.suspendSenderThread ≠ [] := isList ▸ List.cons_ne_nil sender rest
          have before := awake.senders waits
          show mb.size ≤ mb.entry - 1 + (mb.resumedSenders ++ [sender]).length + 0
          rw [List.length_append, List.length_singleton]
          omega

end Mailbox

/-! ### Any order of calls -/

/-- What a call can do to the mailbox. A thread that goes on is no longer among the
resumed ones. -/
inductive Mailbox.Move (flag : IpcFlag) (mb : Mailbox) : Mailbox → Prop where
  | sends (priority : Nat → Nat) (sender : MailSender) (others : List MailSender)
      (one : mb.resumedSenders.length ≤ others.length + 1) :
      Move flag mb
        (Mailbox.rtMbSendWait flag priority { mb with resumedSenders := others } sender)
  | receives (priority : Nat → Nat) (receiver : MailReceiver) (others : List MailReceiver)
      (one : mb.resumedReceivers.length ≤ others.length + 1) :
      Move flag mb
        (Mailbox.rtMbRecv flag priority { mb with resumedReceivers := others } receiver)
  | leaves (receivers : List MailReceiver) (senders : List MailSender) (leaving : List Nat)
      (noReceiver : mb.suspendThread = [] → receivers = [])
      (noSender : mb.suspendSenderThread = [] → senders = []) :
      Move flag mb
        { mb with
          suspendThread := receivers
          suspendSenderThread := senders
          leaving := leaving }
  | reset : Move flag mb mb.reset

theorem mailStep_move {flag : IpcFlag} {mb mb' : Mailbox} {call : MailCall}
    (taken : mailStep flag mb call = some mb') : mb.Move flag mb' := by
  cases call with
  | send priority sender =>
      rw [mailStep] at taken
      split at taken
      · cases taken
        exact .sends priority sender mb.resumedSenders (Nat.le_succ _)
      · cases taken
  | sendOn priority sender tickDelta =>
      rw [mailStep] at taken
      split at taken
      · next resumed =>
          cases taken
          have fewer := List.length_erase_of_mem resumed
          exact .sends priority _ (mb.resumedSenders.erase sender) (by omega)
      · cases taken
  | recv priority receiver =>
      rw [mailStep] at taken
      split at taken
      · cases taken
        exact .receives priority receiver mb.resumedReceivers (Nat.le_succ _)
      · cases taken
  | recvOn priority receiver tickDelta =>
      rw [mailStep] at taken
      split at taken
      · next resumed =>
          cases taken
          have fewer := List.length_erase_of_mem resumed
          exact .receives priority _ (mb.resumedReceivers.erase receiver) (by omega)
      · cases taken
  | returns thread =>
      rw [mailStep] at taken
      split at taken
      · cases taken
        exact .leaves mb.suspendThread mb.suspendSenderThread _ id id
      · cases taken
  | expires thread =>
      rw [mailStep, Mailbox.expire] at taken
      split at taken
      · cases taken
        refine .leaves _ _ _ (fun none => ?_) (fun none => ?_)
        · rw [none]
          rfl
        · rw [none]
          rfl
      · cases taken
  | reset =>
      cases taken
      exact .reset

structure Mailbox.Sound (mb : Mailbox) : Prop where
  inOrder : mb.InOrder
  awake : mb.Awake 0 0

theorem Mailbox.Sound.step {flag : IpcFlag} {mb mb' : Mailbox} (sound : mb.Sound)
    (move : mb.Move flag mb') : mb'.Sound := by
  obtain ⟨inOrder, awake⟩ := sound
  cases move with
  | sends priority sender others one =>
      have before : Mailbox.InOrder { mb with resumedSenders := others } :=
        inOrder.threads _ _ _ _ _
      have going : Mailbox.Awake { mb with resumedSenders := others } 0 1 := by
        refine ⟨awake.receivers, fun waits => ?_⟩
        have known := awake.senders waits
        show mb.size ≤ mb.entry + others.length + 1
        omega
      exact ⟨before.rtMbSendWait sender, going.rtMbSendWait before sender⟩
  | receives priority receiver others one =>
      have before : Mailbox.InOrder { mb with resumedReceivers := others } :=
        inOrder.threads _ _ _ _ _
      have going : Mailbox.Awake { mb with resumedReceivers := others } 1 0 := by
        refine ⟨fun waits => ?_, awake.senders⟩
        have known := awake.receivers waits
        show mb.entry ≤ others.length + 1
        omega
      exact ⟨before.rtMbRecv receiver, going.rtMbRecv receiver⟩
  | leaves receivers senders leaving noReceiver noSender =>
      exact ⟨inOrder.threads _ _ _ _ _,
        ⟨fun waits => awake.receivers (mt noReceiver waits),
          fun waits => awake.senders (mt noSender waits)⟩⟩
  | reset =>
      exact ⟨inOrder.reset, ⟨fun waits => absurd rfl waits, fun waits => absurd rfl waits⟩⟩

theorem Mailbox.InOrder.poolKept {flag : IpcFlag} {mb mb' : Mailbox} (inOrder : mb.InOrder)
    (move : mb.Move flag mb') : mb.PoolKept mb' := by
  cases move with
  | sends priority sender others one =>
      have before : Mailbox.InOrder { mb with resumedSenders := others } :=
        inOrder.threads _ _ _ _ _
      exact Mailbox.poolKept_rtMbSendWait before sender
  | receives priority receiver others one =>
      exact @Mailbox.poolKept_rtMbRecv { mb with resumedReceivers := others } _ _ receiver
  | leaves receivers senders leaving noReceiver noSender => exact ⟨rfl, fun _ _ => rfl⟩
  | reset => exact ⟨rfl, fun _ _ => rfl⟩

theorem mailbox_sound {flag : IpcFlag} {msgpool : Nat → BitVec 32} {size : Nat} {mb : Mailbox}
    (reachable : (mailboxes flag msgpool size).Reachable mb) : mb.Sound := by
  apply reachable.invariant Mailbox.Sound
  · refine ⟨⟨Nat.mod_lt _ (by decide), Nat.zero_le _, id, (Nat.zero_mod _).symm, rfl⟩, ?_⟩
    exact ⟨fun waits => absurd rfl waits, fun waits => absurd rfl waits⟩
  · exact fun _ _ _ sound _ taken => sound.step (mailStep_move taken)

section Runs

variable {flag : IpcFlag} {msgpool : Nat → BitVec 32} {size : Nat} {mb : Mailbox}

/-- Two senders and a receiver at a mailbox with one place: the second sender waits
until the receiver, resumed for the first mail, has taken it. -/
def onePlace : List MailCall :=
  let priority := fun thread => thread
  [.recv priority ⟨1, -1⟩, .send priority ⟨2, 7, 5⟩, .send priority ⟨3, 8, 5⟩,
    .recvOn priority ⟨1, -1⟩ 0, .sendOn priority ⟨3, 8, 5⟩ 4]

/-- Since the last reset mails are received in the order they were sent, none twice
and none left out: the pool holds the rest. -/
theorem mailbox_in_order (reachable : (mailboxes flag msgpool size).Reachable mb) :
    mb.received ++ mb.contents = mb.sent ∧ mb.contents.length = mb.entry ∧ mb.entry ≤ mb.size :=
  have inOrder := (mailbox_sound reachable).inOrder
  ⟨inOrder.order, length_ringContents _ _ _ _, inOrder.fits⟩

theorem mailbox_in_order_run :
    ((mailboxes .prio (fun _ => 0) 1).run onePlace).received = [7] ∧
      ((mailboxes .prio (fun _ => 0) 1).run onePlace).received ++
        ((mailboxes .prio (fun _ => 0) 1).run onePlace).contents = [7, 8] := by
  have sent : ((mailboxes .prio (fun _ => 0) 1).run onePlace).sent = [7, 8] := by decide
  have inOrder := mailbox_in_order ((mailboxes .prio (fun _ => 0) 1).run_reachable onePlace)
  exact ⟨by decide, inOrder.1.trans sent⟩

/-- A mailbox never touches memory outside its pool: nothing from its end on is ever
written, and a receive that finds a mail reads it inside. -/
theorem mailbox_within_pool (reachable : (mailboxes flag msgpool size).Reachable mb) :
    (∀ i, size ≤ i → mb.msgPool i = msgpool i) ∧ (mb.entry ≠ 0 → mb.outOffset < size) := by
  have kept : (rtMbInit msgpool size).PoolKept mb := by
    refine reachable.invariant_of (fun _ => mailbox_sound)
      (fun mb => (rtMbInit msgpool size).PoolKept mb) ⟨rfl, fun _ _ => rfl⟩ ?_
    intro before call after sound poolKept _ taken
    obtain ⟨sameSize, sameCells⟩ := sound.inOrder.poolKept (mailStep_move taken)
    refine ⟨sameSize.trans poolKept.1, fun i outside => ?_⟩
    have wasOutside : before.size ≤ i := poolKept.1 ▸ outside
    exact (sameCells i wasOutside).trans (poolKept.2 i outside)
  -- the 16 bits of `mb->size` may be less than the pool
  have truncated : size % 2 ^ 16 ≤ size := Nat.mod_le _ _
  refine ⟨fun i outside => kept.2 i (Nat.le_trans truncated outside), fun some => ?_⟩
  have inOrder := (mailbox_sound reachable).inOrder
  have inside := inOrder.out (Nat.lt_of_lt_of_le (Nat.pos_of_ne_zero some) inOrder.fits)
  rw [kept.1] at inside
  exact Nat.lt_of_lt_of_le inside truncated

theorem mailbox_within_pool_run :
    ((mailboxes .prio (fun _ => 0) 1).run (onePlace.take 3)).msgPool 0 = 7 ∧
      ∀ i, 1 ≤ i → ((mailboxes .prio (fun _ => 0) 1).run (onePlace.take 3)).msgPool i = 0 :=
  ⟨by decide, (mailbox_within_pool
    ((mailboxes .prio (fun _ => 0) 1).run_reachable (onePlace.take 3))).1⟩

/-- Nobody is left behind: while a receiver is suspended, every mail has a resumed
receiver of its own, and while a sender is, every free place has a resumed sender. -/
theorem mailbox_nobody_left (reachable : (mailboxes flag msgpool size).Reachable mb) :
    (mb.suspendThread ≠ [] → mb.entry ≤ mb.resumedReceivers.length) ∧
      (mb.suspendSenderThread ≠ [] → mb.size - mb.entry ≤ mb.resumedSenders.length) := by
  have awake := (mailbox_sound reachable).awake
  refine ⟨awake.receivers, fun waits => ?_⟩
  have := awake.senders waits
  omega

/-- The second sender waits while the mail of the first is on its way. -/
theorem mailbox_nobody_left_run :
    ((mailboxes .prio (fun _ => 0) 1).run (onePlace.take 3)).suspendSenderThread = [⟨3, 8, 5⟩] ∧
      ((mailboxes .prio (fun _ => 0) 1).run (onePlace.take 3)).size -
        ((mailboxes .prio (fun _ => 0) 1).run (onePlace.take 3)).entry ≤ 0 := by
  have waits : ((mailboxes .prio (fun _ => 0) 1).run (onePlace.take 3)).suspendSenderThread =
      [⟨3, 8, 5⟩] := by decide
  have left := mailbox_nobody_left
    ((mailboxes .prio (fun _ => 0) 1).run_reachable (onePlace.take 3))
  have room := left.2 (by rw [waits]; exact List.cons_ne_nil _ _)
  have noneResumed : ((mailboxes .prio (fun _ => 0) 1).run (onePlace.take 3)).resumedSenders = [] :=
    by decide
  rw [noneResumed] at room
  exact ⟨waits, room⟩

end Runs

end RttIctl.Kernel
