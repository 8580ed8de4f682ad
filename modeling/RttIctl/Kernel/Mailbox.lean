import RttIctl.Kernel.Ipc
import RttIctl.Lib.Ring
import RttIctl.Lib.StepSystem

/-!
Owns the mailbox of `ipc.c`: its ring of mails and its two lists of suspended
threads, `rt_mb_send_wait` and `rt_mb_recv` as the sections they run with interrupts
disabled, the thread timer and `rt_mb_control`, over any order of calls.

It does not own the scheduler: a resumed thread goes on at some time, after which
others may have taken the mail or the room it was resumed for.
-/

namespace RttIctl.Kernel

open Lib

/-- A thread inside `rt_mb_recv`, with what is left of its timeout. -/
structure MailReceiver where
  thread : Nat
  timeout : Int
  deriving DecidableEq, Repr

/-- A thread inside `rt_mb_send_wait`. -/
structure MailSender where
  thread : Nat
  value : BitVec 32
  timeout : Int
  deriving DecidableEq, Repr

/-- The mailbox. The resumed threads go on with their loops, those leaving return an
error; `sent` and `received` record the mails since the last reset. -/
structure Mailbox where
  msgPool : Nat → BitVec 32
  size : Nat
  entry : Nat
  inOffset : Nat
  outOffset : Nat
  suspendThread : List MailReceiver
  suspendSenderThread : List MailSender
  resumedReceivers : List MailReceiver
  resumedSenders : List MailSender
  leaving : List Nat
  sent : List (BitVec 32)
  received : List (BitVec 32)

/-- `timeout -= tick_delta`, for a thread that does not wait forever. -/
def remaining (timeout : Int) (tickDelta : BitVec 32) : Int :=
  if 0 < timeout then max 0 (BitVec.ofInt 32 timeout - tickDelta).toInt else timeout

/-- `++ mb->in_offset` and the restart at 0. -/
def nextOffset (size offset : Nat) : Nat :=
  if (offset + 1) % 2 ^ 16 ≥ size then 0 else (offset + 1) % 2 ^ 16

/-- `rt_mb_init`; the size is kept in 16 bits. -/
def rtMbInit (msgpool : Nat → BitVec 32) (size : Nat) : Mailbox :=
  { msgPool := msgpool
    size := size % 2 ^ 16
    entry := 0
    inOffset := 0
    outOffset := 0
    suspendThread := []
    suspendSenderThread := []
    resumedReceivers := []
    resumedSenders := []
    leaving := []
    sent := []
    received := [] }

namespace Mailbox

/-- `rt_ipc_list_resume` on the receivers, when there are any. -/
def resumeReceiver (mb : Mailbox) : Mailbox :=
  match mb.suspendThread with
  | [] => mb
  | receiver :: rest =>
      { mb with
        suspendThread := rest
        resumedReceivers := mb.resumedReceivers ++ [receiver] }

/-- `rt_ipc_list_resume` on the senders, when there are any. -/
def resumeSender (mb : Mailbox) : Mailbox :=
  match mb.suspendSenderThread with
  | [] => mb
  | sender :: rest =>
      { mb with
        suspendSenderThread := rest
        resumedSenders := mb.resumedSenders ++ [sender] }

/-- The mail is put into the pool. -/
def put (mb : Mailbox) (value : BitVec 32) : Mailbox :=
  { mb with
    msgPool := Function.update mb.msgPool mb.inOffset value
    inOffset := nextOffset mb.size mb.inOffset
    entry := (mb.entry + 1) % 2 ^ 16
    sent := mb.sent ++ [value] }

/-- The mail is taken out of the pool. -/
def take (mb : Mailbox) : Mailbox :=
  { mb with
    outOffset := nextOffset mb.size mb.outOffset
    entry := mb.entry - 1
    received := mb.received ++ [mb.msgPool mb.outOffset] }

/-- `rt_mb_send_wait` from the test of its loop until it returns or the thread is
suspended. -/
def rtMbSendWait (flag : IpcFlag) (priority : Nat → Nat) (mb : Mailbox) (sender : MailSender) :
    Mailbox :=
  if mb.entry = mb.size then
    if sender.timeout = 0 then mb
    else
      { mb with
        suspendSenderThread := rtIpcListSuspend MailSender.thread flag priority sender
          mb.suspendSenderThread }
  else (mb.put sender.value).resumeReceiver

/-- `rt_mb_recv` from the test of its loop until it returns or the thread is
suspended. -/
def rtMbRecv (flag : IpcFlag) (priority : Nat → Nat) (mb : Mailbox) (receiver : MailReceiver) :
    Mailbox :=
  if mb.entry = 0 then
    if receiver.timeout = 0 then mb
    else
      { mb with
        suspendThread := rtIpcListSuspend MailReceiver.thread flag priority receiver
          mb.suspendThread }
  else mb.take.resumeSender

/-- The timer of a suspended thread runs out. -/
def expire (mb : Mailbox) (thread : Nat) : Option Mailbox :=
  if (∃ receiver ∈ mb.suspendThread, receiver.thread = thread ∧ 0 < receiver.timeout) ∨
      ∃ sender ∈ mb.suspendSenderThread, sender.thread = thread ∧ 0 < sender.timeout then
    some { mb with
      suspendThread := mb.suspendThread.filter fun receiver => receiver.thread ≠ thread
      suspendSenderThread := mb.suspendSenderThread.filter fun sender => sender.thread ≠ thread
      leaving := mb.leaving ++ [thread] }
  else none

/-- `rt_mb_control` with `RT_IPC_CMD_RESET`. -/
def reset (mb : Mailbox) : Mailbox :=
  { mb with
    entry := 0
    inOffset := 0
    outOffset := 0
    suspendThread := []
    suspendSenderThread := []
    leaving := mb.leaving ++ mb.suspendThread.map MailReceiver.thread ++
      mb.suspendSenderThread.map MailSender.thread
    sent := []
    received := [] }

/-- The thread does not run inside a call. -/
def isOutside (mb : Mailbox) (thread : Nat) : Bool :=
  (mb.suspendThread ++ mb.resumedReceivers).all (fun receiver => receiver.thread ≠ thread) &&
    (mb.suspendSenderThread ++ mb.resumedSenders).all (fun sender => sender.thread ≠ thread) &&
      mb.leaving.all (· ≠ thread)

end Mailbox

/-- An interrupt calls with a timeout of 0, under a number that is no thread's. -/
inductive MailCall where
  | send (priority : Nat → Nat) (sender : MailSender)
  | sendOn (priority : Nat → Nat) (sender : MailSender) (tickDelta : BitVec 32)
  | recv (priority : Nat → Nat) (receiver : MailReceiver)
  | recvOn (priority : Nat → Nat) (receiver : MailReceiver) (tickDelta : BitVec 32)
  | returns (thread : Nat)
  | expires (thread : Nat)
  | reset

/-- One section with interrupts disabled: a call begins, or a resumed thread goes on
in the loop of its call. -/
def mailStep (flag : IpcFlag) (mb : Mailbox) : MailCall → Option Mailbox
  | .send priority sender =>
      if mb.isOutside sender.thread then some (mb.rtMbSendWait flag priority sender) else none
  | .sendOn priority sender tickDelta =>
      if sender ∈ mb.resumedSenders then
        let before := { mb with resumedSenders := mb.resumedSenders.erase sender }
        some (before.rtMbSendWait flag priority
          { sender with timeout := remaining sender.timeout tickDelta })
      else none
  | .recv priority receiver =>
      if mb.isOutside receiver.thread then some (mb.rtMbRecv flag priority receiver) else none
  | .recvOn priority receiver tickDelta =>
      if receiver ∈ mb.resumedReceivers then
        let before := { mb with resumedReceivers := mb.resumedReceivers.erase receiver }
        some (before.rtMbRecv flag priority
          { receiver with timeout := remaining receiver.timeout tickDelta })
      else none
  | .returns thread =>
      if thread ∈ mb.leaving then some { mb with leaving := mb.leaving.erase thread } else none
  | .expires thread => mb.expire thread
  | .reset => some mb.reset

/-- From `rt_mb_init` on. -/
def mailboxes (flag : IpcFlag) (msgpool : Nat → BitVec 32) (size : Nat) :
    StepSystem Mailbox MailCall :=
  ⟨rtMbInit msgpool size, mailStep flag⟩

end RttIctl.Kernel
