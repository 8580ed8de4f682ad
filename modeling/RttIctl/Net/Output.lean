import RttIctl.Drivers.Ringbuffer
import RttIctl.Net.SelectHandle

/-!
Owns the way of outgoing bytes: messages that `CCtrlNet::send` writes to the
pipe in as many rounds as the ring buffer needs, the pipe branch of
`select_handle` that reads them and passes them to `send`, and what the socket
accepted. A send that takes less than it was given is noticed by nobody, so
nothing is lost exactly while every send takes the whole chunk or the chunk
ends the loop.

It does not own the lock of `CCtrlNet`: one message is written at a time. The
greeting that `socket_init` sends on the same socket before the pipe exists is
not counted.
-/

namespace RttIctl.Net

open Lib Drivers

/-- `PIPE_BUFSZ`. -/
def pipeBufsz : Nat := 512

/-- The pipe and its two ends. `unwritten` is what the write in progress has not
put into the ring buffer yet. Ghost: `offered`, the messages given to
`CCtrlNet::send` so far, one after the other. -/
structure Output where
  fifo : Ringbuffer
  unwritten : Bytes
  loop : LoopState
  running : Bool
  offered : Bytes

/-- The result of `send` on the socket. -/
inductive SendResult where
  | count (accepted : Nat)
  | failed
deriving DecidableEq, Repr

def SendResult.value : SendResult → Int
  | .count accepted => accepted
  | .failed => -1

/-- How many bytes the socket took. -/
def SendResult.accepted : SendResult → Nat
  | .count accepted => accepted
  | .failed => 0

inductive OutputLabel where
  | send (message : Bytes)
  | put
  | read (result : SendResult)
  | leave
deriving DecidableEq, Repr

/-! ### Steps -/

/-- A new message; the write before it has returned. -/
def sendStep (o : Output) (message : Bytes) : Option Output :=
  if o.unwritten = [] then
    some { o with unwritten := message, offered := o.offered ++ message }
  else none

/-- One round of `pipe_fops_write`: `rt_ringbuffer_put` takes its length as 16
bits. -/
def putStep (o : Output) : Option Output :=
  if o.unwritten = [] then none
  else
    let result := o.fifo.put (o.unwritten.take (o.unwritten.length % 0x10000))
    some { o with fifo := result.2, unwritten := o.unwritten.drop result.1 }

/-- The pipe branch of a pass: `pipe_fops_read` has bytes, and `send` takes no
more than it is given. -/
def readStep (o : Output) (result : SendResult) : Option Output :=
  if o.running then
    let taken := o.fifo.get buffSize
    if chunk : 0 < taken.1.length ∧ taken.1.length ≤ buffSize then
      if result.accepted ≤ taken.1.length then
        let branch := pipeBranch o.loop (.data ⟨taken.1, chunk⟩ result.value)
        some { o with fifo := taken.2, loop := branch.1, running := branch.2 = .goOn }
      else none
    else none
  else none

/-- The loop ends for another reason. -/
def leaveStep (o : Output) : Option Output :=
  if o.running then some { o with running := false } else none

def outputStep (o : Output) : OutputLabel → Option Output
  | .send message => sendStep o message
  | .put => putStep o
  | .read result => readStep o result
  | .leave => leaveStep o

/-- The pipe and the loop as `rt_tcpclient_start` leaves them. -/
def outputSystem : StepSystem Output OutputLabel where
  init :=
    { fifo := .init (fun _ => 0) pipeBufsz (by decide)
      unwritten := []
      loop := .start
      running := true
      offered := [] }
  step := outputStep

/-! ### What the socket got -/

/-- The bytes a send on the socket took. -/
def LoopEvent.delivered : LoopEvent → Bytes
  | .send bytes result => bytes.take result.toNat
  | .write _ _ _ => []
  | .rx _ => []
  | .post => []

/-- A send that took less than it was given. -/
def LoopEvent.short : LoopEvent → Bool
  | .send bytes result => result.toNat < bytes.length
  | .write _ _ _ => false
  | .rx _ => false
  | .post => false

/-- All bytes the socket accepted, in order. -/
def delivered (log : List LoopEvent) : Bytes := log.flatMap LoopEvent.delivered

/-- The socket's bytes are the beginning of the messages, and after a short send
the loop is left. -/
def NothingLost (o : Output) : Prop :=
  delivered o.loop.log <+: o.offered ∧
    (o.loop.log.any LoopEvent.short = true → o.running = false)

/-- The socket takes the whole chunk, or the chunk ends the loop. -/
def TakesChunk (o : Output) : OutputLabel → Prop
  | .read result =>
      result.accepted = (o.fifo.get buffSize).1.length ∨
        exitHandle (o.fifo.get buffSize).1 = true
  | _ => True

instance (o : Output) (label : OutputLabel) : Decidable (TakesChunk o label) :=
  match label with
  | .send _ => inferInstanceAs (Decidable True)
  | .put => inferInstanceAs (Decidable True)
  | .read _ => inferInstanceAs (Decidable (_ ∨ _))
  | .leave => inferInstanceAs (Decidable True)

/-! ### The invariant of the way -/

/-- While the loop runs, what the socket got, what waits in the pipe and what is
still to be written are the messages. -/
def InTransit (o : Output) : Prop :=
  o.running = true → delivered o.loop.log ++ o.fifo.contents ++ o.unwritten = o.offered

theorem SendResult.toNat_value (result : SendResult) : result.value.toNat = result.accepted := by
  cases result <;> rfl

theorem delivered_append (first second : List LoopEvent) :
    delivered (first ++ second) = delivered first ++ delivered second :=
  List.flatMap_append

/-- Reading takes the oldest bytes out of the pipe. -/
theorem get_append_contents (fifo : Ringbuffer) (count : Nat) :
    (fifo.get count).1 ++ (fifo.get count).2.contents = fifo.contents := by
  rw [(fifo.contents_get count).1, (fifo.contents_get count).2, List.take_append_drop]

/-- What one pass of the pipe branch does: the chunk leaves the pipe, the socket
gets what it takes of it, and the loop goes on unless the chunk ends it. -/
structure ReadDoes (o : Output) (result : SendResult) (after : Output) : Prop where
  wasRunning : o.running = true
  bound : result.accepted ≤ (o.fifo.get buffSize).1.length
  fifo : after.fifo = (o.fifo.get buffSize).2
  unwritten : after.unwritten = o.unwritten
  offered : after.offered = o.offered
  goesOn : after.running = !exitHandle (o.fifo.get buffSize).1
  got : delivered after.loop.log =
    delivered o.loop.log ++ (o.fifo.get buffSize).1.take result.accepted
  short : after.loop.log.any LoopEvent.short =
    (o.loop.log.any LoopEvent.short ||
      decide (result.accepted < (o.fifo.get buffSize).1.length))

/-- Everything one step can do. -/
inductive OutputTaken (o : Output) : OutputLabel → Output → Prop where
  | send (message : Bytes) (returned : o.unwritten = []) :
      OutputTaken o (.send message)
        { o with unwritten := message, offered := o.offered ++ message }
  | put :
      OutputTaken o .put
        { o with
          fifo := (o.fifo.put (o.unwritten.take (o.unwritten.length % 0x10000))).2
          unwritten := o.unwritten.drop
            (o.fifo.put (o.unwritten.take (o.unwritten.length % 0x10000))).1 }
  | read (result : SendResult) (after : Output) (does : ReadDoes o result after) :
      OutputTaken o (.read result) after
  | leave : OutputTaken o .leave { o with running := false }

theorem readStep_does {o after : Output} {result : SendResult}
    (taken : readStep o result = some after) : ReadDoes o result after := by
  simp only [readStep, Option.ite_none_right_eq_some, Option.dite_none_right_eq_some] at taken
  obtain ⟨running, chunk, bound, taken⟩ := taken
  rw [pipeBranch_data, Option.some.injEq] at taken
  subst taken
  refine ⟨running, bound, rfl, rfl, rfl, ?_, ?_, ?_⟩
  · show decide ((if exitHandle (o.fifo.get buffSize).1 then Flow.leave else .goOn) = .goOn) = _
    cases exitHandle (o.fifo.get buffSize).1 <;> rfl
  · rw [delivered_append]
    simp [delivered, LoopEvent.delivered, result.toNat_value]
  · simp [LoopEvent.short, result.toNat_value]

theorem outputStep_taken {o after : Output} {label : OutputLabel}
    (taken : outputStep o label = some after) : OutputTaken o label after := by
  cases label with
  | send message =>
      simp only [outputStep, sendStep, Option.ite_none_right_eq_some, Option.some.injEq] at taken
      obtain ⟨returned, rfl⟩ := taken
      exact .send message returned
  | put =>
      simp only [outputStep, putStep, Option.ite_none_left_eq_some, Option.some.injEq] at taken
      obtain ⟨_, rfl⟩ := taken
      exact .put
  | read result => exact .read result after (readStep_does taken)
  | leave =>
      simp only [outputStep, leaveStep, Option.ite_none_right_eq_some, Option.some.injEq] at taken
      obtain ⟨_, rfl⟩ := taken
      exact .leave

/-- While the loop runs no send was short. -/
theorem NothingLost.complete {o : Output} (kept : NothingLost o) (running : o.running = true) :
    o.loop.log.any LoopEvent.short = false := by
  apply Bool.eq_false_iff.mpr
  intro wasShort
  rw [kept.2 wasShort] at running
  exact Bool.false_ne_true running

/-- A pass of the pipe branch loses nothing exactly when the socket takes the
chunk or the chunk ends the loop. -/
theorem ReadDoes.keeps_iff {o after : Output} {result : SendResult}
    (does : ReadDoes o result after) (transit : InTransit o) (before : NothingLost o) :
    NothingLost after ↔ TakesChunk o (.read result) := by
  have complete := before.complete does.wasRunning
  have bound := does.bound
  have inOrder : delivered after.loop.log <+: after.offered := by
    have whole := transit does.wasRunning
    rw [← get_append_contents o.fifo buffSize] at whole
    rw [does.got, does.offered, ← whole, List.append_assoc, List.append_assoc,
      List.prefix_append_right_inj]
    exact (List.take_prefix _ _).trans (List.prefix_append _ _)
  rw [NothingLost, and_iff_right inOrder, does.short, complete, does.goesOn, TakesChunk,
    Bool.false_or, decide_eq_true_eq]
  cases exitHandle (o.fifo.get buffSize).1 with
  | true => simp
  | false =>
      simp only [Bool.not_false, Bool.true_eq_false, imp_false, Bool.false_eq_true, or_false]
      omega

/-- One step keeps the property exactly when it meets the condition. -/
theorem nothingLost_step {o after : Output} {label : OutputLabel} (transit : InTransit o)
    (before : NothingLost o) (taken : OutputTaken o label after) :
    NothingLost after ↔ TakesChunk o label := by
  cases taken with
  | send message =>
      apply iff_of_true _ trivial
      exact ⟨before.1.trans (List.prefix_append _ _), before.2⟩
  | put => exact iff_of_true before trivial
  | read result _ does => exact does.keeps_iff transit before
  | leave => exact iff_of_true ⟨before.1, fun _ => rfl⟩ trivial

/-- A round of the write moves bytes from the message to the pipe. -/
theorem put_append_drop (fifo : Ringbuffer) (message : Bytes) (length : Nat) :
    (fifo.put (message.take length)).2.contents ++
        message.drop (fifo.put (message.take length)).1 = fifo.contents ++ message := by
  have count := fifo.put_fst (message.take length)
  have within : (fifo.put (message.take length)).1 ≤ length := by
    rw [count, List.length_take]
    omega
  rw [Ringbuffer.contents_put, List.take_take, Nat.min_eq_left within, List.append_assoc,
    List.take_append_drop]

theorem inTransit_step {o after : Output} {label : OutputLabel} (transit : InTransit o)
    (taken : OutputTaken o label after) (kept : NothingLost after) : InTransit after := by
  intro stillRunning
  cases taken with
  | send message returned =>
      have whole := transit stillRunning
      rw [returned, List.append_nil] at whole
      rw [← whole]
  | put =>
      have whole := transit stillRunning
      rw [← whole, List.append_assoc, List.append_assoc, put_append_drop]
  | read result _ does =>
      have complete := kept.complete stillRunning
      have all : (o.fifo.get buffSize).1.length ≤ result.accepted := by
        rw [does.short, Bool.or_eq_false_iff, decide_eq_false_iff_not] at complete
        omega
      have whole := transit does.wasRunning
      rw [← get_append_contents o.fifo buffSize] at whole
      rw [does.got, List.take_of_length_le all, does.fifo, does.unwritten, does.offered, ← whole,
        ← List.append_assoc (delivered o.loop.log)]
  | leave => exact absurd stillRunning Bool.false_ne_true

/-- Over every history of messages, rounds of the write, reads and results of
the socket: nothing is lost in any state reached exactly when every send takes
the whole chunk or the chunk ends the loop. -/
theorem nothingLost_iff {past : List (Output × OutputLabel)} {o : Output}
    (history : outputSystem.History past o) :
    StepSystem.Always NothingLost past o ↔ StepSystem.EveryStep TakesChunk past := by
  apply history.always_iff NothingLost InTransit TakesChunk
  · exact ⟨List.nil_prefix, fun short => absurd short Bool.false_ne_true⟩
  · intro _
    rfl
  · intro s label s' transit before taken
    exact nothingLost_step transit before (outputStep_taken taken)
  · intro s label s' transit _ taken kept
    exact inTransit_step transit (outputStep_taken taken) kept

/-- Two bytes written and read, and a socket that takes both. -/
theorem full_send_loses_nothing :
    StepSystem.Always NothingLost (outputSystem.log [.send [65, 66], .put, .read (.count 2)]).1
      (outputSystem.log [.send [65, 66], .put, .read (.count 2)]).2 := by
  rw [nothingLost_iff (StepSystem.log_history [.send [65, 66], .put, .read (.count 2)])]
  unfold StepSystem.EveryStep
  decide +kernel

/-- The same two bytes, and a socket that takes one: the loop goes on. -/
theorem short_send_goes_on :
    ¬ ∀ past o, outputSystem.History past o → StepSystem.Always NothingLost past o := by
  intro always
  have lost := (always _ _ (StepSystem.log_history
    [.send [65, 66], .put, .read (.count 1)])).2.2
  exact absurd (lost (by decide +kernel)) (by decide +kernel)

end RttIctl.Net
