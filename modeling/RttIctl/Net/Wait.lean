import RttIctl.Net.Handle
import RttIctl.Net.Lock

/-!
Owns the wait of `disconnect` for `end` to be cleared. The chain that clears
it runs from the `tcpc` loop through `tcth1` to `tcth2`; `Chain` is its state
with every link intact. `disconnect` enters the wait on the strength of a
lookup by name, which does not establish the chain, and a loop that fails to
receive leaves without announcing it, which breaks it.
-/

namespace RttIctl.Net

open Lib (StepSystem)

/-- Somebody is still able to clear `end`. -/
inductive CanClear (s : State) : Prop where
  | loop (c : ClientId) (i j : Nat) (isRunning : (s.loops c).running = true)
      (th1Alive : (s.th1 i).pc.alive = true) (th2Alive : (s.th2 j).alive = true)
  | close (i j : Nat) (pending : s.closePending) (th1Alive : (s.th1 i).pc.alive = true)
      (th2Alive : (s.th2 j).alive = true)
  | took (i j : Nat) (isAt : (s.th1 i).pc = .postExit) (th2Alive : (s.th2 j).alive = true)
  | exit (j : Nat) (pending : s.exitPending) (th2Alive : (s.th2 j).alive = true)
  | finishing (j : Nat) (isAt : s.th2 j = .deleteEvent ∨ s.th2 j = .clearEnd)

/-- Whenever a caller waits for `end`, somebody can clear it. -/
def NotStuck (s : State) : Prop :=
  ∀ t nested, s.callers t = .waitEnd nested → s.endFlag = true → CanClear s

/-- The chain that clears `end`, from its last link to its first: `tcth2` is
past the deletion of the event; or the event is live and `tcth2` is about to
delete it; or `tcth2` waits, and `TC_EXIT_THREAD` is pending, or `tcth1` is
about to post it; or `tcth1` waits too, and `TC_TCPCLIENT_CLOSE` is pending, or
a loop with a callback runs. -/
inductive Chain (s : State) : Prop where
  | clearing (j : Nat) (isAt : s.th2 j = .clearEnd)
  | deleting (j : Nat) (event : EventId) (live : s.liveEvent = some event)
      (isAt : s.th2 j = .deleteEvent)
  | exit (j : Nat) (event : EventId) (live : s.liveEvent = some event) (th2 : s.th2 j = .wait)
      (pending : (s.events event).exit = true)
  | posting (i j : Nat) (event : EventId) (live : s.liveEvent = some event)
      (th2 : s.th2 j = .wait) (th1 : (s.th1 i).pc = .postExit)
  | close (i j : Nat) (event : EventId) (live : s.liveEvent = some event)
      (th2 : s.th2 j = .wait) (th1 : (s.th1 i).pc = .wait)
      (pending : (s.events event).close = true)
  | loop (c : ClientId) (i j : Nat) (event : EventId) (live : s.liveEvent = some event)
      (th2 : s.th2 j = .wait) (th1 : (s.th1 i).pc = .wait)
      (isRunning : (s.loops c).running = true) (attached : (s.clients c).rx = true)

/-- The loop goes to its exit label without having posted
`TC_TCPCLIENT_CLOSE`: `recv` or `read` fails, a `send` wrote `exit` to the
pipe, no callback is attached, or the callback has no memory. -/
def leavesSilently (s : State) (c : ClientId) (input : LoopInput) : Bool :=
  match s.loops c, input with
  | .recv _, .failed => true
  | .readPipe, .failed => true
  | .readPipe, .data bytes => exitHandle bytes
  | .rxCall message, .go => !(s.clients c).rx && message.leaves
  | .rxCb message, .malloc ok => !ok && message.leaves
  | _, _ => false

/-- `end = 1` is executed when the chain is intact, and while a caller waits no
loop leaves silently. -/
def KeepsChain (s : State) : Label → Prop
  | .run t => ∀ nested, s.callers t = .setEnd nested → Chain s
  | .loop c input => (∃ t nested, s.callers t = .waitEnd nested) → leavesSilently s c input = false
  | _ => True

variable {s s' : State} {label : Label}

theorem canClear_of_chain (chain : Chain s) : CanClear s := by
  cases chain with
  | clearing j isAt => exact .finishing j (.inr isAt)
  | deleting j event live isAt => exact .finishing j (.inl isAt)
  | exit j event live th2 pending => exact .exit j ⟨event, live, pending⟩ (by rw [th2]; rfl)
  | posting i j event live th2 th1 => exact .took i j th1 (by rw [th2]; rfl)
  | close i j event live th2 th1 pending =>
      exact .close i j ⟨event, live, pending⟩ (by rw [th1]; rfl) (by rw [th2]; rfl)
  | loop c i j event live th2 th1 isRunning =>
      exact .loop c i j isRunning (by rw [th1]; rfl) (by rw [th2]; rfl)

/-! ### Steps that leave the links alone -/

/-- The chain survives a step that keeps the live event and what is pending in
it, does not move `tcth2` nor a `tcth1` that waits or is about to post, and
keeps loops running unless `TC_TCPCLIENT_CLOSE` is now pending. -/
theorem Chain.mono (chain : Chain s) (live : s'.liveEvent = s.liveEvent)
    (exit : ∀ event, (s.events event).exit = true → (s'.events event).exit = true)
    (close : ∀ event, (s.events event).close = true → (s'.events event).close = true)
    (th2 : s'.th2 = s.th2)
    (th1 : ∀ i, (s.th1 i).pc = .wait ∨ (s.th1 i).pc = .postExit → (s'.th1 i).pc = (s.th1 i).pc)
    (loops : ∀ c event, s.liveEvent = some event → (s.loops c).running = true →
      (s.clients c).rx = true → (s'.loops c).running = true ∧ (s'.clients c).rx = true ∨
        (s'.events event).close = true) : Chain s' := by
  cases chain with
  | clearing j isAt => exact .clearing j (by rw [th2, isAt])
  | deleting j event isLive isAt =>
      exact .deleting j event (by rw [live, isLive]) (by rw [th2, isAt])
  | exit j event isLive waits pending =>
      exact .exit j event (by rw [live, isLive]) (by rw [th2, waits]) (exit event pending)
  | posting i j event isLive waits posts =>
      exact .posting i j event (by rw [live, isLive]) (by rw [th2, waits])
        (by rw [th1 i (.inr posts), posts])
  | close i j event isLive waits polls pending =>
      exact .close i j event (by rw [live, isLive]) (by rw [th2, waits])
        (by rw [th1 i (.inl polls), polls]) (close event pending)
  | loop c i j event isLive waits polls isRunning attached =>
      have polls' : (s'.th1 i).pc = .wait := by rw [th1 i (.inl polls), polls]
      rcases loops c event isLive isRunning attached with ⟨still, kept⟩ | pending
      · exact .loop c i j event (by rw [live, isLive]) (by rw [th2, waits]) polls' still kept
      · exact .close i j event (by rw [live, isLive]) (by rw [th2, waits]) polls' pending

/-- The chain ends in a `tcth2`, and unless that one only has `end` to clear
the event is live. -/
theorem Chain.th2_cases (chain : Chain s) :
    (∃ j, s.th2 j = .clearEnd) ∨
    ∃ j event, s.liveEvent = some event ∧ (s.th2 j = .deleteEvent ∨ s.th2 j = .wait) := by
  cases chain with
  | clearing j isAt => exact .inl ⟨j, isAt⟩
  | deleting j event live isAt => exact .inr ⟨j, event, live, .inl isAt⟩
  | exit j event live th2 => exact .inr ⟨j, event, live, .inr th2⟩
  | posting i j event live th2 | close i j event live th2 | loop c i j event live th2 =>
      exact .inr ⟨j, event, live, .inr th2⟩

theorem Chain.clearing_of_dead (chain : Chain s) (dead : s.liveEvent = none) :
    ∃ j, s.th2 j = .clearEnd := by
  rcases chain.th2_cases with clearing | ⟨j, event, live, -⟩
  · exact clearing
  · simp [dead] at live

theorem Message.next_running {message : Message} (stays : message.leaves = false) :
    message.next.running = true := by
  cases message with
  | notice => cases stays
  | chunk bytes pipeReady =>
      simp only [Message.leaves] at stays
      cases pipeReady <;> simp [Message.next, stays, LoopPc.running]

theorem rxCbPosts_of_leaves {message : Message} (leaves : message.leaves = true) :
    rxCbPosts message.text = true := by
  cases message with
  | notice => decide
  | chunk bytes pipeReady =>
      simp only [Message.leaves, exitHandle, beq_iff_eq] at leaves
      simp [rxCbPosts, Message.text, leaves]

/-- A running loop that moves on without leaving silently still runs. -/
theorem running_stays {c : ClientId} {input : LoopInput} {next : LoopPc}
    (moves : LoopMove s.endFlag (s.clients c).rx (s.loops c) input next)
    (isRunning : (s.loops c).running = true) (announced : leavesSilently s c input = false) :
    next.running = true := by
  unfold leavesSilently at announced
  generalize s.loops c = pc at moves isRunning announced
  cases moves with
  | recvFailed | readFailed => cases announced
  | readExit bytes isExit => simp [isExit] at announced
  | skip message detached => exact Message.next_running (by simpa [detached] using announced)
  | returns message ok silent =>
      refine Message.next_running ?_
      rcases silent with rfl | unposted
      · simpa using announced
      · by_contra leaves
        rw [rxCbPosts_of_leaves (by simpa using leaves)] at unposted
        cases unposted
  | ready sock pipe => cases sock <;> cases pipe <;> rfl
  | enter | noMemory | leave => cases isRunning
  | _ => rfl

/-! ### One step while a caller waits -/

/-- A step that leaves the event and `tcth2` alone, moves no `tcth1` that waits
or is about to post, and stops no loop that has its callback. -/
theorem Chain.frame (chain : Chain s) (tcEvent : s'.tcEvent = s.tcEvent)
    (events : s'.events = s.events) (th2 : s'.th2 = s.th2)
    (th1 : ∀ i, (s.th1 i).pc = .wait ∨ (s.th1 i).pc = .postExit → (s'.th1 i).pc = (s.th1 i).pc)
    (loops : ∀ c, (s.loops c).running = true → (s'.loops c).running = true)
    (rx : ∀ c, (s'.clients c).rx = (s.clients c).rx) : Chain s' := by
  have live : s'.liveEvent = s.liveEvent := by
    rw [State.liveEvent, State.liveEvent, tcEvent, events]
  apply chain.mono live _ _ th2 th1
  · intro c _ _ isRunning attached
    exact .inl ⟨loops c isRunning, by rw [rx, attached]⟩
  · intro event pending
    rwa [events]
  · intro event pending
    rwa [events]

private theorem chain_loopMove (chain : Chain s) {c : ClientId} {input : LoopInput} {pc : LoopPc}
    (moves : LoopMove s.endFlag (s.clients c).rx (s.loops c) input pc)
    (announced : leavesSilently s c input = false) : Chain (s.setLoop c pc) := by
  refine chain.frame rfl rfl rfl (fun _ _ => rfl) ?_ (fun _ => rfl)
  intro d isRunning
  by_cases same : d = c
  · subst same
    simpa [State.setLoop] using running_stays moves isRunning announced
  · simpa [State.setLoop, same] using isRunning

private theorem chain_loopPost (chain : Chain s) {event : EventId} (live : s.liveEvent = some event)
    (c : ClientId) (pc : LoopPc) : Chain ((s.postClose event c).setLoop c pc) := by
  refine chain.mono (liveEvent_setEvent event _ rfl) ?_ ?_ rfl (fun _ _ => rfl) ?_
  · intro e pending
    by_cases isEvent : e = event
    · simpa [State.setLoop, State.postClose, State.setEvent, isEvent] using isEvent ▸ pending
    · simpa [State.setLoop, State.postClose, State.setEvent, isEvent] using pending
  · intro e pending
    by_cases isEvent : e = event
    · simp [State.setLoop, State.postClose, State.setEvent, isEvent]
    · simpa [State.setLoop, State.postClose, State.setEvent, isEvent] using pending
  · intro d e isLive _ _
    obtain rfl : e = event := Option.some.inj (isLive.symm.trans live)
    exact .inr (by simp [State.setLoop, State.postClose, State.setEvent])

private theorem chain_takeClose (chain : Chain s) {event : EventId}
    (live : s.liveEvent = some event) (i : Nat) :
    Chain ((s.takeClose event).setTh1 i .postExit) := by
  have liveStill := (liveEvent_setEvent event
    { s.events event with close := false, closeBy := [] } rfl).trans live
  rcases chain.th2_cases with ⟨j, isAt⟩ | ⟨j, _, -, isAt | waits⟩
  · exact .clearing j isAt
  · exact .deleting j event liveStill isAt
  · exact .posting i j event liveStill waits (by simp [State.setTh1])

private theorem chain_postExit (chain : Chain s) {event : EventId}
    (live : s.liveEvent = some event) (i : Nat) (pc : Th1Pc) :
    Chain ((s.postExit event).setTh1 i pc) := by
  have liveStill := (liveEvent_setEvent event { s.events event with exit := true } rfl).trans live
  rcases chain.th2_cases with ⟨j, isAt⟩ | ⟨j, _, -, isAt | waits⟩
  · exact .clearing j isAt
  · exact .deleting j event liveStill isAt
  · exact .exit j event liveStill waits (by simp [State.setTh1, State.postExit, State.setEvent])

private theorem setTh1_closing {i : Nat} {part : Part} (isAt : (s.th1 i).pc = .closing part)
    (pc : Th1Pc) (k : Nat) (early : (s.th1 k).pc = .wait ∨ (s.th1 k).pc = .postExit) :
    ((s.setTh1 i pc).th1 k).pc = (s.th1 k).pc := by
  have different : k ≠ i := by
    rintro rfl
    simp [isAt] at early
  simp [State.setTh1, different]

private theorem chain_release (chain : Chain s) {i : Nat} {part : Part}
    (isAt : (s.th1 i).pc = .closing part) (client : ClientId) (pc : Th1Pc) :
    Chain ((s.setClient client (((s.clients client).release part).clearField part)).setTh1 i
      pc) := by
  refine chain.frame rfl rfl rfl (setTh1_closing isAt pc) (fun _ => id) ?_
  intro d
  by_cases same : d = client
  · simp [State.setTh1, State.setClient, Client.release, same]
  · simp [State.setTh1, State.setClient, same]

/-- Under an exclusive lock a caller inside is the one that waits. -/
private theorem only_waits (exclusive : MutuallyExclusive s) {t u : Tid} {nested : Bool}
    {pc : CallerPc} (isWaiting : s.callers t = .waitEnd nested) (isAt : s.callers u = pc)
    (isInside : pc.inside = true) : pc = .waitEnd nested := by
  obtain rfl := exclusive t u (by rw [isWaiting]; rfl) (by rw [isAt]; exact isInside)
  rw [← isAt, isWaiting]

theorem chain_step (exclusive : MutuallyExclusive s) {t : Tid} {nested : Bool}
    (isWaiting : s.callers t = .waitEnd nested) (keeps : KeepsChain s label)
    (taken : Taken s label s') (chain : Chain s) : s'.endFlag = false ∨ Chain s' := by
  have other : ∀ {u pc}, s.callers u = pc → pc.inside = true → pc = .waitEnd nested :=
    fun isAt isInside => only_waits exclusive isWaiting isAt isInside
  cases taken with
  | clearEnd u isAt | createEvent u isAt | createEventFails u isAt | createTh1 u isAt
  | createTh1Fails u isAt | createTh2 u isAt | createTh2Fails u isAt | attachRxCb u isAt =>
      cases other isAt rfl
  | startOk u _ isAt | startNull u _ _ isAt | startAsserted u _ _ isAt | startup u _ isAt
  | storeHdl u _ isAt | startTh1 u _ isAt | startTh2 u _ isAt | setEnd u _ isAt =>
      cases other isAt rfl
  | spins | waits | th1Polls | th2Polls => exact .inr chain
  | callConnect | callDisconnect | callSend | move | lockStore | unlock | unlockToDisconnect =>
      exact .inr (chain.frame rfl rfl rfl (fun _ _ => rfl) (fun _ => id) (fun _ => rfl))
  | loopMove c input pc moves =>
      exact .inr (chain_loopMove chain moves (keeps ⟨t, nested, isWaiting⟩))
  | loopPost c message event isAt live => exact .inr (chain_loopPost chain live c message.next)
  | takeClose i ok event isAt live => exact .inr (chain_takeClose chain live i)
  | postExit i ok event client isAt live | postExitNull i ok event isAt live =>
      exact .inr (chain_postExit chain live i _)
  | close i ok client part next isAt => exact .inr (chain_release chain isAt client _)
  | free i ok client isAt => exact .inr (chain_release chain isAt client _)
  | closeAsserts i ok part isAt =>
      exact .inr (chain.frame rfl rfl rfl (setTh1_closing isAt _) (fun _ => id) (fun _ => rfl))
  | takeExit j event isAt live =>
      have liveStill :=
        (liveEvent_setEvent event { s.events event with exit := false } rfl).trans live
      exact .inr (.deleting j event liveStill (by simp [State.setTh2]))
  | deleteEvent j => exact .inr (.clearing j (by simp [State.setTh2]))
  | th2ClearEnd => exact .inl rfl
  | loopAsserts _ _ _ dead | th1Asserts _ _ _ dead =>
      obtain ⟨j, isAt⟩ := chain.clearing_of_dead dead
      exact .inr (.clearing j isAt)
  | th2Asserts j isAt dead =>
      obtain ⟨k, clearing⟩ := chain.clearing_of_dead dead
      have different : k ≠ j := by
        rintro rfl
        simp [clearing] at isAt
      exact .inr (.clearing k (by simpa [State.setTh2, different] using clearing))
  | reclaim c isAt =>
      refine .inr (chain.frame rfl rfl rfl (fun _ _ => rfl) ?_ (fun _ => rfl))
      intro d isRunning
      have different : d ≠ c := by
        rintro rfl
        simp [isAt, LoopPc.running] at isRunning
      simpa [State.setLoop, different] using isRunning

/-! ### Every wait -/

private theorem chain_of_wait_step (exclusive : MutuallyExclusive s)
    (inv : ∀ t nested, s.callers t = .waitEnd nested → s.endFlag = true → Chain s)
    (keeps : KeepsChain s label) (taken : Taken s label s') {t : Tid} {nested : Bool}
    (isWaiting : s'.callers t = .waitEnd nested) (isSet : s'.endFlag = true) : Chain s' := by
  rcases taken.caller_cases t with same | moved
  · rw [same] at isWaiting
    have wasSet : s.endFlag = true := by
      rcases taken.endFlag_cases with unchanged | ⟨u, isAt, -⟩ | ⟨j, -, -, cleared⟩ |
        ⟨u, other, -, isAt, -⟩
      · rw [← unchanged, isSet]
      · cases only_waits exclusive isWaiting isAt rfl
      · simp [cleared] at isSet
      · cases only_waits exclusive isWaiting isAt rfl
    rcases chain_step exclusive isWaiting keeps taken (inv t nested isWaiting wasSet) with
      cleared | chain
    · simp [cleared] at isSet
    · exact chain
  · obtain ⟨rfl, before⟩ := moved.to_waitEnd isWaiting
    have ran := taken.run_eq
    simp only [runStep, before, Option.some.injEq] at ran
    rw [← ran]
    exact (keeps nested before).frame rfl rfl rfl (fun _ _ => rfl) (fun _ => id) (fun _ => rfl)

/-- In every run with an exclusive lock in which `end` is set with the chain
intact and no loop leaves silently while a caller waits, no wait is stuck. -/
theorem disconnect_not_stuck {s : State}
    (reach : netSystem.Reaches
      (fun s label => storesFree s label = true ∧ KeepsChain s label) s) : NotStuck s := by
  have chain : ∀ t nested, s.callers t = .waitEnd nested → s.endFlag = true → Chain s := by
    refine reach.invariant_of
      (fun _ before => mutuallyExclusive_of_reaches (fun _ _ admitted => admitted.1) before)
      (fun s => ∀ t nested, s.callers t = .waitEnd nested → s.endFlag = true → Chain s) ?_ ?_
    · intro t nested isWaiting
      simp [netSystem, State.init] at isWaiting
    · intro s label s' exclusive inv admitted ran t nested
      exact chain_of_wait_step exclusive inv admitted.2 (step_taken ran)
  intro t nested isWaiting isSet
  exact canClear_of_chain (chain t nested isWaiting isSet)

/-- The chain is intact when the first client of a run is disconnected. -/
private def firstSession (s : State) (label : Label) : Bool :=
  storesFree s label &&
  match label with
  | .run t => !(s.callers t matches .setEnd _) ||
      (s.liveEvent == some 0 && s.th2 0 == .wait && (s.th1 0).pc == .wait &&
        (s.loops 0).running && (s.clients 0).rx)
  | .loop c input => !leavesSilently s c input
  | _ => true

private theorem firstSession_keeps (s : State) (label : Label)
    (first : firstSession s label = true) :
    storesFree s label = true ∧ KeepsChain s label := by
  obtain ⟨inTime, rest⟩ := Bool.and_eq_true_iff.mp first
  refine ⟨inTime, ?_⟩
  cases label with
  | run t =>
      intro nested isAt
      simp only [isAt, Bool.not_true, Bool.false_or, Bool.and_eq_true, beq_iff_eq] at rest
      obtain ⟨⟨⟨⟨live, th2⟩, th1⟩, isRunning⟩, attached⟩ := rest
      exact .loop 0 0 0 0 live th2 th1 isRunning attached
  | loop c input =>
      intro _
      simpa using rest
  | _ => trivial

/-- A `disconnect` of a running session waits and is not stuck. -/
theorem disconnect_not_stuck_running :
    ∃ s, s.callers 1 = .waitEnd false ∧ s.endFlag = true ∧ NotStuck s := by
  have reach := netSystem.runWhile_reaches firstSession (connects 0 0 ++ waitsForEnd 1)
  exact ⟨_, by decide +kernel, by decide +kernel,
    disconnect_not_stuck (reach.mono firstSession_keeps)⟩

/-- While `disconnect` waits, the connection is reset: `recv` fails and the
loop leaves. -/
def resetWhileWaiting : List Label :=
  connects 0 0 ++ waitsForEnd 1 ++
    [.loop 0 (.ready true false), .loop 0 .failed, .loop 0 .go]

/-- A caller waits for `end` and nobody can clear it. -/
theorem disconnect_stuck :
    ∃ s, netSystem.Reachable s ∧ s.callers 1 = .waitEnd false ∧ s.endFlag = true ∧
      ¬ CanClear s := by
  have reach := netSystem.run_reachable resetWhileWaiting
  have handles := handles_of_reaches reach
  have counted := counted_of_reaches reach
  refine ⟨netSystem.run resetWhileWaiting, reach, by decide +kernel, by decide +kernel, ?_⟩
  have loops : ∀ c, ((netSystem.run resetWhileWaiting).loops c).running = false
    | 0 => by decide +kernel
    | c + 1 => by rw [handles.loopAbsent (c + 1) (Nat.le_add_left 1 c)]; rfl
  have th1 : ∀ i, ((netSystem.run resetWhileWaiting).th1 i).pc ≠ .postExit
    | 0 => by decide +kernel
    | i + 1 => by rw [counted.th1Absent (i + 1) (Nat.le_add_left 1 i)]; decide
  have th2 : ∀ j, (netSystem.run resetWhileWaiting).th2 j ≠ .deleteEvent ∧
      (netSystem.run resetWhileWaiting).th2 j ≠ .clearEnd
    | 0 => by decide +kernel
    | j + 1 => by rw [counted.th2Absent (j + 1) (Nat.le_add_left 1 j)]; decide
  have live : (netSystem.run resetWhileWaiting).liveEvent = some 0 := by decide +kernel
  rintro (⟨c, i, j, isRunning, -, -⟩ | ⟨i, j, ⟨event, isLive, pending⟩, -, -⟩ | ⟨i, j, isAt, -⟩ |
    ⟨j, ⟨event, isLive, pending⟩, -⟩ | ⟨j, isAt⟩)
  · simp [loops c] at isRunning
  · obtain rfl : 0 = event := Option.some.inj (live.symm.trans isLive)
    exact absurd pending (by decide +kernel)
  · exact th1 i isAt
  · obtain rfl : 0 = event := Option.some.inj (live.symm.trans isLive)
    exact absurd pending (by decide +kernel)
  · exact isAt.elim (th2 j).1 (th2 j).2

end RttIctl.Net
