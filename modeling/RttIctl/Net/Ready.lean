import RttIctl.Net.Handle

/-!
Owns whether a session is ready when its loop runs: the callback attached and
the event of `tc_event` live, and with them the delivery of what the loop
receives. `rt_tcpclient_start` starts the `tcpc` thread, which has the higher
priority, before `connect` attaches the callback and creates the event, and
`tcth2` deletes the event while other threads may still use it.
-/

namespace RttIctl.Net

open Lib (StepSystem)

/-- Every `tcpc` thread inside `select_handle` has its callback attached, and
`tc_event` denotes a live event. -/
def Ready (s : State) : Prop :=
  ∀ c, (s.loops c).inSelectHandle = true →
    (s.clients c).rx = true ∧ s.liveEvent.isSome = true

/-! ### What a history received, delivered and posted -/

/-- The chunk that a step received from the peer of a client. -/
def receivedBy (c : ClientId) : State × Label → Option Bytes
  | (s, .loop d (.data bytes)) => if d = c ∧ (s.loops c matches .recv _) then some bytes else none
  | _ => none

/-- The chunk with which a step called the callback. -/
def deliveredBy (c : ClientId) : State × Label → Option Bytes
  | (s, .loop d .go) =>
      match s.loops c with
      | .rxCall (.chunk bytes _) => if d = c ∧ (s.clients c).rx then some bytes else none
      | _ => none
  | _ => none

/-- Does the step find the connection gone and give notice? -/
def noticedBy (c : ClientId) : State × Label → Bool
  | (s, .loop d input) =>
      d == c &&
      match s.loops c, input with
      | .select, .selectError => true
      | .testEnd, .go => s.endFlag
      | .recv _, .closed => true
      | .readPipe, .closed => true
      | _, _ => false
  | _ => false

/-- Does the step post `TC_TCPCLIENT_CLOSE` for a notice? -/
def postedBy (c : ClientId) : State × Label → Bool
  | (s, .loop d .go) => d == c && (s.loops c matches .rxPost .notice) && s.liveEvent.isSome
  | _ => false

/-- The chunk on its way to the callback. -/
def LoopPc.chunkInFlight : LoopPc → Option Bytes
  | .rxCall (.chunk bytes _) => some bytes
  | _ => none

/-- Is a notice on its way to the event? -/
def LoopPc.noticeInFlight : LoopPc → Nat
  | .rxCall .notice | .rxCb .notice | .rxPost .notice => 1
  | _ => 0

/-- Is the next statement of the thread an `rt_event_send`, `rt_event_recv` or
`rt_event_delete` on `tc_event`? -/
def usesEvent (s : State) : Label → Bool
  | .loop c .go => (s.loops c matches .rxPost _)
  | .th1 i _ => (s.th1 i).pc == .wait || (s.th1 i).pc == .postExit
  | .th2 j => s.th2 j == .wait || s.th2 j == .deleteEvent
  | _ => false

/-- Every chunk received is delivered exactly once and in order, or is the one
in flight; every notice is posted, or is in flight; every operation on
`tc_event` found a live event. Histories have the latest step first. -/
structure Delivers (past : List (State × Label)) (s : State) : Prop where
  chunks : ∀ c, past.filterMap (receivedBy c) =
    (s.loops c).chunkInFlight.toList ++ past.filterMap (deliveredBy c)
  notices : ∀ c, past.countP (noticedBy c) =
    (s.loops c).noticeInFlight + past.countP (postedBy c)
  targets : ∀ entry ∈ past, usesEvent entry.1 entry.2 = true → entry.1.liveEvent.isSome = true

/-! ### The conditions -/

/-- Apart from one `tcth2`, if any, no thread has `tc_event` still to use. -/
structure Unused (s : State) (except : Option Nat) : Prop where
  loops : ∀ c, (s.loops c).inSelectHandle = false
  th1 : ∀ i, (s.th1 i).pc ≠ .wait ∧ (s.th1 i).pc ≠ .postExit
  th2 : ∀ j, except ≠ some j → s.th2 j ≠ .wait ∧ s.th2 j ≠ .deleteEvent

/-- A `tcpc` thread enters `select_handle` with its callback attached and the
event live, `connect` starts the helpers with the event live, the event is
given up (deleted, or not created) when nobody else uses it, and the callback
has memory for a notice. -/
def KeepsReady (s : State) : Label → Prop
  | .loop c (.malloc ok) =>
      (s.loops c = .entry → ok = true → (s.clients c).rx = true ∧ s.liveEvent.isSome = true) ∧
        (s.loops c = .rxCb .notice → ok = true)
  | .run t => ∀ i, s.callers t = .startTh1 i ∨ s.callers t = .startTh2 i →
      s.liveEvent.isSome = true
  | .create t ok => s.callers t = .createEvent → ok = false → Unused s none
  | .th2 j => s.th2 j = .deleteEvent → Unused s (some j)
  | _ => True

variable {s s' : State} {label : Label}

/-! ### Users of the event find it live -/

/-- `Ready`, and the same of the helper threads. -/
structure Served (s : State) : Prop where
  loops : Ready s
  th1 : ∀ i, (s.th1 i).pc = .wait ∨ (s.th1 i).pc = .postExit → s.liveEvent.isSome = true
  th2 : ∀ j, s.th2 j = .wait ∨ s.th2 j = .deleteEvent → s.liveEvent.isSome = true

theorem LoopMove.wasInside {endFlag rx : Bool} {pc next : LoopPc} {input : LoopInput}
    (moves : LoopMove endFlag rx pc input next) (isInside : next.inSelectHandle = true) :
    pc.inSelectHandle = true ∨ pc = .entry ∧ input = .malloc true := by
  cases moves with
  | enter => exact .inr ⟨rfl, rfl⟩
  | noMemory | leave => cases isInside
  | _ => exact .inl rfl

/-- A thread is inside `select_handle` because it was, or has just entered. -/
theorem Taken.inside_cases (taken : Taken s label s') {c : ClientId}
    (isInside : (s'.loops c).inSelectHandle = true) :
    (s.loops c).inSelectHandle = true ∨ s.loops c = .entry ∧ label = .loop c (.malloc true) := by
  rcases taken.loop_cases c with same | moved
  · exact .inl (same ▸ isInside)
  · generalize s'.loops c = pc at moved isInside
    cases moved with
    | created _ _ _ _ unstarted => rcases unstarted with rfl | rfl <;> cases isInside
    | next input _ moves =>
        rcases moves.wasInside isInside with wasInside | ⟨isEntry, rfl⟩
        · exact .inl wasInside
        · exact .inr ⟨isEntry, rfl⟩
    | post _ _ isAt | asserts _ isAt =>
        rw [isAt]
        exact .inl rfl
    | startup | reclaim => cases isInside

private theorem live_stays (taken : Taken s label s') (live : s.liveEvent.isSome = true)
    (notCreate : ∀ t ok, label ≠ .create t ok) (notTh2 : ∀ j, label ≠ .th2 j) :
    s'.liveEvent.isSome = true := by
  rcases taken.liveEvent_cases with same | created | ⟨t, isCreate, -⟩ | ⟨j, isTh2, -⟩
  · rw [same, live]
  · exact created
  · exact absurd isCreate (notCreate t false)
  · exact absurd isTh2 (notTh2 j)

/-- The event stays live, or nobody used it but the `tcth2` that deleted it. -/
private theorem live_or_unused (keeps : KeepsReady s label) (taken : Taken s label s')
    (live : s.liveEvent.isSome = true) :
    s'.liveEvent.isSome = true ∨ ∃ except, Unused s except ∧
      ∀ j, except = some j → s'.th2 j = .clearEnd := by
  rcases taken.liveEvent_cases with same | created | ⟨t, rfl, isAt⟩ | ⟨j, rfl, isAt, after⟩
  · exact .inl (by rw [same, live])
  · exact .inl created
  · exact .inr ⟨none, keeps isAt rfl, nofun⟩
  · exact .inr ⟨some j, keeps isAt, by simpa using after⟩

private theorem ready_step (handles : Handles s) (inv : Served s) (keeps : KeepsReady s label)
    (taken : Taken s label s') : Ready s' := by
  intro c isInside
  have below : c < s.clientCount := by
    by_contra above
    have absent := handles.loopAbsent c (Nat.not_lt.mp above)
    rcases taken.inside_cases isInside with wasInside | ⟨isEntry, -⟩
    · simp [absent, LoopPc.inSelectHandle, LoopPc.running] at wasInside
    · simp [absent] at isEntry
  rcases taken.inside_cases isInside with wasInside | ⟨isEntry, rfl⟩
  · obtain ⟨attached, live⟩ := inv.loops c wasInside
    refine ⟨taken.rx_stays below attached, ?_⟩
    rcases live_or_unused keeps taken live with still | ⟨except, unused, -⟩
    · exact still
    · simp [unused.loops c] at wasInside
  · obtain ⟨attached, live⟩ := keeps.1 isEntry rfl
    exact ⟨taken.rx_stays below attached, live_stays taken live nofun nofun⟩

private theorem servedTh1_step (inv : Served s) (keeps : KeepsReady s label)
    (taken : Taken s label s') {i : Nat}
    (uses : (s'.th1 i).pc = .wait ∨ (s'.th1 i).pc = .postExit) : s'.liveEvent.isSome = true := by
  have before : (s.th1 i).pc = .wait ∨ (s.th1 i).pc = .postExit →
      s'.liveEvent.isSome = true := by
    intro used
    rcases live_or_unused keeps taken (inv.th1 i used) with still | ⟨except, unused, -⟩
    · exact still
    · exact absurd used (not_or.mpr (unused.th1 i))
  rcases taken.th1_cases i with same | created | ⟨-, moved⟩
  · exact before (same ▸ uses)
  · simp [created.created] at uses
  · generalize (s'.th1 i).pc = pc at moved uses
    cases moved with
    | startTh1 t isAt => exact live_stays taken (keeps i (.inl isAt)) nofun nofun
    | takeClose _ _ isAt => exact before (.inl isAt)
    | postExit | postExitNull | close | free | asserts => simp at uses

private theorem servedTh2_step (inv : Served s) (keeps : KeepsReady s label)
    (taken : Taken s label s') {j : Nat} (uses : s'.th2 j = .wait ∨ s'.th2 j = .deleteEvent) :
    s'.liveEvent.isSome = true := by
  have before : s.th2 j = .wait ∨ s.th2 j = .deleteEvent → s'.liveEvent.isSome = true := by
    intro used
    rcases live_or_unused keeps taken (inv.th2 j used) with still | ⟨except, unused, after⟩
    · exact still
    · have isDeleted : except = some j := by
        by_contra other
        exact absurd used (not_or.mpr (unused.th2 j other))
      simp [after j isDeleted] at uses
  rcases taken.th2_cases j with same | created | moved
  · exact before (same ▸ uses)
  · simp [created.created] at uses
  · generalize (s'.th2 j) = pc at moved uses
    cases moved with
    | startTh2 t isAt => exact live_stays taken (keeps j (.inr isAt)) nofun nofun
    | takeExit _ isAt => exact before (.inl isAt)
    | deleteEvent | clearEnd | asserts => simp at uses

theorem served_step (handles : Handles s) (inv : Served s) (keeps : KeepsReady s label)
    (taken : Taken s label s') : Served s' where
  loops := ready_step handles inv keeps taken
  th1 _ := servedTh1_step inv keeps taken
  th2 _ := servedTh2_step inv keeps taken

/-! ### One step of the accounts -/

/-- A loop that is not at its own next statement has nothing in flight. -/
private theorem inFlight_other (handles : Handles s) (taken : Taken s label s') {c : ClientId}
    (other : ∀ input, label ≠ .loop c input) :
    (s'.loops c).chunkInFlight = (s.loops c).chunkInFlight ∧
      (s'.loops c).noticeInFlight = (s.loops c).noticeInFlight := by
  rcases taken.loop_cases c with same | moved
  · rw [same]
    exact ⟨rfl, rfl⟩
  · generalize s'.loops c = pc at moved
    cases moved with
    | created _ _ isNew _ unstarted =>
        rw [handles.loopAbsent c (Nat.le_of_eq isNew.symm)]
        rcases unstarted with rfl | rfl <;> exact ⟨rfl, rfl⟩
    | startup t isAt =>
        rw [handles.startupCreated t c isAt]
        exact ⟨rfl, rfl⟩
    | reclaim isAt =>
        rw [isAt]
        exact ⟨rfl, rfl⟩
    | next input | post | asserts => exact absurd rfl (other _)

private theorem next_inFlight (message : Message) :
    message.next.chunkInFlight = none ∧ message.next.noticeInFlight = 0 := by
  cases message with
  | notice => exact ⟨rfl, rfl⟩
  | chunk bytes pipeReady =>
      simp only [Message.next]
      split
      · exact ⟨rfl, rfl⟩
      · split <;> exact ⟨rfl, rfl⟩

private theorem accounts_other {c : ClientId} (other : ∀ input, label ≠ .loop c input) :
    receivedBy c (s, label) = none ∧ deliveredBy c (s, label) = none ∧
      noticedBy c (s, label) = false ∧ postedBy c (s, label) = false := by
  cases label with
  | loop d input =>
      have different : d ≠ c := by
        rintro rfl
        exact other input rfl
      refine ⟨?_, ?_, ?_, ?_⟩
      · cases input <;> simp [receivedBy, different]
      · cases input <;> simp [deliveredBy, different]
        split <;> rfl
      · simp [noticedBy, different]
      · cases input <;> simp [postedBy, different]
  | _ => exact ⟨rfl, rfl, rfl, rfl⟩

/-- A chunk is received, handed over or left alone. -/
private theorem chunk_step (handles : Handles s) (ready : Ready s) (taken : Taken s label s')
    (c : ClientId) :
    (receivedBy c (s, label)).toList ++ (s.loops c).chunkInFlight.toList =
      (s'.loops c).chunkInFlight.toList ++ (deliveredBy c (s, label)).toList := by
  by_cases isLoop : ∃ input, label = .loop c input
  · obtain ⟨input, rfl⟩ := isLoop
    cases taken with
    | loopMove _ _ pc moves =>
        have attached := ready c
        simp only [State.setLoop, Function.update_self]
        generalize isAt : s.loops c = current at moves attached
        cases moves with
        | skip message detached =>
            simp [detached, LoopPc.inSelectHandle, LoopPc.running] at attached
        | call message isAttached =>
            cases message <;> simp [receivedBy, deliveredBy, isAt, LoopPc.chunkInFlight, isAttached]
        | returns message ok =>
            rw [(next_inFlight message).1]
            simp [receivedBy, deliveredBy, LoopPc.chunkInFlight]
        | ready sock pipe =>
            cases sock <;> cases pipe <;>
              simp [receivedBy, deliveredBy, LoopPc.chunkInFlight, afterSelect]
        | _ => simp [receivedBy, deliveredBy, isAt, LoopPc.chunkInFlight]
    | loopPost _ message event isAt =>
        simp only [State.setLoop, Function.update_self]
        rw [(next_inFlight message).1]
        simp [receivedBy, deliveredBy, isAt, LoopPc.chunkInFlight]
    | loopAsserts _ message isAt =>
        simp [receivedBy, deliveredBy, isAt, LoopPc.chunkInFlight, State.setLoop]
  · have other : ∀ input, label ≠ .loop c input := fun input isInput => isLoop ⟨input, isInput⟩
    obtain ⟨received, delivered, -, -⟩ := accounts_other (s := s) other
    rw [received, delivered, (inFlight_other handles taken other).1]
    simp

/-- A notice is given, carried on, posted or left alone. -/
private theorem notice_step (handles : Handles s) (ready : Ready s) (keeps : KeepsReady s label)
    (taken : Taken s label s') (c : ClientId) :
    (noticedBy c (s, label)).toNat + (s.loops c).noticeInFlight =
      (s'.loops c).noticeInFlight + (postedBy c (s, label)).toNat := by
  by_cases isLoop : ∃ input, label = .loop c input
  · obtain ⟨input, rfl⟩ := isLoop
    cases taken with
    | loopMove _ _ pc moves =>
        have attached := ready c
        simp only [State.setLoop, Function.update_self]
        generalize isAt : s.loops c = current at moves attached
        cases moves with
        | skip message detached =>
            simp [detached, LoopPc.inSelectHandle, LoopPc.running] at attached
        | call message | posts message =>
            cases message <;> simp [noticedBy, postedBy, isAt, LoopPc.noticeInFlight]
        | returns message ok silent =>
            cases message with
            | notice =>
                obtain rfl := keeps.2 isAt
                simp [show rxCbPosts Message.notice.text = true by decide] at silent
            | chunk bytes pipeReady =>
                rw [(next_inFlight (.chunk bytes pipeReady)).2]
                simp [noticedBy, postedBy, isAt, LoopPc.noticeInFlight]
        | ready sock pipe =>
            cases sock <;> cases pipe <;>
              simp [noticedBy, postedBy, isAt, LoopPc.noticeInFlight, afterSelect]
        | ended isSet | again isSet =>
            simp [noticedBy, postedBy, isAt, isSet, LoopPc.noticeInFlight]
        | _ => simp [noticedBy, postedBy, isAt, LoopPc.noticeInFlight]
    | loopPost _ message event isAt live =>
        simp only [State.setLoop, Function.update_self]
        rw [(next_inFlight message).2]
        cases message <;> simp [noticedBy, postedBy, isAt, live, LoopPc.noticeInFlight]
    | loopAsserts _ message isAt dead =>
        have live := (ready c (by rw [isAt]; rfl)).2
        simp [dead] at live
  · have other : ∀ input, label ≠ .loop c input := fun input isInput => isLoop ⟨input, isInput⟩
    obtain ⟨-, -, noticed, posted⟩ := accounts_other (s := s) other
    rw [noticed, posted, (inFlight_other handles taken other).2]
    simp

private theorem target_live (inv : Served s) (uses : usesEvent s label = true) :
    s.liveEvent.isSome = true := by
  cases label with
  | loop c input =>
      cases input <;> simp only [usesEvent, Bool.false_eq_true] at uses
      split at uses
      · next message isAt => exact (inv.loops c (by rw [isAt]; rfl)).2
      · cases uses
  | th1 i ok => exact inv.th1 i (by simpa [usesEvent] using uses)
  | th2 j => exact inv.th2 j (by simpa [usesEvent] using uses)
  | _ => cases uses

private theorem filterMap_cons_toList {α β : Type} (f : α → Option β) (a : α) (l : List α) :
    (a :: l).filterMap f = (f a).toList ++ l.filterMap f := by
  cases isF : f a <;> simp [isF]

theorem delivers_step {past : List (State × Label)} (handles : Handles s) (served : Served s)
    (inv : Delivers past s) (keeps : KeepsReady s label) (taken : Taken s label s') :
    Delivers ((s, label) :: past) s' := by
  refine ⟨?_, ?_, ?_⟩
  · intro c
    have moved := chunk_step handles served.loops taken c
    rw [filterMap_cons_toList, filterMap_cons_toList, inv.chunks c, ← List.append_assoc, moved,
      List.append_assoc]
  · intro c
    have moved := notice_step handles served.loops keeps taken c
    have before := inv.notices c
    rw [List.countP_cons, List.countP_cons]
    cases noticed : noticedBy c (s, label) <;> cases posted : postedBy c (s, label) <;>
      simp_all <;> omega
  · rw [List.forall_mem_cons]
    exact ⟨target_live served, inv.targets⟩

/-! ### Whole histories -/

private theorem init_served : Served .init := by
  constructor
  · intro c isInside
    simp [State.init, LoopPc.inSelectHandle, LoopPc.running] at isInside
  · simp [State.init]
  · simp [State.init]

/-- Along every history in which `tcpc` threads enter `select_handle` and
helpers start with the session ready, the event is given up when nobody else
uses it and the callback has memory for notices, every loop is ready, every
chunk is delivered exactly once, every notice is posted and every operation on
`tc_event` finds a live event. -/
theorem ready_before_running {past : List (State × Label)} {s : State}
    (history : netSystem.History past s) (met : StepSystem.EveryStep KeepsReady past) :
    StepSystem.Always Ready past s ∧ Delivers past s := by
  have all := history.invariant met
    (fun past s => Handles s ∧ Served s ∧ StepSystem.Always Ready past s ∧ Delivers past s) ?_ ?_
  · exact all.2.2
  · refine ⟨init_handles, init_served, ⟨by simp, init_served.loops⟩, ?_⟩
    exact ⟨fun c => rfl, fun c => rfl, by simp⟩
  · rintro past s label s' ⟨handles, served, ready, delivers⟩ keeps ran
    have taken := step_taken ran
    have after := served_step handles served keeps taken
    refine ⟨handles_step handles taken, after, ⟨?_, after.loops⟩,
      delivers_step handles served delivers keeps taken⟩
    rw [List.forall_mem_cons]
    exact ⟨ready.2, ready.1⟩

/-- No event is given up, and threads start with the session ready. -/
private def startsReady (s : State) : Label → Bool
  | .loop c (.malloc ok) =>
      ok && (s.loops c != .entry || (s.clients c).rx && s.liveEvent.isSome)
  | .run t => !(s.callers t matches .startTh1 _ | .startTh2 _) || s.liveEvent.isSome
  | .create _ ok => ok
  | .th2 j => s.th2 j != .deleteEvent
  | _ => true

private theorem startsReady_keeps (s : State) (label : Label)
    (starts : startsReady s label = true) : KeepsReady s label := by
  cases label with
  | loop c input =>
      cases input with
      | malloc ok =>
          obtain ⟨isOk, entering⟩ := Bool.and_eq_true_iff.mp starts
          exact ⟨fun isEntry _ => by simpa [isEntry] using entering, fun _ => isOk⟩
      | _ => trivial
  | run t =>
      rintro i (isAt | isAt) <;> simpa [startsReady, isAt] using starts
  | create t ok =>
      rintro _ rfl
      cases starts
  | th2 j =>
      intro isAt
      simp [startsReady, isAt] at starts
  | _ => trivial

/-- The `tcpc` thread enters `select_handle` after `connect` has returned, and
receives a chunk. -/
def entersLate : List Label :=
  (connects 0 0).filter (· != .loop 0 (.malloc true)) ++
    [.loop 0 (.malloc true), .loop 0 (.ready true false), .loop 0 (.data [104]), .loop 0 .go]

/-- A chunk received by a loop that started late is delivered. -/
theorem ready_before_running_late :
    ∃ past s, netSystem.History past s ∧ past.filterMap (deliveredBy 0) = [[104]] ∧
      StepSystem.Always Ready past s ∧ Delivers past s := by
  have history := netSystem.log_history entersLate
  have starts :
      (netSystem.log entersLate).1.all (fun entry => startsReady entry.1 entry.2) = true := by
    decide +kernel
  have met : StepSystem.EveryStep KeepsReady (netSystem.log entersLate).1 :=
    fun entry member => startsReady_keeps _ _ (List.all_eq_true.mp starts entry member)
  exact ⟨_, _, history, by decide +kernel, ready_before_running history met⟩

/-- The `tcpc` thread, of higher priority, runs as soon as it is started, and
receives a chunk before `connect` goes on. -/
def entersEarly : List Label :=
  (connects 0 0).take 8 ++
    [.loop 0 (.ready true false), .loop 0 (.data [104]), .loop 0 .go]

/-- A loop runs with no callback and no event, and a chunk is lost. -/
theorem chunk_lost_before_ready :
    ∃ past s, netSystem.History past s ∧ s.loops 0 = .select ∧ (s.clients 0).rx = false ∧
      s.liveEvent = none ∧ past.filterMap (receivedBy 0) = [[104]] ∧
      past.filterMap (deliveredBy 0) = [] ∧ ¬ Ready s ∧ ¬ Delivers past s := by
  refine ⟨_, _, netSystem.log_history entersEarly, ?_⟩
  have isSelect : (netSystem.log entersEarly).2.loops 0 = .select := by decide +kernel
  have detached : ((netSystem.log entersEarly).2.clients 0).rx = false := by decide +kernel
  have received : (netSystem.log entersEarly).1.filterMap (receivedBy 0) = [[104]] := by
    decide +kernel
  have delivered : (netSystem.log entersEarly).1.filterMap (deliveredBy 0) = [] := by
    decide +kernel
  refine ⟨isSelect, detached, by decide +kernel, received, delivered, ?_, ?_⟩
  · intro ready
    have attached := (ready 0 (by rw [isSelect]; rfl)).1
    simp [detached] at attached
  · intro delivers
    have chunks := delivers.chunks 0
    simp [received, delivered, isSelect, LoopPc.chunkInFlight] at chunks

end RttIctl.Net
