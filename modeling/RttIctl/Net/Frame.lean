import RttIctl.Net.StepCases

/-!
Owns who writes what: for each shared variable of the connection subsystem,
the steps that write it and what they leave there. Everything else leaves it
alone. Invariants that mention a variable only cite its lemma here.
-/

namespace RttIctl.Net

variable {s s' : State} {label : Label}

/-! ### The fields of `CCtrlNet` -/

/-- `socketHdl` is written by the assignment of `connect` alone. -/
theorem Taken.socketHdl_cases (taken : Taken s label s') :
    s'.socketHdl = s.socketHdl ∨
    ∃ t result, label = .run t ∧ s.callers t = .storeHdl result ∧
      s' = { s with socketHdl := result }.goto t .testStart := by
  cases taken with
  | storeHdl t result isAt => exact .inr ⟨t, result, rfl, isAt, rfl⟩
  | _ => exact .inl rfl

theorem Taken.clientCount_le (taken : Taken s label s') : s.clientCount ≤ s'.clientCount := by
  cases taken with
  | startOk | startNull | startAsserted => exact Nat.le_succ _
  | _ => exact Nat.le_refl _

/-- `end` is set by `disconnect`, and cleared by `connect` and by `tcth2`. -/
theorem Taken.endFlag_cases (taken : Taken s label s') :
    s'.endFlag = s.endFlag ∨ (∃ t, s.callers t = .clearEnd ∧ s'.endFlag = false) ∨
    (∃ j, label = .th2 j ∧ s.th2 j = .clearEnd ∧ s'.endFlag = false) ∨
    ∃ t nested, label = .run t ∧ s.callers t = .setEnd nested ∧ s'.endFlag = true := by
  cases taken with
  | clearEnd t isAt => exact .inr (.inl ⟨t, isAt, rfl⟩)
  | th2ClearEnd j isAt => exact .inr (.inr (.inl ⟨j, rfl, isAt, rfl⟩))
  | setEnd t nested isAt => exact .inr (.inr (.inr ⟨t, nested, rfl, isAt, rfl⟩))
  | _ => exact .inl rfl

/-- The ghost of a thread is written when it enters `disconnect` alone. -/
theorem Taken.currentAtCall_cases (taken : Taken s label s') (t : Tid) :
    s'.currentAtCall t = s.currentAtCall t ∨
      ∃ nested, s'.callers t = .lockTest (.disconnect nested) := by
  cases taken with
  | callDisconnect u =>
      by_cases same : t = u
      · exact .inr ⟨false, by simp [State.enterDisconnect, same]⟩
      · exact .inl (by simp [State.enterDisconnect, same])
  | unlockToDisconnect u =>
      by_cases same : t = u
      · exact .inr ⟨true, by simp [State.enterDisconnect, same]⟩
      · exact .inl (by simp [State.enterDisconnect, same])
  | _ => exact .inl rfl

/-! ### The record of a client -/

/-- What a statement leaves in the record of an existing client: the callback
attached, or one part given back. -/
inductive ClientTo (s : State) (c : ClientId) : Label → Client → Prop where
  | attach (t : Tid) : ClientTo s c (.run t) { s.clients c with rx := true }
  | release (i : Nat) (ok : Bool) (part : Part) (isAt : (s.th1 i).pc = .closing part)
      (param : (s.th1 i).param = some c) :
      ClientTo s c (.th1 i ok) (((s.clients c).release part).clearField part)

private theorem clients_update {c client : ClientId} {record : Client}
    (written : ClientTo s client label record) :
    Function.update s.clients client record c = s.clients c ∨
      ClientTo s c label (Function.update s.clients client record c) := by
  by_cases same : c = client
  · subst same
    exact .inr (by simpa using written)
  · exact .inl (by simp [same])

/-- What became of the record of one client. -/
theorem Taken.client_cases (taken : Taken s label s') {c : ClientId} (below : c < s.clientCount) :
    s'.clients c = s.clients c ∨ ClientTo s c label (s'.clients c) := by
  have notNew : c ≠ s.clientCount := Nat.ne_of_lt below
  cases taken with
  | startOk | startNull | startAsserted =>
      exact .inl (by simp [State.goto, State.addClient, notNew])
  | attachRxCb t isAt =>
      simp only [State.goto, State.attachRx]
      cases s.socketHdl with
      | none => exact .inl rfl
      | some client => exact clients_update (.attach t)
  | close i ok client part next isAt param => exact clients_update (.release i ok part isAt param)
  | free i ok client isAt param => exact clients_update (.release i ok .mem isAt param)
  | _ => exact .inl rfl

/-- A client is freed by the `tcth1` at the end of closing it alone. -/
theorem Taken.freed_cases (taken : Taken s label s') {c : ClientId} (below : c < s.clientCount) :
    (s'.Freed c ↔ s.Freed c) ∨
    ∃ i ok, label = .th1 i ok ∧ (s.th1 i).pc = .closing .mem ∧ (s.th1 i).param = some c := by
  unfold State.Freed
  rcases taken.client_cases below with same | written
  · exact .inl (by rw [same])
  · generalize s'.clients c = record at written
    cases written with
    | attach => exact .inl Iff.rfl
    | release i ok part isAt param =>
        by_cases isMem : part = .mem
        · exact .inr ⟨i, ok, rfl, by rw [isAt, isMem], param⟩
        · exact .inl (by simp [Client.release, Function.update_of_ne (Ne.symm isMem)])

/-- What is given back stays given back. -/
theorem Taken.released_stays (taken : Taken s label s') {c : ClientId} (below : c < s.clientCount)
    {part : Part} (given : (s.clients c).released part ≠ 0) :
    (s'.clients c).released part ≠ 0 := by
  rcases taken.client_cases below with same | written
  · rwa [same]
  · generalize s'.clients c = record at written
    cases written with
    | attach => exact given
    | release i ok other =>
        by_cases same : part = other
        · simp [Client.release, same]
        · simpa [Client.release, same] using given

/-- A callback once attached stays attached. -/
theorem Taken.rx_stays (taken : Taken s label s') {c : ClientId} (below : c < s.clientCount)
    (attached : (s.clients c).rx = true) : (s'.clients c).rx = true := by
  rcases taken.client_cases below with same | written
  · rwa [same]
  · generalize s'.clients c = record at written
    cases written with
    | attach => rfl
    | release => simpa [Client.release] using attached

/-- Nothing that is done to a client unlinks a mutex left behind, or leaves one. -/
theorem Taken.staleLock_stays (taken : Taken s label s') {c : ClientId}
    (below : c < s.clientCount) : (s'.clients c).staleLock = (s.clients c).staleLock := by
  rcases taken.client_cases below with same | written
  · rw [same]
  · generalize s'.clients c = record at written
    cases written with
    | attach => rfl
    | release => simp [Client.release]

/-! ### The `tcpc` threads -/

/-- How the `tcpc` thread of a client gets to its next statement. -/
inductive LoopTo (s : State) (c : ClientId) : Label → LoopPc → Prop where
  | created (t : Tid) (calls : StartCalls) (isNew : c = s.clientCount) (pc : LoopPc)
      (unstarted : pc = .created ∨ pc = .absent) : LoopTo s c (.start t calls) pc
  | startup (t : Tid) (isAt : s.callers t = .startup c) : LoopTo s c (.run t) .entry
  | next (input : LoopInput) (pc : LoopPc)
      (moves : LoopMove s.endFlag (s.clients c).rx (s.loops c) input pc) :
      LoopTo s c (.loop c input) pc
  | post (message : Message) (event : EventId) (isAt : s.loops c = .rxPost message)
      (live : s.liveEvent = some event) : LoopTo s c (.loop c .go) message.next
  | asserts (message : Message) (isAt : s.loops c = .rxPost message)
      (dead : s.liveEvent = none) : LoopTo s c (.loop c .go) .asserted
  | reclaim (isAt : s.loops c = .defunct) : LoopTo s c (.reclaim c) .reclaimed

private theorem loops_update {c client : ClientId} {pc : LoopPc}
    (moved : LoopTo s client label pc) :
    Function.update s.loops client pc c = s.loops c ∨
      LoopTo s c label (Function.update s.loops client pc c) := by
  by_cases same : c = client
  · subst same
    exact .inr (by simpa using moved)
  · exact .inl (by simp [same])

/-- What became of one `tcpc` thread: nothing, or its own next statement. -/
theorem Taken.loop_cases (taken : Taken s label s') (c : ClientId) :
    s'.loops c = s.loops c ∨ LoopTo s c label (s'.loops c) := by
  cases taken with
  | startOk t calls => exact loops_update (.created t calls rfl _ (.inl rfl))
  | startNull t calls | startAsserted t calls =>
      exact loops_update (.created t calls rfl _ (.inr rfl))
  | startup t client isAt => exact loops_update (.startup t isAt)
  | loopMove client input pc moves => exact loops_update (.next input pc moves)
  | loopPost client message event isAt live => exact loops_update (.post message event isAt live)
  | loopAsserts client message isAt dead => exact loops_update (.asserts message isAt dead)
  | reclaim client isAt => exact loops_update (.reclaim isAt)
  | _ => exact .inl rfl

/-! ### The helper threads -/

/-- How a `tcth1` gets to its next statement once it exists. -/
inductive Th1To (s : State) (i : Nat) : Label → Th1Pc → Prop where
  | startTh1 (t : Tid) (isAt : s.callers t = .startTh1 i) : Th1To s i (.run t) .wait
  | takeClose (ok : Bool) (event : EventId) (isAt : (s.th1 i).pc = .wait)
      (live : s.liveEvent = some event) (pending : (s.events event).close = true) :
      Th1To s i (.th1 i ok) .postExit
  | postExit (ok : Bool) (event : EventId) (client : ClientId) (isAt : (s.th1 i).pc = .postExit)
      (live : s.liveEvent = some event) (param : (s.th1 i).param = some client) :
      Th1To s i (.th1 i ok) (.closing .sock)
  | postExitNull (ok : Bool) (event : EventId) (isAt : (s.th1 i).pc = .postExit)
      (live : s.liveEvent = some event) (param : (s.th1 i).param = none) :
      Th1To s i (.th1 i ok) .finished
  | close (ok : Bool) (part next : Part) (isAt : (s.th1 i).pc = .closing part)
      (more : part.closeNext = some next) : Th1To s i (.th1 i ok) (.closing next)
  | free (ok : Bool) (isAt : (s.th1 i).pc = .closing .mem) : Th1To s i (.th1 i ok) .finished
  | asserts (ok : Bool) (alive : (s.th1 i).pc.alive = true) : Th1To s i (.th1 i ok) .asserted

/-- The `rt_thread_create` of a `tcth1`. -/
structure CreatesTh1 (s : State) (label : Label) (s' : State) (i : Nat) : Prop where
  isNew : i = s.th1Count
  counted : s'.th1Count = s.th1Count + 1
  created : s'.th1 i = ⟨.created, s.socketHdl⟩
  byCaller : ∃ t, label = .create t true ∧ s.callers t = .createTh1

private theorem th1_update {i k : Nat} {pc : Th1Pc} (after : State)
    (th1 : after.th1 = Function.update s.th1 k ⟨pc, (s.th1 k).param⟩)
    (moved : Th1To s k label pc) :
    after.th1 i = s.th1 i ∨ CreatesTh1 s label after i ∨
      (after.th1 i).param = (s.th1 i).param ∧ Th1To s i label (after.th1 i).pc := by
  by_cases same : i = k
  · subst same
    exact .inr (.inr (by simpa [th1] using moved))
  · exact .inl (by simp [th1, same])

/-- What became of one `tcth1`: nothing, its creation, or its own next
statement. -/
theorem Taken.th1_cases (taken : Taken s label s') (i : Nat) :
    s'.th1 i = s.th1 i ∨ CreatesTh1 s label s' i ∨
      (s'.th1 i).param = (s.th1 i).param ∧ Th1To s i label (s'.th1 i).pc := by
  cases taken with
  | createTh1 t isAt =>
      by_cases same : i = s.th1Count
      · exact .inr (.inl ⟨same, rfl, by simp [State.goto, State.addTh1, same], t, rfl, isAt⟩)
      · exact .inl (by simp [State.goto, State.addTh1, same])
  | startTh1 t index isAt => exact th1_update _ rfl (.startTh1 t isAt)
  | takeClose k ok event isAt live pending =>
      exact th1_update _ rfl (.takeClose ok event isAt live pending)
  | postExit k ok event client isAt live param =>
      exact th1_update _ rfl (.postExit ok event client isAt live param)
  | postExitNull k ok event isAt live param =>
      exact th1_update _ rfl (.postExitNull ok event isAt live param)
  | close k ok client part next isAt _ more =>
      exact th1_update _ rfl (.close ok part next isAt more)
  | free k ok client isAt => exact th1_update _ rfl (.free ok isAt)
  | th1Asserts k ok isAt =>
      refine th1_update _ rfl (.asserts ok ?_)
      rcases isAt with isAt | isAt <;> rw [isAt] <;> rfl
  | closeAsserts k ok part isAt => exact th1_update _ rfl (.asserts ok (by rw [isAt]; rfl))
  | _ => exact .inl rfl

/-- A `tcth1` keeps its parameter, which was `socketHdl` at its creation. -/
theorem Taken.param_cases (taken : Taken s label s') (i : Nat) :
    (s'.th1 i).param = (s.th1 i).param ∨ CreatesTh1 s label s' i := by
  rcases taken.th1_cases i with same | created | ⟨same, -⟩
  · exact .inl (by rw [same])
  · exact .inr created
  · exact .inl same

/-- How a `tcth2` gets to its next statement once it exists. -/
inductive Th2To (s : State) (j : Nat) : Label → Th2Pc → Prop where
  | startTh2 (t : Tid) (isAt : s.callers t = .startTh2 j) : Th2To s j (.run t) .wait
  | takeExit (event : EventId) (isAt : s.th2 j = .wait) (live : s.liveEvent = some event)
      (pending : (s.events event).exit = true) : Th2To s j (.th2 j) .deleteEvent
  | deleteEvent (event : EventId) (isAt : s.th2 j = .deleteEvent)
      (live : s.liveEvent = some event) : Th2To s j (.th2 j) .clearEnd
  | clearEnd (isAt : s.th2 j = .clearEnd) : Th2To s j (.th2 j) .finished
  | asserts (isAt : s.th2 j = .wait ∨ s.th2 j = .deleteEvent) (dead : s.liveEvent = none) :
      Th2To s j (.th2 j) .asserted

/-- The `rt_thread_create` of a `tcth2`. -/
structure CreatesTh2 (s : State) (label : Label) (s' : State) (j : Nat) : Prop where
  isNew : j = s.th2Count
  counted : s'.th2Count = s.th2Count + 1
  created : s'.th2 j = .created
  byCaller : ∃ t, label = .create t true ∧ s.callers t = .createTh2

private theorem th2_update {j k : Nat} {pc : Th2Pc} (after : State)
    (th2 : after.th2 = Function.update s.th2 k pc) (moved : Th2To s k label pc) :
    after.th2 j = s.th2 j ∨ CreatesTh2 s label after j ∨ Th2To s j label (after.th2 j) := by
  by_cases same : j = k
  · subst same
    exact .inr (.inr (by simpa [th2] using moved))
  · exact .inl (by simp [th2, same])

/-- What became of one `tcth2`. -/
theorem Taken.th2_cases (taken : Taken s label s') (j : Nat) :
    s'.th2 j = s.th2 j ∨ CreatesTh2 s label s' j ∨ Th2To s j label (s'.th2 j) := by
  cases taken with
  | createTh2 t isAt =>
      by_cases same : j = s.th2Count
      · exact .inr (.inl ⟨same, rfl, by simp [State.goto, State.addTh2, same], t, rfl, isAt⟩)
      · exact .inl (by simp [State.goto, State.addTh2, same])
  | startTh2 t index isAt => exact th2_update _ rfl (.startTh2 t isAt)
  | takeExit k event isAt live pending =>
      exact th2_update _ rfl (.takeExit event isAt live pending)
  | deleteEvent k event isAt live => exact th2_update _ rfl (.deleteEvent event isAt live)
  | th2ClearEnd k isAt => exact th2_update _ rfl (.clearEnd isAt)
  | th2Asserts k isAt dead => exact th2_update _ rfl (.asserts isAt dead)
  | _ => exact .inl rfl

/-! ### How many helper threads there are -/

/-- Helper threads are numbered in the order of their creation. -/
structure Counted (s : State) : Prop where
  th1Absent : ∀ i, s.th1Count ≤ i → (s.th1 i).pc = .absent
  th2Absent : ∀ j, s.th2Count ≤ j → s.th2 j = .absent
  startTh1Lt : ∀ t i, s.callers t = .startTh1 i → i < s.th1Count
  startTh2Lt : ∀ t j, s.callers t = .startTh2 j → j < s.th2Count

theorem Taken.counts_le (taken : Taken s label s') :
    s.th1Count ≤ s'.th1Count ∧ s.th2Count ≤ s'.th2Count := by
  cases taken with
  | createTh1 => exact ⟨Nat.le_succ _, Nat.le_refl _⟩
  | createTh2 => exact ⟨Nat.le_refl _, Nat.le_succ _⟩
  | _ => exact ⟨Nat.le_refl _, Nat.le_refl _⟩

private theorem CallerTo.to_startTh {t : Tid} {current pc : CallerPc}
    (moved : CallerTo s t label current pc) :
    (∀ i, pc = .startTh1 i → label = .create t true ∧ current = .createTh1 ∧ i = s.th1Count) ∧
    ∀ j, pc = .startTh2 j → label = .create t true ∧ current = .createTh2 ∧ j = s.th2Count := by
  cases moved with
  | createTh1 => exact ⟨fun i isAt => ⟨rfl, rfl, by simpa using isAt.symm⟩, nofun⟩
  | createTh2 => exact ⟨nofun, fun j isAt => ⟨rfl, rfl, by simpa using isAt.symm⟩⟩
  | move moves => cases moves <;> exact ⟨nofun, nofun⟩
  | unlock unlocks => cases unlocks <;> exact ⟨nofun, nofun⟩
  | lockStore entry => cases entry <;> exact ⟨nofun, nofun⟩
  | _ => exact ⟨nofun, nofun⟩

private theorem th1Absent_step (inv : Counted s) (taken : Taken s label s') {i : Nat}
    (above : s'.th1Count ≤ i) : (s'.th1 i).pc = .absent := by
  have wasAbsent := inv.th1Absent i (Nat.le_trans taken.counts_le.1 above)
  rcases taken.th1_cases i with same | created | ⟨-, moved⟩
  · rw [same, wasAbsent]
  · rw [created.counted, created.isNew] at above
    exact absurd above (Nat.not_succ_le_self _)
  · exfalso
    generalize (s'.th1 i).pc = pc at moved
    cases moved with
    | startTh1 t isAt =>
        exact Nat.not_lt.mpr (Nat.le_trans taken.counts_le.1 above) (inv.startTh1Lt t i isAt)
    | asserts _ alive => simp [wasAbsent, Th1Pc.alive] at alive
    | takeClose _ _ isAt | postExit _ _ _ isAt | postExitNull _ _ isAt | close _ _ _ isAt
    | free _ isAt => simp [wasAbsent] at isAt

private theorem th2Absent_step (inv : Counted s) (taken : Taken s label s') {j : Nat}
    (above : s'.th2Count ≤ j) : s'.th2 j = .absent := by
  have wasAbsent := inv.th2Absent j (Nat.le_trans taken.counts_le.2 above)
  rcases taken.th2_cases j with same | created | moved
  · rw [same, wasAbsent]
  · rw [created.counted, created.isNew] at above
    exact absurd above (Nat.not_succ_le_self _)
  · exfalso
    generalize s'.th2 j = pc at moved
    cases moved with
    | startTh2 t isAt =>
        exact Nat.not_lt.mpr (Nat.le_trans taken.counts_le.2 above) (inv.startTh2Lt t j isAt)
    | takeExit _ isAt | deleteEvent _ isAt | clearEnd isAt | asserts isAt =>
        simp [wasAbsent] at isAt

theorem counted_step (inv : Counted s) (taken : Taken s label s') : Counted s' := by
  have grows := taken.counts_le
  refine ⟨fun i => th1Absent_step inv taken, fun j => th2Absent_step inv taken, ?_, ?_⟩
  · intro t i isAt
    rcases taken.caller_cases t with same | moved
    · exact Nat.lt_of_lt_of_le (inv.startTh1Lt t i (same ▸ isAt)) grows.1
    · obtain ⟨rfl, wasAt, rfl⟩ := moved.to_startTh.1 i isAt
      have ran := taken.create_eq
      simp only [createStep, wasAt, if_true, Option.some.injEq] at ran
      rw [← ran]
      exact Nat.lt_succ_self _
  · intro t j isAt
    rcases taken.caller_cases t with same | moved
    · exact Nat.lt_of_lt_of_le (inv.startTh2Lt t j (same ▸ isAt)) grows.2
    · obtain ⟨rfl, wasAt, rfl⟩ := moved.to_startTh.2 j isAt
      have ran := taken.create_eq
      simp only [createStep, wasAt, if_true, Option.some.injEq] at ran
      rw [← ran]
      exact Nat.lt_succ_self _

theorem counted_of_reaches {admits : State → Label → Prop} (reach : netSystem.Reaches admits s) :
    Counted s := by
  refine reach.invariant Counted ?_ ?_
  · constructor <;> intros <;> simp_all [netSystem, State.init]
  · intro s label s' inv _ ran
    exact counted_step inv (step_taken ran)

/-! ### Who makes new objects -/

/-- The statements of `connect` that create an event or a helper thread. -/
def CallerPc.creates : CallerPc → Bool
  | .createEvent | .createTh1 | .createTh2 => true
  | _ => false

/-- One state has the objects of another and some more clients. -/
structure SameObjects (before s : State) (more : Nat) : Prop where
  clientCount : s.clientCount = before.clientCount + more
  eventCount : s.eventCount = before.eventCount
  th1Count : s.th1Count = before.th1Count
  th2Count : s.th2Count = before.th2Count

/-- New objects are made by `rt_tcpclient_start` and by those statements
alone. -/
theorem Taken.objects_cases (taken : Taken s label s') :
    SameObjects s s' 0 ∨ (∃ t calls, label = .start t calls ∧ s.callers t = .start) ∨
    ∃ t ok, label = .create t ok ∧ (s.callers t).creates = true := by
  cases taken with
  | startOk t calls isAt | startNull t calls _ isAt | startAsserted t calls _ isAt =>
      exact .inr (.inl ⟨t, calls, rfl, isAt⟩)
  | createEvent t isAt | createTh1 t isAt | createTh2 t isAt =>
      exact .inr (.inr ⟨t, true, rfl, by rw [isAt]; rfl⟩)
  | createEventFails t isAt | createTh1Fails t isAt | createTh2Fails t isAt =>
      exact .inr (.inr ⟨t, false, rfl, by rw [isAt]; rfl⟩)
  | _ => exact .inl ⟨rfl, rfl, rfl, rfl⟩

/-! ### The events -/

theorem liveEvent_setEvent (event : EventId) (record : Event)
    (same : record.live = (s.events event).live) :
    (s.setEvent event record).liveEvent = s.liveEvent := by
  simp only [State.liveEvent, State.setEvent]
  congr 1
  funext e
  by_cases isEvent : e = event
  · simp [isEvent, same]
  · simp [isEvent]

/-- The event that `tc_event` denotes changes when `connect` creates one or
fails to, and when `tcth2` deletes it. -/
theorem Taken.liveEvent_cases (taken : Taken s label s') :
    s'.liveEvent = s.liveEvent ∨ s'.liveEvent.isSome = true ∨
    (∃ t, label = .create t false ∧ s.callers t = .createEvent) ∨
    ∃ j, label = .th2 j ∧ s.th2 j = .deleteEvent ∧ s'.th2 j = .clearEnd := by
  cases taken with
  | createEvent => exact .inr (.inl (by simp [State.goto, State.addEvent, State.liveEvent]))
  | createEventFails t isAt => exact .inr (.inr (.inl ⟨t, rfl, isAt⟩))
  | deleteEvent j event isAt => exact .inr (.inr (.inr ⟨j, rfl, isAt, by simp [State.setTh2]⟩))
  | loopPost _ _ event | takeClose _ _ event | postExit _ _ event | postExitNull _ _ event
  | takeExit _ event => exact .inl (liveEvent_setEvent event _ rfl)
  | _ => exact .inl rfl

/-- A loop is noted as the sender of `TC_TCPCLIENT_CLOSE` by its own post
alone. -/
theorem Taken.closeBy_cases (taken : Taken s label s') {event : EventId} {c : ClientId}
    (posted : c ∈ (s'.events event).closeBy) :
    c ∈ (s.events event).closeBy ∨
    ∃ message, label = .loop c .go ∧ s.loops c = .rxPost message ∧ s'.loops c = message.next := by
  cases taken with
  | createEvent =>
      by_cases same : event = s.eventCount
      · simp [State.goto, State.addEvent, same] at posted
      · exact .inl (by simpa [State.goto, State.addEvent, same] using posted)
  | loopPost client message target isAt =>
      by_cases same : event = target
      · simp only [State.setLoop, State.postClose, State.setEvent, same, Function.update_self,
          List.mem_cons] at posted
        rcases posted with rfl | before
        · exact .inr ⟨message, rfl, isAt, by simp [State.setLoop]⟩
        · exact .inl (by rwa [same])
      · exact .inl (by simpa [State.setLoop, State.postClose, State.setEvent, same] using posted)
  | takeClose _ _ target =>
      by_cases same : event = target
      · simp [State.setTh1, State.takeClose, State.setEvent, same] at posted
      · exact .inl (by simpa [State.setTh1, State.takeClose, State.setEvent, same] using posted)
  | postExit _ _ target | postExitNull _ _ target | takeExit _ target | deleteEvent _ target =>
      refine .inl ?_
      by_cases same : event = target <;>
        simpa [State.setTh1, State.setTh2, State.postExit, State.takeExit, State.deleteEvent,
          State.setEvent, same] using posted
  | _ => exact .inl posted

end RttIctl.Net
