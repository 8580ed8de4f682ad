import RttIctl.Net.Handle
import RttIctl.Net.Start

/-!
Owns what a `connect` that returns `RT_ERROR` leaves behind. The label
`msk_err` serves every failure point and only unlocks, so what a failed call
leaves depends on how far `rt_tcpclient_start` came: nothing while the pipe had
no memory, and at least its mutex, its device or the handle from there on.

It does not own the exits of `rt_tcpclient_start` itself, nor calls that return
`RT_EOK`.
-/

namespace RttIctl.Net

open Lib (StepSystem)

/-- The caller that takes a step, if a caller does. -/
def Label.caller : Label → Option Tid
  | .call t _ | .run t | .start t _ | .create t _ => some t
  | .loop _ _ | .th1 _ _ | .th2 _ | .reclaim _ => none

/-- Inside `connect`, from the call of `rt_tcpclient_start` to the `unlock`. -/
def CallerPc.connecting : CallerPc → Bool
  | .start | .startup _ | .storeHdl _ | .testStart | .attachRxCb | .createEvent | .testEvent
  | .createTh1 | .startTh1 _ | .createTh2 | .startTh2 _ | .unlockConnect _ => true
  | _ => false

/-- A step taken while a call of one thread is in progress: it is no further
call of that thread, and no other caller is making a connection of its own.
Callers in `lockit`, `disconnect` and `send`, and the `tcpc`, `tcth1` and
`tcth2` threads, run as they like. -/
structure WithinCall (t : Tid) (s : State) (label : Label) : Prop where
  sameCall : ∀ api, label ≠ .call t api
  undisturbed : ∀ u, label.caller = some u → u ≠ t → (s.callers u).connecting = false

/-- What a failed `connect` has to leave, given the state it was called in: of
the objects made since, no `tcpc`, `tcth1` or `tcth2` runs, no part of a client
is held and no event exists; no mutex of a freed pipe is in the kernel's list,
where the next one at its place would trip on it; the handle is null, the lock is
free and `isConnected()` is false. -/
structure CleanFailure (before after : State) : Prop where
  noLoop : ∀ c, before.clientCount ≤ c → c < after.clientCount →
    (after.loops c).live = false
  noPart : ∀ c, before.clientCount ≤ c → c < after.clientCount →
    ∀ part, (after.clients c).isOpen part = false
  noStaleLock : ∀ c, before.clientCount ≤ c → c < after.clientCount →
    (after.clients c).staleLock = false
  noEvent : ∀ e, before.eventCount ≤ e → e < after.eventCount → (after.events e).live = false
  noTh1 : ∀ i, before.th1Count ≤ i → i < after.th1Count → (after.th1 i).pc.alive = false
  noTh2 : ∀ j, before.th2Count ≤ j → j < after.th2Count → (after.th2 j).alive = false
  hdlNull : after.socketHdl = none
  lockFree : after.lock = false
  notConnected : after.isConnected = false

variable {s s' before : State} {label : Label} {t : Tid}

theorem WithinCall.byCaller (within : WithinCall t s label) {u : Tid}
    (taker : label.caller = some u) (connecting : (s.callers u).connecting = true) :
    u = t := by
  by_contra other
  simp [within.undisturbed u taker other] at connecting

/-- While a call is in progress only its own thread makes new objects. -/
theorem WithinCall.objects (within : WithinCall t s label) (taken : Taken s label s')
    (notStart : ∀ calls, label ≠ .start t calls) (notCreating : (s.callers t).creates = false) :
    SameObjects s s' 0 := by
  rcases taken.objects_cases with same | ⟨u, calls, rfl, isAt⟩ | ⟨u, ok, rfl, creates⟩
  · exact same
  · obtain rfl := within.byCaller rfl (by rw [isAt]; rfl)
    exact absurd rfl (notStart calls)
  · have connecting : (s.callers u).connecting = true := by
      generalize s.callers u = pc at creates
      cases pc <;> simp_all [CallerPc.creates, CallerPc.connecting]
    obtain rfl := within.byCaller rfl connecting
    simp [notCreating] at creates

/-- While a call is in progress only its own thread writes the handle. -/
theorem WithinCall.socketHdl (within : WithinCall t s label) (taken : Taken s label s')
    (notStoring : ∀ result, s.callers t ≠ .storeHdl result) : s'.socketHdl = s.socketHdl := by
  rcases taken.socketHdl_cases with same | ⟨u, result, rfl, isAt, -⟩
  · exact same
  · obtain rfl := within.byCaller rfl (by rw [isAt]; rfl)
    exact absurd isAt (notStoring result)

/-- While a call is in progress only its own thread creates a `tcth1`. -/
theorem WithinCall.param (within : WithinCall t s label) (taken : Taken s label s')
    (notCreating : s.callers t ≠ .createTh1) (i : Nat) :
    (s'.th1 i).param = (s.th1 i).param := by
  rcases taken.param_cases i with same | created
  · exact same
  · obtain ⟨u, rfl, isAt⟩ := created.byCaller
    obtain rfl := within.byCaller rfl (by rw [isAt]; rfl)
    exact absurd isAt notCreating

/-! ### No connection, and none made -/

theorem isConnected_eq_false_iff :
    s.isConnected = false ↔ ∀ c < s.clientCount, (s.loops c).named = false := by
  simp [State.isConnected]

theorem LoopPc.named_of_live {pc : LoopPc} (isLive : pc.live = true) : pc.named = true := by
  cases pc <;> first | rfl | cases isLive

/-- A `tcpc` thread that does not exist takes no step. -/
theorem Taken.loop_unnamed (inv : Handles s) (taken : Taken s label s') {c : ClientId}
    (below : c < s.clientCount) (unnamed : (s.loops c).named = false) :
    (s'.loops c).named = false := by
  rcases taken.loop_cases c with same | moved
  · rwa [same]
  · exfalso
    generalize s'.loops c = pc at moved
    cases moved with
    | created _ _ isNew => exact Nat.lt_irrefl _ (isNew ▸ below)
    | startup u isAt => simp [inv.startupCreated u c isAt, LoopPc.named] at unnamed
    | next input pc moves =>
        generalize s.loops c = current at moves unnamed
        cases moves <;> simp [LoopPc.named] at unnamed
    | post _ _ isAt | asserts _ isAt | reclaim isAt => simp [isAt, LoopPc.named] at unnamed

/-- So without a new client there is no new connection. -/
theorem Taken.stays_unconnected (inv : Handles s) (taken : Taken s label s')
    (objects : SameObjects s s' 0) (gone : s.isConnected = false) : s'.isConnected = false := by
  rw [isConnected_eq_false_iff] at gone ⊢
  intro c below
  have wasBelow : c < s.clientCount := by simpa [objects.clientCount] using below
  exact taken.loop_unnamed inv wasBelow (gone c wasBelow)

/-- A client that no `tcth1` was given keeps what it holds. -/
theorem Taken.isOpen_unshared (taken : Taken s label s') {c : ClientId}
    (below : c < s.clientCount) (unshared : ∀ i, (s.th1 i).param ≠ some c) (part : Part) :
    (s'.clients c).isOpen part = (s.clients c).isOpen part := by
  rcases taken.client_cases below with same | written
  · rw [same]
  · generalize s'.clients c = record at written
    cases written with
    | attach => rfl
    | release i _ _ _ param => exact absurd param (unshared i)

/-! ### The stages of a call -/

/-- The uses of `lockit` within one call of `connect`. -/
def LockSection.inConnect : LockSection → Bool
  | .connect | .reconnect => true
  | .disconnect nested => nested
  | .send => false

/-- A call of `connect` that has not called `rt_tcpclient_start` yet. -/
def CallerPc.beforeStart : CallerPc → Bool
  | .lockTest entry | .lockStore entry => entry.inConnect
  | .testHdl | .unlockToDisconnect | .clearEnd | .start => true
  | .findLoop nested | .setEnd nested | .waitEnd nested | .unlockDisconnect nested => nested
  | _ => false

/-- A call of `connect` that has stored the result of `rt_tcpclient_start`, or
has returned. -/
def CallerPc.afterStore : CallerPc → Bool
  | .testStart | .attachRxCb | .createEvent | .testEvent | .createTh1 | .startTh1 _ | .createTh2
  | .startTh2 _ | .unlockConnect _ | .idle => true
  | _ => false

/-- The rest of a call whose `rt_tcpclient_start` returned `RT_NULL`. -/
inductive NullPc (s : State) : CallerPc → Prop where
  | storeHdl : NullPc s (.storeHdl none)
  | testStart (isNull : s.socketHdl = none) : NullPc s .testStart
  | unlock (isNull : s.socketHdl = none) : NullPc s (.unlockConnect false)
  | returned : NullPc s .idle

/-- After a failed start the new client holds what the start left open or linked,
and no other object is new. -/
structure AfterNull (t : Tid) (before : State) (left : Client) (s : State) : Prop where
  isAt : NullPc s (s.callers t)
  objects : SameObjects before s 1
  gone : s.isConnected = false
  parts : ∀ part, (s.clients before.clientCount).isOpen part = left.isOpen part
  lock : (s.clients before.clientCount).staleLock = left.staleLock
  unshared : ∀ i, (s.th1 i).param ≠ some before.clientCount

/-- After a successful start the new client is the handle, or about to be. -/
def AfterStarted (t : Tid) (before s : State) : Prop :=
  (s.callers t).pending = some before.clientCount ∨
    (s.callers t).afterStore = true ∧ s.socketHdl = some before.clientCount

/-- How far a call of `connect` is, with the outcomes of the calls its
`rt_tcpclient_start` made once it was called. -/
inductive Stage (t : Tid) (before s : State) : Option StartCalls → Prop where
  | opening (isAt : (s.callers t).beforeStart = true) (objects : SameObjects before s 0)
      (gone : s.isConnected = false) : Stage t before s none
  | failed (calls : StartCalls) (left : Client) (ran : rtTcpclientStart calls = .null left)
      (stage : AfterNull t before left s) : Stage t before s (some calls)
  | started (stage : AfterStarted t before s) : Stage t before s (some .allOk)
  | stopped (calls : StartCalls) (isAt : s.callers t = .asserted) :
      Stage t before s (some calls)

/-! ### What a step does to each stage -/

/-- A call that has not started a client goes on towards it. -/
theorem CallerTo.beforeStart {current pc : CallerPc} (moved : CallerTo s t label current pc)
    (isBefore : current.beforeStart = true) (notStart : ∀ calls, label ≠ .start t calls) :
    pc.beforeStart = true := by
  cases moved with
  | move moves => cases moves <;> simp_all [CallerPc.beforeStart]
  | lockStore entry =>
      cases entry <;> simp_all [CallerPc.beforeStart, LockSection.inConnect, LockSection.body]
  | unlock unlocks =>
      cases unlocks <;> simp_all [CallerPc.beforeStart, LockSection.inConnect]
  | startOk calls | startNull calls | startAsserted calls => exact absurd rfl (notStart calls)
  | _ => simp_all [CallerPc.beforeStart, LockSection.inConnect]

theorem SameObjects.trans {after : State} {more : Nat} (first : SameObjects before s more)
    (second : SameObjects s after 0) : SameObjects before after more := by
  constructor
  · rw [second.clientCount, first.clientCount, Nat.add_zero]
  · rw [second.eventCount, first.eventCount]
  · rw [second.th1Count, first.th1Count]
  · rw [second.th2Count, first.th2Count]

theorem opening_step (inv : Handles s) (within : WithinCall t s label) (taken : Taken s label s')
    (notStart : ∀ calls, label ≠ .start t calls) (isAt : (s.callers t).beforeStart = true)
    (objects : SameObjects before s 0) (gone : s.isConnected = false) :
    Stage t before s' none := by
  have notCreating : (s.callers t).creates = false := by
    generalize s.callers t = pc at isAt
    cases pc <;> simp_all [CallerPc.beforeStart, CallerPc.creates]
  have kept := within.objects taken notStart notCreating
  refine .opening ?_ (objects.trans kept) (taken.stays_unconnected inv kept gone)
  rcases taken.caller_cases t with same | moved
  · rwa [same]
  · exact moved.beforeStart isAt notStart

/-- `rt_tcpclient_start` ends the opening of a call in one of three ways. -/
theorem opening_start (inv : Handles s) {calls : StartCalls}
    (ran : step s (.start t calls) = some s') (objects : SameObjects before s 0)
    (gone : s.isConnected = false) : Stage t before s' (some calls) := by
  have isNew : before.clientCount = s.clientCount := by simpa using objects.clientCount.symm
  simp only [step, startStep, Option.ite_none_right_eq_some] at ran
  obtain ⟨-, ran⟩ := ran
  split at ran <;> obtain rfl := Option.some.inj ran
  case h_1 thiz started =>
    obtain ⟨rfl, rfl⟩ := (rtTcpclientStart_started calls thiz).mp started
    exact .started (.inl (by simp [State.goto, CallerPc.pending, isNew]))
  case h_2 left null =>
    refine .failed calls left null ⟨by simp [State.goto, NullPc.storeHdl], ?_, ?_, ?_, ?_, ?_⟩
    · exact ⟨by simp [State.goto, State.addClient, isNew], objects.eventCount, objects.th1Count,
        objects.th2Count⟩
    · rw [isConnected_eq_false_iff] at gone ⊢
      intro c below
      by_cases isLast : c = s.clientCount
      · simp [State.goto, State.addClient, isLast, LoopPc.named]
      · have wasBelow : c < s.clientCount := Nat.lt_of_le_of_ne (Nat.le_of_lt_succ below) isLast
        simpa [State.goto, State.addClient, isLast] using gone c wasBelow
    · intro part
      simp [State.goto, State.addClient, isNew]
    · simp [State.goto, State.addClient, isNew]
    · intro i isParam
      exact Nat.lt_irrefl _ (isNew ▸ inv.paramLt i _ isParam)
  case h_3 left asserted =>
    exact .stopped calls (by simp [State.goto])

/-- After a failed start the call runs straight to its return. -/
theorem nullPc_step (within : WithinCall t s label) (taken : Taken s label s')
    (isAt : NullPc s (s.callers t)) : NullPc s' (s'.callers t) := by
  have keepsHdl := within.socketHdl taken
  generalize now : s.callers t = current at isAt
  rcases taken.caller_cases t with same | moved
  · rw [same, now]
    cases isAt with
    | storeHdl => exact .storeHdl
    | testStart isNull => exact .testStart (by rw [keepsHdl (by simp [now]), isNull])
    | unlock isNull => exact .unlock (by rw [keepsHdl (by simp [now]), isNull])
    | returned => exact .returned
  · rw [now] at moved
    generalize s'.callers t = pc at moved
    cases isAt with
    | storeHdl =>
        cases moved with
        | storeHdl => exact .testStart (taken.storeHdl_stores now)
        | move moves => cases moves
        | unlock unlocks => cases unlocks
    | testStart isNull =>
        cases moved with
        | move moves =>
            cases moves with
            | startSet client found => simp [isNull] at found
            | startNull => exact .unlock (by rw [keepsHdl (by simp [now]), isNull])
        | unlock unlocks => cases unlocks
    | unlock isNull =>
        cases moved with
        | unlock unlocks =>
            cases unlocks
            exact .returned
        | move moves => cases moves
    | returned =>
        cases moved with
        | connect | disconnect | send => exact absurd rfl (within.sameCall _)
        | move moves => cases moves
        | unlock unlocks => cases unlocks

theorem afterNull_step {left : Client} (inv : Handles s) (within : WithinCall t s label)
    (taken : Taken s label s') (notStart : ∀ calls, label ≠ .start t calls)
    (stage : AfterNull t before left s) : AfterNull t before left s' := by
  have notCreating : (s.callers t).creates = false := by
    have isAt := stage.isAt
    generalize s.callers t = pc at isAt
    cases isAt <;> rfl
  have notTh1 : s.callers t ≠ .createTh1 := by
    intro creating
    simp [creating, CallerPc.creates] at notCreating
  have kept := within.objects taken notStart notCreating
  have below : before.clientCount < s.clientCount := by simp [stage.objects.clientCount]
  refine ⟨nullPc_step within taken stage.isAt, stage.objects.trans kept,
    taken.stays_unconnected inv kept stage.gone, ?_, ?_, ?_⟩
  · intro part
    rw [taken.isOpen_unshared below stage.unshared, stage.parts]
  · rw [taken.staleLock_stays below, stage.lock]
  · intro i
    rw [within.param taken notTh1]
    exact stage.unshared i

/-- After a successful start the handle is stored and stays. -/
theorem CallerTo.afterStore {current pc : CallerPc} (moved : CallerTo s t label current pc)
    (isAfter : current.afterStore = true) (sameCall : ∀ api, label ≠ .call t api) :
    pc.afterStore = true := by
  cases moved with
  | connect | disconnect | send => exact absurd rfl (sameCall _)
  | move moves => cases moves <;> simp_all [CallerPc.afterStore]
  | unlock unlocks => cases unlocks <;> simp_all [CallerPc.afterStore]
  | _ => simp_all [CallerPc.afterStore]

theorem afterStarted_step (within : WithinCall t s label) (taken : Taken s label s')
    (stage : AfterStarted t before s) : AfterStarted t before s' := by
  rcases stage with pending | ⟨isAfter, isHdl⟩
  · rcases taken.caller_cases t with same | moved
    · exact .inl (by rwa [same])
    · generalize now : s.callers t = current at moved pending
      generalize next : s'.callers t = pc at moved
      unfold AfterStarted
      rw [next]
      cases moved with
      | startup client => exact .inl pending
      | storeHdl result => exact .inr ⟨rfl, (taken.storeHdl_stores now).trans pending⟩
      | move moves => cases moves <;> cases pending
      | unlock unlocks => cases unlocks <;> cases pending
      | _ => cases pending
  · have notStoring : ∀ result, s.callers t ≠ .storeHdl result := by
      intro result storing
      simp [storing, CallerPc.afterStore] at isAfter
    refine .inr ⟨?_, by rw [within.socketHdl taken notStoring, isHdl]⟩
    rcases taken.caller_cases t with same | moved
    · rwa [same]
    · exact moved.afterStore isAfter within.sameCall

/-- A step of a call keeps its stage, or is the `rt_tcpclient_start` that ends
its opening. -/
theorem stage_step {outcome : Option StartCalls} (inv : Handles s)
    (within : WithinCall t s label) (ran : step s label = some s')
    (stage : Stage t before s outcome) :
    Stage t before s' outcome ∧ (∀ calls, label ≠ .start t calls) ∨
      ∃ calls, outcome = none ∧ label = .start t calls ∧ Stage t before s' (some calls) := by
  have taken := step_taken ran
  cases stage with
  | opening isAt objects gone =>
      by_cases isStart : ∃ calls, label = .start t calls
      · obtain ⟨calls, rfl⟩ := isStart
        exact .inr ⟨calls, rfl, rfl, opening_start inv ran objects gone⟩
      · have notStart : ∀ calls, label ≠ .start t calls := not_exists.mp isStart
        exact .inl ⟨opening_step inv within taken notStart isAt objects gone, notStart⟩
  | failed calls left null stage =>
      have notStart : ∀ calls, label ≠ .start t calls := by
        rintro calls rfl
        have isAt := stage.isAt
        rw [taken.start_isAt] at isAt
        cases isAt
      have kept := afterNull_step inv within taken notStart stage
      exact .inl ⟨.failed calls left null kept, notStart⟩
  | started stage =>
      refine .inl ⟨.started (afterStarted_step within taken stage), ?_⟩
      rintro calls rfl
      simp [AfterStarted, taken.start_isAt, CallerPc.pending, CallerPc.afterStore] at stage
  | stopped calls isAt =>
      refine .inl ⟨.stopped calls ?_, ?_⟩
      · rcases taken.caller_cases t with same | moved
        · rw [same, isAt]
        · rw [isAt] at moved
          generalize s'.callers t = pc at moved
          cases moved with
          | move moves => cases moves
          | unlock unlocks => cases unlocks
      · rintro calls rfl
        simp [taken.start_isAt] at isAt

/-! ### A whole call -/

/-- The step of a call at which its thread runs `rt_tcpclient_start`. -/
def Starts (t : Tid) (during : List (State × Label)) (calls : StartCalls) : Prop :=
  ∃ starting, (starting, .start t calls) ∈ during

theorem starts_cons {during : List (State × Label)} {calls : StartCalls} :
    Starts t ((s, label) :: during) calls ↔ label = .start t calls ∨ Starts t during calls := by
  simp only [Starts, List.mem_cons, Prod.mk.injEq]
  constructor
  · rintro ⟨starting, ⟨-, same⟩ | member⟩
    · exact .inl same.symm
    · exact .inr ⟨starting, member⟩
  · rintro (rfl | ⟨starting, member⟩)
    · exact ⟨s, .inl ⟨rfl, rfl⟩⟩
    · exact ⟨starting, .inr member⟩

/-- Throughout a call that began without a connection, its stage knows the one
`rt_tcpclient_start` that ran. -/
theorem stage_of_history {during earlier : List (State × Label)}
    (history : netSystem.History (during ++ (before, .call t .connect) :: earlier) s)
    (within : StepSystem.EveryStep (WithinCall t) during)
    (unconnected : before.isConnected = false) :
    ∃ outcome, Stage t before s outcome ∧
      ∀ calls, outcome = some calls ↔ Starts t during calls := by
  refine history.invariant_since within
    (fun during s => ∃ outcome, Stage t before s outcome ∧
      ∀ calls, outcome = some calls ↔ Starts t during calls) ?_ ?_
  · intro s called
    cases called with
    | step _ ran =>
        have taken : Taken before (.call t .connect) s := step_taken ran
        cases taken with
        | callConnect =>
            refine ⟨none, .opening ?_ ⟨rfl, rfl, rfl, rfl⟩ unconnected, ?_⟩
            · simp [State.goto, CallerPc.beforeStart, LockSection.inConnect]
            · simp [Starts]
  · rintro during s label s' reach ⟨outcome, stage, known⟩ now ran
    have inv := handles_of_reaches reach
    rcases stage_step inv now ran stage with ⟨kept, notStart⟩ | ⟨calls, rfl, rfl, begun⟩
    · refine ⟨outcome, kept, ?_⟩
      intro calls
      rw [known calls, starts_cons]
      simp [notStart calls]
    · refine ⟨some calls, begun, ?_⟩
      intro other
      have none := known other
      rw [starts_cons, ← none]
      simp

/-- The return of a failed call only frees the lock. -/
theorem unlockConnect_returns {returning after : State}
    (failing : returning.callers t = .unlockConnect false)
    (ran : step returning (.run t) = some after) :
    after = { returning with lock := false }.goto t .idle := by
  simp only [step, runStep, failing, Option.some.injEq] at ran
  exact ran.symm

/-- A failed call whose `rt_tcpclient_start` returned `RT_NULL` is clean exactly
when that start kept nothing and left no mutex. -/
theorem cleanFailure_of_afterNull {left : Client} {returning : State}
    (stage : AfterNull t before left returning)
    (failing : returning.callers t = .unlockConnect false) :
    CleanFailure before ({ returning with lock := false }.goto t .idle) ↔
      (∀ part, left.isOpen part = false) ∧ left.staleLock = false := by
  have isLast : ∀ c, before.clientCount ≤ c → c < returning.clientCount →
      c = before.clientCount := by
    intro c above below
    rw [stage.objects.clientCount] at below
    omega
  have isNew : before.clientCount < returning.clientCount := by
    simp [stage.objects.clientCount]
  have isNull : returning.socketHdl = none := by
    have isAt := stage.isAt
    rw [failing] at isAt
    cases isAt with
    | unlock isNull => exact isNull
  constructor
  · intro clean
    constructor
    · intro part
      rw [← stage.parts part]
      exact clean.noPart _ (Nat.le_refl _) isNew part
    · rw [← stage.lock]
      exact clean.noStaleLock _ (Nat.le_refl _) isNew
  · rintro ⟨closed, unlinked⟩
    refine ⟨?_, ?_, ?_, ?_, ?_, ?_, isNull, rfl, stage.gone⟩
    · intro c above below
      have unnamed := isConnected_eq_false_iff.mp stage.gone c below
      show (returning.loops c).live = false
      by_contra isLive
      rw [LoopPc.named_of_live (by simpa using isLive)] at unnamed
      cases unnamed
    · intro c above below part
      rw [isLast c above below]
      exact (stage.parts part).trans (closed part)
    · intro c above below
      rw [isLast c above below]
      exact stage.lock.trans unlinked
    · intro e above below
      exact absurd (Nat.lt_of_lt_of_eq below stage.objects.eventCount) (Nat.not_lt.mpr above)
    · intro i above below
      exact absurd (Nat.lt_of_lt_of_eq below stage.objects.th1Count) (Nat.not_lt.mpr above)
    · intro j above below
      exact absurd (Nat.lt_of_lt_of_eq below stage.objects.th2Count) (Nat.not_lt.mpr above)

/-- A call of `connect` that began without a connection and returns `RT_ERROR`
leaves nothing behind exactly when its `rt_tcpclient_start` failed before the
pipe had its memory. Whatever fails later leaves at least the mutex of the pipe,
its device or the handle. -/
theorem connect_failure_clean_iff {returning after : State}
    {during earlier : List (State × Label)}
    (history : netSystem.History
      ((returning, .run t) :: (during ++ (before, .call t .connect) :: earlier)) after)
    (within : StepSystem.EveryStep (WithinCall t) during)
    (unconnected : before.isConnected = false)
    (failing : returning.callers t = .unlockConnect false) :
    CleanFailure before after ↔ ∀ calls, Starts t during calls → calls.makesLock = false := by
  cases history with
  | step history ran =>
  obtain ⟨outcome, stage, known⟩ := stage_of_history history within unconnected
  have onlyStart : ∀ calls, outcome = some calls →
      ((∀ other, Starts t during other → other.makesLock = false) ↔
        calls.makesLock = false) := by
    rintro calls rfl
    constructor
    · intro all
      exact all calls ((known calls).mp rfl)
    · intro noLock other starts
      obtain rfl : calls = other := by simpa using (known other).mpr starts
      exact noLock
  obtain rfl := unlockConnect_returns failing ran
  cases stage with
  | opening isAt => simp [failing, CallerPc.beforeStart] at isAt
  | failed calls left null stage =>
      rw [onlyStart calls rfl, cleanFailure_of_afterNull stage failing,
        rtTcpclientStart_null_clean null]
  | started stage =>
      rw [onlyStart .allOk rfl]
      have isHdl : returning.socketHdl = some before.clientCount := by
        simpa [AfterStarted, failing, CallerPc.pending, CallerPc.afterStore] using stage
      constructor
      · intro clean
        have isNull : returning.socketHdl = none := clean.hdlNull
        simp [isNull] at isHdl
      · intro noLock
        simp [StartCalls.makesLock, StartCalls.allOk] at noLock
  | stopped calls isAt => simp [failing] at isAt

/-- A call no other caller takes a step in. -/
theorem withinCall_of_alone {during : List (State × Label)}
    (alone : (during.all fun entry =>
      !(entry.2 matches .call _ _) && entry.2.caller.all (· == t)) = true) :
    StepSystem.EveryStep (WithinCall t) during := by
  rintro ⟨s, label⟩ member
  have own := List.all_eq_true.mp alone _ member
  rw [Bool.and_eq_true] at own
  refine ⟨?_, ?_⟩
  · rintro api rfl
    simp at own
  · intro u taker other
    have taker : label.caller = some u := taker
    simp [taker, other] at own

/-- The first `connect` after power-up, with `socket` failing. -/
def connectWithoutSocket : List Label :=
  [.call 0 .connect, .run 0, .run 0, .run 0, .run 0,
    .start 0 ⟨true, false, true, true, true, true, true, true⟩, .run 0, .run 0, .run 0]

theorem connect_without_socket_clean :
    ∃ during returning after, netSystem.History
        ((returning, .run 0) :: (during ++ [(State.init, .call 0 .connect)])) after ∧
      returning.callers 0 = .unlockConnect false ∧ CleanFailure .init after := by
  let soFar := connectWithoutSocket.take 8
  let during := (netSystem.log soFar).1.dropLast
  have history : netSystem.History
      ((netSystem.run soFar, .run 0) :: (during ++ [(State.init, .call 0 .connect)]))
      (netSystem.run connectWithoutSocket) := netSystem.log_history connectWithoutSocket
  have within : StepSystem.EveryStep (WithinCall 0) during := withinCall_of_alone (by decide)
  have failing : (netSystem.run soFar).callers 0 = .unlockConnect false := by decide
  have noLock : (during.all fun entry =>
      match entry.2 with
      | .start _ calls => !calls.makesLock
      | _ => true) = true := by decide
  refine ⟨_, _, _, history, failing,
    (connect_failure_clean_iff history within (by decide) failing).mpr ?_⟩
  rintro calls ⟨starting, member⟩
  simpa using List.all_eq_true.mp noLock _ member

/-- The first `connect` after power-up, with the creation of `tcth2` failing. -/
def connectWithoutTh2 : List Label :=
  [.call 0 .connect, .run 0, .run 0, .run 0, .run 0, .start 0 .allOk, .run 0,
    .loop 0 (.malloc true), .run 0, .run 0, .run 0, .create 0 true, .run 0,
    .create 0 true, .run 0, .create 0 false, .run 0]

/-- `connect` returns `RT_ERROR` with the `tcpc` and the `tcth1` it started
running, its event in place and the handle set. -/
theorem connect_without_th2_leaves_threads :
    ∃ during returning after, netSystem.History
        ((returning, .run 0) :: (during ++ [(State.init, .call 0 .connect)])) after ∧
      StepSystem.EveryStep (WithinCall 0) during ∧ State.init.isConnected = false ∧
      returning.callers 0 = .unlockConnect false ∧
      (after.loops 0).live = true ∧ (after.th1 0).pc.alive = true ∧
      (after.events 0).live = true ∧ after.socketHdl = some 0 ∧ after.isConnected = true ∧
      ¬ CleanFailure .init after := by
  let soFar := connectWithoutTh2.take 16
  let during := (netSystem.log soFar).1.dropLast
  have history : netSystem.History
      ((netSystem.run soFar, .run 0) :: (during ++ [(State.init, .call 0 .connect)]))
      (netSystem.run connectWithoutTh2) := netSystem.log_history connectWithoutTh2
  have within : StepSystem.EveryStep (WithinCall 0) during :=
    withinCall_of_alone (by decide +kernel)
  have isHdl : (netSystem.run connectWithoutTh2).socketHdl = some 0 := by decide +kernel
  refine ⟨_, _, _, history, within, by decide, by decide +kernel, by decide +kernel,
    by decide +kernel, by decide +kernel, isHdl, by decide +kernel, ?_⟩
  intro clean
  simp [clean.hdlNull] at isHdl

end RttIctl.Net
