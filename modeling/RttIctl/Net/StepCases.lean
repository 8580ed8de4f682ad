import RttIctl.Net.Step

/-!
Owns the inversion of `step`: every enabled step is one of the cases of
`Taken`, which name the statement executed, what it found in the state and
what it wrote. Invariants of the connection subsystem are proved by cases on
`Taken` and never unfold `step`.
-/

namespace RttIctl.Net

/-- Statements of a caller that write nothing but its own program counter. -/
inductive CallerMove (s : State) : CallerPc → CallerPc → Prop where
  | passTest (entry : LockSection) (free : s.lock = false) :
      CallerMove s (.lockTest entry) (.lockStore entry)
  | hdlSet (client : ClientId) (found : s.socketHdl = some client) :
      CallerMove s .testHdl .unlockToDisconnect
  | hdlNull (found : s.socketHdl = none) : CallerMove s .testHdl .clearEnd
  | startSet (client : ClientId) (found : s.socketHdl = some client) :
      CallerMove s .testStart .attachRxCb
  | startNull (found : s.socketHdl = none) : CallerMove s .testStart (.unlockConnect false)
  | eventSet (event : EventId) (found : s.tcEvent = some event) :
      CallerMove s .testEvent .createTh1
  | eventNull (found : s.tcEvent = none) : CallerMove s .testEvent (.unlockConnect false)
  | found (nested : Bool) (isThere : s.isConnected = true) :
      CallerMove s (.findLoop nested) (.setEnd nested)
  | notFound (nested : Bool) (isGone : s.isConnected = false) :
      CallerMove s (.findLoop nested) (.unlockDisconnect nested)
  | waited (nested : Bool) (cleared : s.endFlag = false) :
      CallerMove s (.waitEnd nested) (.unlockDisconnect nested)
  | loadHdl : CallerMove s .loadHdl (.writePipe s.socketHdl)
  | writePipe (thiz : Option ClientId) : CallerMove s (.writePipe thiz) .unlockSend

/-- The `unlock` statements that return to an idle thread or to `lockit`. -/
inductive Unlocks : CallerPc → CallerPc → Prop where
  | connect (ok : Bool) : Unlocks (.unlockConnect ok) .idle
  | disconnect : Unlocks (.unlockDisconnect false) .idle
  | nested : Unlocks (.unlockDisconnect true) (.lockTest .reconnect)
  | send : Unlocks .unlockSend .idle

/-- Every pair of consecutive statements of a `tcpc` thread, the post of the
callback apart, with the outcome that leads from the first to the second. -/
inductive LoopMove (endFlag rx : Bool) : LoopPc → LoopInput → LoopPc → Prop where
  | enter : LoopMove endFlag rx .entry (.malloc true) .select
  | noMemory : LoopMove endFlag rx .entry (.malloc false) .defunct
  | timeout : LoopMove endFlag rx .select .timeout .testEnd
  | selectError : LoopMove endFlag rx .select .selectError (.rxCall .notice)
  | ready (sock pipe : Bool) :
      LoopMove endFlag rx .select (.ready sock pipe) (afterSelect sock pipe)
  | ended (isSet : endFlag = true) : LoopMove endFlag rx .testEnd .go (.rxCall .notice)
  | again (isClear : endFlag = false) : LoopMove endFlag rx .testEnd .go .select
  | recvFailed (pipeReady : Bool) : LoopMove endFlag rx (.recv pipeReady) .failed .exit
  | recvClosed (pipeReady : Bool) :
      LoopMove endFlag rx (.recv pipeReady) .closed (.rxCall .notice)
  | received (pipeReady : Bool) (bytes : Bytes) (some : 0 < bytes.length)
      (fits : bytes.length ≤ buffSize) :
      LoopMove endFlag rx (.recv pipeReady) (.data bytes) (.rxCall (.chunk bytes pipeReady))
  | call (message : Message) (attached : rx = true) :
      LoopMove endFlag rx (.rxCall message) .go (.rxCb message)
  | skip (message : Message) (detached : rx = false) :
      LoopMove endFlag rx (.rxCall message) .go message.next
  | posts (message : Message) (posts : rxCbPosts message.text = true) :
      LoopMove endFlag rx (.rxCb message) (.malloc true) (.rxPost message)
  | returns (message : Message) (ok : Bool)
      (silent : ok = false ∨ rxCbPosts message.text = false) :
      LoopMove endFlag rx (.rxCb message) (.malloc ok) message.next
  | readFailed : LoopMove endFlag rx .readPipe .failed .exit
  | readClosed : LoopMove endFlag rx .readPipe .closed (.rxCall .notice)
  | readExit (bytes : Bytes) (isExit : exitHandle bytes = true) :
      LoopMove endFlag rx .readPipe (.data bytes) .exit
  | sent (bytes : Bytes) (other : exitHandle bytes = false) :
      LoopMove endFlag rx .readPipe (.data bytes) .select
  | leave : LoopMove endFlag rx .exit .go .defunct

/-- Everything one step can do. The first four cases sleep and test again. -/
inductive Taken (s : State) : Label → State → Prop where
  | spins (t : Tid) (entry : LockSection) (isAt : s.callers t = .lockTest entry)
      (held : s.lock = true) : Taken s (.run t) s
  | waits (t : Tid) (nested : Bool) (isAt : s.callers t = .waitEnd nested)
      (isSet : s.endFlag = true) : Taken s (.run t) s
  | th1Polls (i : Nat) (ok : Bool) (isAt : (s.th1 i).pc = .wait) : Taken s (.th1 i ok) s
  | th2Polls (j : Nat) (isAt : s.th2 j = .wait) : Taken s (.th2 j) s
  | callConnect (t : Tid) (isAt : s.callers t = .idle) :
      Taken s (.call t .connect) (s.goto t (.lockTest .connect))
  | callDisconnect (t : Tid) (isAt : s.callers t = .idle) :
      Taken s (.call t .disconnect) (s.enterDisconnect t false)
  | callSend (t : Tid) (isAt : s.callers t = .idle) :
      Taken s (.call t .send) (s.goto t (.lockTest .send))
  | move (t : Tid) (pc : CallerPc) (moves : CallerMove s (s.callers t) pc) :
      Taken s (.run t) (s.goto t pc)
  | lockStore (t : Tid) (entry : LockSection) (isAt : s.callers t = .lockStore entry) :
      Taken s (.run t) ({ s with lock := true }.goto t entry.body)
  | unlock (t : Tid) (pc : CallerPc) (unlocks : Unlocks (s.callers t) pc) :
      Taken s (.run t) ({ s with lock := false }.goto t pc)
  | unlockToDisconnect (t : Tid) (isAt : s.callers t = .unlockToDisconnect) :
      Taken s (.run t) ({ s with lock := false }.enterDisconnect t true)
  | clearEnd (t : Tid) (isAt : s.callers t = .clearEnd) :
      Taken s (.run t) ({ s with endFlag := false }.goto t .start)
  | startOk (t : Tid) (calls : StartCalls) (isAt : s.callers t = .start) :
      Taken s (.start t calls)
        ((s.addClient .fresh .created).goto t (.startup s.clientCount))
  | startNull (t : Tid) (calls : StartCalls) (left : Client) (isAt : s.callers t = .start) :
      Taken s (.start t calls) ((s.addClient left .absent).goto t (.storeHdl none))
  | startAsserted (t : Tid) (calls : StartCalls) (left : Client)
      (isAt : s.callers t = .start) :
      Taken s (.start t calls) ((s.addClient left .absent).goto t .asserted)
  | startup (t : Tid) (client : ClientId) (isAt : s.callers t = .startup client) :
      Taken s (.run t) ((s.setLoop client .entry).goto t (.storeHdl (some client)))
  | storeHdl (t : Tid) (result : Option ClientId) (isAt : s.callers t = .storeHdl result) :
      Taken s (.run t) ({ s with socketHdl := result }.goto t .testStart)
  | attachRxCb (t : Tid) (isAt : s.callers t = .attachRxCb) :
      Taken s (.run t) (s.attachRx.goto t .createEvent)
  | createEvent (t : Tid) (isAt : s.callers t = .createEvent) :
      Taken s (.create t true) (s.addEvent.goto t .testEvent)
  | createEventFails (t : Tid) (isAt : s.callers t = .createEvent) :
      Taken s (.create t false) ({ s with tcEvent := none }.goto t .testEvent)
  | createTh1 (t : Tid) (isAt : s.callers t = .createTh1) :
      Taken s (.create t true) (s.addTh1.goto t (.startTh1 s.th1Count))
  | createTh1Fails (t : Tid) (isAt : s.callers t = .createTh1) :
      Taken s (.create t false) (s.goto t (.unlockConnect false))
  | startTh1 (t : Tid) (index : Nat) (isAt : s.callers t = .startTh1 index) :
      Taken s (.run t) ((s.setTh1 index .wait).goto t .createTh2)
  | createTh2 (t : Tid) (isAt : s.callers t = .createTh2) :
      Taken s (.create t true) (s.addTh2.goto t (.startTh2 s.th2Count))
  | createTh2Fails (t : Tid) (isAt : s.callers t = .createTh2) :
      Taken s (.create t false) (s.goto t (.unlockConnect false))
  | startTh2 (t : Tid) (index : Nat) (isAt : s.callers t = .startTh2 index) :
      Taken s (.run t) ((s.setTh2 index .wait).goto t (.unlockConnect true))
  | setEnd (t : Tid) (nested : Bool) (isAt : s.callers t = .setEnd nested) :
      Taken s (.run t) ({ s with endFlag := true }.goto t (.waitEnd nested))
  | loopMove (c : ClientId) (input : LoopInput) (pc : LoopPc)
      (moves : LoopMove s.endFlag (s.clients c).rx (s.loops c) input pc) :
      Taken s (.loop c input) (s.setLoop c pc)
  | loopPost (c : ClientId) (message : Message) (event : EventId)
      (isAt : s.loops c = .rxPost message) (live : s.liveEvent = some event) :
      Taken s (.loop c .go) ((s.postClose event c).setLoop c message.next)
  | loopAsserts (c : ClientId) (message : Message) (isAt : s.loops c = .rxPost message)
      (dead : s.liveEvent = none) :
      Taken s (.loop c .go) (s.setLoop c .asserted)
  | takeClose (i : Nat) (ok : Bool) (event : EventId) (isAt : (s.th1 i).pc = .wait)
      (live : s.liveEvent = some event) (pending : (s.events event).close = true) :
      Taken s (.th1 i ok) ((s.takeClose event).setTh1 i .postExit)
  | postExit (i : Nat) (ok : Bool) (event : EventId) (client : ClientId)
      (isAt : (s.th1 i).pc = .postExit) (live : s.liveEvent = some event)
      (param : (s.th1 i).param = some client) :
      Taken s (.th1 i ok) ((s.postExit event).setTh1 i (.closing .sock))
  | postExitNull (i : Nat) (ok : Bool) (event : EventId) (isAt : (s.th1 i).pc = .postExit)
      (live : s.liveEvent = some event) (param : (s.th1 i).param = none) :
      Taken s (.th1 i ok) ((s.postExit event).setTh1 i .finished)
  | close (i : Nat) (ok : Bool) (client : ClientId) (part next : Part)
      (isAt : (s.th1 i).pc = .closing part) (param : (s.th1 i).param = some client)
      (more : part.closeNext = some next) :
      Taken s (.th1 i ok)
        ((s.setClient client (((s.clients client).release part).clearField part)).setTh1 i
          (.closing next))
  | free (i : Nat) (ok : Bool) (client : ClientId) (isAt : (s.th1 i).pc = .closing .mem)
      (param : (s.th1 i).param = some client) :
      Taken s (.th1 i ok)
        ((s.setClient client ((s.clients client).release .mem)).setTh1 i .finished)
  | th1Asserts (i : Nat) (ok : Bool) (isAt : (s.th1 i).pc = .wait ∨ (s.th1 i).pc = .postExit)
      (dead : s.liveEvent = none) :
      Taken s (.th1 i ok) (s.setTh1 i .asserted)
  | closeAsserts (i : Nat) (ok : Bool) (part : Part) (isAt : (s.th1 i).pc = .closing part)
      (notLast : part ≠ .mem) :
      Taken s (.th1 i ok) (s.setTh1 i .asserted)
  | takeExit (j : Nat) (event : EventId) (isAt : s.th2 j = .wait)
      (live : s.liveEvent = some event) (pending : (s.events event).exit = true) :
      Taken s (.th2 j) ((s.takeExit event).setTh2 j .deleteEvent)
  | deleteEvent (j : Nat) (event : EventId) (isAt : s.th2 j = .deleteEvent)
      (live : s.liveEvent = some event) :
      Taken s (.th2 j) ((s.deleteEvent event).setTh2 j .clearEnd)
  | th2ClearEnd (j : Nat) (isAt : s.th2 j = .clearEnd) :
      Taken s (.th2 j) ({ s with endFlag := false }.setTh2 j .finished)
  | th2Asserts (j : Nat) (isAt : s.th2 j = .wait ∨ s.th2 j = .deleteEvent)
      (dead : s.liveEvent = none) :
      Taken s (.th2 j) (s.setTh2 j .asserted)
  | reclaim (c : ClientId) (isAt : s.loops c = .defunct) :
      Taken s (.reclaim c) (s.setLoop c .reclaimed)

variable {s s' : State}

theorem callStep_taken {t : Tid} {api : Api} (ran : callStep s t api = some s') :
    Taken s (.call t api) s' := by
  cases api <;> simp only [callStep, Option.ite_none_right_eq_some, Option.some.injEq] at ran <;>
    obtain ⟨isAt, rfl⟩ := ran
  · exact .callConnect t isAt
  · exact .callDisconnect t isAt
  · exact .callSend t isAt

theorem runStep_taken {t : Tid} (ran : runStep s t = some s') : Taken s (.run t) s' := by
  have move : ∀ {current pc : CallerPc}, s.callers t = current → CallerMove s current pc →
      Taken s (.run t) (s.goto t pc) := by
    intro current pc isAt moves
    exact .move t pc (isAt ▸ moves)
  have unlock : ∀ {current pc : CallerPc}, s.callers t = current → Unlocks current pc →
      Taken s (.run t) ({ s with lock := false }.goto t pc) := by
    intro current pc isAt unlocks
    exact .unlock t pc (isAt ▸ unlocks)
  cases isAt : s.callers t <;> simp only [runStep, isAt] at ran <;> cases ran
  case lockTest entry =>
    cases lock : s.lock with
    | true => exact .spins t entry isAt lock
    | false => exact move isAt (.passTest entry lock)
  case lockStore entry => exact .lockStore t entry isAt
  case testHdl =>
    cases found : s.socketHdl with
    | some client => exact move isAt (.hdlSet client found)
    | none => exact move isAt (.hdlNull found)
  case unlockToDisconnect => exact .unlockToDisconnect t isAt
  case clearEnd => exact .clearEnd t isAt
  case startup client => exact .startup t client isAt
  case storeHdl result => exact .storeHdl t result isAt
  case testStart =>
    cases found : s.socketHdl with
    | some client => exact move isAt (.startSet client found)
    | none => exact move isAt (.startNull found)
  case attachRxCb => exact .attachRxCb t isAt
  case testEvent =>
    cases found : s.tcEvent with
    | some event => exact move isAt (.eventSet event found)
    | none => exact move isAt (.eventNull found)
  case startTh1 index => exact .startTh1 t index isAt
  case startTh2 index => exact .startTh2 t index isAt
  case unlockConnect ok => exact unlock isAt (.connect ok)
  case findLoop nested =>
    cases found : s.isConnected with
    | true => exact move isAt (.found nested found)
    | false => exact move isAt (.notFound nested found)
  case setEnd nested => exact .setEnd t nested isAt
  case waitEnd nested =>
    cases flag : s.endFlag with
    | true => exact .waits t nested isAt flag
    | false => exact move isAt (.waited nested flag)
  case unlockDisconnect nested =>
    cases nested with
    | true => exact unlock isAt .nested
    | false => exact unlock isAt .disconnect
  case loadHdl => exact move isAt .loadHdl
  case writePipe thiz => exact move isAt (.writePipe thiz)
  case unlockSend => exact unlock isAt .send

theorem startStep_taken {t : Tid} {calls : StartCalls} (ran : startStep s t calls = some s') :
    Taken s (.start t calls) s' := by
  simp only [startStep, Option.ite_none_right_eq_some] at ran
  obtain ⟨isAt, ran⟩ := ran
  split at ran <;> cases ran
  case h_1 thiz started =>
    obtain ⟨-, rfl⟩ := (rtTcpclientStart_started calls thiz).mp started
    exact .startOk t calls isAt
  case h_2 left _ => exact .startNull t calls left isAt
  case h_3 left _ => exact .startAsserted t calls left isAt

theorem createStep_taken {t : Tid} {ok : Bool} (ran : createStep s t ok = some s') :
    Taken s (.create t ok) s' := by
  cases isAt : s.callers t <;> simp only [createStep, isAt] at ran <;> cases ran <;> cases ok
  case createEvent.refl.true => exact .createEvent t isAt
  case createEvent.refl.false => exact .createEventFails t isAt
  case createTh1.refl.true => exact .createTh1 t isAt
  case createTh1.refl.false => exact .createTh1Fails t isAt
  case createTh2.refl.true => exact .createTh2 t isAt
  case createTh2.refl.false => exact .createTh2Fails t isAt

theorem loopNext_move {endFlag rx : Bool} {pc next : LoopPc} {input : LoopInput}
    (moves : loopNext endFlag rx pc input = some next) : LoopMove endFlag rx pc input next := by
  unfold loopNext at moves
  split at moves
  case h_1 ok => cases ok <;> cases moves <;> constructor
  case h_5 =>
    cases endFlag <;> cases moves
    · exact .again rfl
    · exact .ended rfl
  case h_8 pipeReady bytes =>
    simp only [Option.ite_none_right_eq_some, Option.some.injEq] at moves
    obtain ⟨⟨some, fits⟩, rfl⟩ := moves
    exact .received pipeReady bytes some fits
  case h_9 message =>
    cases rx <;> cases moves
    · exact .skip message rfl
    · exact .call message rfl
  case h_10 message ok =>
    cases moves
    cases ok with
    | false => exact .returns message false (.inl rfl)
    | true =>
        cases posts : rxCbPosts message.text with
        | false => exact .returns message true (.inr posts)
        | true => exact .posts message posts
  case h_13 bytes =>
    simp only [Option.ite_none_right_eq_some, Option.some.injEq] at moves
    obtain ⟨-, rfl⟩ := moves
    cases isExit : exitHandle bytes with
    | false => exact .sent bytes isExit
    | true => exact .readExit bytes isExit
  all_goals cases moves <;> constructor

theorem loopStep_taken {c : ClientId} {input : LoopInput} (ran : loopStep s c input = some s') :
    Taken s (.loop c input) s' := by
  unfold loopStep at ran
  split at ran
  · next message isAt =>
      cases live : s.liveEvent <;> simp only [live] at ran <;> cases ran
      · exact .loopAsserts c message isAt live
      · exact .loopPost c message _ isAt live
  · obtain ⟨pc, next, rfl⟩ := Option.map_eq_some_iff.mp ran
    exact .loopMove c _ pc (loopNext_move next)

theorem th1Step_taken {i : Nat} {ok : Bool} (ran : th1Step s i ok = some s') :
    Taken s (.th1 i ok) s' := by
  cases isAt : (s.th1 i).pc <;> simp only [th1Step, isAt] at ran
  case wait =>
    cases live : s.liveEvent <;> simp only [live] at ran <;> cases ran
    case none => exact .th1Asserts i ok (.inl isAt) live
    case some event =>
      split
      · next pending => exact .takeClose i ok event isAt live pending
      · exact .th1Polls i ok isAt
  case postExit =>
    cases live : s.liveEvent <;> simp only [live] at ran <;> cases ran
    case none => exact .th1Asserts i ok (.inr isAt) live
    case some event =>
      cases param : (s.th1 i).param with
      | some client => exact .postExit i ok event client isAt live param
      | none => exact .postExitNull i ok event isAt live param
  case closing part =>
    cases param : (s.th1 i).param <;> simp only [param] at ran
    case none => cases ran
    case some client =>
      cases done : closeStatement (s.clients client) part ok <;> simp only [done] at ran <;>
        cases ran
      case error =>
        refine .closeAsserts i ok part isAt ?_
        rintro rfl
        simp [closeStatement] at done
      case ok closed =>
        rw [closeStatement_ok done]
        cases more : part.closeNext with
        | some next => exact .close i ok client part next isAt param more
        | none =>
            obtain rfl : part = .mem := by cases part <;> simp [Part.closeNext] at more ⊢
            exact .free i ok client isAt param
  all_goals cases ran

theorem th2Step_taken {j : Nat} (ran : th2Step s j = some s') : Taken s (.th2 j) s' := by
  cases isAt : s.th2 j <;> simp only [th2Step, isAt] at ran
  case wait =>
    cases live : s.liveEvent <;> simp only [live] at ran <;> cases ran
    case none => exact .th2Asserts j (.inl isAt) live
    case some event =>
      split
      · next pending => exact .takeExit j event isAt live pending
      · exact .th2Polls j isAt
  case deleteEvent =>
    cases live : s.liveEvent <;> simp only [live] at ran <;> cases ran
    case none => exact .th2Asserts j (.inr isAt) live
    case some event => exact .deleteEvent j event isAt live
  case clearEnd =>
    cases ran
    exact .th2ClearEnd j isAt
  all_goals cases ran

/-- What one step of the subsystem did. -/
theorem step_taken {label : Label} (ran : step s label = some s') : Taken s label s' := by
  cases label with
  | call t api => exact callStep_taken ran
  | run t => exact runStep_taken ran
  | start t calls => exact startStep_taken ran
  | create t ok => exact createStep_taken ran
  | loop c input => exact loopStep_taken ran
  | th1 i ok => exact th1Step_taken ran
  | th2 j => exact th2Step_taken ran
  | reclaim c =>
      simp only [step, reclaimStep, Option.ite_none_right_eq_some, Option.some.injEq] at ran
      obtain ⟨isAt, rfl⟩ := ran
      exact .reclaim c isAt

/-- A statement of a caller that makes no kernel call does what `runStep` says:
`Taken` loses nothing there. -/
theorem Taken.run_eq {t : Tid} (taken : Taken s (.run t) s') : runStep s t = some s' := by
  cases taken with
  | spins _ _ isAt held => simp [runStep, isAt, held]
  | waits _ _ isAt isSet => simp [runStep, isAt, isSet]
  | move _ pc moves =>
      generalize isAt : s.callers t = current at moves
      cases moves <;> simp [runStep, *]
  | unlock _ pc unlocks =>
      generalize isAt : s.callers t = current at unlocks
      cases unlocks <;> simp [runStep, *]
  | _ => simp [runStep, *]

theorem Taken.startup_leaves {t : Tid} {c : ClientId} (taken : Taken s (.run t) s')
    (isAt : s.callers t = .startup c) : s'.callers t = .storeHdl (some c) := by
  have ran := taken.run_eq
  simp only [runStep, isAt, Option.some.injEq] at ran
  rw [← ran]
  simp [State.goto]

theorem Taken.storeHdl_stores {t : Tid} {result : Option ClientId} (taken : Taken s (.run t) s')
    (isAt : s.callers t = .storeHdl result) : s'.socketHdl = result := by
  have ran := taken.run_eq
  simp only [runStep, isAt, Option.some.injEq] at ran
  rw [← ran]
  rfl

theorem Taken.start_isAt {t : Tid} {calls : StartCalls} (taken : Taken s (.start t calls) s') :
    s.callers t = .start := by
  cases taken <;> assumption

theorem Taken.create_eq {t : Tid} {ok : Bool} (taken : Taken s (.create t ok) s') :
    createStep s t ok = some s' := by
  cases taken <;> simp [createStep, *]

/-! ### The control flow of a caller -/

/-- Every pair of consecutive statements of a caller, with the label that
takes it from the first to the second. -/
inductive CallerTo (s : State) (t : Tid) : Label → CallerPc → CallerPc → Prop where
  | connect : CallerTo s t (.call t .connect) .idle (.lockTest .connect)
  | disconnect : CallerTo s t (.call t .disconnect) .idle (.lockTest (.disconnect false))
  | send : CallerTo s t (.call t .send) .idle (.lockTest .send)
  | move {current pc : CallerPc} (moves : CallerMove s current pc) :
      CallerTo s t (.run t) current pc
  | lockStore (entry : LockSection) : CallerTo s t (.run t) (.lockStore entry) entry.body
  | unlock {current pc : CallerPc} (unlocks : Unlocks current pc) :
      CallerTo s t (.run t) current pc
  | unlockToDisconnect :
      CallerTo s t (.run t) .unlockToDisconnect (.lockTest (.disconnect true))
  | clearEnd : CallerTo s t (.run t) .clearEnd .start
  | startOk (calls : StartCalls) :
      CallerTo s t (.start t calls) .start (.startup s.clientCount)
  | startNull (calls : StartCalls) : CallerTo s t (.start t calls) .start (.storeHdl none)
  | startAsserted (calls : StartCalls) : CallerTo s t (.start t calls) .start .asserted
  | startup (client : ClientId) :
      CallerTo s t (.run t) (.startup client) (.storeHdl (some client))
  | storeHdl (result : Option ClientId) : CallerTo s t (.run t) (.storeHdl result) .testStart
  | attachRxCb : CallerTo s t (.run t) .attachRxCb .createEvent
  | createEvent (ok : Bool) : CallerTo s t (.create t ok) .createEvent .testEvent
  | createTh1 : CallerTo s t (.create t true) .createTh1 (.startTh1 s.th1Count)
  | createTh1Fails : CallerTo s t (.create t false) .createTh1 (.unlockConnect false)
  | startTh1 (index : Nat) : CallerTo s t (.run t) (.startTh1 index) .createTh2
  | createTh2 : CallerTo s t (.create t true) .createTh2 (.startTh2 s.th2Count)
  | createTh2Fails : CallerTo s t (.create t false) .createTh2 (.unlockConnect false)
  | startTh2 (index : Nat) : CallerTo s t (.run t) (.startTh2 index) (.unlockConnect true)
  | setEnd (nested : Bool) : CallerTo s t (.run t) (.setEnd nested) (.waitEnd nested)

/-- A step moves one caller along its control flow, or no caller at all. -/
theorem Taken.callers_cases {label : Label} (taken : Taken s label s') :
    s'.callers = s.callers ∨
    ∃ t pc, CallerTo s t label (s.callers t) pc ∧ s'.callers = Function.update s.callers t pc := by
  cases taken with
  | callConnect t isAt => exact .inr ⟨t, _, isAt ▸ .connect, rfl⟩
  | callDisconnect t isAt => exact .inr ⟨t, _, isAt ▸ .disconnect, rfl⟩
  | callSend t isAt => exact .inr ⟨t, _, isAt ▸ .send, rfl⟩
  | move t pc moves => exact .inr ⟨t, pc, .move moves, rfl⟩
  | lockStore t entry isAt => exact .inr ⟨t, _, isAt ▸ .lockStore entry, rfl⟩
  | unlock t pc unlocks => exact .inr ⟨t, pc, .unlock unlocks, rfl⟩
  | unlockToDisconnect t isAt => exact .inr ⟨t, _, isAt ▸ .unlockToDisconnect, rfl⟩
  | clearEnd t isAt => exact .inr ⟨t, _, isAt ▸ .clearEnd, rfl⟩
  | startOk t calls isAt => exact .inr ⟨t, _, isAt ▸ .startOk calls, rfl⟩
  | startNull t calls left isAt => exact .inr ⟨t, _, isAt ▸ .startNull calls, rfl⟩
  | startAsserted t calls left isAt => exact .inr ⟨t, _, isAt ▸ .startAsserted calls, rfl⟩
  | startup t client isAt => exact .inr ⟨t, _, isAt ▸ .startup client, rfl⟩
  | storeHdl t result isAt => exact .inr ⟨t, _, isAt ▸ .storeHdl result, rfl⟩
  | attachRxCb t isAt => exact .inr ⟨t, _, isAt ▸ .attachRxCb, rfl⟩
  | createEvent t isAt => exact .inr ⟨t, _, isAt ▸ .createEvent true, rfl⟩
  | createEventFails t isAt => exact .inr ⟨t, _, isAt ▸ .createEvent false, rfl⟩
  | createTh1 t isAt => exact .inr ⟨t, _, isAt ▸ .createTh1, rfl⟩
  | createTh1Fails t isAt => exact .inr ⟨t, _, isAt ▸ .createTh1Fails, rfl⟩
  | startTh1 t index isAt => exact .inr ⟨t, _, isAt ▸ .startTh1 index, rfl⟩
  | createTh2 t isAt => exact .inr ⟨t, _, isAt ▸ .createTh2, rfl⟩
  | createTh2Fails t isAt => exact .inr ⟨t, _, isAt ▸ .createTh2Fails, rfl⟩
  | startTh2 t index isAt => exact .inr ⟨t, _, isAt ▸ .startTh2 index, rfl⟩
  | setEnd t nested isAt => exact .inr ⟨t, _, isAt ▸ .setEnd nested, rfl⟩
  | _ => exact .inl rfl

/-- What became of one caller: nothing, or its own next statement. -/
theorem Taken.caller_cases {label : Label} (taken : Taken s label s') (u : Tid) :
    s'.callers u = s.callers u ∨ CallerTo s u label (s.callers u) (s'.callers u) := by
  rcases taken.callers_cases with same | ⟨t, pc, moved, callers⟩
  · exact .inl (by rw [same])
  · by_cases isT : u = t
    · subst isT
      exact .inr (by simpa [callers] using moved)
    · exact .inl (by simp [callers, isT])

theorem CallerTo.to_waitEnd {label : Label} {t : Tid} {nested : Bool} {current pc : CallerPc}
    (moved : CallerTo s t label current pc) (isWaiting : pc = .waitEnd nested) :
    label = .run t ∧ current = .setEnd nested := by
  cases moved with
  | setEnd other =>
      obtain rfl : other = nested := by simpa using isWaiting
      exact ⟨rfl, rfl⟩
  | move moves => cases moves <;> cases isWaiting
  | unlock unlocks => cases unlocks <;> cases isWaiting
  | lockStore entry => cases entry <;> cases isWaiting
  | _ => cases isWaiting

theorem CallerTo.to_unlockDisconnect {label : Label} {t : Tid} {nested : Bool}
    {current pc : CallerPc} (moved : CallerTo s t label current pc)
    (isReturning : pc = .unlockDisconnect nested) :
    label = .run t ∧ (current = .findLoop nested ∧ s.isConnected = false ∨
      current = .waitEnd nested ∧ s.endFlag = false) := by
  cases moved with
  | move moves =>
      cases moves with
      | notFound other isGone =>
          obtain rfl : other = nested := by simpa using isReturning
          exact ⟨rfl, .inl ⟨rfl, isGone⟩⟩
      | waited other cleared =>
          obtain rfl : other = nested := by simpa using isReturning
          exact ⟨rfl, .inr ⟨rfl, cleared⟩⟩
      | _ => cases isReturning
  | unlock unlocks => cases unlocks <;> cases isReturning
  | lockStore entry => cases entry <;> cases isReturning
  | _ => cases isReturning

end RttIctl.Net
