import RttIctl.Lib.StepSystem
import RttIctl.Net.State

/-!
Owns the transitions of the connection subsystem: one label is one statement
of one thread, with the outcome of the call it makes. The threads are any
number of callers of `CCtrlNet`, the `tcpc` thread of every client, every
`tcth1` and `tcth2` ever started, and the idle thread that reclaims the
objects of `tcpc` threads that have returned.

It does not own priorities: any thread may take the next step.
-/

namespace RttIctl.Net

inductive Api where
  | connect
  | disconnect
  | send
deriving DecidableEq, Repr

/-- What the environment answers a statement of a `tcpc` thread. `failed`,
`closed` and `data` are a negative, zero and positive result of `recv` or
`read`. -/
inductive LoopInput where
  | go
  | malloc (ok : Bool)
  | timeout
  | selectError
  | ready (sock pipe : Bool)
  | failed
  | closed
  | data (bytes : Bytes)
deriving DecidableEq, Repr

inductive Label where
  | call (thread : Tid) (api : Api)
  | run (thread : Tid)
  | start (thread : Tid) (calls : StartCalls)
  | create (thread : Tid) (ok : Bool)
  | loop (client : ClientId) (input : LoopInput)
  | th1 (index : Nat) (ok : Bool)
  | th2 (index : Nat)
  | reclaim (client : ClientId)
deriving DecidableEq, Repr

namespace State

variable (s : State)

/-- Enter `disconnect`: note the client that is current, then `lockit`. -/
def enterDisconnect (thread : Tid) (nested : Bool) : State :=
  { s with
    currentAtCall := Function.update s.currentAtCall thread
      (if s.isConnected then s.socketHdl else none)
    callers := Function.update s.callers thread (.lockTest (.disconnect nested)) }

/-- `rt_tcpclient_attach_rx_cb(socketHdl, rt_tc_rx_cb)`. -/
def attachRx : State :=
  { s with
    clients := match s.socketHdl with
      | some client => Function.update s.clients client { s.clients client with rx := true }
      | none => s.clients }

/-- The record of a new client under the next free identity. -/
def addClient (record : Client) (pc : LoopPc) : State :=
  { s with
    clients := Function.update s.clients s.clientCount record
    loops := Function.update s.loops s.clientCount pc
    clientCount := s.clientCount + 1 }

/-- `tc_event = rt_event_create("tcev", RT_IPC_FLAG_FIFO)`. -/
def addEvent : State :=
  { s with
    events := Function.update s.events s.eventCount ⟨true, false, false, []⟩
    eventCount := s.eventCount + 1
    tcEvent := some s.eventCount }

/-- `rt_thread_create("tcth1", rt_tc_thread1_entry, socketHdl, ...)`. -/
def addTh1 : State :=
  { s with
    th1 := Function.update s.th1 s.th1Count ⟨.created, s.socketHdl⟩
    th1Count := s.th1Count + 1 }

/-- `rt_thread_create("tcth2", rt_tc_thread2_entry, socketHdl, ...)`. -/
def addTh2 : State :=
  { s with
    th2 := Function.update s.th2 s.th2Count .created
    th2Count := s.th2Count + 1 }

/-- `rt_event_send(tc_event, TC_TCPCLIENT_CLOSE)` by the loop of a client. -/
def postClose (event : EventId) (client : ClientId) : State :=
  s.setEvent event
    { s.events event with close := true, closeBy := client :: (s.events event).closeBy }

/-- `rt_event_recv` of `TC_TCPCLIENT_CLOSE` with `RT_EVENT_FLAG_CLEAR`. -/
def takeClose (event : EventId) : State :=
  s.setEvent event { s.events event with close := false, closeBy := [] }

/-- `rt_event_send(tc_event, TC_EXIT_THREAD)`. -/
def postExit (event : EventId) : State :=
  s.setEvent event { s.events event with exit := true }

/-- `rt_event_recv` of `TC_EXIT_THREAD` with `RT_EVENT_FLAG_CLEAR`. -/
def takeExit (event : EventId) : State :=
  s.setEvent event { s.events event with exit := false }

/-- `rt_event_delete(tc_event)`. -/
def deleteEvent (event : EventId) : State :=
  s.setEvent event { s.events event with live := false }

end State

def callStep (s : State) (thread : Tid) : Api → Option State
  | .connect => if s.callers thread = .idle then some (s.goto thread (.lockTest .connect)) else none
  | .disconnect => if s.callers thread = .idle then some (s.enterDisconnect thread false) else none
  | .send => if s.callers thread = .idle then some (s.goto thread (.lockTest .send)) else none

/-- The statements of `connect`, `disconnect` and `send` whose outcome the
state decides. -/
def runStep (s : State) (thread : Tid) : Option State :=
  match s.callers thread with
  | .lockTest entry => some (if s.lock then s else s.goto thread (.lockStore entry))
  | .lockStore entry => some ({ s with lock := true }.goto thread entry.body)
  | .testHdl =>
      some (s.goto thread (if s.socketHdl.isSome then .unlockToDisconnect else .clearEnd))
  | .unlockToDisconnect => some ({ s with lock := false }.enterDisconnect thread true)
  | .clearEnd => some ({ s with endFlag := false }.goto thread .start)
  | .startup client => some ((s.setLoop client .entry).goto thread (.storeHdl (some client)))
  | .storeHdl result => some ({ s with socketHdl := result }.goto thread .testStart)
  | .testStart =>
      some (s.goto thread (if s.socketHdl.isSome then .attachRxCb else .unlockConnect false))
  | .attachRxCb => some (s.attachRx.goto thread .createEvent)
  | .testEvent =>
      some (s.goto thread (if s.tcEvent.isSome then .createTh1 else .unlockConnect false))
  | .startTh1 index => some ((s.setTh1 index .wait).goto thread .createTh2)
  | .startTh2 index => some ((s.setTh2 index .wait).goto thread (.unlockConnect true))
  | .unlockConnect _ => some ({ s with lock := false }.goto thread .idle)
  | .findLoop nested =>
      some (s.goto thread (if s.isConnected then .setEnd nested else .unlockDisconnect nested))
  | .setEnd nested => some ({ s with endFlag := true }.goto thread (.waitEnd nested))
  | .waitEnd nested => some (if s.endFlag then s else s.goto thread (.unlockDisconnect nested))
  | .unlockDisconnect nested =>
      some ({ s with lock := false }.goto thread (if nested then .lockTest .reconnect else .idle))
  | .loadHdl => some (s.goto thread (.writePipe s.socketHdl))
  | .writePipe _ => some (s.goto thread .unlockSend)
  | .unlockSend => some ({ s with lock := false }.goto thread .idle)
  | .idle | .start | .createEvent | .createTh1 | .createTh2 | .asserted => none

/-- `rt_tcpclient_start` up to the creation of the `tcpc` thread. Until that
thread is started nobody else holds the client, so the calls before it are one
step. -/
def startStep (s : State) (thread : Tid) (calls : StartCalls) : Option State :=
  if s.callers thread = .start then
    match rtTcpclientStart calls with
    | .started thiz => some ((s.addClient thiz .created).goto thread (.startup s.clientCount))
    | .null left => some ((s.addClient left .absent).goto thread (.storeHdl none))
    | .asserted left => some ((s.addClient left .absent).goto thread .asserted)
  else none

/-- `rt_event_create` and the two `rt_thread_create` of `connect`. -/
def createStep (s : State) (thread : Tid) (ok : Bool) : Option State :=
  match s.callers thread with
  | .createEvent =>
      some (if ok then s.addEvent.goto thread .testEvent
        else { s with tcEvent := none }.goto thread .testEvent)
  | .createTh1 =>
      some (if ok then s.addTh1.goto thread (.startTh1 s.th1Count)
        else s.goto thread (.unlockConnect false))
  | .createTh2 =>
      some (if ok then s.addTh2.goto thread (.startTh2 s.th2Count)
        else s.goto thread (.unlockConnect false))
  | _ => none

/-- Where the loop goes after `select`, by the `FD_ISSET` tests. -/
def afterSelect (sock pipe : Bool) : LoopPc :=
  if sock then .recv pipe else if pipe then .readPipe else .select

/-- The statements of `tcpclient_thread_entry`, `select_handle` and
`rt_tc_rx_cb`, the `rt_event_send` of the callback apart: the next statement,
given `g_ctrNet.end`, whether `thiz->rx` is set, and the outcome. -/
def loopNext (endFlag rx : Bool) : LoopPc → LoopInput → Option LoopPc
  | .entry, .malloc ok => some (if ok then .select else .defunct)
  | .select, .timeout => some .testEnd
  | .select, .selectError => some (.rxCall .notice)
  | .select, .ready sock pipe => some (afterSelect sock pipe)
  | .testEnd, .go => some (if endFlag then .rxCall .notice else .select)
  | .recv _, .failed => some .exit
  | .recv _, .closed => some (.rxCall .notice)
  | .recv pipeReady, .data bytes =>
      if 0 < bytes.length ∧ bytes.length ≤ buffSize then some (.rxCall (.chunk bytes pipeReady))
      else none
  | .rxCall message, .go => some (if rx then .rxCb message else message.next)
  | .rxCb message, .malloc ok =>
      some (if ok && rxCbPosts message.text then .rxPost message else message.next)
  | .readPipe, .failed => some .exit
  | .readPipe, .closed => some (.rxCall .notice)
  | .readPipe, .data bytes =>
      if 0 < bytes.length ∧ bytes.length ≤ buffSize then
        some (if exitHandle bytes then .exit else .select)
      else none
  | .exit, .go => some .defunct
  | _, _ => none

/-- One statement of a `tcpc` thread. The callback posts to the event that
`tc_event` denotes at that moment. -/
def loopStep (s : State) (client : ClientId) (input : LoopInput) : Option State :=
  match s.loops client, input with
  | .rxPost message, .go =>
      match s.liveEvent with
      | some event => some ((s.postClose event client).setLoop client message.next)
      | none => some (s.setLoop client .asserted)
  | pc, input => (loopNext s.endFlag (s.clients client).rx pc input).map (s.setLoop client)

/-- The statements of `rt_tc_thread1_entry` and `rt_tcpclient_close`. A poll
that finds nothing sleeps and polls again. -/
def th1Step (s : State) (index : Nat) (ok : Bool) : Option State :=
  match (s.th1 index).pc with
  | .wait =>
      match s.liveEvent with
      | some event =>
          some (if (s.events event).close then (s.takeClose event).setTh1 index .postExit else s)
      | none => some (s.setTh1 index .asserted)
  | .postExit =>
      match s.liveEvent with
      | some event =>
          some ((s.postExit event).setTh1 index
            (if (s.th1 index).param.isSome then .closing .sock else .finished))
      | none => some (s.setTh1 index .asserted)
  | .closing part =>
      match (s.th1 index).param with
      | some client =>
          match closeStatement (s.clients client) part ok with
          | .ok closed =>
              some ((s.setClient client closed).setTh1 index
                (match part.closeNext with
                  | some next => .closing next
                  | none => .finished))
          | .error _ => some (s.setTh1 index .asserted)
      | none => none
  | .absent | .created | .finished | .asserted => none

/-- The statements of `rt_tc_thread2_entry`. -/
def th2Step (s : State) (index : Nat) : Option State :=
  match s.th2 index with
  | .wait =>
      match s.liveEvent with
      | some event =>
          some (if (s.events event).exit then (s.takeExit event).setTh2 index .deleteEvent else s)
      | none => some (s.setTh2 index .asserted)
  | .deleteEvent =>
      match s.liveEvent with
      | some event => some ((s.deleteEvent event).setTh2 index .clearEnd)
      | none => some (s.setTh2 index .asserted)
  | .clearEnd => some ({ s with endFlag := false }.setTh2 index .finished)
  | .absent | .created | .finished | .asserted => none

/-- `rt_thread_idle_excute` deletes the object of a returned thread. -/
def reclaimStep (s : State) (client : ClientId) : Option State :=
  if s.loops client = .defunct then some (s.setLoop client .reclaimed) else none

def step (s : State) : Label → Option State
  | .call thread api => callStep s thread api
  | .run thread => runStep s thread
  | .start thread calls => startStep s thread calls
  | .create thread ok => createStep s thread ok
  | .loop client input => loopStep s client input
  | .th1 index ok => th1Step s index ok
  | .th2 index => th2Step s index
  | .reclaim client => reclaimStep s client

/-- The connection subsystem from power-up. -/
def netSystem : Lib.StepSystem State Label where
  init := .init
  step := step

/-! ### Schedules -/

/-- A `connect` that finds no handle and whose calls all succeed. The `tcpc`
thread has the higher priority and enters `select_handle` as soon as it is
started. -/
def connects (t : Tid) (client : ClientId) : List Label :=
  [.call t .connect, .run t, .run t, .run t, .run t, .start t .allOk, .run t,
    .loop client (.malloc true), .run t, .run t, .run t, .create t true, .run t,
    .create t true, .run t, .create t true, .run t, .run t]

/-- The peer closes the connection: the notice is posted and the loop ends. -/
def peerCloses (client : ClientId) : List Label :=
  [.loop client (.ready true false), .loop client .closed, .loop client .go,
    .loop client (.malloc true), .loop client .go, .loop client .go]

/-- A thread calls `disconnect` and waits for `end`. -/
def waitsForEnd (t : Tid) : List Label := .call t .disconnect :: List.replicate 4 (.run t)

/-- The loop finds `end` set after a timeout, posts the notice and ends. -/
def seesEnd (client : ClientId) : List Label :=
  [.loop client .timeout, .loop client .go, .loop client .go, .loop client (.malloc true),
    .loop client .go, .loop client .go]

/-- A `tcth1` takes `TC_TCPCLIENT_CLOSE`, posts `TC_EXIT_THREAD` and closes. -/
def th1Closes (index : Nat) : List Label := List.replicate 7 (.th1 index true)

end RttIctl.Net
