import RttIctl.Net.Client

/-!
Owns the state of the connection subsystem of `taskNet.cpp`: the shared
variables of `CCtrlNet`, the global `tc_event`, the kernel's client, event and
thread objects, and the program counter of every thread that runs its code.

Threads are interleaved statement by statement; a statement that tests the
`lock` byte and the statement that stores it are separate. A kernel call made
with interrupts disabled is one statement. Fields named ghost record history
for the statements of theorems; no transition reads them.
-/

namespace RttIctl.Net

abbrev Tid := Nat
abbrev ClientId := Nat
abbrev EventId := Nat
abbrev Bytes := List UInt8

/-! ### Texts compared by the receive path -/

/-- The C string a NUL-terminated copy of a buffer denotes. -/
def cString (buffer : Bytes) : Bytes := buffer.takeWhile (· ≠ 0)

/-- `"exit"`. -/
def exitText : Bytes := [101, 120, 105, 116]

/-- `"TCP disconnect"`. -/
def disconnectText : Bytes := [84, 67, 80, 32, 100, 105, 115, 99, 111, 110, 110, 101, 99, 116]

/-- The two `STRCMP` tests of `rt_tc_rx_cb`: does it post
`TC_TCPCLIENT_CLOSE` for this buffer? -/
def rxCbPosts (buffer : Bytes) : Bool :=
  cString buffer == exitText || cString buffer == disconnectText

/-- The test of `EXIT_HANDLE`. -/
def exitHandle (buffer : Bytes) : Bool := cString buffer == exitText

/-- `BUFF_SIZE`. -/
def buffSize : Nat := 1024

/-- What `RX_CB_HANDLE` passes to the callback: the notice of
`EXCEPTION_HANDLE`, or a chunk received from the peer together with whether
`select` also found the pipe readable. -/
inductive Message where
  | notice
  | chunk (bytes : Bytes) (pipeReady : Bool)
deriving DecidableEq, Repr

def Message.text : Message → Bytes
  | .notice => disconnectText
  | .chunk bytes _ => bytes

/-- Does `select_handle` leave its loop once the callback returns? -/
def Message.leaves : Message → Bool
  | .notice => true
  | .chunk bytes _ => exitHandle bytes

/-! ### Threads -/

/-- The four uses of `lockit`. `nested` tells a `disconnect` made by `connect`
from one made by a thread of its own accord. -/
inductive LockSection where
  | connect
  | reconnect
  | disconnect (nested : Bool)
  | send
deriving DecidableEq, Repr

/-- Next statement of a thread that calls `connect`, `disconnect` or `send`,
in the order of the source: `lockit`, then `connect` (`testHdl` to
`unlockConnect`), `disconnect` (`findLoop` to `unlockDisconnect`) and `send`
(`loadHdl` to `unlockSend`). `asserted` is the endless loop of
`rt_assert_handler`. -/
inductive CallerPc where
  | idle
  | lockTest (entry : LockSection)
  | lockStore (entry : LockSection)
  | testHdl
  | unlockToDisconnect
  | clearEnd
  | start
  | startup (client : ClientId)
  | storeHdl (result : Option ClientId)
  | testStart
  | attachRxCb
  | createEvent
  | testEvent
  | createTh1
  | startTh1 (index : Nat)
  | createTh2
  | startTh2 (index : Nat)
  | unlockConnect (ok : Bool)
  | findLoop (nested : Bool)
  | setEnd (nested : Bool)
  | waitEnd (nested : Bool)
  | unlockDisconnect (nested : Bool)
  | loadHdl
  | writePipe (thiz : Option ClientId)
  | unlockSend
  | asserted
deriving DecidableEq, Repr

/-- Between a returned `lockit` and the matching `unlock`. -/
def CallerPc.inside : CallerPc → Bool
  | .idle | .lockTest _ | .lockStore _ => false
  | _ => true

/-- First statement after `lockit`. -/
def LockSection.body : LockSection → CallerPc
  | .connect => .testHdl
  | .reconnect => .clearEnd
  | .disconnect nested => .findLoop nested
  | .send => .loadHdl

/-- Next statement of a `tcpc` thread. -/
inductive LoopPc where
  | absent
  | created
  | entry
  | select
  | testEnd
  | recv (pipeReady : Bool)
  | rxCall (message : Message)
  | rxCb (message : Message)
  | rxPost (message : Message)
  | readPipe
  | exit
  | defunct
  | reclaimed
  | asserted
deriving DecidableEq, Repr

namespace LoopPc

/-- `rt_thread_find` still finds the thread object: from its creation until
the idle thread reclaims it. -/
def named : LoopPc → Bool
  | .absent | .reclaimed => false
  | _ => true

/-- Inside the `while (1)` of `select_handle`. -/
def running : LoopPc → Bool
  | .select | .testEnd | .recv _ | .rxCall _ | .rxCb _ | .rxPost _ | .readPipe => true
  | _ => false

/-- Inside `select_handle`, its exit label and a failed assertion included. -/
def inSelectHandle (pc : LoopPc) : Bool :=
  pc.running || pc == .exit || pc == .asserted

/-- The thread exists and has not left its loop for good. -/
def live (pc : LoopPc) : Bool :=
  pc == .created || pc == .entry || pc.running

/-- No statement from here on reads or writes the client. After the test of
`thiz->rx` a message that ends the loop needs the client no more. -/
def quiet : LoopPc → Bool
  | .absent | .exit | .defunct | .reclaimed | .asserted => true
  | .rxCb message | .rxPost message => message.leaves
  | _ => false

end LoopPc

/-- Where `select_handle` goes on once `RX_CB_HANDLE` is done. -/
def Message.next : Message → LoopPc
  | .notice => .exit
  | .chunk bytes pipeReady =>
      if exitHandle bytes then .exit else if pipeReady then .readPipe else .select

/-- Next statement of `rt_tc_thread1_entry`. -/
inductive Th1Pc where
  | absent
  | created
  | wait
  | postExit
  | closing (part : Part)
  | finished
  | asserted
deriving DecidableEq, Repr

/-- A `tcth1` thread and its parameter, read from `socketHdl` at creation. -/
structure Th1 where
  pc : Th1Pc
  param : Option ClientId
deriving DecidableEq, Repr

/-- Next statement of `rt_tc_thread2_entry`, whose parameter is unused. -/
inductive Th2Pc where
  | absent
  | created
  | wait
  | deleteEvent
  | clearEnd
  | finished
  | asserted
deriving DecidableEq, Repr

/-- Started and neither returned nor stopped. -/
def Th1Pc.alive : Th1Pc → Bool
  | .wait | .postExit | .closing _ => true
  | _ => false

def Th2Pc.alive : Th2Pc → Bool
  | .wait | .deleteEvent | .clearEnd => true
  | _ => false

/-! ### Kernel objects and the whole state -/

/-- An event object: the two bits of its `set` that are used, and whether it
has been created and not deleted. Ghost: the loops whose callback posted
`TC_TCPCLIENT_CLOSE` since it was last taken. -/
structure Event where
  live : Bool
  close : Bool
  exit : Bool
  closeBy : List ClientId
deriving DecidableEq, Repr

structure State where
  lock : Bool
  endFlag : Bool
  socketHdl : Option ClientId
  tcEvent : Option EventId
  clients : ClientId → Client
  clientCount : Nat
  loops : ClientId → LoopPc
  events : EventId → Event
  eventCount : Nat
  th1 : Nat → Th1
  th1Count : Nat
  th2 : Nat → Th2Pc
  th2Count : Nat
  callers : Tid → CallerPc
  /-- Ghost: the client that was current when the thread entered `disconnect`,
  if `isConnected()` held then. -/
  currentAtCall : Tid → Option ClientId

namespace State

def init : State where
  lock := false
  endFlag := false
  socketHdl := none
  tcEvent := none
  clients := fun _ => .blank
  clientCount := 0
  loops := fun _ => .absent
  events := fun _ => ⟨false, false, false, []⟩
  eventCount := 0
  th1 := fun _ => ⟨.absent, none⟩
  th1Count := 0
  th2 := fun _ => .absent
  th2Count := 0
  callers := fun _ => .idle
  currentAtCall := fun _ => none

/-- `rt_thread_find("tcpc") != RT_NULL`, which is also `isConnected`. -/
def isConnected (s : State) : Bool :=
  (List.range s.clientCount).any fun client => (s.loops client).named

/-- The client's memory has been freed. -/
def Freed (s : State) (client : ClientId) : Prop := (s.clients client).released .mem ≠ 0

/-- The event that `tc_event` denotes, if it is created and not deleted. -/
def liveEvent (s : State) : Option EventId :=
  s.tcEvent.filter fun event => (s.events event).live

/-- `TC_TCPCLIENT_CLOSE` is pending in the event `tc_event` denotes. -/
def closePending (s : State) : Prop :=
  ∃ event, s.liveEvent = some event ∧ (s.events event).close = true

/-- `TC_EXIT_THREAD` is pending in the event `tc_event` denotes. -/
def exitPending (s : State) : Prop :=
  ∃ event, s.liveEvent = some event ∧ (s.events event).exit = true

/-! ### Updates -/

def goto (s : State) (thread : Tid) (pc : CallerPc) : State :=
  { s with callers := Function.update s.callers thread pc }

def setLoop (s : State) (client : ClientId) (pc : LoopPc) : State :=
  { s with loops := Function.update s.loops client pc }

def setClient (s : State) (client : ClientId) (record : Client) : State :=
  { s with clients := Function.update s.clients client record }

def setEvent (s : State) (event : EventId) (record : Event) : State :=
  { s with events := Function.update s.events event record }

def setTh1 (s : State) (index : Nat) (pc : Th1Pc) : State :=
  { s with th1 := Function.update s.th1 index ⟨pc, (s.th1 index).param⟩ }

def setTh2 (s : State) (index : Nat) (pc : Th2Pc) : State :=
  { s with th2 := Function.update s.th2 index pc }

end State

end RttIctl.Net
