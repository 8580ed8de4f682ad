import Mathlib.Logic.Function.Basic

/-!
Owns the life of one `rt_tcpclient_t`: `rt_tcpclient_start` with every failure
exit, `tcpclient_destory`, and the statements of `rt_tcpclient_close`. Each
client carries an account of the kernel resources behind it, so that a leak or
a second release is visible in the record.

It does not own the threads that use a client, the bytes that pass through it,
or the assertion of a later `rt_mutex_init` on a mutex that was left linked.
-/

namespace RttIctl.Net

/-- What one client acquires, in the order `rt_tcpclient_start` acquires it:
its memory, the socket, the pipe device and the two pipe descriptors. -/
inductive Part where
  | mem
  | sock
  | dev
  | readFd
  | writeFd
deriving DecidableEq, Repr

/-- `struct rt_tcpclient`. A descriptor field is `true` when it differs from
`-1`; `rx` is `true` when it is `rt_tc_rx_cb` and `false` when it is `RT_NULL`.
`acquired` and `released` are the resource account: what was acquired, and how
many times each part was given back. `staleLock` says that the mutex of a freed
pipe is still in the kernel's list of objects. -/
structure Client where
  sockFd : Bool
  pipeReadFd : Bool
  pipeWriteFd : Bool
  rx : Bool
  acquired : Part → Bool
  released : Part → Nat
  staleLock : Bool

namespace Client

/-- No client: nothing acquired. -/
def blank : Client where
  sockFd := false
  pipeReadFd := false
  pipeWriteFd := false
  rx := false
  acquired := fun _ => false
  released := fun _ => 0
  staleLock := false

def acquire (thiz : Client) (part : Part) : Client :=
  { thiz with acquired := Function.update thiz.acquired part true }

def release (thiz : Client) (part : Part) : Client :=
  { thiz with released := Function.update thiz.released part (thiz.released part + 1) }

/-- Acquired and not yet given back. -/
def isOpen (thiz : Client) (part : Part) : Bool :=
  thiz.acquired part && thiz.released part == 0

/-- Set the field of a descriptor to `-1`. The device name and the memory have
no such field. -/
def clearField (thiz : Client) : Part → Client
  | .sock => { thiz with sockFd := false }
  | .readFd => { thiz with pipeReadFd := false }
  | .writeFd => { thiz with pipeWriteFd := false }
  | .dev | .mem => thiz

/-- `res = close(fd); RT_ASSERT(res == 0); fd = -1`. Closing what is not open
fails, and the failed assertion never returns: that is the error case. -/
def closeAsserted (thiz : Client) (part : Part) : Except Client Client :=
  if thiz.isOpen part then .ok ((thiz.release part).clearField part) else .error thiz

end Client

/-- The outcomes of the calls `rt_tcpclient_start` makes; `pipeMalloc` and
`deviceRegister` are those of `rt_pipe_create`. -/
structure StartCalls where
  malloc : Bool
  socket : Bool
  connect : Bool
  pipeMalloc : Bool
  deviceRegister : Bool
  openRead : Bool
  openWrite : Bool
  threadCreate : Bool
deriving DecidableEq, Repr

/-- `rt_pipe_create` returns a pipe. -/
def StartCalls.pipeCreate (calls : StartCalls) : Bool := calls.pipeMalloc && calls.deviceRegister

/-- Every call succeeds. -/
def StartCalls.allOk : StartCalls := ⟨true, true, true, true, true, true, true, true⟩

/-- How `rt_tcpclient_start` ends. The record is what is left of the client it
worked on; `asserted` is a failed `RT_ASSERT` inside `tcpclient_destory`. -/
inductive StartResult where
  | started (thiz : Client)
  | null (left : Client)
  | asserted (left : Client)

def tcpclientCreate : Client := Client.blank.acquire .mem

def socketInit (calls : StartCalls) (thiz : Client) : Bool × Client :=
  if calls.socket then
    (calls.connect, { thiz.acquire .sock with sockFd := true })
  else
    (false, thiz)

/-- `rt_mutex_init` links the lock of the pipe before the device is registered;
when that fails the pipe is freed with no `rt_mutex_detach`. -/
def rtPipeCreate (calls : StartCalls) (thiz : Client) : Bool × Client :=
  if calls.pipeMalloc then
    if calls.deviceRegister then (true, thiz.acquire .dev)
    else (false, { thiz with staleLock := true })
  else
    (false, thiz)

/-- The exit `fail_write` closes the read end and leaves its field set;
neither failure exit deletes the pipe device. -/
def pipeInit (calls : StartCalls) (thiz : Client) : Bool × Client :=
  let (created, thiz) := rtPipeCreate calls thiz
  if created then
    if calls.openRead then
      let reading := { thiz.acquire .readFd with pipeReadFd := true }
      if calls.openWrite then
        (true, { reading.acquire .writeFd with pipeWriteFd := true })
      else
        (false, reading.release .readFd)
    else
      (false, thiz)
  else
    (false, thiz)

def tcpclientDestory (thiz : Client) : Except Client Client := do
  let thiz ← if thiz.sockFd then thiz.closeAsserted .sock else pure thiz
  let thiz ← if thiz.pipeReadFd then thiz.closeAsserted .readFd else pure thiz
  let thiz ← if thiz.pipeWriteFd then thiz.closeAsserted .writeFd else pure thiz
  return thiz.release .mem

/-- The label `quit` of `rt_tcpclient_start`. -/
def startQuit (thiz : Client) : StartResult :=
  match tcpclientDestory thiz with
  | .ok left => .null left
  | .error left => .asserted left

def rtTcpclientStart (calls : StartCalls) : StartResult :=
  if calls.malloc then
    let (connected, thiz) := socketInit calls tcpclientCreate
    if connected then
      let (piped, thiz) := pipeInit calls thiz
      if piped && calls.threadCreate then .started thiz else startQuit thiz
    else
      startQuit thiz
  else
    .null Client.blank

/-- The client `rt_tcpclient_start` returns: everything open, no callback. -/
def Client.fresh : Client where
  sockFd := true
  pipeReadFd := true
  pipeWriteFd := true
  rx := false
  acquired := fun _ => true
  released := fun _ => 0
  staleLock := false

/-- A client is returned exactly when every call succeeded, and then it holds
every part. -/
theorem rtTcpclientStart_started (calls : StartCalls) (thiz : Client) :
    rtTcpclientStart calls = .started thiz ↔ calls = .allOk ∧ thiz = .fresh := by
  have fresh : rtTcpclientStart .allOk = .started .fresh := by
    have all : (fun _ => true : Part → Bool) =
        (((((Client.blank.acquire .mem).acquire .sock).acquire .dev).acquire .readFd).acquire
          .writeFd).acquired := by
      funext part
      cases part <;> rfl
    simp only [Client.fresh, all]
    rfl
  have quit : ∀ left, startQuit left ≠ .started thiz := by
    intro left
    unfold startQuit
    split <;> simp
  constructor
  · intro started
    have succeeded : calls = .allOk := by
      obtain ⟨malloc, socket, connect, pipeMalloc, deviceRegister, openRead, openWrite,
        threadCreate⟩ := calls
      by_contra failed
      revert started
      revert failed
      cases malloc <;> cases socket <;> cases connect <;> cases pipeMalloc <;>
        cases deviceRegister <;> cases openRead <;> cases openWrite <;> cases threadCreate <;>
        simp [rtTcpclientStart, socketInit, pipeInit, rtPipeCreate, quit, StartCalls.allOk]
    refine ⟨succeeded, ?_⟩
    rw [succeeded, fresh] at started
    exact (StartResult.started.inj started).symm
  · rintro ⟨rfl, rfl⟩
    exact fresh

/-- The statements of `rt_tcpclient_close` in order: `socket_deinit`, the
three statements of `pipe_deinit`, and the `free` of `tcpclient_destory`, whose
descriptor tests all fail by then. -/
def Part.closeNext : Part → Option Part
  | .sock => some .readFd
  | .readFd => some .writeFd
  | .writeFd => some .dev
  | .dev => some .mem
  | .mem => none

/-- One statement of `rt_tcpclient_close`. `succeeds` is the result of
`closesocket` or `close`; `rt_pipe_delete` and `free` are not checked. -/
def closeStatement (thiz : Client) (part : Part) (succeeds : Bool) : Except Client Client :=
  match part with
  | .sock | .readFd | .writeFd => if succeeds then thiz.closeAsserted part else .error thiz
  | .dev | .mem => .ok (thiz.release part)

@[simp] theorem Client.clearField_released (thiz : Client) (part : Part) :
    (thiz.clearField part).released = thiz.released := by
  cases part <;> rfl

@[simp] theorem Client.clearField_rx (thiz : Client) (part : Part) :
    (thiz.clearField part).rx = thiz.rx := by
  cases part <;> rfl

@[simp] theorem Client.clearField_staleLock (thiz : Client) (part : Part) :
    (thiz.clearField part).staleLock = thiz.staleLock := by
  cases part <;> rfl

/-- A statement of `rt_tcpclient_close` that returns gives back its part and
resets its field, and does nothing else. -/
theorem closeStatement_ok {thiz closed : Client} {part : Part} {succeeds : Bool}
    (ran : closeStatement thiz part succeeds = .ok closed) :
    closed = (thiz.release part).clearField part := by
  cases part <;> simp only [closeStatement] at ran
  case dev | mem => cases ran; rfl
  all_goals
    split at ran
    · unfold Client.closeAsserted at ran
      split at ran
      · cases ran
        rfl
      · cases ran
    · cases ran

end RttIctl.Net
