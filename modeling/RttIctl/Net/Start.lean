import RttIctl.Net.Client

/-!
Owns what `rt_tcpclient_start` leaves behind: whether a client it returns holds
every part, and whether a failed start gives back each part it acquired exactly
once. `tcpclient_destory` decides from the descriptor fields what is still open
and never deletes the pipe device, so a failed start is clean exactly while the
fields are exact and no device was created. A device that cannot be registered
leaves the mutex of its pipe behind.

It does not own the callers of `rt_tcpclient_start`.
-/

namespace RttIctl.Net

/-- Every part is given back exactly as often as it was acquired. -/
def Client.Settled (left : Client) : Prop :=
  ∀ part, left.released part = if left.acquired part then 1 else 0

/-- A start either returns a client that holds every part, or returns `RT_NULL`
with everything it acquired given back once. A failed assertion is neither. -/
def StartReleases (calls : StartCalls) : Prop :=
  match rtTcpclientStart calls with
  | .started thiz => ∀ part, thiz.isOpen part = true
  | .null left => left.Settled
  | .asserted _ => False

/-- The descriptor fields say what is open, and nothing was given back yet. -/
structure FieldsExact (thiz : Client) : Prop where
  memory : thiz.acquired .mem = true
  sock : thiz.sockFd = thiz.acquired .sock
  readFd : thiz.pipeReadFd = thiz.acquired .readFd
  writeFd : thiz.pipeWriteFd = thiz.acquired .writeFd
  unreleased : ∀ part, thiz.released part = 0

/-- The client after one test of `tcpclient_destory`: the part closed if it was
acquired. -/
def Client.giveBack (thiz : Client) (part : Part) : Client :=
  if thiz.acquired part then (thiz.release part).clearField part else thiz

@[simp] theorem Client.giveBack_staleLock (thiz : Client) (part : Part) :
    (thiz.giveBack part).staleLock = thiz.staleLock := by
  unfold giveBack
  split
  · exact Client.clearField_staleLock _ _
  · rfl

@[simp] theorem Client.giveBack_acquired (thiz : Client) (part : Part) :
    (thiz.giveBack part).acquired = thiz.acquired := by
  unfold giveBack
  split
  · cases part <;> rfl
  · rfl

theorem Client.giveBack_released (thiz : Client) (part other : Part) :
    (thiz.giveBack part).released other =
      if other = part ∧ thiz.acquired part then thiz.released other + 1
      else thiz.released other := by
  unfold giveBack
  by_cases acquired : thiz.acquired part = true
  · by_cases same : other = part
    · subst same
      simp [acquired, release]
    · simp [acquired, same, release]
  · simp [acquired]

/-- A test of `tcpclient_destory` on an exact field. -/
theorem closeAsserted_of_exact {thiz : Client} {part : Part} {field : Bool}
    (exactField : field = thiz.acquired part) (unreleased : thiz.released part = 0) :
    (if field then thiz.closeAsserted part else pure thiz) = .ok (thiz.giveBack part) := by
  subst exactField
  unfold Client.giveBack
  split
  · next acquired =>
      rw [Client.closeAsserted, Client.isOpen, acquired, unreleased]
      rfl
  · rfl

/-- With exact fields, `tcpclient_destory` closes what is open and frees the
memory. -/
theorem tcpclientDestory_of_fieldsExact {thiz : Client} (fields : FieldsExact thiz) :
    tcpclientDestory thiz =
      .ok ((((thiz.giveBack .sock).giveBack .readFd).giveBack .writeFd).release .mem) := by
  have readField : (thiz.giveBack .sock).pipeReadFd = (thiz.giveBack .sock).acquired .readFd := by
    rw [Client.giveBack_acquired, ← fields.readFd]
    unfold Client.giveBack
    split <;> rfl
  have writeField : ((thiz.giveBack .sock).giveBack .readFd).pipeWriteFd =
      ((thiz.giveBack .sock).giveBack .readFd).acquired .writeFd := by
    rw [Client.giveBack_acquired, Client.giveBack_acquired, ← fields.writeFd]
    unfold Client.giveBack
    split <;> split <;> rfl
  have readFresh : (thiz.giveBack .sock).released .readFd = 0 := by
    simp [Client.giveBack_released, fields.unreleased]
  have writeFresh : ((thiz.giveBack .sock).giveBack .readFd).released .writeFd = 0 := by
    simp [Client.giveBack_released, fields.unreleased]
  have joined : ∀ (field : Bool) (first second : Except Client Client)
      (rest : Client → Except Client Client),
      (if field then first >>= rest else second >>= rest) =
        (if field then first else second) >>= rest := by
    intro field first second rest
    cases field <;> rfl
  have next : ∀ (done : Client) (rest : Client → Except Client Client),
      (Except.ok done >>= rest) = rest done := fun _ _ => rfl
  simp only [tcpclientDestory, joined, next, closeAsserted_of_exact readField readFresh,
    closeAsserted_of_exact fields.sock (fields.unreleased .sock),
    closeAsserted_of_exact writeField writeFresh]
  rfl

/-- With exact fields, the exit `quit` gives back everything but the device, and
does nothing about a mutex left behind. -/
theorem startQuit_of_fieldsExact {thiz : Client} (fields : FieldsExact thiz) :
    ∃ left, startQuit thiz = .null left ∧ left.staleLock = thiz.staleLock ∧
      left.acquired = thiz.acquired ∧
      ∀ part, left.released part = if thiz.acquired part ∧ part ≠ .dev then 1 else 0 := by
  refine ⟨_, by rw [startQuit, tcpclientDestory_of_fieldsExact fields], ?_, ?_, ?_⟩
  · simp [Client.release]
  · simp [Client.release]
  · intro part
    cases part <;>
      simp [Client.release, Client.giveBack_released, fields.unreleased, fields.memory]

/-- So a failed start with exact fields is settled exactly when no device was
created. -/
theorem settled_of_fieldsExact {thiz : Client} (fields : FieldsExact thiz) :
    ∃ left, startQuit thiz = .null left ∧ (left.Settled ↔ thiz.acquired .dev = false) := by
  obtain ⟨left, ran, -, acquired, released⟩ := startQuit_of_fieldsExact fields
  refine ⟨left, ran, ?_⟩
  simp only [Client.Settled, acquired, released]
  constructor
  · intro settled
    have device := settled .dev
    simpa using device
  · intro noDevice part
    cases part <;> simp [noDevice]

/-! ### The stages of a start -/

/-- The client once the socket exists. -/
def withSocket : Client := { tcpclientCreate.acquire .sock with sockFd := true }

/-- The client once the pipe was freed with its mutex still linked. -/
def withStaleLock : Client := { withSocket with staleLock := true }

/-- The client once the pipe device exists. -/
def withDevice : Client := withSocket.acquire .dev

/-- The client once both ends of the pipe are open. -/
def withPipe : Client :=
  { ({ withDevice.acquire .readFd with pipeReadFd := true } : Client).acquire .writeFd with
    pipeWriteFd := true }

theorem tcpclientCreate_fieldsExact : FieldsExact tcpclientCreate :=
  ⟨rfl, rfl, rfl, rfl, fun _ => rfl⟩

theorem withSocket_fieldsExact : FieldsExact withSocket :=
  ⟨rfl, rfl, rfl, rfl, fun _ => rfl⟩

theorem withStaleLock_fieldsExact : FieldsExact withStaleLock :=
  ⟨rfl, rfl, rfl, rfl, fun _ => rfl⟩

theorem withDevice_fieldsExact : FieldsExact withDevice :=
  ⟨rfl, rfl, rfl, rfl, fun _ => rfl⟩

theorem withPipe_fieldsExact : FieldsExact withPipe :=
  ⟨rfl, rfl, rfl, rfl, fun _ => rfl⟩

/-- A failed open of the write end closes the read end and leaves its field set:
the second close trips the assertion. -/
theorem startQuit_after_fail_write :
    ∃ left, startQuit (({ withDevice.acquire .readFd with pipeReadFd := true } : Client).release
      .readFd) = .asserted left :=
  ⟨_, rfl⟩

/-- The pipe device gets created. -/
def StartCalls.makesPipe (calls : StartCalls) : Bool :=
  calls.malloc && calls.socket && calls.connect && calls.pipeCreate

/-- The pipe gets its memory, and its mutex is initialised. -/
def StartCalls.makesLock (calls : StartCalls) : Bool :=
  calls.malloc && calls.socket && calls.connect && calls.pipeMalloc

/-- The pipe is freed with its mutex in the kernel's list. -/
def StartCalls.leavesLock (calls : StartCalls) : Bool := calls.makesLock && !calls.deviceRegister

theorem StartCalls.makesLock_eq_false_iff (calls : StartCalls) :
    calls.makesLock = false ↔ calls.makesPipe = false ∧ calls.leavesLock = false := by
  unfold leavesLock makesLock makesPipe pipeCreate
  cases calls.deviceRegister <;> simp

/-- Every way a start ends, in the order of the code: without memory, through
`quit` with exact fields, through `quit` with the read end closed twice, or
with a client. -/
inductive StartEnds (calls : StartCalls) : StartResult → Prop where
  | noMemory (noLock : calls.makesLock = false) : StartEnds calls (.null .blank)
  | quit (thiz left : Client) (fields : FieldsExact thiz)
      (device : thiz.acquired .dev = calls.makesPipe)
      (lock : thiz.staleLock = calls.leavesLock) (failed : calls ≠ .allOk)
      (quits : startQuit thiz = .null left) : StartEnds calls (.null left)
  | asserted (left : Client) (device : calls.makesPipe = true)
      (failed : calls.openWrite = false) : StartEnds calls (.asserted left)
  | started (all : calls = .allOk) : StartEnds calls (.started .fresh)

theorem startEnds_of_quit {calls : StartCalls} {thiz : Client} (fields : FieldsExact thiz)
    (ran : rtTcpclientStart calls = startQuit thiz)
    (device : thiz.acquired .dev = calls.makesPipe)
    (lock : thiz.staleLock = calls.leavesLock) (failed : calls ≠ .allOk) :
    StartEnds calls (rtTcpclientStart calls) := by
  obtain ⟨left, quits, -⟩ := startQuit_of_fieldsExact fields
  rw [ran, quits]
  exact .quit thiz left fields device lock failed quits

theorem rtTcpclientStart_ends (calls : StartCalls) :
    StartEnds calls (rtTcpclientStart calls) := by
  obtain ⟨malloc, socket, connect, pipeMalloc, deviceRegister, openRead, openWrite,
    threadCreate⟩ := calls
  rcases malloc with _ | _
  · exact .noMemory rfl
  rcases socket with _ | _
  · exact startEnds_of_quit tcpclientCreate_fieldsExact rfl rfl rfl (by simp [StartCalls.allOk])
  rcases connect with _ | _
  · exact startEnds_of_quit withSocket_fieldsExact rfl rfl rfl (by simp [StartCalls.allOk])
  rcases pipeMalloc with _ | _
  · exact startEnds_of_quit withSocket_fieldsExact rfl rfl rfl (by simp [StartCalls.allOk])
  rcases deviceRegister with _ | _
  · exact startEnds_of_quit withStaleLock_fieldsExact rfl rfl rfl (by simp [StartCalls.allOk])
  rcases openRead with _ | _
  · exact startEnds_of_quit withDevice_fieldsExact rfl rfl rfl (by simp [StartCalls.allOk])
  rcases openWrite with _ | _
  · obtain ⟨left, asserts⟩ := startQuit_after_fail_write
    have ran : rtTcpclientStart ⟨true, true, true, true, true, true, false, threadCreate⟩ =
        .asserted left := asserts
    rw [ran]
    exact .asserted left rfl rfl
  rcases threadCreate with _ | _
  · exact startEnds_of_quit withPipe_fieldsExact rfl rfl rfl (by simp [StartCalls.allOk])
  have ran := (rtTcpclientStart_started .allOk .fresh).mpr ⟨rfl, rfl⟩
  change StartEnds .allOk (rtTcpclientStart .allOk)
  rw [ran]
  exact .started rfl

theorem StartCalls.eq_allOk_iff (calls : StartCalls) :
    calls = .allOk ↔ calls.makesPipe = true ∧
      calls.openRead = true ∧ calls.openWrite = true ∧ calls.threadCreate = true := by
  obtain ⟨malloc, socket, connect, pipeMalloc, deviceRegister, openRead, openWrite,
    threadCreate⟩ := calls
  simp only [allOk, makesPipe, pipeCreate, mk.injEq, Bool.and_eq_true, and_assoc]

/-- Once the pipe device exists, every later step has to succeed. -/
theorem startReleases_iff (calls : StartCalls) :
    StartReleases calls ↔
      (calls.malloc = true → calls.socket = true → calls.connect = true →
        calls.pipeCreate = true →
          calls.openRead = true ∧ calls.openWrite = true ∧ calls.threadCreate = true) := by
  have curried : (calls.malloc = true → calls.socket = true → calls.connect = true →
      calls.pipeCreate = true →
        calls.openRead = true ∧ calls.openWrite = true ∧ calls.threadCreate = true) ↔
      (calls.makesPipe = true → calls = .allOk) := by
    rw [StartCalls.eq_allOk_iff]
    simp only [StartCalls.makesPipe, Bool.and_eq_true, and_imp]
    grind
  rw [curried]
  have ends := rtTcpclientStart_ends calls
  unfold StartReleases
  generalize rtTcpclientStart calls = result at ends
  cases ends with
  | noMemory noLock =>
      have noPipe := (calls.makesLock_eq_false_iff.mp noLock).1
      simp [noPipe, Client.Settled, Client.blank]
  | quit thiz left fields device _ failed quits =>
      obtain ⟨other, quits', settled⟩ := settled_of_fieldsExact fields
      obtain rfl : left = other := by simpa [quits] using quits'
      change left.Settled ↔ _
      rw [settled, device]
      simp [failed]
  | asserted left device failed =>
      have notAll : calls ≠ .allOk := by
        rw [Ne, StartCalls.eq_allOk_iff]
        simp [failed]
      simp [device, notAll]
  | started all => simp [all, Client.fresh, Client.isOpen]

/-- A start that returns `RT_NULL` holds nothing and leaves no mutex exactly when
it came to no memory for the pipe. -/
theorem rtTcpclientStart_null_clean {calls : StartCalls} {left : Client}
    (ran : rtTcpclientStart calls = .null left) :
    (∀ part, left.isOpen part = false) ∧ left.staleLock = false ↔ calls.makesLock = false := by
  have ends := rtTcpclientStart_ends calls
  rw [ran] at ends
  cases ends with
  | noMemory noLock => simp [noLock, Client.isOpen, Client.blank]
  | quit thiz _ fields device lock _ quits =>
      obtain ⟨other, quits', stale, acquired, released⟩ := startQuit_of_fieldsExact fields
      obtain rfl : left = other := by simpa [quits] using quits'
      rw [calls.makesLock_eq_false_iff, ← device, ← lock, stale]
      refine and_congr_left' ?_
      simp only [Client.isOpen, acquired, released]
      constructor
      · intro closed
        simpa using closed .dev
      · intro noDevice part
        cases part <;> simp [noDevice]

/-- The thread cannot be created: the pipe device stays registered. -/
theorem start_without_thread_keeps_device :
    ¬ StartReleases ⟨true, true, true, true, true, true, true, false⟩ := by
  intro releases
  obtain ⟨left, quits, settled⟩ := settled_of_fieldsExact withPipe_fieldsExact
  have ran : rtTcpclientStart ⟨true, true, true, true, true, true, true, false⟩ = .null left :=
    quits
  rw [StartReleases, ran] at releases
  exact absurd (settled.mp releases) (by decide)

end RttIctl.Net
