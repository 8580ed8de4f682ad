import RttIctl.Lib.CString
import RttIctl.Net.Step

/-!
Owns one call of `select_handle` in its own thread: the two buffers byte by
byte, every exit of the loop, the callback `rt_tc_rx_cb` and a log of what the
call does. One pass of the `while (1)` is given by the results of `select`,
`recv`, `read` and `send` and by what the callback finds. `tc_event` denotes
the session's event; what happens when it does not is in the interleaved
transitions, which this model refines.

It does not own the other threads.
-/

namespace RttIctl.Net

open Lib Lib.PagedMemory

/-! ### Inputs -/

/-- The bytes of a positive result of `recv` or `read`: at least one, and no
more than were asked for. -/
abbrev Chunk := { bytes : Bytes // 0 < bytes.length ∧ bytes.length ≤ buffSize }

/-- What `RX_CB_HANDLE` finds: whether `thiz->rx` is set, and whether the
callback gets memory for its copy. -/
structure RxCall where
  attached : Bool
  malloc : Bool
deriving DecidableEq, Repr

/-- The callback is called and looks at the text. -/
def RxCall.heard (rx : RxCall) : Bool := rx.attached && rx.malloc

/-- The result of `recv`: negative, zero, or a chunk. -/
inductive RecvResult where
  | failed
  | closed (rx : RxCall)
  | data (chunk : Chunk) (rx : RxCall)
deriving DecidableEq, Repr

/-- The result of `read` on the pipe, with the result of the `send` that passes
a chunk on. -/
inductive ReadResult where
  | failed
  | closed (rx : RxCall)
  | data (chunk : Chunk) (sent : Int)
deriving DecidableEq, Repr

/-- One pass of the loop: a timeout with the value of `g_ctrNet.end`, a negative
result of `select`, or the descriptors found ready. -/
inductive Pass where
  | timeout (endFlag : Bool) (rx : RxCall)
  | selectError (rx : RxCall)
  | ready (sock : Option RecvResult) (pipe : Option ReadResult)
deriving DecidableEq, Repr

/-! ### State -/

inductive Buffer where
  | sock
  | pipe
deriving DecidableEq, Repr

/-- What a call does: bytes written to one of its buffers, the callback with the
bytes it is given, `TC_TCPCLIENT_CLOSE` sent, and `send` on the socket with its
result. -/
inductive LoopEvent where
  | write (buffer : Buffer) (start count : Nat)
  | rx (bytes : Bytes)
  | post
  | send (bytes : Bytes) (result : Int)
deriving DecidableEq, Repr

structure LoopState where
  sockBuff : Nat → UInt8
  pipeBuff : Nat → UInt8
  log : List LoopEvent

/-- `tcpclient_thread_entry` clears both buffers. -/
def LoopState.start : LoopState where
  sockBuff := fun _ => 0
  pipeBuff := fun _ => 0
  log := []

/-- What follows a statement: the next one, or the label `exit`. -/
inductive Flow where
  | goOn
  | leave
deriving DecidableEq, Repr

def LoopState.note (s : LoopState) (event : LoopEvent) : LoopState :=
  { s with log := s.log ++ [event] }

/-- The next statement, unless the previous one jumped to `exit`. -/
def andThen (result : LoopState × Flow) (next : LoopState → LoopState × Flow) :
    LoopState × Flow :=
  match result.2 with
  | .goOn => next result.1
  | .leave => result

/-! ### The callback and the macros -/

/-- `rt_tc_rx_cb`: a terminated copy is compared with the two texts. -/
def rtTcRxCb (malloc : Bool) (buff : Bytes) (s : LoopState) : LoopState :=
  if malloc then
    let recv := store (fun _ => 0) 0 (buff ++ [0])
    let s := if CString.equals 0 recv 0 exitText then s.note .post else s
    if CString.equals 0 recv 0 disconnectText then s.note .post else s
  else s

/-- `RX_CB_HANDLE`. -/
def rxCbHandle (rx : RxCall) (buff : Bytes) (s : LoopState) : LoopState :=
  if rx.attached then rtTcRxCb rx.malloc buff (s.note (.rx buff)) else s

/-- `EXCEPTION_HANDLE` on a zero result, the warning apart. -/
def exceptionHandleZero (rx : RxCall) (s : LoopState) : LoopState × Flow :=
  (rxCbHandle rx disconnectText s, .leave)

/-- `EXIT_HANDLE`. -/
def exitHandleBuff (buff : Nat → UInt8) (s : LoopState) : LoopState × Flow :=
  if CString.equals 0 buff 0 exitText then (s, .leave) else (s, .goOn)

/-! ### select_handle -/

/-- The socket branch: `recv` fills the buffer, the terminator goes after the
last byte received. -/
def sockBranch (s : LoopState) : RecvResult → LoopState × Flow
  | .failed => (s, .leave)
  | .closed rx => exceptionHandleZero rx s
  | .data chunk rx =>
      let s := { s with sockBuff := store s.sockBuff 0 chunk.val }.note
        (.write .sock 0 chunk.val.length)
      let s := { s with sockBuff := Function.update s.sockBuff chunk.val.length 0 }.note
        (.write .sock chunk.val.length 1)
      let s := rxCbHandle rx (window s.sockBuff 0 chunk.val.length) s
      exitHandleBuff s.sockBuff s

/-- The pipe branch: the result of `send` is not stored, so the test after it
sees the result of `read` again. -/
def pipeBranch (s : LoopState) : ReadResult → LoopState × Flow
  | .failed => (s, .leave)
  | .closed rx => exceptionHandleZero rx s
  | .data chunk sent =>
      let s := { s with pipeBuff := store s.pipeBuff 0 chunk.val }.note
        (.write .pipe 0 chunk.val.length)
      let s := { s with pipeBuff := Function.update s.pipeBuff chunk.val.length 0 }.note
        (.write .pipe chunk.val.length 1)
      let s := s.note (.send (window s.pipeBuff 0 chunk.val.length) sent)
      exitHandleBuff s.pipeBuff s

/-- A branch that is entered when `FD_ISSET` says so. -/
def whenReady {ρ : Type} (branch : LoopState → ρ → LoopState × Flow) (result : Option ρ)
    (s : LoopState) : LoopState × Flow :=
  match result with
  | some result => branch s result
  | none => (s, .goOn)

/-- One pass of the `while (1)`. -/
def onePass (s : LoopState) : Pass → LoopState × Flow
  | .timeout endFlag rx => if endFlag then exceptionHandleZero rx s else (s, .goOn)
  | .selectError rx => exceptionHandleZero rx s
  | .ready sock pipe => andThen (whenReady sockBranch sock s) (whenReady pipeBranch pipe)

/-- `select_handle` on the passes its environment has for it. -/
def selectHandle (s : LoopState) : List Pass → LoopState × Flow
  | [] => (s, .goOn)
  | pass :: rest => andThen (onePass s pass) fun s => selectHandle s rest

/-! ### What the statements do -/

/-- What `RX_CB_HANDLE` does with a text. -/
def RxCall.events (rx : RxCall) (buff : Bytes) : List LoopEvent :=
  if rx.attached then .rx buff :: (if rx.malloc && rxCbPosts buff then [.post] else []) else []

theorem zero_not_mem_exitText : (0 : UInt8) ∉ exitText := by decide

theorem zero_not_mem_disconnectText : (0 : UInt8) ∉ disconnectText := by decide

/-- A terminated copy compared with a text is its C string compared with it. -/
theorem equals_terminated {text : Bytes} (clean : (0 : UInt8) ∉ text) (memory : Nat → UInt8)
    (buff : Bytes) :
    CString.equals 0 (store memory 0 (buff ++ [0])) 0 text = (cString buff == text) := by
  rw [Bool.eq_iff_iff, CString.equals_store_iff 0 clean, beq_iff_eq, cString]

theorem rtTcRxCb_eq (malloc : Bool) (buff : Bytes) (s : LoopState) :
    rtTcRxCb malloc buff s =
      { s with log := s.log ++ if malloc && rxCbPosts buff then [.post] else [] } := by
  simp only [rtTcRxCb, rxCbPosts, equals_terminated zero_not_mem_exitText,
    equals_terminated zero_not_mem_disconnectText]
  cases malloc with
  | false => simp
  | true =>
      -- the two texts differ, so at most one test posts
      by_cases exits : cString buff = exitText
      · have other : exitText ≠ disconnectText := by decide
        simp [exits, other, LoopState.note]
      · by_cases ends : cString buff = disconnectText
        · have other : disconnectText ≠ exitText := by decide
          simp [ends, other, LoopState.note]
        · simp [exits, ends]

theorem rxCbHandle_eq (rx : RxCall) (buff : Bytes) (s : LoopState) :
    rxCbHandle rx buff s = { s with log := s.log ++ rx.events buff } := by
  unfold rxCbHandle RxCall.events
  split
  · rw [rtTcRxCb_eq]
    simp [LoopState.note]
  · simp

/-- A chunk stored with its terminator. -/
theorem update_store_eq (memory : Nat → UInt8) (bytes : Bytes) :
    Function.update (store memory 0 bytes) bytes.length 0 = store memory 0 (bytes ++ [0]) := by
  rw [store_append, Nat.zero_add, store, store]

/-- The terminator goes behind the bytes of the chunk. -/
theorem window_terminated (memory : Nat → UInt8) (bytes : Bytes) :
    window (store memory 0 (bytes ++ [0])) 0 bytes.length = bytes := by
  rw [store_append, window_store_of_disjoint (Or.inl (by simp)), window_store]

theorem exitHandleBuff_terminated (memory : Nat → UInt8) (bytes : Bytes) (s : LoopState) :
    exitHandleBuff (store memory 0 (bytes ++ [0])) s =
      (s, if exitHandle bytes then .leave else .goOn) := by
  unfold exitHandleBuff exitHandle
  rw [equals_terminated zero_not_mem_exitText]
  split <;> rfl

theorem sockBranch_data (s : LoopState) (chunk : Chunk) (rx : RxCall) :
    sockBranch s (.data chunk rx) =
      ({ s with
          sockBuff := store s.sockBuff 0 (chunk.val ++ [0])
          log := s.log ++ (.write .sock 0 chunk.val.length ::
            .write .sock chunk.val.length 1 :: rx.events chunk.val) },
        if exitHandle chunk.val then .leave else .goOn) := by
  simp only [sockBranch, LoopState.note, rxCbHandle_eq, update_store_eq, window_terminated,
    exitHandleBuff_terminated, List.append_assoc, List.cons_append, List.nil_append]

theorem pipeBranch_data (s : LoopState) (chunk : Chunk) (sent : Int) :
    pipeBranch s (.data chunk sent) =
      ({ s with
          pipeBuff := store s.pipeBuff 0 (chunk.val ++ [0])
          log := s.log ++ [.write .pipe 0 chunk.val.length, .write .pipe chunk.val.length 1,
            .send chunk.val sent] },
        if exitHandle chunk.val then .leave else .goOn) := by
  simp only [pipeBranch, LoopState.note, update_store_eq, window_terminated,
    exitHandleBuff_terminated, List.append_assoc, List.cons_append, List.nil_append]

/-! ### One pass, by its inputs -/

def RecvResult.leaves : RecvResult → Bool
  | .failed => true
  | .closed _ => true
  | .data chunk _ => exitHandle chunk.val

def ReadResult.leaves : ReadResult → Bool
  | .failed => true
  | .closed _ => true
  | .data chunk _ => exitHandle chunk.val

/-- The pass ends the loop. -/
def Pass.leaves : Pass → Bool
  | .timeout endFlag _ => endFlag
  | .selectError _ => true
  | .ready sock pipe => sock.any RecvResult.leaves || pipe.any ReadResult.leaves

def RecvResult.events : RecvResult → List LoopEvent
  | .failed => []
  | .closed rx => rx.events disconnectText
  | .data chunk rx =>
      .write .sock 0 chunk.val.length :: .write .sock chunk.val.length 1 :: rx.events chunk.val

def ReadResult.events : ReadResult → List LoopEvent
  | .failed => []
  | .closed rx => rx.events disconnectText
  | .data chunk sent =>
      [.write .pipe 0 chunk.val.length, .write .pipe chunk.val.length 1, .send chunk.val sent]

/-- What the pass adds to the log. -/
def Pass.events : Pass → List LoopEvent
  | .timeout endFlag rx => if endFlag then rx.events disconnectText else []
  | .selectError rx => rx.events disconnectText
  | .ready sock pipe =>
      (sock.elim [] RecvResult.events) ++
        if sock.any RecvResult.leaves then [] else pipe.elim [] ReadResult.events

/-- A result with the events and the flow that an input stands for. -/
def Does (s : LoopState) (events : List LoopEvent) (leaves : Bool)
    (result : LoopState × Flow) : Prop :=
  result.1.log = s.log ++ events ∧ result.2 = if leaves then .leave else .goOn

theorem sockBranch_does (s : LoopState) (result : RecvResult) :
    Does s result.events result.leaves (sockBranch s result) := by
  cases result with
  | failed => exact ⟨(List.append_nil _).symm, rfl⟩
  | closed rx => exact ⟨by rw [sockBranch, exceptionHandleZero, rxCbHandle_eq]; rfl, rfl⟩
  | data chunk rx => rw [sockBranch_data]; exact ⟨rfl, rfl⟩

theorem pipeBranch_does (s : LoopState) (result : ReadResult) :
    Does s result.events result.leaves (pipeBranch s result) := by
  cases result with
  | failed => exact ⟨(List.append_nil _).symm, rfl⟩
  | closed rx => exact ⟨by rw [pipeBranch, exceptionHandleZero, rxCbHandle_eq]; rfl, rfl⟩
  | data chunk sent => rw [pipeBranch_data]; exact ⟨rfl, rfl⟩

theorem whenReady_does {ρ : Type} {branch : LoopState → ρ → LoopState × Flow}
    {events : ρ → List LoopEvent} {leaves : ρ → Bool}
    (does : ∀ s result, Does s (events result) (leaves result) (branch s result))
    (s : LoopState) (result : Option ρ) :
    Does s (result.elim [] events) (result.any leaves) (whenReady branch result s) := by
  cases result with
  | none => exact ⟨(List.append_nil _).symm, rfl⟩
  | some result => exact does s result

theorem andThen_does {s : LoopState} {first second : List LoopEvent} {firstLeaves leaves : Bool}
    {result : LoopState × Flow} {next : LoopState → LoopState × Flow}
    (before : Does s first firstLeaves result)
    (after : ∀ s, Does s second leaves (next s)) :
    Does s (first ++ if firstLeaves then [] else second) (firstLeaves || leaves)
      (andThen result next) := by
  obtain ⟨state, flow⟩ := result
  obtain ⟨log, ends⟩ := before
  cases firstLeaves with
  | true =>
      replace ends : flow = .leave := ends
      subst ends
      replace log : state.log = s.log ++ first := log
      refine ⟨?_, rfl⟩
      change state.log = _
      rw [log, if_pos rfl, List.append_nil]
  | false =>
      replace ends : flow = .goOn := ends
      subst ends
      obtain ⟨laterLog, laterEnds⟩ := after state
      replace log : state.log = s.log ++ first := log
      refine ⟨?_, laterEnds⟩
      change (next state).1.log = _
      rw [laterLog, log, List.append_assoc]
      rfl

/-- Every pass does what its inputs say. -/
theorem onePass_does (s : LoopState) (pass : Pass) :
    Does s pass.events pass.leaves (onePass s pass) := by
  cases pass with
  | timeout endFlag rx =>
      cases endFlag with
      | false => exact ⟨(List.append_nil _).symm, rfl⟩
      | true => exact ⟨by simp [onePass, exceptionHandleZero, rxCbHandle_eq, Pass.events], rfl⟩
  | selectError rx =>
      exact ⟨by simp [onePass, exceptionHandleZero, rxCbHandle_eq, Pass.events], rfl⟩
  | ready sock pipe =>
      exact andThen_does (whenReady_does sockBranch_does s sock) fun s =>
        whenReady_does pipeBranch_does s pipe

/-- What the passes up to the one that leaves add to the log. -/
def events : List Pass → List LoopEvent
  | [] => []
  | pass :: rest => pass.events ++ if pass.leaves then [] else events rest

theorem selectHandle_does (s : LoopState) (passes : List Pass) :
    Does s (events passes) (passes.any Pass.leaves) (selectHandle s passes) := by
  induction passes generalizing s with
  | nil => exact ⟨(List.append_nil _).symm, rfl⟩
  | cons pass rest inductionHypothesis =>
      exact andThen_does (onePass_does s pass) inductionHypothesis

/-! ### The interleaved loop -/

/-- A walk of a `tcpc` thread through its statements as the interleaved
transitions have them, with the number of times it sends
`TC_TCPCLIENT_CLOSE` to a live event. -/
inductive LoopWalk : LoopPc → Nat → LoopPc → Prop where
  | stay (pc : LoopPc) : LoopWalk pc 0 pc
  | move {pc middle last : LoopPc} {posts : Nat} {endFlag rx : Bool} {input : LoopInput}
      (next : loopNext endFlag rx pc input = some middle) (rest : LoopWalk middle posts last) :
      LoopWalk pc posts last
  | post {message : Message} {last : LoopPc} {posts : Nat}
      (rest : LoopWalk message.next posts last) : LoopWalk (.rxPost message) (posts + 1) last

theorem LoopWalk.trans {first middle last : LoopPc} {posts more : Nat}
    (before : LoopWalk first posts middle) (after : LoopWalk middle more last) :
    LoopWalk first (posts + more) last := by
  induction before with
  | stay pc => rwa [Nat.zero_add]
  | move next _ inductionHypothesis => exact .move next (inductionHypothesis after)
  | post _ inductionHypothesis =>
      rw [Nat.add_right_comm]
      exact .post (inductionHypothesis after)

/-- How often a call sends `TC_TCPCLIENT_CLOSE`. -/
def postCount (log : List LoopEvent) : Nat := log.count .post

theorem postCount_append (first second : List LoopEvent) :
    postCount (first ++ second) = postCount first + postCount second :=
  List.count_append

/-- `RX_CB_HANDLE` and what follows it. -/
theorem rxEvents_walk (rx : RxCall) (message : Message) :
    LoopWalk (.rxCall message) (postCount (rx.events message.text)) message.next := by
  obtain ⟨attached, malloc⟩ := rx
  cases attached with
  | false =>
      have skipped : loopNext false false (.rxCall message) .go = some message.next := rfl
      exact .move skipped (.stay _)
  | true =>
      have called : loopNext false true (.rxCall message) .go = some (.rxCb message) := rfl
      apply LoopWalk.move called
      by_cases posts : (malloc && rxCbPosts message.text) = true
      · have copied : loopNext false true (.rxCb message) (.malloc malloc) =
            some (.rxPost message) := by
          rw [loopNext, if_pos posts]
        simp only [RxCall.events, if_pos posts, if_true]
        exact .move copied (.post (.stay _))
      · have returned : loopNext false true (.rxCb message) (.malloc malloc) =
            some message.next := by
          rw [loopNext, if_neg posts]
        simp only [RxCall.events, if_neg posts, if_true]
        exact .move returned (.stay _)

/-- Where the loop stands after a branch. -/
def branchEnd (leaves : Bool) (next : LoopPc) : LoopPc := if leaves then .exit else next

theorem recvEvents_walk (result : RecvResult) (pipeReady : Bool) :
    LoopWalk (.recv pipeReady) (postCount result.events)
      (branchEnd result.leaves (if pipeReady then .readPipe else .select)) := by
  cases result with
  | failed =>
      have failed : loopNext false false (.recv pipeReady) .failed = some .exit := rfl
      exact .move failed (.stay _)
  | closed rx =>
      have closed : loopNext false false (.recv pipeReady) .closed = some (.rxCall .notice) := rfl
      exact .move closed (rxEvents_walk rx .notice)
  | data chunk rx =>
      have received : loopNext false false (.recv pipeReady) (.data chunk.val) =
          some (.rxCall (.chunk chunk.val pipeReady)) := if_pos chunk.property
      exact .move received (rxEvents_walk rx (.chunk chunk.val pipeReady))

theorem readEvents_walk (result : ReadResult) :
    LoopWalk .readPipe (postCount result.events) (branchEnd result.leaves .select) := by
  cases result with
  | failed =>
      have failed : loopNext false false .readPipe .failed = some .exit := rfl
      exact .move failed (.stay _)
  | closed rx =>
      have closed : loopNext false false .readPipe .closed = some (.rxCall .notice) := rfl
      exact .move closed (rxEvents_walk rx .notice)
  | data chunk sent =>
      have read : loopNext false false .readPipe (.data chunk.val) =
          some (branchEnd (exitHandle chunk.val) .select) := if_pos chunk.property
      exact .move read (.stay _)

/-- A walk that may leave the loop, and the one that follows if it does not. -/
theorem LoopWalk.andThen {first middle : LoopPc} {early late : List LoopEvent}
    {leaves later : Bool} (before : LoopWalk first (postCount early) (branchEnd leaves middle))
    (after : LoopWalk middle (postCount late) (branchEnd later .select)) :
    LoopWalk first (postCount (early ++ if leaves then [] else late))
      (branchEnd (leaves || later) .select) := by
  cases leaves with
  | true =>
      rw [if_pos rfl, List.append_nil, Bool.true_or]
      exact before
  | false =>
      rw [if_neg Bool.false_ne_true, Bool.false_or, postCount_append]
      exact before.trans after

theorem passEvents_walk (pass : Pass) :
    LoopWalk .select (postCount pass.events) (branchEnd pass.leaves .select) := by
  cases pass with
  | timeout endFlag rx =>
      have timedOut : loopNext endFlag false .select .timeout = some .testEnd := rfl
      apply LoopWalk.move timedOut
      cases endFlag with
      | false =>
          have again : loopNext false false .testEnd .go = some .select := rfl
          exact .move again (.stay _)
      | true =>
          have ended : loopNext true false .testEnd .go = some (.rxCall .notice) := rfl
          exact .move ended (rxEvents_walk rx .notice)
  | selectError rx =>
      have failed : loopNext false false .select .selectError = some (.rxCall .notice) := rfl
      exact .move failed (rxEvents_walk rx .notice)
  | ready sock pipe =>
      have found : loopNext false false .select (.ready sock.isSome pipe.isSome) =
          some (afterSelect sock.isSome pipe.isSome) := rfl
      apply LoopWalk.move found
      have pipeWalk : LoopWalk (if pipe.isSome then .readPipe else .select)
          (postCount (pipe.elim [] ReadResult.events))
          (branchEnd (pipe.any ReadResult.leaves) .select) := by
        cases pipe with
        | none => exact .stay _
        | some result => exact readEvents_walk result
      cases sock with
      | none => exact pipeWalk
      | some result => exact (recvEvents_walk result pipe.isSome).andThen pipeWalk

theorem events_walk (passes : List Pass) :
    LoopWalk .select (postCount (events passes))
      (branchEnd (passes.any Pass.leaves) .select) := by
  induction passes with
  | nil => exact .stay _
  | cons pass rest inductionHypothesis =>
      rw [events, List.any_cons]
      exact (passEvents_walk pass).andThen inductionHypothesis

/-- Every call of this model is a walk of the interleaved loop: it reaches the
exit label exactly when the call returns, with as many posts. -/
theorem selectHandle_walk (passes : List Pass) :
    LoopWalk .select (postCount (selectHandle .start passes).1.log)
      (match (selectHandle .start passes).2 with
        | .goOn => .select
        | .leave => .exit) := by
  obtain ⟨log, flow⟩ := selectHandle_does .start passes
  rw [log, flow]
  have walk := events_walk passes
  generalize passes.any Pass.leaves = leaves at walk ⊢
  cases leaves <;> exact walk

end RttIctl.Net
