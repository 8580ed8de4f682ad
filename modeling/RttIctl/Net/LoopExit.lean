import RttIctl.Net.SelectHandle

/-!
Owns two questions about one call of `select_handle`: when a call that returns
has sent `TC_TCPCLIENT_CLOSE`, and what a received chunk does to the buffer,
the callback and the loop.

It does not own the statements of the loop.
-/

namespace RttIctl.Net

open Lib

/-! ### Exits that nobody hears of -/

/-- A result of `recv` that ends the loop without `TC_TCPCLIENT_CLOSE`: a
negative one, or any when the callback is not attached or has no memory. -/
def RecvResult.silent : RecvResult → Bool
  | .failed => true
  | .closed rx => !rx.heard
  | .data _ rx => !rx.heard

/-- The same for `read`: a negative result, `exit` in the pipe, or an end of file
the callback does not hear of. -/
def ReadResult.silent : ReadResult → Bool
  | .failed => true
  | .closed rx => !rx.heard
  | .data _ _ => true

/-- A pass that ends the loop does it silently. -/
def Pass.silent : Pass → Bool
  | .timeout _ rx => !rx.heard
  | .selectError rx => !rx.heard
  | .ready sock pipe =>
      if sock.any RecvResult.leaves then sock.any RecvResult.silent else pipe.any ReadResult.silent

/-- The peer sends the text that the callback takes for the notice. -/
def RecvResult.tellsDisconnect : RecvResult → Bool
  | .failed => false
  | .closed _ => false
  | .data chunk rx => rx.heard && cString chunk.val == disconnectText

def Pass.tellsDisconnect : Pass → Bool
  | .timeout _ _ => false
  | .selectError _ => false
  | .ready sock _ => sock.any RecvResult.tellsDisconnect

theorem post_mem_rxEvents (rx : RxCall) (buff : Bytes) :
    .post ∈ rx.events buff ↔ rx.heard = true ∧ rxCbPosts buff = true := by
  unfold RxCall.events RxCall.heard
  cases rx.attached <;> cases rx.malloc <;> cases rxCbPosts buff <;> simp

theorem rxCbPosts_disconnectText : rxCbPosts disconnectText = true := by decide

theorem post_mem_readEvents (result : ReadResult) :
    .post ∈ result.events ↔ result.leaves = true ∧ result.silent = false := by
  cases result with
  | failed => simp [ReadResult.events, ReadResult.silent]
  | closed rx =>
      simp [ReadResult.events, ReadResult.leaves, ReadResult.silent, post_mem_rxEvents,
        rxCbPosts_disconnectText]
  | data chunk sent => simp [ReadResult.events, ReadResult.silent]

theorem post_mem_recvEvents (result : RecvResult) :
    .post ∈ result.events ↔
      (result.leaves = true ∧ result.silent = false) ∨ result.tellsDisconnect = true := by
  cases result with
  | failed => simp [RecvResult.events, RecvResult.silent, RecvResult.tellsDisconnect]
  | closed rx =>
      simp [RecvResult.events, RecvResult.leaves, RecvResult.silent, RecvResult.tellsDisconnect,
        post_mem_rxEvents, rxCbPosts_disconnectText]
  | data chunk rx =>
      simp only [RecvResult.events, RecvResult.leaves, RecvResult.silent,
        RecvResult.tellsDisconnect, List.mem_cons, reduceCtorEq, false_or, post_mem_rxEvents,
        rxCbPosts, exitHandle, Bool.or_eq_true, Bool.and_eq_true, Bool.not_eq_false']
      rw [and_or_left, and_comm (b := (cString chunk.val == exitText) = true)]

/-- One pass sends `TC_TCPCLIENT_CLOSE` exactly when it ends the loop aloud or
brings the peer's text. -/
theorem post_mem_passEvents (pass : Pass) :
    .post ∈ pass.events ↔
      (pass.leaves = true ∧ pass.silent = false) ∨ pass.tellsDisconnect = true := by
  cases pass with
  | timeout endFlag rx =>
      cases endFlag <;>
        simp [Pass.events, Pass.leaves, Pass.silent, Pass.tellsDisconnect, post_mem_rxEvents,
          rxCbPosts_disconnectText]
  | selectError rx =>
      simp [Pass.events, Pass.leaves, Pass.silent, Pass.tellsDisconnect, post_mem_rxEvents,
        rxCbPosts_disconnectText]
  | ready sock pipe =>
      have pipePart : .post ∈ pipe.elim [] ReadResult.events ↔
          pipe.any ReadResult.leaves = true ∧ pipe.any ReadResult.silent = false := by
        cases pipe with
        | none => simp
        | some result => exact post_mem_readEvents result
      cases sock with
      | none => simp [Pass.events, Pass.leaves, Pass.silent, Pass.tellsDisconnect, pipePart]
      | some result =>
          have sockPart := post_mem_recvEvents result
          by_cases leaves : result.leaves = true
          · simpa [Pass.events, Pass.leaves, Pass.silent, Pass.tellsDisconnect, leaves] using
              sockPart
          · -- the socket branch falls through, and the pipe branch decides
            simp only [leaves, Bool.false_eq_true, false_and, false_or] at sockPart
            simp [Pass.events, Pass.leaves, Pass.silent, Pass.tellsDisconnect, leaves, sockPart,
              pipePart, or_comm]

/-- The passes of a call up to the one that leaves end aloud, or one of them
brought the peer's text. -/
def Announced (passes : List Pass) : Prop :=
  ∃ before last unused, passes = before ++ last :: unused ∧
    (∀ pass ∈ before, pass.leaves = false) ∧ last.leaves = true ∧
      (last.silent = false ∨ ∃ pass ∈ before ++ [last], pass.tellsDisconnect = true)

/-- A call that returns does so in its first pass that leaves. -/
theorem exists_leaving_pass {passes : List Pass} (returns : passes.any Pass.leaves = true) :
    ∃ before last unused, passes = before ++ last :: unused ∧
      (∀ pass ∈ before, pass.leaves = false) ∧ last.leaves = true := by
  induction passes with
  | nil => exact absurd returns Bool.false_ne_true
  | cons pass rest inductionHypothesis =>
      by_cases leaves : pass.leaves = true
      · exact ⟨[], pass, rest, rfl, by simp, leaves⟩
      · have goesOn : pass.leaves = false := Bool.eq_false_iff.mpr leaves
        rw [List.any_cons, goesOn, Bool.false_or] at returns
        obtain ⟨before, last, unused, split, running, lastLeaves⟩ := inductionHypothesis returns
        refine ⟨pass :: before, last, unused, by rw [split]; rfl, ?_, lastLeaves⟩
        exact List.forall_mem_cons.mpr ⟨goesOn, running⟩

/-- What a call sends, by the passes it runs through. -/
theorem post_mem_events {before unused : List Pass} {last : Pass}
    (running : ∀ pass ∈ before, pass.leaves = false) (leaves : last.leaves = true) :
    .post ∈ events (before ++ last :: unused) ↔
      last.silent = false ∨ ∃ pass ∈ before ++ [last], pass.tellsDisconnect = true := by
  induction before with
  | nil =>
      rw [List.nil_append, events, if_pos leaves, List.append_nil, post_mem_passEvents]
      simp [leaves]
  | cons pass before inductionHypothesis =>
      obtain ⟨goesOn, later⟩ := List.forall_mem_cons.mp running
      rw [List.cons_append, events, if_neg (by rw [goesOn]; exact Bool.false_ne_true),
        List.mem_append, inductionHypothesis later, post_mem_passEvents, goesOn]
      simp only [Bool.false_eq_true, false_and, false_or, List.cons_append, List.mem_cons,
        exists_eq_or_imp]
      exact or_left_comm

/-- A call that returns has sent `TC_TCPCLIENT_CLOSE` exactly when the pass that
ended it was not silent, or the peer sent the text of the notice before. -/
theorem exit_announced_iff (passes : List Pass)
    (returned : (selectHandle .start passes).2 = .leave) :
    .post ∈ (selectHandle .start passes).1.log ↔ Announced passes := by
  obtain ⟨log, flow⟩ := selectHandle_does .start passes
  have returns : passes.any Pass.leaves = true := by
    rw [flow] at returned
    by_contra running
    rw [if_neg running] at returned
    exact Flow.noConfusion returned
  rw [log]
  change .post ∈ events passes ↔ _
  constructor
  · intro posted
    obtain ⟨before, last, unused, rfl, running, leaves⟩ := exists_leaving_pass returns
    exact ⟨before, last, unused, rfl, running, leaves, (post_mem_events running leaves).mp posted⟩
  · rintro ⟨before, last, unused, rfl, running, leaves, loud⟩
    exact (post_mem_events running leaves).mpr loud

/-- A timeout, then the peer closes the connection with the callback attached. -/
theorem peer_close_announced :
    .post ∈ (selectHandle .start
      [.timeout false ⟨true, true⟩, .ready (some (.closed ⟨true, true⟩)) none]).1.log := by
  rw [exit_announced_iff _ (by decide)]
  exact ⟨[.timeout false ⟨true, true⟩], .ready (some (.closed ⟨true, true⟩)) none, [], rfl,
    by decide, rfl, Or.inl rfl⟩

/-- `recv` fails: the call returns and nothing was sent. -/
theorem recv_failure_unannounced :
    ¬ ∀ passes, (selectHandle .start passes).2 = .leave →
      .post ∈ (selectHandle .start passes).1.log := by
  intro always
  have posted := always [.ready (some .failed) none] (by decide)
  exact absurd posted (by decide)

/-! ### Received chunks -/

/-- The bytes of a callback event. -/
def LoopEvent.rxBytes : LoopEvent → Option Bytes
  | .rx bytes => some bytes
  | .write _ _ _ => none
  | .post => none
  | .send _ _ => none

/-- What a received chunk should do: only bytes of the buffer are written, the
callback gets exactly the chunk, and the loop ends exactly on the text `exit`. -/
def ChunkHandled (s : LoopState) (chunk : Chunk) (rx : RxCall) : Prop :=
  ∃ added, (sockBranch s (.data chunk rx)).1.log = s.log ++ added ∧
    (∀ start count, .write .sock start count ∈ added → start + count ≤ buffSize) ∧
    (added.filterMap LoopEvent.rxBytes = if rx.attached then [chunk.val] else []) ∧
    ((sockBranch s (.data chunk rx)).2 = .leave ↔ chunk.val = exitText)

theorem rxBytes_rxEvents (rx : RxCall) (buff : Bytes) :
    (rx.events buff).filterMap LoopEvent.rxBytes = if rx.attached then [buff] else [] := by
  unfold RxCall.events
  cases rx.attached <;> cases rx.malloc <;> cases rxCbPosts buff <;> rfl

theorem write_not_mem_rxEvents (rx : RxCall) (buff : Bytes) (buffer : Buffer)
    (start count : Nat) : .write buffer start count ∉ rx.events buff := by
  unfold RxCall.events
  cases rx.attached <;> cases rx.malloc <;> cases rxCbPosts buff <;> simp

/-- The test of `EXIT_HANDLE` on a chunk: the text alone, or the text and a NUL
in front of anything. -/
theorem exitHandle_iff (bytes : Bytes) :
    exitHandle bytes = true ↔ bytes = exitText ∨ exitText ++ [0] <+: bytes := by
  rw [exitHandle, beq_iff_eq, cString]
  exact CString.takeWhile_eq_iff 0 zero_not_mem_exitText bytes

/-- The writes of a chunk and its terminator stay in the buffer exactly when the
chunk does not fill it. -/
theorem writes_inside_iff (chunk : Chunk) (rx : RxCall) :
    (∀ start count, .write .sock start count ∈
      .write .sock 0 chunk.val.length :: .write .sock chunk.val.length 1 :: rx.events chunk.val →
        start + count ≤ buffSize) ↔ chunk.val.length < buffSize := by
  constructor
  · intro inside
    exact inside chunk.val.length 1 (by simp)
  · intro room start count member
    have bound := chunk.property.2
    simp only [List.mem_cons, LoopEvent.write.injEq, write_not_mem_rxEvents, or_false,
      true_and] at member
    omega

/-- `EXIT_HANDLE` leaves on the text alone exactly for bytes that do not begin
with the text and a NUL. -/
theorem leaves_only_exit_iff (bytes : Bytes) :
    ((if exitHandle bytes then Flow.leave else Flow.goOn) = .leave ↔ bytes = exitText) ↔
      ¬ exitText ++ [0] <+: bytes := by
  have leaves : (if exitHandle bytes then Flow.leave else Flow.goOn) = .leave ↔
      exitHandle bytes = true := by
    cases exitHandle bytes <;> simp
  rw [leaves, exitHandle_iff]
  constructor
  · intro only begins
    have same := only.mp (Or.inr begins)
    rw [same] at begins
    exact absurd begins (by decide)
  · intro other
    exact or_iff_left other

/-- In every state, a chunk is handled as it should be exactly when it leaves
room for the terminator and does not begin with `exit` and a NUL. -/
theorem chunkHandled_iff (s : LoopState) (chunk : Chunk) (rx : RxCall) :
    ChunkHandled s chunk rx ↔
      chunk.val.length < buffSize ∧ ¬ exitText ++ [0] <+: chunk.val := by
  unfold ChunkHandled
  rw [sockBranch_data, ← writes_inside_iff chunk rx, ← leaves_only_exit_iff]
  constructor
  · rintro ⟨added, log, inside, _, ends⟩
    have same := List.append_cancel_left log
    subst same
    exact ⟨inside, ends⟩
  · rintro ⟨inside, ends⟩
    exact ⟨_, rfl, inside, rxBytes_rxEvents rx chunk.val, ends⟩

/-- A chunk that fills the buffer. -/
def fullChunk : Chunk :=
  ⟨List.replicate buffSize 65, by rw [List.length_replicate]; decide,
    Nat.le_of_eq List.length_replicate⟩

/-- Its terminator is written one byte behind the buffer. -/
theorem fullChunk_not_handled : ¬ ChunkHandled .start fullChunk ⟨true, true⟩ := by
  rintro ⟨added, log, inside, _, _⟩
  rw [sockBranch_data] at log
  have member : .write .sock fullChunk.val.length 1 ∈ added := by
    rw [← List.append_cancel_left log]
    simp
  have bound := inside _ _ member
  have size : fullChunk.val.length = buffSize := List.length_replicate
  omega

end RttIctl.Net
