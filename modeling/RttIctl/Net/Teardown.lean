import RttIctl.Net.Handle

/-!
Owns the order between the end of a `select_handle` loop and the
`rt_tcpclient_close` of its client. The callback and the exit macros decide
independently, from the same bytes, whether the session is over; they disagree
on a chunk that reads `TCP disconnect`. Without such chunks, and as long as
`tcth1` takes the event its own client's loop posted, no client is closed
under a running loop.
-/

namespace RttIctl.Net

open Lib (StepSystem)

/-- Statements of `select_handle` that read the client. -/
def LoopPc.touches : LoopPc → Bool
  | .select | .recv _ | .rxCall _ | .readPipe => true
  | _ => false

/-- In no future does the loop of the client access it. -/
def NoFurtherAccess (s : State) (c : ClientId) : Prop :=
  ∀ s', netSystem.Leads s s' → (s'.loops c).touches = false

/-- A client is closed only when its loop will not access it, and the callback
posts `TC_TCPCLIENT_CLOSE` only for a message after which `select_handle` goes
to its exit label. -/
structure ClosesUnused (s : State) : Prop where
  close : ∀ i part c, (s.th1 i).pc = .closing part → (s.th1 i).param = some c →
    NoFurtherAccess s c
  post : ∀ c message, s.loops c = .rxPost message → message.next = .exit

/-- The peer sends no chunk that reads `TCP disconnect`, and a `tcth1` that
takes `TC_TCPCLIENT_CLOSE` finds that the loop of its own client posted it, or
that this loop is done with the client. -/
def takesOwnClose (s : State) : Label → Bool
  | .loop c (.data bytes) => !(s.loops c matches .recv _) || cString bytes != disconnectText
  | .th1 i _ =>
      match (s.th1 i).pc, (s.th1 i).param, s.liveEvent with
      | .wait, some c, some event =>
          !(s.events event).close || (s.events event).closeBy.contains c || (s.loops c).quiet
      | _, _, _ => true
  | _ => true

variable {s s' : State} {label : Label}

/-! ### A loop that is done with its client stays done -/

theorem LoopPc.quiet_untouched {pc : LoopPc} (isQuiet : pc.quiet = true) : pc.touches = false := by
  cases pc <;> simp_all [LoopPc.quiet, LoopPc.touches]

theorem Message.next_of_leaves {message : Message} (leaves : message.leaves = true) :
    message.next = .exit := by
  cases message with
  | notice => rfl
  | chunk bytes pipeReady => simp_all [Message.leaves, Message.next]

theorem LoopMove.quiet {endFlag rx : Bool} {pc next : LoopPc} {input : LoopInput}
    (moves : LoopMove endFlag rx pc input next) (isQuiet : pc.quiet = true) :
    next.quiet = true := by
  cases moves with
  | posts => exact isQuiet
  | returns message =>
      rw [Message.next_of_leaves isQuiet]
      rfl
  | leave => rfl
  | _ => cases isQuiet

theorem Taken.quiet_stays (inv : Handles s) (taken : Taken s label s') {c : ClientId}
    (below : c < s.clientCount) (isQuiet : (s.loops c).quiet = true) :
    (s'.loops c).quiet = true := by
  rcases taken.loop_cases c with same | moved
  · rwa [same]
  · generalize s'.loops c = pc at moved
    cases moved with
    | created _ _ isNew => exact absurd isNew (Nat.ne_of_lt below)
    | startup t isAt => simp [inv.startupCreated t c isAt, LoopPc.quiet] at isQuiet
    | next _ _ moves => exact moves.quiet isQuiet
    | post message _ isAt =>
        rw [isAt] at isQuiet
        rw [Message.next_of_leaves isQuiet]
        rfl
    | asserts | reclaim => rfl

theorem noFurtherAccess_of_quiet (inv : Handles s) {c : ClientId} (below : c < s.clientCount)
    (isQuiet : (s.loops c).quiet = true) : NoFurtherAccess s c := by
  intro s' leads
  have all := leads.invariant
    (fun s => Handles s ∧ c < s.clientCount ∧ (s.loops c).quiet = true) ⟨inv, below, isQuiet⟩ ?_
  · exact LoopPc.quiet_untouched all.2.2
  · rintro s label s' ⟨inv, below, isQuiet⟩ ran
    have taken := step_taken ran
    exact ⟨handles_step inv taken, Nat.lt_of_lt_of_le below taken.clientCount_le,
      taken.quiet_stays inv below isQuiet⟩

/-! ### The message a loop carries to the callback -/

/-- The message between its arrival and the return of the callback. -/
def LoopPc.carried : LoopPc → Option Message
  | .rxCall message | .rxCb message | .rxPost message => some message
  | _ => none

theorem Message.next_carried (message : Message) : message.next.carried = none := by
  cases message with
  | notice => rfl
  | chunk bytes pipeReady =>
      simp only [Message.next]
      split
      · rfl
      · split <;> rfl

theorem afterSelect_carried (sock pipe : Bool) : (afterSelect sock pipe).carried = none := by
  cases sock <;> cases pipe <;> rfl

/-- A loop carries the message it had, a notice, or a chunk just received. -/
theorem LoopMove.carried_cases {endFlag rx : Bool} {pc next : LoopPc} {input : LoopInput}
    {message : Message} (moves : LoopMove endFlag rx pc input next)
    (carries : next.carried = some message) :
    pc.carried = some message ∨ message = .notice ∨
      ∃ bytes pipeReady, pc = .recv pipeReady ∧ input = .data bytes ∧
        message = .chunk bytes pipeReady := by
  cases moves with
  | call | posts => exact .inl carries
  | selectError | ended | recvClosed | readClosed =>
      exact .inr (.inl (Option.some.inj carries).symm)
  | received pipeReady bytes =>
      exact .inr (.inr ⟨bytes, pipeReady, rfl, rfl, (Option.some.inj carries).symm⟩)
  | skip other | returns other => simp [Message.next_carried] at carries
  | ready sock pipe => simp [afterSelect_carried] at carries
  | _ => cases carries

theorem LoopMove.post_text {endFlag rx : Bool} {pc : LoopPc} {input : LoopInput}
    {message : Message} (moves : LoopMove endFlag rx pc input (.rxPost message)) :
    rxCbPosts message.text = true := by
  generalize target : LoopPc.rxPost message = next at moves
  have carries : next.carried = some message := by rw [← target]; rfl
  cases moves with
  | posts other text => rwa [LoopPc.rxPost.inj target]
  | skip other | returns other => simp [Message.next_carried] at carries
  | ready sock pipe => simp [afterSelect_carried] at carries
  | _ => cases target

/-! ### The invariant -/

/-- `TC_TCPCLIENT_CLOSE` has been taken. -/
def Th1Pc.took : Th1Pc → Bool
  | .postExit | .closing _ | .finished => true
  | _ => false

/-- Carried messages that read `TCP disconnect` end the loop, and so do those
that are posted; the loops that posted are done with their clients, and so is
the loop of every client whose `tcth1` has taken the event. -/
structure Teardown (s : State) : Prop where
  honest : ∀ c message, (s.loops c).carried = some message →
    cString message.text = disconnectText → message.leaves = true
  posting : ∀ c message, s.loops c = .rxPost message → rxCbPosts message.text = true
  closeByQuiet : ∀ event c, c ∈ (s.events event).closeBy →
    c < s.clientCount ∧ (s.loops c).quiet = true
  tookQuiet : ∀ i c, (s.th1 i).pc.took = true → (s.th1 i).param = some c →
    (s.loops c).quiet = true

theorem Teardown.leaves (inv : Teardown s) {c : ClientId} {message : Message}
    (isAt : s.loops c = .rxPost message) : message.leaves = true := by
  have posts := inv.posting c message isAt
  have honest := inv.honest c message (by rw [isAt]; rfl)
  simp only [rxCbPosts, Bool.or_eq_true, beq_iff_eq] at posts
  rcases posts with isExit | isDisconnect
  · cases message with
    | notice => rfl
    | chunk bytes pipeReady => simpa [Message.leaves, exitHandle, Message.text] using isExit
  · exact honest isDisconnect

private theorem init_teardown : Teardown .init := by
  constructor <;> intros <;> simp_all [State.init, LoopPc.carried, Th1Pc.took]

private theorem honest_step (inv : Teardown s) (own : takesOwnClose s label = true)
    (taken : Taken s label s') {c : ClientId} {message : Message}
    (carries : (s'.loops c).carried = some message)
    (text : cString message.text = disconnectText) : message.leaves = true := by
  rcases taken.loop_cases c with same | moved
  · exact inv.honest c message (same ▸ carries) text
  · generalize s'.loops c = pc at moved carries
    cases moved with
    | created _ _ _ _ unstarted => rcases unstarted with rfl | rfl <;> cases carries
    | next _ _ moves =>
        rcases moves.carried_cases carries with before | rfl | ⟨bytes, pipeReady, isAt, rfl, rfl⟩
        · exact inv.honest c message before text
        · rfl
        · exact absurd text (by simpa [takesOwnClose, isAt, Message.text] using own)
    | post other => simp [Message.next_carried] at carries
    | startup | asserts | reclaim => cases carries

private theorem posting_step (inv : Teardown s) (taken : Taken s label s') {c : ClientId}
    {message : Message} (isAt : s'.loops c = .rxPost message) :
    rxCbPosts message.text = true := by
  rcases taken.loop_cases c with same | moved
  · exact inv.posting c message (same ▸ isAt)
  · rw [isAt] at moved
    generalize target : LoopPc.rxPost message = pc at moved
    have carries : pc.carried = some message := by rw [← target]; rfl
    cases moved with
    | created _ _ _ _ unstarted => rcases unstarted with rfl | rfl <;> cases carries
    | next _ _ moves =>
        rw [← target] at moves
        exact moves.post_text
    | post other => simp [Message.next_carried] at carries
    | startup | asserts | reclaim => cases carries

private theorem closeByQuiet_step (handles : Handles s) (inv : Teardown s)
    (taken : Taken s label s') {event : EventId} {c : ClientId}
    (posted : c ∈ (s'.events event).closeBy) :
    c < s'.clientCount ∧ (s'.loops c).quiet = true := by
  rcases taken.closeBy_cases posted with before | ⟨message, -, isAt, after⟩
  · obtain ⟨below, isQuiet⟩ := inv.closeByQuiet event c before
    exact ⟨Nat.lt_of_lt_of_le below taken.clientCount_le, taken.quiet_stays handles below isQuiet⟩
  · have below : c < s.clientCount := by
      by_contra above
      simp [handles.loopAbsent c (Nat.not_lt.mp above)] at isAt
    rw [after, Message.next_of_leaves (inv.leaves isAt)]
    exact ⟨Nat.lt_of_lt_of_le below taken.clientCount_le, rfl⟩

private theorem tookQuiet_step (handles : Handles s) (inv : Teardown s)
    (own : takesOwnClose s label = true) (taken : Taken s label s') {i : Nat} {c : ClientId}
    (took : (s'.th1 i).pc.took = true) (isParam : (s'.th1 i).param = some c) :
    (s'.loops c).quiet = true := by
  have stays : (s.th1 i).param = some c → (s.loops c).quiet = true → (s'.loops c).quiet = true :=
    fun param => taken.quiet_stays handles (handles.paramLt i c param)
  have before : (s.th1 i).param = some c → (s.th1 i).pc.took = true → (s'.loops c).quiet = true :=
    fun param wasTook => stays param (inv.tookQuiet i c wasTook param)
  rcases taken.th1_cases i with same | created | ⟨sameParam, moved⟩
  · exact before (same ▸ isParam) (same ▸ took)
  · simp [created.created, Th1Pc.took] at took
  · rw [sameParam] at isParam
    generalize (s'.th1 i).pc = pc at moved took
    cases moved with
    | takeClose ok event isAt live pending =>
        have posted : c ∈ (s.events event).closeBy ∨ (s.loops c).quiet = true := by
          simpa [takesOwnClose, isAt, isParam, live, pending] using own
        rcases posted with posted | isQuiet
        · exact stays isParam (inv.closeByQuiet event c posted).2
        · exact stays isParam isQuiet
    | postExit _ _ _ isAt | postExitNull _ _ isAt | close _ _ _ isAt | free _ isAt =>
        exact before isParam (by rw [isAt]; rfl)
    | startTh1 | asserts => cases took

theorem teardown_step (handles : Handles s) (inv : Teardown s) (own : takesOwnClose s label = true)
    (taken : Taken s label s') : Teardown s' where
  honest _ _ := honest_step inv own taken
  posting _ _ := posting_step inv taken
  closeByQuiet _ _ := closeByQuiet_step handles inv taken
  tookQuiet _ _ := tookQuiet_step handles inv own taken

theorem teardown_of_reaches {admits : State → Label → Prop}
    (own : ∀ s label, admits s label → takesOwnClose s label = true)
    (reach : netSystem.Reaches admits s) : Teardown s := by
  refine reach.invariant_of (fun _ => handles_of_reaches) Teardown init_teardown ?_
  intro s label s' handles inv admitted ran
  exact teardown_step handles inv (own s label admitted) (step_taken ran)

/-- In every run in which no received chunk reads `TCP disconnect` and every
`tcth1` takes the event of its own client, no client is closed under its loop,
and the callback posts only for messages that end the loop. -/
theorem closes_unused {s : State}
    (reach : netSystem.Reaches (fun s label => takesOwnClose s label = true) s) :
    ClosesUnused s := by
  have handles := handles_of_reaches reach
  have inv := teardown_of_reaches (fun _ _ own => own) reach
  constructor
  · intro i part c isClosing param
    exact noFurtherAccess_of_quiet handles (handles.paramLt i c param)
      (inv.tookQuiet i c (by rw [isClosing]; rfl) param)
  · intro c message isAt
    exact Message.next_of_leaves (inv.leaves isAt)

/-- The peer closes and `tcth1` starts to close the client. -/
theorem closes_unused_after_peer_closes :
    ∃ s, (s.th1 0).pc = .closing .sock ∧ ClosesUnused s := by
  have reach := netSystem.runWhile_reaches takesOwnClose
    (connects 0 0 ++ peerCloses 0 ++ [.th1 0 true, .th1 0 true])
  exact ⟨_, by decide +kernel, closes_unused reach⟩

/-- The peer sends `TCP disconnect`, which is posted as if it were a notice. -/
def inBandDisconnect : List Label :=
  connects 0 0 ++ [.loop 0 (.ready true false), .loop 0 (.data disconnectText), .loop 0 .go,
    .loop 0 (.malloc true)]

/-- The callback posts for a chunk after which the loop goes on, and the client
is closed while its loop is in `select`. -/
theorem close_under_running_loop :
    (∃ s message, netSystem.Reachable s ∧ s.loops 0 = .rxPost message ∧ message.next = .select) ∧
    ∃ s, netSystem.Reachable s ∧ (s.th1 0).pc = .closing .sock ∧ (s.th1 0).param = some 0 ∧
      s.loops 0 = .select ∧ ¬ ClosesUnused s := by
  let closing := inBandDisconnect ++ [.loop 0 .go, .th1 0 true, .th1 0 true]
  refine ⟨⟨netSystem.run inBandDisconnect, .chunk disconnectText false,
    netSystem.run_reachable inBandDisconnect, by decide +kernel, by decide⟩,
    netSystem.run closing, netSystem.run_reachable closing, ?_⟩
  have isClosing : ((netSystem.run closing).th1 0).pc = .closing .sock := by decide +kernel
  have param : ((netSystem.run closing).th1 0).param = some 0 := by decide +kernel
  have isSelect : (netSystem.run closing).loops 0 = .select := by decide +kernel
  refine ⟨isClosing, param, isSelect, fun unused => ?_⟩
  have untouched := unused.close 0 .sock 0 isClosing param _ .refl
  simp [isSelect, LoopPc.touches] at untouched

end RttIctl.Net
