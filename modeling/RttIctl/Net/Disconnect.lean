import RttIctl.Net.Lock
import RttIctl.Net.Teardown

/-!
Owns what holds when `disconnect` returns. `tcth1` posts `TC_EXIT_THREAD`
before it closes the client, so `tcth2` may clear `end`, and `disconnect`
return, with the client still open. If instead `tcth1` has returned from
`rt_tcpclient_close` by then, the client is torn down and nobody touches it
again.
-/

namespace RttIctl.Net

open Lib (StepSystem)

/-- Every part of the client has been given back: socket and descriptors
closed, pipe device deleted, memory freed. -/
def TornDown (s : State) (c : ClientId) : Prop := ∀ part, (s.clients c).released part ≠ 0

/-- A thread whose entry function has returned or that is stopped by a failed
assertion. -/
def Th1Pc.over : Th1Pc → Bool
  | .finished | .asserted => true
  | _ => false

/-- No thread that holds a pointer to the client will touch it. -/
structure Untouched (s : State) (c : ClientId) : Prop where
  loop : NoFurtherAccess s c
  th1 : ∀ i, (s.th1 i).param = some c → (s.th1 i).pc.over = true
  send : ∀ t, s.callers t ≠ .writePipe (some c)
  connect : ∀ t, (s.callers t).pending ≠ some c

/-- When a `disconnect` is about to return, the client that was current at its
call is torn down and left alone. -/
def DisconnectComplete (s : State) : Prop :=
  ∀ t nested c, s.callers t = .unlockDisconnect nested → s.currentAtCall t = some c →
    TornDown s c ∧ Untouched s c

/-- The `tcth1` of the client has returned. -/
def Closed (s : State) (c : ClientId) : Prop :=
  ∃ i, (s.th1 i).param = some c ∧ (s.th1 i).pc = .finished

/-- When `tcth2` clears `end` for a waiting `disconnect`, or the lookup of a
`disconnect` fails, the `tcth1` of the client that was current at the call has
returned from `rt_tcpclient_close`. -/
def ClosedFirst (s : State) : Label → Prop
  | .run t => ∀ nested c, s.callers t = .findLoop nested → s.isConnected = false →
      s.currentAtCall t = some c → Closed s c
  | .th2 j => s.th2 j = .clearEnd → ∀ t nested c, s.callers t = .waitEnd nested →
      s.currentAtCall t = some c → Closed s c
  | _ => True

variable {s s' : State} {label : Label}

/-! ### What `rt_tcpclient_close` has given back so far -/

/-- The statements of `rt_tcpclient_close` already executed. -/
def Th1Pc.gave : Th1Pc → Part → Bool
  | .closing .readFd, part => part == .sock
  | .closing .writeFd, part => part == .sock || part == .readFd
  | .closing .dev, part => part == .sock || part == .readFd || part == .writeFd
  | .closing .mem, part => part != .mem
  | .finished, _ => true
  | _, _ => false

theorem gave_next {part next : Part} (more : part.closeNext = some next) {given : Part}
    (gives : (Th1Pc.closing next).gave given = true) :
    given = part ∨ (Th1Pc.closing part).gave given = true := by
  cases part <;> simp only [Part.closeNext, Option.some.injEq, reduceCtorEq] at more <;>
    subst more <;> cases given <;> simp [Th1Pc.gave] at gives ⊢

theorem gave_last (given : Part) : given = .mem ∨ (Th1Pc.closing .mem).gave given = true := by
  cases given <;> simp [Th1Pc.gave]

/-- A statement of `rt_tcpclient_close` gives its part back, or stops the
thread. -/
theorem Taken.close_gives {i : Nat} {ok : Bool} (taken : Taken s (.th1 i ok) s') {part : Part}
    {c : ClientId} (isAt : (s.th1 i).pc = .closing part) (param : (s.th1 i).param = some c) :
    (s'.th1 i).pc = .asserted ∨ (s'.clients c).released part ≠ 0 := by
  cases taken with
  | close _ _ client closing _ isClosing isParam =>
      obtain rfl : closing = part := by simpa [isAt] using isClosing.symm
      obtain rfl : client = c := by simpa [param] using isParam.symm
      exact .inr (by simp [State.setTh1, State.setClient, Client.release])
  | free _ _ client isClosing isParam =>
      obtain rfl : part = .mem := by simpa [isAt] using isClosing
      obtain rfl : client = c := by simpa [param] using isParam.symm
      exact .inr (by simp [State.setTh1, State.setClient, Client.release])
  | closeAsserts => exact .inl (by simp [State.setTh1])
  | th1Polls _ _ other | takeClose _ _ _ other | postExit _ _ _ _ other
  | postExitNull _ _ _ other | th1Asserts _ _ other => simp [isAt] at other

/-- A part whose statement a `tcth1` has passed is given back. -/
def Gives (s : State) : Prop :=
  ∀ i c part, (s.th1 i).param = some c → (s.th1 i).pc.gave part = true →
    (s.clients c).released part ≠ 0

theorem gives_step (handles : Handles s) (inv : Gives s) (taken : Taken s label s') : Gives s' := by
  intro i c part isParam gives
  have before : (s.th1 i).param = some c → (s.th1 i).pc.gave part = true →
      (s'.clients c).released part ≠ 0 := fun param gave =>
    taken.released_stays (handles.paramLt i c param) (inv i c part param gave)
  rcases taken.th1_cases i with same | created | ⟨sameParam, moved⟩
  · exact before (same ▸ isParam) (same ▸ gives)
  · simp [created.created, Th1Pc.gave] at gives
  · rw [sameParam] at isParam
    generalize after : (s'.th1 i).pc = pc at moved gives
    cases moved with
    | close ok closing next isAt more =>
        rcases gave_next more gives with rfl | earlier
        · rcases taken.close_gives isAt isParam with stopped | given
          · simp [after] at stopped
          · exact given
        · exact before isParam (by rw [isAt]; exact earlier)
    | free ok isAt =>
        rcases gave_last part with rfl | earlier
        · rcases taken.close_gives isAt isParam with stopped | given
          · simp [after] at stopped
          · exact given
        · exact before isParam (by rw [isAt]; exact earlier)
    | postExitNull _ _ _ _ param => simp [param] at isParam
    | startTh1 | takeClose | postExit | asserts => cases gives

/-! ### One `tcth1` for each client -/

/-- `connect` between the store of a handle and the creation of `tcth1`. -/
def CallerPc.creating : CallerPc → Bool
  | .testStart | .attachRxCb | .createEvent | .testEvent | .createTh1 => true
  | _ => false

/-- A handle that has just been stored is no parameter yet, and no two `tcth1`
have the same client. -/
structure Owned (s : State) : Prop where
  fresh : ∀ t c i, (s.callers t).creating = true → s.socketHdl = some c → (s.th1 i).param ≠ some c
  unique : ∀ i k c, (s.th1 i).param = some c → (s.th1 k).param = some c → i = k

theorem CallerTo.creating_cases {t : Tid} {current pc : CallerPc}
    (moved : CallerTo s t label current pc) (isCreating : pc.creating = true) :
    (label = .run t ∧ ∃ result, current = .storeHdl result) ∨
      current.creating = true ∧ current ≠ .createTh1 := by
  cases moved with
  | storeHdl result => exact .inl ⟨rfl, result, rfl⟩
  | attachRxCb | createEvent => exact .inr ⟨rfl, nofun⟩
  | move moves => cases moves <;> first | exact .inr ⟨rfl, nofun⟩ | cases isCreating
  | unlock unlocks => cases unlocks <;> cases isCreating
  | lockStore entry => cases entry <;> cases isCreating
  | _ => cases isCreating

theorem CallerPc.inside_of_creating {pc : CallerPc} (isCreating : pc.creating = true) :
    pc.inside = true := by
  cases pc <;> first | rfl | cases isCreating

private theorem fresh_step (handles : Handles s) (exclusive : MutuallyExclusive s) (inv : Owned s)
    (taken : Taken s label s') {t : Tid} {c : ClientId} {i : Nat}
    (isCreating : (s'.callers t).creating = true) (isHdl : s'.socketHdl = some c) :
    (s'.th1 i).param ≠ some c := by
  have onlyT : (s.callers t).inside = true → ∀ u, (s.callers u).inside = true → u = t :=
    fun isInside u uInside => exclusive u t uInside isInside
  have stays : (s.callers t).creating = true → (s.callers t ≠ .createTh1 ∨
      s'.callers t = s.callers t) → (s'.th1 i).param ≠ some c := by
    intro wasCreating notCreated
    have alone := onlyT (CallerPc.inside_of_creating wasCreating)
    have wasHdl : s.socketHdl = some c := by
      rcases taken.socketHdl_cases with same | ⟨u, result, -, isAt, -⟩
      · rw [← same, isHdl]
      · obtain rfl := alone u (by rw [isAt]; rfl)
        simp [isAt, CallerPc.creating] at wasCreating
    rcases taken.param_cases i with same | created
    · rw [same]
      exact inv.fresh t c i wasCreating wasHdl
    · obtain ⟨u, rfl, isAt⟩ := created.byCaller
      obtain rfl := alone u (by rw [isAt]; rfl)
      have ran := taken.create_eq
      simp only [createStep, isAt, if_true, Option.some.injEq] at ran
      rcases notCreated with notAt | same
      · exact absurd isAt notAt
      · simp [← ran, isAt, State.goto] at same
  rcases taken.caller_cases t with same | moved
  · exact stays (same ▸ isCreating) (.inr same)
  · rcases moved.creating_cases isCreating with ⟨rfl, result, isAt⟩ | ⟨wasCreating, notCreated⟩
    · rcases taken.param_cases i with same | created
      · rw [taken.storeHdl_stores isAt] at isHdl
        rw [same]
        exact handles.pendingUnshared t i c (by rw [isAt]; exact isHdl)
      · obtain ⟨u, other, -⟩ := created.byCaller
        cases other
    · exact stays wasCreating (.inl notCreated)

theorem owned_step (handles : Handles s) (exclusive : MutuallyExclusive s) (inv : Owned s)
    (taken : Taken s label s') : Owned s' := by
  have unshared : ∀ {i k c}, CreatesTh1 s label s' i → (s'.th1 i).param = some c →
      (s.th1 k).param ≠ some c := by
    intro i k c created isParam
    obtain ⟨u, -, isAt⟩ := created.byCaller
    rw [created.created] at isParam
    exact inv.fresh u c k (by rw [isAt]; rfl) isParam
  refine ⟨fun t c i => fresh_step handles exclusive inv taken, ?_⟩
  intro i k c iParam kParam
  rcases taken.param_cases i with iSame | iCreated <;>
    rcases taken.param_cases k with kSame | kCreated
  · exact inv.unique i k c (iSame ▸ iParam) (kSame ▸ kParam)
  · exact absurd (iSame ▸ iParam) (unshared kCreated kParam)
  · exact absurd (kSame ▸ kParam) (unshared iCreated iParam)
  · rw [iCreated.isNew, kCreated.isNew]

/-! ### From the end of `tcth1` to the return -/

/-- While a `disconnect` holds the lock, a `tcth1` that has returned keeps its
record. -/
theorem Taken.closed_stays (exclusive : MutuallyExclusive s) (taken : Taken s label s') {t : Tid}
    (isInside : (s.callers t).inside = true) (notCreate : s.callers t ≠ .createTh1)
    (notStart : ∀ i, s.callers t ≠ .startTh1 i) {c : ClientId} (closed : Closed s c) :
    Closed s' c := by
  obtain ⟨i, param, isAt⟩ := closed
  rcases taken.th1_cases i with same | created | ⟨sameParam, moved⟩
  · exact ⟨i, by rw [same, param], by rw [same, isAt]⟩
  · obtain ⟨u, -, isCreate⟩ := created.byCaller
    obtain rfl := exclusive u t (by rw [isCreate]; rfl) isInside
    exact absurd isCreate notCreate
  · generalize (s'.th1 i).pc = pc at moved
    cases moved with
    | startTh1 u isStart =>
        obtain rfl := exclusive u t (by rw [isStart]; rfl) isInside
        exact absurd isStart (notStart i)
    | asserts _ alive => simp [isAt, Th1Pc.alive] at alive
    | takeClose _ _ other | postExit _ _ _ other | postExitNull _ _ other | close _ _ _ other
    | free _ other => simp [isAt] at other

/-- A `disconnect` that sees `end` cleared, or is about to return, has the
client closed. -/
structure Signalled (s : State) : Prop where
  waiting : ∀ t nested c, s.callers t = .waitEnd nested → s.endFlag = false →
    s.currentAtCall t = some c → Closed s c
  returning : ∀ t nested c, s.callers t = .unlockDisconnect nested →
    s.currentAtCall t = some c → Closed s c

private theorem waiting_step (exclusive : MutuallyExclusive s) (inv : Signalled s)
    (first : ClosedFirst s label) (taken : Taken s label s') {t : Tid} {nested : Bool}
    {c : ClientId} (isWaiting : s'.callers t = .waitEnd nested) (isClear : s'.endFlag = false)
    (isCurrent : s.currentAtCall t = some c) : Closed s' c := by
  rcases taken.caller_cases t with same | moved
  · have wasWaiting : s.callers t = .waitEnd nested := same ▸ isWaiting
    have isInside : (s.callers t).inside = true := by rw [wasWaiting]; rfl
    have stays : Closed s c → Closed s' c :=
      taken.closed_stays exclusive isInside (by simp [wasWaiting]) (by simp [wasWaiting])
    rcases taken.endFlag_cases with unchanged | ⟨u, isAt, -⟩ | ⟨j, rfl, isAt, -⟩ |
      ⟨u, _, -, -, isSet⟩
    · exact stays (inv.waiting t nested c wasWaiting (unchanged ▸ isClear) isCurrent)
    · obtain rfl := exclusive u t (by rw [isAt]; rfl) isInside
      simp [isAt] at wasWaiting
    · exact stays (first isAt t nested c wasWaiting isCurrent)
    · simp [isSet] at isClear
  · obtain ⟨rfl, before⟩ := moved.to_waitEnd isWaiting
    have ran := taken.run_eq
    simp only [runStep, before, Option.some.injEq] at ran
    simp [← ran, State.goto] at isClear

private theorem returning_step (exclusive : MutuallyExclusive s) (inv : Signalled s)
    (first : ClosedFirst s label) (taken : Taken s label s') {t : Tid} {nested : Bool}
    {c : ClientId} (isReturning : s'.callers t = .unlockDisconnect nested)
    (isCurrent : s.currentAtCall t = some c) : Closed s' c := by
  rcases taken.caller_cases t with same | moved
  · have wasReturning : s.callers t = .unlockDisconnect nested := same ▸ isReturning
    exact taken.closed_stays exclusive (by rw [wasReturning]; rfl) (by simp [wasReturning])
      (by simp [wasReturning]) (inv.returning t nested c wasReturning isCurrent)
  · obtain ⟨rfl, ⟨before, isGone⟩ | ⟨before, isClear⟩⟩ := moved.to_unlockDisconnect isReturning
    · exact taken.closed_stays exclusive (by rw [before]; rfl) (by simp [before]) (by simp [before])
        (first nested c before isGone isCurrent)
    · exact taken.closed_stays exclusive (by rw [before]; rfl) (by simp [before]) (by simp [before])
        (inv.waiting t nested c before isClear isCurrent)

theorem signalled_step (exclusive : MutuallyExclusive s) (inv : Signalled s)
    (first : ClosedFirst s label) (taken : Taken s label s') : Signalled s' := by
  have entered : ∀ {t c pc}, s'.callers t = pc → (∀ nested, pc ≠ .lockTest (.disconnect nested)) →
      s'.currentAtCall t = some c → s.currentAtCall t = some c := by
    intro t c pc isAt other isCurrent
    rcases taken.currentAtCall_cases t with same | ⟨nested, entering⟩
    · rw [← same, isCurrent]
    · exact absurd (isAt.symm.trans entering) (other nested)
  constructor
  · intro t nested c isWaiting isClear isCurrent
    exact waiting_step exclusive inv first taken isWaiting isClear
      (entered isWaiting (by simp) isCurrent)
  · intro t nested c isReturning isCurrent
    exact returning_step exclusive inv first taken isReturning
      (entered isReturning (by simp) isCurrent)

/-! ### The return of `disconnect` -/

/-- The steps after which a `disconnect` is complete. -/
def CompletesClose (s : State) (label : Label) : Prop :=
  storesFree s label = true ∧ takesOwnClose s label = true ∧ ClosedFirst s label

private structure Completing (s : State) : Prop where
  gives : Gives s
  owned : Owned s
  signalled : Signalled s

private theorem completing_of_reaches (reach : netSystem.Reaches CompletesClose s) :
    Completing s := by
  refine reach.invariant_of
    (fun _ before => And.intro (handles_of_reaches before)
      (mutuallyExclusive_of_reaches (fun _ _ admitted => admitted.1) before))
    Completing ?_ ?_
  · refine ⟨?_, ⟨?_, ?_⟩, ⟨?_, ?_⟩⟩ <;> intro <;> intros <;>
      simp_all [netSystem, State.init, CallerPc.creating]
  · rintro s label s' ⟨handles, exclusive⟩ inv admitted ran
    have taken := step_taken ran
    exact ⟨gives_step handles inv.gives taken, owned_step handles exclusive inv.owned taken,
      signalled_step exclusive inv.signalled admitted.2.2 taken⟩

/-- In every run with an exclusive lock, without chunks that read
`TCP disconnect`, in which every `tcth1` takes the event of its own client and
has returned from `rt_tcpclient_close` before `end` is cleared for a waiting
`disconnect` or the lookup of one fails, every `disconnect` is complete. -/
theorem disconnect_complete {s : State} (reach : netSystem.Reaches CompletesClose s) :
    DisconnectComplete s := by
  have handles := handles_of_reaches reach
  have exclusive := mutuallyExclusive_of_reaches (fun _ _ admitted => admitted.1) reach
  have teardown := teardown_of_reaches (fun _ _ admitted => admitted.2.1) reach
  have inv := completing_of_reaches reach
  intro t nested c isReturning isCurrent
  obtain ⟨i, param, isFinished⟩ := inv.signalled.returning t nested c isReturning isCurrent
  have onlyT : ∀ u, (s.callers u).inside = true → u = t := fun u isInside =>
    exclusive u t isInside (by rw [isReturning]; rfl)
  refine ⟨fun part => inv.gives i c part param (by rw [isFinished]; rfl), ?_, ?_, ?_, ?_⟩
  · exact noFurtherAccess_of_quiet handles (handles.paramLt i c param)
      (teardown.tookQuiet i c (by rw [isFinished]; rfl) param)
  · intro k sameParam
    rw [inv.owned.unique k i c sameParam param, isFinished]
    rfl
  · intro u isLoaded
    obtain rfl := onlyT u (by rw [isLoaded]; rfl)
    simp [isReturning] at isLoaded
  · intro u isPending
    exact handles.pendingUnshared u i c isPending param

/-- No lookup fails and `tcth2` does not clear `end`. -/
private def noSignal (s : State) (label : Label) : Bool :=
  storesFree s label && takesOwnClose s label &&
  match label with
  | .run t => !(s.callers t matches .findLoop _) || s.isConnected
  | .th2 j => s.th2 j != .clearEnd
  | _ => true

private theorem noSignal_completes (s : State) (label : Label) (quiet : noSignal s label = true) :
    CompletesClose s label := by
  obtain ⟨both, rest⟩ := Bool.and_eq_true_iff.mp quiet
  obtain ⟨inTime, own⟩ := Bool.and_eq_true_iff.mp both
  refine ⟨inTime, own, ?_⟩
  cases label with
  | run t =>
      intro nested c isAt isGone
      simp [isAt, isGone] at rest
  | th2 j =>
      intro isAt
      simp [isAt] at rest
  | _ => trivial

/-- `tcth1` closes the client while a `disconnect` waits, and `tcth2` goes as
far as the deletion of the event. -/
def closesBeforeSignal : List Label :=
  connects 0 0 ++ waitsForEnd 1 ++ seesEnd 0 ++ th1Closes 0 ++ [.th2 0, .th2 0]

/-- A `disconnect` that returns after `tcth1` has closed the client. -/
theorem disconnect_complete_closed :
    ∃ s, s.callers 1 = .unlockDisconnect false ∧ s.currentAtCall 1 = some 0 ∧
      DisconnectComplete s := by
  have closed := (netSystem.runWhile_reaches noSignal closesBeforeSignal).mono noSignal_completes
  have exclusive := mutuallyExclusive_of_reaches (fun _ _ admitted => admitted.1) closed
  have first : ClosedFirst (netSystem.runWhile noSignal netSystem.init closesBeforeSignal)
      (.th2 0) := by
    intro _ t nested c isWaiting isCurrent
    obtain rfl := exclusive t 1 (by rw [isWaiting]; rfl) (by decide +kernel)
    obtain rfl : 0 = c := Option.some.inj (Eq.trans (by decide +kernel) isCurrent)
    exact ⟨0, by decide +kernel, by decide +kernel⟩
  have cleared := closed.next (.th2 0) ⟨by decide, by decide, first⟩ (by decide +kernel)
  have returned := cleared.next (.run 1)
    (noSignal_completes _ _ (by decide +kernel)) (by decide +kernel)
  exact ⟨_, by decide +kernel, by decide +kernel, disconnect_complete returned⟩

/-- `tcth1` is preempted between its post of `TC_EXIT_THREAD` and the close. -/
def returnsEarly : List Label :=
  connects 0 0 ++ waitsForEnd 1 ++ seesEnd 0 ++ [.th1 0 true, .th1 0 true] ++
    [.th2 0, .th2 0, .th2 0, .run 1]

/-- `disconnect` returns with the socket still open. -/
theorem disconnect_incomplete :
    ∃ s, netSystem.Reachable s ∧ s.callers 1 = .unlockDisconnect false ∧
      s.currentAtCall 1 = some 0 ∧ (s.clients 0).isOpen .sock = true ∧ ¬ DisconnectComplete s := by
  refine ⟨netSystem.run returnsEarly, netSystem.run_reachable returnsEarly, ?_⟩
  have isReturning : (netSystem.run returnsEarly).callers 1 = .unlockDisconnect false := by
    decide +kernel
  have isCurrent : (netSystem.run returnsEarly).currentAtCall 1 = some 0 := by decide +kernel
  refine ⟨isReturning, isCurrent, by decide +kernel, fun complete => ?_⟩
  exact (complete 1 false 0 isReturning isCurrent).1 .sock (by decide +kernel)

end RttIctl.Net
