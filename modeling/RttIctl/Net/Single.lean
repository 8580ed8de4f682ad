import RttIctl.Net.Handle
import RttIctl.Net.Lock

/-!
Owns the number of running clients. With an exclusive lock, and as long as
`connect` starts a client only when no `tcpc` thread is live, at most one
client runs and it is the current one or about to be stored as such. `connect`
does not ensure that: it gives the lock up around the nested `disconnect` and
does not look at the handle again.
-/

namespace RttIctl.Net

open Lib (StepSystem)

/-- At most one loop is running, its client is the current one, and no
`connect` is about to overwrite the handle of a running client. -/
structure OneRunning (s : State) : Prop where
  unique : ∀ c d, (s.loops c).running = true → (s.loops d).running = true → c = d
  current : ∀ c, (s.loops c).running = true → s.socketHdl = some c
  overwrite : ∀ t result c, s.callers t = .storeHdl result → s.socketHdl = some c →
    (s.loops c).running = false

/-- The same, except that the running client may also be the one that a
`connect` has started and stores next. -/
structure OneStarting (s : State) : Prop where
  unique : ∀ c d, (s.loops c).running = true → (s.loops d).running = true → c = d
  current : ∀ c, (s.loops c).running = true →
    s.socketHdl = some c ∨ ∃ t, s.callers t = .storeHdl (some c)
  overwrite : ∀ t result c, s.callers t = .storeHdl result → s.socketHdl = some c →
    (s.loops c).running = false

/-- `rt_tcpclient_start` is called only when no `tcpc` thread is live. -/
def startsAlone (s : State) : Label → Bool
  | .start _ _ => (List.range s.clientCount).all fun c => !(s.loops c).live
  | _ => true

/-- A `tcpc` thread enters `select_handle` only once its client is stored. -/
def entersStored (s : State) : Label → Bool
  | .loop c (.malloc true) => s.loops c != .entry || s.socketHdl == some c
  | _ => true

/-- The client has been started, or failed to, and is not stored yet. -/
def CallerPc.starting : CallerPc → Bool
  | .startup _ | .storeHdl _ => true
  | _ => false

/-- At most one `tcpc` thread is live, its client is current or about to be
stored, and while one is about to be stored no other is live. -/
structure Single (s : State) : Prop where
  unique : ∀ c d, (s.loops c).live = true → (s.loops d).live = true → c = d
  known : ∀ c, (s.loops c).live = true →
    s.socketHdl = some c ∨ ∃ t, (s.callers t).pending = some c
  starting : ∀ t c, (s.callers t).starting = true → (s.loops c).live = true →
    (s.callers t).pending = some c

variable {s s' : State} {label : Label}

/-! ### Live loops -/

theorem LoopPc.live_of_running {pc : LoopPc} (isRunning : pc.running = true) :
    pc.live = true := by
  simp [LoopPc.live, isRunning]

theorem LoopMove.wasLive {endFlag rx : Bool} {pc next : LoopPc} {input : LoopInput}
    (moves : LoopMove endFlag rx pc input next) (isLive : next.live = true) : pc.live = true := by
  cases moves with
  | leave => cases isLive
  | _ => rfl

/-- A loop is live because it was, or because `rt_tcpclient_start` has just
created its thread. -/
theorem Taken.live_cases (handles : Handles s) (taken : Taken s label s') {c : ClientId}
    (isLive : (s'.loops c).live = true) :
    (s.loops c).live = true ∨
    ∃ t calls, label = .start t calls ∧ c = s.clientCount ∧
      s' = (s.addClient .fresh .created).goto t (.startup c) := by
  rcases taken.loop_cases c with same | moved
  · exact .inl (same ▸ isLive)
  · generalize after : s'.loops c = pc at moved isLive
    cases moved with
    | created t calls isNew _ unstarted =>
        rcases unstarted with rfl | rfl
        · refine .inr ⟨t, calls, rfl, isNew, ?_⟩
          subst isNew
          cases taken with
          | startOk => rfl
          | startNull | startAsserted => simp [State.goto, State.addClient] at after
        · cases isLive
    | startup t isAt =>
        rw [handles.startupCreated t c isAt]
        exact .inl rfl
    | next _ _ moves => exact .inl (moves.wasLive isLive)
    | post _ _ isAt =>
        rw [isAt]
        exact .inl rfl
    | asserts | reclaim => cases isLive

/-! ### A started client on its way to the handle -/

theorem Taken.pending_next (taken : Taken s label s') {t : Tid} {c : ClientId}
    (isPending : (s.callers t).pending = some c) :
    (s'.callers t).pending = some c ∨ s'.socketHdl = some c := by
  rcases taken.caller_cases t with same | moved
  · exact .inl (by rwa [same])
  · generalize before : s.callers t = current at moved isPending
    generalize s'.callers t = pc at moved
    cases moved with
    | startup => exact .inl isPending
    | storeHdl result =>
        rw [taken.storeHdl_stores before]
        exact .inr isPending
    | move moves => cases moves <;> cases isPending
    | unlock unlocks => cases unlocks <;> cases isPending
    | _ => cases isPending

theorem CallerPc.inside_of_starting {pc : CallerPc} (isStarting : pc.starting = true) :
    pc.inside = true := by
  cases pc <;> first | rfl | cases isStarting

/-! ### The invariant -/

private theorem noneLive (handles : Handles s) {t : Tid} {calls : StartCalls}
    (alone : startsAlone s (.start t calls) = true) (c : ClientId) : (s.loops c).live = false := by
  by_cases below : c < s.clientCount
  · simpa using List.all_eq_true.mp alone c (List.mem_range.mpr below)
  · rw [handles.loopAbsent c (Nat.not_lt.mp below)]
    rfl

private theorem init_single : Single .init := by
  constructor <;> intros <;> simp_all [State.init, LoopPc.live, LoopPc.running]

private theorem starting_step (handles : Handles s) (exclusive : MutuallyExclusive s)
    (inv : Single s) (alone : startsAlone s label = true) (taken : Taken s label s') {t : Tid}
    {c : ClientId} (isStarting : (s'.callers t).starting = true)
    (isLive : (s'.loops c).live = true) : (s'.callers t).pending = some c := by
  rcases taken.live_cases handles isLive with wasLive | ⟨u, calls, rfl, rfl, rfl⟩
  · rcases taken.caller_cases t with same | moved
    · rw [same]
      exact inv.starting t c (same ▸ isStarting) wasLive
    · have startAlone : ∀ calls, label = .start t calls → False := by
        rintro calls rfl
        simp [noneLive handles alone c] at wasLive
      generalize before : s.callers t = current at moved
      generalize s'.callers t = pc at moved isStarting
      cases moved with
      | startOk calls | startNull calls | startAsserted calls => exact (startAlone calls rfl).elim
      | startup client =>
          have isPending := inv.starting t c (by rw [before]; rfl) wasLive
          rwa [before] at isPending
      | move moves => cases moves <;> cases isStarting
      | unlock unlocks => cases unlocks <;> cases isStarting
      | lockStore entry => cases entry <;> cases isStarting
      | _ => cases isStarting
  · by_cases same : t = u
    · simp [State.goto, same, CallerPc.pending]
    · simp only [State.goto, State.addClient, Function.update_of_ne same] at isStarting
      have starter : (s.callers u).inside = true := by
        rw [taken.start_isAt]
        rfl
      exact absurd (exclusive t u (CallerPc.inside_of_starting isStarting) starter) same

private theorem single_step (handles : Handles s) (exclusive : MutuallyExclusive s)
    (inv : Single s) (alone : startsAlone s label = true) (taken : Taken s label s') :
    Single s' := by
  refine ⟨?_, ?_, fun t c => starting_step handles exclusive inv alone taken⟩
  · intro c d cLive dLive
    rcases taken.live_cases handles cLive with cWas | ⟨t, calls, rfl, rfl, -⟩ <;>
      rcases taken.live_cases handles dLive with dWas | ⟨u, calls', byU, dNew, -⟩
    · exact inv.unique c d cWas dWas
    · subst byU
      simp [noneLive handles alone c] at cWas
    · simp [noneLive handles alone d] at dWas
    · exact dNew.symm
  · intro c isLive
    rcases taken.live_cases handles isLive with wasLive | ⟨t, calls, -, rfl, rfl⟩
    · rcases inv.known c wasLive with isHdl | ⟨t, isPending⟩
      · rcases taken.socketHdl_cases with same | ⟨t, result, -, isAt, rfl⟩
        · exact .inl (same ▸ isHdl)
        · have stored := inv.starting t c (by rw [isAt]; rfl) wasLive
          rw [isAt] at stored
          exact .inl stored
      · rcases taken.pending_next isPending with still | stored
        · exact .inr ⟨t, still⟩
        · exact .inl stored
    · exact .inr ⟨t, by simp [State.goto, CallerPc.pending]⟩

theorem single_of_reaches {admits : State → Label → Prop}
    (inTime : ∀ s label, admits s label → storesFree s label = true)
    (alone : ∀ s label, admits s label → startsAlone s label = true)
    (reach : netSystem.Reaches admits s) : Single s := by
  refine reach.invariant_of
    (fun _ before => And.intro (handles_of_reaches before)
      (mutuallyExclusive_of_reaches inTime before))
    Single init_single ?_
  rintro s label s' ⟨handles, exclusive⟩ inv admitted ran
  exact single_step handles exclusive inv (alone s label admitted) (step_taken ran)

private theorem Single.overwrite (handles : Handles s) (inv : Single s) {t : Tid}
    {result : Option ClientId} {c : ClientId} (isAt : s.callers t = .storeHdl result)
    (isHdl : s.socketHdl = some c) : (s.loops c).running = false := by
  by_contra isRunning
  have isLive := LoopPc.live_of_running (by simpa using isRunning)
  have isPending := inv.starting t c (by rw [isAt]; rfl) isLive
  exact handles.pendingUnstored t c isPending isHdl

private theorem oneStarting_of_single (handles : Handles s) (inv : Single s) : OneStarting s := by
  refine ⟨?_, ?_, fun t result c => inv.overwrite handles⟩
  · intro c d cRunning dRunning
    exact inv.unique c d (LoopPc.live_of_running cRunning) (LoopPc.live_of_running dRunning)
  · intro c isRunning
    rcases inv.known c (LoopPc.live_of_running isRunning) with isHdl | ⟨t, isPending⟩
    · exact .inl isHdl
    · refine .inr ⟨t, ?_⟩
      cases isAt : s.callers t with
      | startup client =>
          obtain rfl : client = c := by simpa [isAt, CallerPc.pending] using isPending
          simp [handles.startupCreated t client isAt, LoopPc.running] at isRunning
      | storeHdl result =>
          obtain rfl : result = some c := by simpa [isAt, CallerPc.pending] using isPending
          rfl
      | _ => simp [isAt, CallerPc.pending] at isPending

/-! ### Entering the loop after the store -/

theorem LoopMove.wasRunning {endFlag rx : Bool} {pc next : LoopPc} {input : LoopInput}
    (moves : LoopMove endFlag rx pc input next) (isRunning : next.running = true) :
    pc.running = true ∨ pc = .entry ∧ input = .malloc true := by
  cases moves with
  | enter => exact .inr ⟨rfl, rfl⟩
  | noMemory | leave => cases isRunning
  | _ => exact .inl rfl

/-- A loop runs because it did, or because its thread has just entered
`select_handle`. -/
theorem Taken.running_cases (taken : Taken s label s') {c : ClientId}
    (isRunning : (s'.loops c).running = true) :
    (s.loops c).running = true ∨ s.loops c = .entry ∧ label = .loop c (.malloc true) := by
  rcases taken.loop_cases c with same | moved
  · exact .inl (same ▸ isRunning)
  · generalize s'.loops c = pc at moved isRunning
    cases moved with
    | created _ _ _ _ unstarted => rcases unstarted with rfl | rfl <;> cases isRunning
    | next input _ moves =>
        rcases moves.wasRunning isRunning with wasRunning | ⟨isEntry, rfl⟩
        · exact .inl wasRunning
        · exact .inr ⟨isEntry, rfl⟩
    | post _ _ isAt =>
        rw [isAt]
        exact .inl rfl
    | startup | asserts | reclaim => cases isRunning

private theorem current_step (handles : Handles s) (inv : Single s)
    (current : ∀ c, (s.loops c).running = true → s.socketHdl = some c)
    (stored : entersStored s label = true) (taken : Taken s label s') {c : ClientId}
    (isRunning : (s'.loops c).running = true) : s'.socketHdl = some c := by
  rcases taken.socketHdl_cases with same | ⟨t, result, -, isAt, rfl⟩
  · rw [same]
    rcases taken.running_cases isRunning with wasRunning | ⟨isEntry, rfl⟩
    · exact current c wasRunning
    · simpa [entersStored, isEntry] using stored
  · have stopped := inv.overwrite handles isAt (current c isRunning)
    exact absurd isRunning (by simp [State.goto, stopped])

/-- In every run with an exclusive lock in which clients are started only when
no `tcpc` thread is live, at most one client runs, it is current or the next to
be stored, and no handle of a running client is overwritten. If moreover every
`tcpc` thread enters its loop after its client is stored, the running client is
the current one. -/
theorem one_running_client {s : State}
    (reach : netSystem.Reaches
      (fun s label => (storesFree s label && startsAlone s label) = true) s) :
    OneStarting s ∧
    (netSystem.Reaches
      (fun s label =>
        (storesFree s label && startsAlone s label && entersStored s label) = true) s →
      OneRunning s) := by
  have inTime : ∀ s label, (storesFree s label && startsAlone s label) = true →
      storesFree s label = true := fun s label both => (Bool.and_eq_true_iff.mp both).1
  have alone : ∀ s label, (storesFree s label && startsAlone s label) = true →
      startsAlone s label = true := fun s label both => (Bool.and_eq_true_iff.mp both).2
  have single : ∀ s, netSystem.Reaches
      (fun s label => (storesFree s label && startsAlone s label) = true) s →
      Handles s ∧ Single s := fun s reach =>
    ⟨handles_of_reaches reach, single_of_reaches inTime alone reach⟩
  obtain ⟨handles, inv⟩ := single s reach
  have starting := oneStarting_of_single handles inv
  refine ⟨starting, fun stored => ⟨starting.unique, ?_, starting.overwrite⟩⟩
  refine stored.invariant_of
    (fun s before => single s (before.mono fun _ _ all => (Bool.and_eq_true_iff.mp all).1))
    (fun s => ∀ c, (s.loops c).running = true → s.socketHdl = some c) ?_ ?_
  · intro c isRunning
    simp [netSystem, State.init, LoopPc.running] at isRunning
  · rintro s label s' ⟨handles, inv⟩ current admitted ran c isRunning
    exact current_step handles inv current (Bool.and_eq_true_iff.mp admitted).2 (step_taken ran)
      isRunning

/-- A `connect` whose `tcpc` thread enters its loop once the handle is stored. -/
theorem one_running_client_connected :
    ∃ s, (s.loops 0).running = true ∧ OneStarting s ∧ OneRunning s := by
  have reach := netSystem.runWhile_reaches
    (fun s label => storesFree s label && startsAlone s label && entersStored s label)
    [.call 0 .connect, .run 0, .run 0, .run 0, .run 0, .start 0 .allOk, .run 0, .run 0,
      .loop 0 (.malloc true)]
  have both := one_running_client (reach.mono fun _ _ all => (Bool.and_eq_true_iff.mp all).1)
  exact ⟨_, by decide +kernel, both.1, both.2 reach⟩

/-- A `connect` that finds the handle of a session that is over, up to the
second `lockit`: the nested `disconnect` finds no `tcpc` thread. -/
def passesDisconnect (t : Tid) : List Label := .call t .connect :: List.replicate 8 (.run t)

/-- The rest of such a `connect`. -/
def startsAgain (t : Tid) (client : ClientId) : List Label :=
  [.run t, .run t, .run t, .start t .allOk, .run t, .loop client (.malloc true), .run t, .run t,
    .run t, .create t true, .run t, .create t true, .run t, .create t true, .run t, .run t]

/-- A session ends, and two threads connect again. -/
def racingConnects : List Label :=
  connects 0 0 ++ peerCloses 0 ++ th1Closes 0 ++ List.replicate 3 (.th2 0) ++ [.reclaim 0] ++
    passesDisconnect 0 ++ passesDisconnect 1 ++ startsAgain 0 1 ++ startsAgain 1 2

/-- Two clients run although the lock excludes. -/
theorem two_running_clients :
    ∃ s, netSystem.Reaches (fun s label => storesFree s label = true) s ∧
      (s.loops 1).running = true ∧ (s.loops 2).running = true ∧ ¬ OneRunning s := by
  have reach := netSystem.runWhile_reaches storesFree racingConnects
  refine ⟨_, reach, by decide +kernel, by decide +kernel, fun one => ?_⟩
  have same : (1 : ClientId) = 2 := one.unique 1 2 (by decide +kernel) (by decide +kernel)
  exact absurd same (by decide)

end RttIctl.Net
