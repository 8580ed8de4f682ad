import RttIctl.Lib.ByteLock
import RttIctl.Net.StepCases

/-!
Owns mutual exclusion of `CCtrlNet::lockit` and `unlock`. The threads of the
connection subsystem use the byte as a `Lib.ByteLock`; the lock excludes along
a history exactly when every `lock = 1` of `lockit` finds the byte still zero,
which `lockit` does not ensure.
-/

namespace RttIctl.Net

open Lib (ByteLock StepSystem)

/-- The lock byte and the threads between `lockit` and `unlock`. -/
def State.lockView (s : State) : ByteLock Tid := ⟨s.lock, fun t => (s.callers t).inside⟩

/-- No two threads are between a returned `lockit` and the matching `unlock`. -/
def MutuallyExclusive (s : State) : Prop :=
  ∀ t u, (s.callers t).inside = true → (s.callers u).inside = true → t = u

/-- When the next statement is the `lock = 1` of `lockit`, the byte is still
zero: nobody locked since this thread's test. -/
def storesFree (s : State) : Label → Bool
  | .run t =>
      match s.callers t with
      | .lockStore _ => !s.lock
      | _ => true
  | _ => true

variable {s s' : State} {label : Label}

/-- Only the store of `lockit` is constrained. -/
theorem storesFree_of_ne {t : Tid} (other : ∀ entry, s.callers t ≠ .lockStore entry) :
    storesFree s (.run t) = true := by
  cases isAt : s.callers t with
  | lockStore entry => exact absurd isAt (other entry)
  | _ => simp [storesFree, isAt]

private theorem lockView_same (after : State) (t : Tid) (pc : CallerPc)
    (callers : after.callers = Function.update s.callers t pc) (lock : after.lock = s.lock)
    (same : pc.inside = (s.callers t).inside) : after.lockView = s.lockView := by
  refine ByteLock.ext lock (funext fun u => ?_)
  by_cases isT : u = t
  · simp [State.lockView, callers, isT, same]
  · simp [State.lockView, callers, isT]

private theorem lockView_leave (after : State) (t : Tid) (pc : CallerPc)
    (callers : after.callers = Function.update s.callers t pc) (free : after.lock = false)
    (outside : pc.inside = false) : after.lockView = s.lockView.leave t := by
  refine ByteLock.ext free (funext fun u => ?_)
  by_cases isT : u = t
  · simp [State.lockView, ByteLock.leave, callers, isT, outside]
  · simp [State.lockView, ByteLock.leave, callers, isT]

private theorem callerMove_inside {current pc : CallerPc} (moves : CallerMove s current pc) :
    pc.inside = current.inside := by
  cases moves <;> rfl

private theorem unlocks_inside {current pc : CallerPc} (unlocks : Unlocks current pc) :
    current.inside = true ∧ pc.inside = false := by
  cases unlocks <;> exact ⟨rfl, rfl⟩

private theorem body_inside (entry : LockSection) : entry.body.inside = true := by
  cases entry <;> rfl

/-- A step leaves the lock alone, stores it for a thread that passed its test,
or releases it for a thread inside. -/
theorem Taken.lockView_cases (taken : Taken s label s') :
    (s'.lockView = s.lockView ∧ storesFree s label = true) ∨
    (∃ t entry, label = .run t ∧ s.callers t = .lockStore entry ∧
      s'.lockView = s.lockView.store t) ∨
    (∃ t, (s.callers t).inside = true ∧ s'.lockView = s.lockView.leave t ∧
      storesFree s label = true) := by
  cases taken with
  | lockStore t entry isAt =>
      refine .inr (.inl ⟨t, entry, rfl, isAt, ByteLock.ext rfl (funext fun u => ?_)⟩)
      by_cases isT : u = t
      · simp [State.lockView, State.goto, ByteLock.store, isT, body_inside]
      · simp [State.lockView, State.goto, ByteLock.store, isT]
  | unlock t pc unlocks =>
      have inside := unlocks_inside unlocks
      refine .inr (.inr ⟨t, inside.1, lockView_leave _ t pc rfl rfl inside.2, ?_⟩)
      refine storesFree_of_ne fun entry isAt => ?_
      simp [isAt, CallerPc.inside] at inside
  | unlockToDisconnect t isAt =>
      refine .inr (.inr ⟨t, by rw [isAt]; rfl, lockView_leave _ t _ rfl rfl rfl, ?_⟩)
      simp [storesFree, isAt]
  | move t pc moves =>
      refine .inl ⟨lockView_same _ t pc rfl rfl (callerMove_inside moves), ?_⟩
      refine storesFree_of_ne fun entry isAt => ?_
      rw [isAt] at moves
      cases moves
  | spins t _ isAt _ | waits t _ isAt _ => exact .inl ⟨rfl, by simp [storesFree, isAt]⟩
  | callConnect t isAt | callDisconnect t isAt | callSend t isAt | createEvent t isAt
  | createEventFails t isAt | createTh1 t isAt | createTh1Fails t isAt | createTh2 t isAt
  | createTh2Fails t isAt =>
      exact .inl ⟨lockView_same _ t _ rfl rfl (by rw [isAt]; rfl), rfl⟩
  | startOk t _ isAt | startNull t _ _ isAt | startAsserted t _ _ isAt =>
      exact .inl ⟨lockView_same _ t _ rfl rfl (by rw [isAt]; rfl), rfl⟩
  | clearEnd t isAt | attachRxCb t isAt =>
      exact .inl ⟨lockView_same _ t _ rfl rfl (by rw [isAt]; rfl), by simp [storesFree, isAt]⟩
  | startup t _ isAt | storeHdl t _ isAt | startTh1 t _ isAt | startTh2 t _ isAt
  | setEnd t _ isAt =>
      exact .inl ⟨lockView_same _ t _ rfl rfl (by rw [isAt]; rfl), by simp [storesFree, isAt]⟩
  | _ => exact .inl ⟨rfl, rfl⟩

/-- From a state with an exclusive, faithful lock, one step keeps it exclusive
exactly when its `lock = 1`, if it is one, finds the byte zero. -/
theorem step_exclusive_iff (faithful : s.lockView.Faithful) (exclusive : s.lockView.Exclusive)
    (ran : step s label = some s') :
    s'.lockView.Exclusive ↔ storesFree s label = true := by
  rcases (step_taken ran).lockView_cases with ⟨same, free⟩ | ⟨t, entry, rfl, isAt, stored⟩ |
      ⟨t, isInside, left, free⟩
  · rw [same]
    exact iff_of_true exclusive free
  · have outside : s.lockView.inside t = false := by simp [State.lockView, isAt, CallerPc.inside]
    have byte : storesFree s (.run t) = true ↔ s.lockView.byte = false := by
      simp [storesFree, isAt, State.lockView]
    rw [stored, ByteLock.store_exclusive_iff faithful outside, byte]
  · rw [left]
    exact iff_of_true (ByteLock.leave_exclusive exclusive) free

theorem step_faithful (faithful : s.lockView.Faithful) (exclusive : s.lockView.Exclusive)
    (ran : step s label = some s') : s'.lockView.Faithful := by
  rcases (step_taken ran).lockView_cases with ⟨same, -⟩ | ⟨t, _, -, -, stored⟩ |
      ⟨t, isInside, left, -⟩
  · rwa [same]
  · rw [stored]
    exact ByteLock.store_faithful
  · rw [left]
    exact ByteLock.leave_faithful exclusive isInside

private theorem init_exclusive : State.init.lockView.Exclusive := by
  intro t u isInside
  simp [State.lockView, State.init, CallerPc.inside] at isInside

private theorem init_faithful : State.init.lockView.Faithful := by
  simp [ByteLock.Faithful, State.lockView, State.init, CallerPc.inside]

/-- Where every `lock = 1` finds the byte zero, the lock excludes. This is the
form in which the other results of the subsystem use it. -/
theorem mutuallyExclusive_of_reaches {admits : State → Label → Prop}
    (inTime : ∀ s label, admits s label → storesFree s label = true)
    (reach : netSystem.Reaches admits s) : MutuallyExclusive s := by
  have both : s.lockView.Exclusive ∧ s.lockView.Faithful := by
    refine reach.invariant (fun s => s.lockView.Exclusive ∧ s.lockView.Faithful)
      ⟨init_exclusive, init_faithful⟩ ?_
    rintro s label s' ⟨exclusive, faithful⟩ admitted ran
    exact ⟨(step_exclusive_iff faithful exclusive ran).mpr (inTime _ _ admitted),
      step_faithful faithful exclusive ran⟩
  exact both.1

/-- Along every history of any number of threads, no two are ever between
`lockit` and `unlock` exactly when every `lock = 1` of `lockit` found the byte
still zero. -/
theorem lockit_excludes_iff {past : List (State × Label)} {s : State}
    (history : netSystem.History past s) :
    StepSystem.Always MutuallyExclusive past s ↔
      StepSystem.EveryStep (fun s label => storesFree s label = true) past := by
  refine history.always_iff MutuallyExclusive (fun s => s.lockView.Faithful) _
    init_exclusive init_faithful ?_ ?_
  · intro s label s' faithful exclusive ran
    exact step_exclusive_iff faithful exclusive ran
  · intro s label s' faithful exclusive ran _
    exact step_faithful faithful exclusive ran

/-- One `send` that takes the lock alone. -/
theorem lockit_excludes_one_caller :
    ∃ past s, netSystem.History past s ∧ (s.callers 0).inside = true ∧
      StepSystem.Always MutuallyExclusive past s := by
  let logged := netSystem.log [.call 0 .send, .run 0, .run 0]
  have history := netSystem.log_history [.call 0 .send, .run 0, .run 0]
  have inTime : logged.1.all (fun entry => storesFree entry.1 entry.2) = true := by decide
  exact ⟨_, _, history, by decide,
    (lockit_excludes_iff history).mpr (List.all_eq_true.mp inTime)⟩

/-- Two callers pass the test of `lockit` before either stores. -/
def racingSends : List Label :=
  [.call 0 .send, .call 1 .send, .run 0, .run 1, .run 0, .run 1]

/-- `lockit` lets two threads in. -/
theorem lockit_admits_two : ∃ s, netSystem.Reachable s ∧ ¬ MutuallyExclusive s := by
  refine ⟨netSystem.run racingSends, netSystem.run_reachable racingSends, ?_⟩
  intro exclusive
  have same : (0 : Tid) = 1 := exclusive 0 1 (by decide) (by decide)
  exact absurd same (by decide)

end RttIctl.Net
