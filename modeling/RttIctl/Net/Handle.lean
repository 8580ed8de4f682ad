import RttIctl.Net.Frame

/-!
Owns the validity of `CCtrlNet::socketHdl`. The handle is written by
`connect`, copied into `tcth1` and into every `send`, and its client is freed
by `tcth1` through the copy. Along a history the handle and the copy a `send`
works with stay valid exactly when `tcth1` frees only clients that are neither;
nothing in the code ensures that, since `socketHdl` is not reset.
-/

namespace RttIctl.Net

open Lib (StepSystem)

/-- A client that a `connect` in progress has started and not yet stored. -/
def CallerPc.pending : CallerPc → Option ClientId
  | .startup client => some client
  | .storeHdl result => result
  | _ => none

/-- `socketHdl` is null or its client has not been freed, and neither has the
client whose pipe descriptor a `send` is about to use. -/
def HandleValid (s : State) : Prop :=
  (∀ c, s.socketHdl = some c → ¬ s.Freed c) ∧
    ∀ t c, s.callers t = .writePipe (some c) → ¬ s.Freed c

/-- The `free` of `tcpclient_destory`, when it comes, is not of the current
client nor of one that a `send` has loaded. -/
def FreesUnused (s : State) : Label → Prop
  | .th1 i _ => (s.th1 i).pc = .closing .mem → ∀ c, (s.th1 i).param = some c →
      s.socketHdl ≠ some c ∧ ∀ t, s.callers t ≠ .writePipe (some c)
  | _ => True

/-- What every state satisfies about the copies of a client pointer: they name
existing clients, and a client that is started and not yet stored is known to
one `connect` only, to no `tcth1`, and has not been freed. Only an existing
client has a `tcpc` thread, which is not started before `rt_thread_startup`. -/
structure Handles (s : State) : Prop where
  hdlLt : ∀ c, s.socketHdl = some c → c < s.clientCount
  paramLt : ∀ i c, (s.th1 i).param = some c → c < s.clientCount
  loadedLt : ∀ t c, s.callers t = .writePipe (some c) → c < s.clientCount
  pendingLt : ∀ t c, (s.callers t).pending = some c → c < s.clientCount
  pendingUnstored : ∀ t c, (s.callers t).pending = some c → s.socketHdl ≠ some c
  pendingUnshared : ∀ t i c, (s.callers t).pending = some c → (s.th1 i).param ≠ some c
  pendingUnique : ∀ t u c, (s.callers t).pending = some c → (s.callers u).pending = some c → t = u
  pendingLive : ∀ t c, (s.callers t).pending = some c → ¬ s.Freed c
  loopAbsent : ∀ c, s.clientCount ≤ c → s.loops c = .absent
  startupCreated : ∀ t c, s.callers t = .startup c → s.loops c = .created

variable {s s' : State} {label : Label}

/-! ### What a step does to the copies -/

private theorem callerMove_pending {current pc : CallerPc} (moves : CallerMove s current pc) :
    pc.pending = none := by
  cases moves <;> rfl

private theorem unlocks_pending {current pc : CallerPc} (unlocks : Unlocks current pc) :
    pc.pending = none := by
  cases unlocks <;> rfl

private theorem body_pending (entry : LockSection) : entry.body.pending = none := by
  cases entry <;> rfl

/-- A caller holds no unstored client, keeps the one it holds, or has just
made one. -/
theorem CallerTo.pending_cases {t : Tid} {current pc : CallerPc}
    (moved : CallerTo s t label current pc) :
    pc.pending = none ∨ (∃ c, current = .startup c ∧ pc = .storeHdl (some c)) ∨
      (∃ calls, label = .start t calls) ∧ pc = .startup s.clientCount := by
  cases moved with
  | move moves => exact .inl (callerMove_pending moves)
  | lockStore entry => exact .inl (body_pending entry)
  | unlock unlocks => exact .inl (unlocks_pending unlocks)
  | startOk calls => exact .inr (.inr ⟨⟨calls, rfl⟩, rfl⟩)
  | startup client => exact .inr (.inl ⟨client, rfl, rfl⟩)
  | _ => exact .inl rfl

/-- An unstored client was unstored at the same caller before the step, or the
step made it. -/
theorem Taken.pending_cases (taken : Taken s label s') {t : Tid} {c : ClientId}
    (isPending : (s'.callers t).pending = some c) :
    (s.callers t).pending = some c ∨
    c = s.clientCount ∧ (∃ calls, label = .start t calls) ∧
      s' = (s.addClient .fresh .created).goto t (.startup s.clientCount) := by
  rcases taken.caller_cases t with same | moved
  · exact .inl (by rwa [same] at isPending)
  · rcases moved.pending_cases with nothing | ⟨client, before, after⟩ | ⟨⟨calls, rfl⟩, after⟩
    · simp [nothing] at isPending
    · rw [after] at isPending
      exact .inl (by rw [before]; exact isPending)
    · have isNew : c = s.clientCount := by simpa [after, CallerPc.pending, eq_comm] using isPending
      refine .inr ⟨isNew, ⟨calls, rfl⟩, ?_⟩
      cases taken with
      | startOk => rfl
      | startNull | startAsserted => simp [State.goto] at after

theorem Taken.loaded_cases (taken : Taken s label s') {t : Tid} {c : ClientId}
    (isLoaded : s'.callers t = .writePipe (some c)) :
    s.callers t = .writePipe (some c) ∨ label = .run t ∧ s.socketHdl = some c := by
  rcases taken.caller_cases t with same | moved
  · exact .inl (by rwa [same] at isLoaded)
  · rw [isLoaded] at moved
    generalize s.callers t = current at moved
    generalize target : CallerPc.writePipe (some c) = pc at moved
    cases moved with
    | move moves =>
        cases moves with
        | loadHdl => exact .inr ⟨rfl, by simpa using target.symm⟩
        | _ => cases target
    | unlock unlocks => cases unlocks <;> cases target
    | lockStore entry => cases entry <;> cases target
    | _ => cases target

/-! ### What a step does to a `tcpc` thread that is not started -/

theorem Taken.clientCount_start {t : Tid} {calls : StartCalls}
    (taken : Taken s (.start t calls) s') : s'.clientCount = s.clientCount + 1 := by
  cases taken <;> rfl

theorem Taken.loop_absent (inv : Handles s) (taken : Taken s label s') {c : ClientId}
    (above : s'.clientCount ≤ c) : s'.loops c = .absent := by
  have wasAbove := Nat.le_trans taken.clientCount_le above
  have wasAbsent := inv.loopAbsent c wasAbove
  rcases taken.loop_cases c with same | moved
  · rw [same, wasAbsent]
  · exfalso
    generalize s'.loops c = pc at moved
    cases moved with
    | created _ _ isNew =>
        rw [taken.clientCount_start, isNew] at above
        exact absurd above (Nat.not_succ_le_self _)
    | startup t isAt =>
        have below := inv.pendingLt t c (by rw [isAt]; rfl)
        exact absurd below (Nat.not_lt.mpr wasAbove)
    | next input pc moves =>
        rw [wasAbsent] at moves
        cases moves
    | post _ _ isAt | asserts _ isAt | reclaim isAt => simp [wasAbsent] at isAt

theorem Taken.loop_created (inv : Handles s) (taken : Taken s label s') {t : Tid} {c : ClientId}
    (isStartup : s'.callers t = .startup c) : s'.loops c = .created := by
  rcases taken.caller_cases t with same | moved
  · rw [same] at isStartup
    have wasCreated := inv.startupCreated t c isStartup
    rcases taken.loop_cases c with sameLoop | moved
    · rw [sameLoop, wasCreated]
    · exfalso
      generalize s'.loops c = pc at moved
      cases moved with
      | created _ _ isNew =>
          have below := inv.pendingLt t c (by rw [isStartup]; rfl)
          exact absurd below (by rw [isNew]; exact Nat.lt_irrefl _)
      | startup u isAt =>
          obtain rfl := inv.pendingUnique t u c (by rw [isStartup]; rfl) (by rw [isAt]; rfl)
          simp [taken.startup_leaves isAt, isStartup] at same
      | next input pc moves =>
          rw [wasCreated] at moves
          cases moves
      | post _ _ isAt | asserts _ isAt | reclaim isAt => simp [wasCreated] at isAt
  · rcases moved.pending_cases with nothing | ⟨_, _, after⟩ | ⟨⟨calls, rfl⟩, after⟩
    · simp [isStartup, CallerPc.pending] at nothing
    · simp [isStartup] at after
    · obtain rfl : c = s.clientCount := by simpa [isStartup] using after
      cases taken with
      | startOk => simp [State.goto, State.addClient]
      | startNull | startAsserted => simp [State.goto] at after

/-! ### The copies stay in order -/

theorem init_handles : Handles .init := by
  constructor <;> intros <;> simp_all [State.init, CallerPc.pending]

private theorem hdlLt_step (inv : Handles s) (taken : Taken s label s') {c : ClientId}
    (isHdl : s'.socketHdl = some c) : c < s'.clientCount := by
  rcases taken.socketHdl_cases with same | ⟨t, result, -, isAt, rfl⟩
  · exact Nat.lt_of_lt_of_le (inv.hdlLt c (same ▸ isHdl)) taken.clientCount_le
  · exact inv.pendingLt t c (by rw [isAt]; exact isHdl)

private theorem paramLt_step (inv : Handles s) (taken : Taken s label s') {i : Nat} {c : ClientId}
    (isParam : (s'.th1 i).param = some c) : c < s'.clientCount := by
  rcases taken.param_cases i with same | created
  · exact Nat.lt_of_lt_of_le (inv.paramLt i c (same ▸ isParam)) taken.clientCount_le
  · rw [created.created] at isParam
    exact Nat.lt_of_lt_of_le (inv.hdlLt c isParam) taken.clientCount_le

private theorem loadedLt_step (inv : Handles s) (taken : Taken s label s') {t : Tid} {c : ClientId}
    (isLoaded : s'.callers t = .writePipe (some c)) : c < s'.clientCount := by
  rcases taken.loaded_cases isLoaded with before | ⟨-, isHdl⟩
  · exact Nat.lt_of_lt_of_le (inv.loadedLt t c before) taken.clientCount_le
  · exact Nat.lt_of_lt_of_le (inv.hdlLt c isHdl) taken.clientCount_le

private theorem pendingLt_step (inv : Handles s) (taken : Taken s label s') {t : Tid}
    {c : ClientId} (isPending : (s'.callers t).pending = some c) : c < s'.clientCount := by
  rcases taken.pending_cases isPending with before | ⟨rfl, -, rfl⟩
  · exact Nat.lt_of_lt_of_le (inv.pendingLt t c before) taken.clientCount_le
  · exact Nat.lt_succ_self _

private theorem pendingUnstored_step (inv : Handles s) (taken : Taken s label s') {t : Tid}
    {c : ClientId} (isPending : (s'.callers t).pending = some c) : s'.socketHdl ≠ some c := by
  rcases taken.pending_cases isPending with before | ⟨rfl, -, rfl⟩
  · rcases taken.socketHdl_cases with same | ⟨u, result, -, isAt, rfl⟩
    · rw [same]
      exact inv.pendingUnstored t c before
    · rintro (rfl : result = some c)
      obtain rfl := inv.pendingUnique t u c before (by rw [isAt]; rfl)
      simp [State.goto, CallerPc.pending] at isPending
  · intro isHdl
    exact Nat.lt_irrefl _ (inv.hdlLt _ isHdl)

private theorem pendingUnshared_step (inv : Handles s) (taken : Taken s label s') {t : Tid}
    {i : Nat} {c : ClientId} (isPending : (s'.callers t).pending = some c) :
    (s'.th1 i).param ≠ some c := by
  rcases taken.pending_cases isPending with before | ⟨rfl, -, rfl⟩
  · rcases taken.param_cases i with same | created
    · rw [same]
      exact inv.pendingUnshared t i c before
    · rw [created.created]
      exact inv.pendingUnstored t c before
  · intro isParam
    exact Nat.lt_irrefl _ (inv.paramLt i _ isParam)

private theorem pendingUnique_step (inv : Handles s) (taken : Taken s label s') {t u : Tid}
    {c : ClientId} (tPending : (s'.callers t).pending = some c)
    (uPending : (s'.callers u).pending = some c) : t = u := by
  rcases taken.pending_cases tPending with tBefore | ⟨rfl, ⟨calls, rfl⟩, -⟩
  · rcases taken.pending_cases uPending with uBefore | ⟨uNew, -, -⟩
    · exact inv.pendingUnique t u c tBefore uBefore
    · exact absurd (inv.pendingLt t c tBefore) (by rw [uNew]; exact Nat.lt_irrefl _)
  · rcases taken.pending_cases uPending with uBefore | ⟨-, ⟨calls', byU⟩, -⟩
    · exact absurd (inv.pendingLt u _ uBefore) (Nat.lt_irrefl _)
    · exact (Label.start.inj byU).1

private theorem pendingLive_step (inv : Handles s) (taken : Taken s label s') {t : Tid}
    {c : ClientId} (isPending : (s'.callers t).pending = some c) : ¬ s'.Freed c := by
  rcases taken.pending_cases isPending with before | ⟨rfl, -, rfl⟩
  · rcases taken.freed_cases (inv.pendingLt t c before) with same | ⟨i, ok, -, -, param⟩
    · rw [same]
      exact inv.pendingLive t c before
    · exact absurd param (inv.pendingUnshared t i c before)
  · simp [State.Freed, State.goto, State.addClient, Client.fresh]

theorem handles_step (inv : Handles s) (taken : Taken s label s') : Handles s' where
  hdlLt _ := hdlLt_step inv taken
  paramLt _ _ := paramLt_step inv taken
  loadedLt _ _ := loadedLt_step inv taken
  pendingLt _ _ := pendingLt_step inv taken
  pendingUnstored _ _ := pendingUnstored_step inv taken
  pendingUnshared _ _ _ := pendingUnshared_step inv taken
  pendingUnique _ _ _ := pendingUnique_step inv taken
  pendingLive _ _ := pendingLive_step inv taken
  loopAbsent _ := taken.loop_absent inv
  startupCreated _ _ := taken.loop_created inv

theorem handles_of_reaches {admits : State → Label → Prop} (reach : netSystem.Reaches admits s) :
    Handles s := by
  refine reach.invariant Handles init_handles ?_
  intro s label s' inv _ ran
  exact handles_step inv (step_taken ran)

/-! ### The handle stays valid exactly when frees are of unused clients -/

private theorem freesUnused_of_valid (ran : step s label = some s') (valid : HandleValid s') :
    FreesUnused s label := by
  cases label with
  | th1 i ok =>
      intro isAt c param
      have taken := step_taken ran
      have freed : s'.Freed c ∧ s'.socketHdl = s.socketHdl ∧ s'.callers = s.callers := by
        cases taken with
        | free _ _ client _ isParam =>
            obtain rfl : client = c := by simpa [param] using isParam.symm
            exact ⟨by simp [State.Freed, State.setTh1, State.setClient, Client.release], rfl, rfl⟩
        | close _ _ client part next isPart _ more =>
            obtain rfl : part = .mem := by simpa [isAt] using isPart.symm
            simp [Part.closeNext] at more
        | th1Asserts _ _ other => simp [isAt] at other
        | closeAsserts _ _ part isPart notLast =>
            exact absurd (by simpa [isAt] using isPart.symm) notLast
        | th1Polls _ _ other | takeClose _ _ _ other | postExit _ _ _ _ other
        | postExitNull _ _ _ other => simp [isAt] at other
      obtain ⟨isFreed, hdl, callers⟩ := freed
      refine ⟨fun isHdl => valid.1 c (hdl ▸ isHdl) isFreed, fun t isLoaded => ?_⟩
      exact valid.2 t c (callers ▸ isLoaded) isFreed
  | _ => trivial

private theorem valid_of_freesUnused (inv : Handles s) (valid : HandleValid s)
    (ran : step s label = some s') (unused : FreesUnused s label) : HandleValid s' := by
  have taken := step_taken ran
  constructor
  · intro c isHdl
    rcases taken.socketHdl_cases with same | ⟨t, result, -, isAt, rfl⟩
    · rw [same] at isHdl
      rcases taken.freed_cases (inv.hdlLt c isHdl) with sameFreed | ⟨i, ok, rfl, closing, param⟩
      · rw [sameFreed]
        exact valid.1 c isHdl
      · exact absurd isHdl (unused closing c param).1
    · exact inv.pendingLive t c (by rw [isAt]; exact isHdl)
  · intro t c isLoaded
    rcases taken.loaded_cases isLoaded with before | ⟨rfl, isHdl⟩
    · rcases taken.freed_cases (inv.loadedLt t c before) with same | ⟨i, ok, rfl, closing, param⟩
      · rw [same]
        exact valid.2 t c before
      · exact absurd before ((unused closing c param).2 t)
    · rcases taken.freed_cases (inv.hdlLt c isHdl) with same | ⟨i, ok, isLabel, -⟩
      · rw [same]
        exact valid.1 c isHdl
      · cases isLabel

/-- Along every history, `socketHdl` and the handle of a `send` in progress
never point to a freed client exactly when every `free` was of a client that
was neither. -/
theorem handle_valid_iff {past : List (State × Label)} {s : State}
    (history : netSystem.History past s) :
    StepSystem.Always HandleValid past s ↔ StepSystem.EveryStep FreesUnused past := by
  refine history.always_iff HandleValid Handles FreesUnused ?_ init_handles ?_ ?_
  · constructor <;> intros <;> simp_all [netSystem, State.init]
  · intro s label s' inv valid ran
    exact ⟨freesUnused_of_valid ran, valid_of_freesUnused inv valid ran⟩
  · intro s label s' inv _ ran _
    exact handles_step inv (step_taken ran)

/-- A whole `connect` keeps the handle valid. -/
theorem handle_valid_connected :
    ∃ past s, netSystem.History past s ∧ s.socketHdl = some 0 ∧
      StepSystem.Always HandleValid past s := by
  let logged := netSystem.log (connects 0 0)
  have history := netSystem.log_history (connects 0 0)
  have noTh1 : logged.1.all (fun entry => !(entry.2 matches .th1 _ _)) = true := by decide
  have unused : StepSystem.EveryStep FreesUnused logged.1 := by
    rintro ⟨s, label⟩ member
    have other := List.all_eq_true.mp noTh1 _ member
    cases label with
    | th1 => simp at other
    | _ => trivial
  exact ⟨_, _, history, by decide, (handle_valid_iff history).mpr unused⟩

/-- The peer closes, `tcth1` frees the client, and a `send` of another thread
loads the handle. -/
def sendAfterClose : List Label :=
  connects 0 0 ++ peerCloses 0 ++ th1Closes 0 ++ [.call 1 .send, .run 1, .run 1, .run 1]

/-- `send` works with a freed client. -/
theorem send_uses_freed_client :
    ∃ s, netSystem.Reachable s ∧ s.socketHdl = some 0 ∧ s.callers 1 = .writePipe (some 0) ∧
      s.Freed 0 ∧ ¬ HandleValid s := by
  refine ⟨netSystem.run sendAfterClose, netSystem.run_reachable sendAfterClose, ?_⟩
  have isHdl : (netSystem.run sendAfterClose).socketHdl = some 0 := by decide +kernel
  have isFreed : (netSystem.run sendAfterClose).Freed 0 := by
    unfold State.Freed
    decide +kernel
  exact ⟨isHdl, by decide +kernel, isFreed, fun valid => valid.1 0 isHdl isFreed⟩

end RttIctl.Net
