import RttIctl.Lib.Stamp
import RttIctl.Net.StepCases
import RttIctl.Netdev.Ipaddr
import RttIctl.Bsp.Led

/-!
Owns `taskEth_entry` of `demoEthnet.cpp`, the monitor of the connection, as one
thread among those of the connection subsystem: its statements, the parameters
in `g_paramNet` that other threads change and flag, and the system tick. It
proves that every iteration makes the check of the keep-alive, and when the
check enters its branch.

The tick is an unbounded count of which `rt_tick_get` returns the low word.
Fields named ghost record history for the statements of theorems; no
transition reads them.

It does not own what happens inside `connect`, which is a call into the
connection subsystem; only the parameters that `connect` reads are here.
-/

namespace RttIctl.Applications.TaskEth

open Lib (StepSystem stamp toNat_stamp toNat_stamp_sub)
open Bsp (rtTickFromMillisecond)
open Netdev (NetParam)
open Net (Tid ClientId)

/-! ### Ticks -/

/-- `chktick`, ten minutes. -/
def chktick : UInt32 := rtTickFromMillisecond 600000

def getDeltaTime (tnow lastTime : UInt32) : UInt32 :=
  if tnow ≥ lastTime then tnow - lastTime else 0xFFFFFFFF - lastTime + tnow + 1

theorem toNat_chktick : chktick.toNat = 600000 := by decide

/-- Both branches are the wrapping difference. -/
theorem getDeltaTime_eq (tnow lastTime : UInt32) :
    getDeltaTime tnow lastTime = tnow - lastTime := by
  unfold getDeltaTime
  split
  · rfl
  · apply UInt32.toNat.inj
    simp only [UInt32.toNat_add, UInt32.toNat_sub]
    have bound := lastTime.toNat_lt
    have word : (0xFFFFFFFF : UInt32).toNat = 2 ^ 32 - 1 := rfl
    have one : (1 : UInt32).toNat = 1 := rfl
    omega

/-! ### The monitor -/

/-- The three places where the monitor tests the connection: before its loop,
after a parameter change, and when the keep-alive is due. -/
inductive Site where
  | boot
  | changed
  | keepalive
deriving DecidableEq, Repr

/-- Next statement of the monitor. `readTick` is `tick = rt_tick_get()` and
`checkTick` the condition of the keep-alive branch. -/
inductive MonitorPc where
  | firstDelay
  | readTick (site : Site)
  | testConnected (site : Site)
  | connect (site : Site)
  | connecting (site : Site)
  | testState
  | clearState
  | checkTick
  | delay
deriving DecidableEq, Repr

/-- The statement after the test of the connection and its `connect`. -/
def Site.next : Site → MonitorPc
  | .boot => .testState
  | .changed => .checkTick
  | .keepalive => .delay

/-- The statement calls `rt_tick_get`. -/
def MonitorPc.readsTick : MonitorPc → Bool
  | .readTick _ | .checkTick => true
  | _ => false

/-- The server that a connection is opened with. -/
structure Server where
  serviceIp : UInt32
  servicePort : UInt16
  tcpOrUdp : UInt8
deriving DecidableEq, Repr

/-- The server named by the parameters. -/
def server (paramNet : NetParam) : Server :=
  ⟨paramNet.serviceIp, paramNet.servicePort, paramNet.tcpOrUdp⟩

structure State where
  net : Net.State
  paramNet : NetParam
  now : Nat
  pc : MonitorPc
  tick : UInt32
  /-- The address that `strServiceIP` of a thread inside `connect` spells, from
  `netdev_ip4addr_ntoa_r` on until `rt_tcpclient_start` has it. -/
  strServiceIP : Tid → Option UInt32
  /-- Ghost: the arguments of the `rt_tcpclient_start` that made the client. -/
  openedWith : ClientId → Server
  /-- Ghost: the time of the latest `rt_tick_get` of the monitor. -/
  readAt : Option Nat
  /-- Ghost: the time at which the value in `tick` was read. -/
  resetAt : Nat
  /-- Ghost: this iteration has cleared `g_paramNet.state`. -/
  cleared : Bool

/-- The monitor is one of the threads that call `CCtrlNet`. -/
def monitor : Tid := 0

/-- `net` is a statement of the connection subsystem, that of the monitor inside
`connect` included; `readServiceIp` is the `netdev_ip4addr_ntoa_r` of
`connect`; `change` and `flag` are the first two points of the protocol for
the host command in `rt_tc_rx_cb`. -/
inductive Label where
  | monitor
  | net (label : Net.Label)
  | readServiceIp (thread : Tid)
  | change (new : Server)
  | flag
  | ticks (count : Nat)
deriving DecidableEq, Repr

namespace State

def boot (paramNet : NetParam) : State where
  net := .init
  paramNet := paramNet
  now := 0
  pc := .firstDelay
  tick := 0
  strServiceIP := fun _ => none
  openedWith := fun _ => ⟨0, 0, 0⟩
  readAt := none
  resetAt := 0
  cleared := false

variable (s : State)

def goto (pc : MonitorPc) : State := { s with pc := pc }

/-- `tick = rt_tick_get()`. -/
def resetTick : State :=
  { s with tick := stamp s.now, readAt := some s.now, resetAt := s.now }

/-- `GetDeltaTime(rt_tick_get(), tick) >= chktick`. -/
def keepaliveDue : Bool := getDeltaTime (stamp s.now) s.tick ≥ chktick

def change (new : Server) : State :=
  { s with
    paramNet := { s.paramNet with
      serviceIp := new.serviceIp
      servicePort := new.servicePort
      tcpOrUdp := new.tcpOrUdp } }

def setState (state : UInt8) : State :=
  { s with paramNet := { s.paramNet with state := state } }

end State

def monitorStep (s : State) : Option State :=
  match s.pc with
  | .firstDelay => some (s.goto (.readTick .boot))
  | .readTick site => some (s.resetTick.goto (.testConnected site))
  | .testConnected site =>
      some (s.goto (if s.net.isConnected then site.next else .connect site))
  | .connect site =>
      (Net.step s.net (.call monitor .connect)).map fun net =>
        { s with net := net, pc := .connecting site }
  | .connecting site =>
      if s.net.callers monitor = .idle then some (s.goto site.next) else none
  | .testState => some (s.goto (if s.paramNet.state ≠ 0 then .clearState else .checkTick))
  | .clearState =>
      some ({ s.setState 0 with cleared := true, pc := .readTick .changed })
  | .checkTick =>
      some { s with
        readAt := some s.now
        pc := if s.keepaliveDue then .readTick .keepalive else .delay }
  | .delay => some { s with cleared := false, pc := .testState }

/-- The arguments of `rt_tcpclient_start` are its thread's `strServiceIP` and
the port and type found in `g_paramNet` at the call. -/
def startWith (s : State) (thread : Tid) (calls : Net.StartCalls) : Option State :=
  match s.strServiceIP thread with
  | none => none
  | some address =>
      (Net.step s.net (.start thread calls)).map fun net =>
        { s with
          net := net
          strServiceIP := Function.update s.strServiceIP thread none
          openedWith := Function.update s.openedWith s.net.clientCount
            ⟨address, s.paramNet.servicePort, s.paramNet.tcpOrUdp⟩ }

/-- The monitor calls nothing but `connect`, by its own statement. -/
def netStep (s : State) : Net.Label → Option State
  | .start thread calls => startWith s thread calls
  | .call thread api =>
      if thread = monitor then none
      else (Net.step s.net (.call thread api)).map fun net => { s with net := net }
  | label => (Net.step s.net label).map fun net => { s with net := net }

def step (s : State) : Label → Option State
  | .monitor => monitorStep s
  | .net label => netStep s label
  | .readServiceIp thread =>
      if s.net.callers thread = .start ∧ s.strServiceIP thread = none then
        some { s with
          strServiceIP := Function.update s.strServiceIP thread (some s.paramNet.serviceIp) }
      else none
  | .change new => some (s.change new)
  | .flag => some (s.setState 1)
  | .ticks count => some { s with now := s.now + count }

/-- The device from power-up, with the parameters read from the EEPROM. -/
def taskEth (paramNet : NetParam) : StepSystem State Label where
  init := .boot paramNet
  step := step

/-! ### What a step does -/

/-- Everything one statement of the monitor can do. -/
inductive MonitorTaken (s : State) : State → Prop where
  | firstDelay (isAt : s.pc = .firstDelay) : MonitorTaken s (s.goto (.readTick .boot))
  | readTick (site : Site) (isAt : s.pc = .readTick site) :
      MonitorTaken s (s.resetTick.goto (.testConnected site))
  | connected (site : Site) (isAt : s.pc = .testConnected site)
      (up : s.net.isConnected = true) : MonitorTaken s (s.goto site.next)
  | unconnected (site : Site) (isAt : s.pc = .testConnected site)
      (down : s.net.isConnected = false) : MonitorTaken s (s.goto (.connect site))
  | calls (site : Site) (net : Net.State) (isAt : s.pc = .connect site)
      (called : Net.step s.net (.call monitor .connect) = some net) :
      MonitorTaken s { s with net := net, pc := .connecting site }
  | returned (site : Site) (isAt : s.pc = .connecting site) : MonitorTaken s (s.goto site.next)
  | flagged (isAt : s.pc = .testState) (isSet : s.paramNet.state ≠ 0) :
      MonitorTaken s (s.goto .clearState)
  | unflagged (isAt : s.pc = .testState) (isClear : s.paramNet.state = 0) :
      MonitorTaken s (s.goto .checkTick)
  | clearState (isAt : s.pc = .clearState) :
      MonitorTaken s { s.setState 0 with cleared := true, pc := .readTick .changed }
  | due (isAt : s.pc = .checkTick) (isDue : s.keepaliveDue = true) :
      MonitorTaken s { s with readAt := some s.now, pc := .readTick .keepalive }
  | early (isAt : s.pc = .checkTick) (notDue : s.keepaliveDue = false) :
      MonitorTaken s { s with readAt := some s.now, pc := .delay }
  | delay (isAt : s.pc = .delay) : MonitorTaken s { s with cleared := false, pc := .testState }

/-- Everything one step of the device can do. -/
inductive Taken (s : State) : Label → State → Prop where
  | monitor {s' : State} (taken : MonitorTaken s s') : Taken s .monitor s'
  | net (label : Net.Label) (net : Net.State) (ran : Net.step s.net label = some net)
      (notStart : ∀ thread calls, label ≠ .start thread calls) :
      Taken s (.net label) { s with net := net }
  | start (thread : Tid) (calls : Net.StartCalls) (address : UInt32) (net : Net.State)
      (copied : s.strServiceIP thread = some address)
      (ran : Net.step s.net (.start thread calls) = some net) :
      Taken s (.net (.start thread calls)) { s with
        net := net
        strServiceIP := Function.update s.strServiceIP thread none
        openedWith := Function.update s.openedWith s.net.clientCount
          ⟨address, s.paramNet.servicePort, s.paramNet.tcpOrUdp⟩ }
  | readServiceIp (thread : Tid) : Taken s (.readServiceIp thread) { s with
      strServiceIP := Function.update s.strServiceIP thread (some s.paramNet.serviceIp) }
  | change (new : Server) : Taken s (.change new) (s.change new)
  | flag : Taken s .flag (s.setState 1)
  | ticks (count : Nat) : Taken s (.ticks count) { s with now := s.now + count }

variable {s s' : State} {label : Label}

theorem monitorStep_taken (ran : monitorStep s = some s') : MonitorTaken s s' := by
  cases isAt : s.pc <;> simp only [monitorStep, isAt] at ran
  case firstDelay =>
    cases ran
    exact .firstDelay isAt
  case readTick site =>
    cases ran
    exact .readTick site isAt
  case testConnected site =>
    cases ran
    cases up : s.net.isConnected with
    | true => exact .connected site isAt up
    | false => exact .unconnected site isAt up
  case connect site =>
    obtain ⟨net, called, rfl⟩ := Option.map_eq_some_iff.mp ran
    exact .calls site net isAt called
  case connecting site =>
    obtain ⟨-, ran⟩ := Option.ite_none_right_eq_some.mp ran
    cases ran
    exact .returned site isAt
  case testState =>
    cases ran
    by_cases isSet : s.paramNet.state = 0
    · rw [if_neg (not_not.mpr isSet)]
      exact .unflagged isAt isSet
    · rw [if_pos isSet]
      exact .flagged isAt isSet
  case clearState =>
    cases ran
    exact .clearState isAt
  case checkTick =>
    cases ran
    cases isDue : s.keepaliveDue with
    | true => exact .due isAt isDue
    | false => exact .early isAt isDue
  case delay =>
    cases ran
    exact .delay isAt

theorem netStep_taken {label : Net.Label} (ran : netStep s label = some s') :
    Taken s (.net label) s' := by
  cases label with
  | start thread calls =>
      simp only [netStep, startWith] at ran
      split at ran
      · cases ran
      · next address copied =>
          obtain ⟨net, started, rfl⟩ := Option.map_eq_some_iff.mp ran
          exact .start thread calls address net copied started
  | call thread api =>
      simp only [netStep, Option.ite_none_left_eq_some] at ran
      obtain ⟨net, called, rfl⟩ := Option.map_eq_some_iff.mp ran.2
      exact .net _ net called nofun
  | _ =>
      obtain ⟨net, moved, rfl⟩ := Option.map_eq_some_iff.mp ran
      exact .net _ net moved nofun

theorem step_taken (ran : step s label = some s') : Taken s label s' := by
  cases label with
  | monitor => exact .monitor (monitorStep_taken ran)
  | net label => exact netStep_taken ran
  | readServiceIp thread =>
      obtain ⟨-, ran⟩ := Option.ite_none_right_eq_some.mp ran
      cases ran
      exact .readServiceIp thread
  | change new =>
      cases ran
      exact .change new
  | flag =>
      cases ran
      exact .flag
  | ticks count =>
      cases ran
      exact .ticks count

/-! ### Every iteration makes the check -/

/-- From the start of an iteration up to the check of the keep-alive. -/
def MonitorPc.upToCheck : MonitorPc → Bool
  | .testState | .clearState | .checkTick => true
  | .readTick .changed | .testConnected .changed | .connect .changed | .connecting .changed => true
  | _ => false

/-- The statement is inside a call of `connect`, or makes one. -/
def MonitorPc.inConnect : MonitorPc → Bool
  | .connect _ | .connecting _ => true
  | _ => false

/-- No statement of the monitor waits but those that call `connect`. -/
theorem monitorStep_isSome (outside : s.pc.inConnect = false) : (monitorStep s).isSome = true := by
  cases isAt : s.pc with
  | connect site | connecting site => simp [isAt, MonitorPc.inConnect] at outside
  | _ => simp [monitorStep, isAt]

/-- The check always takes a step, into its branch or to the end of the
iteration. -/
theorem checkTick_steps (isAt : s.pc = .checkTick) :
    ∃ s', step s .monitor = some s' ∧ (s'.pc = .readTick .keepalive ∨ s'.pc = .delay) := by
  obtain ⟨s', ran⟩ := Option.isSome_iff_exists.mp
    (monitorStep_isSome (by rw [isAt]; rfl : s.pc.inConnect = false))
  refine ⟨s', ran, ?_⟩
  cases monitorStep_taken ran with
  | due => exact .inl rfl
  | early => exact .inr rfl
  | _ => simp_all

/-- No statement between leads past the check. -/
theorem MonitorTaken.upToCheck (taken : MonitorTaken s s') (before : s.pc.upToCheck = true) :
    s'.pc.upToCheck = true ∨ s.pc = .checkTick := by
  cases taken with
  | due isAt | early isAt => exact .inr isAt
  | flagged | unflagged | clearState => exact .inl rfl
  | firstDelay isAt | delay isAt => simp [isAt, MonitorPc.upToCheck] at before
  | readTick site isAt | connected site isAt | unconnected site isAt | calls site _ isAt
  | returned site isAt =>
      cases site with
      | changed => exact .inl rfl
      | boot | keepalive => simp [isAt, MonitorPc.upToCheck] at before

theorem Taken.upToCheck (taken : Taken s label s') (before : s.pc.upToCheck = true) :
    s'.pc.upToCheck = true ∨ label = .monitor ∧ s.pc = .checkTick := by
  cases taken with
  | monitor taken => exact (taken.upToCheck before).imp_right fun isAt => ⟨rfl, isAt⟩
  | _ => exact .inl before

/-- In every history, whatever the other threads do meanwhile, an iteration that
has come to its closing delay has made the check. -/
theorem check_in_every_iteration {paramNet : NetParam} {past earlier : List (State × Label)}
    {start : State}
    (history : (taskEth paramNet).History (past ++ (start, .monitor) :: earlier) s)
    (begins : start.pc = .testState) (ends : s.pc = .delay) :
    ∃ entry ∈ past, entry.2 = .monitor ∧ entry.1.pc = .checkTick := by
  have unconditional : StepSystem.EveryStep (fun _ _ => True) past := fun _ _ => trivial
  have checked := history.invariant_since unconditional
    (fun past s => s.pc.upToCheck = true ∨
      ∃ entry ∈ past, entry.2 = .monitor ∧ entry.1.pc = .checkTick) ?_ ?_
  · rcases checked with before | made
    · simp [ends, MonitorPc.upToCheck] at before
    · exact made
  · intro first begun
    cases begun with
    | step _ ran =>
        cases monitorStep_taken ran with
        | flagged | unflagged => exact .inl rfl
        | _ => simp_all
  · intro past s label s' _ checked _ ran
    rcases checked with before | ⟨entry, member, made⟩
    · rcases (step_taken ran).upToCheck before with still | now
      · exact .inl still
      · exact .inr ⟨(s, label), List.mem_cons_self, now⟩
    · exact .inr ⟨entry, List.mem_cons_of_mem _ member, made⟩

/-! ### Keep-alive across the wrap of the tick -/

/-- Two successive reads of the tick are less than `2^32 - chktick` apart. -/
def ReadsClose (s : State) : Label → Prop
  | .monitor => s.pc.readsTick = true → ∀ last, s.readAt = some last →
      s.now - last < 2 ^ 32 - chktick.toNat
  | _ => True

/-- `tick` is the stamp of its reset, and the latest read found the keep-alive
not due, or led to the reset that comes next. -/
structure Stamped (s : State) : Prop where
  tick : s.tick = stamp s.resetAt
  latest : ∃ last, s.readAt = some last ∧ s.resetAt ≤ last ∧ last ≤ s.now ∧
    (last - s.resetAt < chktick.toNat ∨ ∃ site, s.pc = .readTick site)

/-- Before its first reset `tick` holds nothing. -/
def Timed (s : State) : Prop := s.pc = .firstDelay ∨ s.pc = .readTick .boot ∨ Stamped s

/-- Up to the next check at most `2^32` ticks pass, so the difference of the
stamps is the time since the reset. -/
theorem Stamped.keepaliveDue_iff (stamped : Stamped s) (isAt : s.pc = .checkTick)
    (close : ReadsClose s .monitor) :
    s.keepaliveDue = true ↔ s.resetAt + chktick.toNat ≤ s.now := by
  obtain ⟨last, isLast, since, past, recent⟩ := stamped.latest
  have notReset : last - s.resetAt < chktick.toNat := by
    rcases recent with recent | ⟨site, other⟩
    · exact recent
    · simp [isAt] at other
  have gap := close (by rw [isAt]; rfl) last isLast
  have exactDelta := toNat_stamp_sub (Nat.le_trans since past) (by omega)
  rw [State.keepaliveDue, decide_eq_true_iff, getDeltaTime_eq, stamped.tick, ge_iff_le,
    UInt32.le_iff_toNat_le, exactDelta]
  omega

/-- A step that leaves the stamps alone and does not come from a reset. -/
theorem Stamped.carry (stamped : Stamped s) (tick : s'.tick = s.tick)
    (readAt : s'.readAt = s.readAt) (resetAt : s'.resetAt = s.resetAt) (now : s.now ≤ s'.now)
    (pc : ∀ site, s.pc = .readTick site → s'.pc = .readTick site) : Stamped s' := by
  obtain ⟨last, isLast, since, past, recent⟩ := stamped.latest
  refine ⟨by rw [tick, resetAt, stamped.tick], last, by rw [readAt, isLast],
    by rw [resetAt]; exact since, Nat.le_trans past now, ?_⟩
  rw [resetAt]
  rcases recent with recent | ⟨site, isAt⟩
  · exact .inl recent
  · exact .inr ⟨site, pc site isAt⟩

theorem resetTick_stamped (pc : MonitorPc) : Stamped (s.resetTick.goto pc) := by
  refine ⟨rfl, s.now, rfl, Nat.le_refl _, Nat.le_refl _, .inl ?_⟩
  show s.now - s.now < chktick.toNat
  rw [Nat.sub_self, toNat_chktick]
  decide

theorem Timed.stamped (timed : Timed s) (later : s.pc ≠ .firstDelay)
    (notBoot : s.pc ≠ .readTick .boot) : Stamped s := by
  rcases timed with isFirst | isBoot | stamped
  · exact absurd isFirst later
  · exact absurd isBoot notBoot
  · exact stamped

/-- One statement of the monitor. -/
theorem timed_monitor (timed : Timed s) (close : ReadsClose s .monitor)
    (taken : MonitorTaken s s') : Timed s' := by
  cases taken with
  | firstDelay => exact .inr (.inl rfl)
  | readTick site => exact .inr (.inr (resetTick_stamped _))
  | due isAt isDue =>
      have stamped := timed.stamped (by simp [isAt]) (by simp [isAt])
      obtain ⟨last, -, since, past, -⟩ := stamped.latest
      exact .inr (.inr ⟨stamped.tick, s.now, rfl, Nat.le_trans since past, Nat.le_refl _,
        .inr ⟨.keepalive, rfl⟩⟩)
  | early isAt notDue =>
      have stamped := timed.stamped (by simp [isAt]) (by simp [isAt])
      obtain ⟨last, -, since, past, -⟩ := stamped.latest
      have notYet : ¬ s.resetAt + chktick.toNat ≤ s.now := by
        rw [← stamped.keepaliveDue_iff isAt close, notDue]
        exact Bool.false_ne_true
      refine .inr (.inr ⟨stamped.tick, s.now, rfl, Nat.le_trans since past, Nat.le_refl _, .inl ?_⟩)
      show s.now - s.resetAt < chktick.toNat
      omega
  | connected _ isAt | unconnected _ isAt | calls _ _ isAt | returned _ isAt | flagged isAt
  | unflagged isAt | clearState isAt | delay isAt =>
      have stamped := timed.stamped (by simp [isAt]) (by simp [isAt])
      exact .inr (.inr (stamped.carry rfl rfl rfl (Nat.le_refl _) (by simp [isAt])))

theorem timed_step (timed : Timed s) (close : ReadsClose s label) (taken : Taken s label s') :
    Timed s' := by
  have elsewhere : s'.pc = s.pc → s'.tick = s.tick → s'.readAt = s.readAt →
      s'.resetAt = s.resetAt → s.now ≤ s'.now → Timed s' := by
    intro pc tick readAt resetAt now
    rcases timed with isFirst | isBoot | stamped
    · exact .inl (pc.trans isFirst)
    · exact .inr (.inl (pc.trans isBoot))
    · exact .inr (.inr (stamped.carry tick readAt resetAt now fun _ isAt => pc.trans isAt))
  cases taken with
  | monitor taken => exact timed_monitor timed close taken
  | ticks count => exact elsewhere rfl rfl rfl rfl (Nat.le_add_right _ _)
  | _ => exact elsewhere rfl rfl rfl rfl (Nat.le_refl _)

theorem timed_of_reaches {paramNet : NetParam} (reach : (taskEth paramNet).Reaches ReadsClose s) :
    Timed s := by
  refine reach.invariant Timed (.inl rfl) ?_
  intro s label s' timed close ran
  exact timed_step timed close (step_taken ran)

/-- In every run whose reads are close, a check enters the keep-alive branch
exactly when `chktick` ticks have passed since the last reset of `tick`, and
otherwise ends the iteration. -/
theorem keepalive_entered_iff {paramNet : NetParam}
    (reach : (taskEth paramNet).Reaches ReadsClose s) (isAt : s.pc = .checkTick)
    (close : ReadsClose s .monitor) (ran : step s .monitor = some s') :
    (s'.pc = .readTick .keepalive ↔ s.resetAt + chktick.toNat ≤ s.now) ∧
      (s'.pc = .delay ↔ s.now < s.resetAt + chktick.toNat) := by
  have stamped := (timed_of_reaches reach).stamped (by simp [isAt]) (by simp [isAt])
  have dueIff := stamped.keepaliveDue_iff isAt close
  cases monitorStep_taken ran with
  | due _ isDue =>
      have passed := dueIff.mp isDue
      simp [passed]
  | early _ notDue =>
      have notPassed : ¬ s.resetAt + chktick.toNat ≤ s.now := by
        rw [← dueIff, notDue]
        exact Bool.false_ne_true
      simp [notPassed, Nat.lt_of_not_le notPassed]
  | _ => simp_all

/-- The first statements of the monitor, up to its loop: `connect` is called and
`socket` fails. -/
def startsUnconnected : List Label :=
  List.replicate 4 .monitor ++ List.replicate 4 (.net (.run monitor)) ++
    [.readServiceIp monitor,
      .net (.start monitor ⟨true, false, true, true, true, true, true, true⟩)] ++
    List.replicate 3 (.net (.run monitor)) ++ [.monitor]

/-- `ReadsClose`, as a check. -/
def readsClose (s : State) : Label → Bool
  | .monitor => !s.pc.readsTick || s.readAt.all fun last => s.now - last < 2 ^ 32 - chktick.toNat
  | _ => true

theorem readsClose_iff : readsClose s label = true ↔ ReadsClose s label := by
  cases label with
  | monitor =>
      cases isReading : s.pc.readsTick <;> cases isLast : s.readAt <;>
        simp [readsClose, ReadsClose, isReading, isLast]
  | _ => exact ⟨fun _ => trivial, fun _ => rfl⟩

/-- Server 192.168.8.121:9008 over UDP, not flagged. -/
def quietParam : NetParam := ⟨0, 0, 0, 0, 0, 0, 0x7908A8C0, 9008, 0, 0⟩

/-- The loop is entered shortly before the tick wraps, and the check comes ten
minutes later. -/
def checksAfterWrap : List Label :=
  .ticks 4294960000 :: startsUnconnected ++ [.monitor, .ticks 600000]

/-- A reset before the wrap of the tick, found due after it. -/
theorem keepalive_entered_across_wrap :
    ∃ s s', (taskEth quietParam).Reaches ReadsClose s ∧ s.pc = .checkTick ∧
      s.resetAt < 2 ^ 32 ∧ 2 ^ 32 < s.now ∧ step s .monitor = some s' ∧
      s'.pc = .readTick .keepalive := by
  let sys := taskEth quietParam
  let checking := sys.runWhile readsClose sys.init checksAfterWrap
  have reach : sys.Reaches ReadsClose checking :=
    (sys.runWhile_reaches readsClose checksAfterWrap).mono fun _ _ => readsClose_iff.mp
  have isAt : checking.pc = .checkTick := by decide +kernel
  have close : ReadsClose checking .monitor := readsClose_iff.mp (by decide +kernel)
  have isReset : checking.resetAt = 4294960000 := by decide +kernel
  have isNow : checking.now = 4295560000 := by decide +kernel
  have enabled : (step checking .monitor).isSome = true := by decide +kernel
  have ran := (Option.some_get enabled).symm
  have passed : checking.resetAt + chktick.toNat ≤ checking.now := by
    have tenMinutes := toNat_chktick
    omega
  have entered := (keepalive_entered_iff reach isAt close ran).1.mpr passed
  exact ⟨checking, _, reach, isAt, by rw [isReset]; decide, by rw [isNow]; decide, ran, entered⟩

end RttIctl.Applications.TaskEth
