import RttIctl.Applications.TaskEth
import RttIctl.Net.Single
import RttIctl.Net.Connect

/-!
Owns what becomes of a flagged parameter change: whether, when the monitor ends
an iteration that cleared `g_paramNet.state`, the connection is to the server
that `g_paramNet` names. The monitor clears the flag first and then connects
only if there is no connection, so a session that is up survives the change.
-/

namespace RttIctl.Applications.TaskEth

open Lib (StepSystem)
open Netdev (NetParam)
open Net (Tid ClientId)

/-- No live connection, or it was opened with the server that `g_paramNet`
names. -/
def InEffect (s : State) : Prop :=
  ∀ c, (s.net.loops c).live = true → s.openedWith c = server s.paramNet

/-- No `connect` under way has copied another address. -/
def CopiesCurrent (s : State) : Prop :=
  ∀ thread address, s.strServiceIP thread = some address → address = s.paramNet.serviceIp

/-- The change is in effect for every session there is or is about to be. -/
structure Agrees (s : State) : Prop where
  sessions : InEffect s
  copies : CopiesCurrent s

/-- Between the test of the connection after a change and the end of the
iteration. -/
def MonitorPc.settling : MonitorPc → Bool
  | .connect .changed | .connecting .changed | .checkTick => true
  | .readTick .keepalive | .testConnected .keepalive | .connect .keepalive => true
  | .connecting .keepalive => true
  | _ => false

/-- The test of the connection after a cleared flag finds no connection, or one
to the server that `g_paramNet` names, and no `connect` under way with another
address; and no change until the end of the iteration takes the parameters away
from the sessions and copies there are. -/
def ChangeSeen (s : State) : Label → Prop
  | .monitor => s.pc = .testConnected .changed →
      (s.net.isConnected = false ∨ InEffect s) ∧ CopiesCurrent s
  | .change new => s.cleared = true → s.pc.settling = true → Agrees (s.change new)
  | _ => True

/-- From a cleared flag to the end of the iteration. -/
def MonitorPc.afterClear (pc : MonitorPc) : Bool :=
  pc.settling || pc == .readTick .changed || pc == .testConnected .changed || pc == .delay

/-- The invariant of the monitor. -/
structure Settled (s : State) : Prop where
  afterClear : s.cleared = true → s.pc.afterClear = true
  agrees : s.cleared = true → s.pc.settling = true → Agrees s

variable {s s' : State} {label : Label}

/-! ### The connection subsystem underneath -/

theorem Taken.net_cases (taken : Taken s label s') :
    s'.net = s.net ∨ ∃ netLabel, Net.Taken s.net netLabel s'.net := by
  cases taken with
  | monitor taken =>
      cases taken with
      | calls _ _ _ called => exact .inr ⟨_, Net.step_taken called⟩
      | _ => exact .inl rfl
  | net _ _ ran => exact .inr ⟨_, Net.step_taken ran⟩
  | start _ _ _ _ _ ran => exact .inr ⟨_, Net.step_taken ran⟩
  | _ => exact .inl rfl

theorem handles_of_reaches {paramNet : NetParam} {admits : State → Label → Prop}
    (reach : (taskEth paramNet).Reaches admits s) : Net.Handles s.net := by
  refine reach.invariant (fun s => Net.Handles s.net) Net.init_handles ?_
  intro s label s' handles _ ran
  rcases (step_taken ran).net_cases with same | ⟨netLabel, taken⟩
  · rw [same]
    exact handles
  · exact Net.handles_step handles taken

/-! ### One step keeps the agreement -/

theorem inEffect_of_unconnected (handles : Net.Handles s.net)
    (down : s.net.isConnected = false) : InEffect s := by
  intro c isLive
  have below : c < s.net.clientCount := by
    by_contra above
    rw [handles.loopAbsent c (Nat.not_lt.mp above)] at isLive
    cases isLive
  have unnamed := Net.isConnected_eq_false_iff.mp down c below
  rw [Net.LoopPc.named_of_live isLive] at unnamed
  cases unnamed

/-- A session that is live after a statement other than a start was live
before. -/
theorem InEffect.net_step (inEffect : InEffect s) (handles : Net.Handles s.net)
    {netLabel : Net.Label} {net : Net.State} (taken : Net.Taken s.net netLabel net)
    (notStart : ∀ thread calls, netLabel ≠ .start thread calls) :
    InEffect { s with net := net } := by
  intro c isLive
  rcases taken.live_cases handles isLive with wasLive | ⟨thread, calls, isStart, -⟩
  · exact inEffect c wasLive
  · exact absurd isStart (notStart thread calls)

/-- A start gives its client the address copied and the port and type found. -/
theorem Agrees.start_step (agrees : Agrees s) (handles : Net.Handles s.net) {thread : Tid}
    {calls : Net.StartCalls} {address : UInt32} {net : Net.State}
    (copied : s.strServiceIP thread = some address)
    (taken : Net.Taken s.net (.start thread calls) net) :
    Agrees { s with
      net := net
      strServiceIP := Function.update s.strServiceIP thread none
      openedWith := Function.update s.openedWith s.net.clientCount
        ⟨address, s.paramNet.servicePort, s.paramNet.tcpOrUdp⟩ } where
  sessions := by
    intro c isLive
    show Function.update s.openedWith s.net.clientCount _ c = server s.paramNet
    by_cases isNew : c = s.net.clientCount
    · rw [isNew, Function.update_self, agrees.copies thread address copied]
      rfl
    · rw [Function.update_of_ne isNew]
      rcases taken.live_cases handles isLive with wasLive | ⟨-, -, -, same, -⟩
      · exact agrees.sessions c wasLive
      · exact absurd same isNew
  copies := by
    intro other otherAddress isCopy
    by_cases same : other = thread
    · simp [same] at isCopy
    · exact agrees.copies other otherAddress (by simpa [same] using isCopy)

theorem Agrees.readServiceIp_step (agrees : Agrees s) (thread : Tid) :
    Agrees { s with
      strServiceIP := Function.update s.strServiceIP thread (some s.paramNet.serviceIp) } where
  sessions := agrees.sessions
  copies := by
    intro other address isCopy
    by_cases same : other = thread
    · simpa [same, eq_comm] using isCopy
    · exact agrees.copies other address (by simpa [same] using isCopy)

/-- The statements of the monitor write neither parameters of the server nor
copies of them. -/
theorem Agrees.monitor_step (agrees : Agrees s) (handles : Net.Handles s.net)
    (taken : MonitorTaken s s') : Agrees s' := by
  cases taken with
  | calls site net _ called =>
      exact ⟨agrees.sessions.net_step handles (Net.step_taken called) nofun, agrees.copies⟩
  | _ => exact ⟨agrees.sessions, agrees.copies⟩

/-! ### Runs -/

/-- Once the flag is cleared the monitor is nowhere outside its iteration. -/
theorem Settled.afterClear_at (settled : Settled s) (cleared : s.cleared = true) {pc : MonitorPc}
    (isAt : s.pc = pc) : pc.afterClear = true := by
  rw [← isAt]
  exact settled.afterClear cleared

/-- The monitor is settling, or done with it, because it was settling or has
just tested the connection after a change. -/
theorem MonitorTaken.wasSettling (taken : MonitorTaken s s') (settled : Settled s)
    (cleared : s'.cleared = true) (settling : s'.pc.settling = true ∨ s'.pc = .delay) :
    s.cleared = true ∧ (s.pc.settling = true ∨ s.pc = .testConnected .changed) := by
  cases taken with
  | readTick site isAt | connected site isAt | unconnected site isAt | calls site _ isAt
  | returned site isAt =>
      refine ⟨cleared, ?_⟩
      have wasAfter := settled.afterClear_at cleared isAt
      rw [isAt]
      cases site with
      | boot => cases wasAfter
      | changed => simp_all [MonitorPc.settling, State.goto]
      | keepalive => exact .inl rfl
  | due isAt | early isAt =>
      refine ⟨cleared, .inl ?_⟩
      rw [isAt]
      rfl
  | clearState => simp [MonitorPc.settling] at settling
  | delay => cases cleared
  | firstDelay isAt | flagged isAt | unflagged isAt =>
      cases settled.afterClear_at cleared isAt

/-- So the agreement is there when the iteration ends. -/
theorem agrees_after (settled : Settled s) (handles : Net.Handles s.net)
    (seen : ChangeSeen s .monitor) (taken : MonitorTaken s s') (cleared : s'.cleared = true)
    (settling : s'.pc.settling = true ∨ s'.pc = .delay) : Agrees s' := by
  obtain ⟨wasCleared, wasSettling | isTest⟩ := taken.wasSettling settled cleared settling
  · exact (settled.agrees wasCleared wasSettling).monitor_step handles taken
  · obtain ⟨found, copies⟩ := seen isTest
    have sessions : InEffect s := found.elim (inEffect_of_unconnected handles) id
    exact Agrees.monitor_step ⟨sessions, copies⟩ handles taken

theorem MonitorTaken.afterClear_step (taken : MonitorTaken s s') (settled : Settled s)
    (cleared : s'.cleared = true) : s'.pc.afterClear = true := by
  cases taken with
  | readTick site isAt | connected site isAt | unconnected site isAt | calls site _ isAt
  | returned site isAt =>
      have wasAfter := settled.afterClear_at cleared isAt
      cases site with
      | boot => cases wasAfter
      | changed | keepalive => rfl
  | due | early | clearState => rfl
  | delay => cases cleared
  | firstDelay isAt | flagged isAt | unflagged isAt =>
      cases settled.afterClear_at cleared isAt

theorem settled_step (settled : Settled s) (handles : Net.Handles s.net)
    (seen : ChangeSeen s label) (taken : Taken s label s') : Settled s' := by
  cases taken with
  | monitor taken =>
      exact ⟨taken.afterClear_step settled,
        fun cleared settling => agrees_after settled handles seen taken cleared (.inl settling)⟩
  | change new => exact ⟨settled.afterClear, seen⟩
  | net _ net ran notStart =>
      refine ⟨settled.afterClear, fun cleared settling => ?_⟩
      have agrees := settled.agrees cleared settling
      exact ⟨agrees.sessions.net_step handles (Net.step_taken ran) notStart, agrees.copies⟩
  | start thread calls address net copied ran =>
      refine ⟨settled.afterClear, fun cleared settling => ?_⟩
      exact (settled.agrees cleared settling).start_step handles copied (Net.step_taken ran)
  | readServiceIp thread =>
      refine ⟨settled.afterClear, fun cleared settling => ?_⟩
      exact (settled.agrees cleared settling).readServiceIp_step thread
  | flag | ticks =>
      refine ⟨settled.afterClear, fun cleared settling => ?_⟩
      have agrees := settled.agrees cleared settling
      exact ⟨agrees.sessions, agrees.copies⟩

theorem settled_of_reaches {paramNet : NetParam}
    (reach : (taskEth paramNet).Reaches ChangeSeen s) : Settled s := by
  refine reach.invariant_of (fun _ => handles_of_reaches) Settled ⟨nofun, nofun⟩ ?_
  intro s label s' handles settled seen ran
  exact settled_step settled handles seen (step_taken ran)

/-- In every run that meets `ChangeSeen`, every iteration that cleared the flag
ends with the change in effect. -/
theorem change_in_effect {paramNet : NetParam}
    (reach : (taskEth paramNet).Reaches ChangeSeen s) (seen : ChangeSeen s .monitor)
    (ran : step s .monitor = some s') (ended : s'.pc = .delay) (cleared : s'.cleared = true) :
    InEffect s' :=
  (agrees_after (settled_of_reaches reach) (handles_of_reaches reach) seen
    (monitorStep_taken ran) cleared (.inr ended)).sessions

/-! ### A change between sessions, and one during a session -/

/-- The monitor calls `connect`, every call in it succeeds, and the monitor goes
on. -/
def connectsMonitor (client : ClientId) : List Label :=
  .monitor :: List.replicate 4 (.net (.run monitor)) ++
    [.readServiceIp monitor, .net (.start monitor .allOk), .net (.run monitor),
      .net (.loop client (.malloc true)), .net (.run monitor), .net (.run monitor),
      .net (.run monitor), .net (.create monitor true), .net (.run monitor),
      .net (.create monitor true), .net (.run monitor), .net (.create monitor true),
      .net (.run monitor), .net (.run monitor), .monitor]

/-- The host moves the device to port 9009. -/
def newServer : Server := ⟨0x7908A8C0, 9009, 0⟩

/-- A step at which `ChangeSeen` asks for nothing. -/
def unconcerned (s : State) : Label → Bool
  | .monitor => s.pc != .testConnected .changed
  | .change _ => !s.cleared
  | _ => true

theorem changeSeen_of_unconcerned (s : State) (label : Label)
    (passes : unconcerned s label = true) : ChangeSeen s label := by
  cases label with
  | monitor =>
      intro isAt
      simp [unconcerned, isAt] at passes
  | change new =>
      intro cleared
      simp [unconcerned, cleared] at passes
  | _ => trivial

/-- The change comes while there is no connection, and is flagged; the monitor
runs up to its test of the connection. -/
def changesUnconnected : List Label :=
  startsUnconnected ++ [.change newServer, .flag] ++ List.replicate 3 .monitor

/-- The monitor then connects to the new server. -/
theorem change_in_effect_newServer :
    ∃ s s', (taskEth quietParam).Reaches ChangeSeen s ∧ step s .monitor = some s' ∧
      s'.pc = .delay ∧ s'.cleared = true ∧ (s'.net.loops 1).running = true ∧
      server s'.paramNet = newServer ∧ s'.openedWith 1 = newServer := by
  let sys := taskEth quietParam
  let testing := sys.runWhile unconcerned sys.init changesUnconnected
  have reachTesting : sys.Reaches ChangeSeen testing :=
    StepSystem.Reaches.init.runWhile changeSeen_of_unconcerned changesUnconnected
  have noCopies : ∀ thread, testing.strServiceIP thread = none := by
    intro thread
    show Function.update (Function.update (fun _ => none) monitor _) monitor none thread = none
    simp
  have found : ChangeSeen testing .monitor := by
    intro _
    refine ⟨.inl (by decide +kernel), ?_⟩
    intro thread address isCopy
    simp [noCopies thread] at isCopy
  have tests := reachTesting.next .monitor found (by decide +kernel)
  let connected := sys.runWhile unconcerned
    ((sys.step testing .monitor).get (by decide +kernel)) (connectsMonitor 1)
  have reach : sys.Reaches ChangeSeen connected :=
    tests.runWhile changeSeen_of_unconcerned (connectsMonitor 1)
  let ending := (step connected .monitor).get (by decide +kernel)
  have ran : step connected .monitor = some ending := (Option.some_get _).symm
  have ended : ending.pc = .delay := by decide +kernel
  have cleared : ending.cleared = true := by decide +kernel
  have running : (ending.net.loops 1).running = true := by decide +kernel
  have named : server ending.paramNet = newServer := by decide +kernel
  have seen : ChangeSeen connected .monitor :=
    changeSeen_of_unconcerned _ _ (by decide +kernel)
  have inEffect := change_in_effect reach seen ran ended cleared 1
    (Net.LoopPc.live_of_running running)
  exact ⟨connected, ending, reach, ran, ended, cleared, running, named, inEffect.trans named⟩

/-- The change comes during a session, and is flagged; the monitor runs one
iteration. -/
def changesConnected : List Label :=
  List.replicate 3 .monitor ++ connectsMonitor 0 ++ [.change newServer, .flag] ++
    List.replicate 4 .monitor

/-- The iteration clears the flag and leaves the session to the old server. -/
theorem flagged_change_lost :
    ∃ s s', (taskEth quietParam).Reachable s ∧ step s .monitor = some s' ∧
      s'.pc = .delay ∧ s'.cleared = true ∧ s'.paramNet.state = 0 ∧
      (s'.net.loops 0).running = true ∧ s'.net.isConnected = true ∧
      s'.openedWith 0 = server quietParam ∧ server s'.paramNet = newServer ∧ ¬ InEffect s' := by
  let checking := (taskEth quietParam).run changesConnected
  let ending := (step checking .monitor).get (by decide +kernel)
  have running : (ending.net.loops 0).running = true := by decide +kernel
  have opened : ending.openedWith 0 = server quietParam := by decide +kernel
  have named : server ending.paramNet = newServer := by decide +kernel
  refine ⟨checking, ending, StepSystem.run_reachable _ _, (Option.some_get _).symm,
    by decide +kernel, by decide +kernel, by decide +kernel, running, by decide +kernel, opened,
    named, ?_⟩
  intro inEffect
  have same := inEffect 0 (Net.LoopPc.live_of_running running)
  rw [opened, named] at same
  exact absurd same (by decide)

end RttIctl.Applications.TaskEth
