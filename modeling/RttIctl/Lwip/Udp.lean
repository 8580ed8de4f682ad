import RttIctl.Lib.Probe
import RttIctl.Lib.StepSystem

/-!
Owns the allocation of local UDP ports in lwIP's `udp.c` with this project's
edit: `udp_new_port` with its persistent cursor `udp_port`, the configured
port that overrides the cursor on every try, and `udp_bind` on top of it. The
search visits the dynamic range exactly when the cursor stands just before or
inside it and no port is configured.

It does not own the datagrams, the protocol control blocks' other fields or
the command that configures the port.
-/

namespace RttIctl.Lwip

open Lib

/-! ### udp_new_port -/

def udpLocalPortRangeStart : UInt16 := 0xc000

def udpLocalPortRangeEnd : UInt16 := 0xffff

/-- What one try does to `udp_port`: count up with wrap, then let a configured
port replace the count. -/
def advance (localPort udpPort : UInt16) : UInt16 :=
  let udpPort := if udpPort = udpLocalPortRangeEnd then udpLocalPortRangeStart else udpPort + 1
  if localPort ≠ 0 then localPort else udpPort

/-- The code from the label `again`, after `n` collisions: the port returned and
the cursor left behind. -/
def udpNewPortAgain (localPort : UInt16) (udpPcbs : List UInt16) (n : Nat) (udpPort : UInt16) :
    UInt16 × UInt16 :=
  let udpPort := advance localPort udpPort
  if udpPort ∈ udpPcbs then
    if n + 1 > udpLocalPortRangeEnd.toNat - udpLocalPortRangeStart.toNat then (0, udpPort)
    else udpNewPortAgain localPort udpPcbs (n + 1) udpPort
  else (udpPort, udpPort)
termination_by 0x4000 - n
decreasing_by
  have range : udpLocalPortRangeEnd.toNat - udpLocalPortRangeStart.toNat = 0x3fff := by decide
  omega

/-- `udp_new_port` with `g_paramNet.localPort` and the local ports of the PCBs. -/
def udpNewPort (localPort : UInt16) (udpPcbs : List UInt16) (udpPort : UInt16) :
    UInt16 × UInt16 :=
  udpNewPortAgain localPort udpPcbs 0 udpPort

/-! ### udp_bind -/

inductive ErrT
  | errOk
  | errVal
  | errUse
  deriving DecidableEq, Repr

/-- What `udp_bind` reads and writes of a PCB; `addr` is the address of the
block, `reuseAddr` the option `SOF_REUSEADDR`. -/
structure UdpPcb where
  addr : Nat
  localIp : UInt32
  localPort : UInt16
  reuseAddr : Bool
  deriving DecidableEq, Repr

/-- The statics of the module: the cursor and the list of PCBs. -/
structure UdpModule where
  udpPort : UInt16
  udpPcbs : List UdpPcb
  deriving DecidableEq, Repr

/-- Another PCB in the list that has the port and the address, unless both allow
reuse. -/
def UdpModule.clash (udp : UdpModule) (pcb : UdpPcb) (ipaddr : UInt32) (port : UInt16) : Bool :=
  udp.udpPcbs.any fun ipcb =>
    ipcb.addr ≠ pcb.addr && (!pcb.reuseAddr || !ipcb.reuseAddr) &&
      ipcb.localPort = port && ipcb.localIp = ipaddr

/-- The end of `udp_bind`: write address and port, and put the PCB on the list
if it is not there. -/
def UdpModule.place (udp : UdpModule) (pcb : UdpPcb) (ipaddr : UInt32) (port : UInt16) :
    UdpModule :=
  let bound := { pcb with localIp := ipaddr, localPort := port }
  if udp.udpPcbs.any fun ipcb => ipcb.addr = pcb.addr then
    { udp with udpPcbs := udp.udpPcbs.map fun ipcb => if ipcb.addr = pcb.addr then bound else ipcb }
  else { udp with udpPcbs := bound :: udp.udpPcbs }

def udpBind (localPort : UInt16) (udp : UdpModule) (pcb : Option UdpPcb) (ipaddr : Option UInt32)
    (port : UInt16) : ErrT × UdpModule :=
  let ipaddr := ipaddr.getD 0
  match pcb with
  | none => (.errVal, udp)
  | some pcb =>
      if port = 0 then
        let result := udpNewPort localPort (udp.udpPcbs.map UdpPcb.localPort) udp.udpPort
        let udp := { udp with udpPort := result.2 }
        if result.1 = 0 then (.errUse, udp) else (.errOk, udp.place pcb ipaddr result.1)
      else if udp.clash pcb ipaddr port then (.errUse, udp)
      else (.errOk, udp.place pcb ipaddr port)

/-! ### The allocation as a bounded search -/

theorem udpNewPortAgain_eq_probe (localPort : UInt16) (udpPcbs : List UInt16) {tries n : Nat}
    (total : n + (tries + 1) = 0x4000) (udpPort : UInt16) :
    udpNewPortAgain localPort udpPcbs n udpPort =
      (((probe (advance localPort) (· ∈ udpPcbs) (tries + 1) udpPort).1.getD 0),
        (probe (advance localPort) (· ∈ udpPcbs) (tries + 1) udpPort).2) := by
  have range : udpLocalPortRangeEnd.toNat - udpLocalPortRangeStart.toNat = 0x3fff := by decide
  induction tries generalizing n udpPort with
  | zero =>
      rw [udpNewPortAgain, probe, range]
      by_cases collision : advance localPort udpPort ∈ udpPcbs
      · simp only [collision, if_true, probe, Option.getD_none]
        exact if_pos (by omega)
      · simp only [collision, if_false, Option.getD_some]
  | succ tries inductionHypothesis =>
      rw [udpNewPortAgain, probe, range]
      by_cases collision : advance localPort udpPort ∈ udpPcbs
      · simp only [collision, if_true]
        rw [if_neg (by omega)]
        exact inductionHypothesis (by omega) _
      · simp only [collision, if_false, Option.getD_some]

/-- The search of a call: 0x4000 tries from the cursor. -/
def portSearch (localPort : UInt16) (udpPcbs : List UInt16) (udpPort : UInt16) :
    Option UInt16 × UInt16 :=
  probe (advance localPort) (· ∈ udpPcbs) 0x4000 udpPort

theorem udpNewPort_eq (localPort : UInt16) (udpPcbs : List UInt16) (udpPort : UInt16) :
    udpNewPort localPort udpPcbs udpPort =
      ((portSearch localPort udpPcbs udpPort).1.getD 0, (portSearch localPort udpPcbs udpPort).2) :=
  udpNewPortAgain_eq_probe localPort udpPcbs (show 0 + (0x3fff + 1) = 0x4000 by rfl) udpPort

theorem advance_zero_toNat (udpPort : UInt16) :
    (advance 0 udpPort).toNat = if udpPort.toNat = 0xffff then 0xc000 else udpPort.toNat + 1 := by
  have last : udpPort = udpLocalPortRangeEnd ↔ udpPort.toNat = 0xffff := UInt16.toNat_inj.symm
  have bound := udpPort.toNat_lt
  unfold advance
  simp only [ne_eq, not_true_eq_false, if_false, last]
  split
  · rfl
  · next inner =>
      rw [UInt16.toNat_add]
      exact Nat.mod_eq_of_lt (show udpPort.toNat + 1 < 65536 by omega)

theorem advance_ne_zero (localPort udpPort : UInt16) : advance localPort udpPort ≠ 0 := by
  by_cases configured : localPort = 0
  · subst configured
    intro zero
    have value := advance_zero_toNat udpPort
    rw [zero] at value
    split at value
    · exact absurd value (by decide)
    · exact absurd value.symm (Nat.succ_ne_zero _)
  · simp [advance, configured]

/-- The call returns 0 exactly when its search fails: no try stands on port 0. -/
theorem udpNewPort_eq_zero_iff (localPort : UInt16) (udpPcbs : List UInt16) (udpPort : UInt16) :
    (udpNewPort localPort udpPcbs udpPort).1 = 0 ↔
      ∀ k < 0x4000, (advance localPort)^[k + 1] udpPort ∈ udpPcbs := by
  rw [udpNewPort_eq, ← probe_eq_none_iff, ← portSearch]
  cases search : (portSearch localPort udpPcbs udpPort).1 with
  | none => simp
  | some port =>
      obtain ⟨_, _, k, _, reached, _⟩ := probe_eq_some search
      rw [Function.iterate_succ_apply'] at reached
      have nonzero : port ≠ 0 := by
        rw [← reached]
        exact advance_ne_zero _ _
      simp [nonzero]

/-- A call that returns a port returns the first free one of its search, and
leaves the cursor there. -/
theorem udpNewPort_ne_zero {localPort : UInt16} {udpPcbs : List UInt16} {udpPort : UInt16}
    (found : (udpNewPort localPort udpPcbs udpPort).1 ≠ 0) :
    (udpNewPort localPort udpPcbs udpPort).2 = (udpNewPort localPort udpPcbs udpPort).1 ∧
      (udpNewPort localPort udpPcbs udpPort).1 ∉ udpPcbs ∧
      ∃ k < 0x4000,
        (advance localPort)^[k + 1] udpPort = (udpNewPort localPort udpPcbs udpPort).1 ∧
          ∀ j < k, (advance localPort)^[j + 1] udpPort ∈ udpPcbs := by
  rw [udpNewPort_eq] at found ⊢
  cases search : (portSearch localPort udpPcbs udpPort).1 with
  | none =>
      rw [search] at found
      exact absurd rfl found
  | some port => exact probe_eq_some search

/-! ### Which ports a search visits -/

/-- A configured port is the only one a search visits. -/
theorem iterate_configured {localPort : UInt16} (configured : localPort ≠ 0) (udpPort : UInt16)
    (k : Nat) : (advance localPort)^[k + 1] udpPort = localPort := by
  rw [Function.iterate_succ_apply']
  simp [advance, configured]

/-- Without a configured port the search counts up from the cursor; once it has
passed the end of the range it stays in the range. -/
theorem iterate_cases (udpPort : UInt16) (k : Nat) :
    ((advance 0)^[k] udpPort).toNat = udpPort.toNat + k ∨
      0xffff < udpPort.toNat + k ∧ 0xc000 ≤ ((advance 0)^[k] udpPort).toNat := by
  induction k with
  | zero => exact Or.inl rfl
  | succ k inductionHypothesis =>
      rw [Function.iterate_succ_apply', advance_zero_toNat]
      have bound := ((advance 0)^[k] udpPort).toNat_lt
      split <;> omega

/-- So every port above the cursor comes up at its distance. -/
theorem iterate_reaches {udpPort port : UInt16} (after : udpPort < port) :
    (advance 0)^[port.toNat - udpPort.toNat - 1 + 1] udpPort = port := by
  rw [UInt16.lt_iff_toNat_lt] at after
  have position := iterate_cases udpPort (port.toNat - udpPort.toNat - 1 + 1)
  have bound := port.toNat_lt
  apply UInt16.toNat_inj.mp
  omega

/-- From just before the range or inside it, the search goes round the range. -/
theorem iterate_dynamic {udpPort : UInt16} (near : 0xbfff ≤ udpPort.toNat) (k : Nat) :
    ((advance 0)^[k + 1] udpPort).toNat = 0xc000 + (udpPort.toNat - 0xbfff + k) % 0x4000 := by
  induction k with
  | zero =>
      rw [Function.iterate_one, advance_zero_toNat]
      have bound := udpPort.toNat_lt
      split <;> omega
  | succ k inductionHypothesis =>
      rw [Function.iterate_succ_apply', advance_zero_toNat, inductionHypothesis]
      split <;> omega

/-- Every port of the dynamic range is the local port of some PCB. -/
def DynamicUsed (udpPcbs : List UInt16) : Prop :=
  ∀ port, udpLocalPortRangeStart ≤ port → port ≤ udpLocalPortRangeEnd → port ∈ udpPcbs

theorem dynamic_iff (port : UInt16) :
    udpLocalPortRangeStart ≤ port ∧ port ≤ udpLocalPortRangeEnd ↔ 0xc000 ≤ port.toNat := by
  have first : udpLocalPortRangeStart.toNat = 0xc000 := by decide
  have last : udpLocalPortRangeEnd.toNat = 0xffff := by decide
  have bound := port.toNat_lt
  rw [UInt16.le_iff_toNat_le, UInt16.le_iff_toNat_le, first, last]
  omega

/-- A search that goes round the range fails exactly when the range is used up. -/
theorem exhausted_iff_dynamicUsed {udpPort : UInt16} (near : 0xbfff ≤ udpPort.toNat)
    (udpPcbs : List UInt16) :
    (∀ k < 0x4000, (advance 0)^[k + 1] udpPort ∈ udpPcbs) ↔ DynamicUsed udpPcbs := by
  constructor
  · intro visited port low high
    have dynamic := (dynamic_iff port).mp ⟨low, high⟩
    have portBound := port.toNat_lt
    have cursorBound := udpPort.toNat_lt
    have reached : (advance 0)^[(port.toNat - 0xc000 + 0x4000 - (udpPort.toNat - 0xbfff)) % 0x4000
        + 1] udpPort = port := by
      apply UInt16.toNat_inj.mp
      rw [iterate_dynamic near]
      omega
    rw [← reached]
    exact visited _ (Nat.mod_lt _ (by decide))
  · intro used k _
    have dynamic := (dynamic_iff ((advance 0)^[k + 1] udpPort)).mpr
      (by rw [iterate_dynamic near]; omega)
    exact used _ dynamic.1 dynamic.2

/-! ### Availability -/

/-- What a caller relies on: 0 only when the dynamic range is used up, and never
a port that a PCB has. -/
def Available (localPort : UInt16) (udpPcbs : List UInt16) (udpPort : UInt16) : Prop :=
  ((udpNewPort localPort udpPcbs udpPort).1 = 0 → DynamicUsed udpPcbs) ∧
    ((udpNewPort localPort udpPcbs udpPort).1 ≠ 0 →
      (udpNewPort localPort udpPcbs udpPort).1 ∉ udpPcbs)

/-- The 0x4000 ports after a cursor that stands well below the dynamic range. -/
theorem exhausted_iff_below {udpPort : UInt16} (below : udpPort.toNat < 0xbfff)
    (udpPcbs : List UInt16) :
    (∀ k < 0x4000, (advance 0)^[k + 1] udpPort ∈ udpPcbs) ↔
      ∀ port : UInt16, udpPort < port → port.toNat ≤ udpPort.toNat + 0x4000 → port ∈ udpPcbs := by
  constructor
  · intro visited port after near
    rw [← iterate_reaches after]
    rw [UInt16.lt_iff_toNat_lt] at after
    exact visited _ (by omega)
  · intro used k bound
    have position := iterate_cases udpPort (k + 1)
    apply used
    · rw [UInt16.lt_iff_toNat_lt]
      omega
    · omega

/-- The configured port is free, or none is configured and the cursor stands
where the search goes round the range or one of the ports that follow is free. -/
def CanAllocate (localPort : UInt16) (udpPcbs : List UInt16) (udpPort : UInt16) : Prop :=
  (localPort ≠ 0 ∧ localPort ∉ udpPcbs) ∨
    (localPort = 0 ∧ (0xbfff ≤ udpPort.toNat ∨
      ∃ port : UInt16, udpPort < port ∧ port.toNat ≤ udpPort.toNat + 0x4000 ∧ port ∉ udpPcbs))

theorem available_iff (localPort : UInt16) (udpPcbs : List UInt16) (udpPort : UInt16) :
    Available localPort udpPcbs udpPort ↔
      DynamicUsed udpPcbs ∨ CanAllocate localPort udpPcbs udpPort := by
  unfold CanAllocate
  have onlyZero : Available localPort udpPcbs udpPort ↔
      ((∀ k < 0x4000, (advance localPort)^[k + 1] udpPort ∈ udpPcbs) → DynamicUsed udpPcbs) := by
    rw [Available, ← udpNewPort_eq_zero_iff]
    exact and_iff_left fun found => (udpNewPort_ne_zero found).2.1
  rw [onlyZero]
  by_cases configured : localPort = 0
  · subst configured
    by_cases near : 0xbfff ≤ udpPort.toNat
    · rw [exhausted_iff_dynamicUsed near]
      simp [near]
    · rw [exhausted_iff_below (Nat.lt_of_not_le near), imp_iff_or_not]
      simp only [ne_eq, not_true_eq_false, false_and, near, false_or, true_and, not_forall,
        exists_prop]
  · have pinned : (∀ k < 0x4000, (advance localPort)^[k + 1] udpPort ∈ udpPcbs) ↔
        localPort ∈ udpPcbs := by
      simp only [iterate_configured configured]
      exact ⟨fun used => used 0 (by decide), fun used _ _ => used⟩
    rw [pinned, imp_iff_or_not]
    simp [configured]

/-- `udp_bind` with port 0 reports `ERR_USE` exactly when the call returns 0. -/
theorem udpBind_zero_errUse_iff (localPort : UInt16) (udp : UdpModule) (pcb : UdpPcb)
    (ipaddr : Option UInt32) :
    (udpBind localPort udp (some pcb) ipaddr 0).1 = .errUse ↔
      (udpNewPort localPort (udp.udpPcbs.map UdpPcb.localPort) udp.udpPort).1 = 0 := by
  simp only [udpBind, if_true]
  split
  · next zero => simp [zero]
  · next nonzero => simp [nonzero]

/-- For every configured port and every state of the module: `udp_new_port`
returns 0 only for want of a dynamic port, and no port in use, exactly when the
range is used up or the search can succeed; and `udp_bind` with port 0 fails
with `ERR_USE` exactly on a 0. -/
theorem udpNewPort_available_iff (localPort : UInt16) (udp : UdpModule) :
    (Available localPort (udp.udpPcbs.map UdpPcb.localPort) udp.udpPort ↔
      DynamicUsed (udp.udpPcbs.map UdpPcb.localPort) ∨
        CanAllocate localPort (udp.udpPcbs.map UdpPcb.localPort) udp.udpPort) ∧
      ∀ pcb ipaddr, (udpBind localPort udp (some pcb) ipaddr 0).1 = .errUse ↔
        (udpNewPort localPort (udp.udpPcbs.map UdpPcb.localPort) udp.udpPort).1 = 0 :=
  ⟨available_iff _ _ _, udpBind_zero_errUse_iff localPort udp⟩

/-- Port 50000 is configured and one PCB has it: the call returns 0 although
every other port of the range is free. -/
theorem configured_port_taken_returns_zero : ¬ Available 50000 [50000] 0xc000 := by
  rintro ⟨zero, _⟩
  have returned : (udpNewPort 50000 [50000] 0xc000).1 = 0 := by
    rw [udpNewPort_eq_zero_iff]
    intro k _
    rw [iterate_configured (by decide)]
    exact List.mem_singleton.mpr rfl
  have used := zero returned 50001 (by decide) (by decide)
  exact absurd used (by decide)

/-! ### Histories of allocations -/

/-- One call of `udp_new_port`: the configured port and the ports of the PCBs at
that moment. -/
structure PortCall where
  localPort : UInt16
  udpPcbs : List UInt16
  deriving DecidableEq, Repr

/-- The allocator as a system: its state is the cursor. -/
def portSystem (udpPort : UInt16) : StepSystem UInt16 PortCall where
  init := udpPort
  step cursor call := some (udpNewPort call.localPort call.udpPcbs cursor).2

/-- An automatic allocation gives 0 or a free port of the dynamic range. -/
def InRange (cursor : UInt16) (call : PortCall) : Prop :=
  call.localPort = 0 →
    (udpNewPort call.localPort call.udpPcbs cursor).1 = 0 ∨
      (udpLocalPortRangeStart ≤ (udpNewPort call.localPort call.udpPcbs cursor).1 ∧
        (udpNewPort call.localPort call.udpPcbs cursor).1 ≤ udpLocalPortRangeEnd) ∧
      (udpNewPort call.localPort call.udpPcbs cursor).1 ∉ call.udpPcbs

/-- An automatic allocation whose cursor stands below the range finds every port
between them used, as far as its tries go. -/
def BelowUsed (cursor : UInt16) (call : PortCall) : Prop :=
  call.localPort = 0 →
    ∀ port : UInt16, cursor < port → port < udpLocalPortRangeStart →
      port.toNat ≤ cursor.toNat + 0x4000 → port ∈ call.udpPcbs

/-- A failed automatic search has visited every port up to the range. -/
theorem belowUsed_of_zero {cursor : UInt16} {udpPcbs : List UInt16}
    (zero : (udpNewPort 0 udpPcbs cursor).1 = 0) {port : UInt16} (after : cursor < port)
    (near : port.toNat ≤ cursor.toNat + 0x4000) : port ∈ udpPcbs := by
  have visited := (udpNewPort_eq_zero_iff 0 udpPcbs cursor).mp zero
  rw [← iterate_reaches after]
  rw [UInt16.lt_iff_toNat_lt] at after
  exact visited _ (by omega)

/-- A successful one lands in the range exactly when the ports it could have
taken below the range were used. -/
theorem dynamic_found_iff {cursor : UInt16} {udpPcbs : List UInt16}
    (found : (udpNewPort 0 udpPcbs cursor).1 ≠ 0) :
    0xc000 ≤ (udpNewPort 0 udpPcbs cursor).1.toNat ↔
      ∀ port : UInt16, cursor < port → port.toNat < 0xc000 →
        port.toNat ≤ cursor.toNat + 0x4000 → port ∈ udpPcbs := by
  obtain ⟨_, free, k, bound, reached, earlier⟩ := udpNewPort_ne_zero found
  have position := iterate_cases cursor (k + 1)
  rw [reached] at position
  constructor
  · -- the search passes the ports below the range before it gets there
    intro inside port after below _
    rw [← iterate_reaches after]
    rw [UInt16.lt_iff_toNat_lt] at after
    exact earlier _ (by omega)
  · intro used
    apply Decidable.byContradiction
    intro outside
    apply free
    apply used
    · rw [UInt16.lt_iff_toNat_lt]
      omega
    · omega
    · omega

theorem inRange_iff_belowUsed (cursor : UInt16) (call : PortCall) :
    InRange cursor call ↔ BelowUsed cursor call := by
  have start : udpLocalPortRangeStart.toNat = 0xc000 := by decide
  unfold InRange BelowUsed
  apply forall_congr'
  intro automatic
  simp only [automatic, dynamic_iff, UInt16.lt_iff_toNat_lt (b := udpLocalPortRangeStart), start]
  by_cases zero : (udpNewPort 0 call.udpPcbs cursor).1 = 0
  · apply iff_of_true (Or.inl zero)
    intro port after _ near
    exact belowUsed_of_zero zero after near
  · rw [← dynamic_found_iff zero, or_iff_right zero]
    exact and_iff_left (udpNewPort_ne_zero zero).2.1

/-- Configured ports from 0xbfff on keep the cursor where the range is next. -/
theorem cursor_stays_near {cursor : UInt16} {call : PortCall} (near : 0xbfff ≤ cursor.toNat)
    (configured : call.localPort = 0 ∨ 0xbfff ≤ call.localPort.toNat) :
    0xbfff ≤ (udpNewPort call.localPort call.udpPcbs cursor).2.toNat := by
  rw [udpNewPort_eq]
  refine probe_cursor (fun port : UInt16 => 0xbfff ≤ port.toNat) (fun port nearPort => ?_) near
  by_cases automatic : call.localPort = 0
  · rw [automatic, advance_zero_toNat]
    split <;> omega
  · have pinned : advance call.localPort port = call.localPort := by simp [advance, automatic]
    rw [pinned]
    exact configured.resolve_left automatic

/-- Over every history of calls from a cursor in the dynamic range: every
automatic allocation stays in the range exactly when each of them whose cursor
was left below the range finds the ports between used; and this is so whenever
no port below 0xbfff was ever configured. -/
theorem allocations_inRange_iff {udpPort : UInt16} (start : udpLocalPortRangeStart ≤ udpPort)
    {past : List (UInt16 × PortCall)} {cursor : UInt16}
    (history : (portSystem udpPort).History past cursor) :
    (StepSystem.EveryStep InRange past ↔ StepSystem.EveryStep BelowUsed past) ∧
      (StepSystem.EveryStep
          (fun _ call => call.localPort = 0 ∨ 0xbfff ≤ call.localPort.toNat) past →
        StepSystem.EveryStep InRange past) := by
  have firstPort : udpLocalPortRangeStart.toNat = 0xc000 := by decide
  have near : 0xbfff ≤ udpPort.toNat := by
    rw [UInt16.le_iff_toNat_le, firstPort] at start
    omega
  refine ⟨?_, fun configured => ?_⟩
  · simp only [StepSystem.EveryStep, inRange_iff_belowUsed]
  · have kept := history.invariant configured
      (fun past cursor => 0xbfff ≤ cursor.toNat ∧ StepSystem.EveryStep InRange past)
      ⟨near, fun _ member => absurd member List.not_mem_nil⟩
    refine (kept fun past cursor call next invariant meets taken => ?_).2
    obtain ⟨nearCursor, earlier⟩ := invariant
    refine ⟨?_, List.forall_mem_cons.mpr ⟨?_, earlier⟩⟩
    · rw [← Option.some.inj taken]
      exact cursor_stays_near nearCursor meets
    · rw [inRange_iff_belowUsed]
      intro _ port after below _
      have before : cursor.toNat < port.toNat := UInt16.lt_iff_toNat_lt.mp after
      rw [UInt16.lt_iff_toNat_lt] at below
      omega

/-- A configured port 60000, then an automatic allocation. -/
theorem allocations_inRange_after_60000 :
    StepSystem.EveryStep InRange
      [((udpNewPort 60000 [] 0xc000).2, ⟨0, [50000]⟩), (0xc000, ⟨60000, []⟩)] := by
  have history : (portSystem 0xc000).History
      [((udpNewPort 60000 [] 0xc000).2, ⟨0, [50000]⟩), (0xc000, ⟨60000, []⟩)]
      (udpNewPort 0 [50000] (udpNewPort 60000 [] 0xc000).2).2 :=
    .step (.step .init rfl) rfl
  apply (allocations_inRange_iff (by decide) history).2
  simp [StepSystem.EveryStep]

/-- Port 5000 is configured for one call and the next allocates by itself: it
gets 5001. -/
theorem allocation_below_range_after_5000 :
    ¬ ∀ past cursor, (portSystem 0xc000).History past cursor →
      StepSystem.EveryStep InRange past := by
  intro always
  have cursor : (udpNewPort 5000 [] 0xc000).2 = 5000 := by
    simp [udpNewPort, udpNewPortAgain, advance]
  have history : (portSystem 0xc000).History
      [((udpNewPort 5000 [] 0xc000).2, ⟨0, []⟩), (0xc000, ⟨5000, []⟩)]
      (udpNewPort 0 [] (udpNewPort 5000 [] 0xc000).2).2 :=
    .step (.step .init rfl) rfl
  rw [cursor] at history
  have second := always _ _ history (5000, ⟨0, []⟩) List.mem_cons_self
  rw [inRange_iff_belowUsed] at second
  exact absurd (second rfl 5001 (by decide) (by decide) (by decide)) List.not_mem_nil

end RttIctl.Lwip
