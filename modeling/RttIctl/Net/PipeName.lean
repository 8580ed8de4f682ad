import RttIctl.Lib.Decimal
import RttIctl.Lib.Registry
import RttIctl.Lib.StepSystem

/-!
Owns the pipe devices of the clients by name: the name `pipe_init` makes from its
call counter in the eight bytes of `pipe_name`, for which calls two names differ,
and the device that opening the name through `/dev` finds while clients come and
go.

It does not own the descriptors, the ring buffers or the rest of a client.
-/

namespace RttIctl.Net

open Lib

/-! ### Names -/

/-- `sizeof(thiz->pipe_name)`. -/
def pipeNameSize : Nat := 8

/-- `snprintf` into `size` bytes: what is kept of the text, without the
terminator. -/
def snprintf (size : Nat) (text : List Char) : List Char :=
  text.take (size - 1)

/-- The name made by the call of `pipe_init` that finds `pipeno` in its counter,
which stays below `2 ^ 31`. -/
def pipeName (pipeno : Nat) : List Char :=
  snprintf pipeNameSize (['p', 'i', 'p', 'e'] ++ Nat.toDigits 10 pipeno)

/-- Three digits of the counter fit. -/
theorem pipeName_eq (pipeno : Nat) :
    pipeName pipeno = ['p', 'i', 'p', 'e'] ++ (Nat.toDigits 10 pipeno).take 3 := by
  rw [pipeName, snprintf, pipeNameSize, List.take_append]
  rfl

theorem pipeName_ne_iff (n m : Nat) :
    pipeName n ≠ pipeName m ↔ Decimal.leading 3 n ≠ Decimal.leading 3 m := by
  rw [pipeName_eq, pipeName_eq, ne_eq, List.append_cancel_left_eq,
    Decimal.take_toDigits_eq_iff (by decide)]

/-- The first hundred names are used once only, and the first thousand are apart. -/
theorem pipeName_ne_of_early {n m : Nat} (less : n < m) (early : n < 100 ∨ m < 1000) :
    pipeName n ≠ pipeName m := by
  rw [pipeName_ne_iff]
  intro same
  rcases early with first | second
  · exact Nat.ne_of_lt less (Decimal.eq_of_leading_eq first same)
  · rw [Decimal.leading_of_lt (Nat.lt_trans less second), Decimal.leading_of_lt second] at same
    exact Nat.ne_of_lt less same

/-! ### Devices -/

/-- Who registered a device: a call of `pipe_init`, or other code, which also
registers pipes. -/
inductive Registrant
  | call (pipeno : Nat)
  | other (isPipe : Bool)
  deriving DecidableEq, Repr

/-- `device->type == RT_Device_Class_Pipe`. -/
def Registrant.isPipe : Registrant → Bool
  | .call _ => true
  | .other isPipe => isPipe

abbrev Devices := Registry (List Char) Registrant

/-- How far the client of a call of `pipe_init` is. -/
inductive PipeStage
  | absent
  | created
  | reading
  | ready
  deriving DecidableEq, Repr

/-- The counter, the registered devices, the stage of every call, and the devices
found when a call opened its name. -/
structure PipeWorld where
  pipeno : Nat
  devices : Devices
  stage : Nat → PipeStage
  opened : List (Nat × Registrant)

/-- What can happen. The flags are the outcomes of `rt_malloc` and `open`, and
whether the device is still in use when it is deleted. -/
inductive PipeStep
  | create (malloc : Bool)
  | openRead (pipeno : Nat) (succeeds : Bool)
  | openWrite (pipeno : Nat) (succeeds : Bool)
  | deinit (pipeno : Nat) (busy : Bool)
  | otherRegister (name : List Char) (isPipe : Bool)
  | otherUnregister (name : List Char)
  deriving DecidableEq, Repr

namespace PipeWorld

def setStage (world : PipeWorld) (pipeno : Nat) (stage : PipeStage) : PipeWorld :=
  { world with stage := fun call => if call = pipeno then stage else world.stage call }

/-- The counter moves on and `rt_pipe_create` registers the name, which fails
when it is in use. -/
def create (world : PipeWorld) (malloc : Bool) : PipeWorld :=
  let pipeno := world.pipeno
  let world := { world with pipeno := pipeno + 1 }
  if malloc then
    match world.devices.register (pipeName pipeno) (.call pipeno) with
    | some devices => { world with devices := devices }.setStage pipeno .created
    | none => world
  else world

/-- `open` on the name finds a device by it. When it fails the client is given up
and its device stays. -/
def openEnd (world : PipeWorld) (pipeno : Nat) (succeeds : Bool) (next : PipeStage) : PipeWorld :=
  match world.devices.find (pipeName pipeno) with
  | some registrant =>
      if succeeds then
        { world with opened := (pipeno, registrant) :: world.opened }.setStage pipeno next
      else world.setStage pipeno .absent
  | none => world.setStage pipeno .absent

/-- `pipe_deinit`: both ends are closed and `rt_pipe_delete` removes the pipe the
name finds, unless it is in use. -/
def deinit (world : PipeWorld) (pipeno : Nat) (busy : Bool) : PipeWorld :=
  let world := world.setStage pipeno .absent
  match world.devices.find (pipeName pipeno) with
  | some registrant =>
      if registrant.isPipe && !busy then
        { world with devices := world.devices.unregister (pipeName pipeno) }
      else world
  | none => world

/-- Other code removes what it registered. -/
def otherUnregister (world : PipeWorld) (name : List Char) : PipeWorld :=
  match world.devices.find name with
  | some (.other _) => { world with devices := world.devices.unregister name }
  | some (.call _) => world
  | none => world

def step (world : PipeWorld) : PipeStep → Option PipeWorld
  | .create malloc => some (world.create malloc)
  | .openRead pipeno succeeds =>
      if world.stage pipeno = .created then some (world.openEnd pipeno succeeds .reading) else none
  | .openWrite pipeno succeeds =>
      if world.stage pipeno = .reading then some (world.openEnd pipeno succeeds .ready) else none
  | .deinit pipeno busy =>
      if world.stage pipeno = .ready then some (world.deinit pipeno busy) else none
  | .otherRegister name isPipe =>
      match world.devices.register name (.other isPipe) with
      | some devices => some { world with devices := devices }
      | none => some world
  | .otherUnregister name => some (world.otherUnregister name)

end PipeWorld

/-- Clients come and go among the devices that are there at the start. -/
def pipeSystem (devices : Devices) : StepSystem PipeWorld PipeStep where
  init := { pipeno := 0, devices := devices, stage := fun _ => .absent, opened := [] }
  step := PipeWorld.step

/-! ### Every client opens its own device -/

/-- A client on its way has its device registered, later calls have none yet, and
whatever was opened belonged to the call that opened it. -/
structure PipeWorld.Invariant (world : PipeWorld) : Prop where
  fresh : ∀ call, world.pipeno ≤ call → world.stage call = .absent
  registered : ∀ call, world.stage call ≠ .absent →
    (pipeName call, .call call) ∈ world.devices.entries
  own : ∀ entry ∈ world.opened, entry.2 = .call entry.1

namespace PipeWorld

variable {world : PipeWorld}

theorem setStage_same (world : PipeWorld) (pipeno : Nat) (stage : PipeStage) :
    (world.setStage pipeno stage).stage pipeno = stage :=
  if_pos rfl

theorem setStage_other {call pipeno : Nat} (stage : PipeStage) (other : call ≠ pipeno) :
    (world.setStage pipeno stage).stage call = world.stage call :=
  if_neg other

/-- Giving a client up keeps what holds of the others. -/
theorem Invariant.abandon (invariant : Invariant world) (pipeno : Nat) :
    Invariant (world.setStage pipeno .absent) := by
  refine ⟨fun call late => ?_, fun call present => ?_, invariant.own⟩
  · by_cases same : call = pipeno
    · rw [same, setStage_same]
    · rw [setStage_other _ same]
      exact invariant.fresh call late
  · have other : call ≠ pipeno := by
      rintro rfl
      exact present (setStage_same _ _ _)
    rw [setStage_other _ other] at present
    exact invariant.registered call present

/-- A client whose device is registered may be on its way. -/
theorem Invariant.reach (invariant : Invariant world) {pipeno : Nat}
    (issued : pipeno < world.pipeno)
    (registered : (pipeName pipeno, .call pipeno) ∈ world.devices.entries) (stage : PipeStage) :
    Invariant (world.setStage pipeno stage) := by
  refine ⟨fun call late => ?_, fun call present => ?_, invariant.own⟩
  · have later : call ≠ pipeno := Nat.ne_of_gt (Nat.lt_of_lt_of_le issued late)
    rw [setStage_other _ later]
    exact invariant.fresh call late
  · by_cases same : call = pipeno
    · rw [same]
      exact registered
    · rw [setStage_other _ same] at present
      exact invariant.registered call present

/-- One more device, whoever registers it. -/
theorem Invariant.register (invariant : Invariant world) {name : List Char}
    {registrant : Registrant} {devices : Devices}
    (accepted : world.devices.register name registrant = some devices) :
    Invariant { world with devices := devices } := by
  refine ⟨invariant.fresh, fun call present => ?_, invariant.own⟩
  show _ ∈ devices.entries
  rw [Registry.register_entries accepted]
  exact List.mem_cons_of_mem _ (invariant.registered call present)

/-- Two clients on their way have different names. -/
theorem Invariant.names_ne (invariant : Invariant world) {call other : Nat}
    (present : world.stage call ≠ .absent) (otherPresent : world.stage other ≠ .absent)
    (differ : call ≠ other) : pipeName call ≠ pipeName other := by
  intro same
  have found := Registry.find_of_mem (invariant.registered call present)
  have otherFound := Registry.find_of_mem (invariant.registered other otherPresent)
  rw [same, otherFound, Option.some.injEq, Registrant.call.injEq] at found
  exact differ found.symm

theorem Invariant.create (invariant : Invariant world) (malloc : Bool) :
    Invariant (world.create malloc) := by
  have counted : Invariant { world with pipeno := world.pipeno + 1 } :=
    ⟨fun call late => invariant.fresh call (Nat.le_of_succ_le late), invariant.registered,
      invariant.own⟩
  unfold PipeWorld.create
  dsimp only
  split
  · split
    · next devices accepted =>
        apply (counted.register accepted).reach (Nat.lt_succ_self world.pipeno)
        rw [Registry.register_entries accepted]
        exact List.mem_cons_self
    · exact counted
  · exact counted

/-- An open between creation and deletion finds the client's own device. -/
theorem Invariant.openEnd (invariant : Invariant world) {pipeno : Nat}
    (present : world.stage pipeno ≠ .absent) (succeeds : Bool) (next : PipeStage) :
    Invariant (world.openEnd pipeno succeeds next) := by
  have registered := invariant.registered pipeno present
  have issued : pipeno < world.pipeno := by
    apply Nat.lt_of_not_le
    intro late
    exact present (invariant.fresh pipeno late)
  have found : Invariant { world with opened := (pipeno, .call pipeno) :: world.opened } := by
    refine ⟨invariant.fresh, invariant.registered, fun entry member => ?_⟩
    rcases List.mem_cons.mp member with rfl | earlier
    · rfl
    · exact invariant.own entry earlier
  unfold PipeWorld.openEnd
  rw [Registry.find_of_mem registered]
  dsimp only
  split
  · exact found.reach issued registered next
  · exact invariant.abandon pipeno

/-- Deletion by name takes the client's own device and no other client's. -/
theorem Invariant.deinit (invariant : Invariant world) {pipeno : Nat}
    (present : world.stage pipeno ≠ .absent) (busy : Bool) :
    Invariant (world.deinit pipeno busy) := by
  have abandoned := invariant.abandon pipeno
  unfold PipeWorld.deinit
  dsimp only
  split
  · split
    · refine ⟨abandoned.fresh, fun call here => ?_, abandoned.own⟩
      have other : call ≠ pipeno := by
        rintro rfl
        exact here (setStage_same _ _ _)
      have stays : world.stage call ≠ .absent := by
        rw [← setStage_other .absent other]
        exact here
      exact Registry.mem_unregister (invariant.registered call stays)
        (invariant.names_ne stays present other)
    · exact abandoned
  · exact abandoned

theorem Invariant.otherUnregister (invariant : Invariant world) (name : List Char) :
    Invariant (world.otherUnregister name) := by
  unfold PipeWorld.otherUnregister
  split
  · next isPipe found =>
      refine ⟨invariant.fresh, fun call present => ?_, invariant.own⟩
      have registered := invariant.registered call present
      apply Registry.mem_unregister registered
      rintro rfl
      rw [Registry.find_of_mem registered] at found
      exact Registrant.noConfusion (Option.some.inj found)
  · exact invariant
  · exact invariant

/-- Only a client on its way opens its name or gives it up. -/
theorem present_of_stage {pipeno : Nat} {stage : PipeStage} (reached : world.stage pipeno = stage)
    (onItsWay : stage ≠ .absent) : world.stage pipeno ≠ .absent := by
  rw [reached]
  exact onItsWay

theorem Invariant.step {after : PipeWorld} {taken : PipeStep} (invariant : Invariant world)
    (ran : world.step taken = some after) : Invariant after := by
  cases taken with
  | create malloc =>
      rw [← Option.some.inj ran]
      exact invariant.create malloc
  | openRead pipeno succeeds =>
      obtain ⟨created, opened⟩ := Option.ite_none_right_eq_some.mp ran
      rw [← Option.some.inj opened]
      exact invariant.openEnd (present_of_stage created (by decide)) succeeds .reading
  | openWrite pipeno succeeds =>
      obtain ⟨reading, opened⟩ := Option.ite_none_right_eq_some.mp ran
      rw [← Option.some.inj opened]
      exact invariant.openEnd (present_of_stage reading (by decide)) succeeds .ready
  | deinit pipeno busy =>
      obtain ⟨ready, deleted⟩ := Option.ite_none_right_eq_some.mp ran
      rw [← Option.some.inj deleted]
      exact invariant.deinit (present_of_stage ready (by decide)) busy
  | otherRegister name isPipe =>
      rw [PipeWorld.step] at ran
      split at ran
      · next devices accepted =>
          rw [← Option.some.inj ran]
          exact invariant.register accepted
      · rw [← Option.some.inj ran]
        exact invariant
  | otherUnregister name =>
      rw [← Option.some.inj ran]
      exact invariant.otherUnregister name

end PipeWorld

theorem pipeSystem_begin (devices : Devices) : (pipeSystem devices).init.Invariant :=
  ⟨fun _ _ => rfl, fun _ present => absurd rfl present,
    fun _ member => absurd member List.not_mem_nil⟩

/-- The names of two calls differ exactly when the first three digits of their
numbers do not form one number; so the name of one of the first hundred calls is
never made again, and those of the first thousand differ. Whatever the names, in
every state reached a client has opened no device but its own. -/
theorem pipe_names_and_devices (n m : Nat) (devices : Devices) :
    (pipeName n ≠ pipeName m ↔ Decimal.leading 3 n ≠ Decimal.leading 3 m) ∧
      (n < m → n < 100 ∨ m < 1000 → pipeName n ≠ pipeName m) ∧
      ∀ world, (pipeSystem devices).Reachable world →
        ∀ entry ∈ world.opened, entry.2 = .call entry.1 := by
  refine ⟨pipeName_ne_iff n m, pipeName_ne_of_early, fun world reach => ?_⟩
  have invariant : world.Invariant := by
    apply reach.invariant PipeWorld.Invariant (pipeSystem_begin devices)
    intro before taken after holds _ ran
    exact holds.step ran
  exact invariant.own

/-- The calls with 100 and 1000 in their counter make the same name. -/
theorem pipe_names_collide : 100 < 1000 ∧ 1000 < 2 ^ 31 ∧ ¬ pipeName 100 ≠ pipeName 1000 :=
  ⟨by decide, by decide, fun differ => differ (by decide)⟩

/-- Calls 100 and 1000 share a name, calls 99 and 999 do not, and from no
devices on every client opens its own. -/
theorem early_pipe_names_and_devices :
    ¬ pipeName 100 ≠ pipeName 1000 ∧ pipeName 99 ≠ pipeName 999 ∧
      ∀ world, (pipeSystem ⟨[], List.nodup_nil⟩).Reachable world →
        ∀ entry ∈ world.opened, entry.2 = .call entry.1 := by
  have late := pipe_names_and_devices 100 1000 ⟨[], List.nodup_nil⟩
  have early := pipe_names_and_devices 99 999 ⟨[], List.nodup_nil⟩
  refine ⟨mt late.1.mp ?_, early.2.1 (by decide) (.inl (by decide)), early.2.2⟩
  rw [Decimal.leading_of_lt (by decide), Decimal.leading_of_le (by decide),
    Decimal.leading_of_lt (by decide)]
  decide

end RttIctl.Net
