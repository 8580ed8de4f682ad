import RttIctl.Bsp.Ads111x

/-!
Owns the sampling thread of `demoI2C.cpp`: the endless loop of
`taski2c1_entry` with its sample counter, sticky result and channel index, the
schedule its passes keep, and the attribution of every reading to the channel
configured last.

It does not own the driver, the delays or the printed texts.
-/

namespace RttIctl.Applications

open Bsp

/-- `MAX_ADS1115_CHL`. -/
def maxAds1115Chl : UInt8 := 3

/-- `MAX_SAMP_CNT`. -/
def maxSampCnt : UInt8 := 5

/-- The channels sampled in turn. -/
def chn : List (BitVec 8) := [adsMux03, adsMux13, adsMux23]

/-- The high configuration byte for a channel. -/
def hcmdOf (channel : BitVec 8) : BitVec 8 :=
  adsOsBegin ||| channel ||| adsPga4096V ||| adsModContinuous

/-- What the thread does to the device: a call of `ads111x_config` with its
result, a call of `ads111x_readAD` while the loop index is `i`. -/
inductive SampEvent
  | config (hcmd : BitVec 8) (rtn : RtErr)
  | readAD (i : UInt8) (dev : Option Ad111xDevice) (result : BitVec 16)
  deriving DecidableEq, Repr

/-- The local variables of the thread and, latest first, what it has done. -/
structure SampThread where
  cnt : UInt8
  i : UInt8
  rtn : RtErr
  result : BitVec 16
  history : List SampEvent
  deriving DecidableEq, Repr

def SampThread.begin : SampThread where
  cnt := 0
  i := 0
  rtn := .eok
  result := 0
  history := []

namespace SampThread

/-- The first conditional: configure the channel when no sample was taken. -/
def configure (self : SampThread) (bus : I2cBus) (dev : Option Ad111xDevice) :
    Option SampThread :=
  if 0 = self.cnt then do
    let channel ← chn[self.i.toNat]?
    let hcmd := hcmdOf channel
    let rtn := ads111xConfig bus dev (adsSpd128Sps ||| adsQueDisable) hcmd
    some { self with rtn := rtn, history := .config hcmd rtn :: self.history }
  else some self

/-- The second conditional: count and take a sample. -/
def sample (self : SampThread) (bus : I2cBus) (dev : Option Ad111xDevice) : Option SampThread :=
  if .eok = self.rtn then do
    let result ← ads111xReadAD bus dev
    some { self with
      cnt := self.cnt + 1
      result := result
      history := .readAD self.i dev result :: self.history }
  else some self

/-- The third conditional: on to the next channel. -/
def advance (self : SampThread) : SampThread :=
  if .eok ≠ self.rtn ∨ maxSampCnt ≤ self.cnt then
    { self with cnt := 0, i := (self.i + 1) % maxAds1115Chl }
  else self

/-- One pass of the loop. No result means a null device or a channel outside
the list. -/
def pass (dev : Option Ad111xDevice) (self : SampThread) (bus : I2cBus) : Option SampThread := do
  let self ← self.configure bus dev
  let self ← self.sample bus dev
  some self.advance

/-- The thread after one pass for each bus outcome. -/
def run (dev : Option Ad111xDevice) (self : SampThread) (buses : List I2cBus) :
    Option SampThread :=
  buses.foldlM (pass dev) self

end SampThread

/-! ### Lawful histories -/

def SampEvent.IsConfig : SampEvent → Bool
  | .config _ _ => true
  | .readAD _ _ _ => false

/-- The configurations made so far. -/
def configCount (history : List SampEvent) : Nat :=
  history.countP SampEvent.IsConfig

/-- The reads since the last configuration. -/
def readsSince : List SampEvent → Nat
  | [] => 0
  | .config _ _ :: _ => 0
  | .readAD _ _ _ :: before => readsSince before + 1

/-- The last configuration: its byte and its result. -/
def lastConfig : List SampEvent → Option (BitVec 8 × RtErr)
  | [] => none
  | .config hcmd rtn :: _ => some (hcmd, rtn)
  | .readAD _ _ _ :: before => lastConfig before

/-- The reads a configuration is followed by. -/
def readsAfter (rtn : RtErr) : Nat :=
  if rtn = .eok then maxSampCnt.toNat else 0

/-- The multiplexer bits of a high configuration byte. -/
def muxOf (hcmd : BitVec 8) : BitVec 8 :=
  hcmd &&& 0x70

/-- A configuration takes the next channel in turn and follows the reads of the
one before; a read is of a device that is there and comes, among the first
`MAX_SAMP_CNT`, after a successful configuration of the channel at the loop
index. -/
def Allowed (before : List SampEvent) : SampEvent → Prop
  | .config hcmd _ =>
      chn[configCount before % maxAds1115Chl.toNat]? = some (muxOf hcmd) ∧
        ∀ last, lastConfig before = some last → readsSince before = readsAfter last.2
  | .readAD i dev _ =>
      dev ≠ none ∧ readsSince before < maxSampCnt.toNat ∧
        ∃ hcmd, lastConfig before = some (hcmd, .eok) ∧ chn[i.toNat]? = some (muxOf hcmd)

/-- Every event was allowed by what came before it. -/
def Lawful : List SampEvent → Prop
  | [] => True
  | event :: before => Allowed before event ∧ Lawful before

/-! ### The schedule -/

/-- One read of the channel at index `i` in every pass. -/
def samples (dev : Option Ad111xDevice) (i : UInt8) (buses : List I2cBus) : List SampEvent :=
  buses.map fun bus => .readAD i dev ((ads111xReadAD bus dev).getD 0)

/-- The channel of the configuration with this number, in cyclic order. -/
def channelOf (turn : Nat) : BitVec 8 :=
  chn.get ⟨turn % chn.length, Nat.mod_lt _ (by decide)⟩

/-- What passes with these outcomes are to do from the configuration with number
`turn` on. A configuration that succeeds is followed by a read in its own pass
and in the four after it; one that fails ends its round with its pass. -/
def schedule (dev : Option Ad111xDevice) (turn : Nat) : List I2cBus → List SampEvent
  | [] => []
  | bus :: rest =>
      let hcmd := hcmdOf (channelOf turn)
      let rtn := ads111xConfig bus dev (adsSpd128Sps ||| adsQueDisable) hcmd
      if rtn = .eok then
        .config hcmd rtn ::
          (samples dev (UInt8.ofNat (turn % 3)) ((bus :: rest).take maxSampCnt.toNat) ++
            schedule dev (turn + 1) (rest.drop (maxSampCnt.toNat - 1)))
      else .config hcmd rtn :: schedule dev (turn + 1) rest
termination_by buses => buses.length
decreasing_by
  · exact Nat.lt_succ_of_le (List.length_drop ▸ Nat.sub_le _ _)
  · exact Nat.lt_succ_self _

/-- The rest of a round that has `left` reads to go, and the rounds after it. -/
def roundsFrom (dev : Option Ad111xDevice) (i : UInt8) (left turn : Nat) (buses : List I2cBus) :
    List SampEvent :=
  samples dev i (buses.take left) ++ schedule dev turn (buses.drop left)

section Schedule

variable {dev : Option Ad111xDevice} {bus : I2cBus} {turn : Nat}

theorem schedule_eok (rest : List I2cBus)
    (done : ads111xConfig bus dev (adsSpd128Sps ||| adsQueDisable) (hcmdOf (channelOf turn)) =
      .eok) :
    schedule dev turn (bus :: rest) = .config (hcmdOf (channelOf turn)) .eok ::
      roundsFrom dev (UInt8.ofNat (turn % 3)) maxSampCnt.toNat (turn + 1) (bus :: rest) := by
  rw [schedule]
  simp only [done, if_true]
  rfl

theorem schedule_failed (rest : List I2cBus) {rtn : RtErr}
    (result : ads111xConfig bus dev (adsSpd128Sps ||| adsQueDisable) (hcmdOf (channelOf turn)) =
      rtn) (failed : rtn ≠ .eok) :
    schedule dev turn (bus :: rest) =
      .config (hcmdOf (channelOf turn)) rtn :: schedule dev (turn + 1) rest := by
  rw [schedule]
  simp only [result, if_neg failed]

theorem roundsFrom_zero (i : UInt8) (buses : List I2cBus) :
    roundsFrom dev i 0 turn buses = schedule dev turn buses := rfl

theorem roundsFrom_succ (i : UInt8) (left : Nat) {result : BitVec 16} (rest : List I2cBus)
    (read : ads111xReadAD bus dev = some result) :
    roundsFrom dev i (left + 1) turn (bus :: rest) =
      .readAD i dev result :: roundsFrom dev i left turn rest := by
  simp [roundsFrom, samples, read]

theorem roundsFrom_nil (i : UInt8) (left : Nat) : roundsFrom dev i left turn [] = [] := by
  rw [roundsFrom, List.take_nil, List.drop_nil, schedule]
  rfl

end Schedule

/-! ### The invariant of the loop -/

section Phases

variable (dev : Option Ad111xDevice) (plan : List SampEvent) (buses : List I2cBus)
  (thread : SampThread)

/-- Before a configuration: it is the turn of the channel at the loop index, the
last configuration has had its reads, and what was done and the schedule from
here make up the plan. -/
structure Between : Prop where
  cnt : thread.cnt = 0
  turn : thread.i.toNat = configCount thread.history % 3
  closed : ∀ last, lastConfig thread.history = some last →
    readsSince thread.history = readsAfter last.2
  planned : thread.history.reverse ++ schedule dev (configCount thread.history) buses = plan

/-- While the channel at the loop index is sampled: it was configured last and
has been read `cnt` times, and the reads it still gets are planned. -/
structure Taking : Prop where
  device : dev ≠ none
  rtn : thread.rtn = .eok
  reads : readsSince thread.history = thread.cnt.toNat
  index : thread.i.toNat < 3
  turn : configCount thread.history % 3 = (thread.i.toNat + 1) % 3
  selected : ∃ hcmd, lastConfig thread.history = some (hcmd, .eok) ∧
    chn[thread.i.toNat]? = some (muxOf hcmd)
  planned : thread.history.reverse ++ roundsFrom dev thread.i
    (maxSampCnt.toNat - thread.cnt.toNat) (configCount thread.history) buses = plan

/-- After a configuration that failed. -/
structure Failed : Prop where
  rtn : thread.rtn ≠ .eok
  cnt : thread.cnt = 0
  index : thread.i.toNat < 3
  turn : configCount thread.history % 3 = (thread.i.toNat + 1) % 3
  last : ∃ hcmd, lastConfig thread.history = some (hcmd, thread.rtn)
  reads : readsSince thread.history = 0
  planned : thread.history.reverse ++ schedule dev (configCount thread.history) buses = plan

/-- The thread at the head of its loop, with the outcomes of the passes to come. -/
structure SampInvariant : Prop where
  lawful : Lawful thread.history
  phase : Between dev plan buses thread ∨ Taking dev plan buses thread ∧
    0 < thread.cnt.toNat ∧ thread.cnt.toNat < maxSampCnt.toNat

end Phases

/-- The plan of a run is the schedule of its outcomes. -/
theorem SampThread.begin_invariant (dev : Option Ad111xDevice) (buses : List I2cBus) :
    SampInvariant dev (schedule dev 0 buses) buses .begin where
  lawful := trivial
  phase := Or.inl
    { cnt := rfl
      turn := rfl
      closed := fun _ none_yet => absurd none_yet (Option.some_ne_none _).symm
      planned := rfl }

variable {dev : Option Ad111xDevice} {thread : SampThread} {plan : List SampEvent}
  {bus : I2cBus} {rest : List I2cBus}

/-- Once the outcomes are used up, everything planned was done. -/
theorem SampInvariant.done (invariant : SampInvariant dev plan [] thread) :
    thread.history.reverse = plan := by
  obtain ⟨-, between | ⟨taking, -, -⟩⟩ := invariant
  · rw [← between.planned, schedule, List.append_nil]
  · rw [← taking.planned, roundsFrom_nil, List.append_nil]

/-- A configuration that succeeds has a device. -/
theorem ads111xConfig_eok {bus : I2cBus} {lcmd hcmd : BitVec 8}
    (done : ads111xConfig bus dev lcmd hcmd = .eok) : dev ≠ none := by
  rintro rfl
  exact RtErr.noConfusion done

theorem ads111xReadAD_of_device (bus : I2cBus) (present : dev ≠ none) :
    ∃ result, ads111xReadAD bus dev = some result := by
  obtain ⟨device, rfl⟩ := Option.ne_none_iff_exists'.mp present
  unfold ads111xReadAD
  rw [Option.bind_eq_bind, Option.bind_some]
  dsimp only
  split
  · exact ⟨_, rfl⟩
  · split <;> exact ⟨_, rfl⟩

/-- The byte sent for a channel selects it. -/
theorem muxOf_hcmdOf (turn : Nat) : muxOf (hcmdOf (channelOf turn)) = channelOf turn := by
  have each : ∀ channel ∈ chn, muxOf (hcmdOf channel) = channel := by decide
  exact each _ (List.get_mem _ _)

/-- The thread after a call of `ads111x_config` with its result. -/
def SampThread.configured (self : SampThread) (hcmd : BitVec 8) (rtn : RtErr) : SampThread :=
  { self with rtn := rtn, history := .config hcmd rtn :: self.history }

theorem SampThread.configured_count (self : SampThread) (hcmd : BitVec 8) (rtn : RtErr) :
    configCount (self.configured hcmd rtn).history = configCount self.history + 1 :=
  List.countP_cons_of_pos rfl

/-- An event planned next, and what is planned after it. -/
theorem reverse_cons_append (event : SampEvent) (history ahead : List SampEvent) :
    (event :: history).reverse ++ ahead = history.reverse ++ event :: ahead := by
  rw [List.reverse_cons, List.append_assoc, List.singleton_append]

section BetweenRounds

variable (between : Between dev plan (bus :: rest) thread)

include between

theorem Between.index : thread.i.toNat < 3 := by
  rw [between.turn]
  exact Nat.mod_lt _ (by decide)

/-- One more configuration moves the turn to the next channel. -/
theorem Between.configured_turn (hcmd : BitVec 8) (rtn : RtErr) :
    configCount (thread.configured hcmd rtn).history % 3 = (thread.i.toNat + 1) % 3 := by
  rw [thread.configured_count, between.turn]
  omega

/-- The loop index is the place of the channel whose turn it is. -/
theorem Between.i_eq : UInt8.ofNat (configCount thread.history % 3) = thread.i := by
  rw [← between.turn, UInt8.ofNat_toNat]

theorem Between.listed : chn[thread.i.toNat]? = some (channelOf (configCount thread.history)) := by
  rw [between.turn]
  exact List.getElem?_eq_getElem _

theorem Between.configured_allowed (rtn : RtErr) :
    Allowed thread.history (.config (hcmdOf (channelOf (configCount thread.history))) rtn) := by
  refine ⟨?_, between.closed⟩
  rw [muxOf_hcmdOf, ← between.listed]
  exact congrArg (chn[·]?) between.turn.symm

theorem Between.configured_taking
    (done : ads111xConfig bus dev (adsSpd128Sps ||| adsQueDisable)
      (hcmdOf (channelOf (configCount thread.history))) = .eok) :
    Taking dev plan (bus :: rest)
      (thread.configured (hcmdOf (channelOf (configCount thread.history))) .eok) where
  device := ads111xConfig_eok done
  rtn := rfl
  reads := (congrArg UInt8.toNat between.cnt).symm
  index := between.index
  turn := between.configured_turn _ _
  selected := ⟨_, rfl, between.listed.trans (congrArg some (muxOf_hcmdOf _).symm)⟩
  planned := by
    have noneRead : maxSampCnt.toNat - thread.cnt.toNat = maxSampCnt.toNat := by
      rw [between.cnt]
      rfl
    rw [thread.configured_count, ← between.planned, schedule_eok rest done, between.i_eq]
    simp only [SampThread.configured, noneRead, reverse_cons_append]

theorem Between.configured_failed {rtn : RtErr}
    (result : ads111xConfig bus dev (adsSpd128Sps ||| adsQueDisable)
      (hcmdOf (channelOf (configCount thread.history))) = rtn) (failed : rtn ≠ .eok) :
    Failed dev plan rest
      (thread.configured (hcmdOf (channelOf (configCount thread.history))) rtn) where
  rtn := failed
  cnt := between.cnt
  index := between.index
  turn := between.configured_turn _ _
  last := ⟨_, rfl⟩
  reads := rfl
  planned := by
    rw [thread.configured_count, ← between.planned, schedule_failed rest result failed]
    exact reverse_cons_append _ _ _

end BetweenRounds

/-- The first conditional leaves a channel to sample or a failure, whether it
configures one or not. -/
theorem SampInvariant.configure (invariant : SampInvariant dev plan (bus :: rest) thread) :
    ∃ next, thread.configure bus dev = some next ∧ Lawful next.history ∧
      (Taking dev plan (bus :: rest) next ∧ next.cnt.toNat < maxSampCnt.toNat ∨
        Failed dev plan rest next) := by
  obtain ⟨lawful, between | ⟨taking, positive, few⟩⟩ := invariant
  · have ran : thread.configure bus dev = some (thread.configured
        (hcmdOf (channelOf (configCount thread.history)))
        (ads111xConfig bus dev (adsSpd128Sps ||| adsQueDisable)
          (hcmdOf (channelOf (configCount thread.history))))) := by
      rw [SampThread.configure, if_pos between.cnt.symm, between.listed]
      rfl
    refine ⟨_, ran, ⟨between.configured_allowed _, lawful⟩, ?_⟩
    by_cases done : ads111xConfig bus dev (adsSpd128Sps ||| adsQueDisable)
        (hcmdOf (channelOf (configCount thread.history))) = .eok
    · have none_read : thread.cnt.toNat < maxSampCnt.toNat := by
        rw [between.cnt]
        decide
      rw [done]
      exact Or.inl ⟨between.configured_taking done, none_read⟩
    · exact Or.inr (between.configured_failed rfl done)
  · refine ⟨thread, ?_, lawful, Or.inl ⟨taking, few⟩⟩
    rw [SampThread.configure, if_neg]
    intro zero
    rw [← zero] at positive
    exact Nat.lt_irrefl 0 positive

/-- The second conditional takes the read that is planned next. -/
theorem Taking.sample (taking : Taking dev plan (bus :: rest) thread)
    (lawful : Lawful thread.history) (few : thread.cnt.toNat < maxSampCnt.toNat) :
    ∃ next, thread.sample bus dev = some next ∧ Lawful next.history ∧
      Taking dev plan rest next ∧ 0 < next.cnt.toNat ∧ next.cnt.toNat ≤ maxSampCnt.toNat := by
  obtain ⟨result, read⟩ := ads111xReadAD_of_device bus taking.device
  have counted : (thread.cnt + 1).toNat = thread.cnt.toNat + 1 := by
    rw [show maxSampCnt.toNat = 5 from rfl] at few
    rw [UInt8.toNat_add]
    exact Nat.mod_eq_of_lt (show thread.cnt.toNat + 1 < 256 by omega)
  have left : maxSampCnt.toNat - thread.cnt.toNat =
      maxSampCnt.toNat - (thread.cnt.toNat + 1) + 1 := by omega
  have allowed : Allowed thread.history (.readAD thread.i dev result) :=
    ⟨taking.device, by rw [taking.reads]; exact few, taking.selected⟩
  refine ⟨{ thread with
    cnt := thread.cnt + 1
    result := result
    history := .readAD thread.i dev result :: thread.history }, ?_, ⟨allowed, lawful⟩,
    { device := taking.device
      rtn := taking.rtn
      reads := ?_
      index := taking.index
      turn := taking.turn
      selected := taking.selected
      planned := ?_ }, ?_, ?_⟩
  · rw [SampThread.sample, if_pos taking.rtn.symm, read]
    rfl
  · rw [counted, readsSince, taking.reads]
  · rw [← taking.planned, left, roundsFrom_succ _ _ rest read, counted]
    exact reverse_cons_append _ _ _
  · rw [counted]
    exact Nat.succ_pos _
  · rw [counted]
    exact few

/-- The loop index moves on cyclically. -/
theorem toNat_next_index {i : UInt8} (index : i.toNat < 3) :
    ((i + 1) % maxAds1115Chl).toNat = (i.toNat + 1) % 3 := by
  rw [UInt8.toNat_mod, UInt8.toNat_add, show (1 : UInt8).toNat = 1 from rfl,
    Nat.mod_eq_of_lt (show i.toNat + 1 < 2 ^ 8 by omega)]
  rfl

theorem Taking.advance (taking : Taking dev plan rest thread) (lawful : Lawful thread.history)
    (positive : 0 < thread.cnt.toNat) (most : thread.cnt.toNat ≤ maxSampCnt.toNat) :
    SampInvariant dev plan rest thread.advance := by
  have done : ¬ .eok ≠ thread.rtn := fun differ => differ taking.rtn.symm
  by_cases full : maxSampCnt ≤ thread.cnt
  · have all : thread.cnt.toNat = maxSampCnt.toNat :=
      Nat.le_antisymm most (UInt8.le_iff_toNat_le.mp full)
    rw [SampThread.advance, if_pos (Or.inr full)]
    refine ⟨lawful, Or.inl ⟨rfl, ?_, ?_, ?_⟩⟩
    · exact (toNat_next_index taking.index).trans taking.turn.symm
    · intro last isLast
      obtain ⟨hcmd, configured, _⟩ := taking.selected
      rw [configured, Option.some.injEq] at isLast
      show readsSince thread.history = readsAfter last.2
      rw [← isLast, taking.reads, all]
      rfl
    · rw [← taking.planned, all, Nat.sub_self, roundsFrom_zero]
  · rw [SampThread.advance, if_neg (not_or.mpr ⟨done, full⟩)]
    refine ⟨lawful, Or.inr ⟨taking, positive, ?_⟩⟩
    exact UInt8.lt_iff_toNat_lt.mp (UInt8.not_le.mp full)

theorem Failed.advance (failed : Failed dev plan rest thread) (lawful : Lawful thread.history) :
    SampInvariant dev plan rest thread.advance := by
  rw [SampThread.advance, if_pos (Or.inl (Ne.symm failed.rtn))]
  refine ⟨lawful, Or.inl ⟨rfl, ?_, ?_, failed.planned⟩⟩
  · exact (toNat_next_index failed.index).trans failed.turn.symm
  · intro last isLast
    obtain ⟨hcmd, configured⟩ := failed.last
    have failing : readsAfter thread.rtn = 0 := if_neg failed.rtn
    have same : (hcmd, thread.rtn) = last := Option.some.inj (configured.symm.trans isLast)
    show readsSince thread.history = readsAfter last.2
    rw [← same, failing, failed.reads]

/-- One pass of the loop returns and does what is planned for its outcome. -/
theorem SampInvariant.pass (invariant : SampInvariant dev plan (bus :: rest) thread) :
    ∃ next, thread.pass dev bus = some next ∧ SampInvariant dev plan rest next := by
  obtain ⟨configured, first, lawful, ⟨taking, few⟩ | failed⟩ := invariant.configure
  · obtain ⟨sampled, second, sampledLawful, sampledTaking, positive, most⟩ :=
      taking.sample lawful few
    refine ⟨sampled.advance, ?_, sampledTaking.advance sampledLawful positive most⟩
    rw [SampThread.pass, first, Option.bind_eq_bind, Option.bind_some, second]
    rfl
  · refine ⟨configured.advance, ?_, failed.advance lawful⟩
    rw [SampThread.pass, first, Option.bind_eq_bind, Option.bind_some, SampThread.sample,
      if_neg (Ne.symm failed.rtn)]
    rfl

theorem SampInvariant.run {buses : List I2cBus}
    (invariant : SampInvariant dev plan buses thread) :
    ∃ last, thread.run dev buses = some last ∧ SampInvariant dev plan [] last := by
  induction buses generalizing thread with
  | nil => exact ⟨thread, rfl, invariant⟩
  | cons bus rest inductionHypothesis =>
      obtain ⟨next, passed, nextInvariant⟩ := invariant.pass
      obtain ⟨last, ran, kept⟩ := inductionHypothesis nextInvariant
      refine ⟨last, ?_, kept⟩
      rw [SampThread.run, List.foldlM_cons, passed]
      exact ran

/-- Whatever the bus answers and however long the loop runs, every pass returns,
everything the thread did was lawful, and it did exactly what the schedule says
for these outcomes. -/
theorem taskI2c1_lawful (dev : Option Ad111xDevice) (buses : List I2cBus) :
    ∃ thread, SampThread.begin.run dev buses = some thread ∧ Lawful thread.history ∧
      thread.history.reverse = schedule dev 0 buses := by
  obtain ⟨thread, ran, invariant⟩ := (SampThread.begin_invariant dev buses).run
  exact ⟨thread, ran, invariant.lawful, invariant.done⟩

/-- A bus that answers every transfer in full, with one reading. -/
def busReading (high low : BitVec 8) : I2cBus := fun _ flags bytes =>
  match flags with
  | .wr => ⟨UInt32.ofNat bytes.length, fun _ => 0⟩
  | .rd => ⟨UInt32.ofNat bytes.length, fun at_ => if at_ = 0 then high else low⟩

/-- A bus on which every transfer fails. -/
def busDown : I2cBus := fun _ _ _ => ⟨0, fun _ => 0⟩

/-- The first channel fails to be configured, the second is read five times with
one transfer failing, and the third has its turn. -/
theorem taskI2c1_second_channel :
    ∃ thread, SampThread.begin.run (some ⟨0x49⟩)
        [busDown, busReading 1 0, busReading 2 0, busDown, busReading 4 0, busReading 5 0,
          busReading 6 0] = some thread ∧
      thread.history.reverse =
        [.config 0x92 .error, .config 0xA2 .eok, .readAD 1 (some ⟨0x49⟩) 0x100,
          .readAD 1 (some ⟨0x49⟩) 0x200, .readAD 1 (some ⟨0x49⟩) 0,
          .readAD 1 (some ⟨0x49⟩) 0x400, .readAD 1 (some ⟨0x49⟩) 0x500, .config 0xB2 .eok,
          .readAD 2 (some ⟨0x49⟩) 0x600] := by
  obtain ⟨thread, ran, -, followed⟩ := taskI2c1_lawful (some ⟨0x49⟩)
    [busDown, busReading 1 0, busReading 2 0, busDown, busReading 4 0, busReading 5 0,
      busReading 6 0]
  refine ⟨thread, ran, ?_⟩
  rw [followed, schedule_failed _ rfl (by decide), schedule_eok _ rfl,
    show maxSampCnt.toNat = 5 from rfl]
  iterate 5 rw [roundsFrom_succ _ _ _ rfl]
  rw [roundsFrom_zero, schedule_eok _ rfl, show maxSampCnt.toNat = 4 + 1 from rfl,
    roundsFrom_succ _ _ _ rfl, roundsFrom_nil]
  decide

end RttIctl.Applications
