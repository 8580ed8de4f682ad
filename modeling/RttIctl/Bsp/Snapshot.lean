import RttIctl.Bsp.Encoder
import RttIctl.Lib.StepSystem

/-!
Owns a call of `getEncoder` load by load, interleaved with counts of both
encoders. The position of an encoder is put together from two loads, the
counter and the turns, in whichever order the compiler emits them; a count that
rolls over between the two tears it. The value stored is that of one instant of
the call when the turns are the same at both loads, and, as long as the counter
moves fewer than `MAX_TIMVAL` counts during the call, only then.

It does not own interrupt latency: the update interrupt is served at its wrap.
-/

namespace RttIctl.Bsp.Snapshot

open Lib (Rollover StepSystem countSign)
open Lib.StepSystem (History)
open Bsp.Encoder

/-- What is left to do for one encoder. -/
inductive Load where
  | dir
  | first
  | second
  | store
deriving DecidableEq, Repr

/-- A call in progress: the encoders, where the call is (`none` once it has
returned), and the two operands in registers. -/
structure Call where
  enc : State
  pc : Option (Fin 2 × Load)
  cnt : Fin (maxTimval + 1)
  circle : BitVec 8

inductive Label where
  | fetch
  | count (k : Fin 2) (down : Bool)
deriving DecidableEq, Repr

def Call.setEntry (c : Call) (k : Fin 2) (entry : CtrlEncoder) : Call :=
  { c with enc := { c.enc with ctrlEnc := Function.update c.enc.ctrlEnc k entry } }

def Call.loadCnt (c : Call) (k : Fin 2) : Call := { c with cnt := (c.enc.tim (timerOf k)).cnt }

def Call.loadCircle (c : Call) (k : Fin 2) : Call := { c with circle := (c.enc.ctrlEnc k).circle }

/-- `CNT + circle * MAX_TIMVAL` in the types of the source. -/
def position (cnt : Fin (maxTimval + 1)) (circle : BitVec 8) : BitVec 32 :=
  BitVec.ofNat 32 cnt.val + circle.signExtend 32 * BitVec.ofNat 32 maxTimval

/-- One load or store of the call. `cntFirst k` says in which order the operands
of an encoder are loaded. -/
def fetch (cntFirst : Fin 2 → Bool) (c : Call) : Option Call :=
  match c.pc with
  | none => none
  | some (k, .dir) =>
      some { c.setEntry k { c.enc.ctrlEnc k with
        dir := if (c.enc.tim (timerOf k)).dir then 1 else 0 } with pc := some (k, .first) }
  | some (k, .first) =>
      some { (if cntFirst k then c.loadCnt k else c.loadCircle k) with pc := some (k, .second) }
  | some (k, .second) =>
      some { (if cntFirst k then c.loadCircle k else c.loadCnt k) with pc := some (k, .store) }
  | some (k, .store) =>
      some { c.setEntry k { c.enc.ctrlEnc k with val := position c.cnt c.circle } with
        pc := if k = entry0 then some (entry1, .dir) else none }

/-- A call from any state of the encoders. What the registers hold before the
loads does not matter. -/
def callSystem (cntFirst : Fin 2 → Bool) (start : State) : StepSystem Call Label where
  init :=
    { enc := start
      pc := some (entry0, .dir)
      cnt := (start.tim (timerOf entry0)).cnt
      circle := 0 }
  step c label :=
    match label with
    | .fetch => fetch cntFirst c
    | .count k down => if c.pc = none then none else some { c with enc := count c.enc k down }

/-- The position of an encoder at one instant. -/
def Call.instant (c : Call) (k : Fin 2) : BitVec 32 :=
  position (c.enc.tim (timerOf k)).cnt (c.enc.ctrlEnc k).circle

/-- The instants of a call: before each of its steps, and after the last. -/
def instants (past : List (Call × Label)) (c : Call) : List Call := c :: past.map Prod.fst

/-- The value stored for an encoder is that of one instant of the call. -/
def Consistent (k : Fin 2) (past : List (Call × Label)) (c : Call) : Prop :=
  ∃ i ∈ instants past c, (c.enc.ctrlEnc k).val = i.instant k

/-- The step loads one of the operands of an encoder. -/
def LoadsOperand (k : Fin 2) (entry : Call × Label) : Prop :=
  entry.2 = .fetch ∧ (entry.1.pc = some (k, .first) ∨ entry.1.pc = some (k, .second))

/-- The turns of an encoder are the same at the loads of both its operands. -/
def CircleKept (k : Fin 2) (past : List (Call × Label)) : Prop :=
  ∀ a ∈ past, ∀ b ∈ past, LoadsOperand k a → LoadsOperand k b →
    (a.1.enc.ctrlEnc k).circle = (b.1.enc.ctrlEnc k).circle

instance (k : Fin 2) (past : List (Call × Label)) (c : Call) : Decidable (Consistent k past c) :=
  inferInstanceAs (Decidable (∃ i ∈ instants past c, (c.enc.ctrlEnc k).val = i.instant k))

instance (k : Fin 2) (entry : Call × Label) : Decidable (LoadsOperand k entry) :=
  inferInstanceAs (Decidable (_ ∧ (_ ∨ _)))

instance (k : Fin 2) (past : List (Call × Label)) : Decidable (CircleKept k past) :=
  inferInstanceAs (Decidable (∀ a ∈ past, ∀ b ∈ past, LoadsOperand k a → LoadsOperand k b →
    (a.1.enc.ctrlEnc k).circle = (b.1.enc.ctrlEnc k).circle))

/-- How often the counter of an encoder moves during a call. -/
def moves (k : Fin 2) (past : List (Call × Label)) : Nat :=
  past.countP fun entry => entry.2 == .count k true || entry.2 == .count k false

/-! ### Which loads the stored value comes from -/

/-- Where the call is with respect to one encoder. -/
inductive Phase where
  | before
  | half
  | loaded
  | stored
deriving DecidableEq, Repr

def phase (k : Fin 2) : Option (Fin 2 × Load) → Phase
  | none => .stored
  | some (j, load) =>
      if j < k then .before
      else if k < j then .stored
      else match load with
        | .dir => .before
        | .first => .before
        | .second => .half
        | .store => .loaded

/-- A value put together from the two operand loads of an encoder in the past,
of which there are no others. -/
def FromLoads (k : Fin 2) (past : List (Call × Label)) (value : BitVec 32) : Prop :=
  ∃ a ∈ past, ∃ b ∈ past, LoadsOperand k a ∧ LoadsOperand k b ∧
    value = position (a.1.enc.tim (timerOf k)).cnt (b.1.enc.ctrlEnc k).circle ∧
    ∀ entry ∈ past, LoadsOperand k entry → entry = a ∨ entry = b

/-- What the past of a call says about its registers and what it has stored. -/
def Progress (cntFirst : Fin 2 → Bool) (k : Fin 2) (past : List (Call × Label)) (c : Call) : Prop :=
  match phase k c.pc with
  | .before => ∀ entry ∈ past, ¬ LoadsOperand k entry
  | .half => ∃ a ∈ past, LoadsOperand k a ∧
      (if cntFirst k then c.cnt = (a.1.enc.tim (timerOf k)).cnt
        else c.circle = (a.1.enc.ctrlEnc k).circle) ∧
      ∀ entry ∈ past, LoadsOperand k entry → entry = a
  | .loaded => FromLoads k past (position c.cnt c.circle)
  | .stored => FromLoads k past (c.enc.ctrlEnc k).val

section

variable {cntFirst : Fin 2 → Bool} {start : State} {k : Fin 2} {past : List (Call × Label)}
variable {c c' : Call}

theorem FromLoads.later {value : BitVec 32} {entry : Call × Label}
    (from_ : FromLoads k past value) (other : ¬ LoadsOperand k entry) :
    FromLoads k (entry :: past) value := by
  obtain ⟨a, aPast, b, bPast, aLoads, bLoads, same, only⟩ := from_
  refine ⟨a, .tail _ aPast, b, .tail _ bPast, aLoads, bLoads, same, ?_⟩
  intro e ePast loads
  cases ePast with
  | head => exact absurd loads other
  | tail _ earlier => exact only e earlier loads

theorem phase_own (k : Fin 2) :
    phase k (some (k, .dir)) = .before ∧ phase k (some (k, .first)) = .before ∧
      phase k (some (k, .second)) = .half ∧ phase k (some (k, .store)) = .loaded ∧
      phase k (if k = 0 then some (1, .dir) else none) = .stored := by
  revert k
  decide

/-- While the call is at the other encoder, this one is untouched or done. -/
theorem phase_other {j k : Fin 2} (other : j ≠ k) (load : Load) :
    phase k (some (j, load)) = (if j < k then .before else .stored) ∧
      phase k (if j = 0 then some (1, .dir) else none) = (if j < k then .before else .stored) := by
  cases load <;> revert j k <;> decide

theorem count_val (s : State) (j k : Fin 2) (down : Bool) :
    ((count s j down).ctrlEnc k).val = (s.ctrlEnc k).val := by
  by_cases same : j = k
  · subst same
    unfold count
    split
    · rw [callback_timerOf]
      simp [State.setCircle, State.move]
    · rfl
  · rw [count_ctrlEnc_other same]

/-- Steps that load no operand of this encoder and leave its phase, its stored
value and, between its loads and its store, the registers as they are. -/
theorem Progress.kept {entry : Call × Label} (before : Progress cntFirst k past c)
    (other : ¬ LoadsOperand k entry) (samePhase : phase k c'.pc = phase k c.pc)
    (sameVal : (c'.enc.ctrlEnc k).val = (c.enc.ctrlEnc k).val)
    (sameRegs : phase k c.pc = .half ∨ phase k c.pc = .loaded →
      c'.cnt = c.cnt ∧ c'.circle = c.circle) :
    Progress cntFirst k (entry :: past) c' := by
  unfold Progress at before ⊢
  rw [samePhase]
  cases inPhase : phase k c.pc with
  | before =>
      rw [inPhase] at before
      exact List.forall_mem_cons.mpr ⟨other, before⟩
  | half =>
      rw [inPhase] at before
      obtain ⟨cnt, circle⟩ := sameRegs (.inl inPhase)
      obtain ⟨a, aPast, loads, held, only⟩ := before
      rw [← cnt, ← circle] at held
      exact ⟨a, .tail _ aPast, loads, held,
        List.forall_mem_cons.mpr ⟨fun own => absurd own other, only⟩⟩
  | loaded =>
      rw [inPhase] at before
      obtain ⟨cnt, circle⟩ := sameRegs (.inr inPhase)
      rw [cnt, circle]
      exact before.later other
  | stored =>
      rw [inPhase] at before
      rw [sameVal]
      exact before.later other

/-- A fetch for the other encoder. -/
theorem Progress.fetch_other {j : Fin 2} {load : Load} (other : j ≠ k)
    (at_ : c.pc = some (j, load)) (before : Progress cntFirst k past c)
    (taken : fetch cntFirst c = some c') : Progress cntFirst k ((c, .fetch) :: past) c' := by
  have notOwn : ¬ LoadsOperand k (c, .fetch) := by
    rintro ⟨-, first | second⟩
    · rw [at_] at first
      exact other (congrArg Prod.fst (Option.some.inj first))
    · rw [at_] at second
      exact other (congrArg Prod.fst (Option.some.inj second))
  have phaseNow := (phase_other other load).1
  have settled : ¬ (phase k c.pc = .half ∨ phase k c.pc = .loaded) := by
    rw [at_, phaseNow]
    split <;> simp
  simp only [fetch, at_] at taken
  cases load with
  | dir =>
      cases taken
      refine before.kept notOwn ?_ ?_ (absurd · settled)
      · rw [at_, phaseNow, (phase_other other .first).1]
      · simp [Call.setEntry, Ne.symm other]
  | first =>
      cases taken
      refine before.kept notOwn ?_ ?_ (absurd · settled)
      · rw [at_, phaseNow, (phase_other other .second).1]
      · dsimp only
        split <;> rfl
  | second =>
      cases taken
      refine before.kept notOwn ?_ ?_ (absurd · settled)
      · rw [at_, phaseNow, (phase_other other .store).1]
      · dsimp only
        split <;> rfl
  | store =>
      cases taken
      refine before.kept notOwn ?_ ?_ (absurd · settled)
      · rw [at_, phaseNow, (phase_other other .store).2]
      · simp [Call.setEntry, Ne.symm other]

/-- The first operand: it is the only load so far. -/
theorem Progress.fetch_first (at_ : c.pc = some (k, .first)) (before : Progress cntFirst k past c)
    (taken : fetch cntFirst c = some c') : Progress cntFirst k ((c, .fetch) :: past) c' := by
  simp only [fetch, at_, Option.some.injEq] at taken
  subst taken
  have none : ∀ entry ∈ past, ¬ LoadsOperand k entry := by
    simpa only [Progress, at_, (phase_own k).2.1] using before
  simp only [Progress, (phase_own k).2.2.1]
  refine ⟨_, .head _, ⟨rfl, .inl at_⟩, ?_, ?_⟩
  · cases cntFirst k with
    | true => rfl
    | false => rfl
  · exact List.forall_mem_cons.mpr ⟨fun _ => rfl, fun e ePast loads => absurd loads (none e ePast)⟩

/-- The second operand: the value is put together from the two loads. -/
theorem Progress.fetch_second (at_ : c.pc = some (k, .second))
    (before : Progress cntFirst k past c) (taken : fetch cntFirst c = some c') :
    Progress cntFirst k ((c, .fetch) :: past) c' := by
  simp only [fetch, at_, Option.some.injEq] at taken
  subst taken
  simp only [Progress, at_, (phase_own k).2.2.1] at before
  obtain ⟨a, aPast, loads, held, only⟩ := before
  have now : LoadsOperand k (c, .fetch) := ⟨rfl, .inr at_⟩
  simp only [Progress, (phase_own k).2.2.2.1]
  cases order : cntFirst k with
  | true =>
      rw [order, if_pos rfl] at held
      refine ⟨a, .tail _ aPast, _, .head _, loads, now, by rw [← held]; rfl, ?_⟩
      exact List.forall_mem_cons.mpr ⟨fun _ => .inr rfl, fun e ePast own => .inl (only e ePast own)⟩
  | false =>
      rw [order, if_neg (by decide)] at held
      refine ⟨_, .head _, a, .tail _ aPast, now, loads, by rw [← held]; rfl, ?_⟩
      exact List.forall_mem_cons.mpr ⟨fun _ => .inl rfl, fun e ePast own => .inr (only e ePast own)⟩

theorem Progress.fetch_own {load : Load} (at_ : c.pc = some (k, load))
    (before : Progress cntFirst k past c) (taken : fetch cntFirst c = some c') :
    Progress cntFirst k ((c, .fetch) :: past) c' := by
  cases load with
  | first => exact before.fetch_first at_ taken
  | second => exact before.fetch_second at_ taken
  | dir =>
      simp only [fetch, at_, Option.some.injEq] at taken
      subst taken
      refine before.kept (by simp [LoadsOperand, at_]) ?_ ?_ ?_
      · rw [at_, (phase_own k).1, (phase_own k).2.1]
      · simp [Call.setEntry]
      · rw [at_, (phase_own k).1]
        simp
  | store =>
      simp only [fetch, at_, Option.some.injEq] at taken
      subst taken
      have loaded : FromLoads k past (position c.cnt c.circle) := by
        simpa only [Progress, at_, (phase_own k).2.2.2.1] using before
      have other : ¬ LoadsOperand k (c, .fetch) := by simp [LoadsOperand, at_]
      have stored := loaded.later other
      simpa only [Progress, (phase_own k).2.2.2.2, Call.setEntry, Function.update_self] using stored

theorem progress (history : (callSystem cntFirst start).History past c) (k : Fin 2) :
    Progress cntFirst k past c := by
  induction history with
  | init =>
      have before : phase k (some (0, .dir)) = .before := by
        revert k
        decide
      simp [Progress, callSystem, before]
  | @step past c c' label _ taken inductionHypothesis =>
      cases label with
      | fetch =>
          cases at_ : c.pc with
          | none => simp [callSystem, fetch, at_] at taken
          | some pc =>
              by_cases own : pc.1 = k
              · exact inductionHypothesis.fetch_own (by rw [at_, ← own]) taken
              · exact inductionHypothesis.fetch_other own at_ taken
      | count j down =>
          simp only [callSystem] at taken
          split at taken
          · cases taken
          · cases taken
            exact inductionHypothesis.kept (by simp [LoadsOperand]) rfl (count_val _ _ _ _)
              fun _ => ⟨rfl, rfl⟩

/-! ### How far the counter gets during a call -/

/-- The encoder stands, in position and turns, for a net count in the
interval. -/
def TrackedIn (k : Fin 2) (low high : Int) (c : Call) : Prop :=
  ∃ r : Rollover maxTimval, Tracks c.enc k r ∧ low ≤ r.value ∧ r.value ≤ high

theorem TrackedIn.mono {low low' high high' : Int} (tracked : TrackedIn k low high c)
    (lower : low' ≤ low) (higher : high ≤ high') : TrackedIn k low' high' c := by
  obtain ⟨r, tracks, above, below⟩ := tracked
  exact ⟨r, tracks, by omega, by omega⟩

/-- A count of the encoder lengthens the interval by one. -/
theorem TrackedIn.count_own {low high : Int} (tracked : TrackedIn k low high c) (down : Bool) :
    ∃ low' high' : Int, low' ≤ low ∧ high ≤ high' ∧ high' - low' = high - low + 1 ∧
      TrackedIn k low' high' { c with enc := count c.enc k down } := by
  obtain ⟨r, tracks, above, below⟩ := tracked
  have moved := Rollover.value_count r down
  have new := count_tracks down tracks
  cases down with
  | true =>
      simp only [countSign, if_true] at moved
      exact ⟨low - 1, high, by omega, le_rfl, by omega, _, new, by omega, by omega⟩
  | false =>
      simp only [countSign, Bool.false_eq_true, if_false] at moved
      exact ⟨low, high + 1, le_rfl, by omega, by omega, _, new, by omega, by omega⟩

/-- A load or store moves no counter and changes no turns. -/
theorem fetch_keeps (taken : fetch cntFirst c = some c') :
    c'.enc.tim = c.enc.tim ∧ ∀ k, (c'.enc.ctrlEnc k).circle = (c.enc.ctrlEnc k).circle := by
  have entry : ∀ (j : Fin 2) (new : CtrlEncoder), new.circle = (c.enc.ctrlEnc j).circle → ∀ k,
      (Function.update c.enc.ctrlEnc j new k).circle = (c.enc.ctrlEnc k).circle := by
    intro j new same k
    by_cases own : k = j
    · subst own
      rw [Function.update_self, same]
    · rw [Function.update_of_ne own]
  cases at_ : c.pc with
  | none => simp [fetch, at_] at taken
  | some pc =>
      obtain ⟨j, load⟩ := pc
      simp only [fetch, at_] at taken
      cases load with
      | dir =>
          cases taken
          exact ⟨rfl, entry j _ rfl⟩
      | first =>
          cases taken
          dsimp only
          split <;> exact ⟨rfl, fun _ => rfl⟩
      | second =>
          cases taken
          dsimp only
          split <;> exact ⟨rfl, fun _ => rfl⟩
      | store =>
          cases taken
          exact ⟨rfl, entry j _ rfl⟩

theorem moves_count (k j : Fin 2) (down : Bool) (c : Call) (past : List (Call × Label)) :
    moves k ((c, .count j down) :: past) = moves k past + if j = k then 1 else 0 := by
  simp only [moves, List.countP_cons]
  by_cases same : j = k
  · cases down <;> simp [same]
  · simp [same]

/-- During a call the net count of an encoder stays in an interval no longer
than the number of its moves. -/
theorem tracked_within_moves (history : (callSystem cntFirst start).History past c) (k : Fin 2) :
    ∃ low high : Int, high - low ≤ moves k past ∧
      ∀ i ∈ instants past c, TrackedIn k low high i := by
  induction history with
  | init =>
      let r : Rollover maxTimval := ⟨(start.tim (timerOf k)).cnt, (start.ctrlEnc k).circle.toInt⟩
      refine ⟨r.value, r.value, by simp [moves], ?_⟩
      intro i isInstant
      obtain rfl : i = (callSystem cntFirst start).init := by simpa [instants] using isInstant
      exact ⟨r, ⟨rfl, BitVec.ofInt_toInt.symm⟩, le_refl _, le_refl _⟩
  | @step past c c' label _ taken inductionHypothesis =>
      obtain ⟨low, high, short, all⟩ := inductionHypothesis
      have now : TrackedIn k low high c := all c (.head _)
      -- the instants of the longer past are the new state and those before
      have extend : ∀ low' high', low' ≤ low → high ≤ high' → TrackedIn k low' high' c' →
          ∀ i ∈ instants ((c, label) :: past) c', TrackedIn k low' high' i := by
        intro low' high' lower higher new
        exact List.forall_mem_cons.mpr ⟨new, fun i earlier => (all i earlier).mono lower higher⟩
      cases label with
      | fetch =>
          obtain ⟨tim, circle⟩ := fetch_keeps taken
          obtain ⟨r, tracks, above, below⟩ := now
          refine ⟨low, high, by simpa [moves] using short, extend low high le_rfl le_rfl ?_⟩
          exact ⟨r, ⟨by rw [tim]; exact tracks.pos, by rw [circle]; exact tracks.turns⟩, above,
            below⟩
      | count j down =>
          simp only [callSystem] at taken
          split at taken
          · cases taken
          · cases taken
            by_cases own : j = k
            · subst own
              obtain ⟨low', high', lower, higher, longer, new⟩ := now.count_own down
              refine ⟨low', high', ?_, extend _ _ lower higher new⟩
              rw [moves_count, if_pos rfl]
              omega
            · obtain ⟨r, tracks, above, below⟩ := now
              refine ⟨low, high, ?_, extend _ _ le_rfl le_rfl ?_⟩
              · rw [moves_count, if_neg own]
                omega
              · exact ⟨r, count_other own down tracks, above, below⟩

/-! ### A tear is a whole turn -/

/-- A position as an integer: nothing wraps. -/
theorem position_toInt (cnt : Fin (maxTimval + 1)) (circle : BitVec 8) :
    (position cnt circle).toInt = cnt.val + circle.toInt * 20000 := by
  have tracks : Tracks ⟨fun _ => ⟨cnt, false⟩, fun _ => ⟨0, 0, circle⟩⟩ 0 ⟨cnt, circle.toInt⟩ :=
    ⟨rfl, BitVec.ofInt_toInt.symm⟩
  have value := val_toInt tracks
  rw [BitVec.ofInt_toInt] at value
  exact value

theorem toInt_ofInt_turns (turns : Int) :
    ∃ wraps : Int, (BitVec.ofInt 8 turns).toInt = turns - 256 * wraps ∧
      -128 ≤ turns - 256 * wraps ∧ turns - 256 * wraps < 128 := by
  have low := BitVec.le_toInt (BitVec.ofInt 8 turns)
  have high : (BitVec.ofInt 8 turns).toInt < 2 ^ (8 - 1) := BitVec.toInt_lt
  have wrapped : (BitVec.ofInt 8 turns).toInt + 256 * turns.bdiv 256 = turns := by
    rw [BitVec.toInt_ofInt]
    exact Int.bmod_add_bdiv turns 256
  generalize (BitVec.ofInt 8 turns).toInt = circle at *
  norm_num at low high
  exact ⟨turns.bdiv 256, by omega, by omega, by omega⟩

/-- Three instants less than `MAX_TIMVAL` counts apart: the counter of the first
with the turns of the second is the position of the third only if the first two
have the same turns. -/
theorem turns_eq_of_position_eq {a b i : Rollover maxTimval} {low high : Int}
    (short : high - low < 20000) (aIn : low ≤ a.value ∧ a.value ≤ high)
    (bIn : low ≤ b.value ∧ b.value ≤ high) (iIn : low ≤ i.value ∧ i.value ≤ high)
    (same : position a.pos (BitVec.ofInt 8 b.turns) = position i.pos (BitVec.ofInt 8 i.turns)) :
    a.turns = b.turns := by
  have equal := congrArg BitVec.toInt same
  rw [position_toInt, position_toInt] at equal
  obtain ⟨bWraps, bEq, bLow, bHigh⟩ := toInt_ofInt_turns b.turns
  obtain ⟨iWraps, iEq, iLow, iHigh⟩ := toInt_ofInt_turns i.turns
  rw [bEq, iEq] at equal
  have aPos : a.pos.val ≤ 20000 := Nat.le_of_lt_succ a.pos.isLt
  have bPos : b.pos.val ≤ 20000 := Nat.le_of_lt_succ b.pos.isLt
  have iPos : i.pos.val ≤ 20000 := Nat.le_of_lt_succ i.pos.isLt
  simp only [Rollover.value, show ((maxTimval : Nat) : Int) = 20000 from rfl] at aIn bIn iIn
  omega

/-! ### Whole calls -/

/-- With the same turns at both loads, the value is that of the instant at which
the counter was loaded. -/
theorem consistent_of_circleKept (history : (callSystem cntFirst start).History past c)
    (returned : c.pc = none) (kept : CircleKept k past) : Consistent k past c := by
  have stored : FromLoads k past (c.enc.ctrlEnc k).val := by
    simpa only [Progress, returned, phase] using progress history k
  obtain ⟨a, aPast, b, bPast, aLoads, bLoads, value, -⟩ := stored
  refine ⟨a.1, .tail _ (List.mem_map_of_mem aPast), ?_⟩
  rw [value, kept b bPast a aPast bLoads aLoads]
  rfl

theorem circleKept_of_consistent (history : (callSystem cntFirst start).History past c)
    (returned : c.pc = none) (short : moves k past < maxTimval)
    (consistent : Consistent k past c) : CircleKept k past := by
  have stored : FromLoads k past (c.enc.ctrlEnc k).val := by
    simpa only [Progress, returned, phase] using progress history k
  obtain ⟨a, aPast, b, bPast, -, -, value, only⟩ := stored
  obtain ⟨i, isInstant, same⟩ := consistent
  obtain ⟨low, high, length, all⟩ := tracked_within_moves history k
  obtain ⟨aRoll, aTracks, aIn⟩ := all a.1 (.tail _ (List.mem_map_of_mem aPast))
  obtain ⟨bRoll, bTracks, bIn⟩ := all b.1 (.tail _ (List.mem_map_of_mem bPast))
  obtain ⟨iRoll, iTracks, iIn⟩ := all i isInstant
  have limit : maxTimval = 20000 := rfl
  rw [value, Call.instant, aTracks.pos, bTracks.turns, iTracks.pos, iTracks.turns] at same
  have turns := turns_eq_of_position_eq (by omega) aIn bIn iIn same
  have equal : (a.1.enc.ctrlEnc k).circle = (b.1.enc.ctrlEnc k).circle := by
    rw [aTracks.turns, bTracks.turns, turns]
  intro e ePast f fPast eLoads fLoads
  obtain rfl | rfl := only e ePast eLoads <;> obtain rfl | rfl := only f fPast fLoads
  · rfl
  · exact equal
  · exact equal.symm
  · rfl

end

/-- A call of `getEncoder` in any interleaving with counts of both encoders, and
with either order of the operand loads of each. For each encoder the value
stored is the position at one instant of the call whenever its turns are the
same at its two loads; and in a call with fewer than `MAX_TIMVAL` counts of the
encoder, only then. -/
theorem getEncoder_snapshot (cntFirst : Fin 2 → Bool) (start : State)
    (past : List (Call × Label)) (c : Call)
    (history : (callSystem cntFirst start).History past c) (returned : c.pc = none) (k : Fin 2) :
    (CircleKept k past → Consistent k past c) ∧
      (moves k past < maxTimval → Consistent k past c → CircleKept k past) :=
  ⟨consistent_of_circleKept history returned, circleKept_of_consistent history returned⟩

/-- A call with one count of the first encoder, down from zero: after its value
is stored, or between the loads of its operands. -/
def countAfter : List Label :=
  [.fetch, .fetch, .fetch, .fetch, .count entry0 true, .fetch, .fetch, .fetch, .fetch]

def countBetween : List Label :=
  [.fetch, .fetch, .count entry0 true, .fetch, .fetch, .fetch, .fetch, .fetch, .fetch]

theorem getEncoder_snapshot_countAfter :
    Consistent 0 ((callSystem (fun _ => true) encoderInit).log countAfter).1
      ((callSystem (fun _ => true) encoderInit).log countAfter).2 :=
  (getEncoder_snapshot (fun _ => true) encoderInit _ _ (StepSystem.log_history countAfter)
    (by decide +kernel) 0).1 (by decide +kernel)

/-- Both orders of the loads tear: every instant of the call reads zero, and the
value stored is a turn below or a turn above. -/
theorem getEncoder_tears :
    ((callSystem (fun _ => true) encoderInit).log countBetween).2.pc = none ∧
      ((callSystem (fun _ => false) encoderInit).log countBetween).2.pc = none ∧
      ¬ Consistent 0 ((callSystem (fun _ => true) encoderInit).log countBetween).1
        ((callSystem (fun _ => true) encoderInit).log countBetween).2 ∧
      ¬ Consistent 0 ((callSystem (fun _ => false) encoderInit).log countBetween).1
        ((callSystem (fun _ => false) encoderInit).log countBetween).2 ∧
      (((callSystem (fun _ => true) encoderInit).log countBetween).2.enc.ctrlEnc 0).val = -20000 ∧
      (((callSystem (fun _ => false) encoderInit).log countBetween).2.enc.ctrlEnc 0).val =
        20000 := by
  decide +kernel

end RttIctl.Bsp.Snapshot
