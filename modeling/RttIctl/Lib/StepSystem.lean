import Mathlib.Logic.Relation

/-!
Owns partial step systems: a step function over states and labels, the
histories it produces, reachability through admitted steps, the futures of a
state, and the induction rules used with them. `Reaches.invariant` carries an
invariant along admitted steps only; `History.always_iff` says exactly which
steps a property of every state of a history depends on.

It does not own any state type, label type or admission condition.
-/

namespace RttIctl.Lib

universe u v

/-- A deterministic system driven by labels. The label carries the scheduling
choice and every outcome the environment decides; `none` means the label is
not enabled. -/
structure StepSystem (σ : Type u) (ι : Type v) where
  init : σ
  step : σ → ι → Option σ

namespace StepSystem

variable {σ : Type u} {ι : Type v} (sys : StepSystem σ ι)

/-- Run a schedule from a state, stopping at the first label that is not
enabled or whose pre-state does not pass the check. -/
def runWhile (check : σ → ι → Bool) : σ → List ι → σ
  | s, [] => s
  | s, label :: rest =>
      if check s label then
        match sys.step s label with
        | some next => runWhile check next rest
        | none => s
      else s

/-- Run a schedule from the start, stopping at the first label that is not
enabled. -/
def run (schedule : List ι) : σ := sys.runWhile (fun _ _ => true) sys.init schedule

/-- Run a schedule from the start as far as it is enabled, with the steps
taken. -/
def log (schedule : List ι) : List (σ × ι) × σ :=
  schedule.foldl (fun entry label =>
    match sys.step entry.2 label with
    | some next => ((entry.2, label) :: entry.1, next)
    | none => entry) ([], sys.init)

/-- States reached from the start through steps that `admits` allows. -/
inductive Reaches (admits : σ → ι → Prop) : σ → Prop where
  | init : Reaches admits sys.init
  | step {s s' : σ} {label : ι} (before : Reaches admits s) (admitted : admits s label)
      (taken : sys.step s label = some s') : Reaches admits s'

/-- States reached by any schedule at all. -/
def Reachable : σ → Prop := sys.Reaches fun _ _ => True

/-- The second state is one of the futures of the first. -/
def Leads : σ → σ → Prop := Relation.ReflTransGen fun s s' => ∃ label, sys.step s label = some s'

/-- A history: the steps taken so far (latest first, each with its pre-state)
and the state they lead to. -/
inductive History : List (σ × ι) → σ → Prop where
  | init : History [] sys.init
  | step {past : List (σ × ι)} {s s' : σ} {label : ι} (before : History past s)
      (taken : sys.step s label = some s') : History ((s, label) :: past) s'

variable {sys}

theorem Reaches.mono {admits weaker : σ → ι → Prop}
    (imply : ∀ s label, admits s label → weaker s label) {s : σ}
    (reach : sys.Reaches admits s) : sys.Reaches weaker s := by
  induction reach with
  | init => exact .init
  | step _ admitted taken inductionHypothesis =>
      exact .step inductionHypothesis (imply _ _ admitted) taken

theorem Reaches.reachable {admits : σ → ι → Prop} {s : σ}
    (reach : sys.Reaches admits s) : sys.Reachable s :=
  reach.mono fun _ _ _ => trivial

theorem Reaches.next {admits : σ → ι → Prop} {s : σ} (reach : sys.Reaches admits s) (label : ι)
    (admitted : admits s label) (enabled : (sys.step s label).isSome = true) :
    sys.Reaches admits ((sys.step s label).get enabled) :=
  reach.step admitted (Option.some_get enabled).symm

/-- Induction over admitted steps. -/
theorem Reaches.invariant {admits : σ → ι → Prop} {s : σ} (reach : sys.Reaches admits s)
    (Inv : σ → Prop) (start : Inv sys.init)
    (preserved : ∀ s label s', Inv s → admits s label → sys.step s label = some s' → Inv s') :
    Inv s := by
  induction reach with
  | init => exact start
  | step _ admitted taken inductionHypothesis =>
      exact preserved _ _ _ inductionHypothesis admitted taken

/-- Induction over admitted steps that may use an invariant already known of
every state reached. -/
theorem Reaches.invariant_of {admits : σ → ι → Prop} {s : σ} (reach : sys.Reaches admits s)
    {Known : σ → Prop} (known : ∀ s, sys.Reaches admits s → Known s)
    (Inv : σ → Prop) (start : Inv sys.init)
    (preserved : ∀ s label s', Known s → Inv s → admits s label →
      sys.step s label = some s' → Inv s') :
    Inv s := by
  induction reach with
  | init => exact start
  | step before admitted taken inductionHypothesis =>
      exact preserved _ _ _ (known _ before) inductionHypothesis admitted taken

/-- Induction over the futures of a state. -/
theorem Leads.invariant {s s' : σ} (leads : sys.Leads s s') (Inv : σ → Prop) (start : Inv s)
    (preserved : ∀ s label s', Inv s → sys.step s label = some s' → Inv s') : Inv s' := by
  induction leads with
  | refl => exact start
  | tail _ taken inductionHypothesis =>
      obtain ⟨label, ran⟩ := taken
      exact preserved _ label _ inductionHypothesis ran

/-- A schedule whose check is enough for admission goes on from any state
reached. -/
theorem Reaches.runWhile {admits : σ → ι → Prop} {check : σ → ι → Bool}
    (enough : ∀ s label, check s label = true → admits s label) (schedule : List ι) {s : σ}
    (reach : sys.Reaches admits s) : sys.Reaches admits (sys.runWhile check s schedule) := by
  induction schedule generalizing s with
  | nil => exact reach
  | cons label rest inductionHypothesis =>
      simp only [StepSystem.runWhile]
      split
      · next passes =>
          split
          · next _ taken => exact inductionHypothesis (.step reach (enough _ _ passes) taken)
          · exact reach
      · exact reach

/-- A checked schedule only takes admitted steps. -/
theorem runWhile_reaches (sys : StepSystem σ ι) (check : σ → ι → Bool) (schedule : List ι) :
    sys.Reaches (fun s label => check s label = true) (sys.runWhile check sys.init schedule) :=
  Reaches.init.runWhile (fun _ _ passes => passes) schedule

theorem run_reachable (sys : StepSystem σ ι) (schedule : List ι) :
    sys.Reachable (sys.run schedule) :=
  (sys.runWhile_reaches (fun _ _ => true) schedule).reachable

private theorem log_history_from (schedule : List ι) {past : List (σ × ι)} {s : σ}
    (history : sys.History past s) :
    let entry := schedule.foldl (fun entry label =>
      match sys.step entry.2 label with
      | some next => ((entry.2, label) :: entry.1, next)
      | none => entry) (past, s)
    sys.History entry.1 entry.2 := by
  induction schedule generalizing past s with
  | nil => exact history
  | cons label rest inductionHypothesis =>
      simp only [List.foldl_cons]
      split
      · next _ taken => exact inductionHypothesis (.step history taken)
      · exact inductionHypothesis history

theorem log_history (schedule : List ι) :
    sys.History (sys.log schedule).1 (sys.log schedule).2 :=
  log_history_from schedule .init

/-- Every pre-state of the history and its final state satisfy `Holds`. -/
def Always (Holds : σ → Prop) (past : List (σ × ι)) (s : σ) : Prop :=
  (∀ entry ∈ past, Holds entry.1) ∧ Holds s

/-- Every step of the history satisfies `meets` in its pre-state. -/
def EveryStep (meets : σ → ι → Prop) (past : List (σ × ι)) : Prop :=
  ∀ entry ∈ past, meets entry.1 entry.2

/-- Induction over a history all of whose steps satisfy `meets`. -/
theorem History.invariant {past : List (σ × ι)} {s : σ} (history : sys.History past s)
    {meets : σ → ι → Prop} (met : EveryStep meets past) (Inv : List (σ × ι) → σ → Prop)
    (start : Inv [] sys.init)
    (preserved : ∀ past s label s', Inv past s → meets s label → sys.step s label = some s' →
      Inv ((s, label) :: past) s') : Inv past s := by
  induction history with
  | init => exact start
  | step _ taken inductionHypothesis =>
      obtain ⟨now, earlier⟩ := List.forall_mem_cons.mp met
      exact preserved _ _ _ _ (inductionHypothesis earlier) now taken

theorem History.reachable {past : List (σ × ι)} {s : σ} (history : sys.History past s) :
    sys.Reachable s := by
  induction history with
  | init => exact .init
  | step _ taken inductionHypothesis => exact inductionHypothesis.step trivial taken

/-- Induction over the latest part of a history, all of whose steps satisfy
`meets`. Every state on the way is reachable. -/
theorem History.invariant_since {recent earlier : List (σ × ι)} {s : σ}
    (history : sys.History (recent ++ earlier) s) {meets : σ → ι → Prop}
    (met : EveryStep meets recent) (Inv : List (σ × ι) → σ → Prop)
    (start : ∀ s, sys.History earlier s → Inv [] s)
    (preserved : ∀ recent s label s', sys.Reachable s → Inv recent s → meets s label →
      sys.step s label = some s' → Inv ((s, label) :: recent) s') : Inv recent s := by
  induction recent generalizing s with
  | nil => exact start s history
  | cons entry recent inductionHypothesis =>
      obtain ⟨now, before⟩ := List.forall_mem_cons.mp met
      cases history with
      | step history taken =>
          exact preserved _ _ _ _ history.reachable (inductionHypothesis history before) now taken

/-- A property holds along a whole history exactly when every step meets
`meets`, provided it starts out true and, from a state where it and the side
invariant hold, one step keeps it exactly when that step meets `meets`. The
side invariant only has to survive steps that keep the property. -/
theorem History.always_iff {past : List (σ × ι)} {s : σ} (history : sys.History past s)
    (Holds Side : σ → Prop) (meets : σ → ι → Prop)
    (start : Holds sys.init) (sideStart : Side sys.init)
    (exact_step : ∀ s label s', Side s → Holds s → sys.step s label = some s' →
      (Holds s' ↔ meets s label))
    (side_step : ∀ s label s', Side s → Holds s → sys.step s label = some s' →
      Holds s' → Side s') :
    Always Holds past s ↔ EveryStep meets past := by
  suffices both : (Always Holds past s ↔ EveryStep meets past) ∧
      (Always Holds past s → Side s) from both.1
  induction history with
  | init => exact ⟨by simp [Always, EveryStep, start], fun _ => sideStart⟩
  | @step past s s' label _ taken inductionHypothesis =>
      obtain ⟨same, side⟩ := inductionHypothesis
      have extend : Always Holds ((s, label) :: past) s' ↔ Always Holds past s ∧ Holds s' := by
        simp only [Always, List.forall_mem_cons]
        exact and_congr_left' and_comm
      refine ⟨?_, ?_⟩
      · rw [extend, EveryStep, List.forall_mem_cons, ← EveryStep]
        constructor
        · rintro ⟨earlier, now⟩
          exact ⟨(exact_step _ _ _ (side earlier) earlier.2 taken).mp now, same.mp earlier⟩
        · rintro ⟨met, earlier⟩
          have before := same.mpr earlier
          exact ⟨before, (exact_step _ _ _ (side before) before.2 taken).mpr met⟩
      · intro all
        obtain ⟨before, now⟩ := extend.mp all
        exact side_step _ _ _ (side before) before.2 taken now

end StepSystem

end RttIctl.Lib
