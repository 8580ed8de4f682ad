import Mathlib.Data.List.Perm.Basic

/-!
Owns lists of waiters: a waiter put in front of the first one it is ahead of, and
one pass over the list that serves, in order, everyone who can be served. What is
left to give out changes on the way. `serve_refuses` says when nobody who is left
could have been served after the pass; `serve_rule` carries an invariant through it.

It does not own what is given out or who is ahead of whom.
-/

namespace RttIctl.Lib

universe u v w

variable {σ : Type u} {ω : Type v} {γ : Type w}

/-- A waiter in front of the first one it is ahead of, or at the end. -/
def insertAhead (ahead : ω → Bool) (waiter : ω) : List ω → List ω
  | [] => [waiter]
  | other :: rest =>
      if ahead other then waiter :: other :: rest else other :: insertAhead ahead waiter rest

theorem insertAhead_perm (ahead : ω → Bool) (waiter : ω) (waiting : List ω) :
    (insertAhead ahead waiter waiting).Perm (waiter :: waiting) := by
  induction waiting with
  | nil => exact List.Perm.refl _
  | cons other rest inductionHypothesis =>
      rw [insertAhead]
      split
      · exact List.Perm.refl _
      · exact (inductionHypothesis.cons other).trans (List.Perm.swap waiter other rest)

/-- Whoever waits in order stays in order, when a waiter is put by that order. -/
theorem insertAhead_pairwise {r : ω → ω → Prop} {ahead : ω → Bool} {waiter : ω}
    {waiting : List ω} (trans : ∀ a b c, r a b → r b c → r a c)
    (before : ∀ other ∈ waiting, ahead other = true → r waiter other)
    (behind : ∀ other ∈ waiting, ahead other = false → r other waiter)
    (sorted : waiting.Pairwise r) : (insertAhead ahead waiter waiting).Pairwise r := by
  induction waiting with
  | nil => exact List.pairwise_singleton r waiter
  | cons other rest inductionHypothesis =>
      obtain ⟨first, later⟩ := List.pairwise_cons.mp sorted
      rw [insertAhead]
      split
      · next isAhead =>
          have next := before other List.mem_cons_self isAhead
          refine List.pairwise_cons.mpr ⟨fun last member => ?_, sorted⟩
          rcases List.mem_cons.mp member with rfl | member
          · exact next
          · exact trans waiter other last next (first last member)
      · next notAhead =>
          refine List.pairwise_cons.mpr ⟨fun last member => ?_, ?_⟩
          · rcases List.mem_cons.mp ((insertAhead_perm ahead waiter rest).mem_iff.mp member)
              with rfl | member
            · exact behind other List.mem_cons_self (Bool.eq_false_iff.mpr notAhead)
            · exact first last member
          · exact inductionHypothesis
              (fun last member => before last (List.mem_cons_of_mem other member))
              (fun last member => behind last (List.mem_cons_of_mem other member)) later

/-- One pass: what is left, what was given out in order, and who still waits. -/
def serve (grant : σ → ω → Option (σ × γ)) : σ → List ω → σ × List γ × List ω
  | s, [] => (s, [], [])
  | s, waiter :: rest =>
      match grant s waiter with
      | some (left, receipt) =>
          let served := serve grant left rest
          (served.1, receipt :: served.2.1, served.2.2)
      | none =>
          let served := serve grant s rest
          (served.1, served.2.1, waiter :: served.2.2)

variable {grant : σ → ω → Option (σ × γ)}

theorem serve_sublist (s : σ) (waiting : List ω) : (serve grant s waiting).2.2.Sublist waiting := by
  induction waiting generalizing s with
  | nil => exact List.Sublist.refl _
  | cons waiter rest inductionHypothesis =>
      rw [serve]
      split
      · next left _ _ => exact (inductionHypothesis left).cons waiter
      · exact (inductionHypothesis s).cons_cons waiter

/-- What holds at the start and after every grant holds at the end. -/
theorem serve_rule (Inv : σ → List γ → Prop) {s : σ} (before : List γ) (waiting : List ω)
    (start : Inv s before)
    (granted : ∀ s before waiter left receipt, waiter ∈ waiting → Inv s before →
      grant s waiter = some (left, receipt) → Inv left (before ++ [receipt])) :
    Inv (serve grant s waiting).1 (before ++ (serve grant s waiting).2.1) := by
  induction waiting generalizing s before with
  | nil =>
      rw [serve, List.append_nil]
      exact start
  | cons waiter rest inductionHypothesis =>
      have later : ∀ s before other left receipt, other ∈ rest → Inv s before →
          grant s other = some (left, receipt) → Inv left (before ++ [receipt]) :=
        fun s before other left receipt member =>
          granted s before other left receipt (List.mem_cons_of_mem _ member)
      rw [serve]
      split
      · next left receipt given =>
          have next := inductionHypothesis (before ++ [receipt])
            (granted s before waiter left receipt List.mem_cons_self start given) later
          rw [List.append_assoc] at next
          exact next
      · exact inductionHypothesis before start later

/-- When a grant never lets anyone in who was refused before it, nobody who is left
after the pass can be served. -/
theorem serve_refuses
    (antitone : ∀ s waiter left receipt other, grant s waiter = some (left, receipt) →
      grant s other = none → grant left other = none) (s : σ) (waiting : List ω) :
    ∀ waiter ∈ (serve grant s waiting).2.2, grant (serve grant s waiting).1 waiter = none := by
  -- whoever is refused at some point stays refused to the end of the pass
  have stays : ∀ (waiting : List ω) (s : σ) (other : ω), grant s other = none →
      grant (serve grant s waiting).1 other = none := by
    intro waiting s other refused
    exact serve_rule (fun s _ => grant s other = none) [] waiting refused
      fun s _ waiter left receipt _ before given =>
        antitone s waiter left receipt other given before
  induction waiting generalizing s with
  | nil => exact fun _ member => absurd member List.not_mem_nil
  | cons waiter rest inductionHypothesis =>
      rw [serve]
      split
      · next left _ _ => exact inductionHypothesis left
      · next refused =>
          exact List.forall_mem_cons.mpr ⟨stays rest s waiter refused, inductionHypothesis s⟩

end RttIctl.Lib
