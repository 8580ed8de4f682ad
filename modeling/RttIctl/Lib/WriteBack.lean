import Mathlib.Logic.Basic
import Mathlib.Data.List.Induction

/-!
Owns banks of lines with a cached copy: staged writes that reach the cache
only, writes that go through to the line, flushes of the cache, and the rule
that a line agrees with its cached copy unless a staged write is still
pending for it.

It does not own any index type, value type or device.
-/

namespace RttIctl.Lib

universe u v

/-- Entries of a history that defer work, and whether such work is still
outstanding: a deferring entry with no settling entry after it. -/
def Pending {β : Type u} (defers settles : β → Prop) (history : List β) : Prop :=
  ∃ before entry after, history = before ++ entry :: after ∧ defers entry ∧
    ∀ later ∈ after, ¬ settles later

/-- What one more entry does to outstanding work. -/
theorem pending_concat {β : Type u} {defers settles : β → Prop} {history : List β} {last : β} :
    Pending defers settles (history ++ [last]) ↔
      defers last ∨ (Pending defers settles history ∧ ¬ settles last) := by
  constructor
  · rintro ⟨before, entry, after, split, deferred, unsettled⟩
    induction after using List.reverseRecOn with
    | nil =>
        obtain ⟨_, same⟩ := List.append_inj' split rfl
        rw [List.cons.inj same |>.1]
        exact Or.inl deferred
    | append_singleton after newest _ =>
        rw [← List.cons_append, ← List.append_assoc] at split
        obtain ⟨earlier, same⟩ := List.append_inj' split rfl
        rw [List.cons.inj same |>.1]
        refine Or.inr ⟨⟨before, entry, after, earlier, deferred, ?_⟩, ?_⟩
        · intro later member
          exact unsettled later (List.mem_append_left _ member)
        · exact unsettled newest (List.mem_append_right _ (List.mem_singleton.mpr rfl))
  · rintro (deferred | ⟨⟨before, entry, after, split, deferred, unsettled⟩, open_⟩)
    · exact ⟨history, last, [], rfl, deferred, by simp⟩
    · refine ⟨before, entry, after ++ [last], by rw [split]; simp, deferred, ?_⟩
      intro later member
      rcases List.mem_append.mp member with old | new
      · exact unsettled later old
      · rw [List.mem_singleton.mp new]
        exact open_

/-- Outstanding work seen through a translation of the entries. -/
theorem pending_map_iff {β : Type u} {γ : Type v} {translate : β → γ} {defers settles : γ → Prop}
    {defers' settles' : β → Prop} (sameDefers : ∀ entry, defers (translate entry) ↔ defers' entry)
    (sameSettles : ∀ entry, settles (translate entry) ↔ settles' entry) (history : List β) :
    Pending defers settles (history.map translate) ↔ Pending defers' settles' history := by
  induction history using List.reverseRecOn with
  | nil => simp [Pending]
  | append_singleton history last inductionHypothesis =>
      rw [List.map_append, List.map_singleton, pending_concat, pending_concat,
        inductionHypothesis, sameDefers, sameSettles]

/-- Lines and the cached copy of what they should carry. -/
@[ext]
structure Bank (ι : Type u) (α : Type v) where
  cached : ι → α
  driven : ι → α

/-- Accesses to a bank. `cover` says which lines an access is about. -/
inductive Access (ι : Type u) (α : Type v)
  | stage (cover : ι → Bool) (value : α)
  | through (cover : ι → Bool) (change : α → α)
  | flush (cover : ι → Bool)

namespace Access

variable {ι : Type u} {α : Type v}

def cover : Access ι α → ι → Bool
  | .stage cover _ => cover
  | .through cover _ => cover
  | .flush cover => cover

/-- Staged writes leave the line behind. -/
def defers (i : ι) : Access ι α → Prop
  | .stage cover _ => cover i = true
  | .through _ _ => False
  | .flush _ => False

/-- Writes that go through and flushes bring the line up to date. -/
def settles (i : ι) : Access ι α → Prop
  | .stage _ _ => False
  | .through cover _ => cover i = true
  | .flush cover => cover i = true

end Access

namespace Bank

variable {ι : Type u} {α : Type v}

def apply (bank : Bank ι α) : Access ι α → Bank ι α
  | .stage cover value =>
      { bank with cached := fun i => if cover i then value else bank.cached i }
  | .through cover change =>
      { cached := fun i => if cover i then change (bank.driven i) else bank.cached i
        driven := fun i => if cover i then change (bank.driven i) else bank.driven i }
  | .flush cover =>
      { bank with driven := fun i => if cover i then bank.cached i else bank.driven i }

def run (bank : Bank ι α) (accesses : List (Access ι α)) : Bank ι α :=
  accesses.foldl apply bank

/-- An access leaves every line it is not about, and its cached copy. -/
theorem apply_of_not_cover {bank : Bank ι α} {access : Access ι α} {i : ι}
    (outside : access.cover i = false) :
    (bank.apply access).cached i = bank.cached i ∧
      (bank.apply access).driven i = bank.driven i := by
  cases access with
  | stage cover value =>
      replace outside : cover i = false := outside
      simp [apply, outside]
  | through cover change =>
      replace outside : cover i = false := outside
      simp [apply, outside]
  | flush cover =>
      replace outside : cover i = false := outside
      simp [apply, outside]

/-- One access keeps a line in agreement unless it defers to it, and restores
agreement when it settles it. -/
theorem apply_agrees {bank : Bank ι α} {access : Access ι α} {i : ι}
    (before : access.settles i ∨ bank.cached i = bank.driven i) (direct : ¬ access.defers i) :
    (bank.apply access).cached i = (bank.apply access).driven i := by
  cases access with
  | stage cover value =>
      have outside : cover i = false := Bool.eq_false_iff.mpr direct
      simpa [apply, outside, Access.settles] using before
  | through cover change =>
      by_cases inside : cover i = true
      · simp [apply, inside]
      · simpa [apply, Access.settles, inside] using before
  | flush cover =>
      by_cases inside : cover i = true
      · simp [apply, inside]
      · simpa [apply, Access.settles, inside] using before

/-- Along every run, a line agrees with its cached copy unless a staged write
is pending for it. -/
theorem run_agrees {bank : Bank ι α} {i : ι} (start : bank.cached i = bank.driven i)
    (accesses : List (Access ι α))
    (settled : ¬ Pending (Access.defers i) (Access.settles i) accesses) :
    (bank.run accesses).cached i = (bank.run accesses).driven i := by
  induction accesses using List.reverseRecOn with
  | nil => exact start
  | append_singleton accesses last inductionHypothesis =>
      rw [pending_concat, not_or, not_and_not_right] at settled
      obtain ⟨direct, cleared⟩ := settled
      rw [run, List.foldl_append]
      apply apply_agrees _ direct
      by_cases pending : Pending (Access.defers i) (Access.settles i) accesses
      · exact Or.inl (cleared pending)
      · exact Or.inr (inductionHypothesis pending)

end Bank

end RttIctl.Lib
