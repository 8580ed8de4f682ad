import Mathlib.Logic.Function.Basic

/-!
Owns a lock kept in one byte that is tested and stored by separate accesses:
who is inside, what the byte says, and exactly when a store keeps the lock
exclusive. Threads are an arbitrary type.

It does not own the code that tests the byte; only the store and the release
matter to exclusion.
-/

namespace RttIctl.Lib

universe u

/-- The lock byte and which threads are between acquisition and release. -/
@[ext] structure ByteLock (τ : Type u) where
  byte : Bool
  inside : τ → Bool

namespace ByteLock

variable {τ : Type u} [DecidableEq τ] (lock : ByteLock τ)

/-- The store that ends an acquisition. -/
def store (t : τ) : ByteLock τ := ⟨true, Function.update lock.inside t true⟩

/-- The store that ends the section. -/
def leave (t : τ) : ByteLock τ := ⟨false, Function.update lock.inside t false⟩

/-- At most one thread is inside. -/
def Exclusive : Prop := ∀ t u, lock.inside t = true → lock.inside u = true → t = u

/-- The byte says whether somebody is inside. -/
def Faithful : Prop := lock.byte = true ↔ ∃ t, lock.inside t = true

variable {lock} {t : τ}

theorem store_faithful : (lock.store t).Faithful := by
  refine ⟨fun _ => ⟨t, ?_⟩, fun _ => rfl⟩
  simp [store]

/-- A store keeps the lock exclusive exactly when it finds the byte clear. -/
theorem store_exclusive_iff (faithful : lock.Faithful) (outside : lock.inside t = false) :
    (lock.store t).Exclusive ↔ lock.byte = false := by
  constructor
  · intro exclusive
    by_contra taken
    obtain ⟨u, isInside⟩ := faithful.mp (by simpa using taken)
    have different : u ≠ t := by
      rintro rfl
      simp [outside] at isInside
    exact different (exclusive u t (by simp [store, different, isInside]) (by simp [store]))
  · intro free
    have nobody : ∀ u, lock.inside u = false := by
      intro u
      by_contra isInside
      have byte := faithful.mpr ⟨u, by simpa using isInside⟩
      simp [free] at byte
    have onlyT : ∀ u, (lock.store t).inside u = true → u = t := by
      intro u isInside
      by_contra different
      simp [store, different, nobody] at isInside
    intro u v uInside vInside
    rw [onlyT u uInside, onlyT v vInside]

theorem leave_exclusive (exclusive : lock.Exclusive) : (lock.leave t).Exclusive := by
  have stays : ∀ u, (lock.leave t).inside u = true → lock.inside u = true := by
    intro u isInside
    by_cases same : u = t
    · simp [leave, same] at isInside
    · simpa [leave, same] using isInside
  intro u v uInside vInside
  exact exclusive u v (stays u uInside) (stays v vInside)

theorem leave_faithful (exclusive : lock.Exclusive) (isInside : lock.inside t = true) :
    (lock.leave t).Faithful := by
  refine ⟨fun byte => by simp [leave] at byte, ?_⟩
  rintro ⟨u, uInside⟩
  by_cases same : u = t
  · simp [leave, same] at uInside
  · have uWas : lock.inside u = true := by simpa [leave, same] using uInside
    exact absurd (exclusive u t uWas isInside) same

end ByteLock

end RttIctl.Lib
