import Mathlib.Data.List.Nodup

/-!
Owns registries of named entries: lookup by name, registration that refuses a
name in use, and removal by name. No name occurs twice, so what a name finds is
the one entry registered under it.

It does not own who registers or under which name.
-/

namespace RttIctl.Lib

universe u v

/-- The entries, latest first, no two under one name. -/
structure Registry (ν : Type u) (ω : Type v) where
  entries : List (ν × ω)
  distinct : (entries.map Prod.fst).Nodup

namespace Registry

variable {ν : Type u} {ω : Type v} [DecidableEq ν]

def find (registry : Registry ν ω) (name : ν) : Option ω :=
  (registry.entries.find? fun entry => entry.1 = name).map Prod.snd

/-- No result means that the name is in use. -/
def register (registry : Registry ν ω) (name : ν) (owner : ω) : Option (Registry ν ω) :=
  if unused : name ∉ registry.entries.map Prod.fst then
    some
      { entries := (name, owner) :: registry.entries
        distinct := List.nodup_cons.mpr ⟨unused, registry.distinct⟩ }
  else none

/-- Remove the entry under a name, if there is one. -/
def unregister (registry : Registry ν ω) (name : ν) : Registry ν ω where
  entries := registry.entries.filter fun entry => entry.1 ≠ name
  distinct := registry.distinct.sublist (List.filter_sublist.map Prod.fst)

variable {registry : Registry ν ω} {name other : ν} {owner : ω}

/-- What is registered under a name is what the name finds. -/
theorem find_of_mem (registered : (name, owner) ∈ registry.entries) :
    registry.find name = some owner := by
  obtain ⟨entries, distinct⟩ := registry
  unfold find
  dsimp only at registered ⊢
  induction entries with
  | nil => exact absurd registered List.not_mem_nil
  | cons entry rest inductionHypothesis =>
      rw [List.map_cons, List.nodup_cons] at distinct
      rcases List.mem_cons.mp registered with rfl | later
      · rw [List.find?_cons_of_pos (by simp)]
        rfl
      · have differ : entry.1 ≠ name := by
          rintro rfl
          exact distinct.1 (List.mem_map.mpr ⟨_, later, rfl⟩)
        rw [List.find?_cons_of_neg (by simpa using differ)]
        exact inductionHypothesis distinct.2 later

theorem register_entries {next : Registry ν ω}
    (accepted : registry.register name owner = some next) :
    next.entries = (name, owner) :: registry.entries := by
  unfold register at accepted
  split at accepted
  · rw [← Option.some.inj accepted]
  · exact absurd accepted (Option.some_ne_none next).symm

theorem mem_unregister (registered : (name, owner) ∈ registry.entries) (kept : name ≠ other) :
    (name, owner) ∈ (registry.unregister other).entries :=
  List.mem_filter.mpr ⟨registered, decide_eq_true kept⟩

end Registry

end RttIctl.Lib
