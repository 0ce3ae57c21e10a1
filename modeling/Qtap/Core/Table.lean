import Mathlib.Tactic

/-!
# Tables

Maps of a program as functions to an option; setting and deleting an entry is
`Function.update`.
-/

namespace Qtap.Core

open Function

variable {K V : Type*} [DecidableEq K] {table : K → Option V} {key other : K} {value found : V}

theorem update_eq_some_iff {entry : Option V} : update table key entry other = some found ↔
    other = key ∧ entry = some found ∨ other ≠ key ∧ table other = some found := by
  by_cases hkey : other = key
  · rw [hkey]
    simp
  · simp [hkey]

theorem update_some_eq_some_iff : update table key (some value) other = some found ↔
    other = key ∧ found = value ∨ other ≠ key ∧ table other = some found := by
  rw [update_eq_some_iff, Option.some.injEq, eq_comm (a := value)]

theorem update_some_eq_some (hfound : update table key (some value) other = some found) :
    other = key ∧ found = value ∨ table other = some found :=
  (update_some_eq_some_iff.1 hfound).imp_right And.right

theorem update_none_eq_some (hfound : update table key none other = some found) :
    table other = some found := by
  rcases update_eq_some_iff.1 hfound with ⟨_, hnone⟩ | ⟨_, hfound⟩
  · cases hnone
  · exact hfound

/-- The deletion of several entries, one after another. -/
def deleteAll (table : K → Option V) (keys : List K) : K → Option V :=
  keys.foldl (fun table key => Function.update table key none) table

theorem deleteAll_eq_some_iff {keys : List K} :
    deleteAll table keys other = some found ↔ other ∉ keys ∧ table other = some found := by
  induction keys generalizing table with
  | nil => simp [deleteAll]
  | cons key keys ih =>
    change deleteAll (update table key none) keys other = some found ↔ _
    rw [ih]
    by_cases hkey : other = key <;> simp [hkey]

/-- The setting of several entries, one after another. -/
def storeAll (table : K → Option V) (entries : List (K × V)) : K → Option V :=
  entries.foldl (fun table entry => Function.update table entry.1 (some entry.2)) table

theorem storeAll_of_not_mem {entries : List (K × V)} (hkey : key ∉ entries.map Prod.fst) :
    storeAll table entries key = table key := by
  induction entries generalizing table with
  | nil => rfl
  | cons entry entries ih =>
    obtain ⟨hne, hrest⟩ := not_or.1 (List.mem_cons.not.1 hkey)
    exact (ih hrest).trans (update_of_ne hne _ _)

theorem storeAll_of_mem {entries : List (K × V)} (hnodup : (entries.map Prod.fst).Nodup)
    (hmem : (key, value) ∈ entries) : storeAll table entries key = some value := by
  induction entries generalizing table with
  | nil => cases hmem
  | cons entry entries ih =>
    obtain ⟨hnew, hrest⟩ := List.nodup_cons.1 hnodup
    rcases List.mem_cons.1 hmem with rfl | hmem
    · exact (storeAll_of_not_mem hnew).trans (update_self _ _ _)
    · exact ih hrest hmem

theorem storeAll_eq_some_iff {entries : List (K × V)} (hnodup : (entries.map Prod.fst).Nodup) :
    storeAll table entries key = some value ↔
      (key, value) ∈ entries ∨ key ∉ entries.map Prod.fst ∧ table key = some value := by
  by_cases hkey : key ∈ entries.map Prod.fst
  · obtain ⟨⟨_, _⟩, hmem, rfl⟩ := List.mem_map.1 hkey
    rw [storeAll_of_mem hnodup hmem, Option.some.injEq]
    constructor
    · rintro rfl
      exact .inl hmem
    · rintro (hvalue | ⟨hother, _⟩)
      · exact Option.some.inj ((@storeAll_of_mem K V _ table _ _ _ hnodup hmem).symm.trans
          (storeAll_of_mem hnodup hvalue))
      · exact absurd hkey hother
  · rw [storeAll_of_not_mem hkey]
    constructor
    · exact fun hfound => .inr ⟨hkey, hfound⟩
    · rintro (hmem | ⟨_, hfound⟩)
      · exact absurd (List.mem_map_of_mem hmem) hkey
      · exact hfound

end Qtap.Core
