import Mathlib.Data.List.Induction
import Mathlib.Data.Prod.Lex
import Mathlib.Order.Bounds.Basic

/-!
# The floor of a Node.js version

The addresses of TLS functions are stored by version.  `versionFloor` goes through the keys of
the map, in whatever order the map gives them.
-/

namespace Qtap.Tls

open List

structure SemVer where
  major : ℤ
  minor : ℤ
  patch : ℤ

namespace SemVer

variable (k ver : SemVer)

def components : ℤ ×ₗ ℤ ×ₗ ℤ := toLex (ver.major, toLex (ver.minor, ver.patch))

instance : LinearOrder SemVer :=
  .lift' components fun ⟨_, _, _⟩ ⟨_, _, _⟩ hequal => by simpa [components] using hequal

def AtMost : Prop :=
  k.major < ver.major ∨ (k.major = ver.major ∧ k.minor < ver.minor) ∨
    (k.major = ver.major ∧ k.minor = ver.minor ∧ k.patch ≤ ver.patch)
  deriving Decidable

def Above : Prop :=
  k.major > ver.major ∨ (k.major = ver.major ∧ k.minor > ver.minor) ∨
    (k.major = ver.major ∧ k.minor = ver.minor ∧ k.patch > ver.patch)
  deriving Decidable

theorem atMost_iff : k.AtMost ver ↔ k ≤ ver := by
  change _ ↔ k.components ≤ ver.components
  simp only [AtMost, components, Prod.Lex.toLex_le_toLex]
  omega

theorem above_iff : k.Above ver ↔ ver < k := by
  rw [← not_le, ← atMost_iff, Above, AtMost]
  omega

end SemVer

/-- A key of the map, after the floor of the keys before it. -/
def floorRound (ver : SemVer) (floorVer : Option SemVer) (k : SemVer) : Option SemVer :=
  if k.AtMost ver ∧ ∀ floor ∈ floorVer, k.Above floor then some k else floorVer

def versionFloor (keys : List SemVer) (ver : SemVer) : Option SemVer :=
  keys.foldl (floorRound ver) none

def FloorOf (keys : List SemVer) (ver : SemVer) : Option SemVer → Prop
  | none => ∀ k ∈ keys, ver < k
  | some floor => IsGreatest {k | k ∈ keys ∧ k ≤ ver} floor

theorem FloorOf.round {keys : List SemVer} {ver : SemVer} {floorVer : Option SemVer}
    (hfloor : FloorOf keys ver floorVer) (k : SemVer) :
    FloorOf (keys ++ [k]) ver (floorRound ver floorVer k) := by
  simp only [floorRound, SemVer.atMost_iff, SemVer.above_iff]
  split_ifs with hk
  · refine ⟨⟨mem_concat_self, hk.1⟩, fun other hother => ?_⟩
    rcases mem_append.1 hother.1 with hbefore | hlast
    · cases floorVer with
      | none => exact absurd hother.2 (hfloor other hbefore).not_ge
      | some floor => exact (hfloor.2 ⟨hbefore, hother.2⟩).trans (hk.2 floor rfl).le
    · exact (mem_singleton.1 hlast).le
  · cases floorVer with
    | none => exact forall_mem_append.2 ⟨hfloor, by simpa using hk⟩
    | some floor =>
      refine ⟨⟨mem_append_left _ hfloor.1.1, hfloor.1.2⟩, fun other hother => ?_⟩
      rcases mem_append.1 hother.1 with hbefore | hlast
      · exact hfloor.2 ⟨hbefore, hother.2⟩
      · rw [mem_singleton.1 hlast] at hother ⊢
        simpa [hother.2] using hk

theorem versionFloor_floorOf (keys : List SemVer) (ver : SemVer) :
    FloorOf keys ver (versionFloor keys ver) := by
  induction keys using reverseRecOn with
  | nil => exact nofun
  | append_singleton keys k ih =>
    rw [versionFloor, foldl_append]
    exact ih.round k

/-- For every order of the keys the greatest key up to the version is found, and none is found
exactly when all are greater. -/
theorem versionFloor_eq_iff (keys : List SemVer) (ver : SemVer) :
    (∀ floor, versionFloor keys ver = some floor ↔ IsGreatest {k | k ∈ keys ∧ k ≤ ver} floor) ∧
      (versionFloor keys ver = none ↔ ∀ k ∈ keys, ver < k) := by
  have hfloor := versionFloor_floorOf keys ver
  cases hresult : versionFloor keys ver with rw [hresult] at hfloor
  | none =>
    refine ⟨fun floor => ⟨nofun, fun hgreatest => ?_⟩, fun _ => hfloor, fun _ => rfl⟩
    exact absurd hgreatest.1.2 (hfloor floor hgreatest.1.1).not_ge
  | some found =>
    refine ⟨fun floor => ?_, nofun, fun hall => absurd hfloor.1.2 (hall found hfloor.1.1).not_ge⟩
    rw [Option.some.injEq]
    exact ⟨fun hfound => hfound ▸ hfloor, hfloor.unique⟩

end Qtap.Tls
