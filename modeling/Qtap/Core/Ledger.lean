import Mathlib.Data.List.AList
import Mathlib.Tactic

/-!
# Resources that are opened, held and closed

A ledger is balanced when the resources that were ever opened are those that were closed and those
that are still held, each of them once.  All of them have been closed exactly once if and only if
nothing is held any more.  Resources may be held in a map, where a new entry takes the place of
the one under its key.
-/

namespace Qtap.Core

open List

variable {R : Type*}

structure Balanced (opened closed held : List R) : Prop where
  nodup : opened.Nodup
  balance : opened.Perm (closed ++ held)

namespace Balanced

variable {opened closed held : List R}

theorem nil : Balanced ([] : List R) [] [] := ⟨nodup_nil, .nil⟩

section

variable (hbalanced : Balanced opened closed held)

include hbalanced

/-- A new resource is held at first. -/
theorem acquire {resource : R} (hnew : resource ∉ opened) :
    Balanced (opened ++ [resource]) closed (held ++ [resource]) := by
  constructor
  · exact nodup_append_comm.1 (nodup_cons.2 ⟨hnew, hbalanced.nodup⟩)
  · rw [← append_assoc]
    exact hbalanced.balance.append_right [resource]

/-- Resources that are numbered as they are opened: the next number is new, and all numbers stay
below the one after it. -/
theorem issue {number : R → ℕ} {next following : ℕ} {issued : Option R}
    (hfresh : ∀ resource ∈ opened, number resource < next) (hgrows : next ≤ following)
    (hissued : ∀ resource, issued = some resource → number resource = next ∧ next < following) :
    Balanced (opened ++ issued.toList) closed (held ++ issued.toList) ∧
      ∀ resource ∈ opened ++ issued.toList, number resource < following := by
  cases issued with
  | none =>
    rw [Option.toList_none, append_nil, append_nil]
    exact ⟨hbalanced, fun resource hmem => (hfresh resource hmem).trans_le hgrows⟩
  | some resource =>
    obtain ⟨hnumber, hlater⟩ := hissued resource rfl
    constructor
    · exact hbalanced.acquire fun hmem => (hfresh resource hmem).ne hnumber
    · refine forall_mem_append.2 ⟨fun other hbefore => ?_, forall_mem_singleton.2 ?_⟩
      · exact (hfresh other hbefore).trans_le hgrows
      · rwa [hnumber]

/-- Some of the resources that are held are closed. -/
theorem release {released rest : List R}
    (hheld : held.Perm (released ++ rest)) : Balanced opened (closed ++ released) rest := by
  refine ⟨hbalanced.nodup, ?_⟩
  rw [append_assoc]
  exact hbalanced.balance.trans (hheld.append_left closed)

theorem rearrange {rest : List R} (hheld : held.Perm rest) : Balanced opened closed rest :=
  ⟨hbalanced.nodup, hbalanced.balance.trans (hheld.append_left closed)⟩

/-- Nothing is closed twice. -/
theorem nodup_closed : closed.Nodup :=
  (hbalanced.balance.nodup_iff.1 hbalanced.nodup).of_append_left

/-- Everything has been closed when nothing is held. -/
theorem mem_closed_iff : (∀ resource ∈ opened, resource ∈ closed) ↔ held = [] := by
  have hnodup : (closed ++ held).Nodup := hbalanced.balance.nodup_iff.1 hbalanced.nodup
  constructor
  · intro hclosed
    refine eq_nil_iff_forall_not_mem.2 fun resource hresource => ?_
    have hopened : resource ∈ opened :=
      hbalanced.balance.mem_iff.2 (mem_append_right _ hresource)
    have hdisjoint := (nodup_append.1 hnodup).2.2
    exact hdisjoint resource (hclosed resource hopened) resource hresource rfl
  · rintro rfl resource hresource
    have hmem := hbalanced.balance.mem_iff.1 hresource
    rwa [append_nil] at hmem

/-- Everything has been closed exactly once when nothing is held. -/
theorem count_closed_iff [DecidableEq R] :
    (∀ resource ∈ opened, closed.count resource = 1) ↔ held = [] := by
  have hnodup : (closed ++ held).Nodup := hbalanced.balance.nodup_iff.1 hbalanced.nodup
  rw [← hbalanced.mem_closed_iff]
  refine forall₂_congr fun resource _ => ⟨fun hcount => ?_, fun hmem => ?_⟩
  · exact count_pos_iff.1 (hcount ▸ Nat.one_pos)
  · exact count_eq_one_of_mem (nodup_append.1 hnodup).1 hmem

end

end Balanced

/-! ## Runs -/

section Runs

variable {S E : Type*} (step : S → E → S) (loses : S → E → List R)

/-- What a run gives up when each of its steps gives up `loses state event`. -/
def losses : S → List E → List R
  | _, [] => []
  | state, event :: events => loses state event ++ losses (step state event) events

/-- A run gives nothing up if and only if none of its steps does. -/
theorem losses_eq_nil_iff {state : S} {events : List E} :
    losses step loses state events = [] ↔
      ∀ before event after, events = before ++ event :: after →
        loses (before.foldl step state) event = [] := by
  induction events generalizing state with
  | nil =>
    refine iff_of_true rfl fun before event after hsplit => ?_
    exact absurd hsplit.symm (append_ne_nil_of_right_ne_nil _ (cons_ne_nil _ _))
  | cons event events ih =>
    rw [losses, append_eq_nil_iff, ih]
    constructor
    · rintro ⟨hfirst, hrest⟩ before other after hsplit
      cases before with
      | nil =>
        obtain ⟨rfl, -⟩ := List.cons.inj hsplit
        exact hfirst
      | cons first before =>
        obtain ⟨rfl, htail⟩ := List.cons.inj hsplit
        exact hrest before other after htail
    · intro hnone
      refine ⟨hnone [] event events rfl, fun before other after hsplit => ?_⟩
      exact hnone (event :: before) other after (hsplit ▸ rfl)

variable {step loses}

/-- What every step keeps up to its losses, the run keeps up to all of them. -/
theorem losses_induction {keeps : S → List R → Prop} (hstep : ∀ state event lost, keeps state lost →
      keeps (step state event) (lost ++ loses state event))
    {state : S} {lost : List R} (hkeeps : keeps state lost) (events : List E) :
    keeps (events.foldl step state) (lost ++ losses step loses state events) := by
  induction events generalizing state lost with
  | nil => rwa [losses, append_nil]
  | cons event events ih =>
    rw [losses, ← append_assoc]
    exact ih (hstep state event lost hkeeps)

end Runs

/-! ## Maps -/

variable {K V : Type*} [DecidableEq K]

/-- The values of a map, in the order of its entries. -/
def values (table : AList fun _ : K => V) : List V := table.entries.map Sigma.snd

theorem values_insert (table : AList fun _ : K => V) (key : K) (value : V) :
    values (table.insert key value) = value :: values (table.erase key) := rfl

/-- The values of a map are the one under a key and the others. -/
theorem perm_values_erase (table : AList fun _ : K => V) (key : K) :
    (values table).Perm ((table.lookup key).toList ++ values (table.erase key)) := by
  cases hlookup : table.lookup key with
  | none =>
    have hkey : key ∉ table := AList.lookup_eq_none.1 hlookup
    have herase : (table.erase key).entries = table.entries :=
      kerase_of_notMem_keys hkey
    rw [Option.toList_none, nil_append, values, values, herase]
  | some value =>
    have hmem : ⟨key, value⟩ ∈ table.entries := AList.mem_lookup_iff.1 hlookup
    have herase : (table.erase key).entries = table.entries.kerase key := rfl
    obtain ⟨other, _, _, -, hentries, hrest⟩ :=
      exists_of_kerase (mem_keys_of_mem hmem)
    have hother : other = value := by
      have hfound : table.lookup key = some other := by
        rw [← Option.mem_def, AList.mem_lookup_iff, hentries]
        exact mem_append_right _ mem_cons_self
      rw [hlookup] at hfound
      exact (Option.some.inj hfound).symm
    rw [values, values, herase, hrest, hentries, hother, map_append, map_append]
    exact perm_middle

end Qtap.Core
