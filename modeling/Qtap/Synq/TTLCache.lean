import Qtap.Core.Pool

/-!
# The cache whose entries expire

`synq.TTLCache` keeps values and expirations in two maps with a lock each, so a call is a sequence
of steps on single maps between which others come in.  `GCExpired` works through a copy of the
expirations: what it deletes need not have the expiration that the copy shows.

The maps are seen at one key.  Calls on other keys touch neither map there, and a collection comes
to the key once, if its copy has it.  A step is an operation of one map or a look at the clock.
-/

namespace Qtap.Synq.TTLCache

open Qtap.Core

variable {V : Type*}

/-- The value and the expiration under the key, and the time. -/
structure Slot (V : Type*) where
  entry : Option V := none
  expiration : Option ℕ := none
  clock : ℕ := 0
  deriving DecidableEq, Repr

/-- Calls in flight, named after their next step. -/
inductive Routine (V : Type*) where
  | store (value : V)
  | load
  | readClock
  | renew (expiration : ℕ)
  | delete
  | deleteExpiration
  | copy
  | check (expiration : ℕ)
  | evict
  | evictExpiration
  deriving DecidableEq, Repr

inductive Call (V : Type*) where
  | store (value : V)
  | loadAndRenew
  | delete
  | gcExpired
  | tick (elapsed : ℕ)
  deriving DecidableEq, Repr

def start (slot : Slot V) : Call V → Option (Slot V × List (Routine V))
  | .store value => some (slot, [.store value])
  | .loadAndRenew => some (slot, [.load])
  | .delete => some (slot, [.delete])
  | .gcExpired => some (slot, [.copy])
  | .tick elapsed => some ({ slot with clock := slot.clock + elapsed }, [])

def resume (expireDuration : ℕ) (slot : Slot V) (routine : Routine V) (_ : Unit) :
    Option (Slot V × List (Routine V)) :=
  match routine with
  | .store value => some ({ slot with entry := some value }, [.readClock])
  | .load => some (slot, if slot.entry.isSome then [.readClock] else [])
  | .readClock => some (slot, [.renew (slot.clock + expireDuration)])
  | .renew expiration => some ({ slot with expiration := some expiration }, [])
  | .delete => some ({ slot with entry := none }, [.deleteExpiration])
  | .deleteExpiration => some ({ slot with expiration := none }, [])
  | .copy => some (slot, (slot.expiration.map Routine.check).toList)
  | .check expiration => some (slot, if expiration < slot.clock then [.evict] else [])
  | .evict => some ({ slot with entry := none }, [.evictExpiration])
  | .evictExpiration => some ({ slot with expiration := none }, [])

abbrev step (expireDuration : ℕ) :
    Pool (Slot V) (Routine V) → Pool.Action (Call V) Unit → Option (Pool (Slot V) (Routine V)) :=
  Pool.step start (resume expireDuration)

/-- A collection is about to remove a value whose expiration is still to come. -/
def EvictsLive (pool : Pool (Slot V) (Routine V)) : Prop :=
  .evict ∈ pool.routines ∧ pool.shared.entry.isSome ∧
    ∃ expiration ∈ pool.shared.expiration, pool.shared.clock < expiration

/-- No call is in flight, and there is a value without an expiration. -/
def Immortal (pool : Pool (Slot V) (Routine V)) : Prop :=
  pool.Idle ∧ pool.shared.entry.isSome ∧ pool.shared.expiration = none

/-- A call on the key or a collection begins only while no such call is in flight. -/
def Alone (pool : Pool (Slot V) (Routine V)) : Pool.Action (Call V) Unit → Prop
  | .call (.tick _) | .advance _ _ => True
  | .call _ => pool.Idle

/-! ## Calls that do not overlap -/

def Slot.Kept (slot : Slot V) : Prop := slot.entry.isSome → slot.expiration.isSome

/-- What the only call in flight can rely on. -/
def Routine.Fits (slot : Slot V) : Routine V → Prop
  | .store _ | .load | .delete | .copy => slot.Kept
  | .readClock | .renew _ => True
  | .deleteExpiration | .evictExpiration => slot.entry = none
  | .check expiration => slot.expiration = some expiration
  | .evict => ∃ expiration, slot.expiration = some expiration ∧ expiration < slot.clock

inductive Sound : Pool (Slot V) (Routine V) → Prop where
  | idle {slot : Slot V} (hkept : slot.Kept) : Sound ⟨slot, []⟩
  | alone {slot : Slot V} {routine : Routine V} (hfits : routine.Fits slot) :
    Sound ⟨slot, [routine]⟩

variable {expireDuration : ℕ} {pool : Pool (Slot V) (Routine V)} {slot : Slot V}
  {rest : List (Routine V)}

namespace Sound

theorem kept_of_idle (hsound : Sound pool) (hidle : pool.Idle) : pool.shared.Kept := by
  cases hsound with
  | idle hkept => exact hkept
  | alone => cases hidle

theorem tick (hsound : Sound ⟨slot, rest⟩) (elapsed : ℕ) :
    Sound ⟨{ slot with clock := slot.clock + elapsed }, rest⟩ := by
  cases hsound with
  | idle hkept => exact .idle hkept
  | @alone _ routine hfits =>
    refine .alone ?_
    cases routine with
    | evict =>
      obtain ⟨expiration, hexpiration, hexpired⟩ := hfits
      exact ⟨expiration, hexpiration, hexpired.trans_le (Nat.le_add_right _ _)⟩
    | _ => exact hfits

theorem call {call : Call V} (hsound : Sound pool) (halone : Alone pool (.call call))
    (hstart : start pool.shared call = some (slot, rest)) :
    Sound ⟨slot, pool.routines ++ rest⟩ := by
  cases call with
  | tick elapsed =>
    cases hstart
    rw [List.append_nil]
    exact hsound.tick elapsed
  | _ =>
    have hkept := hsound.kept_of_idle halone
    have hidle : pool.routines = [] := halone
    cases hstart
    rw [hidle]
    exact .alone hkept

theorem advance {routine : Routine V} {others : List (Routine V)} (hsound : Sound pool)
    (hperm : pool.routines.Perm (routine :: others))
    (hresume : resume expireDuration pool.shared routine () = some (slot, rest)) :
    Sound ⟨slot, others ++ rest⟩ := by
  cases hsound with
  | idle => cases List.nil_perm.1 hperm
  | @alone before _ hfits =>
    cases List.singleton_perm.1 hperm
    cases routine with
    | store | readClock =>
      cases hresume
      exact .alone trivial
    | load =>
      cases hresume
      split_ifs with hentry
      · exact .alone trivial
      · exact .idle fun hsome => absurd hsome hentry
    | renew =>
      cases hresume
      exact .idle fun _ => rfl
    | delete | evict =>
      cases hresume
      exact .alone rfl
    | deleteExpiration | evictExpiration =>
      cases hresume
      refine .idle fun hsome => ?_
      rw [hfits] at hsome
      cases hsome
    | copy =>
      cases hresume
      cases hexpiration : before.expiration with
      | none => exact .idle hfits
      | some => exact .alone hexpiration
    | check expiration =>
      cases hresume
      split_ifs with hexpired
      · exact .alone ⟨expiration, hfits, hexpired⟩
      · refine .idle fun _ => ?_
        rw [hfits]
        rfl

theorem not_evictsLive (hsound : Sound pool) : ¬ EvictsLive pool := by
  rintro ⟨hevict, -, _, hlater, hlive⟩
  cases hsound with
  | idle => cases hevict
  | alone hfits =>
    cases List.mem_singleton.1 hevict
    obtain ⟨_, hexpiration, hexpired⟩ := hfits
    cases hexpiration.symm.trans hlater
    exact absurd hexpired hlive.asymm

theorem not_immortal (hsound : Sound pool) : ¬ Immortal pool := by
  rintro ⟨hidle, hentry, hnone⟩
  have hsome := hsound.kept_of_idle hidle hentry
  rw [hnone] at hsome
  cases hsome

end Sound

/-- Where calls on a key and collections do not overlap, no live value is removed and every value
that is left has an expiration. -/
theorem never_evicts_live_of_alone (expireDuration : ℕ) (actions : List (Pool.Action (Call V) Unit))
    (hrun : runActions (step expireDuration) ⟨{}, []⟩ actions = some pool)
    (halone : runActions.Throughout (step expireDuration) Alone ⟨{}, []⟩ actions) :
    ¬ EvictsLive pool ∧ ¬ Immortal pool := by
  have hsound : Sound pool := Pool.invariant_of_throughout Sound Sound.call
    (fun hsound _ _ => hsound.advance) hrun halone (.idle nofun)
  exact ⟨hsound.not_evictsLive, hsound.not_immortal⟩

/-- A value is stored and expires, and the collection is about to remove it. -/
theorem never_evicts_live_of_alone_expired :
    ¬ EvictsLive (⟨⟨some 7, some 10, 11⟩, [.evict]⟩ : Pool (Slot ℕ) (Routine ℕ)) ∧
      ¬ Immortal (⟨⟨some 7, some 10, 11⟩, [.evict]⟩ : Pool (Slot ℕ) (Routine ℕ)) :=
  never_evicts_live_of_alone 10 [.call (.store 7), .advance 0 (), .advance 0 (), .advance 0 (),
      .call (.tick 11), .call .gcExpired, .advance 0 (), .advance 0 ()] rfl
    (.cons rfl rfl (.cons trivial rfl (.cons trivial rfl (.cons trivial rfl (.cons trivial rfl
      (.cons rfl rfl (.cons trivial rfl (.cons trivial rfl trivial))))))))

/-- A value is stored, and its time runs out. -/
def expired : List (Pool.Action (Call ℕ) Unit) :=
  [.call (.store 7), .advance 0 (), .advance 0 (), .advance 0 (), .call (.tick 11)]

/-- A value is renewed after the collection has seen that it expired, and is removed all the same;
one that is stored anew between the two deletions of the collection is left without an
expiration. -/
theorem evicts_live_and_immortal : (∃ actions, ∃ pool : Pool (Slot ℕ) (Routine ℕ),
      runActions (step 10) ⟨{}, []⟩ actions = some pool ∧ EvictsLive pool) ∧
    ∃ actions, ∃ pool : Pool (Slot ℕ) (Routine ℕ),
      runActions (step 10) ⟨{}, []⟩ actions = some pool ∧ Immortal pool :=
  ⟨⟨expired ++ [.call .gcExpired, .advance 0 (), .advance 0 (), .call .loadAndRenew, .advance 1 (),
      .advance 1 (), .advance 1 ()], ⟨⟨some 7, some 21, 11⟩, [.evict]⟩, rfl, by simp, rfl, 21, rfl,
      by decide⟩,
    ⟨expired ++ [.call .gcExpired, .advance 0 (), .advance 0 (), .advance 0 (), .call (.store 8),
      .advance 1 (), .advance 1 (), .advance 1 (), .advance 0 ()], ⟨⟨some 8, none, 11⟩, []⟩, rfl,
      rfl, rfl, rfl⟩⟩

end Qtap.Synq.TTLCache
