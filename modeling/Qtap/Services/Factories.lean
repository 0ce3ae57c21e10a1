import Qtap.Services.Manager

/-!
# The factory registry after a configuration

A configuration puts its factories under their keys and closes those that it meets there.
Keys that it does not plan keep their factory, which is closed all the same when it was met
under another key, and a key that is planned twice closes a factory of the plan itself.  When
every configuration plans each key once and all keys of the one before, the registry holds
the factories of the last plan and the others were closed once.
-/

namespace Qtap.Services

open Function List Qtap.Core

variable {F T C : Type*} [DecidableEq T]
variable {plan : List (Planned T C)} {key : ServiceKey T} {factory : ℕ}

/-! ## The work on a plan -/

omit [DecidableEq T] in
theorem mem_assignments :
    (key, factory) ∈ assignments plan ↔ ∃ cfg ∈ plan, key ∈ cfg.keys ∧ cfg.factory = factory := by
  rw [assignments, mem_flatMap]
  constructor
  · rintro ⟨cfg, hcfg, hmem⟩
    obtain ⟨_, hfound, heq⟩ := mem_map.1 hmem
    obtain ⟨rfl, rfl⟩ := Prod.mk.inj heq
    exact ⟨cfg, hcfg, hfound, rfl⟩
  · rintro ⟨cfg, hcfg, hkey, rfl⟩
    exact ⟨cfg, hcfg, mem_map_of_mem hkey⟩

omit [DecidableEq T] in
theorem map_fst_assignments : (assignments plan).map Prod.fst = plan.flatMap Planned.keys := by
  rw [assignments, map_flatMap]
  simp [Function.comp_def, map_id']

namespace Registration

variable {registration : Registration T} {entries : List (ServiceKey T × ℕ)}

theorem factories_foldl_register :
    (entries.foldl register registration).factories = storeAll registration.factories entries := by
  induction entries generalizing registration with
  | nil => rfl
  | cons entry entries ih => exact ih

/-- A factory is replaced when it is met under one of the keys. -/
theorem replacements_foldl_register (hnodup : (entries.map Prod.fst).Nodup) :
    (entries.foldl register registration).replacements factory ≠ none ↔
      registration.replacements factory ≠ none ∨
        ∃ entry ∈ entries, registration.factories entry.1 = some factory := by
  induction entries generalizing registration with
  | nil => simp
  | cons entry entries ih =>
    obtain ⟨hnew, hrest⟩ := nodup_cons.1 hnodup
    -- the later keys still have the factory that they had
    have hlater : ∀ other ∈ entries,
        (registration.register entry).factories other.1 = registration.factories other.1 := by
      intro other hother
      apply update_of_ne
      rintro heq
      exact hnew (heq ▸ mem_map_of_mem hother)
    have hfirst : (registration.register entry).replacements factory ≠ none ↔
        registration.replacements factory ≠ none ∨
          registration.factories entry.1 = some factory := by
      rw [register]
      cases hold : registration.factories entry.1 with
      | none => simp
      | some old =>
        rcases eq_or_ne factory old with rfl | hne
        · simp
        · simp [update_of_ne hne, hne.symm]
    rw [foldl_cons, ih hrest, hfirst, or_assoc]
    apply or_congr_right
    simp only [mem_cons, exists_eq_or_imp]
    apply or_congr_right
    constructor
    · rintro ⟨other, hother, hfound⟩
      exact ⟨other, hother, (hlater other hother).symm.trans hfound⟩
    · rintro ⟨other, hother, hfound⟩
      exact ⟨other, hother, (hlater other hother).trans hfound⟩

end Registration

/-! ## The invariant -/

/-- The constructors return factories that were never used, no key is planned twice, and all
keys of the registry are planned again. -/
structure Orderly (state : State T C) (plan : List (Planned T C)) : Prop where
  distinct : (plan.flatMap Planned.keys).Nodup
  covers : ∀ key, state.manager.factories key ≠ none → ∃ cfg ∈ plan, key ∈ cfg.keys
  different : (plan.map Planned.factory).Nodup
  fresh : ∀ cfg ∈ plan, state.manager.initialised cfg.factory = none

/-- The registry holds the factories of the last plan, which are open; those of the plans
before were closed once. -/
structure Current (state : State T C) : Prop where
  registered : ∀ key factory, state.manager.factories key = some factory ↔
    ∃ cfg ∈ state.plan, key ∈ cfg.keys ∧ cfg.factory = factory
  initialised : ∀ cfg ∈ state.plan, state.manager.initialised cfg.factory = some cfg.config
  past : ∀ cfg ∈ state.past, state.manager.initialised cfg.factory ≠ none
  opened : ∀ cfg ∈ state.plan, state.manager.replacedBy cfg.factory = []
  closed : ∀ cfg ∈ state.past, (state.manager.replacedBy cfg.factory).length = 1
  unused : ∀ factory, state.manager.initialised factory = none →
    state.manager.replacedBy factory = []
  keyed : ∀ cfg ∈ state.plan, cfg.keys ≠ []
  apart : ∀ cfg ∈ state.past, ∀ current ∈ state.plan, cfg.factory ≠ current.factory

omit [DecidableEq T] in
theorem current_initial : Current (State.initial : State T C) where
  registered := by simp [State.initial, Manager.empty]
  initialised := nofun
  past := nofun
  opened := nofun
  closed := nofun
  unused := fun _ _ => rfl
  keyed := nofun
  apart := nofun

namespace Current

variable {state : State T C} (hcurrent : Current state) (horderly : Orderly state plan)

include horderly

theorem factories_setConfig :
    (state.manager.setConfig plan).factories key = some factory ↔
      ∃ cfg ∈ plan, key ∈ cfg.keys ∧ cfg.factory = factory := by
  have hnodup : ((assignments plan).map Prod.fst).Nodup := by
    rw [map_fst_assignments]
    exact horderly.distinct
  rw [Manager.setConfig, Registration.factories_foldl_register, storeAll_eq_some_iff hnodup,
    mem_assignments, or_iff_left]
  rintro ⟨hkey, hfound⟩
  obtain ⟨cfg, hcfg, hmem⟩ := horderly.covers key (Option.ne_none_iff_exists'.2 ⟨factory, hfound⟩)
  rw [map_fst_assignments] at hkey
  exact hkey (mem_flatMap.2 ⟨cfg, hcfg, hmem⟩)

theorem initialised_setConfig {cfg : Planned T C} (hcfg : cfg ∈ plan) :
    (state.manager.setConfig plan).initialised cfg.factory = some cfg.config := by
  apply storeAll_of_mem
  · rw [map_map]
    exact horderly.different
  · exact mem_map_of_mem hcfg

omit horderly in
theorem initialised_setConfig_of_not_mem (hother : ∀ cfg ∈ plan, cfg.factory ≠ factory) :
    (state.manager.setConfig plan).initialised factory = state.manager.initialised factory := by
  apply storeAll_of_not_mem
  rw [map_map]
  intro hmem
  obtain ⟨cfg, hcfg, hfactory⟩ := mem_map.1 hmem
  exact hother cfg hcfg hfactory

theorem initialised_setConfig_ne_none (hused : state.manager.initialised factory ≠ none) :
    (state.manager.setConfig plan).initialised factory ≠ none := by
  by_cases hplanned : ∃ cfg ∈ plan, cfg.factory = factory
  · obtain ⟨cfg, hcfg, rfl⟩ := hplanned
    rw [initialised_setConfig horderly hcfg]
    exact Option.some_ne_none _
  · rw [initialised_setConfig_of_not_mem fun cfg hcfg heq => hplanned ⟨cfg, hcfg, heq⟩]
    exact hused

include hcurrent

/-- The factories that are replaced are those of the last plan. -/
theorem replaced_iff :
    ((assignments plan).foldl Registration.register
        ⟨state.manager.factories, fun _ => none⟩).replacements factory ≠ none ↔
      ∃ cfg ∈ state.plan, cfg.factory = factory := by
  have hnodup : ((assignments plan).map Prod.fst).Nodup := by
    rw [map_fst_assignments]
    exact horderly.distinct
  rw [Registration.replacements_foldl_register hnodup, or_iff_right (absurd rfl)]
  constructor
  · rintro ⟨_, _, hfound⟩
    obtain ⟨cfg, hcfg, _, hfactory⟩ := (hcurrent.registered _ _).1 hfound
    exact ⟨cfg, hcfg, hfactory⟩
  · rintro ⟨cfg, hcfg, rfl⟩
    obtain ⟨key, hkey⟩ := exists_mem_of_ne_nil _ (hcurrent.keyed cfg hcfg)
    have hfound := (hcurrent.registered key cfg.factory).2 ⟨cfg, hcfg, hkey, rfl⟩
    obtain ⟨planned, hplanned, hmem⟩ := horderly.covers key (hfound ▸ Option.some_ne_none _)
    exact ⟨(key, planned.factory), mem_assignments.2 ⟨planned, hplanned, hmem, rfl⟩, hfound⟩

theorem replacedBy_of_not_mem (hother : ∀ cfg ∈ state.plan, cfg.factory ≠ factory) :
    (state.manager.setConfig plan).replacedBy factory = state.manager.replacedBy factory := by
  have hnone := not_ne_iff.1 <| mt (hcurrent.replaced_iff horderly).1 <|
    fun ⟨cfg, hcfg, hfactory⟩ => hother cfg hcfg hfactory
  simp [Manager.setConfig, hnone]

theorem replacedBy_of_unused (hunused : state.manager.initialised factory = none) :
    (state.manager.setConfig plan).replacedBy factory = state.manager.replacedBy factory := by
  apply hcurrent.replacedBy_of_not_mem horderly
  rintro cfg hcfg rfl
  rw [hcurrent.initialised cfg hcfg] at hunused
  cases hunused

theorem length_replacedBy_of_mem {cfg : Planned T C} (hcfg : cfg ∈ state.plan) :
    ((state.manager.setConfig plan).replacedBy cfg.factory).length = 1 := by
  obtain ⟨_, hsuccessor⟩ := Option.ne_none_iff_exists'.1
    ((hcurrent.replaced_iff horderly).2 ⟨cfg, hcfg, rfl⟩)
  simp only [Manager.setConfig, hsuccessor, hcurrent.opened cfg hcfg]
  rfl

omit [DecidableEq T] horderly in
/-- The factories of the plans so far were all used. -/
theorem initialised_of_mem {cfg : Planned T C} (hcfg : cfg ∈ state.past ++ state.plan) :
    state.manager.initialised cfg.factory ≠ none := by
  rcases mem_append.1 hcfg with hpast | hlast
  · exact hcurrent.past cfg hpast
  · rw [hcurrent.initialised cfg hlast]
    exact Option.some_ne_none _

theorem setConfig (hkeyed : ∀ cfg ∈ plan, cfg.keys ≠ []) :
    Current ⟨state.manager.setConfig plan, plan, state.past ++ state.plan⟩ where
  registered := fun key factory => factories_setConfig horderly
  initialised := fun cfg hcfg => initialised_setConfig horderly hcfg
  past := fun cfg hcfg => initialised_setConfig_ne_none horderly (hcurrent.initialised_of_mem hcfg)
  opened := by
    intro cfg hcfg
    have hfresh := horderly.fresh cfg hcfg
    rw [hcurrent.replacedBy_of_unused horderly hfresh]
    exact hcurrent.unused cfg.factory hfresh
  closed := by
    intro cfg hcfg
    rcases mem_append.1 hcfg with hpast | hlast
    · rw [hcurrent.replacedBy_of_not_mem horderly fun current hmem =>
        (hcurrent.apart cfg hpast current hmem).symm]
      exact hcurrent.closed cfg hpast
    · exact hcurrent.length_replacedBy_of_mem horderly hlast
  unused := by
    intro factory hunused
    have hbefore := not_ne_iff.1 <| mt (initialised_setConfig_ne_none horderly) <|
      not_ne_iff.2 hunused
    rw [hcurrent.replacedBy_of_unused horderly hbefore]
    exact hcurrent.unused factory hbefore
  keyed := hkeyed
  apart := by
    intro cfg hcfg planned hplanned heq
    apply hcurrent.initialised_of_mem hcfg
    rw [heq]
    exact horderly.fresh planned hplanned

end Current

/-- When each configuration plans the keys of the registry again, each once and with factories
that are new, the registry holds what the last one plans: factories that were initialised for it
and never closed.  Those of the configurations before were closed once. -/
theorem registry_follows_config {factoryFns : F → Option T}
    {configs : List (List (ServiceConfig F C × ℕ))} {state : State T C}
    (hrun : runActions (State.step factoryFns) State.initial configs = some state)
    (horderly : runActions.Throughout (State.step factoryFns)
      (fun state svcs => Orderly state (getServiceConfigs factoryFns svcs))
      State.initial configs) :
    (∀ key factory, state.manager.factories key = some factory ↔
      ∃ cfg ∈ state.plan, key ∈ cfg.keys ∧ cfg.factory = factory) ∧
    (∀ cfg ∈ state.plan, state.manager.initialised cfg.factory = some cfg.config ∧
      state.manager.replacedBy cfg.factory = []) ∧
    ∀ cfg ∈ state.past, (state.manager.replacedBy cfg.factory).length = 1 := by
  have hcurrent : Current state := by
    refine runActions.invariant_of_throughout Current ?_ hrun horderly current_initial
    intro before svcs after haction hafter hbefore
    cases hafter
    exact hbefore.setConfig haction keys_ne_nil_of_mem_assignDefaults
  exact ⟨hcurrent.registered,
    fun cfg hcfg => ⟨hcurrent.initialised cfg hcfg, hcurrent.opened cfg hcfg⟩, hcurrent.closed⟩

/-- One event store after another, under the same ID. -/
theorem registry_follows_config_replaced :
    ∃ state : State Unit String, runActions (State.step some) State.initial
        [[(⟨"a", (), "first", true⟩, 0)], [(⟨"a", (), "second", true⟩, 1)]] = some state ∧
      state.manager.factories ((), "a") = some 1 ∧ state.manager.factories ((), "") = some 1 ∧
      state.manager.initialised 1 = some "second" ∧ state.manager.replacedBy 1 = [] ∧
      (state.manager.replacedBy 0).length = 1 := by
  have horderly : runActions.Throughout (State.step some)
      (fun state svcs => Orderly state (getServiceConfigs some svcs))
      (State.initial : State Unit String)
      [[(⟨"a", (), "first", true⟩, 0)], [(⟨"a", (), "second", true⟩, 1)]] := by
    refine .cons ⟨by decide, ?_, by decide, by decide⟩ rfl <|
      .cons ⟨by decide, ?_, by decide, by decide⟩ rfl trivial
    · exact fun key hkey => absurd rfl hkey
    · intro key hkey
      refine ⟨_, mem_singleton_self _, ?_⟩
      by_contra hother
      have hneither : key ∉ [((), "a"), ((), "")] := hother
      rw [mem_cons, mem_singleton, not_or] at hneither
      apply hkey
      exact (update_of_ne hneither.2 _ _).trans (update_of_ne hneither.1 _ _)
  obtain ⟨hregistered, hopen, hclosed⟩ := registry_follows_config rfl horderly
  have hplanned := mem_singleton_self (⟨true, "a", "second", 1, ()⟩ : Planned Unit String)
  exact ⟨_, rfl, (hregistered _ _).2 ⟨_, hplanned, by decide, rfl⟩,
    (hregistered _ _).2 ⟨_, hplanned, by decide, rfl⟩, (hopen _ hplanned).1,
    (hopen _ hplanned).2, hclosed _ (mem_singleton_self _)⟩

/-- An event store under another ID: the first is closed and keeps its place. -/
theorem closed_factory_registered :
    ∃ state : State Unit String, runActions (State.step some) State.initial
        [[(⟨"a", (), "first", true⟩, 0)], [(⟨"b", (), "second", true⟩, 1)]] = some state ∧
      state.plan.flatMap Planned.keys = [((), "b"), ((), "")] ∧
      state.manager.factories ((), "a") = some 0 ∧ state.manager.replacedBy 0 = [1] :=
  ⟨_, rfl, rfl, rfl, rfl⟩

end Qtap.Services
