import Qtap.Core.Table
import Qtap.Core.Transition

/-!
# Service factories and their configuration

`FactoryManager.SetConfig` plans a factory for each service of the configuration, initialises
them, puts them into the registry under their keys and replaces the factories that were there
before: those are told of their successor and closed.

Factories are numbered.  A configuration comes with the factory that its constructor returned
for each service, whether new or not.  `Init` is taken to succeed.
-/

namespace Qtap.Services

open Qtap.Core

/-- `config.ServiceConfig`; the type is that of the factory. -/
structure ServiceConfig (F C : Type*) where
  id : String
  type : F
  config : C
  isDefault : Bool
  deriving DecidableEq, Repr

/-- `ServiceKey`: the type of the service and the ID, which is empty for the default. -/
abbrev ServiceKey (T : Type*) := T × String

/-- `serviceConfig`. -/
structure Planned (T C : Type*) where
  isDefault : Bool
  id : String
  config : C
  factory : ℕ
  serviceType : T
  deriving DecidableEq, Repr

variable {F T C : Type*} [DecidableEq T]

namespace Planned

def keys (cfg : Planned T C) : List (ServiceKey T) :=
  (if cfg.id ≠ "" then [(cfg.serviceType, cfg.id)] else []) ++
    if cfg.isDefault then [(cfg.serviceType, "")] else []

end Planned

/-- The second loop of `getServiceConfigs`: the first service of a type without a default
becomes the default, and a service that is not the default gets an ID. -/
def assignDefaults : List T → ℕ → List (Planned T C) → List (Planned T C)
  | _, _, [] => []
  | hasDefault, index, cfg :: rest =>
    if cfg.isDefault then cfg :: assignDefaults (cfg.serviceType :: hasDefault) (index + 1) rest
    else if cfg.serviceType ∈ hasDefault then
      (if cfg.id = "" then { cfg with id := "service-" ++ toString index } else cfg) ::
        assignDefaults hasDefault (index + 1) rest
    else
      { cfg with isDefault := true } ::
        assignDefaults (cfg.serviceType :: hasDefault) (index + 1) rest

/-- `getServiceConfigs`; a service without a registered factory is skipped. -/
def getServiceConfigs (factoryFns : F → Option T) (svcs : List (ServiceConfig F C × ℕ)) :
    List (Planned T C) :=
  let cfgs := svcs.filterMap fun svc =>
    (factoryFns svc.1.type).map fun serviceType =>
      ⟨svc.1.isDefault, svc.1.id, svc.1.config, svc.2, serviceType⟩
  let hasDefault := (cfgs.filter Planned.isDefault).map Planned.serviceType
  assignDefaults hasDefault 0 cfgs

/-- The registry, the configuration of the last `Init` of each factory, and the successors with
which `replaceFactory` was called for it; each such call closes it. -/
structure Manager (T C : Type*) where
  factories : ServiceKey T → Option ℕ
  initialised : ℕ → Option C
  replacedBy : ℕ → List ℕ

/-- The registry and the `replacements` map while the plan is worked through. -/
structure Registration (T : Type*) where
  factories : ServiceKey T → Option ℕ
  replacements : ℕ → Option ℕ

/-- The factories under their keys, in the order of the plan. -/
def assignments (plan : List (Planned T C)) : List (ServiceKey T × ℕ) :=
  plan.flatMap fun cfg => cfg.keys.map fun key => (key, cfg.factory)

def Registration.register (registration : Registration T) (assignment : ServiceKey T × ℕ) :
    Registration T where
  factories := Function.update registration.factories assignment.1 (some assignment.2)
  replacements :=
    match registration.factories assignment.1 with
    | some old => Function.update registration.replacements old (some assignment.2)
    | none => registration.replacements

namespace Manager

def empty : Manager T C where
  factories := fun _ => none
  initialised := fun _ => none
  replacedBy := fun _ => []

/-- `FactoryManager.SetConfig` with the plan. -/
def setConfig (manager : Manager T C) (plan : List (Planned T C)) : Manager T C :=
  let registered := (assignments plan).foldl Registration.register
    ⟨manager.factories, fun _ => none⟩
  { factories := registered.factories
    initialised := storeAll manager.initialised (plan.map fun cfg => (cfg.factory, cfg.config))
    replacedBy := fun factory =>
      manager.replacedBy factory ++ (registered.replacements factory).toList }

end Manager

/-- The manager after some configurations, with the plan of the last one and those of the ones
before. -/
structure State (T C : Type*) where
  manager : Manager T C
  plan : List (Planned T C)
  past : List (Planned T C)

namespace State

def initial : State T C := ⟨.empty, [], []⟩

def step (factoryFns : F → Option T) (state : State T C) (svcs : List (ServiceConfig F C × ℕ)) :
    Option (State T C) :=
  let plan := getServiceConfigs factoryFns svcs
  some ⟨state.manager.setConfig plan, plan, state.past ++ state.plan⟩

end State

/-! ## The plan -/

/-- Each service of the plan is the default of its type or has an ID. -/
theorem keys_ne_nil_of_mem_assignDefaults {hasDefault : List T} {index : ℕ}
    {cfgs : List (Planned T C)} : ∀ cfg ∈ assignDefaults hasDefault index cfgs, cfg.keys ≠ [] := by
  induction cfgs generalizing hasDefault index with
  | nil => nofun
  | cons cfg rest ih =>
    rw [assignDefaults]
    split
    next hdefault =>
      refine List.forall_mem_cons.2 ⟨?_, ih⟩
      simp [Planned.keys, hdefault]
    next =>
      split
      · refine List.forall_mem_cons.2 ⟨?_, ih⟩
        split
        · simp [Planned.keys]
        next hid => simp [Planned.keys, hid]
      · refine List.forall_mem_cons.2 ⟨?_, ih⟩
        simp [Planned.keys]

end Qtap.Services
