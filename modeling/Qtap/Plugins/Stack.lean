import Qtap.Core.Table
import Qtap.Core.Transition

/-!
# Plugin stacks

The plugin manager keeps a stack of plugins for each name in the configuration.  A stack has
an active deployment and the one before it; a deployment is a list of plugins, which come
from a registry with one plugin for each type.  `Init` puts the configuration into the plugin,
where the instances for new connections read it.

A call of `SetConfig` or `Stop` of the manager is cut here at each stack that it works on.
The order in which a map is iterated is the order of the list that stands for it.
-/

namespace Qtap.Plugins

open Qtap.Core

/-- `config.Plugin`. -/
structure PluginConfig (T C : Type*) where
  type : T
  config : C
  deriving DecidableEq, Repr

/-- `config.Stack`. -/
abbrev StackConfig (T C : Type*) := List (PluginConfig T C)

/-- `Stack`; a deployment is the list of its plugins, and a plugin is its type. -/
structure Stack (T : Type*) where
  activeDeployment : Option (List T)
  inactiveDeployment : Option (List T)
  configSnapshot : String
  deriving DecidableEq, Repr

/-- `NewStack`. -/
def Stack.new {T : Type*} : Stack T := ⟨none, none, ""⟩

/-- The plugin registry, with what `Init` makes of a configuration, the plugins that are part
of every stack, and the serialisation of configurations by a library. -/
structure Setting (N T C S : Type*) where
  registry : T → Option (C → S)
  persistentPlugins : List (PluginConfig T C)
  marshalStack : StackConfig T C → Option String
  marshalStacks : List (N × StackConfig T C) → Option String

/-- The manager with the state of the registered plugins: the configuration since the last
`Init` and, for the history, the number of calls of `Destroy`. -/
structure Manager (N T S : Type*) where
  configs : T → Option S
  destroyed : T → ℕ
  stacksByName : N → Option (Stack T)
  names : List N
  configSnapshot : String

/-- What is left to do of a call. -/
inductive Work (N T C : Type*) where
  | idle
  | setting (rest : List (N × StackConfig T C)) (names : List N)
  | removing (rest : List N)
  | stopping (rest : List N)

structure State (N T C S : Type*) where
  manager : Manager N T S
  work : Work N T C

inductive Action (N T C : Type*) where
  | setConfig (confs : List (N × StackConfig T C))
  | stop
  | advance

variable {N T C S : Type*} [DecidableEq N] [DecidableEq T]

/-- The plugins of a deployment for the configuration. -/
def Setting.plugins (setting : Setting N T C S) (conf : StackConfig T C) : StackConfig T C :=
  conf ++ setting.persistentPlugins

namespace Manager

def empty : Manager N T S where
  configs := fun _ => none
  destroyed := fun _ => 0
  stacksByName := fun _ => none
  names := []
  configSnapshot := ""

/-- The loop of `StackDeployment.Setup`: the manager and the plugins of the deployment. -/
def setup (setting : Setting N T C S) (manager : Manager N T S) :
    StackConfig T C → Manager N T S × List T
  | [] => (manager, [])
  | plugin :: rest =>
    match setting.registry plugin.type with
    | none => setup setting manager rest
    | some init =>
      let initialised :=
        { manager with
          configs := Function.update manager.configs plugin.type (some (init plugin.config)) }
      ((setup setting initialised rest).1, plugin.type :: (setup setting initialised rest).2)

/-- `StackDeployment.Teardown`. -/
def teardown (manager : Manager N T S) (plugins : List T) : Manager N T S :=
  { manager with
    destroyed := fun type => manager.destroyed type + plugins.count type }

def setStack (manager : Manager N T S) (name : N) (stack : Stack T) : Manager N T S :=
  { manager with
    stacksByName := Function.update manager.stacksByName name (some stack)
    names := if name ∈ manager.names then manager.names else manager.names ++ [name] }

/-- `Stack.SetConfig`; nothing ever stores the snapshot. -/
def setStackConfig (setting : Setting N T C S) (manager : Manager N T S) (name : N)
    (conf : StackConfig T C) : Option (Manager N T S) :=
  let stack := (manager.stacksByName name).getD .new
  match setting.marshalStack conf with
  | none => none
  | some snapshot =>
    if stack.configSnapshot = snapshot then some (manager.setStack name stack)
    else
      let deployed := manager.setup setting (setting.plugins conf)
      let retired := deployed.1.teardown (stack.inactiveDeployment.getD [])
      some (retired.setStack name
        { stack with
          activeDeployment := some deployed.2
          inactiveDeployment := stack.activeDeployment })

def removeStack (manager : Manager N T S) (name : N) : Manager N T S :=
  { manager with
    stacksByName := Function.update manager.stacksByName name none
    names := manager.names.filter (· ≠ name) }

/-- `Stack.Teardown`. -/
def teardownStack (manager : Manager N T S) (name : N) : Manager N T S :=
  match manager.stacksByName name with
  | none => manager
  | some stack =>
    (manager.teardown (stack.activeDeployment.getD [])).teardown (stack.inactiveDeployment.getD [])

end Manager

namespace State

def initial : State N T C S := ⟨.empty, .idle⟩

/-- The names of a map are distinct, and a configuration that serialises as the last one did
is left alone. -/
def setConfig (setting : Setting N T C S) (state : State N T C S)
    (confs : List (N × StackConfig T C)) : Option (State N T C S) :=
  if (confs.map Prod.fst).Nodup then
    match setting.marshalStacks confs with
    | none => some state
    | some snapshot =>
      if state.manager.configSnapshot = snapshot then some state
      else some ⟨{ state.manager with configSnapshot := snapshot },
        .setting confs (confs.map Prod.fst)⟩
  else none

/-- One stack of `reconcileStacks` or of `Stop`. -/
def advance (setting : Setting N T C S) (state : State N T C S) : Option (State N T C S) :=
  match state.work with
  | .idle => none
  | .setting ((name, conf) :: rest) names =>
    match state.manager.setStackConfig setting name conf with
    | none => some ⟨state.manager, .idle⟩
    | some manager => some ⟨manager, .setting rest names⟩
  | .setting [] names =>
    some ⟨state.manager, .removing (state.manager.names.filter (· ∉ names))⟩
  | .removing (name :: rest) => some ⟨state.manager.removeStack name, .removing rest⟩
  | .removing [] => some ⟨state.manager, .idle⟩
  | .stopping (name :: rest) => some ⟨state.manager.teardownStack name, .stopping rest⟩
  | .stopping [] => some ⟨state.manager, .idle⟩

def step (setting : Setting N T C S) (state : State N T C S) :
    Action N T C → Option (State N T C S)
  | .setConfig confs =>
    match state.work with
    | .idle => state.setConfig setting confs
    | _ => none
  | .stop =>
    match state.work with
    | .idle => some { state with work := .stopping state.manager.names }
    | _ => none
  | .advance => state.advance setting

end State

/-! ## The HTTP capture plugin -/

namespace HttpCapture

structure LogRule (R : Type*) where
  name : String
  expr : String
  level : String
  format : String
  rule : Option R
  deriving DecidableEq, Repr

structure Config (R : Type*) where
  level : String
  format : String
  objectStoreID : String
  rules : List (LogRule R)
  deriving DecidableEq, Repr

def captureLevelNone : String := "none"

def captureLevelHeaders : String := "headers"

/-- Legacy from `access_logs`. -/
def captureLevelDetails : String := "details"

def outputFormatJSON : String := "json"

/-- A rule without a format gets that of the configuration, and its expression is parsed. -/
def compileRule {R : Type*} (parse : String → Option R) (format : String) (rule : LogRule R) :
    LogRule R :=
  { rule with
    format := if rule.format = "" then format else rule.format
    rule := parse rule.expr }

/-- `Factory.Init`: what a YAML node is decoded into over the defaults, and what the rule
library makes of an expression, are parameters. -/
def init {Y R : Type*} (decode : Y → Config R → Config R) (parse : String → Option R)
    (node : Y) : Config R :=
  let cfg := decode node ⟨captureLevelNone, outputFormatJSON, "", []⟩
  { cfg with
    level := if cfg.level = captureLevelDetails then captureLevelHeaders else cfg.level
    rules := cfg.rules.map (compileRule parse cfg.format) }

structure Instance (R O K : Type*) where
  level : String
  format : String
  rules : List (LogRule R)
  objectstore : O
  rulekit : Option K

/-- `Factory.NewHttpInstance`; without its object store there is no instance. -/
def newHttpInstance {R O K : Type*} (cfg : Config R) (objectStore : String → Option O)
    (rulekit : Option K) : Option (Instance R O K) :=
  (objectStore cfg.objectStoreID).map fun store =>
    ⟨cfg.level, cfg.format, cfg.rules, store, rulekit⟩

end HttpCapture

end Qtap.Plugins
