import Qtap.Plugins.Stack

/-!
# Deployments of a plugin stack

A stack keeps its active deployment and the one before it.  `SetConfig` compares the serialised
configuration with a snapshot in order to leave an unchanged stack alone, but nothing stores the
snapshot, so that every call deploys anew and destroys the plugins of the deployment before the
last one.

A deployment asks each of its plugins for an instance, by the interfaces that the plugin
implements.  The plugins are wrapped to catch their panics, and the wrapper implements every
interface, whatever the plugin inside it does.
-/

namespace Qtap.Plugins

/-! ## Configurations of one stack -/

/-- `StackDeployment`; the number tells it from the others of its stack. -/
structure StackDeployment (T : Type*) where
  number : ℕ
  plugins : List T
  deriving DecidableEq, Repr

/-- `Stack`, with the number of deployments made for it and the plugins destroyed, in order. -/
structure DeployedStack (T C : Type*) where
  persistentPlugins : List (PluginConfig T C) := []
  activeDeployment : Option (StackDeployment T) := none
  inactiveDeployment : Option (StackDeployment T) := none
  configSnapshot : String := ""
  deployments : ℕ := 0
  destroyed : List T := []
  deriving DecidableEq, Repr

inductive StackCall (T C : Type*) where
  | setConfig (conf : StackConfig T C)
  | setPersistentPlugins (plugins : List (PluginConfig T C))
  | teardown

namespace DeployedStack

variable {T C : Type*}

/-- `StackDeployment.Teardown`. -/
def teardownOf (stack : DeployedStack T C) (deployment : Option (StackDeployment T)) :
    DeployedStack T C :=
  { stack with destroyed := stack.destroyed ++ deployment.toList.flatMap StackDeployment.plugins }

variable (registered : T → Bool) (marshal : StackConfig T C → Option String)

/-- `StackDeployment.Setup`: a plugin that is not registered is left out. -/
def setup (stack : DeployedStack T C) (conf : StackConfig T C) : List T :=
  ((conf ++ stack.persistentPlugins).map PluginConfig.type).filter registered

/-- `Stack.SetConfig`; what cannot be serialised is an error. -/
def setConfig (stack : DeployedStack T C) (conf : StackConfig T C) : DeployedStack T C :=
  match marshal conf with
  | none => stack
  | some snapshot =>
    if stack.configSnapshot = snapshot then stack
    else
      { stack.teardownOf stack.inactiveDeployment with
        activeDeployment := some ⟨stack.deployments, stack.setup registered conf⟩
        inactiveDeployment := stack.activeDeployment
        deployments := stack.deployments + 1 }

def call (stack : DeployedStack T C) : StackCall T C → DeployedStack T C
  | .setConfig conf => stack.setConfig registered marshal conf
  | .setPersistentPlugins plugins => { stack with persistentPlugins := plugins }
  | .teardown => (stack.teardownOf stack.activeDeployment).teardownOf stack.inactiveDeployment

/-- The stack after its calls. -/
def run (calls : List (StackCall T C)) : DeployedStack T C :=
  calls.foldl (call registered marshal) {}

/-- `SetConfig` changes neither the active deployment nor any plugin. -/
def Settled (stack : DeployedStack T C) (conf : StackConfig T C) : Prop :=
  (stack.setConfig registered marshal conf).activeDeployment = stack.activeDeployment ∧
    (stack.setConfig registered marshal conf).destroyed = stack.destroyed

variable {registered marshal}

theorem configSnapshot_setConfig (stack : DeployedStack T C) (conf : StackConfig T C) :
    (stack.setConfig registered marshal conf).configSnapshot = stack.configSnapshot := by
  rw [setConfig]
  split
  · rfl
  · split_ifs <;> rfl

theorem configSnapshot_run (calls : List (StackCall T C)) :
    (run registered marshal calls).configSnapshot = "" := by
  induction calls using List.reverseRecOn with
  | nil => rfl
  | append_singleton calls last ih =>
    rw [run, List.foldl_concat]
    cases last with
    | setConfig conf => exact (configSnapshot_setConfig _ conf).trans ih
    | setPersistentPlugins | teardown => exact ih

/-- After any calls, the second of two calls of `SetConfig` with one configuration leaves the
stack alone if and only if the configuration has no text, or the empty one. -/
theorem second_setConfig_settled_iff (registered : T → Bool)
    (marshal : StackConfig T C → Option String) (calls : List (StackCall T C))
    (conf : StackConfig T C) :
    ((run registered marshal calls).setConfig registered marshal conf).Settled registered marshal
        conf ↔ marshal conf = none ∨ marshal conf = some "" := by
  have hsnapshot := @configSnapshot_run T C registered marshal calls
  cases hmarshal : marshal conf with
  | none => simp [Settled, setConfig, hmarshal]
  | some snapshot =>
    by_cases hempty : snapshot = ""
    · simp [Settled, setConfig, hmarshal, hsnapshot, hempty]
    · simp [Settled, setConfig, hmarshal, hsnapshot, hempty, Ne.symm hempty, teardownOf]

/-- The third of three calls with the same configuration deploys again and destroys the plugin
of the first deployment. -/
theorem setConfig_redeploys :
    let conf : StackConfig ℕ Unit := [⟨7, ()⟩]
    let stack := run (fun _ => true) (fun _ => some "plugins") [.setConfig conf, .setConfig conf]
    let next := stack.setConfig (fun _ => true) (fun _ => some "plugins") conf
    stack.activeDeployment = some ⟨1, [7]⟩ ∧ next.activeDeployment = some ⟨2, [7]⟩ ∧
      stack.destroyed = [] ∧ next.destroyed = [7] := by
  decide

end DeployedStack

/-! ## Instances for a connection -/

inductive ConnectionType where
  | unknown
  | http
  | grpc
  | redis
  | mysql
  | kafka
  deriving DecidableEq, Repr

/-- `HttpPlugin` and its like. -/
inductive Interface where
  | http
  | grpc
  | redis
  | mysql
  | kafka
  deriving DecidableEq, Repr

/-- What a method like `NewHttpInstance` does. -/
inductive Made (I : Type*) where
  | panics
  | nil
  | made (inst : I)
  deriving DecidableEq, Repr

/-- A plugin, by the interfaces it implements. -/
abbrev Plugin (I : Type*) := Interface → Option (Made I)

/-- The interfaces that `NewStack` tries, in order. -/
def ConnectionType.interfaces : ConnectionType → List Interface
  | .unknown => []
  | .http => [.http]
  | .grpc => [.grpc, .http]
  | .redis => [.redis]
  | .mysql => [.mysql]
  | .kafka => [.kafka]

variable {I : Type*}

/-- The method that `NewStack` calls. -/
def Plugin.method (connType : ConnectionType) (plugin : Plugin I) : Option (Interface × Made I) :=
  connType.interfaces.findSome? fun kind => (plugin kind).map (kind, ·)

/-- The turn of one plugin in `NewStack`: its instance if it has one, with its kind, unless a
panic goes through to the caller. -/
def Plugin.newInstance (connType : ConnectionType) (plugin : Plugin I) :
    Option (Option (Interface × I)) :=
  match plugin.method connType with
  | some (_, .panics) => none
  | some (kind, .made inst) => some (some (kind, inst))
  | _ => some none

/-- `StackDeployment.NewStack`, with the instances at the places of their plugins. -/
def newStack (connType : ConnectionType) (plugins : List (Plugin I)) :
    Option (List (Option (Interface × I))) :=
  plugins.mapM (Plugin.newInstance connType)

/-- `PanicCatcher`: every interface, with no instance where the plugin has none or panics. -/
def Plugin.panicCatcher (plugin : Plugin I) : Plugin I := fun kind =>
  match plugin kind with
  | some (.made inst) => some (.made inst)
  | _ => some .nil

/-- The plugin does not panic, and on a gRPC connection it does not depend on its HTTP
interface. -/
def Plugin.Transparent (connType : ConnectionType) (plugin : Plugin I) : Prop :=
  (∀ kind, plugin.method connType ≠ some (kind, .panics)) ∧
    (connType = .grpc → plugin .grpc = none → ∀ inst, plugin .http ≠ some (.made inst))

theorem Plugin.newInstance_panicCatcher_single {connType : ConnectionType} {kind : Interface}
    (hkind : connType.interfaces = [kind]) (hgrpc : connType ≠ .grpc) (plugin : Plugin I) :
    plugin.panicCatcher.newInstance connType = plugin.newInstance connType ↔
      plugin.Transparent connType := by
  rcases hmade : plugin kind with _ | _ | _ <;>
    simp [newInstance, method, panicCatcher, Transparent, hkind, hgrpc, hmade]

theorem Plugin.newInstance_panicCatcher_iff (connType : ConnectionType) (plugin : Plugin I) :
    plugin.panicCatcher.newInstance connType = plugin.newInstance connType ↔
      plugin.Transparent connType := by
  cases connType with
  | unknown => simp [newInstance, method, ConnectionType.interfaces, Transparent]
  | grpc =>
    rcases hgrpc : plugin .grpc with _ | _ | _ <;> rcases hhttp : plugin .http with _ | _ | _ <;>
      simp [newInstance, method, ConnectionType.interfaces, panicCatcher, Transparent, hgrpc, hhttp]
  | _ => exact plugin.newInstance_panicCatcher_single rfl (by decide)

/-- The wrapper lets no panic through. -/
theorem Plugin.exists_newInstance_panicCatcher (connType : ConnectionType) (plugin : Plugin I) :
    ∃ inst, plugin.panicCatcher.newInstance connType = some inst := by
  rw [newInstance]
  split
  next kind hmethod =>
    obtain ⟨_, -, hkind⟩ := List.exists_of_findSome?_eq_some hmethod
    rw [panicCatcher] at hkind
    split at hkind <;> cases hkind
  · exact ⟨_, rfl⟩
  · exact ⟨_, rfl⟩

theorem exists_newStack_panicCatcher (connType : ConnectionType) (plugins : List (Plugin I)) :
    ∃ instances, newStack connType (plugins.map Plugin.panicCatcher) = some instances := by
  induction plugins with
  | nil => exact ⟨[], rfl⟩
  | cons plugin plugins ih =>
    obtain ⟨inst, hinst⟩ := plugin.exists_newInstance_panicCatcher connType
    obtain ⟨instances, hinstances⟩ := ih
    rw [newStack] at hinstances
    rw [newStack, List.map_cons, List.mapM_cons, hinst, hinstances]
    exact ⟨_, rfl⟩

/-- The wrapped plugins have the instances of the bare ones, at the same places and of the same
kinds, if and only if no method that is called panics and, on a gRPC connection, no plugin without
a gRPC interface has an instance by its HTTP interface. -/
theorem newStack_panicCatcher_iff (connType : ConnectionType) (plugins : List (Plugin I)) :
    newStack connType (plugins.map Plugin.panicCatcher) = newStack connType plugins ↔
      ∀ plugin ∈ plugins, plugin.Transparent connType := by
  induction plugins with
  | nil => simp
  | cons plugin plugins ih =>
    obtain ⟨inst, hinst⟩ := plugin.exists_newInstance_panicCatcher connType
    obtain ⟨instances, hinstances⟩ := exists_newStack_panicCatcher connType plugins
    rw [List.forall_mem_cons, ← ih, ← plugin.newInstance_panicCatcher_iff]
    simp only [newStack] at hinstances ⊢
    rw [List.map_cons, List.mapM_cons, List.mapM_cons, hinst, hinstances]
    cases plugin.newInstance connType <;> cases plugins.mapM (Plugin.newInstance connType) <;> simp

/-- On a gRPC connection a plugin with only an HTTP interface has an instance, and none when it is
wrapped. -/
theorem newStack_grpc_drops_http :
    let plugin : Plugin ℕ := fun kind => if kind = .http then some (.made 7) else none
    newStack .grpc [plugin] = some [some (.http, 7)] ∧
      newStack .grpc [plugin.panicCatcher] = some [none] :=
  ⟨rfl, rfl⟩

end Qtap.Plugins
