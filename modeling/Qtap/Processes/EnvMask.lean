import Mathlib.Tactic

/-!
# The environment variables that are kept

A process keeps the variables that are in the mask: those put there when the manager was set up,
and those that tags of the configuration are read from.  `SetConfig` takes back what the tags
before it added and adds what the new tags need; what it takes back are the keys of the tags, and
not the locations under which it added them.
-/

namespace Qtap.Processes

inductive TagSource where
  | env
  | k8sLabel
  | k8sAnnotation
  | containerLabel
  deriving DecidableEq, Repr

/-- `config.Tag`. -/
structure Tag where
  key : String
  source : TagSource
  location : String
  deriving DecidableEq, Repr

/-- The tags of a configuration, which may be nil. -/
abbrev TagConfig := Option (List Tag)

def TagConfig.locations (cfg : TagConfig) : Finset String :=
  (((cfg.getD []).filter (·.source = .env)).map Tag.location).toFinset

/-- The fields of `Manager` that `SetConfig` uses for the mask. -/
structure EnvMask where
  envMask : Finset String
  envTags : List Tag
  deriving DecidableEq

namespace EnvMask

/-- `MaskEnvVars` for the variables, and `Start`. -/
def start (envVars : List String) : EnvMask :=
  ⟨envVars.toFinset ∪ {"QPOINT_STRATEGY", "QPOINT_TAGS"}, []⟩

def setConfig (manager : EnvMask) (cfg : TagConfig) : EnvMask where
  envMask := manager.envMask \ (manager.envTags.map Tag.key).toFinset ∪ cfg.locations
  envTags := cfg.getD manager.envTags

/-- After each of the configurations the mask is what the variables and the last of them ask for. -/
def Exact (base : Finset String) (manager : EnvMask) : List TagConfig → Prop
  | [] => True
  | cfg :: later =>
    (manager.setConfig cfg).envMask = base ∪ cfg.locations ∧
      Exact base (manager.setConfig cfg) later

/-- Of each configuration, the next one still asks for the variables that are keys of the tags
held, and for the locations that are not. -/
def Spared (base : Finset String) : List Tag → TagConfig → List TagConfig → Prop
  | _, _, [] => True
  | envTags, last, cfg :: later =>
    (∀ name ∈ base, name ∈ envTags.map Tag.key → name ∈ cfg.locations) ∧
    (∀ name ∈ last.locations, name ∈ base ∨ name ∈ envTags.map Tag.key ∨ name ∈ cfg.locations) ∧
    Spared base (cfg.getD envTags) cfg later

/-- One configuration after another, from a mask that was right. -/
theorem setConfig_envMask_eq_iff {base : Finset String} {manager : EnvMask} {last : TagConfig}
    (hmask : manager.envMask = base ∪ last.locations) (cfg : TagConfig) :
    (manager.setConfig cfg).envMask = base ∪ cfg.locations ↔
      (∀ name ∈ base, name ∈ manager.envTags.map Tag.key → name ∈ cfg.locations) ∧
      ∀ name ∈ last.locations,
        name ∈ base ∨ name ∈ manager.envTags.map Tag.key ∨ name ∈ cfg.locations := by
  rw [setConfig, hmask, Finset.ext_iff, ← forall_and]
  refine forall_congr' fun name => ?_
  simp only [Finset.mem_union, Finset.mem_sdiff, List.mem_toFinset]
  tauto

theorem exact_iff_spared {base : Finset String} {manager : EnvMask} {last : TagConfig}
    (hmask : manager.envMask = base ∪ last.locations) (history : List TagConfig) :
    Exact base manager history ↔ Spared base manager.envTags last history := by
  induction history generalizing manager last with
  | nil => exact Iff.rfl
  | cons cfg later ih =>
    rw [Exact, Spared, setConfig_envMask_eq_iff hmask, and_assoc]
    refine and_congr_right fun hkeys => and_congr_right fun hlocations => ih ?_
    exact (setConfig_envMask_eq_iff hmask cfg).2 ⟨hkeys, hlocations⟩

/-- The mask follows the configurations exactly when what one of them leaves behind or takes away
is asked for by the next. -/
theorem envMask_follows_config_iff (envVars : List String) (history : List TagConfig) :
    Exact (start envVars).envMask (start envVars) history ↔
      Spared (start envVars).envMask [] none history :=
  exact_iff_spared (Finset.union_empty _).symm history

/-- A tag's location stays behind, and a variable that is the key of a tag is lost. -/
theorem envMask_keeps_and_loses :
    ((start []).setConfig (some [⟨"team", .env, "TEAM"⟩])).setConfig (some []) =
      ⟨{"QPOINT_STRATEGY", "QPOINT_TAGS", "TEAM"}, []⟩ ∧
    ((start ["JAVA_HOME"]).setConfig (some [⟨"JAVA_HOME", .k8sLabel, "java"⟩])).setConfig
      (some []) = ⟨{"QPOINT_STRATEGY", "QPOINT_TAGS"}, []⟩ := by
  decide

end EnvMask

end Qtap.Processes
