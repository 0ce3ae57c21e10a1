import Qtap.Plugins.Stack

/-!
# Isolation of the stacks

The plugins of two stacks with the same type are one and the same: `Init` for one stack
changes what the instances of the other see, and the teardown of a deployment destroys
plugins that the other uses.  Stacks whose plugins have different types do not meet.
-/

namespace Qtap.Plugins

open List Option Function Qtap.Core

variable {N T C S : Type*} [DecidableEq N] [DecidableEq T]
variable {setting : Setting N T C S} {manager next : Manager N T S} {name other : N} {type : T}
  {conf : StackConfig T C}

namespace Manager

/-- The active deployment of the stack uses the plugin. -/
def Uses (manager : Manager N T S) (name : N) (type : T) : Prop :=
  ∃ stack plugins, manager.stacksByName name = some stack ∧
    stack.activeDeployment = some plugins ∧ type ∈ plugins

/-- The active deployment of the stack or the one before it has the plugin. -/
def Holds (manager : Manager N T S) (name : N) (type : T) : Prop :=
  ∃ stack plugins, manager.stacksByName name = some stack ∧
    (stack.activeDeployment = some plugins ∨ stack.inactiveDeployment = some plugins) ∧
    type ∈ plugins

omit [DecidableEq N] [DecidableEq T] in
theorem Uses.holds (huses : manager.Uses name type) : manager.Holds name type := by
  obtain ⟨stack, plugins, hstack, hactive, hmem⟩ := huses
  exact ⟨stack, plugins, hstack, .inl hactive, hmem⟩

/-- The plugin is as it was: the same configuration, and not destroyed. -/
def Unchanged (before after : Manager N T S) (type : T) : Prop :=
  after.configs type = before.configs type ∧ after.destroyed type = before.destroyed type

end Manager

/-- The registered plugins that a deployment for the configuration consists of. -/
def Setting.Lists (setting : Setting N T C S) (conf : StackConfig T C) (type : T) : Prop :=
  setting.registry type ≠ none ∧ ∃ plugin ∈ setting.plugins conf, plugin.type = type

namespace State

/-- The stack that the next step of a call works on. -/
def touched? (state : State N T C S) : Action N T C → Option N
  | .advance =>
    match state.work with
    | .setting ((name, _) :: _) _ => some name
    | .removing (name :: _) => some name
    | .stopping (name :: _) => some name
    | _ => none
  | _ => none

/-- No registered plugin is listed for two stacks of the configuration, or for one while
another has it. -/
def Separate (setting : Setting N T C S) (state : State N T C S) : Action N T C → Prop
  | .setConfig confs =>
    (∀ first ∈ confs, ∀ second ∈ confs, ∀ type, setting.Lists first.2 type →
      setting.Lists second.2 type → first.1 = second.1) ∧
    ∀ first ∈ confs, ∀ other type, setting.Lists first.2 type →
      state.manager.Holds other type → other = first.1
  | _ => True

end State

/-! ## What the operations do -/

namespace Manager

section Setup

variable (manager : Manager N T S) (plugins : StackConfig T C)

omit [DecidableEq N] in
theorem mem_setup : type ∈ (manager.setup setting plugins).2 ↔
    setting.registry type ≠ none ∧ ∃ plugin ∈ plugins, plugin.type = type := by
  induction plugins generalizing manager with
  | nil => simp [setup]
  | cons plugin rest ih =>
    rw [setup]
    cases hregistered : setting.registry plugin.type with
    | none =>
      simp only [ih, mem_cons, exists_eq_or_imp]
      constructor
      · exact fun ⟨hsome, hmem⟩ => ⟨hsome, .inr hmem⟩
      · rintro ⟨hsome, rfl | hmem⟩
        · exact absurd hregistered hsome
        · exact ⟨hsome, hmem⟩
    | some init =>
      simp only [mem_cons, ih, exists_eq_or_imp]
      constructor
      · rintro (rfl | ⟨hsome, hmem⟩)
        · exact ⟨hregistered ▸ some_ne_none init, .inl rfl⟩
        · exact ⟨hsome, .inr hmem⟩
      · rintro ⟨hsome, rfl | hmem⟩
        · exact .inl rfl
        · exact .inr ⟨hsome, hmem⟩

omit [DecidableEq N] in
/-- `Setup` initialises the plugins of the deployment and nothing else. -/
theorem setup_unchanged (hother : type ∉ (manager.setup setting plugins).2) :
    manager.Unchanged (manager.setup setting plugins).1 type := by
  induction plugins generalizing manager with
  | nil => exact ⟨rfl, rfl⟩
  | cons plugin rest ih =>
    rw [setup] at hother ⊢
    cases hregistered : setting.registry plugin.type with
    | none =>
      rw [hregistered] at hother
      exact ih manager hother
    | some =>
      rw [hregistered] at hother
      obtain ⟨hne, hrest⟩ := not_or.1 (mem_cons.not.1 hother)
      obtain ⟨hconfig, hdestroyed⟩ := ih _ hrest
      exact ⟨hconfig.trans (update_of_ne hne _ _), hdestroyed⟩

omit [DecidableEq N] in
theorem setup_stacksByName :
    (manager.setup setting plugins).1.stacksByName = manager.stacksByName := by
  induction plugins generalizing manager with
  | nil => rfl
  | cons plugin rest ih =>
    rw [setup]
    cases setting.registry plugin.type with
    | none => exact ih manager
    | some => exact ih _

end Setup

omit [DecidableEq N] in
theorem teardown_unchanged {plugins : List T} (hother : type ∉ plugins) :
    manager.Unchanged (manager.teardown plugins) type := by
  refine ⟨rfl, ?_⟩
  simp [teardown, count_eq_zero_of_not_mem hother]

omit [DecidableEq T] in
theorem not_mem_getD {deployment : Option (List T)}
    (hother : ∀ plugins, deployment = some plugins → type ∉ plugins) :
    type ∉ deployment.getD [] := by
  cases deployment with
  | none => exact not_mem_nil
  | some plugins => exact hother plugins rfl

omit [DecidableEq N] [DecidableEq T] in
theorem Unchanged.trans {third : Manager N T S} (hfirst : manager.Unchanged next type)
    (hsecond : next.Unchanged third type) : manager.Unchanged third type :=
  ⟨hsecond.1.trans hfirst.1, hsecond.2.trans hfirst.2⟩

omit [DecidableEq T] in
theorem setStack_stacksByName_self (manager : Manager N T S) (name : N) (stack : Stack T) :
    (manager.setStack name stack).stacksByName name = some stack :=
  update_self _ _ _

omit [DecidableEq T] in
theorem setStack_stacksByName_of_ne (stack : Stack T) (hother : other ≠ name) :
    (manager.setStack name stack).stacksByName other = manager.stacksByName other :=
  update_of_ne hother _ _

omit [DecidableEq N] [DecidableEq T] in
theorem holds_congr (hsame : next.stacksByName name = manager.stacksByName name) :
    next.Holds name type ↔ manager.Holds name type := by
  rw [Holds, Holds, hsame]

/-- A stack with its new deployment: others keep theirs, the stack has the plugins that it had
or that are listed, and no other plugin changes. -/
structure Configures (setting : Setting N T C S) (manager next : Manager N T S) (name : N)
    (conf : StackConfig T C) : Prop where
  others : ∀ other, other ≠ name → next.stacksByName other = manager.stacksByName other
  own : ∀ type, next.Holds name type → manager.Holds name type ∨ setting.Lists conf type
  unchanged : ∀ type, ¬ setting.Lists conf type → ¬ manager.Holds name type →
    manager.Unchanged next type

theorem setStackConfig_eq_some (hnext : manager.setStackConfig setting name conf = some next) :
    Configures setting manager next name conf := by
  rw [setStackConfig] at hnext
  -- a plugin of the stack that the configuration finds is held by it
  have hfound : ∀ type plugins, type ∈ plugins →
      ((manager.stacksByName name).getD .new).activeDeployment = some plugins ∨
        ((manager.stacksByName name).getD .new).inactiveDeployment = some plugins →
      manager.Holds name type := by
    intro type plugins hmem hplugins
    cases hstack : manager.stacksByName name with
    | none =>
      rw [hstack] at hplugins
      rcases hplugins with hplugins | hplugins <;> cases hplugins
    | some stack =>
      rw [hstack] at hplugins
      exact ⟨stack, plugins, hstack, hplugins, hmem⟩
  generalize (manager.stacksByName name).getD .new = stack at hnext hfound
  split at hnext
  · cases hnext
  next _ =>
    split at hnext
    · cases hnext
      refine ⟨fun other hother => setStack_stacksByName_of_ne stack hother, ?_,
        fun _ _ _ => ⟨rfl, rfl⟩⟩
      rintro type ⟨found, plugins, hstack, hplugins, hmem⟩
      rw [setStack_stacksByName_self, some.injEq] at hstack
      subst hstack
      exact .inl (hfound type plugins hmem hplugins)
    · cases hnext
      refine ⟨?_, ?_, ?_⟩
      · intro other hother
        rw [setStack_stacksByName_of_ne _ hother]
        exact congrFun (setup_stacksByName manager _) other
      · rintro type ⟨found, plugins, hstack, hplugins, hmem⟩
        rw [setStack_stacksByName_self, some.injEq] at hstack
        subst hstack
        rcases hplugins with hactive | hinactive
        · cases hactive
          exact .inr ((mem_setup manager _).1 hmem)
        · exact .inl (hfound type plugins hmem (.inl hinactive))
      · intro type hlists hholds
        have hsetup := setup_unchanged manager (setting.plugins conf)
          (hlists.comp (mem_setup manager _).1)
        have hretired : type ∉ stack.inactiveDeployment.getD [] :=
          not_mem_getD fun plugins hinactive hmem =>
            hholds (hfound type plugins hmem (.inr hinactive))
        have hteardown : Unchanged (manager.setup setting (setting.plugins conf)).1 _ type :=
          teardown_unchanged hretired
        exact hsetup.trans hteardown

omit [DecidableEq N] in
theorem teardownStack_unchanged (hother : ¬ manager.Holds name type) :
    manager.Unchanged (manager.teardownStack name) type := by
  rw [teardownStack]
  split
  · exact ⟨rfl, rfl⟩
  next stack hstack =>
    have hactive : type ∉ stack.activeDeployment.getD [] :=
      not_mem_getD fun plugins hplugins hmem => hother ⟨stack, plugins, hstack, .inl hplugins, hmem⟩
    have hinactive : type ∉ stack.inactiveDeployment.getD [] :=
      not_mem_getD fun plugins hplugins hmem => hother ⟨stack, plugins, hstack, .inr hplugins, hmem⟩
    exact (teardown_unchanged hactive).trans (teardown_unchanged hinactive)

omit [DecidableEq N] in
theorem teardownStack_stacksByName :
    (manager.teardownStack name).stacksByName = manager.stacksByName := by
  rw [teardownStack]
  split <;> rfl

end Manager

/-! ## The invariant -/

/-- The stacks that are still to be configured. -/
def Work.rest : Work N T C → List (N × StackConfig T C)
  | .setting rest _ => rest
  | _ => []

/-- No plugin belongs to two stacks, counting what is still to be configured. -/
structure Apart (setting : Setting N T C S) (state : State N T C S) : Prop where
  held : ∀ first second type, state.manager.Holds first type → state.manager.Holds second type →
    first = second
  listed : ∀ entry ∈ state.work.rest, ∀ other type, setting.Lists entry.2 type →
    state.manager.Holds other type → other = entry.1
  among : ∀ first ∈ state.work.rest, ∀ second ∈ state.work.rest, ∀ type,
    setting.Lists first.2 type → setting.Lists second.2 type → first.1 = second.1

omit [DecidableEq N] [DecidableEq T] in
theorem apart_initial : Apart setting (State.initial : State N T C S) where
  held := nofun
  listed := nofun
  among := nofun

namespace Apart

variable {state after : State N T C S}

section

variable (hapart : Apart setting state)

include hapart

omit [DecidableEq N] [DecidableEq T] in
/-- Stacks that keep no more than they had, with nothing left to configure. -/
theorem shrink {work : Work N T C} (hrest : work.rest = [])
    (hholds : ∀ name type, next.Holds name type → state.manager.Holds name type) :
    Apart setting ⟨next, work⟩ where
  held := fun first second type hfirst hsecond =>
    hapart.held first second type (hholds first type hfirst) (hholds second type hsecond)
  listed := by
    rw [hrest]
    nofun
  among := by
    rw [hrest]
    nofun

omit [DecidableEq N] [DecidableEq T] in
/-- The next stack gets its deployment. -/
theorem configure {rest : List (N × StackConfig T C)}
    {names : List N} (hwork : state.work = .setting ((name, conf) :: rest) names)
    (hnext : Manager.Configures setting state.manager next name conf) :
    Apart setting ⟨next, .setting rest names⟩ := by
  have hentry : (name, conf) ∈ state.work.rest := by
    rw [hwork]
    exact mem_cons_self
  have hrest : ∀ entry ∈ rest, entry ∈ state.work.rest := by
    rw [hwork]
    exact fun entry hmem => mem_cons_of_mem _ hmem
  -- what a stack holds now it held before, or it is listed and the stack is the configured one
  have hholds : ∀ other type, next.Holds other type →
      state.manager.Holds other type ∨ other = name ∧ setting.Lists conf type := by
    intro other type hother
    rcases eq_or_ne other name with rfl | hne
    · exact (hnext.own type hother).imp_right fun hlists => ⟨rfl, hlists⟩
    · exact .inl ((Manager.holds_congr (hnext.others other hne)).1 hother)
  refine ⟨?_, ?_, ?_⟩
  · intro first second type hfirst hsecond
    rcases hholds first type hfirst with hfirst | ⟨rfl, hlists⟩
    · rcases hholds second type hsecond with hsecond | ⟨rfl, hlists⟩
      · exact hapart.held first second type hfirst hsecond
      · exact hapart.listed _ hentry first type hlists hfirst
    · rcases hholds second type hsecond with hsecond | ⟨rfl, _⟩
      · exact (hapart.listed _ hentry second type hlists hsecond).symm
      · rfl
  · intro entry hmem other type hlists hother
    rcases hholds other type hother with hother | ⟨rfl, hconf⟩
    · exact hapart.listed entry (hrest entry hmem) other type hlists hother
    · exact hapart.among _ hentry entry (hrest entry hmem) type hconf hlists
  · intro first hfirst second hsecond
    exact hapart.among first (hrest first hfirst) second (hrest second hsecond)

omit [DecidableEq T] in
theorem setConfig {confs : List (N × StackConfig T C)}
    (hseparate : state.Separate setting (.setConfig confs))
    (hafter : state.setConfig setting confs = some after) : Apart setting after := by
  rw [State.setConfig] at hafter
  split at hafter
  · split at hafter
    · exact some.inj hafter ▸ hapart
    · split at hafter
      · exact some.inj hafter ▸ hapart
      · cases hafter
        exact ⟨hapart.held, hseparate.2, hseparate.1⟩
  · cases hafter

theorem advance (hafter : state.advance setting = some after) : Apart setting after := by
  rw [State.advance] at hafter
  split at hafter
  · cases hafter
  next hwork =>
    split at hafter
    · cases hafter
      exact hapart.shrink rfl fun _ _ hholds => hholds
    next hnext =>
      cases hafter
      exact hapart.configure hwork (Manager.setStackConfig_eq_some hnext)
  · cases hafter
    exact hapart.shrink rfl fun _ _ hholds => hholds
  next =>
    cases hafter
    refine hapart.shrink rfl ?_
    rintro other type ⟨stack, plugins, hstack, hplugins, hmem⟩
    exact ⟨stack, plugins, update_none_eq_some hstack, hplugins, hmem⟩
  · cases hafter
    exact hapart.shrink rfl fun _ _ hholds => hholds
  next =>
    cases hafter
    refine hapart.shrink rfl ?_
    intro other type hholds
    rwa [Manager.holds_congr (congrFun Manager.teardownStack_stacksByName other)] at hholds
  · cases hafter
    exact hapart.shrink rfl fun _ _ hholds => hholds

theorem step {action : Action N T C} (hseparate : state.Separate setting action)
    (hafter : state.step setting action = some after) : Apart setting after := by
  cases action with
  | setConfig =>
    rw [State.step] at hafter
    split at hafter
    · exact hapart.setConfig hseparate hafter
    · cases hafter
  | stop =>
    rw [State.step] at hafter
    split at hafter
    · cases hafter
      exact hapart.shrink rfl fun _ _ hholds => hholds
    · cases hafter
  | advance => exact hapart.advance hafter

/-- The work on one stack leaves the plugins of another. -/
theorem isolates {action : Action N T C} (hafter : state.step setting action = some after)
    {other : N} {type : T} (hother : state.touched? action ≠ some other)
    (huses : state.manager.Uses other type) : state.manager.Unchanged after.manager type := by
  cases action with
  | setConfig =>
    rw [State.step] at hafter
    split at hafter
    · rw [State.setConfig] at hafter
      split at hafter
      · split at hafter
        · exact some.inj hafter ▸ ⟨rfl, rfl⟩
        · split at hafter <;> exact some.inj hafter ▸ ⟨rfl, rfl⟩
      · cases hafter
    · cases hafter
  | stop =>
    rw [State.step] at hafter
    split at hafter
    · exact some.inj hafter ▸ ⟨rfl, rfl⟩
    · cases hafter
  | advance =>
    rw [State.step, State.advance] at hafter
    rw [State.touched?] at hother
    split at hafter
    · cases hafter
    next name conf rest names hwork =>
      rw [hwork] at hother
      have hname : other ≠ name := fun heq => hother (congrArg some heq.symm)
      have hentry : (name, conf) ∈ state.work.rest := by
        rw [hwork]
        exact mem_cons_self
      split at hafter
      · exact some.inj hafter ▸ ⟨rfl, rfl⟩
      next hnext =>
        cases hafter
        apply (Manager.setStackConfig_eq_some hnext).unchanged
        · exact fun hlists => hname (hapart.listed _ hentry other type hlists huses.holds)
        · exact fun hholds => hname (hapart.held other name type huses.holds hholds)
    · exact some.inj hafter ▸ ⟨rfl, rfl⟩
    · exact some.inj hafter ▸ ⟨rfl, rfl⟩
    · exact some.inj hafter ▸ ⟨rfl, rfl⟩
    next name rest hwork =>
      rw [hwork] at hother
      have hname : other ≠ name := fun heq => hother (congrArg some heq.symm)
      cases hafter
      exact Manager.teardownStack_unchanged fun hholds =>
        hname (hapart.held other name type huses.holds hholds)
    · exact some.inj hafter ▸ ⟨rfl, rfl⟩

end

end Apart

/-- When no registered plugin is listed for two stacks, the work on one stack neither changes
the configuration of a plugin that another uses nor destroys it. -/
theorem stacks_isolated {state : State N T C S} {actions : List (Action N T C)}
    (hrun : runActions (State.step setting) State.initial actions = some state)
    (hseparate : runActions.Throughout (State.step setting) (State.Separate setting)
      State.initial actions) :
    ∀ action after, state.step setting action = some after → ∀ other type,
      state.touched? action ≠ some other → state.manager.Uses other type →
      state.manager.Unchanged after.manager type := by
  have hapart : Apart setting state :=
    runActions.invariant_of_throughout (Apart setting)
      (fun _ _ _ haction hnext hbefore => hbefore.step haction hnext) hrun hseparate apart_initial
  intro action after hafter other type hother huses
  exact hapart.isolates hafter hother huses

/-! ## Two stacks -/

/-- Two kinds of HTTP plugins, with configurations that are decoded already. -/
def captureSetting : Setting Bool Bool (HttpCapture.Config Unit) (HttpCapture.Config Unit) where
  registry := fun _ => some (HttpCapture.init (fun node _ => node) fun _ => none)
  persistentPlugins := []
  marshalStack := fun _ => some "plugins"
  marshalStacks := fun _ => some "stacks"

def capture (type : Bool) (level : String) : StackConfig Bool (HttpCapture.Config Unit) :=
  [⟨type, level, HttpCapture.outputFormatJSON, "", []⟩]

theorem eq_of_lists_capture {type listed : Bool} {level : String}
    (hlists : captureSetting.Lists (capture listed level) type) : type = listed := by
  obtain ⟨_, _, hplugin, rfl⟩ := hlists
  exact congrArg PluginConfig.type (mem_singleton.1 hplugin)

/-- Each stack with a plugin of its own: the first keeps its level. -/
theorem stacks_isolated_captures :
    ∃ state after : State Bool Bool (HttpCapture.Config Unit) (HttpCapture.Config Unit),
      runActions (State.step captureSetting) State.initial
        [.setConfig [(false, capture false "full"), (true, capture true "none")], .advance] =
          some state ∧
      state.step captureSetting .advance = some after ∧ state.manager.Uses false false ∧
      state.manager.Unchanged after.manager false := by
  have hseparate : runActions.Throughout (State.step captureSetting)
      (State.Separate captureSetting) State.initial
      [.setConfig [(false, capture false "full"), (true, capture true "none")], .advance] := by
    refine .cons ⟨?_, nofun⟩ rfl <| .cons trivial rfl trivial
    intro first hfirst second hsecond type hlists hother
    fin_cases hfirst <;> fin_cases hsecond
    · rfl
    · cases (eq_of_lists_capture hlists).symm.trans (eq_of_lists_capture hother)
    · cases (eq_of_lists_capture hlists).symm.trans (eq_of_lists_capture hother)
    · rfl
  refine ⟨_, _, rfl, rfl, (and_iff_left_of_imp fun huses => ?_).2 ⟨_, _, rfl, rfl, mem_cons_self⟩⟩
  exact stacks_isolated rfl hseparate .advance _ rfl _ _ (by decide : some true ≠ some false) huses

/-- Both stacks with the same plugin: the second sets the level of the first. -/
theorem capture_level_shared :
    ∃ state after : State Bool Bool (HttpCapture.Config Unit) (HttpCapture.Config Unit),
      runActions (State.step captureSetting) State.initial
        [.setConfig [(false, capture false "full"), (true, capture false "none")], .advance] =
          some state ∧
      state.touched? .advance = some true ∧ state.step captureSetting .advance = some after ∧
      state.manager.Uses false false ∧
      (state.manager.configs false).map HttpCapture.Config.level = some "full" ∧
      (after.manager.configs false).map HttpCapture.Config.level = some "none" :=
  ⟨_, _, rfl, rfl, rfl, ⟨_, _, rfl, rfl, mem_cons_self⟩, rfl, rfl⟩

end Qtap.Plugins
