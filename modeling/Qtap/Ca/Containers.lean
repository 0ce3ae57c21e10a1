import Qtap.Core.Pool

/-!
# The containers of the CA manager

`ProcessStarted` finds or creates the container for the root ID of a process and adds the process
to it; `ProcessStopped` takes the process out and drops the container when it is empty.  Processes
of the container runtime are not tracked.

What is kept under one root ID is a record of its own: the entry of the map refers to one of the
containers that were created for the root ID.  A handler touches only the record of its process.
Of the scan for certificates only the steps that touch the pids of the container are modelled; its
choice says whether `Init` succeeds.
-/

namespace Qtap.Ca.Containers

open Function List Qtap.Core Pool

inductive QpointStrategy where
  | observe
  | ignore
  | audit
  | forward
  | proxy
  deriving DecidableEq, Repr

structure Process where
  pid : ℕ
  rootID : ℕ
  binary : String
  strategy : QpointStrategy
  deriving DecidableEq, Repr

/-- Processes of `runc` are left alone. -/
def Process.ignored (p : Process) : Bool := "runc".toList.isPrefixOf p.binary.toList

structure Container where
  pids : Finset ℕ
  locked : Bool
  initialized : Bool
  deriving DecidableEq

def newContainer : Container := ⟨∅, false, false⟩

structure Root where
  entry : Option ℕ
  heap : ℕ → Container
  created : ℕ
  /-- The processes that have been started and not stopped. -/
  running : List Process

inductive Routine where
  /-- `ProcessStarted`, and within it `Scan`. -/
  | loading (p : Process)
  | creating (p : Process)
  | adding (container : ℕ) (p : Process)
  | scanning (container : ℕ) (p : Process)
  | storing (container : ℕ) (p : Process)
  /-- `ProcessStopped` -/
  | stopping (p : Process)
  | removing (container : ℕ) (p : Process)
  | testing (container : ℕ) (p : Process)
  | dropping (p : Process)
  deriving DecidableEq

def Routine.process : Routine → Process
  | .loading p | .creating p | .adding _ p | .scanning _ p | .storing _ p | .stopping p
  | .removing _ p | .testing _ p | .dropping p => p

/-- The routine belongs to `ProcessStarted`. -/
def Routine.starts : Routine → Bool
  | .loading _ | .creating _ | .adding _ _ | .scanning _ _ | .storing _ _ => true
  | _ => false

namespace Root

def modify (root : Root) (container : ℕ) (change : Container → Container) : Root :=
  { root with heap := update root.heap container (change (root.heap container)) }

@[simp]
theorem heap_modify (root : Root) (container : ℕ) (change : Container → Container) :
    (root.modify container change).heap container = change (root.heap container) :=
  update_self _ _ _

/-- A scan whose `Init` fails returns with the lock of the container held. -/
def resume (root : Root) (routine : Routine) (choice : Bool) : Option (Root × List Routine) :=
  match routine with
  | .loading p =>
    match root.entry with
    | some container => some (root, [.adding container p])
    | none => some (root, [.creating p])
  | .creating p =>
    some ({ root with
      entry := some root.created
      heap := update root.heap root.created newContainer
      created := root.created + 1 }, [.adding root.created p])
  | .adding container p =>
    if p.pid ∈ (root.heap container).pids then some (root, [])
    else some (root.modify container fun c => { c with pids := insert p.pid c.pids },
      if p.strategy = .forward ∨ p.strategy = .proxy then [.scanning container p] else [])
  | .scanning container p =>
    if (root.heap container).locked then none
    else if (root.heap container).initialized ∨ choice then
      some (root.modify container fun c => { c with initialized := true }, [.storing container p])
    else some (root.modify container fun c => { c with initialized := true, locked := true }, [])
  | .storing container p =>
    some (root.modify container fun c => { c with pids := insert p.pid c.pids }, [])
  | .stopping p =>
    match root.entry with
    | some container => some (root, [.removing container p])
    | none => some (root, [])
  | .removing container p =>
    some (root.modify container fun c => { c with pids := c.pids.erase p.pid },
      [.testing container p])
  | .testing container p =>
    if (root.heap container).pids = ∅ then some (root, [.dropping p]) else some (root, [])
  | .dropping _ => some ({ root with entry := none }, [])

end Root

inductive Call where
  | processStarted (p : Process)
  | processStopped (p : Process)
  deriving DecidableEq

def Call.process : Call → Process
  | .processStarted p | .processStopped p => p

/-- A process that starts has a pid of its own among those that run, and one that stops runs. -/
def Root.start (root : Root) : Call → Option (Root × List Routine)
  | .processStarted p =>
    if p.pid ∈ root.running.map Process.pid then none
    else some ({ root with running := root.running ++ [p] },
      if p.ignored then [] else [.loading p])
  | .processStopped p =>
    if p ∈ root.running then some ({ root with running := root.running.erase p }, [.stopping p])
    else none

def start (roots : ℕ → Root) (call : Call) : Option ((ℕ → Root) × List Routine) :=
  ((roots call.process.rootID).start call).map fun after =>
    (update roots call.process.rootID after.1, after.2)

def resume (roots : ℕ → Root) (routine : Routine) (choice : Bool) :
    Option ((ℕ → Root) × List Routine) :=
  ((roots routine.process.rootID).resume routine choice).map fun after =>
    (update roots routine.process.rootID after.1, after.2)

def initial : Pool (ℕ → Root) Routine :=
  ⟨fun _ => ⟨none, fun _ => newContainer, 0, []⟩, []⟩

/-- The handlers of `ProcessStarted` and `ProcessStopped` for one root ID do not overlap, and none
looks for a container while another is about to create it. -/
def Separate (pool : Pool (ℕ → Root) Routine) : Pool.Action Call Bool → Prop
  | .call (.processStarted p) => ∀ routine ∈ pool.routines,
      routine.process.rootID = p.rootID → routine.starts = true
  | .call (.processStopped p) => ∀ routine ∈ pool.routines,
      routine.process.rootID = p.rootID → routine.starts = false
  | .advance index _ =>
    match pool.routines[index]? with
    | some (.loading p) => ∀ q, q.rootID = p.rootID → .creating q ∉ pool.routines
    | _ => True

/-! ## Starting processes -/

variable {container : ℕ} {root next : Root} {routine : Routine}
  {routines others rest : List Routine} {choice : Bool}

/-- A process that the manager tracks has the pid. -/
def Root.Tracks (root : Root) (pid : ℕ) : Prop :=
  ∃ p ∈ root.running, p.ignored = false ∧ p.pid = pid

namespace Routine

def isCreating : Routine → Bool
  | .creating _ => true
  | _ => false

/-- The routine will add the process to the container, where one is known. -/
def Adds (p : Process) : Routine → Prop
  | .loading q | .creating q | .adding _ q => q = p
  | _ => False

/-- The routine is in a handler for a process that starts, in this container. -/
def Enters (container : ℕ) : Routine → Prop
  | .loading _ => True
  | .adding other _ | .scanning other _ | .storing other _ => other = container
  | _ => False

end Routine

/-- There is no container, and at most one handler is about to create it. -/
structure Vacant (root : Root) (routines : List Routine) : Prop where
  entry : root.entry = none
  handlers : ∀ routine ∈ routines, (∃ p, routine = .loading p) ∨ ∃ p, routine = .creating p
  creating : routines.countP Routine.isCreating ≤ 1
  tracked : ∀ routine ∈ routines, root.Tracks routine.process.pid
  running : ∀ p ∈ root.running, p.ignored = false → ∃ routine ∈ routines, routine.Adds p

/-- The handlers in flight add their processes to the container. -/
structure Filling (container : ℕ) (root : Root) (routines : List Routine) : Prop where
  entry : root.entry = some container
  handlers : ∀ routine ∈ routines, routine.Enters container
  tracked : ∀ routine ∈ routines, root.Tracks routine.process.pid
  pids : ∀ pid ∈ (root.heap container).pids, root.Tracks pid
  running : ∀ p ∈ root.running, p.ignored = false →
    p.pid ∈ (root.heap container).pids ∨ ∃ routine ∈ routines, routine.Adds p
  occupied : (root.heap container).pids.Nonempty ∨ ∃ routine ∈ routines, ∃ p, routine.Adds p

namespace Filling

variable (hfilling : Filling container root routines) (hperm : routines.Perm (routine :: others))

include hfilling hperm

/-- A step that puts pids of tracked processes into the container, and leaves nobody behind who
was to be added. -/
theorem advance (hentry : next.entry = root.entry) (hrunning : next.running = root.running)
    (hrest : ∀ routine ∈ rest, routine.Enters container ∧ root.Tracks routine.process.pid)
    (hgrow : (root.heap container).pids ⊆ (next.heap container).pids)
    (hpids : ∀ pid ∈ (next.heap container).pids, root.Tracks pid) (hadds : ∀ p, routine.Adds p →
      p.pid ∈ (next.heap container).pids ∨ ∃ routine ∈ rest, routine.Adds p) :
    Filling container next (others ++ rest) := by
  have htracks : ∀ {pid}, root.Tracks pid → next.Tracks pid := by
    intro pid htracked
    rw [Root.Tracks, hrunning]
    exact htracked
  have hkeep : ∀ p, (∃ routine ∈ routines, routine.Adds p) →
      p.pid ∈ (next.heap container).pids ∨ ∃ routine ∈ others ++ rest, routine.Adds p := by
    rintro p ⟨other, hother, hother_adds⟩
    rcases mem_cons.1 (hperm.mem_iff.1 hother) with rfl | hmem
    · refine (hadds p hother_adds).imp_right ?_
      rintro ⟨started, hstarted, hstarted_adds⟩
      exact ⟨started, mem_append_right _ hstarted, hstarted_adds⟩
    · exact .inr ⟨other, mem_append_left _ hmem, hother_adds⟩
  constructor
  · exact hentry.trans hfilling.entry
  · exact forall_mem_replace hperm hfilling.handlers fun routine hroutine =>
      (hrest routine hroutine).1
  · exact forall_mem_replace hperm (fun other hother => htracks (hfilling.tracked other hother))
      fun routine hroutine => htracks (hrest routine hroutine).2
  · exact fun pid hpid => htracks (hpids pid hpid)
  · intro p hp hignored
    rw [hrunning] at hp
    rcases hfilling.running p hp hignored with hpid | hadded
    · exact .inl (hgrow hpid)
    · exact hkeep p hadded
  · rcases hfilling.occupied with ⟨pid, hpid⟩ | ⟨other, hother, p, hadded⟩
    · exact .inl ⟨pid, hgrow hpid⟩
    · rcases hkeep p ⟨other, hother, hadded⟩ with hpid | ⟨found, hfound, hadds⟩
      · exact .inl ⟨p.pid, hpid⟩
      · exact .inr ⟨found, hfound, p, hadds⟩

theorem insert {p : Process} (htracked : root.Tracks p.pid)
    (hrest : ∀ routine ∈ rest, routine.Enters container ∧ root.Tracks routine.process.pid)
    (hadds : ∀ q, routine.Adds q → q = p) :
    Filling container
      (root.modify container fun c => { c with pids := Insert.insert p.pid c.pids })
      (others ++ rest) := by
  have hheap := root.heap_modify container fun c => { c with pids := Insert.insert p.pid c.pids }
  refine hfilling.advance hperm rfl rfl hrest ?_ ?_ fun q hq => .inl ?_ <;> rw [hheap]
  · exact Finset.subset_insert _ _
  · exact (Finset.forall_mem_insert _ _ _).2 ⟨htracked, hfilling.pids⟩
  · rw [hadds q hq]
    exact Finset.mem_insert_self _ _

theorem resume (hresume : root.resume routine choice = some (next, rest)) :
    Filling container next (others ++ rest) := by
  have hmem : routine ∈ routines := mem_of_stepped hperm
  have htracked := hfilling.tracked routine hmem
  have henters := hfilling.handlers routine hmem
  cases routine with
  | loading =>
    rw [Root.resume, hfilling.entry] at hresume
    cases hresume
    refine hfilling.advance hperm rfl rfl (forall_mem_singleton.2 ⟨rfl, htracked⟩)
      (Finset.Subset.refl _) hfilling.pids ?_
    rintro q rfl
    exact .inr ⟨_, mem_cons_self, rfl⟩
  | adding =>
    cases henters
    rw [Root.resume] at hresume
    split at hresume <;> cases hresume
    next hpid =>
      refine hfilling.advance hperm rfl rfl nofun (Finset.Subset.refl _) hfilling.pids ?_
      rintro q rfl
      exact .inl hpid
    next =>
      refine hfilling.insert hperm htracked ?_ fun q => Eq.symm
      split
      · exact forall_mem_singleton.2 ⟨rfl, htracked⟩
      · nofun
  | scanning =>
    cases henters
    rw [Root.resume] at hresume
    split at hresume
    · cases hresume
    · split at hresume <;> cases hresume
      · refine hfilling.advance hperm rfl rfl (forall_mem_singleton.2 ⟨rfl, htracked⟩) ?_ ?_
          nofun <;> rw [root.heap_modify]
        exact hfilling.pids
      · refine hfilling.advance hperm rfl rfl nofun ?_ ?_ nofun <;> rw [root.heap_modify]
        exact hfilling.pids
  | storing =>
    cases henters
    cases hresume
    exact hfilling.insert hperm htracked nofun nofun
  | _ => exact henters.elim

end Filling

namespace Vacant

variable (hvacant : Vacant root routines) (hperm : routines.Perm (routine :: others))

include hvacant hperm

theorem create {p : Process} (hroutine : routine = .creating p) :
    Filling root.created { root with
      entry := some root.created
      heap := update root.heap root.created newContainer
      created := root.created + 1 } (others ++ [.adding root.created p]) := by
  subst hroutine
  have hheap : update root.heap root.created newContainer root.created = newContainer :=
    update_self _ _ _
  constructor
  · rfl
  · intro other hother
    rcases mem_append.1 hother with hbefore | hadding
    · -- nobody else is about to create
      have hnone := not_counts_of_other hperm hvacant.creating rfl hbefore
      rcases hvacant.handlers other (mem_of_other hperm hbefore) with ⟨q, rfl⟩ | ⟨q, rfl⟩
      · trivial
      · cases hnone
    · rw [mem_singleton.1 hadding]
      rfl
  · exact forall_mem_replace_singleton hperm hvacant.tracked
      (hvacant.tracked (.creating p) (mem_of_stepped hperm))
  · simp only [hheap]
    exact fun pid hpid => absurd hpid (Finset.notMem_empty pid)
  · intro q hq hignored
    refine .inr (exists_mem_replace hperm ?_ (hvacant.running q hq hignored))
    rintro rfl
    exact ⟨_, mem_cons_self, rfl⟩
  · exact .inr (exists_mem_last ⟨p, rfl⟩)

theorem resume (hloading : ∀ p, routine = .loading p → ∀ q, .creating q ∉ routines)
    (hresume : root.resume routine choice = some (next, rest)) :
    Vacant next (others ++ rest) ∨ Filling root.created next (others ++ rest) := by
  have hmem : routine ∈ routines := mem_of_stepped hperm
  rcases hvacant.handlers routine hmem with ⟨p, rfl⟩ | ⟨p, rfl⟩
  · rw [Root.resume, hvacant.entry] at hresume
    cases hresume
    refine .inl ⟨hvacant.entry, ?_, ?_, ?_, fun q hq hignored => ?_⟩
    · exact forall_mem_replace_singleton hperm hvacant.handlers (.inr ⟨p, rfl⟩)
    · refine countP_replace_le_one hperm (fun other hother => ?_) _
      cases other with
      | creating q => exact absurd hother (hloading p rfl q)
      | _ => rfl
    · exact forall_mem_replace_singleton hperm hvacant.tracked (hvacant.tracked (.loading p) hmem)
    · refine exists_mem_replace hperm ?_ (hvacant.running q hq hignored)
      rintro rfl
      exact ⟨_, mem_cons_self, rfl⟩
  · cases hresume
    exact .inr (hvacant.create hperm rfl)

end Vacant

/-! ## Stopping processes -/

namespace Routine

/-- The routine is in a handler for a process that stops, in this container. -/
def Exits (container : ℕ) : Routine → Prop
  | .stopping _ | .dropping _ => True
  | .removing other _ | .testing other _ => other = container
  | _ => False

/-- The routine will take the pid out of the container. -/
def TakesOut (pid : ℕ) : Routine → Prop
  | .stopping p | .removing _ p => p.pid = pid
  | _ => False

/-- The routine drops an empty container. -/
def Drops : Routine → Prop
  | .testing _ _ | .dropping _ => True
  | _ => False

end Routine

/-- There is no container and no process that would have one. -/
structure Deserted (root : Root) (routines : List Routine) : Prop where
  entry : root.entry = none
  handlers : ∀ routine ∈ routines, (∃ p, routine = .stopping p) ∨ ∃ p, routine = .dropping p
  running : ∀ p ∈ root.running, p.ignored = true

/-- The handlers in flight take their processes out of the container, which may be dropped
already. -/
structure Emptying (container : ℕ) (root : Root) (routines : List Routine) : Prop where
  entry : root.entry = some container ∨ root.entry = none
  handlers : ∀ routine ∈ routines, routine.Exits container
  gone : ∀ routine ∈ routines, ∀ p ∈ root.running, ¬ routine.TakesOut p.pid
  running : ∀ p ∈ root.running, p.ignored = false → p.pid ∈ (root.heap container).pids
  pids : ∀ pid ∈ (root.heap container).pids,
    root.Tracks pid ∨ ∃ routine ∈ routines, routine.TakesOut pid
  occupied : (root.heap container).pids.Nonempty → root.entry = some container
  dropped : (root.heap container).pids = ∅ →
    root.entry = none ∨ ∃ routine ∈ routines, routine.Drops
  dropping : ∀ p, .dropping p ∈ routines → (root.heap container).pids = ∅

namespace Emptying

variable (hemptying : Emptying container root routines) (hperm : routines.Perm (routine :: others))

include hemptying

theorem pids_of_entry_none (hnone : root.entry = none) : (root.heap container).pids = ∅ := by
  rw [← Finset.not_nonempty_iff_eq_empty]
  intro hnonempty
  rw [hemptying.occupied hnonempty] at hnone
  cases hnone

include hperm

/-- A step that leaves the record alone. -/
theorem move (hexits : ∀ routine ∈ rest, routine.Exits container)
    (hgone : ∀ routine ∈ rest, ∀ p ∈ root.running, ¬ routine.TakesOut p.pid)
    (htakes : ∀ pid ∈ (root.heap container).pids, routine.TakesOut pid →
      ∃ routine ∈ rest, routine.TakesOut pid)
    (hdrops : (root.heap container).pids = ∅ → routine.Drops → ∃ routine ∈ rest, routine.Drops)
    (hdropping : ∀ p, .dropping p ∈ rest → (root.heap container).pids = ∅) :
    Emptying container root (others ++ rest) := by
  refine { hemptying with
    handlers := forall_mem_replace hperm hemptying.handlers hexits
    gone := forall_mem_replace hperm hemptying.gone hgone
    pids := fun pid hpid => (hemptying.pids pid hpid).imp_right
      (exists_mem_replace hperm (htakes pid hpid))
    dropped := fun hempty => (hemptying.dropped hempty).imp_right
      (exists_mem_replace hperm (hdrops hempty))
    dropping := fun p hp => ?_ }
  rcases mem_append.1 hp with hbefore | hstarted
  · exact hemptying.dropping p (mem_of_other hperm hbefore)
  · exact hdropping p hstarted

theorem remove {p : Process} (hroutine : routine = .removing container p) :
    Emptying container (root.modify container fun c => { c with pids := c.pids.erase p.pid })
      (others ++ [.testing container p]) := by
  subst hroutine
  have hheap := root.heap_modify container fun c => { c with pids := c.pids.erase p.pid }
  have hgone := hemptying.gone _ (mem_of_stepped hperm)
  constructor
  · exact hemptying.entry
  · exact forall_mem_replace_singleton hperm hemptying.handlers rfl
  · exact forall_mem_replace_singleton hperm hemptying.gone (fun _ _ => not_false)
  · intro q hq hignored
    rw [hheap]
    exact Finset.mem_erase.2 ⟨fun heq => hgone q hq heq.symm, hemptying.running q hq hignored⟩
  · intro pid hpid
    rw [hheap] at hpid
    obtain ⟨hne, hpid⟩ := Finset.mem_erase.1 hpid
    refine (hemptying.pids pid hpid).imp_right (exists_mem_replace hperm fun htakes => ?_)
    exact absurd htakes.symm hne
  · rw [hheap]
    exact fun hnonempty => hemptying.occupied (hnonempty.mono (Finset.erase_subset _ _))
  · exact fun _ => .inr (exists_mem_last trivial)
  · intro q hq
    rw [hheap]
    rcases mem_append.1 hq with hbefore | hstarted
    · rw [hemptying.dropping q (mem_of_other hperm hbefore)]
      exact Finset.erase_empty _
    · cases mem_singleton.1 hstarted

theorem drop {p : Process} (hroutine : routine = .dropping p) :
    Emptying container { root with entry := none } (others ++ []) := by
  subst hroutine
  have hempty := hemptying.dropping p (mem_of_stepped hperm)
  exact { hemptying with
    entry := .inr rfl
    handlers := forall_mem_replace hperm hemptying.handlers nofun
    gone := forall_mem_replace hperm hemptying.gone nofun
    pids := fun pid hpid =>
      (hemptying.pids pid hpid).imp_right (exists_mem_replace hperm False.elim)
    occupied := fun hnonempty => absurd hempty (Finset.nonempty_iff_ne_empty.1 hnonempty)
    dropped := fun _ => .inl rfl
    dropping := fun _ _ => hempty }

theorem resume (hresume : root.resume routine choice = some (next, rest)) :
    Emptying container next (others ++ rest) := by
  have hmem : routine ∈ routines := mem_of_stepped hperm
  have hexits := hemptying.handlers routine hmem
  cases routine with
  | stopping p =>
    rw [Root.resume] at hresume
    split at hresume <;> cases hresume
    next other hother =>
      obtain rfl : other = container := by
        rcases hemptying.entry with hentry | hentry <;> rw [hother] at hentry <;> cases hentry
        rfl
      have hgone : ∀ q ∈ root.running, ¬ p.pid = q.pid := hemptying.gone (.stopping p) hmem
      refine hemptying.move hperm (forall_mem_singleton.2 rfl)
        (forall_mem_singleton.2 hgone) (fun pid _ htakes => ?_)
        (fun _ => False.elim) (fun q hq => ?_)
      · exact ⟨_, mem_cons_self, htakes⟩
      · cases mem_singleton.1 hq
    next hnone =>
      have hempty := hemptying.pids_of_entry_none hnone
      refine hemptying.move hperm nofun nofun (fun pid hpid => ?_) (fun _ => False.elim) nofun
      rw [hempty] at hpid
      exact absurd hpid (Finset.notMem_empty pid)
  | removing =>
    cases hexits
    cases hresume
    exact hemptying.remove hperm rfl
  | testing =>
    cases hexits
    rw [Root.resume] at hresume
    split at hresume <;> cases hresume
    next hempty =>
      exact hemptying.move hperm (forall_mem_singleton.2 trivial)
        (forall_mem_singleton.2 fun _ _ => not_false) (fun _ _ => False.elim)
        (fun _ _ => ⟨_, mem_cons_self, trivial⟩) fun _ _ => hempty
    next hnonempty =>
      exact hemptying.move hperm nofun nofun (fun _ _ => False.elim)
        (fun hempty => absurd hempty hnonempty) nofun
  | dropping =>
    cases hresume
    exact hemptying.drop hperm rfl
  | _ => exact hexits.elim

end Emptying

theorem Deserted.resume (hdeserted : Deserted root routines)
    (hperm : routines.Perm (routine :: others))
    (hresume : root.resume routine choice = some (next, rest)) :
    Deserted next (others ++ rest) := by
  rcases hdeserted.handlers routine (mem_of_stepped hperm) with ⟨p, rfl⟩ | ⟨p, rfl⟩
  · rw [Root.resume, hdeserted.entry] at hresume
    cases hresume
    exact ⟨hdeserted.entry, forall_mem_replace hperm hdeserted.handlers nofun, hdeserted.running⟩
  · cases hresume
    exact ⟨rfl, forall_mem_replace hperm hdeserted.handlers nofun, hdeserted.running⟩

/-! ## Between the handlers -/

/-- What holds under a root ID when no handler is in flight. -/
def Settled (root : Root) : Prop :=
  (root.entry = none ∧ ∀ p ∈ root.running, p.ignored = true) ∨
  ∃ container, root.entry = some container ∧ (root.heap container).pids.Nonempty ∧
    ∀ pid, pid ∈ (root.heap container).pids ↔ root.Tracks pid

/-- Only processes that start are being handled. -/
def Starts (root : Root) (routines : List Routine) : Prop :=
  Vacant root routines ∨ ∃ container, Filling container root routines

/-- Only processes that stop are being handled. -/
def Stops (root : Root) (routines : List Routine) : Prop :=
  Deserted root routines ∨ ∃ container, Emptying container root routines

theorem Settled.starts (hsettled : Settled root) : Starts root [] := by
  rcases hsettled with ⟨hentry, hrunning⟩ | ⟨container, hentry, hnonempty, hpids⟩
  · refine .inl ⟨hentry, nofun, Nat.zero_le _, nofun, fun p hp hignored => ?_⟩
    rw [hrunning p hp] at hignored
    cases hignored
  · exact .inr ⟨container, hentry, nofun, nofun, fun pid => (hpids pid).1,
      fun p hp hignored => .inl ((hpids p.pid).2 ⟨p, hp, hignored, rfl⟩), .inl hnonempty⟩

theorem Settled.stops (hsettled : Settled root) : Stops root [] := by
  rcases hsettled with ⟨hentry, hrunning⟩ | ⟨container, hentry, hnonempty, hpids⟩
  · exact .inl ⟨hentry, nofun, hrunning⟩
  · exact .inr ⟨container, .inl hentry, nofun, nofun,
      fun p hp hignored => (hpids p.pid).2 ⟨p, hp, hignored, rfl⟩,
      fun pid hpid => .inl ((hpids pid).1 hpid), fun _ => hentry,
      fun hempty => absurd hempty (Finset.nonempty_iff_ne_empty.1 hnonempty), nofun⟩

namespace Starts

theorem starts (hstarts : Starts root routines) : ∀ routine ∈ routines, routine.starts = true := by
  intro routine hroutine
  rcases hstarts with hvacant | ⟨container, hfilling⟩
  · rcases hvacant.handlers routine hroutine with ⟨p, rfl⟩ | ⟨p, rfl⟩ <;> rfl
  · have henters := hfilling.handlers routine hroutine
    cases routine <;> first | rfl | exact henters.elim

theorem settled (hstarts : Starts root []) : Settled root := by
  rcases hstarts with hvacant | ⟨container, hfilling⟩
  · refine .inl ⟨hvacant.entry, fun p hp => Bool.eq_true_of_not_eq_false fun hignored => ?_⟩
    obtain ⟨routine, hroutine, -⟩ := hvacant.running p hp hignored
    cases hroutine
  · refine .inr ⟨container, hfilling.entry, ?_, fun pid => ⟨hfilling.pids pid, ?_⟩⟩
    · rcases hfilling.occupied with hnonempty | ⟨routine, hroutine, -⟩
      · exact hnonempty
      · cases hroutine
    · rintro ⟨p, hp, hignored, rfl⟩
      rcases hfilling.running p hp hignored with hpid | ⟨routine, hroutine, -⟩
      · exact hpid
      · cases hroutine

/-- A process starts. -/
theorem call (hstarts : Starts root routines) (p : Process) :
    Starts { root with running := root.running ++ [p] }
      (routines ++ if p.ignored then [] else [.loading p]) := by
  have htracks : ∀ {pid}, root.Tracks pid →
      Root.Tracks { root with running := root.running ++ [p] } pid := by
    rintro pid ⟨q, hq, hignored, hpid⟩
    exact ⟨q, mem_append_left _ hq, hignored, hpid⟩
  have hnew : ∀ routine ∈ (if p.ignored then [] else [Routine.loading p]),
      routine = .loading p ∧ p.ignored = false := by
    split
    · nofun
    next hignored =>
      exact forall_mem_singleton.2 ⟨rfl, Bool.eq_false_of_not_eq_true hignored⟩
  have hloading : p.ignored = false →
      .loading p ∈ routines ++ if p.ignored then [] else [Routine.loading p] := by
    intro hignored
    rw [hignored]
    exact mem_append_right _ mem_cons_self
  have htracked : (∀ routine ∈ routines, root.Tracks routine.process.pid) →
      ∀ routine ∈ routines ++ (if p.ignored then [] else [Routine.loading p]),
        Root.Tracks { root with running := root.running ++ [p] } routine.process.pid := by
    intro hbefore
    refine forall_mem_append.2 ⟨fun routine hroutine => htracks (hbefore routine hroutine), ?_⟩
    intro routine hroutine
    obtain ⟨rfl, hignored⟩ := hnew routine hroutine
    exact ⟨p, mem_append_right _ mem_cons_self, hignored, rfl⟩
  rcases hstarts with hvacant | ⟨container, hfilling⟩
  · refine .inl ⟨hvacant.entry, ?_, ?_, htracked hvacant.tracked, fun q hq hignored => ?_⟩
    · exact forall_mem_append.2
        ⟨hvacant.handlers, fun routine hroutine => .inl ⟨p, (hnew routine hroutine).1⟩⟩
    · have hnone : (if p.ignored then [] else [Routine.loading p]).countP Routine.isCreating = 0 :=
        countP_eq_zero.2 fun routine hroutine => by
          rw [(hnew routine hroutine).1]
          nofun
      rw [countP_append, hnone]
      exact hvacant.creating
    · rcases mem_append.1 hq with hbefore | hstarted
      · exact exists_mem_started (hvacant.running q hbefore hignored)
      · obtain rfl := mem_singleton.1 hstarted
        exact ⟨_, hloading hignored, rfl⟩
  · refine .inr ⟨container, hfilling.entry, ?_, htracked hfilling.tracked,
      fun pid hpid => htracks (hfilling.pids pid hpid), fun q hq hignored => ?_, ?_⟩
    · refine forall_mem_append.2 ⟨hfilling.handlers, fun routine hroutine => ?_⟩
      rw [(hnew routine hroutine).1]
      trivial
    · rcases mem_append.1 hq with hbefore | hstarted
      · exact (hfilling.running q hbefore hignored).imp_right exists_mem_started
      · obtain rfl := mem_singleton.1 hstarted
        exact .inr ⟨_, hloading hignored, rfl⟩
    · exact hfilling.occupied.imp_right exists_mem_started

theorem resume (hstarts : Starts root routines) (hperm : routines.Perm (routine :: others))
    (hloading : ∀ p, routine = .loading p → ∀ q, .creating q ∉ routines)
    (hresume : root.resume routine choice = some (next, rest)) : Starts next (others ++ rest) := by
  rcases hstarts with hvacant | ⟨container, hfilling⟩
  · exact (hvacant.resume hperm hloading hresume).imp_right fun hfilling => ⟨_, hfilling⟩
  · exact .inr ⟨container, hfilling.resume hperm hresume⟩

end Starts

namespace Stops

theorem starts (hstops : Stops root routines) : ∀ routine ∈ routines, routine.starts = false := by
  intro routine hroutine
  rcases hstops with hdeserted | ⟨container, hemptying⟩
  · rcases hdeserted.handlers routine hroutine with ⟨p, rfl⟩ | ⟨p, rfl⟩ <;> rfl
  · have hexits := hemptying.handlers routine hroutine
    cases routine <;> first | rfl | exact hexits.elim

theorem settled (hstops : Stops root []) : Settled root := by
  rcases hstops with hdeserted | ⟨container, hemptying⟩
  · exact .inl ⟨hdeserted.entry, hdeserted.running⟩
  · rcases (root.heap container).pids.eq_empty_or_nonempty with hempty | hnonempty
    · refine .inl ⟨?_, fun p hp => Bool.eq_true_of_not_eq_false fun hignored => ?_⟩
      · rcases hemptying.dropped hempty with hentry | ⟨routine, hroutine, -⟩
        · exact hentry
        · cases hroutine
      · have hpid := hemptying.running p hp hignored
        rw [hempty] at hpid
        exact Finset.notMem_empty _ hpid
    · refine .inr ⟨container, hemptying.occupied hnonempty, hnonempty, fun pid => ⟨?_, ?_⟩⟩
      · intro hpid
        rcases hemptying.pids pid hpid with htracks | ⟨routine, hroutine, -⟩
        · exact htracks
        · cases hroutine
      · rintro ⟨p, hp, hignored, rfl⟩
        exact hemptying.running p hp hignored

/-- A process stops. -/
theorem call (hstops : Stops root routines) (hdistinct : (root.running.map Process.pid).Nodup)
    {p : Process} (hp : p ∈ root.running) :
    Stops { root with running := root.running.erase p } (routines ++ [.stopping p]) := by
  rcases hstops with hdeserted | ⟨container, hemptying⟩
  · refine .inl ⟨hdeserted.entry, ?_, fun q hq => hdeserted.running q (mem_of_mem_erase hq)⟩
    exact forall_mem_started hdeserted.handlers (.inl ⟨p, rfl⟩)
  · have hother : ∀ q ∈ root.running.erase p, ¬ p.pid = q.pid := by
      intro q hq heq
      have hnodup := hdistinct.of_map
      obtain ⟨hne, hq⟩ := (hnodup.mem_erase_iff).1 hq
      exact hne (inj_on_of_nodup_map hdistinct hq hp heq.symm)
    refine .inr ⟨container, hemptying.entry, ?_, ?_, ?_, fun pid hpid => ?_, hemptying.occupied,
      fun hempty => (hemptying.dropped hempty).imp_right exists_mem_started, fun q hq => ?_⟩
    · exact forall_mem_started hemptying.handlers trivial
    · refine forall_mem_started (fun routine hroutine q hq => ?_) hother
      exact hemptying.gone routine hroutine q (mem_of_mem_erase hq)
    · exact fun q hq => hemptying.running q (mem_of_mem_erase hq)
    · rcases hemptying.pids pid hpid with ⟨q, hq, hignored, rfl⟩ | htakes
      · rcases eq_or_ne q p with rfl | hne
        · exact .inr (exists_mem_last rfl)
        · exact .inl ⟨q, (mem_erase_of_ne hne).2 hq, hignored, rfl⟩
      · exact .inr (exists_mem_started htakes)
    · rcases mem_append.1 hq with hbefore | hstarted
      · exact hemptying.dropping q hbefore
      · cases mem_singleton.1 hstarted

theorem resume (hstops : Stops root routines) (hperm : routines.Perm (routine :: others))
    (hresume : root.resume routine choice = some (next, rest)) : Stops next (others ++ rest) := by
  rcases hstops with hdeserted | ⟨container, hemptying⟩
  · exact .inl (hdeserted.resume hperm hresume)
  · exact .inr ⟨container, hemptying.resume hperm hresume⟩

end Stops

/-! ## All root IDs together -/

/-- Under the root ID processes start and stop in turns, and those that run have pids of their
own. -/
def Turns (root : Root) (routines : List Routine) : Prop :=
  (root.running.map Process.pid).Nodup ∧ (Starts root routines ∨ Stops root routines)

theorem Turns.settled (hturns : Turns root []) : Settled root :=
  hturns.2.elim Starts.settled Stops.settled

/-- The handlers in flight for a root ID. -/
def handlersOf (routines : List Routine) (rootID : ℕ) : List Routine :=
  routines.filter fun routine => routine.process.rootID = rootID

theorem handlersOf_append (first second : List Routine) (rootID : ℕ) :
    handlersOf (first ++ second) rootID = handlersOf first rootID ++ handlersOf second rootID :=
  filter_append ..

theorem handlersOf_cons_self : handlersOf (routine :: routines) routine.process.rootID =
    routine :: handlersOf routines routine.process.rootID :=
  filter_cons_of_pos (decide_eq_true rfl)

theorem handlersOf_cons_of_ne {rootID : ℕ} (hne : rootID ≠ routine.process.rootID) :
    handlersOf (routine :: routines) rootID = handlersOf routines rootID :=
  filter_cons_of_neg fun heq => hne (of_decide_eq_true heq).symm

theorem handlersOf_of_forall {p : Process} (hroutines : ∀ routine ∈ routines, routine.process = p)
    (rootID : ℕ) : handlersOf routines rootID = if rootID = p.rootID then routines else [] := by
  have hfilter : handlersOf routines rootID = routines.filter fun _ => p.rootID = rootID :=
    filter_congr fun routine hroutine => by rw [hroutines routine hroutine]
  rw [hfilter]
  split_ifs with hroot <;> simp [hroot, Ne.symm]

/-- A handler stays with its process and does not change which processes run. -/
theorem Root.resume_eq_some (hresume : root.resume routine choice = some (next, rest)) :
    next.running = root.running ∧ ∀ other ∈ rest, other.process = routine.process := by
  cases routine with
  | loading p | stopping p | testing container p =>
    rw [Root.resume] at hresume
    split at hresume <;> cases hresume <;> simp [Routine.process]
  | creating p | storing container p | removing container p | dropping p =>
    cases hresume
    simp [Routine.process, Root.modify]
  | adding =>
    rw [Root.resume] at hresume
    split at hresume <;> cases hresume
    · exact ⟨rfl, nofun⟩
    · refine ⟨rfl, ?_⟩
      split <;> simp [Routine.process]
  | scanning =>
    rw [Root.resume] at hresume
    split at hresume
    · cases hresume
    · split at hresume <;> cases hresume <;> simp [Routine.process, Root.modify]

theorem Root.start_eq_some {call : Call} (hstart : root.start call = some (next, rest)) :
    ∀ other ∈ rest, other.process = call.process := by
  cases call with
  | processStarted =>
    rw [Root.start] at hstart
    split at hstart <;> cases hstart
    split <;> simp [Routine.process, Call.process]
  | processStopped =>
    rw [Root.start] at hstart
    split at hstart <;> cases hstart
    simp [Routine.process, Call.process]

theorem Turns.call {call : Call} (hturns : Turns root routines)
    (hstarted : ∀ p, call = .processStarted p → ∀ routine ∈ routines, routine.starts = true)
    (hstopped : ∀ p, call = .processStopped p → ∀ routine ∈ routines, routine.starts = false)
    (hstart : root.start call = some (next, rest)) : Turns next (routines ++ rest) := by
  obtain ⟨hdistinct, hmode⟩ := hturns
  cases call with
  | processStarted p =>
    rw [Root.start] at hstart
    split at hstart <;> cases hstart
    next hpid =>
      refine ⟨?_, .inl ?_⟩
      · rw [map_append]
        exact nodup_append_comm.1 (nodup_cons.2 ⟨hpid, hdistinct⟩)
      · rcases hmode with hstarts | hstops
        · exact hstarts.call p
        · obtain rfl := eq_nil_of_forall (hstarted p rfl) hstops.starts
          exact hstops.settled.starts.call p
  | processStopped p =>
    rw [Root.start] at hstart
    split at hstart <;> cases hstart
    next hp =>
      refine ⟨hdistinct.sublist (erase_sublist.map _), .inr ?_⟩
      rcases hmode with hstarts | hstops
      · obtain rfl := eq_nil_of_forall hstarts.starts (hstopped p rfl)
        exact hstarts.settled.stops.call hdistinct hp
      · exact hstops.call hdistinct hp

theorem Turns.resume (hturns : Turns root routines) (hperm : routines.Perm (routine :: others))
    (hloading : ∀ p, routine = .loading p → ∀ q, .creating q ∉ routines)
    (hresume : root.resume routine choice = some (next, rest)) : Turns next (others ++ rest) := by
  refine ⟨?_, ?_⟩
  · rw [(Root.resume_eq_some hresume).1]
    exact hturns.1
  · exact hturns.2.imp (fun hstarts => hstarts.resume hperm hloading hresume)
      fun hstops => hstops.resume hperm hresume

variable {pool after : Pool (ℕ → Root) Routine}

/-- The handlers of every root ID take turns. -/
def AllTurns (pool : Pool (ℕ → Root) Routine) : Prop :=
  ∀ rootID, Turns (pool.shared rootID) (handlersOf pool.routines rootID)

theorem AllTurns.call {call : Call} (hturns : AllTurns pool)
    (hseparate : Separate pool (.call call))
    {roots : ℕ → Root} (hstart : start pool.shared call = some (roots, rest)) :
    AllTurns ⟨roots, pool.routines ++ rest⟩ := by
  obtain ⟨⟨_, _⟩, hlocal, hroots⟩ := Option.map_eq_some_iff.1 hstart
  cases hroots
  have hprocess := Root.start_eq_some hlocal
  intro rootID
  dsimp only
  rw [handlersOf_append, handlersOf_of_forall hprocess, update_apply]
  split_ifs with hroot
  · subst hroot
    refine (hturns _).call ?_ ?_ hlocal
    all_goals
      rintro p rfl routine hroutine
      obtain ⟨hmem, hroot⟩ := mem_filter.1 hroutine
      exact hseparate routine hmem (of_decide_eq_true hroot)
  · rw [append_nil]
    exact hturns rootID

theorem AllTurns.advance {index : ℕ} (hturns : AllTurns pool)
    (hseparate : Separate pool (.advance index choice))
    (hnext : pool.advance resume index choice = some after) : AllTurns after := by
  obtain ⟨_, routine, _, _, _, hroutine, hroutines, hresume, rfl⟩ :=
    advance_eq_append hnext
  obtain ⟨⟨_, _⟩, hlocal, hroots⟩ := Option.map_eq_some_iff.1 hresume
  cases hroots
  obtain ⟨-, hprocess⟩ := Root.resume_eq_some hlocal
  rw [Separate, hroutine] at hseparate
  intro rootID
  have hturn := hturns rootID
  rw [hroutines, handlersOf_append] at hturn
  dsimp only
  rw [handlersOf_append, handlersOf_append, handlersOf_of_forall hprocess, update_apply]
  split_ifs with hroot
  · subst hroot
    rw [handlersOf_cons_self] at hturn
    refine hturn.resume perm_middle ?_ hlocal
    rintro p rfl q hq
    have hmem : .creating q ∈ handlersOf pool.routines p.rootID := by
      rw [hroutines, handlersOf_append]
      exact handlersOf_cons_self ▸ hq
    obtain ⟨hcreating, hroot⟩ := mem_filter.1 hmem
    exact hseparate q (of_decide_eq_true hroot) hcreating
  · rw [handlersOf_cons_of_ne hroot] at hturn
    rw [append_nil]
    exact hturn

theorem AllTurns.step {action : Pool.Action Call Bool} (hturns : AllTurns pool)
    (hseparate : Separate pool action) (hnext : pool.step start resume action = some after) :
    AllTurns after := by
  cases action with
  | call =>
    obtain ⟨_, _, hstart, rfl⟩ := call_eq_some hnext
    exact hturns.call hseparate hstart
  | advance => exact hturns.advance hseparate hnext

theorem allTurns_initial : AllTurns initial := by
  intro rootID
  exact ⟨nodup_nil, .inl (.inl ⟨rfl, nofun, Nat.zero_le _, nofun, nofun⟩)⟩

/-- When the handlers for a root ID that start and stop processes do not overlap and one of them
at a time creates its container, then between the handlers the map has an entry for the root ID
exactly if a process that is not ignored runs under it, and the entry has the pids of these
processes. -/
theorem entry_iff_running {actions : List (Pool.Action Call Bool)}
    (hrun : runActions (Pool.step start resume) initial actions = some pool)
    (hseparate : runActions.Throughout (Pool.step start resume) Separate initial actions)
    (hidle : pool.Idle) (rootID : ℕ) :
    ((pool.shared rootID).entry ≠ none ↔
      ∃ p ∈ (pool.shared rootID).running, p.ignored = false) ∧
    ∀ container, (pool.shared rootID).entry = some container →
      ∀ pid, pid ∈ ((pool.shared rootID).heap container).pids ↔
        ∃ p ∈ (pool.shared rootID).running, p.ignored = false ∧ p.pid = pid := by
  have hturns : AllTurns pool := runActions.invariant_of_throughout AllTurns
    (fun _ _ _ haction hnext hbefore => hbefore.step haction hnext) hrun hseparate
    allTurns_initial
  have hturn := hturns rootID
  rw [show pool.routines = [] from hidle] at hturn
  rcases hturn.settled with ⟨hentry, hrunning⟩ | ⟨container, hentry, ⟨pid, hpid⟩, hpids⟩
  · constructor
    · refine iff_of_false (fun hother => hother hentry) ?_
      rintro ⟨p, hp, hignored⟩
      rw [hrunning p hp] at hignored
      cases hignored
    · intro container hother
      rw [hentry] at hother
      cases hother
  · constructor
    · obtain ⟨p, hp, hignored, -⟩ := (hpids pid).1 hpid
      refine iff_of_true ?_ ⟨p, hp, hignored⟩
      rw [hentry]
      nofun
    · intro other hother
      obtain rfl : container = other := Option.some.inj (hentry.symm.trans hother)
      exact hpids

/-- Two processes that start together, one of the container runtime, and the stop of the first. -/
def twoProcesses : List (Pool.Action Call Bool) :=
  [.call (.processStarted ⟨1, 5, "app", .forward⟩),
    .call (.processStarted ⟨3, 5, "runc", .observe⟩), .advance 0 true, .advance 0 true,
    .call (.processStarted ⟨2, 5, "app", .observe⟩), .advance 1 true, .advance 0 true,
    .advance 0 true, .advance 0 true, .advance 0 true,
    .call (.processStopped ⟨1, 5, "app", .forward⟩), .advance 0 true, .advance 0 true,
    .advance 0 true]

theorem entry_iff_running_twoProcesses :
    ∃ pool, runActions (Pool.step start resume) initial twoProcesses = some pool ∧ pool.Idle ∧
      (pool.shared 5).running = [⟨3, 5, "runc", .observe⟩, ⟨2, 5, "app", .observe⟩] ∧
      (pool.shared 5).entry = some 0 ∧
      ∀ pid, pid ∈ ((pool.shared 5).heap 0).pids ↔
        ∃ p ∈ (pool.shared 5).running, p.ignored = false ∧ p.pid = pid := by
  have hseparate : runActions.Throughout (Pool.step start resume) Separate initial
      twoProcesses := by
    refine .cons nofun rfl <| .cons ?_ rfl <| .cons ?_ rfl <| .cons trivial rfl <|
      .cons ?_ rfl <| .cons ?_ rfl <| .cons trivial rfl <| .cons trivial rfl <|
      .cons trivial rfl <| .cons trivial rfl <| .cons nofun rfl <| .cons trivial rfl <|
      .cons trivial rfl <| .cons trivial rfl trivial
    · exact forall_mem_singleton.2 fun _ => rfl
    · intro q _ hmem
      have hroutines : Routine.creating q ∈ [.loading ⟨1, 5, "app", .forward⟩] := hmem
      simp at hroutines
    · exact forall_mem_singleton.2 fun _ => rfl
    · intro q _ hmem
      have hroutines : Routine.creating q ∈
          [.adding 0 ⟨1, 5, "app", .forward⟩, .loading ⟨2, 5, "app", .observe⟩] := hmem
      simp at hroutines
  refine ⟨_, rfl, rfl, rfl, rfl, (entry_iff_running rfl hseparate ?_ 5).2 0 rfl⟩
  rfl

/-- A process of the container runtime has no container; and when two processes that start
together both create one, the entry lacks the first of them. -/
theorem running_without_entry :
    (∃ pool, runActions (Pool.step start resume) initial
      [.call (.processStarted ⟨3, 5, "runc", .observe⟩)] = some pool ∧ pool.Idle ∧
      (pool.shared 5).running = [⟨3, 5, "runc", .observe⟩] ∧ (pool.shared 5).entry = none) ∧
    ∃ pool, runActions (Pool.step start resume) initial
      [.call (.processStarted ⟨1, 5, "app", .observe⟩),
        .call (.processStarted ⟨2, 5, "app", .observe⟩), .advance 0 true, .advance 0 true,
        .advance 0 true, .advance 0 true, .advance 0 true, .advance 0 true] = some pool ∧
      pool.Idle ∧
      (pool.shared 5).running = [⟨1, 5, "app", .observe⟩, ⟨2, 5, "app", .observe⟩] ∧
      (pool.shared 5).entry = some 1 ∧ ((pool.shared 5).heap 1).pids = {2} :=
  ⟨⟨_, rfl, rfl, rfl, rfl⟩, _, rfl, rfl, rfl, rfl, rfl⟩

end Qtap.Ca.Containers
