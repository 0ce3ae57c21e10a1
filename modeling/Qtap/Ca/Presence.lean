import Qtap.Ca.Bundle

/-!
# The block is there while a process is

When injections and removals of a container do not overlap and no two calls create the `Cert`, the
file contains the block of the CA, in every state without calls in flight, exactly if a process has
been injected and not removed since.

Injections may overlap with injections and removals with removals, so a state is described by what
its routines will still do: somebody will store a process in the `Cert`, somebody will take the
block out of the file, somebody will drop the `Cert`.
-/

namespace Qtap.Ca

open Routine Finset Function List Qtap.Core Pool

variable {caBytes : List Byte} {cert : ℕ} {pool : Pool Shared Routine} {routine : Routine}
  {others rest : List Routine} {shared : Shared} {choice : Bool}

/-! ## Injections -/

namespace Routine

def isCreating : Routine → Bool
  | .creating _ => true
  | _ => false

/-- The routine holds the lock of the `Cert`. -/
def inLock : Routine → Bool
  | .preparing _ _ | .appending _ _ | .marking _ _ => true
  | _ => false

/-- The routine injects the `Cert`. -/
def Injects (cert : ℕ) : Routine → Prop
  | .injecting other _ | .preparing other _ | .appending other _ | .marking other _
  | .watching other _ | .storing other _ => other = cert
  | _ => False

end Routine

/-- What an injection has found out. -/
def Injecting (caBytes : List Byte) (shared : Shared) (cert : ℕ) : Routine → Prop
  | .preparing _ _ | .appending _ _ =>
    (shared.heap cert).installed = false ∧ Clean caBytes shared.file
  | .marking _ _ => Loaded caBytes shared.file
  | .watching _ _ | .storing _ _ => (shared.heap cert).installed = true
  | _ => True

/-- No `Cert` is there, and at most one call is about to create it. -/
structure Unscanned (caBytes : List Byte) (pool : Pool Shared Routine) : Prop where
  certs : pool.shared.certs = none
  file : Clean caBytes pool.shared.file
  injected : pool.shared.injected = ∅
  routines : ∀ routine ∈ pool.routines,
    (∃ pid, routine = .looking pid) ∨ ∃ pid, routine = .creating pid
  creating : pool.routines.countP Routine.isCreating ≤ 1

/-- The container has the `Cert`, and the calls in flight inject it. -/
structure Scanned (caBytes : List Byte) (cert : ℕ) (pool : Pool Shared Routine) : Prop where
  certs : pool.shared.certs = some cert
  routines : ∀ routine ∈ pool.routines, (∃ pid, routine = .looking pid) ∨ routine.Injects cert
  createdFile : (pool.shared.heap cert).createdFile = false
  processes : (pool.shared.heap cert).processes = pool.shared.injected
  lock : pool.routines.countP Routine.inLock = (pool.shared.heap cert).locked.toNat
  free : (pool.shared.heap cert).locked = false →
    (pool.shared.heap cert).installed = true ∧ Loaded caBytes pool.shared.file ∨
      (pool.shared.heap cert).installed = false ∧ Clean caBytes pool.shared.file
  fits : ∀ routine ∈ pool.routines, Injecting caBytes pool.shared cert routine
  stocked : pool.shared.injected.Nonempty → (pool.shared.heap cert).installed = true
  kept : pool.shared.injected.Nonempty ∨ ∃ routine ∈ pool.routines, routine.Injects cert

variable {after : Shared} {pid : ℕ}

theorem Injecting.of_not_inLock (hroutine : routine.inLock = false)
    (hinstalled : (shared.heap cert).installed = true → (after.heap cert).installed = true)
    (hfits : Injecting caBytes shared cert routine) : Injecting caBytes after cert routine := by
  cases routine with
  | preparing | appending | marking => cases hroutine
  | watching | storing => exact hinstalled hfits
  | _ => trivial

theorem Injecting.congr (hfits : Injecting caBytes shared cert routine)
    (hinstalled : (after.heap cert).installed = (shared.heap cert).installed)
    (hfile : after.file = shared.file) : Injecting caBytes after cert routine := by
  cases routine with
  | preparing | appending => exact ⟨hinstalled.trans hfits.1, hfile.symm ▸ hfits.2⟩
  | marking =>
    have hloaded : Loaded caBytes shared.file := hfits
    rw [← hfile] at hloaded
    exact hloaded
  | watching | storing => exact hinstalled.trans hfits
  | _ => trivial

/-- Of the heap only the `Cert` matters. -/
theorem Scanned.of_heap {view : Cert} {routines : List Routine} (hheap : shared.heap cert = view)
    (hview : Scanned caBytes cert ⟨{ shared with heap := fun _ => view }, routines⟩) :
    Scanned caBytes cert ⟨shared, routines⟩ := by
  subst hheap
  exact { hview with }

namespace Scanned

variable (hscanned : Scanned caBytes cert pool) (hperm : pool.routines.Perm (routine :: others))

include hscanned hperm

/-- A step that leaves the shared data alone. -/
theorem move {after : Routine} (hinjects : after.Injects cert)
    (hlock : after.inLock = routine.inLock) (hfits : Injecting caBytes pool.shared cert after) :
    Scanned caBytes cert ⟨pool.shared, others ++ [after]⟩ :=
  { hscanned with
    routines := forall_mem_replace_singleton hperm hscanned.routines (.inr hinjects)
    lock := (countP_replace_singleton hperm hlock).trans hscanned.lock
    fits := forall_mem_replace_singleton hperm hscanned.fits hfits
    kept := .inr (exists_mem_last hinjects) }

/-- Who has the lock has it alone. -/
theorem alone (hroutine : routine.inLock = true) :
    (pool.shared.heap cert).locked = true ∧ ∀ other ∈ others, other.inLock = false := by
  have hcount : pool.routines.countP inLock ≤ 1 :=
    hscanned.lock.trans_le (Bool.toNat_le _)
  have hlock : 0 < pool.routines.countP inLock :=
    countP_pos_iff.2 ⟨routine, mem_of_stepped hperm, hroutine⟩
  constructor
  · rw [hscanned.lock] at hlock
    by_contra hfree
    rw [Bool.eq_false_of_not_eq_true hfree] at hlock
    cases hlock
  · exact fun other hother => not_counts_of_other hperm hcount hroutine hother

theorem acquire (hroutine : routine = .injecting cert pid)
    (hlocked : (pool.shared.heap cert).locked = false)
    (hinstalled : (pool.shared.heap cert).installed = false) :
    Scanned caBytes cert ⟨pool.shared.modify cert fun c => { c with locked := true },
      others ++ [.preparing cert pid]⟩ := by
  have hclean : Clean caBytes pool.shared.file := by
    rcases hscanned.free hlocked with ⟨hother, -⟩ | ⟨-, hclean⟩
    · cases hinstalled.symm.trans hother
    · exact hclean
  have hcount := countP_replace hperm inLock [.preparing cert pid]
  rw [hscanned.lock, hlocked, hroutine] at hcount
  apply of_heap (update_self _ _ _)
  exact { hscanned with
    routines := forall_mem_replace_singleton hperm hscanned.routines (.inr rfl)
    lock := hcount
    free := nofun
    fits := forall_mem_replace_singleton hperm
      (fun other hother => (hscanned.fits other hother).congr rfl rfl) ⟨hinstalled, hclean⟩
    kept := .inr (exists_mem_last rfl) }

theorem append (hroutine : routine = .appending cert pid) {content : List Byte}
    (hfile : pool.shared.file = some content) :
    Scanned caBytes cert ⟨{ pool.shared with file := some (content ++ pemEncode caBytes) },
      others ++ [.marking cert pid]⟩ := by
  subst hroutine
  obtain ⟨hlocked, halone⟩ := hscanned.alone hperm rfl
  obtain ⟨hinstalled, hclean⟩ := hscanned.fits _ (mem_of_stepped hperm)
  refine { hscanned with
    routines := forall_mem_replace_singleton hperm hscanned.routines (.inr rfl)
    lock := ?_, free := ?_, fits := forall_mem_append.2 ⟨fun other hother => ?_, ?_⟩
    kept := .inr (exists_mem_last rfl) }
  · have hsame : inLock (.marking cert pid) = inLock (.appending cert pid) := rfl
    exact (countP_replace_singleton hperm hsame).trans hscanned.lock
  · intro hfree
    cases hlocked.symm.trans hfree
  · have hfits := hscanned.fits other (mem_of_other hperm hother)
    refine hfits.of_not_inLock (halone other hother) ?_
    exact id
  · exact forall_mem_singleton.2 (hfile ▸ hclean).append

theorem mark (hroutine : routine = .marking cert pid) :
    Scanned caBytes cert
      ⟨pool.shared.modify cert fun c => { c with installed := true, locked := false },
        others ++ [.watching cert pid]⟩ := by
  subst hroutine
  obtain ⟨_, halone⟩ := hscanned.alone hperm rfl
  have hloaded : Loaded caBytes pool.shared.file :=
    hscanned.fits _ (mem_of_stepped hperm)
  apply of_heap (update_self _ _ _)
  refine { hscanned with
    routines := forall_mem_replace_singleton hperm hscanned.routines (.inr rfl)
    lock := ?_
    free := fun _ => .inl ⟨rfl, hloaded⟩
    fits := forall_mem_started (fun other hother => ?_) rfl
    stocked := fun _ => rfl
    kept := .inr (exists_mem_last rfl) }
  · rw [countP_append, countP_eq_zero.2]
    · rfl
    · exact fun other hother => Bool.not_eq_true _ ▸ halone other hother
  · have hfits := hscanned.fits other (mem_of_other hperm hother)
    exact hfits.of_not_inLock (halone other hother) fun _ => rfl

theorem store (hroutine : routine = .storing cert pid) :
    Scanned caBytes cert
      ⟨{ pool.shared.modify cert fun c => { c with processes := insert pid c.processes } with
        injected := insert pid pool.shared.injected }, others ++ []⟩ := by
  subst hroutine
  have hinstalled : (pool.shared.heap cert).installed = true :=
    hscanned.fits _ (mem_of_stepped hperm)
  apply of_heap (update_self _ _ _)
  exact { hscanned with
    routines := forall_mem_replace hperm hscanned.routines nofun
    processes := congrArg (insert pid) hscanned.processes
    lock := (countP_replace hperm inLock []).trans hscanned.lock
    fits := forall_mem_replace hperm
      (fun other hother => (hscanned.fits other hother).congr rfl rfl) nofun
    stocked := fun _ => hinstalled
    kept := .inl ⟨pid, mem_insert_self _ _⟩ }

/-- What a step of an injection leaves, when the BPF map takes its entry. -/
theorem resume (hchoice : ∀ other pid, routine = .watching other pid → choice = true)
    (hresume : Ca.resume caBytes pool.shared routine choice = some (shared, rest)) :
    Scanned caBytes cert ⟨shared, others ++ rest⟩ := by
  have hmem : routine ∈ pool.routines := mem_of_stepped hperm
  have hfits := hscanned.fits routine hmem
  rcases hscanned.routines routine hmem with ⟨pid, rfl⟩ | hinjects
  · rw [Ca.resume, hscanned.certs] at hresume
    cases hresume
    exact hscanned.move hperm rfl rfl trivial
  · cases routine with
    | injecting =>
      cases hinjects
      rw [Ca.resume] at hresume
      split at hresume
      · cases hresume
      next hfree =>
        split at hresume <;> cases hresume
        next hinstalled => exact hscanned.move hperm rfl rfl hinstalled
        next hinstalled =>
          exact hscanned.acquire hperm rfl (Bool.eq_false_of_not_eq_true hfree)
            (Bool.eq_false_of_not_eq_true hinstalled)
    | preparing =>
      cases hinjects
      obtain ⟨hinstalled, content, hfile, hclean⟩ := hfits
      rw [Ca.resume, hfile] at hresume
      cases hresume
      exact hscanned.move hperm rfl rfl ⟨hinstalled, content, hfile, hclean⟩
    | appending =>
      cases hinjects
      obtain ⟨_, _, hfile, _⟩ := hfits
      rw [Ca.resume, hfile] at hresume
      cases hresume
      exact hscanned.append hperm rfl hfile
    | marking =>
      cases hinjects
      cases hresume
      exact hscanned.mark hperm rfl
    | watching _ pid =>
      cases hinjects
      rw [hchoice _ pid rfl] at hresume
      cases hresume
      exact hscanned.move hperm rfl rfl hfits
    | storing =>
      cases hinjects
      cases hresume
      exact hscanned.store hperm rfl
    | _ => exact hinjects.elim

end Scanned

namespace Unscanned

variable (hunscanned : Unscanned caBytes pool) (hperm : pool.routines.Perm (routine :: others))

include hunscanned hperm

theorem create {pid : ℕ} (hroutine : routine = .creating pid) :
    Scanned caBytes pool.shared.created ⟨{ pool.shared with
      certs := some pool.shared.created
      heap := update pool.shared.heap pool.shared.created newCert
      created := pool.shared.created + 1 }, others ++ [.injecting pool.shared.created pid]⟩ := by
  subst hroutine
  -- nobody else is about to create
  have hlooking : ∀ other ∈ others, ∃ pid, other = .looking pid := by
    intro other hother
    have hnone := not_counts_of_other hperm hunscanned.creating rfl hother
    rcases hunscanned.routines other (mem_of_other hperm hother) with
      hlooking | ⟨pid, rfl⟩
    · exact hlooking
    · cases hnone
  have hlock : others.countP inLock = 0 := by
    refine countP_eq_zero.2 fun other hother => ?_
    obtain ⟨pid, rfl⟩ := hlooking other hother
    nofun
  apply Scanned.of_heap (update_self _ _ _)
  refine ⟨rfl, forall_mem_started (fun other hother => .inl (hlooking other hother)) (.inr rfl),
    rfl, hunscanned.injected.symm, ?_, fun _ => .inr ⟨rfl, hunscanned.file⟩,
    forall_mem_started (fun other hother => ?_) trivial, ?_, .inr (exists_mem_last rfl)⟩
  · rw [countP_append, hlock]
    rfl
  · obtain ⟨_, rfl⟩ := hlooking other hother
    trivial
  · rintro ⟨other, hother⟩
    rw [hunscanned.injected] at hother
    exact absurd hother (notMem_empty other)

theorem resume (hlooking : ∀ pid, routine = .looking pid → ∀ pid, .creating pid ∉ pool.routines)
    (hresume : Ca.resume caBytes pool.shared routine choice = some (shared, rest)) :
    Unscanned caBytes ⟨shared, others ++ rest⟩ ∨
      Scanned caBytes pool.shared.created ⟨shared, others ++ rest⟩ := by
  rcases hunscanned.routines routine (mem_of_stepped hperm) with
    ⟨pid, rfl⟩ | ⟨pid, rfl⟩
  · rw [Ca.resume, hunscanned.certs] at hresume
    cases hresume
    refine .inl ⟨hunscanned.certs, hunscanned.file, hunscanned.injected, ?_, ?_⟩
    · exact forall_mem_replace_singleton hperm hunscanned.routines (.inr ⟨pid, rfl⟩)
    · refine countP_replace_le_one hperm (fun other hother => ?_) _
      cases other with
      | creating other => exact absurd hother (hlooking pid rfl other)
      | _ => rfl
  · cases hresume
    exact .inr (hunscanned.create hperm rfl)

end Unscanned

/-! ## Removals -/

namespace Routine

/-- The routine removes a process and has the `Cert` at hand, if any. -/
def Removes (cert : ℕ) : Routine → Prop
  | .iterating _ | .visiting _ | .leaving _ => True
  | .finding other _ | .deleting other _ | .unwatching other _ | .examining other _
  | .checking other _ | .reading other _ | .truncating other _ _ | .writing other _ _
  | .testing other _ | .forgetting other _ => other = cert
  | _ => False

/-- The routine removes the block when no process is left. -/
def cleans : Routine → Bool
  | .unwatching _ _ | .examining _ _ | .checking _ _ | .reading _ _ | .truncating _ _ _
  | .writing _ _ _ => true
  | _ => false

/-- The routine drops the `Cert` when no process is left. -/
def forgets : Routine → Bool
  | .testing _ _ | .forgetting _ _ => true
  | routine => routine.cleans

/-- The routine has taken the process off the `Cert`. -/
def past (pid : ℕ) : Routine → Bool
  | .unwatching _ other | .examining _ other | .checking _ other | .reading _ other
  | .truncating _ other _ | .writing _ other _ | .testing _ other | .forgetting _ other
  | .leaving other => other == pid
  | _ => false

end Routine

/-- What a removal has found out. -/
def Removing (caBytes : List Byte) (shared : Shared) (cert : ℕ) (routine : Routine) : Prop :=
  (∀ pid, routine.past pid = true → pid ∉ (shared.heap cert).processes) ∧
  match routine with
  | .checking _ _ | .reading _ _ | .forgetting _ _ => (shared.heap cert).processes = ∅
  | .truncating _ _ content | .writing _ _ content =>
    (shared.heap cert).processes = ∅ ∧ ¬ Contains caBytes content
  | _ => True

/-- No `Cert` is there. -/
structure Unremoved (caBytes : List Byte) (pool : Pool Shared Routine) : Prop where
  certs : pool.shared.certs = none
  file : Clean caBytes pool.shared.file
  routines : ∀ routine ∈ pool.routines,
    ∃ pid, routine = .iterating pid ∨ routine = .visiting pid ∨ routine = .leaving pid
  injected : ∀ pid ∈ pool.shared.injected, .leaving pid ∈ pool.routines

/-- The calls in flight remove processes from the `Cert`, which may be dropped already. -/
structure Removed (caBytes : List Byte) (cert : ℕ) (pool : Pool Shared Routine) : Prop where
  certs : pool.shared.certs = some cert ∨ pool.shared.certs = none
  routines : ∀ routine ∈ pool.routines, routine.Removes cert
  createdFile : (pool.shared.heap cert).createdFile = false
  installed : (pool.shared.heap cert).installed = true
  locked : (pool.shared.heap cert).locked = false
  file : Clean caBytes pool.shared.file ∨ Loaded caBytes pool.shared.file
  stocked : (pool.shared.heap cert).processes.Nonempty →
    pool.shared.certs = some cert ∧ Loaded caBytes pool.shared.file
  cleaned : (pool.shared.heap cert).processes = ∅ →
    Clean caBytes pool.shared.file ∨ ∃ routine ∈ pool.routines, routine.cleans = true
  forgotten : (pool.shared.heap cert).processes = ∅ →
    pool.shared.certs = none ∨ ∃ routine ∈ pool.routines, routine.forgets = true
  subset : (pool.shared.heap cert).processes ⊆ pool.shared.injected
  injected : ∀ pid ∈ pool.shared.injected, pid ∈ (pool.shared.heap cert).processes ∨
    ∃ routine ∈ pool.routines, routine.past pid = true
  fits : ∀ routine ∈ pool.routines, Removing caBytes pool.shared cert routine

theorem Removing.mono (hfits : Removing caBytes shared cert routine)
    (hprocesses : (after.heap cert).processes ⊆ (shared.heap cert).processes) :
    Removing caBytes after cert routine := by
  have hempty : (shared.heap cert).processes = ∅ → (after.heap cert).processes = ∅ := by
    intro hempty
    rw [hempty] at hprocesses
    exact subset_empty.1 hprocesses
  refine ⟨fun pid hpast hpid => hfits.1 pid hpast (hprocesses hpid), ?_⟩
  cases routine with
  | checking | reading | forgetting => exact hempty hfits.2
  | truncating | writing => exact ⟨hempty hfits.2.1, hfits.2.2⟩
  | _ => trivial

theorem Removed.of_heap {view : Cert} {routines : List Routine} (hheap : shared.heap cert = view)
    (hview : Removed caBytes cert ⟨{ shared with heap := fun _ => view }, routines⟩) :
    Removed caBytes cert ⟨shared, routines⟩ := by
  subst hheap
  exact { hview with }

namespace Removed

variable (hremoved : Removed caBytes cert pool) (hperm : pool.routines.Perm (routine :: others))

include hremoved

theorem processes_of_certs_none (hnone : pool.shared.certs = none) :
    (pool.shared.heap cert).processes = ∅ := by
  rw [← not_nonempty_iff_eq_empty]
  intro hnonempty
  rw [(hremoved.stocked hnonempty).1] at hnone
  cases hnone

theorem removing_leaving (hnone : pool.shared.certs = none) (pid : ℕ) :
    Removing caBytes pool.shared cert (.leaving pid) := by
  refine ⟨fun other _ => ?_, trivial⟩
  rw [hremoved.processes_of_certs_none hnone]
  exact notMem_empty other

include hperm

/-- A step that leaves the shared data alone. -/
theorem move {after : Routine} (hfits : Removing caBytes pool.shared cert after)
    (hcleans : (pool.shared.heap cert).processes = ∅ → routine.cleans = true →
      after.cleans = true := by first | exact fun _ _ => rfl | nofun)
    (hforgets : (pool.shared.heap cert).processes = ∅ → routine.forgets = true →
      after.forgets = true := by first | exact fun _ _ => rfl | nofun)
    (hpast : ∀ pid, routine.past pid = true → after.past pid = true :=
      by first | exact fun _ => id | nofun)
    (hremoves : after.Removes cert := by trivial) :
    Removed caBytes cert ⟨pool.shared, others ++ [after]⟩ :=
  { hremoved with
    routines := forall_mem_replace_singleton hperm hremoved.routines hremoves
    cleaned := fun hempty => (hremoved.cleaned hempty).imp_right
      (exists_mem_replace_singleton hperm (hcleans hempty))
    forgotten := fun hempty => (hremoved.forgotten hempty).imp_right
      (exists_mem_replace_singleton hperm (hforgets hempty))
    injected := fun pid hpid => (hremoved.injected pid hpid).imp_right
      (exists_mem_replace_singleton hperm (hpast pid))
    fits := forall_mem_replace_singleton hperm hremoved.fits hfits }

theorem delete (hroutine : routine = .deleting cert pid) :
    Removed caBytes cert
      ⟨pool.shared.modify cert fun c => { c with processes := c.processes.erase pid },
        others ++ [.unwatching cert pid]⟩ := by
  subst hroutine
  have hsubset := erase_subset pid (pool.shared.heap cert).processes
  apply of_heap (update_self _ _ _)
  refine { hremoved with
    routines := forall_mem_replace_singleton hperm hremoved.routines rfl
    stocked := fun hnonempty => hremoved.stocked (hnonempty.mono hsubset)
    cleaned := fun _ => .inr (exists_mem_last rfl)
    forgotten := fun _ => .inr (exists_mem_last rfl)
    subset := hsubset.trans hremoved.subset
    injected := fun other hother => ?_
    fits := forall_mem_replace_singleton hperm
      (fun other hother => (hremoved.fits other hother).mono hsubset) ?_ }
  · rcases eq_or_ne other pid with rfl | hne
    · exact .inr (exists_mem_last (beq_self_eq_true _))
    · refine (hremoved.injected other hother).imp (fun hin => ?_) ?_
      · exact mem_erase.2 ⟨hne, hin⟩
      · exact exists_mem_replace hperm nofun
  · refine ⟨fun other hother => ?_, trivial⟩
    rw [← eq_of_beq hother]
    exact notMem_erase _ _

/-- A file without the block is written when no process is left. -/
theorem write {content : List Byte} {after : Routine}
    (hempty : (pool.shared.heap cert).processes = ∅) (hcontent : ¬ Contains caBytes content)
    (hremoves : after.Removes cert) (hforgets : after.forgets = true)
    (hpast : ∀ pid, routine.past pid = true → after.past pid = true)
    (hfits : Removing caBytes pool.shared cert after) :
    Removed caBytes cert ⟨{ pool.shared with file := some content }, others ++ [after]⟩ :=
  { hremoved with
    routines := forall_mem_replace_singleton hperm hremoved.routines hremoves
    file := .inl ⟨content, rfl, hcontent⟩
    stocked := fun hnonempty => absurd hempty (nonempty_iff_ne_empty.1 hnonempty)
    cleaned := fun _ => .inl ⟨content, rfl, hcontent⟩
    forgotten := fun _ => .inr (exists_mem_last hforgets)
    injected := fun pid hpid => (hremoved.injected pid hpid).imp_right
      (exists_mem_replace_singleton hperm (hpast pid))
    fits := forall_mem_replace_singleton hperm hremoved.fits hfits }

theorem forget (hroutine : routine = .forgetting cert pid) :
    Removed caBytes cert ⟨{ pool.shared with certs := none }, others ++ [.leaving pid]⟩ := by
  subst hroutine
  obtain ⟨hpast, hempty⟩ := hremoved.fits _ (mem_of_stepped hperm)
  exact { hremoved with
    certs := .inr rfl
    routines := forall_mem_replace_singleton hperm hremoved.routines trivial
    stocked := fun hnonempty => absurd hempty (nonempty_iff_ne_empty.1 hnonempty)
    cleaned := fun _ => (hremoved.cleaned hempty).imp_right (exists_mem_replace hperm nofun)
    forgotten := fun _ => .inl rfl
    injected := fun other hother => (hremoved.injected other hother).imp_right
      (exists_mem_replace_singleton hperm id)
    fits := forall_mem_replace_singleton hperm hremoved.fits ⟨hpast, trivial⟩ }

theorem leave (hroutine : routine = .leaving pid) :
    Removed caBytes cert
      ⟨{ pool.shared with injected := pool.shared.injected.erase pid }, others ++ []⟩ := by
  subst hroutine
  obtain ⟨hpast, -⟩ := hremoved.fits _ (mem_of_stepped hperm)
  refine { hremoved with
    routines := forall_mem_replace hperm hremoved.routines nofun
    cleaned := fun hempty =>
      (hremoved.cleaned hempty).imp_right (exists_mem_replace hperm nofun)
    forgotten := fun hempty =>
      (hremoved.forgotten hempty).imp_right (exists_mem_replace hperm nofun)
    subset := subset_erase.2 ⟨hremoved.subset, hpast pid (beq_self_eq_true _)⟩
    injected := fun other hother => ?_
    fits := forall_mem_replace hperm hremoved.fits nofun }
  obtain ⟨hne, hother⟩ := mem_erase.1 hother
  refine (hremoved.injected other hother).imp_right (exists_mem_replace hperm ?_)
  exact fun hleaving => absurd (eq_of_beq hleaving).symm hne

/-- What a step of a removal leaves, when the BPF map gives up its entry. -/
theorem resume (hchoice : ∀ other pid, routine = .unwatching other pid → choice = true)
    (hresume : Ca.resume caBytes pool.shared routine choice = some (shared, rest)) :
    Removed caBytes cert ⟨shared, others ++ rest⟩ := by
  have hmem : routine ∈ pool.routines := mem_of_stepped hperm
  have hremoves := hremoved.routines routine hmem
  obtain ⟨hpast, hfound⟩ := hremoved.fits routine hmem
  cases routine with
  | iterating pid =>
    rw [Ca.resume] at hresume
    split at hresume <;> cases hresume
    · exact hremoved.move hperm ⟨nofun, trivial⟩
    next hnone =>
      exact hremoved.move hperm (hremoved.removing_leaving hnone pid)
  | visiting pid =>
    rw [Ca.resume] at hresume
    split at hresume <;> cases hresume
    next hother =>
      rcases hremoved.certs with hcerts | hcerts <;> rw [hother] at hcerts <;> cases hcerts
      exact hremoved.move hperm ⟨nofun, trivial⟩
    next hnone =>
      exact hremoved.move hperm (hremoved.removing_leaving hnone pid)
  | finding =>
    cases hremoves
    rw [Ca.resume] at hresume
    split at hresume <;> cases hresume
    · exact hremoved.move hperm ⟨nofun, trivial⟩
    next hother =>
      refine hremoved.move hperm ⟨fun found hfound => ?_, trivial⟩
      exact eq_of_beq hfound ▸ hother
  | deleting =>
    cases hremoves
    cases hresume
    exact hremoved.delete hperm rfl
  | unwatching _ pid =>
    cases hremoves
    rw [hchoice _ pid rfl] at hresume
    cases hresume
    exact hremoved.move hperm ⟨hpast, trivial⟩
  | examining =>
    cases hremoves
    rw [Ca.resume] at hresume
    split at hresume <;> cases hresume
    next hempty =>
      exact hremoved.move hperm ⟨hpast, hempty⟩
    next hnonempty =>
      exact hremoved.move hperm ⟨hpast, trivial⟩ fun hempty => absurd hempty hnonempty
  | checking =>
    cases hremoves
    rw [Ca.resume, hremoved.installed] at hresume
    cases hresume
    exact hremoved.move hperm ⟨hpast, hfound⟩
  | reading =>
    cases hremoves
    rw [Ca.resume, hremoved.createdFile] at hresume
    split at hresume
    next hfile =>
      cases hresume
      have hclean := hremoved.file
      rw [hfile] at hclean
      exact hremoved.move hperm ⟨hpast, hfound, clean_removeAll hclean⟩
    next hfile =>
      rcases hremoved.file with ⟨content, hcontent, -⟩ | ⟨content, hcontent, -⟩ <;>
        rw [hfile] at hcontent <;> cases hcontent
  | truncating =>
    cases hremoves
    cases hresume
    exact hremoved.write hperm hfound.1 not_contains_nil rfl rfl (fun _ => id) ⟨hpast, hfound⟩
  | writing =>
    cases hremoves
    cases hresume
    exact hremoved.write hperm hfound.1 hfound.2 rfl rfl (fun _ => id) ⟨hpast, trivial⟩
  | testing =>
    cases hremoves
    rw [Ca.resume, hremoved.locked] at hresume
    simp only [Bool.false_eq_true, if_false] at hresume
    split at hresume <;> cases hresume
    next hempty =>
      exact hremoved.move hperm ⟨hpast, hempty⟩ nofun
    next hnonempty =>
      exact hremoved.move hperm ⟨hpast, trivial⟩ nofun fun hempty =>
        absurd hempty hnonempty
  | forgetting =>
    cases hremoves
    cases hresume
    exact hremoved.forget hperm rfl
  | leaving =>
    cases hresume
    exact hremoved.leave hperm rfl
  | _ => exact hremoves.elim

end Removed

namespace Unremoved

variable (hunremoved : Unremoved caBytes pool) (hperm : pool.routines.Perm (routine :: others))

include hunremoved hperm

theorem resume (hresume : Ca.resume caBytes pool.shared routine choice = some (shared, rest)) :
    Unremoved caBytes ⟨shared, others ++ rest⟩ := by
  -- a call that finds no `Cert` leaves
  have hleaving : ∀ pid, (∀ other, routine ≠ .leaving other) →
      Unremoved caBytes ⟨pool.shared, others ++ [.leaving pid]⟩ := by
    intro pid hroutine
    refine ⟨hunremoved.certs, hunremoved.file, ?_, fun other hother => ?_⟩
    · exact forall_mem_replace_singleton hperm hunremoved.routines (⟨pid, .inr (.inr rfl)⟩)
    · rcases mem_cons.1 (hperm.mem_iff.1 (hunremoved.injected other hother)) with heq | hmem
      · exact absurd heq.symm (hroutine other)
      · exact mem_append_left _ hmem
  obtain ⟨pid, rfl | rfl | rfl⟩ := hunremoved.routines routine (mem_of_stepped hperm)
  · rw [Ca.resume, hunremoved.certs] at hresume
    cases hresume
    exact hleaving pid nofun
  · rw [Ca.resume, hunremoved.certs] at hresume
    cases hresume
    exact hleaving pid nofun
  · cases hresume
    refine ⟨hunremoved.certs, hunremoved.file, ?_, fun other hother => ?_⟩
    · exact forall_mem_replace hperm hunremoved.routines nofun
    · obtain ⟨hne, hother⟩ := mem_erase.1 hother
      rcases mem_cons.1 (hperm.mem_iff.1 (hunremoved.injected other hother)) with heq | hmem
      · cases heq
        exact absurd rfl hne
      · exact mem_append_left _ hmem

end Unremoved

/-! ## Between the calls -/

/-- What holds when no call is in flight. -/
def Settled (caBytes : List Byte) (shared : Shared) : Prop :=
  shared.certs = none ∧ Clean caBytes shared.file ∧ shared.injected = ∅ ∨
  ∃ cert, shared.certs = some cert ∧ shared.heap cert = ⟨shared.injected, true, false, false⟩ ∧
    Loaded caBytes shared.file ∧ shared.injected.Nonempty

/-- Only injections are in flight. -/
def Scans (caBytes : List Byte) (pool : Pool Shared Routine) : Prop :=
  Unscanned caBytes pool ∨ ∃ cert, Scanned caBytes cert pool

/-- Only removals are in flight. -/
def Removals (caBytes : List Byte) (pool : Pool Shared Routine) : Prop :=
  Unremoved caBytes pool ∨ ∃ cert, Removed caBytes cert pool

section

variable (hsettled : Settled caBytes shared)

include hsettled

theorem Settled.contains_iff :
    (∃ content, shared.file = some content ∧ Contains caBytes content) ↔
      shared.injected.Nonempty := by
  rcases hsettled with ⟨-, hclean, hempty⟩ | ⟨cert, -, -, hloaded, hnonempty⟩
  · refine iff_of_false hclean.not_contains ?_
    rw [hempty]
    exact not_nonempty_empty
  · exact iff_of_true hloaded.contains hnonempty

theorem Settled.scans : Scans caBytes ⟨shared, []⟩ := by
  rcases hsettled with ⟨hcerts, hclean, hempty⟩ | ⟨cert, hcerts, hheap, hloaded, hnonempty⟩
  · exact .inl ⟨hcerts, hclean, hempty, nofun, Nat.zero_le _⟩
  · refine .inr ⟨cert, hcerts, nofun, ?_, ?_, ?_, fun _ => .inl ⟨?_, hloaded⟩, nofun, fun _ => ?_,
      .inl hnonempty⟩ <;> simp only [hheap]
    rfl

theorem Settled.removals : Removals caBytes ⟨shared, []⟩ := by
  rcases hsettled with ⟨hcerts, hclean, hempty⟩ | ⟨cert, hcerts, hheap, hloaded, hnonempty⟩
  · refine .inl ⟨hcerts, hclean, nofun, ?_⟩
    rw [hempty]
    nofun
  · have hprocesses : (shared.heap cert).processes = shared.injected := by rw [hheap]
    have hstocked : (shared.heap cert).processes ≠ ∅ := by
      rw [hprocesses]
      exact nonempty_iff_ne_empty.1 hnonempty
    exact .inr ⟨cert, .inl hcerts, nofun, by rw [hheap], by rw [hheap], by rw [hheap],
      .inr hloaded, fun _ => ⟨hcerts, hloaded⟩, fun hempty => absurd hempty hstocked,
      fun hempty => absurd hempty hstocked, hprocesses.subset,
      fun pid hpid => .inl (hprocesses ▸ hpid), nofun⟩

end

namespace Scans

variable (hscans : Scans caBytes pool)

include hscans

theorem scans : ∀ routine ∈ pool.routines, routine.scans = true := by
  intro routine hroutine
  rcases hscans with hunscanned | ⟨cert, hscanned⟩
  · rcases hunscanned.routines routine hroutine with ⟨pid, rfl⟩ | ⟨pid, rfl⟩ <;> rfl
  · rcases hscanned.routines routine hroutine with ⟨_, rfl⟩ | hinjects
    · rfl
    · cases routine <;> first | rfl | exact hinjects.elim

theorem settled (hidle : pool.Idle) : Settled caBytes pool.shared := by
  rcases hscans with hunscanned | ⟨cert, hscanned⟩
  · exact .inl ⟨hunscanned.certs, hunscanned.file, hunscanned.injected⟩
  · have hnonempty : pool.shared.injected.Nonempty := by
      rcases hscanned.kept with hnonempty | ⟨routine, hroutine, -⟩
      · exact hnonempty
      · rw [hidle] at hroutine
        cases hroutine
    have hinstalled := hscanned.stocked hnonempty
    have hlocked : (pool.shared.heap cert).locked = false := by
      have hlock := hscanned.lock
      rw [hidle] at hlock
      exact Bool.toNat_eq_zero.1 hlock.symm
    have hloaded : Loaded caBytes pool.shared.file := by
      rcases hscanned.free hlocked with ⟨-, hloaded⟩ | ⟨hother, -⟩
      · exact hloaded
      · cases hinstalled.symm.trans hother
    have hcert : pool.shared.heap cert = ⟨pool.shared.injected, true, false, false⟩ :=
      Cert.ext hscanned.processes hinstalled hscanned.createdFile hlocked
    exact .inr ⟨cert, hscanned.certs, hcert, hloaded, hnonempty⟩

theorem call (pid : ℕ) : Scans caBytes ⟨pool.shared, pool.routines ++ [.looking pid]⟩ := by
  rcases hscans with hunscanned | ⟨cert, hscanned⟩
  · refine .inl ⟨hunscanned.certs, hunscanned.file, hunscanned.injected, ?_, ?_⟩
    · exact forall_mem_started hunscanned.routines (.inl ⟨pid, rfl⟩)
    · rw [countP_append]
      exact hunscanned.creating
  · refine .inr ⟨cert, { hscanned with
      routines := forall_mem_started hscanned.routines (.inl ⟨pid, rfl⟩)
      lock := ?_
      fits := forall_mem_started hscanned.fits trivial
      kept := hscanned.kept.imp_right exists_mem_started }⟩
    rw [countP_append]
    exact hscanned.lock

end Scans

namespace Removals

variable (hremovals : Removals caBytes pool)

include hremovals

theorem scans : ∀ routine ∈ pool.routines, routine.scans = false := by
  intro routine hroutine
  rcases hremovals with hunremoved | ⟨cert, hremoved⟩
  · obtain ⟨_, rfl | rfl | rfl⟩ := hunremoved.routines routine hroutine <;> rfl
  · have hremoves := hremoved.routines routine hroutine
    cases routine <;> first | rfl | exact hremoves.elim

theorem settled (hidle : pool.Idle) : Settled caBytes pool.shared := by
  have hnobody : ∀ {holds : Routine → Prop}, ¬ ∃ routine ∈ pool.routines, holds routine := by
    rw [hidle]
    rintro holds ⟨routine, hroutine, -⟩
    cases hroutine
  rcases hremovals with hunremoved | ⟨cert, hremoved⟩
  · refine .inl ⟨hunremoved.certs, hunremoved.file, eq_empty_of_forall_notMem ?_⟩
    intro pid hpid
    exact @hnobody (fun _ => True) ⟨_, hunremoved.injected pid hpid, trivial⟩
  · have hprocesses : (pool.shared.heap cert).processes = pool.shared.injected := by
      refine hremoved.subset.antisymm fun pid hpid => ?_
      exact (hremoved.injected pid hpid).resolve_right hnobody
    rcases pool.shared.injected.eq_empty_or_nonempty with hempty | hnonempty
    · exact .inl ⟨(hremoved.forgotten (hprocesses.trans hempty)).resolve_right hnobody,
        (hremoved.cleaned (hprocesses.trans hempty)).resolve_right hnobody, hempty⟩
    · obtain ⟨hcerts, hloaded⟩ := hremoved.stocked (hprocesses.symm ▸ hnonempty)
      have hcert : pool.shared.heap cert = ⟨pool.shared.injected, true, false, false⟩ :=
        Cert.ext hprocesses hremoved.installed hremoved.createdFile hremoved.locked
      exact .inr ⟨cert, hcerts, hcert, hloaded, hnonempty⟩

theorem call (pid : ℕ) : Removals caBytes ⟨pool.shared, pool.routines ++ [.iterating pid]⟩ := by
  rcases hremovals with hunremoved | ⟨cert, hremoved⟩
  · refine .inl ⟨hunremoved.certs, hunremoved.file, ?_, fun other hother => ?_⟩
    · exact forall_mem_started hunremoved.routines ⟨pid, .inl rfl⟩
    · exact mem_append_left _ (hunremoved.injected other hother)
  · exact .inr ⟨cert, { hremoved with
      routines := forall_mem_started hremoved.routines trivial
      cleaned := fun hempty => (hremoved.cleaned hempty).imp_right exists_mem_started
      forgotten := fun hempty => (hremoved.forgotten hempty).imp_right exists_mem_started
      injected := fun other hother =>
        (hremoved.injected other hother).imp_right exists_mem_started
      fits := forall_mem_started hremoved.fits ⟨nofun, trivial⟩ }⟩

end Removals

/-- Injections and removals take turns. -/
def Turns (caBytes : List Byte) (pool : Pool Shared Routine) : Prop :=
  Scans caBytes pool ∨ Removals caBytes pool

theorem Turns.settled (hturns : Turns caBytes pool) (hidle : pool.Idle) :
    Settled caBytes pool.shared :=
  hturns.elim (fun hscans => hscans.settled hidle) fun hremovals => hremovals.settled hidle

theorem Turns.call {call : Call} {started : List Routine} (hturns : Turns caBytes pool)
    (hseparate : Separate pool (.call call))
    (hstart : start pool.shared call = some (shared, started)) :
    Turns caBytes ⟨shared, pool.routines ++ started⟩ := by
  cases call with
  | scanCertFile pid =>
    cases hstart
    rcases hturns with hscans | hremovals
    · exact .inl (hscans.call pid)
    · have hnone := eq_nil_of_forall hseparate hremovals.scans
      rw [hnone]
      exact .inl ((hremovals.settled hnone).scans.call pid)
  | removeProcess pid =>
    cases hstart
    rcases hturns with hscans | hremovals
    · have hnone := eq_nil_of_forall hscans.scans hseparate
      rw [hnone]
      exact .inr ((hscans.settled hnone).removals.call pid)
    · exact .inr (hremovals.call pid)

theorem Turns.resume {index : ℕ} (hturns : Turns caBytes pool)
    (hseparate : Separate pool (.advance index choice))
    (hroutine : pool.routines[index]? = some routine)
    (hperm : pool.routines.Perm (routine :: others))
    (hresume : Ca.resume caBytes pool.shared routine choice = some (shared, rest)) :
    Turns caBytes ⟨shared, others ++ rest⟩ := by
  rw [Separate, hroutine] at hseparate
  rcases hturns with (hunscanned | ⟨cert, hscanned⟩) | hunremoved | ⟨cert, hremoved⟩
  · have hlooking : ∀ pid, routine = .looking pid → ∀ pid, .creating pid ∉ pool.routines := by
      rintro pid rfl
      exact hseparate
    exact .inl ((hunscanned.resume hperm hlooking hresume).imp_right fun hscanned => ⟨_, hscanned⟩)
  · refine .inl (.inr ⟨cert, hscanned.resume hperm ?_ hresume⟩)
    rintro other pid rfl
    exact hseparate
  · exact .inr (.inl (hunremoved.resume hperm hresume))
  · refine .inr (.inr ⟨cert, hremoved.resume hperm ?_ hresume⟩)
    rintro other pid rfl
    exact hseparate

theorem settled_initial {text : List Byte} (htext : ¬ Contains caBytes text) :
    Settled caBytes (initial text).shared :=
  .inl ⟨rfl, ⟨text, rfl, htext⟩, rfl⟩

/-- When injections and removals do not overlap, the `Cert` is created by one call at a time and
the BPF map works, the file contains the block between the calls exactly if some process was
injected and not removed since. -/
theorem contains_iff_injected {text : List Byte} (htext : ¬ Contains caBytes text)
    {actions : List (Pool.Action Call Bool)}
    (hrun : runActions (Pool.step start (resume caBytes)) (initial text) actions = some pool)
    (hseparate : runActions.Throughout (Pool.step start (resume caBytes)) Separate (initial text)
      actions) (hidle : pool.Idle) :
    (∃ content, pool.shared.file = some content ∧ Contains caBytes content) ↔
      pool.shared.injected.Nonempty := by
  have hturns : Turns caBytes pool := invariant_of_throughout (Turns caBytes) Turns.call
    Turns.resume hrun hseparate (.inl (settled_initial htext).scans)
  exact (hturns.settled hidle).contains_iff

/-- Two injections that overlap, and the removal of the first process. -/
def overlappingScans : List (Pool.Action Call Bool) :=
  [.call (.scanCertFile 1), .advance 0 true, .advance 0 true, .call (.scanCertFile 2),
    .advance 1 true, .advance 0 true, .advance 1 true, .advance 1 true, .advance 1 true,
    .advance 1 true, .advance 1 true, .advance 0 true, .advance 0 true, .advance 0 true,
    .call (.removeProcess 1), .advance 0 true, .advance 0 true, .advance 0 true, .advance 0 true,
    .advance 0 true, .advance 0 true, .advance 0 true, .advance 0 true]

theorem contains_iff_injected_overlappingScans :
    ∃ pool, runActions (Pool.step start (resume [1, 2, 3, 4])) (initial [35, 10])
        overlappingScans = some pool ∧
      pool.Idle ∧ pool.shared.injected = {2} ∧
      ∃ content, pool.shared.file = some content ∧ Contains [1, 2, 3, 4] content := by
  have htext : ¬ Contains [1, 2, 3, 4] [35, 10] := by
    rw [Contains]
    decide
  have hseparate : runActions.Throughout (Pool.step start (resume [1, 2, 3, 4])) Separate
      (initial [35, 10]) overlappingScans := by
    refine .cons nofun rfl <| .cons ?_ rfl <| .cons trivial rfl <| .cons ?_ rfl <|
      .cons ?_ rfl <| .cons trivial rfl <| .cons trivial rfl <| .cons trivial rfl <|
      .cons trivial rfl <| .cons rfl rfl <| .cons trivial rfl <| .cons trivial rfl <|
      .cons rfl rfl <| .cons trivial rfl <| .cons nofun rfl <| .cons trivial rfl <|
      .cons trivial rfl <| .cons trivial rfl <| .cons trivial rfl <| .cons rfl rfl <|
      .cons trivial rfl <| .cons trivial rfl <| .cons trivial rfl trivial
    · intro pid hmem
      have hroutines : creating pid ∈ [.looking 1] := hmem
      simp at hroutines
    · exact forall_mem_singleton.2 rfl
    · intro pid hmem
      have hroutines : creating pid ∈ [.injecting 0 1, .looking 2] := hmem
      simp at hroutines
  refine ⟨_, rfl, rfl, rfl, (contains_iff_injected htext rfl hseparate ?_).2 (singleton_nonempty 2)⟩
  rfl

/-- Two calls that both find no `Cert` create one each: when the second process is removed, the
block is gone although the first one is still there. -/
theorem injected_without_block :
    ∃ pool, runActions (Pool.step start (resume [1, 2, 3, 4])) (initial [35, 10])
        [.call (.scanCertFile 1), .call (.scanCertFile 2), .advance 0 true, .advance 0 true,
          .advance 0 true, .advance 0 true, .advance 0 true, .advance 1 true, .advance 1 true,
          .advance 1 true, .advance 1 true, .advance 1 true, .advance 0 true, .advance 0 true,
          .advance 0 true, .advance 0 true, .advance 0 true, .advance 0 true,
          .call (.removeProcess 2), .advance 0 true, .advance 0 true, .advance 0 true,
          .advance 0 true, .advance 0 true, .advance 0 true, .advance 0 true, .advance 0 true,
          .advance 0 true, .advance 0 true, .advance 0 true, .advance 0 true,
          .advance 0 true] = some pool ∧
      pool.Idle ∧ pool.shared.injected = {1} ∧ pool.shared.file = some [35, 10] ∧
      ¬ Contains [1, 2, 3, 4] [35, 10] :=
  ⟨_, rfl, rfl, rfl, by decide, by rw [Contains]; decide⟩

end Qtap.Ca
