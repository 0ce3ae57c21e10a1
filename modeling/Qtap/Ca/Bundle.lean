import Qtap.Ca.Pem
import Qtap.Core.Pool

/-!
# The certificate bundle of a container

With the inline strategy `scanCertFile` finds or creates the `Cert` of a container for a file and
injects it for a process in a goroutine; the first injection appends the PEM block of the CA to the
file.  `RemoveProcess` takes a process off the `Cert`, removes the block when no process is left,
and then drops the `Cert`.

One PEM file of one container is followed here.  The objects created for it are kept in a heap;
the map of the container refers to at most one of them.  A step takes a call or goroutine from one
access of shared data to the next; its choice says whether an operation on the BPF map succeeds.
-/

namespace Qtap.Ca

open Function Qtap.Core

@[ext]
structure Cert where
  processes : Finset ℕ
  installed : Bool
  createdFile : Bool
  locked : Bool
  deriving DecidableEq

def newCert : Cert := ⟨∅, false, false, false⟩

structure Shared where
  certs : Option ℕ
  heap : ℕ → Cert
  created : ℕ
  file : Option (List Byte)
  /-- The processes that have been injected and not removed since. -/
  injected : Finset ℕ

namespace Shared

def modify (shared : Shared) (cert : ℕ) (change : Cert → Cert) : Shared :=
  { shared with heap := update shared.heap cert (change (shared.heap cert)) }

end Shared

inductive Routine where
  /-- `scanCertFile` -/
  | looking (pid : ℕ)
  | creating (pid : ℕ)
  /-- The goroutine that runs `Inject`; the three in the middle hold the lock of `install`. -/
  | injecting (cert pid : ℕ)
  | preparing (cert pid : ℕ)
  | appending (cert pid : ℕ)
  | marking (cert pid : ℕ)
  | watching (cert pid : ℕ)
  | storing (cert pid : ℕ)
  /-- `RemoveProcess`, and within it `Cert.Remove`. -/
  | iterating (pid : ℕ)
  | visiting (pid : ℕ)
  | finding (cert pid : ℕ)
  | deleting (cert pid : ℕ)
  | unwatching (cert pid : ℕ)
  | examining (cert pid : ℕ)
  | checking (cert pid : ℕ)
  | reading (cert pid : ℕ)
  | truncating (cert pid : ℕ) (content : List Byte)
  | writing (cert pid : ℕ) (content : List Byte)
  | testing (cert pid : ℕ)
  | forgetting (cert pid : ℕ)
  | leaving (pid : ℕ)
  deriving DecidableEq

inductive Call where
  | scanCertFile (pid : ℕ)
  | removeProcess (pid : ℕ)
  deriving DecidableEq

def start (shared : Shared) : Call → Option (Shared × List Routine)
  | .scanCertFile pid => some (shared, [.looking pid])
  | .removeProcess pid => some (shared, [.iterating pid])

/-- `choice` is the outcome of `setWatched` and `unsetWatched`.  An error in `Inject` or `Remove`
is only logged. -/
def resume (caBytes : List Byte) (shared : Shared) (routine : Routine) (choice : Bool) :
    Option (Shared × List Routine) :=
  match routine with
  | .looking pid =>
    match shared.certs with
    | some cert => some (shared, [.injecting cert pid])
    | none => some (shared, [.creating pid])
  | .creating pid =>
    some ({ shared with
      certs := some shared.created
      heap := update shared.heap shared.created newCert
      created := shared.created + 1 }, [.injecting shared.created pid])
  | .injecting cert pid =>
    if (shared.heap cert).locked then none
    else if (shared.heap cert).installed then some (shared, [.watching cert pid])
    else some (shared.modify cert fun c => { c with locked := true }, [.preparing cert pid])
  | .preparing cert pid =>
    match shared.file with
    | some _ => some (shared, [.appending cert pid])
    | none =>
      some ({ shared.modify cert fun c => { c with createdFile := true } with file := some [] },
        [.appending cert pid])
  | .appending cert pid =>
    match shared.file with
    | some content =>
      some ({ shared with file := some (content ++ pemEncode caBytes) }, [.marking cert pid])
    | none => some (shared.modify cert fun c => { c with locked := false }, [])
  | .marking cert pid =>
    some (shared.modify cert fun c => { c with installed := true, locked := false },
      [.watching cert pid])
  | .watching cert pid => some (shared, if choice then [.storing cert pid] else [])
  | .storing cert pid =>
    some ({ shared.modify cert fun c => { c with processes := insert pid c.processes } with
      injected := insert pid shared.injected }, [])
  | .iterating pid =>
    match shared.certs with
    | some _ => some (shared, [.visiting pid])
    | none => some (shared, [.leaving pid])
  | .visiting pid =>
    match shared.certs with
    | some cert => some (shared, [.finding cert pid])
    | none => some (shared, [.leaving pid])
  | .finding cert pid =>
    if pid ∈ (shared.heap cert).processes then some (shared, [.deleting cert pid])
    else some (shared, [.testing cert pid])
  | .deleting cert pid =>
    some (shared.modify cert fun c => { c with processes := c.processes.erase pid },
      [.unwatching cert pid])
  | .unwatching cert pid =>
    some (shared, if choice then [.examining cert pid] else [.testing cert pid])
  | .examining cert pid =>
    if (shared.heap cert).processes = ∅ then some (shared, [.checking cert pid])
    else some (shared, [.testing cert pid])
  | .checking cert pid =>
    if (shared.heap cert).installed then some (shared, [.reading cert pid])
    else some (shared, [.testing cert pid])
  | .reading cert pid =>
    match shared.file with
    | some content =>
      if (shared.heap cert).createdFile then
        some ({ shared with file := none }, [.testing cert pid])
      else some (shared, [.truncating cert pid (removeAll (pemEncode caBytes) content)])
    | none => some (shared, [.testing cert pid])
  | .truncating cert pid content =>
    some ({ shared with file := some [] }, [.writing cert pid content])
  | .writing cert pid content =>
    some ({ shared with file := some content }, [.testing cert pid])
  | .testing cert pid =>
    if (shared.heap cert).locked then none
    else if (shared.heap cert).processes = ∅ then some (shared, [.forgetting cert pid])
    else some (shared, [.leaving pid])
  | .forgetting _ pid => some ({ shared with certs := none }, [.leaving pid])
  | .leaving pid => some ({ shared with injected := shared.injected.erase pid }, [])

def initial (text : List Byte) : Pool Shared Routine :=
  ⟨⟨none, fun _ => newCert, 0, some text, ∅⟩, []⟩

/-- The routine belongs to `scanCertFile`. -/
def Routine.scans : Routine → Bool
  | .looking _ | .creating _ | .injecting _ _ | .preparing _ _ | .appending _ _ | .marking _ _
  | .watching _ _ | .storing _ _ => true
  | _ => false

/-- Injections and removals do not overlap, no call looks for the `Cert` while another is about to
create it, and the operations on the BPF map succeed. -/
def Separate (pool : Pool Shared Routine) : Pool.Action Call Bool → Prop
  | .call (.scanCertFile _) => ∀ routine ∈ pool.routines, routine.scans = true
  | .call (.removeProcess _) => ∀ routine ∈ pool.routines, routine.scans = false
  | .advance index choice =>
    match pool.routines[index]? with
    | some (.looking _) => ∀ pid, .creating pid ∉ pool.routines
    | some (.watching _ _) => choice = true
    | some (.unwatching _ _) => choice = true
    | _ => True

/-! ## The file -/

section File

variable {caBytes : List Byte} {shared : Shared} {content : List Byte}

def Contains (caBytes content : List Byte) : Prop := pemEncode caBytes <:+: content

/-- The file is there and does not contain the block. -/
def Clean (caBytes : List Byte) (file : Option (List Byte)) : Prop :=
  ∃ content, file = some content ∧ ¬ Contains caBytes content

/-- The block was put at the end of a file without it. -/
def Loaded (caBytes : List Byte) (file : Option (List Byte)) : Prop :=
  ∃ content, file = some (content ++ pemEncode caBytes) ∧ ¬ Contains caBytes content

theorem not_contains_nil : ¬ Contains caBytes [] := fun hinside =>
  pemEncode_ne_nil caBytes (List.infix_nil.1 hinside)

theorem clean_removeAll (hfile : Clean caBytes (some content) ∨ Loaded caBytes (some content)) :
    ¬ Contains caBytes (removeAll (pemEncode caBytes) content) := by
  rcases hfile with ⟨text, htext, hclean⟩ | ⟨text, htext, hclean⟩
  · cases htext
    rw [removeAll_of_not_isInfix hclean]
    exact hclean
  · cases htext
    rw [removeAll_append_right (unbordered_pemEncode caBytes) (pemEncode_ne_nil caBytes) hclean]
    exact hclean

theorem Loaded.contains {file : Option (List Byte)} (hloaded : Loaded caBytes file) :
    ∃ content, file = some content ∧ Contains caBytes content := by
  obtain ⟨content, rfl, -⟩ := hloaded
  exact ⟨_, rfl, (List.suffix_append content (pemEncode caBytes)).isInfix⟩

theorem Clean.not_contains {file : Option (List Byte)} (hclean : Clean caBytes file) :
    ¬ ∃ content, file = some content ∧ Contains caBytes content := by
  obtain ⟨_, rfl, hcontent⟩ := hclean
  rintro ⟨_, hother, hinside⟩
  exact hcontent (Option.some.inj hother ▸ hinside)

theorem Clean.append (hclean : Clean caBytes (some content)) :
    Loaded caBytes (some (content ++ pemEncode caBytes)) := by
  obtain ⟨_, htext, hcontent⟩ := hclean
  cases htext
  exact ⟨content, rfl, hcontent⟩

end File

end Qtap.Ca
