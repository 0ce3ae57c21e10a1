import Qtap.Core.Framing
import Qtap.Core.Keyed

/-!
# Byte streams of several senders

Chunks of several senders arrive in one sequence; each sender has a buffer of its own
from which frames are taken as soon as they are complete.  The frames of a sender are
those of its byte stream, however it was cut, and every moment of the run lies inside
one chunk, of which only the sender's frames are new.
-/

namespace Qtap.Core.Framer

open Function List

variable {A F K : Type*} (framer : Framer A F)

/-- Append a chunk to the buffer and take the frames that it completes. -/
def push (buffer chunk : List A) : List A × List F :=
  ((framer.drain (buffer ++ chunk)).2, (framer.drain (buffer ++ chunk)).1)

theorem length_push_le (buffer chunk : List A) :
    (framer.push buffer chunk).1.length ≤ buffer.length + chunk.length := by
  rw [← length_append]
  exact framer.length_drain_le _

theorem length_feed_push_le (buffer : List A) (chunks : List (List A)) :
    (feed framer.push buffer chunks).1.length ≤ buffer.length + chunks.flatten.length := by
  induction chunks generalizing buffer with
  | nil => exact Nat.le_add_right _ _
  | cons chunk chunks ih =>
    have hchunk := framer.length_push_le buffer chunk
    have hrest := ih (framer.push buffer chunk).1
    rw [flatten_cons, length_append]
    exact hrest.trans (by omega)

theorem feed_push {buffer : List A} (hbuffer : framer.next buffer = none) (chunks : List (List A)) :
    feed framer.push buffer chunks = framer.push buffer chunks.flatten := by
  induction chunks generalizing buffer with
  | nil =>
    rw [push, flatten_nil, append_nil, framer.drain_of_none hbuffer]
    rfl
  | cons chunk chunks ih =>
    have hrest : framer.next (framer.push buffer chunk).1 = none := framer.next_drain_snd _
    rw [feed, ih hrest]
    simp only [push, flatten_cons]
    rw [← append_assoc, framer.drain_append (buffer ++ chunk)]

variable [DecidableEq K]

/-- The frames of all senders in the order in which they become complete. -/
def arrivals (chunks : List (K × List A)) : List (K × F) :=
  (route (fun _ => framer.push) (fun _ => []) chunks).2

/-- However the bytes of a sender are cut, its frames are those of the whole stream. -/
theorem entriesOf_arrivals (key : K) (chunks : List (K × List A)) :
    entriesOf key (framer.arrivals chunks) = (framer.drain (entriesOf key chunks).flatten).1 := by
  have hroute := route_at (fun _ => framer.push) (fun _ => []) chunks key
  rw [framer.feed_push framer.next_nil] at hroute
  exact congrArg Prod.snd hroute

theorem arrivals_concat (chunks : List (K × List A)) (chunk : K × List A) :
    ∃ frames : List F, framer.arrivals (chunks ++ [chunk]) =
        framer.arrivals chunks ++ frames.map (Prod.mk chunk.1) := by
  rw [arrivals, route_append]
  simp only [route, append_nil]
  exact ⟨_, rfl⟩

/-! ## Chunks and single elements -/

/-- The elements of the chunks, each with its sender. -/
def tagged (chunks : List (K × List A)) : List (K × A) :=
  chunks.flatMap fun chunk => chunk.2.map (Prod.mk chunk.1)

theorem push_append (buffer first second : List A) :
    framer.push buffer (first ++ second) = ((framer.push (framer.push buffer first).1 second).1,
        (framer.push buffer first).2 ++ (framer.push (framer.push buffer first).1 second).2) := by
  simp only [push]
  rw [← append_assoc, framer.drain_append (buffer ++ first)]

theorem push_nil {buffer : List A} (hbuffer : framer.next buffer = none) :
    framer.push buffer [] = (buffer, []) := by
  rw [push, append_nil, framer.drain_of_none hbuffer]

/-- A chunk and its elements one by one have the same effect. -/
theorem route_chunk (key : K) (chunk : List A) (table : K → List A)
    (htable : framer.next (table key) = none) :
    route (fun _ => framer.push) table [(key, chunk)] =
      route (fun _ => framer.push) table (chunk.map fun element => (key, [element])) := by
  induction chunk generalizing table with
  | nil =>
    rw [route, framer.push_nil htable]
    simp [route]
  | cons element chunk ih =>
    have hnext : framer.next (update table key (framer.push (table key) [element]).1 key) =
        none := by
      rw [update_self]
      exact framer.next_drain_snd _
    have hrest := ih _ hnext
    simp only [route, update_self, update_idem, append_nil] at hrest
    simp only [map_cons, route, ← hrest]
    rw [← singleton_append, framer.push_append]
    simp

section

variable (chunks : List (K × List A)) (table : K → List A)
  (htable : ∀ key, framer.next (table key) = none)

include htable

theorem next_route (key : K) :
    framer.next ((route (fun _ => framer.push) table chunks).1 key) = none := by
  have hroute := (Prod.ext_iff.1 (route_at (fun _ => framer.push) table chunks key)).1
  dsimp only at hroute
  rw [hroute, framer.feed_push (htable key)]
  exact framer.next_drain_snd _

theorem route_tagged :
    route (fun _ => framer.push) table chunks = route (fun _ => framer.push) table
        ((tagged chunks).map fun element => (element.1, [element.2])) := by
  induction chunks generalizing table with
  | nil => rfl
  | cons chunk chunks ih =>
    have hchunk := framer.route_chunk chunk.1 chunk.2 table (htable chunk.1)
    have hrest := ih (route (fun _ => framer.push) table [chunk]).1
      (framer.next_route [chunk] table htable)
    rw [tagged, flatMap_cons, map_append, map_map, ← singleton_append,
      route_append, route_append, hrest]
    exact congrArg (fun first => ((route (fun _ => framer.push) first.1 _).1,
      first.2 ++ (route (fun _ => framer.push) first.1 _).2)) hchunk

end

/-- The arrivals depend on the order of the elements alone, not on the chunks. -/
theorem arrivals_eq_of_tagged {chunks others : List (K × List A)}
    (htagged : tagged chunks = tagged others) :
    framer.arrivals chunks = framer.arrivals others := by
  rw [arrivals, arrivals, framer.route_tagged chunks _ fun _ => framer.next_nil,
    framer.route_tagged others _ fun _ => framer.next_nil, htagged]

/-- Whole frames, one after the other, arrive in that order. -/
theorem arrivals_encoded {encode : F → List A} {valid : F → Prop}
    (hencodes : framer.Encodes encode valid) (entries : List (K × F))
    (hvalid : ∀ entry ∈ entries, valid entry.2) :
    framer.arrivals (entries.map fun entry => (entry.1, encode entry.2)) = entries := by
  induction entries with
  | nil => rfl
  | cons entry entries ih =>
    have hpush : framer.push [] (encode entry.2) = ([], [entry.2]) := by
      have hdrain := hencodes.drain_flatMap [entry.2]
        (forall_mem_singleton.2 (hvalid entry mem_cons_self))
      rw [flatMap_singleton] at hdrain
      rw [push, nil_append, hdrain]
    have hrest := ih (forall_mem_cons.1 hvalid).2
    rw [arrivals] at hrest
    rw [map_cons, arrivals, route, hpush]
    simp only [update_eq_self, hrest]
    rfl

/-! ## Moments -/

/-- Every moment lies inside one chunk, of which it has seen some frames. -/
theorem prefix_arrivals {past : List (K × F)} {chunks : List (K × List A)}
    (hpast : past <+: framer.arrivals chunks) :
    past = [] ∨ ∃ before chunk, ∃ frames : List F, frames ≠ [] ∧ before ++ [chunk] <+: chunks ∧
      past <+: framer.arrivals (before ++ [chunk]) ∧
      past = framer.arrivals before ++ frames.map (Prod.mk chunk.1) := by
  induction chunks using List.reverseRecOn with
  | nil => exact .inl (prefix_nil.1 hpast)
  | append_singleton chunks chunk ih =>
    by_cases hearlier : past <+: framer.arrivals chunks
    · apply (ih hearlier).imp id
      rintro ⟨before, other, inner, hne, hbefore, hleading, hinner⟩
      exact ⟨before, other, inner, hne, hbefore.trans (prefix_append _ _), hleading, hinner⟩
    · obtain ⟨_, hframes⟩ := framer.arrivals_concat chunks chunk
      have hwhole := hpast
      rw [hframes] at hpast
      obtain ⟨_, rfl⟩ := (List.prefix_or_prefix_of_prefix hpast
        (prefix_append _ _)).resolve_left hearlier
      have hbatch := prefix_iff_eq_take.1 ((prefix_append_right_inj _).1 hpast)
      rw [← map_take] at hbatch
      refine .inr ⟨chunks, chunk, _, ?_, prefix_refl _, hwhole, congrArg _ hbatch⟩
      intro hempty
      rw [hempty] at hbatch
      exact hearlier (by rw [hbatch, map_nil, append_nil])

end Qtap.Core.Framer

namespace Qtap.Core

/-- The last entry of a filtered prefix comes from one entry of the whole list. -/
theorem concat_prefix_filterMap {A B : Type*} {f : A → Option B} {whole : List A}
    {before : List B} {last : B} (hleading : before ++ [last] <+: whole.filterMap f) :
    ∃ earlier entry, earlier ++ [entry] <+: whole ∧ earlier.filterMap f = before ∧
      f entry = some last := by
  obtain ⟨_, hseen, hfilter⟩ := List.prefix_filterMap_iff.1 hleading
  obtain ⟨first, _, rfl, hfirst, hrest⟩ := List.filterMap_eq_append_iff.1 hfilter.symm
  obtain ⟨silent, entry, tail, rfl, hsilent, hentry, _⟩ := List.filterMap_eq_cons_iff.1 hrest
  refine ⟨first ++ silent, entry, ?_, ?_, hentry⟩
  · exact List.IsPrefix.trans ⟨tail, by simp⟩ hseen
  · rw [List.filterMap_append, hfirst, List.filterMap_eq_nil_iff.2 hsilent, List.append_nil]

end Qtap.Core
