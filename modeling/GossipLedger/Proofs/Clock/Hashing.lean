import GossipLedger.Proofs.Replica.Bookkeeping
import Mathlib.Tactic.TFAE

/-!
# Clocks in hash tables

A hash table asks two things of a clock: whether it agrees with another one, and what it feeds to a
hasher, which is its stamp.  The two are one (`Clock.stamp_eq_iff_agrees`), although agreement walks
along two clocks with all that they store and the stamp leaves out the zeros of one.

What a table needs is that clocks that agree have one hash (`Clock.Hashing.hash_eq`), for then a
search for a clock comes to every clock that agrees with it, and the table is a set of clocks up to
agreement (`Clock.Hashing.lawful_tables`).  So it answers as any other such set does.
-/

namespace GossipLedger

namespace Clock

/-! ### Hash tables -/

/-- How a hash table takes clocks: what its hasher does, and which hashes it cannot tell apart. -/
structure Hashing where
  /-- The states of the hasher. -/
  State : Type
  /-- The state before anything is fed. -/
  start : State
  /-- Feeds a pair of a replica and its count. -/
  feed : State → ReplicaId × UInt64 → State
  /-- The hash of all that was fed. -/
  finish : State → UInt64
  /-- Whether a search for the first hash, in a table with these clocks, comes to a clock that has
  the second one. -/
  visits : List Clock → UInt64 → UInt64 → Bool
  /-- A search comes to all clocks that have the hash it is for. -/
  visits_self : ∀ stored hash, visits stored hash hash = true

namespace Hashing

variable {h : Hashing} {stored : List Clock} {c d : Clock}

/-- The hash of a clock. -/
def hash (h : Hashing) (c : Clock) : UInt64 :=
  h.finish (c.stamp.foldl h.feed h.start)

/-- Whether a search for a clock comes to one that agrees with it. -/
def search (h : Hashing) (stored : List Clock) (c : Clock) : Bool :=
  stored.any fun d => h.visits stored (h.hash c) (h.hash d) && d.agrees c

/-- The hash tables, each as the clocks that it stores.  Where these lie is the matter of
`Hashing.visits`. -/
def tables (h : Hashing) : Sets (List Clock) where
  empty := []
  contains := h.search
  insert stored c := if h.search stored c then (false, stored) else (true, c :: stored)

theorem hash_eq (hdc : d.agrees c = true) : h.hash d = h.hash c := by
  rw [hash, hash, stamp_eq_iff_agrees.2 hdc]

/-- A search misses no clock that agrees, for it has the hash that the search is for. -/
theorem search_iff : h.search stored c = true ↔ ∃ d ∈ stored, d.agrees c = true := by
  simp only [search, List.any_eq_true, Bool.and_eq_true]
  refine exists_congr fun d => and_congr_right fun _ => and_iff_right_of_imp fun hdc => ?_
  rw [hash_eq hdc]
  exact h.visits_self stored _

theorem lawful_tables (h : Hashing) : h.tables.Lawful where
  contains_empty _ := rfl
  contains_insert stored c t := by
    simp only [tables, search_iff]
    split
    · rename_i hc
      obtain ⟨d, hd, hdc⟩ := hc
      constructor
      · exact .inr
      · rintro (hct | hex)
        · exact ⟨d, hd, agrees_trans hdc hct⟩
        · exact hex
    · simp only [List.mem_cons, exists_eq_or_imp]
  insert_fst stored c := by
    simp only [tables]
    cases h.search stored c <;> rfl

end Hashing

/-- **Clocks are hashed as they are compared.**  Two clocks feed the same pairs to a hasher exactly
if they agree, which is to have the same counts.  So a hash table, whatever its hasher and its
layout, answers by the counts of the clocks that were added to it, as the pools of stamps do, and a
log that asks such a table takes in what it takes in without one. -/
theorem hash_consistent :
    (∀ a b : Clock, [a.stamp = b.stamp, a.agrees b = true, ∀ r, a.get r = b.get r].TFAE) ∧
    pools.ByCounts ∧
    ∀ h : Hashing, h.tables.ByCounts ∧
      ∀ (log : Log) (op : Operation) (arrived : List Clock),
        arrived.Perm (log.operations.map (·.timestamp)) →
        log.push? op = if (h.tables.insert (h.tables.fill arrived) op.timestamp).1
          then some (log.await [op]) else none := by
  refine ⟨fun a b => ?_, lawful_pools.byCounts, fun h => ⟨h.lawful_tables.byCounts, ?_⟩⟩
  · tfae_have 1 ↔ 2 := stamp_eq_iff_agrees
    tfae_have 2 ↔ 3 := agrees_iff_get
    tfae_finish
  · exact fun log op arrived harrived => h.lawful_tables.push?_eq harrived

end Clock

end GossipLedger
