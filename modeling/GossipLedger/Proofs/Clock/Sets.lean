import GossipLedger.Proofs.Clock.Comparison
import Mathlib.Data.List.Induction

/-!
# Sets of clocks

A log keeps the timestamps that came in as a set of clocks.  What it asks of such a set are the laws
of a set of clocks up to agreement (`Clock.Sets.Lawful`), whatever the set is made of.  From these
all the rest follows (`Clock.Sets.Lawful.byCounts`): a clock is new exactly if none before it has
the same counts, and neither stored zeros nor the order of insertion can be seen.

The pools of stamps are such sets (`Clock.lawful_pools`).
-/

namespace GossipLedger

namespace Clock

/-- Sets of clocks that are kept as values of a type. -/
structure Sets (σ : Type) where
  /-- The set without clocks. -/
  empty : σ
  /-- Whether a clock is in a set. -/
  contains : σ → Clock → Bool
  /-- Adds a clock, and tells whether it was new. -/
  insert : σ → Clock → Bool × σ

/-- Each of two lists has a clock that agrees with any clock of the other. -/
def SameClocks (cs cs' : List Clock) : Prop :=
  (∀ d ∈ cs, ∃ d' ∈ cs', d.agrees d' = true) ∧ ∀ d' ∈ cs', ∃ d ∈ cs, d'.agrees d = true

theorem sameClocks_of_perm {cs cs' : List Clock} (h : cs.Perm cs') : SameClocks cs cs' :=
  ⟨fun d hd => ⟨d, h.mem_iff.1 hd, agrees_refl d⟩, fun d hd => ⟨d, h.mem_iff.2 hd, agrees_refl d⟩⟩

theorem SameClocks.exists_agrees {cs cs' : List Clock} {c c' : Clock} (h : SameClocks cs cs')
    (hc : c.agrees c' = true) (hex : ∃ d ∈ cs, d.agrees c = true) :
    ∃ d ∈ cs', d.agrees c' = true := by
  obtain ⟨d, hd, hdc⟩ := hex
  obtain ⟨d', hd', hdd'⟩ := h.1 d hd
  exact ⟨d', hd', agrees_trans (agrees_symm hdd') (agrees_trans hdc hc)⟩

namespace Sets

variable {σ : Type} {k : Sets σ} {cs cs' : List Clock} {c c' t : Clock}

/-- The set after the clocks of a list have been added one after another. -/
def fill (k : Sets σ) (cs : List Clock) : σ :=
  cs.foldl (fun s c => (k.insert s c).2) k.empty

/-- The set answers by the counts of the clocks that were added. -/
structure ByCounts (k : Sets σ) : Prop where
  /-- It holds a clock if one with the same counts was added. -/
  contains : ∀ cs c, k.contains (k.fill cs) c = true ↔ ∃ d ∈ cs, ∀ r, d.get r = c.get r
  /-- A clock is new if each one that was added has another count for some replica. -/
  new : ∀ cs c, (k.insert (k.fill cs) c).1 = true ↔ ∀ d ∈ cs, ∃ r, d.get r ≠ c.get r
  /-- Stored zeros, repetitions and the order in which clocks were added make no difference. -/
  unordered : ∀ cs cs' c c', SameClocks cs cs' → c.agrees c' = true →
    k.contains (k.fill cs) c = k.contains (k.fill cs') c'

/-- The laws of a set of clocks up to agreement. -/
structure Lawful (k : Sets σ) : Prop where
  /-- At first there are no clocks. -/
  contains_empty : ∀ t, k.contains k.empty t = false
  /-- An added clock stands for all that agree with it. -/
  contains_insert : ∀ s c t,
    k.contains (k.insert s c).2 t = true ↔ c.agrees t = true ∨ k.contains s t = true
  /-- What was not there is new. -/
  insert_fst : ∀ s c, (k.insert s c).1 = !k.contains s c

theorem fill_concat : k.fill (cs ++ [c]) = (k.insert (k.fill cs) c).2 := by
  rw [fill, List.foldl_append]
  rfl

theorem Lawful.contains_fill (h : k.Lawful) :
    k.contains (k.fill cs) t = true ↔ ∃ d ∈ cs, d.agrees t = true := by
  induction cs using List.reverseRecOn with
  | nil => simp [fill, h.contains_empty]
  | append_singleton cs c ih =>
    rw [fill_concat, h.contains_insert, ih]
    simp [or_comm]

theorem Lawful.contains_fill_congr (h : k.Lawful) (hcs : SameClocks cs cs')
    (hc : c.agrees c' = true) : k.contains (k.fill cs) c = k.contains (k.fill cs') c' := by
  rw [Bool.eq_iff_iff, h.contains_fill, h.contains_fill]
  constructor
  · exact hcs.exists_agrees hc
  · exact SameClocks.exists_agrees hcs.symm (agrees_symm hc)

theorem Lawful.byCounts (h : k.Lawful) : k.ByCounts where
  contains cs c := by
    rw [h.contains_fill]
    simp only [agrees_iff_get]
  new cs c := by
    rw [h.insert_fst, Bool.not_eq_true', ← Bool.not_eq_true, h.contains_fill]
    simp only [agrees_iff_get, not_exists, not_and, not_forall, ne_eq]
  unordered _ _ _ _ := h.contains_fill_congr

end Sets

/-! ### Pools -/

/-- The sets that hold stamps. -/
def pools : Sets Pool where
  empty := .empty
  contains := Pool.contains
  insert := Pool.insert

namespace Pool

variable {p : Pool} {cs : List Clock} {c t : Clock}

theorem contains_iff : p.contains c = true ↔ c.stamp ∈ p.stamps :=
  List.contains_iff_mem

theorem contains_insert :
    (p.insert c).2.contains t = true ↔ c.agrees t = true ∨ p.contains t = true := by
  rw [← stamp_eq_iff_agrees, insert]
  split
  · rename_i hc
    rw [contains_iff] at hc ⊢
    constructor
    · exact .inr
    · rintro (h | h)
      · rwa [← h]
      · exact h
  · rw [contains_iff, contains_iff, List.mem_cons]
    exact or_congr_left eq_comm

end Pool

theorem lawful_pools : pools.Lawful where
  contains_empty _ := rfl
  contains_insert _ _ _ := Pool.contains_insert
  insert_fst p c := by
    simp only [pools, Pool.insert]
    cases p.contains c <;> rfl

namespace Pool

variable {cs : List Clock} {c t : Clock}

theorem ofList_concat : ofList (cs ++ [c]) = ((ofList cs).insert c).2 :=
  Sets.fill_concat (k := pools)

/-- A set of clocks holds what agrees with one of them. -/
theorem contains_ofList : (ofList cs).contains t = true ↔ ∃ c ∈ cs, c.agrees t = true :=
  lawful_pools.contains_fill

end Pool

end Clock

end GossipLedger
