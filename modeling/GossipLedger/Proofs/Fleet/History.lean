import GossipLedger.Proofs.Log.Batches
import Mathlib.Logic.Relation

/-!
# Histories of operations

A list of operations is a *history* with respect to a relation `P` if each of its operations stands
in `P` to the operations before it (`History`).  Three relations matter:

* `Ranked` : an operation has the next free number of its origin;
* `Stamped` : its timestamp counts at most the earlier operations of the other origins;
* `Founded` : its context counts at most the earlier operations.

A history in which each operation is both ranked and founded is a causal order of its operations
(`Follows`, `mem_of_covers`).  `Operation.Past` is the causal past of an operation: what its context
covers, and what that covers in turn.

In a ranked history the operations of an origin carry the numbers 1, 2, 3, … in this order
(`map_rank_filter`), so an operation is known by its origin and its number (`eq_of_rank`).  In a
ranked and stamped history no timestamp counts a later operation (`pairwise_timestamp`), so an
operation is also known by its timestamp (`eq_of_stamp`).
-/

namespace GossipLedger

variable {l m : List Operation} {x y : Operation} {r : ReplicaId} {n : Nat}

/-! ### Counting by origin -/

/-- The number of operations of an origin. -/
def countOf (r : ReplicaId) (l : List Operation) : Nat :=
  l.countP (·.origin = r)

@[simp] theorem countOf_nil : countOf r [] = 0 := rfl

theorem countOf_append : countOf r (l ++ m) = countOf r l + countOf r m :=
  List.countP_append

theorem countOf_concat : countOf r (l ++ [x]) = countOf r l + if x.origin = r then 1 else 0 := by
  rw [countOf_append, countOf, countOf, List.countP_singleton]
  simp

theorem countOf_concat_self : countOf x.origin (l ++ [x]) = countOf x.origin l + 1 := by
  rw [countOf_concat, if_pos rfl]

theorem countOf_le_concat : countOf r l ≤ countOf r (l ++ [x]) := by
  rw [countOf_concat]
  exact Nat.le_add_right _ _

/-! ### The highest number of an origin -/

/-- The highest number among the operations of an origin, or zero if there are none. -/
def highest (r : ReplicaId) : List Operation → Nat
  | [] => 0
  | op :: rest => if op.origin = r then max op.rank (highest r rest) else highest r rest

theorem highest_append : highest r (l ++ m) = max (highest r l) (highest r m) := by
  induction l with
  | nil => exact (Nat.zero_max _).symm
  | cons op rest ih =>
    rw [List.cons_append, highest, highest, ih]
    split
    · exact (Nat.max_assoc ..).symm
    · rfl

theorem highest_concat :
    highest r (l ++ [x]) = if x.origin = r then max (highest r l) x.rank else highest r l := by
  rw [highest_append, highest, highest]
  split
  · rw [Nat.max_zero]
  · exact Nat.max_zero _

theorem rank_le_highest (hx : x ∈ l) : x.rank ≤ highest x.origin l := by
  induction l with
  | nil => cases hx
  | cons op rest ih =>
    rw [highest]
    rcases List.mem_cons.1 hx with rfl | hx
    · rw [if_pos rfl]
      exact Nat.le_max_left _ _
    · have hrest := ih hx
      split <;> omega

theorem highest_le (h : ∀ x ∈ l, x.origin = r → x.rank ≤ n) : highest r l ≤ n := by
  induction l with
  | nil => exact Nat.zero_le n
  | cons op rest ih =>
    have hrest : highest r rest ≤ n := ih fun x hx => h x (List.mem_cons_of_mem _ hx)
    rw [highest]
    split
    · exact Nat.max_le.2 ⟨h op List.mem_cons_self ‹_›, hrest⟩
    · exact hrest

/-- The highest number is one of the numbers. -/
theorem exists_rank_eq_highest (h : 0 < highest r l) :
    ∃ x ∈ l, x.origin = r ∧ x.rank = highest r l := by
  induction l with
  | nil => exact absurd h (Nat.lt_irrefl 0)
  | cons op rest ih =>
    have hrest : 0 < highest r rest →
        ∃ x ∈ op :: rest, x.origin = r ∧ x.rank = highest r rest := by
      intro hpos
      obtain ⟨x, hx, ho, hr⟩ := ih hpos
      exact ⟨x, List.mem_cons_of_mem _ hx, ho, hr⟩
    rw [highest] at h ⊢
    by_cases ho : op.origin = r
    · rw [if_pos ho] at h ⊢
      rcases Nat.le_total (highest r rest) op.rank with hle | hle
      · rw [Nat.max_eq_left hle]
        exact ⟨op, List.mem_cons_self, ho, rfl⟩
      · rw [Nat.max_eq_right hle] at h ⊢
        exact hrest h
    · rw [if_neg ho] at h ⊢
      exact hrest h

/-! ### Histories -/

/-- Each operation stands in `P` to the list of those before it. -/
inductive History (P : List Operation → Operation → Prop) : List Operation → Prop where
  /-- Nothing has happened yet. -/
  | nil : History P []
  /-- One more operation. -/
  | concat {l : List Operation} {x : Operation} : History P l → P l x → History P (l ++ [x])

variable {P : List Operation → Operation → Prop}

theorem history_concat : History P (l ++ [x]) ↔ History P l ∧ P l x := by
  constructor
  · intro h
    generalize hm : l ++ [x] = m at h
    cases h with
    | nil => simp at hm
    | concat hl hx =>
      obtain ⟨rfl, hxy⟩ := List.append_inj' hm rfl
      obtain rfl := List.singleton_inj.1 hxy
      exact ⟨hl, hx⟩
  · exact fun h => .concat h.1 h.2

theorem History.of_append {before after : List Operation} (h : History P (before ++ after)) :
    History P before := by
  generalize hm : before ++ after = m at h
  induction h generalizing after with
  | nil =>
    rw [(List.append_eq_nil_iff.1 hm).1]
    exact .nil
  | @concat l x hl hx ih =>
    rcases List.eq_nil_or_concat after with rfl | ⟨rest, z, rfl⟩
    · rw [List.append_nil] at hm
      exact hm ▸ .concat hl hx
    · rw [List.concat_eq_append, ← List.append_assoc] at hm
      exact ih (List.append_inj' hm rfl).1

theorem History.imp {Q : List Operation → Operation → Prop} (h : History P l)
    (himp : ∀ l x, P l x → Q l x) : History Q l := by
  induction h with
  | nil => exact .nil
  | concat _ hx ih => exact .concat ih (himp _ _ hx)

theorem History.holds {before after : List Operation} (h : History P (before ++ x :: after)) :
    P before x := by
  rw [List.append_cons] at h
  exact (history_concat.1 h.of_append).2

/-! ### Numbers -/

/-- The operation has the next free number of its origin. -/
def Ranked (l : List Operation) (x : Operation) : Prop :=
  x.rank = countOf x.origin l + 1

section Ranked

variable (h : History Ranked l)

include h

theorem rank_le_countOf (hx : x ∈ l) : x.rank ≤ countOf x.origin l := by
  induction h with
  | nil => cases hx
  | @concat l z _ hz ih =>
    rcases List.mem_append.1 hx with hx | hx
    · exact Nat.le_trans (ih hx) countOf_le_concat
    · rw [List.mem_singleton.1 hx, countOf_concat_self]
      exact Nat.le_of_eq hz

theorem rank_pos (hx : x ∈ l) : 0 < x.rank := by
  obtain ⟨before, after, rfl⟩ := List.append_of_mem hx
  rw [h.holds]
  exact Nat.succ_pos _

/-- Every number up to the number of operations of an origin is taken. -/
theorem exists_rank (hn : 0 < n) (hle : n ≤ countOf r l) :
    ∃ x ∈ l, x.origin = r ∧ x.rank = n := by
  induction h with
  | nil => exact absurd hle (Nat.not_le.2 hn)
  | @concat l z _ hz ih =>
    by_cases hl : n ≤ countOf r l
    · obtain ⟨x, hx, ho, hr⟩ := ih hl
      exact ⟨x, List.mem_append_left _ hx, ho, hr⟩
    · rw [countOf_concat] at hle
      split at hle
      · rename_i ho
        refine ⟨z, List.mem_append_right _ (List.mem_singleton_self z), ho, ?_⟩
        rw [hz, ho]
        omega
      · omega

/-- There are at most as many operations of an origin as the last of them has for a number. -/
theorem countOf_le (hle : ∀ x ∈ l, x.origin = r → x.rank ≤ n) : countOf r l ≤ n := by
  rcases Nat.eq_zero_or_pos (countOf r l) with h0 | hpos
  · rw [h0]
    exact Nat.zero_le n
  · obtain ⟨x, hx, ho, hr⟩ := exists_rank h hpos (Nat.le_refl _)
    rw [← hr]
    exact hle x hx ho

theorem countOf_le_of_subset (hm : History Ranked m) (hsub : ∀ x ∈ l, x ∈ m) :
    countOf r l ≤ countOf r m :=
  countOf_le h fun x hx ho => ho ▸ rank_le_countOf hm (hsub x hx)

/-- An operation is known by its origin and its number. -/
theorem eq_of_rank (hx : x ∈ l) (hy : y ∈ l) (ho : x.origin = y.origin) (hr : x.rank = y.rank) :
    x = y := by
  induction h with
  | nil => cases hx
  | @concat l z hl hz ih =>
    -- the last operation has a higher number than all earlier ones of its origin
    rw [List.mem_append, List.mem_singleton] at hx hy
    rcases hx with hx | rfl <;> rcases hy with hy | rfl
    · exact ih hx hy
    · have := rank_le_countOf hl hx
      rw [ho, hr, hz] at this
      omega
    · have := rank_le_countOf hl hy
      rw [← ho, ← hr, hz] at this
      omega
    · rfl

theorem nodup_of_ranked : l.Nodup := by
  induction h with
  | nil => exact List.nodup_nil
  | @concat l z hl hz ih =>
    have hz₁ : [z].Nodup := List.nodup_cons.2 ⟨nofun, List.nodup_nil⟩
    refine List.nodup_append.2 ⟨ih, hz₁, fun x hx y hy => ?_⟩
    rintro rfl
    rw [List.mem_singleton.1 hy] at hx
    have hle := rank_le_countOf hl hx
    rw [hz] at hle
    exact Nat.not_succ_le_self _ hle

/-- A ranked part of a history holds every operation whose number it counts. -/
theorem mem_of_rank_le (hm : History Ranked m) (hsub : ∀ y ∈ m, y ∈ l) (hx : x ∈ l)
    (hle : x.rank ≤ countOf x.origin m) : x ∈ m := by
  obtain ⟨y, hy, ho, hr⟩ := exists_rank hm (rank_pos h hx) hle
  obtain rfl := eq_of_rank h (hsub y hy) hx ho hr
  exact hy

/-- The operations of an origin carry the numbers from 1 on, in their order. -/
theorem map_rank_filter :
    (l.filter (·.origin = r)).map Operation.rank = List.range' 1 (countOf r l) := by
  induction h with
  | nil => rfl
  | @concat l z _ hz ih =>
    rw [List.filter_append, List.map_append, ih, countOf_concat]
    by_cases ho : z.origin = r
    · have hrank : z.rank = 1 + countOf r l := by rw [hz, ho, Nat.add_comm]
      simp [ho, hrank, List.range'_concat]
    · simp [ho]

/-- A ranked history whose operations are those of another one lists, for each origin, the first
of them in the same order. -/
theorem filter_eq_take (hm : History Ranked m) (hsub : ∀ x ∈ m, x ∈ l) :
    m.filter (·.origin = r) = (l.filter (·.origin = r)).take (countOf r m) := by
  have hranks := map_rank_filter (r := r) h
  induction hm with
  | nil => rfl
  | @concat m z hm hz ih =>
    have hzl : z ∈ l := hsub z (by simp)
    have ih := ih fun x hx => hsub x (by simp [hx])
    by_cases ho : z.origin = r
    · have hzf : z ∈ l.filter (·.origin = r) := List.mem_filter.2 ⟨hzl, by simpa using ho⟩
      obtain ⟨k, hk, hkz⟩ := List.getElem_of_mem hzf
      -- the place of an operation among those of its origin is told by its number
      have hk' : z.rank = k + 1 := by
        have hlt : k < ((l.filter (·.origin = r)).map Operation.rank).length := by simpa using hk
        have hget : ((l.filter (·.origin = r)).map Operation.rank)[k] = z.rank := by
          rw [List.getElem_map, hkz]
        rw [← hget]
        simp only [hranks, List.getElem_range']
        omega
      have hcount : countOf r m = k := by
        rw [hz, ho] at hk'
        omega
      rw [List.filter_append, ih, countOf_concat, if_pos ho, hcount,
        List.take_succ_eq_append_getElem hk, hkz]
      simp [ho]
    · rw [List.filter_append, ih, countOf_concat, if_neg ho]
      simp [ho]

end Ranked

/-! ### Timestamps -/

/-- The timestamp counts at most the earlier operations of the other origins. -/
def Stamped (l : List Operation) (x : Operation) : Prop :=
  ∀ r, r ≠ x.origin → x.timestamp.count r ≤ countOf r l

section Stamped

variable (h : History Ranked l) (hs : History Stamped l)

include h hs

theorem count_timestamp_le (hx : x ∈ l) : x.timestamp.count r ≤ countOf r l := by
  induction h with
  | nil => cases hx
  | @concat l z hl hz ih =>
    obtain ⟨hsl, hsz⟩ := history_concat.1 hs
    rcases List.mem_append.1 hx with hx | hx
    · exact Nat.le_trans (ih hsl hx) countOf_le_concat
    · obtain rfl := List.mem_singleton.1 hx
      by_cases hr : r = x.origin
      · rw [hr, countOf_concat_self]
        exact Nat.le_of_eq hz
      · exact Nat.le_trans (hsz r hr) countOf_le_concat

/-- No timestamp counts a later operation. -/
theorem pairwise_timestamp : l.Pairwise fun x y => x.timestamp.count y.origin < y.rank := by
  induction h with
  | nil => exact .nil
  | @concat l z hl hz ih =>
    obtain ⟨hsl, -⟩ := history_concat.1 hs
    refine List.pairwise_append.2 ⟨ih hsl, List.pairwise_singleton _ _, fun x hx y hy => ?_⟩
    rw [List.mem_singleton.1 hy, hz]
    exact Nat.lt_succ_of_le (count_timestamp_le hl hsl hx)

/-- An operation is known by its timestamp. -/
theorem eq_of_stamp (hx : x ∈ l) (hy : y ∈ l) (hxy : x.timestamp.stamp = y.timestamp.stamp) :
    x = y := by
  rw [Clock.stamp_eq_iff] at hxy
  -- of two different operations, the earlier one does not count the later one, which counts itself
  have key : ∀ {x y : Operation}, x.timestamp.count y.origin < y.rank →
      (∀ r, x.timestamp.count r = y.timestamp.count r) → x = y :=
    fun hlt he => absurd (he _) (Nat.ne_of_lt hlt)
  have hp := pairwise_timestamp h hs
  obtain ⟨before, after, rfl⟩ := List.append_of_mem hx
  obtain ⟨-, hafter, hbefore⟩ := List.pairwise_append.1 hp
  rcases List.mem_append.1 hy with hy | hy
  · exact (key (hbefore y hy x List.mem_cons_self) fun r => (hxy r).symm).symm
  · rcases List.mem_cons.1 hy with rfl | hy
    · rfl
    · exact key ((List.pairwise_cons.1 hafter).1 y hy) hxy

end Stamped

/-! ### Contexts -/

/-- The context counts at most the earlier operations. -/
def Founded (l : List Operation) (x : Operation) : Prop :=
  ∀ r, x.context.count r ≤ countOf r l

theorem count_context_le (h : History Founded l) (hx : x ∈ l) :
    x.context.count r ≤ countOf r l := by
  induction h with
  | nil => cases hx
  | @concat l z _ hz ih =>
    rcases List.mem_append.1 hx with hx | hx
    · exact Nat.le_trans (ih hx) countOf_le_concat
    · rw [List.mem_singleton.1 hx]
      exact Nat.le_trans (hz r) countOf_le_concat

/-- The operation has the next free number of its origin, and its context counts at most the
earlier operations. -/
def Follows (l : List Operation) (x : Operation) : Prop :=
  Ranked l x ∧ Founded l x

theorem History.ranked (h : History Follows l) : History Ranked l :=
  h.imp fun _ _ hx => hx.1

theorem History.founded (h : History Follows l) : History Founded l :=
  h.imp fun _ _ hx => hx.2

/-- The context of an operation covers another one. -/
def Operation.Covers (y x : Operation) : Prop :=
  x.sequence ≤ y.context.get x.origin

instance : Decidable (y.Covers x) :=
  inferInstanceAs (Decidable (_ ≤ _))

theorem Operation.covers_iff : y.Covers x ↔ x.rank ≤ y.context.count x.origin :=
  UInt64.le_iff_toNat_le

/-- The operations of a list on which an operation depends, directly or through others. -/
def Operation.Past (y : Operation) (l : List Operation) (x : Operation) : Prop :=
  Relation.TransGen (fun y x => x ∈ l ∧ y.Covers x) y x

theorem Operation.Past.mono (h : y.Past l x) (hsub : ∀ z ∈ l, z ∈ m) : y.Past m x :=
  Relation.TransGen.mono (fun _ z ⟨hz, hcovers⟩ => ⟨hsub z hz, hcovers⟩) _ _ h

theorem Operation.Past.mem (h : y.Past l x) : x ∈ l := by
  cases h with
  | single hx => exact hx.1
  | tail _ hx => exact hx.1

/-- Only the context of an operation decides on its past. -/
theorem Operation.Past.congr (h : y.Past l x) {z : Operation} (hz : z.context = y.context) :
    z.Past l x := by
  induction h with
  | single hx =>
    refine .single ⟨hx.1, ?_⟩
    rw [Covers, hz]
    exact hx.2
  | tail _ hx ih => exact ih.tail hx

/-- The past of an operation lies in every set that holds the operation and what is covered from
there. -/
theorem Operation.Past.mem_of_closed (h : y.Past l x) (hy : y ∈ m)
    (hclosed : ∀ y ∈ m, ∀ x ∈ l, y.Covers x → x ∈ m) : x ∈ m := by
  induction h with
  | single hx => exact hclosed y hy _ hx.1 hx.2
  | tail _ hx ih => exact hclosed _ ih _ hx.1 hx.2

/-- In a causal order, what an operation covers stands before it. -/
theorem mem_of_covers {before after : List Operation} (hl : History Ranked l)
    (h : History Follows (before ++ y :: after)) (hsub : ∀ z ∈ before, z ∈ l) (hx : x ∈ l)
    (hcovers : y.Covers x) : x ∈ before := by
  refine mem_of_rank_le hl h.of_append.ranked hsub hx ?_
  exact Nat.le_trans (Operation.covers_iff.1 hcovers) (h.holds.2 x.origin)

end GossipLedger
