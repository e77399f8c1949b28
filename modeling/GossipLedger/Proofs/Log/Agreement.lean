import GossipLedger.Proofs.Clock.Comparison
import GossipLedger.Proofs.Log.Settling
import Mathlib.Data.List.Forall2

/-!
# Logs that agree

Two logs agree if they hold operations that agree, in the same order (`Log.Agrees`): kinds, origins
and marks are the same, and contexts and timestamps have the same counts, but may store other zeros.
Nothing that a log does can tell them apart.  They know the same timestamps
(`Log.Agrees.contains_eq`), find the same operation ready (`Log.takeReady?_agrees`), settle in the
same way (`Log.Agrees.settle`) and take in the same operations of a batch (`Log.Agrees.absorb`).

What operations are applied to may be of any type, with a relation on it that operations that agree
keep (`Log.Keeps`).
-/

namespace GossipLedger

/-! ### Clocks and operations -/

namespace Clock

variable {a a' b b' : Clock} {r : ReplicaId}

theorem get_eq_of_agrees (h : a.agrees b = true) : a.get r = b.get r :=
  agrees_iff_get.1 h r

theorem dominates_eq_of_agrees (ha : a.agrees a' = true) (hb : b.agrees b' = true) :
    a.dominates b = a'.dominates b' := by
  rw [Bool.eq_iff_iff, dominates_iff_get, dominates_iff_get]
  simp only [get_eq_of_agrees ha, get_eq_of_agrees hb]

theorem agrees_set {n : UInt64} (h : a.agrees b = true) :
    (a.set r n).agrees (b.set r n) = true := by
  rw [agrees_iff_get] at h ⊢
  intro s
  rw [get_set, get_set, h]

theorem agrees_advance {n : UInt64} (h : a.agrees b = true) :
    (a.advance r n).agrees (b.advance r n) = true := by
  rw [agrees_iff_get] at h ⊢
  intro s
  rw [get_advance, get_advance, h]

theorem agrees_merged (ha : a.agrees a' = true) (hb : b.agrees b' = true) :
    (a.merged b).agrees (a'.merged b') = true := by
  rw [agrees_iff_get] at ha hb ⊢
  intro s
  rw [get_merged, get_merged, ha, hb]

end Clock

namespace Operation

variable {a b : Operation}

theorem agrees_iff : a.agrees b = true ↔ a.kind = b.kind ∧ a.origin = b.origin ∧
    a.context.agrees b.context = true ∧ a.timestamp.agrees b.timestamp = true ∧
      a.stable = b.stable := by
  simp [agrees, and_assoc]

section

variable (h : a.agrees b = true)

include h

theorem kind_eq_of_agrees : a.kind = b.kind :=
  (agrees_iff.1 h).1

theorem origin_eq_of_agrees : a.origin = b.origin :=
  (agrees_iff.1 h).2.1

theorem agrees_timestamp : a.timestamp.agrees b.timestamp = true :=
  (agrees_iff.1 h).2.2.2.1

theorem sequence_eq_of_agrees : a.sequence = b.sequence := by
  rw [sequence, sequence, origin_eq_of_agrees h]
  exact Clock.get_eq_of_agrees (agrees_timestamp h)

theorem isReady_eq_of_agrees {c d : Clock} (hc : c.agrees d = true) :
    a.isReady c = b.isReady d :=
  Clock.dominates_eq_of_agrees hc (agrees_iff.1 h).2.2.1

/-- Operations that agree still do when both get the same mark. -/
theorem agrees_with_stable (mark : Bool) :
    ({ a with stable := mark } : Operation).agrees { b with stable := mark } = true := by
  obtain ⟨hkind, horigin, hcontext, htimestamp, -⟩ := agrees_iff.1 h
  exact agrees_iff.2 ⟨hkind, horigin, hcontext, htimestamp, rfl⟩

theorem agrees_marked : a.marked.agrees b.marked = true :=
  agrees_with_stable h true

theorem agrees_unmarked : a.unmarked.agrees b.unmarked = true :=
  agrees_with_stable h false

end

end Operation

/-- The operations of two lists agree, one by one. -/
abbrev AgreeAll (l m : List Operation) : Prop :=
  List.Forall₂ (fun a b => a.agrees b = true) l m

/-! ### Logs -/

namespace Log

variable {log log' : Log} {op op' : Operation} {ops ops' : List Operation}

/-- Two logs hold operations that agree, in the same order. -/
structure Agrees (log log' : Log) : Prop where
  /-- The stable parts. -/
  stable : AgreeAll log.stable log'.stable
  /-- The pending parts. -/
  pending : AgreeAll log.pending log'.pending

theorem agrees_empty : Agrees {} {} :=
  ⟨.nil, .nil⟩

theorem Agrees.operations (h : log.Agrees log') : AgreeAll log.operations log'.operations :=
  List.rel_append h.stable h.pending

theorem Agrees.promotedSince_eq {now now' : Log} (hnow : now.Agrees now') (h : log.Agrees log') :
    now.promotedSince log = now'.promotedSince log' := by
  rw [promotedSince, promotedSince, hnow.stable.length_eq, h.stable.length_eq]

/-- Logs that agree know the same timestamps. -/
theorem Agrees.contains_eq {t t' : Clock} (h : log.Agrees log') (ht : t.agrees t' = true) :
    log.contains t = log'.contains t' := by
  -- timestamps are compared by their stamps, which have no zeros
  have hstamp : t.stamp = t'.stamp := Clock.stamp_eq_iff_agrees.2 ht
  have hops := h.operations
  rw [contains, contains, hstamp]
  generalize log.operations = l, log'.operations = m at hops
  induction hops with
  | nil => rfl
  | cons hop _ ih =>
    rw [List.any_cons, List.any_cons, ih,
      Clock.stamp_eq_iff_agrees.2 (Operation.agrees_timestamp hop)]

/-! ### Additions -/

/-- What two outcomes of an addition have in common: no log, or logs that agree. -/
theorem Agrees.push? (h : log.Agrees log') (hop : op.agrees op' = true) :
    Option.Rel Agrees (log.push? op) (log'.push? op') := by
  rw [Log.push?, Log.push?, h.contains_eq (Operation.agrees_timestamp hop)]
  split
  · exact .none
  · exact .some ⟨h.stable, List.rel_append h.pending (.cons hop .nil)⟩

theorem Agrees.collect (report : Report) (h : log.Agrees log') (hop : op.agrees op' = true) :
    (Log.collect (report, log) op).1 = (Log.collect (report, log') op').1 ∧
      (Log.collect (report, log) op).2.Agrees (Log.collect (report, log') op').2 := by
  have hpush := h.push? (Operation.agrees_unmarked hop)
  rw [Log.collect, Log.collect]
  dsimp only
  generalize log.push? op.unmarked = grown, log'.push? op'.unmarked = grown' at hpush
  cases hpush with
  | none => exact ⟨rfl, h⟩
  | some hgrown => exact ⟨rfl, hgrown⟩

theorem Agrees.foldl_collect (report : Report) (h : log.Agrees log') (hops : AgreeAll ops ops') :
    (ops.foldl Log.collect (report, log)).1 = (ops'.foldl Log.collect (report, log')).1 ∧
      (ops.foldl Log.collect (report, log)).2.Agrees
        (ops'.foldl Log.collect (report, log')).2 := by
  induction hops generalizing report log log' with
  | nil => exact ⟨rfl, h⟩
  | @cons op op' rest rest' hop _ ih =>
    obtain ⟨hreport, hlog⟩ := h.collect report hop
    have hpair : Log.collect (report, log') op' =
        ((Log.collect (report, log) op).1, (Log.collect (report, log') op').2) :=
      Prod.ext hreport.symm rfl
    rw [List.foldl_cons, List.foldl_cons, hpair]
    exact ih _ hlog

/-! ### Settling -/

/-- In lists that agree the same operation is the first one that is ready. -/
theorem takeReady?_agrees {c c' : Clock} (hc : c.agrees c' = true) (hops : AgreeAll ops ops') :
    Option.Rel (fun found found' => found.1.agrees found'.1 = true ∧ AgreeAll found.2 found'.2)
      (takeReady? c ops) (takeReady? c' ops') := by
  induction hops with
  | nil => exact .none
  | @cons _ _ rest rest' hop hrest ih =>
    rw [takeReady?, takeReady?, Operation.isReady_eq_of_agrees hop hc]
    split
    · exact .some ⟨hop, hrest⟩
    · generalize takeReady? c rest = found, takeReady? c' rest' = found' at ih
      cases ih with
      | none => exact .none
      | some hfound => exact .some ⟨hfound.1, .cons hop hfound.2⟩

section Settle

variable {σ : Type} {clockOf : σ → Clock} {apply : Operation → σ → σ} {R : σ → σ → Prop} {s t : σ}

/-- States that stand in the relation have clocks that agree, and stand in the relation also after
operations that agree. -/
structure Keeps (clockOf : σ → Clock) (apply : Operation → σ → σ) (R : σ → σ → Prop) : Prop where
  /-- The clocks agree. -/
  clock : ∀ {s t}, R s t → (clockOf s).agrees (clockOf t) = true
  /-- One more operation keeps the relation. -/
  apply : ∀ {op op' s t}, op.agrees op' = true → R s t → R (apply op s) (apply op' t)

variable (hR : Keeps clockOf apply R)

include hR

theorem Agrees.settleUpTo {bound : Nat} (h : log.Agrees log') (hs : R s t) :
    (Log.settleUpTo clockOf apply bound log s).1.Agrees
        (Log.settleUpTo clockOf apply bound log' t).1 ∧
      R (Log.settleUpTo clockOf apply bound log s).2
        (Log.settleUpTo clockOf apply bound log' t).2 := by
  induction bound generalizing log log' s t with
  | zero => exact ⟨h, hs⟩
  | succ bound ih =>
    have hfound := takeReady?_agrees (hR.clock hs) h.pending
    rw [Log.settleUpTo, Log.settleUpTo]
    generalize takeReady? (clockOf s) log.pending = found,
      takeReady? (clockOf t) log'.pending = found' at hfound
    cases hfound with
    | none => exact ⟨h, hs⟩
    | some hop =>
      obtain ⟨hop, hrest⟩ := hop
      have hmarked := Operation.agrees_marked hop
      exact ih ⟨List.rel_append h.stable (.cons hmarked .nil), hrest⟩ (hR.apply hmarked hs)

/-- Logs that agree settle in the same way. -/
theorem Agrees.settle (h : log.Agrees log') (hs : R s t) :
    (Log.settle clockOf apply log s).1.Agrees (Log.settle clockOf apply log' t).1 ∧
      R (Log.settle clockOf apply log s).2 (Log.settle clockOf apply log' t).2 := by
  rw [Log.settle, Log.settle, h.pending.length_eq]
  exact h.settleUpTo hR hs

/-- A batch is taken in by both logs in the same way, and reported in the same way. -/
theorem Agrees.absorb (h : log.Agrees log') (hops : AgreeAll ops ops') (hs : R s t) :
    (log.absorb clockOf apply ops s).1 = (log'.absorb clockOf apply ops' t).1 ∧
      (log.absorb clockOf apply ops s).2.1.Agrees (log'.absorb clockOf apply ops' t).2.1 ∧
      R (log.absorb clockOf apply ops s).2.2 (log'.absorb clockOf apply ops' t).2.2 := by
  obtain ⟨hreport, hgrown⟩ := h.foldl_collect {} hops
  rw [Log.absorb, Log.absorb]
  generalize ops.foldl Log.collect ({}, log) = collected,
    ops'.foldl Log.collect ({}, log') = collected' at hreport hgrown
  obtain ⟨report, grown⟩ := collected
  obtain ⟨report', grown'⟩ := collected'
  dsimp only at hreport hgrown ⊢
  subst hreport
  split
  · exact ⟨rfl, hgrown, hs⟩
  · obtain ⟨hsettled, hstate⟩ := hgrown.settle hR hs
    exact ⟨by rw [hsettled.promotedSince_eq hgrown], hsettled, hstate⟩

end Settle

end Log

end GossipLedger
