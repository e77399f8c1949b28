import GossipLedger.Proofs.Log.Batches

/-!
# Marks of operations that wait

Settling a log reads no mark and overwrites the marks of what it promotes.  So it makes no
difference to it which marks the waiting operations carry (`Log.settle_remark`): the same operations
are promoted, in the same order, and the states are the same.

A log can take in an operation in two ways, `Log.insert` and `Log.absorb`.  For a new operation they
are the same step but for the mark that it came with: absorbing takes the mark away, inserting keeps
it (`Log.insert_beside_absorb`).  Once the operation is promoted there is no difference any more.
As long as it waits, an inserted operation that came with a mark is a marked one in the pending
part, and the marks do not tell the two parts of the log apart.
-/

namespace GossipLedger

namespace Log

variable {log : Log} {op q : Operation} {f : Operation → Operation} {c : Clock}
  {σ : Type} {clockOf : σ → Clock} {apply : Operation → σ → σ} {s : σ}

/-! ### Other marks -/

/-- The log in which each operation that waits is replaced by another one. -/
def remark (f : Operation → Operation) (log : Log) : Log :=
  { log with pending := log.pending.map f }

@[simp] theorem stable_remark : (log.remark f).stable = log.stable := rfl

@[simp] theorem pending_remark : (log.remark f).pending = log.pending.map f := rfl

theorem remark_eq_self_iff : log.remark f = log ↔ ∀ q ∈ log.pending, f q = q := by
  have hparts : log.remark f = log ↔ log.pending.map f = log.pending.map id := by
    rw [List.map_id]
    exact ⟨congrArg Log.pending, fun h => by rw [remark, h]⟩
  rw [hparts, List.map_inj_left]
  rfl

section

-- a replacement that changes no more than marks
variable (hf : ∀ q, (f q).unmarked = q.unmarked)

include hf

theorem marked_of_unmarked (q : Operation) : (f q).marked = q.marked := by
  rw [← Operation.marked_unmarked, hf, Operation.marked_unmarked]

theorem isReady_of_unmarked (q : Operation) : (f q).isReady c = q.isReady c := by
  have hcontext : (f q).unmarked.context = q.unmarked.context := by rw [hf]
  exact congrArg c.dominates hcontext

theorem contents_remark : (log.remark f).contents = log.contents := by
  simp only [contents, operations, stable_remark, pending_remark, List.map_append, List.map_map]
  exact congrArg _ (List.map_congr_left fun q _ => hf q)

theorem contains_remark {t : Clock} : (log.remark f).contains t = log.contains t := by
  rw [Bool.eq_iff_iff, contains_iff, contains_iff, contents_remark hf]

theorem takeReady?_map {ops : List Operation} :
    takeReady? c (ops.map f) =
      (takeReady? c ops).map fun found => (f found.1, found.2.map f) := by
  induction ops with
  | nil => rfl
  | cons q rest ih =>
    simp only [List.map_cons, takeReady?, isReady_of_unmarked hf, ih]
    split
    · rfl
    · cases takeReady? c rest <;> rfl

theorem settleUpTo_remark {bound : Nat} :
    settleUpTo clockOf apply bound (log.remark f) s =
      ((settleUpTo clockOf apply bound log s).1.remark f,
        (settleUpTo clockOf apply bound log s).2) := by
  induction bound generalizing log s with
  | zero => rfl
  | succ bound ih =>
    rw [settleUpTo, settleUpTo, pending_remark, takeReady?_map hf]
    cases takeReady? (clockOf s) log.pending with
    | none => rfl
    | some found =>
      simp only [Option.map_some, marked_of_unmarked hf]
      exact @ih ⟨log.stable ++ [found.1.marked], found.2⟩ (apply found.1.marked s)

/-- Settling does not see marks. -/
theorem settle_remark :
    settle clockOf apply (log.remark f) s =
      ((settle clockOf apply log s).1.remark f, (settle clockOf apply log s).2) := by
  rw [settle, settle, pending_remark, List.length_map]
  exact settleUpTo_remark hf

end

/-! ### The mark of one operation -/

/-- The replacement that takes its mark off an operation and leaves all others alone. -/
def unmarking (op q : Operation) : Operation :=
  if q = op then q.unmarked else q

theorem unmarking_self : unmarking op op = op.unmarked :=
  if_pos rfl

theorem unmarked_unmarking (q : Operation) : (unmarking op q).unmarked = q.unmarked := by
  unfold unmarking
  split
  · exact Operation.unmarked_unmarked
  · rfl

theorem unmarking_eq_self_iff : unmarking op q = q ↔ (q = op → op.stable = false) := by
  constructor
  · rintro h rfl
    rw [← h, unmarking_self]
    rfl
  · intro h
    unfold unmarking
    split
    · rename_i hq
      exact Operation.unmarked_eq_self (hq ▸ h hq)
    · rfl

theorem remark_unmarking_eq_self_iff :
    log.remark (unmarking op) = log ↔ (op.stable = true → op ∉ log.pending) := by
  simp only [remark_eq_self_iff, unmarking_eq_self_iff]
  constructor
  · intro h hmark hop
    rw [h op hop rfl] at hmark
    cases hmark
  · rintro h q hq rfl
    rw [← Bool.not_eq_true]
    exact fun hmark => h hmark hq

/-- A log does not hold an operation whose timestamp it does not know. -/
theorem not_mem_pending (h : log.contains op.timestamp = false) : op ∉ log.pending := by
  intro hop
  have hknown : log.contains op.timestamp = true :=
    contains_iff.2 ⟨op.unmarked, unmarked_mem_contents (List.mem_append_right _ hop), rfl⟩
  rw [h] at hknown
  cases hknown

theorem await_unmarked (h : log.contains op.timestamp = false) :
    log.await [op.unmarked] = (log.await [op]).remark (unmarking op) := by
  have hlog : log.pending.map (unmarking op) = log.pending := by
    have hsame : log.remark (unmarking op) = log :=
      remark_unmarking_eq_self_iff.2 fun _ => not_mem_pending h
    exact congrArg Log.pending hsame
  rw [remark, pending_await, List.map_append, hlog, List.map_singleton, unmarking_self]
  rfl

/-! ### Inserting and absorbing -/

theorem absorb_singleton_of_not_contains (h : log.contains op.timestamp = false) :
    log.absorb clockOf apply [op] s =
      ({ inserted := 1
         promoted := (settle clockOf apply (log.await [op]) s).1.promotedSince log },
        (settle clockOf apply (log.await [op]) s).1.remark (unmarking op),
        (settle clockOf apply (log.await [op]) s).2) := by
  have hnews : log.news [op] = [op.unmarked] := news_cons_of_not_contains h
  rw [absorb, foldl_collect, hnews]
  dsimp only [List.length_singleton]
  rw [if_neg (by decide), await_unmarked h, settle_remark unmarked_unmarking]
  rfl

theorem absorb_singleton_of_contains (h : log.contains op.timestamp = true) :
    log.absorb clockOf apply [op] s = ({ duplicates := 1 }, log, s) := by
  have hnews : log.news [op] = [] := news_cons_of_contains h
  rw [absorb, foldl_collect, hnews, await_nil]
  rfl

/-- How a log that has inserted an operation stands to one that has absorbed it. -/
structure MarkApart (op : Operation) (log inserted absorbed : Log) : Prop where
  /-- Applied are the same operations, in the same order. -/
  stable : absorbed.stable = inserted.stable
  /-- Waiting are the same operations, in the same order, the absorbed one without a mark. -/
  pending : absorbed.pending = inserted.pending.map (unmarking op)
  /-- Both know the same timestamps. -/
  contains : ∀ t, absorbed.contains t = inserted.contains t
  /-- The logs are equal unless the operation came with a mark and waits. -/
  eq_iff : absorbed = inserted ↔ (op.stable = true → op ∉ inserted.pending)
  /-- Absorbing keeps the marks in order. -/
  tidy : log.Tidy → absorbed.Tidy
  /-- Inserting does so unless the operation came with a mark and waits. -/
  tidy_iff : log.Tidy → (inserted.Tidy ↔ (op.stable = true → op ∉ inserted.pending))

theorem markApart_settle (h : log.contains op.timestamp = false) :
    MarkApart op log (settle clockOf apply (log.await [op]) s).1
      ((settle clockOf apply (log.await [op]) s).1.remark (unmarking op)) := by
  have htidy : log.Tidy →
      ((settle clockOf apply (log.await [op]) s).1.remark (unmarking op)).Tidy := by
    intro hlog
    have hawait : (log.await [op.unmarked]).Tidy := hlog.await (by simp)
    have hsettled : (settle clockOf apply (log.await [op.unmarked]) s).1.Tidy := hawait.settle
    rwa [await_unmarked h, settle_remark unmarked_unmarking] at hsettled
  constructor
  case stable => rfl
  case pending => rfl
  case contains => exact fun t => contains_remark unmarked_unmarking
  case eq_iff => exact remark_unmarking_eq_self_iff
  case tidy => exact htidy
  case tidy_iff =>
    intro hlog
    constructor
    · intro hinserted hmark hop
      rw [hinserted.pending op hop] at hmark
      cases hmark
    · intro hcond
      have habsorbed := htidy hlog
      rwa [remark_unmarking_eq_self_iff.2 hcond] at habsorbed

/-- **Inserting and absorbing are one step but for a mark.**  Of a new operation they make the same
report, they promote the same operations and lead to the same state, whatever operations are applied
to; and the logs are the same unless the operation came with a mark and has to wait.  A known
timestamp changes nothing, and is an error only for an insertion. -/
theorem insert_beside_absorb (clockOf : σ → Clock) (apply : Operation → σ → σ) (log : Log)
    (op : Operation) (s : σ) :
    (log.contains op.timestamp = false → ∃ report inserted absorbed t,
      log.insert clockOf apply op s = .ok (report, inserted, t) ∧
      log.absorb clockOf apply [op] s = (report, absorbed, t) ∧
      MarkApart op log inserted absorbed) ∧
    (log.contains op.timestamp = true →
      log.insert clockOf apply op s = .error (.duplicateOperation op.timestamp) ∧
      log.absorb clockOf apply [op] s = ({ duplicates := 1 }, log, s)) := by
  constructor
  · intro hnew
    exact ⟨_, _, _, _, insert_of_not_contains hnew, absorb_singleton_of_not_contains hnew,
      markApart_settle hnew⟩
  · intro hknown
    exact ⟨insert_of_contains hknown, absorb_singleton_of_contains hknown⟩

/-! ### A mark that counts, and one that does not -/

/-- An operation is counted by a clock. -/
def counted (op : Operation) (clock : Clock) : Clock :=
  clock.advance op.origin op.sequence

/-- An operation that waits for the first one of another replica. -/
def follower : Operation where
  kind := .create "y"
  origin := "B"
  context := Clock.zero.set "A" 1
  timestamp := Clock.zero.set "B" 1

/-- An operation of that replica, with a mark.  Nothing has to come before it. -/
def leader : Operation where
  kind := .create "x"
  origin := "A"
  context := .zero
  timestamp := Clock.zero.set "A" 1
  stable := true

/-- The log in which the follower waits. -/
def awaiting : Log :=
  empty.await [follower]

/-- Where the operation is promoted at once its mark makes no difference. -/
theorem leader_same : ∃ now t,
    awaiting.insert id counted leader .zero = .ok ({ inserted := 1, promoted := 2 }, now, t) ∧
    awaiting.absorb id counted [leader] .zero = ({ inserted := 1, promoted := 2 }, now, t) ∧
    now.Tidy := by
  obtain ⟨hnew, -⟩ := insert_beside_absorb id counted awaiting leader .zero
  obtain ⟨report, inserted, absorbed, t, hinsert, habsorb, happart⟩ := hnew (by decide)
  have hvalue : (awaiting.insert id counted leader .zero).map (fun x => (x.1, x.2.1.pending)) =
      .ok ({ inserted := 1, promoted := 2 }, []) := rfl
  rw [hinsert] at hvalue
  obtain ⟨rfl, hpending⟩ := Prod.mk.inj (Except.ok.inj hvalue)
  have hsame : absorbed = inserted := by
    rw [happart.eq_iff, hpending]
    exact fun _ => List.not_mem_nil
  subst hsame
  exact ⟨absorbed, t, hinsert, habsorb, happart.tidy ⟨by decide, by decide⟩⟩

/-- An operation with a mark that has to wait. -/
def early : Operation :=
  { leader with context := Clock.zero.set "B" 1 }

/-- A new operation is inserted and absorbed with the same report, but two logs come of it: in one
of them it waits with its mark. -/
theorem early_apart :
    empty.contains early.timestamp = false ∧
    empty.insert id counted early .zero = .ok ({ inserted := 1 }, ⟨[], [early]⟩, .zero) ∧
    empty.absorb id counted [early] .zero = ({ inserted := 1 }, ⟨[], [early.unmarked]⟩, .zero) ∧
    early ≠ early.unmarked := by
  refine ⟨?_, ?_, ?_, ?_⟩
  · decide
  · rfl
  · rfl
  · decide

end Log

end GossipLedger
