import GossipLedger.Proofs.Clock.Sets
import GossipLedger.Proofs.Log.Batches

/-!
# Logs as one list

A log can be kept as one list with a boundary (`FlatLog`).  The stable operations stand before the
boundary and the pending ones behind it, and a set besides holds the timestamps that came in.  To
promote an operation is to turn the part of the list that reaches from the boundary to it, so that
it comes to the boundary and the others keep their order, and to move the boundary behind it
(`FlatLog.promote`).

Such a log does what a log does that keeps its parts in two lists and looks timestamps up among its
operations (`FlatLog.Holds`):

* settling takes as many steps as the stable part grows (`FlatLog.Lists.settle`);
* an operation is taken in if its timestamp is new to the set (`FlatLog.Holds.push`);
* an insertion and a batch have the same report and the same effect
  (`FlatLog.Holds.insert_of_not_contains`, `FlatLog.Holds.absorb`).
-/

namespace GossipLedger

/-- A log as one list, with a set of timestamps. -/
structure FlatLog (τ : Type) where
  /-- All operations, the stable ones first. -/
  operations : List Operation
  /-- The number of stable operations. -/
  boundary : Nat
  /-- The timestamps that came in. -/
  seen : τ

namespace FlatLog

variable {τ σ : Type}

/-- The log without operations. -/
def empty (k : Clock.Sets τ) : FlatLog τ :=
  ⟨[], 0, k.empty⟩

/-- The operations before the boundary. -/
def stable (flat : FlatLog τ) : List Operation :=
  flat.operations.take flat.boundary

/-- The operations behind the boundary. -/
def pending (flat : FlatLog τ) : List Operation :=
  flat.operations.drop flat.boundary

/-- Adds a timestamp to the set, and its operation to the list if the timestamp was new. -/
def push (k : Clock.Sets τ) (flat : FlatLog τ) (op : Operation) : Bool × FlatLog τ :=
  let (new, seen) := k.insert flat.seen op.timestamp
  (new,
    { flat with
      operations := if new then flat.operations ++ [op] else flat.operations
      seen })

/-- Makes a pending operation stable, given how many stand between the boundary and it. -/
def promote (flat : FlatLog τ) (offset : Nat) : FlatLog τ :=
  let turned := (flat.pending.take (offset + 1)).rotateRight ++ flat.pending.drop (offset + 1)
  { flat with
    operations := (flat.stable ++ turned).modify flat.boundary Operation.marked
    boundary := flat.boundary + 1 }

/-- Makes at most `bound` ready operations stable, each as soon as it is the first one that is
ready, and counts them. -/
def settleUpTo (clockOf : σ → Clock) (apply : Operation → σ → σ) :
    (bound : Nat) → FlatLog τ → σ → Nat × FlatLog τ × σ
  | 0, flat, s => (0, flat, s)
  | bound + 1, flat, s =>
    match flat.pending.findIdx? (·.isReady (clockOf s)) with
    | none => (0, flat, s)
    | some offset =>
      let promoted := flat.promote offset
      let s := promoted.operations[flat.boundary]?.elim s (apply · s)
      let (count, done) := settleUpTo clockOf apply bound promoted s
      (count + 1, done)

/-- Makes ready operations stable until none is ready, and counts them. -/
def settle (clockOf : σ → Clock) (apply : Operation → σ → σ) (flat : FlatLog τ) (s : σ) :
    Nat × FlatLog τ × σ :=
  settleUpTo clockOf apply flat.pending.length flat s

/-- Adds an operation that the replica has accepted itself. -/
def insert (k : Clock.Sets τ) (clockOf : σ → Clock) (apply : Operation → σ → σ) (flat : FlatLog τ)
    (op : Operation) (s : σ) : Result (Report × FlatLog τ × σ) :=
  match flat.push k op with
  | (true, grown) =>
    let (promoted, done) := grown.settle clockOf apply s
    .ok ({ inserted := 1, promoted }, done)
  | (false, _) => .error (.duplicateOperation op.timestamp)

/-- Adds one of the operations that another replica has sent. -/
def collect (k : Clock.Sets τ) (state : Report × FlatLog τ) (op : Operation) :
    Report × FlatLog τ :=
  match state.2.push k op.unmarked with
  | (true, grown) => ({ state.1 with inserted := state.1.inserted + 1 }, grown)
  | (false, same) => ({ state.1 with duplicates := state.1.duplicates + 1 }, same)

/-- Adds the operations that another replica has sent, except for those that are known. -/
def absorb (k : Clock.Sets τ) (clockOf : σ → Clock) (apply : Operation → σ → σ) (flat : FlatLog τ)
    (ops : List Operation) (s : σ) : Report × FlatLog τ × σ :=
  let (report, grown) := ops.foldl (collect k) ({}, flat)
  if report.inserted = 0 then (report, grown, s)
  else
    let (promoted, done) := grown.settle clockOf apply s
    ({ report with promoted }, done)

/-! ### The list and its boundary -/

/-- The list has the operations of the log, and the boundary stands between its parts. -/
structure Lists (flat : FlatLog τ) (log : Log) : Prop where
  /-- The operations. -/
  operations : flat.operations = log.operations
  /-- The boundary. -/
  boundary : flat.boundary = log.stable.length

section Lists

variable {flat : FlatLog τ} {log : Log} {before after : List Operation} {op : Operation}
  {clockOf : σ → Clock} {apply : Operation → σ → σ} {s : σ} {bound : Nat}

theorem Lists.stable (h : flat.Lists log) : flat.stable = log.stable := by
  rw [FlatLog.stable, h.operations, h.boundary, Log.operations, List.take_left]

theorem Lists.pending (h : flat.Lists log) : flat.pending = log.pending := by
  rw [FlatLog.pending, h.operations, h.boundary, Log.operations, List.drop_left]

theorem rotateRight_concat {l : List Operation} : (l ++ [op]).rotateRight = op :: l := by
  cases l with
  | nil => rfl
  | cons q l => simp [List.rotateRight]

theorem modify_length {l m : List Operation} {f : Operation → Operation} :
    (l ++ op :: m).modify l.length f = l ++ f op :: m := by
  induction l with
  | nil => rfl
  | cons q l ih => rw [List.cons_append, List.length_cons, List.modify_succ_cons, ih]; rfl

theorem Lists.operations_promote (h : flat.Lists log) (hlog : log.pending = before ++ op :: after) :
    (flat.promote before.length).operations = log.stable ++ op.marked :: (before ++ after) := by
  have hsplit : log.pending = (before ++ [op]) ++ after := by
    rw [hlog, List.append_assoc, List.singleton_append]
  have hlength : before.length + 1 = (before ++ [op]).length := by
    rw [List.length_append, List.length_singleton]
  simp only [promote]
  rw [h.stable, h.pending, h.boundary, hsplit, hlength, List.take_left, List.drop_left,
    rotateRight_concat, List.cons_append, modify_length]

/-- The operation comes to the boundary, and the others keep their order. -/
theorem Lists.promote (h : flat.Lists log) (hlog : log.pending = before ++ op :: after) :
    (flat.promote before.length).Lists ⟨log.stable ++ [op.marked], before ++ after⟩ where
  operations := by
    rw [h.operations_promote hlog, Log.operations, List.append_assoc, List.singleton_append]
  boundary := by
    rw [List.length_append, List.length_singleton, ← h.boundary]
    rfl

/-- Where the boundary was now stands the operation. -/
theorem Lists.getElem?_promote (h : flat.Lists log) (hlog : log.pending = before ++ op :: after) :
    (flat.promote before.length).operations[flat.boundary]? = some op.marked := by
  rw [h.operations_promote hlog, h.boundary, List.getElem?_append_right (Nat.le_refl _),
    Nat.sub_self]
  rfl

theorem findIdx?_eq_some {c : Clock} (hbefore : ∀ q ∈ before, q.isReady c = false)
    (hop : op.isReady c = true) :
    (before ++ op :: after).findIdx? (·.isReady c) = some before.length := by
  rw [List.findIdx?_append, List.findIdx?_eq_none_iff.2 hbefore, List.findIdx?_cons, hop]
  simp

/-- A flat log has settled as the log has, in as many steps as there were promotions. -/
structure SettlesAs (flat : FlatLog τ) (log : Log) (done : Nat × FlatLog τ × σ)
    (settled : Log × σ) : Prop where
  /-- The list is that of the settled log. -/
  lists : done.2.1.Lists settled.1
  /-- The state is the same. -/
  state : done.2.2 = settled.2
  /-- Each step has made one operation stable. -/
  count : settled.1.stable.length = log.stable.length + done.1
  /-- The timestamps are left alone. -/
  seen : done.2.1.seen = flat.seen

theorem Lists.settleUpTo (h : flat.Lists log) :
    flat.SettlesAs log (flat.settleUpTo clockOf apply bound s)
      (log.settleUpTo clockOf apply bound s) := by
  induction bound generalizing flat log s with
  | zero => exact ⟨h, rfl, rfl, rfl⟩
  | succ bound ih =>
    rw [FlatLog.settleUpTo, Log.settleUpTo, h.pending]
    cases ht : Log.takeReady? (clockOf s) log.pending with
    | none =>
      rw [List.findIdx?_eq_none_iff.2 (Log.takeReady?_eq_none.1 ht)]
      exact ⟨h, rfl, rfl, rfl⟩
    | some found =>
      obtain ⟨op, rest⟩ := found
      obtain ⟨before, after, hlog, rfl, hbefore, hop⟩ := Log.takeReady?_eq_some ht
      have hdone := ih (s := apply op.marked s) (h.promote hlog)
      rw [hlog, findIdx?_eq_some hbefore hop]
      dsimp only
      rw [h.getElem?_promote hlog]
      refine ⟨hdone.lists, hdone.state, ?_, hdone.seen⟩
      have hcount := hdone.count
      rw [List.length_append, List.length_singleton] at hcount
      dsimp only [Option.elim_some]
      omega

/-- **A flat log settles as the log does, and counts the promotions.** -/
theorem Lists.settle (h : flat.Lists log) (clockOf : σ → Clock) (apply : Operation → σ → σ)
    (s : σ) : flat.SettlesAs log (flat.settle clockOf apply s) (log.settle clockOf apply s) := by
  rw [FlatLog.settle, h.pending]
  exact h.settleUpTo

theorem SettlesAs.promotedSince {done : Nat × FlatLog τ × σ} {settled : Log × σ}
    (h : flat.SettlesAs log done settled) : settled.1.promotedSince log = done.1 := by
  rw [Log.promotedSince, h.count, Nat.add_sub_cancel_left]

end Lists

/-! ### The set of timestamps -/

/-- The list has what the log has, and the set holds the timestamps that the log knows. -/
structure Holds (k : Clock.Sets τ) (flat : FlatLog τ) (log : Log) : Prop extends
    flat.Lists log where
  /-- The set answers as the log does. -/
  seen : ∀ t, k.contains flat.seen t = log.contains t

section Holds

variable {k : Clock.Sets τ} {flat : FlatLog τ} {log : Log} {op : Operation} {ops : List Operation}
  {clockOf : σ → Clock} {apply : Operation → σ → σ} {s : σ} {report : Report}

theorem holds_empty (hk : k.Lawful) : (empty k).Holds k .empty where
  operations := rfl
  boundary := rfl
  seen := hk.contains_empty

/-- What is settled holds the same timestamps. -/
theorem Holds.settled (h : flat.Holds k log) {done : Nat × FlatLog τ × σ}
    (hdone : flat.SettlesAs log done (log.settle clockOf apply s)) :
    done.2.1.Holds k (log.settle clockOf apply s).1 where
  toLists := hdone.lists
  seen t := by rw [hdone.seen, h.seen, Log.contains_settle]

/-- An addition has the same report, and the same effect on the log and on the state. -/
structure AddsAs (k : Clock.Sets τ) (done : Report × FlatLog τ × σ) (added : Report × Log × σ) :
    Prop where
  /-- The report. -/
  report : done.1 = added.1
  /-- The log. -/
  holds : done.2.1.Holds k added.2.1
  /-- The state. -/
  state : done.2.2 = added.2.2

variable (hk : k.Lawful)

include hk

/-- An operation is taken in exactly if its timestamp is new to the set. -/
theorem Holds.push (h : flat.Holds k log) (op : Operation) :
    (flat.push k op).1 = !log.contains op.timestamp ∧
      (flat.push k op).2.Holds k ((log.push? op).getD log) := by
  have hnew : (k.insert flat.seen op.timestamp).1 = !log.contains op.timestamp := by
    rw [hk.insert_fst, h.seen]
  refine ⟨hnew, ?_⟩
  simp only [FlatLog.push, hnew]
  cases hop : log.contains op.timestamp with
  | false =>
    rw [Log.push?_of_not_contains hop, Option.getD_some]
    refine ⟨⟨?_, h.boundary⟩, fun t => ?_⟩
    · rw [Log.operations_await, ← h.operations]
      rfl
    · rw [Log.contains_await, Bool.eq_iff_iff, hk.contains_insert, h.seen, Bool.or_eq_true, or_comm]
  | true =>
    rw [Log.push?_of_contains hop, Option.getD_none]
    refine ⟨⟨h.operations, h.boundary⟩, fun t => ?_⟩
    rw [Bool.eq_iff_iff, hk.contains_insert, h.seen, or_iff_right_iff_imp]
    intro hagrees
    obtain ⟨x, hx, hxop⟩ := Log.contains_iff_agrees.1 hop
    exact Log.contains_iff_agrees.2 ⟨x, hx, Clock.agrees_trans hxop hagrees⟩

theorem Holds.insert_of_contains (h : flat.Holds k log)
    (hknown : log.contains op.timestamp = true) :
    flat.insert k clockOf apply op s = .error (.duplicateOperation op.timestamp) := by
  have hpush := (h.push hk op).1
  rw [hknown] at hpush
  rw [FlatLog.insert]
  split
  · rename_i heq
    rw [heq] at hpush
    cases hpush
  · rfl

theorem Holds.insert_of_not_contains (h : flat.Holds k log)
    (hnew : log.contains op.timestamp = false) :
    ∃ done added, flat.insert k clockOf apply op s = .ok done ∧
      log.insert clockOf apply op s = .ok added ∧ AddsAs k done added := by
  obtain ⟨hpush, hgrown⟩ := h.push hk op
  rw [hnew] at hpush
  rw [Log.push?_of_not_contains hnew, Option.getD_some] at hgrown
  rw [FlatLog.insert]
  split
  · rename_i grown heq
    rw [heq] at hgrown
    have hdone := hgrown.toLists.settle clockOf apply s
    have hcount : (Log.settle clockOf apply (log.await [op]) s).1.promotedSince log =
        (grown.settle clockOf apply s).1 := hdone.promotedSince
    refine ⟨_, _, rfl, Log.insert_of_not_contains hnew, ?_, hgrown.settled hdone, hdone.state⟩
    rw [hcount]
    rfl
  · rename_i heq
    rw [heq] at hpush
    cases hpush

section Collect

variable {state : Report × FlatLog τ} {goal : Report × Log} (hreport : state.1 = goal.1)
  (h : state.2.Holds k goal.2)

include hreport h

theorem Holds.collect (op : Operation) :
    (FlatLog.collect k state op).1 = (Log.collect goal op).1 ∧
      (FlatLog.collect k state op).2.Holds k (Log.collect goal op).2 := by
  obtain ⟨hpush, hgrown⟩ := h.push hk op.unmarked
  rw [FlatLog.collect, Log.collect, hreport]
  rcases hstate : state.2.push k op.unmarked with ⟨new, grown⟩
  rw [hstate] at hpush hgrown
  cases hop : goal.2.contains op.unmarked.timestamp with
  | false =>
    rw [hop] at hpush
    cases hpush
    rw [Log.push?_of_not_contains hop] at hgrown ⊢
    exact ⟨rfl, hgrown⟩
  | true =>
    rw [hop] at hpush
    cases hpush
    rw [Log.push?_of_contains hop] at hgrown ⊢
    exact ⟨rfl, hgrown⟩

theorem Holds.foldl_collect :
    (ops.foldl (FlatLog.collect k) state).1 = (ops.foldl Log.collect goal).1 ∧
      (ops.foldl (FlatLog.collect k) state).2.Holds k (ops.foldl Log.collect goal).2 := by
  induction ops generalizing state goal with
  | nil => exact ⟨hreport, h⟩
  | cons op ops ih =>
    obtain ⟨hreport', h'⟩ := Holds.collect hk hreport h op
    exact ih hreport' h'

end Collect

/-- **A flat log takes in what the log does of a batch, and reports the same.** -/
theorem Holds.absorb (h : flat.Holds k log) :
    AddsAs k (flat.absorb k clockOf apply ops s) (log.absorb clockOf apply ops s) := by
  obtain ⟨hreport, hgrown⟩ : (ops.foldl (FlatLog.collect k) ({}, flat)).1 =
      (ops.foldl Log.collect ({}, log)).1 ∧ _ := Holds.foldl_collect hk rfl h
  rw [FlatLog.absorb, Log.absorb]
  generalize ops.foldl (FlatLog.collect k) ({}, flat) = taken at hreport hgrown ⊢
  generalize ops.foldl Log.collect ({}, log) = collected at hreport hgrown ⊢
  obtain ⟨report, grown⟩ := taken
  obtain ⟨report', grown'⟩ := collected
  cases hreport
  dsimp only
  split
  · exact ⟨rfl, hgrown, rfl⟩
  · have hdone := hgrown.toLists.settle clockOf apply s
    refine ⟨?_, hgrown.settled hdone, hdone.state⟩
    rw [← hdone.promotedSince]

end Holds

end FlatLog

end GossipLedger
