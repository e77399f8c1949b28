import GossipLedger.Proofs.Log.Promotion
import GossipLedger.Proofs.Replica.Atomicity
import GossipLedger.Proofs.Replica.Invariant

/-!
# The books on a batch

Of a batch, a replica takes in the first copy of each operation whose timestamp it does not hold
(`Log.firstCopies`), where timestamps are compared by their counts.  What it reports, what it has
counted and how its log has grown tell the same story (`Replica.TakesIn`).

A batch that brings no new timestamp (`Log.HasAll`) leaves clock, log, accounts and activity as they
were (`Replica.Unchanged`).  Since no timestamp is ever forgotten (`Session.Sound.hasAll_run`), that
is so of every batch that comes a second time, and of a snapshot that is older than one that was
taken in.
-/

namespace GossipLedger

namespace Log

variable {log now : Log} {op : Operation} {ops : List Operation}

/-! ### First copies -/

/-- The first copy, in the order of the batch, of each operation whose timestamp the log does not
hold. -/
def firstCopies (log : Log) (ops : List Operation) : List Operation :=
  ((ops.filter fun op => !log.contains op.timestamp).eraseDupsBy fun a b =>
    a.timestamp.agrees b.timestamp).map Operation.unmarked

theorem news_eq_firstCopies : log.news ops = log.firstCopies ops := by
  induction ops generalizing log with
  | nil => rfl
  | cons op rest ih =>
    cases h : log.contains op.timestamp with
    | true =>
      rw [news_cons_of_contains h, ih, firstCopies, firstCopies, List.filter_cons_of_neg (by simp [h])]
    | false =>
      -- what the log knows after the first copy agrees with it or was known before
      have hrest : (rest.filter fun q => !(log.await [op.unmarked]).contains q.timestamp) =
          (rest.filter fun q => !log.contains q.timestamp).filter fun q =>
            decide (q.timestamp.agrees op.timestamp = false) := by
        rw [List.filter_filter]
        refine List.filter_congr fun q _ => ?_
        have hsymm : op.timestamp.agrees q.timestamp = q.timestamp.agrees op.timestamp := by
          rw [Bool.eq_iff_iff, ← Clock.stamp_eq_iff_agrees, ← Clock.stamp_eq_iff_agrees, eq_comm]
        rw [contains_await, Operation.timestamp_unmarked, hsymm]
        cases log.contains q.timestamp <;> cases q.timestamp.agrees op.timestamp <;> rfl
      rw [news_cons_of_not_contains h, ih, firstCopies, hrest, firstCopies,
        List.filter_cons_of_pos (by simp [h]), List.eraseDupsBy_cons, List.map_cons]

/-! ### Nothing new -/

/-- The log holds every timestamp of the batch. -/
def HasAll (log : Log) (ops : List Operation) : Prop :=
  ∀ op ∈ ops, ∃ known ∈ log.operations, known.timestamp.agrees op.timestamp = true

theorem hasAll_iff : log.HasAll ops ↔ ∀ op ∈ ops, log.contains op.timestamp = true :=
  forall₂_congr fun _ _ => contains_iff_agrees.symm

theorem news_eq_nil (h : log.HasAll ops) : log.news ops = [] := by
  induction ops with
  | nil => rfl
  | cons op rest ih =>
    obtain ⟨hop, hrest⟩ := List.forall_mem_cons.1 (hasAll_iff.1 h)
    rw [news_cons_of_contains hop, ih (hasAll_iff.2 hrest)]

/-- Only the contents of a log matter. -/
theorem HasAll.mono (h : log.HasAll ops) (hsub : ∀ x ∈ log.contents, x ∈ now.contents) :
    now.HasAll ops := by
  refine hasAll_iff.2 fun op hop => ?_
  obtain ⟨x, hx, hstamp⟩ := contains_iff.1 (hasAll_iff.1 h op hop)
  exact contains_iff.2 ⟨x, hsub x hx, hstamp⟩

theorem hasAll_of_contents {older : Log} (hsub : ∀ x ∈ older.contents, x ∈ log.contents) :
    log.HasAll older.operations := by
  refine HasAll.mono (fun op hop => ⟨op, hop, ?_⟩) hsub
  exact Clock.stamp_eq_iff_agrees.1 rfl

/-- What one batch brings, another one with no further timestamps does not bring again. -/
theorem HasAll.trans {more : List Operation} (h : log.HasAll ops)
    (hmore : ∀ op ∈ more, ∃ q ∈ ops, q.timestamp.agrees op.timestamp = true) : log.HasAll more := by
  refine hasAll_iff.2 fun op hop => ?_
  obtain ⟨q, hq, hagrees⟩ := hmore op hop
  obtain ⟨x, hx, hstamp⟩ := contains_iff.1 (hasAll_iff.1 h q hq)
  exact contains_iff.2 ⟨x, hx, hstamp.trans (Clock.stamp_eq_iff_agrees.2 hagrees)⟩

/-! ### The report -/

section Report

variable {σ : Type} {clockOf : σ → Clock} {apply : Operation → σ → σ} {s : σ}

theorem report_absorb : (log.absorb clockOf apply ops s).1 =
    { inserted := (log.news ops).length
      duplicates := ops.length - (log.news ops).length
      promoted := (log.absorb clockOf apply ops s).2.1.promotedSince log } := by
  rw [absorb, foldl_collect]
  dsimp only
  rw [Nat.zero_add, Nat.zero_add]
  split
  · rename_i hnone
    rw [List.eq_nil_of_length_eq_zero hnone, await_nil, promotedSince, Nat.sub_self]
  · rfl

theorem absorb_of_hasAll (h : log.HasAll ops) : (log.absorb clockOf apply ops s).2 = (log, s) := by
  rw [absorb, foldl_collect, news_eq_nil h, await_nil]
  rfl

/-- What a log has absorbed it holds. -/
theorem hasAll_absorb : (log.absorb clockOf apply ops s).2.1.HasAll ops := by
  refine hasAll_iff.2 fun op hop => contains_iff.2 ?_
  obtain ⟨x, hx, hstamp⟩ : ∃ x ∈ (log.await (log.news ops)).contents,
      x.timestamp.stamp = op.timestamp.stamp := exists_mem_contents_await_news hop
  rw [contents_await_news] at hx
  exact ⟨x, contents_absorb.mem_iff.2 hx, hstamp⟩

/-- What a log holds it keeps. -/
theorem HasAll.absorb {held : List Operation} (h : log.HasAll held) :
    (log.absorb clockOf apply ops s).2.1.HasAll held :=
  h.mono fun _ hx => contents_absorb.mem_iff.2 (List.mem_append_left _ hx)

end Report

end Log

namespace Replica

variable {r now : Replica} {ops : List Operation}

/-! ### What a batch brings about -/

/-- The books of a replica on a batch. -/
structure TakesIn (r : Replica) (ops : List Operation) (report : Report) (now : Replica) : Prop where
  /-- Of the batch, just the first copies of what is new have been taken in. -/
  contents : now.log.contents.Perm (r.log.contents ++ r.log.firstCopies ops)
  /-- What was stable remains so, in its order. -/
  stable : r.log.stable <+: now.log.stable
  /-- What waits does so in the order in which it came, the newcomers in that of the batch. -/
  order : now.log.pending.Sublist (r.log.pending ++ r.log.firstCopies ops)
  /-- The report counts what was taken in. -/
  inserted : report.inserted = (r.log.firstCopies ops).length
  /-- It counts all else as known. -/
  duplicates : report.inserted + report.duplicates = ops.length
  /-- The log has grown by what was taken in. -/
  size : now.log.size = r.log.size + report.inserted
  /-- The stable part has grown by what is reported. -/
  promoted : now.log.stable.length = r.log.stable.length + report.promoted
  /-- The replica has counted the batch and what was reported of it. -/
  stats : now.stats = { r.stats with
    mergedBatches := r.stats.mergedBatches + 1
    duplicatesSkipped := r.stats.duplicatesSkipped + report.duplicates
    promoted := r.stats.promoted + report.promoted
    transfersSkipped := now.stats.transfersSkipped }
  /-- The replica keeps its name. -/
  id : now.id = r.id
  /-- It accepts writes if it did before. -/
  active : now.active = r.active

theorem report_receive : (r.receive ops).1 =
    { inserted := (r.log.news ops).length
      duplicates := ops.length - (r.log.news ops).length
      promoted := (r.receive ops).2.log.promotedSince r.log } :=
  Log.report_absorb

theorem stats_receive : (r.receive ops).2.stats =
    { (r.log.absorb Ledger.clock Ledger.apply ops r.toLedger).2.2.stats with
      mergedBatches :=
        (r.log.absorb Ledger.clock Ledger.apply ops r.toLedger).2.2.stats.mergedBatches + 1
      duplicatesSkipped :=
        (r.log.absorb Ledger.clock Ledger.apply ops r.toLedger).2.2.stats.duplicatesSkipped +
          (r.receive ops).1.duplicates } :=
  rfl

/-- Settling counts the operations that it promotes. -/
theorem stats_settled (log : Log) (l : Ledger) : ∃ n, (log.settled l).2.stats =
    { l.stats with
      promoted := l.stats.promoted + (log.settled l).1.promotedSince log
      transfersSkipped := n } := by
  obtain ⟨applied, hstable, hledger, -⟩ := log.settled_eq_applyAll l
  refine ⟨l.stats.transfersSkipped + l.accounts.skippedTransfers (applied.map (·.kind)), ?_⟩
  rw [hledger, Ledger.stats_applyAll, Log.promotedSince, hstable, List.length_append,
    Nat.add_sub_cancel_left]

theorem takesIn_receive (h : r.Settled) : r.TakesIn ops (r.receive ops).1 (r.receive ops).2 := by
  have hlog : (r.receive ops).2.log = ((r.log.await (r.log.news ops)).settled r.toLedger).1 :=
    log_receive h
  obtain ⟨promoted, hpromoted⟩ := Log.exists_promoted Ledger.clock Ledger.apply
    (r.log.await (r.log.news ops)) r.toLedger
  rw [← Log.settled, ← hlog] at hpromoted
  have hcontents : (r.receive ops).2.log.contents.Perm (r.log.contents ++ r.log.firstCopies ops) := by
    rw [← Log.news_eq_firstCopies]
    exact contents_receive h
  have hgrown : (r.receive ops).2.log.promotedSince r.log = promoted.length :=
    hpromoted.promotedSince
  constructor
  case contents => exact hcontents
  case stable => exact ⟨_, hpromoted.stable.symm⟩
  case order =>
    rw [← Log.news_eq_firstCopies]
    exact hpromoted.sublist
  case inserted => rw [report_receive, Log.news_eq_firstCopies]
  case duplicates =>
    rw [report_receive]
    exact Nat.add_sub_of_le Log.length_news_le
  case size =>
    have hlength := hcontents.length_eq
    rw [Log.contents, Log.contents, List.length_append, List.length_map, List.length_map,
      ← Log.news_eq_firstCopies] at hlength
    rw [report_receive]
    exact hlength
  case promoted =>
    rw [report_receive, hgrown]
    exact hpromoted.length_stable
  case stats =>
    obtain ⟨n, hstats⟩ := stats_settled (r.log.await (r.log.news ops)) r.toLedger
    have habsorb : (r.log.absorb Ledger.clock Ledger.apply ops r.toLedger).2 =
        (r.log.await (r.log.news ops)).settled r.toLedger := Log.absorb_eq_settle h.waiting
    have hpromotions : ((r.log.await (r.log.news ops)).settled r.toLedger).1.promotedSince
        (r.log.await (r.log.news ops)) = (r.receive ops).1.promoted := by
      rw [report_receive, hlog]
      rfl
    rw [stats_receive, habsorb, hstats, hpromotions]
  case id => rfl
  case active => rfl

/-- Two states of a replica that differ at most in what it has counted for statistics. -/
structure Unchanged (r now : Replica) : Prop where
  /-- The names. -/
  id : now.id = r.id
  /-- The clocks. -/
  clock : now.clock = r.clock
  /-- The logs. -/
  log : now.log = r.log
  /-- The accounts. -/
  accounts : now.accounts = r.accounts
  /-- Whether writes are accepted. -/
  active : now.active = r.active

theorem unchanged_refl (r : Replica) : r.Unchanged r :=
  ⟨rfl, rfl, rfl, rfl, rfl⟩

theorem Unchanged.trans {later : Replica} (h : r.Unchanged now) (h' : now.Unchanged later) :
    r.Unchanged later :=
  ⟨h'.id.trans h.id, h'.clock.trans h.clock, h'.log.trans h.log, h'.accounts.trans h.accounts,
    h'.active.trans h.active⟩

/-- A batch without a new timestamp changes nothing. -/
theorem unchanged_receive (h : r.log.HasAll ops) : r.Unchanged (r.receive ops).2 := by
  have habsorb : (r.log.absorb Ledger.clock Ledger.apply ops r.toLedger).2 = (r.log, r.toLedger) :=
    Log.absorb_of_hasAll h
  exact ⟨rfl, congrArg (·.2.clock) habsorb, congrArg Prod.fst habsorb,
    congrArg (·.2.accounts) habsorb, rfl⟩

/-- A replica knows the timestamps of a batch that it has received. -/
theorem hasAll_receive : (r.receive ops).2.log.HasAll ops :=
  Log.hasAll_absorb

end Replica

namespace Session

variable {id : ReplicaId} {money : UInt64} {active : Bool} {calls more : List Call}
  {s t : Session} {ops : List Operation}

/-- No call takes anything out of the log. -/
theorem Sound.mem_contents_run (h : s.Sound id money) (hrun : s.run calls = .ok t) :
    ∀ x ∈ s.replica.log.contents, x ∈ t.replica.log.contents := by
  refine h.invariant (I := fun t => ∀ x ∈ s.replica.log.contents, x ∈ t.replica.log.contents) hrun
    (fun _ hx => hx) ?_
  intro t u hsound hkept hcase x hx
  cases hcase with
  | accepted hroom _ _ => exact Replica.mem_contents_afterWrite.2 (.inl (hkept x hx))
  | received => exact (Replica.mem_contents_receive hsound.settled).2 (.inl (hkept x hx))
  | quiet hr =>
    rw [hr.log]
    exact hkept x hx

/-- No timestamp is forgotten. -/
theorem Sound.hasAll_run (h : s.Sound id money) (hrun : s.run calls = .ok t)
    (hall : s.replica.log.HasAll ops) : t.replica.log.HasAll ops :=
  hall.mono (h.mem_contents_run hrun)

/-- **The books on a batch are right, and a batch that is not new changes nothing.**  After any
calls, with arbitrary contexts and arbitrary received operations, a replica takes in the first
copies of what is new in a batch, and report, statistics and log agree on it.  If nothing in a batch
is new, the replica is as before.  Nothing is new when the batch comes again, whatever has been
called in between, and nothing is new in a snapshot that a peer took before the one that came as a
batch. -/
theorem batch_accounted (hs : (fresh id money active).run calls = .ok s) (ops : List Operation) :
    s.replica.TakesIn ops (s.replica.receive ops).1 (s.replica.receive ops).2 ∧
    (s.replica.log.HasAll ops → s.replica.Unchanged (s.replica.receive ops).2) ∧
    ∀ calls t, run ⟨(s.replica.receive ops).2, s.accepted⟩ calls = .ok t →
      t.replica.Unchanged (t.replica.receive ops).2 ∧
      ∀ id money active calls more p q, (fresh id money active).run calls = .ok p →
        p.run more = .ok q → q.replica.snapshot = ops →
        t.replica.Unchanged (t.replica.receive p.replica.snapshot).2 := by
  have hsound := sound_of_run hs
  have hafter : Sound ⟨(s.replica.receive ops).2, s.accepted⟩ id money := hsound.step .received
  refine ⟨Replica.takesIn_receive hsound.settled, Replica.unchanged_receive, fun calls t ht => ?_⟩
  have hall : t.replica.log.HasAll ops :=
    hafter.hasAll_run ht Replica.hasAll_receive
  refine ⟨Replica.unchanged_receive hall, ?_⟩
  rintro id' money' active' before between p q hp hq rfl
  -- the later snapshot holds all timestamps of the earlier one
  have holder : q.replica.log.HasAll p.replica.snapshot :=
    Log.hasAll_of_contents ((sound_of_run hp).mem_contents_run hq)
  exact Replica.unchanged_receive (hall.trans holder)

/-- An account is opened. -/
def opening : List Call :=
  [.submit (.create "x") .zero]

/-- What the replica holds already, under the same counts; the first copy of an operation that
waits, and of one that is ready; another operation under the timestamp of the latter; and the
operation that waits once more. -/
def overlapping : List Operation :=
  [{ kind := .create "x", origin := "A", context := .zero,
      timestamp := (Clock.zero.set "A" 1).set "B" 0 },
    { kind := .create "z", origin := "B", context := Clock.zero.set "C" 1,
      timestamp := Clock.zero.set "B" 2 },
    { kind := .create "y", origin := "B", context := .zero, timestamp := Clock.zero.set "B" 1 },
    { kind := .delete "x", origin := "C", context := .zero,
      timestamp := (Clock.zero.set "C" 0).set "B" 1, stable := true },
    { kind := .create "z", origin := "B", context := Clock.zero.set "C" 1,
      timestamp := Clock.zero.set "B" 2, stable := true }]

theorem overlapping_accounted : ∃ s, (fresh "A" 1000 true).run opening = .ok s ∧
    (s.replica.receive overlapping).1 = { inserted := 2, duplicates := 3, promoted := 1 } ∧
    s.replica.TakesIn overlapping (s.replica.receive overlapping).1
      (s.replica.receive overlapping).2 ∧
    ∀ now, (s.replica.receive overlapping).2 = now → now.Unchanged (now.receive overlapping).2 := by
  obtain ⟨s, hs, hreport⟩ : ∃ s, (fresh "A" 1000 true).run opening = .ok s ∧
      (s.replica.receive overlapping).1 = { inserted := 2, duplicates := 3, promoted := 1 } :=
    exists_of_map_run rfl
  obtain ⟨htaken, -, hlater⟩ := batch_accounted hs overlapping
  refine ⟨s, hs, hreport, htaken, fun now hnow => ?_⟩
  have hagain := hlater [] ⟨now, s.accepted⟩ (by rw [hnow]; exact run_nil)
  exact hagain.1

end Session

end GossipLedger
