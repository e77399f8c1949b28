import GossipLedger.Proofs.Log.Settling

/-!
# Batches of operations

What a log takes in of a batch is `Log.news`: the first copy of each operation whose timestamp the
log does not hold.  `Log.foldl_collect` says that a log collects exactly its news, in their order,
and `Log.absorb_eq_settle` that absorbing a batch is settling the log that awaits its news.  A log
that has taken in its news knows every timestamp of the batch
(`Log.exists_mem_contents_await_news`).
-/

namespace GossipLedger

namespace Log

variable {log : Log} {op x : Operation} {ops : List Operation}

/-- The log with further operations that wait. -/
def await (log : Log) (ops : List Operation) : Log :=
  { log with pending := log.pending ++ ops }

@[simp] theorem stable_await : (log.await ops).stable = log.stable := rfl

@[simp] theorem pending_await : (log.await ops).pending = log.pending ++ ops := rfl

@[simp] theorem await_nil : log.await [] = log := by
  rw [await, List.append_nil]

theorem await_await {more : List Operation} :
    (log.await ops).await more = log.await (ops ++ more) := by
  rw [await, await, await, List.append_assoc]

theorem operations_await : (log.await ops).operations = log.operations ++ ops := by
  rw [operations, operations, stable_await, pending_await, List.append_assoc]

theorem contents_await :
    (log.await ops).contents = log.contents ++ ops.map Operation.unmarked := by
  rw [contents, operations_await, List.map_append, contents]

theorem Tidy.await (h : log.Tidy) (hops : ∀ op ∈ ops, op.stable = false) :
    (log.await ops).Tidy :=
  ⟨h.stable, fun op hop => (List.mem_append.1 hop).elim (h.pending op) (hops op)⟩

/-! ### Known timestamps -/

/-- A log knows a timestamp if it holds an operation whose timestamp agrees with it. -/
theorem contains_iff {t : Clock} :
    log.contains t = true ↔ ∃ x ∈ log.contents, x.timestamp.stamp = t.stamp := by
  simp only [contains, List.any_eq_true, decide_eq_true_eq]
  constructor
  · rintro ⟨op, hop, ht⟩
    exact ⟨op.unmarked, unmarked_mem_contents hop, ht⟩
  · rintro ⟨x, hx, ht⟩
    obtain ⟨op, hop, rfl⟩ := mem_contents.1 hx
    exact ⟨op, hop, ht⟩

theorem contains_iff_agrees {t : Clock} :
    log.contains t = true ↔ ∃ op ∈ log.operations, op.timestamp.agrees t = true := by
  simp only [contains, List.any_eq_true, decide_eq_true_eq, Clock.stamp_eq_iff_agrees]

theorem contains_await {t : Clock} :
    (log.await [op]).contains t = (log.contains t || op.timestamp.agrees t) := by
  rw [Bool.eq_iff_iff, Bool.or_eq_true, contains_iff_agrees, contains_iff_agrees, operations_await]
  simp only [List.mem_append, List.mem_singleton, or_and_right, exists_or, exists_eq_left]

theorem push?_of_contains (h : log.contains op.timestamp = true) : log.push? op = none := by
  rw [push?, if_pos h]

theorem push?_of_not_contains (h : log.contains op.timestamp = false) :
    log.push? op = some (log.await [op]) := by
  rw [push?, h]
  rfl

/-! ### The news in a batch -/

/-- The operations of a batch that a log takes in. -/
def news (log : Log) : List Operation → List Operation
  | [] => []
  | op :: rest =>
    if log.contains op.timestamp then news log rest
    else op.unmarked :: news (log.await [op.unmarked]) rest

theorem news_cons_of_contains {rest : List Operation} (h : log.contains op.timestamp = true) :
    log.news (op :: rest) = log.news rest := by
  rw [news, if_pos h]

theorem news_cons_of_not_contains {rest : List Operation}
    (h : log.contains op.timestamp = false) :
    log.news (op :: rest) = op.unmarked :: (log.await [op.unmarked]).news rest := by
  rw [news, h]
  rfl

theorem news_append {more : List Operation} :
    log.news (ops ++ more) = log.news ops ++ (log.await (log.news ops)).news more := by
  induction ops generalizing log with
  | nil => simp [news]
  | cons op rest ih =>
    cases h : log.contains op.timestamp
    · rw [List.cons_append, news_cons_of_not_contains h, news_cons_of_not_contains h, ih,
        await_await]
      rfl
    · rw [List.cons_append, news_cons_of_contains h, news_cons_of_contains h, ih]

theorem mem_of_mem_news (h : x ∈ log.news ops) : ∃ op ∈ ops, op.unmarked = x := by
  induction ops generalizing log with
  | nil => cases h
  | cons op rest ih =>
    have hrest : ∀ {log : Log}, x ∈ log.news rest → ∃ q ∈ op :: rest, q.unmarked = x := by
      intro log hx
      obtain ⟨q, hq, rfl⟩ := ih hx
      exact ⟨q, List.mem_cons_of_mem _ hq, rfl⟩
    cases ht : log.contains op.timestamp
    · rw [news_cons_of_not_contains ht] at h
      rcases List.mem_cons.1 h with rfl | h
      · exact ⟨op, List.mem_cons_self, rfl⟩
      · exact hrest h
    · rw [news_cons_of_contains ht] at h
      exact hrest h

/-- A log takes in nothing that was not delivered. -/
theorem mem_of_mem_append_news {known : List Operation} (hlog : ∀ x ∈ log.contents, x ∈ known)
    (hops : ∀ op ∈ ops, op.unmarked ∈ known) : ∀ x ∈ log.contents ++ log.news ops, x ∈ known := by
  intro x hx
  rcases List.mem_append.1 hx with hx | hx
  · exact hlog x hx
  · obtain ⟨op, hop, rfl⟩ := mem_of_mem_news hx
    exact hops op hop

theorem stable_of_mem_news (h : x ∈ log.news ops) : x.stable = false := by
  obtain ⟨op, -, rfl⟩ := mem_of_mem_news h
  rfl

theorem map_unmarked_news : (log.news ops).map Operation.unmarked = log.news ops :=
  (List.map_congr_left fun _ hx => Operation.unmarked_eq_self (stable_of_mem_news hx)).trans
    (List.map_id _)

theorem contents_await_news :
    (log.await (log.news ops)).contents = log.contents ++ log.news ops := by
  rw [contents_await, map_unmarked_news]

theorem length_news_le : (log.news ops).length ≤ ops.length := by
  induction ops generalizing log with
  | nil => exact Nat.le_refl _
  | cons op rest ih =>
    cases h : log.contains op.timestamp
    · rw [news_cons_of_not_contains h]
      exact Nat.succ_le_succ ih
    · rw [news_cons_of_contains h]
      exact Nat.le_succ_of_le ih

/-- A log that awaits its news knows every timestamp of the batch. -/
theorem exists_mem_contents_await_news (hop : op ∈ ops) :
    ∃ x ∈ (log.await (log.news ops)).contents, x.timestamp.stamp = op.timestamp.stamp := by
  obtain ⟨before, after, rfl⟩ := List.append_of_mem hop
  rw [contents_await_news, news_append, ← List.append_assoc, ← contents_await_news]
  cases h : (log.await (log.news before)).contains op.timestamp
  · rw [news_cons_of_not_contains h]
    exact ⟨op.unmarked, by simp, rfl⟩
  · obtain ⟨x, hx, ht⟩ := contains_iff.1 h
    exact ⟨x, List.mem_append_left _ hx, ht⟩

/-! ### Collecting and absorbing -/

/-- A log collects its news and counts all else as known. -/
theorem foldl_collect {report : Report} :
    ops.foldl collect (report, log) =
      ({ report with
          inserted := report.inserted + (log.news ops).length
          duplicates := report.duplicates + (ops.length - (log.news ops).length) },
        log.await (log.news ops)) := by
  induction ops generalizing log report with
  | nil => simp [news]
  | cons op rest ih =>
    rw [List.foldl_cons, collect]
    cases h : log.contains op.timestamp
    · have hp : log.push? op.unmarked = some (log.await [op.unmarked]) := push?_of_not_contains h
      rw [hp, news_cons_of_not_contains h]
      dsimp only
      rw [ih, await_await, List.singleton_append, List.length_cons, List.length_cons,
        Nat.add_sub_add_right, Nat.add_assoc, Nat.add_comm 1]
    · have hp : log.push? op.unmarked = none := push?_of_contains h
      have hle : (log.news rest).length ≤ rest.length := length_news_le
      rw [hp, news_cons_of_contains h]
      dsimp only
      rw [ih, List.length_cons, Nat.succ_sub hle, Nat.add_assoc, Nat.add_comm 1]

variable {σ : Type} {clockOf : σ → Clock} {apply : Operation → σ → σ} {s : σ}

/-- Settling makes no timestamp known or unknown. -/
theorem contains_settle {t : Clock} :
    (settle clockOf apply log s).1.contains t = log.contains t := by
  rw [Bool.eq_iff_iff, contains_iff, contains_iff]
  simp only [mem_contents_settle]

/-- What comes in last is looked at last: a log that awaits operations settles first without
them. -/
theorem settle_await : settle clockOf apply (log.await ops) s =
    settle clockOf apply ((settle clockOf apply log s).1.await ops)
      (settle clockOf apply log s).2 := by
  refine settle_induction (P := fun now t => settle clockOf apply (log.await ops) s =
    settle clockOf apply (now.await ops) t) ?_ rfl
  intro now t before q after hnow hbefore hready ih
  have hawaits : (now.await ops).pending = before ++ q :: (after ++ ops) := by simp [hnow]
  rw [ih, settle_of_some hawaits hbefore hready]
  simp [await]

/-- Absorbing a batch is settling the log that awaits its news, if nothing was ready before. -/
theorem absorb_eq_settle (h : ∀ op ∈ log.pending, op.isReady (clockOf s) = false) :
    (log.absorb clockOf apply ops s).2 = settle clockOf apply (log.await (log.news ops)) s := by
  rw [absorb, foldl_collect]
  dsimp only
  split
  · rename_i hz
    have hnil : log.news ops = [] := List.eq_nil_of_length_eq_zero (by simpa using hz)
    rw [hnil, await_nil, settle_of_none h]
  · rfl

/-- Whatever is ready, a log takes in just the news of a batch. -/
theorem contents_absorb :
    (log.absorb clockOf apply ops s).2.1.contents.Perm (log.contents ++ log.news ops) := by
  rw [absorb, foldl_collect, ← contents_await_news]
  dsimp only
  split
  · exact .refl _
  · exact contents_settle

theorem insert_of_contains (h : log.contains op.timestamp = true) :
    log.insert clockOf apply op s = .error (.duplicateOperation op.timestamp) := by
  rw [insert, push?_of_contains h]

theorem insert_of_not_contains (h : log.contains op.timestamp = false) :
    log.insert clockOf apply op s =
      .ok ({ inserted := 1
             promoted := (settle clockOf apply (log.await [op]) s).1.promotedSince log },
        settle clockOf apply (log.await [op]) s) := by
  rw [insert, push?_of_not_contains h]

end Log

end GossipLedger
