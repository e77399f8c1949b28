import GossipLedger.Proofs.Replica.LeastClock

/-!
# The order of delivery does not matter

A replica may receive the same operations in another order, in other batches and more than once:
in the end it has the same clock, the same stable operations and the same waiting ones
(`Session.receiveAll_agree`).  Along the way operations may become stable in quite another order.

Operations are the same if they agree in everything but their marks (`Operation.Matches`).  All
that is assumed of them is that their timestamps tell them apart (`Unambiguous`); they may claim any
origin, depend on anything and never become ready.

The proof compares the two final clocks: each is closed under what both logs hold, and each lies
below all closed counts above the clock at the start (`Replica.count_receiveAll_le`).
-/

namespace GossipLedger

/-! ### The same operations -/

namespace Operation

variable {a b c : Operation}

/-- Two operations are the same, but for their marks. -/
def Matches (a b : Operation) : Prop :=
  a.unmarked.agrees b.unmarked = true

instance : Decidable (a.Matches b) :=
  inferInstanceAs (Decidable (_ = true))

theorem matches_iff : a.Matches b ↔ a.kind = b.kind ∧ a.origin = b.origin ∧
    (∀ r, a.context.count r = b.context.count r) ∧
      ∀ r, a.timestamp.count r = b.timestamp.count r := by
  have hmark : (a.unmarked.stable == b.unmarked.stable) = true := rfl
  simp only [Matches, agrees, Bool.and_eq_true, decide_eq_true_eq, Clock.agrees_iff_count, hmark,
    and_true, and_assoc]
  exact Iff.rfl

theorem Matches.refl (a : Operation) : a.Matches a :=
  matches_iff.2 ⟨rfl, rfl, fun _ => rfl, fun _ => rfl⟩

theorem Matches.symm (h : a.Matches b) : b.Matches a := by
  obtain ⟨hkind, horigin, hcontext, hstamp⟩ := matches_iff.1 h
  exact matches_iff.2
    ⟨hkind.symm, horigin.symm, fun r => (hcontext r).symm, fun r => (hstamp r).symm⟩

theorem Matches.trans (h : a.Matches b) (h' : b.Matches c) : a.Matches c := by
  obtain ⟨hkind, horigin, hcontext, hstamp⟩ := matches_iff.1 h
  obtain ⟨hkind', horigin', hcontext', hstamp'⟩ := matches_iff.1 h'
  exact matches_iff.2 ⟨hkind.trans hkind', horigin.trans horigin',
    fun r => (hcontext r).trans (hcontext' r), fun r => (hstamp r).trans (hstamp' r)⟩

theorem Matches.origin_eq (h : a.Matches b) : a.origin = b.origin :=
  (matches_iff.1 h).2.1

theorem Matches.count_context_eq (h : a.Matches b) (r : ReplicaId) :
    a.context.count r = b.context.count r :=
  (matches_iff.1 h).2.2.1 r

theorem Matches.count_timestamp_eq (h : a.Matches b) (r : ReplicaId) :
    a.timestamp.count r = b.timestamp.count r :=
  (matches_iff.1 h).2.2.2 r

theorem Matches.rank_eq (h : a.Matches b) : a.rank = b.rank := by
  rw [rank, h.count_timestamp_eq, h.origin_eq]
  rfl

/-- Operations that are the same are ready under the same clocks. -/
theorem Matches.isReady_eq (h : a.Matches b) {clock clock' : Clock}
    (hclock : ∀ r, clock.count r = clock'.count r) : a.isReady clock = b.isReady clock' := by
  rw [Bool.eq_iff_iff, isReady_iff, isReady_iff]
  simp only [h.count_context_eq, hclock]

end Operation

section Lists

variable {l m known : List Operation}

/-- Each operation of a list is also in another one, but for its mark. -/
def Matched (l m : List Operation) : Prop :=
  ∀ a ∈ l, ∃ b ∈ m, a.Matches b

/-- Two lists hold the same operations, but for their marks. -/
def SameOperations (l m : List Operation) : Prop :=
  Matched l m ∧ Matched m l

instance : Decidable (SameOperations l m) :=
  inferInstanceAs (Decidable ((∀ a ∈ l, ∃ b ∈ m, a.Matches b) ∧ ∀ b ∈ m, ∃ a ∈ l, b.Matches a))

/-- The operations of a list are told apart, from each other and from known ones, by their
timestamps. -/
def Unambiguous (known l : List Operation) : Prop :=
  ∀ a ∈ l, ∀ b ∈ known ++ l, a.timestamp.agrees b.timestamp = true → a.Matches b

instance : Decidable (Unambiguous known l) :=
  inferInstanceAs (Decidable (∀ a ∈ l, ∀ b ∈ known ++ l, _ → _))

theorem Unambiguous.congr (h : Unambiguous known l) (hm : Matched m l) : Unambiguous known m := by
  intro a ha b hb hstamp
  obtain ⟨a', ha', haa'⟩ := hm a ha
  obtain ⟨b', hb', hbb'⟩ : ∃ b' ∈ known ++ l, b.Matches b' := by
    rcases List.mem_append.1 hb with hb | hb
    · exact ⟨b, List.mem_append_left _ hb, .refl b⟩
    · obtain ⟨b', hb', hbb'⟩ := hm b hb
      exact ⟨b', List.mem_append_right _ hb', hbb'⟩
  have hstamp' : a'.timestamp.agrees b'.timestamp = true := by
    rw [Clock.agrees_iff_count] at hstamp ⊢
    intro r
    rw [← haa'.count_timestamp_eq, hstamp, hbb'.count_timestamp_eq]
  exact haa'.trans ((h a' ha' b' hb' hstamp').trans hbb'.symm)

theorem Closes.of_matched {bound : ReplicaId → Nat} (h : Closes bound m) (hl : Matched l m) :
    Closes bound l := by
  intro a ha hcontext
  obtain ⟨b, hb, hab⟩ := hl a ha
  rw [hab.rank_eq, hab.origin_eq]
  refine h b hb fun r => ?_
  rw [← hab.count_context_eq]
  exact hcontext r

end Lists

namespace Replica

variable {r r' : Replica} {ops : List Operation} {batches batches' : List (List Operation)}
  {op x : Operation}

/-! ### Several batches -/

/-- The replica after it has received some batches, one after the other. -/
def receiveAll (r : Replica) (batches : List (List Operation)) : Replica :=
  batches.foldl (fun r ops => (r.receive ops).2) r

theorem Exact.receiveAll (h : r.Exact) : (r.receiveAll batches).Exact := by
  induction batches generalizing r with
  | nil => exact h
  | cons ops batches ih => exact ih h.receive

theorem le_count_receiveAll (h : r.Settled) (s : ReplicaId) :
    r.clock.count s ≤ (r.receiveAll batches).clock.count s := by
  induction batches generalizing r with
  | nil => exact Nat.le_refl _
  | cons ops batches ih => exact Nat.le_trans (le_count_receive h s) (ih h.receive)

theorem mem_contents_receiveAll (h : r.Settled) (hx : x ∈ r.log.contents) :
    x ∈ (r.receiveAll batches).log.contents := by
  induction batches generalizing r with
  | nil => exact hx
  | cons ops batches ih => exact ih h.receive ((mem_contents_receive h).2 (.inl hx))

/-- A replica holds only what it held before and what it has received. -/
theorem mem_of_mem_contents_receiveAll (h : r.Settled)
    (hx : x ∈ (r.receiveAll batches).log.contents) :
    ∃ op ∈ r.log.operations ++ batches.flatten, op.unmarked = x := by
  induction batches generalizing r with
  | nil =>
    obtain ⟨op, hop, rfl⟩ := Log.mem_contents.1 hx
    exact ⟨op, List.mem_append_left _ hop, rfl⟩
  | cons ops batches ih =>
    obtain ⟨op, hop, rfl⟩ := ih h.receive hx
    rw [List.flatten_cons]
    rcases List.mem_append.1 hop with hop | hop
    · have hmem : op.unmarked ∈ (r.receive ops).2.log.contents := Log.unmarked_mem_contents hop
      rcases (mem_contents_receive h).1 hmem with hmem | hmem
      · obtain ⟨known, hknown, he⟩ := Log.mem_contents.1 hmem
        exact ⟨known, List.mem_append_left _ hknown, he⟩
      · obtain ⟨new, hnew, he⟩ := Log.mem_of_mem_news hmem
        exact ⟨new, List.mem_append_right _ (List.mem_append_left _ hnew), he⟩
    · exact ⟨op, List.mem_append_right _ (List.mem_append_right _ hop), rfl⟩

/-- A replica knows the timestamp of everything that it has received. -/
theorem exists_mem_contents_receiveAll (h : r.Settled) (hop : op ∈ batches.flatten) :
    ∃ x ∈ (r.receiveAll batches).log.contents, x.timestamp.stamp = op.timestamp.stamp := by
  induction batches generalizing r with
  | nil => cases hop
  | cons ops batches ih =>
    rw [List.flatten_cons] at hop
    rcases List.mem_append.1 hop with hop | hop
    · obtain ⟨x, hx, hstamp⟩ : ∃ x ∈ (r.log.await (r.log.news ops)).contents,
          x.timestamp.stamp = op.timestamp.stamp := Log.exists_mem_contents_await_news hop
      rw [Log.contents_await_news, List.mem_append] at hx
      have hreceive : x ∈ (r.receive ops).2.log.contents := (mem_contents_receive h).2 hx
      exact ⟨x, mem_contents_receiveAll (r := (r.receive ops).2) h.receive hreceive, hstamp⟩
    · exact ih h.receive hop

/-- What is received raises no count above a bound that is closed under the final log. -/
theorem count_receiveAll_le {bound : ReplicaId → Nat} (h : r.Settled)
    (hclock : ∀ s, r.clock.count s ≤ bound s)
    (hcloses : Closes bound (r.receiveAll batches).log.contents) (s : ReplicaId) :
    (r.receiveAll batches).clock.count s ≤ bound s := by
  induction batches generalizing r with
  | nil => exact hclock s
  | cons ops batches ih =>
    refine ih h.receive (fun s => ?_) hcloses
    refine count_receive_le h hclock (fun x hx => ?_) s
    exact hcloses x (mem_contents_receiveAll (r := (r.receive ops).2) h.receive hx)

/-! ### Two orders -/

/-- If all that is received in one order is also received in another one, then all that is known
in the end is known in either case. -/
theorem matched_contents (h : r.Settled) (hops : Matched batches.flatten batches'.flatten)
    (hunambiguous : Unambiguous r.log.operations batches'.flatten) :
    Matched (r.receiveAll batches).log.contents (r.receiveAll batches').log.contents := by
  intro x hx
  obtain ⟨op, hop, rfl⟩ := mem_of_mem_contents_receiveAll h hx
  rcases List.mem_append.1 hop with hop | hop
  · exact ⟨op.unmarked, mem_contents_receiveAll h (Log.unmarked_mem_contents hop), .refl _⟩
  · obtain ⟨op', hop', hmatch⟩ := hops op hop
    -- the log holds an operation with this timestamp, which can only be the same one
    obtain ⟨y, hy, hstamp⟩ := exists_mem_contents_receiveAll h hop'
    obtain ⟨known, hknown, rfl⟩ := mem_of_mem_contents_receiveAll h hy
    have hagrees : op'.timestamp.agrees known.timestamp = true :=
      Clock.stamp_eq_iff_agrees.1 hstamp.symm
    exact ⟨known.unmarked, hy, hmatch.trans (hunambiguous op' hop' known hknown hagrees)⟩

/-- If all that is known in the end of one order is known in the end of another one, then the
other clock counts as much. -/
theorem count_receiveAll_le_receiveAll (h : r.Exact)
    (hcontents : Matched (r.receiveAll batches).log.contents (r.receiveAll batches').log.contents)
    (s : ReplicaId) :
    (r.receiveAll batches).clock.count s ≤ (r.receiveAll batches').clock.count s := by
  have h' : (r.receiveAll batches').Exact := h.receiveAll
  exact count_receiveAll_le h.toSettled (le_count_receiveAll h.toSettled)
    (h'.closes.of_matched hcontents) s

/-- Of two replicas with the same clock, the one that knows no less has no less that is stable, and
no less that waits. -/
theorem Exact.matched (h : r.Exact) (h' : r'.Exact)
    (hclock : ∀ s, r.clock.count s = r'.clock.count s)
    (hcontents : Matched r.log.contents r'.log.contents) :
    Matched r.log.stable r'.log.stable ∧ Matched r.log.pending r'.log.pending := by
  have hops : ∀ op ∈ r.log.operations, ∃ op' ∈ r'.log.operations, op.Matches op' := by
    intro op hop
    obtain ⟨x, hx, hmatch⟩ := hcontents op.unmarked (Log.unmarked_mem_contents hop)
    obtain ⟨op', hop', rfl⟩ := Log.mem_contents.1 hx
    exact ⟨op', hop', hmatch⟩
  constructor
  · intro op hop
    obtain ⟨op', hop', hmatch⟩ := hops op (List.mem_append_left _ hop)
    refine ⟨op', (h'.mem_stable_iff hop').2 ?_, hmatch⟩
    rw [← hmatch.isReady_eq hclock]
    exact h.ready op hop
  · intro op hop
    obtain ⟨op', hop', hmatch⟩ := hops op (List.mem_append_right _ hop)
    refine ⟨op', (h'.mem_pending_iff hop').2 ?_, hmatch⟩
    rw [← hmatch.isReady_eq hclock]
    exact h.waiting op hop

end Replica

namespace Session

variable {id : ReplicaId} {money : UInt64} {active : Bool} {calls : List Call} {s : Session}
  {batches batches' : List (List Operation)}

/-- **The order of delivery does not matter.**  After any calls, whichever way the same operations
are put into batches, ordered and repeated, a replica that receives them ends with the same clock,
the same stable operations and the same waiting operations. -/
theorem receiveAll_agree (hs : (fresh id money active).run calls = .ok s)
    (hunambiguous : Unambiguous s.replica.log.operations batches.flatten)
    (hsame : SameOperations batches.flatten batches'.flatten) :
    (s.replica.receiveAll batches).clock.agrees (s.replica.receiveAll batches').clock = true ∧
      SameOperations (s.replica.receiveAll batches).log.stable
        (s.replica.receiveAll batches').log.stable ∧
      SameOperations (s.replica.receiveAll batches).log.pending
        (s.replica.receiveAll batches').log.pending := by
  obtain ⟨hexact, -⟩ := exact_of_run hs
  have hexact₁ : (s.replica.receiveAll batches).Exact := hexact.receiveAll
  have hexact₂ : (s.replica.receiveAll batches').Exact := hexact.receiveAll
  have hcontents₁ := Replica.matched_contents hexact.toSettled hsame.1
    (hunambiguous.congr hsame.2)
  have hcontents₂ := Replica.matched_contents hexact.toSettled hsame.2 hunambiguous
  have hclock : ∀ r, (s.replica.receiveAll batches).clock.count r =
      (s.replica.receiveAll batches').clock.count r := fun r =>
    Nat.le_antisymm (Replica.count_receiveAll_le_receiveAll hexact hcontents₁ r)
      (Replica.count_receiveAll_le_receiveAll hexact hcontents₂ r)
  obtain ⟨hstable₁, hpending₁⟩ := hexact₁.matched hexact₂ hclock hcontents₁
  obtain ⟨hstable₂, hpending₂⟩ := hexact₂.matched hexact₁ (fun r => (hclock r).symm) hcontents₂
  exact ⟨Clock.agrees_iff_count.2 hclock, ⟨hstable₁, hstable₂⟩, hpending₁, hpending₂⟩

/-- An operation, one that depends on it and one that depends on what nobody has. -/
def chain : List Operation :=
  [{ kind := .create "y", origin := "B", context := .zero, timestamp := Clock.zero.set "B" 1 },
    { kind := .create "z", origin := "C", context := Clock.zero.set "B" 1,
      timestamp := Clock.zero.set "C" 1 },
    { kind := .delete "y", origin := "C", context := Clock.zero.set "D" 1,
      timestamp := Clock.zero.set "C" 2 }]

/-- The same operations in reverse, one by one, and then once more under other marks. -/
def scattered : List (List Operation) :=
  chain.reverse.map (fun op => [op]) ++ [chain.map Operation.marked]

theorem chain_scattered_agree : ∃ s,
    (fresh "A" 1000 true).run [.submit (.create "x") .zero] = .ok s ∧
      Unambiguous s.replica.log.operations [chain].flatten ∧
      SameOperations [chain].flatten scattered.flatten ∧
      (s.replica.receiveAll [chain]).log.stable.length = 3 ∧
      (s.replica.receiveAll [chain]).clock.agrees (s.replica.receiveAll scattered).clock = true ∧
      SameOperations (s.replica.receiveAll [chain]).log.stable
        (s.replica.receiveAll scattered).log.stable ∧
      SameOperations (s.replica.receiveAll [chain]).log.pending
        (s.replica.receiveAll scattered).log.pending := by
  let s : Session :=
    ⟨(Replica.fresh "A" 1000 true).afterWrite (.create "x") .zero,
      [(Replica.fresh "A" 1000 true).draft (.create "x") .zero]⟩
  have hs : (fresh "A" 1000 true).run [.submit (.create "x") .zero] = .ok s := rfl
  have hunambiguous : Unambiguous s.replica.log.operations [chain].flatten := by decide
  have hsame : SameOperations [chain].flatten scattered.flatten := by decide
  exact ⟨s, hs, hunambiguous, hsame, by decide, receiveAll_agree hs hunambiguous hsame⟩

end Session

end GossipLedger
