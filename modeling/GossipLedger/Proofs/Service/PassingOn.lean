import GossipLedger.Proofs.Replica.Intake
import GossipLedger.Proofs.Service.Exchange
import GossipLedger.Proofs.Wire.Normalisation

/-!
# Passing on a log

A replica passes on all operations that it holds in one request (`Replica.push`).  The names in them
are short and their contexts have few entries, for both have come in requests (`Replica.Concise`).
What is left are the timestamps that the replica has made itself, which count every replica that it
has heard of, and the size of the whole: exactly these two decide whether the log can be sent
(`Replica.Concise.exists_push_iff`).  None of these timestamps has more entries than the clock of the
replica has by now, so only the size matters as long as these are few.

The log only grows, so a replica whose log cannot be sent will never be able to send it again
(`Replica.Served.passesOn`).  Two requests that each fill a little more than half of a body are
enough (`fed_twice_not_sent`).
-/

namespace GossipLedger

open Wire

/-! ### Sizes -/

theorem NameMap.length_le_place {β : Type} {e : String × β} {l : List (String × β)} :
    l.length ≤ (place e l).length := by
  induction l with
  | nil => exact Nat.zero_le _
  | cons f rest ih =>
    unfold place
    split
    · exact Nat.succ_le_succ ih
    · split
      · exact Nat.le_refl _
      · exact Nat.le_succ _

theorem Clock.size_le_size_set {c : Clock} {r : ReplicaId} {n : UInt64} :
    c.size ≤ (c.set r n).size :=
  NameMap.length_le_place

/-- What becomes stable may give the clock an entry, and takes none. -/
theorem Log.size_clock_le_settled {log : Log} {l : Ledger} :
    l.clock.size ≤ (log.settled l).2.clock.size := by
  refine settle_induction (P := fun _ (now : Ledger) => l.clock.size ≤ now.clock.size) ?_
    (Nat.le_refl _)
  intro _ now _ op _ _ _ _ ih
  exact Nat.le_trans ih Clock.size_le_size_set

/-- Marks take no more or less room. -/
theorem Log.sizes_contents {log : Log} :
    sizes Operation.wireSize log.contents = sizes Operation.wireSize log.operations :=
  sizes_map

theorem Replica.wireSize_push {r : Replica} : r.push.wireSize =
    2 + r.id.utf8ByteSize + (4 + sizes Operation.wireSize r.log.contents) := by
  rw [Log.sizes_contents]
  rfl

/-! ### Requests that are sent -/

theorem Request.arrived_of_bytes {request : Request} {sent : Bytes}
    (h : request.bytes = .ok sent) : request.arrived = .ok request := by
  obtain ⟨frame, hframe, hserialize⟩ := Result.bind_eq_ok_iff.1 h
  rw [arrived, h]
  dsimp only [bind, Except.bind]
  rw [Frame.parse_of_serialize hserialize]
  exact ofFrame_of_toFrame hframe

namespace Replica

variable {r r' start : Replica} {id : ReplicaId} {money : UInt64} {active : Bool}

/-- A request that can be sent can be served. -/
theorem Served.serve {request : Request} {sent : Bytes} {answer : Answer} (h : start.Served r)
    (hsent : request.bytes = .ok sent) (hserve : r.serve request = .ok (answer, r')) :
    start.Served r' := by
  obtain ⟨frame, hframe, hserialize⟩ := Result.bind_eq_ok_iff.1 hsent
  have hserved : r.serveFrame frame = .ok (answer, r') := by
    rw [serveFrame, Request.ofFrame_of_toFrame hframe]
    exact hserve
  exact h.frame (Frame.parse_of_serialize hserialize) hserved

/-- So can a log that another replica can send. -/
theorem Served.receive {sender : ReplicaId} {ops : List Operation} {sent : Bytes}
    (h : start.Served r) (hsent : (Request.pushLedgerSnapshot sender ops).bytes = .ok sent) :
    start.Served (r.receive ops).2 :=
  h.serve hsent rfl

/-! ### What can be in the way -/

/-- Nothing that has come in requests is in the way of passing on the log. -/
structure Concise (r : Replica) : Prop where
  /-- The log is in order. -/
  settled : r.Settled
  /-- All names are short. -/
  legible : r.Legible
  /-- All contexts have few entries. -/
  contexts : ∀ x ∈ r.log.contents, x.context.Brief
  /-- So have the timestamps, but for those that the replica has taken from its clock. -/
  timestamps : ∀ x ∈ r.log.contents, x.timestamp.Brief ∨ x.timestamp.size ≤ r.clock.size

theorem concise_fresh (hid : Short id) : (fresh id money active).Concise :=
  ⟨settled_fresh, legible_fresh hid, nofun, nofun⟩

theorem size_nextStamp_le {kind : Kind} {context : Clock} :
    r.nextStamp.size ≤ (r.afterWrite kind context).clock.size :=
  @Log.size_clock_le_settled _ { r.toLedger with clock := r.nextStamp }

/-- No frame makes the clock smaller. -/
theorem size_clock_le_of_frameCase (hs : r.Settled) (hcase : FrameCase r r') :
    r.clock.size ≤ r'.clock.size := by
  cases hcase with
  | written _ _ _ => exact Nat.le_trans Clock.size_le_size_set size_nextStamp_le
  | received _ =>
    rw [clock_receive hs]
    exact Log.size_clock_le_settled
  | quiet hr => exact Nat.le_of_eq (congrArg Clock.size hr.clock.symm)

/-- What a frame brings in could be written there, or the replica has taken its timestamp from its
clock. -/
theorem mem_contents_of_frameCase (hs : r.Settled) (hcase : FrameCase r r') {x : Operation}
    (hx : x ∈ r'.log.contents) :
    x ∈ r.log.contents ∨
      x.context.Brief ∧ (x.timestamp.Brief ∨ x.timestamp.size ≤ r'.clock.size) := by
  cases hcase with
  | written hwritable _ _ =>
    rcases mem_contents_afterWrite.1 hx with hx | rfl
    · exact .inl hx
    · exact .inr ⟨hwritable.2.1, .inr size_nextStamp_le⟩
  | received hwritable =>
    rcases (mem_contents_receive hs).1 hx with hx | hx
    · exact .inl hx
    · obtain ⟨op, hop, rfl⟩ := Log.mem_of_mem_news hx
      obtain ⟨hcontext, htimestamp⟩ := (hwritable.2.2 op hop).1
      exact .inr ⟨hcontext, .inl htimestamp⟩
  | quiet hr =>
    rw [hr.log] at hx
    exact .inl hx

theorem Concise.of_frameCase (h : r.Concise) (hcase : FrameCase r r') : r'.Concise where
  settled := settled_of_frameCase h.settled hcase
  legible := legible_of_frameCase h.settled h.legible hcase
  contexts x hx := by
    rcases mem_contents_of_frameCase h.settled hcase hx with hx | ⟨hcontext, -⟩
    · exact h.contexts x hx
    · exact hcontext
  timestamps x hx := by
    rcases mem_contents_of_frameCase h.settled hcase hx with hx | ⟨-, htimestamp⟩
    · exact (h.timestamps x hx).imp_right fun hle =>
        Nat.le_trans hle (size_clock_le_of_frameCase h.settled hcase)
    · exact htimestamp

/-- **Only timestamps and the size of the whole can keep a log from being sent.** -/
theorem Concise.exists_push_iff (h : r.Concise) : (∃ sent, r.push.bytes = .ok sent) ↔
    (∀ op ∈ r.log.operations, op.timestamp.Brief) ∧ r.push.wireSize ≤ maxBodySize := by
  rw [Request.exists_bytes_iff]
  refine and_congr_left fun hsize => ?_
  constructor
  · rintro ⟨-, -, hops⟩ op hop
    exact (hops op hop).1.2
  · intro htimestamps
    have hfew : r.log.operations.length ≤ Encoding.maxOperations := by
      rw [wireSize_push, Log.sizes_contents] at hsize
      exact Operation.length_le_maxOperations (by omega)
    refine ⟨h.legible.id, hfew, fun op hop => ⟨⟨?_, htimestamps op hop⟩, ?_⟩⟩
    · exact h.contexts op.unmarked (Log.unmarked_mem_contents hop)
    · exact h.legible.log.operations op hop

/-- With a clock of few entries the timestamps are no matter. -/
theorem Concise.brief_timestamps (h : r.Concise) (hclock : r.clock.Brief) :
    ∀ op ∈ r.log.operations, op.timestamp.Brief := by
  intro op hop
  rcases h.timestamps op.unmarked (Log.unmarked_mem_contents hop) with hbrief | hle
  · exact hbrief
  · exact Nat.le_trans hle hclock

/-! ### Growth -/

/-- No frame takes an operation out of the log, or another name than the replica's into it. -/
theorem contents_subperm_of_frameCase (hs : r.Settled) (hcase : FrameCase r r') :
    r'.id = r.id ∧ r.log.contents.Subperm r'.log.contents := by
  cases hcase with
  | written _ _ _ =>
    refine ⟨rfl, .trans ?_ (contents_afterWrite r _ _).symm.subperm⟩
    exact (List.sublist_cons_self _ _).subperm
  | received _ =>
    refine ⟨rfl, .trans ?_ (contents_receive hs).symm.subperm⟩
    exact (List.sublist_append_left _ _).subperm
  | quiet hr => exact ⟨hr.id, by rw [hr.log]⟩

/-- A part of a log that can be sent can be sent. -/
theorem Concise.exists_push_of_subperm (h : r.Concise) (h' : r'.Concise) (hid : r'.id = r.id)
    (hlog : r.log.contents.Subperm r'.log.contents)
    (hsent : ∃ sent, r'.push.bytes = .ok sent) : ∃ sent, r.push.bytes = .ok sent := by
  rw [h'.exists_push_iff] at hsent
  rw [h.exists_push_iff]
  obtain ⟨htimestamps, hsize⟩ := hsent
  constructor
  · intro op hop
    obtain ⟨x, hx, hunmarked⟩ :=
      Log.mem_contents.1 (hlog.subset (Log.unmarked_mem_contents hop))
    have htimestamp : x.unmarked.timestamp.Brief := htimestamps x hx
    rwa [hunmarked] at htimestamp
  · have hsizes : sizes Operation.wireSize r.log.contents ≤
        sizes Operation.wireSize r'.log.contents := sizes_le_of_subperm hlog
    rw [wireSize_push] at hsize ⊢
    rw [hid] at hsize
    omega

/-- How a replica passes on its log. -/
structure PassesOn (r : Replica) : Prop where
  /-- The log can be sent if the timestamps in it have few entries and one body can hold it. -/
  sendable : (∃ sent, r.push.bytes = .ok sent) ↔
    (∀ op ∈ r.log.operations, op.timestamp.Brief) ∧ r.push.wireSize ≤ maxBodySize
  /-- If the clock of the replica has few entries, all timestamps have. -/
  roomy : r.clock.Brief → ∀ op ∈ r.log.operations, op.timestamp.Brief
  /-- It arrives as it was. -/
  arrives : ∀ sent, r.push.bytes = .ok sent → r.push.arrived = .ok r.push
  /-- If the log can be sent later on, it can be sent now. -/
  ever : ∀ r', r.Served r' → (∃ sent, r'.push.bytes = .ok sent) → ∃ sent, r.push.bytes = .ok sent

/-- **A replica can pass on its log as long as it is not too large**, and once it is too large, for
ever after it cannot. -/
theorem Served.passesOn (h : (fresh id money active).Served r) (hid : Short id) : r.PassesOn := by
  have hconcise : r.Concise := h.invariant (concise_fresh hid) Concise.of_frameCase
  refine ⟨hconcise.exists_push_iff, hconcise.brief_timestamps, fun _ => Request.arrived_of_bytes,
    fun r' hlater => ?_⟩
  obtain ⟨hconcise', hid', hlog⟩ : r'.Concise ∧ r'.id = r.id ∧
      r.log.contents.Subperm r'.log.contents := by
    refine hlater.invariant (I := fun r' => r'.Concise ∧ r'.id = r.id ∧
      r.log.contents.Subperm r'.log.contents) ⟨hconcise, rfl, .refl _⟩ ?_
    rintro now next ⟨hnow, hid, hlog⟩ hcase
    obtain ⟨hid', hlog'⟩ := contents_subperm_of_frameCase hnow.settled hcase
    exact ⟨hnow.of_frameCase hcase, hid'.trans hid, hlog.trans hlog'⟩
  exact hconcise.exists_push_of_subperm hconcise' hid' hlog

end Replica

/-! ### Twice more than half a body -/

/-- A batch of new operations with timestamps that differ is taken in as a whole. -/
theorem Log.news_of_new {log : Log} {ops : List Operation}
    (hnew : ∀ op ∈ ops, log.contains op.timestamp = false)
    (hdistinct : ops.Pairwise fun a b => a.timestamp.agrees b.timestamp = false) :
    log.news ops = ops.map Operation.unmarked := by
  induction ops generalizing log with
  | nil => rfl
  | cons op rest ih =>
    obtain ⟨hop, hrest⟩ := List.forall_mem_cons.1 hnew
    obtain ⟨hdiffers, hdistinct⟩ := List.pairwise_cons.1 hdistinct
    rw [news_cons_of_not_contains hop, List.map_cons, ih ?_ hdistinct]
    intro q hq
    rw [contains_await, hrest q hq]
    exact hdiffers q hq

/-- The write of a replica with a number, which opens an account. -/
def opening (account : AccountId) (origin : ReplicaId) (n : Nat) : Operation where
  kind := .create account
  origin := origin
  context := .zero
  timestamp := Clock.zero.set origin (.ofNat n)

theorem wireSize_opening {account : AccountId} {origin : ReplicaId} {n : Nat} :
    (opening account origin n).wireSize =
      20 + 2 * origin.utf8ByteSize + account.utf8ByteSize := by
  have hsize : (opening account origin n).wireSize = 1 + (2 + origin.utf8ByteSize)
      + (2 + account.utf8ByteSize) + 2 + (2 + (2 + origin.utf8ByteSize + 8)) + 1 := rfl
  omega

/-- Some writes of a replica.  With the long name each of them takes 64 KiB. -/
def longBatch (origin : ReplicaId) : List Operation :=
  (List.range' 1 129).map (opening longName origin)

section LongBatch

variable {account : AccountId} {origin other : ReplicaId} {m n : Nat}

theorem mem_longBatch {op : Operation} (h : op ∈ longBatch origin) :
    ∃ n, 0 < n ∧ n < 130 ∧ opening longName origin n = op := by
  obtain ⟨n, hn, rfl⟩ := List.mem_map.1 h
  rw [List.mem_range'_1] at hn
  exact ⟨n, hn.1, hn.2, rfl⟩

theorem length_longBatch : (longBatch origin).length = 129 := by
  rw [longBatch, List.length_map, List.length_range']

theorem count_opening (hn : n < 130) {r : ReplicaId} :
    (opening account origin n).timestamp.count r = if origin = r then n else 0 := by
  rw [opening, Clock.count_set, UInt64.toNat_ofNat_of_lt' (Nat.lt_trans hn (by decide))]
  rfl

/-- The timestamps of such writes tell them apart. -/
theorem agrees_opening (hm : 0 < m ∧ m < 130) (hn : n < 130) (hne : origin ≠ other ∨ m ≠ n) :
    (opening account origin m).timestamp.agrees (opening account other n).timestamp = false := by
  rw [← Bool.not_eq_true, Clock.agrees_iff_count]
  intro hsame
  have hcount := hsame origin
  rw [count_opening hm.2, count_opening hn, if_pos rfl] at hcount
  split at hcount <;> grind

theorem distinct_longBatch :
    (longBatch origin).Pairwise fun a b => a.timestamp.agrees b.timestamp = false := by
  rw [longBatch, List.pairwise_map]
  refine List.Pairwise.imp_of_mem ?_ List.pairwise_lt_range'
  intro m n hm hn hlt
  rw [List.mem_range'_1] at hm hn
  exact agrees_opening hm hn.2 (.inr (Nat.ne_of_lt hlt))

theorem unmarked_longBatch : (longBatch origin).map Operation.unmarked = longBatch origin := by
  rw [longBatch, List.map_map]
  rfl

/-- The request with such a batch. -/
def batchRequest (origin : ReplicaId) : Request :=
  .pushLedgerSnapshot origin (longBatch origin)

variable (horigin : origin.utf8ByteSize = 1)

include horigin

theorem sizes_longBatch : sizes Operation.wireSize (longBatch origin) = 8456853 := by
  have hall : ∀ op ∈ longBatch origin, op.wireSize = 65557 := by
    intro op hop
    obtain ⟨n, -, -, rfl⟩ := mem_longBatch hop
    rw [wireSize_opening, horigin, utf8ByteSize_longName]
    decide
  rw [sizes_of_forall hall, length_longBatch]

theorem exists_bytes_batchRequest : ∃ sent, (batchRequest origin).bytes = .ok sent := by
  have hshort : Short origin := by
    rw [Short, horigin]
    decide
  have hname : Short longName := Nat.le_of_eq utf8ByteSize_longName
  refine Request.exists_bytes_iff.2 ⟨⟨hshort, ?_, fun op hop => ?_⟩, ?_⟩
  · rw [length_longBatch]
    decide
  · obtain ⟨n, -, -, rfl⟩ := mem_longBatch hop
    refine ⟨⟨Nat.zero_le _, show 1 ≤ Encoding.maxShort by decide⟩, ?_⟩
    exact ⟨hshort, by simpa [opening, Kind.accounts] using hname, Clock.named_zero,
      Clock.named_zero.set hshort⟩
  · have hsize : (batchRequest origin).wireSize =
        2 + origin.utf8ByteSize + (4 + sizes Operation.wireSize (longBatch origin)) := rfl
    have hmax : maxBodySize = 16777216 := rfl
    rw [hsize, horigin, sizes_longBatch horigin, hmax]
    decide

end LongBatch

namespace Replica

variable {r : Replica} {origin : ReplicaId}

/-- A replica takes a batch in as a whole if it knows none of the timestamps. -/
theorem contents_receive_longBatch (h : r.Settled)
    (hnew : ∀ x ∈ r.log.contents, ∀ op ∈ longBatch origin,
      x.timestamp.agrees op.timestamp = false) :
    (r.receive (longBatch origin)).2.log.contents.Perm (r.log.contents ++ longBatch origin) := by
  have hnews : r.log.news (longBatch origin) = longBatch origin := by
    rw [Log.news_of_new (fun op hop => ?_) distinct_longBatch, unmarked_longBatch]
    rw [← Bool.not_eq_true, Log.contains_iff]
    rintro ⟨x, hx, hstamp⟩
    have hagrees := Clock.stamp_eq_iff_agrees.1 hstamp
    rw [hnew x hx op hop] at hagrees
    cases hagrees
  refine (contents_receive h).trans ?_
  rw [hnews]

end Replica

/-- A replica after it has taken in the batches of others. -/
def fed (origins : List ReplicaId) : Replica :=
  origins.foldl (fun r origin => (r.receive (longBatch origin)).2) (.fresh "A")

section Fed

variable {origin : ReplicaId} {origins : List ReplicaId}

theorem fed_concat :
    fed (origins ++ [origin]) = ((fed origins).receive (longBatch origin)).2 := by
  rw [fed, fed, List.foldl_concat]

theorem id_fed : (fed origins).id = "A" := by
  induction origins using List.reverseRecOn with
  | nil => rfl
  | append_singleton origins origin ih => rw [fed_concat, Replica.id_receive, ih]

theorem settled_fed : (fed origins).Settled := by
  induction origins using List.reverseRecOn with
  | nil => exact Replica.settled_fresh
  | append_singleton origins origin ih =>
    rw [fed_concat]
    exact ih.receive

theorem contents_fed (h : origins.Nodup) :
    (fed origins).log.contents.Perm (origins.flatMap longBatch) := by
  induction origins using List.reverseRecOn with
  | nil => exact .nil
  | append_singleton origins origin ih =>
    obtain ⟨horigins, -, hne⟩ := List.nodup_append.1 h
    have hcontents := ih horigins
    rw [fed_concat, List.flatMap_append, List.flatMap_singleton]
    refine (Replica.contents_receive_longBatch settled_fed fun x hx op hop => ?_).trans
      (hcontents.append_right _)
    -- the known timestamps count writes of other replicas
    obtain ⟨other, hother, hx⟩ := List.mem_flatMap.1 (hcontents.mem_iff.1 hx)
    obtain ⟨m, hm, hm', rfl⟩ := mem_longBatch hx
    obtain ⟨n, -, hn, rfl⟩ := mem_longBatch hop
    exact agrees_opening ⟨hm, hm'⟩ hn (.inl (hne other hother origin (List.mem_singleton_self _)))

variable (hsize : ∀ origin ∈ origins, origin.utf8ByteSize = 1)

include hsize

theorem served_fed : (Replica.fresh "A").Served (fed origins) := by
  induction origins using List.reverseRecOn with
  | nil => exact .start
  | append_singleton origins origin ih =>
    rw [List.forall_mem_append, List.forall_mem_singleton] at hsize
    obtain ⟨sent, hsent⟩ := exists_bytes_batchRequest hsize.2
    rw [fed_concat]
    exact (ih hsize.1).receive hsent

/-- Each batch fills more than half of a body. -/
theorem wireSize_fed (h : origins.Nodup) :
    (fed origins).push.wireSize = 7 + origins.length * 8456853 := by
  have hid : (fed origins).id.utf8ByteSize = 1 := by
    rw [id_fed]
    decide
  have hbatches : sizes Operation.wireSize (origins.flatMap longBatch) =
      origins.length * 8456853 := by
    rw [sizes_flatMap]
    exact sizes_of_forall fun origin horigin => sizes_longBatch (hsize origin horigin)
  rw [Replica.wireSize_push, hid, sizes_perm (contents_fed h), hbatches, ← Nat.add_assoc]

end Fed

/-- One batch can be passed on. -/
theorem fed_once_passesOn : (Short "A" ∧ (Replica.fresh "A").Served (fed ["B"])) ∧
    (fed ["B"]).PassesOn ∧ ∃ sent, (fed ["B"]).push.bytes = .ok sent := by
  have hid : Short "A" := by decide
  have hserved : (Replica.fresh "A").Served (fed ["B"]) := served_fed (by decide)
  have hpasses : (fed ["B"]).PassesOn := hserved.passesOn hid
  refine ⟨⟨hid, hserved⟩, hpasses, hpasses.sendable.2 ⟨fun op hop => ?_, ?_⟩⟩
  · have hmem := (contents_fed (by decide)).mem_iff.1 (Log.unmarked_mem_contents hop)
    obtain ⟨origin, -, hmem⟩ := List.mem_flatMap.1 hmem
    obtain ⟨n, -, -, hn⟩ := mem_longBatch hmem
    have hbrief : (opening longName origin n).timestamp.Brief :=
      show 1 ≤ Encoding.maxShort by decide
    rwa [hn] at hbrief
  · rw [wireSize_fed (by decide) (by decide)]
    decide

/-- Two batches cannot be passed on, although each has come in a request. -/
theorem fed_twice_not_sent : (Short "A" ∧ (Replica.fresh "A").Served (fed ["B", "C"])) ∧
    ¬ ∃ sent, (fed ["B", "C"]).push.bytes = .ok sent := by
  refine ⟨⟨by decide, served_fed (by decide)⟩, ?_⟩
  rw [Request.exists_bytes_iff, wireSize_fed (by decide) (by decide)]
  rintro ⟨-, hsize⟩
  exact absurd hsize (by decide)

end GossipLedger
