import GossipLedger.Proofs.Service.Served
import Mathlib.Data.List.Perm.Basic

/-!
# Which requests are answered

A reply is made after the request has been carried out, and it may then turn out that it cannot be
sent: a clock has more entries than two bytes can count, a text is too long, or a body is too large.
Nothing is sent then, also where a write has been accepted.  `Response.Fits` says what can be sent,
and `Replica.CanAnswer`, in terms of the replica before the request, to which requests there is
a reply.

For a replica that has served requests nothing else matters, as the names in it are short: there is
a reply exactly if one fits, and it tells a write that was accepted or the error of a request that
was refused (`Replica.Served.answers`).  There is none to a write of a client that has heard of too
many replicas, although the write is accepted (`Replica.no_reply_of_crowded`), and none to
a question for an unknown account with a long name (`Replica.no_reply_of_long`).
-/

namespace GossipLedger

open Wire

/-! ### Replies that fit -/

/-- Four bytes can count the operations that fit into a body. -/
theorem Operation.length_le_maxOperations {ops : List Operation}
    (h : sizes wireSize ops ≤ maxBodySize) : ops.length ≤ Encoding.maxOperations := by
  have hlength : ops.length ≤ sizes wireSize ops := length_le_sizes fun op => Nat.le_add_left 1 _
  have hmax : maxBodySize ≤ Encoding.maxOperations := by decide
  exact Nat.le_trans (Nat.le_trans hlength h) hmax

theorem Dump.length_operations_le {d : Dump} (h : d.wireSize ≤ maxBodySize) :
    d.operations.length ≤ Encoding.maxOperations := by
  unfold Dump.wireSize at h
  exact Operation.length_le_maxOperations (by omega)

namespace Response

variable {response : Response}

/-- The names in the response are short. -/
def Named : Response → Prop
  | clock observed => observed.Named
  | balance _ observed => observed.Named
  | ledgerState dump => dump.Named
  | _ => True

/-- The response is not too large. -/
def Fits : Response → Prop
  | clock observed => observed.Brief ∧ observed.wireSize ≤ maxBodySize
  | balance _ observed => observed.Brief ∧ 8 + observed.wireSize ≤ maxBodySize
  | ack => True
  | ledgerState dump => dump.Brief ∧ dump.wireSize ≤ maxBodySize
  | gossip .. => True
  | error _ message => Short message

/-- If the names are short, only the size matters. -/
theorem exists_bytes_iff_fits (h : response.Named) :
    (∃ sent, response.bytes = .ok sent) ↔ response.Fits := by
  rw [exists_bytes_iff]
  cases response with
  | clock observed => exact and_congr_left' (and_iff_left h)
  | balance held observed => exact and_congr_left' (and_iff_left h)
  | ack => exact iff_of_true ⟨trivial, Nat.zero_le _⟩ trivial
  | ledgerState dump =>
    constructor
    · rintro ⟨⟨hbrief, -, -⟩, hsize⟩
      exact ⟨hbrief, hsize⟩
    · rintro ⟨hbrief, hsize⟩
      exact ⟨⟨hbrief, h, Dump.length_operations_le hsize⟩, hsize⟩
  | gossip attempted delivered failed =>
    exact iff_of_true ⟨trivial, show 4 + 4 + 4 ≤ maxBodySize by decide⟩ trivial
  | error code message =>
    -- the code and the length of the text take two bytes each
    refine and_iff_left_of_imp fun hshort : message.utf8ByteSize ≤ Encoding.maxShort => ?_
    have hsize : 2 + (2 + Encoding.maxShort) ≤ maxBodySize := by decide
    exact Nat.le_trans (Nat.add_le_add_left (Nat.add_le_add_left hshort 2) 2) hsize

/-- What is sent is the frame of the response. -/
theorem parse_of_bytes {sent : Bytes} (h : response.bytes = .ok sent) :
    Frame.parse sent = .ok ⟨response.kind, response.encoding.written⟩ := by
  have hcomplete : response.encoding.Complete :=
    Encoding.takes_response.complete.2 (exists_bytes_iff.1 ⟨sent, h⟩).1
  rw [bytes, toFrame_eq_ok hcomplete] at h
  exact Frame.parse_of_serialize h

end Response

namespace Replica

variable {r r' : Replica} {round : Replica → GossipReport} {frame : Frame} {answer : Answer}
  {kind : Kind} {context : Clock} {request : Request}

/-! ### What a reply is -/

/-- The names in the response to a request with short names are short. -/
theorem Legible.named_response (hr : r.Legible) (hnamed : request.Named)
    (h : r.serve request = .ok (answer, r')) (report : GossipReport) :
    (answer.response report).Named := by
  cases request with
  | write kind context =>
    obtain ⟨result, rfl, hcase⟩ := exists_submitCase_of_serve h
    cases hcase with
    | refused _ _ => exact trivial
    | collided _ _ => exact trivial
    | accepted _ _ _ _ => exact hnamed.2.merged (hr.afterWrite hnamed.1 hnamed.2).log.clock
  | balance account context =>
    cases h
    cases hbalance : r.accounts.balance? account with
    | none =>
      rw [read, hbalance]
      exact trivial
    | some held =>
      rw [read, hbalance]
      exact hnamed.2.merged hr.log.clock
  | dumpLedgerState =>
    cases h
    exact ⟨hr.id, hr.log.clock, hr.log.accounts, hr.log.operations⟩
  | _ =>
    cases h
    exact trivial

/-- The reply to a frame is a certain response, if that can be sent. -/
structure RepliesWith (r : Replica) (round : Replica → GossipReport) (frame : Frame)
    (response : Response) : Prop where
  /-- When there is a reply. -/
  answered : (∃ sent, (r.respond round frame).1 = some sent) ↔ response.Fits
  /-- What it is. -/
  reply : ∀ sent, (r.respond round frame).1 = some sent →
    Frame.parse sent = .ok ⟨response.kind, response.encoding.written⟩

theorem repliesWith_of_serveFrame {response : Response} (hnamed : response.Named)
    (h : r.serveFrame frame = .ok (answer, r')) (hresponse : answer.response (round r') = response) :
    r.RepliesWith round frame response := by
  have hsent : ∀ sent,
      (r.respond round frame).1 = some sent ↔ response.bytes = .ok sent := by
    intro sent
    rw [respond, h]
    dsimp only
    rw [hresponse]
    cases response.bytes with
    | ok bytes => simp [Except.toOption]
    | error e => simp [Except.toOption]
  refine ⟨?_, fun sent h => Response.parse_of_bytes ((hsent sent).1 h)⟩
  rw [← Response.exists_bytes_iff_fits hnamed]
  exact exists_congr hsent

/-! ### What is answered -/

/-- There is a reply to the request. -/
def CanAnswer (r : Replica) : Request → Prop
  | .write kind context =>
    if r.active then
      match r.accounts.admission kind with
      | .error e => Short e.message
      | .ok () =>
        r.clock.get r.id ≠ Clock.maxCount ∧
          if r.log.contains r.nextStamp then Short (LedgerError.duplicateOperation r.nextStamp).message
          -- the clock is that of the replica after the write, which is done by then
          else (Response.clock (context.merged (r.afterWrite kind context).clock)).Fits
    else True
  | .balance account context =>
    match r.accounts.balance? account with
    | some held => (Response.balance held (context.merged r.clock)).Fits
    | none => Short (LedgerError.accountNotFound account).message
  | .dumpLedgerState => (Response.ledgerState r.dump).Fits
  | .activate => True
  | .deactivate => True
  | .triggerGossip => True
  | .pushLedgerSnapshot _ _ => True

/-- The frame asks for a write, which the replica accepts, and the client is to be told what it has
then observed. -/
inductive Commits (r : Replica) (frame : Frame) : Clock → Prop where
  /-- The write is accepted. -/
  | write {kind : Kind} {context observed : Clock} {r' : Replica}
    (hrequest : Request.ofFrame frame = .ok (.write kind context))
    (hsubmit : r.submit kind context = .ok (.ok observed, r')) : Commits r frame observed

/-- The frame holds no request, or one that the replica refuses. -/
inductive Refuses (r : Replica) (frame : Frame) : LedgerError → Prop where
  /-- There is no request. -/
  | unread {e : LedgerError} (hrequest : Request.ofFrame frame = .error e) : Refuses r frame e
  /-- A write is refused. -/
  | write {kind : Kind} {context : Clock} {e : LedgerError} {r' : Replica}
    (hrequest : Request.ofFrame frame = .ok (.write kind context))
    (hsubmit : r.submit kind context = .ok (.error e, r')) : Refuses r frame e
  /-- There is no balance. -/
  | balance {account : AccountId} {context : Clock} {e : LedgerError}
    (hrequest : Request.ofFrame frame = .ok (.balance account context))
    (hread : r.read account context = .error e) : Refuses r frame e

/-- How a replica answers a frame. -/
structure Answers (r : Replica) (round : Replica → GossipReport) (frame : Frame) : Prop where
  /-- A frame with a request is answered exactly if the replica can answer the request. -/
  answered : ∀ request, Request.ofFrame frame = .ok request →
    ((∃ sent, (r.respond round frame).1 = some sent) ↔ r.CanAnswer request)
  /-- A frame without a request is always answered. -/
  unread : ∀ e, Request.ofFrame frame = .error e → ∃ sent, (r.respond round frame).1 = some sent
  /-- The reply to a write that is accepted is a clock. -/
  committed : ∀ observed, r.Commits frame observed → r.RepliesWith round frame (.clock observed)
  /-- The reply to what is refused is the error. -/
  refused : ∀ e, r.Refuses frame e → r.RepliesWith round frame (.ofError e)

section

variable (hr : r.Legible) (hnamed : request.Named) (hrequest : Request.ofFrame frame = .ok request)

include hrequest

/-- There is no reply to a request that fails as a whole. -/
theorem respond_of_overflow {e : CounterOverflow} (h : r.serve request = .error e) :
    (r.respond round frame).1 = none := by
  have hframe : r.serveFrame frame = .error e := by rw [serveFrame, hrequest]; exact h
  rw [respond, hframe]

include hr hnamed

theorem repliesWith_of_serve (h : r.serve request = .ok (answer, r')) :
    r.RepliesWith round frame (answer.response (round r')) := by
  have hframe : r.serveFrame frame = .ok (answer, r') := by rw [serveFrame, hrequest]; exact h
  exact repliesWith_of_serveFrame (hr.named_response hnamed h _) hframe rfl

/-- A request is answered if the response to it fits. -/
theorem exists_reply_iff_of_serve (h : r.serve request = .ok (answer, r')) :
    (∃ sent, (r.respond round frame).1 = some sent) ↔ (answer.response (round r')).Fits :=
  (repliesWith_of_serve hr hnamed hrequest h).answered

end

theorem serve_write {result : Result Clock} (h : r.submit kind context = .ok (result, r')) :
    r.serve (.write kind context) = .ok (.ofWrite result, r') := by
  rw [serve, h]
  rfl

theorem exists_reply_write_iff (hr : r.Legible) (hnamed : (Request.write kind context).Named)
    (hrequest : Request.ofFrame frame = .ok (.write kind context)) :
    (∃ sent, (r.respond round frame).1 = some sent) ↔ r.CanAnswer (.write kind context) := by
  have hreply : ∀ {result after}, r.submit kind context = .ok (result, after) →
      ((∃ sent, (r.respond round frame).1 = some sent) ↔
        ((Answer.ofWrite result).response (round after)).Fits) :=
    fun hsubmit => exists_reply_iff_of_serve hr hnamed hrequest (serve_write hsubmit)
  rw [CanAnswer]
  cases hactive : r.active with
  | false =>
    rw [hreply (submit_of_inactive hactive), if_neg Bool.false_ne_true]
    have hmessage : Short LedgerError.readOnly.message := by decide
    exact iff_of_true hmessage trivial
  | true =>
    rw [if_pos rfl]
    cases hadmitted : r.accounts.admission kind with
    | error e => exact hreply (submit_of_refused hactive hadmitted)
    | ok =>
      dsimp only
      by_cases hroom : r.clock.get r.id = Clock.maxCount
      · -- the request fails as a whole, and there is no response at all
        have hserve : r.serve (.write kind context) = .error {} := by
          rw [serve, submit_of_full hactive hadmitted hroom]
          rfl
        refine iff_of_false ?_ fun h => h.1 hroom
        rintro ⟨sent, hsent⟩
        rw [respond_of_overflow hrequest hserve] at hsent
        cases hsent
      · rw [and_iff_right hroom]
        cases hnew : r.log.contains r.nextStamp with
        | false => exact hreply (submit_eq_ok hactive hadmitted hroom hnew)
        | true => exact hreply (submit_of_contains hactive hadmitted hroom hnew)

/-- A request that arrives is answered exactly under the condition of `CanAnswer`. -/
theorem exists_reply_iff (hr : r.Legible) (hnamed : request.Named)
    (hrequest : Request.ofFrame frame = .ok request) :
    (∃ sent, (r.respond round frame).1 = some sent) ↔ r.CanAnswer request := by
  cases request with
  | write kind context => exact exists_reply_write_iff hr hnamed hrequest
  | balance account context =>
    refine (exists_reply_iff_of_serve hr hnamed hrequest rfl).trans ?_
    rw [CanAnswer, read]
    cases r.accounts.balance? account with
    | some held => exact Iff.rfl
    | none => exact Iff.rfl
  | _ => exact exists_reply_iff_of_serve hr hnamed hrequest rfl

/-- **A replica answers a frame exactly if the reply fits**, and then with a clock where a write is
accepted, and with the error where the request is refused. -/
theorem Served.answers {id : ReplicaId} {money : UInt64} {active : Bool} {bytes : Bytes}
    (h : (fresh id money active).Served r) (hid : Short id) (hparse : Frame.parse bytes = .ok frame) :
    r.Answers round frame := by
  have hr : r.Legible := (h.legible hid).2
  have hsize : frame.body.length ≤ maxBodySize := Frame.length_body_of_parse hparse
  have hnamed : ∀ {request}, Request.ofFrame frame = .ok request → request.Named :=
    Request.named_of_ofFrame hsize
  have hunread : ∀ e, Request.ofFrame frame = .error e → r.RepliesWith round frame (.ofError e) := by
    intro e hrequest
    have hframe : r.serveFrame frame = .ok (.reply (.ofError e), r) := by rw [serveFrame, hrequest]
    exact repliesWith_of_serveFrame trivial hframe rfl
  constructor
  case answered => exact fun request hrequest => exists_reply_iff hr (hnamed hrequest) hrequest
  case unread =>
    exact fun e hrequest => (hunread e hrequest).answered.2 (Request.short_of_ofFrame hsize hrequest)
  case committed =>
    rintro observed ⟨hrequest, hsubmit⟩
    exact repliesWith_of_serve hr (hnamed hrequest) hrequest (serve_write hsubmit)
  case refused =>
    intro e hrefuses
    cases hrefuses with
    | unread hrequest => exact hunread e hrequest
    | write hrequest hsubmit =>
      exact repliesWith_of_serve hr (hnamed hrequest) hrequest (serve_write hsubmit)
    | @balance account context _ hrequest hread =>
      have hserve : r.serve (.balance account context) = .ok (.reply (.ofError e), r) := by
        rw [serve, hread]
        rfl
      exact repliesWith_of_serve hr (hnamed hrequest) hrequest hserve

end Replica

/-- The frame that asks for the balance of an account. -/
def questionFrame (account : AccountId) : Frame :=
  ⟨.balance, (Request.balance account .zero).encoding.written⟩

/-- The frame that opens an account. -/
def openingFrame : Frame :=
  ⟨.createAccount, (Request.write (.create "x") .zero).encoding.written⟩

/-- A replica that has opened an account answers a question for its balance. -/
theorem opened_answers :
    ((Replica.fresh "A").Served ((Replica.fresh "A").afterWrite (.create "x") .zero) ∧
      Short "A" ∧
      Frame.parse ((questionFrame "x").header.bytes ++ (questionFrame "x").body) =
        .ok (questionFrame "x")) ∧
      ((Replica.fresh "A").afterWrite (.create "x") .zero).Answers (fun _ => {})
        (questionFrame "x") := by
  have hopening : Frame.parse (openingFrame.header.bytes ++ openingFrame.body) =
      .ok openingFrame := rfl
  have hquestion : Frame.parse ((questionFrame "x").header.bytes ++ (questionFrame "x").body) =
      .ok (questionFrame "x") := rfl
  have hserved : (Replica.fresh "A").Served ((Replica.fresh "A").afterWrite (.create "x") .zero) :=
    .frame .start hopening rfl
  have hid : Short "A" := by decide
  exact ⟨⟨hserved, hid, hquestion⟩, hserved.answers hid hquestion⟩

/-! ### Writes without a reply -/

namespace NameMap

variable {β : Type} {m₁ m₂ : NameMap β} {f : β → β → β} {name : String}

theorem nodup_names {m : NameMap β} : m.names.Nodup := by
  rw [names, List.Nodup, List.pairwise_map]
  exact m.increasing.imp String.ne_of_lt

theorem mem_names_iff {m : NameMap β} : name ∈ m.names ↔ ∃ value, m.get? name = some value := by
  rw [names, List.mem_map]
  constructor
  · rintro ⟨⟨_, value⟩, he, rfl⟩
    exact ⟨value, mem_entries_iff.1 he⟩
  · rintro ⟨value, hvalue⟩
    exact ⟨(name, value), mem_entries_iff.2 hvalue, rfl⟩

/-- The union with a map that has another name has more entries. -/
theorem size_lt_size_combine (h₁ : m₁.get? name = none) (h₂ : ∃ value, m₂.get? name = some value) :
    m₁.size < (combine f m₁ m₂).size := by
  have hnew : name ∉ m₁.names := by
    rw [mem_names_iff, h₁]
    rintro ⟨_, h⟩
    cases h
  have hsubset : name :: m₁.names ⊆ (combine f m₁ m₂).names := by
    intro other hother
    rw [mem_names_iff, get?_combine]
    rcases List.mem_cons.1 hother with rfl | hother
    · obtain ⟨value, hvalue⟩ := h₂
      exact ⟨value, by rw [h₁, hvalue]; rfl⟩
    · obtain ⟨value, hvalue⟩ := mem_names_iff.1 hother
      rw [hvalue]
      cases m₂.get? other <;> exact ⟨_, rfl⟩
  have hlength : (name :: m₁.names).length ≤ (combine f m₁ m₂).names.length :=
    (List.subperm_of_subset (List.nodup_cons.2 ⟨hnew, nodup_names⟩) hsubset).length_le
  rwa [List.length_cons, names, names, List.length_map, List.length_map] at hlength

end NameMap

/-- A clock that counts something for a replica has an entry for it. -/
theorem Clock.exists_entry {c : Clock} {r : ReplicaId} (h : 0 < c.count r) :
    ∃ n, c.counters.get? r = some n := by
  cases hentry : c.counters.get? r with
  | some n => exact ⟨n, rfl⟩
  | none =>
    rw [count, get, hentry] at h
    cases h

/-- **A write is not answered, although it is accepted**, if the client has heard of as many other
replicas as a clock can have entries. -/
theorem Replica.no_reply_of_crowded {r r' : Replica} {round : Replica → GossipReport}
    {frame : Frame} {kind : Kind} {context observed : Clock} (hr : r.Legible)
    (hnamed : (Request.write kind context).Named)
    (hrequest : Request.ofFrame frame = .ok (.write kind context))
    (hsubmit : r.submit kind context = .ok (.ok observed, r'))
    (hcrowded : Encoding.maxShort ≤ context.size)
    (hother : context.counters.get? r.id = none) : r.respond round frame = (none, r') := by
  have hserve := serve_write hsubmit
  have hlarge : Encoding.maxShort < observed.size := by
    cases submit_cases hsubmit with
    | accepted _ _ hroom _ =>
      -- the replica counts its own write, whose entry joins those of the context
      have hown : ∃ n, (r.afterWrite kind context).clock.counters.get? r.id = some n := by
        refine Clock.exists_entry (Nat.lt_of_lt_of_le ?_ Log.le_count_settled)
        exact count_nextStamp_self hroom ▸ Nat.succ_pos _
      exact Nat.lt_of_le_of_lt hcrowded (NameMap.size_lt_size_combine hother hown)
  have hreply : (r.respond round frame).1 = none := by
    rw [Option.eq_none_iff_forall_ne_some]
    intro sent hsent
    have hfits := (exists_reply_iff_of_serve hr hnamed hrequest hserve).1 ⟨sent, hsent⟩
    exact Nat.not_lt.2 hfits.1 hlarge
  have hafter : (r.respond round frame).2 = r' := by
    rw [respond, serveFrame, hrequest]
    dsimp only
    rw [hserve]
  exact Prod.ext hreply hafter

/-! ### Questions without a reply -/

section

variable {account : AccountId} (hshort : Short account)

include hshort

theorem ofFrame_question : Request.ofFrame (questionFrame account) = .ok (.balance account .zero) := by
  have hzero : Clock.zero.Brief := Nat.zero_le _
  have hname : (Encoding.string account).Complete := Encoding.takes_string.complete.2 hshort
  have hread : Read.Reads (Request.read .balance) (.string account ++ .clock .zero)
      (Request.balance account .zero) :=
    (Read.reads_string hshort).bind hname (Read.reads_clock hzero Clock.named_zero).map
  exact hread.exactly

theorem parse_question :
    Frame.parse ((questionFrame account).header.bytes ++ (questionFrame account).body) =
      .ok (questionFrame account) := by
  have hname : (Encoding.string account).Complete := Encoding.takes_string.complete.2 hshort
  have hcomplete : (Encoding.string account ++ .clock .zero).Complete :=
    Encoding.complete_append.2 ⟨hname, rfl⟩
  have hlength : (questionFrame account).body.length = 2 + account.utf8ByteSize + 2 :=
    (Encoding.takes_string.append Encoding.takes_clock).length hcomplete
  have hsize : 2 + Encoding.maxShort + 2 ≤ maxBodySize := by decide
  refine Frame.parse_of_serialize (if_neg (Nat.not_lt.2 ?_))
  rw [hlength]
  unfold Short at hshort
  omega

/-- A name that just fits into a question does not fit into the text that there is no such
account. -/
theorem Replica.no_reply_of_long {r : Replica} {round : Replica → GossipReport} (hr : r.Legible)
    (hnone : r.accounts.balance? account = none)
    (hlong : Encoding.maxShort < 19 + account.utf8ByteSize) :
    (r.respond round (questionFrame account)).1 = none := by
  rw [Option.eq_none_iff_forall_ne_some]
  intro sent hsent
  have hnamed : (Request.balance account .zero).Named := ⟨hshort, Clock.named_zero⟩
  have hanswer : r.CanAnswer (.balance account .zero) :=
    (exists_reply_iff hr hnamed (ofFrame_question hshort)).1 ⟨sent, hsent⟩
  have hmessage : Short ("Account not found: " ++ account) := by
    rw [CanAnswer, hnone] at hanswer
    exact hanswer
  have hsize : "Account not found: ".utf8ByteSize = 19 := by decide
  rw [Short, String.utf8ByteSize_append, hsize] at hmessage
  exact Nat.not_lt.2 hmessage hlong

end

/-- A name of as many letters as two bytes can count. -/
@[irreducible] def longName : AccountId :=
  "".pushn 'n' Encoding.maxShort

theorem utf8ByteSize_pushn {n : Nat} : ("".pushn 'n' n).utf8ByteSize = n := by
  have hletter : ('n').utf8Size = 1 := by decide
  unfold String.pushn
  induction n with
  | zero => rfl
  | succ n ih => rw [Nat.repeat, String.utf8ByteSize_push, ih, hletter]

theorem utf8ByteSize_longName : longName.utf8ByteSize = Encoding.maxShort := by
  unfold longName
  exact utf8ByteSize_pushn

/-- A new replica is asked for an account of that name.  There is none, and no reply says so. -/
theorem longName_unanswered :
    (Short "A" ∧ (Replica.fresh "A").Served (.fresh "A") ∧
      Frame.parse ((questionFrame longName).header.bytes ++ (questionFrame longName).body) =
        .ok (questionFrame longName) ∧
      (Replica.fresh "A").Refuses (questionFrame longName) (.accountNotFound longName)) ∧
      ((Replica.fresh "A").respond (fun _ => {}) (questionFrame longName)).1 = none := by
  have hid : Short "A" := by decide
  have hshort : Short longName := Nat.le_of_eq utf8ByteSize_longName
  have hother : AccountId.broker ≠ longName := by
    intro hbroker
    have hsize : AccountId.broker.utf8ByteSize = Encoding.maxShort :=
      hbroker ▸ utf8ByteSize_longName
    exact absurd hsize (by decide)
  have hnone : (Replica.fresh "A").accounts.balance? longName = none :=
    Accounts.balance?_seeded.trans (if_neg hother)
  have hread : (Replica.fresh "A").read longName .zero = .error (.accountNotFound longName) := by
    rw [Replica.read, hnone]
  have hlong : Encoding.maxShort < 19 + longName.utf8ByteSize := by
    rw [utf8ByteSize_longName]
    decide
  exact ⟨⟨hid, .start, parse_question hshort, .balance (ofFrame_question hshort) hread⟩,
    Replica.no_reply_of_long hshort (Replica.legible_fresh hid) hnone hlong⟩

end GossipLedger
