import GossipLedger.Proofs.Service.Exchange

/-!
# Errors that are passed on

A process reports an error to another one by its code and its text.  The receiver keeps the code,
and with it what kind of refusal it was (`LedgerError.Means`), although of all the ways in which
something can be refused it tells only three apart.  It may report the error in turn, any number of
times (`LedgerError.relays_keep_meaning`).

The only thing that can be in the way is the length of the text (`LedgerError.relayedAs_iff`).  It
grows from report to report, except for the two errors whose code says all there is to say
(`LedgerError.relayedAs_self_iff`).
-/

namespace GossipLedger

open Wire

/-- Just the responses that can be sent arrive, and they do so as they were. -/
theorem Response.arrived_eq_ok_iff {response response' : Response} :
    response.arrived = .ok response' ↔
      (∃ sent, response.bytes = .ok sent) ∧ response' = response := by
  have harrived : ∀ sent, response.bytes = .ok sent → response.arrived = .ok response := by
    intro sent hsent
    obtain ⟨frame, hframe, hserialize⟩ := Result.bind_eq_ok_iff.1 hsent
    obtain ⟨rfl, hreads⟩ := reads_of_toFrame hframe hserialize
    rw [arrived, hsent]
    dsimp only [bind, Except.bind]
    rw [Frame.parse_of_serialize hserialize]
    exact hreads.exactly
  constructor
  · intro h
    obtain ⟨sent, hsent, -⟩ := Result.bind_eq_ok_iff.1 h
    rw [harrived sent hsent] at h
    exact ⟨⟨sent, hsent⟩, (Except.ok.inj h).symm⟩
  · rintro ⟨⟨sent, hsent⟩, rfl⟩
    exact harrived sent hsent

namespace LedgerError

variable {e e' later : LedgerError} {code : UInt16} {text : String}

/-! ### One report -/

/-- The second error is what the receiver makes of a report of the first one. -/
def RelayedAs (e e' : LedgerError) : Prop :=
  ∃ response, (Response.ofError e).arrived = .ok response ∧ response.toResult = .error e'

/-- An error can be reported exactly if its text is short, and what arrives is its code and its
text. -/
theorem relayedAs_iff : e.RelayedAs e' ↔ Short e.message ∧ e' = ofCode e.code e.message := by
  have hsent : (∃ sent, (Response.ofError e).bytes = .ok sent) ↔ Short e.message :=
    Response.exists_bytes_iff_fits trivial
  constructor
  · rintro ⟨response, harrived, hresult⟩
    obtain ⟨hbytes, rfl⟩ := Response.arrived_eq_ok_iff.1 harrived
    exact ⟨hsent.1 hbytes, (Except.error.inj hresult).symm⟩
  · rintro ⟨hshort, rfl⟩
    exact ⟨Response.ofError e, Response.arrived_eq_ok_iff.2 ⟨hsent.2 hshort, rfl⟩, rfl⟩

theorem RelayedAs.unique {e'' : LedgerError} (h : e.RelayedAs e') (h' : e.RelayedAs e'') :
    e'' = e' :=
  (relayedAs_iff.1 h').2.trans (relayedAs_iff.1 h).2.symm

theorem exists_relayedAs (h : Short e.message) : ∃ e', e.RelayedAs e' :=
  ⟨_, relayedAs_iff.2 ⟨h, rfl⟩⟩

/-! ### What is kept -/

/-- The errors have the same code, and both answer a request that the ledger's rules refuse or
neither does. -/
structure Means (e e' : LedgerError) : Prop where
  /-- The codes. -/
  code : e.code = e'.code
  /-- Whether the rules of the ledger are the reason. -/
  isDomain : e.isDomain = e'.isDomain

/-- What kind of refusal an error is goes by its code. -/
theorem means_of_code (h : e.code = e'.code) : e.Means e' :=
  ⟨h, by rw [LedgerError.isDomain, LedgerError.isDomain, h]⟩

theorem Means.trans {e'' : LedgerError} (h : e.Means e') (h' : e'.Means e'') : e.Means e'' :=
  means_of_code (h.code.trans h'.code)

/-- Two codes have an error of their own, and it has that code. -/
theorem code_ofCode : (ofCode code text).code = code := by
  unfold ofCode
  split
  · rename_i hcode
    exact hcode.symm
  · split
    · rename_i hcode
      exact hcode.symm
    · rfl

theorem RelayedAs.means (h : e.RelayedAs e') : e'.Means e := by
  rw [(relayedAs_iff.1 h).2]
  exact means_of_code code_ofCode

/-- However often an error is passed on, it keeps its meaning. -/
theorem means_of_relays (h : Relation.ReflTransGen RelayedAs e later) : later.Means e := by
  induction h with
  | refl => exact means_of_code rfl
  | tail _ hrelay ih => exact hrelay.means.trans ih

/-! ### What is not -/

/-- The text of an error that has no constructor of its own at the receiver grows. -/
theorem utf8ByteSize_lt_remote : text.utf8ByteSize < (remote code text).message.utf8ByteSize := by
  have hmessage : (remote code text).message = "Remote error " ++ toString code ++ ": " ++ text :=
    rfl
  have hcolon : ": ".utf8ByteSize = 2 := by decide
  rw [hmessage, String.utf8ByteSize_append, String.utf8ByteSize_append, hcolon]
  omega

/-- **Only two errors arrive as they were.** -/
theorem relayedAs_self_iff : e.RelayedAs e ↔ e = readOnly ∨ e = timeout := by
  constructor
  · intro h
    have hself : e = ofCode e.code e.message := (relayedAs_iff.1 h).2
    unfold ofCode at hself
    split at hself
    · exact .inl hself
    · split at hself
      · exact .inr hself
      · -- the text would be part of itself
        have hgrows := @utf8ByteSize_lt_remote e.code e.message
        rw [← hself] at hgrows
        exact absurd hgrows (Nat.lt_irrefl _)
  · rintro (rfl | rfl)
    · exact relayedAs_iff.2 ⟨by decide, rfl⟩
    · exact relayedAs_iff.2 ⟨by decide, rfl⟩

/-! ### Any number of reports -/

/-- **An error keeps its meaning when it is passed on.**  If its text is short, just one error
arrives, of the same code and the same kind; it can be passed on in the same way if its text is
short still, and so on any number of times. -/
theorem relays_keep_meaning (h : Short e.message) :
    ∃ e', (∀ x, e.RelayedAs x ↔ x = e') ∧ e'.Means e ∧
      (Short e'.message → ∃ e'', (∀ x, e'.RelayedAs x ↔ x = e'') ∧ e''.Means e) ∧
      ∀ later, Relation.ReflTransGen RelayedAs e later →
        later.Means e ∧ (Short later.message → ∃ next, later.RelayedAs next) := by
  have hone : ∀ {e e' : LedgerError}, e.RelayedAs e' → ∀ x, e.RelayedAs x ↔ x = e' :=
    fun hrelay x => ⟨hrelay.unique, fun hx => hx ▸ hrelay⟩
  obtain ⟨e', hfirst⟩ := exists_relayedAs h
  refine ⟨e', hone hfirst, hfirst.means, fun hshort => ?_, fun later hlater => ?_⟩
  · obtain ⟨e'', hsecond⟩ := exists_relayedAs hshort
    exact ⟨e'', hone hsecond, hsecond.means.trans hfirst.means⟩
  · exact ⟨means_of_relays hlater, exists_relayedAs⟩

/-- An error that another process has reported under the code of an error of its own, and whose
text is that of a third one. -/
def borrowed : LedgerError :=
  .remote 200 "Account not found: x"

/-- It loses its text, and nothing else. -/
theorem borrowed_keeps_meaning : Short borrowed.message ∧ borrowed.RelayedAs .readOnly ∧
    ∃ e', (∀ x, borrowed.RelayedAs x ↔ x = e') ∧ e'.Means borrowed ∧
      (Short e'.message → ∃ e'', (∀ x, e'.RelayedAs x ↔ x = e'') ∧ e''.Means borrowed) ∧
      ∀ later, Relation.ReflTransGen RelayedAs borrowed later →
        later.Means borrowed ∧ (Short later.message → ∃ next, later.RelayedAs next) := by
  have hshort : Short borrowed.message := by decide
  exact ⟨hshort, relayedAs_iff.2 ⟨hshort, rfl⟩, relays_keep_meaning hshort⟩

end LedgerError

end GossipLedger
