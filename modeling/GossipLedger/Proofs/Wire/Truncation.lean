import GossipLedger.Proofs.Wire.Decoding
import GossipLedger.Proofs.Wire.RoundTrip

/-!
# Missing bytes and bytes too many

A read looks whether the bytes that it needs are there before it takes one of them.  So the bytes
that it has used for a value are just those it needs (`Read.Delimits`): what follows them does not
matter, and if they are cut short, the read runs into that look, wherever the cut is, also inside of
a number or a character.  The error then tells where the buffer ends and asks for no more than
what was cut off (`Read.Careful`).

Reads that follow each other are careful if each is (`Read.Careful.bind`), which leaves the looks
themselves (`Read.careful_peek`).  Together with the round trip this gives `encodings_guarded`:
whatever was written, a proper beginning of it and an extension of it are refused, the one as too
short and the other as too long.
-/

namespace GossipLedger

namespace Wire

namespace Reader

variable {r r' r'' : Reader} {used used' : Bytes}

/-- The reader comes from one place to another by taking certain bytes. -/
structure Passes (r : Reader) (used : Bytes) (r' : Reader) : Prop where
  /-- They were the next ones. -/
  rest_eq : r.rest = used ++ r'.rest
  /-- They have been counted. -/
  consumed_eq : r'.consumed = r.consumed + used.length

theorem Passes.refl : r.Passes [] r :=
  ⟨rfl, rfl⟩

theorem Passes.trans (h : r.Passes used r') (h' : r'.Passes used' r'') :
    r.Passes (used ++ used') r'' where
  rest_eq := by rw [h.rest_eq, h'.rest_eq, List.append_assoc]
  consumed_eq := by rw [h'.consumed_eq, h.consumed_eq, List.length_append, Nat.add_assoc]

theorem Passes.stop_eq (h : r.Passes used r') : r'.stop = r.stop := by
  simp only [stop, remaining, h.rest_eq, h.consumed_eq, List.length_append, Nat.add_assoc]

end Reader

namespace Read

variable {α β : Type} {read : Read α} {f : α → Read β} {used used' : Bytes} {a : α} {b : β}
  {r : Reader} {e : LedgerError}

/-! ### Where a value ends -/

/-- The bytes are just those that the read needs for the value: it takes nothing of what follows
them, and if they are cut short it asks for some of those that are missing. -/
structure Delimits (read : Read α) (used : Bytes) (a : α) : Prop where
  /-- What follows does not matter. -/
  complete : ∀ rest k, read.runFrom ⟨used ++ rest, k⟩ = (.ok a, ⟨rest, k + used.length⟩)
  /-- A beginning is not enough. -/
  short : ∀ front missing, front ++ missing = used → missing ≠ [] → ∀ k, ∃ expected actual r,
    read.runFrom ⟨front, k⟩ = (.error (.bufferTooShort expected actual), r) ∧
      expected ≤ k + used.length

theorem delimits_pure : Delimits (pure a) [] a where
  complete _ _ := rfl
  short _ _ hcut hmissing := absurd (List.append_eq_nil_iff.1 hcut).2 hmissing

/-- If two pieces are cut short, the cut lies in the first one or behind it. -/
theorem cut_append {front missing : Bytes} (h : front ++ missing = used ++ used') :
    (∃ cut, front ++ cut = used ∧ cut ≠ []) ∨
      ∃ taken, front = used ++ taken ∧ taken ++ missing = used' := by
  rcases List.append_eq_append_iff.1 h with ⟨cut, hused, hmissing⟩ | ⟨taken, hfront, hused'⟩
  · cases cut with
    | nil => exact .inr ⟨[], by simp [hused], hmissing⟩
    | cons => exact .inl ⟨_, hused.symm, List.cons_ne_nil _ _⟩
  · exact .inr ⟨taken, hfront, hused'.symm⟩

theorem Delimits.bind (h : Delimits read used a) (h' : Delimits (f a) used' b) :
    Delimits (read >>= f) (used ++ used') b where
  complete rest k := by
    rw [List.append_assoc, runFrom_bind_ok (h.complete _ k), h'.complete, List.length_append,
      Nat.add_assoc]
  short front missing hcut hmissing k := by
    rw [List.length_append, ← Nat.add_assoc]
    rcases cut_append hcut with ⟨cut, hused, hne⟩ | ⟨taken, rfl, hused'⟩
    · obtain ⟨expected, actual, r, hrun, hle⟩ := h.short front cut hused hne k
      exact ⟨expected, actual, r, runFrom_bind_error hrun, Nat.le_add_right_of_le hle⟩
    · obtain ⟨expected, actual, r, hrun, hle⟩ :=
        h'.short taken missing hused' hmissing (k + used.length)
      refine ⟨expected, actual, r, ?_, hle⟩
      rw [runFrom_bind_ok (h.complete taken k), hrun]

/-- Bytes that are looked at and then taken are needed. -/
theorem delimits_peek {front : Bytes} {f : Bytes → Read β}
    (hf : f front = do skip front.length; return b) :
    Delimits (peek front.length >>= f) front b where
  complete rest k := by
    rw [runFrom_bind_ok runFrom_peek_append, hf, runFrom_bind_ok runFrom_skip, skip_append,
      runFrom_pure]
  short start missing hcut hmissing k := by
    have hlength : start.length < front.length := by
      rw [← hcut, List.length_append]
      exact Nat.lt_add_of_pos_right (List.length_pos_iff.2 hmissing)
    have hpeek := runFrom_peek (r := ⟨start, k⟩) (n := front.length)
    rw [if_pos (Nat.lt_of_le_of_lt (List.length_take_le' _ _) hlength)] at hpeek
    exact ⟨_, _, _, runFrom_bind_error hpeek, Nat.le_refl _⟩

/-! ### Careful reads -/

/-- An error for missing bytes tells where the buffer ends, and that more was needed. -/
def Truthful (e : LedgerError) (stop : Nat) : Prop :=
  ∀ expected actual, e = .bufferTooShort expected actual → actual = stop ∧ stop < expected

/-- From a place in a buffer the read takes some bytes.  If it gives a value, it is one that they
delimit, and if it fails, the error is truthful. -/
def CarefulAt (read : Read α) (r : Reader) : Prop :=
  match read.runFrom r with
  | (.ok a, r') => ∃ used, r.Passes used r' ∧ Delimits read used a
  | (.error e, r') => ∃ used, r.Passes used r' ∧ Truthful e r.stop

/-- It does so from anywhere. -/
def Careful (read : Read α) : Prop :=
  ∀ r, read.CarefulAt r

theorem careful_pure : Careful (pure a) :=
  fun _ => ⟨[], .refl, delimits_pure⟩

theorem careful_throw (h : ∀ expected actual, e ≠ .bufferTooShort expected actual) :
    Careful (throw e : Read α) :=
  fun _ => ⟨[], .refl, fun expected actual he => absurd he (h expected actual)⟩

/-- Reads that follow each other. -/
theorem Careful.bind (h : Careful read) (hf : ∀ a, Careful (f a)) : Careful (read >>= f) := by
  intro r
  have hread := h r
  rw [CarefulAt] at hread
  rw [CarefulAt, runFrom_bind]
  rcases hrun : read.runFrom r with ⟨e | a, r'⟩
  · rw [hrun] at hread
    exact hread
  · rw [hrun] at hread
    obtain ⟨used, hpasses, hused⟩ := hread
    have hnext := hf a r'
    rw [CarefulAt] at hnext
    dsimp only
    rcases hrun' : (f a).runFrom r' with ⟨e | b, r''⟩
    · rw [hrun', hpasses.stop_eq] at hnext
      obtain ⟨used', hpasses', htruthful⟩ := hnext
      exact ⟨used ++ used', hpasses.trans hpasses', htruthful⟩
    · rw [hrun'] at hnext
      obtain ⟨used', hpasses', hused'⟩ := hnext
      exact ⟨used ++ used', hpasses.trans hpasses', hused.bind hused'⟩

theorem Careful.map {g : α → β} (h : Careful read) : Careful (do let a ← read; return g a) :=
  h.bind fun _ => careful_pure

/-- Bytes that are looked at are then taken as a whole, or refused for another reason than that some
are missing. -/
theorem careful_peek {n : Nat} {f : Bytes → Read β}
    (hf : ∀ front : Bytes, front.length = n →
      (∃ b, f front = do skip n; return b) ∨
        ∃ e, f front = throw e ∧ ∀ expected actual, e ≠ .bufferTooShort expected actual) :
    Careful (peek n >>= f) := by
  intro r
  have hpeek := runFrom_peek (r := r) (n := n)
  rw [CarefulAt]
  split at hpeek
  · rename_i hmissing
    rw [runFrom_bind_error hpeek]
    refine ⟨[], .refl, fun expected actual he => ?_⟩
    cases he
    rw [List.length_take] at hmissing
    refine ⟨rfl, ?_⟩
    rw [Reader.stop, Reader.remaining]
    omega
  · rename_i hthere
    have hlength : (r.rest.take n).length = n :=
      Nat.le_antisymm (List.length_take_le n r.rest) (Nat.not_lt.1 hthere)
    rw [runFrom_bind_ok hpeek]
    rcases hf _ hlength with ⟨b, hb⟩ | ⟨e, he, hne⟩
    · have hdelimits : Delimits (peek (r.rest.take n).length >>= f) (r.rest.take n) b :=
        delimits_peek (by rwa [hlength])
      have hpasses : r.Passes (r.rest.take n) (r.skip n) := by
        refine ⟨(List.take_append_drop n r.rest).symm, ?_⟩
        rw [hlength]
        rfl
      rw [hlength] at hdelimits
      rw [hb, runFrom_bind_ok runFrom_skip, runFrom_pure]
      exact ⟨r.rest.take n, hpasses, hdelimits⟩
    · rw [he]
      exact careful_throw (α := β) hne r

/-! ### Fields -/

theorem careful_number {width : Nat} : Careful (number width) :=
  (careful_peek fun front _ => .inl ⟨front, rfl⟩ : Careful (take width)).map

theorem careful_byte : Careful byte :=
  careful_number.map

theorem careful_short : Careful short :=
  careful_number.map

theorem careful_medium : Careful medium :=
  careful_number.map

theorem careful_word : Careful word :=
  careful_number.map

theorem careful_signedWord : Careful signedWord :=
  careful_word.map

theorem careful_bool : Careful bool := by
  refine careful_byte.bind fun b => ?_
  split
  · exact careful_pure
  · split
    · exact careful_pure
    · exact careful_throw nofun

/-- The bytes of a text are all there before it turns out whether they are one. -/
theorem careful_string : Careful string := by
  refine careful_number.bind fun size => careful_peek fun front _ => ?_
  cases text? front with
  | some s => exact .inl ⟨s, rfl⟩
  | none => exact .inr ⟨_, rfl, nofun⟩

theorem careful_count : Careful count :=
  careful_string.bind fun _ => careful_word.map

theorem careful_repeated (h : Careful read) (n : Nat) : Careful (repeated n read) := by
  suffices hall : ∀ values, Careful (repeatedFrom read n values) from hall []
  induction n with
  | zero => exact fun values => careful_pure
  | succ n ih =>
    intro values
    rw [repeatedFrom_succ]
    exact h.bind fun value => ih (value :: values)

theorem careful_clock : Careful clock :=
  careful_number.bind fun size => (careful_repeated careful_count size).map

theorem careful_kindFields {tag : KindTag} : Careful (kindFields tag) := by
  cases tag with
  | createAccount => exact careful_string.map
  | deleteAccount => exact careful_string.map
  | transfer =>
    exact careful_string.bind fun _ => careful_string.bind fun _ => careful_signedWord.map

theorem careful_operation : Careful operation := by
  refine careful_byte.bind fun b => ?_
  cases KindTag.ofByte? b with
  | none => exact careful_throw nofun
  | some tag =>
    exact careful_string.bind fun _ => careful_kindFields.bind fun _ => careful_clock.bind fun _ =>
      careful_clock.bind fun _ => careful_bool.map

theorem careful_operations : Careful operations :=
  careful_number.bind fun size => careful_repeated careful_operation size

/-! ### Messages -/

theorem careful_request {kind : MessageKind} : Careful (Request.read kind) := by
  have hwrite : ∀ tag, Careful (Request.readWrite tag) := fun tag =>
    careful_kindFields.bind fun _ => careful_clock.map
  cases kind with
  | createAccount => exact hwrite _
  | deleteAccount => exact hwrite _
  | transferTo => exact hwrite _
  | balance => exact careful_string.bind fun _ => careful_clock.map
  | activate => exact careful_pure
  | deactivate => exact careful_pure
  | dumpLedgerState => exact careful_pure
  | triggerGossip => exact careful_pure
  | pushLedgerSnapshot => exact careful_string.bind fun _ => careful_operations.map
  | _ => exact careful_throw nofun

theorem careful_dump : Careful Response.readDump :=
  careful_string.bind fun _ => careful_bool.bind fun _ => careful_clock.bind fun _ =>
    careful_number.bind fun size => (careful_repeated careful_count size).bind fun _ =>
      careful_operations.map

theorem careful_response {kind : MessageKind} : Careful (Response.read kind) := by
  cases kind with
  | clockReply => exact careful_clock.map
  | balanceReply => exact careful_word.bind fun _ => careful_clock.map
  | ack => exact careful_pure
  | ledgerStateReply => exact careful_dump.map
  | gossipReply =>
    exact careful_medium.bind fun _ => careful_medium.bind fun _ => careful_medium.map
  | errorReply => exact careful_short.bind fun _ => careful_string.map
  | _ => exact careful_throw nofun

end Read

/-! ### Encodings cut short or extended -/

/-- A proper beginning of the bytes is refused for the bytes that are missing, and the bytes with
more behind them for those that are left over. -/
structure Guarded {α : Type} (decode : Bytes → Result α) (bytes : Bytes) : Prop where
  /-- The error for the first `c` bytes tells their number, and asks for no more than all. -/
  short : ∀ c < bytes.length, ∃ expected,
    decode (bytes.take c) = .error (.bufferTooShort expected c) ∧ c < expected ∧
      expected ≤ bytes.length
  /-- The error tells how many bytes are left over. -/
  long : ∀ more, more ≠ [] →
    decode (bytes ++ more) = .error (.invalidWireFormat s!"{more.length} trailing bytes")

namespace Read

variable {α : Type} {read : Read α} {used : Bytes} {a : α} {e : Encoding}

/-- What is read as it was written delimits the value. -/
theorem Careful.delimits (h : Careful read) (hr : Reads read e a) : Delimits read e.written a := by
  have hread := h ⟨e.written, 0⟩
  have hrun := hr [] 0
  rw [List.append_nil] at hrun
  rw [CarefulAt, hrun] at hread
  obtain ⟨used, hpasses, hused⟩ := hread
  have hrest : e.written = used ++ [] := hpasses.rest_eq
  rwa [hrest, List.append_nil]

theorem Careful.guarded (h : Careful read) (hr : Reads read e a) :
    Guarded read.exactly e.written := by
  have hdelimits := h.delimits hr
  constructor
  · intro c hc
    have hmissing : e.written.drop c ≠ [] := by
      rw [← List.length_pos_iff, List.length_drop]
      exact Nat.sub_pos_of_lt hc
    obtain ⟨expected, actual, r, hrun, hle⟩ :=
      hdelimits.short (e.written.take c) _ (List.take_append_drop c _) hmissing 0
    have hread := h ⟨e.written.take c, 0⟩
    rw [CarefulAt, hrun] at hread
    obtain ⟨-, -, htruthful⟩ := hread
    obtain ⟨hactual, hlt⟩ := htruthful _ _ rfl
    have hstop : Reader.stop ⟨e.written.take c, 0⟩ = c := by
      rw [Reader.stop, Reader.remaining, List.length_take, Nat.min_eq_left (Nat.le_of_lt hc),
        Nat.zero_add]
    rw [hstop] at hactual hlt
    rw [hactual] at hrun
    rw [Nat.zero_add] at hle
    exact ⟨expected, by rw [exactly_eq, run, hrun], hlt, hle⟩
  · intro more hmore
    have hleft : more.isEmpty = false := by rwa [List.isEmpty_eq_false_iff]
    rw [exactly_eq, run, hdelimits.complete more 0]
    simp [hleft, Reader.remaining]

end Read

/-- **Bytes that are missing and bytes too many are always noticed**, in the bytes of an operation
and in the body of a frame of either family, wherever the cut is. -/
theorem encodings_guarded :
    (∀ (op : Operation) bytes, op.encode = .ok bytes → Guarded Operation.decode bytes) ∧
      (∀ (request : Request) frame sent, request.toFrame = .ok frame →
        frame.serialize = .ok sent →
          Guarded (fun body => Request.ofFrame ⟨frame.kind, body⟩) frame.body) ∧
      (∀ (response : Response) frame sent, response.toFrame = .ok frame →
        frame.serialize = .ok sent →
          Guarded (fun body => Response.ofFrame ⟨frame.kind, body⟩) frame.body) := by
  refine ⟨?_, ?_, ?_⟩
  · intro op bytes h
    obtain ⟨hcomplete, rfl⟩ := Encoding.result_eq_ok_iff.1 h
    exact Read.careful_operation.guarded (Read.restores_operation hcomplete)
  · intro request frame sent hframe _
    obtain ⟨rfl, hreads⟩ := Request.reads_of_toFrame hframe
    exact Read.careful_request.guarded hreads
  · intro response frame sent hframe hsent
    obtain ⟨rfl, hreads⟩ := Response.reads_of_toFrame hframe hsent
    exact Read.careful_response.guarded hreads

theorem markedDump_guarded :
    (∃ frame sent, markedDump.toFrame = .ok frame ∧ frame.serialize = .ok sent ∧
      Guarded (fun body => Response.ofFrame ⟨frame.kind, body⟩) frame.body) ∧
    (∃ frame sent, markedPush.toFrame = .ok frame ∧ frame.serialize = .ok sent ∧
      Guarded (fun body => Request.ofFrame ⟨frame.kind, body⟩) frame.body) ∧
    ∃ bytes, markedOperation.encode = .ok bytes ∧ bytes.length = 46 ∧
      Guarded Operation.decode bytes := by
  refine ⟨?_, ?_, ?_⟩
  · obtain ⟨frame, sent, hframe, hsent⟩ := exists_serialize_markedDump
    exact ⟨frame, sent, hframe, hsent, encodings_guarded.2.2 markedDump frame sent hframe hsent⟩
  · obtain ⟨frame, sent, hframe, hsent⟩ := exists_serialize_markedPush
    exact ⟨frame, sent, hframe, hsent, encodings_guarded.2.1 markedPush frame sent hframe hsent⟩
  · have hcomplete : (Encoding.operation markedOperation).Complete := rfl
    have hbytes := Encoding.result_eq_ok hcomplete
    refine ⟨_, hbytes, ?_, encodings_guarded.1 markedOperation _ hbytes⟩
    rw [Encoding.takes_operation.length hcomplete]
    decide

end Wire

end GossipLedger
