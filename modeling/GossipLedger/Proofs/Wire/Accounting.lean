import GossipLedger.Proofs.Wire.Truncation

/-!
# Reading on after failures

A reader can be asked for one field after another, and goes on from wherever the last read has left
it, even if that read failed half-way.  `Reader.after` is where it stands then.  Each read takes
some of the next bytes and counts them (`Read.Careful.exists_passes`), so the reader never leaves
its buffer, whatever it is asked for (`Reader.StandsIn.after`).

From there each further read keeps the accounts (`Reader.Accounted`).  Most of this holds of every
careful read; that a failure takes nothing holds only of numbers, which are taken as a whole
(`Read.still_number`).
-/

namespace GossipLedger

namespace Wire

/-! ### Fields -/

/-- What can be read from a buffer. -/
inductive Field where
  /-- A byte. -/
  | byte
  /-- A number of 16 bits. -/
  | short
  /-- A number of 32 bits. -/
  | medium
  /-- A number of 64 bits. -/
  | word
  /-- A number of 64 bits with a sign. -/
  | signedWord
  /-- A truth value. -/
  | bool
  /-- A string. -/
  | string
  /-- A clock. -/
  | clock
  /-- An operation. -/
  | operation
  /-- A list of operations. -/
  | operations
  deriving DecidableEq

namespace Field

/-- The values of a field. -/
def Value : Field → Type
  | byte => UInt8
  | short => UInt16
  | medium => UInt32
  | word => UInt64
  | signedWord => Int64
  | bool => Bool
  | string => String
  | clock => Clock
  | operation => Operation
  | operations => List Operation

/-- Reads a field. -/
def read : (field : Field) → Read field.Value
  | byte => Read.byte
  | short => Read.short
  | medium => Read.medium
  | word => Read.word
  | signedWord => Read.signedWord
  | bool => Read.bool
  | string => Read.string
  | clock => Read.clock
  | operation => Read.operation
  | operations => Read.operations

/-- Whether a field is a number. -/
def isNumber : Field → Bool
  | byte | short | medium | word | signedWord => true
  | bool | string | clock | operation | operations => false

theorem careful_read (field : Field) : field.read.Careful := by
  cases field with
  | byte => exact Read.careful_byte
  | short => exact Read.careful_short
  | medium => exact Read.careful_medium
  | word => exact Read.careful_word
  | signedWord => exact Read.careful_signedWord
  | bool => exact Read.careful_bool
  | string => exact Read.careful_string
  | clock => exact Read.careful_clock
  | operation => exact Read.careful_operation
  | operations => exact Read.careful_operations

end Field

/-! ### Reads of numbers -/

namespace Read

variable {α β : Type} {read : Read α} {r r' : Reader} {e : LedgerError} {a : α}

/-- A read that fails leaves the reader where it is. -/
def Still (read : Read α) : Prop :=
  ∀ r r' e, read.runFrom r = (.error e, r') → r' = r

theorem Still.map {g : α → β} (h : Still read) : Still (do let a ← read; return g a) := by
  intro r r' e hrun
  rcases hread : read.runFrom r with ⟨e' | a, r''⟩
  · rw [runFrom_bind_error hread] at hrun
    cases hrun
    exact h _ _ _ hread
  · rw [runFrom_bind_ok hread, runFrom_pure] at hrun
    cases hrun

/-- The bytes of a number are all looked at before one of them is taken. -/
theorem still_number {width : Nat} : Still (number width) := by
  suffices htake : Still (take width) from htake.map
  intro r r' e hrun
  have hpeek := runFrom_peek (r := r) (n := width)
  split at hpeek
  · rw [take, runFrom_bind_error hpeek] at hrun
    cases hrun
    rfl
  · rw [take, runFrom_bind_ok hpeek, runFrom_bind_ok runFrom_skip, runFrom_pure] at hrun
    cases hrun

/-! ### Careful reads -/

/-- A careful read takes some of the next bytes, whether it succeeds or not. -/
theorem Careful.exists_passes (h : Careful read) (r : Reader) :
    ∃ used, r.Passes used (read.runFrom r).2 := by
  have hread := h r
  rw [CarefulAt] at hread
  split at hread
  · rename_i hrun
    rw [hrun]
    exact hread.imp fun _ => And.left
  · rename_i hrun
    rw [hrun]
    exact hread.imp fun _ => And.left

theorem Careful.delimits_of_ok (h : Careful read) (hrun : read.runFrom r = (.ok a, r')) :
    ∃ used, r.Passes used r' ∧ Delimits read used a := by
  have hread := h r
  rwa [CarefulAt, hrun] at hread

theorem Careful.truthful_of_error (h : Careful read) (hrun : read.runFrom r = (.error e, r')) :
    Truthful e r.stop := by
  have hread := h r
  rw [CarefulAt, hrun] at hread
  obtain ⟨_, -, htruthful⟩ := hread
  exact htruthful

/-- The bytes that a read needs for a value are enough for it. -/
theorem Delimits.exactly {used : Bytes} (h : Delimits read used a) : read.exactly used = .ok a := by
  have hrun := h.complete [] 0
  rw [List.append_nil] at hrun
  rw [exactly_eq, run, hrun]
  rfl

end Read

theorem Field.still_read {field : Field} (h : field.isNumber = true) : field.read.Still := by
  cases field with
  | byte => exact Read.still_number.map
  | short => exact Read.still_number.map
  | medium => exact Read.still_number.map
  | word => exact Read.still_number.map
  | signedWord => exact Read.still_number.map.map
  | _ => cases h

/-! ### Sequences of reads -/

namespace Reader

variable {r r' : Reader} {buffer used : Bytes} {fields : List Field}

/-- The reader after fields have been read, or have failed to be, one after another. -/
def after (r : Reader) (fields : List Field) : Reader :=
  fields.foldl (fun r field => (field.read.runFrom r).2) r

/-- The reader stands in a buffer, behind the bytes that it has counted. -/
structure StandsIn (r : Reader) (buffer : Bytes) : Prop where
  /-- What is still to be read is the rest of the buffer. -/
  rest_eq : r.rest = buffer.drop r.consumed
  /-- What has been read and what is still to be read make up the buffer. -/
  total : r.consumed + r.remaining = buffer.length

theorem Passes.standsIn (h : r.Passes used r') (hr : r.StandsIn buffer) : r'.StandsIn buffer where
  rest_eq := by
    rw [h.consumed_eq, ← List.drop_drop, ← hr.rest_eq, h.rest_eq, List.drop_left]
  total := h.stop_eq.trans hr.total

/-- The bytes that are taken are those between the two places. -/
theorem Passes.extract_eq (h : r.Passes used r') (hr : r.StandsIn buffer) :
    buffer.extract r.consumed r'.consumed = used := by
  rw [List.extract_eq_take_drop, ← hr.rest_eq, h.rest_eq, h.consumed_eq, Nat.add_sub_cancel_left,
    List.take_left]

/-- No read takes a reader out of its buffer. -/
theorem StandsIn.after (h : r.StandsIn buffer) (fields : List Field) :
    (r.after fields).StandsIn buffer := by
  induction fields generalizing r with
  | nil => exact h
  | cons field fields ih =>
    obtain ⟨used, hpasses⟩ := field.careful_read.exists_passes r
    exact ih (hpasses.standsIn h)

/-- What the next read of a field does to a reader of a buffer. -/
structure Accounted (buffer : Bytes) (r : Reader) (field : Field) : Prop where
  /-- What has been read and what is still to be read make up the buffer. -/
  total : r.consumed + r.remaining = buffer.length
  /-- No byte is given back. -/
  forward : r.consumed ≤ (field.read.runFrom r).2.consumed
  /-- They still do after the read. -/
  total_after : (field.read.runFrom r).2.consumed + (field.read.runFrom r).2.remaining =
    buffer.length
  /-- A number that cannot be read takes nothing. -/
  still : field.isNumber = true → ∀ r' e, field.read.runFrom r = (.error e, r') → r' = r
  /-- A value depends on just the bytes that were taken for it: alone they give it and nothing is
  left, what follows them does not matter, and less of them is not enough. -/
  value : ∀ a r', field.read.runFrom r = (.ok a, r') →
    field.read.exactly (buffer.extract r.consumed r'.consumed) = .ok a ∧
      field.read.Delimits (buffer.extract r.consumed r'.consumed) a
  /-- An error for missing bytes tells how many there are in all, and that this is too few. -/
  missing : ∀ expected actual r',
    field.read.runFrom r = (.error (.bufferTooShort expected actual), r') →
      actual = buffer.length ∧ buffer.length < expected

theorem StandsIn.accounted (h : r.StandsIn buffer) (field : Field) : Accounted buffer r field := by
  obtain ⟨used, hpasses⟩ := field.careful_read.exists_passes r
  refine ⟨h.total, ?_, (hpasses.standsIn h).total, ?_, ?_, ?_⟩
  · rw [hpasses.consumed_eq]
    exact Nat.le_add_right _ _
  · exact fun hnumber => Field.still_read hnumber r
  · intro a r' hrun
    obtain ⟨used, hpasses, hused⟩ := field.careful_read.delimits_of_ok hrun
    rw [hpasses.extract_eq h]
    exact ⟨hused.exactly, hused⟩
  · intro expected actual r' hrun
    have htruthful := field.careful_read.truthful_of_error hrun expected actual rfl
    rwa [Reader.stop, h.total] at htruthful

/-- **A reader keeps its accounts whatever it is asked for.**  Any fields may have been asked for
before, and any of those reads may have failed. -/
theorem after_accounted (buffer : Bytes) (before : List Field) (field : Field) :
    Accounted buffer (after { rest := buffer } before) field := by
  have hstart : StandsIn { rest := buffer } buffer := ⟨rfl, Nat.zero_add _⟩
  exact (hstart.after before).accounted field

-- a string that is cut short has taken its length, and the next read goes on behind it
example :
    let r := after { rest := [5, 0, 97, 98] } [.string, .medium]
    (r, r.remaining, (Read.short.runFrom r).1) = (⟨[97, 98], 2⟩, 2, .ok 25185) := by
  decide +kernel

end Reader

end Wire

end GossipLedger
