import GossipLedger.NameMap
import GossipLedger.Text.Quoted

/-!
# Logical clocks

A clock counts, for each replica, how many of its operations have been applied.  A replica without
an entry counts as zero, so a clock is known by its counts (`Clock.get`): entries that store a zero
are kept and transmitted, and `Clock.agrees`, `Clock.dominates` and `Clock.compare` do not see them.

Clocks are ordered count by count (`Clock.dominates`), which is only a partial order: two clocks
may be concurrent.  `Clock.merged` is the join of that order.  `Clock.stamp` is a normal form:
clocks agree if and only if their stamps are equal.

Counts have 64 bits.  `Clock.increment` answers `CounterOverflow` where a count would leave them.
-/

namespace GossipLedger

/-- The name of a replica, which is also its coordinate in every clock. -/
abbrev ReplicaId := String

/-- A vector of counts, one for each replica. -/
structure Clock where
  /-- The counts that are stored; a replica without one counts as zero. -/
  counters : NameMap UInt64
  deriving DecidableEq

/-- A count at its largest value would have to grow. -/
structure CounterOverflow where
  deriving DecidableEq

/-- The text of the failure. -/
def CounterOverflow.message (_ : CounterOverflow) : String :=
  "attempt to add with overflow"

/-- How two clocks stand to each other. -/
inductive ClockOrder where
  /-- The same count for every replica. -/
  | equal
  /-- The second clock has seen all that the first has, and more. -/
  | before
  /-- The first clock has seen all that the second has, and more. -/
  | after
  /-- Each clock has seen something that the other has not. -/
  | concurrent
  deriving DecidableEq

/-- The name of an order. -/
def ClockOrder.name : ClockOrder → String
  | equal => "Equal"
  | before => "Before"
  | after => "After"
  | concurrent => "Concurrent"

namespace Clock

/-! ### Counts -/

/-- The clock without entries. -/
def zero : Clock :=
  ⟨∅⟩

instance : Inhabited Clock :=
  ⟨zero⟩

/-- The clock of a list of counts; of several counts for one replica the last is taken. -/
def ofEntries (l : List (ReplicaId × UInt64)) : Clock :=
  ⟨.ofList l⟩

/-- The stored counts, by replica. -/
def entries (c : Clock) : List (ReplicaId × UInt64) :=
  c.counters.entries

/-- The number of stored counts. -/
def size (c : Clock) : Nat :=
  c.counters.size

/-- The count for a replica. -/
def get (c : Clock) (replica : ReplicaId) : UInt64 :=
  (c.counters.get? replica).getD 0

/-- Whether the count of every replica is zero. -/
def isZero (c : Clock) : Bool :=
  c.counters.values.all (· = 0)

/-- The clock with a given count for a replica. -/
def set (c : Clock) (replica : ReplicaId) (count : UInt64) : Clock :=
  ⟨c.counters.insert replica count⟩

/-- Raises the count of a replica to at least `count`. -/
def advance (c : Clock) (replica : ReplicaId) (count : UInt64) : Clock :=
  c.set replica (max (c.get replica) count)

/-- The largest value of a count. -/
def maxCount : UInt64 :=
  0xFFFFFFFFFFFFFFFF

/-- Adds one to the count of a replica. -/
def increment (c : Clock) (replica : ReplicaId) : Except CounterOverflow Clock :=
  if c.get replica = maxCount then .error {} else .ok (c.set replica (c.get replica + 1))

/-- For every replica the larger of two counts. -/
def merged (a b : Clock) : Clock :=
  ⟨.combine max a.counters b.counters⟩

/-! ### Comparison -/

/-- The count of a replica, if it is the first to have one. -/
def headCount (replica : ReplicaId) : List (ReplicaId × UInt64) → UInt64
  | [] => 0
  | e :: _ => if e.1 = replica then e.2 else 0

/-- Whether no count of the second list exceeds that of its replica in the first.  Both lists are in
the order of the replicas, so one walk along them suffices. -/
def covers : List (ReplicaId × UInt64) → List (ReplicaId × UInt64) → Bool
  | _, [] => true
  | known, e :: rest =>
    let known := known.dropWhile (·.1 < e.1)
    e.2 ≤ headCount e.1 known && covers known rest

/-- Whether the first clock has seen everything that the second has (`dominates_iff`). -/
def dominates (a b : Clock) : Bool :=
  covers a.entries b.entries

/-- Whether two clocks have the same counts. -/
def agrees (a b : Clock) : Bool :=
  a.dominates b && b.dominates a

/-- How the first clock stands to the second. -/
def compare (a b : Clock) : ClockOrder :=
  match b.dominates a, a.dominates b with
  | true, true => .equal
  | true, false => .before
  | false, true => .after
  | false, false => .concurrent

/-- Whether the first clock lies strictly before the second. -/
def precedes (a b : Clock) : Bool :=
  a.compare b = .before

/-- Whether neither clock has seen everything that the other has. -/
def isConcurrent (a b : Clock) : Bool :=
  a.compare b = .concurrent

/-! ### Stamps -/

/-- The counts other than zero, by replica.  Clocks that agree have the same stamp, so a stamp can
stand for its clock in a set. -/
def stamp (c : Clock) : List (ReplicaId × UInt64) :=
  c.entries.filter fun e => e.2 ≠ 0

/-- A set of clocks that holds one of several clocks that agree. -/
structure Pool where
  /-- The stamps of the clocks in the set. -/
  stamps : List (List (ReplicaId × UInt64))

namespace Pool

/-- The set without clocks. -/
def empty : Pool :=
  ⟨[]⟩

/-- The number of clocks in the set. -/
def size (p : Pool) : Nat :=
  p.stamps.length

/-- Whether the set holds a clock that agrees with this one. -/
def contains (p : Pool) (c : Clock) : Bool :=
  p.stamps.contains c.stamp

/-- Adds a clock, and tells whether it was new. -/
def insert (p : Pool) (c : Clock) : Bool × Pool :=
  if p.contains c then (false, p) else (true, ⟨c.stamp :: p.stamps⟩)

/-- The set of a list of clocks. -/
def ofList (cs : List Clock) : Pool :=
  cs.foldl (fun p c => (p.insert c).2) empty

end Pool

/-! ### Texts -/

/-- The text of a clock: its stored counts in braces. -/
def text (c : Clock) : String :=
  "\x7b" ++ ", ".intercalate (c.entries.map fun e => e.1 ++ ":" ++ toString e.2) ++ "\x7d"

instance : ToString Clock :=
  ⟨text⟩

/-- The text of a clock in which the names of the replicas are quoted. -/
def quotedText (c : Clock) : String :=
  "\x7b" ++ ", ".intercalate (c.entries.map fun e => Text.quoted e.1 ++ ": " ++ toString e.2)
    ++ "\x7d"

/-! ### Laws of the counts -/

theorem get_zero {r : ReplicaId} : zero.get r = 0 :=
  rfl

theorem get_set {c : Clock} {r s : ReplicaId} {n : UInt64} :
    (c.set r n).get s = if r = s then n else c.get s := by
  unfold get set
  rw [NameMap.get?_insert]
  split <;> rfl

theorem get_advance {c : Clock} {r s : ReplicaId} {n : UInt64} :
    (c.advance r n).get s = if r = s then max (c.get s) n else c.get s := by
  rw [advance, get_set]
  split
  · rename_i h; rw [h]
  · rfl

theorem max_eq_ite (m n : UInt64) : max m n = if m ≤ n then n else m :=
  rfl

theorem get_merged {a b : Clock} {r : ReplicaId} :
    (a.merged b).get r = max (a.get r) (b.get r) := by
  simp only [get, merged, NameMap.get?_combine]
  cases a.counters.get? r with
  | none => exact (if_pos UInt64.zero_le).symm
  | some m =>
    cases b.counters.get? r with
    | none =>
      simp only [NameMap.join, Option.getD_some, Option.getD_none, max_eq_ite]
      split
      · exact UInt64.le_antisymm ‹_› UInt64.zero_le
      · rfl
    | some n => rfl

/-! ### Laws of the comparison -/

theorem dropWhile_lt_cons {bound : ReplicaId} {e : ReplicaId × UInt64}
    {rest : List (ReplicaId × UInt64)} :
    (e :: rest).dropWhile (·.1 < bound)
      = if e.1 < bound then rest.dropWhile (·.1 < bound) else e :: rest := by
  split
  · exact List.dropWhile_cons_of_pos (decide_eq_true ‹_›)
  · exact List.dropWhile_cons_of_neg (Bool.not_eq_true _ ▸ decide_eq_false ‹_›)

theorem find_dropWhile {name bound : ReplicaId} (h : ¬ name < bound)
    {l : List (ReplicaId × UInt64)} :
    NameMap.find name (l.dropWhile (·.1 < bound)) = NameMap.find name l := by
  induction l with
  | nil => rfl
  | cons e rest ih =>
    rw [dropWhile_lt_cons]
    split
    · rename_i he
      have hne : e.1 ≠ name := fun heq => h (heq ▸ he)
      rw [ih, NameMap.find, if_neg hne]
    · rfl

theorem headCount_dropWhile {name : ReplicaId} {l : List (ReplicaId × UInt64)}
    (hl : l.Pairwise fun a b => a.1 < b.1) :
    headCount name (l.dropWhile (·.1 < name)) = (NameMap.find name l).getD 0 := by
  induction l with
  | nil => rfl
  | cons e rest ih =>
    obtain ⟨hlt, hrest⟩ := List.pairwise_cons.1 hl
    rw [dropWhile_lt_cons, NameMap.find]
    split
    · rename_i he
      have hne : e.1 ≠ name := fun heq => String.lt_irrefl _ (heq ▸ he)
      rw [ih hrest, if_neg hne]
    · rename_i he
      rw [headCount]
      by_cases heq : e.1 = name
      · rw [if_pos heq, if_pos heq]
        rfl
      · have hgt : name < e.1 := by grind
        rw [if_neg heq, if_neg heq,
          NameMap.find_of_lt fun f hf => String.lt_trans hgt (hlt f hf)]
        rfl

theorem covers_iff {known l : List (ReplicaId × UInt64)}
    (hk : known.Pairwise fun a b => a.1 < b.1) (hl : l.Pairwise fun a b => a.1 < b.1) :
    covers known l = true ↔ ∀ e ∈ l, e.2 ≤ (NameMap.find e.1 known).getD 0 := by
  induction l generalizing known with
  | nil => simp [covers]
  | cons e rest ih =>
    obtain ⟨hlt, hrest⟩ := List.pairwise_cons.1 hl
    have hk' : (known.dropWhile (·.1 < e.1)).Pairwise fun a b => a.1 < b.1 :=
      hk.sublist (List.dropWhile_sublist _)
    have hfind : ∀ f ∈ rest, NameMap.find f.1 (known.dropWhile (·.1 < e.1))
        = NameMap.find f.1 known :=
      fun f hf => find_dropWhile (String.lt_asymm (hlt f hf))
    simp only [covers, headCount_dropWhile hk, Bool.and_eq_true, decide_eq_true_eq, ih hk' hrest,
      List.mem_cons, forall_eq_or_imp]
    exact and_congr_right fun _ => forall_congr' fun f => imp_congr_right fun hf => by
      rw [hfind f hf]

/-- A clock has seen everything that another has if it counts as much for each replica for which
the other stores a count. -/
theorem dominates_iff {a b : Clock} :
    a.dominates b = true ↔ ∀ e ∈ b.entries, e.2 ≤ a.get e.1 :=
  covers_iff a.counters.increasing b.counters.increasing

end Clock

end GossipLedger
