import GossipLedger.Wire.Bytes

/-!
# The order of names and of their bytes

Names are ordered by code point, and clocks are written in the order of their names.  This is also
the order of the names' UTF-8 bytes, compared byte by byte (`ofText_lt_ofText_iff`), so it can be
checked on the bytes alone.

The reason is the form of a character's bytes (`Utf8.encodeChar_eq`): the first one is the greater
the more follow, and apart from that the bytes are the digits of the code point to base 64, the
highest one first.
-/

namespace GossipLedger

namespace Wire

namespace Utf8

variable {code m n digits : Nat} {c d : Char}

/-! ### The bytes of a character -/

/-- The number of bytes that continue the sequence of a code point. -/
def followers (code : Nat) : Nat :=
  if code ≤ 0x7F then 0
  else if code ≤ 0x7FF then 1
  else if code ≤ 0xFFFF then 2
  else 3

/-- What is added to the first byte of a sequence, to tell how many bytes follow. -/
def mark : (followers : Nat) → Nat
  | 0 => 0
  | 1 => 0xC0
  | 2 => 0xE0
  | _ => 0xF0

/-- What a digit to base 64 counts, by the number of digits behind it. -/
def weight : Nat → Nat
  | 0 => 1
  | digits + 1 => weight digits * 64

/-- The first byte of the sequence of a code point. -/
def leadByte (code : Nat) : Nat :=
  code / weight (followers code) + mark (followers code)

/-- The last digits of a code point, as bytes that continue a sequence. -/
def digitBytes : (digits code : Nat) → Bytes
  | 0, _ => []
  | digits + 1, code =>
    UInt8.ofNat (code / weight digits % 64 + 0x80) :: digitBytes digits code

theorem code_lt : c.val.toNat < 0x110000 := by
  rcases c.valid with h | h
  · exact Nat.lt_trans h (by decide)
  · exact h.2

theorem followers_cases (code : Nat) :
    (code ≤ 0x7F ∧ followers code = 0) ∨ (0x7F < code ∧ code ≤ 0x7FF ∧ followers code = 1) ∨
      (0x7FF < code ∧ code ≤ 0xFFFF ∧ followers code = 2) ∨
      (0xFFFF < code ∧ followers code = 3) := by
  unfold followers
  grind

theorem encodeChar_eq : String.utf8EncodeChar c =
    UInt8.ofNat (leadByte c.val.toNat) :: digitBytes (followers c.val.toNat) c.val.toNat := by
  have hcode := code_lt (c := c)
  unfold String.utf8EncodeChar leadByte
  generalize c.val.toNat = code at *
  dsimp only
  -- the highest digit needs no remainder, as nothing stands before it
  rcases followers_cases code with ⟨h, hf⟩ | ⟨h, h', hf⟩ | ⟨h, h', hf⟩ | ⟨h, hf⟩
  · rw [if_pos h, hf]
    simp [mark, digitBytes, weight]
  · have hlead : code / 64 % 0x20 = code / 64 := Nat.mod_eq_of_lt (by omega)
    rw [if_neg (Nat.not_le.2 h), if_pos h', hf, hlead]
    simp [mark, digitBytes, weight]
  · have hlead : code / 4096 % 0x10 = code / 4096 := Nat.mod_eq_of_lt (by omega)
    rw [if_neg (by omega), if_neg (Nat.not_le.2 h), if_pos h', hf, hlead]
    simp [mark, digitBytes, weight]
  · have hlead : code / 262144 % 0x08 = code / 262144 := Nat.mod_eq_of_lt (by omega)
    rw [if_neg (by omega), if_neg (by omega), if_neg (Nat.not_le.2 h), hf, hlead]
    simp [mark, digitBytes, weight]

theorem leadByte_lt (h : code < 0x110000) : leadByte code < 256 := by
  rcases followers_cases code with ⟨hc, hf⟩ | ⟨hc, hc', hf⟩ | ⟨hc, hc', hf⟩ | ⟨hc, hf⟩
  all_goals
    simp only [leadByte, hf, mark, weight]
    omega

/-! ### Which of two characters comes first -/

/-- The first byte grows with the code point, unless the bytes that follow decide. -/
theorem leadByte_cases (h : m < n) : leadByte m < leadByte n ∨
    followers m = followers n ∧
      m / weight (followers n) = n / weight (followers n) := by
  by_cases hf : followers m = followers n
  · have hle : m / weight (followers n) ≤ n / weight (followers n) :=
      Nat.div_le_div_right (Nat.le_of_lt h)
    rw [leadByte, leadByte, hf]
    omega
  · -- a longer sequence begins with a greater byte
    left
    rcases followers_cases m with ⟨hm, hfm⟩ | ⟨hm, hm', hfm⟩ | ⟨hm, hm', hfm⟩ | ⟨hm, hfm⟩ <;>
      rcases followers_cases n with ⟨hn, hfn⟩ | ⟨hn, hn', hfn⟩ | ⟨hn, hn', hfn⟩ | ⟨hn, hfn⟩
    all_goals
      rw [hfm, hfn] at hf
      simp only [leadByte, hfm, hfn, mark, weight]
      omega

/-- Where the digits before them are the same, the last digits decide. -/
theorem digitBytes_append_lt (h : m < n) (heq : m / weight digits = n / weight digits)
    (u v : Bytes) : digitBytes digits m ++ u < digitBytes digits n ++ v := by
  induction digits with
  | zero =>
    rw [weight, Nat.div_one, Nat.div_one] at heq
    exact absurd heq (Nat.ne_of_lt h)
  | succ digits ih =>
    rw [weight, ← Nat.div_div_eq_div_mul, ← Nat.div_div_eq_div_mul] at heq
    have hle : m / weight digits ≤ n / weight digits := Nat.div_le_div_right (Nat.le_of_lt h)
    rw [digitBytes, digitBytes, List.cons_append, List.cons_append, List.cons_lt_cons_iff,
      UInt8.lt_iff_toNat_lt, UInt8.toNat_ofNat', UInt8.toNat_ofNat']
    by_cases hdigit : m / weight digits = n / weight digits
    · exact .inr ⟨by rw [hdigit], ih hdigit⟩
    · exact .inl (by omega)

/-- The bytes of two different characters decide, whatever follows them. -/
theorem encodeChar_append_lt (h : c < d) (u v : Bytes) :
    String.utf8EncodeChar c ++ u < String.utf8EncodeChar d ++ v := by
  have hcode : c.val.toNat < d.val.toNat := h
  rw [encodeChar_eq, encodeChar_eq, List.cons_append, List.cons_append, List.cons_lt_cons_iff,
    UInt8.lt_iff_toNat_lt, UInt8.toNat_ofNat_of_lt' (leadByte_lt code_lt),
    UInt8.toNat_ofNat_of_lt' (leadByte_lt code_lt)]
  rcases leadByte_cases hcode with hlt | ⟨hfollowers, hdiv⟩
  · exact .inl hlt
  · refine .inr ⟨by rw [leadByte, leadByte, hfollowers, hdiv], ?_⟩
    rw [hfollowers]
    exact digitBytes_append_lt hcode hdiv u v

theorem flatMap_encodeChar_lt {l k : List Char} (h : l < k) :
    l.flatMap String.utf8EncodeChar < k.flatMap String.utf8EncodeChar := by
  induction l generalizing k with
  | nil =>
    cases k with
    | nil => exact absurd h (List.lt_irrefl _)
    | cons d k =>
      rw [List.flatMap_cons, encodeChar_eq]
      exact List.nil_lt_cons _ _
  | cons c l ih =>
    cases k with
    | nil => exact absurd h (List.not_lt_nil _)
    | cons d k =>
      rw [List.flatMap_cons, List.flatMap_cons]
      rcases List.cons_lt_cons_iff.1 h with hlt | ⟨rfl, hlt⟩
      · exact encodeChar_append_lt hlt _ _
      · exact List.append_left_lt (ih hlt)

end Utf8

/-! ### Texts -/

variable {s t : String}

theorem ofText_eq_flatMap : ofText s = s.toList.flatMap String.utf8EncodeChar := by
  rw [ofText, String.toUTF8_eq_toByteArray, ← String.utf8Encode_toList]
  simp [List.utf8Encode]

theorem ofText_lt_ofText (h : s < t) : ofText s < ofText t := by
  rw [ofText_eq_flatMap, ofText_eq_flatMap]
  exact Utf8.flatMap_encodeChar_lt h

/-- **Texts come in the same order as their bytes.** -/
theorem ofText_lt_ofText_iff : ofText s < ofText t ↔ s < t := by
  refine ⟨fun h => ?_, ofText_lt_ofText⟩
  by_cases heq : s = t
  · rw [heq] at h
    exact absurd h (List.lt_irrefl _)
  · have hgt : ¬ t < s := fun hts => List.lt_asymm h (ofText_lt_ofText hts)
    grind

end Wire

end GossipLedger
