/-!
# Maps keyed by names

A finite map from names to values is kept as the list of its pairs in strictly increasing order of
the names (by code point, which is also the order of the names' UTF-8 bytes).  Each content has one
such list, so two maps with the same look-ups are equal (`NameMap.ext_get?`), and the list is at
once the order in which the content is shown and transmitted.

`NameMap.insert`, `NameMap.erase`, `NameMap.combine` and `NameMap.ofList` are described by what
they do to `NameMap.get?`.
-/

namespace GossipLedger

/-- A finite map from names to values. -/
structure NameMap (β : Type) where
  /-- The pairs of the map, by name. -/
  entries : List (String × β)
  /-- The names increase strictly, so that each occurs once. -/
  increasing : entries.Pairwise fun a b => a.1 < b.1
  deriving DecidableEq

namespace NameMap

variable {β : Type}

/-! ### Look-up -/

/-- The value that the first pair with this name carries. -/
def find (name : String) : List (String × β) → Option β
  | [] => none
  | e :: rest => if e.1 = name then some e.2 else find name rest

/-- The value stored under a name. -/
def get? (m : NameMap β) (name : String) : Option β :=
  find name m.entries

/-- Whether a name has a value. -/
def contains (m : NameMap β) (name : String) : Bool :=
  (m.get? name).isSome

/-- The number of names that have a value. -/
def size (m : NameMap β) : Nat :=
  m.entries.length

/-- The names that have a value, in increasing order. -/
def names (m : NameMap β) : List String :=
  m.entries.map Prod.fst

/-- The values, in the order of their names. -/
def values (m : NameMap β) : List β :=
  m.entries.map Prod.snd

theorem find_head (e : String × β) (rest : List (String × β)) :
    find e.1 (e :: rest) = some e.2 := by
  simp [find]

theorem find_append {name : String} {l₁ l₂ : List (String × β)} :
    find name (l₁ ++ l₂) = (find name l₁).or (find name l₂) := by
  induction l₁ with
  | nil => rfl
  | cons e rest ih => by_cases h : e.1 = name <;> simp [find, h, ih]

theorem find_eq_none {name : String} {l : List (String × β)} :
    find name l = none ↔ ∀ e ∈ l, e.1 ≠ name := by
  induction l with
  | nil => simp [find]
  | cons e rest ih => by_cases h : e.1 = name <;> simp [find, h, ih]

theorem find_eq_some {l : List (String × β)} (hl : l.Pairwise fun a b => a.1 < b.1)
    {name : String} {v : β} : find name l = some v ↔ (name, v) ∈ l := by
  induction l with
  | nil => simp [find]
  | cons e rest ih =>
    obtain ⟨hlt, hrest⟩ := List.pairwise_cons.1 hl
    by_cases h : e.1 = name
    · have : (name, v) ∉ rest := fun hm => String.lt_irrefl _ (h ▸ hlt _ hm)
      simp only [find, h, if_true, Option.some.injEq, List.mem_cons, this, or_false]
      constructor
      · rintro rfl; rw [← h]
      · intro he; rw [← he]
    · have : (name, v) ≠ e := fun he => h (by rw [← he])
      simp [find, h, ih hrest, this]

theorem find_of_lt {name : String} {l : List (String × β)} (h : ∀ e ∈ l, name < e.1) :
    find name l = none :=
  find_eq_none.2 fun e he heq => String.lt_irrefl _ (heq ▸ h e he)

theorem mem_entries_iff {m : NameMap β} {name : String} {v : β} :
    (name, v) ∈ m.entries ↔ m.get? name = some v :=
  (find_eq_some m.increasing).symm

/-! ### Extensionality -/

theorem eq_of_find {l₁ l₂ : List (String × β)} (h₁ : l₁.Pairwise fun a b => a.1 < b.1)
    (h₂ : l₂.Pairwise fun a b => a.1 < b.1) (h : ∀ name, find name l₁ = find name l₂) :
    l₁ = l₂ := by
  induction l₁ generalizing l₂ with
  | nil =>
    cases l₂ with
    | nil => rfl
    | cons e rest => have := h e.1; simp [find] at this
  | cons e rest ih =>
    obtain ⟨hlt, hrest⟩ := List.pairwise_cons.1 h₁
    cases l₂ with
    | nil => have := h e.1; simp [find] at this
    | cons e' rest' =>
      obtain ⟨hlt', hrest'⟩ := List.pairwise_cons.1 h₂
      have heq : e = e' := by
        have he : e ∈ e' :: rest' := (find_eq_some h₂).1 ((h e.1).symm.trans (find_head e rest))
        have he' : e' ∈ e :: rest := (find_eq_some h₁).1 ((h e'.1).trans (find_head e' rest'))
        rcases List.mem_cons.1 he with he | he
        · exact he
        · rcases List.mem_cons.1 he' with he' | he'
          · exact he'.symm
          · exact absurd (hlt _ he') (String.lt_asymm (hlt' _ he))
      subst heq
      rw [ih hrest hrest' fun name => ?_]
      by_cases hn : e.1 = name
      · rw [find_of_lt fun f hf => hn ▸ hlt f hf, find_of_lt fun f hf => hn ▸ hlt' f hf]
      · simpa [find, hn] using h name

/-- Two maps with the same look-ups are equal. -/
theorem ext_get? {m₁ m₂ : NameMap β} (h : ∀ name, m₁.get? name = m₂.get? name) : m₁ = m₂ := by
  obtain ⟨l₁, h₁⟩ := m₁
  obtain ⟨l₂, h₂⟩ := m₂
  obtain rfl : l₁ = l₂ := eq_of_find h₁ h₂ h
  rfl

/-! ### Insertion and removal -/

/-- The map without names. -/
def empty : NameMap β :=
  ⟨[], .nil⟩

instance : EmptyCollection (NameMap β) :=
  ⟨empty⟩

instance : Inhabited (NameMap β) :=
  ⟨∅⟩

/-- Puts a pair into a list that is ordered by name, in the place of a pair with its name. -/
def place (e : String × β) : List (String × β) → List (String × β)
  | [] => [e]
  | f :: rest =>
    if f.1 < e.1 then f :: place e rest
    else if f.1 = e.1 then e :: rest
    else e :: f :: rest

theorem mem_place {e f : String × β} {l : List (String × β)} (h : f ∈ place e l) :
    f = e ∨ f ∈ l := by
  induction l with
  | nil => simpa [place] using h
  | cons g rest ih =>
    unfold place at h
    split at h
    · rcases List.mem_cons.1 h with h | h
      · exact .inr (h ▸ List.mem_cons_self)
      · exact (ih h).imp_right (List.mem_cons_of_mem _)
    · split at h <;> grind

theorem pairwise_place {e : String × β} {l : List (String × β)}
    (hl : l.Pairwise fun a b => a.1 < b.1) : (place e l).Pairwise fun a b => a.1 < b.1 := by
  induction l with
  | nil => simp [place]
  | cons g rest ih =>
    obtain ⟨hlt, hrest⟩ := List.pairwise_cons.1 hl
    unfold place
    split
    · refine List.pairwise_cons.2 ⟨fun f hf => ?_, ih hrest⟩
      rcases mem_place hf with rfl | hf
      · assumption
      · exact hlt f hf
    · split
      · rename_i heq
        exact List.pairwise_cons.2 ⟨fun f hf => heq ▸ hlt f hf, hrest⟩
      · have : e.1 < g.1 := by grind
        refine List.pairwise_cons.2 ⟨fun f hf => ?_, hl⟩
        rcases List.mem_cons.1 hf with rfl | hf
        · exact this
        · exact String.lt_trans this (hlt f hf)

theorem find_place {name : String} {e : String × β} {l : List (String × β)}
    (hl : l.Pairwise fun a b => a.1 < b.1) :
    find name (place e l) = if e.1 = name then some e.2 else find name l := by
  induction l with
  | nil => rfl
  | cons g rest ih =>
    obtain ⟨hlt, hrest⟩ := List.pairwise_cons.1 hl
    unfold place
    split
    · rename_i hge
      by_cases h : g.1 = name
      · have : e.1 ≠ name := fun he => String.lt_irrefl _ (he ▸ h ▸ hge)
        simp [find, h, this]
      · simp [find, h, ih hrest]
    · split
      · rename_i heq
        by_cases h : e.1 = name <;> simp [find, heq, h]
      · rfl

/-- The map with a value stored under a name, in place of an earlier one. -/
def insert (m : NameMap β) (name : String) (value : β) : NameMap β :=
  ⟨place (name, value) m.entries, pairwise_place m.increasing⟩

/-- The map without a value under a name. -/
def erase (m : NameMap β) (name : String) : NameMap β :=
  ⟨m.entries.filter fun e => e.1 ≠ name, m.increasing.sublist List.filter_sublist⟩

@[simp]
theorem get?_empty {name : String} : (∅ : NameMap β).get? name = none :=
  rfl

theorem get?_insert {m : NameMap β} {name other : String} {value : β} :
    (m.insert name value).get? other = if name = other then some value else m.get? other :=
  find_place m.increasing

theorem get?_erase {m : NameMap β} {name other : String} :
    (m.erase name).get? other = if name = other then none else m.get? other := by
  simp only [get?, erase]
  induction m.entries with
  | nil => simp [find]
  | cons e rest ih => grind [find]

/-! ### Two maps in one -/

/-- A pair and the pairs after it, merged with a second list; `rest` merges the pairs after it. -/
def mergePair (f : β → β → β) (e : String × β) (after : List (String × β))
    (rest : List (String × β) → List (String × β)) : List (String × β) → List (String × β)
  | [] => e :: after
  | g :: ys =>
    if e.1 < g.1 then e :: rest (g :: ys)
    else if e.1 = g.1 then (e.1, f e.2 g.2) :: rest ys
    else g :: mergePair f e after rest ys

/-- Merges two lists that are ordered by name; `f` joins the values of a name that both have. -/
def merge (f : β → β → β) : List (String × β) → List (String × β) → List (String × β)
  | [], ys => ys
  | e :: xs, ys => mergePair f e xs (merge f xs) ys

theorem merge_nil_right {f : β → β → β} {xs : List (String × β)} : merge f xs [] = xs := by
  cases xs <;> rfl

theorem merge_cons_cons {f : β → β → β} {e g : String × β} {xs ys : List (String × β)} :
    merge f (e :: xs) (g :: ys) =
      if e.1 < g.1 then e :: merge f xs (g :: ys)
      else if e.1 = g.1 then (e.1, f e.2 g.2) :: merge f xs ys
      else g :: merge f (e :: xs) ys :=
  rfl

theorem name_mem_merge {f : β → β → β} {a : String × β} {xs ys : List (String × β)}
    (h : a ∈ merge f xs ys) : ∃ b ∈ xs ++ ys, b.1 = a.1 := by
  induction xs generalizing ys with
  | nil => exact ⟨a, by simpa [merge] using h, rfl⟩
  | cons e xs ihx =>
    induction ys with
    | nil => exact ⟨a, by simpa [merge, mergePair] using h, rfl⟩
    | cons g ys ihy =>
      rw [merge_cons_cons] at h
      split at h
      · rcases List.mem_cons.1 h with rfl | h
        · exact ⟨_, by simp, rfl⟩
        · obtain ⟨b, hb, hba⟩ := ihx h
          exact ⟨b, by simp at hb ⊢; grind, hba⟩
      · split at h
        · rcases List.mem_cons.1 h with rfl | h
          · exact ⟨e, by simp, rfl⟩
          · obtain ⟨b, hb, hba⟩ := ihx h
            exact ⟨b, by simp at hb ⊢; grind, hba⟩
        · rcases List.mem_cons.1 h with rfl | h
          · exact ⟨_, by simp, rfl⟩
          · obtain ⟨b, hb, hba⟩ := ihy h
            exact ⟨b, by simp at hb ⊢; grind, hba⟩

theorem lt_of_mem_merge {f : β → β → β} {name : String} {xs ys : List (String × β)}
    (hx : ∀ e ∈ xs, name < e.1) (hy : ∀ e ∈ ys, name < e.1) :
    ∀ e ∈ merge f xs ys, name < e.1 := by
  intro e he
  obtain ⟨b, hb, hbe⟩ := name_mem_merge he
  rcases List.mem_append.1 hb with hb | hb
  · exact hbe ▸ hx b hb
  · exact hbe ▸ hy b hb

theorem pairwise_merge {f : β → β → β} {xs ys : List (String × β)}
    (hx : xs.Pairwise fun a b => a.1 < b.1) (hy : ys.Pairwise fun a b => a.1 < b.1) :
    (merge f xs ys).Pairwise fun a b => a.1 < b.1 := by
  induction xs generalizing ys with
  | nil => simpa [merge] using hy
  | cons e xs ihx =>
    obtain ⟨hex, hxs⟩ := List.pairwise_cons.1 hx
    induction ys with
    | nil => simpa [merge, mergePair] using hx
    | cons g ys ihy =>
      obtain ⟨hgy, hys⟩ := List.pairwise_cons.1 hy
      rw [merge_cons_cons]
      split
      · rename_i hlt
        refine List.pairwise_cons.2 ⟨lt_of_mem_merge hex fun b hb => ?_, ihx hxs hy⟩
        rcases List.mem_cons.1 hb with rfl | hb
        · exact hlt
        · exact String.lt_trans hlt (hgy b hb)
      · split
        · rename_i heq
          exact List.pairwise_cons.2
            ⟨lt_of_mem_merge hex fun b hb => heq ▸ hgy b hb, ihx hxs hys⟩
        · have hlt : g.1 < e.1 := by grind
          refine List.pairwise_cons.2 ⟨lt_of_mem_merge (fun b hb => ?_) hgy, ihy hys⟩
          rcases List.mem_cons.1 hb with rfl | hb
          · exact hlt
          · exact String.lt_trans hlt (hex b hb)

/-- Joins the values that two maps hold under one name. -/
def join (f : β → β → β) : Option β → Option β → Option β
  | some a, some b => some (f a b)
  | some a, none => some a
  | none, b => b

theorem find_merge {f : β → β → β} {name : String} {xs ys : List (String × β)}
    (hx : xs.Pairwise fun a b => a.1 < b.1) (hy : ys.Pairwise fun a b => a.1 < b.1) :
    find name (merge f xs ys) = join f (find name xs) (find name ys) := by
  induction xs generalizing ys with
  | nil => simp [merge, find, join]
  | cons e xs ihx =>
    obtain ⟨hex, hxs⟩ := List.pairwise_cons.1 hx
    induction ys with
    | nil =>
      rw [merge_nil_right]
      cases find name (e :: xs) <;> rfl
    | cons g ys ihy =>
      obtain ⟨hgy, hys⟩ := List.pairwise_cons.1 hy
      rw [merge_cons_cons]
      split
      · rename_i hlt
        by_cases h : e.1 = name
        · have : find name (g :: ys) = none := find_of_lt fun b hb => by
            rcases List.mem_cons.1 hb with rfl | hb
            · exact h ▸ hlt
            · exact h ▸ String.lt_trans hlt (hgy b hb)
          simp [find, h] at this ⊢
          simp [this, join]
        · have he : ∀ l : List (String × β), find name (e :: l) = find name l := by
            intro l; simp [find, h]
          rw [he, he, ihx hxs hy]
      · split
        · rename_i heq
          by_cases h : e.1 = name
          · simp [find, h, heq ▸ h, join]
          · simp [find, h, heq ▸ h, ihx hxs hys]
        · have hlt : g.1 < e.1 := by grind
          by_cases h : g.1 = name
          · have : find name (e :: xs) = none := find_of_lt fun b hb => by
              rcases List.mem_cons.1 hb with rfl | hb
              · exact h ▸ hlt
              · exact h ▸ String.lt_trans hlt (hex b hb)
            rw [this]
            simp [find, h, join]
          · have he : ∀ l : List (String × β), find name (g :: l) = find name l := by
              intro l; simp [find, h]
            rw [he, he, ihy hys]

/-- The names of both maps; `f` joins the two values of a name that both have. -/
def combine (f : β → β → β) (m₁ m₂ : NameMap β) : NameMap β :=
  ⟨merge f m₁.entries m₂.entries, pairwise_merge m₁.increasing m₂.increasing⟩

theorem get?_combine {f : β → β → β} {m₁ m₂ : NameMap β} {name : String} :
    (combine f m₁ m₂).get? name = join f (m₁.get? name) (m₂.get? name) :=
  find_merge m₁.increasing m₂.increasing

/-! ### From a list of pairs -/

/-- The first map overlaid by the second, whose values win. -/
def overlay (m₁ m₂ : NameMap β) : NameMap β :=
  combine (fun _ new => new) m₁ m₂

theorem get?_overlay {m₁ m₂ : NameMap β} {name : String} :
    (overlay m₁ m₂).get? name = (m₂.get? name).or (m₁.get? name) := by
  rw [overlay, get?_combine]
  cases m₁.get? name <;> cases m₂.get? name <;> rfl

/-- Overlays the maps of a list two by two, which halves their number. -/
def overlayPairs : List (NameMap β) → List (NameMap β)
  | m₁ :: m₂ :: rest => overlay m₁ m₂ :: overlayPairs rest
  | ms => ms

/-- Overlays the maps of a list in their order, in `rounds` rounds of neighbours and then one by
one.  The number of rounds changes the work and not the result (`get?_overlayAll`). -/
def overlayAll : (rounds : Nat) → List (NameMap β) → NameMap β
  | 0, ms => ms.foldl overlay ∅
  | n + 1, ms => overlayAll n (overlayPairs ms)

/-- The map with one name. -/
def singleton (e : String × β) : NameMap β :=
  ⟨[e], List.pairwise_singleton _ _⟩

/-- The map of a list of pairs; of several pairs with one name the last counts. -/
def ofList (l : List (String × β)) : NameMap β :=
  overlayAll (l.length.log2 + 1) (l.map singleton)

/-- The value of the last map in a list that has the name. -/
def findLast (name : String) (ms : List (NameMap β)) : Option β :=
  ms.foldl (fun found m => (m.get? name).or found) none

theorem foldl_or {name : String} {ms : List (NameMap β)} {found : Option β} :
    ms.foldl (fun found m => (m.get? name).or found) found = (findLast name ms).or found := by
  induction ms generalizing found with
  | nil => simp [findLast]
  | cons m ms ih =>
    simp only [List.foldl_cons, findLast]
    rw [ih, @ih ((m.get? name).or none)]
    simp [Option.or_assoc]

theorem findLast_cons {name : String} {m : NameMap β} {ms : List (NameMap β)} :
    findLast name (m :: ms) = (findLast name ms).or (m.get? name) := by
  rw [findLast, List.foldl_cons, foldl_or, Option.or_none]

theorem get?_foldl_overlay {name : String} {ms : List (NameMap β)} {m : NameMap β} :
    (ms.foldl overlay m).get? name = (findLast name ms).or (m.get? name) := by
  induction ms generalizing m with
  | nil => simp [findLast]
  | cons m' ms ih => rw [List.foldl_cons, ih, get?_overlay, findLast_cons, Option.or_assoc]

theorem findLast_overlayPairs {name : String} {ms : List (NameMap β)} :
    findLast name (overlayPairs ms) = findLast name ms := by
  fun_induction overlayPairs ms with
  | case1 m₁ m₂ rest ih =>
    rw [findLast_cons, findLast_cons, findLast_cons, ih, get?_overlay, Option.or_assoc]
  | case2 => rfl

theorem get?_overlayAll {name : String} {rounds : Nat} {ms : List (NameMap β)} :
    (overlayAll rounds ms).get? name = findLast name ms := by
  induction rounds generalizing ms with
  | zero => rw [overlayAll, get?_foldl_overlay, get?_empty, Option.or_none]
  | succ n ih => rw [overlayAll, ih, findLast_overlayPairs]

/-- The last pair of a name gives its value. -/
theorem get?_ofList {name : String} {l : List (String × β)} :
    (ofList l).get? name = find name l.reverse := by
  rw [ofList, get?_overlayAll]
  induction l with
  | nil => rfl
  | cons e l ih =>
    rw [List.map_cons, findLast_cons, ih, List.reverse_cons, find_append]
    rfl

theorem find_reverse {name : String} {l : List (String × β)}
    (hl : l.Pairwise fun a b => a.1 < b.1) : find name l.reverse = find name l := by
  induction l with
  | nil => rfl
  | cons e l ih =>
    obtain ⟨hlt, hl⟩ := List.pairwise_cons.1 hl
    rw [List.reverse_cons, find_append, ih hl]
    by_cases h : e.1 = name
    · rw [find_of_lt fun f hf => h ▸ hlt f hf]
      simp [find, h]
    · simp [find, h]

theorem ofList_entries (m : NameMap β) : ofList m.entries = m :=
  ext_get? fun _ => get?_ofList.trans (find_reverse m.increasing)

end NameMap

end GossipLedger
