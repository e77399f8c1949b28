import GossipLedger.Service.Registry
import Mathlib.Data.List.Induction
import Mathlib.Data.List.Perm.Basic

/-!
# What a registry records

A registry is known by the calls that have been made of it.  A registration *stands* until another
call about the same address of the same service (`Registry.standing`); whether that call registers
the address again or takes it out, nothing is left of the earlier one.  What a registry answers can
be told from the registrations that stand (`Registry.run_records`): a look-up lists those under the
service, in the order in which they were made, and the size of the registry is the number of all.

The registry itself keeps the offers of each service apart and forgets a service that has none
(`Registry.Tidy`).
-/

namespace GossipLedger

namespace Registry

/-! ### Calls -/

/-- A call that changes a registry. -/
inductive Call where
  /-- A process offers a service. -/
  | register (service address qualifier : String)
  /-- It does so no longer. -/
  | unregister (service address : String)
  deriving DecidableEq

/-- An offer together with the service for which it is made. -/
structure Registration where
  /-- The name of the service. -/
  service : String
  /-- The offer. -/
  offer : Offer
  deriving DecidableEq

/-- The service and the address that a registration is about. -/
def Registration.subject (x : Registration) : String × String :=
  (x.service, x.offer.address)

namespace Call

/-- The service and the address that a call is about. -/
def subject : Call → String × String
  | register service address _ => (service, address)
  | unregister service address => (service, address)

/-- The registration that a call makes. -/
def registration? : Call → Option Registration
  | register service address qualifier => some ⟨service, ⟨address, qualifier⟩⟩
  | unregister .. => none

end Call

/-- What a call does to a registry. -/
def call (r : Registry) : Call → Registry
  | .register service address qualifier => r.register service address qualifier
  | .unregister service address => r.unregister service address

/-- What a list of calls does to a registry. -/
def run (r : Registry) (calls : List Call) : Registry :=
  calls.foldl call r

/-- The registrations that stand after some calls, in the order in which they were made: those whose
address no later call about the service names. -/
def standing : List Call → List Registration
  | [] => []
  | c :: later =>
    if ∃ c' ∈ later, c'.subject = c.subject then standing later
    else c.registration?.toList ++ standing later

/-- The offers among some registrations that are made for a service. -/
def offersFor (service : String) (l : List Registration) : List Offer :=
  (l.filter (·.service = service)).map (·.offer)

variable {r : Registry} {c : Call} {calls : List Call} {x : Registration}
  {service address qualifier : String} {l l' : List Registration}

/-! ### Registrations that stand -/

theorem subject_of_registration? (h : c.registration? = some x) : x.subject = c.subject := by
  cases c <;> cases h
  rfl

/-- One more call ends the registration that it is about, and may make a new one. -/
theorem standing_concat : standing (calls ++ [c]) =
    (standing calls).filter (·.subject ≠ c.subject) ++ c.registration?.toList := by
  induction calls with
  | nil => simp [standing]
  | cons d later ih =>
    have hmade : d.registration?.toList.filter (·.subject ≠ c.subject) =
        if c.subject = d.subject then [] else d.registration?.toList := by
      cases hd : d.registration? with
      | none => simp
      | some x =>
        have hx : x.subject = d.subject := subject_of_registration? hd
        by_cases h : c.subject = d.subject
        · simp [hx, h]
        · simp [hx, h, Ne.symm h]
    rw [List.cons_append, standing, standing, ih]
    by_cases hlater : ∃ c' ∈ later, c'.subject = d.subject
    · obtain ⟨c', hc', hsubject⟩ := hlater
      rw [if_pos ⟨c', List.mem_append_left _ hc', hsubject⟩, if_pos ⟨c', hc', hsubject⟩]
    · rw [if_neg hlater, List.filter_append, hmade, List.append_assoc]
      by_cases hc : c.subject = d.subject
      · rw [if_pos ⟨c, by simp, hc⟩, if_pos hc, List.nil_append]
      · have hnone : ¬ ∃ c' ∈ later ++ [c], c'.subject = d.subject := by
          rintro ⟨c', hc', hsubject⟩
          rcases List.mem_append.1 hc' with hc' | hc'
          · exact hlater ⟨c', hc', hsubject⟩
          · exact hc (List.mem_singleton.1 hc' ▸ hsubject)
        rw [if_neg hnone, if_neg hc]

/-- A registration stands if a call has made it and no later one is about its address. -/
theorem mem_standing_iff : x ∈ standing calls ↔ ∃ before c after, calls = before ++ c :: after ∧
    c.registration? = some x ∧ ∀ c' ∈ after, c'.subject ≠ x.subject := by
  induction calls using List.reverseRecOn with
  | nil => simp [standing]
  | append_singleton calls c ih =>
    rw [standing_concat, List.mem_append, List.mem_filter, ih, Option.mem_toList]
    constructor
    · rintro (⟨⟨before, d, after, rfl, hmade, hafter⟩, hne⟩ | hmade)
      · refine ⟨before, d, after ++ [c], by simp, hmade, List.forall_mem_append.2 ⟨hafter, ?_⟩⟩
        rw [List.forall_mem_singleton]
        exact fun heq => of_decide_eq_true hne heq.symm
      · exact ⟨calls, c, [], rfl, hmade, nofun⟩
    · rintro ⟨before, d, after, hcalls, hmade, hafter⟩
      -- the call that made the registration is the last one, or the last one is about another
      rcases List.eq_nil_or_concat after with rfl | ⟨rest, last, rfl⟩
      · obtain ⟨-, hlast⟩ := List.append_inj' hcalls rfl
        cases hlast
        exact .inr hmade
      · rw [List.concat_eq_append, ← List.cons_append, ← List.append_assoc] at hcalls
        obtain ⟨rfl, hlast⟩ := List.append_inj' hcalls rfl
        cases hlast
        rw [List.concat_eq_append, List.forall_mem_append, List.forall_mem_singleton] at hafter
        exact .inl ⟨⟨before, d, rest, rfl, hmade, hafter.1⟩,
          decide_eq_true fun heq => hafter.2 heq.symm⟩

/-- Of two that stand, the first one in the list was made first. -/
theorem exists_calls_of_sublist {y : Registration} (h : [x, y].Sublist (standing calls)) :
    ∃ before c between d after, calls = before ++ c :: (between ++ d :: after) ∧
      c.registration? = some x ∧ d.registration? = some y ∧
      (∀ c' ∈ between ++ d :: after, c'.subject ≠ x.subject) ∧
      ∀ c' ∈ after, c'.subject ≠ y.subject := by
  induction calls with
  | nil => cases h
  | cons c later ih =>
    have hlater : [x, y].Sublist (standing later) → ∃ before c' between d after,
        c :: later = before ++ c' :: (between ++ d :: after) ∧
          c'.registration? = some x ∧ d.registration? = some y ∧
          (∀ c' ∈ between ++ d :: after, c'.subject ≠ x.subject) ∧
          ∀ c' ∈ after, c'.subject ≠ y.subject := by
      intro hrest
      obtain ⟨before, c', between, d, after, rfl, hmade⟩ := ih hrest
      exact ⟨c :: before, c', between, d, after, rfl, hmade⟩
    rw [standing] at h
    split at h
    · exact hlater h
    · rename_i hnone
      cases hc : c.registration? with
      | none =>
        rw [hc] at h
        exact hlater h
      | some z =>
        rw [hc] at h
        -- the first one is made by this call, or both are made later
        rcases List.sublist_cons_iff.1 h with hrest | ⟨rest, heq, hrest⟩
        · exact hlater hrest
        · cases heq
          obtain ⟨between, d, after, rfl, hmade, hafter⟩ :=
            mem_standing_iff.1 (List.singleton_sublist.1 hrest)
          refine ⟨[], c, between, d, after, rfl, hc, hmade, fun c' hc' hsubject => ?_, hafter⟩
          exact hnone ⟨c', hc', hsubject.trans (subject_of_registration? hc)⟩

/-- No two of them are about the same address of the same service. -/
theorem standing_pairwise : (standing calls).Pairwise fun x y => x.subject ≠ y.subject := by
  induction calls using List.reverseRecOn with
  | nil => exact .nil
  | append_singleton calls c ih =>
    rw [standing_concat, List.pairwise_append]
    refine ⟨ih.filter _, ?_, fun x hx y hy => ?_⟩
    · cases c.registration? with
      | none => exact .nil
      | some x => exact List.pairwise_singleton _ x
    · rw [subject_of_registration? (Option.mem_toList.1 hy)]
      exact of_decide_eq_true (List.mem_filter.1 hx).2

/-! ### Offers for a service -/

theorem offersFor_append :
    offersFor service (l ++ l') = offersFor service l ++ offersFor service l' := by
  rw [offersFor, List.filter_append, List.map_append]
  rfl

theorem mem_offersFor {offer : Offer} :
    offer ∈ offersFor service l ↔ ⟨service, offer⟩ ∈ l := by
  constructor
  · intro h
    obtain ⟨x, hx, rfl⟩ := List.mem_map.1 h
    obtain ⟨hx, hservice⟩ := List.mem_filter.1 hx
    rw [← of_decide_eq_true hservice]
    exact hx
  · intro h
    exact List.mem_map.2 ⟨_, List.mem_filter.2 ⟨h, decide_eq_true rfl⟩, rfl⟩

theorem sublist_of_offersFor {offers : List Offer} (h : offers.Sublist (offersFor service l)) :
    (offers.map (Registration.mk service)).Sublist l := by
  obtain ⟨l', hl', rfl⟩ := List.sublist_map_iff.1 h
  have hservice : l'.map (Registration.mk service ∘ Registration.offer) = l' := by
    refine (List.map_congr_left fun x hx => ?_).trans (List.map_id l')
    obtain rfl : x.service = service := of_decide_eq_true (List.mem_filter.1 (hl'.subset hx)).2
    rfl
  rw [List.map_map, hservice]
  exact hl'.trans List.filter_sublist

/-- Without one subject, the service that it names lacks the address, and others lack nothing. -/
theorem offersFor_filter {subject : String × String} :
    offersFor service (l.filter (·.subject ≠ subject)) =
      if subject.1 = service then (offersFor service l).filter (·.address ≠ subject.2)
      else offersFor service l := by
  unfold offersFor
  rw [List.filter_filter, List.filter_map, List.filter_filter]
  split
  · rename_i hservice
    refine congrArg _ (List.filter_congr fun x _ => ?_)
    simp only [Registration.subject, ne_eq, Prod.ext_iff, Function.comp_apply, hservice]
    by_cases hx : x.service = service <;> simp [hx]
  · rename_i hservice
    refine congrArg _ (List.filter_congr fun x _ => ?_)
    simp only [Registration.subject, ne_eq, Prod.ext_iff]
    by_cases hx : x.service = service
    · simp [hx, Ne.symm hservice]
    · simp [hx]

/-- Of one service the addresses alone tell registrations apart. -/
theorem nodup_offersFor (h : l.Pairwise fun x y => x.subject ≠ y.subject) :
    ((offersFor service l).map (·.address)).Nodup := by
  rw [offersFor, List.map_map, List.Nodup, List.pairwise_map]
  refine (h.filter _).imp_of_mem ?_
  intro x y hx hy hne haddress
  have hx : x.service = service := of_decide_eq_true (List.mem_filter.1 hx).2
  have hy : y.service = service := of_decide_eq_true (List.mem_filter.1 hy).2
  exact hne (Prod.ext (hx.trans hy.symm) haddress)

/-- Registrations with the same offers for each service are the same but for their order. -/
theorem perm_of_offersFor (h : ∀ service, offersFor service l = offersFor service l') :
    l.Perm l' := by
  have hcount : ∀ (l : List Registration) (x : Registration),
      l.count x = (offersFor x.service l).count x.offer := by
    intro l x
    induction l with
    | nil => rfl
    | cons y l ih =>
      have hcons : offersFor x.service (y :: l) =
          offersFor x.service [y] ++ offersFor x.service l := offersFor_append (l := [y])
      rw [hcons, List.count_append, ← ih, List.count_cons, Nat.add_comm]
      congr 1
      obtain ⟨service, offer⟩ := x
      obtain ⟨service', offer'⟩ := y
      by_cases hservice : service' = service <;> by_cases hoffer : offer' = offer <;>
        simp [offersFor, hservice, hoffer]
  rw [List.perm_iff_count]
  intro x
  rw [hcount, hcount, h]

/-! ### One call -/

/-- What a call does to the offers of each service. -/
theorem offers_call : (r.call c).offers service =
    (if c.subject.1 = service then r.elsewhere service c.subject.2 else r.offers service) ++
      offersFor service c.registration?.toList := by
  cases c with
  | register other address qualifier =>
    rw [call, offers_register]
    by_cases h : other = service <;>
      simp [Call.subject, Call.registration?, offersFor, h]
  | unregister other address =>
    rw [call, offers_unregister]
    by_cases h : other = service <;>
      simp [Call.subject, Call.registration?, offersFor, h]

/-- A call makes no difference to other services. -/
theorem lookup_call_of_ne {wanted : Option String} (h : c.subject.1 ≠ service) :
    (r.call c).lookup service wanted = r.lookup service wanted := by
  have hnone : offersFor service c.registration?.toList = [] := by
    cases c with
    | register other address qualifier =>
      have hother : other ≠ service := h
      simp [Call.registration?, offersFor, hother]
    | unregister other address => rfl
  rw [lookup, offers_call, if_neg h, hnone, List.append_nil]
  rfl

/-- No service is kept without offers. -/
def Tidy (r : Registry) : Prop :=
  ∀ service, r.services.get? service ≠ some []

theorem Tidy.call (h : r.Tidy) : (r.call c).Tidy := by
  intro other
  cases c with
  | register service address qualifier =>
    rw [Registry.call, register, NameMap.get?_insert]
    split
    · simp
    · exact h other
  | unregister service address =>
    rw [Registry.call, unregister]
    split
    · rw [NameMap.get?_erase]
      split
      · simp
      · exact h other
    · rename_i hsome
      rw [NameMap.get?_insert]
      split
      · simpa using hsome
      · exact h other

/-- **Taking out what is not there changes nothing.** -/
theorem Tidy.unregister_eq_self (h : r.Tidy)
    (hunknown : ∀ offer ∈ r.lookup service, offer.address ≠ address) :
    r.unregister service address = r := by
  rw [lookup_eq_offers] at hunknown
  have hsame : r.elsewhere service address = r.offers service :=
    List.filter_eq_self.2 fun offer hoffer => decide_eq_true (hunknown offer hoffer)
  have hservices : (r.unregister service address).services = r.services := by
    refine NameMap.ext_get? fun other => ?_
    rw [unregister, hsame, offers]
    cases hget : r.services.get? service with
    | none =>
      rw [if_pos (by simp), NameMap.get?_erase]
      split
      · rename_i heq
        rw [← heq, hget]
      · rfl
    | some offers =>
      have hne : offers ≠ [] := fun hnil => h service (hnil ▸ hget)
      rw [if_neg (by simpa using hne), NameMap.get?_insert]
      split
      · rename_i heq
        rw [← heq, hget]
        rfl
      · rfl
  exact congrArg Registry.mk hservices

/-! ### All offers -/

/-- The offers of one service, as registrations. -/
def entryRegistrations (e : String × List Offer) : List Registration :=
  e.2.map fun offer => ⟨e.1, offer⟩

/-- All offers, by service. -/
def registrations (r : Registry) : List Registration :=
  r.services.entries.flatMap entryRegistrations

theorem size_eq_length : r.size = r.registrations.length := by
  simp [size, registrations, entryRegistrations, NameMap.values, List.length_flatten,
    List.length_flatMap, Function.comp_def]

theorem offersFor_entry {e : String × List Offer} :
    offersFor service (entryRegistrations e) = if e.1 = service then e.2 else [] := by
  by_cases h : e.1 = service <;>
    simp [offersFor, entryRegistrations, List.filter_map, Function.comp_def, h]

theorem offersFor_entries {entries : List (String × List Offer)}
    (hentries : entries.Pairwise fun a b => a.1 < b.1) :
    offersFor service (entries.flatMap entryRegistrations) =
      (NameMap.find service entries).getD [] := by
  induction entries with
  | nil => rfl
  | cons e rest ih =>
    obtain ⟨hlt, hrest⟩ := List.pairwise_cons.1 hentries
    rw [List.flatMap_cons, offersFor_append, offersFor_entry, ih hrest, NameMap.find]
    split
    · rename_i he
      rw [NameMap.find_of_lt fun f hf => he ▸ hlt f hf]
      exact List.append_nil _
    · rfl

theorem offersFor_registrations : offersFor service r.registrations = r.offers service :=
  offersFor_entries r.services.increasing

/-! ### Any calls -/

/-- How a registry stands to the calls that have been made of it. -/
structure Records (r : Registry) (calls : List Call) : Prop where
  /-- A look-up of a service lists the registrations for it that stand, in their order. -/
  lookup : ∀ service, r.lookup service = offersFor service (standing calls)
  /-- In particular, it lists an offer exactly if a call has made it and no later one is about its
  address. -/
  mem : ∀ service address qualifier, ⟨address, qualifier⟩ ∈ r.lookup service ↔
    ∃ before after, calls = before ++ .register service address qualifier :: after ∧
      ∀ c ∈ after, c.subject ≠ (service, address)
  /-- Of two offers that it lists, the first one was registered first, the last time that it was. -/
  order : ∀ service a b, [a, b].Sublist (r.lookup service) →
    ∃ before between after,
      calls = before ++ .register service a.address a.qualifier ::
        (between ++ .register service b.address b.qualifier :: after) ∧
      (∀ c ∈ between ++ .register service b.address b.qualifier :: after,
        c.subject ≠ (service, a.address)) ∧
      ∀ c ∈ after, c.subject ≠ (service, b.address)
  /-- It lists no address twice. -/
  nodup : ∀ service, ((r.lookup service).map (·.address)).Nodup
  /-- A look-up with a qualifier lists those that have it. -/
  qualified : ∀ service qualifier,
    r.lookup service (some qualifier) = (r.lookup service).filter (·.qualifier = qualifier)
  /-- One more call makes no difference to other services. -/
  others : ∀ (c : Call) service wanted, c.subject.1 ≠ service →
    (r.call c).lookup service wanted = r.lookup service wanted
  /-- Taking out an address that a service does not have changes nothing. -/
  unknown : ∀ service address, (∀ offer ∈ r.lookup service, offer.address ≠ address) →
    r.call (.unregister service address) = r
  /-- The size is the number of registrations that stand. -/
  size : r.size = (standing calls).length

theorem run_concat : r.run (calls ++ [c]) = (r.run calls).call c :=
  List.foldl_concat ..

theorem offers_run : (empty.run calls).offers service = offersFor service (standing calls) := by
  induction calls using List.reverseRecOn with
  | nil => rfl
  | append_singleton calls c ih =>
    rw [run_concat, offers_call, elsewhere, ih, standing_concat, offersFor_append]
    exact congrArg (· ++ _) offersFor_filter.symm

theorem tidy_run : (empty.run calls).Tidy := by
  induction calls using List.reverseRecOn with
  | nil => exact nofun
  | append_singleton calls c ih =>
    rw [run_concat]
    exact ih.call

/-- **A registry records the last call about each address of each service.** -/
theorem run_records (calls : List Call) : (empty.run calls).Records calls where
  lookup service := lookup_eq_offers.trans offers_run
  mem service address qualifier := by
    rw [lookup_eq_offers, offers_run, mem_offersFor, mem_standing_iff]
    constructor
    · rintro ⟨before, c, after, hcalls, hmade, hafter⟩
      cases c <;> cases hmade
      exact ⟨before, after, hcalls, hafter⟩
    · rintro ⟨before, after, hcalls, hafter⟩
      exact ⟨before, _, after, hcalls, rfl, hafter⟩
  order service a b h := by
    rw [lookup_eq_offers, offers_run] at h
    obtain ⟨before, c, between, d, after, hcalls, ha, hb, hafter⟩ :=
      exists_calls_of_sublist (sublist_of_offersFor h)
    cases c <;> cases ha
    cases d <;> cases hb
    exact ⟨before, between, after, hcalls, hafter⟩
  nodup service := by
    rw [lookup_eq_offers, offers_run]
    exact nodup_offersFor standing_pairwise
  qualified service qualifier := by
    rw [lookup_eq_offers]
    rfl
  others c service wanted h := lookup_call_of_ne h
  unknown service address h := tidy_run.unregister_eq_self h
  size := by
    rw [size_eq_length]
    refine (perm_of_offersFor fun service => ?_).length_eq
    rw [offersFor_registrations, offers_run]

example : (empty.run [.register "ledger" "x" "A", .register "ledger" "y" "B",
    .register "ledger" "x" "C", .unregister "other" "y"]).lookup "ledger" =
      [⟨"y", "B"⟩, ⟨"x", "C"⟩] := by
  decide

end Registry

end GossipLedger
