import GossipLedger.NameMap

/-!
# The registry

Processes that offer a service register under its name with their address and a qualifier, which
tells the processes of one service apart.  Whoever needs the service looks it up.

An address has at most one entry in a service.  Registering it again puts the new entry last.
-/

namespace GossipLedger

/-- A process that offers a service. -/
structure Offer where
  /-- Where the process can be reached. -/
  address : String
  /-- What tells the process from others of the same service. -/
  qualifier : String
  deriving DecidableEq, Inhabited

/-- The offers of each service, in the order of their registration. -/
structure Registry where
  /-- The services with at least one offer. -/
  services : NameMap (List Offer) := ∅
  deriving DecidableEq, Inhabited

namespace Registry

/-- The registry without offers. -/
def empty : Registry :=
  {}

/-- The offers of a service. -/
def offers (r : Registry) (service : String) : List Offer :=
  (r.services.get? service).getD []

/-- The offers of a service, or those of them that have a given qualifier. -/
def lookup (r : Registry) (service : String) (qualifier : Option String := none) : List Offer :=
  (r.offers service).filter fun offer => qualifier.all (offer.qualifier = ·)

/-- The offers of a service from everyone but those with a given qualifier. -/
def others (r : Registry) (service qualifier : String) : List Offer :=
  (r.lookup service).filter fun offer => offer.qualifier ≠ qualifier

/-- The qualifiers of the offers of a service, in alphabetical order. -/
def qualifiers (r : Registry) (service : String) : List String :=
  ((r.lookup service).map (·.qualifier)).mergeSort fun a b => decide (a ≤ b)

/-- The offers of a service from everywhere but an address. -/
def elsewhere (r : Registry) (service address : String) : List Offer :=
  (r.offers service).filter fun offer => offer.address ≠ address

/-- Registers an address under a service, in place of an earlier entry. -/
def register (r : Registry) (service address qualifier : String) : Registry :=
  ⟨r.services.insert service (r.elsewhere service address ++ [⟨address, qualifier⟩])⟩

/-- Takes an address out of a service. -/
def unregister (r : Registry) (service address : String) : Registry :=
  if r.elsewhere service address = [] then ⟨r.services.erase service⟩
  else ⟨r.services.insert service (r.elsewhere service address)⟩

/-- The number of offers of all services. -/
def size (r : Registry) : Nat :=
  r.services.values.flatten.length

/-! ### Laws -/

theorem lookup_eq_offers {r : Registry} {service : String} : r.lookup service = r.offers service :=
  List.filter_eq_self.2 fun _ _ => rfl

theorem offers_register {r : Registry} {service other address qualifier : String} :
    (r.register service address qualifier).offers other
      = if service = other then r.elsewhere service address ++ [⟨address, qualifier⟩]
        else r.offers other := by
  unfold register offers
  rw [NameMap.get?_insert]
  split <;> rfl

theorem offers_unregister {r : Registry} {service other address : String} :
    (r.unregister service address).offers other
      = if service = other then r.elsewhere service address else r.offers other := by
  unfold unregister
  split <;> rename_i h <;> unfold offers
  · rw [NameMap.get?_erase]
    split
    · exact h.symm
    · rfl
  · rw [NameMap.get?_insert]
    split <;> rfl

end Registry

end GossipLedger
