import GossipLedger.Proofs.Wire.Streaming
import GossipLedger.Service.Network
import Mathlib.Data.List.Induction

/-!
# What reaches a node of a network

A gossip round of a node reaches other nodes only, unless its own address is registered a second
time under another qualifier (`Network.Alone`).  So it leaves the node itself as it was
(`Network.Alone.spares_gossip`), and so does whatever else an answer demands
(`Network.Alone.spares_conclude`).
-/

namespace GossipLedger

open Wire

/-- What each push of a round keeps, the round keeps. -/
theorem gossipRound_induction {σ : Type} {P : σ → Prop} {push : Offer → σ → Bool × σ}
    {peers : List Offer} {s : σ} (hpush : ∀ peer ∈ peers, ∀ s, P s → P (push peer s).2) (h : P s) :
    P (gossipRound push peers s).2 :=
  List.foldlRecOn peers _ (motive := fun done : GossipReport × σ => P done.2) h
    fun done hdone peer hpeer => hpush peer hpeer done.2 hdone

/-- Each push is counted as delivered or as failed. -/
theorem sum_count {report : GossipReport} {delivered : Bool} :
    (report.count delivered).delivered + (report.count delivered).failed =
      report.delivered + report.failed + 1 := by
  cases delivered
  · rfl
  · exact Nat.add_right_comm _ _ _

/-- A round counts one push for each peer, which is delivered or fails. -/
theorem report_gossipRound {σ : Type} {push : Offer → σ → Bool × σ} {peers : List Offer} {s : σ} :
    (gossipRound push peers s).1.attempted = peers.length ∧
      (gossipRound push peers s).1.delivered + (gossipRound push peers s).1.failed =
        peers.length := by
  -- along the pushes, the last one last
  induction peers using List.reverseRecOn with
  | nil => exact ⟨rfl, rfl⟩
  | append_singleton peers peer ih =>
    rw [gossipRound, List.foldl_append, ← gossipRound, List.foldl_cons, List.foldl_nil,
      List.length_append, List.length_singleton]
    dsimp only
    rw [sum_count, ih.2]
    exact ⟨congrArg (· + 1) ih.1, rfl⟩

namespace Network

variable {network network' network'' : Network} {i j : Nat} {address : String} {node : Node}
  {replica : Replica} {endpoint : Endpoint} {request : Request}

/-! ### Endpoints -/

theorem node?_eq_some_iff : network.node? i = some node ↔
    ∃ listening, network.endpoints[i]? = some (.node node listening) := by
  rw [node?]
  split
  · rename_i found listening hi
    rw [hi]
    simp
  · rename_i hother
    exact iff_of_false nofun fun ⟨listening, hi⟩ => hother node listening hi

theorem node?_setReplica_self (h : network.node? i = some node) :
    (network.setReplica i replica).node? i = some { node with replica } := by
  obtain ⟨listening, hi⟩ := node?_eq_some_iff.1 h
  refine node?_eq_some_iff.2 ⟨listening, ?_⟩
  simp [setReplica, hi]

theorem node?_setReplica_of_ne (h : j ≠ i) :
    (network.setReplica j replica).node? i = network.node? i := by
  simp [node?, setReplica, h]

/-- A connection leads where the address does. -/
theorem number?_of_connect (h : network.connect address = .ok (i, endpoint)) :
    network.number? address = some i := by
  revert h
  fun_cases connect network address
  all_goals intro h; cases h
  all_goals assumption

/-- A node is reached by number. -/
theorem node?_of_connect {listening : Bool}
    (h : network.connect address = .ok (i, .node node listening)) :
    network.node? i = some node := by
  revert h
  fun_cases connect network address
  case case3 number node listening hi =>
    intro h
    cases h
    exact node?_eq_some_iff.2 ⟨true, hi⟩
  all_goals nofun

/-! ### Rounds -/

/-- The second network is the first one, but for what other nodes than this one hold. -/
structure Spares (i : Nat) (network network' : Network) : Prop where
  /-- The registry is the same. -/
  registry : network'.registry = network.registry
  /-- There are as many endpoints. -/
  length : network'.endpoints.length = network.endpoints.length
  /-- The node is the same. -/
  node : network'.node? i = network.node? i

theorem Spares.refl : Spares i network network :=
  ⟨rfl, rfl, rfl⟩

theorem Spares.trans (h : Spares i network network') (h' : Spares i network' network'') :
    Spares i network network'' :=
  ⟨h'.registry.trans h.registry, h'.length.trans h.length, h'.node.trans h.node⟩

theorem spares_setReplica (h : j ≠ i) : Spares i network (network.setReplica j replica) where
  registry := rfl
  length := List.length_modify _ _ _
  node := node?_setReplica_of_ne h

theorem Spares.number?_eq (h : Spares i network network') :
    network'.number? address = network.number? address := by
  rw [number?, number?, h.length]

theorem spares_exchangePush (h : network.number? address ≠ some i) :
    Spares i network (network.exchangePush address request).2 := by
  fun_cases exchangePush network address request
  case case5 hconnect =>
    refine spares_setReplica fun hj => h ?_
    rw [number?_of_connect hconnect, hj]
  -- whatever else comes of the push, the network stays as it was
  all_goals exact .refl

theorem spares_push {peer : Offer} (h : network.number? peer.address ≠ some i) :
    Spares i network (push request peer network).2 :=
  spares_exchangePush h

/-- The node is there, and no round of its own leads back to it. -/
def Alone (network : Network) (i : Nat) : Prop :=
  ∃ node, network.node? i = some node ∧
    ∀ peer ∈ network.registry.others node.config.service node.config.qualifier,
      network.number? peer.address ≠ some i

theorem Alone.spares_gossip (h : network.Alone i) : Spares i network (network.gossip i).2 := by
  obtain ⟨node, hnode, hpeers⟩ := h
  rw [gossip, hnode]
  refine gossipRound_induction (P := Spares i network) ?_ .refl
  intro peer hpeer network' h'
  refine h'.trans (spares_push ?_)
  rw [h'.number?_eq]
  exact hpeers peer hpeer

theorem Alone.of_spares (h : network.Alone i) (hspares : Spares i network network') :
    network'.Alone i := by
  obtain ⟨node, hnode, hpeers⟩ := h
  refine ⟨node, hspares.node.trans hnode, fun peer hpeer => ?_⟩
  rw [hspares.number?_eq]
  rw [hspares.registry] at hpeer
  exact hpeers peer hpeer

theorem Alone.setReplica (h : network.Alone i) : (network.setReplica i replica).Alone i := by
  obtain ⟨node, hnode, hpeers⟩ := h
  refine ⟨_, node?_setReplica_self hnode, fun peer hpeer => ?_⟩
  rw [number?, Network.setReplica, List.length_modify]
  exact hpeers peer hpeer

/-! ### Answers -/

theorem respond_of_ok {frame : Frame} {answer : Answer} {s : Logged}
    (hnode : s.1.node? i = some node) (h : node.replica.serveFrame frame = .ok (answer, replica)) :
    respond i frame s =
      conclude i node.config.gossipOnWrite answer (s.1.setReplica i replica, s.2) := by
  rw [respond, hnode]
  dsimp only
  rw [h]

theorem respond_of_error {frame : Frame} {e : CounterOverflow} {s : Logged}
    (hnode : s.1.node? i = some node) (h : node.replica.serveFrame frame = .error e) :
    respond i frame s = (none, s) := by
  rw [respond, hnode]
  dsimp only
  rw [h]

/-- The reply is the response of the answer, with the report of some round. -/
theorem exists_report_of_conclude {gossipOnWrite : Bool} {answer : Answer} {s : Logged} :
    ∃ report,
      (conclude i gossipOnWrite answer s).1 = (answer.response report).bytes.toOption := by
  cases answer with
  | reply response => exact ⟨{}, rfl⟩
  | accepted response => cases gossipOnWrite <;> exact ⟨{}, rfl⟩
  | round => exact ⟨(s.1.gossip i).1, rfl⟩

/-- What an answer demands besides the reply leaves the node as it is. -/
theorem Alone.spares_conclude {gossipOnWrite : Bool} {answer : Answer}
    {rounds : List (Nat × GossipReport)} (h : network.Alone i) :
    Spares i network (conclude i gossipOnWrite answer (network, rounds)).2.1 := by
  cases answer with
  | reply response => exact .refl
  | accepted response =>
    cases gossipOnWrite with
    | false => exact .refl
    | true => exact h.spares_gossip
  | round => exact h.spares_gossip

end Network

end GossipLedger
