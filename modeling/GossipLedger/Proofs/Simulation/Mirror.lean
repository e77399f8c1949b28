import GossipLedger.Proofs.Fleet.Progress
import GossipLedger.Proofs.Service.Exchange
import GossipLedger.Proofs.Simulation.Links

/-!
# A cluster in step with a fleet

Whatever is done to a cluster (`Cluster.call`), its replicas go through what a fleet can do in which
whole snapshots are delivered (`Cluster.Mirrors.call`).  So clusters have all that is known of
coherent fleets, and nothing that is on its way in them is ever rejected.

* `Cluster.Mirrors` says that a cluster is in step with a fleet: it has the same replicas, and each
  packet is a push of a snapshot that was taken (`Conveys`);
* `Cluster.Evolves` says how the two go on together: nothing is taken out of a log, and what was on
  its way is still on its way or has been taken in;
* `Cluster.Mirrors.step` shows this for one event of the fleet, and the lemmas after it for each of
  the calls, which come to any number of events.

The replicas of a cluster have different names, since the number can be read off the name
(`ReplicaId.number`).
-/

namespace GossipLedger

open Wire

/-- The number of the replica with a given name. -/
def ReplicaId.number (id : ReplicaId) : Nat :=
  match id.toList with
  | [letter] => letter.toNat - 'A'.toNat
  | _ :: digits => Nat.ofDigitChars 10 digits 0
  | [] => 0

theorem ReplicaId.number_ofNumber (i : Nat) : (ofNumber i).number = i := by
  by_cases hi : i < 26
  · revert i
    decide
  · have hname : (ofNumber i).toList = 'R' :: Nat.toDigits 10 i := by
      rw [ofNumber, if_neg hi]
      simp [toString]
    obtain ⟨digit, digits, hdigits⟩ :=
      List.exists_cons_of_ne_nil (Nat.toDigits_ne_nil (n := i) (b := 10))
    rw [number, hname, hdigits]
    dsimp only
    rw [← hdigits, Nat.ofDigitChars_ten_toDigits]

theorem ReplicaId.ofNumber_injective : Function.Injective ofNumber :=
  Function.LeftInverse.injective number_ofNumber

namespace Fleet

variable {ι κ : Type} [DecidableEq ι] [DecidableEq κ] {ids : ι → ReplicaId} {f : Fleet ι κ}

/-- Nothing is taken out of a log. -/
theorem Coherent.mem_contents_step (h : f.Coherent ids) (e : Event ι κ) (i : ι) :
    ∀ x ∈ (f.replicas i).log.contents, x ∈ ((f.step e).replicas i).log.contents := by
  have hcase := step_cases f e
  generalize f.step e = g at hcase ⊢
  have hput : ∀ place r, (∀ x ∈ (f.replicas place).log.contents, x ∈ r.log.contents) →
      ∀ i, ∀ x ∈ (f.replicas i).log.contents, x ∈ ((f.put place r).replicas i).log.contents :=
    fun place r hr => (Function.forall_update_iff f.replicas fun i r =>
      ∀ x ∈ (f.replicas i).log.contents, x ∈ r.log.contents).2 ⟨hr, fun _ _ _ hx => hx⟩
  cases hcase with
  | accepted => exact hput _ _ (fun x hx => Replica.mem_contents_afterWrite.2 (.inl hx)) i
  | quiet hg =>
    rw [hg.log i]
    exact fun _ hx => hx
  | answered => exact fun _ hx => hx
  | posted => exact fun _ hx => hx
  | @delivered place ops =>
    exact hput _ _ (fun x hx =>
      (Replica.mem_contents_receive (h.within place).settled).2 (.inl hx)) i

/-- Snapshots stay available. -/
theorem mem_posted_step {ops : List Operation} (e : Event ι κ) (h : ops ∈ f.posted) :
    ops ∈ (f.step e).posted := by
  have hcase := step_cases f e
  generalize f.step e = g at hcase ⊢
  cases hcase with
  | quiet hg =>
    rw [hg.posted]
    exact h
  | posted => exact List.mem_append_left _ h
  | accepted => exact h
  | answered => exact h
  | delivered => exact h

theorem replicas_step_write {k : κ} {i : ι} {kind : Kind} {context : Clock}
    {result : Result Clock} {r : Replica}
    (h : (f.replicas i).submit kind context = .ok (result, r)) :
    (f.step (.write k i kind context)).replicas = (f.put i r).replicas := by
  rw [step, h]
  cases result <;> rfl

end Fleet

/-- The bytes are those of a push of these operations. -/
def Conveys (bytes : Bytes) (ops : List Operation) : Prop :=
  ∃ sender, Frame.parse bytes >>= Request.ofFrame = .ok (.pushLedgerSnapshot sender ops)

theorem Conveys.unique {bytes : Bytes} {ops ops' : List Operation} (h : Conveys bytes ops)
    (h' : Conveys bytes ops') : ops = ops' := by
  obtain ⟨sender, h⟩ := h
  obtain ⟨sender', h'⟩ := h'
  rw [h] at h'
  cases h'
  rfl

theorem conveys_push {r : Replica} {bytes : Bytes} (h : r.push.bytes = .ok bytes) :
    Conveys bytes r.snapshot := by
  obtain ⟨frame, hframe, hserialize⟩ := Result.bind_eq_ok_iff.1 h
  refine ⟨r.id, ?_⟩
  rw [Frame.parse_of_serialize hserialize]
  exact Request.ofFrame_of_toFrame hframe

/-- What has arrived at a replica has been taken in. -/
def Fleet.HasTaken (f : Fleet Nat Unit) (x : Nat × Bytes) : Prop :=
  ∀ ops, Conveys x.2 ops → ∀ op ∈ ops, op.unmarked ∈ (f.replicas x.1).log.contents

namespace Cluster

variable {c c' c'' : Cluster} {f f' f'' : Fleet Nat Unit} {i : Nat} {x : Nat × Bytes}
  {ops : List Operation}

/-- The cluster is in step with a fleet. -/
structure Mirrors (c : Cluster) (f : Fleet Nat Unit) : Prop where
  /-- The fleet is one that can be reached. -/
  coherent : f.Coherent ReplicaId.ofNumber
  /-- The replicas are those of the fleet. -/
  replicas : c.replicas = (List.range c.size).map f.replicas
  /-- There is a channel from each replica to every other. -/
  ends : c.channels.map Channel.ends = pairs c.size
  /-- All that is on its way are snapshots that were taken. -/
  underway : ∀ x ∈ c.underway, ∃ ops ∈ f.posted, Conveys x.2 ops
  /-- Nothing has been rejected. -/
  rejected : c.stats.rejected = 0

/-- The cluster goes on, and with it the fleet with which it is in step. -/
structure Evolves (c c' : Cluster) (f f' : Fleet Nat Unit) : Prop where
  /-- They are still in step. -/
  mirrors : c'.Mirrors f'
  /-- There are as many replicas as before. -/
  size : c'.size = c.size
  /-- Snapshots stay available. -/
  posted : ∀ ops ∈ f.posted, ops ∈ f'.posted
  /-- Nothing is taken out of a log. -/
  kept : ∀ i, ∀ x ∈ (f.replicas i).log.contents, x ∈ (f'.replicas i).log.contents
  /-- What was on its way is still on its way or has been taken in. -/
  onward : ∀ x ∈ c.underway, x ∈ c'.underway ∨ f'.HasTaken x

theorem Evolves.refl (h : c.Mirrors f) : Evolves c c f f :=
  ⟨h, rfl, fun _ hops => hops, fun _ _ hx => hx, fun _ hx => .inl hx⟩

/-- What has been taken in is not lost. -/
theorem Evolves.hasTaken (h : Evolves c c' f f') (htaken : f.HasTaken x) : f'.HasTaken x :=
  fun ops hconveys op hop => h.kept x.1 op.unmarked (htaken ops hconveys op hop)

theorem Evolves.trans (h : Evolves c c' f f') (h' : Evolves c' c'' f' f'') :
    Evolves c c'' f f'' where
  mirrors := h'.mirrors
  size := h'.size.trans h.size
  posted ops hops := h'.posted ops (h.posted ops hops)
  kept i x hx := h'.kept i x (h.kept i x hx)
  onward x hx := by
    rcases h.onward x hx with hx | htaken
    · exact h'.onward x hx
    · exact .inr (h'.hasTaken htaken)

/-! ### The replicas -/

theorem getElem?_map_range {n : Nat} :
    ((List.range n).map f.replicas)[i]? = if i < n then some (f.replicas i) else none := by
  grind

/-- Replicas with other numbers than those of the cluster make no difference. -/
theorem map_range_put {n : Nat} {g : Replica → Replica} :
    (List.range n).map (f.put i (g (f.replicas i))).replicas =
      ((List.range n).map f.replicas).modify i g := by
  refine List.ext_getElem? fun j => ?_
  rw [List.getElem?_modify, getElem?_map_range, getElem?_map_range]
  by_cases hj : i = j
  · subst hj
    rw [Fleet.replicas_put_self]
    split <;> simp
  · rw [Fleet.replicas_put_of_ne (Ne.symm hj)]
    simp [hj]

theorem Mirrors.replica (h : c.Mirrors f) {r : Replica} (hr : c.replicas[i]? = some r) :
    i < c.size ∧ f.replicas i = r := by
  rw [h.replicas, getElem?_map_range] at hr
  split at hr
  · exact ⟨‹_›, Option.some.inj hr⟩
  · cases hr

theorem merge_snd : (c.merge i ops).2 =
    { c with replicas := c.replicas.modify i fun r => (r.receive ops).2 } := by
  rw [merge, List.modify_eq_set_getElem?]
  cases c.replicas[i]? <;> rfl

theorem receive_of_conveys (h : Conveys x.2 ops) : c.receive x =
    { c with
      replicas := c.replicas.modify x.1 fun r => (r.receive ops).2
      stats := { c.stats with merged := c.stats.merged + 1 } } := by
  obtain ⟨sender, hread⟩ := h
  rw [receive, hread]
  dsimp only
  rw [merge_snd]

/-! ### Steps -/

/-- The cluster does what an event of the fleet is. -/
theorem Mirrors.step {e : Fleet.Event Nat Unit} (h : c.Mirrors f) (hrule : f.DeliversCopies e)
    (hreplicas : c'.replicas = (List.range c.size).map (f.step e).replicas)
    (hends : c'.channels.map Channel.ends = c.channels.map Channel.ends)
    (hnew : ∀ x ∈ c'.underway, x ∈ c.underway ∨ ∃ ops ∈ (f.step e).posted, Conveys x.2 ops)
    (hold : ∀ x ∈ c.underway, x ∈ c'.underway) (hrejected : c'.stats.rejected = c.stats.rejected) :
    Evolves c c' f (f.step e) := by
  have hsize : c'.size = c.size := by rw [size, hreplicas, List.length_map, List.length_range]
  have hposted : ∀ ops ∈ f.posted, ops ∈ (f.step e).posted := fun _ => Fleet.mem_posted_step e
  refine ⟨⟨h.coherent.step ReplicaId.ofNumber_injective hrule, ?_, ?_, fun x hx => ?_, ?_⟩, hsize,
    hposted, h.coherent.mem_contents_step e, fun x hx => .inl (hold x hx)⟩
  · rw [hsize]
    exact hreplicas
  · rw [hsize]
    exact hends.trans h.ends
  · refine (hnew x hx).elim (fun hx => ?_) id
    obtain ⟨ops, hops, hconveys⟩ := h.underway x hx
    exact ⟨ops, hposted ops hops, hconveys⟩
  · exact hrejected.trans h.rejected

/-- A replica carries out a write. -/
theorem Mirrors.write {kind : Kind} {context : Clock} {result : Result Clock} {r : Replica}
    (h : c.Mirrors f) (hwrite : (f.replicas i).submit kind context = .ok (result, r)) :
    Evolves c { c with replicas := c.replicas.set i r } f (f.step (.write () i kind context)) := by
  refine h.step trivial ?_ rfl (fun _ => .inl) (fun _ => id) rfl
  rw [Fleet.replicas_step_write hwrite, List.set_eq_modify, h.replicas]
  exact map_range_put.symm

/-- A replica sends its log to all others. -/
theorem Mirrors.broadcast {r : Replica} {bytes : Bytes} (h : c.Mirrors f)
    (hr : c.replicas[i]? = some r) (hbytes : r.push.bytes = .ok bytes) :
    Evolves c (c.broadcast i bytes) f (f.step (.post i)) := by
  have hsnapshot : Conveys bytes (f.replicas i).snapshot := by
    rw [(h.replica hr).2]
    exact conveys_push hbytes
  refine h.step trivial h.replicas ends_broadcast (fun x hx => ?_)
    (fun _ => mem_underway_broadcast) rfl
  refine (of_mem_underway_broadcast hx).imp_right fun hx => ?_
  rw [hx]
  exact ⟨_, List.mem_concat_self, hsnapshot⟩

/-- A snapshot that was taken is taken in where it arrives. -/
theorem Mirrors.receive (h : c.Mirrors f) (hconveys : Conveys x.2 ops) (hops : ops ∈ f.posted) :
    Evolves c (c.receive x) f (f.step (.deliver x.1 ops)) ∧
      (f.step (.deliver x.1 ops)).HasTaken x := by
  constructor
  · rw [receive_of_conveys hconveys]
    refine h.step (fun op hop => ⟨ops, hops, hop⟩) ?_ rfl (fun _ => .inl) (fun _ => id) rfl
    dsimp only
    rw [h.replicas]
    exact map_range_put.symm
  · intro ops' hconveys'
    obtain rfl := hconveys.unique hconveys'
    rw [Fleet.step, Fleet.replicas_put_self]
    exact (h.coherent.within x.1).unmarked_mem_contents_receive h.coherent.ranked
      h.coherent.stamped (h.coherent.posted ops hops)

/-! ### Calls -/

/-- All snapshots that arrive are taken in. -/
theorem Mirrors.receiveAll {arrivals : List (Nat × Bytes)} (h : c.Mirrors f)
    (harrivals : ∀ x ∈ arrivals, ∃ ops ∈ f.posted, Conveys x.2 ops) :
    ∃ f', Evolves c (arrivals.foldl Cluster.receive c) f f' ∧ ∀ x ∈ arrivals, f'.HasTaken x := by
  induction arrivals generalizing c f with
  | nil => exact ⟨f, .refl h, nofun⟩
  | cons x arrivals ih =>
    obtain ⟨⟨ops, hops, hconveys⟩, hrest⟩ := List.forall_mem_cons.1 harrivals
    obtain ⟨hfirst, htaken⟩ := h.receive hconveys hops
    obtain ⟨f', hlater, hall⟩ := ih hfirst.mirrors fun x hx => by
      obtain ⟨ops, hops, hconveys⟩ := hrest x hx
      exact ⟨ops, hfirst.posted ops hops, hconveys⟩
    exact ⟨f', hfirst.trans hlater, List.forall_mem_cons.2 ⟨hlater.hasTaken htaken, hall⟩⟩

/-- The time of a tick passes. -/
theorem Mirrors.tick (h : c.Mirrors f) : ∃ f', Evolves c c.tick.2 f f' := by
  have helapsed : c.elapsed.Mirrors f := by
    refine ⟨h.coherent, h.replicas, ?_, fun x hx => h.underway x (mem_underway_iff.2 (.inr hx)),
      h.rejected⟩
    refine Eq.trans ?_ h.ends
    rw [elapsed, List.map_map]
    rfl
  obtain ⟨f', hevolves, htaken⟩ := helapsed.receiveAll fun x hx =>
    h.underway x (mem_underway_iff.2 (.inl hx))
  rw [tick_snd]
  -- what was on its way has arrived, or it was not due yet
  refine ⟨f', hevolves.mirrors, hevolves.size, hevolves.posted, hevolves.kept, fun x hx => ?_⟩
  rcases mem_underway_iff.1 hx with hx | hx
  · exact .inr (htaken x hx)
  · exact hevolves.onward x hx

theorem Mirrors.runUntilQuiet (bound : Nat) (h : c.Mirrors f) :
    ∃ f', Evolves c (c.runUntilQuiet bound).2 f f' := by
  induction bound generalizing c f with
  | zero => exact ⟨f, .refl h⟩
  | succ bound ih =>
    rw [Cluster.runUntilQuiet]
    split
    · exact ⟨f, .refl h⟩
    · obtain ⟨f', hfirst⟩ := h.tick
      obtain ⟨f'', hlater⟩ := ih hfirst.mirrors
      exact ⟨f'', hfirst.trans hlater⟩

theorem Mirrors.gossip (i : Nat) (h : c.Mirrors f) : ∃ f', Evolves c (c.gossip i).2 f f' := by
  rw [Cluster.gossip]
  split
  · exact ⟨f, .refl h⟩
  · rename_i r hr
    split
    · exact ⟨_, h.broadcast hr ‹_›⟩
    · exact ⟨f, .refl h⟩

theorem Mirrors.gossipAll (is : List Nat) (h : c.Mirrors f) :
    ∃ f', Evolves c (c.gossipAll is).2 f f' := by
  induction is generalizing c f with
  | nil => exact ⟨f, .refl h⟩
  | cons i is ih =>
    obtain ⟨f', hfirst⟩ := h.gossip i
    rw [Cluster.gossipAll]
    generalize c.gossip i = pushed at hfirst ⊢
    obtain ⟨_ | _, c'⟩ := pushed
    · exact ⟨f', hfirst⟩
    · obtain ⟨f'', hlater⟩ := ih hfirst.mirrors
      exact ⟨f'', hfirst.trans hlater⟩

theorem Mirrors.antiEntropy (bound : Nat) (h : c.Mirrors f) :
    ∃ f', Evolves c (c.antiEntropy bound).2 f f' := by
  obtain ⟨f', hfirst⟩ := h.gossipAll (List.range c.size)
  rw [Cluster.antiEntropy]
  generalize c.gossipAll (List.range c.size) = pushed at hfirst ⊢
  obtain ⟨_ | _, c'⟩ := pushed
  · exact ⟨f', hfirst⟩
  · obtain ⟨f'', hlater⟩ := hfirst.mirrors.runUntilQuiet bound
    exact ⟨f'', hfirst.trans hlater⟩

/-- Links get other configurations. -/
theorem Mirrors.reconfigure {p : Nat → Nat → Bool} {config : LinkConfig} (h : c.Mirrors f) :
    Evolves c (c.updateLinks p (·.configure config)) f f :=
  ⟨⟨h.coherent, h.replicas, ends_updateLinks.trans h.ends,
    fun x hx => h.underway x (mem_underway_configure.1 hx), h.rejected⟩, rfl, fun _ hops => hops,
    fun _ _ hx => hx, fun _ hx => .inl (mem_underway_configure.2 hx)⟩

/-- A client writes, and the replica may pass its log on. -/
theorem Mirrors.submit {kind : Kind} {context : Clock} {result : Result Clock} (h : c.Mirrors f)
    (hs : c.submit i kind context = .ok (result, c')) : ∃ f', Evolves c c' f f' := by
  rw [Cluster.submit] at hs
  split at hs
  · cases hs
    exact ⟨f, .refl h⟩
  · rename_i r hr
    obtain ⟨-, rfl⟩ := h.replica hr
    cases hwrite : (f.replicas i).submit kind context with
    | error e =>
      rw [hwrite] at hs
      cases hs
    | ok answer =>
      obtain ⟨outcome, r⟩ := answer
      have hstep := h.write hwrite
      rw [hwrite] at hs
      dsimp only [bind, Except.bind] at hs
      obtain ⟨f', hlater⟩ := hstep.mirrors.gossip i
      cases outcome with
      | error e =>
        cases hs
        exact ⟨_, hstep⟩
      | ok observed =>
        dsimp only at hs
        split at hs
        · cases hs
          exact ⟨f', hstep.trans hlater⟩
        · cases hs
          exact ⟨_, hstep⟩

/-! ### Runs -/

/-- A call of a cluster. -/
inductive Call where
  /-- A client writes at a replica. -/
  | submit (i : Nat) (kind : Kind) (context : Clock)
  /-- A replica pushes its log. -/
  | gossip (i : Nat)
  /-- The time of a tick passes. -/
  | tick
  /-- Time passes until nothing is on its way, or the bound is reached. -/
  | runUntilQuiet (bound : Nat)
  /-- All replicas push their logs, and time passes. -/
  | antiEntropy (bound : Nat)
  /-- A link gets another configuration. -/
  | setLink (source target : Nat) (config : LinkConfig)
  /-- All links from and to a replica are cut. -/
  | isolate (i : Nat)
  /-- All links are made perfect. -/
  | heal

/-- What a call does. -/
def call (c : Cluster) : Call → Except CounterOverflow Cluster
  | .submit i kind context => (c.submit i kind context).map (·.2)
  | .gossip i => .ok (c.gossip i).2
  | .tick => .ok c.tick.2
  | .runUntilQuiet bound => .ok (c.runUntilQuiet bound).2
  | .antiEntropy bound => .ok (c.antiEntropy bound).2
  | .setLink source target config => .ok (c.setLink source target config)
  | .isolate i => .ok (c.isolate i)
  | .heal => .ok c.heal

/-- What a list of calls does. -/
def run (c : Cluster) (calls : List Call) : Except CounterOverflow Cluster :=
  calls.foldlM call c

/-- Whatever is done to a cluster, it stays in step with a fleet. -/
theorem Mirrors.call {now : Call} (h : c.Mirrors f) (hcall : c.call now = .ok c') :
    ∃ f', Evolves c c' f f' := by
  cases now with
  | submit i kind context =>
    obtain ⟨answer, hs, rfl⟩ := exists_of_map_eq_ok hcall
    exact h.submit hs
  | gossip i =>
    cases hcall
    exact h.gossip i
  | tick =>
    cases hcall
    exact h.tick
  | runUntilQuiet bound =>
    cases hcall
    exact h.runUntilQuiet bound
  | antiEntropy bound =>
    cases hcall
    exact h.antiEntropy bound
  | setLink source target config =>
    cases hcall
    exact ⟨f, h.reconfigure⟩
  | isolate i =>
    cases hcall
    exact ⟨f, h.reconfigure⟩
  | heal =>
    cases hcall
    exact ⟨f, h.reconfigure⟩

/-- A cluster stays in step throughout a run. -/
theorem Mirrors.run {calls : List Call} (h : c.Mirrors f) (hrun : c.run calls = .ok c') :
    ∃ f', Evolves c c' f f' := by
  induction calls generalizing c f with
  | nil =>
    cases hrun
    exact ⟨f, .refl h⟩
  | cons now calls ih =>
    rw [Cluster.run, List.foldlM_cons] at hrun
    cases hcall : c.call now with
    | error e =>
      rw [hcall] at hrun
      cases hrun
    | ok next =>
      rw [hcall] at hrun
      obtain ⟨f', hfirst⟩ := h.call hcall
      obtain ⟨f'', hlater⟩ := ih hfirst.mirrors hrun
      exact ⟨f'', hfirst.trans hlater⟩

theorem size_fresh {config : ClusterConfig} {chance : Nat → Nat → Draws} :
    (fresh config chance).size = config.replicas := by
  rw [size, fresh, List.length_map, List.length_range]

/-- A cluster without operations is in step with a fleet without operations. -/
theorem mirrors_fresh (config : ClusterConfig) (chance : Nat → Nat → Draws) :
    (fresh config chance).Mirrors
      (.fresh ReplicaId.ofNumber (fun _ => config.money) fun _ => true) where
  coherent := Fleet.coherent_fresh
  replicas := by
    rw [size_fresh]
    rfl
  ends := by
    rw [size_fresh]
    refine List.ext_getElem? fun k => ?_
    rw [fresh, List.getElem?_map, List.getElem?_mapIdx, Option.map_map]
    exact Option.map_id' ..
  underway x hx := by
    obtain ⟨ch, hch, packet, hpacket, -⟩ := mem_underway.1 hx
    obtain ⟨k, hk, rfl⟩ := List.mem_mapIdx.1 hch
    cases hpacket
  rejected := rfl

end Cluster

end GossipLedger
