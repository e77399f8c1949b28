import GossipLedger.Proofs.Replica.Intake
import GossipLedger.Service.Mesh

/-!
# Spreading operations in a mesh

`Mesh.spread` has nodes take in the same operations, one after the other.  Only nodes that are
listed change (`Mesh.node_spread_of_notMem`); each of these then knows all the operations
(`Mesh.hasAll_spread`), whatever it knew before; a replica that knows them from the start stays as
it is (`Mesh.unchanged_spread`); and the order of the list does not matter (`Mesh.spread_perm`).

In a sound mesh (`Mesh.Sound`) every address leads to a node that is there.  Whatever sets a mesh
up keeps it sound, and so does spreading.
-/

namespace GossipLedger

namespace Mesh

variable {mesh : Mesh} {i j : Nat} {ops : List Operation} {targets others : List Nat}
  {address : String}

/-! ### Changes of a replica -/

theorem node_updateReplica_self {f : Replica → Replica} (h : i < mesh.nodes.length) :
    (mesh.updateReplica i f).node i =
      { mesh.node i with replica := f (mesh.node i).replica } := by
  simp [node, updateReplica, h]

theorem node_updateReplica_of_ne {f : Replica → Replica} (h : i ≠ j) :
    (mesh.updateReplica i f).node j = mesh.node j := by
  simp [node, updateReplica, h]

theorem length_updateReplica {f : Replica → Replica} :
    (mesh.updateReplica i f).nodes.length = mesh.nodes.length :=
  List.length_modify _ _ _

/-- Two nodes may change in either order, and one node twice in the same way. -/
theorem updateReplica_comm {f : Replica → Replica} :
    (mesh.updateReplica i f).updateReplica j f = (mesh.updateReplica j f).updateReplica i f := by
  have hnodes : ∀ g : Node → Node,
      (mesh.nodes.modify i g).modify j g = (mesh.nodes.modify j g).modify i g := by
    intro g
    refine List.ext_getElem? fun k => ?_
    simp only [List.getElem?_modify]
    by_cases hi : i = k <;> by_cases hj : j = k <;> simp [hi, hj]
  simp only [updateReplica, hnodes]

/-! ### The same operations for several nodes -/

/-- The mesh after nodes have taken in the same operations, one node after the other. -/
def spread (mesh : Mesh) (ops : List Operation) (targets : List Nat) : Mesh :=
  targets.foldl (fun mesh i => (mesh.receive i ops).2) mesh

theorem spread_cons : mesh.spread ops (i :: targets) = (mesh.receive i ops).2.spread ops targets :=
  rfl

theorem spread_append :
    mesh.spread ops (targets ++ others) = (mesh.spread ops targets).spread ops others :=
  List.foldl_append

/-- Nothing but the nodes changes. -/
theorem spread_eq :
    mesh.spread ops targets = { mesh with nodes := (mesh.spread ops targets).nodes } := by
  induction targets generalizing mesh with
  | nil => rfl
  | cons i targets ih =>
    rw [spread_cons, ih]
    rfl

theorem attached_spread : (mesh.spread ops targets).attached = mesh.attached := by
  rw [spread_eq]

theorem length_spread : (mesh.spread ops targets).nodes.length = mesh.nodes.length := by
  induction targets generalizing mesh with
  | nil => rfl
  | cons i targets ih =>
    rw [spread_cons, ih]
    exact length_updateReplica

theorem node_spread_of_notMem (h : i ∉ targets) :
    (mesh.spread ops targets).node i = mesh.node i := by
  induction targets generalizing mesh with
  | nil => rfl
  | cons j targets ih =>
    obtain ⟨hj, htargets⟩ := List.ne_and_not_mem_of_not_mem_cons h
    rw [spread_cons, ih htargets]
    exact node_updateReplica_of_ne hj.symm

/-- What taking in the operations keeps in a replica holds of it to the end. -/
theorem spread_induction {P : Replica → Prop} (hreceive : ∀ r, P r → P (r.receive ops).2)
    (h : P (mesh.node i).replica) : P ((mesh.spread ops targets).node i).replica := by
  induction targets generalizing mesh with
  | nil => exact h
  | cons j targets ih =>
    rw [spread_cons]
    refine ih ?_
    rw [receive]
    by_cases hj : j = i
    · subst hj
      by_cases hlength : j < mesh.nodes.length
      · rw [node_updateReplica_self hlength]
        exact hreceive _ h
      · -- a number without a node stands for the same node throughout
        have hsame : mesh.updateReplica j (fun r => (r.receive ops).2) = mesh := by
          rw [updateReplica, List.modify_eq_self (Nat.le_of_not_lt hlength)]
        rwa [hsame]
    · rwa [node_updateReplica_of_ne hj]

/-- A node that was listed knows the operations. -/
theorem hasAll_spread (hi : i ∈ targets) (hlength : i < mesh.nodes.length) :
    ((mesh.spread ops targets).node i).replica.log.HasAll ops := by
  obtain ⟨before, after, rfl⟩ := List.append_of_mem hi
  rw [spread_append, spread_cons]
  refine spread_induction (P := fun r => r.log.HasAll ops) (fun r h => h.absorb) ?_
  rw [receive, node_updateReplica_self (by rwa [length_spread])]
  exact Replica.hasAll_receive

/-- A replica that knows the operations does not change. -/
theorem unchanged_spread (h : (mesh.node i).replica.log.HasAll ops) :
    (mesh.node i).replica.Unchanged ((mesh.spread ops targets).node i).replica := by
  refine spread_induction (P := (mesh.node i).replica.Unchanged) ?_ (Replica.unchanged_refl _)
  intro r hr
  refine hr.trans (Replica.unchanged_receive ?_)
  rw [hr.log]
  exact h

theorem spread_perm (h : targets.Perm others) : mesh.spread ops targets = mesh.spread ops others :=
  h.foldl_eq' (fun _ _ _ _ _ => updateReplica_comm) mesh

/-! ### Sound meshes -/

/-- Every address leads to a node that is there. -/
def Sound (mesh : Mesh) : Prop :=
  ∀ address attachment,
    mesh.attached.get? address = some attachment → attachment.node < mesh.nodes.length

theorem sound_empty : Sound {} :=
  nofun

section

variable {config : Config} {registered attached : Bool} {f : Attachment → Attachment}

theorem Sound.register (h : mesh.Sound) : (mesh.register i address).Sound :=
  h

theorem Sound.attach (h : mesh.Sound) (hi : i < mesh.nodes.length) :
    (mesh.attach i address).Sound := by
  intro other attachment hget
  rw [Mesh.attach, NameMap.get?_insert] at hget
  split at hget
  · cases hget
    exact hi
  · exact h other attachment hget

theorem Sound.add (h : mesh.Sound) : (mesh.add config address registered attached).Sound := by
  have hgrown : Sound { mesh with nodes := mesh.nodes ++ [.ofConfig config] } := by
    intro other attachment hget
    rw [List.length_append]
    exact Nat.lt_add_right _ (h other attachment hget)
  have hthere : mesh.nodes.length < (mesh.nodes ++ [Node.ofConfig config]).length := by
    rw [List.length_append]
    exact Nat.lt_succ_self _
  cases registered <;> cases attached
  · exact hgrown
  · exact hgrown.attach hthere
  · exact hgrown.register
  · exact hgrown.register.attach hthere

theorem Sound.updateAttached (h : mesh.Sound) (hf : ∀ a, (f a).node = a.node) :
    (mesh.updateAttached address f).Sound := by
  rw [Mesh.updateAttached]
  cases hold : mesh.attached.get? address with
  | none => exact h
  | some old =>
    intro other attachment hget
    dsimp only at hget
    rw [NameMap.get?_insert] at hget
    split at hget
    · cases hget
      rw [hf]
      exact h address old hold
    · exact h other attachment hget

theorem Sound.setReachable {reachable : Bool} (h : mesh.Sound) :
    (mesh.setReachable address reachable).Sound :=
  h.updateAttached fun _ => rfl

theorem Sound.setDelay {delay : Nat} (h : mesh.Sound) : (mesh.setDelay address delay).Sound :=
  h.updateAttached fun _ => rfl

theorem Sound.updateReplica {f : Replica → Replica} (h : mesh.Sound) :
    (mesh.updateReplica i f).Sound := by
  intro other attachment hget
  rw [length_updateReplica]
  exact h other attachment hget

theorem Sound.spread (h : mesh.Sound) : (mesh.spread ops targets).Sound := by
  intro other attachment hget
  rw [attached_spread] at hget
  rw [length_spread]
  exact h other attachment hget

end

end Mesh

end GossipLedger
