import GossipLedger.Proofs.Service.Spreading
import Mathlib.Logic.Relation

/-!
# Gossip rounds whose pushes overlap

The pushes of a gossip round run side by side.  A round (`Mesh.Round`) starts one push after the
other; each push that is under way lands at some time, in any order, and has arrived or not; and
those that have landed are counted, again in any order.  `Mesh.Round.Step` lists what can happen
next.  Time passes in between, and it may be late before anyone looks at a push.  A push that has
got there by then has arrived, also where the sender would have stopped waiting.

`Mesh.Round.Books` is what is true of a round at any time.  At its end (`Mesh.Ended`) the report is
truthful (`Mesh.Truthful`), and the sender has noticed nothing of the round.  From any state a round
can come to its end (`Mesh.Round.exists_over`).  If no push that was too slow has arrived after all,
report and mesh are those of `Mesh.gossip`, in which the pushes follow each other
(`Mesh.Ended.eq_gossip`).  All this is put together in `Mesh.gossip_truthful`.

The round needs addresses that lead to nodes which are there.  Every mesh has such addresses that
calls have built up from the empty one (`Mesh.Built.sound`).
-/

namespace GossipLedger

namespace Mesh

/-! ### Pushes -/

/-- What pushes to an address get to, if they are not cut off. -/
def goal? (mesh : Mesh) (address : String) : Option Attachment :=
  (mesh.attached.get? address).filter (·.reachable)

/-- The peers to which a round of a node pushes: none if they cannot be found. -/
def invited (mesh : Mesh) (i : Nat) : List Offer :=
  (mesh.peers i).toOption.getD []

/-- How a push has ended. -/
structure Outcome where
  /-- The peer. -/
  peer : Offer
  /-- Whether the push has arrived. -/
  arrived : Bool
  deriving DecidableEq

/-- The nodes that the pushes got to which have arrived. -/
def targets (mesh : Mesh) (outcomes : List Outcome) : List Nat :=
  outcomes.filterMap fun outcome =>
    if outcome.arrived then (mesh.goal? outcome.peer.address).map (·.node) else none

/-- How a push ends at which someone looks in time. -/
def prompt (mesh : Mesh) (timeout : Nat) (peer : Offer) : Outcome :=
  ⟨peer, (mesh.target? timeout peer.address).isSome⟩

/-- How the pushes of a round end if each is looked at in time. -/
def prompts (mesh : Mesh) (i : Nat) : List Outcome :=
  (mesh.invited i).map (mesh.prompt (mesh.node i).config.gossipTimeout)

/-- The report on pushes that have ended. -/
def tally (outcomes : List Outcome) : GossipReport where
  attempted := outcomes.length
  delivered := outcomes.countP (·.arrived)
  failed := outcomes.countP (!·.arrived)

/-- A push arrives only where there is something to get to, and fails only where it would have
taken too long. -/
structure Outcome.Possible (mesh : Mesh) (timeout : Nat) (outcome : Outcome) : Prop where
  /-- There is something to get to. -/
  arrived : outcome.arrived = true → ∃ goal, mesh.goal? outcome.peer.address = some goal
  /-- Nothing is there in time. -/
  missed : outcome.arrived = false → mesh.target? timeout outcome.peer.address = none

section

variable {mesh mesh' : Mesh} {i : Nat} {timeout : Nat} {address : String} {peer : Offer}
  {outcomes others : List Outcome} {goal : Attachment} {ops : List Operation}

theorem goal?_eq_some_iff : mesh.goal? address = some goal ↔
    mesh.attached.get? address = some goal ∧ goal.reachable = true :=
  Option.filter_eq_some_iff

theorem goal?_congr (h : mesh'.attached = mesh.attached) :
    mesh'.goal? address = mesh.goal? address := by
  rw [goal?, goal?, h]

theorem target?_congr (h : mesh'.attached = mesh.attached) :
    mesh'.target? timeout address = mesh.target? timeout address := by
  rw [target?, target?, h]

theorem prompt_congr (h : mesh'.attached = mesh.attached) :
    mesh'.prompt timeout = mesh.prompt timeout := by
  funext peer
  rw [prompt, prompt, target?_congr h]

/-- A push gets where it is not cut off, if it does not take too long. -/
theorem target?_eq_some_iff {j : Nat} : mesh.target? timeout address = some j ↔
    ∃ goal, mesh.goal? address = some goal ∧ goal.delay ≤ timeout ∧ goal.node = j := by
  simp only [goal?_eq_some_iff, target?]
  cases mesh.attached.get? address <;> simp [and_assoc]

theorem target?_eq_none_iff : mesh.target? timeout address = none ↔
    ∀ goal, mesh.goal? address = some goal → timeout < goal.delay := by
  rw [Option.eq_none_iff_forall_ne_some]
  constructor
  · intro h goal hgoal
    exact Nat.lt_of_not_le fun hdelay => h _ (target?_eq_some_iff.2 ⟨goal, hgoal, hdelay, rfl⟩)
  · intro h j hj
    obtain ⟨goal, hgoal, hdelay, -⟩ := target?_eq_some_iff.1 hj
    exact Nat.not_le_of_lt (h goal hgoal) hdelay

theorem mem_targets_iff {j : Nat} : j ∈ mesh.targets outcomes ↔
    ∃ outcome ∈ outcomes, outcome.arrived = true ∧
      ∃ goal, mesh.goal? outcome.peer.address = some goal ∧ goal.node = j := by
  simp [targets]

theorem targets_append :
    mesh.targets (outcomes ++ others) = mesh.targets outcomes ++ mesh.targets others :=
  List.filterMap_append

theorem targets_arrived (h : mesh.goal? peer.address = some goal) :
    mesh.targets [⟨peer, true⟩] = [goal.node] := by
  simp [targets, h]

theorem targets_missed : mesh.targets [⟨peer, false⟩] = [] :=
  rfl

theorem tally_append_singleton {arrived : Bool} :
    tally (outcomes ++ [⟨peer, arrived⟩]) = (tally outcomes).count arrived := by
  cases arrived <;> simp [tally, GossipReport.count]

theorem targets_perm (h : outcomes.Perm others) :
    (mesh.targets outcomes).Perm (mesh.targets others) :=
  h.filterMap _

theorem attempted_tally :
    (tally outcomes).attempted = (tally outcomes).delivered + (tally outcomes).failed := by
  simpa [tally] using List.length_eq_countP_add_countP (l := outcomes) (·.arrived)

theorem tally_perm (h : outcomes.Perm others) : tally outcomes = tally others := by
  rw [tally, tally, h.length_eq, h.countP_eq, h.countP_eq]

/-- A round in which the pushes follow each other. -/
theorem gossip_eq : mesh.gossip i = (tally (mesh.prompts i),
    mesh.spread (mesh.node i).replica.snapshot (mesh.targets (mesh.prompts i))) := by
  have hround : ∀ timeout ops peers, gossipRound (push timeout ops) peers mesh =
      (tally (peers.map (mesh.prompt timeout)),
        mesh.spread ops (mesh.targets (peers.map (mesh.prompt timeout)))) := by
    intro timeout ops peers
    -- along the pushes, the last one last
    induction peers using List.reverseRecOn with
    | nil => rfl
    | append_singleton peers peer ih =>
      rw [gossipRound, List.foldl_append, ← gossipRound, ih, List.foldl_cons, List.foldl_nil]
      dsimp only
      rw [push, target?_congr attached_spread, List.map_append, targets_append, spread_append]
      cases htarget : mesh.target? timeout peer.address with
      | none =>
        have houtcome : mesh.prompt timeout peer = ⟨peer, false⟩ := by rw [prompt, htarget]; rfl
        rw [List.map_singleton, houtcome, tally_append_singleton]
        rfl
      | some j =>
        have houtcome : mesh.prompt timeout peer = ⟨peer, true⟩ := by rw [prompt, htarget]; rfl
        obtain ⟨goal, hgoal, -, rfl⟩ := target?_eq_some_iff.1 htarget
        rw [List.map_singleton, houtcome, tally_append_singleton, targets_arrived hgoal]
        rfl
  rw [gossip, prompts, invited]
  cases mesh.peers i with
  | ok peers => exact hround _ _ peers
  | error e => rfl

theorem Sound.gossip (h : mesh.Sound) : (mesh.gossip i).2.Sound := by
  rw [gossip_eq]
  exact h.spread

theorem Sound.conclude {answer : Answer} (h : mesh.Sound) : (mesh.conclude i answer).2.Sound := by
  cases answer with
  | reply response => exact h
  | accepted response =>
    rw [Mesh.conclude]
    split
    · exact h.gossip
    · exact h
  | round => exact h.gossip

/-- A node carries something out, and the mesh does what its answer demands. -/
theorem Sound.served {served : Except CounterOverflow (Answer × Replica)} {reply : Reply}
    (h : mesh.Sound)
    (hserved : (do
      let (answer, replica) ← served
      return (mesh.updateReplica i fun _ => replica).conclude i answer) = .ok (reply, mesh')) :
    mesh'.Sound := by
  cases served with
  | error overflow => cases hserved
  | ok served =>
    have hmesh : ((mesh.updateReplica i fun _ => served.2).conclude i served.1).2 = mesh' :=
      congrArg Prod.snd (Except.ok.inj hserved)
    rw [← hmesh]
    exact h.updateReplica.conclude

theorem Sound.handle {request : Request} {reply : Reply} (h : mesh.Sound)
    (hhandle : mesh.handle i request = .ok (reply, mesh')) : mesh'.Sound :=
  h.served hhandle

theorem Sound.handleFrame {frame : Wire.Frame} {reply : Reply} (h : mesh.Sound)
    (hhandle : mesh.handleFrame i frame = .ok (reply, mesh')) : mesh'.Sound :=
  h.served hhandle

end

/-! ### Rounds -/

/-- A push that is under way. -/
structure Flight where
  /-- The peer. -/
  peer : Offer
  /-- When the push was started. -/
  since : Nat
  deriving DecidableEq

/-- A gossip round at some time. -/
structure Round where
  /-- The mesh. -/
  mesh : Mesh
  /-- The peers to which no push has been started. -/
  ahead : List Offer
  /-- The time since the start of the round, in milliseconds. -/
  time : Nat := 0
  /-- The pushes that are under way. -/
  flights : List Flight := []
  /-- The pushes that have ended and are not counted. -/
  landed : List Outcome := []
  /-- The pushes that have ended and are counted. -/
  counted : List Outcome := []
  /-- What has been counted. -/
  report : GossipReport := {}

namespace Round

/-- The pushes that have ended. -/
def outcomes (round : Round) : List Outcome :=
  round.counted ++ round.landed

/-- Time has passed. -/
def after (round : Round) (n : Nat) : Round :=
  { round with time := round.time + n }

/-- A push to the next peer is started. -/
def launch (round : Round) (peer : Offer) (rest : List Offer) : Round :=
  { round with
    ahead := rest
    flights := round.flights ++ [⟨peer, round.time⟩]
    report := { round.report with attempted := round.report.attempted + 1 } }

/-- A push is over. -/
def land (round : Round) (flight : Flight) (arrived : Bool) : Round :=
  { round with
    flights := round.flights.erase flight
    landed := round.landed ++ [⟨flight.peer, arrived⟩] }

/-- A push that is over is counted. -/
def book (round : Round) (outcome : Outcome) : Round :=
  { round with
    landed := round.landed.erase outcome
    counted := round.counted ++ [outcome]
    report := { round.report with
      delivered := round.report.delivered + if outcome.arrived then 1 else 0
      failed := round.report.failed + if outcome.arrived then 0 else 1 } }

/-- What can happen next in a round in which operations are pushed. -/
inductive Step (timeout : Nat) (ops : List Operation) : Round → Round → Prop where
  /-- Time passes. -/
  | wait {round : Round} : Step timeout ops round (round.after 1)
  /-- The push to the next peer is started. -/
  | start {round : Round} {peer : Offer} {rest : List Offer} (hahead : round.ahead = peer :: rest) :
    Step timeout ops round (round.launch peer rest)
  /-- A push is found to have got there, and the replica takes in the operations. -/
  | arrive {round : Round} {flight : Flight} {goal : Attachment} (hflight : flight ∈ round.flights)
    (hgoal : round.mesh.goal? flight.peer.address = some goal)
    (hthere : flight.since + goal.delay ≤ round.time) :
    Step timeout ops round
      { round.land flight true with mesh := (round.mesh.receive goal.node ops).2 }
  /-- A push is given up: it gets nowhere, or it is not there after the time the sender waits. -/
  | miss {round : Round} {flight : Flight} (hflight : flight ∈ round.flights)
    (hmissed : ∀ goal, round.mesh.goal? flight.peer.address = some goal →
      flight.since + timeout ≤ round.time ∧ round.time < flight.since + goal.delay) :
    Step timeout ops round (round.land flight false)
  /-- After all pushes have been started, one that has ended is counted. -/
  | count {round : Round} {outcome : Outcome} (hstarted : round.ahead = [])
    (hlanded : outcome ∈ round.landed) :
    Step timeout ops round (round.book outcome)

/-- What can happen in several steps. -/
abbrev Reaches (timeout : Nat) (ops : List Operation) : Round → Round → Prop :=
  Relation.ReflTransGen (Step timeout ops)

/-- All pushes have ended and are counted. -/
structure Over (round : Round) : Prop where
  /-- No push is ahead. -/
  ahead : round.ahead = []
  /-- None is under way. -/
  flights : round.flights = []
  /-- None is still to be counted. -/
  landed : round.landed = []

/-- What is true of a round at any time, given the mesh and the peers at its start. -/
structure Books (mesh : Mesh) (peers : List Offer) (timeout : Nat) (ops : List Operation)
    (round : Round) : Prop where
  /-- For each peer there is one push, which has ended, is under way or is ahead. -/
  places : (round.outcomes.map (·.peer) ++ (round.flights.map (·.peer) ++ round.ahead)).Perm peers
  /-- The operations have got to where pushes have arrived, and nothing else has happened. -/
  reached : round.mesh = mesh.spread ops (mesh.targets round.outcomes)
  /-- The pushes that have ended have done so for a reason. -/
  possible : ∀ outcome ∈ round.outcomes, outcome.Possible mesh timeout
  /-- The pushes that were started are counted as attempted. -/
  attempted : round.report.attempted + round.ahead.length = peers.length
  /-- Of those that have ended the ones that have arrived are counted. -/
  delivered : round.report.delivered = round.counted.countP (·.arrived)
  /-- The others are counted, too. -/
  failed : round.report.failed = round.counted.countP (!·.arrived)

section

variable {mesh : Mesh} {peers : List Offer} {timeout : Nat} {ops : List Operation}
  {round later : Round} {flight : Flight} {arrived : Bool}

/-- A round that has just been opened. -/
theorem books_open : Books mesh peers timeout ops { mesh, ahead := peers } where
  places := .refl _
  reached := rfl
  possible := nofun
  attempted := Nat.zero_add _
  delivered := rfl
  failed := rfl

theorem Books.goal?_eq (h : Books mesh peers timeout ops round) (address : String) :
    round.mesh.goal? address = mesh.goal? address :=
  goal?_congr (by rw [h.reached, attached_spread])

theorem outcomes_land : (round.land flight arrived).outcomes =
    round.outcomes ++ [⟨flight.peer, arrived⟩] :=
  (List.append_assoc _ _ _).symm

/-- When a push ends its peer only changes places. -/
theorem Books.places_land (h : Books mesh peers timeout ops round)
    (hflight : flight ∈ round.flights) : ((round.land flight arrived).outcomes.map (·.peer) ++
      ((round.land flight arrived).flights.map (·.peer) ++ round.ahead)).Perm peers := by
  have hflights : (round.flights.map (·.peer)).Perm
      (flight.peer :: (round.flights.erase flight).map (·.peer)) :=
    (List.perm_cons_erase hflight).map _
  rw [outcomes_land, List.map_append, List.append_assoc]
  refine .trans (.append_left _ ?_) h.places
  exact hflights.symm.append_right _

theorem Books.possible_land (h : Books mesh peers timeout ops round)
    (hnew : Outcome.Possible mesh timeout ⟨flight.peer, arrived⟩) :
    ∀ outcome ∈ (round.land flight arrived).outcomes, outcome.Possible mesh timeout := by
  rw [outcomes_land]
  intro outcome houtcome
  rcases List.mem_append.1 houtcome with hold | hlast
  · exact h.possible outcome hold
  · rw [List.mem_singleton.1 hlast]
    exact hnew

/-- Whatever happens next, the books stay in order. -/
theorem Books.step (h : Books mesh peers timeout ops round) (hstep : Step timeout ops round later) :
    Books mesh peers timeout ops later := by
  cases hstep with
  | wait => exact ⟨h.places, h.reached, h.possible, h.attempted, h.delivered, h.failed⟩
  | @start peer rest hahead =>
    refine ⟨?_, h.reached, h.possible, ?_, h.delivered, h.failed⟩
    · have hplaces := h.places
      rw [hahead] at hplaces
      rw [launch, List.map_append, List.append_assoc]
      exact hplaces
    · have hattempted := h.attempted
      rw [hahead, List.length_cons] at hattempted
      dsimp only [launch]
      omega
  | @arrive flight goal hflight hgoal hthere =>
    rw [h.goal?_eq] at hgoal
    refine ⟨h.places_land hflight, ?_, h.possible_land ⟨fun _ => ⟨goal, hgoal⟩, nofun⟩, h.attempted,
      h.delivered, h.failed⟩
    have houtcomes : mesh.targets (round.land flight true).outcomes =
        mesh.targets round.outcomes ++ [goal.node] := by
      rw [outcomes_land, targets_append, targets_arrived hgoal]
    change (round.mesh.receive goal.node ops).2 =
      mesh.spread ops (mesh.targets (round.land flight true).outcomes)
    rw [houtcomes, spread_append, ← h.reached]
    rfl
  | @miss flight hflight hmissed =>
    have hslow : mesh.target? timeout flight.peer.address = none := by
      refine target?_eq_none_iff.2 fun goal hgoal => ?_
      obtain ⟨hwaited, hunderway⟩ := hmissed goal (by rwa [h.goal?_eq])
      omega
    refine ⟨h.places_land hflight, ?_, h.possible_land ⟨nofun, fun _ => hslow⟩, h.attempted,
      h.delivered, h.failed⟩
    rw [outcomes_land, targets_append, targets_missed, List.append_nil]
    exact h.reached
  | @count outcome hstarted hlanded =>
    -- the push moves from the one list to the other
    have hmoved : ((round.counted ++ [outcome]) ++ round.landed.erase outcome).Perm
        round.outcomes := by
      rw [List.append_assoc]
      exact .append_left _ (List.perm_cons_erase hlanded).symm
    refine ⟨.trans (.append_right _ (hmoved.map _)) h.places, ?_, ?_, h.attempted, ?_, ?_⟩
    · exact h.reached.trans (spread_perm (targets_perm hmoved.symm))
    · exact fun q hq => h.possible q (hmoved.mem_iff.1 hq)
    · dsimp only [book]
      rw [h.delivered, List.countP_append, List.countP_singleton]
    · dsimp only [book]
      rw [h.failed, List.countP_append, List.countP_singleton]
      cases outcome.arrived <;> rfl

theorem Books.reaches (h : Books mesh peers timeout ops round)
    (hreaches : Reaches timeout ops round later) : Books mesh peers timeout ops later := by
  induction hreaches with
  | refl => exact h
  | tail _ hstep ih => exact ih.step hstep

/-! ### The way to the end -/

theorem reaches_after (n : Nat) : Reaches timeout ops round (round.after n) := by
  induction n with
  | zero => exact .refl
  | succ n ih => exact ih.tail .wait

/-- A push can end in this way, if only time passes until then. -/
def CanLand (timeout : Nat) (ops : List Operation) (round : Round) (flight : Flight)
    (arrived : Bool) : Prop :=
  ∃ n mesh, mesh.attached = round.mesh.attached ∧
    Reaches timeout ops round { (round.after n).land flight arrived with mesh }

/-- A push that gets somewhere is there after some time. -/
theorem canLand_of_goal? {goal : Attachment} (hflight : flight ∈ round.flights)
    (hgoal : round.mesh.goal? flight.peer.address = some goal) :
    CanLand timeout ops round flight true := by
  have hthere : flight.since + goal.delay ≤ round.time + (flight.since + goal.delay) :=
    Nat.le_add_left _ _
  have harrive : Step timeout ops (round.after (flight.since + goal.delay)) _ :=
    .arrive hflight hgoal hthere
  exact ⟨_, (round.mesh.receive goal.node ops).2, rfl, (reaches_after _).tail harrive⟩

/-- Every push can end. -/
theorem exists_canLand (hflight : flight ∈ round.flights) :
    ∃ arrived, CanLand timeout ops round flight arrived := by
  cases hgoal : round.mesh.goal? flight.peer.address with
  | none =>
    have hmiss : Step timeout ops round (round.land flight false) :=
      .miss hflight (by rw [hgoal]; nofun)
    exact ⟨false, 0, _, rfl, .single hmiss⟩
  | some goal => exact ⟨true, canLand_of_goal? hflight hgoal⟩

/-- If someone looks at a push in time it ends as it does where pushes follow each other. -/
theorem canLand_prompt (hflight : flight ∈ round.flights) (hsince : flight.since = round.time) :
    CanLand timeout ops round flight (round.mesh.prompt timeout flight.peer).arrived := by
  cases htarget : round.mesh.target? timeout flight.peer.address with
  | some j =>
    obtain ⟨goal, hgoal, -⟩ := target?_eq_some_iff.1 htarget
    rw [prompt, htarget]
    exact canLand_of_goal? hflight hgoal
  | none =>
    -- the sender waits as long as it does, and nothing has happened
    have hmiss : Step timeout ops (round.after timeout)
        ((round.after timeout).land flight false) := by
      refine .miss hflight fun goal hgoal => ?_
      have hslow : timeout < goal.delay := target?_eq_none_iff.1 htarget goal hgoal
      rw [hsince]
      exact ⟨Nat.le_refl _, Nat.add_lt_add_left hslow _⟩
    rw [prompt, htarget]
    exact ⟨timeout, _, rfl, (reaches_after _).tail hmiss⟩

/-- The steps that a round needs to the end, without those in which time passes. -/
def work (round : Round) : Nat :=
  3 * round.ahead.length + 2 * round.flights.length + round.landed.length

/-- As long as a round is not over it can get closer to its end. -/
theorem exists_work_lt (h : ¬ round.Over) :
    ∃ later, Reaches timeout ops round later ∧ later.work < round.work := by
  cases hahead : round.ahead with
  | cons peer rest =>
    refine ⟨_, .single (.start hahead), ?_⟩
    simp only [work, launch, hahead, List.length_cons, List.length_append, List.length_nil]
    omega
  | nil =>
    cases hflights : round.flights with
    | cons flight rest =>
      have hflight : flight ∈ round.flights := by
        rw [hflights]
        exact List.mem_cons_self
      obtain ⟨arrived, n, mesh, -, hreaches⟩ :
          ∃ arrived, CanLand timeout ops round flight arrived := exists_canLand hflight
      refine ⟨_, hreaches, ?_⟩
      have hlength : (round.flights.erase flight).length = round.flights.length - 1 :=
        List.length_erase_of_mem hflight
      have hpos : 0 < round.flights.length := List.length_pos_of_mem hflight
      simp only [work, land, after, hlength, List.length_append, List.length_singleton]
      omega
    | nil =>
      cases hlanded : round.landed with
      | cons outcome rest =>
        have houtcome : outcome ∈ round.landed := by
          rw [hlanded]
          exact List.mem_cons_self
        refine ⟨_, .single (.count hahead houtcome), ?_⟩
        simp only [work, book, hlanded, List.erase_cons_head, List.length_cons]
        omega
      | nil => exact absurd ⟨hahead, hflights, hlanded⟩ h

/-- From any time on, a round can come to its end. -/
theorem exists_over (round : Round) : ∃ final, Reaches timeout ops round final ∧ final.Over := by
  induction hwork : round.work using Nat.strongRecOn generalizing round with
  | ind n ih =>
    by_cases hover : round.Over
    · exact ⟨round, .refl, hover⟩
    · obtain ⟨later, hlater, hless⟩ : ∃ later, Reaches timeout ops round later ∧
          later.work < round.work := exists_work_lt hover
      obtain ⟨final, hreaches, hend⟩ := ih later.work (hwork ▸ hless) later rfl
      exact ⟨final, hlater.trans hreaches, hend⟩

/-- All pushes that are ahead can be over, each looked at in time. -/
theorem exists_landed_prompt (hahead : round.ahead = peers) (hflights : round.flights = []) :
    ∃ later, Reaches timeout ops round later ∧ later.ahead = [] ∧ later.flights = [] ∧
      later.landed = round.landed ++ peers.map (round.mesh.prompt timeout) ∧
        later.counted = round.counted := by
  -- one push after the other
  induction peers generalizing round with
  | nil => exact ⟨round, .refl, hahead, hflights, (List.append_nil _).symm, rfl⟩
  | cons peer rest ih =>
    have hflight : ⟨peer, round.time⟩ ∈ (round.launch peer rest).flights :=
      List.mem_append_right _ List.mem_cons_self
    have hnone : (round.launch peer rest).flights.erase ⟨peer, round.time⟩ = [] := by
      simp [launch, hflights]
    obtain ⟨n, mesh, hattached, hland⟩ :
        CanLand timeout ops (round.launch peer rest) ⟨peer, round.time⟩ _ :=
      canLand_prompt hflight rfl
    obtain ⟨later, hlater, hahead', hflights', hlanded, hcounted⟩ :=
      @ih { ((round.launch peer rest).after n).land ⟨peer, round.time⟩ _ with mesh } rfl hnone
    refine ⟨later, (hland.head (.start hahead)).trans hlater, hahead', hflights', ?_, hcounted⟩
    rw [hlanded, prompt_congr hattached]
    exact List.append_assoc _ _ _

/-- All pushes that have ended can be counted. -/
theorem exists_counted {landed : List Outcome} (hahead : round.ahead = [])
    (hlanded : round.landed = landed) : ∃ later, Reaches timeout ops round later ∧
      later.ahead = [] ∧ later.flights = round.flights ∧ later.landed = [] ∧
        later.counted = round.counted ++ landed := by
  induction landed generalizing round with
  | nil => exact ⟨round, .refl, hahead, rfl, hlanded, (List.append_nil _).symm⟩
  | cons outcome rest ih =>
    have houtcome : outcome ∈ round.landed := by
      rw [hlanded]
      exact List.mem_cons_self
    have hrest : round.landed.erase outcome = rest := by
      rw [hlanded, List.erase_cons_head]
    obtain ⟨later, hlater, hahead', hflights, hnone, hcounted⟩ :=
      @ih (round.book outcome) hahead hrest
    refine ⟨later, hlater.head (.count hahead houtcome), hahead', hflights, hnone, ?_⟩
    rw [hcounted]
    exact List.append_assoc _ _ _

/-- A round can come to its end in such a way that each push is looked at in time. -/
theorem exists_over_prompt : ∃ final, Reaches timeout ops { mesh, ahead := peers } final ∧
    final.Over ∧ final.counted = peers.map (mesh.prompt timeout) := by
  obtain ⟨landed, hlanded, hahead, hflights, houtcomes, hcounted⟩ :
      ∃ later, Reaches timeout ops { mesh, ahead := peers } later ∧ later.ahead = [] ∧
        later.flights = [] ∧ later.landed = [] ++ peers.map (mesh.prompt timeout) ∧
          later.counted = [] := exists_landed_prompt rfl rfl
  obtain ⟨final, hover, hahead', hflights', hnone, hcounted'⟩ :
      ∃ later, Reaches timeout ops landed later ∧ later.ahead = [] ∧
        later.flights = landed.flights ∧ later.landed = [] ∧
          later.counted = landed.counted ++ ([] ++ peers.map (mesh.prompt timeout)) :=
    exists_counted hahead houtcomes
  refine ⟨final, hlanded.trans hover, ⟨hahead', hflights'.trans hflights, hnone⟩, ?_⟩
  rw [hcounted', hcounted]
  rfl

end

end Round

/-! ### What a round has done at its end -/

/-- The steps of a gossip round of a node. -/
abbrev Leads (mesh : Mesh) (i : Nat) : Round → Round → Prop :=
  Round.Reaches (mesh.node i).config.gossipTimeout (mesh.node i).replica.snapshot

/-- A gossip round of a node at its start. -/
def opened (mesh : Mesh) (i : Nat) : Round :=
  { mesh, ahead := mesh.invited i }

/-- A gossip round of a node at an end of it. -/
structure Ended (mesh : Mesh) (i : Nat) (round : Round) : Prop where
  /-- The round has come to this. -/
  reached : mesh.Leads i (mesh.opened i) round
  /-- It is over. -/
  complete : round.Over

/-- The report of a round of a node says what the round has done, and to the node itself it has
done nothing. -/
structure Truthful (mesh : Mesh) (i : Nat) (round : Round) : Prop where
  /-- There was one push to each peer. -/
  peers : (round.counted.map (·.peer)).Perm (mesh.invited i)
  /-- As many were attempted as there are offers of the service with another qualifier; none, if
  the registry could not be asked. -/
  attempted : round.report.attempted =
    if mesh.outage = none then
      (mesh.registry.offers (mesh.node i).config.service).countP fun offer =>
        offer.qualifier ≠ (mesh.node i).config.qualifier
    else 0
  /-- The pushes that have arrived were counted as delivered. -/
  delivered : round.report.delivered = round.counted.countP (·.arrived)
  /-- Each attempt was delivered or failed. -/
  sum : round.report.attempted = round.report.delivered + round.report.failed
  /-- A push that was delivered got to a replica, and that holds all that was sent. -/
  informed : ∀ outcome ∈ round.counted, outcome.arrived = true →
    ∃ goal, mesh.goal? outcome.peer.address = some goal ∧
      (round.mesh.node goal.node).replica.log.HasAll (mesh.node i).replica.snapshot
  /-- A push that has failed could not have been there in time. -/
  missed : ∀ outcome ∈ round.counted, outcome.arrived = false →
    mesh.target? (mesh.node i).config.gossipTimeout outcome.peer.address = none
  /-- A node to which no push was delivered is what it was. -/
  spared : ∀ j, (∀ outcome ∈ round.counted, outcome.arrived = true →
      ∀ goal, mesh.goal? outcome.peer.address = some goal → goal.node ≠ j) →
    round.mesh.node j = mesh.node j
  /-- The replica of the sender is what it was, also where pushes got back to it. -/
  sender : (mesh.node i).replica.Unchanged (round.mesh.node i).replica
  /-- The registry and the addresses are what they were. -/
  surroundings : round.mesh = { mesh with nodes := round.mesh.nodes }

section

variable {mesh : Mesh} {i : Nat} {round : Round}

theorem length_invited : (mesh.invited i).length =
    if mesh.outage = none then
      (mesh.registry.offers (mesh.node i).config.service).countP fun offer =>
        offer.qualifier ≠ (mesh.node i).config.qualifier
    else 0 := by
  rw [invited, peers]
  cases mesh.outage with
  | some reason => rfl
  | none =>
    rw [if_pos rfl, List.countP_eq_length_filter]
    change (mesh.registry.others _ _).length = _
    rw [Registry.others, Registry.lookup_eq_offers]

theorem Ended.books (h : mesh.Ended i round) : Round.Books mesh (mesh.invited i)
    (mesh.node i).config.gossipTimeout (mesh.node i).replica.snapshot round :=
  Round.books_open.reaches h.reached

/-- At the end, all pushes are counted. -/
theorem Ended.outcomes_eq (h : mesh.Ended i round) : round.outcomes = round.counted := by
  rw [Round.outcomes, h.complete.landed, List.append_nil]

theorem Ended.peers (h : mesh.Ended i round) :
    (round.counted.map (·.peer)).Perm (mesh.invited i) := by
  have hplaces := h.books.places
  rwa [h.outcomes_eq, h.complete.flights, h.complete.ahead, List.map_nil, List.nil_append,
    List.append_nil] at hplaces

theorem Ended.mesh_eq (h : mesh.Ended i round) :
    round.mesh = mesh.spread (mesh.node i).replica.snapshot (mesh.targets round.counted) := by
  rw [← h.outcomes_eq]
  exact h.books.reached

theorem Ended.possible (h : mesh.Ended i round) :
    ∀ outcome ∈ round.counted, outcome.Possible mesh (mesh.node i).config.gossipTimeout := by
  rw [← h.outcomes_eq]
  exact h.books.possible

theorem Ended.report_eq (h : mesh.Ended i round) : round.report = tally round.counted := by
  have hattempted := h.books.attempted
  rw [h.complete.ahead, List.length_nil, Nat.add_zero, ← h.peers.length_eq, List.length_map]
    at hattempted
  rw [tally, ← hattempted, ← h.books.delivered, ← h.books.failed]

/-- Where no push has arrived that took too long, the round has done what it does when its pushes
follow each other. -/
theorem Ended.eq_gossip (h : mesh.Ended i round)
    (hprompt : ∀ outcome ∈ round.counted, outcome.arrived = true →
      mesh.target? (mesh.node i).config.gossipTimeout outcome.peer.address ≠ none) :
    (round.report, round.mesh) = mesh.gossip i := by
  have hcounted : round.counted =
      (round.counted.map (·.peer)).map (mesh.prompt (mesh.node i).config.gossipTimeout) := by
    rw [List.map_map]
    refine (List.map_id _).symm.trans (List.map_congr_left fun outcome houtcome => ?_)
    obtain ⟨peer, arrived⟩ := outcome
    cases arrived with
    | true =>
      have hthere := Option.ne_none_iff_isSome.1 (hprompt _ houtcome rfl)
      exact congrArg (Outcome.mk peer) hthere.symm
    | false =>
      have hmissed := (h.possible _ houtcome).missed rfl
      exact congrArg (Outcome.mk peer) (congrArg Option.isSome hmissed).symm
  have hsame : round.counted.Perm (mesh.prompts i) := by
    rw [hcounted]
    exact h.peers.map _
  rw [gossip_eq, h.report_eq, h.mesh_eq, tally_perm hsame, spread_perm (targets_perm hsame)]

theorem Ended.truthful (h : mesh.Ended i round) (hsound : mesh.Sound) : mesh.Truthful i round where
  peers := h.peers
  attempted := by
    rw [← length_invited, ← h.peers.length_eq, List.length_map, h.report_eq]
    rfl
  delivered := h.books.delivered
  sum := by
    rw [h.report_eq]
    exact attempted_tally
  informed := by
    intro outcome houtcome harrived
    obtain ⟨goal, hgoal⟩ := (h.possible outcome houtcome).arrived harrived
    refine ⟨goal, hgoal, ?_⟩
    rw [h.mesh_eq]
    refine hasAll_spread (mem_targets_iff.2 ⟨outcome, houtcome, harrived, goal, hgoal, rfl⟩) ?_
    exact hsound _ goal (goal?_eq_some_iff.1 hgoal).1
  missed := fun outcome houtcome => (h.possible outcome houtcome).missed
  spared := by
    intro j hj
    rw [h.mesh_eq]
    refine node_spread_of_notMem fun hmem => ?_
    obtain ⟨outcome, houtcome, harrived, goal, hgoal, hnode⟩ := mem_targets_iff.1 hmem
    exact hj outcome houtcome harrived goal hgoal hnode
  sender := by
    rw [h.mesh_eq]
    exact unchanged_spread (Log.hasAll_of_contents fun _ hx => hx)
  surroundings := by
    rw [h.mesh_eq]
    exact spread_eq

/-! ### Meshes that calls build -/

/-- What calls can make of a mesh without nodes.  Registry and outage may change in any way, and so
may the replica of a node; a replica is attached at an address only if its node is there. -/
inductive Built : Mesh → Prop where
  /-- There are no nodes yet. -/
  | empty : Built {}
  /-- A node is added. -/
  | add {mesh : Mesh} (h : Built mesh) (config : Config) (address : String)
    (registered attached : Bool) : Built (mesh.add config address registered attached)
  /-- A node is registered at one more address. -/
  | register {mesh : Mesh} (h : Built mesh) (i : Nat) (address : String) :
    Built (mesh.register i address)
  /-- The registry is changed by others, or cannot be asked any more, or can again. -/
  | lookups {mesh : Mesh} (h : Built mesh) (registry : Registry) (outage : Option String) :
    Built { mesh with registry, outage }
  /-- A replica is attached at one more address. -/
  | attach {mesh : Mesh} (h : Built mesh) {i : Nat} (hi : i < mesh.nodes.length)
    (address : String) : Built (mesh.attach i address)
  /-- An address is cut off, or is within reach again. -/
  | reach {mesh : Mesh} (h : Built mesh) (address : String) (reachable : Bool) :
    Built (mesh.setReachable address reachable)
  /-- Pushes to an address take another time. -/
  | delay {mesh : Mesh} (h : Built mesh) (address : String) (delay : Nat) :
    Built (mesh.setDelay address delay)
  /-- The replica of a node changes. -/
  | update {mesh : Mesh} (h : Built mesh) (i : Nat) (f : Replica → Replica) :
    Built (mesh.updateReplica i f)
  /-- A round takes place in which pushes follow each other. -/
  | gossip {mesh : Mesh} (h : Built mesh) (i : Nat) : Built (mesh.gossip i).2
  /-- A round takes place in which pushes overlap. -/
  | round {mesh : Mesh} (h : Built mesh) {i : Nat} {round : Round}
    (hended : mesh.Ended i round) : Built round.mesh
  /-- A request is carried out. -/
  | handle {mesh mesh' : Mesh} (h : Built mesh) {i : Nat} {request : Request} {reply : Reply}
    (hhandle : mesh.handle i request = .ok (reply, mesh')) : Built mesh'
  /-- The request in a frame is carried out. -/
  | handleFrame {mesh mesh' : Mesh} (h : Built mesh) {i : Nat} {frame : Wire.Frame} {reply : Reply}
    (hhandle : mesh.handleFrame i frame = .ok (reply, mesh')) : Built mesh'

/-- **In every mesh that calls build, addresses lead to nodes that are there.** -/
theorem Built.sound (h : Built mesh) : mesh.Sound := by
  induction h with
  | empty => exact sound_empty
  | add _ _ _ _ _ ih => exact ih.add
  | register _ _ _ ih => exact ih.register
  | lookups _ _ _ ih => exact ih
  | attach _ hi _ ih => exact ih.attach hi
  | reach _ _ _ ih => exact ih.setReachable
  | delay _ _ _ ih => exact ih.setDelay
  | update _ _ _ ih => exact ih.updateReplica
  | gossip _ _ ih => exact ih.gossip
  | round _ hended ih =>
    rw [hended.mesh_eq]
    exact ih.spread
  | handle _ hhandle ih => exact ih.handle hhandle
  | handleFrame _ hhandle ih => exact ih.handleFrame hhandle

/-- **A gossip round reports what it has done**, in whatever order its pushes get along, and the
sender is as before.  A round can always come to its end, and in one of the ways in which it can it
is `Mesh.gossip`. -/
theorem gossip_truthful (hsound : mesh.Sound) (i : Nat) :
    (∀ round, mesh.Ended i round → mesh.Truthful i round) ∧
      (∀ round, mesh.Leads i (mesh.opened i) round →
        ∃ final, mesh.Leads i round final ∧ mesh.Ended i final) ∧
      ∃ round, mesh.Ended i round ∧ (round.report, round.mesh) = mesh.gossip i := by
  refine ⟨fun round hended => hended.truthful hsound, ?_, ?_⟩
  · intro round hreached
    obtain ⟨final, hleads, hover⟩ := Round.exists_over round
    exact ⟨final, hleads, hreached.trans hleads, hover⟩
  · obtain ⟨final, hreached, hover, hcounted⟩ : ∃ final, mesh.Leads i (mesh.opened i) final ∧
        final.Over ∧ final.counted = mesh.prompts i := Round.exists_over_prompt
    have hended : mesh.Ended i final := ⟨hreached, hover⟩
    refine ⟨final, hended, hended.eq_gossip ?_⟩
    intro outcome houtcome harrived
    rw [hcounted] at houtcome
    obtain ⟨peer, -, rfl⟩ := List.mem_map.1 houtcome
    exact Option.ne_none_iff_isSome.2 harrived

end

/-! ### A round that gets back to its sender -/

/-- Three nodes, the first of which has written something.  One of the two addresses of the second
node leads back to the first one, and pushes to the third node take longer than it waits. -/
def crossed : Mesh :=
  let mesh : Mesh := {}
  let mesh := mesh.add { id := "A" } "a"
  let mesh := mesh.add { id := "B" } "b"
  let mesh := mesh.add { id := "C" } "c"
  let mesh := (mesh.register 1 "b2").attach 1 "b2"
  let mesh := mesh.attach 0 "b"
  let mesh := mesh.setDelay "c" 2000
  mesh.updateReplica 0 fun r => r.afterWrite (.create "x") .zero

theorem built_crossed : Built crossed := by
  have hadded : Built (((({} : Mesh).add { id := "A" } "a").add { id := "B" } "b").add
      { id := "C" } "c") := ((Built.empty.add ..).add ..).add ..
  have hattached := (hadded.register 1 "b2").attach (by decide : 1 < 3) "b2"
  have hdelayed := (hattached.attach (by decide : 0 < 3) "b").delay "c" 2000
  exact hdelayed.update 0 fun r => r.afterWrite (.create "x") .zero

theorem crossed_truthful : crossed.Sound ∧ ∃ round, crossed.Ended 0 round ∧
    round.report = { attempted := 3, delivered := 2, failed := 1 } ∧
      crossed.Truthful 0 round := by
  obtain ⟨htruthful, -, round, hended, hgossip⟩ := gossip_truthful built_crossed.sound 0
  have hreport : (crossed.gossip 0).1 = { attempted := 3, delivered := 2, failed := 1 } := by decide
  exact ⟨built_crossed.sound, round, hended, (congrArg Prod.fst hgossip).trans hreport,
    htruthful round hended⟩

end Mesh

end GossipLedger
