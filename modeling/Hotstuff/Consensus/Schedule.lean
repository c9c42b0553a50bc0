import Hotstuff.Consensus.SampleNode
import Hotstuff.Consensus.System

/-! Runs of a network on a schedule: which replica handles which input next. An
input is taken from what was gossiped so far, or made up by faulty authorities, so
every schedule is a run. -/

namespace Hotstuff

/-- The replicas of a network in a list, to run them. -/
abbrev Cluster (B C : Type) [BlockT B] := List (AuthorityId B × Replica B C)

/-- An input is a local timer, the message a replica was the `index`-th to gossip, or
one that nobody has gossiped. -/
inductive Input (B : Type) [BlockT B] where
  | timer
  | message (sender : AuthorityId B) (index : Nat)
  | forged (message : ConsensusMessage B)

variable {B C : Type} [BlockT B]

def Event.gossiped? : Event B → Option (ConsensusMessage B)
  | .gossip message _ => some message
  | _ => none

instance (network : Network B) (id : AuthorityId B) : Decidable (network.Honest id) :=
  inferInstanceAs (Decidable (_ ∧ _))

/-- The input comes from an honest replica, or is one that may be made up. -/
def Input.arrives (network : Network B) (forgeable : ConsensusMessage B → Bool) : Input B → Bool
  | .timer => true
  | .message sender _ => network.Honest sender
  | .forged made => forgeable made

/-- Every signature in the message is that of a faulty authority. -/
def ConsensusMessage.byFaulty (network : Network B) (message : ConsensusMessage B) : Bool :=
  message.signatures.all fun entry =>
    decide (entry.1 ∈ network.authorities.ids ∧ entry.1 ∈ network.faulty)

namespace Cluster

/-- The system a cluster stands for, with `rest` for the authorities outside. -/
def system (cluster : Cluster B C) (rest : System B C) : System B C :=
  fun id => (cluster.lookup id).getD (rest id)

def call? (cluster : Cluster B C) : Input B → Option (Call B)
  | .timer => some .localTimer
  | .message sender index =>
    (cluster.lookup sender).bind fun replica =>
      (replica.worker.log.filterMap Event.gossiped?)[index]?.bind Replica.callOf
  | .forged message => Replica.callOf message

def replace (cluster : Cluster B C) (id : AuthorityId B) (next : Replica B C) : Cluster B C :=
  cluster.map fun entry => if entry.1 = id then (id, next) else entry

theorem lookup_replace_of_ne {id other : AuthorityId B} (apart : other ≠ id)
    (cluster : Cluster B C) (next : Replica B C) :
    (cluster.replace id next).lookup other = cluster.lookup other := by
  induction cluster with
  | nil => rfl
  | cons entry rest ih =>
    obtain ⟨first, held⟩ := entry
    simp only [Cluster.replace, List.map_cons] at ih ⊢
    by_cases here : first = id
    · subst first
      simp only [if_true, List.lookup_cons, beq_false_of_ne apart, ih]
    · simp only [here, if_false, List.lookup_cons, ih]

theorem lookup_replace_self {cluster : Cluster B C} {id : AuthorityId B} {replica : Replica B C}
    (found : cluster.lookup id = some replica) (next : Replica B C) :
    (cluster.replace id next).lookup id = some next := by
  induction cluster with
  | nil => cases found
  | cons entry rest ih =>
    obtain ⟨first, held⟩ := entry
    simp only [Cluster.replace, List.map_cons] at ih ⊢
    by_cases here : first = id
    · simp [here]
    · rw [List.lookup_cons, beq_false_of_ne (Ne.symm here)] at found
      simp only [here, if_false, List.lookup_cons, beq_false_of_ne (Ne.symm here), ih found]

/-- Replacing a replica of a cluster updates the system. -/
theorem system_replace {cluster : Cluster B C} {id : AuthorityId B} {replica : Replica B C}
    (found : cluster.lookup id = some replica) (next : Replica B C) (rest : System B C) :
    (cluster.replace id next).system rest = Function.update (cluster.system rest) id next := by
  funext other
  by_cases same : other = id
  · subst other
    simp [system, lookup_replace_self found]
  · rw [Function.update_of_ne same]
    simp only [system, lookup_replace_of_ne same]

variable [ClientForHotstuff B C]

/-- A replica handles one input to its end. -/
def deliver (fuel : Nat) (cluster : Cluster B C) (turn : AuthorityId B × Input B) :
    Cluster B C :=
  match cluster.lookup turn.1, cluster.call? turn.2 with
  | some replica, some call => cluster.replace turn.1 (replica.react fuel call)
  | _, _ => cluster

def execute (fuel : Nat) (cluster : Cluster B C) (schedule : List (AuthorityId B × Input B)) :
    Cluster B C :=
  schedule.foldl (deliver fuel) cluster

/-- Whether a turn is one of an honest replica on an input that may arrive, and
starts every call in a state that passes `check`. -/
def accepts (network : Network B) (forgeable : ConsensusMessage B → Bool)
    (check : Replica B C → Bool) (fuel : Nat) (cluster : Cluster B C)
    (turn : AuthorityId B × Input B) : Bool :=
  decide (network.Honest turn.1) && turn.2.arrives network forgeable &&
    match cluster.lookup turn.1, cluster.call? turn.2 with
    | some replica, some call =>
      check replica && Replica.settles check fuel { replica with control := .running call }
    | _, _ => true

def obeys (network : Network B) (forgeable : ConsensusMessage B → Bool)
    (check : Replica B C → Bool) (fuel : Nat) (cluster : Cluster B C) :
    List (AuthorityId B × Input B) → Bool
  | [] => true
  | turn :: rest =>
    cluster.accepts network forgeable check fuel turn &&
      obeys network forgeable check fuel (cluster.deliver fuel turn) rest

end Cluster

section Reached

variable [ClientForHotstuff B C] {network : Network B} {guard : Replica B C → Prop}
  {allowed : System B C → ConsensusMessage B → Prop} {forgeable : ConsensusMessage B → Bool}
  {check : Replica B C → Bool} {system : System B C} {cluster : Cluster B C}
  {id : AuthorityId B} {replica : Replica B C}

/-- What honest replicas gossip may arrive in every run, and what is made up may
arrive at any time. -/
structure Network.Delivers (network : Network B) (guard : Replica B C → Prop)
    (allowed : System B C → ConsensusMessage B → Prop) (forgeable : ConsensusMessage B → Bool) :
    Prop where
  gossiped : ∀ system message, network.Reachable allowed guard system →
    network.Gossiped system message → allowed system message
  forged : ∀ system message, forgeable message = true → allowed system message

theorem Network.gossiped_delivers :
    network.Delivers guard (network.Gossiped (C := C)) fun _ => false where
  gossiped _ _ _ sent := sent
  forged _ _ made := absurd made Bool.false_ne_true

omit [ClientForHotstuff B C] in
theorem Network.unforged_of_byFaulty {message : ConsensusMessage B}
    (made : message.byFaulty network = true) : network.Unforged system message := by
  intro id signature digest listed honest _
  have faulty := of_decide_eq_true (List.all_eq_true.mp made _ listed)
  exact absurd faulty.2 honest.2

theorem Network.byzantine_delivers :
    network.Delivers guard (network.Byzantine (C := C)) (ConsensusMessage.byFaulty network) where
  gossiped _ _ _ sent := .inl sent
  forged _ _ made := .inr (Network.unforged_of_byFaulty made)

theorem Network.Reachable.settle
    (sound : ∀ state, check state = true → guard state) (fuel : Nat)
    (honest : network.Honest id)
    (reachable : network.Reachable allowed guard (Function.update system id replica))
    (passed : Replica.settles check fuel replica = true) :
    network.Reachable allowed guard (Function.update system id (replica.settle fuel)) := by
  induction fuel generalizing replica with
  | zero => exact reachable
  | succ fuel ih =>
    unfold Replica.settle
    unfold Replica.settles at passed
    split
    · rename_i call running
      rw [running, Bool.and_eq_true] at passed
      refine ih ?_ passed.2
      have here : Function.update system id replica id = replica := Function.update_self ..
      have resumed : network.Reachable allowed guard
          (Function.update (Function.update system id replica) id (replica.resume call)) :=
        .step reachable honest (by rw [here]; exact sound _ passed.1)
          (by rw [here]; exact .resume running)
      rwa [Function.update_idem] at resumed
    · exact reachable

/-- An input of a schedule may arrive: a message was gossiped before, or is made up. -/
theorem Cluster.input_step {input : Input B} {call : Call B} {rest : System B C}
    (delivers : network.Delivers guard allowed forgeable)
    (reachable : network.Reachable allowed guard (cluster.system rest))
    (selected : cluster.call? input = some call)
    (arrives : input.arrives network forgeable = true) (idle : replica.control = .idle) :
    Replica.Step (allowed (cluster.system rest)) replica
      { replica with control := .running call } ∧ Replica.external call = true := by
  have received {message : ConsensusMessage B} (present : allowed (cluster.system rest) message)
      (called : Replica.callOf message = some call) :
      Replica.Step (allowed (cluster.system rest)) replica
        { replica with control := .running call } ∧ Replica.external call = true := by
    refine ⟨.receive idle present called, ?_⟩
    cases message <;> cases called <;> rfl
  cases input with
  | timer =>
    cases selected
    exact ⟨.timer idle, rfl⟩
  | message sender index =>
    obtain ⟨sending, found, picked⟩ := Option.bind_eq_some_iff.mp selected
    obtain ⟨message, listed, called⟩ := Option.bind_eq_some_iff.mp picked
    obtain ⟨event, member, gossiped⟩ := List.mem_filterMap.mp (List.mem_of_getElem? listed)
    have sent : network.Gossiped (cluster.system rest) message := by
      cases event with
      | gossip other force =>
        cases gossiped
        refine ⟨sender, force, of_decide_eq_true arrives, ?_⟩
        simpa [Cluster.system, found] using member
      | _ => cases gossiped
    exact received (delivers.gossiped _ _ reachable sent) called
  | forged message => exact received (delivers.forged _ _ arrives) selected

/-- One turn of a schedule that passes its check is a part of a run. -/
theorem Network.Reachable.deliver (delivers : network.Delivers guard allowed forgeable)
    (sound : ∀ state, check state = true → guard state) (fuel : Nat) (rest : System B C)
    (turn : AuthorityId B × Input B)
    (reachable : network.Reachable allowed guard (cluster.system rest))
    (passed : cluster.accepts network forgeable check fuel turn = true) :
    network.Reachable allowed guard ((cluster.deliver fuel turn).system rest) := by
  obtain ⟨id, input⟩ := turn
  simp only [Cluster.accepts, Bool.and_eq_true, decide_eq_true_eq] at passed
  obtain ⟨⟨honest, sender⟩, checked⟩ := passed
  unfold Cluster.deliver
  split
  · rename_i replica call found selected
    simp only [found, selected, Bool.and_eq_true] at checked
    have here : cluster.system rest id = replica := by simp [Cluster.system, found]
    rw [Cluster.system_replace found]
    unfold Replica.react
    split
    · rename_i idle
      obtain ⟨move, outside⟩ := Cluster.input_step delivers reachable selected sender idle
      rw [if_pos outside]
      refine .settle sound fuel honest ?_ checked.2
      exact .step reachable honest (by rw [here]; exact sound _ checked.1)
        (by rw [here]; exact move)
    · rw [← here, Function.update_eq_self]
      exact reachable
  · exact reachable

/-- Every schedule that passes the check of a guard is a run under the guard. -/
theorem Network.Reachable.execute (delivers : network.Delivers guard allowed forgeable)
    (check : Replica B C → Bool) (sound : ∀ state, check state = true → guard state) (fuel : Nat)
    (rest : System B C) (schedule : List (AuthorityId B × Input B))
    (reachable : network.Reachable allowed guard (cluster.system rest))
    (passed : cluster.obeys network forgeable check fuel schedule = true) :
    network.Reachable allowed guard ((cluster.execute fuel schedule).system rest) := by
  induction schedule generalizing cluster with
  | nil => exact reachable
  | cons turn schedule ih =>
    simp only [Cluster.obeys, Bool.and_eq_true] at passed
    exact ih (reachable.deliver delivers sound fuel rest turn passed.1) passed.2

end Reached

namespace Cluster

/-- The byte strings hashed by the replicas of a cluster. -/
def preimages (cluster : Cluster B C) : List (List UInt8) :=
  cluster.flatMap fun entry => entry.2.worker.log.flatMap Event.preimages

/-- Whether every authority has its replica in the cluster. -/
def covers (network : Network B) (cluster : Cluster B C) : Bool :=
  network.authorities.ids.all fun id => (cluster.lookup id).isSome

/-- Whether no two byte strings of the cluster have the same hash. -/
def hashesApart (cluster : Cluster B C) : Bool :=
  let hashed := cluster.preimages.map fun bytes => (hashOf (B := B) bytes, bytes)
  hashed.all fun first => hashed.all fun second =>
    decide (first.1 = second.1 → first.2 = second.2)

/-- Whether no byte string of the cluster has the default hash. -/
def hashesReal (cluster : Cluster B C) : Bool :=
  cluster.preimages.all fun bytes => hashOf (B := B) bytes ≠ BlockT.defaultHash

variable {network : Network B} {cluster : Cluster B C}

theorem mem_of_honest (covered : cluster.covers network = true) (rest : System B C)
    {id : AuthorityId B} (honest : network.Honest id) :
    (id, cluster.system rest id) ∈ cluster := by
  obtain ⟨replica, found⟩ :=
    Option.isSome_iff_exists.mp (List.all_eq_true.mp covered id honest.1)
  have here : cluster.system rest id = replica := by simp [system, found]
  obtain ⟨front, back, split, _⟩ := List.lookup_eq_some_iff.mp found
  rw [here, split]
  exact List.mem_append_right _ (List.mem_cons_self ..)

theorem mem_preimages (covered : cluster.covers network = true) {rest : System B C}
    {bytes : List UInt8} (hashed : bytes ∈ network.preimages (cluster.system rest)) :
    bytes ∈ cluster.preimages := by
  obtain ⟨id, honest, event, logged, listed⟩ := hashed
  exact List.mem_flatMap.mpr ⟨_, mem_of_honest covered rest honest,
    List.mem_flatMap.mpr ⟨event, logged, listed⟩⟩

theorem collisionFree (covered : cluster.covers network = true)
    (apart : cluster.hashesApart = true) (rest : System B C) :
    network.CollisionFree (cluster.system rest) := by
  simp only [hashesApart, List.all_eq_true, List.mem_map, forall_exists_index, and_imp,
    forall_apply_eq_imp_iff₂, decide_eq_true_eq] at apart
  intro first hashed second hashedToo same
  exact apart first (mem_preimages covered hashed) second (mem_preimages covered hashedToo) same

theorem real (covered : cluster.covers network = true) (away : cluster.hashesReal = true)
    (rest : System B C) : ∀ bytes ∈ network.preimages (cluster.system rest),
      hashOf (B := B) bytes ≠ BlockT.defaultHash :=
  fun bytes hashed =>
    of_decide_eq_true (List.all_eq_true.mp away bytes (mem_preimages covered hashed))

end Cluster

namespace Sample

theorem localAuthorityId_keystore {count : Nat} {id : Fin 8}
    (member : id ∈ (authorities count).ids) :
    (ConsensusState.new (keystore id) (authorities count)).localAuthorityId = some id := by
  unfold ConsensusState.localAuthorityId
  cases found : (ConsensusState.new (keystore id) (authorities count)).authorities.ids.find?
      (ConsensusState.new (keystore id) (authorities count)).keystore.hasKeys with
  | none => simpa [keystore, ConsensusState.new] using List.find?_eq_none.mp found id member
  | some other =>
    have held : (keystore id).hasKeys other = true := List.find?_some found
    exact congrArg some (of_decide_eq_true held)

/-- The first `count` sample keys, one for each replica. -/
def network (count : Nat) (faulty : Finset (Fin 8)) : Network Sample where
  authorities := authorities count
  keystore := keystore
  faulty := faulty
  own := fun _ member _ => localAuthorityId_keystore member

/-- A freshly started replica with one pending block. -/
def node (count : Nat) (pending : Fin 8 → BitVec 64) (id : Fin 8) :
    Replica Sample Sample.Client :=
  replica count id [⟨some (pending id), (pending id).setWidth 32⟩]

def cluster (count : Nat) (pending : Fin 8 → BitVec 64) : Cluster Sample Sample.Client :=
  (authorities count).ids.map fun id => (id, node count pending id)

theorem cluster_system (count : Nat) (pending : Fin 8 → BitVec 64) :
    (cluster count pending).system (node count pending) = node count pending := by
  funext id
  unfold Cluster.system
  cases found : (cluster count pending).lookup id with
  | none => rfl
  | some replica =>
    obtain ⟨front, back, split, _⟩ := List.lookup_eq_some_iff.mp found
    have member : (id, replica) ∈ cluster count pending := by simp [split]
    obtain ⟨other, _, same⟩ := List.mem_map.mp member
    cases same
    rfl

theorem cluster_reachable (count : Nat) (faulty : Finset (Fin 8)) (pending : Fin 8 → BitVec 64)
    (allowed : System Sample Sample.Client → ConsensusMessage Sample → Prop)
    (guard : Replica Sample Sample.Client → Prop) :
    (network count faulty).Reachable allowed guard
      ((cluster count pending).system (node count pending)) := by
  rw [cluster_system]
  exact .start fun id _ => replica_initial count id _

/-- Turns of a schedule: a timer fires, `receiver` handles the `index`-th message of
`sender`, or one that a faulty authority has sent to it alone. -/
def fire (id : Fin 8) : AuthorityId Sample × Input Sample := (id, .timer)

def receive (receiver sender : Fin 8) (index : Nat) : AuthorityId Sample × Input Sample :=
  (receiver, .message sender index)

def forge (receiver : Fin 8) (message : ConsensusMessage Sample) :
    AuthorityId Sample × Input Sample := (receiver, .forged message)

end Sample

end Hotstuff
