import Mathlib.Data.Nat.Digits.Lemmas
import Mathlib.Logic.Equiv.List
import Hotstuff.Consensus.Gossip
import Hotstuff.Consensus.Schedule
import Hotstuff.Consensus.Wire

/-! A node on the wire: the tasks of `ConsensusNetwork` and `ConsensusWorker`, and
the channel between them. Nodes gossip the encodings of their messages, while
others may send any bytes. -/

namespace Hotstuff

variable {B C : Type} [BlockT B]

/-- `messageRecv` is the stream of the gossip engine as far as it is not polled,
and `consensusMsg` the channel to the worker. What was heard, received and refused
so far is kept as a history that nothing reads. -/
structure Service (B C : Type) [BlockT B] where
  replica : Replica B C
  messageRecv : List (List UInt8)
  consensusMsg : List (ConsensusMessage B)
  heard : List (List UInt8)
  received : List (ConsensusMessage B)
  refused : List (ConsensusMessage B)

/-- The capacity `start_hotstuff` gives to the channel. -/
def channelCapacity : Nat := 1000

/-- Why a notification is dropped; the source wraps both reasons in `Other`. -/
inductive Refusal where
  | undecodable
  | full
deriving DecidableEq

section Channel

variable [WireT B]

def incomingMessageHandler (channel : List (ConsensusMessage B)) (notification : List UInt8) :
    Except Refusal (List (ConsensusMessage B)) :=
  match WireT.decode notification with
  | none => .error .undecodable
  | some message =>
    if channel.length < channelCapacity then .ok (channel ++ [message]) else .error .full

/-- The loop of `poll` over the notifications that are ready. -/
def pollMessages (channel : List (ConsensusMessage B)) :
    List (List UInt8) → List (ConsensusMessage B)
  | [] => channel
  | notification :: ready =>
    match incomingMessageHandler channel notification with
    | .ok longer => pollMessages longer ready
    | .error _ => pollMessages channel ready

/-- The messages that notifications are read as. -/
def readMessages (notifications : List (List UInt8)) : List (ConsensusMessage B) :=
  notifications.filterMap WireT.decode

/-- The messages that the loop has read and could not send. -/
def refusedMessages (channel : List (ConsensusMessage B)) :
    List (List UInt8) → List (ConsensusMessage B)
  | [] => []
  | notification :: ready =>
    match incomingMessageHandler channel notification with
    | .ok longer => refusedMessages longer ready
    | .error _ => readMessages [notification] ++ refusedMessages channel ready

theorem readMessages_append (first second : List (List UInt8)) :
    readMessages (B := B) (first ++ second) = readMessages first ++ readMessages second :=
  List.filterMap_append

/-- A poll appends messages that were read, in their order, and refuses the
others. -/
theorem pollMessages_appends (channel : List (ConsensusMessage B)) (ready : List (List UInt8)) :
    ∃ added, pollMessages channel ready = channel ++ added ∧
      added.Sublist (readMessages ready) ∧
      (readMessages ready).Perm (added ++ refusedMessages channel ready) := by
  induction ready generalizing channel with
  | nil => exact ⟨[], (List.append_nil _).symm, .slnil, .nil⟩
  | cons notification ready ih =>
    rw [← List.singleton_append, readMessages_append]
    cases read : WireT.decode (B := B) notification with
    | none =>
      simpa [pollMessages, refusedMessages, incomingMessageHandler, readMessages, read]
        using ih channel
    | some message =>
      have single : readMessages [notification] = [message] := by simp [readMessages, read]
      simp only [List.singleton_append, pollMessages, refusedMessages, incomingMessageHandler, read,
        single]
      by_cases room : channel.length < channelCapacity
      · obtain ⟨added, same, inside, parts⟩ := ih (channel ++ [message])
        simp only [if_pos room]
        exact ⟨message :: added, by simp [same], inside.cons_cons message, parts.cons message⟩
      · obtain ⟨added, same, inside, parts⟩ := ih channel
        simp only [if_neg room]
        exact ⟨added, same, inside.cons message,
          (parts.cons message).trans List.perm_middle.symm⟩

/-- Nothing is refused as long as there is room for all. -/
theorem refusedMessages_of_room {channel : List (ConsensusMessage B)} {ready : List (List UInt8)}
    (room : channel.length + (readMessages (B := B) ready).length ≤ channelCapacity) :
    refusedMessages channel ready = [] := by
  induction ready generalizing channel with
  | nil => rfl
  | cons notification ready ih =>
    rw [← List.singleton_append, readMessages_append, List.length_append] at room
    cases read : WireT.decode (B := B) notification with
    | none =>
      simp only [refusedMessages, incomingMessageHandler, readMessages, List.filterMap_cons,
        List.filterMap_nil, read, List.nil_append]
      exact ih (by omega)
    | some message =>
      have single : readMessages [notification] = [message] := by simp [readMessages, read]
      rw [single, List.length_singleton] at room
      simp only [refusedMessages, incomingMessageHandler, read,
        if_pos (show channel.length < channelCapacity by omega)]
      exact ih (by rw [List.length_append, List.length_singleton]; omega)

theorem pollMessages_length {channel : List (ConsensusMessage B)}
    (bound : channel.length ≤ channelCapacity) (ready : List (List UInt8)) :
    (pollMessages channel ready).length ≤ channelCapacity := by
  induction ready generalizing channel with
  | nil => exact bound
  | cons notification ready ih =>
    unfold pollMessages incomingMessageHandler
    split
    · rename_i longer returned
      split at returned
      · cases returned
      · split at returned
        · cases returned
          exact ih (by rw [List.length_append, List.length_singleton]; omega)
        · cases returned
    · exact ih bound

end Channel

namespace Service

variable [WireT B] [ClientForHotstuff B C]

/-- The validator reads the view that the worker has set. -/
def validator (service : Service B C) : GossipValidator B where
  decode := WireT.decode
  view := service.replica.worker.network

/-- The worker takes a message off the channel; requests and placeholders are
ignored. -/
def take (service : Service B C) (message : ConsensusMessage B)
    (rest : List (ConsensusMessage B)) : Service B C :=
  { service with
    replica := { service.replica with control := .upon (Replica.callOf message) }
    consensusMsg := rest
    received := service.received ++ [message] }

/-- One step of a node, with the bytes that are on the wire. -/
inductive Step (onWire : List UInt8 → Prop) : Service B C → Service B C → Prop where
  | hear (bytes : List UInt8) (present : onWire bytes)
      (kept : service.validator.validate bytes =
        .processAndKeep ConsensusMessage.gossipTopic) :
      Step onWire service { service with
        messageRecv := service.messageRecv ++ [bytes], heard := service.heard ++ [bytes] }
  | poll (ready rest : List (List UInt8)) (split : service.messageRecv = ready ++ rest) :
      Step onWire service { service with
        messageRecv := rest, consensusMsg := pollMessages service.consensusMsg ready
        refused := service.refused ++ refusedMessages service.consensusMsg ready }
  | receive (message : ConsensusMessage B) (rest : List (ConsensusMessage B))
      (idle : service.replica.control = .idle)
      (front : service.consensusMsg = message :: rest) :
      Step onWire service (service.take message rest)
  | work (move : Replica.Step (fun _ => False) service.replica next) :
      Step onWire service { service with replica := next }

structure Initial (keystore : Keystore B) (authorities : AuthorityList B)
    (service : Service B C) : Prop where
  replica : Replica.Initial keystore authorities service.replica
  messageRecv : service.messageRecv = []
  consensusMsg : service.consensusMsg = []
  heard : service.heard = []
  received : service.received = []
  refused : service.refused = []

end Service

abbrev Services (B C : Type) [BlockT B] := AuthorityId B → Service B C

def Services.system (services : Services B C) : System B C := fun id => (services id).replica

namespace Network

variable [WireT B] [ClientForHotstuff B C] (network : Network B)
  (adversary : System B C → ConsensusMessage B → Prop) (guard : Replica B C → Prop)

/-- The encodings that honest nodes have gossiped, and any bytes that are not read
as a message beyond the adversary. -/
def OnWire (system : System B C) (bytes : List UInt8) : Prop :=
  (∃ id message force, network.Honest id ∧
    Event.gossip message force ∈ (system id).worker.log ∧ bytes = WireT.encode message) ∨
  ∀ message, WireT.decode bytes = some message → adversary system message

/-- Runs of the nodes: one honest node after another takes a step. -/
inductive Serves : Services B C → Prop where
  | start {services : Services B C} (initial : ∀ id, network.Honest id →
      Service.Initial (network.keystore id) network.authorities (services id)) : Serves services
  | step {services : Services B C} {id : AuthorityId B} {next : Service B C}
      (before : Serves services) (honest : network.Honest id)
      (holds : guard (services id).replica)
      (move : Service.Step (network.OnWire adversary services.system) (services id) next) :
      Serves (Function.update services id next)

/-- What the messages of such a run are at most. -/
def Sent (system : System B C) (message : ConsensusMessage B) : Prop :=
  network.Gossiped system message ∨ adversary system message

end Network

section Refinement

variable [WireT B] [ClientForHotstuff B C]

/-- Halted workers stay so. -/
theorem Service.Step.alive {onWire : List UInt8 → Prop} {service next : Service B C}
    (step : Service.Step onWire service next) (alive : next.replica.control ≠ .halted) :
    service.replica.control ≠ .halted := by
  intro halted
  cases step with
  | hear bytes present kept => exact alive halted
  | poll ready rest split => exact alive halted
  | receive message rest idle front => cases idle.symm.trans halted
  | work move =>
    cases move with
    | timer idle => cases idle.symm.trans halted
    | receive idle present selected => exact present
    | resume running => cases running.symm.trans halted
    | environment client queue kept => exact alive halted

/-- The messages that were read are those the worker has received, in their order,
those that wait in the channel, and those refused. -/
structure Service.Accounted (service : Service B C) (read : List (List UInt8)) : Prop where
  heard : service.heard = read ++ service.messageRecv
  ordered : (service.received ++ service.consensusMsg).Sublist (readMessages read)
  parts : (readMessages read).Perm
    (service.received ++ service.consensusMsg ++ service.refused)

/-- All that a node has read and not yet handled is allowed, and the worker gets
messages in the order in which they were heard. -/
structure Service.Sound (allowed : ConsensusMessage B → Prop) (service : Service B C) : Prop where
  waiting : ∀ message ∈ readMessages service.messageRecv, allowed message
  queued : ∀ message ∈ service.consensusMsg, allowed message
  bounded : service.consensusMsg.length ≤ channelCapacity
  accounted : ∃ read, service.Accounted read

omit [ClientForHotstuff B C] in
theorem Service.Sound.mono {allowed wider : ConsensusMessage B → Prop} {service : Service B C}
    (widened : ∀ message, allowed message → wider message) (sound : service.Sound allowed) :
    service.Sound wider :=
  { sound with
    waiting := fun message member => widened message (sound.waiting message member)
    queued := fun message member => widened message (sound.queued message member) }

theorem Service.Initial.sound {allowed : ConsensusMessage B → Prop} {service : Service B C}
    {keystore : Keystore B} {authorities : AuthorityList B}
    (initial : Service.Initial keystore authorities service) : service.Sound allowed where
  waiting := by
    rw [initial.messageRecv]
    exact nofun
  queued := by
    rw [initial.consensusMsg]
    exact nofun
  bounded := by
    rw [initial.consensusMsg]
    exact Nat.zero_le _
  accounted := by
    refine ⟨[], ?_, ?_, ?_⟩
    · rw [initial.heard, initial.messageRecv]
      rfl
    · rw [initial.received, initial.consensusMsg]
      exact .slnil
    · rw [initial.received, initial.consensusMsg, initial.refused]
      exact .nil

omit [ClientForHotstuff B C] in
/-- A poll moves what it reads to the channel, or refuses it. -/
theorem Service.Accounted.poll {service : Service B C} {read ready rest : List (List UInt8)}
    (accounted : service.Accounted read) (split : service.messageRecv = ready ++ rest) :
    Service.Accounted { service with
      messageRecv := rest, consensusMsg := pollMessages service.consensusMsg ready
      refused := service.refused ++ refusedMessages service.consensusMsg ready }
      (read ++ ready) := by
  obtain ⟨added, grown, taken, parts⟩ := pollMessages_appends service.consensusMsg ready
  constructor
  · rw [accounted.heard, split, List.append_assoc]
  · rw [grown, readMessages_append, ← List.append_assoc]
    exact accounted.ordered.append taken
  · have joined := accounted.parts.append parts
    rw [grown, readMessages_append]
    refine joined.trans ?_
    simp only [List.append_assoc]
    refine .append_left _ (.append_left _ ?_)
    simpa only [List.append_assoc] using
      List.perm_append_comm.append_right (refusedMessages service.consensusMsg ready)

/-- One step of a node keeps it sound, if what is on the wire is read as allowed
messages only. -/
theorem Service.Sound.step {allowed : ConsensusMessage B → Prop} {onWire : List UInt8 → Prop}
    {service next : Service B C} (sound : service.Sound allowed)
    (wire : ∀ bytes message, onWire bytes → WireT.decode bytes = some message →
      allowed message) (step : Service.Step onWire service next) : next.Sound allowed := by
  obtain ⟨waiting, queued, bounded, read, accounted⟩ := sound
  cases step with
  | hear bytes present kept =>
    refine ⟨fun message member => ?_, queued, bounded, read, ?_, accounted.ordered,
      accounted.parts⟩
    · rw [readMessages_append, List.mem_append] at member
      rcases member with old | new
      · exact waiting message old
      · obtain ⟨_, single, found⟩ := List.mem_filterMap.mp new
        rw [List.mem_singleton.mp single] at found
        exact wire bytes message present found
    · rw [accounted.heard, List.append_assoc]
  | poll ready rest split =>
    rw [split, readMessages_append] at waiting
    obtain ⟨added, grown, taken, _⟩ := pollMessages_appends service.consensusMsg ready
    refine ⟨fun message member => waiting message (List.mem_append_right _ member),
      fun message member => ?_, pollMessages_length bounded ready, read ++ ready,
      accounted.poll split⟩
    rw [grown, List.mem_append] at member
    rcases member with old | new
    · exact queued message old
    · exact waiting message (List.mem_append_left _ (taken.subset new))
  | receive message rest idle front =>
    rw [front] at queued bounded
    refine ⟨waiting, fun other member => queued other (List.mem_cons_of_mem _ member),
      Nat.le_of_succ_le bounded, read, accounted.heard, ?_, ?_⟩
    · simpa [Service.take, front] using accounted.ordered
    · simpa [Service.take, front] using accounted.parts
  | work move =>
    exact ⟨waiting, queued, bounded, read, accounted.heard, accounted.ordered, accounted.parts⟩

variable {network : Network B} {adversary : System B C → ConsensusMessage B → Prop}
  {guard : Replica B C → Prop} {services : Services B C}

/-- The messages of a run, all of which can be written. -/
def Network.Written (network : Network B) (adversary : System B C → ConsensusMessage B → Prop)
    (system : System B C) (message : ConsensusMessage B) : Prop :=
  network.Sent adversary system message ∧ message.Fits

omit [WireT B] [ClientForHotstuff B C] in
theorem Network.written_persistent (persistent : network.Persistent adversary) :
    network.Persistent (network.Written adversary) := by
  intro before after message grows ⟨sent, fits⟩
  refine ⟨?_, fits⟩
  rcases sent with gossiped | sent
  · exact .inl (network.gossiped_persistent before after message grows gossiped)
  · exact .inr (persistent before after message grows sent)

/-- What is on the wire is read as a message that was sent. -/
theorem Network.Reachable.written {system : System B C}
    (reachable : network.Reachable (network.Written adversary) guard system)
    (persistent : network.Persistent adversary) (small : network.authorities.length < 2 ^ 32)
    (alive : ∀ id, network.Honest id → (system id).control ≠ .halted) {bytes : List UInt8}
    {message : ConsensusMessage B} (present : network.OnWire adversary system bytes)
    (read : WireT.decode bytes = some message) :
    network.Written adversary system message := by
  refine ⟨?_, WireT.fits_of_decode bytes message read⟩
  rcases present with ⟨id, sent, force, honest, gossiped, rfl⟩ | beyond
  · have own := reachable.replica (Network.written_persistent persistent) honest
    have fits : sent.Fits :=
      own.sent_fits small (fun _ written => written.2) (alive id honest) _ gossiped
    cases (WireT.decode_encode sent fits).symm.trans read
    exact .inl ⟨id, force, honest, gossiped⟩
  · exact .inr (beyond message read)

omit [WireT B] [ClientForHotstuff B C] in
/-- The replicas of nodes one of which has moved. -/
theorem Services.system_update (services : Services B C) (id : AuthorityId B)
    (next : Service B C) :
    Services.system (Function.update services id next) =
      Function.update services.system id next.replica := by
  funext other
  unfold Services.system
  by_cases same : other = id
  · subst other
    rw [Function.update_self, Function.update_self]
  · rw [Function.update_of_ne same, Function.update_of_ne same]

/-- A step of a node leaves its replica alone, or is a step of the replica. -/
theorem Service.Sound.replica_step {allowed : ConsensusMessage B → Prop}
    {onWire : List UInt8 → Prop} {service next : Service B C} (sound : service.Sound allowed)
    (step : Service.Step onWire service next) :
    next.replica = service.replica ∨ Replica.Step allowed service.replica next.replica := by
  cases step with
  | hear bytes present kept => exact .inl rfl
  | poll ready rest split => exact .inl rfl
  | receive message rest idle front =>
    cases selected : Replica.callOf message with
    | none =>
      left
      simp only [Service.take, selected, Control.upon, ← idle]
    | some call =>
      right
      simp only [Service.take, selected, Control.upon]
      exact .receive idle (sound.queued message (by rw [front]; exact List.mem_cons_self)) selected
  | work move => exact .inr (move.mono fun _ => False.elim)

theorem Network.Serves.refines (persistent : network.Persistent adversary)
    (small : network.authorities.length < 2 ^ 32) (serves : network.Serves adversary guard services)
    (alive : ∀ id, network.Honest id → (services id).replica.control ≠ .halted) :
    network.Reachable (network.Written adversary) guard services.system ∧
      ∀ id, network.Honest id →
        (services id).Sound (network.Written adversary services.system) := by
  induction serves with
  | start initial =>
    exact ⟨.start fun id honest => (initial id honest).replica,
      fun id honest => (initial id honest).sound⟩
  | @step services id next before honest holds move ih =>
    have earlier : ∀ other, network.Honest other →
        (services other).replica.control ≠ .halted := by
      obtain ⟨now, others⟩ := (Function.forall_update_iff services fun other service =>
        network.Honest other → service.replica.control ≠ .halted).mp alive
      intro other correct
      by_cases same : other = id
      · subst other
        exact move.alive (now correct)
      · exact others other same correct
    obtain ⟨reachable, sound⟩ := ih earlier
    have wire (bytes : List UInt8) (message : ConsensusMessage B)
        (present : network.OnWire adversary services.system bytes)
        (read : WireT.decode bytes = some message) :=
      reachable.written persistent small earlier present read
    have moved := (sound id honest).step wire move
    rw [Services.system_update]
    rcases (sound id honest).replica_step move with same | step
    · have still : Function.update services.system id next.replica = services.system := by
        rw [same]
        exact Function.update_eq_self id services.system
      rw [still]
      exact ⟨reachable, (Function.forall_update_iff services fun other service =>
        network.Honest other → service.Sound (network.Written adversary services.system)).mpr
        ⟨fun _ => moved, fun other _ => sound other⟩⟩
    · have grows : network.Grows services.system
          (Function.update services.system id next.replica) := Network.grows_update step
      have widened (message : ConsensusMessage B) :=
        Network.written_persistent persistent _ _ message grows
      exact ⟨.step reachable honest holds step, (Function.forall_update_iff services
        fun other service => network.Honest other → service.Sound (network.Written adversary
          (Function.update services.system id next.replica))).mpr
        ⟨fun _ => moved.mono widened, fun other _ correct => (sound other correct).mono widened⟩⟩

/-- Another step of the node that has moved last. -/
theorem Network.Serves.again {id : AuthorityId B} {middle next : Service B C}
    (before : network.Serves adversary guard (Function.update services id middle))
    (honest : network.Honest id) (holds : guard middle.replica)
    (move : Service.Step (network.OnWire adversary
      (Services.system (Function.update services id middle))) middle next) :
    network.Serves adversary guard (Function.update services id next) := by
  have moved : network.Serves adversary guard
      (Function.update (Function.update services id middle) id next) := by
    refine .step before honest ?_ ?_
    · rwa [Function.update_self]
    · rwa [Function.update_self]
  rwa [Function.update_idem] at moved

/-- Nodes that exchange bytes behave as replicas that exchange messages. As long
as no honest worker has panicked, every message one of them has gossiped is read
back as itself, and their runs are runs of the network of replicas on the messages
that were gossiped or that the adversary may send. A worker gets messages in the
order in which they were heard, each at most as often as it was heard. The others
that were read wait in the channel or were refused, and a poll with room for all
that it reads refuses nothing. -/
theorem service_refines (persistent : network.Persistent adversary)
    (small : network.authorities.length < 2 ^ 32) (serves : network.Serves adversary guard services)
    (alive : ∀ id, network.Honest id → (services id).replica.control ≠ .halted) :
    network.Reachable (network.Sent adversary) guard services.system ∧
    ∀ id, network.Honest id →
      (∀ message force, Event.gossip message force ∈ (services id).replica.worker.log →
        WireT.decode (WireT.encode message) = some message) ∧
      (services id).consensusMsg.length ≤ channelCapacity ∧
      (∃ read, (services id).Accounted read) ∧
      ∀ ready rest, (services id).messageRecv = ready ++ rest →
        (services id).consensusMsg.length + (readMessages (B := B) ready).length ≤
          channelCapacity →
        refusedMessages (services id).consensusMsg ready = [] := by
  obtain ⟨reachable, sound⟩ := serves.refines persistent small alive
  refine ⟨reachable.mono (fun _ _ written => written.1) fun _ holds => holds,
    fun id honest => ⟨fun message force sent => ?_, (sound id honest).bounded,
      (sound id honest).accounted, fun _ _ _ room => refusedMessages_of_room room⟩⟩
  have own := reachable.replica (Network.written_persistent persistent) honest
  apply WireT.decode_encode
  exact own.sent_fits small (fun _ written => written.2) (alive id honest) _ sent

end Refinement

section Numbers

/-! Where hashes, keys and signatures can be numbered, so can the messages. -/

instance encodableBitVec {width : Nat} : Encodable (BitVec width) :=
  .ofLeftInverse BitVec.toFin BitVec.ofFin fun _ => rfl

instance encodableUInt64 : Encodable UInt64 :=
  .ofLeftInverse UInt64.toBitVec UInt64.ofBitVec fun _ => rfl

variable [Encodable (Hash B)] [Encodable (AuthorityId B)] [Encodable (AuthoritySignature B)]

instance : Encodable (QC B) :=
  .ofLeftInverse (fun qc => (qc.proposalHash, qc.view, qc.votes))
    (fun fields => ⟨fields.1, fields.2.1, fields.2.2⟩) fun _ => rfl

instance : Encodable (TC B) :=
  .ofLeftInverse (fun tc => (tc.view, tc.votes)) (fun fields => ⟨fields.1, fields.2⟩) fun _ => rfl

instance : Encodable (Payload B) :=
  .ofLeftInverse (fun payload => (payload.blockHash, payload.blockNumber))
    (fun fields => ⟨fields.1, fields.2⟩) fun _ => rfl

instance : Encodable (Proposal B) :=
  .ofLeftInverse (fun proposal => ((proposal.qc, proposal.tc, proposal.payload),
      proposal.view, proposal.author, proposal.signature))
    (fun fields => ⟨fields.1.1, fields.1.2.1, fields.1.2.2, fields.2.1, fields.2.2.1,
      fields.2.2.2⟩) fun _ => rfl

instance : Encodable (Vote B) :=
  .ofLeftInverse (fun vote => (vote.proposalHash, vote.view, vote.voter, vote.signature))
    (fun fields => ⟨fields.1, fields.2.1, fields.2.2.1, fields.2.2.2⟩) fun _ => rfl

instance : Encodable (Timeout B) :=
  .ofLeftInverse (fun timeout => (timeout.highQc, timeout.view, timeout.voter, timeout.signature))
    (fun fields => ⟨fields.1, fields.2.1, fields.2.2.1, fields.2.2.2⟩) fun _ => rfl

def ConsensusMessage.variant : ConsensusMessage B →
    (Proposal B ⊕ Vote B) ⊕ (Timeout B ⊕ TC B) ⊕ Option (Hash B × AuthorityId B)
  | .propose proposal => .inl (.inl proposal)
  | .vote cast => .inl (.inr cast)
  | .timeout sent => .inr (.inl (.inl sent))
  | .tc formed => .inr (.inl (.inr formed))
  | .syncRequest hash id => .inr (.inr (some (hash, id)))
  | .phantom => .inr (.inr none)

def ConsensusMessage.ofVariant :
    (Proposal B ⊕ Vote B) ⊕ (Timeout B ⊕ TC B) ⊕ Option (Hash B × AuthorityId B) →
      ConsensusMessage B
  | .inl (.inl proposal) => .propose proposal
  | .inl (.inr cast) => .vote cast
  | .inr (.inl (.inl sent)) => .timeout sent
  | .inr (.inl (.inr formed)) => .tc formed
  | .inr (.inr (some (hash, id))) => .syncRequest hash id
  | .inr (.inr none) => .phantom

instance : Encodable (ConsensusMessage B) :=
  .ofLeftInverse ConsensusMessage.variant ConsensusMessage.ofVariant fun message => by
    cases message <;> rfl

instance (message : ConsensusMessage B) : Decidable message.Fits :=
  match message with
  | .propose proposal => inferInstanceAs (Decidable (_ ∧ ∀ tc ∈ proposal.tc, _))
  | .timeout _ | .tc _ => inferInstanceAs (Decidable (_ < _))
  | .vote _ | .syncRequest _ _ | .phantom => .isTrue trivial

/-- Messages are written as their numbers. -/
@[reducible] def WireT.ofEncodable : WireT B where
  encode message := (Nat.digits 256 (Encodable.encode message)).map UInt8.ofNat
  decode bytes := (Encodable.decode (Nat.ofDigits 256 (bytes.map UInt8.toNat))).filter
    fun message => message.Fits
  decode_encode message fits := by
    have bytes : (Nat.digits 256 (Encodable.encode message)).map
        (UInt8.toNat ∘ UInt8.ofNat) = Nat.digits 256 (Encodable.encode message) := by
      refine (List.map_congr_left fun digit listed => ?_).trans (List.map_id _)
      have small : digit < 256 := Nat.digits_lt_base (by decide) listed
      simpa using Nat.mod_eq_of_lt small
    rw [List.map_map, bytes, Nat.ofDigits_digits, Encodable.encodek]
    simp [fits]
  fits_of_decode bytes message read := by
    simpa using (Option.filter_eq_some_iff.mp read).2

end Numbers

namespace Sample

instance : Encodable (Hash Sample) := inferInstanceAs (Encodable (BitVec 64))

instance : Encodable (AuthorityId Sample) := inferInstanceAs (Encodable (Fin 8))

instance : Encodable (AuthoritySignature Sample) := inferInstanceAs (Encodable (Fin 8 × BitVec 64))

instance : WireT Sample := .ofEncodable

/-- Four nodes at their start. -/
def nodes : Services Sample Sample.Client := fun id => ⟨node 4 (fun _ => 8) id, [], [], [], [], []⟩

/-- The first timeout of the first node, as it is gossiped. -/
def firstTimeout : ConsensusMessage Sample := .timeout (Sample.timeout QC.default 0 0)

/-- The first node has sent its timeout. -/
def sender : Service Sample Sample.Client :=
  { nodes (0 : Fin 8) with
    replica := { node 4 (fun _ => 8) 0 with control := .running .localTimer }.resume .localTimer }

/-- The second node hears the timeout, polls it, takes it and handles it. -/
def hearer : Service Sample Sample.Client :=
  { nodes (1 : Fin 8) with
    messageRecv := [WireT.encode firstTimeout], heard := [WireT.encode firstTimeout] }

def poller : Service Sample Sample.Client :=
  { hearer with messageRecv := [], consensusMsg := [firstTimeout] }

def taker : Service Sample Sample.Client := poller.take firstTimeout []

def handler : Service Sample Sample.Client :=
  { taker with replica := taker.replica.resume (.timeout (Sample.timeout QC.default 0 0)) }

def relayed : Services Sample Sample.Client :=
  Function.update (Function.update nodes (0 : Fin 8) sender) (1 : Fin 8) handler

theorem firstTimeout_decoded : WireT.decode (WireT.encode firstTimeout) = some firstTimeout :=
  WireT.decode_encode firstTimeout (by decide)

theorem firstTimeout_keeps :
    (nodes (1 : Fin 8)).validator.Keeps (WireT.encode firstTimeout) :=
  GossipValidator.keeps_of_fresh firstTimeout_decoded (Nat.not_lt_zero _)

theorem hearer_polls :
    { hearer with
      messageRecv := []
      consensusMsg := pollMessages hearer.consensusMsg [WireT.encode firstTimeout]
      refused := hearer.refused ++
        refusedMessages hearer.consensusMsg [WireT.encode firstTimeout] } = poller := by
  simp [pollMessages, refusedMessages, incomingMessageHandler, firstTimeout_decoded,
    channelCapacity, hearer, poller, nodes]

theorem relayed_serves :
    (Sample.network 4 ∅).Serves (fun _ _ => False) (fun _ => True) Sample.relayed := by
  have first : (Sample.network 4 ∅).Honest (0 : Fin 8) := by decide
  have second : (Sample.network 4 ∅).Honest (1 : Fin 8) := by decide
  have start : (Sample.network 4 ∅).Serves (fun _ _ => False) (fun _ => True) nodes :=
    .start fun id _ => ⟨replica_initial 4 id _, rfl, rfl, rfl, rfl, rfl⟩
  have fired := start.step first trivial (.work (.timer rfl))
  have sent : (Sample.network 4 ∅).Serves (fun _ _ => False) (fun _ => True)
      (Function.update nodes (0 : Fin 8) sender) :=
    fired.again first trivial (.work (.resume rfl))
  have gossiped : Event.gossip firstTimeout true ∈ sender.replica.worker.log := by decide +kernel
  have heard : (Sample.network 4 ∅).Serves (fun _ _ => False) (fun _ => True)
      (Function.update (Function.update nodes (0 : Fin 8) sender) (1 : Fin 8) hearer) := by
    refine .step sent second trivial (.hear (WireT.encode firstTimeout) (.inl ?_) ?_)
    · exact ⟨(0 : Fin 8), firstTimeout, true, first, gossiped, rfl⟩
    · exact firstTimeout_keeps.validate
  have polled := heard.again second trivial (.poll [WireT.encode firstTimeout] [] rfl)
  rw [hearer_polls] at polled
  have taken : (Sample.network 4 ∅).Serves (fun _ _ => False) (fun _ => True)
      (Function.update (Function.update nodes (0 : Fin 8) sender) (1 : Fin 8) taker) :=
    polled.again second trivial (.receive firstTimeout [] rfl rfl)
  exact taken.again second trivial (.work (.resume rfl))

end Sample

/-- The timeout of the first of four nodes has gone through the encoding, the
stream and the channel of the second one, which has verified it. -/
theorem service_refines_relayed :
    (Sample.network 4 ∅).Reachable ((Sample.network 4 ∅).Sent fun _ _ => False) (fun _ => True)
      Sample.relayed.system ∧
    Event.verifiedTimeout (Sample.timeout QC.default 0 0) ∈
      (Sample.relayed (1 : Fin 8)).replica.worker.log := by
  have alive : ∀ id : Fin 8, (Sample.relayed id).replica.control ≠ .halted := by decide +kernel
  refine ⟨?_, by decide +kernel⟩
  exact (service_refines (fun _ _ _ _ => False.elim) (by decide) Sample.relayed_serves
    fun id _ => alive id).1

end Hotstuff
