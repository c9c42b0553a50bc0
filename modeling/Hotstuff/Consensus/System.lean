import Hotstuff.Lib.Quorum
import Hotstuff.Consensus.Voting

/-! A network of replicas. Every authority that is not faulty runs one replica
with its own key; messages that were gossiped may arrive at any time, any number
of times or never. -/

namespace Hotstuff

variable {B C : Type} [BlockT B]

/-- The authorities, the keystores of their nodes, and the authorities that may
do anything. A node of any other authority finds exactly that authority's key. -/
structure Network (B : Type) [BlockT B] where
  authorities : AuthorityList B
  keystore : AuthorityId B → Keystore B
  faulty : Finset (AuthorityId B)
  own : ∀ id ∈ authorities.ids, id ∉ faulty →
    (ConsensusState.new (keystore id) authorities).localAuthorityId = some id

/-- One replica for each authority; those of faulty ones are never looked at. -/
abbrev System (B C : Type) [BlockT B] := AuthorityId B → Replica B C

/-- The digest a replica signs with an event. -/
def Event.signed? : Event B → Option (Hash B)
  | .voted _ _ vote => some vote.digest
  | .timedOut timeout => some timeout.digest
  | .proposed proposal => some proposal.digest
  | _ => none

/-- The bytes behind the digests of an event. -/
def Event.preimages : Event B → List (List UInt8)
  | .verifiedProposal proposal => [proposal.preimage]
  | .proposed proposal => [proposal.preimage]
  | .verifiedVote vote => [vote.preimage]
  | .voted _ _ vote => [vote.preimage]
  | .timedOut timeout => [timeout.preimage]
  | .aggregatedQc qc => [qc.preimage]
  | _ => []

/-- The signatures in a certificate or message, each with its signer and the
digest it is checked on. -/
def QC.signatures (qc : QC B) : List (AuthorityId B × AuthoritySignature B × Hash B) :=
  qc.votes.map fun vote => (vote.1, vote.2, qc.digest)

def TC.signatures (tc : TC B) : List (AuthorityId B × AuthoritySignature B × Hash B) :=
  tc.votes.map fun vote => (vote.1, vote.2.1, hashOf (timeoutPreimage tc.view vote.2.2))

def ConsensusMessage.signatures :
    ConsensusMessage B → List (AuthorityId B × AuthoritySignature B × Hash B)
  | .propose proposal =>
      (proposal.signature.map fun signature =>
        (proposal.author, signature, proposal.digest)).toList ++
        proposal.qc.signatures ++ (proposal.tc.map TC.signatures).getD []
  | .vote cast =>
      (cast.signature.map fun signature => (cast.voter, signature, cast.digest)).toList
  | .timeout sent =>
      (sent.signature.map fun signature => (sent.voter, signature, sent.digest)).toList ++
        sent.highQc.signatures
  | .tc formed => formed.signatures
  | .syncRequest _ _ => []
  | .phantom => []

namespace Network

variable (network : Network B)

def Honest (id : AuthorityId B) : Prop :=
  id ∈ network.authorities.ids ∧ id ∉ network.faulty

def Gossiped (system : System B C) (message : ConsensusMessage B) : Prop :=
  ∃ id force, network.Honest id ∧ Event.gossip message force ∈ (system id).worker.log

/-- Any message whose valid signatures by honest keys were made by their owners. -/
def Unforged (system : System B C) (message : ConsensusMessage B) : Prop :=
  ∀ id signature digest, (id, signature, digest) ∈ message.signatures → network.Honest id →
    BlockT.verify signature digest id = true →
    ∃ event ∈ (system id).worker.log, event.signed? = some digest

/-- What may arrive where faulty authorities send anything they can. -/
def Byzantine (system : System B C) (message : ConsensusMessage B) : Prop :=
  network.Gossiped system message ∨ network.Unforged system message

/-- The byte strings that are hashed in a run. -/
def preimages (system : System B C) : Set (List UInt8) :=
  { bytes | ∃ id, network.Honest id ∧
    ∃ event ∈ (system id).worker.log, bytes ∈ event.preimages }

/-- No two byte strings of a run have the same hash. -/
def CollisionFree (system : System B C) : Prop :=
  Set.InjOn (hashOf (B := B)) (network.preimages system)

/-- The logs of honest replicas have only grown. -/
def Grows (before after : System B C) : Prop :=
  ∀ id, network.Honest id → (before id).worker.log ⊆ (after id).worker.log

/-- A message that may arrive once may arrive from then on. -/
def Persistent (allowed : System B C → ConsensusMessage B → Prop) : Prop :=
  ∀ before after message, network.Grows before after → allowed before message →
    allowed after message

theorem gossiped_persistent : network.Persistent (network.Gossiped (C := C)) := by
  rintro before after message grows ⟨id, force, honest, sent⟩
  exact ⟨id, force, honest, grows id honest sent⟩

theorem byzantine_persistent : network.Persistent (network.Byzantine (C := C)) := by
  rintro before after message grows (sent | unforged)
  · exact .inl (network.gossiped_persistent before after message grows sent)
  · refine .inr fun id signature digest listed honest valid => ?_
    obtain ⟨event, member, signed⟩ := unforged id signature digest listed honest valid
    exact ⟨event, grows id honest member, signed⟩

variable [ClientForHotstuff B C]

/-- Runs of the network: one honest replica after another takes a step, from a
state that satisfies `guard`. -/
inductive Reachable (allowed : System B C → ConsensusMessage B → Prop)
    (guard : Replica B C → Prop) : System B C → Prop where
  | start {system : System B C} (initial : ∀ id, network.Honest id →
      Replica.Initial (network.keystore id) network.authorities (system id)) :
      Reachable allowed guard system
  | step {system : System B C} {id : AuthorityId B} {next : Replica B C}
      (before : Reachable allowed guard system) (honest : network.Honest id)
      (holds : guard (system id)) (move : Replica.Step (allowed system) (system id) next) :
      Reachable allowed guard (Function.update system id next)

variable {network} {allowed : System B C → ConsensusMessage B → Prop}
  {guard : Replica B C → Prop} {system : System B C} {id : AuthorityId B}

omit [ClientForHotstuff B C] in
theorem grows_of_log {next : Replica B C} (logs : (system id).worker.log ⊆ next.worker.log) :
    network.Grows system (Function.update system id next) := by
  intro other _
  by_cases same : other = id
  · subst other
    rw [Function.update_self]
    exact logs
  · rw [Function.update_of_ne same]
    exact fun _ member => member

theorem grows_update {next : Replica B C}
    (move : Replica.Step (allowed system) (system id) next) :
    network.Grows system (Function.update system id next) := by
  obtain ⟨events, grown⟩ := acts_log_grows (move.mono fun _ _ => trivial).follows
  refine grows_of_log ?_
  rw [grown]
  exact List.subset_append_left _ _

/-- Within a run of the network every honest replica has a run of its own, on
the messages that may arrive by now. -/
theorem Reachable.replica (persistent : network.Persistent allowed)
    (reachable : network.Reachable allowed guard system) (honest : network.Honest id) :
    Replica.Reachable (allowed system) guard (network.keystore id) network.authorities
      (system id) := by
  induction reachable generalizing id with
  | start initial => exact .start (initial id honest)
  | @step system moving next _ _ holds move ih =>
    have widened (message : ConsensusMessage B) (present : allowed system message) :
        allowed (Function.update system moving next) message :=
      persistent _ _ message (grows_update move) present
    have earlier := (ih honest).mono widened fun _ holds => holds
    by_cases same : id = moving
    · subst moving
      rw [Function.update_self]
      exact .step earlier holds (move.mono widened)
    · rwa [Function.update_of_ne same]

theorem Reachable.mono {wider : System B C → ConsensusMessage B → Prop}
    {weaker : Replica B C → Prop}
    (widened : ∀ system message, allowed system message → wider system message)
    (weakened : ∀ replica, guard replica → weaker replica)
    (reachable : network.Reachable allowed guard system) :
    network.Reachable wider weaker system := by
  induction reachable with
  | start initial => exact .start initial
  | step _ honest holds move ih =>
    exact .step ih honest (weakened _ holds) (move.mono (widened _))

end Network

/-- Nothing is assumed of a run but what may arrive. -/
def Policy.only (allowed : ConsensusMessage B → Prop) : Policy B :=
  { Policy.any with allowed }

section Runs

variable [ClientForHotstuff B C] {network : Network B}
  {allowed : System B C → ConsensusMessage B → Prop} {guard : Replica B C → Prop}
  {system : System B C} {id : AuthorityId B}

theorem Policy.only_meets (allowed : ConsensusMessage B → Prop) (replica : Replica B C)
    (_ : guard replica) : Replica.Meets (Policy.only allowed) replica :=
  fun _ _ => ⟨fun _ _ => trivial, fun _ _ => trivial, fun _ _ => trivial⟩

theorem Network.Reachable.evident (persistent : network.Persistent allowed)
    (reachable : network.Reachable allowed guard system) (honest : network.Honest id) :
    Evident (Policy.only (allowed system)) (network.keystore id) network.authorities
      (system id).worker :=
  (reachable.replica persistent honest).evident (Policy.only_meets (allowed system))

theorem Network.Reachable.disciplined (persistent : network.Persistent allowed)
    (reachable : network.Reachable allowed guard system) (honest : network.Honest id) :
    Disciplined (system id).worker :=
  (reachable.replica persistent honest).disciplined (Policy.only_meets (allowed system))

/-- What follows for an event from its evidence, from the events before it and
from the earlier events of all honest replicas holds of every event of a run.
The events are judged in a later state `final`, which has them all. -/
theorem Network.Reachable.all_events {final : System B C} {motive : Event B → Prop}
    (reachable : network.Reachable allowed guard system)
    (persistent : network.Persistent allowed) (grows : network.Grows system final)
    (step : ∀ system id log event, network.Reachable allowed guard system →
      network.Grows system final →
      (∀ sender, network.Honest sender → ∀ event ∈ (system sender).worker.log, motive event) →
      network.Honest id → log ⊆ (final id).worker.log → event ∈ (final id).worker.log →
      Past (Evidence (Policy.only (allowed system)) (network.keystore id) network.authorities)
        log →
      (∀ earlier ∈ log, motive earlier) →
      Evidence (Policy.only (allowed system)) (network.keystore id) network.authorities log
        event → motive event) :
    ∀ id, network.Honest id → ∀ event ∈ (system id).worker.log, motive event := by
  induction reachable with
  | start initial =>
    intro id honest event member
    obtain ⟨client, queue, _, same⟩ := (initial id honest).worker
    rw [same] at member
    cases member
  | @step system moving next before moves holds move ih =>
    have earlier : network.Grows system final := fun id honest _ member =>
      grows id honest (Network.grows_update move id honest member)
    have others := ih earlier
    intro id honest event member
    by_cases same : id = moving
    · subst moving
      have inside := grows id honest
      rw [Function.update_self] at inside member
      have reached := Replica.Reachable.step (before.replica persistent honest) holds move
      have evident := reached.evident (Policy.only_meets (allowed system))
      refine evident.events.all (fun log event past shorter present sound evidence => ?_)
        event member
      exact step system id log event before earlier others honest
        (fun _ found => inside (shorter found)) (inside present) past sound evidence
    · rw [Function.update_of_ne same] at member
      exact others id honest event member

end Runs

end Hotstuff
