import Hotstuff.Lib.TwoChain
import Hotstuff.Consensus.Certification

/-! The proposals behind a QC. Where all messages come from replicas, every QC
in a run is the default one or certifies a proposal whose own QC is again of
this kind, down to a proposal on the default QC. -/

namespace Hotstuff

open TwoChain (Record Grounded)

variable {B C : Type} [BlockT B]

/-- A verified proposal builds on another one by the hash in its QC. -/
def ParentOf (network : Network B) (system : System B C) (parent child : Hash B) : Prop :=
  ∃ id proposal, network.Honest id ∧
    Event.verifiedProposal proposal ∈ (system id).worker.log ∧
    proposal.qc.proposalHash = parent ∧ proposal.digest = child

/-- The votes of a run as the two-chain rule sees them. -/
def votingRecord (network : Network B) (system : System B C) :
    Record (AuthorityId B) (Hash B) where
  Voted id view hash :=
    network.Honest id ∧ ∃ number : ViewNumber, number.toNat = view ∧ Cast system id number hash
  Certified view hash :=
    ∃ (number : ViewNumber) (voters : List (AuthorityId B)),
      number.toNat = view ∧ Backed network system number hash voters
  Parent := ParentOf network system
  Carries hash view :=
    ∃ id seen proposal vote, network.Honest id ∧
      Event.voted seen proposal vote ∈ (system id).worker.log ∧ proposal.digest = hash ∧
      proposal.qc.view.toNat = view

/-- A QC of a run: the default one, or one for a certified proposal that is
itself built on such QCs. -/
def SoundQc (network : Network B) (system : System B C) (qc : QC B) : Prop :=
  qc = QC.default ∨
    ((votingRecord network system).Certified qc.view.toNat qc.proposalHash ∧
      Grounded (votingRecord network system) qc.proposalHash)

def Event.qc? : Event B → Option (QC B)
  | .verifiedProposal proposal => some proposal.qc
  | .proposed proposal => some proposal.qc
  | .verifiedTimeout timeout => some timeout.highQc
  | .timedOut timeout => some timeout.highQc
  | .aggregatedQc qc => some qc
  | _ => none

def Event.SoundIn (network : Network B) (system : System B C) (event : Event B) : Prop :=
  ∀ qc, event.qc? = some qc → SoundQc network system qc

variable {network : Network B} {system final : System B C} {id : AuthorityId B}

theorem SoundQc.of_held {log : List (Event B)} {qc : QC B}
    (sound : ∀ event ∈ log, event.SoundIn network final) (held : HeldQc log qc) :
    SoundQc network final qc := by
  rcases held with ⟨proposal, member, rfl⟩ | ⟨timeout, member, rfl⟩ | member
  · exact sound _ member _ rfl
  · exact sound _ member _ rfl
  · exact sound _ member _ rfl

theorem grounded_of_voted {seen : ViewNumber} {proposal : Proposal B} {vote : Vote B}
    (honest : network.Honest id)
    (voted : Event.voted seen proposal vote ∈ (final id).worker.log)
    (verified : Event.verifiedProposal proposal ∈ (final id).worker.log)
    (sound : SoundQc network final proposal.qc) :
    Grounded (votingRecord network final) proposal.digest := by
  rcases sound with genesis | ⟨certified, grounded⟩
  · exact .genesis ⟨id, seen, proposal, vote, honest, voted, rfl, by rw [genesis]; rfl⟩
  · exact .extend ⟨id, proposal, honest, verified, rfl, rfl⟩
      ⟨id, seen, proposal, vote, honest, voted, rfl, rfl⟩ certified grounded

theorem grounded_of_sendable {policy : Policy B} {keystore : Keystore B}
    {authorities : AuthorityList B} {log : List (Event B)} {vote : Vote B}
    (honest : network.Honest id) (inside : log ⊆ (final id).worker.log)
    (past : Past (Evidence policy keystore authorities) log)
    (sound : ∀ event ∈ log, event.SoundIn network final)
    (sendable : Sendable log (.vote vote)) :
    Grounded (votingRecord network final) vote.proposalHash := by
  obtain ⟨seen, proposal, voted⟩ := sendable
  obtain ⟨before, earlier, verified, _, _, hash, _⟩ := past.mem voted
  rw [hash]
  exact grounded_of_voted honest (inside voted) (inside (earlier verified))
    (sound _ (earlier verified) _ rfl)

variable [ClientForHotstuff B C] {guard weaker : Replica B C → Prop}

theorem Network.Reachable.sendable_of_gossiped
    {allowed : System B C → ConsensusMessage B → Prop} (persistent : network.Persistent allowed)
    (reachable : network.Reachable allowed guard system) {message : ConsensusMessage B}
    (gossiped : network.Gossiped system message) :
    ∃ sender, network.Honest sender ∧ Sendable (system sender).worker.log message := by
  obtain ⟨sender, force, honest, sent⟩ := gossiped
  exact ⟨sender, honest, (reachable.evident persistent honest).mem sent⟩

/-- A QC completed in a run is for a grounded proposal: its votes were sent by
replicas that verified the proposal. -/
theorem grounded_of_aggregated {keystore : Keystore B} {log : List (Event B)} {qc : QC B}
    (collisionFree : network.CollisionFree final)
    (reachable : network.Reachable network.Gossiped guard system)
    (grows : network.Grows system final)
    (others : ∀ sender, network.Honest sender → ∀ event ∈ (system sender).worker.log,
      event.SoundIn network final)
    (honest : network.Honest id) (inside : log ⊆ (final id).worker.log)
    (aggregated : Event.aggregatedQc qc ∈ (final id).worker.log)
    (past : Past (Evidence (Policy.only (network.Gossiped system)) keystore
      network.authorities) log)
    (sound : ∀ event ∈ log, event.SoundIn network final)
    (evidence : Evidence (Policy.only (network.Gossiped system)) keystore network.authorities log
      (.aggregatedQc qc)) :
    Grounded (votingRecord network final) qc.proposalHash := by
  obtain ⟨large, _, entries⟩ := evidence
  obtain ⟨entry, rest, some⟩ := List.exists_cons_of_length_pos (Nat.zero_lt_of_lt large)
  obtain ⟨vote, verified, _, digest, _⟩ := entries entry (by rw [some]; exact List.mem_cons_self ..)
  have bytes : vote.preimage = qc.preimage :=
    collisionFree ⟨id, honest, _, inside verified, by simp [Event.preimages]⟩
      ⟨id, honest, _, aggregated, by simp [Event.preimages]⟩ digest
  rw [← (votePreimage_inj bytes).1]
  obtain ⟨before, earlier, _, available⟩ := past.mem verified
  rcases available with gossiped | own
  · obtain ⟨sender, sending, sendable⟩ :=
      reachable.sendable_of_gossiped network.gossiped_persistent gossiped
    exact grounded_of_sendable sending (grows sender sending)
      (reachable.evident network.gossiped_persistent sending).events (others sender sending)
      sendable
  · exact grounded_of_sendable honest inside past sound (own.mono earlier)

/-- The step: an event with sound QCs before it, here and at all senders, has a
sound QC. -/
theorem Event.SoundIn.of_evidence {keystore : Keystore B} {log : List (Event B)}
    {event : Event B} (collisionFree : network.CollisionFree final)
    (whole : network.Reachable network.Byzantine weaker final)
    (reachable : network.Reachable network.Gossiped guard system)
    (grows : network.Grows system final)
    (others : ∀ sender, network.Honest sender → ∀ event ∈ (system sender).worker.log,
      event.SoundIn network final)
    (honest : network.Honest id) (inside : log ⊆ (final id).worker.log)
    (member : event ∈ (final id).worker.log)
    (past : Past (Evidence (Policy.only (network.Gossiped system)) keystore
      network.authorities) log)
    (sound : ∀ event ∈ log, event.SoundIn network final)
    (evidence : Evidence (Policy.only (network.Gossiped system)) keystore network.authorities log
      event) : event.SoundIn network final := by
  intro qc found
  cases event with
  | verifiedProposal proposal =>
    cases found
    rcases evidence.2 with gossiped | own
    · obtain ⟨sender, sending, sent⟩ :=
        reachable.sendable_of_gossiped network.gossiped_persistent gossiped
      exact others sender sending _ sent _ rfl
    · exact sound _ own _ rfl
  | verifiedTimeout timeout =>
    cases found
    rcases evidence.2 with gossiped | own
    · obtain ⟨sender, sending, sent⟩ :=
        reachable.sendable_of_gossiped network.gossiped_persistent gossiped
      exact others sender sending _ sent _ rfl
    · exact sound _ own _ rfl
  | proposed proposal =>
    cases found
    exact evidence.1.elim .inl (.of_held sound)
  | timedOut timeout =>
    cases found
    exact evidence.1.elim .inl (.of_held sound)
  | aggregatedQc formed =>
    cases found
    exact .inr ⟨⟨_, _, rfl, whole.backed collisionFree honest member⟩,
      grounded_of_aggregated collisionFree reachable grows others honest inside member past sound
        evidence⟩
  | _ => cases found

/-- Every QC in every log of a run is sound, seen from any later state. -/
theorem Network.Reachable.soundIn (collisionFree : network.CollisionFree final)
    (whole : network.Reachable network.Byzantine weaker final)
    (reachable : network.Reachable network.Gossiped guard system)
    (grows : network.Grows system final) :
    ∀ id, network.Honest id → ∀ event ∈ (system id).worker.log,
      event.SoundIn network final := by
  apply reachable.all_events (motive := Event.SoundIn network final)
    network.gossiped_persistent grows
  intro system id log event before earlier others honest inside present past sound evidence
  exact .of_evidence collisionFree whole before earlier others honest inside present past sound
    evidence

end Hotstuff
