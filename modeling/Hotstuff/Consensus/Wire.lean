import Hotstuff.Consensus.Script
import Hotstuff.Consensus.System

/-! Messages on the wire. Their encoding is a parameter; what its laws ask of a
message, that no certificate has too many votes to be written, holds for all
that honest replicas send. -/

namespace Hotstuff

variable {B : Type} [BlockT B]

/-- The certificates of a message can be written: none has `2 ^ 32` votes. -/
def ConsensusMessage.Fits : ConsensusMessage B → Prop
  | .propose proposal => proposal.qc.votes.length < 2 ^ 32 ∧
      ∀ tc, proposal.tc = some tc → tc.votes.length < 2 ^ 32
  | .timeout sent => sent.highQc.votes.length < 2 ^ 32
  | .tc formed => formed.votes.length < 2 ^ 32
  | _ => True

/-- An encoding of the messages, as SCALE derives one for `ConsensusMessage`. The
length of a vector is written as a `u32`: shorter ones are read back, and no
others are ever read. -/
class WireT (B : Type) [BlockT B] where
  encode : ConsensusMessage B → List UInt8
  decode : List UInt8 → Option (ConsensusMessage B)
  decode_encode : ∀ message, message.Fits → decode (encode message) = some message
  fits_of_decode : ∀ bytes message, decode bytes = some message → message.Fits

/-- Distinct authorities are no more than the authorities. -/
theorem votes_length_le {authorities : AuthorityList B} {votes : List (AuthorityId B × α)}
    (distinct : (votes.map Prod.fst).Nodup)
    (known : ∀ entry ∈ votes, entry.1 ∈ authorities.ids) :
    votes.length ≤ authorities.length := by
  have inside : votes.map Prod.fst ⊆ authorities.ids := by
    intro voter member
    obtain ⟨entry, listed, rfl⟩ := List.mem_map.mp member
    exact known entry listed
  simpa using (List.subperm_of_subset distinct inside).length_le

def Event.Fits : Event B → Prop
  | .verifiedProposal proposal => (ConsensusMessage.propose proposal).Fits
  | .verifiedTimeout timeout => (ConsensusMessage.timeout timeout).Fits
  | .aggregatedQc qc => qc.votes.length < 2 ^ 32
  | .aggregatedTc tc => tc.votes.length < 2 ^ 32
  | .timedOut timeout => (ConsensusMessage.timeout timeout).Fits
  | .proposed proposal => (ConsensusMessage.propose proposal).Fits
  | .gossip message _ => message.Fits
  | _ => True

theorem HeldQc.fits {log : List (Event B)} {qc : QC B}
    (fitting : ∀ event ∈ log, event.Fits) (held : HeldQc log qc) : qc.votes.length < 2 ^ 32 := by
  rcases held with ⟨proposal, verified, rfl⟩ | ⟨timeout, verified, rfl⟩ | formed
  · exact (fitting _ verified).1
  · exact fitting _ verified
  · exact fitting _ formed

theorem carried_fits {log : List (Event B)} {qc : QC B} (fitting : ∀ event ∈ log, event.Fits)
    (source : qc = QC.default ∨ HeldQc log qc) : qc.votes.length < 2 ^ 32 := by
  rcases source with rfl | held
  · exact Nat.two_pow_pos 32
  · exact held.fits fitting

theorem Sendable.fits {log : List (Event B)} {message : ConsensusMessage B}
    (fitting : ∀ event ∈ log, event.Fits) (sendable : Sendable log message) : message.Fits := by
  cases message with
  | propose proposal => exact fitting _ sendable
  | vote vote => trivial
  | timeout timeout => exact fitting _ sendable
  | tc tc => exact fitting _ sendable
  | syncRequest hash id => trivial
  | phantom => trivial

section Runs

variable {C : Type} [ClientForHotstuff B C] {allowed : ConsensusMessage B → Prop}
  {guard : Replica B C → Prop} {keystore : Keystore B} {authorities : AuthorityList B}
  {replica : Replica B C}

/-- A proposal carries no TC but one that its author has completed. -/
theorem Replica.Reachable.carried_tc
    (reachable : Replica.Reachable allowed guard keystore authorities replica)
    (alive : replica.control ≠ .halted) {proposal : Proposal B} {tc : TC B}
    (made : proposal ∈ madeProposals replica.worker.log) (carried : proposal.tc = some tc) :
    Event.aggregatedTc tc ∈ replica.worker.log := by
  -- Between two calls the TC is in the call to `generate_proposal`.
  suffices holds : (∀ proposal ∈ madeProposals replica.worker.log, ∀ tc, proposal.tc = some tc →
      Event.aggregatedTc tc ∈ replica.worker.log) ∧
      ∀ tc, replica.control = .running (.generateProposal (some tc)) →
        Event.aggregatedTc tc ∈ replica.worker.log from holds.1 proposal made tc carried
  refine reachable.scripted (motive := fun log _ control =>
    (∀ proposal ∈ madeProposals log, ∀ tc, proposal.tc = some tc → Event.aggregatedTc tc ∈ log) ∧
      ∀ tc, control = .running (.generateProposal (some tc)) → Event.aggregatedTc tc ∈ log)
    ⟨nofun, nofun⟩ ?_ ?_ alive
  · intro log _ call source held
    refine ⟨held.1, fun tc running => ?_⟩
    cases running
    rcases source with timer | ⟨message, _, selected⟩
    · cases timer
    · cases message with
      | _ => cases selected
  · intro log _ call trace next _ held script
    constructor
    · intro proposal member tc carried
      rw [madeProposals_append, List.mem_append] at member
      rcases member with old | new
      · exact List.mem_append_left _ (held.1 proposal old tc carried)
      · rcases script.made with nothing | ⟨single, same, bare | asked⟩
        · rw [nothing] at new
          cases new
        · rw [same, List.mem_singleton] at new
          rw [new, bare] at carried
          cases carried
        · rw [same, List.mem_singleton] at new
          rw [← new, carried] at asked
          exact List.mem_append_left _ (held.2 tc (by rw [asked]))
    · intro tc running
      cases next with
      | none => cases running
      | some next =>
        cases running
        exact List.mem_append_right _ script.asked

/-- Where all that arrives could be written, so can all that is sent. -/
theorem Replica.Reachable.sent_fits (small : authorities.length < 2 ^ 32)
    (fits : ∀ message, allowed message → message.Fits)
    (reachable : Replica.Reachable allowed guard keystore authorities replica)
    (alive : replica.control ≠ .halted) : ∀ event ∈ replica.worker.log, event.Fits := by
  have evident := reachable.evident (Policy.only_meets allowed)
  have voted {votes : List (AuthorityId B × AuthoritySignature B)}
      (distinct : (votes.map Prod.fst).Nodup)
      (known : ∀ entry ∈ votes, entry.1 ∈ authorities.ids) : votes.length < 2 ^ 32 :=
    Nat.lt_of_le_of_lt (votes_length_le distinct known) small
  have formedTc {tc : TC B} (formed : Event.aggregatedTc tc ∈ replica.worker.log) :
      tc.votes.length < 2 ^ 32 := by
    obtain ⟨_, distinct, backed⟩ := evident.mem formed
    refine Nat.lt_of_le_of_lt (votes_length_le distinct fun entry listed => ?_) small
    obtain ⟨timeout, verified, _, voter⟩ := backed entry listed
    rw [← voter]
    exact (Timeout.verify_ok_iff.mp (evident.mem verified).1).1.1
  refine evident.events.all fun log event _ shorter present earlier evidence => ?_
  have arrived {message : ConsensusMessage B}
      (source : Available (Policy.only allowed) log message) : message.Fits := by
    rcases source with came | own
    · exact fits message came
    · exact own.fits earlier
  cases event with
  | gossip message force => exact Sendable.fits earlier evidence
  | verifiedProposal proposal => exact arrived evidence.2
  | verifiedTimeout timeout => exact arrived evidence.2
  | aggregatedQc qc =>
    obtain ⟨_, distinct, backed⟩ := evidence
    refine voted distinct fun entry listed => ?_
    obtain ⟨vote, verified, _, _, voter, _⟩ := backed entry listed
    rw [← voter]
    exact (Vote.verify_ok_iff.mp (evident.mem (shorter verified)).1).1
  | aggregatedTc tc => exact formedTc present
  | timedOut timeout => exact carried_fits earlier evidence.1
  | proposed proposal =>
    refine ⟨carried_fits earlier evidence.1, fun tc carried => formedTc ?_⟩
    exact reachable.carried_tc alive (List.mem_filterMap.mpr ⟨_, present, rfl⟩) carried
  | _ => trivial

end Runs

end Hotstuff
