import Hotstuff.Consensus.Pacemaker

/-! What stands behind a finalization: three verified proposals that follow one
another, with two QCs that really were checked. -/

namespace Hotstuff

variable {B C : Type} [BlockT B] [ClientForHotstuff B C]

def Event.finalized? : Event B → Option (Proposal B)
  | .finalized _ _ grandpa _ => some grandpa
  | _ => none

/-- The proposals whose blocks a worker has finalized. -/
def finalizedProposals (log : List (Event B)) : List (Proposal B) :=
  log.filterMap Event.finalized?

theorem mem_finalizedProposals {log : List (Event B)} {grandpa : Proposal B} :
    grandpa ∈ finalizedProposals log ↔
      ∃ proposal parent block, Event.finalized proposal parent grandpa block ∈ log := by
  constructor
  · intro member
    obtain ⟨event, present, found⟩ := List.mem_filterMap.mp member
    cases event with
    | finalized proposal parent other block =>
      cases found
      exact ⟨proposal, parent, block, present⟩
    | _ => cases found
  · rintro ⟨proposal, parent, block, present⟩
    exact List.mem_filterMap.mpr ⟨_, present, rfl⟩

def Event.verifiedProposal? : Event B → Option (Proposal B)
  | .verifiedProposal proposal => some proposal
  | _ => none

theorem verifiedProposal_of_all {log : List (Event B)} {holds : Proposal B → Bool}
    (all : ∀ event ∈ log, event.verifiedProposal?.all holds = true)
    {proposal : Proposal B} (member : Event.verifiedProposal proposal ∈ log) :
    holds proposal = true := by
  simpa [Event.verifiedProposal?] using all _ member

/-- A proposal whose parent is a real proposal carries a QC that was checked:
only a QC with the default hash is exempt. -/
theorem verified_qc_of_parent {keystore : Keystore B} {authorities : AuthorityList B}
    {proposal parent : Proposal B}
    (verified : (ConsensusState.new keystore authorities).verifyProposal proposal = .ok ())
    (digest : parent.digest = proposal.qc.proposalHash)
    (real : parent.digest ≠ BlockT.defaultHash) : proposal.qc.verify authorities = .ok () := by
  have checked := ConsensusState.verifyProposal_ok_iff.mp verified
  rcases (Proposal.verify_ok_iff.mp checked.2).2 with exempt | valid
  · exact absurd (digest.trans (QC.eq_default_iff.mp exempt).1) real
  · exact valid

/-- Whenever `handle_proposal` hands a block to `finalize_block`, the proposal it
handles, its parent and its grandparent were verified here before, they are linked
by their digests, the last two are of consecutive views, both QCs passed their
check, and the block is that of the grandparent. -/
theorem finalization_evidence {keystore : Keystore B} {authorities : AuthorityList B}
    {replica : Replica B C} (run : Replica.Run keystore authorities replica)
    (real : ∀ proposal, Event.verifiedProposal proposal ∈ replica.worker.log →
      proposal.digest ≠ BlockT.defaultHash) :
    ∀ before proposal parent grandpa block after,
      replica.worker.log = before ++ .finalized proposal parent grandpa block :: after →
      (∀ checked ∈ [proposal, parent, grandpa], Event.verifiedProposal checked ∈ before ∧
        (ConsensusState.new keystore authorities).verifyProposal checked = .ok () ∧
        (ConsensusState.new keystore authorities).viewLeader checked.view = some checked.author) ∧
      parent.digest = proposal.qc.proposalHash ∧ grandpa.digest = parent.qc.proposalHash ∧
      parent.view.toNat = grandpa.view.toNat + 1 ∧
      block = grandpa.payload.blockHash ∧ grandpa.payload.blockHash ≠ emptyPayloadHash ∧
      proposal.qc.verify authorities = .ok () ∧ parent.qc.verify authorities = .ok () := by
  intro before proposal parent grandpa block after split
  have evident : Evident Policy.any keystore authorities replica.worker :=
    run.evident fun state _ call _ => Policy.any_admits state.worker call
  obtain ⟨first, second, third, parentDigest, grandpaDigest, consecutive, rfl, payload⟩ :=
    evident.events before _ after split
  have inside : before ⊆ replica.worker.log := by
    rw [split]
    exact List.subset_append_left _ _
  have checked (found : Proposal B) (seen : Event.verifiedProposal found ∈ before) :
      (ConsensusState.new keystore authorities).verifyProposal found = .ok () :=
    (evident.mem (inside seen)).1
  refine ⟨?_, parentDigest, grandpaDigest, ViewNumber.next?_eq_some.mp consecutive, rfl, payload,
    verified_qc_of_parent (checked _ first) parentDigest (real _ (inside second)),
    verified_qc_of_parent (checked _ second) grandpaDigest (real _ (inside third))⟩
  intro found member
  have seen : Event.verifiedProposal found ∈ before := by
    simp only [List.mem_cons, List.not_mem_nil, or_false] at member
    rcases member with rfl | rfl | rfl
    · exact first
    · exact second
    · exact third
  exact ⟨seen, checked found seen, (ConsensusState.verifyProposal_ok_iff.mp (checked found seen)).1⟩

/-- The single authority finalizes its block on the proposals of views 1, 2 and 4. -/
theorem finalization_evidence_solo :
    (finalizedProposals Sample.solo.worker.log).map (fun grandpa => grandpa.payload.blockHash) =
      [(1 : BitVec 64)] ∧
    ∀ grandpa ∈ finalizedProposals Sample.solo.worker.log, ∃ proposal parent : Proposal Sample,
      Event.finalized proposal parent grandpa grandpa.payload.blockHash ∈ Sample.solo.worker.log ∧
      grandpa.digest = parent.qc.proposalHash ∧
      proposal.qc.verify (Sample.authorities 1) = .ok () := by
  refine ⟨by decide +kernel, fun grandpa member => ?_⟩
  obtain ⟨proposal, parent, block, present⟩ := mem_finalizedProposals.mp member
  obtain ⟨before, after, split⟩ := List.append_of_mem present
  have real : ∀ event ∈ Sample.solo.worker.log, event.verifiedProposal?.all
      (fun proposal => proposal.digest ≠ BlockT.defaultHash) = true := by decide +kernel
  obtain ⟨_, _, digest, _, same, _, valid, _⟩ := finalization_evidence Sample.solo_run
    (fun proposal member => of_decide_eq_true (verifiedProposal_of_all real member))
    before proposal parent grandpa block after split
  subst same
  exact ⟨proposal, parent, present, digest, valid⟩

end Hotstuff
