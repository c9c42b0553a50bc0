import Hotstuff.Consensus.Refinement

/-! What stands behind every entry of a worker's log, aggregator and proposal
store, as one invariant of the protocol. -/

namespace Hotstuff

open ConsensusWorker

variable {B C : Type} [BlockT B]

/-- What the events before it say about a logged event. -/
def Evidence (policy : Policy B) (keystore : Keystore B) (authorities : AuthorityList B)
    (past : List (Event B)) : Event B → Prop
  | .gossip message _ => Sendable past message
  | .verifiedProposal proposal =>
      (ConsensusState.new keystore authorities).verifyProposal proposal = .ok () ∧
        Available policy past (.propose proposal)
  | .verifiedVote vote =>
      vote.verify authorities = .ok () ∧ Available policy past (.vote vote)
  | .verifiedTimeout timeout =>
      timeout.verify authorities = .ok () ∧ Available policy past (.timeout timeout)
  | .verifiedTc tc => tc.verify authorities = .ok ()
  | .acceptedQc qc => HeldQc past qc
  | .aggregatedQc qc =>
      authorities.length * 2 / 3 < qc.votes.length ∧ (qc.votes.map Prod.fst).Nodup ∧
        ∀ entry ∈ qc.votes, ∃ vote, Event.verifiedVote vote ∈ past ∧ vote.view = qc.view ∧
          vote.digest = qc.digest ∧ vote.voter = entry.1 ∧ vote.signature = some entry.2
  | .aggregatedTc tc =>
      authorities.length * 2 / 3 < tc.votes.length ∧ (tc.votes.map Prod.fst).Nodup ∧
        ∀ entry ∈ tc.votes, ∃ timeout, Event.verifiedTimeout timeout ∈ past ∧
          timeout.view = tc.view ∧ timeout.voter = entry.1
  | .advanced source target => Moves past source target
  | .timedOut timeout =>
      (timeout.highQc = QC.default ∨ HeldQc past timeout.highQc) ∧
        (ConsensusState.new keystore authorities).localAuthorityId = some timeout.voter
  | .voted view proposal vote =>
      Event.verifiedProposal proposal ∈ past ∧ proposal.view = view ∧ vote.view = view ∧
        vote.proposalHash = proposal.digest ∧ 0 < view ∧
        (ConsensusState.new keystore authorities).localAuthorityId = some vote.voter
  | .proposed proposal =>
      (proposal.qc = QC.default ∨ HeldQc past proposal.qc) ∧
        (ConsensusState.new keystore authorities).localAuthorityId = some proposal.author
  | .finalized proposal parent grandpa block =>
      Event.verifiedProposal proposal ∈ past ∧ Event.verifiedProposal parent ∈ past ∧
        Event.verifiedProposal grandpa ∈ past ∧ parent.digest = proposal.qc.proposalHash ∧
        grandpa.digest = parent.qc.proposalHash ∧ grandpa.view.next? = some parent.view ∧
        block = grandpa.payload.blockHash ∧ block ≠ emptyPayloadHash
  | _ => True

theorem Evidence.mono {policy : Policy B} {keystore : Keystore B} {authorities : AuthorityList B}
    {past longer : List (Event B)} {event : Event B} (grown : past ⊆ longer)
    (evidence : Evidence policy keystore authorities past event) :
    Evidence policy keystore authorities longer event := by
  cases event with
  | gossip message force => exact Sendable.mono grown evidence
  | verifiedProposal proposal => exact ⟨evidence.1, evidence.2.mono grown⟩
  | verifiedVote vote => exact ⟨evidence.1, evidence.2.mono grown⟩
  | verifiedTimeout timeout => exact ⟨evidence.1, evidence.2.mono grown⟩
  | acceptedQc qc => exact HeldQc.mono grown evidence
  | aggregatedQc qc =>
    refine ⟨evidence.1, evidence.2.1, fun entry listed => ?_⟩
    obtain ⟨vote, verified, rest⟩ := evidence.2.2 entry listed
    exact ⟨vote, grown verified, rest⟩
  | aggregatedTc tc =>
    refine ⟨evidence.1, evidence.2.1, fun entry listed => ?_⟩
    obtain ⟨timeout, verified, rest⟩ := evidence.2.2 entry listed
    exact ⟨timeout, grown verified, rest⟩
  | advanced source target => exact Moves.mono grown evidence
  | timedOut timeout => exact ⟨evidence.1.imp_right (HeldQc.mono grown), evidence.2⟩
  | voted view proposal vote => exact ⟨grown evidence.1, evidence.2⟩
  | proposed proposal => exact ⟨evidence.1.imp_right (HeldQc.mono grown), evidence.2⟩
  | finalized proposal parent grandpa block =>
    exact ⟨grown evidence.1, grown evidence.2.1, grown evidence.2.2.1, evidence.2.2.2⟩
  | _ => exact evidence

variable [ClientForHotstuff B C]

/-- Everything a worker has collected rests on messages it has verified. -/
structure Evident (policy : Policy B) (keystore : Keystore B) (authorities : AuthorityList B)
    (worker : ConsensusWorker B C) : Prop where
  sameKeystore : worker.state.keystore = keystore
  sameAuthorities : worker.state.authorities = authorities
  votes : ∀ view digest,
    ∀ entry ∈ (worker.state.aggregator.votesAggregator view digest).votes,
      ∃ vote, Event.verifiedVote vote ∈ worker.log ∧ vote.view = view ∧
        vote.digest = digest ∧ vote.voter = entry.1 ∧ vote.signature = some entry.2
  timeouts : ∀ view, ∀ entry ∈ (worker.state.aggregator.timeoutsAggregators view).votes,
      ∃ timeout, Event.verifiedTimeout timeout ∈ worker.log ∧ timeout.view = view ∧
        timeout.voter = entry.1
  highQc : worker.state.highQc = QC.default ∨ HeldQc worker.log worker.state.highQc
  store : ∀ key data, ClientForHotstuff.aux (B := B) worker.client key = some data →
      ∃ proposal, data = ClientForHotstuff.encode (C := C) proposal ∧ proposal.digest = key ∧
        Event.verifiedProposal proposal ∈ worker.log
  events : Past (Evidence policy keystore authorities) worker.log

variable {policy : Policy B} {keystore : Keystore B} {authorities : AuthorityList B}
  {worker next : ConsensusWorker B C}

theorem Evident.start (client : C) (queue : Option (List (BlockInfo B)))
    (fresh : ∀ key, ClientForHotstuff.aux (B := B) client key = none) :
    Evident policy keystore authorities
      (ConsensusWorker.new (.new keystore authorities) client queue) where
  sameKeystore := rfl
  sameAuthorities := rfl
  votes := fun _ _ _ listed => by cases listed
  timeouts := fun _ _ listed => by cases listed
  highQc := .inl rfl
  store := fun key data found => by
    have missing := (fresh key).symm.trans found
    cases missing
  events := fun before event after split => by
    simp [ConsensusWorker.new] at split

theorem Evident.localAuthorityId (evident : Evident policy keystore authorities worker) :
    worker.state.localAuthorityId =
      (ConsensusState.new keystore authorities).localAuthorityId :=
  ConsensusState.localAuthorityId_congr evident.sameKeystore evident.sameAuthorities

/-- A stored proposal is one that was verified here, under its own digest. -/
theorem Evident.parent (evident : Evident policy keystore authorities worker)
    {proposal parent : Proposal B}
    (found : Synchronizer.getProposalParent worker.client proposal = .ok parent) :
    Event.verifiedProposal parent ∈ worker.log ∧ parent.digest = proposal.qc.proposalHash := by
  obtain ⟨data, stored, decoded⟩ := Synchronizer.getProposalParent_ok found
  obtain ⟨saved, rfl, digest, verified⟩ := evident.store _ data stored
  rw [ClientForHotstuff.decode_encode] at decoded
  cases decoded
  exact ⟨verified, digest⟩

/-- The state of a worker turns the record of a fresh event into evidence. -/
theorem Evident.evidence (evident : Evident policy keystore authorities worker)
    {event : Event B} (fresh : Fresh policy worker event) :
    Evidence policy keystore authorities worker.log event := by
  cases event with
  | gossip message force => exact fresh
  | verifiedProposal proposal =>
    refine ⟨?_, fresh.2⟩
    rw [← fresh.1]
    exact ConsensusState.verifyProposal_congr evident.sameAuthorities.symm proposal
  | verifiedVote vote =>
    refine ⟨?_, fresh.2⟩
    rw [← evident.sameAuthorities]
    exact (ConsensusState.verifyVote_ok_iff.mp fresh.1).2
  | verifiedTimeout timeout =>
    refine ⟨?_, fresh.2⟩
    rw [← evident.sameAuthorities]
    exact fresh.1
  | verifiedTc tc =>
    simp only [Evidence]
    rw [← evident.sameAuthorities]
    exact (ConsensusState.verifyTc_ok_iff.mp fresh.1).2
  | acceptedQc qc => exact fresh
  | aggregatedQc qc =>
    obtain ⟨large, vote, verified, hash, view, votes⟩ := fresh
    have digest : vote.digest = qc.digest := by
      simp only [Vote.digest, Vote.preimage, QC.digest, QC.preimage, hash, view]
    rw [evident.sameAuthorities] at large
    refine ⟨large, by rw [votes]; exact Maker.distinct _, ?_⟩
    intro entry listed
    rw [votes] at listed
    rw [view, ← digest]
    exact evident.votes _ _ entry listed
  | aggregatedTc tc =>
    obtain ⟨large, votes⟩ := fresh
    rw [evident.sameAuthorities] at large
    refine ⟨large, by rw [votes]; exact Maker.distinct _, ?_⟩
    intro entry listed
    rw [votes] at listed
    exact evident.timeouts _ entry listed
  | advanced source target => exact fresh.2
  | timedOut timeout =>
    obtain ⟨high, _, voter⟩ := ConsensusState.makeTimeout_ok fresh
    refine ⟨?_, evident.localAuthorityId ▸ voter⟩
    rw [high]
    exact evident.highQc
  | voted view proposal vote =>
    obtain ⟨_, current, verified, _, marked, made⟩ := fresh
    rcases worker.state.makeVote_cases proposal with
      same | ⟨_, same⟩ | ⟨fresh, id, signature, found, same⟩
    · cases made.symm.trans same
    · cases made.symm.trans same
    · cases made.symm.trans same
      refine ⟨verified, current, current, rfl, ?_, evident.localAuthorityId ▸ found⟩
      rw [current] at fresh
      exact UInt64.lt_of_le_of_lt UInt64.zero_le fresh
  | proposed proposal =>
    obtain ⟨payload, tc, made⟩ := fresh
    obtain ⟨qc, _, author⟩ := ConsensusState.makeProposal_ok made
    refine ⟨?_, evident.localAuthorityId ▸ author⟩
    rw [qc]
    exact evident.highQc
  | finalized proposal parent grandpa block =>
    obtain ⟨verified, found, consecutive, payload⟩ := fresh
    obtain ⟨first, second⟩ := Synchronizer.getProposalAncestors_ok found
    obtain ⟨parentVerified, parentDigest⟩ := evident.parent first
    obtain ⟨grandpaVerified, grandpaDigest⟩ := evident.parent second
    exact ⟨verified, parentVerified, grandpaVerified, parentDigest, grandpaDigest, consecutive,
      payload⟩
  | _ => trivial

theorem Evident.mem (evident : Evident policy keystore authorities worker)
    (member : event ∈ worker.log) : Evidence policy keystore authorities worker.log event := by
  obtain ⟨before, inside, evidence⟩ := evident.events.mem member
  exact evidence.mono inside

theorem Evident.act (act : Act policy worker next)
    (evident : Evident policy keystore authorities worker) :
    Evident policy keystore authorities next where
  sameKeystore := act.keystore.trans evident.sameKeystore
  sameAuthorities := act.authorities.trans evident.sameAuthorities
  votes := by
    intro view digest entry listed
    have old (member : entry ∈ (worker.state.aggregator.votesAggregator view digest).votes) :
        ∃ vote, Event.verifiedVote vote ∈ next.log ∧ vote.view = view ∧ vote.digest = digest ∧
          vote.voter = entry.1 ∧ vote.signature = some entry.2 := by
      obtain ⟨vote, verified, rest⟩ := evident.votes view digest entry member
      exact ⟨vote, act.mem_log verified, rest⟩
    rcases act.aggregator with same | ⟨vote, verified, grown⟩ | ⟨timeout, _, grown⟩
    · exact old (by rwa [same] at listed)
    · rw [grown] at listed
      rcases Aggregator.mem_addVote listed with member | ⟨rfl, rfl, voter, signature⟩
      · exact old member
      · exact ⟨vote, act.mem_log verified, rfl, rfl, voter.symm, signature⟩
    · exact old (by rwa [grown] at listed)
  timeouts := by
    intro view entry listed
    have old (member : entry ∈ (worker.state.aggregator.timeoutsAggregators view).votes) :
        ∃ timeout, Event.verifiedTimeout timeout ∈ next.log ∧ timeout.view = view ∧
          timeout.voter = entry.1 := by
      obtain ⟨timeout, verified, rest⟩ := evident.timeouts view entry member
      exact ⟨timeout, act.mem_log verified, rest⟩
    rcases act.aggregator with same | ⟨vote, _, grown⟩ | ⟨timeout, verified, grown⟩
    · exact old (by rwa [same] at listed)
    · exact old (by rwa [grown] at listed)
    · rw [grown] at listed
      rcases Aggregator.mem_addTimeout listed with member | ⟨rfl, voter, _⟩
      · exact old member
      · exact ⟨timeout, act.mem_log verified, rfl, voter.symm⟩
  highQc := by
    rcases act.highQc with same | ⟨held, _⟩
    · rw [same]
      exact evident.highQc.imp_right (HeldQc.mono fun _ => act.mem_log)
    · exact .inr (held.mono fun _ => act.mem_log)
  store := by
    intro key data found
    have old (stored : ClientForHotstuff.aux (B := B) worker.client key = some data) :
        ∃ proposal, data = ClientForHotstuff.encode (C := C) proposal ∧ proposal.digest = key ∧
          Event.verifiedProposal proposal ∈ next.log := by
      obtain ⟨proposal, same, digest, verified⟩ := evident.store key data stored
      exact ⟨proposal, same, digest, act.mem_log verified⟩
    rcases act.aux with same | ⟨proposal, verified, written⟩
    · exact old (by rwa [same] at found)
    · rw [written, Function.update_apply] at found
      split at found
      · rename_i same
        exact ⟨proposal, (Option.some.inj found).symm, same.symm, act.mem_log verified⟩
      · exact old found
  events := act.keep_past Evidence.mono (fun _ fresh => evident.evidence fresh) evident.events

/-- Every state of every run has its evidence. -/
theorem Replica.Reachable.evident {guard : Replica B C → Prop} {replica : Replica B C}
    (reachable : Replica.Reachable policy.allowed guard keystore authorities replica)
    (admitted : ∀ state, guard state → Replica.Meets policy state) :
    Evident policy keystore authorities replica.worker :=
  reachable.invariant admitted (fun client queue fresh => Evident.start client queue fresh)
    fun _ _ act evident => evident.act act

end Hotstuff
