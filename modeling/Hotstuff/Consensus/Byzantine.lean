import Hotstuff.Consensus.Agreement
import Hotstuff.Consensus.Signers

/-! Agreement with faulty authorities. They sign and send what they like; the
only QCs that are kept out are those completed by keys of outsiders, which
`QC::verify` lets pass. -/

namespace Hotstuff

open ConsensusWorker TwoChain

variable {B C : Type} [BlockT B]

/-- A QC of such a run: equal to the default one, whatever votes it lists, or
one for a certified proposal that is itself built on such QCs. -/
def Rooted (network : Network B) (system : System B C) (qc : QC B) : Prop :=
  qc.eq QC.default = true ∨
    ((votingRecord network system).Certified qc.view.toNat qc.proposalHash ∧
      Grounded (votingRecord network system) qc.proposalHash)

def Event.RootedIn (network : Network B) (system : System B C) (event : Event B) : Prop :=
  ∀ qc, event.qc? = some qc → Rooted network system qc

/-- An authority has voted for a proposal that is built on such QCs. -/
def CastGrounded (network : Network B) (system : System B C) (id : AuthorityId B)
    (view : ViewNumber) (hash : Hash B) : Prop :=
  Cast system id view hash ∧ Grounded (votingRecord network system) hash

variable {network : Network B} {system final : System B C} {id : AuthorityId B}

theorem Rooted.default : Rooted network final QC.default :=
  .inl (QC.eq_default_iff.mpr ⟨rfl, rfl⟩)

theorem Rooted.of_held {log : List (Event B)} {qc : QC B}
    (rooted : ∀ event ∈ log, event.RootedIn network final) (held : HeldQc log qc) :
    Rooted network final qc := by
  rcases held with ⟨proposal, member, rfl⟩ | ⟨timeout, member, rfl⟩ | member
  · exact rooted _ member _ rfl
  · exact rooted _ member _ rfl
  · exact rooted _ member _ rfl

/-- A quorum whose honest members have voted for a grounded proposal makes its
QC rooted. -/
theorem Rooted.of_quorum (few : 3 * network.faulty.card < network.authorities.length)
    {qc : QC B} {voters : List (AuthorityId B)} (quorum : Quorum network.authorities.ids voters)
    (cast : ∀ voter ∈ voters, network.Honest voter →
      CastGrounded network final voter qc.view qc.proposalHash) : Rooted network final qc := by
  have fewIds : 3 * network.faulty.card < network.authorities.ids.length := by
    simpa [AuthorityList.ids] using few
  obtain ⟨voter, listed, _, correct⟩ := quorum.common quorum network.faulty fewIds
  have honest : network.Honest voter := ⟨quorum.known voter listed, correct⟩
  refine .inr ⟨⟨_, voters, rfl, quorum, ?_⟩, (cast voter listed honest).2⟩
  intro voter listed honest
  exact (cast voter listed honest).1

/-- A vote in a log of verified proposals with rooted QCs is for a grounded one. -/
theorem CastGrounded.of_voted {policy : Policy B} {keystore : Keystore B}
    {authorities : AuthorityList B} {log : List (Event B)} {seen : ViewNumber}
    {proposal : Proposal B} {vote : Vote B} (honest : network.Honest id)
    (inside : log ⊆ (final id).worker.log)
    (past : Past (Evidence policy keystore authorities) log)
    (rooted : ∀ event ∈ log, event.RootedIn network final)
    (voted : Event.voted seen proposal vote ∈ log) :
    CastGrounded network final id vote.view vote.proposalHash := by
  obtain ⟨before, earlier, verified, _, _, hash, _⟩ := past.mem voted
  have carries (view : Nat) (same : proposal.qc.view.toNat = view) :
      (votingRecord network final).Carries vote.proposalHash view :=
    ⟨id, seen, proposal, vote, honest, inside voted, hash.symm, same⟩
  refine ⟨⟨seen, proposal, vote, inside voted, rfl, rfl⟩, ?_⟩
  rcases rooted _ (earlier verified) _ rfl with start | ⟨certified, grounded⟩
  · exact .genesis (carries 0 (by rw [(QC.eq_default_iff.mp start).2]; rfl))
  · exact .extend ⟨id, proposal, honest, inside (earlier verified), rfl, hash.symm⟩
      (carries _ rfl) certified grounded

variable [ClientForHotstuff B C] {guard : Replica B C → Prop}

theorem CastGrounded.of_logged (reachable : network.Reachable network.Inside guard system)
    (grows : network.Grows system final)
    (others : ∀ sender, network.Honest sender → ∀ event ∈ (system sender).worker.log,
      event.RootedIn network final)
    (honest : network.Honest id) {seen : ViewNumber} {proposal : Proposal B} {vote : Vote B}
    (voted : Event.voted seen proposal vote ∈ (system id).worker.log) :
    CastGrounded network final id vote.view vote.proposalHash :=
  .of_voted honest (grows id honest) (reachable.evident Network.inside_persistent honest).events
    (others id honest) voted

theorem CastGrounded.of_signed (apart : Set.InjOn (hashOf (B := B)) (network.digested final))
    (reachable : network.Reachable network.Inside guard system)
    (grows : network.Grows system final)
    (others : ∀ sender, network.Honest sender → ∀ event ∈ (system sender).worker.log,
      event.RootedIn network final)
    (honest : network.Honest id) {hash : Hash B} {view : ViewNumber}
    (among : votePreimage (B := B) hash view ∈ network.digested final) {event : Event B}
    (logged : event ∈ (system id).worker.log)
    (signed : event.signed? = some (hashOf (votePreimage (B := B) hash view))) :
    CastGrounded network final id view hash := by
  have own (bytes : List UInt8) (listed : bytes ∈ event.preimages) :
      bytes ∈ network.digested final :=
    network.preimages_subset final ⟨id, honest, event, grows id honest logged, listed⟩
  obtain ⟨seen, proposal, vote, rfl, rfl, rfl⟩ :=
    Event.voted_of_signed apart own among signed
  exact .of_logged reachable grows others honest logged

/-- A verified vote of an honest authority was cast by it, on a grounded proposal. -/
theorem CastGrounded.of_verified (apart : Set.InjOn (hashOf (B := B)) (network.digested final))
    (reachable : network.Reachable network.Inside guard system)
    (grows : network.Grows system final)
    (others : ∀ sender, network.Honest sender → ∀ event ∈ (system sender).worker.log,
      event.RootedIn network final)
    (receiver : network.Honest id) {log : List (Event B)} (inside : log ⊆ (final id).worker.log)
    (past : Past (Evidence (Policy.only (network.Inside system)) (network.keystore id)
      network.authorities) log)
    (rooted : ∀ event ∈ log, event.RootedIn network final) {vote : Vote B}
    (verified : Event.verifiedVote vote ∈ log) (honest : network.Honest vote.voter) :
    CastGrounded network final vote.voter vote.view vote.proposalHash := by
  obtain ⟨before, earlier, valid, (⟨gossiped | unforged, _⟩ | sendable)⟩ := past.mem verified
  · obtain ⟨sender, force, sending, sent⟩ := gossiped
    obtain ⟨seen, proposal, voted⟩ :=
      (reachable.evident Network.inside_persistent sending).mem sent
    rw [reachable.voter_eq Network.inside_persistent sending voted]
    exact .of_logged reachable grows others sending voted
  · obtain ⟨_, signature, present, genuine⟩ := Vote.verify_ok_iff.mp valid
    obtain ⟨event, logged, signed⟩ := unforged vote.voter signature vote.digest
      (by simp [ConsensusMessage.signatures, present]) honest genuine
    have among : vote.preimage ∈ network.digested final :=
      ⟨id, receiver, _, inside verified, by simp [Event.digested]⟩
    exact .of_signed apart reachable grows others honest among logged signed
  · obtain ⟨seen, proposal, voted⟩ := sendable
    obtain ⟨_, _, _, _, _, _, _, found⟩ := past.mem (earlier voted)
    have same : vote.voter = id :=
      Option.some.inj (found.symm.trans (network.own id receiver.1 receiver.2))
    rw [same]
    exact .of_voted receiver inside past rooted (earlier voted)

/-- The QC of a message that arrives and passes its check. -/
theorem Rooted.of_arrived (few : 3 * network.faulty.card < network.authorities.length)
    (apart : Set.InjOn (hashOf (B := B)) (network.digested final))
    (reachable : network.Reachable network.Inside guard system)
    (grows : network.Grows system final)
    (others : ∀ sender, network.Honest sender → ∀ event ∈ (system sender).worker.log,
      event.RootedIn network final)
    {message : ConsensusMessage B} {qc : QC B} (arrives : network.Inside system message)
    (verifies : message.Verifies network.authorities) (carried : message.qc? = some qc)
    (among : qc.preimage ∈ network.digested final)
    (checked : qc.eq QC.default = true ∨ qc.verify network.authorities = .ok ()) :
    Rooted network final qc := by
  rcases checked with start | certified
  · exact .inl start
  have same : network.Grows system system := fun _ _ _ member => member
  have genuine : Genuine network system qc :=
    .of_arrived reachable same (reachable.genuineIn same) arrives verifies carried
  have sound := genuine.sound certified
  refine .of_quorum few sound.1 fun voter listed honest => ?_
  obtain ⟨vote, member, rfl⟩ := List.mem_map.mp listed
  obtain ⟨event, logged, signed⟩ := genuine.signed vote member honest (sound.2 vote member)
  exact .of_signed apart reachable grows others honest among logged signed

/-- The step: an event with rooted QCs before it, here and at all senders, has a
rooted QC. -/
theorem Event.RootedIn.of_evidence (few : 3 * network.faulty.card < network.authorities.length)
    (apart : Set.InjOn (hashOf (B := B)) (network.digested final))
    (reachable : network.Reachable network.Inside guard system)
    (grows : network.Grows system final)
    (others : ∀ sender, network.Honest sender → ∀ event ∈ (system sender).worker.log,
      event.RootedIn network final)
    (honest : network.Honest id) {log : List (Event B)} {event : Event B}
    (inside : log ⊆ (final id).worker.log) (member : event ∈ (final id).worker.log)
    (past : Past (Evidence (Policy.only (network.Inside system)) (network.keystore id)
      network.authorities) log)
    (rooted : ∀ event ∈ log, event.RootedIn network final)
    (evidence : Evidence (Policy.only (network.Inside system)) (network.keystore id)
      network.authorities log event) : event.RootedIn network final := by
  intro qc found
  cases event with
  | verifiedProposal proposal =>
    rcases evidence.2 with arrives | own
    · have checked := (ConsensusState.verifyProposal_ok_iff.mp evidence.1).2
      refine .of_arrived few apart reachable grows others arrives checked found ?_ ?_
      · cases found
        exact ⟨id, honest, _, member, by simp [Event.digested]⟩
      · cases found
        exact (Proposal.verify_ok_iff.mp checked).2
    · exact rooted _ own _ found
  | verifiedTimeout timeout =>
    rcases evidence.2 with arrives | own
    · refine .of_arrived few apart reachable grows others arrives evidence.1 found ?_ ?_
      · cases found
        exact ⟨id, honest, _, member, by simp [Event.digested]⟩
      · cases found
        exact (Timeout.verify_ok_iff.mp evidence.1).2
    · exact rooted _ own _ found
  | proposed proposal =>
    cases found
    rcases evidence.1 with start | held
    · rw [start]
      exact .default
    · exact .of_held rooted held
  | timedOut timeout =>
    cases found
    rcases evidence.1 with start | held
    · rw [start]
      exact .default
    · exact .of_held rooted held
  | aggregatedQc formed =>
    cases found
    obtain ⟨large, nodup, entries⟩ := evidence
    have quorum : Quorum network.authorities.ids (qc.votes.map Prod.fst) := by
      refine quorum_votes_iff.mpr ⟨nodup, large, fun entry listed => ?_⟩
      obtain ⟨vote, verified, _, _, voter, _⟩ := entries entry listed
      obtain ⟨_, _, valid, _⟩ := past.mem verified
      rw [← voter]
      exact (Vote.verify_ok_iff.mp valid).1
    refine .of_quorum few quorum fun voter listed correct => ?_
    obtain ⟨entry, present, rfl⟩ := List.mem_map.mp listed
    obtain ⟨vote, verified, view, digest, voter, _⟩ := entries entry present
    have bytes : vote.preimage = qc.preimage :=
      apart ⟨id, honest, _, inside verified, by simp [Event.digested]⟩
        ⟨id, honest, _, member, by simp [Event.digested]⟩ digest
    rw [← voter] at correct ⊢
    rw [← view, ← (votePreimage_inj bytes).1]
    exact .of_verified apart reachable grows others honest inside past rooted verified correct
  | _ => cases found

/-- Every QC in every log of a run is rooted, seen from any later state. -/
theorem Network.Reachable.rootedIn (few : 3 * network.faulty.card < network.authorities.length)
    (apart : Set.InjOn (hashOf (B := B)) (network.digested final))
    (reachable : network.Reachable network.Inside guard system)
    (grows : network.Grows system final) :
    ∀ id, network.Honest id → ∀ event ∈ (system id).worker.log,
      event.RootedIn network final := by
  apply reachable.all_events (motive := Event.RootedIn network final)
    Network.inside_persistent grows
  intro system id log event before earlier others honest inside present past rooted evidence
  exact .of_evidence few apart before earlier others honest inside present past rooted evidence

/-- A run with fewer than a third of the authorities faulty, whose hashes neither
collide nor hit the default hash. -/
structure InsideRun (network : Network B) (guard : Replica B C → Prop) (system : System B C) :
    Prop where
  few : 3 * network.faulty.card < network.authorities.length
  reachable : network.Reachable network.Inside guard system
  apart : Set.InjOn (hashOf (B := B)) (network.digested system)
  real : ∀ bytes ∈ network.preimages system, hashOf (B := B) bytes ≠ BlockT.defaultHash

namespace InsideRun

theorem evident (run : InsideRun network guard system) (honest : network.Honest id) :
    Evident (Policy.only (network.Inside system)) (network.keystore id) network.authorities
      (system id).worker :=
  run.reachable.evident Network.inside_persistent honest

theorem rooted (run : InsideRun network guard system) {proposal : Proposal B}
    (seen : Seen network system proposal) : Rooted network system proposal.qc := by
  obtain ⟨id, honest, verified⟩ := seen
  exact run.reachable.rootedIn run.few run.apart (fun _ _ _ member => member) id honest _ verified
    _ rfl

/-- The digest of a seen proposal fixes its view and its parent. -/
theorem same_of_digest (run : InsideRun network guard system) {proposal other : Proposal B}
    (first : Seen network system proposal) (second : Seen network system other)
    (same : proposal.digest = other.digest) :
    proposal.view = other.view ∧ proposal.qc.proposalHash = other.qc.proposalHash := by
  have bytes := run.apart (network.preimages_subset system first.preimage)
    (network.preimages_subset system second.preimage) same
  exact (Proposal.preimage_inj bytes).2.2

theorem seen_of_voted (run : InsideRun network guard system) (honest : network.Honest id)
    {seen : ViewNumber} {proposal : Proposal B} {vote : Vote B}
    (voted : Event.voted seen proposal vote ∈ (system id).worker.log) :
    Seen network system proposal ∧ vote.proposalHash = proposal.digest ∧
      vote.view = proposal.view ∧ 0 < proposal.view := by
  obtain ⟨verified, proposalView, voteView, hash, positive, _⟩ := (run.evident honest).mem voted
  refine ⟨⟨id, honest, verified⟩, hash, voteView.trans proposalView.symm, ?_⟩
  rw [proposalView]
  exact positive

/-- Some honest replica has voted for a certified proposal in its view. -/
theorem voted_of_certified (run : InsideRun network guard system) {view : Nat} {hash : Hash B}
    (certified : (votingRecord network system).Certified view hash) :
    ∃ id seen proposal vote, network.Honest id ∧
      Event.voted seen proposal vote ∈ (system id).worker.log ∧
      Seen network system proposal ∧ proposal.digest = hash ∧ proposal.view.toNat = view ∧
      0 < view := by
  obtain ⟨number, voters, rfl, quorum, cast⟩ := certified
  have fewIds : 3 * network.faulty.card < network.authorities.ids.length := by
    simpa [AuthorityList.ids] using run.few
  obtain ⟨voter, listed, _, correct⟩ := quorum.common quorum network.faulty fewIds
  have honest : network.Honest voter := ⟨quorum.known voter listed, correct⟩
  obtain ⟨seen, proposal, vote, voted, rfl, rfl⟩ := cast voter listed honest
  obtain ⟨known, hash, view, positive⟩ := run.seen_of_voted honest voted
  rw [hash, view]
  exact ⟨voter, seen, proposal, vote, honest, voted, known, rfl, rfl,
    UInt64.lt_iff_toNat_lt.mp positive⟩

theorem view_of_certified (run : InsideRun network guard system) {view : Nat}
    {proposal : Proposal B} (seen : Seen network system proposal)
    (certified : (votingRecord network system).Certified view proposal.digest) :
    proposal.view.toNat = view := by
  obtain ⟨_, _, other, _, _, _, known, digest, same, _⟩ := run.voted_of_certified certified
  rw [(run.same_of_digest seen known digest.symm).1, same]

/-- Seen proposals with one digest carry QCs of one view, although the digest
does not cover it. -/
theorem carried_of_digest (run : InsideRun network guard system) {proposal other : Proposal B}
    (first : Seen network system proposal) (second : Seen network system other)
    (same : proposal.digest = other.digest) : proposal.qc.view = other.qc.view := by
  have parents := (run.same_of_digest first second same).2
  -- A certified hash is a digest of this run, which the default hash is not.
  have clash {qc start : QC B} {view : Nat} (begins : start.eq QC.default = true)
      (certified : (votingRecord network system).Certified view qc.proposalHash)
      (hashes : qc.proposalHash = start.proposalHash) : False := by
    obtain ⟨_, _, voted, _, _, _, known, digest, _⟩ := run.voted_of_certified certified
    apply run.real _ known.preimage
    exact (digest.trans hashes).trans (QC.eq_default_iff.mp begins).1
  rcases run.rooted first with start | ⟨certified, _⟩
  · rcases run.rooted second with startToo | ⟨certified, _⟩
    · rw [(QC.eq_default_iff.mp start).2, (QC.eq_default_iff.mp startToo).2]
    · exact (clash start certified parents.symm).elim
  · rcases run.rooted second with start | ⟨certifiedToo, _⟩
    · exact (clash start certified parents).elim
    · obtain ⟨_, _, voted, _, _, _, known, digest, view, _⟩ := run.voted_of_certified certified
      rw [← parents, ← digest] at certifiedToo
      rw [← UInt64.toNat_inj, ← view]
      exact run.view_of_certified known certifiedToo

theorem carried_eq (run : InsideRun network guard system) {view : Nat} {proposal : Proposal B}
    (seen : Seen network system proposal)
    (carries : (votingRecord network system).Carries proposal.digest view) :
    proposal.qc.view.toNat = view := by
  obtain ⟨id, _, other, _, honest, voted, digest, rfl⟩ := carries
  obtain ⟨known, _⟩ := run.seen_of_voted honest voted
  rw [run.carried_of_digest seen known digest.symm]

/-- Under the lock a replica that votes twice carries no less the second time. -/
theorem carried_le (run : InsideRun network Replica.KeepsLock system)
    (honest : network.Honest id) {view later : ViewNumber} {hash other : Hash B} {low high : Nat}
    (first : Cast system id view hash) (second : Cast system id later other) (less : view < later)
    (carried : (votingRecord network system).Carries hash low)
    (carriedToo : (votingRecord network system).Carries other high) : low ≤ high := by
  obtain ⟨_, proposal, vote, voted, rfl, rfl⟩ := first
  obtain ⟨_, proposal', vote', voted', rfl, rfl⟩ := second
  obtain ⟨seen, hash, view, _⟩ := run.seen_of_voted honest voted
  obtain ⟨seen', hash', view', _⟩ := run.seen_of_voted honest voted'
  have locked : Locked (system id).worker :=
    (run.reachable.replica Network.inside_persistent honest).invariant
      (Replica.KeepsLock.meets (network.Inside system)) (fun _ _ _ => .nil)
      fun _ _ act locked => locked.act act
  have increasing := (run.evident honest).votedProposals_increasing
    (run.reachable.disciplined Network.inside_persistent honest)
  have ordered := ViewNumber.of_increasing increasing locked
    (List.mem_filterMap.mpr ⟨_, voted, rfl⟩) (List.mem_filterMap.mpr ⟨_, voted', rfl⟩)
    (by rwa [← view, ← view'])
  rw [hash] at carried
  rw [hash'] at carriedToo
  rw [← run.carried_eq seen carried, ← run.carried_eq seen' carriedToo]
  exact UInt64.le_iff_toNat_le.mp ordered

/-- Under the lock the votes of honest replicas follow the two-chain rule. -/
theorem lawful (run : InsideRun network Replica.KeepsLock system) :
    Lawful (votingRecord network system) where
  shared := by
    intro v x w y first second
    obtain ⟨number, voters, view, quorum, cast⟩ := first
    obtain ⟨number', voters', view', quorum', cast'⟩ := second
    have fewIds : 3 * network.faulty.card < network.authorities.ids.length := by
      simpa [AuthorityList.ids] using run.few
    obtain ⟨voter, listed, listed', correct⟩ := quorum.common quorum' network.faulty fewIds
    have honest : network.Honest voter := ⟨quorum.known voter listed, correct⟩
    exact ⟨voter, ⟨honest, number, view, cast voter listed honest⟩,
      ⟨honest, number', view', cast' voter listed' honest⟩⟩
  single := by
    intro voter v x y first second
    obtain ⟨honest, number, view, cast⟩ := first
    obtain ⟨_, number', view', cast'⟩ := second
    obtain rfl : number = number' := UInt64.toNat_inj.mp (view.trans view'.symm)
    exact cast.unique Network.inside_persistent run.reachable honest cast'
  locked := by
    intro voter v x w y a b first second less
    obtain ⟨honest, number, rfl, cast⟩ := first
    obtain ⟨_, number', rfl, cast'⟩ := second
    exact run.carried_le honest cast cast' (UInt64.lt_iff_toNat_lt.mpr less)

theorem parent_certified (run : InsideRun network guard system) {proposal parent : Proposal B}
    (seen : Seen network system proposal) (seenParent : Seen network system parent)
    (linked : parent.digest = proposal.qc.proposalHash) :
    proposal.qc.view = parent.view ∧
      (votingRecord network system).Certified parent.view.toNat parent.digest ∧
      Grounded (votingRecord network system) parent.digest := by
  rcases run.rooted seen with start | ⟨certified, grounded⟩
  · rw [(QC.eq_default_iff.mp start).1] at linked
    exact absurd linked (run.real _ seenParent.preimage)
  · rw [← linked] at certified grounded
    have view := run.view_of_certified seenParent certified
    exact ⟨UInt64.toNat_inj.mp view.symm, by rwa [view], grounded⟩

/-- A proposal that an honest replica finalizes is committed by the two-chain
rule. -/
theorem committed (run : InsideRun network guard system) (honest : network.Honest id)
    {grandpa : Proposal B} (finalized : grandpa ∈ finalizedProposals (system id).worker.log) :
    Nonempty (Committed (votingRecord network system) grandpa.view.toNat grandpa.digest) ∧
      Grounded (votingRecord network system) grandpa.digest := by
  obtain ⟨proposal, parent, block, member⟩ := mem_finalizedProposals.mp finalized
  obtain ⟨first, second, third, parentLink, grandpaLink, consecutive, _⟩ :=
    (run.evident honest).mem member
  have seenParent : Seen network system parent := ⟨id, honest, second⟩
  obtain ⟨_, parentCertified, _⟩ :=
    run.parent_certified ⟨id, honest, first⟩ seenParent parentLink
  obtain ⟨carried, certified, grounded⟩ :=
    run.parent_certified seenParent ⟨id, honest, third⟩ grandpaLink
  obtain ⟨voter, seen, voted, vote, voting, logged, _, digest, _⟩ :=
    run.voted_of_certified parentCertified
  have carries : (votingRecord network system).Carries parent.digest voted.qc.view.toNat :=
    ⟨voter, seen, voted, vote, voting, logged, digest, rfl⟩
  rw [← run.carried_eq seenParent carries, carried] at carries
  rw [ViewNumber.next?_eq_some.mp consecutive] at parentCertified
  obtain ⟨_, _, _, _, _, _, _, _, _, positive⟩ := run.voted_of_certified certified
  exact ⟨⟨{
    child := parent.digest
    positive := positive
    parent := ⟨id, parent, honest, second, grandpaLink.symm, rfl⟩
    carried := carries
    certified := certified
    childCertified := parentCertified }⟩, grounded⟩

end InsideRun

/-- Whatever fewer than a third of faulty authorities sign and send, but for QCs
completed by keys of outsiders, and in whatever order messages arrive: where the
honest replicas vote under the lock, all that they finalize lies on one chain in
the order of the views, with one proposal for each view. -/
theorem byzantine_agreement {network : Network B} {system : System B C}
    (few : 3 * network.faulty.card < network.authorities.length)
    (reachable : network.Reachable network.Inside Replica.KeepsLock system)
    (apart : Set.InjOn (hashOf (B := B)) (network.digested system))
    (real : ∀ bytes ∈ network.preimages system, hashOf (B := B) bytes ≠ BlockT.defaultHash)
    {first second : AuthorityId B} (honest : network.Honest first)
    (honestToo : network.Honest second) {proposal other : Proposal B}
    (finalized : proposal ∈ finalizedProposals (system first).worker.log)
    (finalizedToo : other ∈ finalizedProposals (system second).worker.log) :
    (proposal.view = other.view → proposal.digest = other.digest) ∧
      (proposal.view ≤ other.view → Ancestor network system proposal.digest other.digest) := by
  have run : InsideRun network Replica.KeepsLock system := ⟨few, reachable, apart, real⟩
  obtain ⟨⟨commit⟩, _⟩ := run.committed honest finalized
  obtain ⟨⟨commitToo⟩, grounded⟩ := run.committed honestToo finalizedToo
  constructor
  · intro same
    have certified := commitToo.certified
    rw [← same] at certified
    exact run.lawful.certified_unique commit.certified certified
  · intro below
    exact commit.descends run.lawful grounded commitToo.certified
      (UInt64.le_iff_toNat_le.mp below)

/-- The QCs that honest replicas gossip are never completed by outsiders. -/
theorem Network.Reachable.inside_of_gossiped
    (reachable : network.Reachable network.Inside guard system) {message : ConsensusMessage B}
    (sent : network.Gossiped system message) : network.Inside system message := by
  refine ⟨.inl sent, fun _ qc carried => ?_⟩
  have same : network.Grows system system := fun _ _ _ member => member
  obtain ⟨sender, sending, sendable⟩ :=
    reachable.sendable_of_gossiped Network.inside_persistent sent
  cases message with
  | propose proposal => exact (reachable.genuineIn same sender sending _ sendable _ carried).inside
  | timeout timeout => exact (reachable.genuineIn same sender sending _ sendable _ carried).inside
  | _ => cases carried

theorem Network.inside_delivers :
    network.Delivers guard (network.Inside (C := C)) (ConsensusMessage.byFaulty network) where
  gossiped _ _ reachable sent := reachable.inside_of_gossiped sent
  forged system message made := by
    refine ⟨.inr (Network.unforged_of_byFaulty made), fun _ qc carried outside => ?_⟩
    obtain ⟨vote, member, stranger⟩ := outside.2.2.2
    have listed := ConsensusMessage.mem_signatures_of_qc? carried member
    exact stranger (of_decide_eq_true (List.all_eq_true.mp made _ listed)).1

namespace Sample

/-- Replica 1 is faulty and has proposed two blocks in view 1. After the QC of view 2
the other three go through views 3 and 4, and all of them finalize the block of
view 2. -/
def outvoting : List (AuthorityId Sample × Input Sample) :=
  certifying ++ [receive 0 3 4, receive 2 3 4, receive 0 2 5, receive 0 3 5, receive 3 0 5,
    receive 2 0 5]

def outvotedCluster : Cluster Sample Sample.Client :=
  (cluster 4 fun _ => 8).execute 20 outvoting

def outvoted : System Sample Sample.Client := outvotedCluster.system (node 4 fun _ => 8)

theorem outvoted_reachable : (Sample.network 4 {1}).Reachable (Sample.network 4 {1}).Inside
    Replica.KeepsLock outvoted :=
  .execute Network.inside_delivers Replica.carriesMore Replica.keepsLock_of_carriesMore 20 _ _
    (cluster_reachable 4 {1} _ _ _) (by decide +kernel)

theorem outvoted_doubled : Doubled outvoted := ⟨by decide +kernel, by decide +kernel⟩

end Sample

/-- With one of four authorities faulty block 8 is finalized by the first replica,
and everything else that an honest one finalizes is on its chain. -/
theorem byzantine_agreement_four :
    Sample.Doubled Sample.outvoted ∧
    ∃ proposal ∈ finalizedProposals (Sample.outvoted (0 : Fin 8)).worker.log,
      proposal.payload.blockHash = (8 : BitVec 64) ∧
      ∀ id, (Sample.network 4 {1}).Honest id →
        ∀ other ∈ finalizedProposals (Sample.outvoted id).worker.log,
          proposal.view ≤ other.view →
            Ancestor (Sample.network 4 {1}) Sample.outvoted proposal.digest other.digest := by
  have checked : Sample.outvotedCluster.covers (Sample.network 4 {1}) = true ∧
      Sample.outvotedCluster.hashesReal = true ∧
      hashesDiffer (B := Sample) Sample.outvotedCluster.digested = true := by
    decide +kernel
  have found : ∃ proposal ∈ finalizedProposals (Sample.outvoted (0 : Fin 8)).worker.log,
      proposal.payload.blockHash = (8 : BitVec 64) := by decide +kernel
  obtain ⟨covered, away, differ⟩ := checked
  obtain ⟨proposal, member, block⟩ := found
  refine ⟨Sample.outvoted_doubled, proposal, member, block,
    fun id honest other memberToo below => ?_⟩
  exact (byzantine_agreement (by decide) Sample.outvoted_reachable
    ((injOn_of_hashesDiffer differ).mono (Cluster.digested_subset covered _))
    (Cluster.real covered away _) (by decide) honest member memberToo).2 below

end Hotstuff
