import Hotstuff.Consensus.Schedule

/-! What a QC says about a network: a quorum of authorities, of which the honest
ones have voted. One view has at most one certified proposal. -/

namespace Hotstuff

variable {B C : Type} [BlockT B]

/-- An authority has voted for a proposal hash in a view. -/
def Cast (system : System B C) (id : AuthorityId B) (view : ViewNumber) (hash : Hash B) : Prop :=
  ∃ seen proposal vote, Event.voted seen proposal vote ∈ (system id).worker.log ∧
    vote.view = view ∧ vote.proposalHash = hash

/-- A quorum of authorities, of which every honest one has voted. -/
def Backed (network : Network B) (system : System B C) (view : ViewNumber) (hash : Hash B)
    (voters : List (AuthorityId B)) : Prop :=
  Quorum network.authorities.ids voters ∧
    ∀ voter ∈ voters, network.Honest voter → Cast system voter view hash

variable [ClientForHotstuff B C] {network : Network B}
  {allowed : System B C → ConsensusMessage B → Prop} {guard : Replica B C → Prop}
  {system : System B C} {id : AuthorityId B}

theorem Cast.unique (persistent : network.Persistent allowed)
    (reachable : network.Reachable allowed guard system) (honest : network.Honest id)
    {view : ViewNumber} {hash other : Hash B} (first : Cast system id view hash)
    (second : Cast system id view other) : hash = other := by
  obtain ⟨seen, proposal, vote, member, inView, forHash⟩ := first
  obtain ⟨seen', proposal', vote', member', inView', forHash'⟩ := second
  have same := (reachable.disciplined persistent honest).voted_unique member member'
    (inView.trans inView'.symm)
  rw [← forHash, ← forHash', same.2]

/-- Two backed hashes of one view are the same, as long as fewer than a third of
the authorities are faulty. -/
theorem Backed.unique (persistent : network.Persistent allowed)
    (reachable : network.Reachable allowed guard system)
    (few : 3 * network.faulty.card < network.authorities.length)
    {view : ViewNumber} {hash other : Hash B} {voters others : List (AuthorityId B)}
    (first : Backed network system view hash voters)
    (second : Backed network system view other others) : hash = other := by
  have fewIds : 3 * network.faulty.card < network.authorities.ids.length := by
    simpa [AuthorityList.ids] using few
  obtain ⟨voter, listed, listedToo, correct⟩ := first.1.common second.1 network.faulty fewIds
  have honest : network.Honest voter := ⟨first.1.known voter listed, correct⟩
  exact (first.2 voter listed honest).unique persistent reachable honest
    (second.2 voter listedToo honest)

/-- A replica votes under its own name. -/
theorem Network.Reachable.voter_eq (persistent : network.Persistent allowed)
    (reachable : network.Reachable allowed guard system) (honest : network.Honest id)
    {seen : ViewNumber} {proposal : Proposal B} {vote : Vote B}
    (member : Event.voted seen proposal vote ∈ (system id).worker.log) : vote.voter = id := by
  obtain ⟨_, _, _, _, _, found⟩ := (reachable.evident persistent honest).mem member
  exact (Option.some.inj (found.symm.trans (network.own id honest.1 honest.2)))

theorem Network.Reachable.cast_of_sendable (persistent : network.Persistent allowed)
    (reachable : network.Reachable allowed guard system) (honest : network.Honest id)
    {vote : Vote B} (sendable : Sendable (system id).worker.log (.vote vote)) :
    Cast system vote.voter vote.view vote.proposalHash := by
  obtain ⟨seen, proposal, member⟩ := sendable
  rw [reachable.voter_eq persistent honest member]
  exact ⟨seen, proposal, vote, member, rfl, rfl⟩

theorem Network.Reachable.cast_of_gossiped (persistent : network.Persistent allowed)
    (reachable : network.Reachable allowed guard system) {vote : Vote B}
    (gossiped : network.Gossiped system (.vote vote)) :
    Cast system vote.voter vote.view vote.proposalHash := by
  obtain ⟨sender, force, honest, sent⟩ := gossiped
  exact reachable.cast_of_sendable persistent honest
    ((reachable.evident persistent honest).mem sent)

omit [ClientForHotstuff B C] in
/-- The owner of a key that signed the digest of a vote has cast that vote: the
digests of timeouts and proposals are of byte strings of other lengths. -/
theorem Network.CollisionFree.cast_of_signed (collisionFree : network.CollisionFree system)
    {vote : Vote B} {receiver : AuthorityId B} (receiving : network.Honest receiver)
    (verified : Event.verifiedVote vote ∈ (system receiver).worker.log)
    (honest : network.Honest vote.voter) {event : Event B}
    (member : event ∈ (system vote.voter).worker.log)
    (signed : event.signed? = some vote.digest) :
    Cast system vote.voter vote.view vote.proposalHash := by
  have hashed : vote.preimage ∈ network.preimages system :=
    ⟨receiver, receiving, _, verified, by simp [Event.preimages]⟩
  have length : vote.preimage.length = 40 := votePreimage_length _ _
  cases event with
  | voted seen proposal cast =>
    have bytes : cast.preimage = vote.preimage :=
      collisionFree ⟨_, honest, _, member, by simp [Event.preimages]⟩ hashed
        (Option.some.inj signed)
    obtain ⟨sameHash, sameView⟩ := votePreimage_inj bytes
    exact ⟨seen, proposal, cast, member, sameView, sameHash⟩
  | timedOut timeout =>
    have bytes : timeout.preimage = vote.preimage :=
      collisionFree ⟨_, honest, _, member, by simp [Event.preimages]⟩ hashed
        (Option.some.inj signed)
    have short : timeout.preimage.length = 16 := timeoutPreimage_length _ _
    rw [bytes] at short
    omega
  | proposed proposal =>
    have bytes : proposal.preimage = vote.preimage :=
      collisionFree ⟨_, honest, _, member, by simp [Event.preimages]⟩ hashed
        (Option.some.inj signed)
    have long := proposal.preimage_length
    rw [bytes] at long
    omega
  | _ => cases signed

/-- A verified vote of an honest authority was cast by it. -/
theorem Network.Reachable.cast_of_verified
    (reachable : network.Reachable network.Byzantine guard system)
    (collisionFree : network.CollisionFree system) (honest : network.Honest id) {vote : Vote B}
    (verified : Event.verifiedVote vote ∈ (system id).worker.log)
    (voter : network.Honest vote.voter) : Cast system vote.voter vote.view vote.proposalHash := by
  have persistent := network.byzantine_persistent (C := C)
  obtain ⟨valid, (gossiped | unforged) | own⟩ := (reachable.evident persistent honest).mem verified
  · exact reachable.cast_of_gossiped persistent gossiped
  · obtain ⟨_, signature, present, genuine⟩ := Vote.verify_ok_iff.mp valid
    obtain ⟨event, member, signed⟩ := unforged vote.voter signature vote.digest
      (by simp [ConsensusMessage.signatures, present]) voter genuine
    exact collisionFree.cast_of_signed honest verified voter member signed
  · exact reachable.cast_of_sendable persistent honest own

/-- A QC that an honest replica completes is backed by a quorum. -/
theorem Network.Reachable.backed
    (reachable : network.Reachable network.Byzantine guard system)
    (collisionFree : network.CollisionFree system) (honest : network.Honest id) {qc : QC B}
    (aggregated : Event.aggregatedQc qc ∈ (system id).worker.log) :
    Backed network system qc.view qc.proposalHash (qc.votes.map Prod.fst) := by
  have evident := reachable.evident network.byzantine_persistent honest
  obtain ⟨large, nodup, entries⟩ := evident.mem aggregated
  have listed (voter : AuthorityId B) (member : voter ∈ qc.votes.map Prod.fst) :
      ∃ vote, Event.verifiedVote vote ∈ (system id).worker.log ∧ vote.view = qc.view ∧
        vote.digest = qc.digest ∧ vote.voter = voter := by
    obtain ⟨entry, present, rfl⟩ := List.mem_map.mp member
    obtain ⟨vote, verified, view, digest, same, _⟩ := entries entry present
    exact ⟨vote, verified, view, digest, same⟩
  refine ⟨⟨nodup, fun voter member => ?_, by simpa [AuthorityList.ids] using large⟩, ?_⟩
  · obtain ⟨vote, verified, _, _, rfl⟩ := listed voter member
    exact (Vote.verify_ok_iff.mp (evident.mem verified).1).1
  · intro voter member correct
    obtain ⟨vote, verified, view, digest, rfl⟩ := listed voter member
    have bytes : vote.preimage = qc.preimage :=
      collisionFree ⟨id, honest, _, verified, by simp [Event.preimages]⟩
        ⟨id, honest, _, aggregated, by simp [Event.preimages]⟩ digest
    rw [← view, ← (votePreimage_inj bytes).1]
    exact reachable.cast_of_verified collisionFree honest verified correct

/-- Whatever fewer than a third of faulty authorities sign and send, in whatever
order messages arrive: two QCs of one view that honest replicas ever complete
are for the same proposal. -/
theorem qc_unique_per_view {network : Network B} {system : System B C}
    (few : 3 * network.faulty.card < network.authorities.length)
    (reachable : network.Reachable network.Byzantine (fun _ => True) system)
    (collisionFree : network.CollisionFree system) {first second : AuthorityId B}
    (honest : network.Honest first) (honestToo : network.Honest second) {qc other : QC B}
    (aggregated : Event.aggregatedQc qc ∈ (system first).worker.log)
    (aggregatedToo : Event.aggregatedQc other ∈ (system second).worker.log)
    (same : qc.view = other.view) : qc.proposalHash = other.proposalHash := by
  have backed := reachable.backed collisionFree honestToo aggregatedToo
  rw [← same] at backed
  exact (reachable.backed collisionFree honest aggregated).unique network.byzantine_persistent
    reachable few backed

def Event.aggregatedQc? : Event B → Option (QC B)
  | .aggregatedQc qc => some qc
  | _ => none

omit [ClientForHotstuff B C] in
theorem mem_aggregatedQcs {log : List (Event B)} {qc : QC B} :
    qc ∈ log.filterMap Event.aggregatedQc? ↔ Event.aggregatedQc qc ∈ log := by
  constructor
  · intro listed
    obtain ⟨event, member, found⟩ := List.mem_filterMap.mp listed
    cases event with
    | aggregatedQc formed =>
      cases found
      exact member
    | _ => cases found
  · intro member
    exact List.mem_filterMap.mpr ⟨_, member, rfl⟩

/-- A proposal that authority 1 makes in view 1, which it leads. -/
def Sample.doubled (block : BitVec 64) : ConsensusMessage Sample :=
  .propose (Sample.proposal QC.default block 1 1)

/-- Three of four authorities run, and the fourth, which is faulty, proposes a block
that nobody has, then block 5 to two of them and block 6 to the third. They vote for
what they get and give up views 0 and 1, replica 2 proposes in view 2, and replica 3
completes the QC. -/
def Sample.certifying : List (AuthorityId Sample × Input Sample) :=
  [fire 0, fire 2, fire 3, forge 0 (doubled 77), forge 0 (doubled 5), forge 2 (doubled 6),
    forge 3 (doubled 5), fire 0, fire 2, fire 3, receive 0 2 1, receive 0 3 2, receive 2 0 2,
    receive 2 3 2, receive 3 0 2, receive 3 2 1, receive 3 2 3, receive 0 2 3, receive 3 2 4,
    receive 3 0 4]

def Sample.certifiedCluster : Cluster Sample Sample.Client :=
  (Sample.cluster 4 fun _ => 8).execute 20 Sample.certifying

def Sample.certified : System Sample Sample.Client :=
  Sample.certifiedCluster.system (Sample.node 4 fun _ => 8)

theorem Sample.certified_reachable :
    (Sample.network 4 {1}).Reachable (Sample.network 4 {1}).Byzantine (fun _ => True)
      Sample.certified :=
  .execute Network.byzantine_delivers (fun _ => true) (fun _ _ => trivial) 20 _ _
    (Sample.cluster_reachable 4 {1} _ _ _) (by decide +kernel)

/-- The faulty authority has got votes for two proposals of view 1. -/
def Sample.Doubled (system : System Sample Sample.Client) : Prop :=
  Sample.proposal QC.default 5 1 1 ∈ votedProposals (system (0 : Fin 8)).worker.log ∧
    Sample.proposal QC.default 6 1 1 ∈ votedProposals (system (2 : Fin 8)).worker.log

theorem Sample.certified_collisionFree :
    (Sample.network 4 {1}).CollisionFree Sample.certified :=
  Cluster.collisionFree (by decide +kernel) (by decide +kernel) _

/-- With one of four authorities faulty a QC of view 2 is completed, and every
QC of view 2 that any honest replica completes is for its proposal. -/
theorem qc_unique_per_view_four :
    Sample.Doubled Sample.certified ∧
    ∃ qc, Event.aggregatedQc qc ∈ (Sample.certified (3 : Fin 8)).worker.log ∧
      qc.view = 2 ∧ ∀ id other, (Sample.network 4 {1}).Honest id →
        Event.aggregatedQc other ∈ (Sample.certified id).worker.log →
        other.view = 2 → qc.proposalHash = other.proposalHash := by
  have formed : ∃ qc ∈ (Sample.certified (3 : Fin 8)).worker.log.filterMap Event.aggregatedQc?,
      qc.view = 2 := by decide +kernel
  obtain ⟨qc, listed, view⟩ := formed
  have member := mem_aggregatedQcs.mp listed
  have doubled : Sample.Doubled Sample.certified := ⟨by decide +kernel, by decide +kernel⟩
  refine ⟨doubled, qc, member, view, fun id other honest memberToo viewToo => ?_⟩
  exact qc_unique_per_view (by decide) Sample.certified_reachable Sample.certified_collisionFree
    (by decide) honest member memberToo (view.trans viewToo.symm)

end Hotstuff
