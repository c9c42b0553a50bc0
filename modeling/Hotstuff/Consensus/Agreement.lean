import Hotstuff.Consensus.Finality
import Hotstuff.Consensus.Lineage

/-! Agreement between replicas. The votes of a run follow the two-chain rule
except for its lock: `make_vote` does not compare the QC of a proposal with
those it has voted on. Under the lock replicas agree, and without it they may
finalize proposals of two branches. -/

namespace Hotstuff

open ConsensusWorker TwoChain

variable {B C : Type} [BlockT B]

/-- Votes were for proposals on QCs of ascending views. -/
def Locked (worker : ConsensusWorker B C) : Prop :=
  (votedProposals worker.log).Pairwise fun earlier later => earlier.qc.view ≤ later.qc.view

/-- A run on certain messages in which votes keep the lock. -/
def Policy.locking (allowed : ConsensusMessage B → Prop) : Policy B :=
  { Policy.any with
    allowed
    vote := fun earlier proposal => ∀ other ∈ earlier, other.qc.view ≤ proposal.qc.view }

theorem votedProposals_eq (log : List (Event B)) :
    votedProposals log = (log.filterMap Event.vote?).map Prod.fst := by
  rw [votedProposals, List.map_filterMap]
  congr 1
  funext event
  cases event <;> rfl

/-- A proposal that some honest replica has verified. -/
def Seen (network : Network B) (system : System B C) (proposal : Proposal B) : Prop :=
  ∃ id, network.Honest id ∧ Event.verifiedProposal proposal ∈ (system id).worker.log

theorem Seen.preimage {network : Network B} {system : System B C} {proposal : Proposal B}
    (seen : Seen network system proposal) :
    proposal.preimage ∈ network.preimages system := by
  obtain ⟨id, honest, verified⟩ := seen
  exact ⟨id, honest, _, verified, by simp [Event.preimages]⟩

variable [ClientForHotstuff B C] {policy : Policy B} {keystore : Keystore B}
  {authorities : AuthorityList B} {worker next : ConsensusWorker B C}

/-- The proposals a worker has voted for have increasing views. -/
theorem Evident.votedProposals_increasing
    (evident : Evident policy keystore authorities worker) (disciplined : Disciplined worker) :
    (votedProposals worker.log).Pairwise fun earlier later => earlier.view < later.view := by
  have voteView (pair : Proposal B × Vote B) (member : pair ∈ worker.log.filterMap Event.vote?) :
      pair.2.view = pair.1.view := by
    obtain ⟨event, logged, found⟩ := List.mem_filterMap.mp member
    cases event with
    | voted seen proposal vote =>
      cases found
      obtain ⟨_, proposalView, voteView, _⟩ := evident.mem logged
      exact voteView.trans proposalView.symm
    | _ => cases found
  rw [votedProposals_eq, List.pairwise_map]
  refine disciplined.increasing.imp_of_mem fun first second less => ?_
  rw [← voteView _ first, ← voteView _ second]
  exact less

theorem Locked.act {allowed : ConsensusMessage B → Prop}
    (act : Act (Policy.locking allowed) worker next) (locked : Locked worker) : Locked next := by
  cases act with
  | calm calm =>
    rw [Locked, calm.votedProposals]
    exact locked
  | vote proposal vote marked _ _ admitted _ =>
    have grown : votedProposals ({ worker with state := marked }.emit
        (.voted worker.state.view proposal vote)).log =
        votedProposals worker.log ++ [proposal] := by
      simp [votedProposals, Event.votedProposal?]
    rw [Locked, grown, List.pairwise_append]
    refine ⟨locked, List.pairwise_singleton _ _, fun earlier member later added => ?_⟩
    cases List.mem_singleton.mp added
    exact admitted earlier member
  | propose payload tc proposal _ _ =>
    have same : votedProposals (worker.emit (.proposed proposal)).log =
        votedProposals worker.log := by
      simp [votedProposals, Event.votedProposal?]
    rw [Locked, same]
    exact locked

/-- The check that `make_vote` lacks: a vote is for a proposal on a QC at least
as high as those of all proposals voted for before. -/
def Replica.KeepsLock (replica : Replica B C) : Prop :=
  ∀ call proposal, replica.control = .running call → Votes replica.worker call proposal →
    ∀ earlier ∈ votedProposals replica.worker.log, earlier.qc.view ≤ proposal.qc.view

theorem Replica.KeepsLock.meets (allowed : ConsensusMessage B → Prop) (replica : Replica B C)
    (keeps : replica.KeepsLock) : Replica.Meets (Policy.locking allowed) replica :=
  fun call running => ⟨fun _ _ => trivial,
    fun proposal votes => keeps call proposal running votes, fun _ _ => trivial⟩

/-- A run of replicas with few of them down, whose hashes neither collide nor
hit the default hash. -/
structure HonestRun (network : Network B) (guard : Replica B C → Prop) (system : System B C) :
    Prop where
  few : 3 * network.faulty.card < network.authorities.length
  reachable : network.Reachable network.Gossiped guard system
  collisionFree : network.CollisionFree system
  real : ∀ bytes ∈ network.preimages system, hashOf (B := B) bytes ≠ BlockT.defaultHash

namespace HonestRun

variable {network : Network B} {guard : Replica B C → Prop} {system : System B C}

theorem byzantine (run : HonestRun network guard system) :
    network.Reachable network.Byzantine guard system :=
  run.reachable.mono (fun _ _ sent => .inl sent) fun _ holds => holds

theorem evident (run : HonestRun network guard system) {id : AuthorityId B}
    (honest : network.Honest id) :
    Evident (Policy.only (network.Gossiped system)) (network.keystore id) network.authorities
      (system id).worker :=
  run.reachable.evident network.gossiped_persistent honest

theorem fewIds (run : HonestRun network guard system) :
    3 * network.faulty.card < network.authorities.ids.length := by
  simpa [AuthorityList.ids] using run.few

/-- Every QC that came with a verified proposal is sound. -/
theorem soundQc (run : HonestRun network guard system) {id : AuthorityId B}
    (honest : network.Honest id) {proposal : Proposal B}
    (verified : Event.verifiedProposal proposal ∈ (system id).worker.log) :
    SoundQc network system proposal.qc :=
  Network.Reachable.soundIn run.collisionFree run.byzantine run.reachable
    (fun _ _ _ member => member) id honest _ verified _ rfl

/-- The digest of a seen proposal fixes its view and the hash in its QC. -/
theorem seen_unique (run : HonestRun network guard system) {proposal other : Proposal B}
    (first : Seen network system proposal) (second : Seen network system other)
    (same : proposal.digest = other.digest) :
    proposal.view = other.view ∧ proposal.qc.proposalHash = other.qc.proposalHash :=
  (Proposal.preimage_inj (run.collisionFree first.preimage second.preimage same)).2.2

/-- A cast vote is for a seen proposal of its view, which is not view 0. -/
theorem seen_of_cast (run : HonestRun network guard system) {id : AuthorityId B}
    (honest : network.Honest id) {view : ViewNumber} {hash : Hash B}
    (cast : Cast system id view hash) :
    ∃ seen proposal vote, Event.voted seen proposal vote ∈ (system id).worker.log ∧
      Seen network system proposal ∧ proposal.digest = hash ∧ proposal.view = view ∧
      0 < view := by
  obtain ⟨seen, proposal, vote, member, rfl, rfl⟩ := cast
  obtain ⟨verified, proposalView, voteView, hash, positive, _⟩ := (run.evident honest).mem member
  exact ⟨seen, proposal, vote, member, ⟨id, honest, verified⟩, hash.symm,
    proposalView.trans voteView.symm, by rw [voteView]; exact positive⟩

/-- A certified hash is that of a seen proposal of the certified view. -/
theorem seen_of_certified (run : HonestRun network guard system) {view : Nat} {hash : Hash B}
    (certified : (votingRecord network system).Certified view hash) :
    ∃ id seen proposal vote, network.Honest id ∧
      Event.voted seen proposal vote ∈ (system id).worker.log ∧
      Seen network system proposal ∧ proposal.digest = hash ∧ proposal.view.toNat = view ∧
      0 < view := by
  obtain ⟨number, voters, rfl, quorum, cast⟩ := certified
  obtain ⟨voter, listed, _, correct⟩ := quorum.common quorum network.faulty run.fewIds
  have honest : network.Honest voter := ⟨quorum.known voter listed, correct⟩
  obtain ⟨seen, proposal, vote, member, known, digest, view, positive⟩ :=
    run.seen_of_cast honest (cast voter listed honest)
  refine ⟨voter, seen, proposal, vote, honest, member, known, digest, by rw [view], ?_⟩
  exact UInt64.lt_iff_toNat_lt.mp positive

theorem certified_view (run : HonestRun network guard system) {view : Nat}
    {proposal : Proposal B} (seen : Seen network system proposal)
    (certified : (votingRecord network system).Certified view proposal.digest) :
    proposal.view.toNat = view := by
  obtain ⟨_, _, other, _, _, _, known, digest, sameView, _⟩ := run.seen_of_certified certified
  rw [(run.seen_unique seen known digest.symm).1, sameView]

theorem certified_real (run : HonestRun network guard system) {view : Nat} {hash : Hash B}
    (certified : (votingRecord network system).Certified view hash) :
    hash ≠ BlockT.defaultHash := by
  obtain ⟨_, _, proposal, _, _, _, known, rfl, _⟩ := run.seen_of_certified certified
  exact run.real _ known.preimage

/-- The hash in a sound QC fixes its view. -/
theorem soundQc_view (run : HonestRun network guard system) {qc other : QC B}
    (first : SoundQc network system qc) (second : SoundQc network system other)
    (same : qc.proposalHash = other.proposalHash) : qc.view = other.view := by
  rcases first with rfl | ⟨certified, _⟩
  · rcases second with rfl | ⟨certified, _⟩
    · rfl
    · exact absurd same.symm (run.certified_real certified)
  · rcases second with rfl | ⟨certifiedToo, _⟩
    · exact absurd same (run.certified_real certified)
    · obtain ⟨_, _, proposal, _, _, _, known, digest, view, _⟩ := run.seen_of_certified certified
      rw [← same, ← digest] at certifiedToo
      rw [← UInt64.toNat_inj, ← view]
      exact run.certified_view known certifiedToo

/-- What a hash carries is the view of the QC in any seen proposal with it. -/
theorem carries_eq (run : HonestRun network guard system) {view : Nat} {proposal : Proposal B}
    (seen : Seen network system proposal)
    (carries : (votingRecord network system).Carries proposal.digest view) :
    proposal.qc.view.toNat = view := by
  obtain ⟨id, _, other, _, honest, voted, digest, rfl⟩ := carries
  have verified := ((run.evident honest).mem voted).1
  obtain ⟨seer, seeing, seenProposal⟩ := seen
  have parents := (run.seen_unique ⟨seer, seeing, seenProposal⟩ ⟨id, honest, verified⟩
    digest.symm).2
  rw [run.soundQc_view (run.soundQc seeing seenProposal) (run.soundQc honest verified) parents]

theorem locked (run : HonestRun network Replica.KeepsLock system) {id : AuthorityId B}
    (honest : network.Honest id) : Locked (system id).worker :=
  (run.reachable.replica network.gossiped_persistent honest).invariant
    (Replica.KeepsLock.meets (network.Gossiped system)) (fun _ _ _ => .nil)
    fun _ _ act locked => locked.act act

/-- A replica that votes twice carries no less the second time. -/
theorem carries_le (run : HonestRun network Replica.KeepsLock system) {id : AuthorityId B}
    (honest : network.Honest id) {view later : ViewNumber} {hash other : Hash B} {low high : Nat}
    (first : Cast system id view hash) (second : Cast system id later other) (less : view < later)
    (carried : (votingRecord network system).Carries hash low)
    (carriedToo : (votingRecord network system).Carries other high) : low ≤ high := by
  obtain ⟨_, proposal, vote, voted, seen, rfl, rfl, _⟩ := run.seen_of_cast honest first
  obtain ⟨_, proposal', vote', voted', seen', rfl, rfl, _⟩ := run.seen_of_cast honest second
  have increasing := (run.evident honest).votedProposals_increasing
    (run.reachable.disciplined network.gossiped_persistent honest)
  have member : proposal ∈ votedProposals (system id).worker.log :=
    List.mem_filterMap.mpr ⟨_, voted, rfl⟩
  have member' : proposal' ∈ votedProposals (system id).worker.log :=
    List.mem_filterMap.mpr ⟨_, voted', rfl⟩
  have ordered := ViewNumber.of_increasing increasing (run.locked honest) member member' less
  rw [← run.carries_eq seen carried, ← run.carries_eq seen' carriedToo]
  exact UInt64.le_iff_toNat_le.mp ordered

/-- Under the lock the votes of a run follow the two-chain rule. -/
theorem lawful (run : HonestRun network Replica.KeepsLock system) :
    Lawful (votingRecord network system) where
  shared := by
    rintro v x w y ⟨number, voters, view, quorum, cast⟩ ⟨number', voters', view', quorum', cast'⟩
    obtain ⟨voter, listed, listed', correct⟩ := quorum.common quorum' network.faulty run.fewIds
    have honest : network.Honest voter := ⟨quorum.known voter listed, correct⟩
    exact ⟨voter, ⟨honest, number, view, cast voter listed honest⟩,
      ⟨honest, number', view', cast' voter listed' honest⟩⟩
  single := by
    rintro voter v x y ⟨honest, number, view, cast⟩ ⟨_, number', view', cast'⟩
    have same : number = number' := UInt64.toNat_inj.mp (view.trans view'.symm)
    subst number'
    exact cast.unique network.gossiped_persistent run.reachable honest cast'
  locked := by
    rintro voter v x w y a b ⟨honest, number, rfl, cast⟩ ⟨_, number', rfl, cast'⟩ less
    exact run.carries_le honest cast cast' (UInt64.lt_iff_toNat_lt.mpr less)

/-- A seen proposal with a seen parent carries the certificate of the parent. -/
theorem certified_parent (run : HonestRun network guard system) {id : AuthorityId B}
    (honest : network.Honest id) {proposal parent : Proposal B}
    (verified : Event.verifiedProposal proposal ∈ (system id).worker.log)
    (seen : Seen network system parent) (linked : parent.digest = proposal.qc.proposalHash) :
    proposal.qc.view = parent.view ∧
      (votingRecord network system).Certified parent.view.toNat parent.digest ∧
      Grounded (votingRecord network system) parent.digest := by
  rcases run.soundQc honest verified with genesis | ⟨certified, grounded⟩
  · rw [genesis] at linked
    exact absurd linked (run.real _ seen.preimage)
  · rw [← linked] at certified grounded
    have view := run.certified_view seen certified
    exact ⟨UInt64.toNat_inj.mp view.symm, by rwa [view], grounded⟩

/-- A finalized proposal is committed by the two-chain rule. -/
theorem committed (run : HonestRun network guard system) {id : AuthorityId B}
    (honest : network.Honest id) {grandpa : Proposal B}
    (finalized : grandpa ∈ finalizedProposals (system id).worker.log) :
    Nonempty (Committed (votingRecord network system) grandpa.view.toNat grandpa.digest) ∧
      Grounded (votingRecord network system) grandpa.digest := by
  obtain ⟨proposal, parent, block, member⟩ := mem_finalizedProposals.mp finalized
  obtain ⟨first, second, third, parentLink, grandpaLink, consecutive, _⟩ :=
    (run.evident honest).mem member
  obtain ⟨_, parentCertified, _⟩ :=
    run.certified_parent honest first ⟨id, honest, second⟩ parentLink
  obtain ⟨carried, certified, grounded⟩ :=
    run.certified_parent honest second ⟨id, honest, third⟩ grandpaLink
  obtain ⟨voter, seen, voted, vote, voting, logged, known, digest, _, _⟩ :=
    run.seen_of_certified parentCertified
  have carries : (votingRecord network system).Carries parent.digest voted.qc.view.toNat :=
    ⟨voter, seen, voted, vote, voting, logged, digest, rfl⟩
  rw [← run.carries_eq ⟨id, honest, second⟩ carries, carried] at carries
  rw [ViewNumber.next?_eq_some.mp consecutive] at parentCertified
  obtain ⟨_, _, _, _, _, _, _, _, _, positive⟩ := run.seen_of_certified certified
  exact ⟨⟨{
    child := parent.digest
    positive := positive
    parent := ⟨id, parent, honest, second, grandpaLink.symm, rfl⟩
    carried := carries
    certified := certified
    childCertified := parentCertified }⟩, grounded⟩

end HonestRun

/-- Ancestors through `qc.proposal_hash`, by digest. -/
def Ancestor (network : Network B) (system : System B C) : Hash B → Hash B → Prop :=
  Relation.ReflTransGen (ParentOf network system)

/-- In every run in which replicas only vote under the lock, in whatever order
messages arrive or get lost and timers fire, any two proposals that any two
replicas finalize lie on one chain. -/
theorem agreement_under_lock {network : Network B} {system : System B C}
    (few : 3 * network.faulty.card < network.authorities.length)
    (reachable : network.Reachable network.Gossiped Replica.KeepsLock system)
    (collisionFree : network.CollisionFree system)
    (real : ∀ bytes ∈ network.preimages system, hashOf (B := B) bytes ≠ BlockT.defaultHash)
    {first second : AuthorityId B} (honest : network.Honest first)
    (honestToo : network.Honest second) {proposal other : Proposal B}
    (finalized : proposal ∈ finalizedProposals (system first).worker.log)
    (finalizedToo : other ∈ finalizedProposals (system second).worker.log) :
    Ancestor network system proposal.digest other.digest ∨
      Ancestor network system other.digest proposal.digest := by
  have run : HonestRun network Replica.KeepsLock system := ⟨few, reachable, collisionFree, real⟩
  obtain ⟨⟨commit⟩, grounded⟩ := run.committed honest finalized
  obtain ⟨⟨commitToo⟩, groundedToo⟩ := run.committed honestToo finalizedToo
  exact commit.agree run.lawful commitToo grounded groundedToo

/-- A check of `KeepsLock` that does not look at signatures or views. -/
def Replica.carriesMore (replica : Replica B C) : Bool :=
  match replica.control with
  | .running (.proposal proposal) =>
    (votedProposals replica.worker.log).all fun earlier => earlier.qc.view ≤ proposal.qc.view
  | _ => true

theorem Replica.keepsLock_of_carriesMore (replica : Replica B C)
    (more : replica.carriesMore = true) : replica.KeepsLock := by
  rintro call proposal running ⟨rfl, _⟩ earlier member
  simp only [Replica.carriesMore, running, List.all_eq_true] at more
  exact of_decide_eq_true (more earlier member)

namespace Sample

/-- Block 8 is pending at replica 2 and block 9 at the others. -/
def pending (id : Fin 8) : BitVec 64 := if id = 2 then 8 else 9

/-- All four replicas give up views 0 and 1. Replica 2 proposes block 8 in view
2 and is voted for; replica 1 hears only of timeouts and gives up view 2 too.
The proposals of views 3 and 4 follow, and replica 0 finalizes block 8. -/
def finalizing : List (AuthorityId Sample × Input Sample) :=
  [fire 0, fire 1, fire 2, fire 3, fire 0, fire 1, fire 2, fire 3,
    receive 0 1 1, receive 0 2 1, receive 1 0 1, receive 1 2 1, receive 2 0 1, receive 2 1 1,
    receive 3 0 1, receive 3 1 1, receive 3 2 3, receive 0 2 3, fire 0, fire 1, fire 2,
    receive 1 0 4, receive 1 2 5, receive 3 2 4, receive 3 0 3, receive 2 3 3, receive 0 3 3,
    receive 0 3 4, receive 0 2 6]

/-- Replicas 1, 2 and 3 give up views 3 and 4. Replica 1, which leads view 5 and
has no QC but the default one, proposes block 9 on it. Replicas 2 and 3 vote for
it, the proposals of views 6 and 7 follow, and replica 3 finalizes block 9. -/
def forking : List (AuthorityId Sample × Input Sample) :=
  finalizing ++
    [fire 1, fire 2, fire 3, receive 1 2 7, receive 1 3 5, receive 2 1 5, receive 2 3 5,
      receive 3 1 5, receive 3 2 7, fire 1, fire 2, fire 3, receive 2 1 7, receive 2 3 7,
      receive 3 1 7, receive 3 2 9, receive 1 2 9, receive 1 3 7, receive 2 1 9, receive 3 1 9,
      receive 2 1 10, receive 2 3 9, receive 1 2 11, receive 3 2 11, receive 3 1 11,
      receive 3 2 12]

def finalizedCluster : Cluster Sample Sample.Client :=
  (cluster 4 pending).execute 20 finalizing

def forkedCluster : Cluster Sample Sample.Client := (cluster 4 pending).execute 20 forking

def finalized : System Sample Sample.Client := finalizedCluster.system (node 4 pending)

def forked : System Sample Sample.Client := forkedCluster.system (node 4 pending)

theorem finalized_reachable : (network 4 ∅).Reachable (network 4 ∅).Gossiped Replica.KeepsLock
    finalized :=
  .execute Network.gossiped_delivers Replica.carriesMore Replica.keepsLock_of_carriesMore 20 _ _
    (cluster_reachable 4 ∅ _ _ _) (by decide +kernel)

theorem forked_reachable :
    (network 4 ∅).Reachable (network 4 ∅).Gossiped (fun _ => True) forked :=
  .execute Network.gossiped_delivers (fun _ => true) (fun _ _ => trivial) 20 _ _
    (cluster_reachable 4 ∅ _ _ _) (by decide +kernel)

end Sample

/-- Four replicas keep the lock up to the first finalization, and all that is
finalized lies on one chain with it. -/
theorem agreement_under_lock_four :
    ∃ proposal ∈ finalizedProposals (Sample.finalized (0 : Fin 8)).worker.log,
      proposal.payload.blockHash = (8 : BitVec 64) ∧
      ∀ id, (Sample.network 4 ∅).Honest id →
        ∀ other ∈ finalizedProposals (Sample.finalized id).worker.log,
          Ancestor (Sample.network 4 ∅) Sample.finalized proposal.digest other.digest ∨
          Ancestor (Sample.network 4 ∅) Sample.finalized other.digest proposal.digest := by
  have checked : Sample.finalizedCluster.covers (Sample.network 4 ∅) = true ∧
      Sample.finalizedCluster.hashesReal = true ∧ Sample.finalizedCluster.hashesApart = true := by
    decide +kernel
  obtain ⟨covered, away, distinct⟩ := checked
  have found : ∃ proposal ∈ finalizedProposals (Sample.finalized (0 : Fin 8)).worker.log,
      proposal.payload.blockHash = (8 : BitVec 64) := by decide +kernel
  obtain ⟨proposal, member, block⟩ := found
  refine ⟨proposal, member, block, fun id honest other memberToo => ?_⟩
  exact agreement_under_lock (by decide) Sample.finalized_reachable
    (Cluster.collisionFree covered distinct _) (Cluster.real covered away _) (by decide)
    honest member memberToo

omit [ClientForHotstuff B C] in
/-- A proposal on the default QC has no ancestor but itself and the default hash. -/
theorem Ancestor.genesis {network : Network B} {system : System B C} {hash earlier : Hash B}
    (root : ∀ parent, ParentOf network system parent hash → parent = BlockT.defaultHash)
    (top : ∀ parent, ¬ ParentOf network system parent BlockT.defaultHash)
    (ancestor : Ancestor network system earlier hash) :
    earlier = hash ∨ earlier = BlockT.defaultHash := by
  cases ancestor with
  | refl => exact .inl rfl
  | tail above last =>
    rw [root _ last] at above
    cases above with
    | refl => exact .inr rfl
    | tail _ beyond => exact absurd beyond (top _)

/-- The proposals that the replicas of a cluster have verified. -/
def Cluster.verifiedProposals (cluster : Cluster B C) : List (Proposal B) :=
  cluster.flatMap fun entry => entry.2.worker.log.filterMap Event.verifiedProposal?

omit [ClientForHotstuff B C] in
theorem Cluster.parentOf {network : Network B} {cluster : Cluster B C}
    (covered : cluster.covers network = true) {rest : System B C} {parent child : Hash B}
    (linked : ParentOf network (cluster.system rest) parent child) :
    ∃ proposal ∈ cluster.verifiedProposals,
      proposal.qc.proposalHash = parent ∧ proposal.digest = child := by
  obtain ⟨id, proposal, honest, verified, hash, digest⟩ := linked
  exact ⟨proposal, List.mem_flatMap.mpr ⟨_, mem_of_honest covered rest honest,
    List.mem_filterMap.mpr ⟨_, verified, rfl⟩⟩, hash, digest⟩

omit [ClientForHotstuff B C] in
/-- A proposal that all replicas of a cluster know on the default QC only has no
ancestor among the other proposals. -/
theorem Cluster.not_ancestor {network : Network B} {cluster : Cluster B C}
    (covered : cluster.covers network = true) (away : cluster.hashesReal = true)
    (rest : System B C) {hash earlier : Hash B} (different : earlier ≠ hash)
    (proper : earlier ≠ BlockT.defaultHash)
    (genesis : ∀ seen ∈ cluster.verifiedProposals, seen.digest = hash →
      seen.qc.proposalHash = BlockT.defaultHash) :
    ¬ Ancestor network (cluster.system rest) earlier hash := by
  intro ancestor
  refine (ancestor.genesis ?_ ?_).elim different proper
  · intro parent linked
    obtain ⟨seen, listed, rfl, digest⟩ := Cluster.parentOf covered linked
    exact genesis seen listed digest
  · rintro parent ⟨id, seen, honest, verified, _, digest⟩
    exact Cluster.real covered away rest _
      ⟨id, honest, _, verified, by simp [Event.preimages]⟩ digest

/-- Four replicas that all run the code finalize block 8 and block 9, on two
proposals of which neither is an ancestor of the other. -/
theorem agreement_violated :
    ∃ system : System Sample Sample.Client,
      (Sample.network 4 ∅).Reachable (Sample.network 4 ∅).Gossiped (fun _ => True) system ∧
      (Sample.network 4 ∅).CollisionFree system ∧
      (∀ bytes ∈ (Sample.network 4 ∅).preimages system,
        hashOf (B := Sample) bytes ≠ BlockT.defaultHash) ∧
      ∃ proposal ∈ finalizedProposals (system (0 : Fin 8)).worker.log,
      ∃ other ∈ finalizedProposals (system (3 : Fin 8)).worker.log,
        ¬ Ancestor (Sample.network 4 ∅) system proposal.digest other.digest ∧
        ¬ Ancestor (Sample.network 4 ∅) system other.digest proposal.digest := by
  have checked : Sample.forkedCluster.covers (Sample.network 4 ∅) = true ∧
      Sample.forkedCluster.hashesReal = true ∧ Sample.forkedCluster.hashesApart = true := by
    decide +kernel
  obtain ⟨covered, away, distinct⟩ := checked
  refine ⟨Sample.forked, Sample.forked_reachable,
    Cluster.collisionFree covered distinct _, Cluster.real covered away _, ?_⟩
  have found : ∃ proposal ∈ finalizedProposals (Sample.forked (0 : Fin 8)).worker.log,
      ∃ other ∈ finalizedProposals (Sample.forked (3 : Fin 8)).worker.log,
        proposal.digest ≠ other.digest ∧
        ∀ digest ∈ [proposal.digest, other.digest], digest ≠ BlockT.defaultHash ∧
          ∀ seen ∈ Sample.forkedCluster.verifiedProposals, seen.digest = digest →
            seen.qc.proposalHash = BlockT.defaultHash := by
    decide +kernel
  obtain ⟨proposal, member, other, memberToo, apart, genesis⟩ := found
  have first := genesis proposal.digest (by simp)
  have second := genesis other.digest (by simp)
  exact ⟨proposal, member, other, memberToo,
    Cluster.not_ancestor covered away _ apart first.1 second.2,
    Cluster.not_ancestor covered away _ apart.symm second.1 first.2⟩

end Hotstuff
