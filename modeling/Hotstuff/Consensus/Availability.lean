import Hotstuff.Consensus.Byzantine

/-! Which blocks are finalized: only those that clients had. A replica looks up the
block of a proposal before anything else, so a vote shows that the block was in the
chain of the voter's own node. -/

namespace Hotstuff

open ConsensusWorker

variable {B C : Type} [BlockT B] [ClientForHotstuff B C]

/-- A run of the network with the states it went through. -/
inductive Network.History (network : Network B)
    (allowed : System B C → ConsensusMessage B → Prop) (guard : Replica B C → Prop) :
    List (System B C) → System B C → Prop where
  | start {system : System B C} (initial : ∀ id, network.Honest id →
      Replica.Initial (network.keystore id) network.authorities (system id)) :
      History network allowed guard [] system
  | step {past : List (System B C)} {system : System B C} {id : AuthorityId B}
      {next : Replica B C} (before : History network allowed guard past system)
      (honest : network.Honest id) (holds : guard (system id))
      (move : Replica.Step (allowed system) (system id) next) :
      History network allowed guard (past ++ [system]) (Function.update system id next)

section Histories

variable {network : Network B} {allowed : System B C → ConsensusMessage B → Prop}
  {guard : Replica B C → Prop} {past : List (System B C)} {system : System B C}
  {id : AuthorityId B}

theorem Network.History.reachable (history : network.History allowed guard past system) :
    network.Reachable allowed guard system := by
  induction history with
  | start initial => exact .start initial
  | step _ honest holds move ih => exact .step ih honest holds move

theorem Network.Reachable.history (reachable : network.Reachable allowed guard system) :
    ∃ past, network.History allowed guard past system := by
  induction reachable with
  | start initial => exact ⟨[], .start initial⟩
  | step _ honest holds move ih =>
    obtain ⟨past, history⟩ := ih
    exact ⟨_, .step history honest holds move⟩

/-- Only the proposals in `known` are voted for. -/
def Policy.voting (known : Proposal B → Prop) : Policy B :=
  { Policy.any with vote := fun _ proposal => known proposal }

theorem Act.voted_known {known : Proposal B → Prop} {worker next : ConsensusWorker B C}
    (act : Act (Policy.voting known) worker next)
    (voted : ∀ proposal ∈ votedProposals worker.log, known proposal) :
    ∀ proposal ∈ votedProposals next.log, known proposal := by
  cases act with
  | calm calm =>
    rw [calm.votedProposals]
    exact voted
  | vote proposal vote marked _ _ admitted _ =>
    intro other member
    have split : other ∈ votedProposals worker.log ∨ other = proposal := by
      simpa [votedProposals, Event.votedProposal?] using member
    rcases split with old | rfl
    · exact voted other old
    · exact admitted
  | propose payload tc proposal _ _ =>
    intro other member
    apply voted
    simpa [votedProposals, Event.votedProposal?] using member

/-- A step votes for the proposal that is handled alone, with its block at hand. -/
theorem Replica.Step.voted_known {known : Proposal B → Prop} {replica next : Replica B C}
    (step : Replica.Step (fun _ => True) replica next)
    (voted : ∀ proposal ∈ votedProposals replica.worker.log, known proposal)
    (taken : ∀ proposal, replica.control = .running (.proposal proposal) →
      HasPayload replica.worker proposal → known proposal) :
    ∀ proposal ∈ votedProposals next.worker.log, known proposal := by
  have meets : Replica.Meets (Policy.voting known) replica := by
    intro call running
    refine ⟨fun _ _ => trivial, fun proposal votes => ?_, fun _ _ => trivial⟩
    obtain ⟨rfl, ⟨found, _⟩, _⟩ := votes
    exact taken proposal running found
  have proper : Replica.Proper (Policy.voting known) replica := Replica.proper_any replica
  have acts := (Replica.Step.acts step proper meets).1
  exact Command.keep_along (fun worker => ∀ proposal ∈ votedProposals worker.log, known proposal)
    acts (fun _ _ act => act.voted_known) voted

/-- In the course of a run an authority has handled a proposal while the block of the
proposal was in the chain of its own client. -/
def HadBlock (past : List (System B C)) (id : AuthorityId B) (proposal : Proposal B) : Prop :=
  ∃ earlier ∈ past, (earlier id).control = .running (.proposal proposal) ∧
    ClientForHotstuff.status (earlier id).worker.client proposal.payload.blockHash = .ok .inChain

theorem Network.History.informed (history : network.History allowed guard past system)
    (honest : network.Honest id) : ∀ proposal ∈ votedProposals (system id).worker.log,
      proposal.payload.blockHash = emptyPayloadHash ∨ HadBlock past id proposal := by
  induction history with
  | start initial =>
    obtain ⟨client, queue, _, same⟩ := (initial id honest).worker
    intro proposal member
    rw [same] at member
    cases member
  | @step past system moving next _ _ _ move ih =>
    have earlier (proposal : Proposal B) (had : HadBlock past id proposal) :
        HadBlock (past ++ [system]) id proposal := by
      obtain ⟨state, member, rest⟩ := had
      exact ⟨state, List.mem_append_left _ member, rest⟩
    by_cases same : id = moving
    · subst moving
      rw [Function.update_self]
      refine Replica.Step.voted_known (move.mono fun _ _ => trivial) ?_ ?_
      · exact fun proposal member => (ih proposal member).imp_right (earlier proposal)
      · intro proposal running found
        exact found.imp_right fun inChain =>
          ⟨system, List.mem_append_right _ List.mem_cons_self, running, inChain⟩
    · rw [Function.update_of_ne same]
      exact fun proposal member => (ih proposal member).imp_right (earlier proposal)

end Histories

variable {network : Network B} {guard : Replica B C → Prop} {past : List (System B C)}
  {system : System B C} {id : AuthorityId B}

/-- Only available blocks are finalized. With fewer than a third of the authorities
faulty, and no QC completed by keys of outsiders: for every block that an honest
replica hands to `finalize_block` there is a quorum of authorities whose honest
members have voted for the proposal with the block, each after its own client has
reported the block as being in its chain. -/
theorem finalized_available (few : 3 * network.faulty.card < network.authorities.length)
    (history : network.History network.Inside guard past system)
    (apart : Set.InjOn (hashOf (B := B)) (network.digested system))
    (real : ∀ bytes ∈ network.preimages system, hashOf (B := B) bytes ≠ BlockT.defaultHash)
    (honest : network.Honest id) {child parent proposal : Proposal B} {block : Hash B}
    (finalized : Event.finalized child parent proposal block ∈ (system id).worker.log) :
    ∃ voters, Quorum network.authorities.ids voters ∧ ∀ voter ∈ voters, network.Honest voter →
      ∃ voted ∈ votedProposals (system voter).worker.log, voted.digest = proposal.digest ∧
        voted.payload.blockHash = block ∧ HadBlock past voter voted := by
  have run : InsideRun network guard system := ⟨few, history.reachable, apart, real⟩
  obtain ⟨_, _, verified, _, _, _, rfl, block⟩ := (run.evident honest).mem finalized
  obtain ⟨⟨commit⟩, _⟩ :=
    run.committed honest (mem_finalizedProposals.mpr ⟨child, parent, _, finalized⟩)
  obtain ⟨view, voters, _, quorum, cast⟩ := commit.certified
  have seen : Seen network system proposal := ⟨id, honest, verified⟩
  refine ⟨voters, quorum, ?_⟩
  intro voter listed correct
  obtain ⟨_, voted, vote, logged, _, hash⟩ := cast voter listed correct
  obtain ⟨seenToo, digest, _⟩ := run.seen_of_voted correct logged
  -- The vote is for a proposal with the same digest, and so with the same block.
  have same := digest.symm.trans hash
  have bytes := apart (network.preimages_subset system seenToo.preimage)
    (network.preimages_subset system seen.preimage) same
  have payload := (Proposal.preimage_inj bytes).2.1
  have member : voted ∈ votedProposals (system voter).worker.log :=
    List.mem_filterMap.mpr ⟨_, logged, rfl⟩
  refine ⟨voted, member, same, congrArg _ payload, ?_⟩
  apply (history.informed correct voted member).resolve_left
  rw [payload]
  exact block

/-- Replica 0 asks for block 77, which its client does not have, and finalizes block
8, which the clients of all honest voters had. -/
theorem finalized_available_eight :
    Event.syncRequest (77 : BitVec 64) 77 ∈ (Sample.outvoted (0 : Fin 8)).worker.log ∧
    ∃ past, (Sample.network 4 {1}).History (Sample.network 4 {1}).Inside Replica.KeepsLock past
      Sample.outvoted ∧
    ∃ voters, Quorum (Sample.authorities 4).ids voters ∧
      ∀ voter ∈ voters, (Sample.network 4 {1}).Honest voter →
        ∃ voted ∈ votedProposals (Sample.outvoted voter).worker.log,
          voted.payload.blockHash = (8 : BitVec 64) ∧ HadBlock past voter voted := by
  have checked : Sample.outvotedCluster.covers (Sample.network 4 {1}) = true ∧
      Sample.outvotedCluster.hashesReal = true ∧
      hashesDiffer (B := Sample) Sample.outvotedCluster.digested = true := by
    decide +kernel
  have found : ∃ proposal ∈ finalizedProposals (Sample.outvoted (0 : Fin 8)).worker.log,
      proposal.payload.blockHash = (8 : BitVec 64) := by decide +kernel
  obtain ⟨covered, away, differ⟩ := checked
  obtain ⟨proposal, member, eight⟩ := found
  obtain ⟨child, parent, block, finalized⟩ := mem_finalizedProposals.mp member
  obtain ⟨past, history⟩ := Sample.outvoted_reachable.history
  have same : block = proposal.payload.blockHash := by
    obtain ⟨_, _, _, _, _, _, same, _⟩ :=
      (Sample.outvoted_reachable.evident Network.inside_persistent (by decide)).mem finalized
    exact same
  obtain ⟨voters, quorum, available⟩ := finalized_available (by decide) history
    ((injOn_of_hashesDiffer differ).mono (Cluster.digested_subset covered _))
    (Cluster.real covered away _) (by decide) finalized
  refine ⟨by decide +kernel, past, history, voters, quorum, fun voter listed honest => ?_⟩
  obtain ⟨voted, cast, _, carried, had⟩ := available voter listed honest
  exact ⟨voted, cast, carried.trans (same.trans eight), had⟩

end Hotstuff
