import Hotstuff.Consensus.Node

/-! The block that is being processed, and the blocks voted for. A proposal
names its block by hash and number, and the number is taken on trust. -/

namespace Hotstuff

open ConsensusWorker

variable {B C : Type} [BlockT B] [ClientForHotstuff B C] [KnownBlocks B C]

/-- The payload gives a block that the client knows its own number. -/
def RightNumber (client : C) (payload : Payload B) : Prop :=
  payload.blockHash ≠ emptyPayloadHash →
    ∀ number, KnownBlocks.number client payload.blockHash = some number →
      number = payload.blockNumber

/-- The block that is being processed is a known block with its own number, and
so is the block of every proposal voted for, empty payloads apart. -/
structure ProcessesReal (worker : ConsensusWorker B C) : Prop where
  processing : ∀ block hash, worker.processingBlock = some block → block.hash = some hash →
    hash ≠ emptyPayloadHash → KnownBlocks.number worker.client hash = some block.number
  voted : ∀ proposal ∈ votedProposals worker.log,
    proposal.payload.blockHash ≠ emptyPayloadHash →
    KnownBlocks.number worker.client proposal.payload.blockHash =
      some proposal.payload.blockNumber

theorem RightNumber.known {worker : ConsensusWorker B C} {proposal : Proposal B}
    (right : RightNumber worker.client proposal.payload) (present : HasPayload worker proposal)
    (real : proposal.payload.blockHash ≠ emptyPayloadHash) :
    KnownBlocks.number worker.client proposal.payload.blockHash =
      some proposal.payload.blockNumber := by
  obtain ⟨number, found⟩ := KnownBlocks.number_inChain _ _ (present.resolve_left real)
  rw [found, right real number found]

theorem ProcessesReal.mono {worker next : ConsensusWorker B C} (real : ProcessesReal worker)
    (grows : Grows B worker.client next.client)
    (processing : next.processingBlock = worker.processingBlock)
    (voted : votedProposals next.log = votedProposals worker.log) : ProcessesReal next where
  processing block hash found named nonempty :=
    grows _ _ (real.processing block hash (processing ▸ found) named nonempty)
  voted proposal member nonempty := grows _ _ (real.voted proposal (voted ▸ member) nonempty)

theorem ProcessesReal.aside {worker next : ConsensusWorker B C} (real : ProcessesReal worker)
    (aside : Aside worker next) : ProcessesReal next :=
  real.mono aside.sameSupply.grows aside.processingBlock aside.log.voted

/-- A block that is picked comes from the queue. -/
theorem ProcessesReal.offers {worker next : ConsensusWorker B C} {payload : Option (Payload B)}
    (real : ProcessesReal worker) (offers : Offers worker payload next)
    (queued : ∀ queue, worker.pendingFinalizeQueue = some queue →
      ∀ block ∈ queue, block.Known worker.client) : ProcessesReal next := by
  have picks (picked : BlockInfo B) (known : picked.Known worker.client) :
      ProcessesReal { worker with processingBlock := some picked } := by
    refine ⟨fun block hash found named _ => ?_, real.voted⟩
    cases found
    obtain ⟨own, same, _, number⟩ := known
    cases same.symm.trans named
    exact number
  cases offers with
  | found queue block found present _ _ member _ =>
    exact picks found (queued queue present found member)
  | front queue front present _ first =>
    exact picks front (queued queue present front (List.mem_of_head? first))
  | _ => exact real

theorem ProcessesReal.commits {worker next : ConsensusWorker B C} {proposal : Proposal B}
    (real : ProcessesReal worker) (commits : Commits (worker.saving proposal) proposal next) :
    ProcessesReal next := by
  refine real.mono ((saving_sameSupply worker proposal).trans commits.sameSupply).grows ?_
    commits.log.voted
  cases commits <;> rfl

theorem ProcessesReal.voting {worker : ConsensusWorker B C} {proposal : Proposal B}
    (real : ProcessesReal worker) (vote : Vote B) (marked : ConsensusState B)
    (right : proposal.payload.blockHash ≠ emptyPayloadHash →
      KnownBlocks.number worker.client proposal.payload.blockHash =
        some proposal.payload.blockNumber) :
    ProcessesReal (worker.voting proposal vote marked) := by
  refine ⟨fun block hash found named nonempty => ?_, fun other member nonempty => ?_⟩
  · cases found
    cases named
    exact right nonempty
  · have split : votedProposals (worker.voting proposal vote marked).log =
        votedProposals worker.log ++ [proposal] := by
      simp [votedProposals, Event.votedProposal?, ConsensusWorker.voting]
    rcases List.mem_append.mp (split ▸ member) with old | added
    · exact real.voted other old nonempty
    · cases List.mem_singleton.mp added
      exact right nonempty

/-- One call keeps this, if the queue holds known blocks and a proposal that is
accepted has the right number. -/
theorem ProcessesReal.call {worker next : ConsensusWorker B C} {call : Call B}
    (real : ProcessesReal worker) (side : PayloadSide worker call next)
    (queued : ∀ queue, worker.pendingFinalizeQueue = some queue →
      ∀ block ∈ queue, block.Known worker.client)
    (right : ∀ proposal, call = .proposal proposal → Accepts worker call proposal.qc →
      RightNumber worker.client proposal.payload) : ProcessesReal next := by
  have chooses {settled chosen : ConsensusWorker B C} {payload : Option (Payload B)}
      (before : Aside worker settled) (offers : Offers settled payload chosen) :
      ProcessesReal chosen := by
    refine (real.aside before).offers offers fun queue present block member => ?_
    rw [before.pendingFinalizeQueue] at present
    exact (queued queue present block member).mono before.sameSupply.grows
  cases side with
  | aside aside => exact real.aside aside
  | cleared aside =>
    have clears : ProcessesReal { worker with processingBlock := none } :=
      ⟨fun _ _ found => (nomatch found), real.voted⟩
    exact clears.aside aside
  | looked settled _ before offers _ => exact chooses before offers
  | unmade settled chosen hashes before offers _ =>
    have holds := chooses before offers
    exact ⟨holds.processing, holds.voted⟩
  | proposed settled chosen hashes before offers proposal =>
    refine (chooses before offers).mono (fun _ _ found => found) rfl ?_
    simp [votedProposals, Event.votedProposal?, proposing]
  | stored proposal settled _ before =>
    exact (real.aside before).mono (saving_sameSupply settled proposal).grows rfl rfl
  | finished proposal settled committed _ before commits behind =>
    exact ((real.aside before).commits commits).aside behind
  | voted proposal settled committed vote marked called accepts before _ commits behind =>
    have numbered := right proposal called accepts
    subst called
    have same := (before.sameSupply.trans (saving_sameSupply settled proposal)).trans
      commits.sameSupply
    refine (((real.aside before).commits commits).voting vote marked
      fun nonempty => ?_).aside behind
    exact same.grows _ _ (numbered.known accepts.1 nonempty)

namespace Node

/-- A proposal that is about to be handled, and passes its checks, has the right
number. -/
def NumbersRight (node : Node B C) : Prop :=
  ∀ proposal, node.replica.control = .running (.proposal proposal) →
    Accepts node.replica.worker (.proposal proposal) proposal.qc →
    RightNumber node.replica.worker.client proposal.payload

theorem processesReal_works {node : Node B C} {next : Replica B C} (known : QueueKnown node)
    (right : node.NumbersRight) (real : ProcessesReal node.replica.worker)
    (works : Replica.Works node.replica next) : ProcessesReal next.worker := by
  rcases works.2 with same | ⟨call, running, rfl⟩
  · rwa [same]
  · refine real.call (handle_payloadSide call node.replica.worker) known.queue ?_
    rintro proposal rfl accepts
    exact right proposal running accepts

variable [HeaderBackend B C]

theorem Reachable.processesReal {keystore : Keystore B} {authorities : AuthorityList B}
    {node : Node B C} (reachable : Reachable NumbersRight keystore authorities node) :
    ProcessesReal node.replica.worker := by
  induction reachable with
  | start initial =>
    obtain ⟨client, pending, _, made, same⟩ := initial.replica
    obtain ⟨rfl, _⟩ := PendingFinalizeBlockQueue.new_ok made
    rw [same]
    exact ⟨fun _ _ found => (nomatch found), fun _ member => (nomatch member)⟩
  | step before right move ih =>
    cases move with
    | work works => exact processesReal_works before.queueKnown right ih works
    | chain client imports finals kept grows known => exact ih.mono grows rfl rfl
    | poll ready imports finals importsRead finalsRead polled =>
      exact ih.mono (fun _ _ found => found) rfl rfl

end Node

variable [HeaderBackend B C]

/-- In every run of a node in which a proposal that passes its checks gives a known
block its own number: the block that is being processed is known under its
number, and so is the block of every proposal voted for. -/
theorem processing_block_real {keystore : Keystore B} {authorities : AuthorityList B}
    {node : Node B C}
    (reachable : Node.Reachable Node.NumbersRight keystore authorities node) :
    (∀ block hash, node.replica.worker.processingBlock = some block → block.hash = some hash →
      hash ≠ emptyPayloadHash →
      KnownBlocks.number node.replica.worker.client hash = some block.number) ∧
    ∀ view proposal vote, Event.voted view proposal vote ∈ node.replica.worker.log →
      proposal.payload.blockHash ≠ emptyPayloadHash →
      KnownBlocks.number node.replica.worker.client proposal.payload.blockHash =
        some proposal.payload.blockNumber := by
  have real := reachable.processesReal
  refine ⟨real.processing, fun view proposal vote member => real.voted proposal ?_⟩
  exact List.mem_filterMap.mpr ⟨_, member, rfl⟩

/-- A proposal of view 1 by its leader for block 9, with the number it is given. -/
def Sample.numbered (number : Number Sample) : Proposal Sample :=
  let unsigned : Proposal Sample :=
    ⟨Sample.qc (7 : BitVec 64) 0 [1, 2, 3], none, ⟨(9 : BitVec 64), number⟩, 1, (1 : Fin 8), none⟩
  { unsigned with signature := some (Sample.sign 1 unsigned.digest) }

/-- A fresh node of four authorities that has received such a proposal. -/
def Sample.received (number : Number Sample) : Node Sample Sample.Client :=
  { Sample.newNode 4 0 with replica :=
    { (Sample.newNode 4 0).replica with
      control := .running (.proposal (Sample.numbered number)) } }

def Sample.handled (number : Number Sample) : Node Sample Sample.Client :=
  { Sample.received number with
    replica := (Sample.received number).replica.resume (.proposal (Sample.numbered number)) }

theorem Sample.handled_reachable {guard : Node Sample Sample.Client → Prop}
    (number : Number Sample) (idle : guard (Sample.newNode 4 0))
    (received : guard (Sample.received number)) :
    Node.Reachable guard (Sample.keystore 0) (Sample.authorities 4) (Sample.handled number) :=
  .step (.step (.start (Sample.newNode_initial 4 0)) idle (.work ⟨.input rfl rfl, .inl rfl⟩))
    received (.work ⟨.resume rfl, .inr ⟨_, rfl, rfl⟩⟩)

/-- The block has number 9, as the leader says. -/
theorem processing_block_real_nine :
    (Sample.handled 9).replica.worker.processingBlock = some ⟨some (9 : BitVec 64), 9⟩ ∧
      KnownBlocks.number (B := Sample) (Sample.handled 9).replica.worker.client (9 : BitVec 64) =
        some 9 := by
  have processing : (Sample.handled 9).replica.worker.processingBlock =
      some ⟨some (9 : BitVec 64), 9⟩ := by decide +kernel
  have reachable : Node.Reachable Node.NumbersRight (Sample.keystore 0) (Sample.authorities 4)
      (Sample.handled 9) := by
    refine Sample.handled_reachable 9 (fun _ running => (nomatch running)) ?_
    intro proposal running _ _ number found
    cases running
    cases found
    rfl
  have real : (Sample.numbered 9).payload.blockHash ≠ emptyPayloadHash := by decide +kernel
  exact ⟨processing, (processing_block_real reachable).1 _ _ processing rfl real⟩

/-- The leader of view 1 gives block 9 the number 77; the replica votes for the
proposal and processes a block that does not exist. -/
theorem processing_block_unreal :
    Node.Run (Sample.keystore 0) (Sample.authorities 4) (Sample.handled 77) ∧
      (Sample.handled 77).replica.worker.processingBlock = some ⟨some (9 : BitVec 64), 77⟩ ∧
      Sample.numbered 77 ∈ votedProposals (Sample.handled 77).replica.worker.log ∧
      KnownBlocks.number (B := Sample) (Sample.handled 77).replica.worker.client (9 : BitVec 64) =
        some 9 := by
  refine ⟨Sample.handled_reachable 77 trivial trivial, ?_, ?_, rfl⟩
  · decide +kernel
  · decide +kernel

end Hotstuff
