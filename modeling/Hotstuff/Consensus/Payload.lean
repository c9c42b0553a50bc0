import Hotstuff.Consensus.Node

/-! What a leader proposes. `get_proposal_payload` picks a block or the empty
payload, and `handle_vote` withholds a third empty one. -/

namespace Hotstuff

open Command ConsensusWorker

variable {B C : Type} [BlockT B] [ClientForHotstuff B C]

theorem offers_of_getProposalPayload {worker next : ConsensusWorker B C}
    {payload : Option (Payload B)} (ran : getProposalPayload worker = (.ok payload, next)) :
    Offers worker payload next := by
  obtain ⟨_, _, same, offers⟩ := getProposalPayload_offers worker
  cases same.symm.trans ran
  exact offers

def FreshPayload (worker : ConsensusWorker B C) (payload : Payload B) : Prop :=
  ∃ queue, worker.pendingFinalizeQueue = some queue ∧
    (⟨some payload.blockHash, payload.blockNumber⟩ : BlockInfo B) ∈ queue ∧
    finalizedNumber worker < payload.blockNumber

theorem BlockInfo.eq_of_getD {block : BlockInfo B}
    (real : block.hash.getD emptyPayloadHash ≠ emptyPayloadHash) :
    (⟨some (block.hash.getD emptyPayloadHash), block.number⟩ : BlockInfo B) = block := by
  obtain ⟨hash, number⟩ := block
  cases hash with
  | none => exact absurd rfl real
  | some hash => rfl

/-- A block is proposed that is queued and not finalized yet, or no block is
being processed and the front of the queue is proposed unchecked. -/
theorem offers_fresh {worker next : ConsensusWorker B C} {payload : Payload B}
    (offers : Offers worker (some payload) next) (real : payload.blockHash ≠ emptyPayloadHash)
    (ahead : worker.processingBlock = none → ∀ queue front,
      worker.pendingFinalizeQueue = some queue → queue.head? = some front →
      finalizedNumber worker < front.number) :
    FreshPayload worker payload := by
  cases offers with
  | pending block processing above => exact absurd rfl real
  | idle block processing done => exact absurd rfl real
  | found queue block found present processing done member above =>
    exact ⟨queue, present, by rwa [BlockInfo.eq_of_getD real], above⟩
  | front queue front present processing first =>
    refine ⟨queue, present, ?_, ahead processing queue front present first⟩
    rw [BlockInfo.eq_of_getD real]
    exact List.mem_of_head? first

variable [KnownBlocks B C] [HeaderBackend B C]

/-- In every state of a node, whatever the interleaving with its polls: the
payloads of `get_proposal_payload` are fresh exactly if the front of the queue
is not finalized while no block is being processed. -/
theorem fresh_payload_iff {keystore : Keystore B} {authorities : AuthorityList B}
    {node : Node B C} (run : Node.Run keystore authorities node) :
    (∀ payload next, getProposalPayload node.replica.worker = (.ok (some payload), next) →
      payload.blockHash ≠ emptyPayloadHash → FreshPayload node.replica.worker payload) ↔
    (node.replica.worker.processingBlock = none → ∀ queue front,
      node.replica.worker.pendingFinalizeQueue = some queue → queue.head? = some front →
      finalizedNumber node.replica.worker < front.number) := by
  constructor
  · intro fresh processing queue front present first
    obtain ⟨hash, found, real, _⟩ :=
      run.queueKnown.queue queue present front (List.mem_of_head? first)
    have ran : getProposalPayload node.replica.worker = (.ok (some ⟨hash, front.number⟩),
        { node.replica.worker with processingBlock := some front }) := by
      simp [getProposalPayload, present, processing, first, found]
    obtain ⟨_, _, _, above⟩ := fresh _ _ ran real
    exact above
  · intro ahead payload next ran real
    exact offers_fresh (offers_of_getProposalPayload ran) real ahead

/-- The block a single authority has just heard of is fresh. -/
theorem fresh_payload_first :
    FreshPayload (Sample.told 1 0 30 []).replica.worker ⟨(1 : BitVec 64), 1⟩ := by
  refine (fresh_payload_iff (Sample.told_run 1 0 30 [])).mpr ?_ _ _ rfl (by decide +kernel)
  intro _ queue front present first
  cases present
  cases first
  decide

/-- A single authority after two timers, in the middle of a third one. -/
def Sample.third : Node Sample Sample.Client :=
  let node := Sample.told 1 0 30 [.localTimer, .localTimer]
  { node with replica := node.replica.session 2 [.localTimer] }

/-- The block was finalized meanwhile, the queue has not been polled since, and
the TC of the third timer has cleared the block that is being processed: the
finalized block is proposed once more. -/
theorem stale_payload :
    Node.Run (Sample.keystore 0) (Sample.authorities 1) Sample.third ∧
      (∃ tc, Sample.third.replica.control = .running (.generateProposal tc)) ∧
      (∃ next, getProposalPayload Sample.third.replica.worker =
          (.ok (some ⟨(1 : BitVec 64), 1⟩), next)) ∧
        finalizedNumber Sample.third.replica.worker = 1 := by
  refine ⟨Node.Run.session (Sample.told_run 1 0 30 [.localTimer, .localTimer]) 2 [.localTimer],
    ⟨some ⟨6, [((0 : Fin 8), Sample.sign 0 (hashOf (timeoutPreimage 6 5)), 6)]⟩, ?_⟩,
    ⟨_, Command.apply_eq ?_⟩, ?_⟩
  · decide +kernel
  · decide +kernel
  · decide +kernel

def EndsEmpty (hashes : List (Hash B)) : Prop :=
  ∃ rest, hashes = rest ++ [emptyPayloadHash, emptyPayloadHash]

omit [ClientForHotstuff B C] [KnownBlocks B C] [HeaderBackend B C] in
theorem withheld_real {payload : Hash B} (real : payload ≠ emptyPayloadHash) (count : Nat)
    (hashes : List (Hash B)) : withheld payload count hashes = false := by
  induction hashes generalizing count with
  | nil => rfl
  | cons hash rest ih => simp [withheld, real, ih]

omit [ClientForHotstuff B C] [KnownBlocks B C] [HeaderBackend B C] in
/-- The loop of `handle_vote` withholds an empty payload behind two empty ones. -/
theorem withheld_iff {payload : Hash B} {hashes : List (Hash B)} :
    withheld payload 0 hashes.reverse = true ↔ payload = emptyPayloadHash ∧ EndsEmpty hashes := by
  by_cases empty : payload = emptyPayloadHash
  · have ends : EndsEmpty hashes ↔
        ∃ rest, hashes.reverse = emptyPayloadHash :: emptyPayloadHash :: rest := by
      constructor
      · rintro ⟨rest, rfl⟩
        exact ⟨rest.reverse, by simp⟩
      · rintro ⟨rest, same⟩
        exact ⟨rest.reverse, by rw [← hashes.reverse_reverse, same]; simp⟩
    rw [ends, and_iff_right empty]
    match hashes.reverse with
    | [] => simp [withheld]
    | [last] => simp [withheld]
    | last :: previous :: rest => simp [withheld, empty]
  · simp [withheld_real empty, empty]

/-- A vote that completes a QC for the leader of the view it leads to. -/
def Completes (worker : ConsensusWorker B C) (vote : Vote B) (settled : ConsensusWorker B C) :
    Prop :=
  ∃ qc, Accepts worker (.vote vote) qc ∧
    handleQc qc ((worker.countingVote vote).emit (.aggregatedQc qc)) = (.ok (), settled) ∧
    settled.state.isLeader = some true

/-- The early return of `handle_vote`, in the state it is taken in. -/
def Withholds (worker : ConsensusWorker B C) (vote : Vote B) (next : ConsensusWorker B C) : Prop :=
  ∃ settled payload, Completes worker vote settled ∧
    getProposalPayload settled = (.ok (some payload), next) ∧
    withheld payload.blockHash 0 next.proposalHashQueue.reverse = true

omit [KnownBlocks B C] [HeaderBackend B C] in
theorem Withholds.returns {worker next : ConsensusWorker B C} {vote : Vote B}
    (withholds : Withholds worker vote next) : handleVote vote worker = (.ok none, next) := by
  obtain ⟨settled, payload, ⟨qc, ⟨verified, formed⟩, handled, leads⟩, offered, held⟩ := withholds
  have checked : attempt (worker.state.verifyVote vote) worker = (.ok (), worker) := by
    rw [verified, attempt_ok]
  have counted : addVote vote (worker.emit (.verifiedVote vote)) =
      (.ok (some qc), (worker.countingVote vote).emit (.aggregatedQc qc)) := by
    rw [addVote_apply, formed]
  rw [handleVote, read_bind, bind_ok checked, record_bind, bind_ok counted]
  dsimp only
  rw [handleFormedQc, bind_ok handled, isLeader_bind, leads]
  simp only [↓reduceIte]
  rw [bind_ok offered]
  simp [held]

omit [KnownBlocks B C] [HeaderBackend B C] in
theorem Completes.aside {worker settled : ConsensusWorker B C} {vote : Vote B}
    (completes : Completes worker vote settled) : Aside worker settled := by
  obtain ⟨qc, _, handled, _⟩ := completes
  exact ((countingVote_aside worker vote).trans (.emit _ rfl rfl)).trans
    (HandlesQc.of_ran handled).aside

/-- A withheld proposal finds the block that is being processed finalized, unless
the queue of hashes ended with two empty payloads before: everything in the
pending queue is a block. -/
theorem Withholds.finalized {keystore : Keystore B} {authorities : AuthorityList B}
    {node : Node B C} (run : Node.Run keystore authorities node) {vote : Vote B}
    {next : ConsensusWorker B C} (withholds : Withholds node.replica.worker vote next)
    (done : EndsEmpty node.replica.worker.proposalHashQueue →
      ∀ block, node.replica.worker.processingBlock = some block →
        block.number ≤ finalizedNumber node.replica.worker) :
    ∃ block, next.processingBlock = some block ∧ block.number ≤ finalizedNumber next := by
  obtain ⟨settled, payload, completes, offered, held⟩ := withholds
  have aside := completes.aside
  obtain ⟨empty, ends⟩ := withheld_iff.mp held
  have known (queue : List (BlockInfo B)) (present : settled.pendingFinalizeQueue = some queue)
      (block : BlockInfo B) (member : block ∈ queue) :
      block.hash.getD emptyPayloadHash ≠ emptyPayloadHash :=
    (run.queueKnown.queue queue (aside.pendingFinalizeQueue ▸ present) block member).getD_ne
  cases offers_of_getProposalPayload offered with
  | pending block processing above =>
    rw [aside.proposalHashQueue] at ends
    rw [finalizedNumber, aside.client] at above
    exact absurd (done ends block (aside.processingBlock ▸ processing)) (BitVec.not_le.mpr above)
  | idle block processing done => exact ⟨block, processing, done⟩
  | found queue block found present processing done member above =>
    exact absurd empty (known queue present found member)
  | front queue front present processing first =>
    exact absurd empty (known queue present front (List.mem_of_head? first))

end Hotstuff
