import Mathlib.Data.List.Count
import Hotstuff.Consensus.Payload

/-! The handlers call each other only so often. A block is proposed when the one
before it is finalized, so each block of the pending queue is proposed once, and
one empty proposal at most lies between two blocks. -/

namespace Hotstuff

open ConsensusWorker

variable {B C : Type} [BlockT B]

/-- The block that is being processed and the two queues stay as they are. -/
structure SameBlocks (worker next : ConsensusWorker B C) : Prop where
  processingBlock : next.processingBlock = worker.processingBlock
  pendingFinalizeQueue : next.pendingFinalizeQueue = worker.pendingFinalizeQueue
  proposalHashQueue : next.proposalHashQueue = worker.proposalHashQueue

theorem Aside.sameBlocks {worker next : ConsensusWorker B C} (aside : Aside worker next) :
    SameBlocks worker next :=
  ⟨aside.processingBlock, aside.pendingFinalizeQueue, aside.proposalHashQueue⟩

/-- The payload side of a worker behind its vote for a payload. -/
def afterVote (worker : ConsensusWorker B C) (payload : Payload B) : ConsensusWorker B C :=
  { worker with
    proposalHashQueue := worker.proposalHashQueue ++ [payload.blockHash]
    processingBlock := some ⟨some payload.blockHash, payload.blockNumber⟩ }

def pendingBlocks (worker : ConsensusWorker B C) : List (BlockInfo B) :=
  worker.pendingFinalizeQueue.getD []

variable [ClientForHotstuff B C]

/-- How many blocks of the queue can still be proposed: all of them while no
block is being processed, and those above both that block and the finalized
number otherwise. -/
def blocksLeft (worker : ConsensusWorker B C) : Nat :=
  match worker.processingBlock with
  | none => (pendingBlocks worker).length
  | some block => (pendingBlocks worker).countP fun other =>
      decide (finalizedNumber worker < other.number ∧ block.number < other.number)

/-- How many proposals can still follow a vote: one for each block, and an empty
one for each block and to start with, unless that one would be withheld. -/
def roundsLeft (worker : ConsensusWorker B C) : Nat :=
  2 * blocksLeft worker +
    if withheld (emptyPayloadHash : Hash B) 0 worker.proposalHashQueue.reverse then 0 else 1

/-- How many calls can still follow a call. -/
def callsLeft (worker : ConsensusWorker B C) : Call B → Nat
  | .vote _ => 2 * roundsLeft worker
  | .proposal proposal => 2 * roundsLeft (afterVote worker proposal.payload) + 1
  | .generateProposal _ => 4 * (pendingBlocks worker).length + 4
  | .timeout _ => 4 * (pendingBlocks worker).length + 5
  | .tc _ => 4 * (pendingBlocks worker).length + 5
  | .localTimer => 4 * (pendingBlocks worker).length + 6

theorem blocksLeft_le (worker : ConsensusWorker B C) :
    blocksLeft worker ≤ (pendingBlocks worker).length := by
  unfold blocksLeft
  split
  · exact Nat.le_refl _
  · exact List.countP_le_length

theorem roundsLeft_bounds (worker : ConsensusWorker B C) :
    2 * blocksLeft worker ≤ roundsLeft worker ∧
      roundsLeft worker ≤ 2 * blocksLeft worker + 1 := by
  unfold roundsLeft
  split
  · omega
  · omega

theorem roundsLeft_le (worker : ConsensusWorker B C) :
    roundsLeft worker ≤ 2 * (pendingBlocks worker).length + 1 := by
  have blocks := blocksLeft_le worker
  have rounds := (roundsLeft_bounds worker).2
  omega

theorem callsLeft_le (worker : ConsensusWorker B C) (call : Call B) :
    callsLeft worker call ≤ 4 * (pendingBlocks worker).length + 6 := by
  cases call with
  | vote vote =>
    have rounds := roundsLeft_le worker
    simp only [callsLeft]
    omega
  | proposal proposal =>
    have rounds : roundsLeft (afterVote worker proposal.payload) ≤
        2 * (pendingBlocks worker).length + 1 := roundsLeft_le (afterVote worker proposal.payload)
    simp only [callsLeft]
    omega
  | _ =>
    simp only [callsLeft]
    omega

/-- Beside them the client may have finalized more. -/
structure Ahead (worker next : ConsensusWorker B C) : Prop extends SameBlocks worker next where
  finalized : finalizedNumber worker ≤ finalizedNumber next

theorem Aside.ahead {worker next : ConsensusWorker B C} (aside : Aside worker next) :
    Ahead worker next where
  toSameBlocks := aside.sameBlocks
  finalized := by
    rw [finalizedNumber, finalizedNumber, aside.client]
    exact BitVec.le_refl _

/-- More finalized blocks leave fewer to propose. -/
theorem Ahead.blocksLeft_le {worker next : ConsensusWorker B C} (ahead : Ahead worker next) :
    blocksLeft next ≤ blocksLeft worker := by
  have queue : pendingBlocks next = pendingBlocks worker := by
    rw [pendingBlocks, pendingBlocks, ahead.pendingFinalizeQueue]
  unfold blocksLeft
  rw [ahead.processingBlock, queue]
  split
  · exact Nat.le_refl _
  · apply List.countP_mono_left
    intro other _ left
    obtain ⟨unfinalized, above⟩ := of_decide_eq_true left
    have finalized := ahead.finalized
    apply decide_eq_true
    refine ⟨?_, above⟩
    rw [BitVec.lt_def] at unfinalized ⊢
    rw [BitVec.le_def] at finalized
    omega

theorem Ahead.roundsLeft_le {worker next : ConsensusWorker B C} (ahead : Ahead worker next) :
    roundsLeft next ≤ roundsLeft worker := by
  have blocks := ahead.blocksLeft_le
  unfold roundsLeft
  rw [ahead.proposalHashQueue]
  omega

theorem Ahead.afterVote {worker next : ConsensusWorker B C} (ahead : Ahead worker next)
    (payload : Payload B) : Ahead (afterVote worker payload) (afterVote next payload) where
  processingBlock := rfl
  pendingFinalizeQueue := ahead.pendingFinalizeQueue
  proposalHashQueue := by
    simp only [Hotstuff.afterVote, ahead.proposalHashQueue]
  finalized := ahead.finalized

theorem Ahead.callsLeft_le {worker next : ConsensusWorker B C} (ahead : Ahead worker next)
    (call : Call B) : callsLeft next call ≤ callsLeft worker call := by
  have queue : pendingBlocks next = pendingBlocks worker := by
    rw [pendingBlocks, pendingBlocks, ahead.pendingFinalizeQueue]
  cases call with
  | vote vote =>
    have rounds := ahead.roundsLeft_le
    simp only [callsLeft]
    omega
  | proposal proposal =>
    have rounds := (ahead.afterVote proposal.payload).roundsLeft_le
    simp only [callsLeft]
    omega
  | _ =>
    simp only [callsLeft, queue]
    exact Nat.le_refl _

/-- Fewer elements satisfy a stronger condition that one of them fails. -/
theorem countP_lt {items : List α} {strong weak : α → Bool} {item : α}
    (weaker : ∀ other ∈ items, strong other = true → weak other = true) (member : item ∈ items)
    (passes : weak item = true) (fails : strong item = false) :
    items.countP strong < items.countP weak := by
  induction items with
  | nil => cases member
  | cons first rest ih =>
    have others : ∀ other ∈ rest, strong other = true → weak other = true :=
      fun other found => weaker other (List.mem_cons_of_mem _ found)
    rcases List.mem_cons.mp member with rfl | later
    · have rest := List.countP_mono_left others
      simp only [List.countP_cons, passes, fails]
      simp
      omega
    · have fewer := ih others later
      have head := weaker first (List.mem_cons_self ..)
      simp only [List.countP_cons]
      by_cases strongly : strong first = true
      · simp [strongly, head strongly]
        omega
      · simp [strongly]
        omega

theorem withheld_twice (hashes : List (Hash B)) :
    withheld (emptyPayloadHash : Hash B) 0
      (hashes ++ [emptyPayloadHash] ++ [emptyPayloadHash]).reverse = true := by
  apply withheld_iff.mpr
  exact ⟨rfl, hashes, by simp⟩

/-- The payload that is offered next is of a block further on, or is empty and
takes no block away. -/
theorem Offers.blocksLeft_le {worker chosen : ConsensusWorker B C} {payload : Payload B}
    (offers : Offers worker (some payload) chosen) :
    blocksLeft (afterVote chosen payload) ≤ blocksLeft worker ∧
      (payload.blockHash ≠ emptyPayloadHash →
        blocksLeft (afterVote chosen payload) < blocksLeft worker) := by
  cases offers with
  | pending block processing above =>
    refine ⟨?_, fun real => absurd rfl real⟩
    simp only [blocksLeft, processing]
    exact Nat.le_refl _
  | idle block processing done =>
    refine ⟨?_, fun real => absurd rfl real⟩
    simp only [blocksLeft, processing]
    exact Nat.le_refl _
  | found queue block found present processing done member above =>
    have fewer : blocksLeft (afterVote { worker with processingBlock := some found }
        ⟨found.hash.getD emptyPayloadHash, found.number⟩) < blocksLeft worker := by
      simp only [blocksLeft, processing]
      apply countP_lt
      · intro other _ left
        obtain ⟨unfinalized, _⟩ := of_decide_eq_true left
        apply decide_eq_true
        refine ⟨unfinalized, ?_⟩
        have unfinalized : finalizedNumber worker < other.number := unfinalized
        rw [BitVec.lt_def] at unfinalized ⊢
        rw [BitVec.le_def] at done
        omega
      · show found ∈ worker.pendingFinalizeQueue.getD []
        rw [present]
        exact member
      · apply decide_eq_true
        refine ⟨above, ?_⟩
        rw [BitVec.lt_def] at above ⊢
        rw [BitVec.le_def] at done
        omega
      · apply decide_eq_false
        intro left
        exact BitVec.lt_irrefl _ left.2
    exact ⟨Nat.le_of_lt fewer, fun _ => fewer⟩
  | front queue front present processing first =>
    have fewer : blocksLeft (afterVote { worker with processingBlock := some front }
        ⟨front.hash.getD emptyPayloadHash, front.number⟩) < blocksLeft worker := by
      simp only [blocksLeft, processing]
      apply List.countP_lt_length_iff.mpr
      refine ⟨front, ?_, ?_⟩
      · show front ∈ worker.pendingFinalizeQueue.getD []
        rw [present]
        exact List.mem_of_head? first
      · apply decide_eq_false
        intro left
        exact BitVec.lt_irrefl _ left.2
    exact ⟨Nat.le_of_lt fewer, fun _ => fewer⟩

theorem Offers.proposalHashQueue {worker chosen : ConsensusWorker B C}
    {payload : Option (Payload B)} (offers : Offers worker payload chosen) :
    chosen.proposalHashQueue = worker.proposalHashQueue := by
  cases offers <;> rfl

/-- A proposal that follows a vote was offered and not withheld: fewer of them are
left. -/
theorem Offers.roundsLeft_lt {worker chosen : ConsensusWorker B C} {payload : Payload B}
    (offers : Offers worker (some payload) chosen)
    (passed : withheld payload.blockHash 0 chosen.proposalHashQueue.reverse = false) :
    roundsLeft (afterVote (chosen.pushing payload.blockHash) payload) < roundsLeft worker := by
  obtain ⟨notMore, strictly⟩ := offers.blocksLeft_le
  have left : blocksLeft (afterVote (chosen.pushing payload.blockHash) payload) =
      blocksLeft (afterVote chosen payload) := rfl
  by_cases empty : payload.blockHash = emptyPayloadHash
  · have withholds : withheld (emptyPayloadHash : Hash B) 0
        (afterVote (chosen.pushing payload.blockHash) payload).proposalHashQueue.reverse =
          true := by
      simp only [afterVote, pushing, empty]
      exact withheld_twice _
    rw [empty, offers.proposalHashQueue] at passed
    rw [roundsLeft, roundsLeft, withholds, passed, left]
    simp only [Bool.false_eq_true, if_true, if_false]
    omega
  · have strict := strictly empty
    have above := (roundsLeft_bounds (afterVote (chosen.pushing payload.blockHash) payload)).2
    have below := (roundsLeft_bounds worker).1
    omega

section Calls

variable {worker : ConsensusWorker B C} {ending : Ending B C} {call next : Call B}

theorem FormedQcOutcome.goes {qc : QC B} (outcome : FormedQcOutcome worker qc ending)
    (goes : ending.1 = .ok (some next)) :
    ∃ proposal, next = .proposal proposal ∧
      roundsLeft (afterVote ending.2 proposal.payload) < roundsLeft worker := by
  cases outcome with
  | proposed settled chosen payload proposal handled _ offers passed made =>
    cases goes
    refine ⟨proposal, rfl, ?_⟩
    rw [ConsensusState.makeProposal_payload made]
    exact Nat.lt_of_lt_of_le (offers.roundsLeft_lt passed) handled.aside.ahead.roundsLeft_le
  | _ => cases goes

theorem VoteOutcome.goes {vote : Vote B} (outcome : VoteOutcome worker vote ending)
    (goes : ending.1 = .ok (some next)) :
    ∃ proposal, next = .proposal proposal ∧
      roundsLeft (afterVote ending.2 proposal.payload) < roundsLeft worker := by
  cases outcome with
  | formed qc _ _ _ rest =>
    obtain ⟨proposal, same, fewer⟩ := rest.goes goes
    have counts : Aside worker ((worker.countingVote vote).emit (.aggregatedQc qc)) :=
      (countingVote_aside worker vote).trans (.emit _ rfl rfl)
    exact ⟨proposal, same, Nat.lt_of_lt_of_le fewer counts.ahead.roundsLeft_le⟩
  | _ => cases goes

/-- Behind a proposal comes the own vote for it. -/
theorem ProposalOutcome.goes {proposal : Proposal B}
    (outcome : ProposalOutcome worker proposal ending) (goes : ending.1 = .ok (some next)) :
    (∃ vote, next = .vote vote) ∧ SameBlocks (afterVote worker proposal.payload) ending.2 := by
  cases outcome with
  | reached accepted settled _ taken saved commits _ casts =>
    have before := taken.aside.sameBlocks
    have same : SameBlocks worker settled := by
      cases commits with
      | orphan _ _ => exact ⟨before.1, before.2, before.3⟩
      | keep _ _ _ _ _ _ => exact ⟨before.1, before.2, before.3⟩
      | commit _ _ _ _ _ _ => exact ⟨before.1, before.2, before.3⟩
    cases casts with
    | own vote marked leader made _ _ =>
      cases goes
      refine ⟨⟨vote, rfl⟩, rfl, same.pendingFinalizeQueue, ?_⟩
      exact congrArg (· ++ [proposal.payload.blockHash]) same.proposalHashQueue
    | _ => cases goes
  | _ => cases goes

/-- The other calls lead up to a proposal. -/
def Precedes (call next : Call B) : Prop :=
  match call with
  | .localTimer => ∃ timeout, next = .timeout timeout
  | .timeout _ => ∃ tc, next = .generateProposal tc
  | .tc _ => ∃ tc, next = .generateProposal tc
  | .generateProposal _ => ∃ proposal, next = .proposal proposal
  | .proposal _ => ∃ vote, next = .vote vote
  | .vote _ => ∃ proposal, next = .proposal proposal

theorem Outcome.precedes (outcome : Outcome worker call ending)
    (goes : ending.1 = .ok (some next)) : Precedes call next := by
  cases call with
  | localTimer =>
    cases outcome with
    | unsigned _ _ => cases goes
    | timedOut timeout _ =>
      cases goes
      exact ⟨timeout, rfl⟩
  | timeout timeout =>
    cases outcome with
    | formed _ _ _ _ _ rest => exact (rest.leads _ goes).1 next rfl
    | _ => cases goes
  | tc tc => exact ((TcOutcome.leads outcome) _ goes).1 next rfl
  | generateProposal tc =>
    cases outcome with
    | proposed _ _ proposal _ _ =>
      cases goes
      exact ⟨proposal, rfl⟩
    | _ => cases goes
  | proposal proposal => exact (ProposalOutcome.goes outcome goes).1
  | vote vote =>
    obtain ⟨proposal, same, _⟩ := VoteOutcome.goes outcome goes
    exact ⟨proposal, same⟩

end Calls

/-- A handler that goes on to another call leaves fewer calls to make, as long
as the client does not take back what it has finalized. -/
theorem handle_callsLeft_lt {worker : ConsensusWorker B C} {call next : Call B}
    (goes : (handle call worker).1 = .ok (some next))
    (finalized : finalizedNumber worker ≤ finalizedNumber (handle call worker).2) :
    callsLeft (handle call worker).2 next < callsLeft worker call := by
  have queue : pendingBlocks (handle call worker).2 = pendingBlocks worker := by
    rw [pendingBlocks, pendingBlocks, (handle_payloadSide call worker).sameSupply.queue]
  have precedes := (handle_outcome call worker).precedes goes
  cases call with
  | localTimer =>
    obtain ⟨timeout, rfl⟩ := precedes
    simp only [callsLeft, queue]
    omega
  | timeout timeout =>
    obtain ⟨tc, rfl⟩ := precedes
    simp only [callsLeft, queue]
    omega
  | tc tc =>
    obtain ⟨tc, rfl⟩ := precedes
    simp only [callsLeft, queue]
    omega
  | generateProposal tc =>
    obtain ⟨proposal, rfl⟩ := precedes
    have rounds := roundsLeft_le
      (afterVote (handle (.generateProposal tc) worker).2 proposal.payload)
    have same : pendingBlocks (afterVote (handle (.generateProposal tc) worker).2
        proposal.payload) = pendingBlocks worker := queue
    rw [same] at rounds
    simp only [callsLeft]
    omega
  | proposal proposal =>
    obtain ⟨⟨vote, rfl⟩, same⟩ := (handleProposal_outcome proposal worker).goes goes
    have ahead : Ahead (afterVote worker proposal.payload) (handle (.proposal proposal) worker).2 :=
      ⟨same, finalized⟩
    have rounds := ahead.roundsLeft_le
    simp only [callsLeft]
    omega
  | vote vote =>
    obtain ⟨proposal, rfl, fewer⟩ := (handleVote_outcome vote worker).goes goes
    have rounds : roundsLeft (afterVote (handle (.vote vote) worker).2 proposal.payload) <
        roundsLeft worker := fewer
    simp only [callsLeft]
    omega

namespace Replica

/-- The call a replica is in runs. Beside it the client may change, while the
pending queue stays and the finalized number never decreases. -/
def Proceeds (replica next : Replica B C) : Prop :=
  ∃ client, Ahead replica.worker { replica.worker with client } ∧
    Resumes { replica with worker := { replica.worker with client } } next ∧
    finalizedNumber { replica.worker with client } ≤ finalizedNumber next.worker

/-- A replica that is in no call. -/
def Ended (replica : Replica B C) : Prop :=
  ∀ call, replica.control ≠ .running call

def callsLeft (replica : Replica B C) : Nat :=
  match replica.control with
  | .running call => Hotstuff.callsLeft replica.worker call
  | _ => 0

theorem Proceeds.callsLeft_lt {replica next : Replica B C} (proceeds : Proceeds replica next) :
    next.Ended ∨ next.callsLeft < replica.callsLeft := by
  obtain ⟨client, ahead, ⟨call, running, rfl⟩, finalized⟩ := proceeds
  have start : replica.callsLeft = Hotstuff.callsLeft replica.worker call := by
    have running : replica.control = .running call := running
    simp only [callsLeft, running]
  let ready : Replica B C := { replica with worker := { replica.worker with client } }
  cases result : (handle call ready.worker).1 with
  | error fault =>
    left
    intro following same
    cases fault <;> simp [resume, ready, result, controlAfter] at same
  | ok returned =>
    cases returned with
    | none =>
      left
      intro following same
      simp [resume, ready, result, controlAfter] at same
    | some following =>
      right
      have lower := handle_callsLeft_lt result finalized
      have reached : (ready.resume call).callsLeft =
          Hotstuff.callsLeft (handle call ready.worker).2 following := by
        simp only [callsLeft, resume, result, controlAfter]
      rw [reached, start]
      exact Nat.lt_of_lt_of_le lower (ahead.callsLeft_le call)

/-- The calls made one after another, with a client that changes in them only. -/
theorem settle_proceeds (replica : Replica B C) {fuel : Nat}
    (finalized : finalizedNumber (replica.settle fuel).worker ≤
      finalizedNumber (replica.settle (fuel + 1)).worker) :
    (replica.settle fuel).Ended ∨
      (replica.settle fuel).Proceeds (replica.settle (fuel + 1)) := by
  cases control : (replica.settle fuel).control with
  | running call =>
    right
    refine ⟨(replica.settle fuel).worker.client, (Aside.refl _).ahead, ⟨call, control, ?_⟩,
      finalized⟩
    rw [settle_succ, settle]
    simp only [control]
    rfl
  | idle =>
    left
    intro call running
    rw [control] at running
    cases running
  | halted =>
    left
    intro call running
    rw [control] at running
    cases running

theorem settle_ended {replica : Replica B C} {fuel more : Nat}
    (ended : (replica.settle fuel).Ended) (later : fuel ≤ more) :
    replica.settle more = replica.settle fuel := by
  induction more, later using Nat.le_induction with
  | base => rfl
  | succ more _ ih => rw [settle_succ, ih, settle_still 1 ended]

end Replica

/-- From every state of a worker, with every authority list and on every input,
the calls of the handlers come to an end, however the client changes meanwhile,
as long as the pending queue stays and the finalized number never decreases. -/
theorem handlers_end (run : Nat → Replica B C)
    (proceeds : ∀ index, (run index).Ended ∨ (run index).Proceeds (run (index + 1))) :
    ∃ index ≤ 4 * (pendingBlocks (run 0).worker).length + 7, (run index).Ended := by
  obtain ⟨index, within, ended⟩ := Command.done_within Replica.callsLeft
    (fun _ _ moved => Replica.Proceeds.callsLeft_lt moved) run proceeds
  refine ⟨index, ?_, ended⟩
  have bound : (run 0).callsLeft ≤ 4 * (pendingBlocks (run 0).worker).length + 6 := by
    unfold Replica.callsLeft
    split
    · exact callsLeft_le _ _
    · exact Nat.zero_le _
  omega

/-- A single authority with one pending block, at its first timer. -/
def Sample.started : Replica Sample Sample.Client :=
  { Sample.replica 1 0 [⟨some (1 : BitVec 64), 1⟩] with control := .running .localTimer }

/-- Its calls end with the second empty proposal, which is withheld. -/
theorem handlers_end_solo : ∃ fuel ≤ 11, (Sample.started.settle fuel).Ended := by
  have ended : (Sample.started.settle 7).Ended := by
    intro call running
    have idle : (Sample.started.settle 7).control = .idle := by decide +kernel
    rw [idle] at running
    cases running
  have finalized : ∀ index < 7, finalizedNumber (Sample.started.settle index).worker ≤
      finalizedNumber (Sample.started.settle (index + 1)).worker := by decide +kernel
  apply handlers_end fun index => Sample.started.settle index
  intro index
  by_cases early : index < 7
  · exact Replica.settle_proceeds Sample.started (finalized index early)
  · left
    rw [Replica.settle_ended ended (Nat.not_lt.mp early)]
    exact ended

end Hotstuff
