import Hotstuff.Consensus.Refinement

/-! The payload side of a worker: its client, the block it processes, and its
two queues. A handler leaves it alone, or touches it in one of a few ways. -/

namespace Hotstuff

open ConsensusWorker

/-- The blocks a client knows, with their numbers. A block whose status is in
the chain is known, and neither storing a proposal nor finalizing a block
changes what is known. -/
class KnownBlocks (B : Type) [BlockT B] (C : Type) [ClientForHotstuff B C] where
  number : C → Hash B → Option (Number B)
  number_inChain : ∀ (client : C) (hash : Hash B),
    ClientForHotstuff.status client hash = .ok .inChain → ∃ found, number client hash = some found
  number_finalizeBlock : ∀ (client : C) (hash : Hash B),
    number (ClientForHotstuff.finalizeBlock client hash).2 = number client
  number_insertAux : ∀ (client : C) (key : Hash B) value,
    number (ClientForHotstuff.insertAux client key value).2 = number client

variable {B C : Type} [BlockT B]

/-- Neither a vote nor a proposal is added to a log. -/
def Quietly (log longer : List (Event B)) : Prop :=
  ∃ events, longer = log ++ events ∧
    ∀ event ∈ events, event.votedProposal? = none ∧ event.proposed? = none

theorem Quietly.voted {log longer : List (Event B)} (quiet : Quietly log longer) :
    votedProposals longer = votedProposals log := by
  obtain ⟨events, rfl, silent⟩ := quiet
  rw [votedProposals, List.filterMap_append,
    List.filterMap_eq_nil_iff.mpr fun event member => (silent event member).1, List.append_nil]
  rfl

/-- The payload side stays as it is, and nothing is voted for or proposed. -/
structure Aside (worker next : ConsensusWorker B C) : Prop where
  client : next.client = worker.client
  processingBlock : next.processingBlock = worker.processingBlock
  pendingFinalizeQueue : next.pendingFinalizeQueue = worker.pendingFinalizeQueue
  proposalHashQueue : next.proposalHashQueue = worker.proposalHashQueue
  log : Quietly worker.log next.log

theorem Aside.refl (worker : ConsensusWorker B C) : Aside worker worker :=
  ⟨rfl, rfl, rfl, rfl, [], by simp, fun _ member => by cases member⟩

theorem Aside.trans {worker middle next : ConsensusWorker B C} (first : Aside worker middle)
    (second : Aside middle next) : Aside worker next where
  client := second.client.trans first.client
  processingBlock := second.processingBlock.trans first.processingBlock
  pendingFinalizeQueue := second.pendingFinalizeQueue.trans first.pendingFinalizeQueue
  proposalHashQueue := second.proposalHashQueue.trans first.proposalHashQueue
  log := by
    obtain ⟨earlier, grown, silent⟩ := first.log
    obtain ⟨later, longer, still⟩ := second.log
    refine ⟨earlier ++ later, by rw [longer, grown, List.append_assoc], fun event member => ?_⟩
    exact (List.mem_append.mp member).elim (silent event) (still event)

theorem Aside.emit (worker : ConsensusWorker B C) {event : Event B}
    (voted : event.votedProposal? = none) (proposed : event.proposed? = none) :
    Aside worker (worker.emit event) := by
  refine ⟨rfl, rfl, rfl, rfl, [event], rfl, fun other member => ?_⟩
  cases List.mem_singleton.mp member
  exact ⟨voted, proposed⟩

theorem Aside.state (worker : ConsensusWorker B C) (state : ConsensusState B)
    (network : ViewNumber) : Aside worker { worker with state, network } :=
  ⟨rfl, rfl, rfl, rfl, [], by simp, fun _ member => by cases member⟩

section Pieces

variable {worker next : ConsensusWorker B C}

theorem moved_aside (worker : ConsensusWorker B C) (view : ViewNumber) :
    Aside worker (worker.moved view) :=
  (Aside.emit worker rfl rfl).trans (.state _ { worker.state with view } view)

theorem accepted_aside (worker : ConsensusWorker B C) (view : ViewNumber) (qc : QC B) :
    Aside worker (worker.accepted view qc) := by
  refine ⟨rfl, rfl, rfl, rfl, _, rfl, fun event member => ?_⟩
  simp only [List.mem_cons, List.not_mem_nil, or_false] at member
  rcases member with rfl | rfl | rfl
  · exact ⟨rfl, rfl⟩
  · exact ⟨rfl, rfl⟩
  · exact ⟨rfl, rfl⟩

theorem HandlesQc.aside {qc : QC B} (handled : HandlesQc worker qc next) : Aside worker next := by
  cases handled with
  | late _ => exact .emit worker rfl rfl
  | current view _ _ => exact accepted_aside worker view qc
  | ahead _ => exact accepted_aside worker _ qc

theorem Passes.aside {view : ViewNumber} (passes : Passes worker view next) :
    Aside worker next := by
  cases passes with
  | current following _ _ => exact moved_aside worker following
  | ahead _ => exact moved_aside worker _

theorem PassesTc.aside {tc : TC B} (passes : PassesTc worker tc next) : Aside worker next := by
  cases passes with
  | behind _ => exact .refl worker
  | moved next passes => exact passes.aside.trans (.emit next rfl rfl)

theorem delayed_aside (tc : Option (TC B)) (worker : ConsensusWorker B C) :
    Aside worker (worker.delayed tc) := by
  unfold delayed
  split
  · exact (moved_aside worker _).trans (.emit _ rfl rfl)
  · exact .refl worker

theorem spending_aside (worker : ConsensusWorker B C) : Aside worker worker.spending :=
  ((Aside.emit worker rfl rfl).trans (.state _ worker.state.increaseLastVotedView _)).trans
    (.emit _ rfl rfl)

theorem countingVote_aside (worker : ConsensusWorker B C) (vote : Vote B) :
    Aside worker (worker.countingVote vote) :=
  (Aside.emit worker rfl rfl).trans (.state _ _ _)

theorem Hears.aside {timeout : Timeout B} (hears : Hears worker timeout next) :
    Aside worker (next.countingTimeout timeout) :=
  ((Aside.emit worker rfl rfl).trans hears.handled.aside).trans (.state next _ next.network)

end Pieces

variable [ClientForHotstuff B C]

theorem Takes.aside {worker accepted : ConsensusWorker B C} {proposal : Proposal B}
    (taken : Takes worker proposal accepted) : Aside worker (accepted.delayed proposal.tc) :=
  ((Aside.emit worker rfl rfl).trans taken.handled.aside).trans (delayed_aside proposal.tc accepted)

theorem Commits.log {worker next : ConsensusWorker B C} {proposal : Proposal B}
    (commits : Commits worker proposal next) : Quietly worker.log next.log := by
  cases commits with
  | orphan _ _ => exact (Aside.refl worker).log
  | keep _ _ _ _ _ _ => exact (Aside.refl worker).log
  | commit parent grandpa _ _ _ _ => exact (Aside.emit worker rfl rfl).log

/-- What a call does on the payload side. -/
inductive PayloadSide (worker : ConsensusWorker B C) (call : Call B) :
    ConsensusWorker B C → Prop where
  | aside (aside : Aside worker next) : PayloadSide worker call next
  | cleared (aside : Aside { worker with processingBlock := none } next) :
      PayloadSide worker call next
  | looked (settled chosen : ConsensusWorker B C) (before : Aside worker settled)
      (offers : Offers settled payload chosen)
      (idle : ∀ found, payload = some found →
        withheld found.blockHash 0 chosen.proposalHashQueue.reverse = true) :
      PayloadSide worker call chosen
  | unmade (settled chosen : ConsensusWorker B C) (hashes : List (Hash B))
      (before : Aside worker settled) (offers : Offers settled (some payload) chosen)
      (failed : chosen.state.makeProposal payload tc = .error reason) :
      PayloadSide worker call { chosen with proposalHashQueue := hashes }
  | proposed (settled chosen : ConsensusWorker B C) (hashes : List (Hash B))
      (before : Aside worker settled) (offers : Offers settled (some payload) chosen)
      (proposal : Proposal B) :
      PayloadSide worker call
        ({ chosen with proposalHashQueue := hashes }.proposing proposal)
  | stored (proposal : Proposal B) (settled : ConsensusWorker B C)
      (called : call = .proposal proposal) (before : Aside worker settled) :
      PayloadSide worker call (settled.saving proposal)
  | finished (proposal : Proposal B) (settled committed : ConsensusWorker B C)
      (called : call = .proposal proposal) (before : Aside worker settled)
      (commits : Commits (settled.saving proposal) proposal committed)
      (behind : Aside committed next) : PayloadSide worker call next
  | voted (proposal : Proposal B) (settled committed : ConsensusWorker B C) (vote : Vote B)
      (marked : ConsensusState B) (called : call = .proposal proposal)
      (accepts : Accepts worker call proposal.qc) (before : Aside worker settled)
      (saved : (Synchronizer.saveProposal settled.client proposal).1 = .ok ())
      (commits : Commits (settled.saving proposal) proposal committed)
      (behind : Aside (committed.voting proposal vote marked) next) : PayloadSide worker call next

section Handlers

variable {worker : ConsensusWorker B C} {call : Call B} {ending : Ending B C}

omit [ClientForHotstuff B C] in
theorem TimerOutcome.aside (outcome : TimerOutcome worker ending) : Aside worker ending.2 := by
  cases outcome with
  | unsigned reason failed => exact spending_aside worker
  | timedOut timeout made =>
    exact ((spending_aside worker).trans (.emit _ rfl rfl)).trans (.emit _ rfl rfl)

theorem FormedTcOutcome.payloadSide {tc : TC B} {before : ConsensusWorker B C}
    (outcome : FormedTcOutcome worker tc ending) (start : Aside before worker) :
    PayloadSide before call ending.2 := by
  have gossips {passed : ConsensusWorker B C} (passes : PassesTc worker tc passed) :
      Aside before (passed.emit (.gossip (.tc tc) true)) :=
    (start.trans passes.aside).trans (.emit _ rfl rfl)
  cases outcome with
  | overflow _ => exact .aside start
  | leaderless passed passes _ => exact .aside (gossips passes)
  | follower passed passes _ => exact .aside (gossips passes)
  | leader passed passes _ =>
    obtain ⟨client, _, queue, hashes, log⟩ := gossips passes
    exact .cleared ⟨client, rfl, queue, hashes, log⟩

theorem TimeoutOutcome.payloadSide {timeout : Timeout B}
    (outcome : TimeoutOutcome worker timeout ending) : PayloadSide worker call ending.2 := by
  cases outcome with
  | late _ => exact .aside (.refl worker)
  | refused _ _ _ => exact .aside (.refl worker)
  | overflow _ _ _ => exact .aside (.emit worker rfl rfl)
  | uncounted accepted _ hears _ => exact .aside hears.aside
  | counted accepted hears _ => exact .aside hears.aside
  | formed accepted tc _ hears _ rest =>
    exact rest.payloadSide (hears.aside.trans (.emit _ rfl rfl))

theorem TcOutcome.payloadSide {tc : TC B} (outcome : TcOutcome worker tc ending) :
    PayloadSide worker call ending.2 := by
  have passing {passed : ConsensusWorker B C}
      (passes : Passes (worker.emit (.verifiedTc tc)) tc.view passed) :
      PayloadSide worker call { passed.emit .resetTimer with processingBlock := none } := by
    have resets : Aside worker (passed.emit .resetTimer) :=
      ((Aside.emit worker rfl rfl).trans passes.aside).trans (.emit passed rfl rfl)
    obtain ⟨client, _, queue, hashes, log⟩ := resets
    exact .cleared ⟨client, rfl, queue, hashes, log⟩
  cases outcome with
  | refused _ _ => exact .aside (.refl worker)
  | overflow _ _ => exact .aside (.emit worker rfl rfl)
  | leaderless passed _ passes _ => exact passing passes
  | follower passed _ passes _ => exact passing passes
  | leader passed _ passes _ => exact passing passes

theorem GenerateOutcome.payloadSide {tc : Option (TC B)}
    (outcome : GenerateOutcome worker tc ending) : PayloadSide worker call ending.2 := by
  cases outcome with
  | nothing chosen offers =>
    exact .looked worker chosen (.refl worker) offers fun _ found => by cases found
  | unmade chosen payload reason offers failed =>
    exact .unmade worker chosen chosen.proposalHashQueue (.refl worker) offers failed
  | proposed chosen payload proposal offers _ =>
    exact .proposed worker chosen chosen.proposalHashQueue (.refl worker) offers proposal

theorem FormedQcOutcome.payloadSide {qc : QC B} {before : ConsensusWorker B C}
    (outcome : FormedQcOutcome worker qc ending) (start : Aside before worker) :
    PayloadSide before call ending.2 := by
  cases outcome with
  | overflow _ => exact .aside start
  | leaderless settled handled _ => exact .aside (start.trans handled.aside)
  | follower settled handled _ => exact .aside (start.trans handled.aside)
  | nothing settled chosen handled _ offers =>
    exact .looked settled chosen (start.trans handled.aside) offers fun _ found => by cases found
  | withheld settled chosen payload handled _ offers held =>
    refine .looked settled chosen (start.trans handled.aside) offers fun other found => ?_
    cases found
    exact held
  | unmade settled chosen payload reason handled _ offers _ failed =>
    exact .unmade settled chosen _ (start.trans handled.aside) offers failed
  | proposed settled chosen payload proposal handled _ offers _ _ =>
    exact .proposed settled chosen _ (start.trans handled.aside) offers proposal

theorem VoteOutcome.payloadSide {vote : Vote B} (outcome : VoteOutcome worker vote ending) :
    PayloadSide worker call ending.2 := by
  cases outcome with
  | refused _ _ => exact .aside (.refl worker)
  | uncounted _ _ _ => exact .aside (countingVote_aside worker vote)
  | counted _ _ => exact .aside (countingVote_aside worker vote)
  | formed qc _ _ _ rest =>
    exact rest.payloadSide ((countingVote_aside worker vote).trans (.emit _ rfl rfl))

theorem ProposalOutcome.payloadSide {proposal : Proposal B}
    (outcome : ProposalOutcome worker proposal ending) :
    PayloadSide worker (.proposal proposal) ending.2 := by
  cases outcome with
  | unreadable _ _ _ => exact .aside (.refl worker)
  | unknown _ _ => exact .aside (.emit worker rfl rfl)
  | refused _ _ _ => exact .aside (.refl worker)
  | overflow _ _ _ => exact .aside (.emit worker rfl rfl)
  | unsaved accepted _ taken _ => exact .stored proposal _ rfl taken.aside
  | lastView accepted _ _ taken _ _ _ => exact .stored proposal _ rfl taken.aside
  | elsewhere accepted settled taken _ commits _ =>
    exact .finished proposal _ settled rfl taken.aside commits (.refl settled)
  | reached accepted settled _ taken saved commits _ casts =>
    rw [← delayed_client proposal.tc accepted] at saved
    have votes {next : ConsensusWorker B C} {vote : Vote B} {marked : ConsensusState B}
        (behind : Aside (settled.voting proposal vote marked) next) :
        PayloadSide worker (.proposal proposal) next :=
      .voted proposal _ settled vote marked rfl ⟨taken.known, taken.verified, rfl⟩ taken.aside saved
        commits behind
    cases casts with
    | unmade marked made =>
      exact .finished proposal _ settled rfl taken.aside commits (.state settled marked _)
    | stranded vote marked made _ => exact votes (.refl _)
    | own vote marked leader made _ _ => exact votes (.refl _)
    | sent vote marked leader made _ _ => exact votes (.emit _ rfl rfl)

/-- Every call touches the payload side in one of these ways. -/
theorem handle_payloadSide (call : Call B) (worker : ConsensusWorker B C) :
    PayloadSide worker call (handle call worker).2 := by
  cases call with
  | localTimer => exact .aside (handleLocalTimer_outcome worker).aside
  | timeout timeout => exact (handleTimeout_outcome timeout worker).payloadSide
  | proposal proposal => exact (handleProposal_outcome proposal worker).payloadSide
  | vote vote => exact (handleVote_outcome vote worker).payloadSide
  | tc tc => exact (handleTc_outcome tc worker).payloadSide
  | generateProposal tc => exact (generateProposal_outcome tc worker).payloadSide

end Handlers

section Supply

variable {worker next : ConsensusWorker B C}

/-- The calls that change the client: it stores something or finalizes a block. -/
inductive ClientCall (B : Type) [BlockT B] [ClientForHotstuff B C] (before : C) : C → Prop where
  | insertAux (key : Hash B) (value : ClientForHotstuff.Encoded B C) :
      ClientCall B before (ClientForHotstuff.insertAux before key value).2
  | finalizeBlock (hash : Hash B) :
      ClientCall B before (ClientForHotstuff.finalizeBlock before hash).2

/-- What no call of a handler changes: the pending queue, and the client but for
such calls. -/
structure SameSupply (worker next : ConsensusWorker B C) : Prop where
  queue : next.pendingFinalizeQueue = worker.pendingFinalizeQueue
  client : Relation.ReflTransGen (ClientCall B) worker.client next.client

/-- The blocks that are known stay the same. -/
theorem SameSupply.number [KnownBlocks B C] (same : SameSupply worker next) :
    KnownBlocks.number (B := B) next.client = KnownBlocks.number worker.client := by
  refine Command.keep_along
    (fun now => KnownBlocks.number (B := B) now = KnownBlocks.number worker.client) same.client
    (fun before after call kept => ?_) rfl
  cases call with
  | insertAux key value => exact (KnownBlocks.number_insertAux _ _ _).trans kept
  | finalizeBlock hash => exact (KnownBlocks.number_finalizeBlock _ _).trans kept

theorem SameSupply.trans {middle : ConsensusWorker B C} (first : SameSupply worker middle)
    (second : SameSupply middle next) : SameSupply worker next :=
  ⟨second.queue.trans first.queue, first.client.trans second.client⟩

theorem Aside.sameSupply (aside : Aside worker next) : SameSupply worker next :=
  ⟨aside.pendingFinalizeQueue, by rw [aside.client]⟩

theorem Offers.sameSupply {payload : Option (Payload B)} (offers : Offers worker payload next) :
    SameSupply worker next := by
  cases offers <;> exact ⟨rfl, .refl⟩

theorem saving_sameSupply (worker : ConsensusWorker B C) (proposal : Proposal B) :
    SameSupply worker (worker.saving proposal) :=
  ⟨rfl, .single (.insertAux _ _)⟩

theorem Commits.sameSupply {proposal : Proposal B} (commits : Commits worker proposal next) :
    SameSupply worker next := by
  cases commits with
  | orphan _ _ => exact ⟨rfl, .refl⟩
  | keep _ _ _ _ _ _ => exact ⟨rfl, .refl⟩
  | commit _ _ _ _ _ _ => exact ⟨rfl, .single (.finalizeBlock _)⟩

theorem PayloadSide.sameSupply {call : Call B} (side : PayloadSide worker call next) :
    SameSupply worker next := by
  cases side with
  | aside aside => exact aside.sameSupply
  | cleared aside => exact ⟨aside.sameSupply.queue, aside.sameSupply.client⟩
  | looked settled _ before offers _ => exact before.sameSupply.trans offers.sameSupply
  | unmade settled chosen hashes before offers _ =>
    have same := before.sameSupply.trans offers.sameSupply
    exact ⟨same.queue, same.client⟩
  | proposed settled chosen hashes before offers _ =>
    have same := before.sameSupply.trans offers.sameSupply
    exact ⟨same.queue, same.client⟩
  | stored proposal settled _ before =>
    exact before.sameSupply.trans (saving_sameSupply settled proposal)
  | finished proposal settled _ _ before commits behind =>
    exact ((before.sameSupply.trans (saving_sameSupply settled proposal)).trans
      commits.sameSupply).trans behind.sameSupply
  | voted proposal settled committed vote marked _ _ before _ commits behind =>
    have same := (before.sameSupply.trans (saving_sameSupply settled proposal)).trans
      commits.sameSupply
    have votes : SameSupply worker (committed.voting proposal vote marked) :=
      ⟨same.queue, same.client⟩
    exact votes.trans behind.sameSupply

end Supply

end Hotstuff
