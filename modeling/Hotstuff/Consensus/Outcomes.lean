import Hotstuff.Consensus.Replica

/-! What each handler does, path by path: what it has checked, the worker it
leaves and what it returns. Facts about all runs of a handler are read off here;
only a run that is followed on a given path, or beside another one, is evaluated
where it is needed. -/

namespace Hotstuff

open Command

variable {B C : Type} [BlockT B]

namespace ConsensusWorker

/-- The worker after its view was set by a certificate. -/
def moved (worker : ConsensusWorker B C) (view : ViewNumber) : ConsensusWorker B C :=
  { worker with
    state := { worker.state with view }
    network := view
    log := worker.log ++ [.advanced worker.state.view view] }

/-- The worker after `handle_qc` on a QC that is not behind it. -/
def accepted (worker : ConsensusWorker B C) (view : ViewNumber) (qc : QC B) :
    ConsensusWorker B C :=
  { worker with
    state := { worker.state with view }.updateHighQc qc
    network := view
    log := worker.log ++ [.advanced worker.state.view view, .resetTimer, .acceptedQc qc] }

/-- The worker after it has signed and gossiped a proposal. -/
def proposing (worker : ConsensusWorker B C) (proposal : Proposal B) : ConsensusWorker B C :=
  (worker.emit (.proposed proposal)).emit (.gossip (.propose proposal) false)

/-- The worker after its vote for a proposal. -/
def voting (worker : ConsensusWorker B C) (proposal : Proposal B) (vote : Vote B)
    (marked : ConsensusState B) : ConsensusWorker B C :=
  { worker with
    state := marked
    proposalHashQueue := worker.proposalHashQueue ++ [proposal.payload.blockHash]
    processingBlock := some ⟨some proposal.payload.blockHash, proposal.payload.blockNumber⟩
    log := worker.log ++ [.voted worker.state.view proposal vote] }

/-- The worker that has spent its view and said so. -/
def spending (worker : ConsensusWorker B C) : ConsensusWorker B C :=
  { worker.emit .resetTimer with state := worker.state.increaseLastVotedView }.emit
    (.localTimer worker.state.view)

/-- The worker that has checked a vote and counted it. -/
def countingVote (worker : ConsensusWorker B C) (vote : Vote B) : ConsensusWorker B C :=
  { worker.emit (.verifiedVote vote) with state := (worker.state.addVote vote).2 }

def countingTimeout (worker : ConsensusWorker B C) (timeout : Timeout B) : ConsensusWorker B C :=
  { worker with state := (worker.state.addTimeout timeout).2 }

/-- Whether a TC is of a view above the given one. -/
def aheadOf (view : ViewNumber) (tc : Option (TC B)) : Bool :=
  tc.any fun tc => view < tc.view

/-- The worker after the TC of a proposal: the view is set to itself. -/
def delayed (tc : Option (TC B)) (worker : ConsensusWorker B C) : ConsensusWorker B C :=
  if aheadOf worker.state.view tc then (worker.moved worker.state.view).emit .resetTimer
  else worker

end ConsensusWorker

open ConsensusWorker

/-- Adding one to a view that is the current one fails. -/
def Overflows (worker : ConsensusWorker B C) (view : ViewNumber) : Prop :=
  view = worker.state.view ∧ worker.state.view.next? = none

/-- `handle_qc`: a QC that is behind is only recorded, and one that is ahead
leaves the view where it is. -/
inductive HandlesQc (worker : ConsensusWorker B C) (qc : QC B) : ConsensusWorker B C → Prop where
  | late (late : qc.view < worker.state.view) :
      HandlesQc worker qc (worker.emit (.acceptedQc qc))
  | current (view : ViewNumber) (current : qc.view = worker.state.view)
      (next : worker.state.view.next? = some view) : HandlesQc worker qc (worker.accepted view qc)
  | ahead (ahead : worker.state.view < qc.view) :
      HandlesQc worker qc (worker.accepted worker.state.view qc)

/-- `advance_view` on a view that is not behind. -/
inductive Passes (worker : ConsensusWorker B C) (view : ViewNumber) :
    ConsensusWorker B C → Prop where
  | current (next : ViewNumber) (current : view = worker.state.view)
      (following : worker.state.view.next? = some next) : Passes worker view (worker.moved next)
  | ahead (ahead : worker.state.view < view) :
      Passes worker view (worker.moved worker.state.view)

/-- A TC that was formed here moves the view unless it is behind. -/
inductive PassesTc (worker : ConsensusWorker B C) (tc : TC B) : ConsensusWorker B C → Prop where
  | behind (passed : tc.view < worker.state.view) : PassesTc worker tc worker
  | moved (next : ConsensusWorker B C) (passes : Passes worker tc.view next) :
      PassesTc worker tc (next.emit .resetTimer)

/-- The result of a handler: the call it ends with or a fault, and the worker. -/
abbrev Ending (B C : Type) [BlockT B] := Except (Fault B) (Option (Call B)) × ConsensusWorker B C

inductive TimerOutcome (worker : ConsensusWorker B C) : Ending B C → Prop where
  | unsigned (reason : HotstuffError B)
      (failed : worker.spending.state.makeTimeout = .error reason) :
      TimerOutcome worker (.error (.error reason), worker.spending)
  | timedOut (timeout : Timeout B) (made : worker.spending.state.makeTimeout = .ok timeout) :
      TimerOutcome worker (.ok (some (.timeout timeout)),
        (worker.spending.emit (.timedOut timeout)).emit (.gossip (.timeout timeout) true))

/-- `handle_timeout` behind a freshly formed TC. -/
inductive FormedTcOutcome (worker : ConsensusWorker B C) (tc : TC B) : Ending B C → Prop where
  | overflow (last : Overflows worker tc.view) : FormedTcOutcome worker tc (.error .panic, worker)
  | leaderless (passed : ConsensusWorker B C) (passes : PassesTc worker tc passed)
      (nobody : passed.state.isLeader = none) :
      FormedTcOutcome worker tc (.error .panic, passed.emit (.gossip (.tc tc) true))
  | follower (passed : ConsensusWorker B C) (passes : PassesTc worker tc passed)
      (follows : passed.state.isLeader = some false) :
      FormedTcOutcome worker tc (.ok none, passed.emit (.gossip (.tc tc) true))
  | leader (passed : ConsensusWorker B C) (passes : PassesTc worker tc passed)
      (leads : passed.state.isLeader = some true) :
      FormedTcOutcome worker tc (.ok (some (.generateProposal (some tc))),
        { passed.emit (.gossip (.tc tc) true) with processingBlock := none })

/-- A timeout that is handled up to its high QC, with the worker behind that. -/
structure Hears (worker : ConsensusWorker B C) (timeout : Timeout B)
    (accepted : ConsensusWorker B C) : Prop where
  reached : worker.state.view ≤ timeout.view
  verified : worker.state.verifyTimeout timeout = .ok ()
  handled : HandlesQc (worker.emit (.verifiedTimeout timeout)) timeout.highQc accepted

inductive TimeoutOutcome (worker : ConsensusWorker B C) (timeout : Timeout B) :
    Ending B C → Prop where
  | late (late : timeout.view < worker.state.view) :
      TimeoutOutcome worker timeout (.ok none, worker)
  | refused (reason : HotstuffError B) (reached : worker.state.view ≤ timeout.view)
      (failed : worker.state.verifyTimeout timeout = .error reason) :
      TimeoutOutcome worker timeout (.error (.error reason), worker)
  | overflow (reached : worker.state.view ≤ timeout.view)
      (verified : worker.state.verifyTimeout timeout = .ok ())
      (last : Overflows worker timeout.highQc.view) :
      TimeoutOutcome worker timeout (.error .panic, worker.emit (.verifiedTimeout timeout))
  | uncounted (accepted : ConsensusWorker B C) (reason : HotstuffError B)
      (hears : Hears worker timeout accepted)
      (failed : (accepted.state.addTimeout timeout).1 = .error reason) :
      TimeoutOutcome worker timeout (.error (.error reason), accepted.countingTimeout timeout)
  | counted (accepted : ConsensusWorker B C) (hears : Hears worker timeout accepted)
      (missed : (accepted.state.addTimeout timeout).1 = .ok none) :
      TimeoutOutcome worker timeout (.ok none, accepted.countingTimeout timeout)
  | formed (accepted : ConsensusWorker B C) (tc : TC B) (ending : Ending B C)
      (hears : Hears worker timeout accepted)
      (formed : (accepted.state.addTimeout timeout).1 = .ok (some tc))
      (rest : FormedTcOutcome ((accepted.countingTimeout timeout).emit (.aggregatedTc tc)) tc
        ending) : TimeoutOutcome worker timeout ending

inductive TcOutcome (worker : ConsensusWorker B C) (tc : TC B) : Ending B C → Prop where
  | refused (reason : HotstuffError B) (failed : worker.state.verifyTc tc = .error reason) :
      TcOutcome worker tc (.error (.error reason), worker)
  | overflow (verified : worker.state.verifyTc tc = .ok ()) (last : Overflows worker tc.view) :
      TcOutcome worker tc (.error .panic, worker.emit (.verifiedTc tc))
  | leaderless (passed : ConsensusWorker B C) (verified : worker.state.verifyTc tc = .ok ())
      (passes : Passes (worker.emit (.verifiedTc tc)) tc.view passed)
      (nobody : passed.state.isLeader = none) :
      TcOutcome worker tc (.error .panic, { passed.emit .resetTimer with processingBlock := none })
  | follower (passed : ConsensusWorker B C) (verified : worker.state.verifyTc tc = .ok ())
      (passes : Passes (worker.emit (.verifiedTc tc)) tc.view passed)
      (follows : passed.state.isLeader = some false) :
      TcOutcome worker tc (.ok none, { passed.emit .resetTimer with processingBlock := none })
  | leader (passed : ConsensusWorker B C) (verified : worker.state.verifyTc tc = .ok ())
      (passes : Passes (worker.emit (.verifiedTc tc)) tc.view passed)
      (leads : passed.state.isLeader = some true) :
      TcOutcome worker tc (.ok (some (.generateProposal none)),
        { passed.emit .resetTimer with processingBlock := none })

/-- The vote for a proposal of the current view. It goes to the leader of the
next view, whose own vote is handled directly. -/
inductive CastOutcome (worker : ConsensusWorker B C) (proposal : Proposal B) :
    Ending B C → Prop where
  | unmade (marked : ConsensusState B) (made : worker.state.makeVote proposal = (none, marked)) :
      CastOutcome worker proposal (.ok none, { worker with state := marked })
  | stranded (vote : Vote B) (marked : ConsensusState B)
      (made : worker.state.makeVote proposal = (some vote, marked))
      (nobody : worker.state.view.next?.bind worker.state.viewLeader = none) :
      CastOutcome worker proposal (.error .panic, worker.voting proposal vote marked)
  | own (vote : Vote B) (marked : ConsensusState B) (leader : AuthorityId B)
      (made : worker.state.makeVote proposal = (some vote, marked))
      (following : worker.state.view.next?.bind worker.state.viewLeader = some leader)
      (leads : worker.state.localAuthorityId = some leader) :
      CastOutcome worker proposal (.ok (some (.vote vote)), worker.voting proposal vote marked)
  | sent (vote : Vote B) (marked : ConsensusState B) (leader : AuthorityId B)
      (made : worker.state.makeVote proposal = (some vote, marked))
      (following : worker.state.view.next?.bind worker.state.viewLeader = some leader)
      (other : worker.state.localAuthorityId ≠ some leader) :
      CastOutcome worker proposal
        (.ok none, (worker.voting proposal vote marked).emit (.gossip (.vote vote) false))

variable [ClientForHotstuff B C]

namespace ConsensusWorker

/-- The worker after storing a proposal, with or without success. -/
def saving (worker : ConsensusWorker B C) (proposal : Proposal B) : ConsensusWorker B C :=
  { worker with client := (Synchronizer.saveProposal worker.client proposal).2 }

/-- The worker after it has handed a block to `finalize_block`. -/
def finalizing (worker : ConsensusWorker B C) (proposal parent grandpa : Proposal B)
    (block : Hash B) : ConsensusWorker B C :=
  { worker with
    client := (ClientForHotstuff.finalizeBlock worker.client block).2
    log := worker.log ++ [.finalized proposal parent grandpa block] }

end ConsensusWorker

/-- The commit rule: with its ancestors at hand, the grandparent of a proposal is
finalized if its child follows in the next view, and its block is neither empty
nor the last finalized one. -/
inductive Commits (worker : ConsensusWorker B C) (proposal : Proposal B) :
    ConsensusWorker B C → Prop where
  | orphan (reason : HotstuffError B)
      (missing : Synchronizer.getProposalAncestors worker.client proposal = .error reason) :
      Commits worker proposal worker
  | keep (parent grandpa : Proposal B) (following : ViewNumber)
      (found : Synchronizer.getProposalAncestors worker.client proposal = .ok (parent, grandpa))
      (next : grandpa.view.next? = some following)
      (declined : ¬ (parent.view = following ∧ grandpa.payload.blockHash ≠ emptyPayloadHash ∧
        grandpa.payload.blockHash ≠
          (ClientForHotstuff.info (B := B) worker.client).finalizedHash)) :
      Commits worker proposal worker
  | commit (parent grandpa : Proposal B)
      (found : Synchronizer.getProposalAncestors worker.client proposal = .ok (parent, grandpa))
      (next : grandpa.view.next? = some parent.view)
      (real : grandpa.payload.blockHash ≠ emptyPayloadHash)
      (fresh : grandpa.payload.blockHash ≠
        (ClientForHotstuff.info (B := B) worker.client).finalizedHash) :
      Commits worker proposal (worker.finalizing proposal parent grandpa grandpa.payload.blockHash)

/-- The block of a proposal is empty, or the client has it. -/
def HasPayload (worker : ConsensusWorker B C) (proposal : Proposal B) : Prop :=
  proposal.payload.blockHash = emptyPayloadHash ∨
    ClientForHotstuff.status worker.client proposal.payload.blockHash = .ok .inChain

/-- A proposal that is handled up to its QC, with the worker behind that. -/
structure Takes (worker : ConsensusWorker B C) (proposal : Proposal B)
    (accepted : ConsensusWorker B C) : Prop where
  known : HasPayload worker proposal
  verified : worker.state.verifyProposal proposal = .ok ()
  handled : HandlesQc (worker.emit (.verifiedProposal proposal)) proposal.qc accepted

inductive ProposalOutcome (worker : ConsensusWorker B C) (proposal : Proposal B) :
    Ending B C → Prop where
  | unreadable (reason : String) (real : proposal.payload.blockHash ≠ emptyPayloadHash)
      (failed : ClientForHotstuff.status worker.client proposal.payload.blockHash = .error reason) :
      ProposalOutcome worker proposal (.error (.error (.clientError reason)), worker)
  | unknown (real : proposal.payload.blockHash ≠ emptyPayloadHash)
      (absent : ClientForHotstuff.status worker.client proposal.payload.blockHash = .ok .unknown) :
      ProposalOutcome worker proposal (.ok none,
        worker.emit (.syncRequest proposal.payload.blockHash proposal.payload.blockNumber))
  | refused (fault : Fault B) (known : HasPayload worker proposal)
      (failed : worker.state.verifyProposal proposal = .error fault) :
      ProposalOutcome worker proposal (.error fault, worker)
  | overflow (known : HasPayload worker proposal)
      (verified : worker.state.verifyProposal proposal = .ok ())
      (last : Overflows worker proposal.qc.view) :
      ProposalOutcome worker proposal (.error .panic, worker.emit (.verifiedProposal proposal))
  | unsaved (accepted : ConsensusWorker B C) (reason : HotstuffError B)
      (taken : Takes worker proposal accepted)
      (failed : (Synchronizer.saveProposal accepted.client proposal).1 = .error reason) :
      ProposalOutcome worker proposal
        (.error (.error reason), (accepted.delayed proposal.tc).saving proposal)
  | lastView (accepted : ConsensusWorker B C) (parent grandpa : Proposal B)
      (taken : Takes worker proposal accepted)
      (saved : (Synchronizer.saveProposal accepted.client proposal).1 = .ok ())
      (found : Synchronizer.getProposalAncestors
        ((accepted.delayed proposal.tc).saving proposal).client proposal = .ok (parent, grandpa))
      (last : grandpa.view.next? = none) :
      ProposalOutcome worker proposal
        (.error .panic, (accepted.delayed proposal.tc).saving proposal)
  | elsewhere (accepted settled : ConsensusWorker B C) (taken : Takes worker proposal accepted)
      (saved : (Synchronizer.saveProposal accepted.client proposal).1 = .ok ())
      (commits : Commits ((accepted.delayed proposal.tc).saving proposal) proposal settled)
      (apart : proposal.view ≠ settled.state.view) :
      ProposalOutcome worker proposal (.ok none, settled)
  | reached (accepted settled : ConsensusWorker B C) (ending : Ending B C)
      (taken : Takes worker proposal accepted)
      (saved : (Synchronizer.saveProposal accepted.client proposal).1 = .ok ())
      (commits : Commits ((accepted.delayed proposal.tc).saving proposal) proposal settled)
      (current : proposal.view = settled.state.view)
      (casts : CastOutcome settled proposal ending) : ProposalOutcome worker proposal ending

def finalizedNumber (worker : ConsensusWorker B C) : Number B :=
  (ClientForHotstuff.info (B := B) worker.client).finalizedNumber

/-- The outcomes of `get_proposal_payload`. -/
inductive Offers (worker : ConsensusWorker B C) :
    Option (Payload B) → ConsensusWorker B C → Prop where
  | poisoned (lock : worker.pendingFinalizeQueue = none) : Offers worker none worker
  | pending (block : BlockInfo B) (processing : worker.processingBlock = some block)
      (above : finalizedNumber worker < block.number) :
      Offers worker (some ⟨emptyPayloadHash, block.number⟩) worker
  | found (queue : List (BlockInfo B)) (block found : BlockInfo B)
      (present : worker.pendingFinalizeQueue = some queue)
      (processing : worker.processingBlock = some block)
      (done : block.number ≤ finalizedNumber worker) (member : found ∈ queue)
      (above : finalizedNumber worker < found.number) :
      Offers worker (some ⟨found.hash.getD emptyPayloadHash, found.number⟩)
        { worker with processingBlock := some found }
  | idle (block : BlockInfo B) (processing : worker.processingBlock = some block)
      (done : block.number ≤ finalizedNumber worker) :
      Offers worker (some ⟨emptyPayloadHash, block.number⟩) worker
  | front (queue : List (BlockInfo B)) (front : BlockInfo B)
      (present : worker.pendingFinalizeQueue = some queue)
      (processing : worker.processingBlock = none) (first : queue.head? = some front) :
      Offers worker (some ⟨front.hash.getD emptyPayloadHash, front.number⟩)
        { worker with processingBlock := some front }
  | nothing (processing : worker.processingBlock = none) : Offers worker none worker

inductive GenerateOutcome (worker : ConsensusWorker B C) (tc : Option (TC B)) :
    Ending B C → Prop where
  | nothing (chosen : ConsensusWorker B C) (offers : Offers worker none chosen) :
      GenerateOutcome worker tc (.ok none, chosen)
  | unmade (chosen : ConsensusWorker B C) (payload : Payload B) (reason : HotstuffError B)
      (offers : Offers worker (some payload) chosen)
      (failed : chosen.state.makeProposal payload tc = .error reason) :
      GenerateOutcome worker tc (.error (.error reason), chosen)
  | proposed (chosen : ConsensusWorker B C) (payload : Payload B) (proposal : Proposal B)
      (offers : Offers worker (some payload) chosen)
      (made : chosen.state.makeProposal payload tc = .ok proposal) :
      GenerateOutcome worker tc (.ok (some (.proposal proposal)), chosen.proposing proposal)

/-- The hash queue behind a proposal in `handle_vote`: it is cleared first when
it has more than three entries. -/
def ConsensusWorker.pushing (worker : ConsensusWorker B C) (hash : Hash B) :
    ConsensusWorker B C :=
  { worker with proposalHashQueue :=
      (if 3 < worker.proposalHashQueue.length then [] else worker.proposalHashQueue) ++ [hash] }

/-- `handle_vote` behind a freshly formed QC. -/
inductive FormedQcOutcome (worker : ConsensusWorker B C) (qc : QC B) : Ending B C → Prop where
  | overflow (last : Overflows worker qc.view) : FormedQcOutcome worker qc (.error .panic, worker)
  | leaderless (settled : ConsensusWorker B C) (handled : HandlesQc worker qc settled)
      (nobody : settled.state.isLeader = none) :
      FormedQcOutcome worker qc (.error .panic, settled)
  | follower (settled : ConsensusWorker B C) (handled : HandlesQc worker qc settled)
      (follows : settled.state.isLeader = some false) :
      FormedQcOutcome worker qc (.ok none, settled)
  | nothing (settled chosen : ConsensusWorker B C) (handled : HandlesQc worker qc settled)
      (leads : settled.state.isLeader = some true) (offers : Offers settled none chosen) :
      FormedQcOutcome worker qc (.ok none, chosen)
  | withheld (settled chosen : ConsensusWorker B C) (payload : Payload B)
      (handled : HandlesQc worker qc settled) (leads : settled.state.isLeader = some true)
      (offers : Offers settled (some payload) chosen)
      (held : withheld payload.blockHash 0 chosen.proposalHashQueue.reverse = true) :
      FormedQcOutcome worker qc (.ok none, chosen)
  | unmade (settled chosen : ConsensusWorker B C) (payload : Payload B) (reason : HotstuffError B)
      (handled : HandlesQc worker qc settled) (leads : settled.state.isLeader = some true)
      (offers : Offers settled (some payload) chosen)
      (passed : withheld payload.blockHash 0 chosen.proposalHashQueue.reverse = false)
      (failed : chosen.state.makeProposal payload none = .error reason) :
      FormedQcOutcome worker qc (.error (.error reason), chosen.pushing payload.blockHash)
  | proposed (settled chosen : ConsensusWorker B C) (payload : Payload B) (proposal : Proposal B)
      (handled : HandlesQc worker qc settled) (leads : settled.state.isLeader = some true)
      (offers : Offers settled (some payload) chosen)
      (passed : withheld payload.blockHash 0 chosen.proposalHashQueue.reverse = false)
      (made : chosen.state.makeProposal payload none = .ok proposal) :
      FormedQcOutcome worker qc (.ok (some (.proposal proposal)),
        (chosen.pushing payload.blockHash).proposing proposal)

inductive VoteOutcome (worker : ConsensusWorker B C) (vote : Vote B) : Ending B C → Prop where
  | refused (reason : HotstuffError B) (failed : worker.state.verifyVote vote = .error reason) :
      VoteOutcome worker vote (.error (.error reason), worker)
  | uncounted (reason : HotstuffError B) (verified : worker.state.verifyVote vote = .ok ())
      (failed : (worker.state.addVote vote).1 = .error reason) :
      VoteOutcome worker vote (.error (.error reason), worker.countingVote vote)
  | counted (verified : worker.state.verifyVote vote = .ok ())
      (missed : (worker.state.addVote vote).1 = .ok none) :
      VoteOutcome worker vote (.ok none, worker.countingVote vote)
  | formed (qc : QC B) (ending : Ending B C) (verified : worker.state.verifyVote vote = .ok ())
      (formed : (worker.state.addVote vote).1 = .ok (some qc))
      (rest : FormedQcOutcome ((worker.countingVote vote).emit (.aggregatedQc qc)) qc ending) :
      VoteOutcome worker vote ending

def Outcome (worker : ConsensusWorker B C) : Call B → Ending B C → Prop
  | .localTimer => TimerOutcome worker
  | .timeout timeout => TimeoutOutcome worker timeout
  | .proposal proposal => ProposalOutcome worker proposal
  | .vote vote => VoteOutcome worker vote
  | .tc tc => TcOutcome worker tc
  | .generateProposal tc => GenerateOutcome worker tc

namespace ConsensusWorker

section Evaluation

omit [ClientForHotstuff B C]

variable {worker : ConsensusWorker B C}

@[simp] theorem emit_log (worker : ConsensusWorker B C) (event : Event B) :
    (worker.emit event).log = worker.log ++ [event] := rfl

@[simp] theorem emit_state (worker : ConsensusWorker B C) (event : Event B) :
    (worker.emit event).state = worker.state := rfl

@[simp] theorem attempt_ok (value : α) : (attempt (.ok value) : Handler B C α) worker =
    (.ok value, worker) := rfl

@[simp] theorem orPanic_none :
    (orPanic none : Handler B C α) worker = (.error .panic, worker) := rfl

@[simp] theorem orPanic_some (value : α) : (orPanic (some value) : Handler B C α) worker =
    (.ok value, worker) := rfl

@[simp] theorem record_bind (event : Event B) (rest : Unit → Handler B C α) :
    (record event >>= rest) worker = rest () (worker.emit event) := rfl

theorem isLeader_apply : isLeader worker = orPanic worker.state.isLeader worker := rfl

/-- Where the reversed comparison of `advance_view_from_target` leaves a worker
that is not past the target. -/
theorem advanceView_cases {view : ViewNumber} (reached : worker.state.view ≤ view) :
    (Overflows worker view ∧ advanceView view worker = (.error .panic, worker)) ∨
      ∃ next, Passes worker view next ∧ advanceView view worker = (.ok (), next) := by
  by_cases current : view = worker.state.view
  · subst view
    cases next : worker.state.view.next? with
    | none =>
      refine .inl ⟨⟨rfl, next⟩, ?_⟩
      simp [advanceView, bind_apply, ConsensusState.advanceViewFromTarget, next]
    | some following =>
      refine .inr ⟨_, .current following rfl next, ?_⟩
      simp [advanceView, bind_apply, ConsensusState.advanceViewFromTarget, next, record, emit,
        moved]
  · have ahead : worker.state.view < view :=
      UInt64.lt_of_le_of_ne reached fun same => current same.symm
    refine .inr ⟨_, .ahead ahead, ?_⟩
    simp [advanceView, bind_apply, ConsensusState.advanceViewFromTarget, UInt64.not_le.mpr ahead,
      record, emit, moved]

theorem handleQc_cases (qc : QC B) (worker : ConsensusWorker B C) :
    (Overflows worker qc.view ∧ handleQc qc worker = (.error .panic, worker)) ∨
      ∃ next, HandlesQc worker qc next ∧ handleQc qc worker = (.ok (), next) := by
  unfold handleQc
  rw [read_bind]
  by_cases reached : worker.state.view ≤ qc.view
  · rw [if_pos reached]
    rcases advanceView_cases reached with ⟨last, ran⟩ | ⟨next, passes, ran⟩
    · exact .inl ⟨last, bind_error ran⟩
    · rw [bind_ok ran]
      cases passes with
      | current view current following => exact .inr ⟨_, .current view current following, by
          simp [resetTimer, record, emit, moved, accepted]⟩
      | ahead ahead => exact .inr ⟨_, .ahead ahead, by
          simp [resetTimer, record, emit, moved, accepted]⟩
  · rw [if_neg reached]
    exact .inr ⟨_, .late (UInt64.not_le.mp reached), rfl⟩

theorem advanceFormedTc_cases (tc : TC B) (worker : ConsensusWorker B C) :
    (Overflows worker tc.view ∧ advanceFormedTc tc worker = (.error .panic, worker)) ∨
      ∃ next, PassesTc worker tc next ∧ advanceFormedTc tc worker = (.ok (), next) := by
  unfold advanceFormedTc
  rw [read_bind]
  by_cases reached : worker.state.view ≤ tc.view
  · rw [if_pos reached]
    rcases advanceView_cases reached with ⟨last, ran⟩ | ⟨next, passes, ran⟩
    · exact .inl ⟨last, bind_error ran⟩
    · rw [bind_ok ran]
      exact .inr ⟨_, .moved next passes, rfl⟩
  · rw [if_neg reached]
    exact .inr ⟨_, .behind (UInt64.not_le.mp reached), rfl⟩

theorem handleLocalTimer_outcome (worker : ConsensusWorker B C) :
    TimerOutcome worker (handleLocalTimer worker) := by
  have ran : handleLocalTimer worker = (attempt worker.spending.state.makeTimeout >>= fun timeout =>
      record (.timedOut timeout) >>= fun _ => gossip (.timeout timeout) true >>= fun _ =>
        pure (some (.timeout timeout))) worker.spending := rfl
  rw [ran]
  cases made : worker.spending.state.makeTimeout with
  | error reason => exact .unsigned reason made
  | ok timeout => exact .timedOut timeout made

/-- The end of a handler that goes on for the leader of its view only. -/
theorem isLeader_bind (rest : Bool → Handler B C α) :
    (isLeader >>= rest) worker =
      match worker.state.isLeader with
      | none => (.error .panic, worker)
      | some leader => rest leader worker := by
  rw [bind_apply, isLeader_apply]
  cases worker.state.isLeader with
  | none => rfl
  | some leader => rfl

theorem handleFormedTc_outcome (tc : TC B) (worker : ConsensusWorker B C) :
    FormedTcOutcome worker tc (handleFormedTc tc worker) := by
  unfold handleFormedTc
  rcases advanceFormedTc_cases tc worker with ⟨last, ran⟩ | ⟨passed, passes, ran⟩
  · rw [bind_error ran]
    exact .overflow last
  · rw [bind_ok ran, gossip, record_bind, isLeader_bind]
    cases leads : passed.state.isLeader with
    | none => 
      simp only [emit_state, leads]
      exact .leaderless passed passes leads
    | some leader =>
      cases leader with
      | false => 
        simp only [emit_state, leads]
        exact .follower passed passes leads
      | true => 
        simp only [emit_state, leads]
        exact .leader passed passes leads

theorem addTimeout_apply {timeout : Timeout B} :
    addTimeout timeout worker =
      match (worker.state.addTimeout timeout).1 with
      | .error reason => (.error (.error reason), worker.countingTimeout timeout)
      | .ok none => (.ok none, worker.countingTimeout timeout)
      | .ok (some tc) =>
        (.ok (some tc), (worker.countingTimeout timeout).emit (.aggregatedTc tc)) := by
  rw [addTimeout, bind_apply, onState]
  rcases (worker.state.addTimeout timeout).1 with _ | _ | tc
  · rfl
  · rfl
  · rfl

theorem addVote_apply {vote : Vote B} :
    addVote vote (worker.emit (.verifiedVote vote)) =
      match (worker.state.addVote vote).1 with
      | .error reason => (.error (.error reason), worker.countingVote vote)
      | .ok none => (.ok none, worker.countingVote vote)
      | .ok (some qc) => (.ok (some qc), (worker.countingVote vote).emit (.aggregatedQc qc)) := by
  rw [addVote, bind_apply, onState, emit_state]
  rcases (worker.state.addVote vote).1 with _ | _ | qc
  · rfl
  · rfl
  · rfl

theorem handleTimeout_outcome (timeout : Timeout B) (worker : ConsensusWorker B C) :
    TimeoutOutcome worker timeout (handleTimeout timeout worker) := by
  unfold handleTimeout
  rw [read_bind]
  by_cases late : timeout.view < worker.state.view
  · rw [if_pos late]
    exact .late late
  · rw [if_neg late]
    have reached := UInt64.not_lt.mp late
    cases verified : worker.state.verifyTimeout timeout with
    | error reason => exact .refused reason reached verified
    | ok value =>
      rw [bind_ok (attempt_ok value), record_bind]
      rcases handleQc_cases timeout.highQc (worker.emit (.verifiedTimeout timeout)) with
        ⟨last, ran⟩ | ⟨accepted, handled, ran⟩
      · rw [bind_error ran]
        exact .overflow reached verified last
      · have hears : Hears worker timeout accepted := ⟨reached, verified, handled⟩
        rw [bind_ok ran, bind_apply, addTimeout_apply]
        rcases counted : (accepted.state.addTimeout timeout).1 with reason | _ | tc
        · exact .uncounted accepted reason hears counted
        · exact .counted accepted hears counted
        · exact .formed accepted tc _ hears counted (handleFormedTc_outcome tc _)

theorem handleTc_outcome (tc : TC B) (worker : ConsensusWorker B C) :
    TcOutcome worker tc (handleTc tc worker) := by
  unfold handleTc
  rw [read_bind]
  cases verified : worker.state.verifyTc tc with
  | error reason => exact .refused reason verified
  | ok value =>
    have reached : (worker.emit (.verifiedTc tc)).state.view ≤ tc.view :=
      (ConsensusState.verifyTc_ok_iff.mp verified).1
    rw [bind_ok (attempt_ok value), record_bind]
    rcases advanceView_cases reached with ⟨last, ran⟩ | ⟨passed, passes, ran⟩
    · rw [bind_error ran]
      exact .overflow verified last
    · rw [bind_ok ran, resetTimer, record_bind, update_bind, isLeader_bind]
      rcases leads : passed.state.isLeader with _ | _ | _
      · simp only [emit_state, leads]
        exact .leaderless passed verified passes leads
      · simp only [emit_state, leads]
        exact .follower passed verified passes leads
      · simp only [emit_state, leads]
        exact .leader passed verified passes leads

theorem castVote_outcome (proposal : Proposal B) (worker : ConsensusWorker B C) :
    CastOutcome worker proposal (castVote proposal worker) := by
  rcases made : worker.state.makeVote proposal with ⟨vote, marked⟩
  cases vote with
  | none =>
    have ran : makeVote proposal worker = (.ok none, { worker with state := marked }) := by
      simp [makeVote, made]
    rw [castVote, read_bind, bind_ok ran]
    exact .unmade marked made
  | some vote =>
    have ran : makeVote proposal worker = (.ok (some vote),
        { worker with state := marked }.emit (.voted worker.state.view proposal vote)) := by
      simp [makeVote, made]
    rw [castVote, read_bind, bind_ok ran]
    dsimp only
    rw [update_bind]
    cases next : worker.state.view.next? with
    | none => exact .stranded vote marked made (by rw [next]; rfl)
    | some following =>
      rw [bind_ok (orPanic_some following)]
      cases found : worker.state.viewLeader following with
      | none => exact .stranded vote marked made (by rw [next]; exact found)
      | some leader =>
        rw [bind_ok (orPanic_some leader)]
        have follows : worker.state.view.next?.bind worker.state.viewLeader = some leader := by
          rw [next]
          exact found
        by_cases leads : worker.state.localAuthorityId = some leader
        · rw [if_pos leads]
          exact .own vote marked leader made follows leads
        · rw [if_neg leads]
          exact .sent vote marked leader made follows leads

theorem handleProposalTc_apply (tc : Option (TC B)) :
    handleProposalTc tc worker = (.ok (), worker.delayed tc) := by
  cases tc with
  | none => rfl
  | some tc =>
    by_cases above : worker.state.view < tc.view
    · rcases advanceView_cases (UInt64.le_of_lt above) with ⟨⟨same, _⟩, _⟩ | ⟨next, passes, ran⟩
      · exact absurd same.symm (UInt64.ne_of_lt above)
      · cases passes with
        | current following same _ => exact absurd same.symm (UInt64.ne_of_lt above)
        | ahead _ =>
          simp [handleProposalTc, delayed, aheadOf, above, bind_ok ran, resetTimer, record]
    · simp [handleProposalTc, delayed, aheadOf, above]

theorem propose_apply (payload : Payload B) (tc : Option (TC B)) :
    propose payload tc worker =
      match worker.state.makeProposal payload tc with
      | .error reason => (.error (.error reason), worker)
      | .ok proposal => (.ok (some (.proposal proposal)), worker.proposing proposal) := by
  rw [propose, read_bind]
  cases worker.state.makeProposal payload tc with
  | error reason => rfl
  | ok proposal => rfl

end Evaluation

theorem getProposalPayload_offers (worker : ConsensusWorker B C) :
    ∃ payload next, getProposalPayload worker = (.ok payload, next) ∧
      Offers worker payload next := by
  simp only [getProposalPayload, read_bind]
  cases present : worker.pendingFinalizeQueue with
  | none => exact ⟨_, _, rfl, .poisoned present⟩
  | some queue =>
    cases processing : worker.processingBlock with
    | none =>
      dsimp only
      cases first : queue.head? with
      | none => exact ⟨_, _, rfl, .nothing processing⟩
      | some front => exact ⟨_, _, rfl, .front queue front present processing first⟩
    | some block =>
      dsimp only
      by_cases above : finalizedNumber worker < block.number
      · have taken : (ClientForHotstuff.info (B := B) worker.client).finalizedNumber <
            block.number := above
        simp only [taken, ↓reduceIte]
        exact ⟨_, _, rfl, .pending block processing above⟩
      · have skipped : ¬ (ClientForHotstuff.info (B := B) worker.client).finalizedNumber <
            block.number := above
        have done : block.number ≤ finalizedNumber worker := BitVec.not_lt.mp above
        simp only [skipped, ↓reduceIte]
        cases search : queue.find? fun elem =>
            decide ((ClientForHotstuff.info (B := B) worker.client).finalizedNumber <
              elem.number) with
        | none => exact ⟨_, _, rfl, .idle block processing done⟩
        | some found =>
          have passed := List.find?_some search
          exact ⟨_, _, rfl, .found queue block found present processing done
            (List.mem_of_find?_eq_some search) (of_decide_eq_true passed)⟩

theorem generateProposal_outcome (tc : Option (TC B)) (worker : ConsensusWorker B C) :
    GenerateOutcome worker tc (generateProposal tc worker) := by
  obtain ⟨payload, chosen, ran, offers⟩ := getProposalPayload_offers worker
  rw [generateProposal, bind_ok ran]
  cases payload with
  | none => exact .nothing chosen offers
  | some payload =>
    dsimp only
    rw [propose_apply]
    cases made : chosen.state.makeProposal payload tc with
    | error reason => exact .unmade chosen payload reason offers made
    | ok proposal => exact .proposed chosen payload proposal offers made

theorem handleFormedQc_outcome (qc : QC B) (worker : ConsensusWorker B C) :
    FormedQcOutcome worker qc (handleFormedQc qc worker) := by
  unfold handleFormedQc
  rcases handleQc_cases qc worker with ⟨last, ran⟩ | ⟨settled, handled, ran⟩
  · rw [bind_error ran]
    exact .overflow last
  · rw [bind_ok ran, isLeader_bind]
    rcases leads : settled.state.isLeader with _ | _ | _
    · exact .leaderless settled handled leads
    · exact .follower settled handled leads
    · obtain ⟨payload, chosen, picked, offers⟩ := getProposalPayload_offers settled
      simp only [↓reduceIte]
      rw [bind_ok picked]
      cases payload with
      | none => exact .nothing settled chosen handled leads offers
      | some payload =>
        dsimp only
        rw [read_bind]
        cases held : withheld payload.blockHash 0 chosen.proposalHashQueue.reverse with
        | true => exact .withheld settled chosen payload handled leads offers held
        | false =>
          simp only [Bool.false_eq_true, ↓reduceIte]
          rw [update_bind]
          change FormedQcOutcome worker qc (propose payload none (chosen.pushing payload.blockHash))
          rw [propose_apply]
          cases made : chosen.state.makeProposal payload none with
          | error reason =>
            have same : (chosen.pushing payload.blockHash).state.makeProposal payload none =
              .error reason := made
            rw [same]
            exact .unmade settled chosen payload reason handled leads offers held made
          | ok proposal =>
            have same : (chosen.pushing payload.blockHash).state.makeProposal payload none =
              .ok proposal := made
            rw [same]
            exact .proposed settled chosen payload proposal handled leads offers held made

theorem handleVote_outcome (vote : Vote B) (worker : ConsensusWorker B C) :
    VoteOutcome worker vote (handleVote vote worker) := by
  unfold handleVote
  rw [read_bind]
  cases verified : worker.state.verifyVote vote with
  | error reason => exact .refused reason verified
  | ok value =>
    rw [bind_ok (attempt_ok value), record_bind, bind_apply, addVote_apply]
    rcases counted : (worker.state.addVote vote).1 with reason | _ | qc
    · exact .uncounted reason verified counted
    · exact .counted verified counted
    · exact .formed qc _ verified counted (handleFormedQc_outcome qc _)

theorem payloadUnknown_known {worker : ConsensusWorker B C} {proposal : Proposal B}
    (known : HasPayload worker proposal) :
    payloadUnknown proposal worker = (.ok false, worker) := by
  rcases known with empty | known
  · simp [payloadUnknown, empty]
  · simp [payloadUnknown, known]

theorem saveProposal_apply (proposal : Proposal B) (worker : ConsensusWorker B C) :
    saveProposal proposal worker =
      ((Synchronizer.saveProposal worker.client proposal).1.mapError .error,
        worker.saving proposal) := rfl

/-- The commit rule panics where the grandparent is of the last view. -/
theorem finalizeGrandpa_cases (proposal : Proposal B) (worker : ConsensusWorker B C) :
    (∃ parent grandpa,
      Synchronizer.getProposalAncestors worker.client proposal = .ok (parent, grandpa) ∧
        grandpa.view.next? = none ∧ finalizeGrandpa proposal worker = (.error .panic, worker)) ∨
      ∃ next, Commits worker proposal next ∧ finalizeGrandpa proposal worker = (.ok (), next) := by
  unfold finalizeGrandpa
  rw [read_bind]
  rcases found : Synchronizer.getProposalAncestors worker.client proposal with
    reason | ⟨parent, grandpa⟩
  · exact .inr ⟨_, .orphan reason found, rfl⟩
  · dsimp only
    cases next : grandpa.view.next? with
    | none => exact .inl ⟨parent, grandpa, rfl, next, rfl⟩
    | some following =>
      rw [bind_ok (orPanic_some following)]
      split
      · rename_i commits
        obtain ⟨same, real, fresh⟩ := commits
        rw [← same] at next
        exact .inr ⟨_, .commit parent grandpa found next real fresh, rfl⟩
      · rename_i declined
        exact .inr ⟨_, .keep parent grandpa following found next declined, rfl⟩

omit [ClientForHotstuff B C] in
theorem delayed_client (tc : Option (TC B)) (worker : ConsensusWorker B C) :
    (worker.delayed tc).client = worker.client := by
  unfold delayed
  split
  · rfl
  · rfl

/-- `handle_proposal` behind its QC. -/
theorem finishProposal_outcome {worker accepted : ConsensusWorker B C} {proposal : Proposal B}
    (taken : Takes worker proposal accepted) :
    ProposalOutcome worker proposal ((saveProposal proposal >>= fun _ =>
      finalizeGrandpa proposal >>= fun _ => Command.read >>= fun now =>
        if proposal.view = now.state.view then castVote proposal else pure none)
      (accepted.delayed proposal.tc)) := by
  have client := delayed_client proposal.tc accepted
  rw [bind_apply, saveProposal_apply, client]
  cases saved : (Synchronizer.saveProposal accepted.client proposal).1 with
  | error reason => exact .unsaved accepted reason taken saved
  | ok value =>
    change ProposalOutcome worker proposal ((finalizeGrandpa proposal >>= _) _)
    rcases finalizeGrandpa_cases proposal ((accepted.delayed proposal.tc).saving proposal) with
      ⟨parent, grandpa, found, last, ran⟩ | ⟨settled, commits, ran⟩
    · rw [bind_error ran]
      exact .lastView accepted parent grandpa taken saved found last
    · rw [bind_ok ran, read_bind]
      by_cases current : proposal.view = settled.state.view
      · rw [if_pos current]
        exact .reached accepted settled _ taken saved commits current
          (castVote_outcome proposal settled)
      · rw [if_neg current]
        exact .elsewhere accepted settled taken saved commits current

theorem handleProposal_outcome (proposal : Proposal B) (worker : ConsensusWorker B C) :
    ProposalOutcome worker proposal (handleProposal proposal worker) := by
  unfold handleProposal
  by_cases known : HasPayload worker proposal
  · rw [bind_ok (payloadUnknown_known known)]
    simp only [Bool.false_eq_true, ↓reduceIte]
    rw [read_bind]
    cases verified : worker.state.verifyProposal proposal with
    | error fault => exact .refused fault known verified
    | ok value =>
      rw [bind_ok (check_apply _ _), record_bind]
      rcases handleQc_cases proposal.qc (worker.emit (.verifiedProposal proposal)) with
        ⟨last, ran⟩ | ⟨accepted, handled, ran⟩
      · rw [bind_error ran]
        exact .overflow known verified last
      · rw [bind_ok ran, bind_ok (handleProposalTc_apply _)]
        exact finishProposal_outcome ⟨known, verified, handled⟩
  · obtain ⟨real, absent⟩ := not_or.mp known
    rcases status : ClientForHotstuff.status worker.client proposal.payload.blockHash with
      reason | _ | _
    · have ran : payloadUnknown proposal worker =
          (.error (.error (.clientError reason)), worker) := by
        simp [payloadUnknown, real, status, Command.fail]
      rw [bind_error ran]
      exact .unreadable reason real status
    · exact absurd status absent
    · have ran : payloadUnknown proposal worker = (.ok true, worker.emit
          (.syncRequest proposal.payload.blockHash proposal.payload.blockNumber)) := by
        simp [payloadUnknown, real, status, record]
      rw [bind_ok ran]
      exact .unknown real status

theorem handle_outcome (call : Call B) (worker : ConsensusWorker B C) :
    Outcome worker call (handle call worker) := by
  cases call with
  | localTimer => exact handleLocalTimer_outcome worker
  | timeout timeout => exact handleTimeout_outcome timeout worker
  | proposal proposal => exact handleProposal_outcome proposal worker
  | vote vote => exact handleVote_outcome vote worker
  | tc tc => exact handleTc_outcome tc worker
  | generateProposal tc => exact generateProposal_outcome tc worker

end ConsensusWorker

end Hotstuff
