import Hotstuff.Lib.Command
import Hotstuff.Consensus.State
import Hotstuff.Consensus.Store

/-! `ConsensusWorker` of `consensus/src/consensus.rs`. Every recursive call of
the handlers is the last thing its caller does before `Ok(())`, so a handler
returns the call it ends with, and `Replica` runs the calls one after another. -/

namespace Hotstuff

structure BlockInfo (B : Type) [BlockT B] where
  hash : Option (Hash B)
  number : Number B
deriving DecidableEq

/-- What a worker does, in order: the messages, requests and timer resets it
emits, and the checks and decisions the specifications speak about. The code
never reads its own trace. -/
inductive Event (B : Type) [BlockT B] where
  | localTimer (view : ViewNumber)
  | resetTimer
  | syncRequest (hash : Hash B) (number : Number B)
  | gossip (message : ConsensusMessage B) (force : Bool)
  | verifiedProposal (proposal : Proposal B)
  | verifiedVote (vote : Vote B)
  | verifiedTimeout (timeout : Timeout B)
  | verifiedTc (tc : TC B)
  | acceptedQc (qc : QC B)
  | aggregatedQc (qc : QC B)
  | aggregatedTc (tc : TC B)
  | advanced (source target : ViewNumber)
  | timedOut (timeout : Timeout B)
  | voted (view : ViewNumber) (proposal : Proposal B) (vote : Vote B)
  | proposed (proposal : Proposal B)
  | finalized (proposal parent grandpa : Proposal B) (block : Hash B)
deriving DecidableEq

/-- The worker with its client and its half of the network. `network` is the
view of the gossip validator, and a poisoned queue lock is `none`. -/
structure ConsensusWorker (B C : Type) [BlockT B] where
  state : ConsensusState B
  network : ViewNumber
  client : C
  processingBlock : Option (BlockInfo B)
  pendingFinalizeQueue : Option (List (BlockInfo B))
  proposalHashQueue : List (Hash B)
  log : List (Event B)

/-- The handlers and the calls between them. -/
inductive Call (B : Type) [BlockT B] where
  | localTimer
  | timeout (timeout : Timeout B)
  | proposal (proposal : Proposal B)
  | vote (vote : Vote B)
  | tc (tc : TC B)
  | generateProposal (tc : Option (TC B))
deriving DecidableEq

abbrev Handler (B C : Type) [BlockT B] (α : Type) :=
  Command (Fault B) (ConsensusWorker B C) α

namespace ConsensusWorker

variable {B C : Type} [BlockT B] {α : Type}

def new (state : ConsensusState B) (client : C) (queue : Option (List (BlockInfo B))) :
    ConsensusWorker B C :=
  { state, network := 0, client, processingBlock := queue.bind List.head?,
    pendingFinalizeQueue := queue, proposalHashQueue := [], log := [] }

def emit (worker : ConsensusWorker B C) (event : Event B) : ConsensusWorker B C :=
  { worker with log := worker.log ++ [event] }

def record (event : Event B) : Handler B C Unit :=
  Command.update fun worker => worker.emit event

def resetTimer : Handler B C Unit := record .resetTimer

def gossip (message : ConsensusMessage B) (force : Bool) : Handler B C Unit :=
  record (.gossip message force)

/-- A result of the source, propagated with the question mark operator. -/
def attempt (result : Except (HotstuffError B) α) : Handler B C α :=
  Command.check (result.mapError .error)

def orPanic (result : Option α) : Handler B C α :=
  Command.check (match result with | some value => .ok value | none => .error .panic)

/-- Run a method of the consensus state, keeping the state it leaves. -/
def onState (method : ConsensusState B → Except (HotstuffError B) α × ConsensusState B) :
    Handler B C α := fun worker =>
  ((method worker.state).1.mapError .error, { worker with state := (method worker.state).2 })

def advanceView (view : ViewNumber) : Handler B C Unit := do
  let worker ← Command.read
  let state ← orPanic (worker.state.advanceViewFromTarget view)
  Command.update fun worker => { worker with state, network := state.view }
  record (.advanced worker.state.view state.view)

def handleQc (qc : QC B) : Handler B C Unit := do
  let worker ← Command.read
  if worker.state.view ≤ qc.view then do
    advanceView qc.view
    Command.update fun worker => { worker with state := worker.state.updateHighQc qc }
    resetTimer
    record (.acceptedQc qc)
  else record (.acceptedQc qc)

def addTimeout (timeout : Timeout B) : Handler B C (Option (TC B)) := do
  let tc ← onState fun state => state.addTimeout timeout
  match tc with
  | none => pure none
  | some tc => do
    record (.aggregatedTc tc)
    pure (some tc)

def addVote (vote : Vote B) : Handler B C (Option (QC B)) := do
  let qc ← onState fun state => state.addVote vote
  match qc with
  | none => pure none
  | some qc => do
    record (.aggregatedQc qc)
    pure (some qc)

def isLeader : Handler B C Bool := do
  let worker ← Command.read
  orPanic worker.state.isLeader

/-- Sign a proposal for the current view and gossip it. -/
def propose (payload : Payload B) (tc : Option (TC B)) : Handler B C (Option (Call B)) := do
  let worker ← Command.read
  let proposal ← attempt (worker.state.makeProposal payload tc)
  record (.proposed proposal)
  gossip (.propose proposal) false
  pure (some (.proposal proposal))

def handleLocalTimer : Handler B C (Option (Call B)) := do
  resetTimer
  Command.update fun worker => { worker with state := worker.state.increaseLastVotedView }
  let worker ← Command.read
  record (.localTimer worker.state.view)
  let timeout ← attempt worker.state.makeTimeout
  record (.timedOut timeout)
  gossip (.timeout timeout) true
  pure (some (.timeout timeout))

def advanceFormedTc (tc : TC B) : Handler B C Unit := do
  let worker ← Command.read
  if worker.state.view ≤ tc.view then do
    advanceView tc.view
    resetTimer
  else pure ()

/-- The part of `handle_timeout` behind a freshly formed certificate. -/
def handleFormedTc (tc : TC B) : Handler B C (Option (Call B)) := do
  advanceFormedTc tc
  gossip (.tc tc) true
  let leader ← isLeader
  if leader then do
    Command.update fun worker => { worker with processingBlock := none }
    pure (some (.generateProposal (some tc)))
  else pure none

def handleTimeout (timeout : Timeout B) : Handler B C (Option (Call B)) := do
  let worker ← Command.read
  if timeout.view < worker.state.view then pure none
  else do
    attempt (worker.state.verifyTimeout timeout)
    record (.verifiedTimeout timeout)
    handleQc timeout.highQc
    let tc ← addTimeout timeout
    match tc with
    | none => pure none
    | some tc => handleFormedTc tc

def handleTc (tc : TC B) : Handler B C (Option (Call B)) := do
  let worker ← Command.read
  attempt (worker.state.verifyTc tc)
  record (.verifiedTc tc)
  advanceView tc.view
  resetTimer
  Command.update fun worker => { worker with processingBlock := none }
  let leader ← isLeader
  if leader then pure (some (.generateProposal none)) else pure none

def makeVote (proposal : Proposal B) : Handler B C (Option (Vote B)) := fun worker =>
  let voting := worker.state.makeVote proposal
  match voting.1 with
  | none => (.ok none, { worker with state := voting.2 })
  | some vote =>
    (.ok (some vote),
      { worker with state := voting.2 }.emit (.voted worker.state.view proposal vote))

/-- The vote is made, and with it the hash queue and the processing block move
on; a vote for oneself is handled directly, any other one is gossiped. -/
def castVote (proposal : Proposal B) : Handler B C (Option (Call B)) := do
  let worker ← Command.read
  let vote ← makeVote proposal
  match vote with
  | none => pure none
  | some vote => do
    Command.update fun worker => { worker with
      proposalHashQueue := worker.proposalHashQueue ++ [proposal.payload.blockHash]
      processingBlock := some ⟨some proposal.payload.blockHash, proposal.payload.blockNumber⟩ }
    let following ← orPanic worker.state.view.next?
    let leader ← orPanic (worker.state.viewLeader following)
    if worker.state.localAuthorityId = some leader then pure (some (.vote vote))
    else do
      gossip (.vote vote) false
      pure none

/-- The unsigned TC of a proposal. -/
def handleProposalTc (tc : Option (TC B)) : Handler B C Unit := do
  match tc with
  | none => pure ()
  | some tc => do
    let worker ← Command.read
    if worker.state.view < tc.view then do
      advanceView tc.view
      resetTimer
    else pure ()

variable [ClientForHotstuff B C]

def getProposalPayload : Handler B C (Option (Payload B)) := do
  let worker ← Command.read
  let finalized := (ClientForHotstuff.info (B := B) worker.client).finalizedNumber
  match worker.pendingFinalizeQueue with
  | none => pure none
  | some queue =>
    match worker.processingBlock with
    | some processing =>
      if finalized < processing.number then pure (some ⟨emptyPayloadHash, processing.number⟩)
      else
        match queue.find? fun elem => decide (finalized < elem.number) with
        | some found => do
          Command.update fun worker => { worker with processingBlock := some found }
          pure (some ⟨found.hash.getD emptyPayloadHash, found.number⟩)
        | none => pure (some ⟨emptyPayloadHash, processing.number⟩)
    | none =>
      match queue.head? with
      | some info => do
        Command.update fun worker => { worker with processingBlock := some info }
        pure (some ⟨info.hash.getD emptyPayloadHash, info.number⟩)
      | none => pure none

def generateProposal (tc : Option (TC B)) : Handler B C (Option (Call B)) := do
  let payload ← getProposalPayload
  match payload with
  | none => pure none
  | some payload => propose payload tc

/-- The loop over the tail of the hash queue: the second empty payload in a
row withholds a third one. -/
def withheld (payload : Hash B) (count : Nat) : List (Hash B) → Bool
  | [] => false
  | item :: rest =>
    if item = emptyPayloadHash then
      if count + 1 = 2 ∧ payload = emptyPayloadHash then true
      else withheld payload (count + 1) rest
    else false

/-- The part of `handle_vote` behind a freshly formed certificate. -/
def handleFormedQc (qc : QC B) : Handler B C (Option (Call B)) := do
  handleQc qc
  let leader ← isLeader
  if leader then do
    let payload ← getProposalPayload
    match payload with
    | none => pure none
    | some payload => do
      let worker ← Command.read
      if withheld payload.blockHash 0 worker.proposalHashQueue.reverse then pure none
      else do
        let kept := if 3 < worker.proposalHashQueue.length then [] else worker.proposalHashQueue
        Command.update fun worker =>
          { worker with proposalHashQueue := kept ++ [payload.blockHash] }
        propose payload none
  else pure none

def handleVote (vote : Vote B) : Handler B C (Option (Call B)) := do
  let worker ← Command.read
  attempt (worker.state.verifyVote vote)
  record (.verifiedVote vote)
  let qc ← addVote vote
  match qc with
  | none => pure none
  | some qc => handleFormedQc qc

/-- The block of a proposal is looked up before anything is verified; an
unknown one is requested from the network, and the proposal is dropped. -/
def payloadUnknown (proposal : Proposal B) : Handler B C Bool := do
  let worker ← Command.read
  if proposal.payload.blockHash = emptyPayloadHash then pure false
  else
    match ClientForHotstuff.status worker.client proposal.payload.blockHash with
    | .error reason => Command.fail (.error (.clientError reason))
    | .ok .unknown => do
      record (.syncRequest proposal.payload.blockHash proposal.payload.blockNumber)
      pure true
    | .ok .inChain => pure false

def saveProposal (proposal : Proposal B) : Handler B C Unit := fun worker =>
  ((Synchronizer.saveProposal worker.client proposal).1.mapError .error,
    { worker with client := (Synchronizer.saveProposal worker.client proposal).2 })

/-- Hand a block to `finalize_block` of the client, which is what the event of a
finalization records. Its error is only logged. -/
def finalizeBlock (proposal parent grandpa : Proposal B) (block : Hash B) : Handler B C Unit :=
  Command.update fun worker => { worker with
    client := (ClientForHotstuff.finalizeBlock worker.client block).2
    log := worker.log ++ [.finalized proposal parent grandpa block] }

/-- The commit rule. Errors of the lookups are only logged too, while an overflow
of `grandpa.view + 1` is a panic. -/
def finalizeGrandpa (proposal : Proposal B) : Handler B C Unit := do
  let worker ← Command.read
  match Synchronizer.getProposalAncestors worker.client proposal with
  | .error _ => pure ()
  | .ok (parent, grandpa) => do
    let following ← orPanic grandpa.view.next?
    if parent.view = following ∧ grandpa.payload.blockHash ≠ emptyPayloadHash ∧
        grandpa.payload.blockHash ≠
          (ClientForHotstuff.info (B := B) worker.client).finalizedHash then
      finalizeBlock proposal parent grandpa grandpa.payload.blockHash
    else pure ()

def handleProposal (proposal : Proposal B) : Handler B C (Option (Call B)) := do
  let unknown ← payloadUnknown proposal
  if unknown then pure none
  else do
    let worker ← Command.read
    Command.check (worker.state.verifyProposal proposal)
    record (.verifiedProposal proposal)
    handleQc proposal.qc
    handleProposalTc proposal.tc
    saveProposal proposal
    finalizeGrandpa proposal
    let worker ← Command.read
    if proposal.view = worker.state.view then castVote proposal else pure none

/-- One handler, up to the call it ends with. -/
def handle : Call B → Handler B C (Option (Call B))
  | .localTimer => handleLocalTimer
  | .timeout timeout => handleTimeout timeout
  | .proposal proposal => handleProposal proposal
  | .vote vote => handleVote vote
  | .tc tc => handleTc tc
  | .generateProposal tc => generateProposal tc

end ConsensusWorker

end Hotstuff
