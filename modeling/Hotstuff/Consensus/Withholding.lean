import Mathlib.Data.List.Chain
import Hotstuff.Consensus.Finality
import Hotstuff.Consensus.Payload

/-! What two empty payloads at the end of the queue of hashes stand for. An own
proposal is in the queue twice, as proposed and as voted for. Behind the last own
proposal every entry stands for one vote, and two empty ones that extend a block
have finalized it. -/

namespace Hotstuff

open ConsensusWorker

variable {B C : Type} [BlockT B]

/-- The votes since the last own proposal, with one more event. -/
def Event.recent (votes : List (Proposal B)) : Event B → List (Proposal B)
  | .voted _ proposal _ => votes ++ [proposal]
  | .proposed _ => []
  | _ => votes

/-- The proposals voted for since the last own proposal. -/
def recentVotes (log : List (Event B)) : List (Proposal B) :=
  log.foldl Event.recent []

theorem recentVotes_concat (log : List (Event B)) (event : Event B) :
    recentVotes (log ++ [event]) = event.recent (recentVotes log) := by
  simp [recentVotes]

theorem votedProposals_concat (log : List (Event B)) (event : Event B) :
    votedProposals (log ++ [event]) = votedProposals log ++ event.votedProposal?.toList := by
  rw [votedProposals, List.filterMap_append]
  cases found : event.votedProposal? <;> simp [votedProposals, found]

theorem recentVotes_suffix (log : List (Event B)) : recentVotes log <:+ votedProposals log := by
  induction log using List.reverseRecOn with
  | nil => exact List.suffix_refl []
  | append_singleton log event ih =>
    rw [recentVotes_concat, votedProposals_concat]
    cases event with
    | voted view proposal vote =>
      obtain ⟨older, split⟩ := ih
      exact ⟨older, by simp [Event.recent, Event.votedProposal?, ← split]⟩
    | proposed proposal => exact List.nil_suffix
    | _ => simpa [Event.recent, Event.votedProposal?] using ih

theorem Quietly.recent {log longer : List (Event B)} (quiet : Quietly log longer) :
    recentVotes longer = recentVotes log := by
  obtain ⟨events, rfl, silent⟩ := quiet
  induction events using List.reverseRecOn with
  | nil => simp
  | append_singleton events event ih =>
    rw [← List.append_assoc, recentVotes_concat,
      ih fun other member => silent other (List.mem_append_left _ member)]
    have still := silent event (by simp)
    cases event with
    | voted view proposal vote => cases still.1
    | proposed proposal => cases still.2
    | _ => rfl

/-- A proposal of the empty payload that extends another one in the view behind it,
with the same block number. -/
structure Extends (parent proposal : Proposal B) : Prop where
  linked : proposal.qc.proposalHash = parent.digest
  next : parent.view.next? = some proposal.view
  payload : proposal.payload = ⟨emptyPayloadHash, parent.payload.blockNumber⟩

/-- Each empty proposal extends the one before it. -/
def Threads (proposals : List (Proposal B)) : Prop :=
  proposals.IsChain fun parent proposal =>
    proposal.payload.blockHash = emptyPayloadHash → Extends parent proposal

/-- A block and two empty proposals that extend it, one after another. -/
structure Window (voted : List (Proposal B)) (block parent proposal : Proposal B) : Prop where
  within : ∃ older later, voted = older ++ block :: parent :: proposal :: later
  real : block.payload.blockHash ≠ emptyPayloadHash
  first : Extends block parent
  second : Extends parent proposal

theorem Window.grow {voted : List (Proposal B)} {block parent proposal : Proposal B}
    (window : Window voted block parent proposal) (older later : List (Proposal B)) :
    Window (older ++ voted ++ later) block parent proposal := by
  obtain ⟨front, back, rfl⟩ := window.within
  exact ⟨⟨older ++ front, back ++ later, by simp⟩, window.real, window.first, window.second⟩

/-- With one more vote the window is an old one, or ends with that vote. -/
theorem Window.of_concat {voted : List (Proposal B)} {block parent proposal last : Proposal B}
    (window : Window (voted ++ [last]) block parent proposal) :
    Window voted block parent proposal ∨ (proposal = last ∧ block ∈ voted ∧ parent ∈ voted) := by
  obtain ⟨older, later, split⟩ := window.within
  rcases List.eq_nil_or_concat later with rfl | ⟨front, end_, rfl⟩
  · have same : voted ++ [last] = (older ++ [block, parent]) ++ [proposal] := by simp [split]
    obtain ⟨rfl, ended⟩ := List.append_inj' same rfl
    cases ended
    exact .inr ⟨rfl, by simp, by simp⟩
  · have same : voted ++ [last] = (older ++ block :: parent :: proposal :: front) ++ [end_] := by
      simp [split]
    obtain ⟨rfl, _⟩ := List.append_inj' same rfl
    exact .inl ⟨⟨older, front, rfl⟩, window.real, window.first, window.second⟩

/-- Two empty proposals at the end lead back to a block with the same number. -/
theorem Threads.window {block previous last : Proposal B} {front : List (Proposal B)}
    (threads : Threads (front ++ [previous, last])) (starts : front.head? = some block)
    (real : block.payload.blockHash ≠ emptyPayloadHash)
    (previousEmpty : previous.payload.blockHash = emptyPayloadHash)
    (lastEmpty : last.payload.blockHash = emptyPayloadHash) :
    ∃ block parent proposal, Window (front ++ [previous, last]) block parent proposal ∧
      last.payload.blockNumber = block.payload.blockNumber := by
  induction front using List.reverseRecOn generalizing previous last with
  | nil => cases starts
  | append_singleton front middle ih =>
    have split : front ++ [middle] ++ [previous, last] = front ++ [middle, previous] ++ [last] := by
      simp
    have ends : Threads [middle, previous, last] := by
      rw [Threads, List.append_assoc] at threads
      exact threads.right_of_append
    simp only [Threads, List.isChain_cons_cons, List.isChain_singleton, and_true] at ends
    have first := ends.1 previousEmpty
    have second := ends.2 lastEmpty
    -- The window starts here unless this proposal is empty too; then it is further back.
    by_cases empty : middle.payload.blockHash = emptyPayloadHash
    · have longer : front.head? = some block := by
        cases front with
        | nil =>
          cases starts
          exact absurd empty real
        | cons head rest => exact starts
      rw [split] at threads ⊢
      obtain ⟨base, parent, proposal, window, number⟩ :=
        ih (List.IsChain.left_of_append threads) longer empty previousEmpty
      refine ⟨base, parent, proposal, window.grow [] [last], ?_⟩
      rw [second.payload]
      exact number
    · refine ⟨middle, previous, last, ⟨⟨front, [], by simp⟩, empty, first, second⟩, ?_⟩
      rw [second.payload, first.payload]

variable [ClientForHotstuff B C]

/-- Every vote is for a stored proposal, the last entries of the queue of hashes
are those of the votes since the last own proposal, and the block that is being
processed is that of the last of these votes. -/
structure Tracked (worker : ConsensusWorker B C) : Prop where
  stored : ∀ proposal ∈ votedProposals worker.log,
    (ClientForHotstuff.aux (B := B) worker.client proposal.digest).isSome
  queued : (recentVotes worker.log).map (fun proposal => proposal.payload.blockHash) <:+
    worker.proposalHashQueue
  processing : ∀ block last, worker.processingBlock = some block →
    (recentVotes worker.log).getLast? = some last → block.number = last.payload.blockNumber

/-- Stored proposals are never dropped. -/
def Keeps (client next : C) : Prop :=
  ∀ key, (ClientForHotstuff.aux (B := B) client key).isSome →
    (ClientForHotstuff.aux (B := B) next key).isSome

section Calls

variable {worker next : ConsensusWorker B C}

theorem Tracked.mono (tracked : Tracked worker) (keeps : Keeps (B := B) worker.client next.client)
    (hashes : next.proposalHashQueue = worker.proposalHashQueue)
    (processing : next.processingBlock = none ∨ next.processingBlock = worker.processingBlock)
    (log : Quietly worker.log next.log) : Tracked next where
  stored proposal member := keeps _ (tracked.stored proposal (log.voted ▸ member))
  queued := by
    rw [log.recent, hashes]
    exact tracked.queued
  processing block last found ends := by
    rw [log.recent] at ends
    rcases processing with cleared | same
    · cases cleared.symm.trans found
    · exact tracked.processing block last (same ▸ found) ends

theorem Aside.keeps (aside : Aside worker next) : Keeps (B := B) worker.client next.client := by
  rw [aside.client]
  exact fun _ found => found

theorem Tracked.aside (tracked : Tracked worker) (aside : Aside worker next) : Tracked next :=
  tracked.mono aside.keeps aside.proposalHashQueue (.inr aside.processingBlock) aside.log

/-- Storing a proposal keeps the others, whether it works or not. -/
theorem saving_keeps (worker : ConsensusWorker B C) (proposal : Proposal B) :
    Keeps (B := B) worker.client (worker.saving proposal).client := by
  intro key found
  rcases ClientForHotstuff.insertAux_error worker.client proposal.digest
    (ClientForHotstuff.encode (C := C) proposal) with same | written
  · exact (congrFun same key).symm ▸ found
  · by_cases own : key = proposal.digest
    · subst own
      rw [show ClientForHotstuff.aux (B := B) (worker.saving proposal).client = _ from written,
        Function.update_self]
      rfl
    · rw [show ClientForHotstuff.aux (B := B) (worker.saving proposal).client = _ from written,
        Function.update_of_ne own]
      exact found

theorem saving_stored {proposal : Proposal B}
    (saved : (Synchronizer.saveProposal worker.client proposal).1 = .ok ()) :
    (ClientForHotstuff.aux (B := B) (worker.saving proposal).client proposal.digest).isSome := by
  have inserted : (ClientForHotstuff.insertAux worker.client proposal.digest
      (ClientForHotstuff.encode (C := C) proposal)).1 = .ok () := by
    unfold Synchronizer.saveProposal at saved
    cases result : (ClientForHotstuff.insertAux worker.client proposal.digest
        (ClientForHotstuff.encode (C := C) proposal)).1 with
    | error reason => simp [result, Except.mapError] at saved
    | ok value => rfl
  rw [show ClientForHotstuff.aux (B := B) (worker.saving proposal).client = _ from
    ClientForHotstuff.insertAux_ok _ _ _ inserted, Function.update_self]
  rfl

theorem Commits.aux {proposal : Proposal B} (commits : Commits worker proposal next) :
    ClientForHotstuff.aux (B := B) next.client = ClientForHotstuff.aux worker.client := by
  cases commits with
  | orphan _ _ => rfl
  | keep _ _ _ _ _ _ => rfl
  | commit _ _ _ _ _ _ => exact ClientForHotstuff.finalizeBlock_aux _ _

theorem Tracked.commits {proposal : Proposal B} (tracked : Tracked worker)
    (commits : Commits (worker.saving proposal) proposal next) : Tracked next := by
  refine tracked.mono (fun key found => ?_) ?_ (.inr ?_) commits.log
  · rw [commits.aux]
    exact saving_keeps worker proposal key found
  · cases commits <;> rfl
  · cases commits <;> rfl

omit [ClientForHotstuff B C] in
theorem proposing_recent (worker : ConsensusWorker B C) (proposal : Proposal B) :
    recentVotes (worker.proposing proposal).log = [] := by
  rw [proposing, emit_log, recentVotes_concat, emit_log, recentVotes_concat]
  rfl

omit [ClientForHotstuff B C] in
theorem proposing_voted (worker : ConsensusWorker B C) (proposal : Proposal B) :
    votedProposals (worker.proposing proposal).log = votedProposals worker.log := by
  rw [proposing, emit_log, votedProposals_concat, emit_log, votedProposals_concat]
  simp [Event.votedProposal?]

theorem Tracked.voting {proposal : Proposal B} (tracked : Tracked worker) (vote : Vote B)
    (marked : ConsensusState B)
    (stored : (ClientForHotstuff.aux (B := B) worker.client proposal.digest).isSome) :
    Tracked (worker.voting proposal vote marked) := by
  have recent : recentVotes (worker.voting proposal vote marked).log =
      recentVotes worker.log ++ [proposal] := recentVotes_concat _ _
  refine ⟨fun other member => ?_, ?_, fun block last found ends => ?_⟩
  · rw [show votedProposals (worker.voting proposal vote marked).log = _ from
      votedProposals_concat _ _] at member
    rcases List.mem_append.mp member with old | added
    · exact tracked.stored other old
    · cases List.mem_singleton.mp added
      exact stored
  · obtain ⟨older, split⟩ := tracked.queued
    refine ⟨older, ?_⟩
    rw [recent, List.map_append, ← List.append_assoc, split]
    rfl
  · rw [recent, List.getLast?_concat] at ends
    cases found
    cases ends
    rfl

/-- One call keeps this, if a proposal can always be made and the queue holds
blocks only. -/
theorem Tracked.call [KnownBlocks B C] {call : Call B} (tracked : Tracked worker)
    (side : PayloadSide worker call next)
    (queued : ∀ queue, worker.pendingFinalizeQueue = some queue →
      ∀ block ∈ queue, block.Known worker.client)
    (makes : ∀ payload tc reason, next.state.makeProposal payload tc ≠ .error reason) :
    Tracked next := by
  cases side with
  | aside aside => exact tracked.aside aside
  | cleared aside =>
    have clears : Tracked { worker with processingBlock := none } :=
      ⟨tracked.stored, tracked.queued, fun _ _ found => by cases found⟩
    exact clears.aside aside
  | looked settled _ before offers idle =>
    -- What is looked up and not proposed was withheld, and no block of the queue is.
    have known {queue : List (BlockInfo B)} {block : BlockInfo B}
        (present : settled.pendingFinalizeQueue = some queue) (member : block ∈ queue) :
        block.hash.getD emptyPayloadHash ≠ emptyPayloadHash :=
      (queued queue (before.pendingFinalizeQueue ▸ present) block member).getD_ne
    have still := tracked.aside before
    cases offers with
    | found queue block found present _ _ member _ =>
      exact absurd (withheld_iff.mp (idle _ rfl)).1 (known present member)
    | front queue front present _ first =>
      exact absurd (withheld_iff.mp (idle _ rfl)).1 (known present (List.mem_of_head? first))
    | _ => exact still
  | unmade settled chosen hashes _ _ failed => exact absurd failed (makes _ _ _)
  | proposed settled chosen hashes before offers proposal =>
    have still := tracked.aside before
    refine ⟨fun other member => ?_, ?_, fun _ _ _ ends => ?_⟩
    · rw [proposing_voted] at member
      have found := still.stored other (offers.log ▸ member)
      have client : chosen.client = settled.client := by cases offers <;> rfl
      exact client.symm ▸ found
    · rw [proposing_recent]
      exact List.nil_suffix
    · rw [proposing_recent] at ends
      cases ends
  | stored proposal settled _ before =>
    exact (tracked.aside before).mono (saving_keeps settled proposal) rfl (.inr rfl)
      (Aside.refl settled).log
  | finished proposal settled committed _ before commits behind =>
    exact ((tracked.aside before).commits commits).aside behind
  | voted proposal settled committed vote marked _ _ before saved commits behind =>
    refine (((tracked.aside before).commits commits).voting vote marked ?_).aside behind
    rw [commits.aux]
    exact saving_stored saved

end Calls

variable [KnownBlocks B C]

/-- Stored proposals can be read, and the last finalized block is known under its
number. -/
structure Faultless (B C : Type) [BlockT B] [ClientForHotstuff B C] [KnownBlocks B C] :
    Prop where
  reads : ∀ (client : C) (key : Hash B),
    ClientForHotstuff.getAux client key = .ok (ClientForHotstuff.aux client key)
  finalized : ∀ client : C,
    KnownBlocks.number client (ClientForHotstuff.info (B := B) client).finalizedHash =
      some (ClientForHotstuff.info (B := B) client).finalizedNumber

/-- The proposals that were verified have different digests unless they are the
same, signatures and certificates apart. -/
def DigestsApart (log : List (Event B)) : Prop :=
  ∀ proposal other, Event.verifiedProposal proposal ∈ log → Event.verifiedProposal other ∈ log →
    proposal.digest = other.digest → proposal.preimage = other.preimage

/-- The block of a proposal was handed to `finalize_block`, or is known under a
number within the bound. -/
def Finalizes (bound : Number B) (worker : ConsensusWorker B C) (block : Proposal B) : Prop :=
  (∃ proposal parent grandpa,
    Event.finalized proposal parent grandpa block.payload.blockHash ∈ worker.log) ∨
  ∃ number, KnownBlocks.number worker.client block.payload.blockHash = some number ∧
    number ≤ bound

section Windows

variable {worker next : ConsensusWorker B C} {policy : Policy B} {keystore : Keystore B}
  {authorities : AuthorityList B} {bound : Number B} {final : List (Event B)}

theorem Faultless.parent (faultless : Faultless B C) {client : C} {proposal found : Proposal B}
    (stored : ClientForHotstuff.aux client proposal.parentHash =
      some (ClientForHotstuff.encode (C := C) found)) :
    Synchronizer.getProposalParent client proposal = .ok found := by
  simp [Synchronizer.getProposalParent, faultless.reads, stored, ClientForHotstuff.decode_encode,
    Except.mapError]

omit [KnownBlocks B C] in
/-- What the store holds under the digest of a vote is that proposal. -/
theorem Evident.stored (evident : Evident policy keystore authorities worker)
    (apart : DigestsApart final) (inside : worker.log ⊆ final) {proposal : Proposal B}
    (voted : proposal ∈ votedProposals worker.log)
    (stored : (ClientForHotstuff.aux (B := B) worker.client proposal.digest).isSome) :
    ∃ found, ClientForHotstuff.aux worker.client proposal.digest =
        some (ClientForHotstuff.encode (C := C) found) ∧
      found.payload = proposal.payload ∧ found.view = proposal.view ∧
      found.parentHash = proposal.parentHash := by
  obtain ⟨data, present⟩ := Option.isSome_iff_exists.mp stored
  obtain ⟨found, rfl, digest, verified⟩ := evident.store _ data present
  obtain ⟨event, logged, named⟩ := List.mem_filterMap.mp voted
  have seen : Event.verifiedProposal proposal ∈ worker.log := by
    cases event with
    | voted view other vote =>
      cases named
      exact (evident.mem logged).1
    | _ => cases named
  obtain ⟨_, payload, view, parent⟩ :=
    Proposal.preimage_inj (apart found proposal (inside verified) (inside seen) digest)
  exact ⟨found, present, payload, view, parent⟩

/-- The commit rule on a proposal whose ancestors are found. -/
theorem Commits.finalizes (faultless : Faultless B C) {proposal parent grandpa : Proposal B}
    (commits : Commits worker proposal next)
    (found : Synchronizer.getProposalAncestors worker.client proposal = .ok (parent, grandpa))
    (following : grandpa.view.next? = some parent.view)
    (real : grandpa.payload.blockHash ≠ emptyPayloadHash) :
    Finalizes (finalizedNumber next) next grandpa := by
  cases commits with
  | orphan reason missing => cases found.symm.trans missing
  | keep _ _ _ same followed declined =>
    cases found.symm.trans same
    cases following.symm.trans followed
    have last : grandpa.payload.blockHash =
        (ClientForHotstuff.info (B := B) worker.client).finalizedHash := by
      by_contra fresh
      exact declined ⟨rfl, real, fresh⟩
    refine .inr ⟨_, ?_, BitVec.le_refl _⟩
    rw [last]
    exact faultless.finalized worker.client
  | commit _ _ same _ _ _ =>
    cases found.symm.trans same
    exact .inl ⟨proposal, parent, grandpa, by simp [finalizing]⟩

theorem Finalizes.mono {raised : Number B} {block : Proposal B}
    (finalizes : Finalizes bound worker block) (logs : worker.log ⊆ next.log)
    (grows : Grows B worker.client next.client) (below : bound ≤ raised) :
    Finalizes raised next block := by
  rcases finalizes with ⟨proposal, parent, grandpa, logged⟩ | ⟨number, known, within⟩
  · exact .inl ⟨proposal, parent, grandpa, logs logged⟩
  · exact .inr ⟨number, grows _ _ known, BitVec.le_trans within below⟩

/-- The block of every window among the votes is finalized. -/
def Windowed (bound : Number B) (worker : ConsensusWorker B C) : Prop :=
  ∀ block parent proposal, Window (votedProposals worker.log) block parent proposal →
    Finalizes bound worker block

theorem Windowed.mono (windowed : Windowed bound worker)
    (voted : votedProposals next.log = votedProposals worker.log) (logs : worker.log ⊆ next.log)
    (grows : Grows B worker.client next.client) : Windowed bound next :=
  fun block parent proposal window =>
    (windowed block parent proposal (voted ▸ window)).mono logs grows (BitVec.le_refl _)

/-- The vote that ends a window: its proposal finds both ancestors, since votes are
for stored proposals, and the commit rule applies. -/
theorem Window.finalizes (faultless : Faultless B C)
    (evident : Evident policy keystore authorities next) (tracked : Tracked next)
    (apart : DigestsApart final) (inside : next.log ⊆ final)
    {settled committed : ConsensusWorker B C} {voted : List (Proposal B)}
    {block parent proposal : Proposal B} (window : Window voted block parent proposal)
    (blockVoted : block ∈ votedProposals next.log) (parentVoted : parent ∈ votedProposals next.log)
    (commits : Commits (settled.saving proposal) proposal committed)
    (client : next.client = committed.client) :
    Finalizes (finalizedNumber committed) committed block := by
  obtain ⟨first, firstStored, _, firstView, firstParent⟩ :=
    evident.stored apart inside parentVoted (tracked.stored parent parentVoted)
  obtain ⟨second, secondStored, payload, secondView, _⟩ :=
    evident.stored apart inside blockVoted (tracked.stored block blockVoted)
  have aux : ClientForHotstuff.aux (B := B) next.client =
      ClientForHotstuff.aux (settled.saving proposal).client := by
    rw [client, commits.aux]
  rw [aux] at firstStored secondStored
  have found : Synchronizer.getProposalAncestors (settled.saving proposal).client proposal =
      .ok (first, second) := by
    have link : proposal.parentHash = parent.digest := window.second.linked
    have further : first.parentHash = block.digest := firstParent.trans window.first.linked
    simp only [Synchronizer.getProposalAncestors, bind, Except.bind, pure, Except.pure,
      faultless.parent (link.symm ▸ firstStored), faultless.parent (further.symm ▸ secondStored)]
  have finalizes := commits.finalizes faultless found
    (by rw [secondView, firstView]; exact window.first.next) (by rw [payload]; exact window.real)
  unfold Finalizes at finalizes ⊢
  rwa [payload] at finalizes

theorem Windowed.call {call : Call B} (windowed : Windowed bound worker)
    (side : PayloadSide worker call next) (faultless : Faultless B C)
    (evident : Evident policy keystore authorities next) (tracked : Tracked next)
    (apart : DigestsApart final) (inside : next.log ⊆ final) (logs : worker.log ⊆ next.log)
    (below : finalizedNumber next ≤ bound) : Windowed bound next := by
  have grows := side.sameSupply.grows
  have still (voted : votedProposals next.log = votedProposals worker.log) :
      Windowed bound next := windowed.mono voted logs grows
  cases side with
  | aside aside => exact still aside.log.voted
  | cleared aside => exact still aside.log.voted
  | looked settled _ before offers _ => exact still (offers.log ▸ before.log.voted)
  | unmade settled chosen hashes before offers _ =>
    exact still ((congrArg votedProposals offers.log).trans before.log.voted)
  | proposed settled chosen hashes before offers proposal =>
    refine still ((proposing_voted _ proposal).trans ?_)
    exact (congrArg votedProposals offers.log).trans before.log.voted
  | stored proposal settled _ before => exact still before.log.voted
  | finished proposal settled committed _ before commits behind =>
    exact still ((behind.log.voted.trans commits.log.voted).trans before.log.voted)
  | voted proposal settled committed vote marked _ _ before _ commits behind =>
    -- Only a vote can end a window that was not there before.
    have voted : votedProposals next.log = votedProposals worker.log ++ [proposal] := by
      have cast : votedProposals (committed.voting proposal vote marked).log =
          votedProposals committed.log ++ [proposal] := votedProposals_concat _ _
      rw [behind.log.voted, cast, commits.log.voted]
      exact congrArg (· ++ [proposal]) before.log.voted
    intro block parent last window
    rw [voted] at window
    rcases window.of_concat with old | ⟨rfl, blockVoted, parentVoted⟩
    · exact (windowed block parent last old).mono logs grows (BitVec.le_refl _)
    · have client : next.client = committed.client := behind.client
      have finalizes := window.finalizes faultless evident tracked apart inside
        (voted ▸ List.mem_append_left _ blockVoted) (voted ▸ List.mem_append_left _ parentVoted)
        commits client
      refine finalizes.mono ?_ ?_ ?_
      · obtain ⟨events, grown, _⟩ := behind.log
        rw [grown]
        exact fun event member => List.mem_append_left _ (List.mem_append_left _ member)
      · rw [client]
        exact fun _ _ found => found
      · rw [finalizedNumber, client] at below
        exact below

end Windows

namespace Node

variable [HeaderBackend B C] {keystore : Keystore B} {authorities : AuthorityList B}
  {node : Node B C}

/-- Throughout a run that never had more finalized than the bound. -/
theorem Reachable.windowed {bound : Number B} {final : List (Event B)}
    (makes : ∀ state : ConsensusState B, state.keystore = keystore →
      state.authorities = authorities →
      ∀ payload tc reason, state.makeProposal payload tc ≠ .error reason)
    (faultless : Faultless B C) (apart : DigestsApart final)
    (reachable : Reachable (fun earlier => finalizedNumber earlier.replica.worker ≤ bound)
      keystore authorities node)
    (inside : node.replica.worker.log ⊆ final)
    (below : finalizedNumber node.replica.worker ≤ bound) :
    Tracked node.replica.worker ∧ Windowed bound node.replica.worker := by
  induction reachable with
  | start initial =>
    obtain ⟨client, pending, _, _, same⟩ := initial.replica
    rw [same]
    refine ⟨⟨fun _ member => (by cases member), List.nil_suffix, fun _ _ _ ends => by cases ends⟩,
      fun block parent proposal window => ?_⟩
    obtain ⟨older, later, split⟩ := window.within
    simp [ConsensusWorker.new, votedProposals] at split
  | @step node next before holds move ih =>
    have evident : Evident Policy.any keystore authorities next.replica.worker :=
      (Reachable.step before holds move).replica.evident
        fun state _ call _ => Policy.any_admits state.worker call
    obtain ⟨events, grown⟩ := acts_log_grows move.replica.follows
    have logs : node.replica.worker.log ⊆ next.replica.worker.log := by
      rw [grown]
      exact List.subset_append_left _ _
    obtain ⟨tracked, windowed⟩ := ih (fun event member => inside (logs member)) holds
    cases move with
    | work works =>
      rcases works.2 with same | ⟨call, running, rfl⟩
      · dsimp only
        rw [same]
        exact ⟨tracked, windowed⟩
      · have side := handle_payloadSide call node.replica.worker
        have kept : Tracked (handle call node.replica.worker).2 :=
          tracked.call side before.queueKnown.queue
            (makes _ evident.sameKeystore evident.sameAuthorities)
        exact ⟨kept, windowed.call side faultless evident kept apart inside logs below⟩
    | chain client imports finals kept grows known =>
      -- The node imports and finalizes blocks beside the worker, and keeps what is stored.
      refine ⟨tracked.mono (fun key found => ?_) rfl (.inr rfl) (Aside.refl _).log,
        windowed.mono rfl logs grows⟩
      exact (congrFun kept key).symm ▸ found
    | poll ready imports finals importsRead finalsRead polled =>
      exact ⟨⟨tracked.stored, tracked.queued, tracked.processing⟩,
        windowed.mono rfl logs fun _ _ found => found⟩

/-- The history behind two empty entries at the end of the queue: the last two
votes came after the last own proposal; from some block on, each empty proposal
voted for extends the vote before it; blocks were voted for under their own
numbers; and what was handed to `finalize_block` is finalized. -/
structure Orderly (node : Node B C) : Prop where
  recent : 2 ≤ (recentVotes node.replica.worker.log).length
  threaded : ∃ older block later,
    votedProposals node.replica.worker.log = older ++ block :: later ∧
      block.payload.blockHash ≠ emptyPayloadHash ∧ Threads (block :: later)
  numbered : ∀ proposal ∈ votedProposals node.replica.worker.log,
    proposal.payload.blockHash ≠ emptyPayloadHash →
    KnownBlocks.number node.replica.worker.client proposal.payload.blockHash =
      some proposal.payload.blockNumber
  finalized : ∀ proposal parent grandpa block number,
    Event.finalized proposal parent grandpa block ∈ node.replica.worker.log →
    KnownBlocks.number node.replica.worker.client block = some number →
    number ≤ finalizedNumber node.replica.worker
  apart : DigestsApart node.replica.worker.log

omit [HeaderBackend B C] in
/-- The two empty entries are the last two votes. -/
theorem Orderly.lastVotes (orderly : node.Orderly) (tracked : Tracked node.replica.worker)
    (ends : EndsEmpty node.replica.worker.proposalHashQueue) :
    ∃ front previous last, votedProposals node.replica.worker.log = front ++ [previous, last] ∧
      (recentVotes node.replica.worker.log).getLast? = some last ∧
      previous.payload.blockHash = emptyPayloadHash ∧
      last.payload.blockHash = emptyPayloadHash := by
  obtain ⟨front, previous, last, recent⟩ :
      ∃ front previous last, recentVotes node.replica.worker.log = front ++ [previous, last] := by
    have long := orderly.recent
    rcases List.eq_nil_or_concat (recentVotes node.replica.worker.log) with none |
      ⟨shorter, last, split⟩
    · simp [none] at long
    · rcases List.eq_nil_or_concat shorter with rfl | ⟨front, previous, rfl⟩
      · simp [split] at long
      · exact ⟨front, previous, last, by simp [split]⟩
  obtain ⟨older, votes⟩ := recentVotes_suffix node.replica.worker.log
  obtain ⟨unrelated, hashes⟩ := tracked.queued
  obtain ⟨rest, empties⟩ := ends
  have same : (unrelated ++ front.map fun proposal => proposal.payload.blockHash) ++
      [previous.payload.blockHash, last.payload.blockHash] =
      rest ++ [emptyPayloadHash, emptyPayloadHash] := by
    rw [← empties, ← hashes, recent]
    simp
  obtain ⟨_, pair⟩ := List.append_inj' same rfl
  refine ⟨older ++ front, previous, last, by rw [← votes, recent, List.append_assoc], ?_, ?_, ?_⟩
  · rw [recent]
    simp
  · exact (List.cons.inj pair).1
  · exact (List.cons.inj (List.cons.inj pair).2).1

omit [HeaderBackend B C] in
/-- They lead back to a block with the same number. -/
theorem Orderly.window (orderly : node.Orderly) {front : List (Proposal B)}
    {previous last : Proposal B}
    (votes : votedProposals node.replica.worker.log = front ++ [previous, last])
    (previousEmpty : previous.payload.blockHash = emptyPayloadHash)
    (lastEmpty : last.payload.blockHash = emptyPayloadHash) :
    ∃ block parent proposal,
      Window (votedProposals node.replica.worker.log) block parent proposal ∧
        last.payload.blockNumber = block.payload.blockNumber := by
  obtain ⟨older, start, later, split, real, threads⟩ := orderly.threaded
  rcases List.append_eq_append_iff.mp (votes.symm.trans split) with
    ⟨middle, _, ending⟩ | ⟨middle, _, rest⟩
  · have among : start ∈ [previous, last] := by simp [ending]
    rcases List.mem_pair.mp among with rfl | rfl
    · exact absurd previousEmpty real
    · exact absurd lastEmpty real
  · have starts : middle.head? = some start := by
      cases middle with
      | nil =>
        cases rest
        exact absurd previousEmpty real
      | cons head tail =>
        cases rest
        rfl
    rw [rest] at threads
    obtain ⟨block, parent, proposal, window, number⟩ :=
      threads.window starts real previousEmpty lastEmpty
    rw [← rest] at window
    refine ⟨block, parent, proposal, ?_, number⟩
    rw [split]
    simpa using window.grow older []

end Node

variable [HeaderBackend B C]

/-- With an orderly history an empty proposal is withheld only when the block that
is being processed is finalized: the two empty entries are two votes, which extend
one another down to that block, and the second of them found its ancestors and
finalized it. -/
theorem withholding_finalized {keystore : Keystore B} {authorities : AuthorityList B}
    {id : AuthorityId B} {node : Node B C}
    (own : (ConsensusState.new keystore authorities).localAuthorityId = some id)
    (signs : ∀ digest, ∃ signature, keystore.signWith id digest = .ok signature)
    (faultless : Faultless B C)
    (reachable : Node.Reachable (fun earlier =>
        finalizedNumber earlier.replica.worker ≤ finalizedNumber node.replica.worker)
      keystore authorities node)
    (orderly : node.Orderly) {vote : Vote B} {next : ConsensusWorker B C}
    (withholds : Withholds node.replica.worker vote next) :
    ∃ block, next.processingBlock = some block ∧ block.number ≤ finalizedNumber next := by
  have makes (state : ConsensusState B) (sameKeystore : state.keystore = keystore)
      (sameAuthorities : state.authorities = authorities) (payload : Payload B)
      (tc : Option (TC B)) (reason : HotstuffError B) :
      state.makeProposal payload tc ≠ .error reason := by
    have found : state.localAuthorityId = some id :=
      (ConsensusState.localAuthorityId_congr sameKeystore sameAuthorities).trans own
    obtain ⟨signature, signed⟩ :=
      signs (Proposal.digest ⟨state.highQc, tc, payload, state.view, id, none⟩)
    simp [ConsensusState.makeProposal, found, sameKeystore, signed]
  have run : Node.Run keystore authorities node := reachable.mono fun _ _ => trivial
  obtain ⟨tracked, windowed⟩ := reachable.windowed makes faultless orderly.apart
    (List.Subset.refl _) (BitVec.le_refl _)
  refine withholds.finalized run fun ends block processing => ?_
  obtain ⟨front, previous, last, votes, lastRecent, previousEmpty, lastEmpty⟩ :=
    orderly.lastVotes tracked ends
  obtain ⟨base, parent, proposal, window, number⟩ :=
    orderly.window votes previousEmpty lastEmpty
  have voted : base ∈ votedProposals node.replica.worker.log := by
    obtain ⟨older, later, split⟩ := window.within
    simp [split]
  have known := orderly.numbered base voted window.real
  rw [tracked.processing block last processing lastRecent, number]
  rcases windowed base parent proposal window with ⟨_, _, _, logged⟩ | ⟨found, same, within⟩
  · exact orderly.finalized _ _ _ _ _ logged known
  · cases same.symm.trans known
    exact within

namespace Sample

/-- The worker behind the QC that a vote completes, with the voters of that QC. -/
def settled (worker : ConsensusWorker Sample Sample.Client) (vote : Vote Sample)
    (voters : List (Fin 8)) : ConsensusWorker Sample Sample.Client :=
  (handleQc (qc vote.proposalHash vote.view voters) ((worker.countingVote vote).emit
    (.aggregatedQc (qc vote.proposalHash vote.view voters)))).2

theorem completes {worker : ConsensusWorker Sample Sample.Client} {vote : Vote Sample}
    {voters : List (Fin 8)}
    (accepts : Accepts worker (.vote vote) (qc vote.proposalHash vote.view voters))
    (handled : (handleQc (qc vote.proposalHash vote.view voters) ((worker.countingVote vote).emit
      (.aggregatedQc (qc vote.proposalHash vote.view voters)))).1 = .ok ())
    (leads : (settled worker vote voters).state.isLeader = some true) :
    Completes worker vote (settled worker vote voters) :=
  ⟨_, accepts, Command.apply_eq handled, leads⟩

/-- A proposal with a given payload, signed by its author. -/
def carrying (qc : QC Sample) (payload : Payload Sample) (view : ViewNumber) (author : Fin 8) :
    Proposal Sample :=
  let unsigned : Proposal Sample := ⟨qc, none, payload, view, author, none⟩
  { unsigned with signature := some (sign author unsigned.digest) }

/-- Block 9 and two empty proposals that extend it, by the leaders of views 1 to 3. -/
def base : Proposal Sample := carrying QC.default ⟨(9 : BitVec 64), 9⟩ 1 1

def parent : Proposal Sample := carrying (qc base.digest 1 [1, 2, 3]) ⟨emptyPayloadHash, 9⟩ 2 2

def child : Proposal Sample := carrying (qc parent.digest 2 [1, 2, 3]) ⟨emptyPayloadHash, 9⟩ 3 3

/-- Replica 0 of four has voted for all three, and counts the votes for the last. -/
def collecting : Node Sample Sample.Client :=
  let calls : List (Call Sample) :=
    [.proposal base, .proposal parent, .proposal child, .vote (vote child.digest 3 1)]
  { newNode 4 0 with replica := (newNode 4 0).replica.session 9 calls }

def handed? : Event Sample → Option (Hash Sample)
  | .finalized _ _ _ block => some block
  | _ => none

theorem collecting_orderly : collecting.Orderly where
  recent := by decide +kernel
  threaded := by
    refine ⟨[], base, [parent, child], by decide +kernel, by decide +kernel, ?_⟩
    simp only [Threads, List.isChain_cons_cons, List.isChain_singleton, and_true]
    exact ⟨fun _ => ⟨by decide +kernel, by decide +kernel, by decide +kernel⟩,
      fun _ => ⟨by decide +kernel, by decide +kernel, by decide +kernel⟩⟩
  numbered := by
    have votes : ∀ proposal ∈ votedProposals collecting.replica.worker.log,
        proposal.payload.blockHash ≠ emptyPayloadHash →
        number proposal.payload.blockHash = proposal.payload.blockNumber := by decide +kernel
    exact fun proposal member real => congrArg some (votes proposal member real)
  finalized := by
    have handed : ∀ block ∈ collecting.replica.worker.log.filterMap handed?,
        number block ≤ finalizedNumber collecting.replica.worker := by decide +kernel
    intro proposal parent grandpa block number logged known
    cases known
    exact handed block (List.mem_filterMap.mpr ⟨_, logged, rfl⟩)
  apart := by
    have different : ∀ proposal ∈ collecting.replica.worker.log.filterMap Event.verifiedProposal?,
        ∀ other ∈ collecting.replica.worker.log.filterMap Event.verifiedProposal?,
          proposal.digest = other.digest → proposal.preimage = other.preimage := by decide +kernel
    intro proposal other verified verifiedToo
    exact different proposal (List.mem_filterMap.mpr ⟨_, verified, rfl⟩) other
      (List.mem_filterMap.mpr ⟨_, verifiedToo, rfl⟩)

theorem faultless : Faultless Sample Sample.Client := ⟨fun _ _ => rfl, fun _ => rfl⟩

theorem collecting_reachable :
    Node.Reachable (fun earlier =>
        finalizedNumber earlier.replica.worker ≤ finalizedNumber collecting.replica.worker)
      (keystore 0) (authorities 4) collecting := by
  have done : finalizedNumber collecting.replica.worker = 9 := by decide +kernel
  rw [done]
  have sound (replica : Replica Sample Sample.Client)
      (passed : decide (finalizedNumber replica.worker ≤ 9) = true) :
      finalizedNumber replica.worker ≤ 9 := of_decide_eq_true passed
  exact .session sound (.start (newNode_initial 4 0)) 9 _ (by decide +kernel)

end Sample

/-- The third vote for the last proposal completes a QC for replica 0, which leads
view 4 and withholds a third empty proposal: block 9 is finalized. -/
theorem withholding_finalized_four :
    ∃ next, Withholds Sample.collecting.replica.worker (Sample.vote Sample.child.digest 3 2) next ∧
      ∃ block, next.processingBlock = some block ∧ block.number ≤ finalizedNumber next := by
  let vote := Sample.vote Sample.child.digest 3 2
  have completes : Completes Sample.collecting.replica.worker vote
      (Sample.settled Sample.collecting.replica.worker vote [0, 1, 2]) :=
    Sample.completes ⟨by decide +kernel, by decide +kernel⟩ (by decide +kernel) (by decide +kernel)
  have offered : (getProposalPayload (Sample.settled Sample.collecting.replica.worker vote
      [0, 1, 2])).1 = .ok (some ⟨emptyPayloadHash, 9⟩) := by decide +kernel
  have withholds : Withholds Sample.collecting.replica.worker vote _ :=
    ⟨_, _, completes, Command.apply_eq offered, by decide +kernel⟩
  have own : (ConsensusState.new (Sample.keystore 0) (Sample.authorities 4)).localAuthorityId =
      some (0 : Fin 8) := by decide +kernel
  exact ⟨_, withholds, withholding_finalized own (fun _ => ⟨_, rfl⟩)
    Sample.faultless Sample.collecting_reachable Sample.collecting_orderly withholds⟩

/-- The vote a replica is about to handle. -/
def Control.vote? : Control B → Option (Vote B)
  | .running (.vote vote) => some vote
  | _ => none

/-- A single authority in the middle of its first timer, with its own vote for
the empty proposal of view 2 to be handled. -/
def Sample.first : Node Sample Sample.Client := Sample.told 1 0 6 [.localTimer]

def Sample.firstVote : Vote Sample :=
  Sample.first.replica.control.vote?.get (by decide +kernel)

/-- In its first timer a single authority proposes its block and one empty
proposal, which is in the queue of hashes twice, as proposed and as voted for.
The next empty proposal is withheld although the block is not finalized. -/
theorem withholding_unfinalized :
    Node.Run (Sample.keystore 0) (Sample.authorities 1) Sample.first ∧
      Sample.first.replica.control = .running (.vote Sample.firstVote) ∧
      ∃ next, Withholds Sample.first.replica.worker Sample.firstVote next ∧
        handleVote Sample.firstVote Sample.first.replica.worker = (.ok none, next) ∧
        next.processingBlock = some ⟨some emptyPayloadHash, 1⟩ ∧ finalizedNumber next = 0 := by
  have completes : Completes Sample.first.replica.worker Sample.firstVote
      (Sample.settled Sample.first.replica.worker Sample.firstVote [0]) :=
    Sample.completes ⟨by decide +kernel, by decide +kernel⟩ (by decide +kernel) (by decide +kernel)
  have offered : (getProposalPayload (Sample.settled Sample.first.replica.worker
      Sample.firstVote [0])).1 = .ok (some ⟨emptyPayloadHash, 1⟩) := by decide +kernel
  have withholds : Withholds Sample.first.replica.worker Sample.firstVote _ :=
    ⟨_, _, completes, Command.apply_eq offered, by decide +kernel⟩
  refine ⟨Sample.told_run 1 0 6 [.localTimer], by decide +kernel, _, withholds,
    withholds.returns, ?_, ?_⟩
  · decide +kernel
  · decide +kernel

end Hotstuff
