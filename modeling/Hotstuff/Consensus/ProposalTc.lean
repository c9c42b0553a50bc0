import Mathlib.Data.Option.Defs
import Hotstuff.Lib.Mirror
import Hotstuff.Consensus.Refinement
import Hotstuff.Consensus.SampleNode

/-! The TC of a proposal, which is neither signed nor verified. Two runs on
proposals that differ in it alone are compared, command by command: that both
take the same path is not a fact about either of them. The TC shows in the timer. -/

namespace Hotstuff

open Command ConsensusWorker

variable {B C : Type} [BlockT B]

/-- Two proposals that differ at most in their TC. -/
def Proposal.SameButTc (first second : Proposal B) : Prop :=
  ∃ tc, second = { first with tc := tc }

theorem Proposal.SameButTc.refl (proposal : Proposal B) : proposal.SameButTc proposal :=
  ⟨proposal.tc, rfl⟩

/-- What others can see of a worker. -/
inductive Visible (B : Type) [BlockT B] where
  | sent (message : ConsensusMessage B) (force : Bool)
  | requested (hash : Hash B) (number : Number B)
  | voted (vote : Vote B)
  | finalized (block : Hash B)
deriving DecidableEq

def Event.visible? : Event B → Option (Visible B)
  | .gossip message force => some (.sent message force)
  | .syncRequest hash number => some (.requested hash number)
  | .voted _ _ vote => some (.voted vote)
  | .finalized _ _ _ block => some (.finalized block)
  | _ => none

def Event.isReset : Event B → Bool
  | .resetTimer => true
  | _ => false

def visible (log : List (Event B)) : List (Visible B) := log.filterMap Event.visible?

/-- How often the local timer was reset. -/
def timerResets (log : List (Event B)) : Nat := log.countP Event.isReset

variable [ClientForHotstuff B C]

/-- The store does not look into the proposals: `alike` relates clients that
differ in the TCs of stored proposals only, and they go on answering alike. -/
structure StoresAlike (B : Type) [BlockT B] [ClientForHotstuff B C] (alike : C → C → Prop) :
    Prop where
  refl : ∀ first, alike first first
  status : ∀ {first second}, alike first second → ∀ hash : Hash B,
    ClientForHotstuff.status second hash = ClientForHotstuff.status first hash
  info : ∀ {first second}, alike first second →
    (ClientForHotstuff.info second : ChainInfo B) = ClientForHotstuff.info first
  finalizeBlock : ∀ {first second}, alike first second → ∀ hash : Hash B,
    alike (ClientForHotstuff.finalizeBlock first hash).2
      (ClientForHotstuff.finalizeBlock second hash).2
  getAux : ∀ {first second}, alike first second → ∀ key : Hash B,
    Agree (Option.Rel fun data copy => Agree Proposal.SameButTc
        (ClientForHotstuff.decode (C := C) data) (ClientForHotstuff.decode (C := C) copy))
      (ClientForHotstuff.getAux first key) (ClientForHotstuff.getAux second key)
  insertAux : ∀ {first second}, alike first second → ∀ (key : Hash B) (proposal copy : Proposal B),
    proposal.SameButTc copy →
    let written :=
      ClientForHotstuff.insertAux first key (ClientForHotstuff.encode (C := C) proposal)
    let twin := ClientForHotstuff.insertAux second key (ClientForHotstuff.encode (C := C) copy)
    written.1 = twin.1 ∧ alike written.2 twin.2

/-- Two workers that differ in the TCs of what they have stored and recorded,
the first one with `ahead` and the second one with `behind` further resets. -/
structure Paired (alike : C → C → Prop) (ahead behind : Nat)
    (worker other : ConsensusWorker B C) : Prop where
  state : other.state = worker.state
  client : alike worker.client other.client
  processingBlock : other.processingBlock = worker.processingBlock
  pendingFinalizeQueue : other.pendingFinalizeQueue = worker.pendingFinalizeQueue
  proposalHashQueue : other.proposalHashQueue = worker.proposalHashQueue
  visible : visible other.log = visible worker.log
  resets : timerResets worker.log + behind = timerResets other.log + ahead

section Commands

variable {alike : C → C → Prop} {ahead behind : Nat} {worker other : ConsensusWorker B C}

omit [ClientForHotstuff B C] in
theorem Paired.emit {event twin : Event B} (paired : Paired alike ahead behind worker other)
    (seen : twin.visible? = event.visible?) (reset : twin.isReset = event.isReset) :
    Paired alike ahead behind (worker.emit event) (other.emit twin) := by
  have resets := paired.resets
  refine { paired with visible := ?_, resets := ?_ }
  · simp only [Hotstuff.visible, emit_log, List.filterMap_append, List.filterMap_cons, seen]
    exact congrArg (· ++ _) paired.visible
  · simp only [timerResets, emit_log, List.countP_append, List.countP_singleton, reset] at resets ⊢
    omega

omit [ClientForHotstuff B C] in
theorem record_mirrors (event : Event B) {twin : Event B}
    (seen : twin.visible? = event.visible?) (reset : twin.isReset = event.isReset) :
    Mirrors (Paired alike ahead behind) (record event : Handler B C Unit) (record twin) :=
  .update fun _ _ paired => paired.emit seen reset

omit [ClientForHotstuff B C] in
theorem advanceView_mirrors (view : ViewNumber) :
    Mirrors (Paired alike ahead behind) (advanceView view : Handler B C Unit)
      (advanceView view) := by
  refine .read_bind fun worker other paired => ?_
  rw [paired.state]
  refine .bind (.check _) fun state => ?_
  refine .bind (.update fun _ _ paired => { paired with state := rfl }) fun _ => ?_
  exact record_mirrors _ rfl rfl

omit [ClientForHotstuff B C] in
theorem handleQc_mirrors (qc : QC B) :
    Mirrors (Paired alike ahead behind) (handleQc qc : Handler B C Unit) (handleQc qc) := by
  refine .read_bind fun worker other paired => ?_
  rw [paired.state]
  refine .ite (fun _ => ?_) fun _ => record_mirrors _ rfl rfl
  refine .bind (advanceView_mirrors _) fun _ => ?_
  refine .bind (.update fun _ _ paired => { paired with state := ?_ }) fun _ => ?_
  · exact congrArg (fun state => state.updateHighQc qc) paired.state
  · exact .bind (record_mirrors _ rfl rfl) fun _ => record_mirrors _ rfl rfl

omit [ClientForHotstuff B C] in
theorem onState_mirrors
    (method : ConsensusState B → Except (HotstuffError B) α × ConsensusState B) :
    Mirrors (Paired alike ahead behind) (onState method : Handler B C α) (onState method) := by
  intro worker other paired
  have same := paired.state
  exact ⟨by simp [onState, same], { paired with state := by simp [onState, same] }⟩

omit [ClientForHotstuff B C] in
theorem isLeader_mirrors :
    Mirrors (Paired alike ahead behind) (isLeader : Handler B C Bool) isLeader := by
  refine .read_bind fun worker other paired => ?_
  rw [paired.state]
  exact .check _

omit [ClientForHotstuff B C] in
theorem propose_mirrors (payload : Payload B) (tc : Option (TC B)) :
    Mirrors (Paired alike ahead behind) (propose payload tc : Handler B C (Option (Call B)))
      (propose payload tc) := by
  refine .read_bind fun worker other paired => ?_
  rw [paired.state]
  refine .bind (.check _) fun proposal => ?_
  refine .bind (record_mirrors _ rfl rfl) fun _ => ?_
  exact .bind (record_mirrors _ rfl rfl) fun _ => .pure _

omit [ClientForHotstuff B C] in
theorem addVote_mirrors (vote : Vote B) :
    Mirrors (Paired alike ahead behind) (addVote vote : Handler B C (Option (QC B)))
      (addVote vote) := by
  refine .bind (onState_mirrors _) fun formed => ?_
  cases formed with
  | none => exact .pure _
  | some qc => exact .bind (record_mirrors _ rfl rfl) fun _ => .pure _

omit [ClientForHotstuff B C] in
theorem makeVote_mirrors {proposal copy : Proposal B} (same : proposal.SameButTc copy) :
    Mirrors (Paired alike ahead behind) (makeVote proposal : Handler B C (Option (Vote B)))
      (makeVote copy) := by
  obtain ⟨tc, rfl⟩ := same
  intro worker other paired
  have made : other.state.makeVote { proposal with tc := tc } = worker.state.makeVote proposal := by
    rw [paired.state]
    rfl
  unfold makeVote
  rw [made]
  dsimp only
  have marked : Paired alike ahead behind
      { worker with state := (worker.state.makeVote proposal).2 }
      { other with state := (worker.state.makeVote proposal).2 } := { paired with state := rfl }
  cases (worker.state.makeVote proposal).1 with
  | none => exact ⟨rfl, marked⟩
  | some vote => exact ⟨rfl, marked.emit rfl rfl⟩

omit [ClientForHotstuff B C] in
theorem castVote_mirrors {proposal copy : Proposal B} (same : proposal.SameButTc copy) :
    Mirrors (Paired alike ahead behind) (castVote proposal : Handler B C (Option (Call B)))
      (castVote copy) := by
  refine .read_bind fun worker other paired => ?_
  refine .bind (makeVote_mirrors same) fun made => ?_
  cases made with
  | none => exact .pure _
  | some vote =>
    obtain ⟨tc, rfl⟩ := same
    refine .bind (.update fun _ _ paired => { paired with
      processingBlock := rfl
      proposalHashQueue := congrArg (· ++ _) paired.proposalHashQueue }) fun _ => ?_
    rw [paired.state]
    refine .bind (.check _) fun following => ?_
    refine .bind (.check _) fun leader => ?_
    exact .ite (fun _ => .pure _) fun _ => .bind (record_mirrors _ rfl rfl) fun _ => .pure _

variable (stores : StoresAlike B alike)
include stores

theorem getProposalPayload_mirrors :
    Mirrors (Paired alike ahead behind) (getProposalPayload : Handler B C (Option (Payload B)))
      getProposalPayload := by
  refine .read_bind fun worker other paired => ?_
  rw [stores.info paired.client, paired.pendingFinalizeQueue, paired.processingBlock]
  cases worker.pendingFinalizeQueue with
  | none => exact .pure _
  | some queue =>
    cases worker.processingBlock with
    | none =>
      dsimp only
      cases queue.head? with
      | none => exact .pure _
      | some info =>
        exact .bind (.update fun _ _ paired => { paired with processingBlock := rfl })
          fun _ => .pure _
    | some processing =>
      refine .ite (fun _ => .pure _) fun _ => ?_
      cases queue.find? _ with
      | none => exact .pure _
      | some found =>
        exact .bind (.update fun _ _ paired => { paired with processingBlock := rfl })
          fun _ => .pure _

theorem handleFormedQc_mirrors (qc : QC B) :
    Mirrors (Paired alike ahead behind) (handleFormedQc qc : Handler B C (Option (Call B)))
      (handleFormedQc qc) := by
  refine .bind (handleQc_mirrors qc) fun _ => .bind isLeader_mirrors fun leader => ?_
  refine .ite (fun _ => ?_) fun _ => .pure _
  refine .bind (getProposalPayload_mirrors stores) fun payload => ?_
  cases payload with
  | none => exact .pure _
  | some payload =>
    refine .read_bind fun worker other paired => ?_
    rw [paired.proposalHashQueue]
    refine .ite (fun _ => .pure _) fun _ => ?_
    refine .bind (.update fun _ _ paired => { paired with proposalHashQueue := rfl }) fun _ => ?_
    exact propose_mirrors payload none

theorem handleVote_mirrors (vote : Vote B) :
    Mirrors (Paired alike ahead behind) (handleVote vote : Handler B C (Option (Call B)))
      (handleVote vote) := by
  refine .read_bind fun worker other paired => ?_
  rw [paired.state]
  refine .bind (.check _) fun _ => .bind (record_mirrors _ rfl rfl) fun _ => ?_
  refine .bind (addVote_mirrors vote) fun formed => ?_
  cases formed with
  | none => exact .pure _
  | some qc => exact handleFormedQc_mirrors stores qc

theorem payloadUnknown_mirrors {proposal copy : Proposal B} (same : proposal.SameButTc copy) :
    Mirrors (Paired alike ahead behind) (payloadUnknown proposal : Handler B C Bool)
      (payloadUnknown copy) := by
  obtain ⟨tc, rfl⟩ := same
  refine .read_bind fun worker other paired => ?_
  refine .ite (fun _ => .pure _) fun _ => ?_
  dsimp only
  rw [stores.status paired.client]
  cases ClientForHotstuff.status worker.client proposal.payload.blockHash with
  | error reason => exact .fail _
  | ok status =>
    cases status with
    | unknown => exact .bind (record_mirrors _ rfl rfl) fun _ => .pure _
    | inChain => exact .pure _

theorem saveProposal_mirrors {proposal copy : Proposal B} (same : proposal.SameButTc copy) :
    Mirrors (Paired alike ahead behind) (saveProposal proposal : Handler B C Unit)
      (saveProposal copy) := by
  intro worker other paired
  have written := stores.insertAux paired.client proposal.digest proposal copy same
  obtain ⟨tc, rfl⟩ := same
  refine ⟨?_, { paired with client := written.2 }⟩
  unfold saveProposal Synchronizer.saveProposal
  exact congrArg (fun result => Except.mapError Fault.error
    (Except.mapError HotstuffError.saveProposal result)) written.1

theorem StoresAlike.getProposalParent {client copied : C} {proposal copy : Proposal B}
    (similar : alike client copied) (same : proposal.SameButTc copy) :
    Agree Proposal.SameButTc (Synchronizer.getProposalParent client proposal)
      (Synchronizer.getProposalParent copied copy) := by
  obtain ⟨tc, rfl⟩ := same
  change Agree _ _ (Synchronizer.getProposalParent copied proposal)
  unfold Synchronizer.getProposalParent
  rcases (stores.getAux similar proposal.parentHash).cases with
    ⟨reason, first, second⟩ | ⟨found, twin, first, second, both⟩
  · rw [first, second]
    exact .error _
  · rw [first, second]
    cases both with
    | none => exact .error _
    | some decoded =>
      rcases decoded.cases with ⟨reason, one, two⟩ | ⟨value, copied, one, two, same⟩
      · simp only [one, two]
        exact .error _
      · simp only [one, two]
        exact .ok same

theorem StoresAlike.getProposalAncestors {client copied : C} {proposal copy : Proposal B}
    (similar : alike client copied) (same : proposal.SameButTc copy) :
    Agree (fun found twin => found.1.SameButTc twin.1 ∧ found.2.SameButTc twin.2)
      (Synchronizer.getProposalAncestors client proposal)
      (Synchronizer.getProposalAncestors copied copy) := by
  refine (stores.getProposalParent similar same).bind fun _ _ parents => ?_
  refine (stores.getProposalParent similar parents).bind fun _ _ grandpas => ?_
  exact .ok ⟨parents, grandpas⟩

theorem Paired.finalizing {proposal parent grandpa copy copiedParent copiedGrandpa : Proposal B}
    {block : Hash B} (paired : Paired alike ahead behind worker other) :
    Paired alike ahead behind (worker.finalizing proposal parent grandpa block)
      (other.finalizing copy copiedParent copiedGrandpa block) := by
  have marked : Paired alike ahead behind
      (worker.emit (.finalized proposal parent grandpa block))
      (other.emit (.finalized copy copiedParent copiedGrandpa block)) := paired.emit rfl rfl
  exact { marked with client := stores.finalizeBlock paired.client block }

theorem finalizeGrandpa_mirrors {proposal copy : Proposal B} (same : proposal.SameButTc copy) :
    Mirrors (Paired alike ahead behind) (finalizeGrandpa proposal : Handler B C Unit)
      (finalizeGrandpa copy) := by
  refine .read_bind fun worker other paired => ?_
  rw [stores.info paired.client]
  rcases (stores.getProposalAncestors paired.client same).cases with
    ⟨reason, first, second⟩ | ⟨⟨parent, grandpa⟩, ⟨_, _⟩, first, second, ⟨_, rfl⟩, _, rfl⟩
  · rw [first, second]
    exact .pure _
  · rw [first, second]
    refine .bind (.check _) fun following => ?_
    refine .ite (fun _ => ?_) fun _ => .pure _
    exact .update fun worker other paired => Paired.finalizing stores paired

/-- `handle_proposal` up to the TC, and whether it goes on behind it. -/
def takeProposal (proposal : Proposal B) : Handler B C Bool := do
  let unknown ← payloadUnknown proposal
  if unknown then pure false
  else do
    let worker ← Command.read
    Command.check (worker.state.verifyProposal proposal)
    record (.verifiedProposal proposal)
    handleQc proposal.qc
    pure true

/-- The rest of `handle_proposal`. -/
def finishProposal (proposal : Proposal B) : Handler B C (Option (Call B)) := do
  saveProposal proposal
  finalizeGrandpa proposal
  let worker ← Command.read
  if proposal.view = worker.state.view then castVote proposal else pure none

omit stores in
theorem handleProposal_eq (proposal : Proposal B) :
    (handleProposal proposal : Handler B C (Option (Call B))) =
      takeProposal proposal >>= fun taken =>
        if taken then handleProposalTc proposal.tc >>= fun _ => finishProposal proposal
        else pure none := by
  unfold takeProposal
  rw [Command.bind_assoc]
  refine congrArg (payloadUnknown proposal >>= ·) (funext fun unknown => ?_)
  cases unknown with
  | true => rfl
  | false => simp only [Bool.false_eq_true, ↓reduceIte, Command.bind_assoc]; rfl

theorem takeProposal_mirrors {proposal copy : Proposal B} (same : proposal.SameButTc copy) :
    Mirrors (Paired alike ahead behind) (takeProposal proposal : Handler B C Bool)
      (takeProposal copy) := by
  refine .bind (payloadUnknown_mirrors stores same) fun unknown => ?_
  obtain ⟨tc, rfl⟩ := same
  refine .ite (fun _ => .pure _) fun _ => ?_
  refine .read_bind fun worker other paired => ?_
  rw [paired.state]
  refine .bind (.check _) fun _ => .bind (record_mirrors _ rfl rfl) fun _ => ?_
  exact .bind (handleQc_mirrors _) fun _ => .pure _

theorem finishProposal_mirrors {proposal copy : Proposal B} (same : proposal.SameButTc copy) :
    Mirrors (Paired alike ahead behind) (finishProposal proposal : Handler B C (Option (Call B)))
      (finishProposal copy) := by
  refine .bind (saveProposal_mirrors stores same) fun _ => ?_
  refine .bind (finalizeGrandpa_mirrors stores same) fun _ => ?_
  refine .read_bind fun worker other paired => ?_
  rw [paired.state]
  obtain ⟨tc, rfl⟩ := same
  exact .ite (fun _ => castVote_mirrors ⟨tc, rfl⟩) fun _ => .pure _

omit stores [ClientForHotstuff B C] in
theorem handleProposalTc_mirrors (tc : Option (TC B)) :
    Mirrors (Paired alike ahead behind) (handleProposalTc tc : Handler B C Unit)
      (handleProposalTc tc) := by
  cases tc with
  | none => exact .pure _
  | some tc =>
    refine .read_bind fun worker other paired => ?_
    rw [paired.state]
    refine .ite (fun _ => ?_) fun _ => .pure _
    exact .bind (advanceView_mirrors _) fun _ => record_mirrors _ rfl rfl

theorem handleProposal_mirrors (proposal : Proposal B) :
    Mirrors (Paired alike ahead behind) (handleProposal proposal : Handler B C (Option (Call B)))
      (handleProposal proposal) := by
  have same := Proposal.SameButTc.refl proposal
  rw [handleProposal_eq]
  refine .bind (takeProposal_mirrors stores same) fun taken => ?_
  refine .ite (fun _ => ?_) fun _ => .pure _
  exact .bind (handleProposalTc_mirrors _) fun _ => finishProposal_mirrors stores same

omit stores [ClientForHotstuff B C] in
theorem handleLocalTimer_mirrors :
    Mirrors (Paired alike ahead behind) (handleLocalTimer : Handler B C (Option (Call B)))
      handleLocalTimer := by
  refine .bind (record_mirrors _ rfl rfl) fun _ => ?_
  refine .bind (.update fun _ _ paired => { paired with
    state := congrArg ConsensusState.increaseLastVotedView paired.state }) fun _ => ?_
  refine .read_bind fun worker other paired => ?_
  rw [paired.state]
  refine .bind (record_mirrors _ rfl rfl) fun _ => .bind (.check _) fun timeout => ?_
  refine .bind (record_mirrors _ rfl rfl) fun _ => ?_
  exact .bind (record_mirrors _ rfl rfl) fun _ => .pure _

omit stores [ClientForHotstuff B C] in
theorem handleTc_mirrors (tc : TC B) :
    Mirrors (Paired alike ahead behind) (handleTc tc : Handler B C (Option (Call B)))
      (handleTc tc) := by
  refine .read_bind fun worker other paired => ?_
  rw [paired.state]
  refine .bind (.check _) fun _ => .bind (record_mirrors _ rfl rfl) fun _ => ?_
  refine .bind (advanceView_mirrors _) fun _ => .bind (record_mirrors _ rfl rfl) fun _ => ?_
  refine .bind (.update fun _ _ paired => { paired with processingBlock := rfl }) fun _ => ?_
  exact .bind isLeader_mirrors fun leader => .ite (fun _ => .pure _) fun _ => .pure _

omit stores [ClientForHotstuff B C] in
theorem handleFormedTc_mirrors (tc : TC B) :
    Mirrors (Paired alike ahead behind) (handleFormedTc tc : Handler B C (Option (Call B)))
      (handleFormedTc tc) := by
  refine .bind (.read_bind fun worker other paired => ?_) fun _ => ?_
  · rw [paired.state]
    refine .ite (fun _ => ?_) fun _ => .pure _
    exact .bind (advanceView_mirrors _) fun _ => record_mirrors _ rfl rfl
  · refine .bind (record_mirrors _ rfl rfl) fun _ => .bind isLeader_mirrors fun leader => ?_
    refine .ite (fun _ => ?_) fun _ => .pure _
    exact .bind (.update fun _ _ paired => { paired with processingBlock := rfl }) fun _ => .pure _

omit stores [ClientForHotstuff B C] in
theorem handleTimeout_mirrors (timeout : Timeout B) :
    Mirrors (Paired alike ahead behind) (handleTimeout timeout : Handler B C (Option (Call B)))
      (handleTimeout timeout) := by
  refine .read_bind fun worker other paired => ?_
  rw [paired.state]
  refine .ite (fun _ => .pure _) fun _ => .bind (.check _) fun _ => ?_
  refine .bind (record_mirrors _ rfl rfl) fun _ => .bind (handleQc_mirrors _) fun _ => ?_
  refine .bind (.bind (onState_mirrors _) fun formed => ?_) fun formed => ?_
  · cases formed with
    | none => exact .pure _
    | some tc => exact .bind (record_mirrors _ rfl rfl) fun _ => .pure _
  · cases formed with
    | none => exact .pure _
    | some tc => exact handleFormedTc_mirrors tc

theorem generateProposal_mirrors (tc : Option (TC B)) :
    Mirrors (Paired alike ahead behind) (generateProposal tc : Handler B C (Option (Call B)))
      (generateProposal tc) := by
  refine .bind (getProposalPayload_mirrors stores) fun payload => ?_
  cases payload with
  | none => exact .pure _
  | some payload => exact propose_mirrors payload tc

/-- Every handler treats paired workers the same. -/
theorem handle_mirrors (call : Call B) :
    Mirrors (Paired alike ahead behind) (handle call : Handler B C (Option (Call B)))
      (handle call) := by
  cases call with
  | localTimer => exact handleLocalTimer_mirrors
  | timeout timeout => exact handleTimeout_mirrors timeout
  | proposal proposal => exact handleProposal_mirrors stores proposal
  | vote vote => exact handleVote_mirrors stores vote
  | tc tc => exact handleTc_mirrors tc
  | generateProposal tc => exact generateProposal_mirrors stores tc

theorem settle_mirrors (fuel : Nat) (control : Control B)
    (paired : Paired alike ahead behind worker other) :
    (Replica.settle fuel ⟨worker, control⟩).control =
        (Replica.settle fuel ⟨other, control⟩).control ∧
      Paired alike ahead behind (Replica.settle fuel ⟨worker, control⟩).worker
        (Replica.settle fuel ⟨other, control⟩).worker := by
  induction fuel generalizing worker other control with
  | zero => exact ⟨rfl, paired⟩
  | succ fuel ih =>
    unfold Replica.settle
    cases control with
    | idle => exact ⟨rfl, paired⟩
    | halted => exact ⟨rfl, paired⟩
    | running call =>
      obtain ⟨same, kept⟩ := handle_mirrors stores call worker other paired
      simp only [Replica.resume, same]
      exact ih _ kept

end Commands

/-- A proposal whose TC resets the timer: it is accepted, and its TC is of a
view above the one that its QC leads to. -/
def ResetsTimer (worker : ConsensusWorker B C) (proposal : Proposal B) : Prop :=
  Accepts worker (.proposal proposal) proposal.qc ∧ ∃ tc view, proposal.tc = some tc ∧
    Leaps worker.state.view proposal.qc.view view ∧ view < tc.view

section FirstCall

variable {alike : C → C → Prop} {ahead behind : Nat} {worker other : ConsensusWorker B C}
  {proposal copy : Proposal B}

omit [ClientForHotstuff B C] in
theorem handleQc_of_leaps {qc : QC B} {view : ViewNumber}
    (leaps : Leaps worker.state.view qc.view view) :
    ∃ next, handleQc qc worker = (.ok (), next) ∧ next.state.view = view := by
  rcases handleQc_cases qc worker with ⟨⟨current, last⟩, _⟩ | ⟨next, handled, ran⟩
  · rcases leaps with ⟨_, following⟩ | ⟨apart, _⟩
    · cases last.symm.trans following
    · exact absurd current apart
  · exact ⟨next, ran, handled.leaps.unique leaps⟩

theorem takeProposal_accepted (accepts : Accepts worker (.proposal proposal) proposal.qc) :
    takeProposal proposal worker = (handleQc proposal.qc >>= fun _ => pure true)
      (worker.emit (.verifiedProposal proposal)) := by
  obtain ⟨known, verified, _⟩ := accepts
  unfold takeProposal
  rw [bind_ok (payloadUnknown_known known)]
  simp only [Bool.false_eq_true, ↓reduceIte, Command.read_bind, verified]
  rfl

theorem takeProposal_refused (refused : ¬ Accepts worker (.proposal proposal) proposal.qc) :
    (takeProposal proposal worker).1 ≠ .ok true := by
  by_cases known : proposal.payload.blockHash = emptyPayloadHash ∨
      ClientForHotstuff.status worker.client proposal.payload.blockHash = .ok .inChain
  · cases checked : worker.state.verifyProposal proposal with
    | ok value => exact absurd ⟨known, checked, rfl⟩ refused
    | error fault =>
      unfold takeProposal
      rw [bind_ok (payloadUnknown_known known)]
      simp [bind_apply, checked]
  · rw [not_or] at known
    cases status : ClientForHotstuff.status worker.client proposal.payload.blockHash with
    | error reason =>
      simp [takeProposal, payloadUnknown, bind_apply, known.1, status, Command.fail]
    | ok found =>
      cases found with
      | inChain => exact absurd status known.2
      | unknown => simp [takeProposal, payloadUnknown, bind_apply, known.1, status, record]

/-- A proposal goes on behind its QC exactly when it is accepted and the QC
leads to some view. -/
theorem takeProposal_true_iff {view : ViewNumber} :
    ((takeProposal proposal worker).1 = .ok true ∧
        (takeProposal proposal worker).2.state.view = view) ↔
      Accepts worker (.proposal proposal) proposal.qc ∧
        Leaps worker.state.view proposal.qc.view view := by
  by_cases accepts : Accepts worker (.proposal proposal) proposal.qc
  · rw [takeProposal_accepted accepts]
    constructor
    · rintro ⟨taken, rfl⟩
      rcases ran : handleQc proposal.qc (worker.emit (.verifiedProposal proposal)) with
        ⟨outcome, next⟩
      cases outcome with
      | error fault => simp [bind_error ran] at taken
      | ok value =>
        rw [bind_ok ran]
        exact ⟨accepts, (HandlesQc.of_ran ran).leaps⟩
    · rintro ⟨_, leaps⟩
      have checked : Leaps (worker.emit (.verifiedProposal proposal)).state.view
          proposal.qc.view view := leaps
      obtain ⟨next, ran, reached⟩ := handleQc_of_leaps checked
      rw [bind_ok ran]
      exact ⟨rfl, reached⟩
  · exact iff_of_false (fun taken => takeProposal_refused accepts taken.1) fun both =>
      accepts both.1

theorem resetsTimer_iff : ResetsTimer worker proposal ↔
    (takeProposal proposal worker).1 = .ok true ∧
      aheadOf (takeProposal proposal worker).2.state.view proposal.tc = true := by
  constructor
  · rintro ⟨accepts, tc, view, carried, leaps, above⟩
    obtain ⟨taken, rfl⟩ := takeProposal_true_iff.mpr ⟨accepts, leaps⟩
    exact ⟨taken, by simpa [aheadOf, carried] using above⟩
  · rintro ⟨taken, above⟩
    obtain ⟨accepts, leaps⟩ := takeProposal_true_iff.mp ⟨taken, rfl⟩
    cases carried : proposal.tc with
    | none => simp [aheadOf, carried] at above
    | some tc => exact ⟨accepts, tc, _, carried, leaps, by simpa [aheadOf, carried] using above⟩

omit [ClientForHotstuff B C] in
theorem ConsensusWorker.delayed_frame (worker : ConsensusWorker B C) (tc : Option (TC B)) :
    ∃ network log, worker.delayed tc = { worker with network, log } ∧
      visible log = visible worker.log ∧
      timerResets log = timerResets worker.log + (aheadOf worker.state.view tc).toNat := by
  unfold delayed
  cases aheadOf worker.state.view tc with
  | false => exact ⟨_, _, rfl, rfl, rfl⟩
  | true =>
    refine ⟨_, _, rfl, ?_, ?_⟩
    · simp [visible, moved, List.filterMap_cons, Event.visible?]
    · simp [timerResets, moved, Event.isReset]

omit [ClientForHotstuff B C] in
theorem Paired.delayed (tc twin : Option (TC B)) (paired : Paired alike ahead behind worker other) :
    Paired alike (ahead + (aheadOf worker.state.view tc).toNat)
      (behind + (aheadOf worker.state.view twin).toNat) (worker.delayed tc)
      (other.delayed twin) := by
  obtain ⟨_, _, same, seen, resets⟩ := worker.delayed_frame tc
  obtain ⟨_, _, sameToo, seenToo, resetsToo⟩ := other.delayed_frame twin
  have start := paired.resets
  rw [paired.state] at resetsToo
  rw [same, sameToo]
  refine { paired with visible := ?_, resets := ?_ }
  · rw [seen, seenToo, paired.visible]
  · rw [resets, resetsToo]
    omega

/-- One call on two proposals that differ in their TCs: the results are the
same, and the workers differ by the resets of the TCs. -/
theorem handleProposal_pairs (stores : StoresAlike B alike) (same : proposal.SameButTc copy)
    (worker : ConsensusWorker B C) :
    ∃ ahead behind, (ahead = behind ↔ (ResetsTimer worker proposal ↔ ResetsTimer worker copy)) ∧
      (handleProposal proposal worker).1 = (handleProposal copy worker).1 ∧
      Paired alike ahead behind (handleProposal proposal worker).2
        (handleProposal copy worker).2 := by
  have start : Paired alike 0 0 worker worker := ⟨rfl, stores.refl _, rfl, rfl, rfl, rfl, rfl⟩
  obtain ⟨agreed, kept⟩ := takeProposal_mirrors stores same worker worker start
  rw [handleProposal_eq, handleProposal_eq, resetsTimer_iff, resetsTimer_iff]
  rcases ran : takeProposal proposal worker with ⟨outcome, left⟩
  rcases ranToo : takeProposal copy worker with ⟨result, right⟩
  rw [ran, ranToo] at agreed kept
  cases agreed
  cases outcome with
  | error fault =>
    rw [bind_error ran, bind_error ranToo]
    exact ⟨0, 0, by simp, rfl, kept⟩
  | ok taken =>
    rw [bind_ok ran, bind_ok ranToo]
    cases taken with
    | false => exact ⟨0, 0, by simp, rfl, kept⟩
    | true =>
      simp only [↓reduceIte, bind_ok (handleProposalTc_apply _)]
      refine ⟨_, _, ?_, finishProposal_mirrors stores same _ _
        (kept.delayed proposal.tc copy.tc)⟩
      rw [kept.state]
      cases aheadOf left.state.view proposal.tc <;> cases aheadOf left.state.view copy.tc <;> simp

end FirstCall

/-- A proposal is handled to its end, with the calls it leads to, or for any
number of them. Replacing its TC changes neither the state nor a message, a
vote or a finalized block; it changes the number of timer resets unless both
TCs reset the timer or neither does. -/
theorem proposal_tc_shows {alike : C → C → Prop} (stores : StoresAlike B alike)
    (worker : ConsensusWorker B C) {proposal copy : Proposal B} (same : proposal.SameButTc copy)
    (fuel : Nat) :
    let first := Replica.settle (fuel + 1) ⟨worker, .running (.proposal proposal)⟩
    let second := Replica.settle (fuel + 1) ⟨worker, .running (.proposal copy)⟩
    first.control = second.control ∧ first.worker.state = second.worker.state ∧
      visible first.worker.log = visible second.worker.log ∧
      (timerResets first.worker.log = timerResets second.worker.log ↔
        (ResetsTimer worker proposal ↔ ResetsTimer worker copy)) := by
  obtain ⟨ahead, behind, exactly, agreed, paired⟩ := handleProposal_pairs stores same worker
  obtain ⟨control, kept⟩ := settle_mirrors stores fuel
    (Replica.controlAfter (handleProposal proposal worker).1) paired
  have resets := kept.resets
  have copied : Replica.settle (fuel + 1) ⟨worker, .running (.proposal copy)⟩ =
      Replica.settle fuel ⟨(handleProposal copy worker).2,
        Replica.controlAfter (handleProposal proposal worker).1⟩ := by
    rw [agreed]
    rfl
  intro first second
  rw [show second = _ from copied, ← exactly]
  refine ⟨control, kept.state.symm, kept.visible.symm, ?_⟩
  constructor
  · intro equal
    change timerResets first.worker.log + behind = _ at resets
    omega
  · intro equal
    change timerResets first.worker.log + behind = _ at resets
    omega

/-- Sample clients that differ in the TCs of stored proposals. -/
def Sample.Alike (client other : Sample.Client) : Prop :=
  client.finalized = other.finalized ∧
    List.Forall₂ (fun entry copy => entry.1 = copy.1 ∧ entry.2.SameButTc copy.2) client.stored
      other.stored

theorem Sample.lookup_alike {stored copied : List (Hash Sample × Proposal Sample)}
    (alike : List.Forall₂ (fun entry copy => entry.1 = copy.1 ∧ entry.2.SameButTc copy.2) stored
      copied) (key : Hash Sample) :
    Option.Rel Proposal.SameButTc (stored.lookup key) (copied.lookup key) := by
  induction alike with
  | nil => exact .none
  | @cons entry copy _ _ both _ ih =>
    obtain ⟨found, proposal⟩ := entry
    obtain ⟨twin, copy⟩ := copy
    obtain ⟨rfl, same⟩ := both
    rw [List.lookup_cons, List.lookup_cons]
    cases key == found with
    | true => exact .some same
    | false => exact ih

theorem Sample.storesAlike : StoresAlike Sample Sample.Alike where
  refl client := ⟨rfl, List.forall₂_same.mpr fun entry _ => ⟨rfl, .refl entry.2⟩⟩
  status _ _ := rfl
  info alike := by simp only [ClientForHotstuff.info, alike.1]
  finalizeBlock alike _ := ⟨rfl, alike.2⟩
  getAux {first second} alike key := by
    have found := Sample.lookup_alike alike.2 key
    refine .ok ?_
    change Option.Rel _ (first.stored.lookup key) (second.stored.lookup key)
    generalize first.stored.lookup key = one at found ⊢
    generalize second.stored.lookup key = two at found ⊢
    cases found with
    | none => exact .none
    | some same => exact .some (.ok same)
  insertAux alike key _ _ same := ⟨rfl, alike.1, .cons ⟨rfl, same⟩ alike.2⟩

/-- A replica of four authorities that has left view 1 by a TC. -/
def Sample.late : Replica Sample Sample.Client :=
  (Sample.replica 4 0 []).session 9 [.tc (Sample.tc 0 [1, 2, 3]), .tc (Sample.tc 1 [1, 2, 3])]

def Sample.plain : Proposal Sample :=
  Sample.proposal (Sample.qc (7 : BitVec 64) 1 [1, 2, 3]) (9 : BitVec 64) 2 2

def Sample.plainWith (view : ViewNumber) : Proposal Sample :=
  { Sample.plain with tc := some ⟨view, []⟩ }

/-- A TC without signatures makes no difference if it is behind the view. -/
theorem proposal_tc_hidden :
    let first := Replica.settle (4 + 1) ⟨Sample.late.worker, .running (.proposal Sample.plain)⟩
    let second := Replica.settle (4 + 1)
      ⟨Sample.late.worker, .running (.proposal (Sample.plainWith 1))⟩
    first.worker.state = second.worker.state ∧
      visible first.worker.log = visible second.worker.log ∧
      timerResets first.worker.log = timerResets second.worker.log := by
  have reached : (1 : ViewNumber) < Sample.late.worker.state.view := by decide +kernel
  have none : ¬ ResetsTimer Sample.late.worker Sample.plain := by
    rintro ⟨_, tc, view, carried, _⟩
    cases carried
  have behind : ¬ ResetsTimer Sample.late.worker (Sample.plainWith 1) := by
    rintro ⟨_, tc, view, carried, leaps, above⟩
    cases carried
    exact UInt64.lt_irrefl _ (UInt64.lt_trans (UInt64.lt_of_lt_of_le reached leaps.le) above)
  have same : Sample.plain.SameButTc (Sample.plainWith 1) := ⟨some ⟨1, []⟩, rfl⟩
  obtain ⟨_, state, seen, resets⟩ :=
    proposal_tc_shows Sample.storesAlike Sample.late.worker same 4
  exact ⟨state, seen, resets.mpr (iff_of_false none behind)⟩

/-- A TC without a single signature, of a view far ahead, resets the timer of a
replica that votes for the proposal either way. -/
theorem proposal_tc_forged :
    Replica.Run (Sample.keystore 0) (Sample.authorities 4) Sample.late ∧
    (⟨100, []⟩ : TC Sample).verify (Sample.authorities 4) ≠ .ok () ∧
    timerResets (handleProposal Sample.plain Sample.late.worker).2.log =
      timerResets Sample.late.worker.log ∧
    timerResets (handleProposal (Sample.plainWith 100)
      Sample.late.worker).2.log = timerResets Sample.late.worker.log + 1 := by
  refine ⟨(Sample.replica_run 4 0 []).session 9 _, ?_, ?_, ?_⟩
  · decide +kernel
  · decide +kernel
  · decide +kernel

end Hotstuff
