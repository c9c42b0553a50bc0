import Hotstuff.Consensus.SampleNode
import Hotstuff.Consensus.System

/-! Messages signed with keys outside the authority list. All that can make a
replica act on them is a TC, whose voters are not looked up in the list, and
the payload of a proposal, which is looked up before the proposal is verified. -/

namespace Hotstuff

open ConsensusWorker

variable {B C : Type} [BlockT B]

/-- No key of the list made any signature of the message or inside its
certificates: none of them is valid under any of these keys, on anything. -/
def FromOutsiders (authorities : AuthorityList B) (message : ConsensusMessage B) : Prop :=
  ∀ entry ∈ message.signatures, ∀ id ∈ authorities.ids, ∀ digest,
    BlockT.verify entry.2.1 digest id = false

/-- The check of a single signature refuses every signature of an outsider. -/
theorem verifySigned_outside {authorities : AuthorityList B} {id : AuthorityId B}
    {signature : Option (AuthoritySignature B)} {digest : Hash B}
    (outside : ∀ entry ∈ (signature.map fun found => (id, found, digest)).toList,
      ∀ id ∈ authorities.ids, ∀ digest, BlockT.verify entry.2.1 digest id = false) :
    verifySigned authorities id signature digest ≠ .ok () := by
  intro passed
  obtain ⟨known, found, present, valid⟩ := verifySigned_ok_iff.mp passed
  have invalid := outside (id, found, digest) (by simp [present]) id known digest
  rw [invalid] at valid
  cases valid

variable [ClientForHotstuff B C] {worker : ConsensusWorker B C}

/-- A call that leaves the worker as it is, and to which no other call follows. -/
def Ignores (worker : ConsensusWorker B C) (call : Call B) : Prop :=
  (handle call worker).2 = worker ∧ ∀ next, (handle call worker).1 ≠ .ok (some next)

theorem Ignores.of_outcome {call : Call B} (ignored : ∀ ending : Ending B C,
    Outcome worker call ending → ending.2 = worker ∧ ∀ next, ending.1 ≠ .ok (some next)) :
    Ignores worker call :=
  ignored _ (handle_outcome call worker)

theorem ignores_vote {vote : Vote B}
    (outside : FromOutsiders worker.state.authorities (.vote vote)) :
    Ignores worker (.vote vote) := by
  have failed : worker.state.verifyVote vote ≠ .ok () := by
    intro passed
    exact verifySigned_outside outside (ConsensusState.verifyVote_ok_iff.mp passed).2
  refine .of_outcome fun ending outcome => ?_
  cases outcome with
  | refused reason _ => exact ⟨rfl, fun next same => by cases same⟩
  | uncounted _ verified _ => exact absurd verified failed
  | counted verified _ => exact absurd verified failed
  | formed _ _ verified _ _ => exact absurd verified failed

theorem ignores_timeout {timeout : Timeout B}
    (outside : FromOutsiders worker.state.authorities (.timeout timeout)) :
    Ignores worker (.timeout timeout) := by
  have failed : worker.state.verifyTimeout timeout ≠ .ok () := by
    intro passed
    apply verifySigned_outside (fun found member => outside found ?_)
      (verifySigned_ok_iff.mpr (Timeout.verify_ok_iff.mp passed).1)
    exact List.mem_append_left _ member
  refine .of_outcome fun ending outcome => ?_
  cases outcome with
  | late _ => exact ⟨rfl, fun next same => by cases same⟩
  | refused _ _ _ => exact ⟨rfl, fun next same => by cases same⟩
  | overflow _ verified _ => exact absurd verified failed
  | uncounted _ _ hears _ => exact absurd hears.verified failed
  | counted _ hears _ => exact absurd hears.verified failed
  | formed _ _ _ hears _ _ => exact absurd hears.verified failed

theorem ignores_tc {tc : TC B} (failed : worker.state.verifyTc tc ≠ .ok ()) :
    Ignores worker (.tc tc) := by
  refine .of_outcome fun ending outcome => ?_
  cases outcome with
  | refused _ _ => exact ⟨rfl, fun next same => by cases same⟩
  | overflow verified _ => exact absurd verified failed
  | leaderless _ verified _ _ => exact absurd verified failed
  | follower _ verified _ _ => exact absurd verified failed
  | leader _ verified _ _ => exact absurd verified failed

theorem ignores_proposal {proposal : Proposal B}
    (outside : FromOutsiders worker.state.authorities (.propose proposal))
    (known : proposal.payload.blockHash = emptyPayloadHash ∨
      ClientForHotstuff.status worker.client proposal.payload.blockHash ≠ .ok .unknown) :
    Ignores worker (.proposal proposal) := by
  have failed : worker.state.verifyProposal proposal ≠ .ok () := by
    intro passed
    have checked := (ConsensusState.verifyProposal_ok_iff.mp passed).2
    apply verifySigned_outside (fun found member => outside found ?_)
      (verifySigned_ok_iff.mpr (Proposal.verify_ok_iff.mp checked).1)
    exact List.mem_append_left _ (List.mem_append_left _ member)
  refine .of_outcome fun ending outcome => ?_
  cases outcome with
  | unreadable _ _ _ => exact ⟨rfl, fun next same => by cases same⟩
  | unknown real absent => exact absurd absent (known.resolve_left real)
  | refused fault _ _ => exact ⟨rfl, fun next same => by cases same⟩
  | overflow _ verified _ => exact absurd verified failed
  | unsaved _ _ taken _ => exact absurd taken.verified failed
  | lastView _ _ _ taken _ _ _ => exact absurd taken.verified failed
  | elsewhere _ _ taken _ _ _ => exact absurd taken.verified failed
  | reached _ _ _ taken _ _ _ _ => exact absurd taken.verified failed

/-- The messages of outsiders that do nothing: a TC fails its check, and the
payload of a proposal is not a block that the client would have to ask for. -/
def Refuses (worker : ConsensusWorker B C) : ConsensusMessage B → Prop
  | .propose proposal =>
      proposal.payload.blockHash = emptyPayloadHash ∨
        ClientForHotstuff.status worker.client proposal.payload.blockHash ≠ .ok .unknown
  | .tc tc => worker.state.verifyTc tc ≠ .ok ()
  | _ => True

theorem Refuses.ignores {message : ConsensusMessage B} {call : Call B}
    (refuses : Refuses worker message)
    (outside : FromOutsiders worker.state.authorities message)
    (selected : Replica.callOf message = some call) : Ignores worker call := by
  cases message with
  | propose proposal =>
    cases selected
    exact ignores_proposal outside refuses
  | vote vote =>
    cases selected
    exact ignores_vote outside
  | timeout timeout =>
    cases selected
    exact ignores_timeout outside
  | tc tc =>
    cases selected
    exact ignores_tc refuses
  | syncRequest hash id => cases selected
  | phantom => cases selected

/-- An unknown payload is asked for before anything is verified. -/
theorem ProposalOutcome.asks {proposal : Proposal B} {ending : Ending B C}
    (outcome : ProposalOutcome worker proposal ending)
    (real : proposal.payload.blockHash ≠ emptyPayloadHash)
    (absent : ClientForHotstuff.status worker.client proposal.payload.blockHash =
      .ok .unknown) :
    ending.2 = worker.emit
      (.syncRequest proposal.payload.blockHash proposal.payload.blockNumber) := by
  have unknown : ¬ HasPayload worker proposal := by
    rintro (empty | present)
    · exact real empty
    · cases present.symm.trans absent
  cases outcome with
  | unreadable reason _ failed => cases absent.symm.trans failed
  | unknown _ _ => rfl
  | refused fault known _ => exact absurd known unknown
  | overflow known _ _ => exact absurd known unknown
  | unsaved _ _ taken _ => exact absurd taken.known unknown
  | lastView _ _ _ taken _ _ _ => exact absurd taken.known unknown
  | elsewhere _ _ taken _ _ _ => exact absurd taken.known unknown
  | reached _ _ _ taken _ _ _ _ => exact absurd taken.known unknown

/-- A TC that passes its check leaves a trace. -/
theorem TcOutcome.log {tc : TC B} {ending : Ending B C} (outcome : TcOutcome worker tc ending)
    (verified : worker.state.verifyTc tc = .ok ()) :
    ∃ events, ending.2.log = worker.log ++ .verifiedTc tc :: events := by
  have grows {passed : ConsensusWorker B C}
      (passes : Passes (worker.emit (.verifiedTc tc)) tc.view passed) :
      ∃ events, (passed.emit .resetTimer).log = worker.log ++ .verifiedTc tc :: events := by
    have calm : Calm Policy.any _ passed := passes.calm (.inl (by simp))
    obtain ⟨events, grown⟩ := acts_log_grows (.single (.calm calm))
    exact ⟨events ++ [.resetTimer], by simp [grown]⟩
  cases outcome with
  | refused reason failed => cases verified.symm.trans failed
  | overflow _ _ => exact ⟨[], rfl⟩
  | leaderless passed _ passes _ => exact grows passes
  | follower passed _ passes _ => exact grows passes
  | leader passed _ passes _ => exact grows passes

namespace Replica

theorem settle_log_grows (fuel : Nat) (replica : Replica B C) :
    ∃ events, (replica.settle fuel).worker.log = replica.worker.log ++ events := by
  induction fuel generalizing replica with
  | zero => exact ⟨[], by simp [settle]⟩
  | succ fuel ih =>
    unfold settle
    split
    · rename_i call running
      obtain ⟨first, grown⟩ := acts_log_grows (Step.follows (.resume running))
      obtain ⟨later, longer⟩ := ih (replica.resume call)
      exact ⟨first ++ later, by rw [longer, grown, List.append_assoc]⟩
    · exact ⟨[], by simp⟩

theorem settle_ignored {replica : Replica B C} {call : Call B}
    (ignored : Ignores replica.worker call) (fuel : Nat) :
    (settle (fuel + 1) { replica with control := .running call }).worker = replica.worker ∧
      ∀ next, (settle (fuel + 1) { replica with control := .running call }).control ≠
        .running next := by
  have control : ∀ next, ({ replica with control := .running call }.resume call).control ≠
      .running next :=
    fun next running => ignored.2 next (controlAfter_running running)
  have done : settle (fuel + 1) { replica with control := .running call } =
      { replica with control := .running call }.resume call :=
    settle_still fuel control
  rw [done]
  exact ⟨ignored.1, control⟩

theorem react_ignored {replica : Replica B C} {call : Call B}
    (ignored : Ignores replica.worker call) (still : ∀ next, replica.control ≠ .running next)
    (fuel : Nat) :
    (replica.react (fuel + 1) call).worker = replica.worker ∧
      ∀ next, (replica.react (fuel + 1) call).control ≠ .running next := by
  unfold react
  split
  · split
    · exact settle_ignored ignored fuel
    · exact ⟨rfl, still⟩
  · exact ⟨rfl, still⟩

/-- Calls that a worker ignores can come in any number. -/
theorem session_ignored {replica : Replica B C} {calls : List (Call B)}
    (ignored : ∀ call ∈ calls, Ignores replica.worker call)
    (still : ∀ next, replica.control ≠ .running next) (fuel : Nat) :
    (replica.session (fuel + 1) calls).worker = replica.worker ∧
      ∀ next, (replica.session (fuel + 1) calls).control ≠ .running next := by
  induction calls generalizing replica with
  | nil => exact ⟨rfl, still⟩
  | cons call rest ih =>
    obtain ⟨same, stays⟩ := react_ignored (ignored call (by simp)) still fuel
    have later := ih (fun other member => by
      rw [same]
      exact ignored other (List.mem_cons_of_mem _ member)) stays
    rw [same] at later
    exact later

/-- A message that is not refused changes an idle replica. -/
theorem react_noticed {replica : Replica B C} {message : ConsensusMessage B} {call : Call B}
    (idle : replica.control = .idle) (selected : callOf message = some call)
    (noticed : ¬ Refuses replica.worker message) (fuel : Nat) :
    (replica.react (fuel + 1) call).worker ≠ replica.worker := by
  have outside : external call = true := by
    cases message <;> cases selected <;> rfl
  have longer : ∃ event events,
      (handle call replica.worker).2.log = replica.worker.log ++ event :: events := by
    cases message with
    | propose proposal =>
      cases selected
      obtain ⟨real, unknown⟩ := not_or.mp noticed
      have asked := (handleProposal_outcome proposal replica.worker).asks real
        (not_not.mp unknown)
      exact ⟨_, [], congrArg ConsensusWorker.log asked⟩
    | tc tc =>
      cases selected
      obtain ⟨events, grown⟩ :=
        (handleTc_outcome tc replica.worker).log (not_not.mp noticed)
      exact ⟨_, events, grown⟩
    | vote vote => exact absurd trivial noticed
    | timeout timeout => exact absurd trivial noticed
    | syncRequest hash id => exact absurd trivial noticed
    | phantom => exact absurd trivial noticed
  obtain ⟨event, events, grown⟩ := longer
  obtain ⟨later, rest⟩ :=
    settle_log_grows fuel ({ replica with control := .running call }.resume call)
  intro same
  have log : (replica.react (fuel + 1) call).worker.log =
      (replica.worker.log ++ event :: events) ++ later := by
    rw [← grown]
    simp only [react, idle, outside, if_true]
    exact rest
  rw [same, List.append_assoc] at log
  simp at log

end Replica

/-- Handling any sequence of messages that outsiders have signed leaves the
worker as it is, without gossip, requests or anything else in its trace, as long
as every TC fails its check and no proposal has an unknown payload; and a single
message is ignored exactly under this condition. -/
theorem outsiders_inert {keystore : Keystore B} {authorities : AuthorityList B}
    {replica : Replica B C} (run : Replica.Run keystore authorities replica)
    (idle : replica.control = .idle) (fuel : Nat) :
    (∀ messages : List (ConsensusMessage B),
      (∀ message ∈ messages, FromOutsiders authorities message) →
      (∀ message ∈ messages, Refuses replica.worker message) →
      (replica.session (fuel + 1) (messages.filterMap Replica.callOf)).worker =
          replica.worker ∧
        ∀ call, (replica.session (fuel + 1) (messages.filterMap Replica.callOf)).control ≠
          .running call) ∧
    ∀ message call, FromOutsiders authorities message →
      Replica.callOf message = some call →
      ((replica.react (fuel + 1) call).worker = replica.worker ↔
        Refuses replica.worker message) := by
  have evident : Evident Policy.any keystore authorities replica.worker :=
    run.evident fun state _ call _ => Policy.any_admits state.worker call
  have still (call : Call B) : replica.control ≠ .running call := by
    rw [idle]
    intro same
    cases same
  have ignores (message : ConsensusMessage B) (call : Call B)
      (outside : FromOutsiders authorities message)
      (selected : Replica.callOf message = some call)
      (refuses : Refuses replica.worker message) : Ignores replica.worker call :=
    refuses.ignores (by rw [evident.sameAuthorities]; exact outside) selected
  refine ⟨fun messages outside refuses => ?_, fun message call outside selected => ?_⟩
  · apply Replica.session_ignored _ still
    intro call member
    obtain ⟨message, present, selected⟩ := List.mem_filterMap.mp member
    exact ignores message call (outside message present) selected (refuses message present)
  · constructor
    · intro same
      by_contra noticed
      exact Replica.react_noticed idle selected noticed fuel same
    · intro refuses
      exact (Replica.react_ignored (ignores message call outside selected refuses) still fuel).1

/-- A sample signature is valid under the key that made it only. -/
theorem Sample.fromOutsiders {authorities : AuthorityList Sample}
    {message : ConsensusMessage Sample}
    (outside : ∀ entry ∈ message.signatures, entry.2.1.1 ∉ authorities.ids) :
    FromOutsiders authorities message := by
  intro entry member id known digest
  apply decide_eq_false
  intro same
  apply outside entry member
  rw [same]
  exact known

/-- A vote, a timeout, a TC without a quorum and a proposal, all signed by keys
outside the list, do nothing to a replica of four authorities. -/
theorem outsiders_inert_four :
    ((Sample.replica 4 0 []).session 1
      [.vote (Sample.vote (7 : BitVec 64) 0 5), .timeout (Sample.timeout QC.default 0 5),
        .tc (Sample.tc 0 [5, 6]),
        .proposal (Sample.proposal QC.default (9 : BitVec 64) 1 5)]).worker =
      (Sample.replica 4 0 []).worker := by
  refine ((outsiders_inert (Sample.replica_run 4 0 []) rfl 0).1
    [.vote (Sample.vote (7 : BitVec 64) 0 5), .timeout (Sample.timeout QC.default 0 5),
      .tc (Sample.tc 0 [5, 6]), .propose (Sample.proposal QC.default (9 : BitVec 64) 1 5)]
    ?_ ?_).1
  · intro message member
    apply Sample.fromOutsiders
    revert message
    decide +kernel
  · intro message member
    simp only [List.mem_cons, List.not_mem_nil, or_false] at member
    rcases member with rfl | rfl | rfl | rfl
    · trivial
    · trivial
    · show (Sample.replica 4 0 []).worker.state.verifyTc (Sample.tc 0 [5, 6]) ≠ .ok ()
      decide +kernel
    · exact .inr fun unknown => by cases unknown

/-- Three keys outside the list of four authorities sign a TC of view 0. The
leader of view 1 accepts it, enters view 1 and gossips a proposal. -/
theorem outsiders_move_view :
    Replica.Run (Sample.keystore 1) (Sample.authorities 4)
      (Sample.replica 4 1 [⟨some (8 : BitVec 64), 8⟩]) ∧
    FromOutsiders (Sample.authorities 4) (.tc (Sample.tc 0 [5, 6, 7])) ∧
    ∃ replica : Replica Sample Sample.Client,
      replica = (Sample.replica 4 1 [⟨some (8 : BitVec 64), 8⟩]).session 9
        [.tc (Sample.tc 0 [5, 6, 7])] ∧
      replica.worker.state.view = 1 ∧
      ∃ proposal ∈ madeProposals replica.worker.log,
        Event.gossip (.propose proposal) false ∈ replica.worker.log := by
  refine ⟨Sample.replica_run 4 1 _, Sample.fromOutsiders (by decide +kernel), _, rfl, ?_, ?_⟩
  · decide +kernel
  · decide +kernel

end Hotstuff
