import Hotstuff.Consensus.Refinement

/-! What the handlers write to the log and to the aggregator, call by call. Each
call follows one of a few scripts, and the log of a worker is made of them. -/

namespace Hotstuff

open ConsensusWorker

variable {B C : Type} [BlockT B]

/-- `handle_qc`: a QC that is behind is only recorded. -/
inductive QcScript (qc : QC B) : List (Event B) → Prop where
  | late : QcScript qc [.acceptedQc qc]
  | reached (source target : ViewNumber) :
      QcScript qc [.advanced source target, .resetTimer, .acceptedQc qc]

/-- A TC moves the view, or is behind it. -/
inductive TcScript : List (Event B) → Prop where
  | behind : TcScript []
  | moved (source target : ViewNumber) : TcScript [.advanced source target, .resetTimer]

inductive FinalityScript (proposal : Proposal B) : List (Event B) → Prop where
  | kept : FinalityScript proposal []
  | finalized (parent grandpa : Proposal B) :
      FinalityScript proposal [.finalized proposal parent grandpa grandpa.payload.blockHash]

/-- A vote goes out, or to oneself where one leads the next view. -/
inductive VoteScript (leads : ViewNumber → Bool) (proposal : Proposal B) :
    List (Event B) → Option (Call B) → Prop where
  | silent : VoteScript leads proposal [] none
  | own (view : ViewNumber) (vote : Vote B) (led : leads view = true) :
      VoteScript leads proposal [.voted view proposal vote] (some (.vote vote))
  | sent (view : ViewNumber) (vote : Vote B) (led : leads view = false) :
      VoteScript leads proposal [.voted view proposal vote, .gossip (.vote vote) false] none

/-- The events of a call that leaves the aggregator alone, and the call it ends
with. A call that is refused writes nothing. -/
inductive Script (leads : ViewNumber → Bool) :
    Call B → List (Event B) → Option (Call B) → Prop where
  | refused (call : Call B) : Script leads call [] none
  | timer (view : ViewNumber) :
      Script leads .localTimer [.resetTimer, .localTimer view] none
  | timedOut (view : ViewNumber) (timeout : Timeout B) :
      Script leads .localTimer
        [.resetTimer, .localTimer view, .timedOut timeout, .gossip (.timeout timeout) true]
        (some (.timeout timeout))
  | tc (tc : TC B) (source target : ViewNumber) (next : Option (Call B))
      (ends : next = none ∨ next = some (.generateProposal none)) :
      Script leads (.tc tc) [.verifiedTc tc, .advanced source target, .resetTimer] next
  | unknown (proposal : Proposal B) :
      Script leads (.proposal proposal)
        [.syncRequest proposal.payload.blockHash proposal.payload.blockNumber] none
  | proposal (proposal : Proposal B) (accepted moved finalized cast : List (Event B))
      (next : Option (Call B)) (qc : QcScript proposal.qc accepted) (move : TcScript moved)
      (finality : FinalityScript proposal finalized)
      (vote : VoteScript leads proposal cast next) :
      Script leads (.proposal proposal)
        (.verifiedProposal proposal :: accepted ++ moved ++ finalized ++ cast) next
  | proposed (tc : Option (TC B)) (proposal : Proposal B) (carried : proposal.tc = tc) :
      Script leads (.generateProposal tc)
        [.proposed proposal, .gossip (.propose proposal) false] (some (.proposal proposal))

/-- The same for a call that has counted a vote or a timeout: what was added, and
the certificate that this has completed, if any. -/
inductive CountScript (authorities : AuthorityList B) (aggregator : Aggregator B) :
    Call B → List (Event B) → Option (Call B) → Aggregator B → Prop where
  | vote (vote : Vote B) (verified : vote.verify authorities = .ok ())
      (missed : ∀ qc, (aggregator.addVote vote authorities).1 ≠ .ok (some qc)) :
      CountScript authorities aggregator (.vote vote) [.verifiedVote vote] none
        (aggregator.addVote vote authorities).2
  | formedQc (vote : Vote B) (verified : vote.verify authorities = .ok ()) (qc : QC B)
      (accepted : List (Event B))
      (formed : (aggregator.addVote vote authorities).1 = .ok (some qc))
      (handled : QcScript qc accepted) :
      CountScript authorities aggregator (.vote vote)
        (.verifiedVote vote :: .aggregatedQc qc :: accepted) none
        (aggregator.addVote vote authorities).2
  | reproposed (vote : Vote B) (verified : vote.verify authorities = .ok ()) (qc : QC B)
      (accepted : List (Event B)) (proposal : Proposal B)
      (formed : (aggregator.addVote vote authorities).1 = .ok (some qc))
      (handled : QcScript qc accepted) (bare : proposal.tc = none) :
      CountScript authorities aggregator (.vote vote)
        (.verifiedVote vote :: .aggregatedQc qc :: accepted ++
          [.proposed proposal, .gossip (.propose proposal) false]) (some (.proposal proposal))
        (aggregator.addVote vote authorities).2
  | timeout (timeout : Timeout B) (verified : timeout.verify authorities = .ok ())
      (accepted : List (Event B)) (qc : QcScript timeout.highQc accepted)
      (missed : ∀ tc, (aggregator.addTimeout timeout authorities).1 ≠ .ok (some tc)) :
      CountScript authorities aggregator (.timeout timeout) (.verifiedTimeout timeout :: accepted)
        none (aggregator.addTimeout timeout authorities).2
  | formedTc (timeout : Timeout B) (verified : timeout.verify authorities = .ok ()) (tc : TC B)
      (accepted moved : List (Event B)) (qc : QcScript timeout.highQc accepted)
      (formed : (aggregator.addTimeout timeout authorities).1 = .ok (some tc))
      (move : TcScript moved) (next : Option (Call B))
      (ends : next = none ∨ next = some (.generateProposal (some tc))) :
      CountScript authorities aggregator (.timeout timeout)
        (.verifiedTimeout timeout :: accepted ++ .aggregatedTc tc :: moved ++
          [.gossip (.tc tc) true]) next (aggregator.addTimeout timeout authorities).2

/-- Whether a replica leads the view behind a view. -/
def ConsensusState.leadsNext (state : ConsensusState B) (view : ViewNumber) : Bool :=
  view.next?.bind state.viewLeader = state.localAuthorityId

/-- The parts of the state that the scripts read: the keystore and the
authorities, which stay, and the aggregator. -/
structure Holding (keystore : Keystore B) (authorities : AuthorityList B)
    (aggregator : Aggregator B) (worker : ConsensusWorker B C) : Prop where
  keystore : worker.state.keystore = keystore
  authorities : worker.state.authorities = authorities
  aggregator : worker.state.aggregator = aggregator

/-- A call plays a script that leaves the aggregator alone, or one that counts. -/
def Performs (keystore : Keystore B) (authorities : AuthorityList B) (aggregator : Aggregator B)
    (call : Call B) (trace : List (Event B)) (next : Option (Call B)) (after : Aggregator B) :
    Prop :=
  (Script (ConsensusState.new keystore authorities).leadsNext call trace next ∧
    after = aggregator) ∨ CountScript authorities aggregator call trace next after

/-- The call that a result leads to; a failure leads to none. -/
def following : Except (Fault B) (Option (Call B)) → Option (Call B)
  | .ok next => next
  | .error _ => none

/-- A handler on a worker plays a script for its call. -/
def Plays (keystore : Keystore B) (authorities : AuthorityList B) (worker : ConsensusWorker B C)
    (call : Call B) (ending : Ending B C) : Prop :=
  ∃ trace after, ending.2.log = worker.log ++ trace ∧
    Performs keystore authorities worker.state.aggregator call trace (following ending.1) after ∧
    Holding keystore authorities after ending.2

section Pieces

variable {keystore : Keystore B} {authorities : AuthorityList B} {aggregator : Aggregator B}
  {worker next : ConsensusWorker B C}

theorem Holding.leadsNext (holding : Holding keystore authorities aggregator worker)
    (view : ViewNumber) :
    worker.state.leadsNext view = (ConsensusState.new keystore authorities).leadsNext view := by
  obtain ⟨rfl, rfl, rfl⟩ := holding
  rfl

theorem Holding.of_state (holding : Holding keystore authorities aggregator worker)
    (same : next.state = worker.state) : Holding keystore authorities aggregator next :=
  ⟨same ▸ holding.keystore, same ▸ holding.authorities, same ▸ holding.aggregator⟩

theorem HandlesQc.holding {qc : QC B} (handled : HandlesQc worker qc next)
    (holding : Holding keystore authorities aggregator worker) :
    Holding keystore authorities aggregator next := by
  refine ⟨?_, handled.authorities.trans holding.authorities,
    handled.aggregator.trans holding.aggregator⟩
  rw [← holding.keystore]
  cases handled with
  | late _ => rfl
  | current _ _ _ => simp [accepted]
  | ahead _ => simp [accepted]

theorem HandlesQc.script {qc : QC B} (handled : HandlesQc worker qc next) :
    ∃ trace, next.log = worker.log ++ trace ∧ QcScript qc trace := by
  cases handled with
  | late _ => exact ⟨_, rfl, .late⟩
  | current view _ _ => exact ⟨_, rfl, .reached _ view⟩
  | ahead _ => exact ⟨_, rfl, .reached _ _⟩

theorem Passes.holding {view : ViewNumber} (passes : Passes worker view next)
    (holding : Holding keystore authorities aggregator worker) :
    Holding keystore authorities aggregator next := by
  obtain ⟨sameKeystore, sameAuthorities, sameAggregator⟩ := holding
  cases passes <;> exact ⟨sameKeystore, sameAuthorities, sameAggregator⟩

theorem Passes.log {view : ViewNumber} (passes : Passes worker view next) :
    ∃ target, next.log = worker.log ++ [.advanced worker.state.view target] := by
  cases passes with
  | current following _ _ => exact ⟨following, rfl⟩
  | ahead _ => exact ⟨_, rfl⟩

theorem PassesTc.holding {tc : TC B} (passes : PassesTc worker tc next)
    (holding : Holding keystore authorities aggregator worker) :
    Holding keystore authorities aggregator next := by
  cases passes with
  | behind _ => exact holding
  | moved next passes => exact (passes.holding holding).of_state rfl

theorem PassesTc.script {tc : TC B} (passes : PassesTc worker tc next) :
    ∃ trace, next.log = worker.log ++ trace ∧ TcScript trace := by
  cases passes with
  | behind _ => exact ⟨[], (List.append_nil _).symm, .behind⟩
  | moved next passes =>
    obtain ⟨target, written⟩ := passes.log
    exact ⟨_, by rw [emit_log, written, List.append_assoc, List.singleton_append],
      .moved worker.state.view target⟩

theorem delayed_script (tc : Option (TC B)) (worker : ConsensusWorker B C) :
    ∃ trace, (worker.delayed tc).log = worker.log ++ trace ∧ TcScript trace := by
  unfold delayed
  split
  · exact ⟨_, List.append_assoc _ _ _, .moved worker.state.view worker.state.view⟩
  · exact ⟨[], (List.append_nil _).symm, .behind⟩

theorem makeVote_holding {vote : Option (Vote B)} {marked : ConsensusState B}
    {proposal : Proposal B} (made : worker.state.makeVote proposal = (vote, marked))
    (holding : Holding keystore authorities aggregator worker) (same : next.state = marked) :
    Holding keystore authorities aggregator next := by
  obtain ⟨view, rfl⟩ := makeVote_static made
  exact ⟨by rw [same]; exact holding.keystore, by rw [same]; exact holding.authorities,
    by rw [same]; exact holding.aggregator⟩

theorem CastOutcome.holding {proposal : Proposal B} {ending : Ending B C}
    (outcome : CastOutcome worker proposal ending)
    (holding : Holding keystore authorities aggregator worker) :
    Holding keystore authorities aggregator ending.2 := by
  cases outcome with
  | unmade marked made => exact makeVote_holding made holding rfl
  | stranded vote marked made _ => exact makeVote_holding made holding rfl
  | own vote marked leader made _ _ => exact makeVote_holding made holding rfl
  | sent vote marked leader made _ _ => exact makeVote_holding made holding rfl

/-- Unless there is no next view or nobody to lead it. -/
theorem CastOutcome.script {proposal : Proposal B} {ending : Ending B C}
    (outcome : CastOutcome worker proposal ending)
    (holding : Holding keystore authorities aggregator worker) (calm : ending.1 ≠ .error .panic) :
    ∃ trace, ending.2.log = worker.log ++ trace ∧
      VoteScript (ConsensusState.new keystore authorities).leadsNext proposal trace
        (following ending.1) := by
  have view := holding.leadsNext worker.state.view
  cases outcome with
  | unmade marked made => exact ⟨[], (List.append_nil _).symm, .silent⟩
  | stranded vote marked made nobody => exact absurd rfl calm
  | own vote marked leader made following leads =>
    refine ⟨_, rfl, .own _ vote (view.symm.trans ?_)⟩
    simp [ConsensusState.leadsNext, following, leads]
  | sent vote marked leader made following other =>
    refine ⟨_, List.append_assoc _ _ _, .sent _ vote (view.symm.trans ?_)⟩
    simp [ConsensusState.leadsNext, following, Ne.symm other]

variable [ClientForHotstuff B C]

theorem Commits.script {proposal : Proposal B} (commits : Commits worker proposal next) :
    ∃ trace, next.log = worker.log ++ trace ∧ FinalityScript proposal trace := by
  cases commits with
  | orphan _ _ => exact ⟨[], (List.append_nil _).symm, .kept⟩
  | keep _ _ _ _ _ _ => exact ⟨[], (List.append_nil _).symm, .kept⟩
  | commit parent grandpa _ _ _ _ => exact ⟨_, rfl, .finalized parent grandpa⟩

end Pieces

section Handlers

variable {keystore : Keystore B} {authorities : AuthorityList B} {aggregator : Aggregator B}
  {worker : ConsensusWorker B C} {ending : Ending B C}

/-- A call that is refused, or ends before it writes anything. -/
theorem Plays.refused {call : Call B} (nothing : following ending.1 = none)
    (written : ending.2.log = worker.log)
    (holding : Holding keystore authorities worker.state.aggregator ending.2) :
    Plays keystore authorities worker call ending := by
  refine ⟨[], _, by rw [written, List.append_nil], .inl ⟨?_, rfl⟩, holding⟩
  rw [nothing]
  exact .refused call

theorem TimerOutcome.plays (outcome : TimerOutcome worker ending)
    (holding : Holding keystore authorities worker.state.aggregator worker) :
    Plays keystore authorities worker .localTimer ending := by
  obtain ⟨sameKeystore, sameAuthorities, sameAggregator⟩ := holding
  cases outcome with
  | unsigned reason failed =>
    exact ⟨_, _, List.append_assoc _ _ _, .inl ⟨.timer worker.state.view, rfl⟩,
      sameKeystore, sameAuthorities, rfl⟩
  | timedOut timeout made =>
    refine ⟨_, _, ?_, .inl ⟨.timedOut worker.state.view timeout, rfl⟩,
      sameKeystore, sameAuthorities, rfl⟩
    simp [spending]

theorem TcOutcome.plays {tc : TC B} (outcome : TcOutcome worker tc ending)
    (holding : Holding keystore authorities worker.state.aggregator worker)
    (calm : ending.1 ≠ .error .panic) : Plays keystore authorities worker (.tc tc) ending := by
  have moved {passed : ConsensusWorker B C}
      (passes : Passes (worker.emit (.verifiedTc tc)) tc.view passed) :
      ∃ target, (passed.emit .resetTimer).log = worker.log ++
        [.verifiedTc tc, .advanced worker.state.view target, .resetTimer] := by
    obtain ⟨target, written⟩ := passes.log
    exact ⟨target, by simp [written]⟩
  cases outcome with
  | refused reason failed => exact .refused rfl rfl holding
  | overflow verified last => exact absurd rfl calm
  | leaderless passed verified passes nobody => exact absurd rfl calm
  | follower passed verified passes follows =>
    obtain ⟨target, written⟩ := moved passes
    exact ⟨_, _, written, .inl ⟨.tc tc _ target _ (.inl rfl), rfl⟩,
      (passes.holding (holding.of_state rfl)).of_state rfl⟩
  | leader passed verified passes leads =>
    obtain ⟨target, written⟩ := moved passes
    exact ⟨_, _, written, .inl ⟨.tc tc _ target _ (.inr rfl), rfl⟩,
      (passes.holding (holding.of_state rfl)).of_state rfl⟩

/-- Behind a TC that a timeout has completed: it is gossiped, and leads to a
proposal at most. -/
theorem FormedTcOutcome.script {tc : TC B} (outcome : FormedTcOutcome worker tc ending)
    (holding : Holding keystore authorities aggregator worker) (calm : ending.1 ≠ .error .panic) :
    ∃ moved, ending.2.log = worker.log ++ moved ++ [.gossip (.tc tc) true] ∧ TcScript moved ∧
      (following ending.1 = none ∨ following ending.1 = some (.generateProposal (some tc))) ∧
      Holding keystore authorities aggregator ending.2 := by
  cases outcome with
  | overflow last => exact absurd rfl calm
  | leaderless passed passes nobody => exact absurd rfl calm
  | follower passed passes follows =>
    obtain ⟨moved, written, script⟩ := passes.script
    exact ⟨moved, by rw [← written]; rfl, script, .inl rfl, (passes.holding holding).of_state rfl⟩
  | leader passed passes leads =>
    obtain ⟨moved, written, script⟩ := passes.script
    exact ⟨moved, by rw [← written]; rfl, script, .inr rfl, (passes.holding holding).of_state rfl⟩

theorem Holding.countingTimeout (holding : Holding keystore authorities aggregator worker)
    (timeout : Timeout B) :
    Holding keystore authorities (aggregator.addTimeout timeout authorities).2
      (worker.countingTimeout timeout) := by
  obtain ⟨rfl, rfl, rfl⟩ := holding
  exact ⟨rfl, rfl, rfl⟩

theorem Holding.countingVote (holding : Holding keystore authorities aggregator worker)
    (vote : Vote B) :
    Holding keystore authorities (aggregator.addVote vote authorities).2
      (worker.countingVote vote) := by
  obtain ⟨rfl, rfl, rfl⟩ := holding
  exact ⟨rfl, rfl, rfl⟩

/-- A timeout behind its check and its high QC is counted. -/
theorem Hears.counts {timeout : Timeout B} {accepted : ConsensusWorker B C}
    (hears : Hears worker timeout accepted)
    (holding : Holding keystore authorities worker.state.aggregator worker) :
    ∃ trace, (accepted.countingTimeout timeout).log =
        worker.log ++ .verifiedTimeout timeout :: trace ∧ QcScript timeout.highQc trace ∧
      timeout.verify authorities = .ok () ∧
      (accepted.state.addTimeout timeout).1 =
        (worker.state.aggregator.addTimeout timeout authorities).1 ∧
      Holding keystore authorities (worker.state.aggregator.addTimeout timeout authorities).2
        (accepted.countingTimeout timeout) := by
  obtain ⟨trace, written, script⟩ := hears.handled.script
  have counted := hears.addTimeout
  have verified := hears.verified
  simp only [ConsensusState.addTimeout, ConsensusState.verifyTimeout, holding.authorities]
    at counted verified
  exact ⟨trace, written.trans (List.append_assoc _ _ _), script, verified, counted,
    (hears.handled.holding (holding.of_state rfl)).countingTimeout timeout⟩

/-- A timeout that is not behind and passes its check is counted. -/
theorem TimeoutOutcome.counts {timeout : Timeout B}
    (outcome : TimeoutOutcome worker timeout ending)
    (holding : Holding keystore authorities worker.state.aggregator worker)
    (calm : ending.1 ≠ .error .panic) :
    (¬ (worker.state.view ≤ timeout.view ∧ worker.state.verifyTimeout timeout = .ok ()) ∧
      following ending.1 = none ∧ ending.2 = worker) ∨
    ∃ trace after, ending.2.log = worker.log ++ trace ∧
      CountScript authorities worker.state.aggregator (.timeout timeout) trace
        (following ending.1) after ∧ Holding keystore authorities after ending.2 := by
  cases outcome with
  | late late => exact .inl ⟨fun taken => UInt64.not_le.mpr late taken.1, rfl, rfl⟩
  | refused reason reached failed =>
    refine .inl ⟨fun taken => ?_, rfl, rfl⟩
    cases failed.symm.trans taken.2
  | overflow reached verified last => exact absurd rfl calm
  | uncounted accepted reason hears failed =>
    obtain ⟨trace, written, script, verified, same, kept⟩ := hears.counts holding
    refine .inr ⟨_, _, written, .timeout timeout verified trace script ?_, kept⟩
    intro tc formed
    cases (same.symm.trans failed).symm.trans formed
  | counted accepted hears missed =>
    obtain ⟨trace, written, script, verified, same, kept⟩ := hears.counts holding
    refine .inr ⟨_, _, written, .timeout timeout verified trace script ?_, kept⟩
    intro tc formed
    cases (same.symm.trans missed).symm.trans formed
  | formed accepted tc ending hears formed rest =>
    obtain ⟨trace, written, script, verified, same, kept⟩ := hears.counts holding
    obtain ⟨moved, gossiped, move, ends, kept⟩ := rest.script (kept.of_state rfl) calm
    refine .inr ⟨_, _, ?_, .formedTc timeout verified tc trace moved script
      (same.symm.trans formed) move _ ends, kept⟩
    rw [gossiped, emit_log, written]
    simp

theorem TimeoutOutcome.plays {timeout : Timeout B} (outcome : TimeoutOutcome worker timeout ending)
    (holding : Holding keystore authorities worker.state.aggregator worker)
    (calm : ending.1 ≠ .error .panic) :
    Plays keystore authorities worker (.timeout timeout) ending := by
  rcases outcome.counts holding calm with ⟨_, nothing, same⟩ | ⟨trace, after, written, script, kept⟩
  · exact .refused nothing (by rw [same]) (by rw [same]; exact holding)
  · exact ⟨trace, after, written, .inr script, kept⟩

variable [ClientForHotstuff B C]

theorem GenerateOutcome.plays {tc : Option (TC B)} (outcome : GenerateOutcome worker tc ending)
    (holding : Holding keystore authorities worker.state.aggregator worker) :
    Plays keystore authorities worker (.generateProposal tc) ending := by
  cases outcome with
  | nothing chosen offers => exact .refused rfl offers.log (holding.of_state offers.state)
  | unmade chosen payload reason offers failed =>
    exact .refused rfl offers.log (holding.of_state offers.state)
  | proposed chosen payload proposal offers made =>
    refine ⟨_, _, ?_, .inl ⟨.proposed tc proposal (ConsensusState.makeProposal_tc made), rfl⟩,
      holding.of_state offers.state⟩
    simp [proposing, offers.log]

/-- Behind a QC that a vote has completed: nothing more is written, or a proposal
is made. -/
theorem FormedQcOutcome.script {qc : QC B} (outcome : FormedQcOutcome worker qc ending)
    (holding : Holding keystore authorities aggregator worker) (calm : ending.1 ≠ .error .panic) :
    Holding keystore authorities aggregator ending.2 ∧ ∃ accepted, QcScript qc accepted ∧
      ((ending.2.log = worker.log ++ accepted ∧ following ending.1 = none) ∨
        ∃ proposal, proposal.tc = none ∧ following ending.1 = some (.proposal proposal) ∧
          ending.2.log = worker.log ++ accepted ++
            [.proposed proposal, .gossip (.propose proposal) false]) := by
  cases outcome with
  | overflow last => exact absurd rfl calm
  | leaderless settled handled nobody => exact absurd rfl calm
  | follower settled handled follows =>
    obtain ⟨trace, written, script⟩ := handled.script
    exact ⟨handled.holding holding, trace, script, .inl ⟨written, rfl⟩⟩
  | nothing settled chosen handled leads offers =>
    obtain ⟨trace, written, script⟩ := handled.script
    exact ⟨(handled.holding holding).of_state offers.state, trace, script,
      .inl ⟨offers.log.trans written, rfl⟩⟩
  | withheld settled chosen payload handled leads offers held =>
    obtain ⟨trace, written, script⟩ := handled.script
    exact ⟨(handled.holding holding).of_state offers.state, trace, script,
      .inl ⟨offers.log.trans written, rfl⟩⟩
  | unmade settled chosen payload reason handled leads offers passed failed =>
    obtain ⟨trace, written, script⟩ := handled.script
    exact ⟨(handled.holding holding).of_state offers.state, trace, script,
      .inl ⟨offers.log.trans written, rfl⟩⟩
  | proposed settled chosen payload proposal handled leads offers passed made =>
    obtain ⟨trace, written, script⟩ := handled.script
    refine ⟨(handled.holding holding).of_state offers.state, trace, script,
      .inr ⟨proposal, ConsensusState.makeProposal_tc made, rfl, ?_⟩⟩
    simp [proposing, pushing, offers.log, written]

/-- A vote that passes its check is counted. -/
theorem VoteOutcome.counts {vote : Vote B} (outcome : VoteOutcome worker vote ending)
    (holding : Holding keystore authorities worker.state.aggregator worker)
    (calm : ending.1 ≠ .error .panic) :
    (worker.state.verifyVote vote ≠ .ok () ∧ following ending.1 = none ∧ ending.2 = worker) ∨
    ∃ trace after, ending.2.log = worker.log ++ trace ∧
      CountScript authorities worker.state.aggregator (.vote vote) trace (following ending.1)
        after ∧ Holding keystore authorities after ending.2 := by
  have checked (verified : worker.state.verifyVote vote = .ok ()) :
      vote.verify authorities = .ok () := by
    rw [← holding.authorities]
    exact (ConsensusState.verifyVote_ok_iff.mp verified).2
  have same : (worker.state.addVote vote).1 =
      (worker.state.aggregator.addVote vote authorities).1 := by
    rw [← holding.authorities]
    rfl
  have kept := holding.countingVote vote
  cases outcome with
  | refused reason failed =>
    refine .inl ⟨fun verified => ?_, rfl, rfl⟩
    cases failed.symm.trans verified
  | uncounted reason verified failed =>
    refine .inr ⟨_, _, rfl, .vote vote (checked verified) ?_, kept⟩
    intro qc formed
    cases (same.symm.trans failed).symm.trans formed
  | counted verified missed =>
    refine .inr ⟨_, _, rfl, .vote vote (checked verified) ?_, kept⟩
    intro qc formed
    cases (same.symm.trans missed).symm.trans formed
  | formed qc ending verified formed rest =>
    obtain ⟨kept, trace, script, ends⟩ := rest.script (kept.of_state rfl) calm
    have formed := same.symm.trans formed
    rcases ends with ⟨written, nothing⟩ | ⟨proposal, bare, next, written⟩
    · rw [nothing]
      refine .inr ⟨_, _, ?_, .formedQc vote (checked verified) qc trace formed script, kept⟩
      simp [written, countingVote]
    · rw [next]
      refine .inr ⟨_, _, ?_,
        .reproposed vote (checked verified) qc trace proposal formed script bare, kept⟩
      simp [written, countingVote]

theorem VoteOutcome.plays {vote : Vote B} (outcome : VoteOutcome worker vote ending)
    (holding : Holding keystore authorities worker.state.aggregator worker)
    (calm : ending.1 ≠ .error .panic) : Plays keystore authorities worker (.vote vote) ending := by
  rcases outcome.counts holding calm with ⟨_, nothing, same⟩ | ⟨trace, after, written, script, kept⟩
  · exact .refused nothing (by rw [same]) (by rw [same]; exact holding)
  · exact ⟨trace, after, written, .inr script, kept⟩

/-- The trace of a proposal up to the commit rule. -/
theorem Takes.script {proposal : Proposal B} {accepted : ConsensusWorker B C}
    (taken : Takes worker proposal accepted)
    (holding : Holding keystore authorities worker.state.aggregator worker) :
    ∃ received moved, ((accepted.delayed proposal.tc).saving proposal).log =
        worker.log ++ (.verifiedProposal proposal :: received ++ moved) ∧
      QcScript proposal.qc received ∧ TcScript moved ∧
      Holding keystore authorities worker.state.aggregator
        ((accepted.delayed proposal.tc).saving proposal) := by
  obtain ⟨received, written, script⟩ := taken.handled.script
  obtain ⟨moved, delayed, move⟩ := delayed_script proposal.tc accepted
  refine ⟨received, moved, ?_, script, move,
    (taken.handled.holding (holding.of_state rfl)).of_state (delayed_state proposal.tc accepted)⟩
  simp [saving, delayed, written]

theorem ProposalOutcome.plays {proposal : Proposal B}
    (outcome : ProposalOutcome worker proposal ending)
    (holding : Holding keystore authorities worker.state.aggregator worker)
    (calm : ending.1 ≠ .error .panic) :
    Plays keystore authorities worker (.proposal proposal) ending := by
  cases outcome with
  | unreadable reason real failed => exact .refused rfl rfl holding
  | unknown real absent =>
    exact ⟨_, _, rfl, .inl ⟨.unknown proposal, rfl⟩, holding.of_state rfl⟩
  | refused fault known failed => exact .refused rfl rfl holding
  | overflow known verified last => exact absurd rfl calm
  | unsaved accepted reason taken failed =>
    obtain ⟨received, moved, written, qc, move, kept⟩ := taken.script holding
    exact ⟨_, _, by rw [written, List.append_nil, List.append_nil],
      .inl ⟨.proposal proposal received moved [] [] none qc move .kept .silent, rfl⟩, kept⟩
  | lastView accepted parent grandpa taken saved found last => exact absurd rfl calm
  | elsewhere accepted settled taken saved commits apart =>
    obtain ⟨received, moved, written, qc, move, kept⟩ := taken.script holding
    obtain ⟨finalized, committed, finality⟩ := commits.script
    refine ⟨_, _, ?_,
      .inl ⟨.proposal proposal received moved finalized [] none qc move finality .silent, rfl⟩,
      kept.of_state commits.state⟩
    simp [committed, written]
  | reached accepted settled ending taken saved commits current casts =>
    obtain ⟨received, moved, written, qc, move, kept⟩ := taken.script holding
    obtain ⟨finalized, committed, finality⟩ := commits.script
    have kept := kept.of_state commits.state
    obtain ⟨cast, voted, vote⟩ := casts.script kept calm
    refine ⟨_, _, ?_,
      .inl ⟨.proposal proposal received moved finalized cast _ qc move finality vote, rfl⟩,
      casts.holding kept⟩
    simp [voted, committed, written]

/-- Every call plays a script, unless it panics. -/
theorem Outcome.plays {call : Call B} (outcome : Outcome worker call ending)
    (holding : Holding keystore authorities worker.state.aggregator worker)
    (calm : ending.1 ≠ .error .panic) : Plays keystore authorities worker call ending := by
  cases call with
  | localTimer => exact TimerOutcome.plays outcome holding
  | timeout timeout => exact TimeoutOutcome.plays outcome holding calm
  | proposal proposal => exact ProposalOutcome.plays outcome holding calm
  | vote vote => exact VoteOutcome.plays outcome holding calm
  | tc tc => exact TcOutcome.plays outcome holding calm
  | generateProposal tc => exact GenerateOutcome.plays outcome holding

end Handlers

/-- The control after a call that ends with another one, or with none. -/
def Control.upon : Option (Call B) → Control B
  | none => .idle
  | some call => .running call

section Runs

variable [ClientForHotstuff B C] {allowed : ConsensusMessage B → Prop}
  {guard : Replica B C → Prop} {keystore : Keystore B} {authorities : AuthorityList B}

omit [ClientForHotstuff B C] in
theorem controlAfter_calm {result : Except (Fault B) (Option (Call B))}
    (alive : Replica.controlAfter result ≠ .halted) :
    result ≠ .error .panic ∧ Replica.controlAfter result = .upon (following result) := by
  rcases result with (_ | _) | _ | next
  · exact ⟨by simp, rfl⟩
  · exact absurd rfl alive
  · exact ⟨by simp, rfl⟩
  · exact ⟨by simp, rfl⟩

/-- One call of a replica that does not panic plays a script. -/
theorem Replica.resume_plays {replica : Replica B C} {aggregator : Aggregator B} (call : Call B)
    (holding : Holding keystore authorities aggregator replica.worker)
    (alive : (replica.resume call).control ≠ .halted) :
    ∃ trace next after, (replica.resume call).worker.log = replica.worker.log ++ trace ∧
      (replica.resume call).control = .upon next ∧
      Performs keystore authorities aggregator call trace next after ∧
      Holding keystore authorities after (replica.resume call).worker := by
  obtain ⟨calm, control⟩ := controlAfter_calm alive
  obtain rfl := holding.aggregator
  obtain ⟨trace, after, written, script, kept⟩ :=
    (handle_outcome call replica.worker).plays holding calm
  exact ⟨trace, _, after, written, control, script, kept⟩

/-- What inputs and scripts keep holds of the log, the aggregator and the control
of every replica that has not panicked. -/
theorem Replica.Reachable.scripted {motive : List (Event B) → Aggregator B → Control B → Prop}
    (start : motive [] .new .idle)
    (input : ∀ log aggregator call, (call = .localTimer ∨ ∃ message, allowed message ∧
      Replica.callOf message = some call) → motive log aggregator .idle →
      motive log aggregator (.running call))
    (step : ∀ log aggregator call trace next after, motive log aggregator (.running call) →
      Performs keystore authorities aggregator call trace next after →
      motive (log ++ trace) after (.upon next))
    {replica : Replica B C} (reachable : Reachable allowed guard keystore authorities replica)
    (alive : replica.control ≠ .halted) :
    motive replica.worker.log replica.worker.state.aggregator replica.control := by
  suffices holds : replica.control ≠ .halted → ∃ aggregator,
      Holding keystore authorities aggregator replica.worker ∧
        motive replica.worker.log aggregator replica.control by
    obtain ⟨aggregator, holding, found⟩ := holds alive
    rw [holding.aggregator]
    exact found
  clear alive
  induction reachable with
  | @start replica initial =>
    obtain ⟨client, queue, _, same⟩ := initial.worker
    rw [same, initial.control]
    exact fun _ => ⟨_, ⟨rfl, rfl, rfl⟩, start⟩
  | @step replica next _ _ move ih =>
    intro alive
    cases move with
    | timer idle =>
      obtain ⟨aggregator, holding, found⟩ := ih (by rw [idle]; nofun)
      rw [idle] at found
      exact ⟨aggregator, holding, input _ _ _ (.inl rfl) found⟩
    | receive idle present selected =>
      obtain ⟨aggregator, holding, found⟩ := ih (by rw [idle]; nofun)
      rw [idle] at found
      exact ⟨aggregator, holding, input _ _ _ (.inr ⟨_, present, selected⟩) found⟩
    | @resume _ call running =>
      obtain ⟨aggregator, holding, found⟩ := ih (by rw [running]; nofun)
      rw [running] at found
      obtain ⟨trace, next, after, written, control, script, kept⟩ :=
        Replica.resume_plays call holding alive
      rw [written, control]
      exact ⟨after, kept, step _ _ call trace next after found script⟩
    | environment client queue kept =>
      obtain ⟨aggregator, holding, found⟩ := ih alive
      exact ⟨aggregator, ⟨holding.keystore, holding.authorities, holding.aggregator⟩, found⟩

end Runs

section Proposals

variable {qc : QC B} {proposal : Proposal B} {trace : List (Event B)}

theorem QcScript.made (part : QcScript qc trace) : madeProposals trace = [] := by
  cases part with
  | late => rfl
  | reached source target => rfl

theorem TcScript.made (part : TcScript trace) : madeProposals trace = [] := by
  cases part with
  | behind => rfl
  | moved source target => rfl

theorem FinalityScript.made (part : FinalityScript proposal trace) : madeProposals trace = [] := by
  cases part with
  | kept => rfl
  | finalized parent grandpa => rfl

theorem VoteScript.made {leads : ViewNumber → Bool} {next : Option (Call B)}
    (part : VoteScript leads proposal trace next) : madeProposals trace = [] := by
  cases part with
  | silent => rfl
  | own view vote led => rfl
  | sent view vote led => rfl

/-- A call proposes at most once: with the TC it is given, or with none behind a
QC that it has completed. -/
theorem Performs.made {keystore : Keystore B} {authorities : AuthorityList B}
    {aggregator after : Aggregator B} {call : Call B} {next : Option (Call B)}
    (script : Performs keystore authorities aggregator call trace next after) :
    madeProposals trace = [] ∨ ∃ proposal, madeProposals trace = [proposal] ∧
      (proposal.tc = none ∨ call = .generateProposal proposal.tc) := by
  rcases script with ⟨quiet, _⟩ | counts
  · cases quiet with
    | refused call => exact .inl rfl
    | timer view => exact .inl rfl
    | timedOut view timeout => exact .inl rfl
    | tc tc source target next ends => exact .inl rfl
    | unknown proposal => exact .inl rfl
    | proposal proposal accepted moved finalized cast next qc move finality vote =>
      left
      simp [Event.proposed?, qc.made, move.made, finality.made, vote.made]
    | proposed tc proposal carried =>
      exact .inr ⟨proposal, rfl, .inr (by rw [carried])⟩
  · cases counts with
    | vote vote verified missed => exact .inl rfl
    | formedQc vote verified qc accepted formed handled =>
      left
      simp [Event.proposed?, handled.made]
    | reproposed vote verified qc accepted proposal formed handled bare =>
      refine .inr ⟨proposal, ?_, .inl bare⟩
      simp [Event.proposed?, handled.made]
    | timeout timeout verified accepted qc missed =>
      left
      simp [Event.proposed?, qc.made]
    | formedTc timeout verified tc accepted moved qc formed move next ends =>
      left
      simp [Event.proposed?, qc.made, move.made]

/-- A call asks for a proposal with a TC only if it has completed the TC. -/
theorem Performs.asked {keystore : Keystore B} {authorities : AuthorityList B}
    {aggregator after : Aggregator B} {call : Call B} {tc : TC B}
    (script : Performs keystore authorities aggregator call trace
      (some (.generateProposal (some tc))) after) : Event.aggregatedTc tc ∈ trace := by
  rcases script with ⟨quiet, _⟩ | counts
  · cases quiet with
    | tc tc source target next ends =>
      rcases ends with absent | bare
      · cases absent
      · cases bare
    | proposal proposal accepted moved finalized cast next qc move finality vote => cases vote
  · cases counts with
    | formedTc timeout verified formed accepted moved qc counted move next ends =>
      rcases ends with absent | same
      · cases absent
      · cases same
        simp

end Proposals

end Hotstuff
