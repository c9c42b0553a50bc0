import Hotstuff.Consensus.Protocol

/-! Every handler is a sequence of acts, and with them every step of a replica. -/

namespace Hotstuff

open ConsensusWorker

variable {B C : Type} [BlockT B]

/-- A call that may be made: on a message that can be handled, or to propose in
a view where that is admitted. -/
def Known (policy : Policy B) (worker : ConsensusWorker B C) : Call B → Prop
  | .localTimer => True
  | .timeout timeout => Available policy worker.log (.timeout timeout)
  | .proposal proposal => Available policy worker.log (.propose proposal)
  | .vote vote => Available policy worker.log (.vote vote)
  | .tc tc => Available policy worker.log (.tc tc)
  | .generateProposal _ => policy.propose (madeProposals worker.log) worker.state.view

section Certificates

variable {worker next : ConsensusWorker B C} {qc : QC B} {tc : TC B} {view : ViewNumber}

theorem HandlesQc.leaps (handled : HandlesQc worker qc next) :
    Leaps worker.state.view qc.view next.state.view := by
  cases handled with
  | late late => exact .inr ⟨UInt64.ne_of_lt late, rfl⟩
  | current view current following => exact .inl ⟨current, by simpa [accepted] using following⟩
  | ahead ahead => exact .inr ⟨(UInt64.ne_of_lt ahead).symm, by simp [accepted]⟩

theorem HandlesQc.aggregator (handled : HandlesQc worker qc next) :
    next.state.aggregator = worker.state.aggregator := by
  cases handled with
  | late _ => rfl
  | current _ _ _ => simp [accepted]
  | ahead _ => simp [accepted]

theorem HandlesQc.authorities (handled : HandlesQc worker qc next) :
    next.state.authorities = worker.state.authorities := by
  cases handled with
  | late _ => rfl
  | current _ _ _ => simp [accepted]
  | ahead _ => simp [accepted]

theorem HandlesQc.client (handled : HandlesQc worker qc next) : next.client = worker.client := by
  cases handled <;> rfl

theorem Passes.leaps (passes : Passes worker view next) :
    Leaps worker.state.view view next.state.view := by
  cases passes with
  | current following current next => exact .inl ⟨current, next⟩
  | ahead ahead => exact .inr ⟨(UInt64.ne_of_lt ahead).symm, rfl⟩

theorem PassesTc.leaps (passes : PassesTc worker tc next) :
    Leaps worker.state.view tc.view next.state.view := by
  cases passes with
  | behind passed => exact .inr ⟨UInt64.ne_of_lt passed, rfl⟩
  | moved next passes => exact passes.leaps

theorem HandlesQc.of_ran (ran : handleQc qc worker = (.ok (), next)) :
    HandlesQc worker qc next := by
  rcases handleQc_cases qc worker with ⟨_, panicked⟩ | ⟨other, handled, returned⟩
  · cases panicked.symm.trans ran
  · cases returned.symm.trans ran
    exact handled

theorem delayed_state (tc : Option (TC B)) (worker : ConsensusWorker B C) :
    (worker.delayed tc).state = worker.state := by
  unfold delayed
  split
  · rfl
  · rfl

end Certificates

/-- The results of a handler that lets one certificate move the view, and then at
most ends with `generate_proposal`. -/
def Leads (worker : ConsensusWorker B C) (certificate : ViewNumber) (ending : Ending B C) : Prop :=
  ∀ next, ending.1 = .ok next → (∀ call, next = some call → ∃ tc, call = .generateProposal tc) ∧
    Leaps worker.state.view certificate ending.2.state.view

theorem FormedTcOutcome.leads {worker : ConsensusWorker B C} {tc : TC B} {ending : Ending B C}
    (outcome : FormedTcOutcome worker tc ending) : Leads worker tc.view ending := by
  intro next returned
  cases outcome with
  | overflow last => cases returned
  | leaderless passed passes nobody => cases returned
  | follower passed passes follows =>
    cases returned
    exact ⟨fun call found => (by cases found), passes.leaps⟩
  | leader passed passes leads =>
    cases returned
    exact ⟨fun call found => ⟨_, (Option.some.inj found).symm⟩, passes.leaps⟩

theorem TcOutcome.leads {worker : ConsensusWorker B C} {tc : TC B} {ending : Ending B C}
    (outcome : TcOutcome worker tc ending) : Leads worker tc.view ending := by
  intro next returned
  cases outcome with
  | refused reason failed => cases returned
  | overflow verified last => cases returned
  | leaderless passed verified passes nobody => cases returned
  | follower passed verified passes follows =>
    cases returned
    exact ⟨fun call found => (by cases found), passes.leaps⟩
  | leader passed verified passes leads =>
    cases returned
    exact ⟨fun call found => ⟨_, (Option.some.inj found).symm⟩, passes.leaps⟩

theorem addTimeout_congr {state other : ConsensusState B} (timeout : Timeout B)
    (aggregator : state.aggregator = other.aggregator)
    (authorities : state.authorities = other.authorities) :
    (state.addTimeout timeout).1 = (other.addTimeout timeout).1 := by
  simp only [ConsensusState.addTimeout, aggregator, authorities]

/-- Counting a timeout behind its high QC gives what it would have given before. -/
theorem Hears.addTimeout {worker accepted : ConsensusWorker B C} {timeout : Timeout B}
    (hears : Hears worker timeout accepted) :
    (accepted.state.addTimeout timeout).1 = (worker.state.addTimeout timeout).1 :=
  addTimeout_congr timeout hears.handled.aggregator hears.handled.authorities

variable [ClientForHotstuff B C]

/-- The QCs that a call hands to `handle_qc`: that of a verified proposal, the
high QC of a verified timeout, or the one a verified vote completes. -/
def Accepts (worker : ConsensusWorker B C) : Call B → QC B → Prop
  | .proposal proposal, qc =>
      (proposal.payload.blockHash = emptyPayloadHash ∨
        ClientForHotstuff.status worker.client proposal.payload.blockHash = .ok .inChain) ∧
        worker.state.verifyProposal proposal = .ok () ∧ qc = proposal.qc
  | .timeout timeout, qc =>
      worker.state.view ≤ timeout.view ∧ worker.state.verifyTimeout timeout = .ok () ∧
        qc = timeout.highQc
  | .vote vote, qc =>
      worker.state.verifyVote vote = .ok () ∧ (worker.state.addVote vote).1 = .ok (some qc)
  | .localTimer, _ => False
  | .tc _, _ => False
  | .generateProposal _, _ => False

/-- A call on a proposal of the view its QC leads to, not voted in yet. -/
def Votes (worker : ConsensusWorker B C) (call : Call B) (proposal : Proposal B) : Prop :=
  call = .proposal proposal ∧ Accepts worker call proposal.qc ∧
    worker.state.lastVotedView < proposal.view ∧
    Leaps worker.state.view proposal.qc.view proposal.view

/-- The TC that a timeout completes, and the view its high QC leads to first. -/
def CompletesTc (worker : ConsensusWorker B C) (timeout : Timeout B) (tc : TC B)
    (middle : ViewNumber) : Prop :=
  worker.state.view ≤ timeout.view ∧ worker.state.verifyTimeout timeout = .ok () ∧
    (worker.state.addTimeout timeout).1 = .ok (some tc) ∧
    Leaps worker.state.view timeout.highQc.view middle

/-- The views a call may lead to a proposal in: those that a certificate it
completes, or a verified TC, leads to. -/
def Proposes (worker : ConsensusWorker B C) : Call B → ViewNumber → Prop
  | .vote vote, view =>
      ∃ qc, Accepts worker (.vote vote) qc ∧ Leaps worker.state.view qc.view view
  | .timeout timeout, view =>
      ∃ tc middle, CompletesTc worker timeout tc middle ∧ Leaps middle tc.view view
  | .tc tc, view => worker.state.verifyTc tc = .ok () ∧ Leaps worker.state.view tc.view view
  | _, _ => False

omit [ClientForHotstuff B C] in
theorem Hears.completesTc {worker accepted : ConsensusWorker B C} {timeout : Timeout B} {tc : TC B}
    (hears : Hears worker timeout accepted)
    (formed : (accepted.state.addTimeout timeout).1 = .ok (some tc)) :
    CompletesTc worker timeout tc accepted.state.view :=
  ⟨hears.reached, hears.verified, hears.addTimeout.symm.trans formed, hears.handled.leaps⟩

omit [ClientForHotstuff B C] in
/-- A timeout forms no certificate and nothing follows, or its high QC and then
the formed TC have moved the view. -/
theorem TimeoutOutcome.passes {worker : ConsensusWorker B C} {timeout : Timeout B}
    {next : Option (Call B)} {now : ConsensusWorker B C}
    (outcome : TimeoutOutcome worker timeout (.ok next, now)) :
    (next = none ∧ ¬ ∃ tc, worker.state.view ≤ timeout.view ∧
      (worker.state.addTimeout timeout).1 = .ok (some tc)) ∨
    ∃ tc middle, CompletesTc worker timeout tc middle ∧ Leaps middle tc.view now.state.view := by
  cases outcome with
  | late late =>
    refine .inl ⟨rfl, ?_⟩
    rintro ⟨tc, current, _⟩
    exact UInt64.not_le.mpr late current
  | counted accepted hears missed =>
    refine .inl ⟨rfl, ?_⟩
    rintro ⟨tc, _, formed⟩
    cases (hears.addTimeout.symm.trans missed).symm.trans formed
  | formed accepted tc ending hears formed rest =>
    exact .inr ⟨tc, _, hears.completesTc formed, (rest.leads next rfl).2⟩

/-- The policy admits what a call goes on to accept, to vote for and to propose. -/
structure Policy.Admits (policy : Policy B) (worker : ConsensusWorker B C) (call : Call B) :
    Prop where
  accept : ∀ qc, Accepts worker call qc →
    policy.accept worker.state.view worker.state.highQc qc
  vote : ∀ proposal, Votes worker call proposal →
    policy.vote (votedProposals worker.log) proposal
  propose : ∀ view, Proposes worker call view →
    policy.propose (madeProposals worker.log) view

theorem Policy.any_admits (worker : ConsensusWorker B C) (call : Call B) :
    Policy.any.Admits worker call :=
  ⟨fun _ _ => trivial, fun _ _ => trivial, fun _ _ => trivial⟩

section Calms

variable {policy : Policy B} {worker next : ConsensusWorker B C}

/-- Acts one after another that neither vote nor propose. -/
abbrev Calms (policy : Policy B) (worker next : ConsensusWorker B C) : Prop :=
  Relation.ReflTransGen (Calm policy) worker next

theorem Calms.acts (calms : Calms policy worker next) :
    Relation.ReflTransGen (Act policy) worker next :=
  Relation.ReflTransGen.mono (fun _ _ => .calm) _ _ calms

theorem Calms.made (calms : Calms policy worker next) :
    madeProposals next.log = madeProposals worker.log :=
  Command.keep_along (fun now => madeProposals now.log = madeProposals worker.log) calms
    (fun _ _ calm same => calm.madeProposals.trans same) rfl

theorem Calms.voted (calms : Calms policy worker next) :
    votedProposals next.log = votedProposals worker.log :=
  Command.keep_along (fun now => votedProposals now.log = votedProposals worker.log) calms
    (fun _ _ calm same => calm.votedProposals.trans same) rfl

theorem Calms.mem (calms : Calms policy worker next) {event : Event B}
    (member : event ∈ worker.log) : event ∈ next.log :=
  Command.keep_along (fun now => event ∈ now.log) calms (fun _ _ calm => (Act.calm calm).mem_log)
    member

theorem Calm.lastVotedView_le (act : Calm policy worker next) :
    worker.state.lastVotedView ≤ next.state.lastVotedView := by
  cases act with
  | spend =>
    rw [UInt64.le_iff_toNat_le]
    simp only [ConsensusState.increaseLastVotedView, ViewNumber.toNat_max]
    omega
  | current qc view _ _ _ _ => simp [accepted]
  | ahead qc _ _ _ => simp [accepted]
  | _ => exact UInt64.le_refl _

theorem Calms.lastVotedView_le (calms : Calms policy worker next) :
    worker.state.lastVotedView ≤ next.state.lastVotedView :=
  Command.keep_along (fun now => worker.state.lastVotedView ≤ now.state.lastVotedView) calms
    (fun _ _ calm below => UInt64.le_trans below calm.lastVotedView_le) (UInt64.le_refl _)

theorem HandlesQc.calm {qc : QC B} (handled : HandlesQc worker qc next)
    (held : HeldQc worker.log qc)
    (admitted : policy.accept worker.state.view worker.state.highQc qc) :
    Calm policy worker next := by
  cases handled with
  | late late => exact .late qc held admitted late
  | current view current following => exact .current qc view held admitted current following
  | ahead ahead => exact .ahead qc held admitted ahead

theorem Passes.calm {tc : TC B} (passes : Passes worker tc.view next)
    (held : HeldTc worker.log tc) : Calm policy worker next := by
  cases passes with
  | current following current next => exact .pass tc following held current next
  | ahead ahead => exact .stay

theorem PassesTc.calms {tc : TC B} (passes : PassesTc worker tc next)
    (held : HeldTc worker.log tc) : Calms policy worker next := by
  cases passes with
  | behind passed => exact .refl
  | moved next passes => exact .tail (.single (passes.calm held)) (.emit .resetTimer trivial)

theorem delayed_calms (tc : Option (TC B)) : Calms policy worker (worker.delayed tc) := by
  unfold delayed
  split
  · exact .tail (.single .stay) (.emit .resetTimer trivial)
  · exact .refl

/-- The commit rule hands the block of the grandparent to the client. -/
theorem Commits.calms {proposal : Proposal B} (commits : Commits worker proposal next)
    (verified : Event.verifiedProposal proposal ∈ worker.log) : Calms policy worker next := by
  cases commits with
  | orphan reason missing => exact .refl
  | keep parent grandpa following found next declined => exact .refl
  | commit parent grandpa found next real fresh =>
    refine .tail (.single (.emit (.finalized proposal parent grandpa grandpa.payload.blockHash)
      ⟨verified, found, next, rfl, real⟩)) ?_
    exact .outside _ _ _ _ (ClientForHotstuff.finalizeBlock_aux _ _)

theorem Commits.state {proposal : Proposal B} (commits : Commits worker proposal next) :
    next.state = worker.state := by
  cases commits <;> rfl

theorem Offers.calms {payload : Option (Payload B)} (offers : Offers worker payload next) :
    Calms policy worker next := by
  cases offers with
  | found queue block found _ _ _ _ _ => exact .single (.outside _ _ _ _ rfl)
  | front queue front _ _ _ => exact .single (.outside _ _ _ _ rfl)
  | _ => exact .refl

theorem Offers.state {payload : Option (Payload B)} (offers : Offers worker payload next) :
    next.state = worker.state := by
  cases offers <;> rfl

theorem Offers.log {payload : Option (Payload B)} (offers : Offers worker payload next) :
    next.log = worker.log := by
  cases offers <;> rfl

end Calms

/-- A handler follows the protocol, and ends with a call that may be made. -/
structure Abides (policy : Policy B) (worker : ConsensusWorker B C) (ending : Ending B C) :
    Prop where
  acts : Relation.ReflTransGen (Act policy) worker ending.2
  continues : ∀ call, ending.1 = .ok (some call) → Known policy ending.2 call

section Handlers

variable {policy : Policy B} {worker : ConsensusWorker B C} {ending : Ending B C}

theorem Abides.stop {result : Except (Fault B) (Option (Call B))} {next : ConsensusWorker B C}
    (calms : Calms policy worker next) (stops : ∀ call, result ≠ .ok (some call)) :
    Abides policy worker (result, next) :=
  ⟨calms.acts, fun call found => absurd found (stops call)⟩

/-- Acts before a handler that abides. -/
theorem Abides.after {start : ConsensusWorker B C}
    (acts : Relation.ReflTransGen (Act policy) start worker)
    (abides : Abides policy worker ending) :
    Abides policy start ending :=
  ⟨acts.trans abides.acts, abides.continues⟩

/-- Signing a proposal in the current view. -/
theorem Abides.proposing {payload : Payload B} {tc : Option (TC B)} {proposal : Proposal B}
    (admitted : policy.propose (madeProposals worker.log) worker.state.view)
    (made : worker.state.makeProposal payload tc = .ok proposal) :
    Abides policy worker (.ok (some (.proposal proposal)), worker.proposing proposal) := by
  have logged : Event.proposed proposal ∈ (worker.emit (.proposed proposal)).log := by simp
  refine ⟨.tail (.single (.propose payload tc proposal admitted made))
    (.calm (.emit (.gossip (.propose proposal) false) logged)), fun call found => ?_⟩
  cases found
  exact .inr (List.mem_append_left _ logged)

theorem TimerOutcome.calms (outcome : TimerOutcome worker ending) :
    Calms policy worker ending.2 := by
  have spent : worker.state.view ≤ worker.spending.state.lastVotedView := by
    rw [UInt64.le_iff_toNat_le]
    simp only [spending, emit_state, ConsensusState.increaseLastVotedView, ViewNumber.toNat_max]
    omega
  have calms : Calms policy worker worker.spending :=
    .tail (.tail (.single (.emit .resetTimer trivial)) .spend)
      (.emit (.localTimer worker.state.view) ⟨rfl, spent⟩)
  cases outcome with
  | unsigned reason failed => exact calms
  | timedOut timeout made =>
    exact .tail (.tail calms (.emit (.timedOut timeout) made))
      (.emit (.gossip (.timeout timeout) true) (by simp [Enabled, Sendable]))

theorem TimerOutcome.abides (outcome : TimerOutcome worker ending) :
    Abides policy worker ending := by
  have calms : Calms policy worker ending.2 := outcome.calms
  refine ⟨calms.acts, fun call found => ?_⟩
  cases outcome with
  | unsigned reason failed => cases found
  | timedOut timeout made =>
    cases found
    exact .inr (by simp [Sendable])

theorem FormedTcOutcome.calms {tc : TC B} (outcome : FormedTcOutcome worker tc ending)
    (formed : Event.aggregatedTc tc ∈ worker.log) : Calms policy worker ending.2 := by
  have gossips {passed : ConsensusWorker B C} (passes : PassesTc worker tc passed) :
      Calms policy worker (passed.emit (.gossip (.tc tc) true)) := by
    have calms : Calms policy worker passed := passes.calms (.inr formed)
    exact .tail calms (.emit (.gossip (.tc tc) true) (calms.mem formed))
  cases outcome with
  | overflow last => exact .refl
  | leaderless passed passes nobody => exact gossips passes
  | follower passed passes follows => exact gossips passes
  | leader passed passes leads => exact .tail (gossips passes) (.outside _ _ _ _ rfl)

theorem Hears.calms {timeout : Timeout B} {accepted : ConsensusWorker B C}
    (hears : Hears worker timeout accepted)
    (present : Available policy worker.log (.timeout timeout))
    (admitted : ∀ qc, Accepts worker (.timeout timeout) qc →
      policy.accept worker.state.view worker.state.highQc qc) :
    Calms policy worker (accepted.countingTimeout timeout) := by
  let checked := worker.emit (.verifiedTimeout timeout)
  have logged : Event.verifiedTimeout timeout ∈ checked.log := by simp [checked]
  have handles : Calm policy checked accepted :=
    hears.handled.calm (.inr (.inl ⟨timeout, logged, rfl⟩))
      (admitted timeout.highQc ⟨hears.reached, hears.verified, rfl⟩)
  have kept : Event.verifiedTimeout timeout ∈ accepted.log := (Act.calm handles).mem_log logged
  exact .tail (.tail (.single (.emit (.verifiedTimeout timeout) ⟨hears.verified, present⟩)) handles)
    (.addTimeout timeout kept)

theorem TimeoutOutcome.calms {timeout : Timeout B} (outcome : TimeoutOutcome worker timeout ending)
    (present : Available policy worker.log (.timeout timeout))
    (admitted : ∀ qc, Accepts worker (.timeout timeout) qc →
      policy.accept worker.state.view worker.state.highQc qc) : Calms policy worker ending.2 := by
  cases outcome with
  | late late => exact .refl
  | refused reason reached failed => exact .refl
  | overflow reached verified last =>
    exact .single (.emit (.verifiedTimeout timeout) ⟨verified, present⟩)
  | uncounted accepted reason hears failed => exact hears.calms present admitted
  | counted accepted hears missed => exact hears.calms present admitted
  | formed accepted tc _ hears formed rest =>
    obtain ⟨view, votes, large⟩ := Aggregator.addTimeout_some formed
    have completes : Calm policy (accepted.countingTimeout timeout)
        ((accepted.countingTimeout timeout).emit (.aggregatedTc tc)) :=
      .emit (.aggregatedTc tc) ⟨large, by rw [view]; exact votes⟩
    exact ((hears.calms present admitted).tail completes).trans (rest.calms (by simp))

theorem TimeoutOutcome.abides {timeout : Timeout B} (outcome : TimeoutOutcome worker timeout ending)
    (present : Available policy worker.log (.timeout timeout))
    (admits : policy.Admits worker (.timeout timeout)) : Abides policy worker ending := by
  have calms := outcome.calms present admits.accept
  refine ⟨calms.acts, fun call found => ?_⟩
  cases outcome with
  | formed accepted tc _ hears formed rest =>
    obtain ⟨asks, leaps⟩ := rest.leads _ found
    obtain ⟨tc, rfl⟩ := asks call rfl
    simp only [Known, calms.made]
    exact admits.propose _ ⟨_, _, hears.completesTc formed, leaps⟩
  | _ => cases found

theorem TcOutcome.calms {tc : TC B} (outcome : TcOutcome worker tc ending)
    (present : Available policy worker.log (.tc tc)) : Calms policy worker ending.2 := by
  have checks (verified : worker.state.verifyTc tc = .ok ()) :
      Calm policy worker (worker.emit (.verifiedTc tc)) :=
    .emit (.verifiedTc tc) ⟨verified, present⟩
  have passing {passed : ConsensusWorker B C} (verified : worker.state.verifyTc tc = .ok ())
      (passes : Passes (worker.emit (.verifiedTc tc)) tc.view passed) :
      Calms policy worker { passed.emit .resetTimer with processingBlock := none } :=
    .tail (.tail (.tail (.single (checks verified)) (passes.calm (.inl (by simp))))
      (.emit .resetTimer trivial)) (.outside _ _ _ _ rfl)
  cases outcome with
  | refused reason failed => exact .refl
  | overflow verified last => exact .single (checks verified)
  | leaderless passed verified passes nobody => exact passing verified passes
  | follower passed verified passes follows => exact passing verified passes
  | leader passed verified passes leads => exact passing verified passes

theorem TcOutcome.abides {tc : TC B} (outcome : TcOutcome worker tc ending)
    (present : Available policy worker.log (.tc tc)) (admits : policy.Admits worker (.tc tc)) :
    Abides policy worker ending := by
  have calms := outcome.calms present
  have leads := outcome.leads
  refine ⟨calms.acts, fun call found => ?_⟩
  cases outcome with
  | leader passed verified passes _ =>
    cases found
    simp only [Known, calms.made]
    exact admits.propose _ ⟨verified, (leads _ rfl).2⟩
  | _ => cases found

theorem GenerateOutcome.abides {tc : Option (TC B)} (outcome : GenerateOutcome worker tc ending)
    (admitted : policy.propose (madeProposals worker.log) worker.state.view) :
    Abides policy worker ending := by
  cases outcome with
  | nothing chosen offers => exact .stop offers.calms fun call found => by cases found
  | unmade chosen payload reason offers failed =>
    exact .stop offers.calms fun call found => by cases found
  | proposed chosen payload proposal offers made =>
    have calms : Calms policy worker chosen := offers.calms
    refine .after calms.acts (.proposing ?_ made)
    rw [calms.made, offers.state]
    exact admitted

theorem FormedQcOutcome.abides {qc : QC B} (outcome : FormedQcOutcome worker qc ending)
    (held : HeldQc worker.log qc)
    (admitted : policy.accept worker.state.view worker.state.highQc qc)
    (proposes : ∀ view, Leaps worker.state.view qc.view view →
      policy.propose (madeProposals worker.log) view) : Abides policy worker ending := by
  have settles {settled : ConsensusWorker B C} (handled : HandlesQc worker qc settled) :
      Calms policy worker settled := .single (handled.calm held admitted)
  cases outcome with
  | overflow last => exact .stop .refl fun call found => by cases found
  | leaderless settled handled nobody =>
    exact .stop (settles handled) fun call found => by cases found
  | follower settled handled follows =>
    exact .stop (settles handled) fun call found => by cases found
  | nothing settled chosen handled leads offers =>
    exact .stop ((settles handled).trans offers.calms) fun call found => by cases found
  | withheld settled chosen payload handled leads offers held =>
    exact .stop ((settles handled).trans offers.calms) fun call found => by cases found
  | unmade settled chosen payload reason handled leads offers passed failed =>
    exact .stop (.tail ((settles handled).trans offers.calms) (.outside _ _ _ _ rfl))
      fun call found => by cases found
  | proposed settled chosen payload proposal handled leads offers passed made =>
    have calms : Calms policy worker (chosen.pushing payload.blockHash) :=
      .tail ((settles handled).trans offers.calms) (.outside _ _ _ _ rfl)
    refine .after calms.acts (.proposing ?_ made)
    have view : (chosen.pushing payload.blockHash).state.view = settled.state.view :=
      congrArg ConsensusState.view offers.state
    rw [calms.made, view]
    exact proposes _ handled.leaps

theorem VoteOutcome.abides {vote : Vote B} (outcome : VoteOutcome worker vote ending)
    (present : Available policy worker.log (.vote vote))
    (admits : policy.Admits worker (.vote vote)) : Abides policy worker ending := by
  have counts (verified : worker.state.verifyVote vote = .ok ()) :
      Calms policy worker (worker.countingVote vote) :=
    .tail (.single (.emit (.verifiedVote vote) ⟨verified, present⟩))
      (.addVote vote (by simp))
  cases outcome with
  | refused reason failed => exact .stop .refl fun call found => by cases found
  | uncounted reason verified failed =>
    exact .stop (counts verified) fun call found => by cases found
  | counted verified missed => exact .stop (counts verified) fun call found => by cases found
  | formed qc _ verified formed rest =>
    obtain ⟨hash, view, votes, large⟩ := Aggregator.addVote_some formed
    have completes : Calms policy worker
        ((worker.countingVote vote).emit (.aggregatedQc qc)) :=
      .tail (counts verified) (.emit (.aggregatedQc qc)
        ⟨large, vote, by simp [countingVote], hash, view, votes⟩)
    refine .after completes.acts (rest.abides (.inr (.inr (by simp)))
      (admits.accept qc ⟨verified, formed⟩) fun target leaps => ?_)
    rw [completes.made]
    exact admits.propose target ⟨qc, ⟨verified, formed⟩, leaps⟩

/-- The vote is for a verified proposal of the current view. -/
theorem CastOutcome.abides {proposal : Proposal B} (outcome : CastOutcome worker proposal ending)
    (verified : Event.verifiedProposal proposal ∈ worker.log)
    (current : proposal.view = worker.state.view)
    (admitted : worker.state.lastVotedView < proposal.view →
      policy.vote (votedProposals worker.log) proposal) : Abides policy worker ending := by
  have votes {vote : Vote B} {marked : ConsensusState B}
      (made : worker.state.makeVote proposal = (some vote, marked)) :
      Relation.ReflTransGen (Act policy) worker (worker.voting proposal vote marked) ∧
        Sendable (worker.voting proposal vote marked).log (.vote vote) := by
    have fresh : worker.state.lastVotedView < proposal.view := by
      rcases worker.state.makeVote_cases proposal with same | ⟨_, same⟩ | ⟨fresh, _⟩
      · cases same.symm.trans made
      · cases same.symm.trans made
      · exact fresh
    refine ⟨.tail (.single (.vote proposal vote marked verified current (admitted fresh) made))
      (.calm (.outside _ _ _ _ rfl)), worker.state.view, proposal, ?_⟩
    simp [voting]
  cases outcome with
  | unmade marked made =>
    refine .stop ?_ fun call found => by cases found
    rcases worker.state.makeVote_cases proposal with same | ⟨_, same⟩ | ⟨_, id, signature, _, same⟩
    · cases same.symm.trans made
      exact .refl
    · cases same.symm.trans made
      rw [current]
      exact .single .spend
    · cases same.symm.trans made
  | stranded vote marked made nobody =>
    exact ⟨(votes made).1, fun call found => by cases found⟩
  | own vote marked leader made following leads =>
    refine ⟨(votes made).1, fun call found => ?_⟩
    cases found
    exact .inr (votes made).2
  | sent vote marked leader made following other =>
    refine ⟨.tail (votes made).1 (.calm (.emit (.gossip (.vote vote) false) (votes made).2)),
      fun call found => by cases found⟩

theorem ProposalOutcome.abides {proposal : Proposal B}
    (outcome : ProposalOutcome worker proposal ending)
    (present : Available policy worker.log (.propose proposal))
    (admits : policy.Admits worker (.proposal proposal)) : Abides policy worker ending := by
  let checked := worker.emit (.verifiedProposal proposal)
  have logged : Event.verifiedProposal proposal ∈ checked.log := by simp [checked]
  have checks (verified : worker.state.verifyProposal proposal = .ok ()) :
      Calm policy worker checked := .emit (.verifiedProposal proposal) ⟨verified, present⟩
  have saves {accepted : ConsensusWorker B C} (taken : Takes worker proposal accepted) :
      Calms policy worker ((accepted.delayed proposal.tc).saving proposal) ∧
        Event.verifiedProposal proposal ∈ (accepted.delayed proposal.tc).log := by
    have handles : Calm policy checked accepted := taken.handled.calm
      (.inl ⟨proposal, logged, rfl⟩) (admits.accept _ ⟨taken.known, taken.verified, rfl⟩)
    have rest : Calms policy checked (accepted.delayed proposal.tc) :=
      (Relation.ReflTransGen.single handles).trans (delayed_calms proposal.tc)
    have kept := rest.mem logged
    exact ⟨.tail ((Relation.ReflTransGen.single (checks taken.verified)).trans rest)
      (.save proposal kept), kept⟩
  cases outcome with
  | unreadable reason real failed => exact .stop .refl fun call found => by cases found
  | unknown real absent =>
    exact .stop (.single (.emit (.syncRequest _ _) trivial)) fun call found => by cases found
  | refused fault known failed => exact .stop .refl fun call found => by cases found
  | overflow known verified last =>
    exact .stop (.single (checks verified)) fun call found => by cases found
  | unsaved accepted reason taken failed =>
    exact .stop (saves taken).1 fun call found => by cases found
  | lastView accepted parent grandpa taken saved found last =>
    exact .stop (saves taken).1 fun call found => by cases found
  | elsewhere accepted settled taken saved commits apart =>
    exact .stop ((saves taken).1.trans (commits.calms (saves taken).2)) fun call found => by
      cases found
  | reached accepted settled _ taken saved commits current casts =>
    obtain ⟨calms, verified⟩ := saves taken
    have commitCalms : Calms policy _ settled := commits.calms verified
    have all : Calms policy worker settled := calms.trans commitCalms
    refine .after all.acts (casts.abides (commitCalms.mem verified) current fun fresh => ?_)
    have view : settled.state.view = accepted.state.view := by
      rw [commits.state]
      exact congrArg ConsensusState.view (delayed_state proposal.tc accepted)
    rw [all.voted]
    refine admits.vote proposal ⟨rfl, ⟨taken.known, taken.verified, rfl⟩,
      UInt64.lt_of_le_of_lt all.lastVotedView_le fresh, ?_⟩
    rw [current, view]
    exact taken.handled.leaps

/-- One handler follows the protocol, up to the call it ends with. -/
theorem handle_abides (worker : ConsensusWorker B C) (call : Call B)
    (known : Known policy worker call) (admits : policy.Admits worker call) :
    Abides policy worker (handle call worker) := by
  have outcome := handle_outcome call worker
  cases call with
  | localTimer => exact TimerOutcome.abides outcome
  | timeout timeout => exact TimeoutOutcome.abides outcome known admits
  | proposal proposal => exact ProposalOutcome.abides outcome known admits
  | vote vote => exact VoteOutcome.abides outcome known admits
  | tc tc => exact TcOutcome.abides outcome known admits
  | generateProposal tc => exact GenerateOutcome.abides outcome known

end Handlers

namespace Replica

variable {policy : Policy B}

/-- The steps of a run that the policy admits. -/
def Meets (policy : Policy B) (replica : Replica B C) : Prop :=
  ∀ call, replica.control = .running call → policy.Admits replica.worker call

/-- The call a replica is in is one it may make. -/
def Proper (policy : Policy B) (replica : Replica B C) : Prop :=
  ∀ call, replica.control = .running call → Known policy replica.worker call

omit [ClientForHotstuff B C] in
theorem callOf_known {message : ConsensusMessage B} {call : Call B}
    {worker : ConsensusWorker B C} (present : policy.allowed message)
    (selected : callOf message = some call) : Known policy worker call := by
  cases message with
  | syncRequest hash id => cases selected
  | phantom => cases selected
  | _ =>
    cases selected
    exact .inl present

/-- Every step of a replica is a sequence of acts, and leaves it in a call that
it may make. -/
theorem Step.acts {replica next : Replica B C} (step : Step policy.allowed replica next)
    (proper : Proper policy replica) (meets : Meets policy replica) :
    Relation.ReflTransGen (Act policy) replica.worker next.worker ∧ Proper policy next := by
  cases step with
  | timer idle =>
    refine ⟨.refl, fun call running => ?_⟩
    cases running
    trivial
  | receive idle present selected =>
    refine ⟨.refl, fun call running => ?_⟩
    cases running
    exact callOf_known present selected
  | @resume _ call running =>
    have abides := handle_abides replica.worker call (proper call running) (meets call running)
    refine ⟨abides.acts, fun following control => abides.continues following ?_⟩
    exact controlAfter_running control
  | environment client queue kept =>
    exact ⟨.single (.calm (.outside client _ queue _ kept)),
      fun call running => proper call running⟩

omit [ClientForHotstuff B C] in
theorem proper_any (replica : Replica B C) : Proper Policy.any replica := by
  intro call _
  cases call with
  | localTimer => trivial
  | generateProposal tc => trivial
  | _ => exact .inl trivial

/-- With nothing known about the messages a step still follows the protocol. -/
theorem Step.follows {replica next : Replica B C} (step : Step (fun _ => True) replica next) :
    Relation.ReflTransGen (Act Policy.any) replica.worker next.worker :=
  (Step.acts step (proper_any replica) fun call _ => Policy.any_admits replica.worker call).1

/-- Every run of the code is a run of the protocol, from a fresh worker on. -/
theorem Reachable.follows {guard : Replica B C → Prop} {keystore : Keystore B}
    {authorities : AuthorityList B} {replica : Replica B C}
    (reachable : Reachable policy.allowed guard keystore authorities replica)
    (admitted : ∀ state, guard state → Meets policy state) :
    (∃ client queue, (∀ key, ClientForHotstuff.aux (B := B) client key = none) ∧
      Relation.ReflTransGen (Act policy)
        (ConsensusWorker.new (.new keystore authorities) client queue)
        replica.worker) ∧ Proper policy replica := by
  induction reachable with
  | start initial =>
    obtain ⟨client, queue, fresh, same⟩ := initial.worker
    refine ⟨⟨client, queue, fresh, by rw [same]⟩, fun call running => ?_⟩
    rw [initial.control] at running
    cases running
  | step _ holds move ih =>
    obtain ⟨⟨client, queue, fresh, acts⟩, proper⟩ := ih
    obtain ⟨more, properNext⟩ := move.acts proper (admitted _ holds)
    exact ⟨⟨client, queue, fresh, acts.trans more⟩, properNext⟩

/-- What a fresh worker has and every act keeps holds throughout every run. -/
theorem Reachable.invariant {guard : Replica B C → Prop} {keystore : Keystore B}
    {authorities : AuthorityList B} {replica : Replica B C} {holds : ConsensusWorker B C → Prop}
    (reachable : Reachable policy.allowed guard keystore authorities replica)
    (admitted : ∀ state, guard state → Meets policy state)
    (start : ∀ client queue, (∀ key, ClientForHotstuff.aux (B := B) client key = none) →
      holds (ConsensusWorker.new (.new keystore authorities) client queue))
    (stable : ∀ worker next, Act policy worker next → holds worker → holds next) :
    holds replica.worker := by
  obtain ⟨⟨client, queue, fresh, acts⟩, _⟩ := reachable.follows admitted
  exact Command.keep_along holds acts stable (start client queue fresh)

theorem Run.invariant {keystore : Keystore B} {authorities : AuthorityList B}
    {replica : Replica B C} {holds : ConsensusWorker B C → Prop}
    (run : Run keystore authorities replica)
    (start : ∀ client queue, (∀ key, ClientForHotstuff.aux (B := B) client key = none) →
      holds (ConsensusWorker.new (.new keystore authorities) client queue))
    (stable : ∀ worker next, Act Policy.any worker next → holds worker → holds next) :
    holds replica.worker :=
  Reachable.invariant run
    (fun state _ call _ => Policy.any_admits state.worker call) start stable

end Replica

end Hotstuff
