import Hotstuff.Consensus.Pacemaker

/-! What a replica sends is accepted by every replica with the same authority
list: its proposals are made by the leader of their view, its signatures are
those of its keystore, and its high QC verifies. -/

namespace Hotstuff

open ConsensusWorker

variable {B C : Type} [BlockT B]

variable [ClientForHotstuff B C] {worker : ConsensusWorker B C} {ending : Ending B C}

/-- What a handler proposes, it proposes as the leader of the view, and only a
leader goes on to `generate_proposal`. -/
structure LeaderProposes (worker : ConsensusWorker B C) (ending : Ending B C) : Prop where
  made : ∀ proposal ∈ madeProposals ending.2.log, proposal ∈ madeProposals worker.log ∨
    worker.state.viewLeader proposal.view = some proposal.author
  asked : ∀ tc, ending.1 = .ok (some (.generateProposal tc)) →
    ending.2.state.isLeader = some true

omit [ClientForHotstuff B C] in
theorem LeaderProposes.of_made (made : madeProposals ending.2.log = madeProposals worker.log)
    (asked : ∀ tc, ending.1 = .ok (some (.generateProposal tc)) →
      ending.2.state.isLeader = some true) : LeaderProposes worker ending :=
  ⟨fun _ member => .inl (made ▸ member), asked⟩

omit [ClientForHotstuff B C] in
/-- The leader of its view proposes. -/
theorem LeaderProposes.proposing {chosen : ConsensusWorker B C} {payload : Payload B}
    {tc : Option (TC B)} {proposal : Proposal B}
    (authorities : chosen.state.authorities = worker.state.authorities)
    (log : madeProposals chosen.log = madeProposals worker.log)
    (leads : chosen.state.isLeader = some true)
    (made : chosen.state.makeProposal payload tc = .ok proposal) :
    LeaderProposes worker (.ok (some (.proposal proposal)), chosen.proposing proposal) := by
  refine ⟨fun other member => ?_, fun tc found => by cases found⟩
  obtain ⟨id, leader, own⟩ := ConsensusState.isLeader_true leads
  obtain ⟨_, view, author⟩ := ConsensusState.makeProposal_ok made
  have grown : madeProposals (chosen.proposing proposal).log =
      madeProposals chosen.log ++ [proposal] := by
    simp [ConsensusWorker.proposing, Event.proposed?]
  rw [grown, log] at member
  rcases List.mem_append.mp member with old | added
  · exact .inl old
  · cases List.mem_singleton.mp added
    right
    rw [← ConsensusState.viewLeader_congr authorities, view, leader, ← own, author]

theorem acts_authorities {policy : Policy B} {next : ConsensusWorker B C}
    (acts : Relation.ReflTransGen (Act policy) worker next) :
    next.state.authorities = worker.state.authorities :=
  Command.keep_along (fun now => now.state.authorities = worker.state.authorities) acts
    (fun _ _ act same => act.authorities.trans same) rfl

/-- Nothing is proposed. -/
def Policy.silent : Policy B := { Policy.any with propose := fun _ _ => False }

theorem acts_made_of_silent {next : ConsensusWorker B C}
    (acts : Relation.ReflTransGen (Act Policy.silent) worker next) :
    madeProposals next.log = madeProposals worker.log := by
  refine Command.keep_along (fun now => madeProposals now.log = madeProposals worker.log) acts
    (fun now next act same => ?_) rfl
  cases act with
  | calm calm => exact calm.madeProposals.trans same
  | vote proposal vote marked verified current admitted made =>
    rw [← same]
    simp [Event.proposed?]
  | propose payload tc proposal admitted _ => exact admitted.elim

/-- A handler that abides by the silent policy neither proposes nor asks for it. -/
theorem Abides.leading (abides : Abides Policy.silent worker ending) :
    LeaderProposes worker ending :=
  .of_made (acts_made_of_silent abides.acts) fun _ found => (abides.continues _ found).elim

omit [ClientForHotstuff B C] in
theorem FormedTcOutcome.asked {tc : TC B} (outcome : FormedTcOutcome worker tc ending)
    (found : ending.1 = .ok (some (.generateProposal again))) :
    ending.2.state.isLeader = some true := by
  cases outcome with
  | leader passed passes leads => exact leads
  | _ => cases found

theorem TimeoutOutcome.leading {timeout : Timeout B}
    (outcome : TimeoutOutcome worker timeout ending) : LeaderProposes worker ending := by
  have calms : Calms Policy.any worker ending.2 :=
    outcome.calms (.inl trivial) fun _ _ => trivial
  refine .of_made calms.made fun tc found => ?_
  cases outcome with
  | formed accepted tc _ hears formed rest => exact rest.asked found
  | _ => cases found

theorem TcOutcome.leading {tc : TC B} (outcome : TcOutcome worker tc ending) :
    LeaderProposes worker ending := by
  have calms : Calms Policy.any worker ending.2 := outcome.calms (.inl trivial)
  refine .of_made calms.made fun tc found => ?_
  cases outcome with
  | leader passed verified passes leads => exact leads
  | _ => cases found

theorem GenerateOutcome.leading {tc : Option (TC B)} (outcome : GenerateOutcome worker tc ending)
    (leads : worker.state.isLeader = some true) : LeaderProposes worker ending := by
  have made {chosen : ConsensusWorker B C} {payload : Option (Payload B)}
      (offers : Offers worker payload chosen) :
      madeProposals chosen.log = madeProposals worker.log :=
    (offers.calms : Calms Policy.any worker chosen).made
  cases outcome with
  | nothing chosen offers => exact .of_made (made offers) fun tc found => by cases found
  | unmade chosen payload reason offers failed =>
    exact .of_made (made offers) fun tc found => by cases found
  | proposed chosen payload proposal offers signed =>
    exact .proposing (congrArg _ offers.state) (made offers) (by rw [offers.state]; exact leads)
      signed

theorem FormedQcOutcome.leading {qc : QC B} (outcome : FormedQcOutcome worker qc ending)
    (held : HeldQc worker.log qc) : LeaderProposes worker ending := by
  have moves {settled : ConsensusWorker B C} (handled : HandlesQc worker qc settled) :
      Calm Policy.any worker settled := handled.calm held trivial
  have settles {settled chosen : ConsensusWorker B C} {payload : Option (Payload B)}
      (handled : HandlesQc worker qc settled) (offers : Offers settled payload chosen) :
      Calms Policy.any worker chosen := .head (moves handled) offers.calms
  cases outcome with
  | overflow last => exact .of_made rfl fun tc found => by cases found
  | leaderless settled handled nobody =>
    exact .of_made (moves handled).madeProposals fun tc found => by cases found
  | follower settled handled follows =>
    exact .of_made (moves handled).madeProposals fun tc found => by cases found
  | nothing settled chosen handled leads offers =>
    exact .of_made (settles handled offers).made fun tc found => by cases found
  | withheld settled chosen payload handled leads offers held =>
    exact .of_made (settles handled offers).made fun tc found => by cases found
  | unmade settled chosen payload reason handled leads offers passed failed =>
    exact .of_made (settles handled offers).made fun tc found => by cases found
  | proposed settled chosen payload proposal handled leads offers passed signed =>
    have pushes : Calms Policy.any worker (chosen.pushing payload.blockHash) :=
      (settles handled offers).tail (.outside _ _ _ _ rfl)
    have leader : chosen.state.isLeader = some true := by
      rw [offers.state]
      exact leads
    exact .proposing (acts_authorities pushes.acts) pushes.made leader signed

theorem VoteOutcome.leading {vote : Vote B} (outcome : VoteOutcome worker vote ending) :
    LeaderProposes worker ending := by
  have counts : madeProposals (worker.countingVote vote).log = madeProposals worker.log := by
    simp [countingVote, Event.proposed?]
  cases outcome with
  | refused reason failed => exact .of_made rfl fun tc found => by cases found
  | uncounted reason verified failed => exact .of_made counts fun tc found => by cases found
  | counted verified missed => exact .of_made counts fun tc found => by cases found
  | formed qc _ verified formed rest =>
    have leading := rest.leading (.inr (.inr (by simp)))
    have same : madeProposals ((worker.countingVote vote).emit (.aggregatedQc qc)).log =
        madeProposals worker.log := by
      simp [countingVote, Event.proposed?]
    refine ⟨fun proposal member => ?_, leading.asked⟩
    rw [← same]
    exact leading.made proposal member

/-- Whatever call a worker is in, only a leader proposes. -/
theorem Outcome.leading {call : Call B} (outcome : Outcome worker call ending)
    (leads : ∀ tc, call = .generateProposal tc → worker.state.isLeader = some true) :
    LeaderProposes worker ending := by
  cases call with
  | localTimer => exact (TimerOutcome.abides outcome).leading
  | timeout timeout => exact TimeoutOutcome.leading outcome
  | tc tc => exact TcOutcome.leading outcome
  | proposal proposal =>
    exact (ProposalOutcome.abides outcome (.inl trivial)
      ⟨fun _ _ => trivial, fun _ _ => trivial, fun _ proposes => proposes.elim⟩).leading
  | vote vote => exact VoteOutcome.leading outcome
  | generateProposal tc => exact GenerateOutcome.leading outcome (leads tc rfl)

/-- Every proposal was made by the leader of its view, and the call a replica is
in is not one to propose where it does not lead. -/
structure Replica.Led (replica : Replica B C) : Prop where
  made : ∀ proposal ∈ madeProposals replica.worker.log,
    replica.worker.state.viewLeader proposal.view = some proposal.author
  asked : ∀ tc, replica.control = .running (.generateProposal tc) →
    replica.worker.state.isLeader = some true

theorem Replica.Led.resume {replica : Replica B C} {call : Call B} (led : replica.Led)
    (running : replica.control = .running call) : (replica.resume call).Led := by
  have leading := (handle_outcome call replica.worker).leading fun tc same =>
    led.asked tc (by rw [running, same])
  have authorities := acts_authorities (Replica.Step.follows (.resume running))
  refine ⟨fun proposal member => ?_, fun tc control => ?_⟩
  · rw [ConsensusState.viewLeader_congr authorities]
    exact (leading.made proposal member).elim (led.made proposal) id
  · exact leading.asked tc (Replica.controlAfter_running control)

theorem Replica.Step.led {allowed : ConsensusMessage B → Prop} {replica next : Replica B C}
    (step : Replica.Step allowed replica next) (led : replica.Led) : next.Led := by
  cases step with
  | timer idle => exact ⟨led.made, fun tc control => by cases control⟩
  | receive idle present selected =>
    refine ⟨led.made, fun tc control => ?_⟩
    cases control
    rename_i message
    cases message <;> cases selected
  | resume running => exact led.resume running
  | environment client queue kept => exact ⟨led.made, led.asked⟩

theorem Replica.Reachable.led {allowed : ConsensusMessage B → Prop} {guard : Replica B C → Prop}
    {keystore : Keystore B} {authorities : AuthorityList B} {replica : Replica B C}
    (reachable : Replica.Reachable allowed guard keystore authorities replica) : replica.Led := by
  induction reachable with
  | start initial =>
    obtain ⟨client, queue, _, same⟩ := initial.worker
    refine ⟨fun proposal member => ?_, fun tc control => ?_⟩
    · rw [same] at member
      cases member
    · rw [initial.control] at control
      cases control
  | step _ _ move ih => exact move.led ih

/-- Whatever the keystore signs with a key is a valid signature of that key. -/
def Keystore.SignsValidly (keystore : Keystore B) (id : AuthorityId B) : Prop :=
  ∀ digest result, keystore.signWith id digest = .ok result →
    ∃ signature, result = some signature ∧ BlockT.verify signature digest id = true

/-- What a worker has signed carries a valid signature of an authority. -/
def Event.Signed (authorities : AuthorityList B) : Event B → Prop
  | .proposed proposal =>
      verifySigned authorities proposal.author proposal.signature proposal.digest = .ok ()
  | .voted _ _ vote => verifySigned authorities vote.voter vote.signature vote.digest = .ok ()
  | .timedOut timeout =>
      verifySigned authorities timeout.voter timeout.signature timeout.digest = .ok ()
  | _ => True

omit [ClientForHotstuff B C] in
theorem ConsensusState.verifySigned_own {state : ConsensusState B} {id : AuthorityId B}
    {signature : Option (AuthoritySignature B)} {digest : Hash B}
    (valid : state.keystore.SignsValidly id) (own : state.localAuthorityId = some id)
    (signed : state.keystore.signWith id digest = .ok signature) :
    verifySigned state.authorities id signature digest = .ok () := by
  obtain ⟨found, present, verifies⟩ := valid digest signature signed
  exact verifySigned_ok_iff.mpr ⟨List.mem_of_find?_eq_some own, found, present, verifies⟩

theorem Fresh.signed {event : Event B} (fresh : Fresh policy worker event)
    (valid : ∀ id, worker.state.localAuthorityId = some id →
      worker.state.keystore.SignsValidly id) : event.Signed worker.state.authorities := by
  cases event with
  | proposed proposal =>
    obtain ⟨payload, tc, made⟩ := fresh
    have own := (ConsensusState.makeProposal_ok made).2.2
    exact ConsensusState.verifySigned_own (valid _ own) own
      (ConsensusState.makeProposal_signed made)
  | voted view proposal vote =>
    obtain ⟨_, _, _, _, marked, made⟩ := fresh
    obtain ⟨own, signed⟩ := ConsensusState.makeVote_signed made
    exact ConsensusState.verifySigned_own (valid _ own) own signed
  | timedOut timeout =>
    have own := (ConsensusState.makeTimeout_ok fresh).2.2
    exact ConsensusState.verifySigned_own (valid _ own) own
      (ConsensusState.makeTimeout_signed fresh)
  | _ => trivial

/-- Everything signed here carries a valid signature, and a high QC that was ever
raised is not one of view 0. -/
structure Trusted (keystore : Keystore B) (authorities : AuthorityList B)
    (worker : ConsensusWorker B C) : Prop where
  sameKeystore : worker.state.keystore = keystore
  sameAuthorities : worker.state.authorities = authorities
  signed : ∀ event ∈ worker.log, event.Signed authorities
  raised : worker.state.highQc = QC.default ∨ 0 < worker.state.highQc.view

variable {keystore : Keystore B} {authorities : AuthorityList B}

theorem Trusted.act (act : Act policy worker next)
    (valid : ∀ id, (ConsensusState.new keystore authorities).localAuthorityId = some id →
      keystore.SignsValidly id)
    (trusted : Trusted keystore authorities worker) : Trusted keystore authorities next where
  sameKeystore := act.keystore.trans trusted.sameKeystore
  sameAuthorities := act.authorities.trans trusted.sameAuthorities
  signed := by
    have own : worker.state.localAuthorityId =
        (ConsensusState.new keystore authorities).localAuthorityId :=
      ConsensusState.localAuthorityId_congr trusted.sameKeystore trusted.sameAuthorities
    obtain ⟨events, grown, fresh⟩ := act.log_eq
    intro event member
    rw [grown] at member
    rcases List.mem_append.mp member with old | added
    · exact trusted.signed event old
    · rw [← trusted.sameAuthorities]
      apply (fresh event added).signed
      intro id found
      rw [trusted.sameKeystore]
      exact valid id (own ▸ found)
  raised := by
    rcases act.highQc with same | ⟨_, higher⟩
    · rw [same]
      exact trusted.raised
    · exact .inr (UInt64.lt_of_le_of_lt UInt64.zero_le higher)

/-- In every state of every run the high QC is the default one or verifies, and
every replica with the same authorities accepts each proposal and timeout that
was gossiped and each vote that was made. -/
theorem honest_messages_accepted {replica : Replica B C}
    (run : Replica.Run keystore authorities replica)
    (valid : ∀ id, (ConsensusState.new keystore authorities).localAuthorityId = some id →
      keystore.SignsValidly id) :
    (replica.worker.state.highQc = QC.default ∨
      replica.worker.state.highQc.verify authorities = .ok ()) ∧
    ∀ state : ConsensusState B, state.authorities = authorities →
      (∀ proposal force, Event.gossip (.propose proposal) force ∈ replica.worker.log →
        state.verifyProposal proposal = .ok ()) ∧
      (∀ view proposal vote, Event.voted view proposal vote ∈ replica.worker.log →
        vote.verify state.authorities = .ok ()) ∧
      ∀ timeout force, Event.gossip (.timeout timeout) force ∈ replica.worker.log →
        state.verifyTimeout timeout = .ok () := by
  have evident : Evident Policy.any keystore authorities replica.worker :=
    run.evident fun state _ call _ => Policy.any_admits state.worker call
  have trusted : Trusted keystore authorities replica.worker :=
    run.invariant (fun _ _ _ => ⟨rfl, rfl, fun _ member => (by cases member), .inl rfl⟩)
      fun _ _ act trusted => trusted.act act valid
  have checks (qc : QC B) (origin : qc = QC.default ∨ HeldQc replica.worker.log qc) :
      qc.eq QC.default = true ∨ qc.verify authorities = .ok () := by
    rcases origin with rfl | held
    · exact .inl (QC.eq_default_iff.mpr ⟨rfl, rfl⟩)
    · exact evident.heldQc held
  refine ⟨?_, fun state same => ⟨?_, ?_, ?_⟩⟩
  · rcases trusted.raised with default | raised
    · exact .inl default
    · refine .inr ((checks _ evident.highQc).resolve_left fun exempt => ?_)
      rw [(QC.eq_default_iff.mp exempt).2] at raised
      exact UInt64.lt_irrefl _ raised
  · intro proposal force sent
    have made : Event.proposed proposal ∈ replica.worker.log := evident.mem sent
    refine ConsensusState.verifyProposal_ok_iff.mpr ⟨?_, ?_⟩
    · rw [ConsensusState.viewLeader_congr (same.trans trusted.sameAuthorities.symm)]
      exact run.led.made proposal (List.mem_filterMap.mpr ⟨_, made, rfl⟩)
    · rw [same]
      exact Proposal.verify_ok_iff.mpr ⟨verifySigned_ok_iff.mp (trusted.signed _ made),
        checks _ (evident.mem made).1⟩
  · intro view proposal vote voted
    rw [same]
    exact trusted.signed _ voted
  · intro timeout force sent
    have made : Event.timedOut timeout ∈ replica.worker.log := evident.mem sent
    simp only [ConsensusState.verifyTimeout, same]
    exact Timeout.verify_ok_iff.mpr ⟨verifySigned_ok_iff.mp (trusted.signed _ made),
      checks _ (evident.mem made).1⟩

/-- The four proposals of the single authority pass its own check. -/
theorem honest_messages_accepted_solo :
    (madeProposals Sample.solo.worker.log).map Proposal.view = [1, 2, 4, 5] ∧
    ∀ proposal force, Event.gossip (.propose proposal) force ∈ Sample.solo.worker.log →
      Sample.solo.worker.state.verifyProposal proposal = .ok () := by
  have valid (id : AuthorityId Sample) : (Sample.keystore 0).SignsValidly id := by
    intro digest result signed
    cases signed
    exact ⟨_, rfl, decide_eq_true rfl⟩
  exact ⟨by decide +kernel, ((honest_messages_accepted Sample.solo_run fun id _ => valid id).2
    Sample.solo.worker.state (by decide +kernel)).1⟩

end Hotstuff
