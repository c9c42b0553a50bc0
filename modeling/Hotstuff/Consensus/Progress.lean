import Hotstuff.Consensus.Recovery

/-! Good views. A valid proposal that reaches a quorum in its view, and the replica
that leads the next one, is certified there: nothing but a panic can keep those
replicas from voting, or their votes from being counted. -/

namespace Hotstuff

open ConsensusWorker

variable {B C : Type} [BlockT B]

/-- The digest that the votes for a proposal sign. -/
def Proposal.ballot (proposal : Proposal B) : Hash B :=
  hashOf (votePreimage proposal.digest proposal.view)

structure Vote.Supports (authorities : AuthorityList B) (proposal : Proposal B)
    (voter : AuthorityId B) (vote : Vote B) : Prop where
  hash : vote.proposalHash = proposal.digest
  view : vote.view = proposal.view
  voter : vote.voter = voter
  verified : vote.verify authorities = .ok ()

theorem Vote.Supports.digest {authorities : AuthorityList B} {proposal : Proposal B}
    {voter : AuthorityId B} {vote : Vote B} (supports : vote.Supports authorities proposal voter) :
    vote.digest = proposal.ballot := by
  rw [Vote.digest, Vote.preimage, supports.hash, supports.view, Proposal.ballot]

theorem mem_verifiedVotes {log : List (Event B)} {vote : Vote B} :
    vote ∈ verifiedVotes log ↔ Event.verifiedVote vote ∈ log := by
  unfold verifiedVotes
  rw [List.mem_filterMap]
  constructor
  · intro found
    obtain ⟨event, member, present⟩ := found
    cases event with
    | verifiedVote other =>
      cases present
      exact member
    | _ => cases present
  · intro member
    exact ⟨_, member, rfl⟩

theorem Vote.Supports.counted {authorities : AuthorityList B} {proposal : Proposal B}
    {voter : AuthorityId B} {vote : Vote B} {log : List (Event B)}
    (supports : vote.Supports authorities proposal voter)
    (logged : Event.verifiedVote vote ∈ log) :
    voter ∈ ballotVoters proposal.view proposal.ballot (verifiedVotes log) := by
  apply List.mem_toFinset.mpr
  refine List.mem_map.mpr ⟨vote, List.mem_filter.mpr ⟨mem_verifiedVotes.mpr logged, ?_⟩,
    supports.voter⟩
  exact decide_eq_true ⟨supports.view, supports.digest⟩

section Handlers

variable [ClientForHotstuff B C] {worker : ConsensusWorker B C} {proposal : Proposal B}

omit [ClientForHotstuff B C] in
theorem HandlesQc.of_late {next : ConsensusWorker B C} {qc : QC B}
    (handled : HandlesQc worker qc next) (late : qc.view < worker.state.view) :
    next = worker.emit (.acceptedQc qc) := by
  cases handled with
  | late _ => rfl
  | current view current _ => exact absurd current (UInt64.ne_of_lt late)
  | ahead ahead => exact absurd late (UInt64.lt_asymm ahead)

/-- A proposal of the current view, with an older QC, is voted for if its block is
known and the proposal can be stored, unless there is a panic. -/
theorem ProposalOutcome.casts {ending : Ending B C}
    (outcome : ProposalOutcome worker proposal ending) (known : HasPayload worker proposal)
    (valid : worker.state.verifyProposal proposal = .ok ())
    (older : proposal.qc.view < worker.state.view) (current : proposal.view = worker.state.view)
    (stored : (Synchronizer.saveProposal worker.client proposal).1 = .ok ()) :
    ending.1 = .error .panic ∨
    ∃ trace between, CastOutcome between proposal ending ∧ between.state = worker.state ∧
      between.log = worker.log ++ trace := by
  have settles {accepted settled : ConsensusWorker B C} (taken : Takes worker proposal accepted)
      (commits : Commits ((accepted.delayed proposal.tc).saving proposal) proposal settled) :
      settled.state = worker.state ∧ ∃ trace, settled.log = worker.log ++ trace := by
    cases taken.handled.of_late older
    obtain ⟨moved, delayed, _⟩ := delayed_script proposal.tc
      ((worker.emit (.verifiedProposal proposal)).emit (.acceptedQc proposal.qc))
    obtain ⟨finalized, committed, _⟩ := commits.script
    refine ⟨commits.state.trans (delayed_state proposal.tc _),
      [.verifiedProposal proposal, .acceptedQc proposal.qc] ++ moved ++ finalized, ?_⟩
    simp [committed, saving, delayed]
  cases outcome with
  | unreadable reason real failed =>
    rcases known with empty | found
    · exact absurd empty real
    · cases failed.symm.trans found
  | unknown real absent =>
    rcases known with empty | found
    · exact absurd empty real
    · cases absent.symm.trans found
  | refused fault _ failed => cases failed.symm.trans valid
  | overflow _ _ _ => exact .inl rfl
  | unsaved accepted reason taken failed =>
    have client : accepted.client = worker.client := taken.handled.client
    rw [client] at failed
    cases failed.symm.trans stored
  | lastView _ _ _ _ _ _ _ => exact .inl rfl
  | elsewhere accepted settled taken _ commits apart =>
    rw [(settles taken commits).1] at apart
    exact absurd current apart
  | reached accepted settled _ taken _ commits _ casts =>
    obtain ⟨state, trace, log⟩ := settles taken commits
    exact .inr ⟨trace, settled, casts, state, log⟩

omit [ClientForHotstuff B C] in
/-- A vote that is made goes to the leader of the next view, or to oneself. -/
theorem CastOutcome.delivers {ending : Ending B C} {vote : Vote B} {marked : ConsensusState B}
    {id leader : AuthorityId B} (outcome : CastOutcome worker proposal ending)
    (made : worker.state.makeVote proposal = (some vote, marked))
    (own : worker.state.localAuthorityId = some id)
    (next : worker.state.view.next?.bind worker.state.viewLeader = some leader) :
    (id ≠ leader ∧ Event.gossip (.vote vote) false ∈ ending.2.log) ∨
    (id = leader ∧ ending.1 = .ok (some (.vote vote)) ∧ ending.2.state = marked ∧
      ∃ trace, ending.2.log = worker.log ++ trace) := by
  cases outcome with
  | unmade _ unmade => cases made.symm.trans unmade
  | stranded _ _ _ nobody => cases next.symm.trans nobody
  | own cast _ other same following leads =>
    cases made.symm.trans same
    cases next.symm.trans following
    exact .inr ⟨Option.some.inj (own.symm.trans leads), rfl, rfl, _, rfl⟩
  | sent cast _ other same following apart =>
    cases made.symm.trans same
    cases next.symm.trans following
    refine .inl ⟨fun equal => apart (by rw [own, equal]), ?_⟩
    simp [emit_log]

theorem VoteOutcome.missed_view {vote : Vote B} {ending : Ending B C}
    (outcome : VoteOutcome worker vote ending)
    (missed : ∀ qc, (worker.state.addVote vote).1 ≠ .ok (some qc)) :
    ending.2.state.view = worker.state.view := by
  cases outcome with
  | refused _ _ => rfl
  | uncounted _ _ _ => rfl
  | counted _ _ => rfl
  | formed qc _ _ formed _ => exact absurd formed (missed qc)

end Handlers

variable [ClientForHotstuff B C] {network : Network B} {exchange : Exchange B}
  {system later : System B C} {proposal : Proposal B} {leader id : AuthorityId B}

def Replica.Certifies (proposal : Proposal B) (replica : Replica B C) : Prop :=
  ∃ qc, Event.aggregatedQc qc ∈ replica.worker.log ∧ qc.view = proposal.view ∧
    qc.digest = proposal.ballot

/-- The replica waits for votes for the proposal, and has counted those of some
authorities. -/
structure Replica.Collects (proposal : Proposal B) (voters : List (AuthorityId B))
    (replica : Replica B C) : Prop where
  idle : replica.control = .idle
  reached : replica.worker.state.view ≤ proposal.view
  counted : ∀ voter ∈ voters,
    voter ∈ ballotVoters proposal.view proposal.ballot (verifiedVotes replica.worker.log)

theorem Network.Runs.votes (runs : network.Runs system) (honest : network.Honest id)
    {vote : Vote B} {voter : AuthorityId B} {heard : List (AuthorityId B)}
    (supports : vote.Supports network.authorities proposal voter)
    (reached : (system id).worker.state.view ≤ proposal.view)
    (counted : ∀ other ∈ heard, other ∈
      ballotVoters proposal.view proposal.ballot (verifiedVotes (system id).worker.log)) :
    ((system id).resume (.vote vote)).control = .halted ∨
    ((system id).resume (.vote vote)).Certifies proposal ∨
    ((system id).resume (.vote vote)).Collects proposal (voter :: heard) := by
  by_cases alive : ((system id).resume (.vote vote)).control = .halted
  · exact .inl alive
  have evident := runs.evident network.byzantine_persistent honest
  have checked : (system id).worker.state.verifyVote vote = .ok () := by
    rw [ConsensusState.verifyVote_ok_iff, evident.sameAuthorities, supports.view]
    exact ⟨reached, supports.verified⟩
  obtain ⟨calm, control⟩ := controlAfter_calm alive
  have outcome := handleVote_outcome vote (system id).worker
  rcases outcome.counts ⟨evident.sameKeystore, evident.sameAuthorities, rfl⟩ calm with
    ⟨refused, _⟩ | ⟨trace, after, written, script, _⟩
  · exact absurd checked refused
  change ((system id).resume (.vote vote)).worker.log = _ at written
  change ((system id).resume (.vote vote)).control =
    .upon (following (handleVote vote (system id).worker).1) at control
  generalize following (handleVote vote (system id).worker).1 = next at control script
  right
  cases script with
  | formedQc _ _ qc accepted formed handled =>
    obtain ⟨view, digest⟩ := Aggregator.formed_digest formed
    left
    exact ⟨qc, by simp [written], view.trans supports.view, digest.trans supports.digest⟩
  | reproposed _ _ qc accepted proposed formed handled bare =>
    obtain ⟨view, digest⟩ := Aggregator.formed_digest formed
    left
    exact ⟨qc, by simp [written], view.trans supports.view, digest.trans supports.digest⟩
  | vote _ _ missed =>
    right
    have same : ((system id).resume (.vote vote)).worker.state.view =
        (system id).worker.state.view := by
      apply outcome.missed_view
      rw [ConsensusState.addVote, evident.sameAuthorities]
      exact missed
    refine ⟨control, same ▸ reached, fun other listed => ?_⟩
    rcases List.mem_cons.mp listed with rfl | old
    · exact supports.counted (by simp [written])
    · rw [written, verifiedVotes_append]
      exact ballotVoters_mono _ _ _ _ (counted other old)

/-- What the leader of the next view can come to: a panic, a QC, or to wait for more
votes. -/
def Replica.Tallies (proposal : Proposal B) (voters : List (AuthorityId B))
    (replica : Replica B C) : Prop :=
  replica.control = .halted ∨ replica.Certifies proposal ∨ replica.Collects proposal voters

/-- A valid vote of the authority is on its way to the leader of the next view, or has
been counted there. -/
def Network.Given (network : Network B) (proposal : Proposal B) (leader : AuthorityId B)
    (system : System B C) (voter : AuthorityId B) : Prop :=
  ∃ vote, vote.Supports network.authorities proposal voter ∧
    (network.Gossiped system (.vote vote) ∨
      Event.verifiedVote vote ∈ (system leader).worker.log)

omit [ClientForHotstuff B C] in
theorem Network.Given.mono (grows : network.Grows system later) (leads : network.Honest leader)
    {voter : AuthorityId B} (given : network.Given proposal leader system voter) :
    network.Given proposal leader later voter := by
  obtain ⟨vote, supports, sent | counted⟩ := given
  · exact ⟨vote, supports, .inl (network.gossiped_persistent _ _ _ grows sent)⟩
  · exact ⟨vote, supports, .inr (grows leader leads counted)⟩

variable (exchange) in
theorem Network.Runs.hears_vote {voter : AuthorityId B} {heard : List (AuthorityId B)}
    (runs : network.Runs system) (member : leader ∈ exchange.members)
    (leads : network.Honest leader)
    (wanted : ∀ vote, vote.Supports network.authorities proposal voter →
      exchange.inputs (.vote vote))
    (tallies : (system leader).Tallies proposal heard)
    (given : network.Given proposal leader system voter) :
    ∃ replica, network.Leads exchange system (Function.update system leader replica) ∧
      replica.Tallies proposal (voter :: heard) := by
  have stays (same : (system leader).Tallies proposal (voter :: heard)) :
      ∃ replica, network.Leads exchange system (Function.update system leader replica) ∧
        replica.Tallies proposal (voter :: heard) :=
    ⟨system leader, by rw [Function.update_eq_self], same⟩
  rcases tallies with halted | certified | collects
  · exact stays (.inl halted)
  · exact stays (.inr (.inl certified))
  · obtain ⟨vote, supports, sent | counted⟩ := given
    · let started : Replica B C := { system leader with control := .running (.vote vote) }
      have arrives : network.Leads exchange system (Function.update system leader started) :=
        .single (.receive leader _ _ member leads collects.idle sent rfl (wanted vote supports))
      have here : Function.update system leader started leader = started :=
        Function.update_self ..
      have next := (runs.leads arrives).votes leads supports
        (by rw [here]; exact collects.reached) (by rw [here]; exact collects.counted)
      rw [here] at next
      exact ⟨_, arrives.trans (Network.Leads.resume member leads rfl), next⟩
    · refine stays (.inr (.inr ⟨collects.idle, collects.reached, fun other listed => ?_⟩))
      rcases List.mem_cons.mp listed with rfl | old
      · exact supports.counted counted
      · exact collects.counted other old

/-- The proposal is valid and its QC is of an earlier view; `leader` leads the view
behind it. -/
structure Network.Votable (network : Network B) (proposal : Proposal B)
    (leader : AuthorityId B) : Prop where
  valid : ∀ state : ConsensusState B, state.authorities = network.authorities →
    state.verifyProposal proposal = .ok ()
  older : proposal.qc.view < proposal.view
  next : ∀ state : ConsensusState B, state.authorities = network.authorities →
    proposal.view.next?.bind state.viewLeader = some leader

/-- The replica waits in the view of the proposal, has not voted there, knows the
block and can store the proposal. -/
structure Replica.Ready (proposal : Proposal B) (replica : Replica B C) : Prop where
  idle : replica.control = .idle
  view : replica.worker.state.view = proposal.view
  fresh : replica.worker.state.lastVotedView < proposal.view
  known : HasPayload replica.worker proposal
  stored : (Synchronizer.saveProposal replica.worker.client proposal).1 = .ok ()

/-- An honest replica that waits now has panicked later. -/
def Network.Panics (network : Network B) (system later : System B C) (id : AuthorityId B) : Prop :=
  network.Honest id ∧ (system id).control = .idle ∧ (later id).control = .halted

omit [ClientForHotstuff B C] in
theorem ConsensusState.makeVote_eq {state : ConsensusState B}
    {signature : Option (AuthoritySignature B)} (own : state.localAuthorityId = some id)
    (fresh : state.lastVotedView < proposal.view)
    (signed : state.keystore.signWith id
      (⟨proposal.digest, proposal.view, id, none⟩ : Vote B).digest = .ok signature) :
    state.makeVote proposal = (some ⟨proposal.digest, proposal.view, id, signature⟩,
      { state with lastVotedView := max state.lastVotedView proposal.view }) := by
  simp only [makeVote, own, UInt64.not_le.mpr fresh, if_false, signed]

variable (exchange) in
/-- A replica that is ready votes, unless it panics: the vote goes to the leader of
the next view, or is handled at once by the replica that is this leader. -/
theorem Network.Runs.casts (runs : network.Runs system) (member : id ∈ exchange.members)
    (honest : network.Honest id) (wanted : exchange.inputs (.proposal proposal))
    (signs : (network.keystore id).Signs id)
    (sent : network.Gossiped system (.propose proposal))
    (votable : network.Votable proposal leader) (ready : (system id).Ready proposal) :
    ∃ replica vote, network.Leads exchange system (Function.update system id replica) ∧
      vote.Supports network.authorities proposal id ∧
      (replica.control = .halted ∨
        (id ≠ leader ∧ Event.gossip (.vote vote) false ∈ replica.worker.log) ∨
        (id = leader ∧ replica.control = .running (.vote vote) ∧
          replica.worker.state.view = proposal.view ∧
          ∃ trace, replica.worker.log = (system id).worker.log ++ trace)) := by
  have evident := runs.evident network.byzantine_persistent honest
  have own : (system id).worker.state.localAuthorityId = some id :=
    evident.localAuthorityId.trans (network.own id honest.1 honest.2)
  obtain ⟨signature, signed, verifies⟩ :=
    signs (⟨proposal.digest, proposal.view, id, none⟩ : Vote B).digest
  rw [← evident.sameKeystore] at signed
  have made := ConsensusState.makeVote_eq own ready.fresh signed
  let started : Replica B C := { system id with control := .running (.proposal proposal) }
  have arrives : network.Leads exchange system (Function.update system id started) :=
    .single (.receive id _ _ member honest ready.idle sent rfl wanted)
  refine ⟨started.resume (.proposal proposal), ⟨proposal.digest, proposal.view, id, signature⟩,
    arrives.trans (Network.Leads.resume member honest rfl),
    ⟨rfl, rfl, rfl, Vote.verify_ok_iff.mpr ⟨honest.1, signature, rfl, verifies⟩⟩, ?_⟩
  rcases (handleProposal_outcome proposal (system id).worker).casts ready.known
    (votable.valid _ evident.sameAuthorities) (ready.view ▸ votable.older) ready.view.symm
    ready.stored with panic | ⟨trace, between, casts, state, log⟩
  · left
    simp [Replica.resume, started, handle, panic, Replica.controlAfter]
  · right
    have next : between.state.view.next?.bind between.state.viewLeader = some leader := by
      rw [state, ready.view]
      exact votable.next _ evident.sameAuthorities
    rw [← state] at made own
    rcases casts.delivers made own next with cast | ⟨same, returned, marked, voted, written⟩
    · exact .inl cast
    · refine .inr ⟨same, ?_, ?_, trace ++ voted, ?_⟩
      · simp [Replica.resume, started, handle, returned, Replica.controlAfter]
      · have view := congrArg ConsensusState.view marked
        rw [← ready.view, ← state]
        exact view
      · rw [← List.append_assoc, ← log]
        exact written

theorem Network.Runs.certifies {voters heard : List (AuthorityId B)} (runs : network.Runs system)
    (leads : network.Honest leader) (quorum : Quorum network.authorities.ids voters)
    (included : voters ⊆ heard) (collects : (system leader).Collects proposal heard) :
    (system leader).Certifies proposal := by
  have counted := (runs.replica network.byzantine_persistent leads).counted
    (by simp [collects.idle])
  have large : network.authorities.length * 2 / 3 < (ballotVoters proposal.view proposal.ballot
      (verifiedVotes (system leader).worker.log)).card := by
    have inside : voters.toFinset ⊆ ballotVoters proposal.view proposal.ballot
        (verifiedVotes (system leader).worker.log) :=
      fun voter listed => collects.counted voter (included (List.mem_toFinset.mp listed))
    have size := quorum.large
    rw [← quorum.toFinset_card, AuthorityList.ids, List.length_map] at size
    exact size.trans_le (Finset.card_le_card inside)
  have formed : 0 < formedQcs proposal.view proposal.ballot (system leader).worker.log := by
    rw [counted.qcs]
    omega
  obtain ⟨event, logged, completes⟩ := List.countP_pos_iff.mp formed
  cases event with
  | aggregatedQc qc => exact ⟨qc, logged, of_decide_eq_true completes⟩
  | _ => cases completes

variable (exchange) in
/-- The leader of the next view votes itself if it can, before it listens to others. -/
theorem Network.Runs.opens {voters : List (AuthorityId B)} (runs : network.Runs system)
    (member : leader ∈ exchange.members) (leads : network.Honest leader)
    (wanted : exchange.inputs (.proposal proposal))
    (signs : (network.keystore leader).Signs leader)
    (sent : network.Gossiped system (.propose proposal))
    (votable : network.Votable proposal leader) (idle : (system leader).control = .idle)
    (reached : (system leader).worker.state.view ≤ proposal.view)
    (ready : ∀ voter ∈ voters, (voter = leader ∧ (system leader).Ready proposal) ∨
      network.Given proposal leader system voter) :
    ∃ replica heard, network.Leads exchange system (Function.update system leader replica) ∧
      replica.Tallies proposal heard ∧
      ∀ voter ∈ voters, voter ∈ heard ∨ network.Given proposal leader system voter := by
  by_cases votes : (system leader).Ready proposal
  · obtain ⟨replica, vote, onward, supports, outcome⟩ :=
      runs.casts exchange member leads wanted signs sent votable votes
    have heard (voter : AuthorityId B) (listed : voter ∈ voters) :
        voter ∈ [leader] ∨ network.Given proposal leader system voter := by
      rcases ready voter listed with ⟨rfl, _⟩ | given
      · exact .inl List.mem_cons_self
      · exact .inr given
    rcases outcome with halted | ⟨other, _⟩ | ⟨_, running, view, trace, log⟩
    · exact ⟨replica, [leader], onward, .inl halted, heard⟩
    · exact absurd rfl other
    · have here : Function.update system leader replica leader = replica :=
        Function.update_self ..
      have counts := (runs.leads onward).votes leads supports
        (by rw [here]; exact UInt64.le_of_eq view)
        fun other (none : other ∈ ([] : List (AuthorityId B))) => by cases none
      rw [here] at counts
      exact ⟨_, [leader], onward.trans (Network.Leads.resume member leads running), counts, heard⟩
  · refine ⟨system leader, [], by rw [Function.update_eq_self], ?_, fun voter listed => ?_⟩
    · exact .inr (.inr ⟨idle, reached, fun _ none => by cases none⟩)
    · rcases ready voter listed with ⟨_, able⟩ | given
      · exact absurd able votes
      · exact .inr given

variable (exchange) in
/-- Once every voter of a quorum has voted, or is the leader and can vote, the leader
completes a QC of the proposal or panics. -/
theorem Network.Runs.concludes {voters : List (AuthorityId B)} (runs : network.Runs system)
    (member : leader ∈ exchange.members) (leads : network.Honest leader)
    (wanted : exchange.inputs (.proposal proposal))
    (votes : ∀ voter ∈ voters, ∀ vote, vote.Supports network.authorities proposal voter →
      exchange.inputs (.vote vote))
    (signs : (network.keystore leader).Signs leader)
    (sent : network.Gossiped system (.propose proposal))
    (votable : network.Votable proposal leader) (idle : (system leader).control = .idle)
    (reached : (system leader).worker.state.view ≤ proposal.view)
    (quorum : Quorum network.authorities.ids voters)
    (ready : ∀ voter ∈ voters, (voter = leader ∧ (system leader).Ready proposal) ∨
      network.Given proposal leader system voter) :
    ∃ replica, network.Leads exchange system (Function.update system leader replica) ∧
      (replica.control = .halted ∨ replica.Certifies proposal) := by
  obtain ⟨opened, heard, opening, tallies, rest⟩ :=
    runs.opens exchange member leads wanted signs sent votable idle reached ready
  rw [← Function.update_self leader opened system] at tallies
  have missing (voter : AuthorityId B)
      (listed : voter ∈ voters.filter fun voter => decide (voter ∉ heard)) :
      network.Given proposal leader (Function.update system leader opened) voter := by
    obtain ⟨member, unheard⟩ := List.mem_filter.mp listed
    exact ((rest voter member).resolve_left (of_decide_eq_true unheard)).mono opening.grows leads
  obtain ⟨replica, hearing, outcome⟩ := (runs.leads opening).counts_all exchange
    (Replica.Tallies proposal) (network.Given proposal leader)
    (fun _ _ _ grows given => given.mono grows leads)
    (fun _ _ voter listed runs tallies given => runs.hears_vote exchange member leads
      (votes voter (List.mem_filter.mp listed).1) tallies given)
    tallies missing
  rw [Function.update_idem] at hearing
  have onward := opening.trans hearing
  refine ⟨replica, onward, ?_⟩
  rcases outcome with halted | certified | collects
  · exact .inl halted
  · exact .inr certified
  · have included : voters ⊆ (voters.filter fun voter => decide (voter ∉ heard)) ++ heard := by
      intro voter listed
      by_cases early : voter ∈ heard
      · exact List.mem_append_right _ early
      · exact List.mem_append_left _ (List.mem_filter.mpr ⟨listed, decide_eq_true early⟩)
    rw [← Function.update_self leader replica system] at collects ⊢
    exact .inr ((runs.leads onward).certifies leads quorum included collects)

variable (exchange) in
/-- The voters other than the leader of the next view get the proposal: each of
them panics on it, or its vote is on its way. -/
theorem Network.Runs.voices {voters : List (AuthorityId B)} (runs : network.Runs system)
    (members : voters ⊆ exchange.members) (wanted : exchange.inputs (.proposal proposal))
    (able : ∀ id, network.Honest id → (network.keystore id).Signs id)
    (leads : network.Honest leader) (sent : network.Gossiped system (.propose proposal))
    (votable : network.Votable proposal leader) (distinct : voters.Nodup)
    (absent : leader ∉ voters)
    (ready : ∀ voter ∈ voters, (network.Honest voter ∧ (system voter).Ready proposal) ∨
      network.Given proposal leader system voter) :
    ∃ later, network.Leads exchange system later ∧
      (∀ voter ∈ voters, network.Panics system later voter ∨
        network.Given proposal leader later voter) ∧ later leader = system leader := by
  obtain ⟨later, onward, spoken, unmoved⟩ := runs.each exchange
    (fun now id => network.Gossiped now (.propose proposal) ∧
      ((network.Honest id ∧ (system id).control = .idle ∧ (now id).Ready proposal) ∨
        network.Given proposal leader now id))
    (fun now id => network.Panics system now id ∨ network.Given proposal leader now id)
    (fun now later id grows same => by
      rw [Network.Panics, Network.Panics, same]
      refine ⟨fun held => ⟨network.gossiped_persistent _ _ _ grows held.1, ?_⟩, ?_⟩
      · exact held.2.imp_right fun given => given.mono grows leads
      · exact Or.imp_right fun given => given.mono grows leads)
    (fun now id runs listed held => by
      obtain ⟨proposed, ⟨honest, idle, waits⟩ | given⟩ := held
      · obtain ⟨replica, vote, onward, supports, outcome⟩ :=
          runs.casts exchange (members listed) honest wanted (able id honest) proposed votable
            waits
        refine ⟨replica, onward, ?_⟩
        rcases outcome with halted | ⟨_, cast⟩ | ⟨same, _⟩
        · exact .inl ⟨honest, idle, by rwa [Function.update_self]⟩
        · exact .inr ⟨vote, supports, .inl ⟨id, false, honest, by rwa [Function.update_self]⟩⟩
        · exact absurd (same ▸ listed) absent
      · refine ⟨now id, ?_, .inr ?_⟩
        · rw [Function.update_eq_self]
        · rwa [Function.update_eq_self])
    distinct fun voter listed => ⟨sent, (ready voter listed).imp_left fun can =>
      ⟨can.1, can.2.idle, can.2⟩⟩
  exact ⟨later, onward, spoken, unmoved leader absent⟩

/-- The members of a list vote on a proposal: the proposal arrives at them and at the
leader of the next view, and their votes for it arrive. -/
def Exchange.balloting (authorities : AuthorityList B) (proposal : Proposal B)
    (leader : AuthorityId B) (voters : List (AuthorityId B)) : Exchange B where
  members := leader :: voters
  inputs
    | .proposal other => other = proposal
    | .vote vote => ∃ voter ∈ voters, vote.Supports authorities proposal voter
    | _ => False

variable {guard : Replica B C → Prop}

/-- A valid proposal that reaches a quorum is certified. Take any run, with any
number of faulty authorities, and a valid proposal that has been sent in it. When
the replica that leads the next view waits for votes, and each authority of a
quorum either can still vote or has already done so, then the proposal and the
votes for it need only arrive for that leader to complete a QC of the proposal,
unless one of these replicas, waiting now, panics on the way. -/
theorem proposals_certified (reachable : network.Reachable network.Byzantine guard system)
    (able : ∀ id, network.Honest id → (network.keystore id).Signs id)
    (sent : network.Gossiped system (.propose proposal))
    (votable : network.Votable proposal leader) (leads : network.Honest leader)
    (idle : (system leader).control = .idle)
    (reached : (system leader).worker.state.view ≤ proposal.view)
    {voters : List (AuthorityId B)} (quorum : Quorum network.authorities.ids voters)
    (ready : ∀ voter ∈ voters, (voter ∉ network.faulty ∧ (system voter).Ready proposal) ∨
      network.Given proposal leader system voter) :
    ∃ later, network.Leads (.balloting network.authorities proposal leader voters) system later ∧
      ((later leader).Certifies proposal ∨
        ∃ id ∈ leader :: voters, network.Panics system later id) := by
  have runs : network.Runs system :=
    reachable.mono (fun _ _ present => present) fun _ _ => trivial
  let exchange : Exchange B := .balloting network.authorities proposal leader voters
  have willing (voter : AuthorityId B) (listed : voter ∈ voters) :
      (network.Honest voter ∧ (system voter).Ready proposal) ∨
        network.Given proposal leader system voter :=
    (ready voter listed).imp_left fun can => ⟨⟨quorum.known voter listed, can.1⟩, can.2⟩
  -- First the others get the proposal and vote.
  have inside : (voters.filter fun voter => decide (voter ≠ leader)) ⊆ exchange.members :=
    fun voter listed => List.mem_cons_of_mem _ (List.mem_filter.mp listed).1
  obtain ⟨middle, speaking, spoken, unmoved⟩ := runs.voices exchange inside rfl able leads sent
    votable (quorum.nodup.filter _) (by simp)
    fun voter listed => willing voter (List.mem_filter.mp listed).1
  by_cases blocked : ∃ voter ∈ voters, network.Panics system middle voter
  · obtain ⟨voter, listed, panics⟩ := blocked
    exact ⟨middle, speaking, .inr ⟨voter, List.mem_cons_of_mem _ listed, panics⟩⟩
  -- Then the leader of the next view votes, and gets the votes of the others.
  have given (voter : AuthorityId B) (listed : voter ∈ voters) :
      (voter = leader ∧ (middle leader).Ready proposal) ∨
        network.Given proposal leader middle voter := by
    by_cases same : voter = leader
    · subst voter
      rw [unmoved]
      exact (willing leader listed).imp (fun can => ⟨rfl, can.2⟩)
        fun given => given.mono speaking.grows leads
    · rcases spoken voter (List.mem_filter.mpr ⟨listed, decide_eq_true same⟩) with panics | given
      · exact absurd ⟨voter, listed, panics⟩ blocked
      · exact .inr given
  obtain ⟨replica, hearing, outcome⟩ := (runs.leads speaking).concludes exchange
    List.mem_cons_self leads rfl (fun voter listed vote supports => ⟨voter, listed, supports⟩)
    (able leader leads) (network.gossiped_persistent _ _ _ speaking.grows sent) votable
    (by rw [unmoved]; exact idle) (by rw [unmoved]; exact reached) quorum given
  refine ⟨_, speaking.trans hearing, ?_⟩
  rw [← Function.update_self leader replica middle] at outcome
  rcases outcome with halted | certified
  · exact .inr ⟨leader, List.mem_cons_self, leads, idle, halted⟩
  · exact .inl certified

namespace Sample

/-- Three of four replicas have given up view 1, and replica 2 has proposed in view 2
and voted for its proposal. -/
def proposedCluster : Cluster Sample Sample.Client :=
  (cluster 4 fun _ => 8).execute 20 (certifying.take 16)

def proposed : System Sample Sample.Client := proposedCluster.system (node 4 fun _ => 8)

theorem proposed_reachable : (Sample.network 4 {1}).Reachable (Sample.network 4 {1}).Byzantine
    (fun _ => True) proposed :=
  .execute Network.byzantine_delivers (fun _ => true) (fun _ _ => trivial) 20 _ _
    (cluster_reachable 4 {1} _ _ _) (by decide +kernel)

end Sample

/-- With one of four authorities faulty the proposal of view 2 can be certified by
replica 3. -/
theorem proposals_certified_four :
    ∃ proposal, (Sample.network 4 {1}).Gossiped Sample.proposed (.propose proposal) ∧
      proposal.view = 2 ∧ ∃ later, (Sample.network 4 {1}).Leads
        (.balloting (Sample.authorities 4) proposal (3 : Fin 8) ([0, 2, 3] : List (Fin 8)))
        Sample.proposed later ∧
      ((later (3 : Fin 8)).Certifies proposal ∨
        ∃ id ∈ ([3, 0, 2, 3] : List (Fin 8)),
          (Sample.network 4 {1}).Panics Sample.proposed later id) := by
  have data : ∃ proposal ∈ madeProposals (Sample.proposed (2 : Fin 8)).worker.log,
      (proposal.view = 2 ∧ proposal.qc.view < proposal.view ∧
        Event.gossip (.propose proposal) false ∈ (Sample.proposed (2 : Fin 8)).worker.log) ∧
      (ConsensusState.new (Sample.keystore 0) (Sample.authorities 4)).verifyProposal proposal =
        .ok () ∧
      proposal.view.next?.bind
        (ConsensusState.new (Sample.keystore 0) (Sample.authorities 4)).viewLeader =
          some (3 : Fin 8) ∧
      (∀ id ∈ ([0, 3] : List (Fin 8)), (Sample.proposed id).control = .idle ∧
        (Sample.proposed id).worker.state.view = proposal.view ∧
        (Sample.proposed id).worker.state.lastVotedView < proposal.view ∧
        ClientForHotstuff.status (Sample.proposed id).worker.client proposal.payload.blockHash =
          .ok .inChain) ∧
      Event.gossip (.vote (Sample.vote proposal.digest 2 2)) false ∈
        (Sample.proposed (2 : Fin 8)).worker.log ∧
      (Sample.vote proposal.digest 2 2).verify (Sample.authorities 4) = .ok () := by
    decide +kernel
  obtain ⟨proposal, _, ⟨view, older, sent⟩, valid, next, waits, cast, verified⟩ := data
  have gossiped : (Sample.network 4 {1}).Gossiped Sample.proposed (.propose proposal) :=
    ⟨(2 : Fin 8), false, by decide, sent⟩
  have ready (id : Fin 8) (listed : id ∈ ([0, 3] : List (Fin 8))) :
      (Sample.proposed id).Ready proposal := by
    obtain ⟨idle, current, fresh, known⟩ := waits id listed
    exact ⟨idle, current, fresh, .inr known, rfl⟩
  have votable : (Sample.network 4 {1}).Votable proposal (3 : Fin 8) := by
    refine ⟨fun state same => ?_, older, fun state same => ?_⟩
    · rw [← valid]
      exact ConsensusState.verifyProposal_congr same proposal
    · have leaders : state.viewLeader =
          (ConsensusState.new (Sample.keystore 0) (Sample.authorities 4)).viewLeader :=
        funext (ConsensusState.viewLeader_congr same)
      rw [leaders]
      exact next
  have quorum : Quorum (Sample.network 4 {1}).authorities.ids ([0, 2, 3] : List (Fin 8)) :=
    ⟨by decide, by decide, by decide⟩
  refine ⟨proposal, gossiped, view, proposals_certified Sample.proposed_reachable
    (fun id _ => Sample.keystore_signs id) gossiped votable (by decide)
    (ready 3 (by decide)).idle (UInt64.le_of_eq (ready 3 (by decide)).view) quorum ?_⟩
  intro voter listed
  by_cases proposer : voter = (2 : Fin 8)
  · subst voter
    exact .inr ⟨Sample.vote proposal.digest 2 2, ⟨rfl, view.symm, rfl, verified⟩,
      .inl ⟨(2 : Fin 8), false, by decide, cast⟩⟩
  · have member : voter ∈ ([0, 3] : List (Fin 8)) := by
      revert voter
      decide
    exact .inl ⟨by revert member; revert voter; decide, ready voter member⟩

end Hotstuff
