import Hotstuff.Consensus.Certificate
import Hotstuff.Consensus.Outcomes

/-! The protocol behind the handlers, as guarded acts. An act changes a worker
in one way that the invariants speak about, and its guard says what the worker
must have seen and checked before. -/

namespace Hotstuff

variable {B C : Type} [BlockT B]

def Event.votedProposal? : Event B → Option (Proposal B)
  | .voted _ proposal _ => some proposal
  | _ => none

def Event.proposed? : Event B → Option (Proposal B)
  | .proposed proposal => some proposal
  | _ => none

/-- The proposals a worker has voted for, in order. -/
def votedProposals (log : List (Event B)) : List (Proposal B) :=
  log.filterMap Event.votedProposal?

/-- The proposals a worker has made, in order. -/
def madeProposals (log : List (Event B)) : List (Proposal B) :=
  log.filterMap Event.proposed?

@[simp] theorem madeProposals_nil : madeProposals ([] : List (Event B)) = [] := rfl

@[simp] theorem madeProposals_cons (event : Event B) (log : List (Event B)) :
    madeProposals (event :: log) = event.proposed?.toList ++ madeProposals log := by
  cases found : event.proposed? <;> simp [madeProposals, found]

@[simp] theorem madeProposals_append (first second : List (Event B)) :
    madeProposals (first ++ second) = madeProposals first ++ madeProposals second :=
  List.filterMap_append

/-- A QC that came with a verified message or was aggregated here. -/
def HeldQc (log : List (Event B)) (qc : QC B) : Prop :=
  (∃ proposal, Event.verifiedProposal proposal ∈ log ∧ proposal.qc = qc) ∨
    (∃ timeout, Event.verifiedTimeout timeout ∈ log ∧ timeout.highQc = qc) ∨
    Event.aggregatedQc qc ∈ log

/-- A TC that was verified or aggregated here. -/
def HeldTc (log : List (Event B)) (tc : TC B) : Prop :=
  Event.verifiedTc tc ∈ log ∨ Event.aggregatedTc tc ∈ log

/-- Where a certificate takes a view: one view on if it is a certificate of
exactly that view, and nowhere otherwise. -/
def Leaps (view certificate next : ViewNumber) : Prop :=
  (certificate = view ∧ view.next? = some next) ∨ (certificate ≠ view ∧ next = view)

theorem Leaps.le {view certificate next : ViewNumber} (leaps : Leaps view certificate next) :
    view ≤ next := by
  rcases leaps with ⟨_, following⟩ | ⟨_, same⟩
  · have above := ViewNumber.next?_eq_some.mp following
    rw [UInt64.le_iff_toNat_le]
    omega
  · rw [same]
    exact UInt64.le_refl _

theorem Leaps.unique {view certificate next other : ViewNumber}
    (leaps : Leaps view certificate next) (leapsOther : Leaps view certificate other) :
    next = other := by
  rcases leaps with ⟨same, following⟩ | ⟨apart, rfl⟩
  · rcases leapsOther with ⟨_, other⟩ | ⟨apart, _⟩
    · exact Option.some.inj (following.symm.trans other)
    · exact absurd same apart
  · rcases leapsOther with ⟨same, _⟩ | ⟨_, rfl⟩
    · exact absurd same apart
    · rfl

/-- The view passes a certificate exactly when it had reached it. -/
theorem Leaps.passes_iff {view certificate next : ViewNumber}
    (leaps : Leaps view certificate next) : certificate < next ↔ certificate ≤ view := by
  rcases leaps with ⟨rfl, following⟩ | ⟨apart, rfl⟩
  · have above := ViewNumber.next?_eq_some.mp following
    rw [UInt64.lt_iff_toNat_lt, UInt64.le_iff_toNat_le]
    omega
  · rw [ne_eq, ← UInt64.toNat_inj] at apart
    rw [UInt64.lt_iff_toNat_lt, UInt64.le_iff_toNat_le]
    omega

/-- A view change that a certificate the worker holds brings about. -/
def Moves (log : List (Event B)) (source target : ViewNumber) : Prop :=
  target = source ∨ (source.next? = some target ∧
    ((∃ qc, HeldQc log qc ∧ qc.view = source) ∨ ∃ tc, HeldTc log tc ∧ tc.view = source))

/-- What a worker must have done to send a message. -/
def Sendable (log : List (Event B)) : ConsensusMessage B → Prop
  | .propose proposal => Event.proposed proposal ∈ log
  | .vote vote => ∃ view proposal, Event.voted view proposal vote ∈ log
  | .timeout timeout => Event.timedOut timeout ∈ log
  | .tc tc => Event.aggregatedTc tc ∈ log
  | .syncRequest _ _ => False
  | .phantom => False

theorem HeldQc.mono {log larger : List (Event B)} {qc : QC B} (grown : log ⊆ larger)
    (held : HeldQc log qc) : HeldQc larger qc := by
  rcases held with ⟨proposal, member, same⟩ | ⟨timeout, member, same⟩ | member
  · exact .inl ⟨proposal, grown member, same⟩
  · exact .inr (.inl ⟨timeout, grown member, same⟩)
  · exact .inr (.inr (grown member))

theorem HeldTc.mono {log larger : List (Event B)} {tc : TC B} (grown : log ⊆ larger)
    (held : HeldTc log tc) : HeldTc larger tc := by
  rcases held with member | member
  · exact .inl (grown member)
  · exact .inr (grown member)

theorem Moves.mono {log larger : List (Event B)} {source target : ViewNumber}
    (grown : log ⊆ larger) (moves : Moves log source target) : Moves larger source target := by
  rcases moves with same | ⟨next, ⟨qc, held, view⟩ | ⟨tc, held, view⟩⟩
  · exact .inl same
  · exact .inr ⟨next, .inl ⟨qc, held.mono grown, view⟩⟩
  · exact .inr ⟨next, .inr ⟨tc, held.mono grown, view⟩⟩

theorem Sendable.mono {log larger : List (Event B)} {message : ConsensusMessage B}
    (grown : log ⊆ larger) (sent : Sendable log message) : Sendable larger message := by
  cases message with
  | propose proposal => exact grown sent
  | vote vote =>
    obtain ⟨view, proposal, member⟩ := sent
    exact ⟨view, proposal, grown member⟩
  | timeout timeout => exact grown sent
  | tc tc => exact grown sent
  | syncRequest hash id => exact sent.elim
  | phantom => exact sent.elim

/-- What a run is given beyond the code: the messages that can arrive, the QCs
accepted at a view with a high QC, the proposals voted for after others, and
the views proposed in after others. -/
structure Policy (B : Type) [BlockT B] where
  allowed : ConsensusMessage B → Prop
  accept : ViewNumber → QC B → QC B → Prop
  vote : List (Proposal B) → Proposal B → Prop
  propose : List (Proposal B) → ViewNumber → Prop

/-- Anything may arrive, be accepted, be voted for and be proposed. -/
def Policy.any : Policy B :=
  ⟨fun _ => True, fun _ _ _ => True, fun _ _ => True, fun _ _ => True⟩

/-- A message that can be handled: it may arrive, or is one's own. -/
def Available (policy : Policy B) (log : List (Event B)) (message : ConsensusMessage B) : Prop :=
  policy.allowed message ∨ Sendable log message

theorem Available.mono {policy : Policy B} {log larger : List (Event B)}
    {message : ConsensusMessage B} (grown : log ⊆ larger)
    (present : Available policy log message) : Available policy larger message :=
  present.imp_right (Sendable.mono grown)

namespace ConsensusWorker

/-- When an event that records a check or a message may be emitted. -/
def Enabled [ClientForHotstuff B C] (policy : Policy B) (worker : ConsensusWorker B C) :
    Event B → Prop
  | .localTimer view => view = worker.state.view ∧ view ≤ worker.state.lastVotedView
  | .resetTimer => True
  | .syncRequest _ _ => True
  | .gossip message _ => Sendable worker.log message
  | .verifiedProposal proposal =>
      worker.state.verifyProposal proposal = .ok () ∧
        Available policy worker.log (.propose proposal)
  | .verifiedVote vote =>
      worker.state.verifyVote vote = .ok () ∧ Available policy worker.log (.vote vote)
  | .verifiedTimeout timeout =>
      worker.state.verifyTimeout timeout = .ok () ∧ Available policy worker.log (.timeout timeout)
  | .verifiedTc tc => worker.state.verifyTc tc = .ok () ∧ Available policy worker.log (.tc tc)
  | .acceptedQc _ => False
  | .aggregatedQc qc =>
      worker.state.authorities.length * 2 / 3 < qc.votes.length ∧
        ∃ vote, Event.verifiedVote vote ∈ worker.log ∧ qc.proposalHash = vote.proposalHash ∧
          qc.view = vote.view ∧
          qc.votes = (worker.state.aggregator.votesAggregator vote.view vote.digest).votes
  | .aggregatedTc tc =>
      worker.state.authorities.length * 2 / 3 < tc.votes.length ∧
        tc.votes = (worker.state.aggregator.timeoutsAggregators tc.view).votes
  | .advanced _ _ => False
  | .timedOut timeout => worker.state.makeTimeout = .ok timeout
  | .voted _ _ _ => False
  | .proposed _ => False
  | .finalized proposal parent grandpa block =>
      Event.verifiedProposal proposal ∈ worker.log ∧
        Synchronizer.getProposalAncestors worker.client proposal = .ok (parent, grandpa) ∧
        grandpa.view.next? = some parent.view ∧ block = grandpa.payload.blockHash ∧
        block ≠ emptyPayloadHash

end ConsensusWorker

open ConsensusWorker

variable [ClientForHotstuff B C]

/-- The acts that neither vote nor propose. -/
inductive Calm (policy : Policy B) : ConsensusWorker B C → ConsensusWorker B C → Prop where
  | emit (event : Event B) (enabled : Enabled policy worker event) :
      Calm policy worker (worker.emit event)
  | spend : Calm policy worker { worker with state := worker.state.increaseLastVotedView }
  | late (qc : QC B) (held : HeldQc worker.log qc)
      (admitted : policy.accept worker.state.view worker.state.highQc qc)
      (late : qc.view < worker.state.view) : Calm policy worker (worker.emit (.acceptedQc qc))
  | current (qc : QC B) (view : ViewNumber) (held : HeldQc worker.log qc)
      (admitted : policy.accept worker.state.view worker.state.highQc qc)
      (current : qc.view = worker.state.view) (next : worker.state.view.next? = some view) :
      Calm policy worker (worker.accepted view qc)
  | ahead (qc : QC B) (held : HeldQc worker.log qc)
      (admitted : policy.accept worker.state.view worker.state.highQc qc)
      (ahead : worker.state.view < qc.view) :
      Calm policy worker (worker.accepted worker.state.view qc)
  | pass (tc : TC B) (view : ViewNumber) (held : HeldTc worker.log tc)
      (current : tc.view = worker.state.view) (next : worker.state.view.next? = some view) :
      Calm policy worker (worker.moved view)
  | stay : Calm policy worker (worker.moved worker.state.view)
  | addVote (vote : Vote B) (verified : Event.verifiedVote vote ∈ worker.log) :
      Calm policy worker { worker with state := (worker.state.addVote vote).2 }
  | addTimeout (timeout : Timeout B) (verified : Event.verifiedTimeout timeout ∈ worker.log) :
      Calm policy worker { worker with state := (worker.state.addTimeout timeout).2 }
  | save (proposal : Proposal B) (verified : Event.verifiedProposal proposal ∈ worker.log) :
      Calm policy worker
        { worker with client := (Synchronizer.saveProposal worker.client proposal).2 }
  | outside (client : C) (processingBlock : Option (BlockInfo B))
      (pendingFinalizeQueue : Option (List (BlockInfo B))) (proposalHashQueue : List (Hash B))
      (kept : ClientForHotstuff.aux (B := B) client = ClientForHotstuff.aux worker.client) :
      Calm policy worker
        { worker with client, processingBlock, pendingFinalizeQueue, proposalHashQueue }

/-- Everything a worker does. A vote is for a verified proposal of the current
view, and a proposal is made from the current state. -/
inductive Act (policy : Policy B) : ConsensusWorker B C → ConsensusWorker B C → Prop where
  | calm (act : Calm policy worker next) : Act policy worker next
  | vote (proposal : Proposal B) (vote : Vote B) (marked : ConsensusState B)
      (verified : Event.verifiedProposal proposal ∈ worker.log)
      (current : proposal.view = worker.state.view)
      (admitted : policy.vote (votedProposals worker.log) proposal)
      (made : worker.state.makeVote proposal = (some vote, marked)) :
      Act policy worker
        ({ worker with state := marked }.emit (.voted worker.state.view proposal vote))
  | propose (payload : Payload B) (tc : Option (TC B)) (proposal : Proposal B)
      (admitted : policy.propose (madeProposals worker.log) worker.state.view)
      (made : worker.state.makeProposal payload tc = .ok proposal) :
      Act policy worker (worker.emit (.proposed proposal))

/-- What the record of an event says about the worker that made it. -/
def Fresh (policy : Policy B) (worker : ConsensusWorker B C) : Event B → Prop
  | .acceptedQc qc => HeldQc worker.log qc
  | .advanced source target => source = worker.state.view ∧ Moves worker.log source target
  | .voted view proposal vote =>
      view = worker.state.view ∧ proposal.view = view ∧
        Event.verifiedProposal proposal ∈ worker.log ∧
        policy.vote (votedProposals worker.log) proposal ∧
        ∃ marked, worker.state.makeVote proposal = (some vote, marked)
  | .proposed proposal => ∃ payload tc, worker.state.makeProposal payload tc = .ok proposal
  | event => Enabled policy worker event

theorem Fresh.of_enabled {policy : Policy B} {worker : ConsensusWorker B C} {event : Event B}
    (enabled : Enabled policy worker event) : Fresh policy worker event := by
  cases event with
  | acceptedQc qc => exact enabled.elim
  | advanced source target => exact enabled.elim
  | voted view proposal vote => exact enabled.elim
  | proposed proposal => exact enabled.elim
  | _ => exact enabled

variable {policy : Policy B} {worker next : ConsensusWorker B C}

/-- A step only appends to the log, and what it appends is justified by the
state it started from. -/
theorem Calm.log_eq (act : Calm policy worker next) :
    ∃ events, next.log = worker.log ++ events ∧
      (∀ event ∈ events, Fresh policy worker event) ∧
      votedProposals events = [] ∧ madeProposals events = [] := by
  cases act with
  | emit event enabled =>
    refine ⟨[event], rfl, ?_, ?_, ?_⟩
    · simpa using Fresh.of_enabled enabled
    · cases event with
      | voted view proposal vote => exact enabled.elim
      | _ => rfl
    · cases event with
      | proposed proposal => exact enabled.elim
      | _ => rfl
  | late qc held _ _ =>
    refine ⟨[.acceptedQc qc], rfl, ?_, rfl, rfl⟩
    simpa using show Fresh policy worker (.acceptedQc qc) from held
  | current qc view held _ current next =>
    refine ⟨[.advanced worker.state.view view, .resetTimer, .acceptedQc qc], rfl, ?_, rfl, rfl⟩
    have moves : Moves worker.log worker.state.view view := .inr ⟨next, .inl ⟨qc, held, current⟩⟩
    simpa using ⟨⟨rfl, moves⟩, trivial, held⟩
  | ahead qc held _ _ =>
    refine ⟨[.advanced worker.state.view worker.state.view, .resetTimer, .acceptedQc qc], rfl,
      ?_, rfl, rfl⟩
    simpa using ⟨⟨rfl, .inl rfl⟩, trivial, held⟩
  | pass tc view held current next =>
    refine ⟨[.advanced worker.state.view view], rfl, ?_, rfl, rfl⟩
    have moves : Moves worker.log worker.state.view view := .inr ⟨next, .inr ⟨tc, held, current⟩⟩
    simpa using ⟨rfl, moves⟩
  | stay =>
    refine ⟨[.advanced worker.state.view worker.state.view], rfl, ?_, rfl, rfl⟩
    simpa using ⟨rfl, .inl rfl⟩
  | spend => exact ⟨[], by simp, by simp, rfl, rfl⟩
  | addVote _ _ => exact ⟨[], by simp, by simp, rfl, rfl⟩
  | addTimeout _ _ => exact ⟨[], by simp, by simp, rfl, rfl⟩
  | save _ _ => exact ⟨[], by simp, by simp, rfl, rfl⟩
  | outside _ _ _ _ _ => exact ⟨[], by simp, by simp, rfl, rfl⟩

theorem Calm.votedProposals (act : Calm policy worker next) :
    votedProposals next.log = votedProposals worker.log := by
  obtain ⟨events, grown, _, none, _⟩ := act.log_eq
  rw [grown]
  simpa [Hotstuff.votedProposals] using none

theorem Calm.madeProposals (act : Calm policy worker next) :
    madeProposals next.log = madeProposals worker.log := by
  obtain ⟨events, grown, _, _, none⟩ := act.log_eq
  rw [grown]
  simpa [Hotstuff.madeProposals] using none

theorem Act.log_eq (act : Act policy worker next) :
    ∃ events, next.log = worker.log ++ events ∧ ∀ event ∈ events, Fresh policy worker event := by
  cases act with
  | calm act =>
    obtain ⟨events, grown, fresh, _, _⟩ := act.log_eq
    exact ⟨events, grown, fresh⟩
  | vote proposal vote marked verified current admitted made =>
    refine ⟨[.voted worker.state.view proposal vote], rfl, ?_⟩
    simpa using ⟨rfl, current, verified, admitted, marked, made⟩
  | propose payload tc proposal _ made =>
    refine ⟨[.proposed proposal], rfl, ?_⟩
    simpa using ⟨payload, tc, made⟩

theorem Act.mem_log (act : Act policy worker next) (member : event ∈ worker.log) :
    event ∈ next.log := by
  obtain ⟨events, grown, _⟩ := act.log_eq
  rw [grown]
  exact List.mem_append_left _ member

theorem acts_log_grows (acts : Relation.ReflTransGen (Act policy) worker next) :
    ∃ events, next.log = worker.log ++ events := by
  refine Command.keep_along (fun now => ∃ events, now.log = worker.log ++ events) acts ?_
    ⟨[], by simp⟩
  rintro middle last act ⟨events, grown⟩
  obtain ⟨more, longer, _⟩ := act.log_eq
  exact ⟨events ++ more, by rw [longer, grown, List.append_assoc]⟩

/-- Every event of a log stands in a relation to the events before it. -/
def Past (holds : List (Event B) → Event B → Prop) (log : List (Event B)) : Prop :=
  ∀ before event after, log = before ++ event :: after → holds before event

theorem Past.mem {holds : List (Event B) → Event B → Prop} {log : List (Event B)}
    (past : Past holds log) (member : event ∈ log) :
    ∃ before, before ⊆ log ∧ holds before event := by
  obtain ⟨before, after, split⟩ := List.append_of_mem member
  refine ⟨before, ?_, past before event after split⟩
  rw [split]
  exact List.subset_append_left _ _

theorem Past.of_append {holds : List (Event B) → Event B → Prop} {log later : List (Event B)}
    (past : Past holds (log ++ later)) : Past holds log := by
  intro before event after split
  apply past before event (after ++ later)
  rw [split]
  simp

/-- What follows for an event from its past and from the same for all earlier
events holds throughout a log. -/
theorem Past.all {holds : List (Event B) → Event B → Prop} {good : Event B → Prop}
    {log : List (Event B)} (past : Past holds log)
    (step : ∀ before event, Past holds before → before ⊆ log → event ∈ log →
      (∀ earlier ∈ before, good earlier) → holds before event → good event) :
    ∀ event ∈ log, good event := by
  induction log using List.reverseRecOn with
  | nil => exact fun _ member => by cases member
  | append_singleton log last ih =>
    have old := ih past.of_append fun before event past inside member =>
      step before event past (fun _ found => List.mem_append_left _ (inside found))
        (List.mem_append_left _ member)
    intro event member
    rcases List.mem_append.mp member with earlier | added
    · exact old event earlier
    · cases List.mem_singleton.mp added
      exact step log _ past.of_append (List.subset_append_left _ _) member old (past log _ [] rfl)

/-- A relation to the past that more events cannot break is kept by an act as
soon as every fresh event has it. -/
theorem Act.keep_past {holds : List (Event B) → Event B → Prop}
    (mono : ∀ {log larger event}, log ⊆ larger → holds log event → holds larger event)
    (start : ∀ event, Fresh policy worker event → holds worker.log event)
    (act : Act policy worker next) (past : Past holds worker.log) : Past holds next.log := by
  obtain ⟨events, grown, fresh⟩ := act.log_eq
  intro before event after split
  rw [grown, List.append_eq_append_iff] at split
  rcases split with ⟨earlier, longer, rest⟩ | ⟨later, old, rest⟩
  · refine mono ?_ (start event (fresh event (by simp [rest])))
    rw [longer]
    exact List.subset_append_left _ _
  · cases later with
    | nil =>
      simp only [List.append_nil, List.nil_append] at old rest
      rw [← old]
      exact start event (fresh event (by simp [← rest]))
    | cons first others =>
      simp only [List.cons_append, List.cons.injEq] at rest
      apply past before event others
      rw [old, rest.1]

theorem makeVote_static {state marked : ConsensusState B} {proposal : Proposal B}
    (made : state.makeVote proposal = (result, marked)) :
    ∃ view, marked = { state with lastVotedView := view } := by
  rcases state.makeVote_cases proposal with same | ⟨_, same⟩ | ⟨_, id, signature, _, same⟩ <;>
    · cases made.symm.trans same
      exact ⟨_, rfl⟩

theorem Act.keystore (act : Act policy worker next) :
    next.state.keystore = worker.state.keystore := by
  cases act with
  | calm act =>
    cases act with
    | current => simp [accepted]
    | ahead => simp [accepted]
    | _ => rfl
  | vote proposal vote marked _ _ _ made =>
    obtain ⟨view, rfl⟩ := makeVote_static made
    rfl
  | propose => rfl

theorem Act.authorities (act : Act policy worker next) :
    next.state.authorities = worker.state.authorities := by
  cases act with
  | calm act =>
    cases act with
    | current => simp [accepted]
    | ahead => simp [accepted]
    | _ => rfl
  | vote proposal vote marked _ _ _ made =>
    obtain ⟨view, rfl⟩ := makeVote_static made
    rfl
  | propose => rfl

/-- The aggregator changes only by a verified vote or timeout. -/
theorem Act.aggregator (act : Act policy worker next) :
    next.state.aggregator = worker.state.aggregator ∨
    (∃ vote, Event.verifiedVote vote ∈ worker.log ∧ next.state.aggregator =
      (worker.state.aggregator.addVote vote worker.state.authorities).2) ∨
    (∃ timeout, Event.verifiedTimeout timeout ∈ worker.log ∧ next.state.aggregator =
      (worker.state.aggregator.addTimeout timeout worker.state.authorities).2) := by
  cases act with
  | calm act =>
    cases act with
    | addVote vote verified => exact .inr (.inl ⟨vote, verified, rfl⟩)
    | addTimeout timeout verified => exact .inr (.inr ⟨timeout, verified, rfl⟩)
    | current => exact .inl (by simp [accepted])
    | ahead => exact .inl (by simp [accepted])
    | _ => exact .inl rfl
  | vote proposal vote marked _ _ _ made =>
    obtain ⟨view, rfl⟩ := makeVote_static made
    exact .inl rfl
  | propose => exact .inl rfl

/-- The high QC changes only to a higher one that is held. -/
theorem Act.highQc (act : Act policy worker next) :
    next.state.highQc = worker.state.highQc ∨
      (HeldQc worker.log next.state.highQc ∧
        worker.state.highQc.view < next.state.highQc.view) := by
  have updated (view : ViewNumber) (qc : QC B) (held : HeldQc worker.log qc) :
      (worker.accepted view qc).state.highQc = worker.state.highQc ∨
        (HeldQc worker.log (worker.accepted view qc).state.highQc ∧
          worker.state.highQc.view < (worker.accepted view qc).state.highQc.view) := by
    simp only [accepted, ConsensusState.updateHighQc]
    split
    · rename_i higher
      exact .inr ⟨held, higher⟩
    · exact .inl rfl
  cases act with
  | calm act =>
    cases act with
    | current qc view held _ _ _ => exact updated view qc held
    | ahead qc held _ _ => exact updated _ qc held
    | _ => exact .inl rfl
  | vote proposal vote marked _ _ _ made =>
    obtain ⟨view, rfl⟩ := makeVote_static made
    exact .inl rfl
  | propose => exact .inl rfl

/-- The proposal store changes only by saving a verified proposal under its
own digest. -/
theorem Act.aux (act : Act policy worker next) :
    ClientForHotstuff.aux (B := B) next.client = ClientForHotstuff.aux worker.client ∨
    ∃ proposal, Event.verifiedProposal proposal ∈ worker.log ∧
      ClientForHotstuff.aux next.client = Function.update (ClientForHotstuff.aux worker.client)
        proposal.digest (some (ClientForHotstuff.encode (C := C) proposal)) := by
  cases act with
  | calm act =>
    cases act with
    | save proposal verified =>
      rcases ClientForHotstuff.insertAux_error worker.client proposal.digest
        (ClientForHotstuff.encode (C := C) proposal) with same | written
      · exact .inl same
      · exact .inr ⟨proposal, verified, written⟩
    | outside client _ _ _ kept => exact .inl kept
    | _ => exact .inl rfl
  | vote => exact .inl rfl
  | propose => exact .inl rfl

end Hotstuff
