import Hotstuff.Consensus.Byzantine
import Hotstuff.Consensus.TimeoutCertificate

/-! The TCs that replicas complete. `add_timeout` keeps the view of a timeout
next to its signature, and `TC::verify` takes that number for the view of the
high QC that was signed. So a completed TC passes only if the high QCs of its
timeouts are of the view of the TC. A replica that times out with such a QC has
accepted it before its own vote in that view, and those who made the QC have
not. -/

namespace Hotstuff

open ConsensusWorker

variable {B C : Type} [BlockT B]

def VotedIn (log : List (Event B)) (view : ViewNumber) : Prop :=
  ∃ seen proposal vote, Event.voted seen proposal vote ∈ log ∧ vote.view = view

/-- A QC of a view is accepted before any vote in that view. -/
def AcceptedUnvoted (log : List (Event B)) (view : ViewNumber) : Prop :=
  ∃ before qc after, log = before ++ .acceptedQc qc :: after ∧ qc.view = view ∧
    ¬ VotedIn before view

section Logs

variable {log larger more : List (Event B)} {view : ViewNumber}

theorem VotedIn.mono (grown : log ⊆ larger) (voted : VotedIn log view) : VotedIn larger view := by
  obtain ⟨seen, proposal, vote, member, same⟩ := voted
  exact ⟨seen, proposal, vote, grown member, same⟩

theorem AcceptedUnvoted.append (more : List (Event B)) (accepted : AcceptedUnvoted log view) :
    AcceptedUnvoted (log ++ more) view := by
  obtain ⟨before, qc, after, split, same, unvoted⟩ := accepted
  exact ⟨before, qc, after ++ more, by simp [split], same, unvoted⟩

/-- Such a QC is accepted in the first part of a log, or in the second one with
no vote in either before it. -/
theorem AcceptedUnvoted.of_append (accepted : AcceptedUnvoted (log ++ more) view) :
    AcceptedUnvoted log view ∨ ∃ middle qc after, more = middle ++ .acceptedQc qc :: after ∧
      qc.view = view ∧ ¬ VotedIn (log ++ middle) view := by
  obtain ⟨before, qc, after, split, same, unvoted⟩ := accepted
  rcases List.append_eq_append_iff.mp split with ⟨middle, rfl, rest⟩ | ⟨later, rfl, rest⟩
  · exact .inr ⟨middle, qc, after, rest, same, unvoted⟩
  · cases later with
    | nil => exact .inr ⟨[], qc, after, rest.symm, same, by simpa using unvoted⟩
    | cons first others =>
      obtain ⟨rfl, _⟩ := List.cons.inj rest
      exact .inl ⟨before, qc, others, rfl, same, unvoted⟩

end Logs

/-- Where the high QC is not behind the view, of the worker now or of a timeout
when it was made, the QC was accepted before any vote in its view. -/
structure HighUnvoted (worker : ConsensusWorker B C) : Prop extends Disciplined worker where
  high : worker.state.view ≤ worker.state.highQc.view →
    worker.state.highQc.view = 0 ∨ AcceptedUnvoted worker.log worker.state.highQc.view
  timedOut : ∀ timeout, Event.timedOut timeout ∈ worker.log →
    timeout.view ≤ timeout.highQc.view →
      timeout.highQc.view = 0 ∨ AcceptedUnvoted worker.log timeout.highQc.view

/-- The entries of the timeout makers, and of the TCs made from them, are those
of verified timeouts. -/
structure TimeoutsEntered (worker : ConsensusWorker B C) : Prop where
  counted : ∀ view, ∀ entry ∈ (worker.state.aggregator.timeoutsAggregators view).votes,
    ∃ timeout, Event.verifiedTimeout timeout ∈ worker.log ∧ timeout.view = view ∧
      timeout.entry = some entry
  completed : ∀ tc, Event.aggregatedTc tc ∈ worker.log → ∀ entry ∈ tc.votes,
    ∃ timeout, Event.verifiedTimeout timeout ∈ worker.log ∧ timeout.view = tc.view ∧
      timeout.entry = some entry

theorem Disciplined.unvoted {worker : ConsensusWorker B C} (disciplined : Disciplined worker)
    {view : ViewNumber} (ahead : worker.state.view < view) : ¬ VotedIn worker.log view := by
  intro ⟨seen, proposal, vote, member, same⟩
  have spent : vote.view ≤ worker.state.lastVotedView := disciplined.spent _ member
  have behind := disciplined.behind
  rw [same] at spent
  exact UInt64.not_le.mpr ahead (UInt64.le_trans spent behind)

section Acts

variable [ClientForHotstuff B C] {policy : Policy B} {worker next : ConsensusWorker B C}

/-- A QC from ahead becomes the high QC before any vote in its view. -/
theorem HighUnvoted.high_act (act : Act policy worker next) (unvoted : HighUnvoted worker)
    (reached : next.state.view ≤ next.state.highQc.view) :
    next.state.highQc.view = 0 ∨ AcceptedUnvoted next.log next.state.highQc.view := by
  obtain ⟨events, grown, _⟩ := act.log_eq
  have kept (same : next.state.highQc = worker.state.highQc) :
      next.state.highQc.view = 0 ∨ AcceptedUnvoted next.log next.state.highQc.view := by
    rw [same] at reached ⊢
    rw [grown]
    exact (unvoted.high (UInt64.le_trans act.view_le reached)).imp_right (.append events)
  rcases act.highQc with same | ⟨_, higher⟩
  · exact kept same
  · cases act with
    | calm act =>
      cases act with
      | current qc view _ _ current following =>
        simp only [accepted, ConsensusState.updateHighQc] at reached higher ⊢
        split at reached
        · have above := ViewNumber.next?_eq_some.mp following
          have within : view ≤ qc.view := reached
          rw [UInt64.le_iff_toNat_le, current] at within
          omega
        · rename_i lower
          simp only [lower, if_false] at higher
          exact absurd higher (UInt64.lt_irrefl _)
      | ahead qc _ _ ahead =>
        simp only [accepted, ConsensusState.updateHighQc] at higher ⊢
        split
        · refine .inr ⟨worker.log ++ [.advanced worker.state.view worker.state.view, .resetTimer],
            qc, [], by simp, rfl, ?_⟩
          intro voted
          obtain ⟨seen, proposal, vote, member, same⟩ := voted
          have logged : Event.voted seen proposal vote ∈ worker.log := by simpa using member
          exact unvoted.toDisciplined.unvoted ahead ⟨seen, proposal, vote, logged, same⟩
        · rename_i lower
          simp only [lower, if_false] at higher
          exact absurd higher (UInt64.lt_irrefl _)
      | _ => exact absurd higher (UInt64.lt_irrefl _)
    | vote proposal vote marked _ _ _ made =>
      obtain ⟨view, rfl⟩ := makeVote_static made
      exact absurd higher (UInt64.lt_irrefl _)
    | propose => exact absurd higher (UInt64.lt_irrefl _)

theorem HighUnvoted.act (act : Act policy worker next) (unvoted : HighUnvoted worker) :
    HighUnvoted next where
  toDisciplined := unvoted.toDisciplined.act act
  high := unvoted.high_act act
  timedOut := by
    obtain ⟨events, grown, fresh⟩ := act.log_eq
    intro timeout member reached
    rw [grown] at member ⊢
    rcases List.mem_append.mp member with old | added
    · exact (unvoted.timedOut timeout old reached).imp_right (.append events)
    · obtain ⟨high, view, _⟩ := ConsensusState.makeTimeout_ok (fresh _ added)
      rw [high, view] at reached
      rw [high]
      exact (unvoted.high reached).imp_right (.append events)

theorem TimeoutsEntered.act (act : Act policy worker next) (entered : TimeoutsEntered worker) :
    TimeoutsEntered next where
  counted := by
    intro view entry listed
    have old (member : entry ∈ (worker.state.aggregator.timeoutsAggregators view).votes) :
        ∃ timeout, Event.verifiedTimeout timeout ∈ next.log ∧ timeout.view = view ∧
          timeout.entry = some entry := by
      obtain ⟨timeout, verified, rest⟩ := entered.counted view entry member
      exact ⟨timeout, act.mem_log verified, rest⟩
    rcases act.aggregator with same | ⟨vote, _, grown⟩ | ⟨timeout, verified, grown⟩
    · exact old (by rwa [same] at listed)
    · exact old (by rwa [grown] at listed)
    · rw [grown, Aggregator.addTimeout_votes] at listed
      split at listed
      · rename_i counted
        rcases List.mem_append.mp listed with member | added
        · exact old member
        · exact ⟨timeout, act.mem_log verified, counted.1, Option.mem_toList.mp added⟩
      · exact old listed
  completed := by
    obtain ⟨events, grown, fresh⟩ := act.log_eq
    intro tc member entry listed
    rw [grown] at member
    rcases List.mem_append.mp member with old | added
    · obtain ⟨timeout, verified, rest⟩ := entered.completed tc old entry listed
      exact ⟨timeout, act.mem_log verified, rest⟩
    · obtain ⟨_, votes⟩ := fresh _ added
      rw [votes] at listed
      obtain ⟨timeout, verified, rest⟩ := entered.counted tc.view entry listed
      exact ⟨timeout, act.mem_log verified, rest⟩

end Acts

variable {network : Network B} {system final : System B C} {id : AuthorityId B}

variable [ClientForHotstuff B C] {guard : Replica B C → Prop}

theorem Network.Reachable.highUnvoted {allowed : System B C → ConsensusMessage B → Prop}
    (persistent : network.Persistent allowed)
    (reachable : network.Reachable allowed guard system) (honest : network.Honest id) :
    HighUnvoted (system id).worker := by
  apply (reachable.replica persistent honest).invariant (Policy.only_meets (allowed system))
  · intro client queue _
    exact {
      behind := UInt64.le_refl _
      spent := fun _ member => by cases member
      ordered := List.Pairwise.nil
      high := fun _ => .inl rfl
      timedOut := fun _ member => by cases member }
  · intro worker next act unvoted
    exact unvoted.act act

theorem Network.Reachable.timeoutsEntered {allowed : System B C → ConsensusMessage B → Prop}
    (persistent : network.Persistent allowed)
    (reachable : network.Reachable allowed guard system) (honest : network.Honest id) :
    TimeoutsEntered (system id).worker := by
  apply (reachable.replica persistent honest).invariant (Policy.only_meets (allowed system))
  · intro client queue _
    exact {
      counted := fun _ _ listed => by cases listed
      completed := fun _ member => by cases member }
  · intro worker next act entered
    exact entered.act act

/-- Behind a QC that is held at some moment stand a quorum of voters, and the
honest ones have voted in its view by then. -/
theorem Network.Reachable.voters_of_held {log : List (Event B)} {qc : QC B}
    (reachable : network.Reachable network.Inside guard system)
    (apart : Set.InjOn (hashOf (B := B)) (network.digested final))
    (grows : network.Grows system final) (honest : network.Honest id)
    (shorter : log ⊆ (final id).worker.log)
    (past : Past (Evidence (Policy.only (network.Inside system)) (network.keystore id)
      network.authorities) log)
    (held : HeldQc log qc) (certified : qc.verify network.authorities = .ok ()) :
    ∃ voters, Quorum network.authorities.ids voters ∧
      ∀ voter ∈ voters, network.Honest voter → VotedIn (final voter).worker.log qc.view := by
  have genuine : Genuine network final qc := by
    refine .of_held (past.all fun before event earlier inside _ sound evidence => ?_) held
    exact .of_evidence reachable grows (reachable.genuineIn grows) honest
      (fun _ found => shorter (inside found)) earlier sound evidence
  have among : qc.preimage ∈ network.digested final := by
    rcases held with ⟨proposal, member, rfl⟩ | ⟨timeout, member, rfl⟩ | member
    · exact ⟨id, honest, _, shorter member, by simp [Event.digested]⟩
    · exact ⟨id, honest, _, shorter member, by simp [Event.digested]⟩
    · exact ⟨id, honest, _, shorter member, by simp [Event.digested]⟩
  have sound := genuine.sound certified
  refine ⟨qc.votes.map Prod.fst, sound.1, ?_⟩
  intro voter listed correct
  obtain ⟨entry, member, rfl⟩ := List.mem_map.mp listed
  obtain ⟨event, logged, signed⟩ := genuine.signed entry member correct (sound.2 entry member)
  have own (bytes : List UInt8) (found : bytes ∈ event.preimages) :
      bytes ∈ network.digested final :=
    network.preimages_subset final ⟨_, correct, event, logged, found⟩
  obtain ⟨seen, proposal, vote, rfl, view, _⟩ := Event.voted_of_signed apart own among signed
  exact ⟨seen, proposal, vote, logged, view⟩

/-- As soon as one honest replica has accepted a QC of a view before its vote in
the view, there is a quorum whose honest members have voted in the view and
will never have done so. -/
def OthersVoted (network : Network B) (system : System B C) : Prop :=
  ∀ view id, 0 < view → network.Honest id → AcceptedUnvoted (system id).worker.log view →
    ∃ voters, Quorum network.authorities.ids voters ∧
      ∀ voter ∈ voters, network.Honest voter →
        VotedIn (system voter).worker.log view ∧
          ¬ AcceptedUnvoted (system voter).worker.log view

/-- Whoever accepts a QC before its own vote is not among those that made it. -/
theorem Network.Reachable.voters_before {next : Replica B C} {middle after : List (Event B)}
    {qc : QC B} (reachable : network.Reachable network.Inside guard system)
    (honest : network.Honest id) (holds : guard (system id))
    (move : Replica.Step (network.Inside system) (system id) next)
    (apart : Set.InjOn (hashOf (B := B)) (network.digested (Function.update system id next)))
    (grown : next.worker.log =
      (system id).worker.log ++ middle ++ .acceptedQc qc :: after)
    (positive : 0 < qc.view)
    (unvoted : ¬ VotedIn ((system id).worker.log ++ middle) qc.view) :
    ∃ voters, Quorum network.authorities.ids voters ∧ ∀ voter ∈ voters, network.Honest voter →
      voter ≠ id ∧ VotedIn (system voter).worker.log qc.view := by
  have evident := (Replica.Reachable.step (reachable.replica Network.inside_persistent honest)
    holds move).evident (Policy.only_meets (network.Inside system))
  have held : HeldQc ((system id).worker.log ++ middle) qc := evident.events _ _ after grown
  have past := evident.events
  rw [grown] at past
  have certified : qc.verify network.authorities = .ok () := by
    have kept : (system id).worker.log ++ middle ⊆ next.worker.log := by
      rw [grown]
      exact List.subset_append_left _ _
    rcases evident.heldQc (held.mono kept) with exempt | valid
    · rw [(QC.eq_default_iff.mp exempt).2] at positive
      exact absurd positive (UInt64.lt_irrefl _)
    · exact valid
  -- The network at the moment the QC is accepted, in the middle of the step.
  let accepting : Replica B C :=
    { next with worker := { next.worker with log := (system id).worker.log ++ middle } }
  have grows : network.Grows system (Function.update system id accepting) :=
    Network.grows_of_log (List.subset_append_left _ _)
  have growsOn : network.Grows (Function.update system id accepting)
      (Function.update system id next) := by
    have later : network.Grows (Function.update system id accepting)
        (Function.update (Function.update system id accepting) id next) := by
      refine Network.grows_of_log ?_
      rw [Function.update_self, grown]
      exact List.subset_append_left _ _
    rwa [Function.update_idem] at later
  obtain ⟨voters, quorum, voted⟩ := reachable.voters_of_held
    (apart.mono (Network.digested_mono growsOn)) grows honest
    (by rw [Function.update_self]; exact fun _ member => member) past.of_append held certified
  refine ⟨voters, quorum, ?_⟩
  intro voter listed correct
  have cast := voted voter listed correct
  have other : voter ≠ id := by
    intro same
    subst voter
    rw [Function.update_self] at cast
    exact unvoted cast
  rw [Function.update_of_ne other] at cast
  exact ⟨other, cast⟩

theorem Network.Reachable.othersVoted
    (reachable : network.Reachable network.Inside guard system)
    (apart : Set.InjOn (hashOf (B := B)) (network.digested final))
    (grows : network.Grows system final) : OthersVoted network system := by
  induction reachable with
  | start initial =>
    intro view id _ honest ⟨before, qc, after, split, _⟩
    obtain ⟨client, queue, _, same⟩ := (initial id honest).worker
    rw [same] at split
    simp [ConsensusWorker.new] at split
  | @step system moving next before moves holds move ih =>
    have old : OthersVoted network system := ih fun id honest _ member =>
      grows id honest (Network.grows_update move id honest member)
    obtain ⟨events, grown⟩ := acts_log_grows (move.mono fun _ _ => trivial).follows
    intro view id positive honest accepted
    by_cases earlier : ∃ other, network.Honest other ∧
        AcceptedUnvoted (system other).worker.log view
    · obtain ⟨other, correct, first⟩ := earlier
      obtain ⟨voters, quorum, voted⟩ := old view other positive correct first
      refine ⟨voters, quorum, ?_⟩
      intro voter listed voting
      obtain ⟨cast, never⟩ := voted voter listed voting
      by_cases same : voter = moving
      · subst voter
        rw [Function.update_self, grown]
        have still := cast.mono (List.subset_append_left (system moving).worker.log events)
        refine ⟨still, ?_⟩
        intro again
        rcases again.of_append with first | ⟨middle, _, _, _, _, unvoted⟩
        · exact never first
        · exact unvoted (cast.mono (List.subset_append_left _ _))
      · rw [Function.update_of_ne same]
        exact ⟨cast, never⟩
    · have here : id = moving := by
        by_contra elsewhere
        rw [Function.update_of_ne elsewhere] at accepted
        exact earlier ⟨id, honest, accepted⟩
      subst moving
      rw [Function.update_self, grown] at accepted
      rcases accepted.of_append with first | ⟨middle, qc, after, rest, rfl, unvoted⟩
      · exact absurd ⟨id, honest, first⟩ earlier
      · obtain ⟨voters, quorum, voted⟩ := before.voters_before honest holds move
          (apart.mono (Network.digested_mono grows)) (by rw [grown, rest, List.append_assoc])
          positive unvoted
        refine ⟨voters, quorum, ?_⟩
        intro voter listed voting
        obtain ⟨other, cast⟩ := voted voter listed voting
        rw [Function.update_of_ne other]
        exact ⟨cast, fun first => earlier ⟨voter, voting, first⟩⟩

/-- Of the timeouts in a completed TC that passes its check, those of honest
authorities are by replicas that accepted a QC of the view before they could
vote in it. -/
theorem Network.Reachable.completed_unvoted
    (reachable : network.Reachable network.Inside guard system)
    (binding : ∀ (signature : AuthoritySignature B) (digest other : Hash B) (id : AuthorityId B),
      BlockT.verify signature digest id = true → BlockT.verify signature other id = true →
        digest = other)
    {tc : TC B} (apart : Set.InjOn (hashOf (B := B))
      (insert (timeoutPreimage tc.view tc.view) (network.digested system)))
    (honest : network.Honest id) (completed : Event.aggregatedTc tc ∈ (system id).worker.log)
    (late : 0 < tc.view) (passed : tc.verify network.authorities = .ok ()) :
    ∀ voter ∈ tc.votes.map Prod.fst, network.Honest voter →
      AcceptedUnvoted (system voter).worker.log tc.view := by
  intro voter listed correct
  obtain ⟨entry, member, rfl⟩ := List.mem_map.mp listed
  obtain ⟨timeout, verified, view, counted⟩ :=
    (reachable.timeoutsEntered Network.inside_persistent honest).completed tc completed entry member
  obtain ⟨signature, present, rfl⟩ := Option.map_eq_some_iff.mp counted
  obtain ⟨valid, available⟩ := (reachable.evident Network.inside_persistent honest).mem verified
  obtain ⟨⟨_, _, signed, own⟩, _⟩ := Timeout.verify_ok_iff.mp valid
  cases present.symm.trans signed
  have checked := (TC.verify_ok_iff.mp passed).2.2 _ member
  simp only [view] at checked
  have among : timeout.preimage ∈ network.digested system :=
    ⟨id, honest, _, verified, by simp [Event.digested]⟩
  have bytes := apart (.inr among) (.inl rfl) (binding _ _ _ _ own checked)
  have high : timeout.highQc.view = tc.view := (timeoutPreimage_inj bytes).2
  obtain ⟨made, logged, madeView, madeHigh⟩ := reachable.timedOut_of_arrived
    Network.inside_persistent apart (Set.subset_insert _ _) (.inr among) honest valid
    (available.imp_left And.left) correct
  have reached : made.view ≤ made.highQc.view := by
    rw [madeView, madeHigh, view, high]
    exact UInt64.le_refl _
  have unvoted := (reachable.highUnvoted Network.inside_persistent correct).timedOut made logged
    reached
  rw [madeHigh, high] at unvoted
  rcases unvoted with zero | accepted
  · rw [zero] at late
    exact absurd late (UInt64.lt_irrefl _)
  · exact accepted

theorem Evident.completed {policy : Policy B} {keystore : Keystore B}
    {authorities : AuthorityList B} {worker : ConsensusWorker B C}
    (evident : Evident policy keystore authorities worker) {tc : TC B}
    (completed : Event.aggregatedTc tc ∈ worker.log) :
    Quorum authorities.ids (tc.votes.map Prod.fst) ∧ ∀ voter ∈ tc.votes.map Prod.fst,
      ∃ timeout, Event.verifiedTimeout timeout ∈ worker.log ∧ timeout.view = tc.view ∧
        timeout.voter = voter := by
  obtain ⟨large, distinct, backed⟩ := evident.mem completed
  refine ⟨quorum_votes_iff.mpr ⟨distinct, large, ?_⟩, ?_⟩
  · intro entry listed
    obtain ⟨timeout, verified, _, voter⟩ := backed entry listed
    rw [← voter]
    exact (Timeout.verify_ok_iff.mp (evident.mem verified).1).1.1
  · intro voter listed
    obtain ⟨entry, member, rfl⟩ := List.mem_map.mp listed
    exact backed entry member

theorem Network.Reachable.completed_refuted
    (few : 3 * network.faulty.card < network.authorities.length)
    (reachable : network.Reachable network.Inside guard system)
    (binding : ∀ (signature : AuthoritySignature B) (digest other : Hash B) (id : AuthorityId B),
      BlockT.verify signature digest id = true → BlockT.verify signature other id = true →
        digest = other)
    {tc : TC B} (apart : Set.InjOn (hashOf (B := B))
      (insert (timeoutPreimage tc.view tc.view) (network.digested system)))
    (honest : network.Honest id) (completed : Event.aggregatedTc tc ∈ (system id).worker.log)
    (late : 0 < tc.view) : tc.verify network.authorities ≠ .ok () := by
  intro passed
  have unvoted := reachable.completed_unvoted binding apart honest completed late passed
  obtain ⟨quorum, _⟩ := (reachable.evident Network.inside_persistent honest).completed completed
  have fewIds : 3 * network.faulty.card < network.authorities.ids.length := by
    simpa [AuthorityList.ids] using few
  obtain ⟨first, listed, _, correct⟩ := quorum.common quorum network.faulty fewIds
  have firstHonest : network.Honest first := ⟨quorum.known first listed, correct⟩
  obtain ⟨voters, others, voted⟩ := reachable.othersVoted
    (apart.mono (Set.subset_insert _ _)) (fun _ _ _ member => member) tc.view first late
    firstHonest (unvoted first listed firstHonest)
  -- One honest authority is both behind the QC and in the TC.
  obtain ⟨both, inTc, inQc, sound⟩ := quorum.common others network.faulty fewIds
  have bothHonest : network.Honest both := ⟨quorum.known both inTc, sound⟩
  exact (voted both inQc bothHonest).2 (unvoted both inTc bothHonest)

/-- No TC that an honest replica completes after view 0 passes the check of
`TC::verify`, and so none is ever accepted by an honest replica: whatever
arrives in which order, as long as less than a third of the authorities are
faulty, signatures are valid for one digest only and hashes do not collide. -/
theorem completed_tc_refused (few : 3 * network.faulty.card < network.authorities.length)
    (reachable : network.Reachable network.Inside guard system)
    (binding : ∀ (signature : AuthoritySignature B) (digest other : Hash B) (id : AuthorityId B),
      BlockT.verify signature digest id = true → BlockT.verify signature other id = true →
        digest = other)
    {tc : TC B} (apart : Set.InjOn (hashOf (B := B))
      (insert (timeoutPreimage tc.view tc.view) (network.digested system)))
    (honest : network.Honest id) (completed : Event.aggregatedTc tc ∈ (system id).worker.log)
    (late : 0 < tc.view) :
    tc.verify network.authorities ≠ .ok () ∧
      ∀ other, network.Honest other → Event.verifiedTc tc ∉ (system other).worker.log := by
  have refused := reachable.completed_refuted few binding apart honest completed late
  refine ⟨refused, ?_⟩
  intro other correct verified
  exact refused ((reachable.evident Network.inside_persistent correct).mem verified)

/-- The TC of view 1 that the first of four replicas completes; all timeouts in
it were signed with the default QC. -/
def Sample.givenUp : TC Sample :=
  { view := 1
    votes := ([0, 2, 3] : List (Fin 8)).map fun id =>
      (id, Sample.sign id (hashOf (timeoutPreimage 1 0)), 1) }

/-- With one of four authorities faulty a TC of view 1 is completed, and refused
by all. -/
theorem completed_tc_refused_four :
    Sample.Doubled Sample.outvoted ∧
    Event.aggregatedTc Sample.givenUp ∈ (Sample.outvoted (0 : Fin 8)).worker.log ∧
      Sample.givenUp.verify (Sample.authorities 4) ≠ .ok () ∧
      ∀ other, (Sample.network 4 {1}).Honest other →
        Event.verifiedTc Sample.givenUp ∉ (Sample.outvoted other).worker.log := by
  have checked : Sample.outvotedCluster.covers (Sample.network 4 {1}) = true ∧
      hashesDiffer (B := Sample)
        (timeoutPreimage 1 1 :: Sample.outvotedCluster.digested) = true := by
    decide +kernel
  have completed : Event.aggregatedTc Sample.givenUp ∈
      (Sample.outvoted (0 : Fin 8)).worker.log := by decide +kernel
  obtain ⟨covered, differ⟩ := checked
  exact ⟨Sample.outvoted_doubled, completed,
    completed_tc_refused (by decide) Sample.outvoted_reachable
    (fun _ _ _ _ => Sample.verify_binding) (Cluster.insert_apart covered differ _) (by decide)
    completed (by decide)⟩

end Hotstuff
