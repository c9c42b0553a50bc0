import Hotstuff.Consensus.Pacemaker

/-! The voting discipline of one replica, whatever it is sent: at most one vote
a view, in increasing order, and none in a view its timer has given up. -/

namespace Hotstuff

open ConsensusWorker

variable {B C : Type} [BlockT B]

/-- The order that votes keep among themselves and after timers. -/
def VoteOrder : Event B → Event B → Prop
  | .voted _ _ earlier, .voted _ _ later => earlier.view < later.view
  | .localTimer timer, .voted _ _ vote => timer < vote.view
  | _, _ => True

/-- A view is spent by the votes and timers recorded in it. -/
def Event.spends : Event B → ViewNumber → Prop
  | .voted _ _ vote, view => vote.view ≤ view
  | .localTimer timer, view => timer ≤ view
  | _, _ => True

/-- `last_voted_view` bounds every vote and timer so far, and stays behind the view. -/
structure Disciplined (worker : ConsensusWorker B C) : Prop where
  behind : worker.state.lastVotedView ≤ worker.state.view
  spent : ∀ event ∈ worker.log, event.spends worker.state.lastVotedView
  ordered : worker.log.Pairwise VoteOrder

theorem VoteOrder.of_spends {earlier : Event B} {view : ViewNumber} {proposal : Proposal B}
    {vote : Vote B} {last : ViewNumber} (spends : earlier.spends last) (fresh : last < vote.view) :
    VoteOrder earlier (.voted view proposal vote) := by
  cases earlier with
  | voted _ _ other => exact UInt64.lt_of_le_of_lt spends fresh
  | localTimer timer => exact UInt64.lt_of_le_of_lt spends fresh
  | _ => trivial

theorem VoteOrder.of_calm {earlier later : Event B} (calm : later.votedProposal? = none) :
    VoteOrder earlier later := by
  cases later with
  | voted view proposal vote => cases calm
  | _ => cases earlier <;> trivial

theorem Event.spends.mono {event : Event B} {view larger : ViewNumber} (grown : view ≤ larger)
    (spends : event.spends view) : event.spends larger := by
  cases event with
  | voted _ _ vote => exact UInt64.le_trans spends grown
  | localTimer timer => exact UInt64.le_trans spends grown
  | _ => trivial

def Event.vote? : Event B → Option (Proposal B × Vote B)
  | .voted _ proposal vote => some (proposal, vote)
  | _ => none

/-- The votes of a worker have increasing views. -/
theorem Disciplined.increasing {worker : ConsensusWorker B C} (disciplined : Disciplined worker) :
    (worker.log.filterMap Event.vote?).Pairwise
      fun earlier later => earlier.2.view < later.2.view := by
  refine disciplined.ordered.filterMap Event.vote? fun earlier later ordered => ?_
  rintro ⟨proposal, vote⟩ found ⟨other, after⟩ foundToo
  cases earlier with
  | voted seen proposal vote =>
    cases later with
    | voted seen' proposal' vote' =>
      cases found
      cases foundToo
      exact ordered
    | _ => cases foundToo
  | _ => cases found

/-- Votes are told apart by their views. -/
theorem Disciplined.voted_unique {worker : ConsensusWorker B C} (disciplined : Disciplined worker)
    {seen seen' : ViewNumber} {proposal proposal' : Proposal B} {vote vote' : Vote B}
    (first : Event.voted seen proposal vote ∈ worker.log)
    (second : Event.voted seen' proposal' vote' ∈ worker.log) (same : vote.view = vote'.view) :
    proposal = proposal' ∧ vote = vote' :=
  Prod.mk.inj (ViewNumber.eq_of_increasing disciplined.increasing
    (List.mem_filterMap.mpr ⟨_, first, rfl⟩) (List.mem_filterMap.mpr ⟨_, second, rfl⟩) same)

variable {worker next : ConsensusWorker B C}

theorem Disciplined.vote {proposal : Proposal B} {vote : Vote B} {marked : ConsensusState B}
    (current : proposal.view = worker.state.view)
    (made : worker.state.makeVote proposal = (some vote, marked))
    (disciplined : Disciplined worker) :
    Disciplined
      ({ worker with state := marked }.emit (.voted worker.state.view proposal vote)) := by
  rcases worker.state.makeVote_cases proposal with
    same | ⟨_, same⟩ | ⟨fresh, id, signature, _, same⟩
  · cases made.symm.trans same
  · cases made.symm.trans same
  · cases made.symm.trans same
    have grown : worker.state.lastVotedView ≤ max worker.state.lastVotedView proposal.view := by
      rw [UInt64.le_iff_toNat_le, ViewNumber.toNat_max]
      omega
    have reached : proposal.view ≤ max worker.state.lastVotedView proposal.view := by
      rw [UInt64.le_iff_toNat_le, ViewNumber.toNat_max]
      omega
    refine ⟨?_, ?_, ?_⟩
    · have behind := disciplined.behind
      rw [UInt64.le_iff_toNat_le] at behind ⊢
      simp only [emit_state, current, ViewNumber.toNat_max]
      omega
    · intro event member
      rcases List.mem_append.mp member with old | added
      · exact (disciplined.spent event old).mono grown
      · cases List.mem_singleton.mp added
        exact reached
    · rw [emit_log, List.pairwise_append]
      refine ⟨disciplined.ordered, List.pairwise_singleton _ _, ?_⟩
      intro earlier member later added
      cases List.mem_singleton.mp added
      exact .of_spends (disciplined.spent earlier member) fresh

variable [ClientForHotstuff B C] {policy : Policy B}

/-- Outside of votes the last voted view changes only to the current view. -/
theorem Calm.lastVotedView (act : Calm policy worker next) :
    next.state.lastVotedView = worker.state.lastVotedView ∨
      (next.state.lastVotedView = max worker.state.lastVotedView worker.state.view ∧
        next.state.view = worker.state.view) := by
  cases act with
  | spend => exact .inr ⟨rfl, rfl⟩
  | current => exact .inl (by simp [accepted])
  | ahead => exact .inl (by simp [accepted])
  | _ => exact .inl rfl

theorem Disciplined.calm (act : Calm policy worker next) (disciplined : Disciplined worker) :
    Disciplined next where
  behind := by
    have moved := (Act.calm act).view_le
    have behind := disciplined.behind
    rw [UInt64.le_iff_toNat_le] at moved behind ⊢
    rcases act.lastVotedView with same | ⟨raised, same⟩
    · rw [same]
      omega
    · rw [raised, same, ViewNumber.toNat_max]
      omega
  spent := by
    obtain ⟨events, grown, fresh, calm, _⟩ := act.log_eq
    intro event member
    rw [grown] at member
    rcases List.mem_append.mp member with old | added
    · exact (disciplined.spent event old).mono act.lastVotedView_le
    · have recorded := fresh event added
      have silent := List.filterMap_eq_nil_iff.mp calm event added
      cases event with
      | localTimer timer => exact UInt64.le_trans recorded.2 act.lastVotedView_le
      | voted view proposal vote => cases silent
      | _ => trivial
  ordered := by
    obtain ⟨events, grown, _, calm, _⟩ := act.log_eq
    have silent := List.filterMap_eq_nil_iff.mp calm
    rw [grown, List.pairwise_append]
    refine ⟨disciplined.ordered, ?_, fun _ _ later added => .of_calm (silent later added)⟩
    exact List.pairwise_of_forall_mem_list fun _ _ later added => .of_calm (silent later added)

theorem Disciplined.act (act : Act policy worker next) (disciplined : Disciplined worker) :
    Disciplined next := by
  cases act with
  | calm act => exact disciplined.calm act
  | vote proposal vote marked _ current _ made => exact disciplined.vote current made
  | propose payload tc proposal _ _ =>
    refine ⟨disciplined.behind, ?_, ?_⟩
    · intro event member
      rcases List.mem_append.mp member with old | added
      · exact disciplined.spent event old
      · cases List.mem_singleton.mp added
        trivial
    · rw [emit_log, List.pairwise_append]
      refine ⟨disciplined.ordered, List.pairwise_singleton _ _, ?_⟩
      intro earlier _ later added
      cases List.mem_singleton.mp added
      exact .of_calm rfl

theorem Replica.Reachable.disciplined {guard : Replica B C → Prop} {keystore : Keystore B}
    {authorities : AuthorityList B} {replica : Replica B C}
    (reachable : Replica.Reachable policy.allowed guard keystore authorities replica)
    (admitted : ∀ state, guard state → Replica.Meets policy state) :
    Disciplined replica.worker :=
  reachable.invariant admitted
    (fun _ _ _ => ⟨UInt64.le_refl _, fun _ member => (by cases member), List.Pairwise.nil⟩)
    fun _ _ act disciplined => disciplined.act act

/-- In every run the votes of a replica have increasing views, each is for a
verified proposal of the view the replica is in, no vote follows a timer of its
view or a later one, and the last voted view stays behind the view. -/
theorem single_voting {keystore : Keystore B} {authorities : AuthorityList B}
    {replica : Replica B C} (run : Replica.Run keystore authorities replica) :
    replica.worker.log.Pairwise (fun earlier later =>
      ∀ view proposal vote view' proposal' vote', earlier = .voted view proposal vote →
        later = .voted view' proposal' vote' → vote.view < vote'.view) ∧
    (∀ before view proposal vote after,
      replica.worker.log = before ++ .voted view proposal vote :: after →
        Event.verifiedProposal proposal ∈ before ∧
        (ConsensusState.new keystore authorities).verifyProposal proposal = .ok () ∧
        proposal.view = view ∧ vote.view = view ∧ vote.proposalHash = proposal.digest) ∧
    replica.worker.log.Pairwise (fun earlier later =>
      ∀ timer view proposal vote, earlier = .localTimer timer →
        later = .voted view proposal vote → timer < vote.view) ∧
    replica.worker.state.lastVotedView ≤ replica.worker.state.view := by
  have admitted (state : Replica B C) (_ : True) : Replica.Meets Policy.any state :=
    fun call _ => Policy.any_admits state.worker call
  have disciplined : Disciplined replica.worker := run.disciplined admitted
  have evident : Evident Policy.any keystore authorities replica.worker := run.evident admitted
  refine ⟨?_, ?_, ?_, disciplined.behind⟩
  · apply disciplined.ordered.imp
    rintro earlier later ordered view proposal vote view' proposal' vote' rfl rfl
    exact ordered
  · intro before view proposal vote after split
    obtain ⟨verified, sameView, voteView, hash, _⟩ := evident.events before _ after split
    have member : Event.verifiedProposal proposal ∈ replica.worker.log := by
      rw [split]
      exact List.mem_append_left _ verified
    exact ⟨verified, (evident.mem member).1, sameView, voteView, hash⟩
  · apply disciplined.ordered.imp
    rintro earlier later ordered timer view proposal vote rfl rfl
    exact ordered

/-- The single authority votes four times, and its last voted view is behind. -/
theorem single_voting_solo :
    (votedProposals Sample.solo.worker.log).length = 4 ∧
      Sample.solo.worker.state.lastVotedView ≤ Sample.solo.worker.state.view :=
  ⟨by decide +kernel, (single_voting Sample.solo_run).2.2.2⟩

end Hotstuff
