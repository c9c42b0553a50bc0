import Hotstuff.Consensus.Evidence

/-! Where the task of a worker can panic: in the additions to a view, and where
a leader is looked up in an empty authority list. -/

namespace Hotstuff

open ConsensusWorker

variable {B C : Type} [BlockT B]

theorem ViewNumber.next?_eq_none {view : ViewNumber} :
    view.next? = none ↔ 2 ^ 64 ≤ view.toNat + 1 := by
  unfold ViewNumber.next?
  split
  · rename_i small
    constructor
    · intro absent
      cases absent
    · intro large
      omega
  · rename_i large
    constructor
    · intro _
      omega
    · intro _
      rfl

/-- Only an empty authority list has no leader. -/
theorem ConsensusState.viewLeader_none {state : ConsensusState B} {view : ViewNumber}
    (absent : state.viewLeader view = none) : state.authorities = [] := by
  unfold viewLeader at absent
  rw [List.getElem?_eq_none_iff, AuthorityList.ids_length] at absent
  apply List.eq_nil_of_length_eq_zero
  by_contra positive
  have below := Nat.mod_lt view.toNat (Nat.pos_of_ne_zero positive)
  omega

theorem ConsensusState.isLeader_none {state : ConsensusState B}
    (absent : state.isLeader = none) : state.authorities = [] := by
  apply viewLeader_none
  exact Option.map_eq_none_iff.mp absent

theorem ConsensusState.verifyProposal_panic {state : ConsensusState B} {proposal : Proposal B}
    (panicked : state.verifyProposal proposal = .error .panic) : state.authorities = [] := by
  unfold verifyProposal at panicked
  split at panicked
  · rename_i absent
    exact viewLeader_none absent
  · split at panicked
    · cases checked : proposal.verify state.authorities with
      | error failure => simp [checked, Except.mapError] at panicked
      | ok _ => simp [checked, Except.mapError] at panicked
    · simp at panicked

variable [ClientForHotstuff B C]

/-- The reasons for a panic: no view is left, there is no authority, or the
grandparent of a proposal is of the last view. -/
def PanicCause (worker : ConsensusWorker B C) : Prop :=
  worker.state.view.next? = none ∨ worker.state.authorities = [] ∨
    ∃ proposal parent grandpa : Proposal B,
      Synchronizer.getProposalAncestors worker.client proposal = .ok (parent, grandpa) ∧
        grandpa.view.next? = none

section Causes

variable {worker : ConsensusWorker B C} {ending : Ending B C}

theorem Overflows.cause {view : ViewNumber} (last : Overflows worker view) : PanicCause worker :=
  .inl last.2

theorem FormedTcOutcome.cause {tc : TC B} (outcome : FormedTcOutcome worker tc ending)
    (panicked : ending.1 = .error .panic) : PanicCause ending.2 := by
  cases outcome with
  | overflow last => exact last.cause
  | leaderless passed _ nobody => exact .inr (.inl (ConsensusState.isLeader_none nobody))
  | _ => cases panicked

theorem TimeoutOutcome.cause {timeout : Timeout B} (outcome : TimeoutOutcome worker timeout ending)
    (panicked : ending.1 = .error .panic) : PanicCause ending.2 := by
  cases outcome with
  | overflow _ _ last => exact Or.inl last.2
  | formed _ _ _ _ _ rest => exact rest.cause panicked
  | _ => cases panicked

theorem TcOutcome.cause {tc : TC B} (outcome : TcOutcome worker tc ending)
    (panicked : ending.1 = .error .panic) : PanicCause ending.2 := by
  cases outcome with
  | overflow _ last => exact Or.inl last.2
  | leaderless passed _ _ nobody => exact .inr (.inl (ConsensusState.isLeader_none nobody))
  | _ => cases panicked

/-- The leader of the next view is looked up in the view that was voted in. -/
theorem CastOutcome.cause {proposal : Proposal B} (outcome : CastOutcome worker proposal ending)
    (panicked : ending.1 = .error .panic) : PanicCause ending.2 := by
  cases outcome with
  | stranded vote marked made nobody =>
    obtain ⟨view, rfl⟩ := makeVote_static made
    cases following : worker.state.view.next? with
    | none => exact .inl following
    | some next =>
      rw [following] at nobody
      exact .inr (.inl (ConsensusState.viewLeader_none nobody))
  | _ => cases panicked

theorem ProposalOutcome.cause {proposal : Proposal B}
    (outcome : ProposalOutcome worker proposal ending) (panicked : ending.1 = .error .panic) :
    PanicCause ending.2 := by
  cases outcome with
  | refused fault _ failed =>
    cases panicked
    exact .inr (.inl (ConsensusState.verifyProposal_panic failed))
  | overflow _ _ last => exact Or.inl last.2
  | lastView _ parent grandpa _ _ found last =>
    exact .inr (.inr ⟨proposal, parent, grandpa, found, last⟩)
  | reached _ _ _ _ _ _ _ casts => exact casts.cause panicked
  | _ => cases panicked

theorem VoteOutcome.cause {vote : Vote B} (outcome : VoteOutcome worker vote ending)
    (panicked : ending.1 = .error .panic) : PanicCause ending.2 := by
  cases outcome with
  | formed qc _ _ _ rest =>
    cases rest with
    | overflow last => exact last.cause
    | leaderless settled _ nobody => exact .inr (.inl (ConsensusState.isLeader_none nobody))
    | _ => cases panicked
  | _ => cases panicked

/-- A handler panics for one of the three reasons only. -/
theorem Outcome.cause {call : Call B} (outcome : Outcome worker call ending)
    (panicked : ending.1 = .error .panic) : PanicCause ending.2 := by
  cases call with
  | localTimer => cases outcome <;> cases panicked
  | timeout timeout => exact TimeoutOutcome.cause outcome panicked
  | proposal proposal => exact ProposalOutcome.cause outcome panicked
  | vote vote => exact VoteOutcome.cause outcome panicked
  | tc tc => exact TcOutcome.cause outcome panicked
  | generateProposal tc => cases outcome <;> cases panicked

end Causes

/-- The same reasons by what a worker has verified, which nothing undoes. -/
def Stuck (worker : ConsensusWorker B C) : Prop :=
  worker.state.view.next? = none ∨ worker.state.authorities = [] ∨
    ∃ parent grandpa : Proposal B, Event.verifiedProposal parent ∈ worker.log ∧
      Event.verifiedProposal grandpa ∈ worker.log ∧
      grandpa.digest = parent.qc.proposalHash ∧ grandpa.view.next? = none

theorem PanicCause.stuck {policy : Policy B} {keystore : Keystore B}
    {authorities : AuthorityList B} {worker : ConsensusWorker B C}
    (evident : Evident policy keystore authorities worker) (cause : PanicCause worker) :
    Stuck worker := by
  rcases cause with last | empty | ⟨proposal, parent, grandpa, found, last⟩
  · exact .inl last
  · exact .inr (.inl empty)
  · obtain ⟨first, second⟩ := Synchronizer.getProposalAncestors_ok found
    obtain ⟨parentVerified, _⟩ := evident.parent first
    obtain ⟨grandpaVerified, digest⟩ := evident.parent second
    exact .inr (.inr ⟨parent, grandpa, parentVerified, grandpaVerified, digest, last⟩)

/-- A replica that has panicked is stuck. -/
theorem Replica.Reachable.stuck {policy : Policy B} {guard : Replica B C → Prop}
    {keystore : Keystore B} {authorities : AuthorityList B} {replica : Replica B C}
    (reachable : Replica.Reachable policy.allowed guard keystore authorities replica)
    (admitted : ∀ state, guard state → Replica.Meets policy state)
    (halted : replica.control = .halted) : Stuck replica.worker := by
  induction reachable with
  | start initial =>
    rw [initial.control] at halted
    cases halted
  | step before holds move ih =>
    have evident := (Replica.Reachable.step before holds move).evident admitted
    cases move with
    | timer idle => cases halted
    | receive idle present selected => cases halted
    | environment client queue kept => exact ih halted
    | @resume _ call running =>
      refine PanicCause.stuck evident ((handle_outcome call _).cause ?_)
      unfold resume controlAfter at halted
      dsimp only at halted
      split at halted
      · cases halted
      · cases halted
      · cases halted
      · rename_i panicked
        exact panicked

end Hotstuff
