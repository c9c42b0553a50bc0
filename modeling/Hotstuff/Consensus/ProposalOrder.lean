import Hotstuff.Consensus.HighQc

/-! The view of a proposal against the view of its QC. A QC from ahead of the
replica raises the high QC but not the view, so that the order of the two is
kept only as long as no such QC is accepted. -/

namespace Hotstuff

open ConsensusWorker

variable {B C : Type} [BlockT B]

/-- A proposal is of a later view than its QC, unless that is the default one. -/
def Proposal.AboveQc (proposal : Proposal B) : Prop :=
  proposal.qc = QC.default ∨ proposal.qc.view < proposal.view

instance [DecidableEq B] (proposal : Proposal B) : Decidable proposal.AboveQc :=
  inferInstanceAs (Decidable (_ ∨ _))

/-- The view is above the high QC, and so was every proposal made or voted for. -/
structure Climbing (worker : ConsensusWorker B C) : Prop where
  highQc : worker.state.highQc = QC.default ∨ worker.state.highQc.view < worker.state.view
  made : ∀ proposal ∈ madeProposals worker.log, proposal.AboveQc
  voted : ∀ proposal ∈ votedProposals worker.log, proposal.AboveQc

def Policy.reached : Policy B :=
  ⟨fun _ => True, fun view _ qc => qc.view ≤ view, fun _ proposal => proposal.AboveQc,
    fun _ _ => True⟩

variable [ClientForHotstuff B C] {worker next : ConsensusWorker B C}

/-- The high QC stays below the view: a QC that raises it moves the view on. -/
theorem Climbing.highQc_act (act : Act Policy.reached worker next) (climbing : Climbing worker) :
    next.state.highQc = QC.default ∨ next.state.highQc.view < next.state.view := by
  have above := act.view_le
  have kept (same : next.state.highQc = worker.state.highQc) :
      next.state.highQc = QC.default ∨ next.state.highQc.view < next.state.view := by
    rw [same]
    exact climbing.highQc.imp_right fun below => UInt64.lt_of_lt_of_le below above
  cases act with
  | calm calm =>
    cases calm with
    | current qc view _ _ current following =>
      by_cases higher : worker.state.highQc.view < qc.view
      · right
        simp only [accepted, ConsensusState.updateHighQc, higher, if_true]
        have passed := ViewNumber.next?_eq_some.mp following
        rw [UInt64.lt_iff_toNat_lt, current]
        omega
      · apply kept
        simp only [accepted, ConsensusState.updateHighQc, higher, if_false]
    | ahead qc _ reached ahead => exact absurd reached (UInt64.not_le.mpr ahead)
    | _ => exact kept rfl
  | vote proposal vote marked _ _ _ made =>
    obtain ⟨view, rfl⟩ := makeVote_static made
    exact kept rfl
  | propose => exact kept rfl

theorem Climbing.act (act : Act Policy.reached worker next) (climbing : Climbing worker) :
    Climbing next := by
  have high := climbing.highQc_act act
  cases act with
  | calm calm =>
    refine ⟨high, ?_, ?_⟩
    · rw [calm.madeProposals]
      exact climbing.made
    · rw [calm.votedProposals]
      exact climbing.voted
  | vote proposal vote marked _ _ above _ =>
    refine ⟨high, ?_, ?_⟩
    · simpa [Event.proposed?] using climbing.made
    · intro other member
      simp only [votedProposals, emit_log, List.filterMap_append, List.mem_append] at member
      rcases member with old | added
      · exact climbing.voted other old
      · cases List.mem_singleton.mp added
        exact above
  | propose payload tc proposal _ made =>
    refine ⟨high, ?_, ?_⟩
    · intro other member
      simp only [emit_log, madeProposals_append, List.mem_append] at member
      rcases member with old | added
      · exact climbing.made other old
      · cases List.mem_singleton.mp added
        obtain ⟨qc, view, _⟩ := ConsensusState.makeProposal_ok made
        unfold Proposal.AboveQc
        rw [qc, view]
        exact climbing.highQc
    · simpa [votedProposals, Event.votedProposal?] using climbing.voted

/-- The steps at which no QC from ahead of the replica is accepted. -/
def Replica.InReach (replica : Replica B C) : Prop :=
  ∀ call qc, replica.control = .running call → Accepts replica.worker call qc →
    qc.view ≤ replica.worker.state.view

theorem Replica.InReach.meets {replica : Replica B C} (reach : replica.InReach) :
    Replica.Meets Policy.reached replica := by
  intro call running
  refine ⟨fun qc accepts => reach call qc running accepts, ?_, fun _ _ => trivial⟩
  rintro proposal ⟨_, accepts, _, leaps⟩
  exact .inr (leaps.passes_iff.mpr (reach call proposal.qc running accepts))

def Replica.reachesOffered (replica : Replica B C) : Bool :=
  replica.offeredQc?.all fun qc => qc.view ≤ replica.worker.state.view

theorem Replica.inReach_of_reachesOffered (replica : Replica B C)
    (reaches : replica.reachesOffered = true) : replica.InReach := by
  intro call qc running accepts
  simpa [Replica.reachesOffered, Replica.offeredQc?_of_accepts running accepts] using reaches

/-- In every run that accepts no QC from ahead of the replica, every proposal it
makes and every proposal it votes for is of a later view than its QC, unless
that is the default one. -/
theorem proposal_above_qc {keystore : Keystore B} {authorities : AuthorityList B}
    {replica : Replica B C}
    (reachable : Replica.Reachable (fun _ => True) Replica.InReach keystore authorities replica) :
    (∀ proposal, Event.proposed proposal ∈ replica.worker.log → proposal.AboveQc) ∧
    ∀ view proposal vote, Event.voted view proposal vote ∈ replica.worker.log →
      proposal.AboveQc := by
  have admitted (state : Replica B C) (reach : state.InReach) :
      Replica.Meets Policy.reached state := reach.meets
  have climbing : Climbing replica.worker :=
    reachable.invariant admitted
      (fun _ _ _ => ⟨.inl rfl, fun _ member => (by cases member),
        fun _ member => (by cases member)⟩)
      fun _ _ act climbing => climbing.act act
  refine ⟨fun proposal made => ?_, fun view proposal vote voted => ?_⟩
  · exact climbing.made proposal (List.mem_filterMap.mpr ⟨_, made, rfl⟩)
  · exact climbing.voted proposal (List.mem_filterMap.mpr ⟨_, voted, rfl⟩)

/-- The single authority makes four proposals, each above its QC. -/
theorem proposal_above_qc_solo :
    (madeProposals Sample.solo.worker.log).map (fun proposal => (proposal.qc.view, proposal.view)) =
      [(0, 1), (1, 2), (2, 4), (4, 5)] ∧
    ∀ proposal, Event.proposed proposal ∈ Sample.solo.worker.log → proposal.AboveQc := by
  have reachable : Replica.Reachable (fun _ => True) Replica.InReach (Sample.keystore 0)
      (Sample.authorities 1) Sample.solo :=
    .session Replica.inReach_of_reachesOffered 30 _ (.start (Sample.replica_initial 1 0 _))
      (by decide +kernel)
  exact ⟨by decide +kernel, (proposal_above_qc reachable).1⟩

/-- A timeout of view 5 brings the leader of view 1 a QC of view 5 while it is in
view 0. It enters view 1 by a TC, and there makes and votes for a proposal of
view 1 on the QC of view 5. -/
theorem proposal_below_qc :
    ∃ replica : Replica Sample Sample.Client,
      Replica.Run (Sample.keystore 1) (Sample.authorities 4) replica ∧
      ∃ proposal ∈ madeProposals replica.worker.log,
        proposal ∈ votedProposals replica.worker.log ∧ ¬ proposal.AboveQc := by
  refine ⟨(Sample.replica 4 1 [⟨some (8 : BitVec 64), 8⟩]).session 9
      [.timeout (Sample.timeout (Sample.qc (7 : BitVec 64) 5 [0, 2, 3]) 5 2),
        .tc (Sample.tc 0 [0, 2, 3])],
    (Sample.replica_run 4 1 _).session 9 _, ?_⟩
  decide +kernel

end Hotstuff
