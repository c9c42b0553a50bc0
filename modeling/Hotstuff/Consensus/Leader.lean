import Hotstuff.Consensus.Pacemaker

/-! The proposals of one leader. There is no record of the last proposed view:
a leader proposes once in each view as long as every certificate that makes it
propose also moves its view. -/

namespace Hotstuff

open ConsensusWorker

variable {B C : Type} [BlockT B]

/-- Proposals were made in increasing views up to the current one. -/
structure Leading (worker : ConsensusWorker B C) : Prop where
  reached : ∀ proposal ∈ madeProposals worker.log, proposal.view ≤ worker.state.view
  increasing : (madeProposals worker.log).Pairwise fun earlier later => earlier.view < later.view

/-- A certificate leaves room for a proposal: the view has reached it and will
pass it, or nothing was proposed in the view yet. -/
def Room (worker : ConsensusWorker B C) (certificate view : ViewNumber) : Prop :=
  certificate ≤ view ∨ ∀ proposal ∈ madeProposals worker.log, proposal.view < view

instance (worker : ConsensusWorker B C) (certificate view : ViewNumber) :
    Decidable (Room worker certificate view) :=
  inferInstanceAs (Decidable (_ ∨ _))

variable {worker next : ConsensusWorker B C} {certificate view middle target : ViewNumber}

theorem Room.mono (above : view ≤ middle) (room : Room worker certificate view) :
    Room worker certificate middle := by
  rcases room with reached | unused
  · exact .inl (UInt64.le_trans reached above)
  · exact .inr fun proposal made => UInt64.lt_of_lt_of_le (unused proposal made) above

/-- Where there is room, the view a certificate leads to is a fresh one. -/
theorem Room.fresh (room : Room worker certificate middle) (leading : Leading worker)
    (current : worker.state.view ≤ certificate) (leaps : Leaps middle certificate target) :
    ∀ proposal ∈ madeProposals worker.log, proposal.view < target := by
  intro proposal made
  rcases room with reached | unused
  · have below := UInt64.le_trans (leading.reached proposal made) current
    exact UInt64.lt_of_le_of_lt below (leaps.passes_iff.mpr reached)
  · exact UInt64.lt_of_lt_of_le (unused proposal made) leaps.le

theorem Leading.of_same (made : madeProposals next.log = madeProposals worker.log)
    (above : worker.state.view ≤ next.state.view) (leading : Leading worker) : Leading next := by
  refine ⟨fun proposal member => ?_, by rw [made]; exact leading.increasing⟩
  rw [made] at member
  exact UInt64.le_trans (leading.reached proposal member) above

/-- Nothing is assumed of a run but that proposals are made in fresh views. -/
def Policy.freshViews : Policy B :=
  ⟨fun _ => True, fun _ _ _ => True, fun _ _ => True,
    fun made view => ∀ proposal ∈ made, proposal.view < view⟩

variable [ClientForHotstuff B C]

theorem Leading.act (act : Act Policy.freshViews worker next) (leading : Leading worker) :
    Leading next := by
  have above := act.view_le
  cases act with
  | calm calm => exact leading.of_same calm.madeProposals above
  | vote proposal vote marked _ _ _ _ =>
    exact leading.of_same (by simp [Event.proposed?]) above
  | propose payload tc proposal fresh made =>
    have view := (ConsensusState.makeProposal_ok made).2.1
    have grown : madeProposals (worker.emit (.proposed proposal)).log =
        madeProposals worker.log ++ [proposal] := by
      simp [Event.proposed?]
    refine ⟨fun other member => ?_, ?_⟩
    · rw [grown] at member
      rcases List.mem_append.mp member with old | added
      · exact leading.reached other old
      · cases List.mem_singleton.mp added
        rw [view]
        exact UInt64.le_refl _
    · rw [grown, List.pairwise_append]
      refine ⟨leading.increasing, List.pairwise_singleton _ _, ?_⟩
      intro earlier member later added
      cases List.mem_singleton.mp added
      rw [view]
      exact fresh earlier member

namespace Replica

/-- Every certificate a call turns into a proposal leaves room for it. -/
def Timely (replica : Replica B C) : Prop :=
  ∀ call, replica.control = .running call →
    match call with
    | .vote vote => ∀ qc, Accepts replica.worker (.vote vote) qc →
        Room replica.worker qc.view replica.worker.state.view
    | .timeout timeout => ∀ tc middle, CompletesTc replica.worker timeout tc middle →
        Room replica.worker tc.view middle
    | .tc tc => replica.worker.state.verifyTc tc = .ok () →
        Room replica.worker tc.view replica.worker.state.view
    | _ => True

theorem Timely.meets {replica : Replica B C} (timely : replica.Timely)
    (leading : Leading replica.worker) : Meets Policy.freshViews replica := by
  intro call running
  refine ⟨fun _ _ => trivial, fun _ _ => trivial, fun view proposes => ?_⟩
  have room := timely call running
  cases call with
  | vote vote =>
    obtain ⟨qc, ⟨verified, formed⟩, leaps⟩ := proposes
    have current := (ConsensusState.verifyVote_ok_iff.mp verified).1
    have same := (Aggregator.addVote_some formed).2.1
    exact (room qc ⟨verified, formed⟩).fresh leading (by rw [same]; exact current) leaps
  | timeout timeout =>
    obtain ⟨tc, middle, completes, leaps⟩ := proposes
    have same := (Aggregator.addTimeout_some completes.2.2.1).1
    exact (room tc middle completes).fresh leading (by rw [same]; exact completes.1) leaps
  | tc tc =>
    obtain ⟨verified, leaps⟩ := proposes
    have current := (ConsensusState.verifyTc_ok_iff.mp verified).1
    exact (room verified).fresh leading current leaps
  | localTimer => exact proposes.elim
  | proposal proposal => exact proposes.elim
  | generateProposal tc => exact proposes.elim

theorem Step.leading {replica next : Replica B C} (step : Step (fun _ => True) replica next)
    (timely : replica.Timely) (leading : Leading replica.worker)
    (proper : Proper Policy.freshViews replica) :
    Leading next.worker ∧ Proper Policy.freshViews next := by
  obtain ⟨acts, properNext⟩ := Step.acts step proper (timely.meets leading)
  exact ⟨Command.keep_along Leading acts (fun _ _ act leading => leading.act act) leading,
    properNext⟩

theorem Reachable.leading {keystore : Keystore B} {authorities : AuthorityList B}
    {replica : Replica B C}
    (reachable : Reachable (fun _ => True) Timely keystore authorities replica) :
    Leading replica.worker ∧ Proper Policy.freshViews replica := by
  induction reachable with
  | start initial =>
    obtain ⟨client, queue, _, same⟩ := initial.worker
    refine ⟨?_, fun call running => ?_⟩
    · rw [same]
      exact ⟨fun _ member => (by cases member), .nil⟩
    · rw [initial.control] at running
      cases running
  | step _ timely move ih => exact move.leading timely ih.1 ih.2

end Replica

/-- In every run whose certificates leave room for proposals a replica proposes
in increasing views, so that two proposals it gossips in one view are the same. -/
theorem no_equivocation {keystore : Keystore B} {authorities : AuthorityList B}
    {replica : Replica B C}
    (reachable : Replica.Reachable (fun _ => True) Replica.Timely keystore authorities replica) :
    (madeProposals replica.worker.log).Pairwise
      (fun earlier later => earlier.view < later.view) ∧
    ∀ first second force force', Event.gossip (.propose first) force ∈ replica.worker.log →
      Event.gossip (.propose second) force' ∈ replica.worker.log → first.view = second.view →
      first.digest = second.digest := by
  have leading := reachable.leading.1
  have evident : Evident Policy.any keystore authorities replica.worker :=
    reachable.evident fun state _ call _ => Policy.any_admits state.worker call
  have made (proposal : Proposal B) (force : Bool)
      (sent : Event.gossip (.propose proposal) force ∈ replica.worker.log) :
      proposal ∈ madeProposals replica.worker.log :=
    List.mem_filterMap.mpr ⟨_, evident.mem sent, rfl⟩
  refine ⟨leading.increasing, fun first second force force' sent sentToo same => ?_⟩
  rw [ViewNumber.eq_of_increasing leading.increasing (made first force sent)
    (made second force' sentToo) same]

/-- A check of `Timely` that does not look at signatures. -/
def Replica.hasRoom (replica : Replica B C) : Bool :=
  match replica.control with
  | .running (.vote vote) =>
    match (replica.worker.state.addVote vote).1 with
    | .ok (some qc) => Room replica.worker qc.view replica.worker.state.view
    | _ => true
  | .running (.timeout timeout) =>
    match (replica.worker.state.addTimeout timeout).1 with
    | .ok (some tc) => Room replica.worker tc.view replica.worker.state.view
    | _ => true
  | .running (.tc tc) => Room replica.worker tc.view replica.worker.state.view
  | _ => true

theorem Replica.timely_of_hasRoom (replica : Replica B C) (room : replica.hasRoom = true) :
    replica.Timely := by
  intro call running
  unfold Replica.hasRoom at room
  rw [running] at room
  cases call with
  | vote vote =>
    intro qc accepts
    simpa [accepts.2] using room
  | timeout timeout =>
    intro tc middle completes
    have here : Room replica.worker tc.view replica.worker.state.view := by
      simpa [completes.2.2.1] using room
    exact here.mono completes.2.2.2.le
  | tc tc =>
    intro _
    simpa using room
  | localTimer => trivial
  | proposal proposal => trivial
  | generateProposal tc => trivial

/-- The single authority always has room, and proposes in four views. -/
theorem no_equivocation_solo :
    (madeProposals Sample.solo.worker.log).map Proposal.view = [1, 2, 4, 5] ∧
      (madeProposals Sample.solo.worker.log).Pairwise
        fun earlier later => earlier.view < later.view := by
  have reachable : Replica.Reachable (fun _ => True) Replica.Timely (Sample.keystore 0)
      (Sample.authorities 1) Sample.solo :=
    .session Replica.timely_of_hasRoom 30 _ (.start (Sample.replica_initial 1 0 _))
      (by decide +kernel)
  exact ⟨by decide +kernel, (no_equivocation reachable).1⟩

/-- The leader of view 1 with block 8 pending enters its view by a TC. -/
def Sample.leader : Replica Sample Sample.Client :=
  (Sample.replica 4 1 [⟨some (8 : BitVec 64), 8⟩]).session 9 [.tc (Sample.tc 0 [0, 2, 3])]

/-- The same leader with another block pending. -/
def Sample.repending (replica : Replica Sample Sample.Client) : Replica Sample Sample.Client :=
  { replica with worker := { replica.worker with
      pendingFinalizeQueue := some [⟨some (9 : BitVec 64), 9⟩] } }

/-- The leader of view 1 proposes block 8. After its queue has changed it is
given a TC of view 5, stays in view 1, and proposes block 9 there. -/
theorem leader_equivocates :
    ∃ replica : Replica Sample Sample.Client,
      Replica.Run (Sample.keystore 1) (Sample.authorities 4) replica ∧
      ∃ first ∈ madeProposals replica.worker.log, ∃ second ∈ madeProposals replica.worker.log,
        Event.gossip (.propose first) false ∈ replica.worker.log ∧
        Event.gossip (.propose second) false ∈ replica.worker.log ∧
        first.view = second.view ∧ first.digest ≠ second.digest := by
  refine ⟨(Sample.repending Sample.leader).session 9 [.tc (Sample.tc 5 [0, 2, 3])], ?_, ?_⟩
  · have run : Replica.Run (Sample.keystore 1) (Sample.authorities 4) Sample.leader :=
      (Sample.replica_run 4 1 _).session 9 _
    exact Replica.Run.session (.step run trivial (.environment _ _ rfl)) 9 _
  · decide +kernel

end Hotstuff
