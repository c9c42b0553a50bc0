import Hotstuff.Consensus.Pacemaker

/-! The high QC against the QCs a replica has accepted. A QC that arrives after
its view was left is accepted and then dropped. -/

namespace Hotstuff

open ConsensusWorker

variable {B C : Type} [BlockT B]

/-- The high QC is at least as high as every accepted one. -/
def HighQcMaximal (worker : ConsensusWorker B C) : Prop :=
  ∀ qc, Event.acceptedQc qc ∈ worker.log → qc.view ≤ worker.state.highQc.view

/-- A QC is not lost: it is of the current view or a later one, or no news. -/
def NotLost (view : ViewNumber) (highQc qc : QC B) : Prop :=
  view ≤ qc.view ∨ qc.view ≤ highQc.view

instance (view : ViewNumber) (highQc qc : QC B) : Decidable (NotLost view highQc qc) :=
  inferInstanceAs (Decidable (_ ∨ _))

theorem ConsensusState.updateHighQc_le (state : ConsensusState B) (qc : QC B) :
    qc.view ≤ (state.updateHighQc qc).highQc.view ∧
      state.highQc.view ≤ (state.updateHighQc qc).highQc.view := by
  unfold ConsensusState.updateHighQc
  split
  · rename_i higher
    exact ⟨UInt64.le_refl _, UInt64.le_of_lt higher⟩
  · rename_i lower
    exact ⟨UInt64.not_lt.mp lower, UInt64.le_refl _⟩

theorem HighQcMaximal.accepted {worker : ConsensusWorker B C} (maximal : HighQcMaximal worker)
    (view : ViewNumber) (qc : QC B) : HighQcMaximal (worker.accepted view qc) := by
  have raised := ConsensusState.updateHighQc_le { worker.state with view } qc
  intro other member
  simp only [ConsensusWorker.accepted, List.mem_append, List.mem_cons, List.not_mem_nil,
    or_false, reduceCtorEq, false_or, Event.acceptedQc.injEq] at member
  rcases member with old | rfl
  · exact UInt64.le_trans (maximal other old) raised.2
  · exact raised.1

theorem HighQcMaximal.emit_iff {worker : ConsensusWorker B C} (maximal : HighQcMaximal worker)
    (qc : QC B) : HighQcMaximal (worker.emit (.acceptedQc qc)) ↔
      qc.view ≤ worker.state.highQc.view := by
  constructor
  · intro kept
    exact kept qc (by simp)
  · intro below other member
    rcases List.mem_append.mp member with old | added
    · exact maximal other old
    · cases List.mem_singleton.mp added
      exact below

/-- `handle_qc` keeps the high QC maximal exactly when the QC is not lost. -/
theorem HighQcMaximal.handleQc_iff {worker next : ConsensusWorker B C} {qc : QC B}
    (maximal : HighQcMaximal worker) (ran : handleQc qc worker = (.ok (), next)) :
    HighQcMaximal next ↔ NotLost worker.state.view worker.state.highQc qc := by
  cases HandlesQc.of_ran ran with
  | late late => rw [maximal.emit_iff, NotLost, or_iff_right (UInt64.not_le.mpr late)]
  | current view current following =>
    exact iff_of_true (maximal.accepted view qc) (.inl (by rw [current]; exact UInt64.le_refl _))
  | ahead ahead => exact iff_of_true (maximal.accepted _ qc) (.inl (UInt64.le_of_lt ahead))

variable [ClientForHotstuff B C] {policy : Policy B} {worker next : ConsensusWorker B C}

theorem Act.highQc_le (act : Act policy worker next) :
    worker.state.highQc.view ≤ next.state.highQc.view := by
  rcases act.highQc with same | ⟨_, higher⟩
  · rw [same]
    exact UInt64.le_refl _
  · exact UInt64.le_of_lt higher

omit [ClientForHotstuff B C] in
theorem HighQcMaximal.of_log (maximal : HighQcMaximal worker)
    (raised : worker.state.highQc.view ≤ next.state.highQc.view)
    (same : ∀ qc, Event.acceptedQc qc ∈ next.log → Event.acceptedQc qc ∈ worker.log) :
    HighQcMaximal next :=
  fun qc member => UInt64.le_trans (maximal qc (same qc member)) raised

/-- Nothing is assumed of a run but that its QCs are not lost. -/
def Policy.notLost : Policy B :=
  ⟨fun _ => True, NotLost, fun _ _ => True, fun _ _ => True⟩

theorem HighQcMaximal.act (act : Act Policy.notLost worker next)
    (maximal : HighQcMaximal worker) : HighQcMaximal next := by
  have raised := act.highQc_le
  cases act with
  | calm calm =>
    cases calm with
    | emit event enabled =>
      refine maximal.of_log raised fun qc member => ?_
      rcases List.mem_append.mp member with old | added
      · exact old
      · cases List.mem_singleton.mp added
        exact enabled.elim
    | late qc held admitted late =>
      exact (maximal.emit_iff qc).mpr (admitted.resolve_left (UInt64.not_le.mpr late))
    | current qc view _ _ _ _ => exact maximal.accepted view qc
    | ahead qc _ _ _ => exact maximal.accepted _ qc
    | pass tc view _ _ _ =>
      exact maximal.of_log raised fun qc member => by simpa [ConsensusWorker.moved] using member
    | stay =>
      exact maximal.of_log raised fun qc member => by simpa [ConsensusWorker.moved] using member
    | _ => exact maximal
  | vote => exact maximal.of_log raised fun qc member => by simpa using member
  | propose => exact maximal.of_log raised fun qc member => by simpa using member

/-- The steps at which no QC is lost. -/
def Replica.LosesNoQc (replica : Replica B C) : Prop :=
  ∀ call qc, replica.control = .running call → Accepts replica.worker call qc →
    NotLost replica.worker.state.view replica.worker.state.highQc qc

theorem Replica.LosesNoQc.meets {replica : Replica B C} (keeps : replica.LosesNoQc) :
    Replica.Meets Policy.notLost replica :=
  fun call running => ⟨fun qc accepts => keeps call qc running accepts, fun _ _ => trivial,
    fun _ _ => trivial⟩

/-- The QC a call will accept if its checks pass. -/
def Replica.offeredQc? (replica : Replica B C) : Option (QC B) :=
  match replica.control with
  | .running (.proposal proposal) => some proposal.qc
  | .running (.timeout timeout) => some timeout.highQc
  | .running (.vote vote) =>
    match (replica.worker.state.addVote vote).1 with
    | .ok formed => formed
    | .error _ => none
  | _ => none

theorem Replica.offeredQc?_of_accepts {replica : Replica B C} {call : Call B} {qc : QC B}
    (running : replica.control = .running call) (accepts : Accepts replica.worker call qc) :
    replica.offeredQc? = some qc := by
  unfold Replica.offeredQc?
  rw [running]
  cases call with
  | proposal proposal => exact congrArg some accepts.2.2.symm
  | timeout timeout => exact congrArg some accepts.2.2.symm
  | vote vote => simp [accepts.2]
  | localTimer => exact accepts.elim
  | tc tc => exact accepts.elim
  | generateProposal tc => exact accepts.elim

/-- A check of `LosesNoQc` that does not look at signatures. -/
def Replica.keepsOffered (replica : Replica B C) : Bool :=
  replica.offeredQc?.all fun qc =>
    NotLost replica.worker.state.view replica.worker.state.highQc qc

theorem Replica.losesNoQc_of_keepsOffered (replica : Replica B C)
    (keeps : replica.keepsOffered = true) : replica.LosesNoQc := by
  intro call qc running accepts
  simpa [Replica.keepsOffered, Replica.offeredQc?_of_accepts running accepts] using keeps

/-- In every run that loses no QC the high QC is at least as high as every QC
accepted so far; one `handle_qc` keeps this exactly when it loses no QC; and
the high QC never goes down, in any step at all. -/
theorem high_qc_maximal {keystore : Keystore B} {authorities : AuthorityList B}
    {replica : Replica B C}
    (reachable : Replica.Reachable (fun _ => True) Replica.LosesNoQc keystore authorities replica) :
    HighQcMaximal replica.worker ∧
    (∀ qc following, handleQc qc replica.worker = (.ok (), following) →
      (HighQcMaximal following ↔
        NotLost replica.worker.state.view replica.worker.state.highQc qc)) ∧
    ∀ before after : Replica B C, Replica.Step (fun _ => True) before after →
      before.worker.state.highQc.view ≤ after.worker.state.highQc.view := by
  have admitted (state : Replica B C) (keeps : state.LosesNoQc) :
      Replica.Meets Policy.notLost state := keeps.meets
  have maximal : HighQcMaximal replica.worker :=
    reachable.invariant admitted (fun _ _ _ _ member => by cases member)
      fun _ _ act maximal => maximal.act act
  refine ⟨maximal, fun qc following ran => maximal.handleQc_iff ran, ?_⟩
  intro before after step
  exact Command.keep_along (fun now => before.worker.state.highQc.view ≤ now.state.highQc.view)
    step.follows (fun _ _ act below => UInt64.le_trans below act.highQc_le) (UInt64.le_refl _)

def Event.acceptedQc? : Event B → Option (QC B)
  | .acceptedQc qc => some qc
  | _ => none

/-- The single authority loses none of the ten QCs it accepts, and its high QC
is the highest of them. -/
theorem high_qc_maximal_solo :
    (Sample.solo.worker.log.filterMap Event.acceptedQc?).map QC.view =
      [0, 0, 1, 1, 2, 2, 2, 4, 4, 5] ∧ HighQcMaximal Sample.solo.worker := by
  have reachable : Replica.Reachable (fun _ => True) Replica.LosesNoQc (Sample.keystore 0)
      (Sample.authorities 1) Sample.solo :=
    .session Replica.losesNoQc_of_keepsOffered 30 _ (.start (Sample.replica_initial 1 0 _))
      (by decide +kernel)
  exact ⟨by decide +kernel, (high_qc_maximal reachable).1⟩

/-- A replica of four authorities leaves view 1 by a TC. The QC of view 1 then
comes with the proposal of view 2, is accepted, and the high QC stays at view 0. -/
theorem high_qc_below_accepted :
    ∃ replica : Replica Sample Sample.Client,
      Replica.Run (Sample.keystore 0) (Sample.authorities 4) replica ∧
      Event.acceptedQc (Sample.qc (7 : BitVec 64) 1 [1, 2, 3]) ∈ replica.worker.log ∧
      replica.worker.state.highQc.view = 0 := by
  refine ⟨(Sample.replica 4 0 []).session 9
      [.tc (Sample.tc 0 [1, 2, 3]), .tc (Sample.tc 1 [1, 2, 3]),
        .proposal (Sample.proposal (Sample.qc (7 : BitVec 64) 1 [1, 2, 3]) (9 : BitVec 64) 2 2)],
    (Sample.replica_run 4 0 []).session 9 _, ?_, ?_⟩
  · decide +kernel
  · decide +kernel

end Hotstuff
