import Hotstuff.Consensus.CompletedTc
import Hotstuff.Consensus.GivenUp

/-! How far the views of a network are apart. A view is left only with a
certificate, and behind every certificate of a run stands a quorum whose honest
members have voted or timed out in its view. -/

namespace Hotstuff

open ConsensusWorker

variable {B C : Type} [BlockT B]

def TimedOutIn (log : List (Event B)) (view : ViewNumber) : Prop :=
  ∃ timeout, Event.timedOut timeout ∈ log ∧ timeout.view = view

/-- What may arrive where no certificate is completed by keys of outsiders. -/
def Network.Within (network : Network B) (system : System B C) (message : ConsensusMessage B) :
    Prop :=
  network.Inside system message ∧
    ∀ tc, message = .tc tc → ¬ tc.SignedByOutsider network.authorities

/-- A verified TC is one that has arrived, or one's own. -/
def TcAvailable (policy : Policy B) (past : List (Event B)) : Event B → Prop
  | .verifiedTc tc => Available policy past (.tc tc)
  | _ => True

def TcsAvailable (policy : Policy B) (worker : ConsensusWorker B C) : Prop :=
  Past (TcAvailable policy) worker.log

/-- A quorum whose honest members have acted in a view. -/
def Acted (network : Network B) (system : System B C) (view : ViewNumber) : Prop :=
  ∃ voters, Quorum network.authorities.ids voters ∧ ∀ voter ∈ voters, network.Honest voter →
    VotedIn (system voter).worker.log view ∨ TimedOutIn (system voter).worker.log view

/-- The views behind the one a log leads to were left one by one. -/
theorem replayView_passed {log : List (Event B)} {view : ViewNumber}
    (replayed : replayView log = some view)
    (single : ∀ source target, Event.advanced source target ∈ log →
      target = source ∨ source.next? = some target) :
    ∀ passed < view, ∃ target, Event.advanced passed target ∈ log ∧ target ≠ passed := by
  refine replayView_rec (motive := fun log view => ∀ passed < view, ∃ target,
    Event.advanced passed target ∈ log ∧ target ≠ passed) ?_ ?_ ?_ replayed single
  · intro passed below
    exact absurd below (UInt64.not_lt.mpr UInt64.zero_le)
  · intro log source target change earlier passed below
    by_cases old : passed < source
    · obtain ⟨next, member, apart⟩ := earlier passed old
      exact ⟨next, List.mem_append_left _ member, apart⟩
    · rcases change with same | following
      · rw [same] at below
        exact absurd below old
      · have above := ViewNumber.next?_eq_some.mp following
        have here : passed = source := by
          rw [UInt64.lt_iff_toNat_lt] at below old
          apply UInt64.toNat_inj.mp
          omega
        subst passed
        refine ⟨target, by simp, ?_⟩
        intro same
        rw [same] at above
        omega
  · intro log view event _ earlier passed below
    obtain ⟨next, member, apart⟩ := earlier passed below
    exact ⟨next, List.mem_append_left _ member, apart⟩

variable [ClientForHotstuff B C] {network : Network B} {system : System B C}
  {guard : Replica B C → Prop} {id : AuthorityId B}

omit [ClientForHotstuff B C] in
theorem Network.within_persistent : network.Persistent (network.Within (C := C)) := by
  intro before after message grows present
  exact ⟨network.inside_persistent before after message grows present.1, present.2⟩

theorem TcsAvailable.act {policy : Policy B} {worker next : ConsensusWorker B C}
    (act : Act policy worker next) (available : TcsAvailable policy worker) :
    TcsAvailable policy next := by
  refine act.keep_past ?_ ?_ available
  · intro log larger event grown holds
    cases event with
    | verifiedTc tc => exact Available.mono grown holds
    | _ => trivial
  · intro event fresh
    cases event with
    | verifiedTc tc => exact fresh.2
    | _ => trivial

theorem Network.Reachable.acted_of_completed
    (reachable : network.Reachable network.Within guard system)
    (apart : Set.InjOn (hashOf (B := B)) (network.digested system)) (honest : network.Honest id)
    {tc : TC B} (completed : Event.aggregatedTc tc ∈ (system id).worker.log) :
    Acted network system tc.view := by
  have evident := reachable.evident Network.within_persistent honest
  obtain ⟨quorum, backed⟩ := evident.completed completed
  refine ⟨_, quorum, fun voter listed correct => .inr ?_⟩
  obtain ⟨timeout, verified, view, rfl⟩ := backed voter listed
  obtain ⟨valid, available⟩ := evident.mem verified
  obtain ⟨made, logged, sameView, _⟩ := reachable.timedOut_of_arrived
    Network.within_persistent apart (fun _ hashed => hashed)
    ⟨id, honest, _, verified, by simp [Event.digested]⟩ honest valid
    (available.imp_left fun arrives => arrives.1.1) correct
  exact ⟨made, logged, sameView.trans view⟩

theorem Network.Reachable.acted_of_verified
    (reachable : network.Reachable network.Within guard system)
    (apart : Set.InjOn (hashOf (B := B)) (network.digested system)) (honest : network.Honest id)
    {tc : TC B} (verified : Event.verifiedTc tc ∈ (system id).worker.log) :
    Acted network system tc.view := by
  have available : TcsAvailable (Policy.only (network.Within system)) (system id).worker := by
    apply (reachable.replica Network.within_persistent honest).invariant
      (Policy.only_meets (network.Within system))
    · intro client queue _ before event after split
      simp [ConsensusWorker.new] at split
    · intro worker next act available
      exact available.act act
  have passed : tc.verify network.authorities = .ok () :=
    (reachable.evident Network.within_persistent honest).mem verified
  obtain ⟨before, earlier, (⟨⟨gossiped | unforged, _⟩, inside⟩ | own)⟩ := available.mem verified
  · obtain ⟨sender, force, sending, sent⟩ := gossiped
    have completed := (reachable.evident Network.within_persistent sending).mem sent
    exact reachable.acted_of_completed apart sending completed
  · have sound : tc.Sound network.authorities := by
      refine TC.sound_iff.mpr ⟨passed, fun vote member => ?_⟩
      obtain ⟨distinct, many, valid⟩ := TC.verify_ok_iff.mp passed
      by_contra stranger
      exact inside tc rfl ⟨distinct, many, valid, vote, member, stranger⟩
    refine ⟨tc.votes.map Prod.fst, sound.1, fun voter listed correct => .inr ?_⟩
    obtain ⟨entry, member, rfl⟩ := List.mem_map.mp listed
    obtain ⟨event, logged, signed⟩ := unforged entry.1 entry.2.1
      (hashOf (timeoutPreimage tc.view entry.2.2)) (List.mem_map_of_mem member) correct
      (sound.2 entry member)
    have own (bytes : List UInt8) (found : bytes ∈ event.preimages) :
        bytes ∈ network.digested system :=
      network.preimages_subset system ⟨_, correct, event, logged, found⟩
    have among : timeoutPreimage tc.view entry.2.2 ∈ network.digested system :=
      ⟨id, honest, _, verified, List.mem_map_of_mem member⟩
    obtain ⟨timeout, rfl, view, _⟩ := Event.timedOut_of_signed apart own among signed
    exact ⟨timeout, logged, view⟩
  · exact reachable.acted_of_completed apart honest (earlier own)

/-- A view is left with a certificate of the view itself. -/
theorem Network.Reachable.left_with_certificate
    (reachable : network.Reachable network.Inside guard system) (honest : network.Honest id)
    {view : ViewNumber} (positive : 0 < view) (passed : view < (system id).worker.state.view) :
    (∃ qc, HeldQc (system id).worker.log qc ∧ qc.view = view ∧
      qc.verify network.authorities = .ok ()) ∨
    ∃ tc, HeldTc (system id).worker.log tc ∧ tc.view = view := by
  have evident := reachable.evident Network.inside_persistent honest
  have paced : Paced (system id).worker :=
    Replica.Run.paced ((reachable.replica Network.inside_persistent honest).mono
      (fun _ _ => trivial) fun _ _ => trivial)
  have single (source target : ViewNumber)
      (moved : Event.advanced source target ∈ (system id).worker.log) :
      target = source ∨ source.next? = some target := by
    rcases evident.mem moved with same | ⟨following, _⟩
    · exact .inl same
    · exact .inr following
  obtain ⟨target, moved, changed⟩ := replayView_passed paced.replayed single view passed
  rcases evident.mem moved with same | ⟨_, ⟨qc, held, rfl⟩ | ⟨tc, held, rfl⟩⟩
  · exact absurd same changed
  · rcases evident.heldQc held with exempt | certified
    · rw [(QC.eq_default_iff.mp exempt).2] at positive
      exact absurd positive (UInt64.lt_irrefl _)
    · exact .inl ⟨qc, held, rfl, certified⟩
  · exact .inr ⟨tc, held, rfl⟩

/-- Faulty authorities cannot drag a replica ahead. In every run in which no
certificate is completed by keys of outsiders, for each view but the first that
an honest replica has passed there is a quorum of authorities whose honest
members have reached that view, and have voted or timed out in it. -/
theorem views_backed (reachable : network.Reachable network.Within guard system)
    (apart : Set.InjOn (hashOf (B := B)) (network.digested system)) (honest : network.Honest id)
    {view : ViewNumber} (positive : 0 < view) (passed : view < (system id).worker.state.view) :
    ∃ voters, Quorum network.authorities.ids voters ∧ ∀ voter ∈ voters, network.Honest voter →
      view ≤ (system voter).worker.state.view ∧
        (VotedIn (system voter).worker.log view ∨ TimedOutIn (system voter).worker.log view) := by
  have inside : network.Reachable network.Inside guard system :=
    reachable.mono (fun _ _ present => present.1) fun _ holds => holds
  have evident := inside.evident Network.inside_persistent honest
  have acted : Acted network system view := by
    rcases inside.left_with_certificate honest positive passed with
      ⟨qc, held, rfl, certified⟩ | ⟨tc, verified | completed, rfl⟩
    · obtain ⟨voters, quorum, voted⟩ := inside.voters_of_held apart
        (fun _ _ _ member => member) honest (fun _ member => member) evident.events held certified
      exact ⟨voters, quorum, fun voter listed correct => .inl (voted voter listed correct)⟩
    · exact reachable.acted_of_verified apart honest verified
    · exact reachable.acted_of_completed apart honest completed
  obtain ⟨voters, quorum, active⟩ := acted
  refine ⟨voters, quorum, fun voter listed correct => ⟨?_, active voter listed correct⟩⟩
  rcases active voter listed correct with voted | ⟨timeout, logged, rfl⟩
  · apply UInt64.not_lt.mp
    intro behind
    exact (inside.disciplined Network.inside_persistent correct).unvoted behind voted
  · exact inside.timedOutReached Network.inside_persistent correct timeout logged

theorem Network.within_delivers :
    network.Delivers guard (network.Within (C := C)) (ConsensusMessage.byFaulty network) where
  gossiped system message reachable sent := by
    have inside : network.Reachable network.Inside guard system :=
      reachable.mono (fun _ _ present => present.1) fun _ holds => holds
    refine ⟨inside.inside_of_gossiped sent, fun tc same outside => ?_⟩
    subst same
    obtain ⟨sender, force, sending, gossiped⟩ := sent
    have evident := reachable.evident Network.within_persistent sending
    obtain ⟨_, _, backed⟩ := evident.mem (evident.mem gossiped)
    obtain ⟨entry, listed, stranger⟩ := outside.2.2.2
    obtain ⟨timeout, verified, _, voter⟩ := backed entry listed
    rw [← voter] at stranger
    exact stranger (Timeout.verify_ok_iff.mp (evident.mem verified).1).1.1
  forged system message made := by
    have inside : network.Delivers guard network.Inside _ := Network.inside_delivers
    refine ⟨inside.forged system message made, fun tc same outside => ?_⟩
    subst same
    obtain ⟨entry, listed, stranger⟩ := outside.2.2.2
    have among := List.all_eq_true.mp made _ (List.mem_map_of_mem listed)
    exact stranger (of_decide_eq_true among).1

theorem Sample.outvoted_within : (Sample.network 4 {1}).Reachable (Sample.network 4 {1}).Within
    (fun _ => True) Sample.outvoted :=
  .execute Network.within_delivers (fun _ => true) (fun _ _ => trivial) 20 _ _
    (Sample.cluster_reachable 4 {1} _ _ _) (by decide +kernel)

/-- With one of four authorities faulty the first replica has passed view 3. -/
theorem views_backed_four :
    Sample.Doubled Sample.outvoted ∧ 3 < (Sample.outvoted (0 : Fin 8)).worker.state.view ∧
    ∃ voters, Quorum (Sample.authorities 4).ids voters ∧
      ∀ voter ∈ voters, (Sample.network 4 {1}).Honest voter →
        3 ≤ (Sample.outvoted voter).worker.state.view ∧
          (VotedIn (Sample.outvoted voter).worker.log 3 ∨
            TimedOutIn (Sample.outvoted voter).worker.log 3) := by
  have checked : Sample.outvotedCluster.covers (Sample.network 4 {1}) = true ∧
      hashesDiffer (B := Sample) Sample.outvotedCluster.digested = true ∧
      3 < (Sample.outvoted (0 : Fin 8)).worker.state.view := by
    decide +kernel
  obtain ⟨covered, differ, passed⟩ := checked
  exact ⟨Sample.outvoted_doubled, passed, views_backed Sample.outvoted_within
    ((injOn_of_hashesDiffer differ).mono (Cluster.digested_subset covered _)) (by decide)
    (by decide) passed⟩

/-- A replica that is behind cannot be brought forward by those ahead. With fewer
than a third of the authorities faulty, an honest replica that has passed a view
has itself held a QC of that very view, or verified the timeouts of a quorum for
it, one by one; a TC has helped only if no honest replica has completed it. -/
theorem views_left_firsthand (few : 3 * network.faulty.card < network.authorities.length)
    (reachable : network.Reachable network.Inside guard system)
    (binding : ∀ (signature : AuthoritySignature B) (digest other : Hash B) (id : AuthorityId B),
      BlockT.verify signature digest id = true → BlockT.verify signature other id = true →
        digest = other)
    {view : ViewNumber} (apart : Set.InjOn (hashOf (B := B))
      (insert (timeoutPreimage view view) (network.digested system)))
    (honest : network.Honest id) (positive : 0 < view)
    (passed : view < (system id).worker.state.view) :
    (∃ qc, HeldQc (system id).worker.log qc ∧ qc.view = view ∧
      qc.verify network.authorities = .ok ()) ∨
    (∃ voters, Quorum network.authorities.ids voters ∧ ∀ voter ∈ voters, ∃ timeout,
      Event.verifiedTimeout timeout ∈ (system id).worker.log ∧ timeout.view = view ∧
        timeout.voter = voter) ∨
    ∃ tc, Event.verifiedTc tc ∈ (system id).worker.log ∧ tc.view = view ∧
      ∀ other, network.Honest other → Event.aggregatedTc tc ∉ (system other).worker.log := by
  have evident := reachable.evident Network.inside_persistent honest
  rcases reachable.left_with_certificate honest positive passed with
    certified | ⟨tc, verified | completed, rfl⟩
  · exact .inl certified
  · refine .inr (.inr ⟨tc, verified, rfl, fun other correct completed => ?_⟩)
    exact reachable.completed_refuted few binding apart correct completed positive
      (evident.mem verified)
  · exact .inr (.inl ⟨_, evident.completed completed⟩)

/-- With one of four authorities faulty the first replica has passed view 1. -/
theorem views_left_firsthand_four :
    Sample.Doubled Sample.outvoted ∧ 1 < (Sample.outvoted (0 : Fin 8)).worker.state.view ∧
    ((∃ qc, HeldQc (Sample.outvoted (0 : Fin 8)).worker.log qc ∧ qc.view = 1 ∧
        qc.verify (Sample.authorities 4) = .ok ()) ∨
      (∃ voters, Quorum (Sample.authorities 4).ids voters ∧ ∀ voter ∈ voters, ∃ timeout,
        Event.verifiedTimeout timeout ∈ (Sample.outvoted (0 : Fin 8)).worker.log ∧
          timeout.view = 1 ∧ timeout.voter = voter) ∨
      ∃ tc, Event.verifiedTc tc ∈ (Sample.outvoted (0 : Fin 8)).worker.log ∧ tc.view = 1 ∧
        ∀ other, (Sample.network 4 {1}).Honest other →
          Event.aggregatedTc tc ∉ (Sample.outvoted other).worker.log) := by
  have checked : Sample.outvotedCluster.covers (Sample.network 4 {1}) = true ∧
      hashesDiffer (B := Sample)
        (timeoutPreimage 1 1 :: Sample.outvotedCluster.digested) = true ∧
      1 < (Sample.outvoted (0 : Fin 8)).worker.state.view := by
    decide +kernel
  obtain ⟨covered, differ, passed⟩ := checked
  exact ⟨Sample.outvoted_doubled, passed, views_left_firsthand (by decide) Sample.outvoted_reachable
    (fun _ _ _ _ => Sample.verify_binding) (Cluster.insert_apart covered differ _) (by decide)
    (by decide) passed⟩

end Hotstuff
