import Hotstuff.Consensus.Evidence
import Hotstuff.Consensus.SampleNode

/-! How certificates move the view: one view at a time, only with a certificate
of the view that is left, and never past a certificate from further ahead. -/

namespace Hotstuff

open ConsensusWorker

variable {B C : Type} [BlockT B]

/-- Follow the recorded view changes from view 0; each must start where the one
before it ended. -/
def replayView (log : List (Event B)) : Option ViewNumber :=
  log.foldlM (fun view event =>
    match event with
    | .advanced source target => if source = view then some target else none
    | _ => some view) 0

theorem replayView_concat {log : List (Event B)} {event : Event B} {view : ViewNumber}
    (replayed : replayView log = some view) :
    replayView (log ++ [event]) =
      match event with
      | .advanced source target => if source = view then some target else none
      | _ => some view := by
  unfold replayView at replayed ⊢
  rw [List.foldlM_append, replayed]
  cases event <;> simp

theorem replayView_append_some {log events : List (Event B)} {view : ViewNumber}
    (replayed : replayView (log ++ events) = some view) :
    ∃ earlier, replayView log = some earlier := by
  unfold replayView at replayed ⊢
  rw [List.foldlM_append] at replayed
  obtain ⟨earlier, same, _⟩ := Option.bind_eq_some_iff.mp replayed
  exact ⟨earlier, same⟩

/-- A recorded view change starts at the view reached before it. -/
theorem replayView_source {before after : List (Event B)} {source target view : ViewNumber}
    (replayed : replayView (before ++ .advanced source target :: after) = some view) :
    replayView before = some source := by
  rw [List.append_cons] at replayed
  obtain ⟨middle, reached⟩ := replayView_append_some replayed
  obtain ⟨earlier, same⟩ := replayView_append_some reached
  rw [replayView_concat same] at reached
  simp only at reached
  split at reached
  · rename_i equal
    rw [equal]
    exact same
  · cases reached

/-- What every recorded view change keeps, and no other event touches, holds of
the log and the view it leads to. -/
theorem replayView_rec {motive : List (Event B) → ViewNumber → Prop}
    {allowed : ViewNumber → ViewNumber → Prop} {log : List (Event B)} {view : ViewNumber}
    (start : motive [] 0)
    (advance : ∀ log source target, allowed source target → motive log source →
      motive (log ++ [.advanced source target]) target)
    (other : ∀ log view event, (∀ source target, event ≠ .advanced source target) →
      motive log view → motive (log ++ [event]) view)
    (replayed : replayView log = some view)
    (changes : ∀ source target, Event.advanced source target ∈ log → allowed source target) :
    motive log view := by
  induction log using List.reverseRecOn generalizing view with
  | nil =>
    cases replayed
    exact start
  | append_singleton log event ih =>
    obtain ⟨before, reached⟩ := replayView_append_some replayed
    rw [replayView_concat reached] at replayed
    have earlier := ih reached fun source target member =>
      changes source target (List.mem_append_left _ member)
    cases event with
    | advanced source target =>
      simp only at replayed
      split at replayed
      · rename_i same
        cases replayed
        rw [← same] at earlier
        exact advance log source view
          (changes source view (List.mem_append_right _ (List.mem_singleton_self _))) earlier
      · cases replayed
    | _ =>
      cases replayed
      exact other log _ _ (fun _ _ same => by cases same) earlier

variable {worker next : ConsensusWorker B C}

/-- The gossip validator and the record of view changes follow the view. -/
structure Paced (worker : ConsensusWorker B C) : Prop where
  network : worker.network = worker.state.view
  replayed : replayView worker.log = some worker.state.view

theorem Paced.emit (paced : Paced worker) (event : Event B)
    (quiet : ∀ source target, event ≠ .advanced source target) : Paced (worker.emit event) where
  network := paced.network
  replayed := by
    rw [emit_log, replayView_concat paced.replayed]
    cases event with
    | advanced source target => exact absurd rfl (quiet source target)
    | _ => rfl

theorem Paced.moved (paced : Paced worker) (view : ViewNumber) : Paced (worker.moved view) where
  network := rfl
  replayed := by
    rw [show (worker.moved view).log = worker.log ++ [.advanced worker.state.view view] from rfl,
      replayView_concat paced.replayed]
    simp [ConsensusWorker.moved]

theorem Paced.accepted (paced : Paced worker) (view : ViewNumber) (qc : QC B) :
    Paced (worker.accepted view qc) where
  network := by simp [ConsensusWorker.accepted]
  replayed := by
    have same := (((paced.moved view).emit .resetTimer (by simp)).emit (.acceptedQc qc)
      (by simp)).replayed
    simp only [emit_log, emit_state, ConsensusWorker.moved, List.append_assoc,
      List.cons_append, List.nil_append] at same
    simpa [ConsensusWorker.accepted] using same

theorem Paced.of_state {other : ConsensusWorker B C} (paced : Paced worker)
    (network : other.network = worker.network) (log : other.log = worker.log)
    (view : other.state.view = worker.state.view) : Paced other where
  network := by rw [network, view, paced.network]
  replayed := by rw [log, view, paced.replayed]

variable [ClientForHotstuff B C] {policy : Policy B} {keystore : Keystore B}
  {authorities : AuthorityList B}

theorem Paced.act (act : Act policy worker next) (paced : Paced worker) : Paced next := by
  cases act with
  | calm act =>
    cases act with
    | emit event enabled =>
      refine paced.emit event fun source target same => ?_
      subst same
      exact enabled
    | late qc _ _ _ => exact paced.emit _ (by simp)
    | current qc view _ _ _ _ => exact paced.accepted view qc
    | ahead qc _ _ _ => exact paced.accepted _ qc
    | pass tc view _ _ _ => exact paced.moved view
    | stay => exact paced.moved _
    | _ => exact paced.of_state rfl rfl rfl
  | vote proposal vote marked _ _ _ made =>
    obtain ⟨view, rfl⟩ := makeVote_static made
    refine Paced.emit ?_ (.voted worker.state.view proposal vote) (by simp)
    exact paced.of_state rfl rfl rfl
  | propose payload tc proposal _ => exact paced.emit _ (by simp)

/-- An act leaves the view or moves it on by one. -/
theorem Act.view (act : Act policy worker next) :
    next.state.view = worker.state.view ∨ worker.state.view.next? = some next.state.view := by
  cases act with
  | calm act =>
    cases act with
    | current qc view _ _ _ following =>
      exact .inr (by simpa [ConsensusWorker.accepted] using following)
    | ahead qc _ _ _ => exact .inl (by simp [ConsensusWorker.accepted])
    | pass tc view _ _ following => exact .inr following
    | _ => exact .inl rfl
  | vote proposal vote marked _ _ _ made =>
    obtain ⟨view, rfl⟩ := makeVote_static made
    exact .inl rfl
  | propose => exact .inl rfl

theorem Act.view_le (act : Act policy worker next) : worker.state.view ≤ next.state.view := by
  rcases act.view with same | following
  · rw [same]
    exact UInt64.le_refl _
  · have above := ViewNumber.next?_eq_some.mp following
    rw [UInt64.le_iff_toNat_le]
    omega

theorem acts_view_le (acts : Relation.ReflTransGen (Act policy) worker next) :
    worker.state.view ≤ next.state.view :=
  Command.keep_along (fun now => worker.state.view ≤ now.state.view) acts
    (fun _ _ act below => UInt64.le_trans below act.view_le) (UInt64.le_refl _)

/-- What a worker must hold to leave a view: a QC of that view that verifies, a
verified TC of that view, or verified timeouts of that view by a quorum. -/
def Justified (authorities : AuthorityList B) (past : List (Event B)) (view : ViewNumber) : Prop :=
  (∃ qc, HeldQc past qc ∧ qc.view = view ∧ qc.verify authorities = .ok ()) ∨
  (∃ tc, Event.verifiedTc tc ∈ past ∧ tc.view = view ∧ tc.verify authorities = .ok ()) ∨
  ∃ voters, Quorum authorities.ids voters ∧ ∀ voter ∈ voters, ∃ timeout,
    Event.verifiedTimeout timeout ∈ past ∧ timeout.view = view ∧ timeout.voter = voter ∧
      timeout.verify authorities = .ok ()

/-- An aggregated QC passes the check that other replicas run on it. -/
theorem Evident.aggregatedQc (evident : Evident policy keystore authorities worker)
    (formed : Event.aggregatedQc qc ∈ worker.log) : qc.verify authorities = .ok () := by
  obtain ⟨large, distinct, backed⟩ := evident.mem formed
  refine QC.verify_ok_iff.mpr ⟨distinct, large, fun entry listed => ?_⟩
  obtain ⟨vote, verified, _, digest, voter, signature⟩ := backed entry listed
  obtain ⟨_, signed, present, valid⟩ := Vote.verify_ok_iff.mp (evident.mem verified).1
  cases signature.symm.trans present
  rw [← digest, ← voter]
  exact valid

/-- A held QC verifies, unless it is the default one. -/
theorem Evident.heldQc (evident : Evident policy keystore authorities worker)
    (held : HeldQc worker.log qc) : qc.eq QC.default = true ∨ qc.verify authorities = .ok () := by
  rcases held with ⟨proposal, verified, rfl⟩ | ⟨timeout, verified, rfl⟩ | formed
  · have checked := ConsensusState.verifyProposal_ok_iff.mp (evident.mem verified).1
    exact (Proposal.verify_ok_iff.mp checked.2).2
  · exact (Timeout.verify_ok_iff.mp (evident.mem verified).1).2
  · exact .inr (evident.aggregatedQc formed)

/-- A recorded view change is justified by what the worker held before it. -/
theorem Evident.justified (evident : Evident policy keystore authorities worker)
    {before after : List (Event B)} {source target : ViewNumber}
    (split : worker.log = before ++ .advanced source target :: after) :
    target = source ∨ (source.next? = some target ∧
      (Justified authorities before source ∨
        (source = 0 ∧ ∃ qc, HeldQc before qc ∧ qc.eq QC.default = true))) := by
  have inside : before ⊆ worker.log := by
    rw [split]
    exact List.subset_append_left _ _
  have past : Past (Evidence policy keystore authorities) before := by
    have whole := evident.events
    rw [split] at whole
    exact whole.of_append
  rcases evident.events before _ after split with
    same | ⟨following, ⟨qc, held, view⟩ | ⟨tc, held, view⟩⟩
  · exact .inl same
  · refine .inr ⟨following, ?_⟩
    rcases evident.heldQc (held.mono inside) with exempt | valid
    · exact .inr ⟨view ▸ (QC.eq_default_iff.mp exempt).2, qc, held, exempt⟩
    · exact .inl (.inl ⟨qc, held, view, valid⟩)
  · refine .inr ⟨following, .inl (.inr ?_)⟩
    rcases held with verified | formed
    · exact .inl ⟨tc, verified, view, evident.mem (inside verified)⟩
    · obtain ⟨earlier, within, large, distinct, backed⟩ := past.mem formed
      have known (voter : AuthorityId B) (listed : voter ∈ tc.votes.map Prod.fst) :
          ∃ timeout, Event.verifiedTimeout timeout ∈ before ∧ timeout.view = source ∧
            timeout.voter = voter ∧ timeout.verify authorities = .ok () := by
        obtain ⟨entry, present, rfl⟩ := List.mem_map.mp listed
        obtain ⟨timeout, verified, sameView, voter⟩ := backed entry present
        exact ⟨timeout, within verified, sameView.trans view, voter,
          (evident.mem (inside (within verified))).1⟩
      refine .inr ⟨tc.votes.map Prod.fst, ⟨distinct, ?_, by simpa using large⟩, known⟩
      intro voter listed
      obtain ⟨timeout, _, _, rfl, checked⟩ := known voter listed
      exact (Timeout.verify_ok_iff.mp checked).1.1

theorem Replica.Run.paced {replica : Replica B C}
    (run : Replica.Run keystore authorities replica) : Paced replica.worker :=
  run.invariant (fun _ _ _ => ⟨rfl, rfl⟩) fun _ _ act paced => paced.act act

/-- Every recorded change of the view goes one view on, or nowhere. -/
theorem Replica.Run.single_changes {replica : Replica B C}
    (run : Replica.Run keystore authorities replica) (source target : ViewNumber)
    (member : Event.advanced source target ∈ replica.worker.log) :
    target = source ∨ source.next? = some target := by
  have evident : Evident Policy.any keystore authorities replica.worker :=
    run.evident fun state _ call _ => Policy.any_admits state.worker call
  rcases evident.mem member with same | ⟨following, _⟩
  · exact .inl same
  · exact .inr following

/-- The view never decreases, every single change of it goes from one view to
the next, and beyond view 0 only with a QC, a TC or a quorum of timeouts of the
view that is left; the gossip validator is always at the same view. -/
theorem justified_view_changes {replica : Replica B C}
    (run : Replica.Run keystore authorities replica) :
    replica.worker.network = replica.worker.state.view ∧
    replayView replica.worker.log = some replica.worker.state.view ∧
    (∀ before source target after,
      replica.worker.log = before ++ .advanced source target :: after →
        replayView before = some source ∧
        (target = source ∨ (source.next? = some target ∧
          (Justified authorities before source ∨
            (source = 0 ∧ ∃ qc, HeldQc before qc ∧ qc.eq QC.default = true))))) ∧
    ∀ following, Replica.Step (fun _ => True) replica following →
      replica.worker.state.view ≤ following.worker.state.view ∧
        ∃ events, following.worker.log = replica.worker.log ++ events := by
  have evident : Evident Policy.any keystore authorities replica.worker :=
    run.evident fun state _ call _ => Policy.any_admits state.worker call
  have paced := Replica.Run.paced run
  refine ⟨paced.network, paced.replayed, ?_, ?_⟩
  · intro before source target after split
    have replayed := paced.replayed
    rw [split] at replayed
    exact ⟨replayView_source replayed, evident.justified split⟩
  · intro following step
    exact ⟨acts_view_le step.follows, acts_log_grows step.follows⟩

/-- The quorum of timeouts that takes replica 0 of four from view 1 to view 2. -/
theorem justified_view_changes_four :
    Sample.timedOut.worker.network = 2 ∧
      ∃ before after, Sample.timedOut.worker.log = before ++ .advanced 1 2 :: after ∧
        Justified (Sample.authorities 4) before 1 := by
  have changes := justified_view_changes Sample.timedOut_run
  have moved : Event.advanced 1 2 ∈ Sample.timedOut.worker.log := by decide +kernel
  obtain ⟨before, after, split⟩ := List.append_of_mem moved
  refine ⟨by decide +kernel, before, after, split, ?_⟩
  rcases changes.2.2.1 before 1 2 after split with ⟨_, same | ⟨_, justified | ⟨zero, _⟩⟩⟩
  · exact absurd same (by decide)
  · exact justified
  · exact absurd zero (by decide)

theorem Replica.Resumes.view_le {replica following : Replica B C}
    (resumes : Replica.Resumes replica following) :
    replica.worker.state.view ≤ following.worker.state.view := by
  obtain ⟨call, running, rfl⟩ := resumes
  exact acts_view_le (Replica.Step.follows (.resume running))

/-- The certificates a call presents, each with the view it is compared with: that
of the worker, or for a TC completed by a timeout the one its high QC leads to. -/
inductive Presents (worker : ConsensusWorker B C) : Call B → ViewNumber → ViewNumber → Prop where
  | qc (accepts : Accepts worker call qc) : Presents worker call qc.view worker.state.view
  | tc (verified : worker.state.verifyTc tc = .ok ()) :
      Presents worker (.tc tc) tc.view worker.state.view
  | formed (completes : CompletesTc worker timeout tc middle) :
      Presents worker (.timeout timeout) tc.view middle

section Passing

variable {ending : Ending B C} {proposal : Proposal B} {timeout : Timeout B} {vote : Vote B}
  {qc : QC B} {tc : TC B}

omit [ClientForHotstuff B C] in
theorem FormedTcOutcome.passes (outcome : FormedTcOutcome worker tc ending) :
    Leaps worker.state.view tc.view ending.2.state.view ∨ ending.1 = .error .panic := by
  cases outcome with
  | overflow _ => exact .inr rfl
  | leaderless passed passes _ => exact .inr rfl
  | follower passed passes _ => exact .inl passes.leaps
  | leader passed passes _ => exact .inl passes.leaps

omit [ClientForHotstuff B C] in
/-- The high QC of a timeout that was heard has moved the view first. -/
theorem TimeoutOutcome.accepts (outcome : TimeoutOutcome worker timeout ending)
    (reached : worker.state.view ≤ timeout.view)
    (verified : worker.state.verifyTimeout timeout = .ok ()) :
    (∃ middle, Leaps worker.state.view timeout.highQc.view middle ∧
      middle ≤ ending.2.state.view) ∨ ending.1 = .error .panic := by
  cases outcome with
  | late late => exact absurd reached (UInt64.not_le.mpr late)
  | refused reason _ failed => cases verified.symm.trans failed
  | overflow _ _ _ => exact .inr rfl
  | uncounted accepted _ hears _ => exact .inl ⟨_, hears.handled.leaps, UInt64.le_refl _⟩
  | counted accepted hears _ => exact .inl ⟨_, hears.handled.leaps, UInt64.le_refl _⟩
  | formed accepted tc _ hears _ rest =>
    refine rest.passes.imp_left fun leaps => ⟨_, hears.handled.leaps, leaps.le⟩

omit [ClientForHotstuff B C] in
theorem CastOutcome.view (outcome : CastOutcome worker proposal ending) :
    ending.2.state.view = worker.state.view := by
  cases outcome with
  | unmade marked made =>
    obtain ⟨view, rfl⟩ := makeVote_static made
    rfl
  | stranded vote marked made _ =>
    obtain ⟨view, rfl⟩ := makeVote_static made
    rfl
  | own vote marked leader made _ _ =>
    obtain ⟨view, rfl⟩ := makeVote_static made
    rfl
  | sent vote marked leader made _ _ =>
    obtain ⟨view, rfl⟩ := makeVote_static made
    rfl

/-- Behind its QC a proposal leaves the view alone. -/
theorem ProposalOutcome.accepts (outcome : ProposalOutcome worker proposal ending)
    (known : HasPayload worker proposal)
    (verified : worker.state.verifyProposal proposal = .ok ()) :
    Leaps worker.state.view proposal.qc.view ending.2.state.view ∨ ending.1 = .error .panic := by
  have leaps {accepted : ConsensusWorker B C} (taken : Takes worker proposal accepted) :
      Leaps worker.state.view proposal.qc.view (accepted.delayed proposal.tc).state.view := by
    rw [delayed_state]
    exact taken.handled.leaps
  cases outcome with
  | unreadable reason real failed =>
    rcases known with empty | present
    · exact absurd empty real
    · cases present.symm.trans failed
  | unknown real absent =>
    rcases known with empty | present
    · exact absurd empty real
    · cases present.symm.trans absent
  | refused fault _ failed => cases verified.symm.trans failed
  | overflow _ _ _ => exact .inr rfl
  | unsaved accepted _ taken _ => exact .inl (leaps taken)
  | lastView accepted _ _ taken _ _ _ => exact .inr rfl
  | elsewhere accepted settled taken _ commits _ =>
    refine .inl ?_
    rw [commits.state]
    exact leaps taken
  | reached accepted settled _ taken _ commits _ casts =>
    refine .inl ?_
    rw [casts.view, commits.state]
    exact leaps taken

theorem FormedQcOutcome.accepts (outcome : FormedQcOutcome worker qc ending) :
    Leaps worker.state.view qc.view ending.2.state.view ∨ ending.1 = .error .panic := by
  have leaps {settled chosen : ConsensusWorker B C} {payload : Option (Payload B)}
      (handled : HandlesQc worker qc settled) (offers : Offers settled payload chosen) :
      Leaps worker.state.view qc.view chosen.state.view := by
    rw [offers.state]
    exact handled.leaps
  cases outcome with
  | overflow _ => exact .inr rfl
  | leaderless settled _ _ => exact .inr rfl
  | follower settled handled _ => exact .inl handled.leaps
  | nothing settled chosen handled _ offers => exact .inl (leaps handled offers)
  | withheld settled chosen payload handled _ offers _ => exact .inl (leaps handled offers)
  | unmade settled chosen payload _ handled _ offers _ _ =>
    have moved := leaps handled offers
    exact .inl moved
  | proposed settled chosen payload proposal handled _ offers _ _ =>
    have moved := leaps handled offers
    exact .inl moved

/-- The QC that a call accepts moves the view, unless the call panics. -/
theorem Outcome.accepts {call : Call B} (outcome : Outcome worker call ending)
    (accepts : Accepts worker call qc) :
    (∃ middle, Leaps worker.state.view qc.view middle ∧ middle ≤ ending.2.state.view) ∨
      ending.1 = .error .panic := by
  cases call with
  | proposal proposal =>
    obtain ⟨known, verified, rfl⟩ := accepts
    exact (ProposalOutcome.accepts outcome known verified).imp_left fun leaps =>
      ⟨_, leaps, UInt64.le_refl _⟩
  | timeout timeout =>
    obtain ⟨reached, verified, rfl⟩ := accepts
    exact TimeoutOutcome.accepts outcome reached verified
  | vote vote =>
    obtain ⟨verified, formed⟩ := accepts
    cases outcome with
    | refused reason failed => cases verified.symm.trans failed
    | uncounted reason _ failed => cases formed.symm.trans failed
    | counted _ missed => cases formed.symm.trans missed
    | formed other _ _ found rest =>
      cases formed.symm.trans found
      exact rest.accepts.imp_left fun leaps => ⟨_, leaps, UInt64.le_refl _⟩
  | localTimer => exact absurd accepts id
  | tc tc => exact absurd accepts id
  | generateProposal tc => exact absurd accepts id

/-- A call passes the certificates it presents that are not ahead, or panics. -/
theorem Outcome.passes {call : Call B} {certificate reached : ViewNumber}
    (outcome : Outcome worker call ending)
    (presents : Presents worker call certificate reached) (below : certificate ≤ reached) :
    certificate < ending.2.state.view ∨ ending.1 = .error .panic := by
  cases presents with
  | qc accepts =>
    refine (outcome.accepts accepts).imp_left fun passes => ?_
    obtain ⟨middle, leaps, above⟩ := passes
    exact UInt64.lt_of_lt_of_le (leaps.passes_iff.mpr below) above
  | tc verified =>
    cases outcome with
    | refused reason failed => cases verified.symm.trans failed
    | overflow _ _ => exact .inr rfl
    | leaderless passed _ passes _ => exact .inr rfl
    | follower passed _ passes _ => exact .inl (passes.leaps.passes_iff.mpr below)
    | leader passed _ passes _ => exact .inl (passes.leaps.passes_iff.mpr below)
  | formed completes =>
    obtain ⟨current, verified, formed, leaps⟩ := completes
    cases outcome with
    | late late => exact absurd current (UInt64.not_le.mpr late)
    | refused reason _ failed => cases verified.symm.trans failed
    | overflow _ _ _ => exact .inr rfl
    | uncounted accepted reason hears failed =>
      cases (hears.addTimeout.symm.trans failed).symm.trans formed
    | counted accepted hears missed =>
      cases (hears.addTimeout.symm.trans missed).symm.trans formed
    | formed accepted other _ hears found rest =>
      cases (hears.addTimeout.symm.trans found).symm.trans formed
      rw [← hears.handled.leaps.unique leaps] at below
      exact rest.passes.imp_left fun passes => passes.passes_iff.mpr below

end Passing

/-- A replica that has panicked takes no further call. -/
theorem Replica.Resumes.stays_halted {replica following : Replica B C}
    (rest : Relation.ReflTransGen Replica.Resumes replica following)
    (halted : replica.control = .halted) : following.control = .halted := by
  rcases rest.cases_head with rfl | ⟨next, ⟨call, running, _⟩, _⟩
  · exact halted
  · cases halted.symm.trans running

theorem Replica.Resumes.views_le {replica following : Replica B C}
    (rest : Relation.ReflTransGen Replica.Resumes replica following) :
    replica.worker.state.view ≤ following.worker.state.view :=
  Command.keep_along (fun now => replica.worker.state.view ≤ now.worker.state.view) rest
    (fun _ _ resumes below => UInt64.le_trans below resumes.view_le) (UInt64.le_refl _)

/-- A certificate is passed by the view exactly when the view had reached it:
by `handle_qc`, by `handle_tc`, and by a TC completed in `handle_timeout`, there
counted from the view that the timeout's own high QC leads to. The last two are
cut before their call of `generate_proposal`. A handler with all the calls it
ends with never takes the view back, and passes each certificate that the view
had reached, unless it panics. -/
theorem view_passes_certificate_iff (worker : ConsensusWorker B C) :
    (∀ qc next, handleQc qc worker = (.ok (), next) →
      (qc.view < next.state.view ↔ qc.view ≤ worker.state.view)) ∧
    (∀ tc call next, handleTc tc worker = (.ok call, next) →
      (tc.view < next.state.view ↔ tc.view ≤ worker.state.view)) ∧
    (∀ timeout tc call next, worker.state.view ≤ timeout.view →
      (worker.state.addTimeout timeout).1 = .ok (some tc) →
      handleTimeout timeout worker = (.ok call, next) →
      ∃ middle, Leaps worker.state.view timeout.highQc.view middle ∧
        (tc.view < next.state.view ↔ tc.view ≤ middle)) ∧
    (∀ replica following : Replica B C,
      Relation.ReflTransGen Replica.Resumes replica following →
      replica.worker.state.view ≤ following.worker.state.view) ∧
    ∀ (replica following : Replica B C) call certificate reached,
      replica.worker = worker → replica.control = .running call →
      Relation.TransGen Replica.Resumes replica following →
      Presents worker call certificate reached → certificate ≤ reached →
      certificate < following.worker.state.view ∨ following.control = .halted := by
  refine ⟨?_, ?_, ?_, fun _ _ => Replica.Resumes.views_le, ?_⟩
  · intro qc next ran
    exact (HandlesQc.of_ran ran).leaps.passes_iff
  · intro tc call next ran
    have outcome := handleTc_outcome tc worker
    rw [ran] at outcome
    exact (outcome.leads call rfl).2.passes_iff
  · intro timeout tc call next reached formed ran
    have outcome := handleTimeout_outcome timeout worker
    rw [ran] at outcome
    rcases outcome.passes with ⟨_, none⟩ | ⟨other, middle, ⟨_, _, returned, leaps⟩, passes⟩
    · exact absurd ⟨tc, reached, formed⟩ none
    · cases formed.symm.trans returned
      exact ⟨middle, leaps, passes.passes_iff⟩
  · rintro replica following call certificate reached rfl running calls presents below
    obtain ⟨next, ⟨other, found, rfl⟩, rest⟩ := Relation.TransGen.head'_iff.mp calls
    cases running.symm.trans found
    rcases (handle_outcome call replica.worker).passes presents below with passed | panicked
    · exact .inl (UInt64.lt_of_lt_of_le passed (Replica.Resumes.views_le rest))
    · refine .inr (Replica.Resumes.stays_halted rest ?_)
      simp only [Replica.resume, panicked, Replica.controlAfter]

/-- A replica in view 0 is given a TC, a timeout with a QC and three timeouts of
view 5, and accepts them all. It ends in view 1. -/
theorem view_lags_behind_certificates :
    ∃ last : Replica Sample Sample.Client,
      Replica.Run (Sample.keystore 0) (Sample.authorities 4) last ∧ last.control = .idle ∧
      last.worker.state.view = 1 ∧
      Event.verifiedTc (Sample.tc 5 [1, 2, 3]) ∈ last.worker.log ∧
      Event.acceptedQc (Sample.qc (7 : BitVec 64) 5 [1, 2, 3]) ∈ last.worker.log ∧
      ∃ tc, Event.aggregatedTc tc ∈ last.worker.log ∧ tc.view = 5 := by
  refine ⟨(Sample.replica 4 0 []).session 9
    [.tc (Sample.tc 5 [1, 2, 3]),
      .timeout (Sample.timeout (Sample.qc (7 : BitVec 64) 5 [1, 2, 3]) 5 1),
      .timeout (Sample.timeout QC.default 5 2), .timeout (Sample.timeout QC.default 5 3)],
    (Sample.replica_run 4 0 []).session 9 _, ?_, ?_, ?_, ?_, ?_⟩
  · decide +kernel
  · decide +kernel
  · decide +kernel
  · decide +kernel
  · refine ⟨⟨5, [((1 : Fin 8), Sample.sign 1 (hashOf (timeoutPreimage 5 5)), 5),
      ((2 : Fin 8), Sample.sign 2 (hashOf (timeoutPreimage 5 0)), 5),
      ((3 : Fin 8), Sample.sign 3 (hashOf (timeoutPreimage 5 0)), 5)]⟩, ?_, rfl⟩
    decide +kernel

end Hotstuff
