import Hotstuff.Consensus.Counting
import Hotstuff.Consensus.Signers

/-! Views that are given up. A replica that has timed out in a view, and that
has verified the timeouts of a quorum for it, has left the view: whichever
timeout it gets last completes a TC. This rests on a replica not counting a
timeout of its own before it has reached the view. -/

namespace Hotstuff

open ConsensusWorker

variable {B C : Type} [BlockT B]

/-- A timeout of a view that is left is not looked at. -/
theorem TimeoutOutcome.of_late {worker : ConsensusWorker B C} {timeout : Timeout B}
    {ending : Ending B C} (outcome : TimeoutOutcome worker timeout ending)
    (late : timeout.view < worker.state.view) : ending = (.ok none, worker) := by
  have unreached := UInt64.not_le.mpr late
  cases outcome with
  | late _ => rfl
  | refused _ reached _ => exact absurd reached unreached
  | overflow reached _ _ => exact absurd reached unreached
  | uncounted _ _ hears _ => exact absurd hears.reached unreached
  | counted _ hears _ => exact absurd hears.reached unreached
  | formed _ _ _ hears _ _ => exact absurd hears.reached unreached

variable [ClientForHotstuff B C]

/-- A timeout of the current view that completes a TC ends the view. -/
theorem handleTimeout_leaves {worker : ConsensusWorker B C} {timeout : Timeout B} {tc : TC B}
    (current : worker.state.view = timeout.view)
    (verified : worker.state.verifyTimeout timeout = .ok ())
    (formed : (worker.state.addTimeout timeout).1 = .ok (some tc))
    (calm : (handleTimeout timeout worker).1 ≠ .error .panic) :
    timeout.view < (handleTimeout timeout worker).2.state.view := by
  have reached : worker.state.view ≤ timeout.view := by
    rw [current]
    exact UInt64.le_refl _
  have sameView : tc.view = timeout.view := (Aggregator.addTimeout_some formed).1
  rcases (handleTimeout_outcome timeout worker).accepts reached verified with
    ⟨middle, leaps, _⟩ | panic
  · have outcome : Outcome worker (.timeout timeout) (handleTimeout timeout worker) :=
      handleTimeout_outcome timeout worker
    have below : tc.view ≤ middle := by
      rw [sameView, ← current]
      exact leaps.le
    rw [← sameView]
    exact (outcome.passes (.formed ⟨reached, verified, formed, leaps⟩) below).resolve_right calm
  · exact absurd panic calm

omit [ClientForHotstuff B C] in
theorem timeoutVoters_concat (view : ViewNumber) (timeouts : List (Timeout B))
    (timeout : Timeout B) :
    timeoutVoters view (timeouts ++ [timeout]) =
      if timeout.view = view then insert timeout.voter (timeoutVoters view timeouts)
      else timeoutVoters view timeouts := by
  by_cases same : timeout.view = view
  · rw [if_pos same]
    ext voter
    simp [timeoutVoters, same]
  · simp [timeoutVoters, same]

omit [ClientForHotstuff B C] in
/-- The timeouts that a call records as verified: the one it is about, or none. -/
theorem Performs.timeouts {keystore : Keystore B} {authorities : AuthorityList B}
    {aggregator after : Aggregator B} {call : Call B} {trace : List (Event B)}
    {next : Option (Call B)}
    (script : Performs keystore authorities aggregator call trace next after) :
    verifiedTimeouts trace = [] ∨ ∃ timeout, call = .timeout timeout ∧
      timeout.verify authorities = .ok () ∧ verifiedTimeouts trace = [timeout] := by
  rw [← verifiedTimeouts_filter]
  rcases script with ⟨quiet, _⟩ | counts
  · rw [quiet.counts_nothing]
    exact .inl rfl
  · cases counts with
    | vote vote verified missed => exact .inl rfl
    | formedQc vote verified qc accepted formed handled =>
      left
      simp [List.filter_cons, Event.counts, handled.counts_nothing, verifiedTimeouts,
        Event.verifiedTimeout?]
    | reproposed vote verified qc accepted proposal formed handled bare =>
      left
      simp [List.filter_cons, Event.counts, handled.counts_nothing, verifiedTimeouts,
        Event.verifiedTimeout?]
    | timeout timeout verified accepted qc missed =>
      refine .inr ⟨timeout, rfl, verified, ?_⟩
      simp [List.filter_cons, Event.counts, qc.counts_nothing, verifiedTimeouts,
        Event.verifiedTimeout?]
    | formedTc timeout verified tc accepted moved qc formed move next ends =>
      refine .inr ⟨timeout, rfl, verified, ?_⟩
      simp [List.filter_cons, Event.counts, qc.counts_nothing, move.counts_nothing,
        verifiedTimeouts, Event.verifiedTimeout?]

omit [ClientForHotstuff B C] in
theorem mem_verifiedTimeouts {log : List (Event B)} {timeout : Timeout B} :
    timeout ∈ verifiedTimeouts log ↔ Event.verifiedTimeout timeout ∈ log := by
  unfold verifiedTimeouts
  rw [List.mem_filterMap]
  constructor
  · intro ⟨event, member, found⟩
    cases event with
    | verifiedTimeout other =>
      cases found
      exact member
    | _ => cases found
  · intro member
    exact ⟨_, member, rfl⟩

/-- The timeouts of an authority that its own replica has counted are of views
the replica has reached, and a view that it and a quorum have given up is left. -/
structure Leaving (authorities : AuthorityList B) (id : AuthorityId B)
    (worker : ConsensusWorker B C) : Prop where
  reached : ∀ timeout ∈ verifiedTimeouts worker.log, timeout.voter = id →
    timeout.view ≤ worker.state.view
  left : ∀ view, id ∈ timeoutVoters view (verifiedTimeouts worker.log) →
    authorities.length * 2 / 3 < (timeoutVoters view (verifiedTimeouts worker.log)).card →
      view < worker.state.view

section Steps

variable {authorities : AuthorityList B} {id : AuthorityId B}
  {worker next : ConsensusWorker B C}

omit [ClientForHotstuff B C] in
theorem Leaving.of_same (leaving : Leaving authorities id worker)
    (same : verifiedTimeouts next.log = verifiedTimeouts worker.log)
    (grown : worker.state.view ≤ next.state.view) : Leaving authorities id next where
  reached := by
    intro timeout member own
    rw [same] at member
    exact UInt64.le_trans (leaving.reached timeout member own) grown
  left := by
    intro view own quorum
    rw [same] at own quorum
    exact UInt64.lt_of_lt_of_le (leaving.left view own quorum) grown

omit [ClientForHotstuff B C] in
/-- A new voter with whom the counted ones are a quorum completes a TC. -/
theorem Counted.completes_timeout {timeout : Timeout B}
    (counted : Counted authorities worker.log worker.state.aggregator)
    (known : worker.state.authorities = authorities)
    (verified : timeout.verify authorities = .ok ())
    (unseen : timeout.voter ∉ timeoutVoters timeout.view (verifiedTimeouts worker.log))
    (quorum : authorities.length * 2 / 3 <
      (insert timeout.voter (timeoutVoters timeout.view (verifiedTimeouts worker.log))).card) :
    ∃ tc, (worker.state.addTimeout timeout).1 = .ok (some tc) := by
  have signed : ∀ sent ∈ verifiedTimeouts worker.log ++ [timeout], sent.signature.isSome := by
    intro sent member
    rcases List.mem_append.mp member with old | added
    · exact counted.signedTimeouts sent old
    · obtain ⟨⟨_, signature, present, _⟩, _⟩ := Timeout.verify_ok_iff.mp verified
      rw [List.mem_singleton.mp added, present]
      rfl
  obtain ⟨tc, formed⟩ : ∃ tc, ((Aggregator.collect authorities
      (verifiedTimeouts worker.log)).addTimeout timeout authorities).1 = .ok (some tc) := by
    apply (Aggregator.addTimeout_completes_iff signed).mpr
    refine ⟨fun listed => unseen (List.mem_toFinset.mpr listed), ?_⟩
    rw [timeoutVoters_concat, if_pos rfl]
    exact quorum
  refine ⟨tc, ?_⟩
  rw [← formed, ConsensusState.addTimeout, known]
  exact (Aggregator.addTimeout_congr counted.timeouts timeout).1

/-- One more timeout: where the replica has timed out itself, it is in the view
of the timeout, and a quorum completes the TC. -/
theorem Leaving.timeout {timeout : Timeout B} (leaving : Leaving authorities id worker)
    (counted : Counted authorities worker.log worker.state.aggregator)
    (known : worker.state.authorities = authorities)
    (verified : timeout.verify authorities = .ok ())
    (own : timeout.voter = id → timeout.view ≤ worker.state.view)
    (current : worker.state.view ≤ timeout.view)
    (calm : (handleTimeout timeout worker).1 ≠ .error .panic)
    (grown : worker.state.view ≤ (handleTimeout timeout worker).2.state.view)
    (recorded : verifiedTimeouts (handleTimeout timeout worker).2.log =
      verifiedTimeouts worker.log ++ [timeout]) :
    Leaving authorities id (handleTimeout timeout worker).2 where
  reached := by
    intro counts member mine
    rw [recorded] at member
    rcases List.mem_append.mp member with old | added
    · exact UInt64.le_trans (leaving.reached counts old mine) grown
    · cases List.mem_singleton.mp added
      exact UInt64.le_trans (own mine) grown
  left := by
    intro view given quorum
    rw [recorded, timeoutVoters_concat] at given quorum
    by_cases same : timeout.view = view
    · subst view
      rw [if_pos rfl] at given quorum
      by_cases seen : timeout.voter ∈ timeoutVoters timeout.view (verifiedTimeouts worker.log)
      · rw [Finset.insert_eq_of_mem seen] at given quorum
        exact UInt64.lt_of_lt_of_le (leaving.left _ given quorum) grown
      · -- The replica has timed out in this view, now or before, and so has reached it.
        have behind : timeout.view ≤ worker.state.view := by
          rcases Finset.mem_insert.mp given with mine | old
          · exact own mine.symm
          · obtain ⟨earlier, listed, mine⟩ := List.mem_map.mp (List.mem_toFinset.mp old)
            obtain ⟨member, sameView⟩ := List.mem_filter.mp listed
            rw [← of_decide_eq_true sameView]
            exact leaving.reached earlier member mine
        obtain ⟨tc, result⟩ := counted.completes_timeout known verified seen quorum
        have checked : worker.state.verifyTimeout timeout = .ok () := by
          rw [ConsensusState.verifyTimeout, known]
          exact verified
        exact handleTimeout_leaves (UInt64.le_antisymm current behind) checked result calm
    · rw [if_neg same] at given quorum
      exact UInt64.lt_of_lt_of_le (leaving.left view given quorum) grown

end Steps

variable {network : Network B} {system final : System B C} {guard : Replica B C → Prop}
  {id : AuthorityId B}

def TimedOutReached (worker : ConsensusWorker B C) : Prop :=
  ∀ timeout, Event.timedOut timeout ∈ worker.log → timeout.view ≤ worker.state.view

theorem Network.Reachable.timedOutReached
    {allowed : System B C → ConsensusMessage B → Prop} (persistent : network.Persistent allowed)
    (reachable : network.Reachable allowed guard system) (honest : network.Honest id) :
    TimedOutReached (system id).worker := by
  apply (reachable.replica persistent honest).invariant (Policy.only_meets (allowed system))
  · intro client queue _ timeout member
    cases member
  · intro worker next act reached timeout member
    obtain ⟨events, grown, fresh⟩ := act.log_eq
    rw [grown] at member
    rcases List.mem_append.mp member with old | added
    · exact UInt64.le_trans (reached timeout old) act.view_le
    · obtain ⟨_, view, _⟩ := ConsensusState.makeTimeout_ok (fresh _ added)
      rw [view]
      exact act.view_le

/-- One call of a replica that does not panic. -/
theorem Leaving.resume (reachable : network.Reachable network.Byzantine guard system)
    (honest : network.Honest id) {call : Call B}
    (running : (system id).control = .running call)
    (apart : Set.InjOn (hashOf (B := B)) (network.digested final))
    (inside : network.digested system ⊆ network.digested final)
    (kept : ((system id).resume call).worker.log ⊆ (final id).worker.log)
    (alive : ((system id).resume call).control ≠ .halted)
    (leaving : Leaving network.authorities id (system id).worker) :
    Leaving network.authorities id ((system id).resume call).worker := by
  have own := reachable.replica network.byzantine_persistent honest
  have evident := reachable.evident network.byzantine_persistent honest
  have grown : (system id).worker.state.view ≤ ((system id).resume call).worker.state.view :=
    acts_view_le (Replica.Step.follows (.resume running))
  obtain ⟨trace, next, after, written, _, script, _⟩ := Replica.resume_plays call
    ⟨evident.sameKeystore, evident.sameAuthorities, rfl⟩ alive
  rcases script.timeouts with none | ⟨timeout, rfl, verified, single⟩
  · apply leaving.of_same _ grown
    rw [written, verifiedTimeouts_append, none, List.append_nil]
  · have recorded : verifiedTimeouts ((system id).resume (.timeout timeout)).worker.log =
        verifiedTimeouts (system id).worker.log ++ [timeout] := by
      rw [written, verifiedTimeouts_append, single]
    have logged : Event.verifiedTimeout timeout ∈
        ((system id).resume (.timeout timeout)).worker.log := by
      apply mem_verifiedTimeouts.mp
      simp [recorded]
    have calm : (handleTimeout timeout (system id).worker).1 ≠ .error .panic :=
      (controlAfter_calm alive).1
    have current : (system id).worker.state.view ≤ timeout.view := by
      apply UInt64.not_lt.mp
      intro late
      have same : ((system id).resume (.timeout timeout)).worker = (system id).worker := by
        have inert := (handleTimeout_outcome timeout (system id).worker).of_late late
        exact congrArg Prod.snd inert
      rw [same] at recorded
      simpa using congrArg List.length recorded
    have reached : timeout.voter = id → timeout.view ≤ (system id).worker.state.view := by
      intro mine
      have present : Available (Policy.only (network.Byzantine system)) (system id).worker.log
          (.timeout timeout) :=
        (own.follows (Policy.only_meets (network.Byzantine system))).2 _ running
      obtain ⟨made, timedOut, view, _⟩ := reachable.timedOut_of_arrived
        network.byzantine_persistent apart inside
        ⟨id, honest, _, kept logged, by simp [Event.digested]⟩ honest verified present
        (by rwa [mine])
      rw [mine] at timedOut
      rw [← view]
      exact reachable.timedOutReached network.byzantine_persistent honest made timedOut
    exact leaving.timeout (own.counted (by simp [running])) evident.sameAuthorities verified
      reached current calm grown recorded

theorem Network.Reachable.leaving (reachable : network.Reachable network.Byzantine guard system)
    (apart : Set.InjOn (hashOf (B := B)) (network.digested final))
    (grows : network.Grows system final) (honest : network.Honest id)
    (alive : (system id).control ≠ .halted) :
    Leaving network.authorities id (system id).worker := by
  induction reachable generalizing id with
  | start initial =>
    obtain ⟨client, queue, _, same⟩ := (initial id honest).worker
    rw [same]
    exact ⟨fun _ member => (by cases member), fun _ given => (by cases given)⟩
  | @step system moving next before moves holds move ih =>
    have earlier : network.Grows system final := fun id honest _ member =>
      grows id honest (Network.grows_update move id honest member)
    by_cases same : id = moving
    · subst moving
      have kept := grows id honest
      rw [Function.update_self] at alive kept ⊢
      cases move with
      | timer idle => exact ih earlier honest (by simp [idle])
      | receive idle present selected => exact ih earlier honest (by simp [idle])
      | resume running =>
        exact Leaving.resume before honest running apart (Network.digested_mono earlier) kept alive
          (ih earlier honest (by simp [running]))
      | environment client queue same =>
        exact (ih earlier honest alive).of_same rfl (UInt64.le_refl _)
    · rw [Function.update_of_ne same] at alive ⊢
      exact ih earlier honest alive

/-- No replica stays in a view that it has given up together with a quorum. In
every run, however many authorities are faulty and in whatever order messages
arrive: once an honest replica that has not panicked has verified its own timeout
of a view, and the timeouts of more than two thirds of the authorities for it,
its view is a later one. -/
theorem given_up_views_left (reachable : network.Reachable network.Byzantine guard system)
    (apart : Set.InjOn (hashOf (B := B)) (network.digested system))
    (honest : network.Honest id) (alive : (system id).control ≠ .halted) {view : ViewNumber}
    (own : id ∈ timeoutVoters view (verifiedTimeouts (system id).worker.log))
    (quorum : network.authorities.length * 2 / 3 <
      (timeoutVoters view (verifiedTimeouts (system id).worker.log)).card) :
    view < (system id).worker.state.view :=
  (reachable.leaving apart (fun _ _ _ member => member) honest alive).left view own quorum

/-- Three of four replicas have given up view 1, and the first has left it. -/
theorem given_up_views_left_four :
    (timeoutVoters 1 (verifiedTimeouts (Sample.certified (0 : Fin 8)).worker.log)).card = 3 ∧
      1 < (Sample.certified (0 : Fin 8)).worker.state.view := by
  have checked : Sample.certifiedCluster.covers (Sample.network 4 {1}) = true ∧
      hashesDiffer (B := Sample) Sample.certifiedCluster.digested = true ∧
      (Sample.certified (0 : Fin 8)).control ≠ .halted := by decide +kernel
  have voters : (0 : Fin 8) ∈
      timeoutVoters 1 (verifiedTimeouts (Sample.certified (0 : Fin 8)).worker.log) ∧
      (timeoutVoters 1 (verifiedTimeouts (Sample.certified (0 : Fin 8)).worker.log)).card = 3 := by
    decide +kernel
  obtain ⟨covered, differ, alive⟩ := checked
  refine ⟨voters.2, given_up_views_left Sample.certified_reachable
    ((injOn_of_hashesDiffer differ).mono (Cluster.digested_subset covered _)) (by decide) alive
    voters.1 ?_⟩
  rw [voters.2]
  decide

end Hotstuff
