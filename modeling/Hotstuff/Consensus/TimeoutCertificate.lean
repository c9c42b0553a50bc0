import Hotstuff.Consensus.Certificate
import Hotstuff.Consensus.State

/-! The certificates `Aggregator::add_timeout` forms from verified timeouts,
against the check another replica runs on them. -/

namespace Hotstuff

variable {B : Type} [BlockT B]

def Aggregator.collect (authorities : AuthorityList B) (timeouts : List (Timeout B)) :
    Aggregator B :=
  timeouts.foldl (fun aggregator timeout => (aggregator.addTimeout timeout authorities).2)
    Aggregator.new

/-- The timeouts of a view that enter its certificate: the first of each voter. -/
def countedTimeouts (view : ViewNumber) (timeouts : List (Timeout B)) : List (Timeout B) :=
  timeouts.foldl
    (fun kept timeout =>
      if timeout.view = view ∧ timeout.voter ∉ kept.map Timeout.voter then kept ++ [timeout]
      else kept) []

def Timeout.entry (timeout : Timeout B) :
    Option (AuthorityId B × AuthoritySignature B × ViewNumber) :=
  timeout.signature.map fun signature => (timeout.voter, signature, timeout.view)

theorem Aggregator.collect_concat (authorities : AuthorityList B) (timeouts : List (Timeout B))
    (timeout : Timeout B) :
    Aggregator.collect authorities (timeouts ++ [timeout]) =
      ((Aggregator.collect authorities timeouts).addTimeout timeout authorities).2 := by
  simp [Aggregator.collect]

theorem countedTimeouts_concat (view : ViewNumber) (timeouts : List (Timeout B))
    (timeout : Timeout B) :
    countedTimeouts view (timeouts ++ [timeout]) =
      if timeout.view = view ∧ timeout.voter ∉ (countedTimeouts view timeouts).map Timeout.voter
      then countedTimeouts view timeouts ++ [timeout] else countedTimeouts view timeouts := by
  simp [countedTimeouts]

theorem mem_countedTimeouts {view : ViewNumber} {timeouts : List (Timeout B)}
    {timeout : Timeout B} (member : timeout ∈ countedTimeouts view timeouts) :
    timeout ∈ timeouts ∧ timeout.view = view := by
  induction timeouts using List.reverseRecOn with
  | nil => simp [countedTimeouts] at member
  | append_singleton timeouts last ih =>
    rw [countedTimeouts_concat] at member
    split at member
    · rename_i counted
      rcases List.mem_append.mp member with old | fresh
      · exact ⟨List.mem_append_left _ (ih old).1, (ih old).2⟩
      · have same := List.mem_singleton.mp fresh
        subst same
        exact ⟨by simp, counted.1⟩
    · exact ⟨List.mem_append_left _ (ih member).1, (ih member).2⟩

/-- Adding a timeout leaves the other views alone and appends its entry to its
own view unless its voter is there already. -/
theorem Aggregator.addTimeout_votes (aggregator : Aggregator B) (timeout : Timeout B)
    (authorities : AuthorityList B) (view : ViewNumber) :
    ((aggregator.addTimeout timeout authorities).2.timeoutsAggregators view).votes =
      if timeout.view = view ∧
          timeout.voter ∉ ((aggregator.timeoutsAggregators view).votes.map Prod.fst)
      then (aggregator.timeoutsAggregators view).votes ++ timeout.entry.toList
      else (aggregator.timeoutsAggregators view).votes := by
  simp only [Aggregator.addTimeout, TCMaker.append, Function.update_apply]
  by_cases same : view = timeout.view
  · subst same
    rw [if_pos rfl, Maker.append_votes, Option.map_map]
    by_cases seen : timeout.voter ∈
        (aggregator.timeoutsAggregators timeout.view).votes.map Prod.fst
    · rw [if_pos seen, if_neg (fun fresh => fresh.2 seen)]
    · rw [if_neg seen, if_pos ⟨rfl, seen⟩]
      rfl
  · rw [if_neg same, if_neg (fun fresh => same fresh.1.symm)]

theorem Timeout.entry_voter (timeout : Timeout B)
    (found : AuthorityId B × AuthoritySignature B × ViewNumber)
    (listed : timeout.entry = some found) : found.1 = timeout.voter := by
  obtain ⟨signature, _, rfl⟩ := Option.map_eq_some_iff.mp listed
  rfl

/-- A collection of signed timeouts holds the entries of the counted ones. -/
theorem Aggregator.collect_votes (authorities : AuthorityList B) (timeouts : List (Timeout B))
    (signed : ∀ timeout ∈ timeouts, timeout.signature.isSome) (view : ViewNumber) :
    ((Aggregator.collect authorities timeouts).timeoutsAggregators view).votes.map some =
      (countedTimeouts view timeouts).map Timeout.entry := by
  induction timeouts using List.reverseRecOn with
  | nil => rfl
  | append_singleton timeouts last ih =>
    have rest := ih fun timeout member => signed timeout (List.mem_append_left _ member)
    obtain ⟨signature, present⟩ := Option.isSome_iff_exists.mp (signed last (by simp))
    rw [Aggregator.collect_concat, Aggregator.addTimeout_votes, countedTimeouts_concat,
      Aggregator.voters_of_entries Timeout.entry_voter rest]
    split
    · simp [rest, Timeout.entry, present]
    · exact rest

/-- A formed certificate passes exactly when each counted signature is also
one on the pair of the certificate's view with itself. -/
theorem Aggregator.formed_verify_iff {authorities : AuthorityList B}
    {timeouts : List (Timeout B)} {last : Timeout B} {tc : TC B}
    (signed : ∀ timeout ∈ timeouts ++ [last], timeout.signature.isSome)
    (returned : ((Aggregator.collect authorities timeouts).addTimeout last authorities).1 =
      .ok (some tc)) :
    tc.verify authorities = .ok () ↔
      ∀ timeout ∈ countedTimeouts tc.view (timeouts ++ [last]), ∀ signature,
        timeout.signature = some signature →
          BlockT.verify signature (hashOf (timeoutPreimage tc.view tc.view)) timeout.voter := by
  obtain ⟨sameView, votes, large⟩ := Aggregator.addTimeout_some returned
  rw [← Aggregator.collect_concat, ← sameView] at votes
  have entries := Aggregator.collect_votes authorities _ signed tc.view
  rw [← votes] at entries
  have distinct : (tc.votes.map Prod.fst).Nodup := by
    rw [votes]
    exact Maker.distinct _
  rw [TC.verify_ok_iff]
  constructor
  · rintro ⟨_, _, valid⟩ timeout counted signature present
    have sameTimeout := (mem_countedTimeouts counted).2
    have listed : (timeout.voter, signature, timeout.view) ∈ tc.votes := by
      have member : timeout.entry ∈ tc.votes.map some := by
        rw [entries]
        exact List.mem_map_of_mem counted
      simpa [Timeout.entry, present] using member
    rw [← sameTimeout]
    simpa [sameTimeout] using valid _ listed
  · intro valid
    refine ⟨distinct, large, ?_⟩
    intro vote listed
    have member : some vote ∈ (countedTimeouts tc.view (timeouts ++ [last])).map Timeout.entry := by
      rw [← entries]
      exact List.mem_map_of_mem listed
    obtain ⟨timeout, counted, entry⟩ := List.mem_map.mp member
    obtain ⟨signature, present, rfl⟩ := Option.map_eq_some_iff.mp entry
    have sameTimeout := (mem_countedTimeouts counted).2
    simpa [sameTimeout] using valid timeout counted signature present

/-- A certificate formed from verified timeouts passes the check, on its own
and on every replica whose view it has not passed, exactly when each counted
timeout carries a high QC of the certificate's own view. -/
theorem Aggregator.formed_tc_verifies_iff {authorities : AuthorityList B}
    {timeouts : List (Timeout B)} {last : Timeout B} {tc : TC B}
    (verified : ∀ timeout ∈ timeouts ++ [last], timeout.verify authorities = .ok ())
    (binding : ∀ (signature : AuthoritySignature B) (digest other : Hash B) (id : AuthorityId B),
      BlockT.verify signature digest id = true → BlockT.verify signature other id = true →
        digest = other)
    (injective : Set.InjOn (hashOf (B := B)) {bytes | ∃ timeout ∈ timeouts ++ [last],
      bytes = timeout.preimage ∨ bytes = timeoutPreimage timeout.view timeout.view})
    (returned : ((Aggregator.collect authorities timeouts).addTimeout last authorities).1 =
      .ok (some tc)) :
    (tc.verify authorities = .ok () ↔
      ∀ timeout ∈ countedTimeouts tc.view (timeouts ++ [last]), timeout.highQc.view = tc.view) ∧
    ∀ state : ConsensusState B, state.authorities = authorities → state.view ≤ tc.view →
      (state.verifyTc tc = .ok () ↔
        ∀ timeout ∈ countedTimeouts tc.view (timeouts ++ [last]),
          timeout.highQc.view = tc.view) := by
  have signedOk (timeout : Timeout B) (member : timeout ∈ timeouts ++ [last]) :=
    (Timeout.verify_ok_iff.mp (verified timeout member)).1.2
  have signed : ∀ timeout ∈ timeouts ++ [last], timeout.signature.isSome := by
    intro timeout member
    obtain ⟨signature, present, _⟩ := signedOk timeout member
    simp [present]
  have decided : tc.verify authorities = .ok () ↔
      ∀ timeout ∈ countedTimeouts tc.view (timeouts ++ [last]),
        timeout.highQc.view = tc.view := by
    rw [Aggregator.formed_verify_iff signed returned]
    constructor
    · intro valid timeout counted
      obtain ⟨member, sameView⟩ := mem_countedTimeouts counted
      obtain ⟨signature, present, own⟩ := signedOk timeout member
      have digests := binding _ _ _ _ own (valid timeout counted signature present)
      rw [← sameView] at digests ⊢
      have bytes := injective ⟨timeout, member, .inl rfl⟩ ⟨timeout, member, .inr rfl⟩ digests
      exact (timeoutPreimage_inj bytes).2
    · intro same timeout counted signature present
      obtain ⟨member, sameView⟩ := mem_countedTimeouts counted
      obtain ⟨other, listed, own⟩ := signedOk timeout member
      cases present.symm.trans listed
      simpa [Timeout.digest, Timeout.preimage, sameView, same timeout counted] using own
  refine ⟨decided, ?_⟩
  intro state known current
  rw [ConsensusState.verifyTc_ok_iff, known, decided]
  exact and_iff_right current

theorem Sample.timeout_verify {count : Nat} {highQc : QC Sample}
    (carried : highQc = QC.default ∨ highQc.verify (Sample.authorities count) = .ok ())
    (view : ViewNumber) (voter : Fin 8) (known : voter ∈ (Sample.authorities count).ids) :
    (Sample.timeout highQc view voter).verify (Sample.authorities count) = .ok () :=
  Timeout.verify_ok_iff.mpr ⟨⟨known, _, rfl, decide_eq_true rfl⟩,
    carried.imp_left fun same => by rw [Sample.timeout, same]; rfl⟩

/-- The timeout of a voter in view 2 who has seen the QC of that view. -/
def Sample.current (voter : Fin 8) : Timeout Sample :=
  Sample.timeout (Sample.qc (7 : BitVec 64) 2 [0, 1, 2]) 2 voter

/-- Three of four authorities, one of them twice, time out in view 2 with the QC
of that view, and the certificate they form is accepted. -/
theorem Aggregator.formed_tc_verifies_four :
    ∃ tc : TC Sample,
      ((Aggregator.collect (Sample.authorities 4)
        [Sample.current 1, Sample.current 1, Sample.current 3]).addTimeout
          (Sample.current 2) (Sample.authorities 4)).1 = .ok (some tc) ∧
      tc.view = 2 ∧ tc.votes.length = 3 ∧ tc.verify (Sample.authorities 4) = .ok () := by
  have verified : (Sample.qc (7 : BitVec 64) 2 [0, 1, 2]).verify (Sample.authorities 4) =
      .ok () := by decide +kernel
  have shared : ∀ timeout ∈ [Sample.current 1, Sample.current 1, Sample.current 3] ++
      [Sample.current 2], ∃ voter ∈ (Sample.authorities 4).ids, timeout = Sample.current voter := by
    decide +kernel
  refine ⟨_, rfl, rfl, rfl, ?_⟩
  refine (@Aggregator.formed_tc_verifies_iff Sample _ (Sample.authorities 4)
    [Sample.current 1, Sample.current 1, Sample.current 3] (Sample.current 2) _
    ?_ ?_ ?_ rfl).1.mpr ?_
  · intro timeout member
    obtain ⟨voter, known, rfl⟩ := shared timeout member
    exact Sample.timeout_verify (.inr verified) 2 voter known
  · intro signature digest other id
    exact Sample.verify_binding
  · -- All of them sign the same bytes.
    have same : ∀ bytes, (∃ timeout ∈ [Sample.current 1, Sample.current 1, Sample.current 3] ++
        [Sample.current 2], bytes = timeout.preimage ∨
          bytes = timeoutPreimage timeout.view timeout.view) → bytes = timeoutPreimage 2 2 := by
      rintro bytes ⟨timeout, member, written⟩
      obtain ⟨voter, _, rfl⟩ := shared timeout member
      rcases written with rfl | rfl
      · rfl
      · rfl
    intro first one second two _
    rw [same first one, same second two]
  · intro timeout counted
    obtain ⟨voter, _, rfl⟩ := shared timeout (mem_countedTimeouts counted).1
    rfl

/-- Three of four authorities time out in view 1 without having seen a QC, and
the certificate they form is refused. -/
theorem Aggregator.formed_tc_refused :
    (∀ timeout ∈ [Sample.timeout QC.default 1 0, Sample.timeout QC.default 1 1,
        Sample.timeout QC.default 1 2],
      timeout.verify (Sample.authorities 4) = .ok ()) ∧
    ∃ tc : TC Sample,
      ((Aggregator.collect (Sample.authorities 4)
        [Sample.timeout QC.default 1 0, Sample.timeout QC.default 1 1]).addTimeout
          (Sample.timeout QC.default 1 2) (Sample.authorities 4)).1 = .ok (some tc) ∧
      tc.verify (Sample.authorities 4) ≠ .ok () := by
  constructor
  · intro timeout member
    simp only [List.mem_cons, List.not_mem_nil, or_false] at member
    rcases member with rfl | rfl | rfl
    · exact Sample.timeout_verify (.inl rfl) 1 0 (by decide)
    · exact Sample.timeout_verify (.inl rfl) 1 1 (by decide)
    · exact Sample.timeout_verify (.inl rfl) 1 2 (by decide)
  · refine ⟨_, rfl, ?_⟩
    rw [ne_eq, TC.verify_ok_iff]
    decide +kernel

end Hotstuff
