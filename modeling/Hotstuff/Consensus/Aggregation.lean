import Hotstuff.Lib.Tally
import Hotstuff.Consensus.TimeoutCertificate

/-! What the aggregator returns for a sequence of votes or timeouts, told by
counting the distinct voters of each ballot. -/

namespace Hotstuff

variable {B : Type} [BlockT B]

def Aggregator.gather (authorities : AuthorityList B) (votes : List (Vote B)) : Aggregator B :=
  votes.foldl (fun aggregator vote => (aggregator.addVote vote authorities).2) Aggregator.new

/-- The votes of one view with one digest. -/
def ballot (view : ViewNumber) (digest : Hash B) (votes : List (Vote B)) : List (Vote B) :=
  votes.filter fun vote => vote.view = view ∧ vote.digest = digest

/-- The distinct voters of a ballot. -/
def ballotVoters (view : ViewNumber) (digest : Hash B) (votes : List (Vote B)) :
    Finset (AuthorityId B) :=
  ((ballot view digest votes).map Vote.voter).toFinset

/-- The distinct voters of the timeouts of a view. -/
def timeoutVoters (view : ViewNumber) (timeouts : List (Timeout B)) : Finset (AuthorityId B) :=
  ((timeouts.filter fun timeout => timeout.view = view).map Timeout.voter).toFinset

def Vote.entry (vote : Vote B) : Option (AuthorityId B × AuthoritySignature B) :=
  vote.signature.map fun signature => (vote.voter, signature)

theorem Aggregator.gather_concat (authorities : AuthorityList B) (votes : List (Vote B))
    (vote : Vote B) :
    Aggregator.gather authorities (votes ++ [vote]) =
      ((Aggregator.gather authorities votes).addVote vote authorities).2 := by
  simp [Aggregator.gather]

theorem ballot_concat (view : ViewNumber) (digest : Hash B) (votes : List (Vote B))
    (vote : Vote B) :
    ballot view digest (votes ++ [vote]) =
      if vote.view = view ∧ vote.digest = digest then ballot view digest votes ++ [vote]
      else ballot view digest votes := by
  unfold ballot
  rw [List.filter_append]
  split
  · rename_i matching
    simp [matching]
  · rename_i other
    simp [other]

/-- An `append` of a signed entry completes a certificate exactly for a new
voter that brings the collection to the threshold. -/
theorem Maker.append_ok_iff {maker : Maker B α} {voter : AuthorityId B} {value : α}
    {authorities : AuthorityList B} {entries : List (AuthorityId B × α)} :
    (maker.append voter (some value) authorities).1 = .ok (some entries) ↔
      voter ∉ maker.votes.map Prod.fst ∧
        authorities.length * 2 / 3 + 1 ≤ maker.votes.length + 1 ∧
        entries = maker.votes ++ [(voter, value)] := by
  unfold Maker.append
  by_cases seen : voter ∈ maker.votes.map Prod.fst
  · simp [seen]
  · have weighed := (maker.grow voter value seen).counted
    have longer : (maker.grow voter value seen).votes = maker.votes ++ [(voter, value)] := rfl
    rw [longer, List.length_append, List.length_singleton] at weighed
    rw [dif_neg seen]
    dsimp only
    by_cases short : (maker.grow voter value seen).weight < authorities.length * 2 / 3 + 1
    · rw [if_pos short]
      constructor
      · intro returned
        cases returned
      · rintro ⟨_, enough, _⟩
        omega
    · rw [if_neg short, longer]
      constructor
      · intro returned
        cases returned
        exact ⟨seen, by omega, rfl⟩
      · rintro ⟨_, _, rfl⟩
        rfl

/-- A maker that holds the first entry of each voter among some items completes
a certificate with one more item exactly when the item has a new voter and the
distinct voters reach the threshold. -/
theorem Maker.append_tally_iff {maker : Maker B α} {items : List β} {item : β}
    {entry : β → Option (AuthorityId B × α)} {voter : β → AuthorityId B} {value : α}
    {authorities : AuthorityList B} {entries : List (AuthorityId B × α)}
    (own : ∀ item found, entry item = some found → found.1 = voter item)
    (tally : maker.votes.map some = (Tally.firsts voter items).map entry) :
    (maker.append (voter item) (some value) authorities).1 = .ok (some entries) ↔
      voter item ∉ items.map voter ∧
        authorities.length * 2 / 3 + 1 ≤ ((items ++ [item]).map voter).toFinset.card ∧
        entries = maker.votes ++ [(voter item, value)] := by
  have voters := Aggregator.voters_of_entries own tally
  have counted : maker.votes.length = (Tally.firsts voter items).length := by
    simpa using congrArg List.length tally
  rw [Maker.append_ok_iff, voters, Tally.mem_firsts_keys, ← Tally.firsts_length, counted]
  refine and_congr_right fun fresh => ?_
  rw [Tally.firsts_concat_fresh fresh, List.length_append, List.length_singleton]

/-- Adding a vote leaves the other ballots alone and appends its entry to its
own ballot unless its voter is there already. -/
theorem Aggregator.addVote_votes (aggregator : Aggregator B) (vote : Vote B)
    (authorities : AuthorityList B) (view : ViewNumber) (digest : Hash B) :
    ((aggregator.addVote vote authorities).2.votesAggregator view digest).votes =
      if (vote.view = view ∧ vote.digest = digest) ∧
          vote.voter ∉ ((aggregator.votesAggregator view digest).votes.map Prod.fst)
      then (aggregator.votesAggregator view digest).votes ++ vote.entry.toList
      else (aggregator.votesAggregator view digest).votes := by
  simp only [Aggregator.addVote, QCMaker.append, Function.update_apply]
  by_cases sameView : view = vote.view
  · subst sameView
    rw [if_pos rfl, Function.update_apply]
    by_cases sameDigest : digest = vote.digest
    · subst sameDigest
      rw [if_pos rfl, Maker.append_votes]
      by_cases seen : vote.voter ∈
          (aggregator.votesAggregator vote.view vote.digest).votes.map Prod.fst
      · rw [if_pos seen, if_neg (fun fresh => fresh.2 seen)]
      · rw [if_neg seen, if_pos ⟨⟨rfl, rfl⟩, seen⟩]
        rfl
    · rw [if_neg sameDigest, if_neg (fun fresh => sameDigest fresh.1.2.symm)]
  · rw [if_neg sameView, if_neg (fun fresh => sameView fresh.1.1.symm)]

theorem Vote.entry_voter (vote : Vote B) (found : AuthorityId B × AuthoritySignature B)
    (listed : vote.entry = some found) : found.1 = vote.voter := by
  obtain ⟨signature, _, rfl⟩ := Option.map_eq_some_iff.mp listed
  rfl

/-- A ballot of signed votes holds the first entry of each of its voters. -/
theorem Aggregator.gather_votes (authorities : AuthorityList B) (votes : List (Vote B))
    (signed : ∀ vote ∈ votes, vote.signature.isSome) (view : ViewNumber) (digest : Hash B) :
    ((Aggregator.gather authorities votes).votesAggregator view digest).votes.map some =
      (Tally.firsts Vote.voter (ballot view digest votes)).map Vote.entry := by
  induction votes using List.reverseRecOn with
  | nil => rfl
  | append_singleton votes last ih =>
    have rest := ih fun vote member => signed vote (List.mem_append_left _ member)
    obtain ⟨signature, present⟩ := Option.isSome_iff_exists.mp (signed last (by simp))
    rw [Aggregator.gather_concat, Aggregator.addVote_votes, ballot_concat,
      Aggregator.voters_of_entries Vote.entry_voter rest]
    by_cases matching : last.view = view ∧ last.digest = digest
    · rw [if_pos matching, Tally.firsts_concat]
      by_cases seen : last.voter ∈ (Tally.firsts Vote.voter (ballot view digest votes)).map
          Vote.voter
      · rw [if_pos seen, if_neg (fun fresh => fresh.2 seen)]
        exact rest
      · rw [if_neg seen, if_pos ⟨matching, seen⟩]
        simp [rest, Vote.entry, present]
    · rw [if_neg matching, if_neg (fun fresh => matching fresh.1)]
      exact rest

theorem Aggregator.addVote_completes_iff (authorities : AuthorityList B)
    {votes : List (Vote B)} {vote : Vote B}
    (signed : ∀ cast ∈ votes ++ [vote], cast.signature.isSome) :
    (∃ qc, ((Aggregator.gather authorities votes).addVote vote authorities).1 =
        .ok (some qc)) ↔
      vote.voter ∉ (ballot vote.view vote.digest votes).map Vote.voter ∧
        authorities.length * 2 / 3 + 1 ≤
          (ballotVoters vote.view vote.digest (votes ++ [vote])).card := by
  obtain ⟨signature, present⟩ := Option.isSome_iff_exists.mp (signed vote (by simp))
  have tally := Aggregator.gather_votes authorities votes
    (fun cast member => signed cast (List.mem_append_left _ member)) vote.view vote.digest
  simp only [Aggregator.addVote, QCMaker.append, ballotVoters, ballot_concat, and_self, if_true,
    Aggregator.map_map_ok_some_iff, present]
  constructor
  · rintro ⟨qc, entries, returned, _⟩
    obtain ⟨fresh, enough, _⟩ := (Maker.append_tally_iff Vote.entry_voter tally).mp returned
    exact ⟨fresh, enough⟩
  · rintro ⟨fresh, enough⟩
    exact ⟨_, _, (Maker.append_tally_iff Vote.entry_voter tally).mpr ⟨fresh, enough, rfl⟩, rfl⟩

/-- A returned QC lists each voter of the ballot once, with its first signature
and in order of arrival. -/
theorem Aggregator.addVote_lists {authorities : AuthorityList B} {votes : List (Vote B)}
    {vote : Vote B} {qc : QC B} (signed : ∀ cast ∈ votes ++ [vote], cast.signature.isSome)
    (returned : ((Aggregator.gather authorities votes).addVote vote authorities).1 =
      .ok (some qc)) :
    qc.votes.map some =
      (Tally.firsts Vote.voter (ballot vote.view vote.digest (votes ++ [vote]))).map
        Vote.entry := by
  have votes := (Aggregator.addVote_some returned).2.2.1
  rw [← Aggregator.gather_concat] at votes
  rw [votes]
  exact Aggregator.gather_votes authorities _ signed vote.view vote.digest

theorem countedTimeouts_eq (view : ViewNumber) (timeouts : List (Timeout B)) :
    countedTimeouts view timeouts =
      Tally.firsts Timeout.voter (timeouts.filter fun timeout => timeout.view = view) := by
  induction timeouts using List.reverseRecOn with
  | nil => rfl
  | append_singleton timeouts last ih =>
    rw [countedTimeouts_concat, ih, List.filter_append]
    by_cases matching : last.view = view
    · have single : [last].filter (fun timeout => timeout.view = view) = [last] := by
        simp [matching]
      rw [single, Tally.firsts_concat]
      simp only [matching, true_and, ite_not]
    · simp [matching]

theorem Aggregator.addTimeout_completes_iff {authorities : AuthorityList B}
    {timeouts : List (Timeout B)} {timeout : Timeout B}
    (signed : ∀ sent ∈ timeouts ++ [timeout], sent.signature.isSome) :
    (∃ tc, ((Aggregator.collect authorities timeouts).addTimeout timeout authorities).1 =
        .ok (some tc)) ↔
      timeout.voter ∉ (timeouts.filter fun sent => sent.view = timeout.view).map Timeout.voter ∧
        authorities.length * 2 / 3 + 1 ≤
          (timeoutVoters timeout.view (timeouts ++ [timeout])).card := by
  obtain ⟨signature, present⟩ := Option.isSome_iff_exists.mp (signed timeout (by simp))
  have tally := Aggregator.collect_votes authorities timeouts
    (fun sent member => signed sent (List.mem_append_left _ member)) timeout.view
  rw [countedTimeouts_eq] at tally
  have single : [timeout].filter (fun sent => sent.view = timeout.view) = [timeout] := by simp
  simp only [Aggregator.addTimeout, TCMaker.append, timeoutVoters, List.filter_append, single,
    Aggregator.map_map_ok_some_iff, present, Option.map_some]
  constructor
  · rintro ⟨tc, entries, returned, _⟩
    obtain ⟨fresh, enough, _⟩ := (Maker.append_tally_iff Timeout.entry_voter tally).mp returned
    exact ⟨fresh, enough⟩
  · rintro ⟨fresh, enough⟩
    exact ⟨_, _, (Maker.append_tally_iff Timeout.entry_voter tally).mpr ⟨fresh, enough, rfl⟩, rfl⟩

/-- A QC collected from verified votes passes the check of a QC. -/
theorem Aggregator.gathered_verify {authorities : AuthorityList B} {votes : List (Vote B)}
    {vote : Vote B} {qc : QC B}
    (verified : ∀ cast ∈ votes ++ [vote], cast.verify authorities = .ok ())
    (enough : authorities.length * 2 / 3 + 1 ≤
      (ballotVoters vote.view vote.digest (votes ++ [vote])).card)
    (hash : qc.proposalHash = vote.proposalHash) (view : qc.view = vote.view)
    (listed : qc.votes.map some =
      (Tally.firsts Vote.voter (ballot vote.view vote.digest (votes ++ [vote]))).map
        Vote.entry) : qc.verify authorities = .ok () := by
  have voters := Aggregator.voters_of_entries Vote.entry_voter listed
  have digest : qc.digest = vote.digest := by
    simp only [QC.digest, QC.preimage, Vote.digest, Vote.preimage, hash, view]
  refine QC.verify_ok_iff.mpr ⟨?_, ?_, ?_⟩
  · rw [voters]
    exact Tally.firsts_nodup _ _
  · have counted := congrArg List.length listed
    rw [List.length_map, List.length_map, Tally.firsts_length] at counted
    rw [counted]
    exact enough
  · intro entry member
    have present : some entry ∈ qc.votes.map some := List.mem_map_of_mem member
    rw [listed] at present
    obtain ⟨cast, first, found⟩ := List.mem_map.mp present
    obtain ⟨inside, matching⟩ := List.mem_filter.mp (Tally.mem_of_mem_firsts first)
    obtain ⟨signature, signed, rfl⟩ := Option.map_eq_some_iff.mp found
    obtain ⟨_, other, same, valid⟩ := Vote.verify_ok_iff.mp (verified cast inside)
    cases signed.symm.trans same
    rw [digest, ← (of_decide_eq_true matching).2]
    exact valid

/-- Some vote of a sequence completes a QC of the ballot. -/
def QuorumReached (authorities : AuthorityList B) (view : ViewNumber) (digest : Hash B)
    (votes : List (Vote B)) : Prop :=
  ∃ before vote after, votes = before ++ vote :: after ∧ vote.view = view ∧
    vote.digest = digest ∧
    ∃ qc, ((Aggregator.gather authorities before).addVote vote authorities).1 = .ok (some qc)

theorem ballotVoters_concat (view : ViewNumber) (digest : Hash B) (votes : List (Vote B))
    (vote : Vote B) :
    ballotVoters view digest (votes ++ [vote]) =
      if vote.view = view ∧ vote.digest = digest then
        insert vote.voter (ballotVoters view digest votes)
      else ballotVoters view digest votes := by
  unfold ballotVoters
  rw [ballot_concat]
  split
  · rw [List.map_append, List.toFinset_append, Finset.union_comm]
    rfl
  · rfl

theorem ballotVoters_mono (view : ViewNumber) (digest : Hash B) (votes later : List (Vote B)) :
    ballotVoters view digest votes ⊆ ballotVoters view digest (votes ++ later) := by
  intro voter member
  simp only [ballotVoters, ballot, List.filter_append, List.map_append, List.toFinset_append,
    Finset.mem_union] at member ⊢
  exact .inl member

/-- Whether a quorum is reached is told by the set of voters of the ballot. -/
theorem quorumReached_iff {authorities : AuthorityList B} {votes : List (Vote B)}
    (signed : ∀ vote ∈ votes, vote.signature.isSome) (view : ViewNumber) (digest : Hash B) :
    QuorumReached authorities view digest votes ↔
      authorities.length * 2 / 3 + 1 ≤ (ballotVoters view digest votes).card := by
  constructor
  · rintro ⟨before, vote, after, split, rfl, rfl, qc, returned⟩
    rw [List.append_cons] at split
    have enough := (Aggregator.addVote_completes_iff authorities (fun cast member => signed cast (by
      rw [split]
      exact List.mem_append_left _ member))).mp ⟨qc, returned⟩
    rw [split]
    exact enough.2.trans (Finset.card_le_card (ballotVoters_mono _ _ _ _))
  · intro enough
    induction votes using List.reverseRecOn with
    | nil => simp [ballotVoters, ballot] at enough
    | append_singleton votes last ih =>
      by_cases before : authorities.length * 2 / 3 + 1 ≤ (ballotVoters view digest votes).card
      · obtain ⟨earlier, vote, after, split, rest⟩ :=
          ih (fun vote member => signed vote (List.mem_append_left _ member)) before
        exact ⟨earlier, vote, after ++ [last], by rw [split]; simp, rest⟩
      · have growth := ballotVoters_concat view digest votes last
        by_cases matching : last.view = view ∧ last.digest = digest
        · obtain ⟨rfl, rfl⟩ := matching
          have fresh : last.voter ∉ (ballot last.view last.digest votes).map Vote.voter := by
            intro seen
            have counted : last.voter ∈ ballotVoters last.view last.digest votes :=
              List.mem_toFinset.mpr seen
            rw [if_pos ⟨rfl, rfl⟩, Finset.insert_eq_of_mem counted] at growth
            rw [growth] at enough
            exact before enough
          exact ⟨votes, last, [], rfl, rfl, rfl,
            (Aggregator.addVote_completes_iff authorities signed).mpr ⟨fresh, enough⟩⟩
        · rw [if_neg matching] at growth
          rw [growth] at enough
          exact absurd enough before

/-- A vote completes a QC exactly when its voter is new to the ballot and the
distinct voters of the ballot reach the threshold. The QC lists each of them
once with its first signature, and verifies if the votes did. So a quorum is
reached or not by the voters of the ballot alone, and timeouts obey the same law. -/
theorem exact_aggregation (authorities : AuthorityList B) {votes : List (Vote B)}
    {timeouts : List (Timeout B)} (signedVotes : ∀ vote ∈ votes, vote.signature.isSome)
    (signedTimeouts : ∀ timeout ∈ timeouts, timeout.signature.isSome) :
    (∀ before vote after, votes = before ++ vote :: after →
      ((∃ qc, ((Aggregator.gather authorities before).addVote vote authorities).1 =
          .ok (some qc)) ↔
        vote.voter ∉ (ballot vote.view vote.digest before).map Vote.voter ∧
          authorities.length * 2 / 3 + 1 ≤
            (ballotVoters vote.view vote.digest (before ++ [vote])).card) ∧
      ∀ qc, ((Aggregator.gather authorities before).addVote vote authorities).1 =
          .ok (some qc) →
        qc.proposalHash = vote.proposalHash ∧ qc.view = vote.view ∧
        qc.votes.map some =
          (Tally.firsts Vote.voter (ballot vote.view vote.digest (before ++ [vote]))).map
            Vote.entry ∧
        ((∀ cast ∈ votes, cast.verify authorities = .ok ()) →
          qc.verify authorities = .ok ())) ∧
    (∀ view digest other, (∀ vote ∈ other, vote.signature.isSome) →
      ballotVoters view digest other = ballotVoters view digest votes →
      (QuorumReached authorities view digest other ↔
        QuorumReached authorities view digest votes)) ∧
    ∀ before timeout after, timeouts = before ++ timeout :: after →
      ((∃ tc, ((Aggregator.collect authorities before).addTimeout timeout authorities).1 =
          .ok (some tc)) ↔
        timeout.voter ∉
            (before.filter fun sent => sent.view = timeout.view).map Timeout.voter ∧
          authorities.length * 2 / 3 + 1 ≤
            (timeoutVoters timeout.view (before ++ [timeout])).card) := by
  refine ⟨?_, ?_, ?_⟩
  · intro before vote after split
    rw [List.append_cons] at split
    have inside (cast : Vote B) (member : cast ∈ before ++ [vote]) : cast ∈ votes := by
      rw [split]
      exact List.mem_append_left _ member
    have signed (cast : Vote B) (member : cast ∈ before ++ [vote]) :=
      signedVotes cast (inside cast member)
    have completes := Aggregator.addVote_completes_iff authorities signed
    refine ⟨completes, fun qc returned => ?_⟩
    obtain ⟨hash, view, _, _⟩ := Aggregator.addVote_some returned
    have listed := Aggregator.addVote_lists signed returned
    refine ⟨hash, view, listed, fun verified => ?_⟩
    exact Aggregator.gathered_verify (fun cast member => verified cast (inside cast member))
      (completes.mp ⟨qc, returned⟩).2 hash view listed
  · intro view digest other signedOther same
    rw [quorumReached_iff signedOther, quorumReached_iff signedVotes, same]
  · intro before timeout after split
    rw [List.append_cons] at split
    apply Aggregator.addTimeout_completes_iff
    intro sent member
    apply signedTimeouts sent
    rw [split]
    exact List.mem_append_left _ member

/-- Of four authorities, the third distinct voter completes a QC that verifies,
after one of the others has voted twice. -/
theorem exact_aggregation_four :
    ∃ qc : QC Sample,
      ((Aggregator.gather (Sample.authorities 4)
        [Sample.vote (7 : BitVec 64) 1 0, Sample.vote (7 : BitVec 64) 1 1,
          Sample.vote (7 : BitVec 64) 1 0]).addVote (Sample.vote (7 : BitVec 64) 1 2)
            (Sample.authorities 4)).1 = .ok (some qc) ∧
      qc.verify (Sample.authorities 4) = .ok () := by
  obtain ⟨completes, returns⟩ := (@exact_aggregation Sample _ (Sample.authorities 4)
    [Sample.vote (7 : BitVec 64) 1 0, Sample.vote (7 : BitVec 64) 1 1,
      Sample.vote (7 : BitVec 64) 1 0, Sample.vote (7 : BitVec 64) 1 2] []
    (by decide) (by decide)).1 [Sample.vote (7 : BitVec 64) 1 0, Sample.vote (7 : BitVec 64) 1 1,
      Sample.vote (7 : BitVec 64) 1 0] (Sample.vote (7 : BitVec 64) 1 2) [] rfl
  obtain ⟨qc, returned⟩ := completes.mpr ⟨by decide +kernel, by decide +kernel⟩
  exact ⟨qc, returned, (returns qc returned).2.2.2 (by decide +kernel)⟩

end Hotstuff
