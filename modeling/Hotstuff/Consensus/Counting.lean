import Hotstuff.Consensus.Aggregation
import Hotstuff.Consensus.SampleNode
import Hotstuff.Consensus.Script

/-! The aggregator of a replica, told from its log: the votes and timeouts that
were verified, and the certificates that they have completed. -/

namespace Hotstuff

open Command ConsensusWorker

variable {B C : Type} [BlockT B]

def Event.verifiedVote? : Event B → Option (Vote B)
  | .verifiedVote vote => some vote
  | _ => none

def Event.verifiedTimeout? : Event B → Option (Timeout B)
  | .verifiedTimeout timeout => some timeout
  | _ => none

/-- Whether a QC of the ballot is completed. -/
def Event.completesQc (view : ViewNumber) (digest : Hash B) : Event B → Bool
  | .aggregatedQc qc => qc.view = view ∧ qc.digest = digest
  | _ => false

def Event.completesTc (view : ViewNumber) : Event B → Bool
  | .aggregatedTc tc => tc.view = view
  | _ => false

/-- Whether an event is about votes and timeouts that are counted. -/
def Event.counts : Event B → Bool
  | .verifiedVote _ => true
  | .verifiedTimeout _ => true
  | .aggregatedQc _ => true
  | .aggregatedTc _ => true
  | _ => false

def verifiedVotes (log : List (Event B)) : List (Vote B) :=
  log.filterMap Event.verifiedVote?

def verifiedTimeouts (log : List (Event B)) : List (Timeout B) :=
  log.filterMap Event.verifiedTimeout?

/-- How many QCs of the ballot a log has completed. -/
def formedQcs (view : ViewNumber) (digest : Hash B) (log : List (Event B)) : Nat :=
  log.countP (Event.completesQc view digest)

def formedTcs (view : ViewNumber) (log : List (Event B)) : Nat :=
  log.countP (Event.completesTc view)

@[simp] theorem verifiedVotes_append (first second : List (Event B)) :
    verifiedVotes (first ++ second) = verifiedVotes first ++ verifiedVotes second :=
  List.filterMap_append

@[simp] theorem verifiedTimeouts_append (first second : List (Event B)) :
    verifiedTimeouts (first ++ second) = verifiedTimeouts first ++ verifiedTimeouts second :=
  List.filterMap_append

@[simp] theorem formedQcs_append (view : ViewNumber) (digest : Hash B)
    (first second : List (Event B)) :
    formedQcs view digest (first ++ second) =
      formedQcs view digest first + formedQcs view digest second :=
  List.countP_append

@[simp] theorem formedTcs_append (view : ViewNumber) (first second : List (Event B)) :
    formedTcs view (first ++ second) = formedTcs view first + formedTcs view second :=
  List.countP_append

theorem verifiedVotes_filter (log : List (Event B)) :
    verifiedVotes (log.filter Event.counts) = verifiedVotes log := by
  unfold verifiedVotes
  rw [List.filterMap_filter]
  congr 1
  funext event
  cases event with
  | _ => rfl

theorem verifiedTimeouts_filter (log : List (Event B)) :
    verifiedTimeouts (log.filter Event.counts) = verifiedTimeouts log := by
  unfold verifiedTimeouts
  rw [List.filterMap_filter]
  congr 1
  funext event
  cases event with
  | _ => rfl

theorem formedQcs_filter (view : ViewNumber) (digest : Hash B) (log : List (Event B)) :
    formedQcs view digest (log.filter Event.counts) = formedQcs view digest log := by
  unfold formedQcs
  rw [List.countP_filter]
  congr 1
  funext event
  cases event with
  | _ => simp [Event.completesQc, Event.counts]

theorem formedTcs_filter (view : ViewNumber) (log : List (Event B)) :
    formedTcs view (log.filter Event.counts) = formedTcs view log := by
  unfold formedTcs
  rw [List.countP_filter]
  congr 1
  funext event
  cases event with
  | _ => simp [Event.completesTc, Event.counts]

/-- The aggregator and the completed certificates of a log are those of its
verified votes and timeouts. -/
structure Counted (authorities : AuthorityList B) (log : List (Event B))
    (aggregator : Aggregator B) : Prop where
  signedVotes : ∀ vote ∈ verifiedVotes log, vote.signature.isSome
  signedTimeouts : ∀ timeout ∈ verifiedTimeouts log, timeout.signature.isSome
  votes : aggregator.votesAggregator =
    (Aggregator.gather authorities (verifiedVotes log)).votesAggregator
  timeouts : aggregator.timeoutsAggregators =
    (Aggregator.collect authorities (verifiedTimeouts log)).timeoutsAggregators
  qcs : ∀ view digest, formedQcs view digest log =
    (ballotVoters view digest (verifiedVotes log)).card - authorities.length * 2 / 3
  tcs : ∀ view, formedTcs view log =
    (timeoutVoters view (verifiedTimeouts log)).card - authorities.length * 2 / 3

theorem Counted.start (authorities : AuthorityList B) : Counted authorities [] .new where
  signedVotes := nofun
  signedTimeouts := nofun
  votes := rfl
  timeouts := rfl
  qcs _ _ := (Nat.zero_sub _).symm
  tcs _ := (Nat.zero_sub _).symm

section Steps

variable {authorities : AuthorityList B} {log : List (Event B)} {aggregator : Aggregator B}

/-- Only the events that count matter. -/
theorem Counted.of_filter {other : List (Event B)}
    (same : other.filter Event.counts = log.filter Event.counts)
    (counted : Counted authorities log aggregator) : Counted authorities other aggregator := by
  have votes : verifiedVotes other = verifiedVotes log := by
    rw [← verifiedVotes_filter other, same, verifiedVotes_filter]
  have timeouts : verifiedTimeouts other = verifiedTimeouts log := by
    rw [← verifiedTimeouts_filter other, same, verifiedTimeouts_filter]
  obtain ⟨signedVotes, signedTimeouts, gathered, collected, qcs, tcs⟩ := counted
  constructor
  · rwa [votes]
  · rwa [timeouts]
  · rwa [votes]
  · rwa [timeouts]
  · intro view digest
    rw [votes, ← qcs, ← formedQcs_filter view digest other, same, formedQcs_filter]
  · intro view
    rw [timeouts, ← tcs, ← formedTcs_filter view other, same, formedTcs_filter]

theorem Aggregator.addVote_congr {other : Aggregator B}
    (same : aggregator.votesAggregator = other.votesAggregator) (vote : Vote B) :
    (aggregator.addVote vote authorities).1 = (other.addVote vote authorities).1 ∧
      (aggregator.addVote vote authorities).2.votesAggregator =
        (other.addVote vote authorities).2.votesAggregator := by
  simp only [Aggregator.addVote, same, and_self]

theorem Aggregator.addTimeout_congr {other : Aggregator B}
    (same : aggregator.timeoutsAggregators = other.timeoutsAggregators) (timeout : Timeout B) :
    (aggregator.addTimeout timeout authorities).1 = (other.addTimeout timeout authorities).1 ∧
      (aggregator.addTimeout timeout authorities).2.timeoutsAggregators =
        (other.addTimeout timeout authorities).2.timeoutsAggregators := by
  simp only [Aggregator.addTimeout, same, and_self]

theorem Aggregator.formed_digest {vote : Vote B} {qc : QC B}
    (returned : (aggregator.addVote vote authorities).1 = .ok (some qc)) :
    qc.view = vote.view ∧ qc.digest = vote.digest := by
  obtain ⟨hash, view, _, _⟩ := Aggregator.addVote_some returned
  exact ⟨view, by simp only [QC.digest, QC.preimage, Vote.digest, Vote.preimage, hash, view]⟩

/-- The QCs of a ballot that one more vote completes are its voters beyond the
threshold. -/
theorem Aggregator.addVote_growth {votes : List (Vote B)} {vote : Vote B} {formed : Option (QC B)}
    (signed : ∀ cast ∈ votes ++ [vote], cast.signature.isSome)
    (result : ∀ qc, ((Aggregator.gather authorities votes).addVote vote authorities).1 =
      .ok (some qc) ↔ formed = some qc) (view : ViewNumber) (digest : Hash B) :
    (ballotVoters view digest (votes ++ [vote])).card - authorities.length * 2 / 3 =
      (ballotVoters view digest votes).card - authorities.length * 2 / 3 +
        formedQcs view digest (formed.map Event.aggregatedQc).toList := by
  have formedAs (qc : QC B) (present : formed = some qc) :
      qc.view = vote.view ∧ qc.digest = vote.digest :=
    Aggregator.formed_digest ((result qc).mpr present)
  by_cases matching : vote.view = view ∧ vote.digest = digest
  · obtain ⟨rfl, rfl⟩ := matching
    have completes := Aggregator.addVote_completes_iff authorities signed
    simp only [result, ← Option.isSome_iff_exists, ballotVoters, ballot_concat, and_self,
      if_true] at completes ⊢
    rw [Tally.excess_concat completes]
    cases formed with
    | none => simp [formedQcs]
    | some qc => simp [formedQcs, Event.completesQc, formedAs qc rfl]
  · have none : formedQcs view digest (formed.map Event.aggregatedQc).toList = 0 := by
      cases formed with
      | none => rfl
      | some qc =>
        obtain ⟨sameView, sameDigest⟩ := formedAs qc rfl
        rw [← sameView, ← sameDigest] at matching
        simp [formedQcs, Event.completesQc, matching]
    rw [ballotVoters_concat, if_neg matching, none, Nat.add_zero]

theorem Aggregator.addTimeout_growth {timeouts : List (Timeout B)} {timeout : Timeout B}
    {formed : Option (TC B)}
    (signed : ∀ sent ∈ timeouts ++ [timeout], sent.signature.isSome)
    (result : ∀ tc, ((Aggregator.collect authorities timeouts).addTimeout timeout authorities).1 =
      .ok (some tc) ↔ formed = some tc) (view : ViewNumber) :
    (timeoutVoters view (timeouts ++ [timeout])).card - authorities.length * 2 / 3 =
      (timeoutVoters view timeouts).card - authorities.length * 2 / 3 +
        formedTcs view (formed.map Event.aggregatedTc).toList := by
  have formedAs (tc : TC B) (present : formed = some tc) : tc.view = timeout.view :=
    (Aggregator.addTimeout_some ((result tc).mpr present)).1
  by_cases matching : timeout.view = view
  · subst matching
    have completes := @Aggregator.addTimeout_completes_iff B _ authorities _ _ signed
    have single : [timeout].filter (fun sent => sent.view = timeout.view) = [timeout] := by simp
    simp only [result, ← Option.isSome_iff_exists, timeoutVoters, List.filter_append,
      single] at completes ⊢
    rw [Tally.excess_concat completes]
    cases formed with
    | none => simp [formedTcs]
    | some tc => simp [formedTcs, Event.completesTc, formedAs tc rfl]
  · have nothing : [timeout].filter (fun sent => sent.view = view) = [] := by simp [matching]
    have none : formedTcs view (formed.map Event.aggregatedTc).toList = 0 := by
      cases formed with
      | none => rfl
      | some tc =>
        rw [← formedAs tc rfl] at matching
        simp [formedTcs, Event.completesTc, matching]
    simp only [timeoutVoters, List.filter_append, nothing, List.append_nil, none, Nat.add_zero]

theorem Counted.vote {vote : Vote B} {formed : Option (QC B)}
    (counted : Counted authorities log aggregator)
    (verified : vote.verify authorities = .ok ())
    (result : ∀ qc, (aggregator.addVote vote authorities).1 = .ok (some qc) ↔ formed = some qc) :
    Counted authorities (log ++ .verifiedVote vote :: (formed.map Event.aggregatedQc).toList)
      (aggregator.addVote vote authorities).2 := by
  have votes : verifiedVotes
      (log ++ .verifiedVote vote :: (formed.map Event.aggregatedQc).toList) =
      verifiedVotes log ++ [vote] := by
    cases formed with
    | none => simp [verifiedVotes, Event.verifiedVote?]
    | some qc => simp [verifiedVotes, Event.verifiedVote?]
  have timeouts : verifiedTimeouts
      (log ++ .verifiedVote vote :: (formed.map Event.aggregatedQc).toList) =
      verifiedTimeouts log := by
    cases formed with
    | none => simp [verifiedTimeouts, Event.verifiedTimeout?]
    | some qc => simp [verifiedTimeouts, Event.verifiedTimeout?]
  have signed : ∀ cast ∈ verifiedVotes log ++ [vote], cast.signature.isSome := by
    intro cast member
    rcases List.mem_append.mp member with old | added
    · exact counted.signedVotes cast old
    · obtain ⟨_, signature, present, _⟩ := Vote.verify_ok_iff.mp verified
      rw [List.mem_singleton.mp added, present]
      rfl
  obtain ⟨sameResult, sameVotes⟩ :=
    @Aggregator.addVote_congr B _ authorities _ _ counted.votes vote
  constructor
  · rwa [votes]
  · rw [timeouts]
    exact counted.signedTimeouts
  · rw [votes, Aggregator.gather_concat]
    exact sameVotes
  · rw [timeouts]
    exact counted.timeouts
  · intro view digest
    rw [votes, Aggregator.addVote_growth signed (fun qc => sameResult ▸ result qc) view digest,
      ← counted.qcs view digest, formedQcs_append]
    rfl
  · intro view
    rw [timeouts, ← counted.tcs view, formedTcs_append]
    cases formed with
    | none => rfl
    | some qc => rfl

theorem Counted.timeout {timeout : Timeout B} {formed : Option (TC B)}
    (counted : Counted authorities log aggregator)
    (verified : timeout.verify authorities = .ok ())
    (result : ∀ tc, (aggregator.addTimeout timeout authorities).1 = .ok (some tc) ↔
      formed = some tc) :
    Counted authorities (log ++ .verifiedTimeout timeout :: (formed.map Event.aggregatedTc).toList)
      (aggregator.addTimeout timeout authorities).2 := by
  have votes : verifiedVotes
      (log ++ .verifiedTimeout timeout :: (formed.map Event.aggregatedTc).toList) =
      verifiedVotes log := by
    cases formed with
    | none => simp [verifiedVotes, Event.verifiedVote?]
    | some tc => simp [verifiedVotes, Event.verifiedVote?]
  have timeouts : verifiedTimeouts
      (log ++ .verifiedTimeout timeout :: (formed.map Event.aggregatedTc).toList) =
      verifiedTimeouts log ++ [timeout] := by
    cases formed with
    | none => simp [verifiedTimeouts, Event.verifiedTimeout?]
    | some tc => simp [verifiedTimeouts, Event.verifiedTimeout?]
  have signed : ∀ sent ∈ verifiedTimeouts log ++ [timeout], sent.signature.isSome := by
    intro sent member
    rcases List.mem_append.mp member with old | added
    · exact counted.signedTimeouts sent old
    · obtain ⟨⟨_, signature, present, _⟩, _⟩ := Timeout.verify_ok_iff.mp verified
      rw [List.mem_singleton.mp added, present]
      rfl
  obtain ⟨sameResult, sameTimeouts⟩ :=
    @Aggregator.addTimeout_congr B _ authorities _ _ counted.timeouts timeout
  constructor
  · rw [votes]
    exact counted.signedVotes
  · rwa [timeouts]
  · rw [votes]
    exact counted.votes
  · rw [timeouts, Aggregator.collect_concat]
    exact sameTimeouts
  · intro view digest
    rw [votes, ← counted.qcs view digest, formedQcs_append]
    cases formed with
    | none => rfl
    | some qc => rfl
  · intro view
    rw [timeouts, Aggregator.addTimeout_growth signed (fun tc => sameResult ▸ result tc) view,
      ← counted.tcs view, formedTcs_append]
    rfl

theorem QcScript.counts_nothing {qc : QC B} {trace : List (Event B)} (script : QcScript qc trace) :
    trace.filter Event.counts = [] := by
  cases script with
  | late => rfl
  | reached source target => rfl

theorem TcScript.counts_nothing {trace : List (Event B)} (script : TcScript trace) :
    trace.filter Event.counts = [] := by
  cases script with
  | behind => rfl
  | moved source target => rfl

theorem FinalityScript.counts_nothing {proposal : Proposal B} {trace : List (Event B)}
    (script : FinalityScript proposal trace) : trace.filter Event.counts = [] := by
  cases script with
  | kept => rfl
  | finalized parent grandpa => rfl

theorem VoteScript.counts_nothing {leads : ViewNumber → Bool} {proposal : Proposal B}
    {trace : List (Event B)} {next : Option (Call B)}
    (script : VoteScript leads proposal trace next) : trace.filter Event.counts = [] := by
  cases script with
  | silent => rfl
  | own view vote led => rfl
  | sent view vote led => rfl

theorem Script.counts_nothing {leads : ViewNumber → Bool} {call : Call B}
    {trace : List (Event B)} {next : Option (Call B)} (script : Script leads call trace next) :
    trace.filter Event.counts = [] := by
  cases script with
  | refused call => rfl
  | timer view => rfl
  | timedOut view timeout => rfl
  | tc tc source target next ends => rfl
  | unknown proposal => rfl
  | proposal proposal accepted moved finalized cast next qc move finality vote =>
    simp [Event.counts, qc.counts_nothing, move.counts_nothing, finality.counts_nothing,
      vote.counts_nothing]
  | proposed tc proposal carried => rfl

theorem CountScript.counted {call : Call B} {trace : List (Event B)} {next : Option (Call B)}
    {after : Aggregator B} (counted : Counted authorities log aggregator)
    (script : CountScript authorities aggregator call trace next after) :
    Counted authorities (log ++ trace) after := by
  have missing {α : Type} {result : Except (HotstuffError B) (Option α)}
      (missed : ∀ found, result ≠ .ok (some found)) (found : α) :
      result = .ok (some found) ↔ none = some found :=
    ⟨fun returned => absurd returned (missed found), nofun⟩
  have single {α : Type} {result : Except (HotstuffError B) (Option α)} {certificate : α}
      (formed : result = .ok (some certificate)) (found : α) :
      result = .ok (some found) ↔ some certificate = some found := by
    rw [formed]
    exact ⟨fun same => Except.ok.inj same, congrArg Except.ok⟩
  cases script with
  | vote vote verified missed => exact counted.vote verified (missing missed)
  | formedQc vote verified qc accepted formed handled =>
    refine (counted.vote verified (single formed)).of_filter ?_
    simp [List.filter_cons, Event.counts, handled.counts_nothing]
  | reproposed vote verified qc accepted proposal formed handled bare =>
    refine (counted.vote verified (single formed)).of_filter ?_
    simp [List.filter_cons, Event.counts, handled.counts_nothing]
  | timeout timeout verified accepted qc missed =>
    refine (counted.timeout verified (missing missed)).of_filter ?_
    simp [List.filter_cons, Event.counts, qc.counts_nothing]
  | formedTc timeout verified tc accepted moved qc formed move next ends =>
    refine (counted.timeout verified (single formed)).of_filter ?_
    simp [List.filter_cons, Event.counts, qc.counts_nothing, move.counts_nothing]

theorem Aggregator.addVote_seen {aggregator : Aggregator B} {vote : Vote B}
    (seen : vote.voter ∈ (aggregator.votesAggregator vote.view vote.digest).votes.map Prod.fst) :
    aggregator.addVote vote authorities = (.ok none, aggregator) := by
  simp [Aggregator.addVote, QCMaker.append, Maker.append, seen, Except.map]

theorem Aggregator.addTimeout_seen {aggregator : Aggregator B} {timeout : Timeout B}
    (seen : timeout.voter ∈ (aggregator.timeoutsAggregators timeout.view).votes.map Prod.fst) :
    aggregator.addTimeout timeout authorities = (.ok none, aggregator) := by
  simp [Aggregator.addTimeout, TCMaker.append, Maker.append, seen, Except.map]

theorem ConsensusWorker.addVote_seen {worker : ConsensusWorker B C} {vote : Vote B}
    (seen : vote.voter ∈
      (worker.state.aggregator.votesAggregator vote.view vote.digest).votes.map Prod.fst) :
    addVote vote worker = (.ok none, worker) := by
  have inert := @Aggregator.addVote_seen B _ worker.state.authorities _ _ seen
  simp [addVote, onState, ConsensusState.addVote, bind_apply, inert, Except.mapError]

theorem ConsensusWorker.addTimeout_seen {worker : ConsensusWorker B C} {timeout : Timeout B}
    (seen : timeout.voter ∈
      (worker.state.aggregator.timeoutsAggregators timeout.view).votes.map Prod.fst) :
    addTimeout timeout worker = (.ok none, worker) := by
  have inert := @Aggregator.addTimeout_seen B _ worker.state.authorities _ _ seen
  simp [addTimeout, onState, ConsensusState.addTimeout, bind_apply, inert, Except.mapError]

end Steps

variable [ClientForHotstuff B C] {keystore : Keystore B} {authorities : AuthorityList B}

theorem Replica.Reachable.counted {allowed : ConsensusMessage B → Prop}
    {guard : Replica B C → Prop} {replica : Replica B C}
    (reachable : Replica.Reachable allowed guard keystore authorities replica)
    (alive : replica.control ≠ .halted) :
    Counted authorities replica.worker.log replica.worker.state.aggregator := by
  refine reachable.scripted (motive := fun log aggregator _ => Counted authorities log aggregator)
    (.start authorities) (fun _ _ _ _ counted => counted) ?_ alive
  intro log aggregator call trace next after counted script
  rcases script with ⟨quiet, rfl⟩ | counts
  · refine counted.of_filter ?_
    rw [List.filter_append, quiet.counts_nothing, List.append_nil]
  · exact counts.counted counted

/-- In every run without a panic the aggregator holds, for each ballot and each
view, the first signature of every distinct voter that was verified. The
certificates completed so far are as many as these voters are beyond two thirds
of the authorities: none up to the threshold, and one more for each further voter. -/
theorem certificates_counted {replica : Replica B C}
    (run : Replica.Run keystore authorities replica) (alive : replica.control ≠ .halted)
    (view : ViewNumber) :
    (∀ digest,
      (replica.worker.state.aggregator.votesAggregator view digest).votes.map some =
        (Tally.firsts Vote.voter (ballot view digest (verifiedVotes replica.worker.log))).map
          Vote.entry ∧
      formedQcs view digest replica.worker.log =
        (ballotVoters view digest (verifiedVotes replica.worker.log)).card -
          authorities.length * 2 / 3) ∧
    (replica.worker.state.aggregator.timeoutsAggregators view).votes.map some =
      (countedTimeouts view (verifiedTimeouts replica.worker.log)).map Timeout.entry ∧
    formedTcs view replica.worker.log =
      (timeoutVoters view (verifiedTimeouts replica.worker.log)).card -
        authorities.length * 2 / 3 := by
  have counted := run.counted alive
  refine ⟨fun digest => ⟨?_, counted.qcs view digest⟩, ?_, counted.tcs view⟩
  · rw [counted.votes]
    exact Aggregator.gather_votes authorities _ counted.signedVotes view digest
  · rw [counted.timeouts]
    exact Aggregator.collect_votes authorities _ counted.signedTimeouts view

/-- A replica in view 0 that hears four votes of view 1. -/
def Sample.early : Replica Sample Sample.Client :=
  (Sample.replica 4 0 []).session 30
    [.vote (Sample.vote (7 : BitVec 64) 1 0), .vote (Sample.vote (7 : BitVec 64) 1 1),
      .vote (Sample.vote (7 : BitVec 64) 1 2), .vote (Sample.vote (7 : BitVec 64) 1 3)]

theorem Sample.early_run : Replica.Run (Sample.keystore 0) (Sample.authorities 4) Sample.early :=
  (Sample.replica_run 4 0 []).session 30 _

/-- Three of four voters complete a QC from ahead of the view, and so does the
fourth one. -/
theorem certificates_counted_early :
    Sample.early.control ≠ .halted ∧
    (ballotVoters 1 (Sample.vote (7 : BitVec 64) 1 0).digest
      (verifiedVotes Sample.early.worker.log)).card = 4 ∧
    formedQcs 1 (Sample.vote (7 : BitVec 64) 1 0).digest Sample.early.worker.log = 2 := by
  have alive : Sample.early.control ≠ .halted := by decide +kernel
  have voters : (ballotVoters 1 (Sample.vote (7 : BitVec 64) 1 0).digest
      (verifiedVotes Sample.early.worker.log)).card = 4 := by decide +kernel
  refine ⟨alive, voters, ?_⟩
  rw [((certificates_counted Sample.early_run alive 1).1 _).2, voters]
  rfl

/-- In every run without a panic a voter counts once. A further vote of theirs
for the ballot is verified and recorded, and a further timeout of theirs for the
view has its QC accepted; beyond that nothing changes and nothing is sent. -/
theorem voters_count_once {replica : Replica B C}
    (run : Replica.Run keystore authorities replica) (alive : replica.control ≠ .halted) :
    (∀ vote, vote.voter ∈ ballotVoters vote.view vote.digest (verifiedVotes replica.worker.log) →
      handleVote vote replica.worker = (do
        attempt (replica.worker.state.verifyVote vote)
        record (.verifiedVote vote)
        pure none : Handler B C (Option (Call B))) replica.worker) ∧
    ∀ timeout, timeout.voter ∈
        timeoutVoters timeout.view (verifiedTimeouts replica.worker.log) →
      handleTimeout timeout replica.worker = (do
        if timeout.view < replica.worker.state.view then pure none
        else do
          attempt (replica.worker.state.verifyTimeout timeout)
          record (.verifiedTimeout timeout)
          handleQc timeout.highQc
          pure none : Handler B C (Option (Call B))) replica.worker := by
  have counted := run.counted alive
  constructor
  · intro vote voted
    have tally := Aggregator.gather_votes authorities _ counted.signedVotes vote.view vote.digest
    rw [← counted.votes] at tally
    have seen : vote.voter ∈
        (replica.worker.state.aggregator.votesAggregator vote.view vote.digest).votes.map
          Prod.fst := by
      rw [Aggregator.voters_of_entries Vote.entry_voter tally, Tally.mem_firsts_keys]
      exact List.mem_toFinset.mp voted
    cases verified : replica.worker.state.verifyVote vote with
    | error reason =>
      simp [handleVote, attempt, verified, bind_apply, Except.mapError]
    | ok value =>
      have counts : addVote vote (replica.worker.emit (.verifiedVote vote)) =
          (.ok none, replica.worker.emit (.verifiedVote vote)) := addVote_seen seen
      simp [handleVote, attempt, record, verified, bind_apply, Except.mapError, counts]
  · intro timeout sent
    have tally :=
      Aggregator.collect_votes authorities _ counted.signedTimeouts timeout.view
    rw [← counted.timeouts, countedTimeouts_eq] at tally
    have seen : timeout.voter ∈
        (replica.worker.state.aggregator.timeoutsAggregators timeout.view).votes.map
          Prod.fst := by
      rw [Aggregator.voters_of_entries Timeout.entry_voter tally, Tally.mem_firsts_keys]
      exact List.mem_toFinset.mp sent
    by_cases late : timeout.view < replica.worker.state.view
    · simp [handleTimeout, late]
    · cases verified : replica.worker.state.verifyTimeout timeout with
      | error reason =>
        simp [handleTimeout, late, attempt, verified, bind_apply, Except.mapError]
      | ok value =>
        rcases ran : handleQc timeout.highQc (replica.worker.emit (.verifiedTimeout timeout)) with
          ⟨outcome, reached⟩
        cases outcome with
        | error fault =>
          simp [handleTimeout, late, attempt, record, verified, bind_apply, Except.mapError, ran]
        | ok value =>
          have counts : addTimeout timeout reached = (.ok none, reached) := by
            apply addTimeout_seen
            rw [(HandlesQc.of_ran ran).aggregator]
            exact seen
          simp [handleTimeout, late, attempt, record, verified, bind_apply, Except.mapError, ran,
            counts]

/-- A vote that comes twice is only recorded twice. -/
theorem voters_count_once_early :
    Sample.early.control ≠ .halted ∧
    (handleVote (Sample.vote (7 : BitVec 64) 1 0) Sample.early.worker).2.log =
      Sample.early.worker.log ++ [.verifiedVote (Sample.vote (7 : BitVec 64) 1 0)] := by
  have alive : Sample.early.control ≠ .halted := by decide +kernel
  refine ⟨alive, ?_⟩
  rw [(voters_count_once Sample.early_run alive).1 (Sample.vote (7 : BitVec 64) 1 0)
    (by decide +kernel)]
  decide +kernel

end Hotstuff
