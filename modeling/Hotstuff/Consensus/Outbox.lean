import Hotstuff.Consensus.Evidence
import Hotstuff.Consensus.SampleNode
import Hotstuff.Consensus.Script

/-! What a replica sends, against what it signs and completes. -/

namespace Hotstuff

open ConsensusWorker

variable {B C : Type} [BlockT B]

/-- A message that is handed to the gossip engine, and whether it is forced on
peers that have seen it. -/
def Event.sent? : Event B → Option (ConsensusMessage B × Bool)
  | .gossip message force => some (message, force)
  | _ => none

/-- The message that an event calls for. Only a vote that a replica is to count
itself stays where it is. -/
def Event.due? (leads : ViewNumber → Bool) : Event B → Option (ConsensusMessage B × Bool)
  | .timedOut timeout => some (.timeout timeout, true)
  | .proposed proposal => some (.propose proposal, false)
  | .aggregatedTc tc => some (.tc tc, true)
  | .voted view _ vote => if leads view then none else some (.vote vote, false)
  | _ => none

def sentMessages (log : List (Event B)) : List (ConsensusMessage B × Bool) :=
  log.filterMap Event.sent?

def dueMessages (leads : ViewNumber → Bool) (log : List (Event B)) :
    List (ConsensusMessage B × Bool) :=
  log.filterMap (Event.due? leads)

@[simp] theorem sentMessages_append (first second : List (Event B)) :
    sentMessages (first ++ second) = sentMessages first ++ sentMessages second :=
  List.filterMap_append

@[simp] theorem dueMessages_append (leads : ViewNumber → Bool) (first second : List (Event B)) :
    dueMessages leads (first ++ second) = dueMessages leads first ++ dueMessages leads second :=
  List.filterMap_append

/-- A stretch of a log in which everything due is sent. -/
def Settled (leads : ViewNumber → Bool) (trace : List (Event B)) : Prop :=
  sentMessages trace = dueMessages leads trace

theorem Settled.append {leads : ViewNumber → Bool} {first second : List (Event B)}
    (one : Settled leads first) (two : Settled leads second) : Settled leads (first ++ second) := by
  unfold Settled at *
  rw [sentMessages_append, dueMessages_append, one, two]

theorem Settled.cons {leads : ViewNumber → Bool} {event : Event B} {trace : List (Event B)}
    (quiet : event.sent? = none) (nothing : event.due? leads = none)
    (rest : Settled leads trace) : Settled leads (event :: trace) := by
  unfold Settled sentMessages dueMessages at *
  rw [List.filterMap_cons_none quiet, List.filterMap_cons_none nothing, rest]

theorem QcScript.settled {leads : ViewNumber → Bool} {qc : QC B} {trace : List (Event B)}
    (script : QcScript qc trace) : Settled leads trace := by
  cases script with
  | late => rfl
  | reached source target => rfl

theorem TcScript.settled {leads : ViewNumber → Bool} {trace : List (Event B)}
    (script : TcScript trace) : Settled leads trace := by
  cases script with
  | behind => rfl
  | moved source target => rfl

theorem FinalityScript.settled {leads : ViewNumber → Bool} {proposal : Proposal B}
    {trace : List (Event B)} (script : FinalityScript proposal trace) : Settled leads trace := by
  cases script with
  | kept => rfl
  | finalized parent grandpa => rfl

theorem VoteScript.settled {leads : ViewNumber → Bool} {proposal : Proposal B}
    {trace : List (Event B)} {next : Option (Call B)}
    (script : VoteScript leads proposal trace next) : Settled leads trace := by
  cases script with
  | silent => rfl
  | own view vote led => simp [Settled, sentMessages, dueMessages, Event.sent?, Event.due?, led]
  | sent view vote led =>
    simp [Settled, sentMessages, dueMessages, List.filterMap, Event.sent?, Event.due?, led]

theorem Script.settled {leads : ViewNumber → Bool} {call : Call B} {trace : List (Event B)}
    {next : Option (Call B)} (script : Script leads call trace next) : Settled leads trace := by
  cases script with
  | refused call => rfl
  | timer view => rfl
  | timedOut view timeout => rfl
  | tc tc source target next ends => rfl
  | unknown proposal => rfl
  | proposal proposal accepted moved finalized cast next qc move finality vote =>
    exact ((qc.settled.cons rfl rfl).append move.settled |>.append finality.settled).append
      vote.settled
  | proposed tc proposal carried => rfl

theorem CountScript.settled {leads : ViewNumber → Bool} {authorities : AuthorityList B}
    {aggregator after : Aggregator B} {call : Call B} {trace : List (Event B)}
    {next : Option (Call B)} (script : CountScript authorities aggregator call trace next after) :
    Settled leads trace := by
  cases script with
  | vote vote verified missed => rfl
  | formedQc vote verified qc accepted formed handled =>
    exact .cons rfl rfl (.cons rfl rfl handled.settled)
  | reproposed vote verified qc accepted proposal formed handled bare =>
    exact (Settled.cons rfl rfl (.cons rfl rfl handled.settled)).append rfl
  | timeout timeout verified accepted qc missed => exact .cons rfl rfl qc.settled
  | formedTc timeout verified tc accepted moved qc formed move next ends =>
    have sent : Settled leads ([.aggregatedTc tc] ++ moved ++ [.gossip (.tc tc) true]) := by
      cases move with
      | behind => rfl
      | moved source target => rfl
    have front : Settled leads (.verifiedTimeout timeout :: accepted) :=
      qc.settled.cons rfl rfl
    simpa using front.append sent

theorem Performs.settled {keystore : Keystore B} {authorities : AuthorityList B}
    {aggregator after : Aggregator B} {call : Call B} {trace : List (Event B)}
    {next : Option (Call B)}
    (script : Performs keystore authorities aggregator call trace next after) :
    Settled (ConsensusState.new keystore authorities).leadsNext trace := by
  rcases script with ⟨quiet, _⟩ | counts
  · exact quiet.settled
  · exact counts.settled

/-- The authority in whose name a message is sent; a TC has none. -/
def ConsensusMessage.signer? : ConsensusMessage B → Option (AuthorityId B)
  | .propose made => some made.author
  | .vote cast => some cast.voter
  | .timeout sent => some sent.voter
  | _ => none

theorem mem_sentMessages {log : List (Event B)} {message : ConsensusMessage B} {force : Bool} :
    (message, force) ∈ sentMessages log ↔ Event.gossip message force ∈ log := by
  unfold sentMessages
  rw [List.mem_filterMap]
  constructor
  · intro ⟨event, member, sent⟩
    cases event with
    | gossip other forced =>
      cases sent
      exact member
    | _ => cases sent
  · intro member
    exact ⟨_, member, rfl⟩

variable [ClientForHotstuff B C] {keystore : Keystore B} {authorities : AuthorityList B}

/-- What is sent in the name of an authority is sent in that of the replica's own. -/
theorem Evident.signer_eq {policy : Policy B} {worker : ConsensusWorker B C}
    {message : ConsensusMessage B} {force : Bool} {id : AuthorityId B}
    (evident : Evident policy keystore authorities worker)
    (sent : Event.gossip message force ∈ worker.log) (signer : message.signer? = some id) :
    (ConsensusState.new keystore authorities).localAuthorityId = some id := by
  have sendable : Sendable worker.log message := evident.mem sent
  cases message with
  | propose made =>
    cases signer
    exact (evident.mem sendable).2
  | vote cast =>
    cases signer
    obtain ⟨view, proposal, voted⟩ := sendable
    exact (evident.mem voted).2.2.2.2.2
  | timeout timedOut =>
    cases signer
    exact (evident.mem sendable).2
  | tc formed => cases signer
  | syncRequest hash key => cases signer
  | phantom => cases signer

/-- In every run without a panic the messages a replica has gossiped are the
timeouts and proposals it has signed, the TCs it has completed and the votes it
has made for others to count: all of them, once each and in this order. All are
in the name of the replica's own authority, so that a node without one sends
only TCs. -/
theorem outbox_exact {replica : Replica B C} (run : Replica.Run keystore authorities replica)
    (alive : replica.control ≠ .halted) :
    sentMessages replica.worker.log =
      dueMessages (ConsensusState.new keystore authorities).leadsNext replica.worker.log ∧
    (∀ message force id, (message, force) ∈ sentMessages replica.worker.log →
      message.signer? = some id →
      (ConsensusState.new keystore authorities).localAuthorityId = some id) ∧
    ((ConsensusState.new keystore authorities).localAuthorityId = none →
      ∀ message force, (message, force) ∈ sentMessages replica.worker.log →
        ∃ tc, message = .tc tc ∧ Event.aggregatedTc tc ∈ replica.worker.log) := by
  have evident : Evident Policy.any keystore authorities replica.worker :=
    run.evident fun state _ call _ => Policy.any_admits state.worker call
  refine ⟨?_, fun message force id sent signer => ?_, fun observer message force sent => ?_⟩
  · exact run.scripted (motive := fun log _ _ => Settled _ log) rfl
      (fun _ _ _ _ settled => settled)
      (fun _ _ _ _ _ _ settled script => settled.append script.settled) alive
  · exact evident.signer_eq (mem_sentMessages.mp sent) signer
  · have member := mem_sentMessages.mp sent
    have nobody (id : AuthorityId B) (signer : message.signer? = some id) : False := by
      have own := evident.signer_eq member signer
      rw [observer] at own
      cases own
    have sendable : Sendable replica.worker.log message := evident.mem member
    cases message with
    | propose made => exact (nobody _ rfl).elim
    | vote cast => exact (nobody _ rfl).elim
    | timeout timedOut => exact (nobody _ rfl).elim
    | tc formed => exact ⟨formed, rfl, sendable⟩
    | syncRequest hash key => exact sendable.elim
    | phantom => exact sendable.elim

/-- One authority on its own sends its timeouts, TCs and proposals, and no vote. -/
theorem outbox_exact_solo :
    Sample.solo.control ≠ .halted ∧ (sentMessages Sample.solo.worker.log).length = 8 ∧
      sentMessages Sample.solo.worker.log =
        dueMessages (ConsensusState.new (Sample.keystore 0) (Sample.authorities 1)).leadsNext
          Sample.solo.worker.log := by
  have alive : Sample.solo.control ≠ .halted := by decide +kernel
  exact ⟨alive, by decide +kernel, (outbox_exact Sample.solo_run alive).1⟩

end Hotstuff
