import Hotstuff.Consensus.Finality
import Hotstuff.Consensus.Lineage
import Hotstuff.Consensus.Panics

/-! Why the views of a run do not overflow. A replica reaches views one by one,
and the grandparent of a proposal is of a view that an honest replica has voted
in, as long as the QC above it is signed by authorities. -/

namespace Hotstuff

variable {B C : Type} [BlockT B]

def viewChanges (log : List (Event B)) : Nat :=
  log.countP fun event =>
    match event with
    | .advanced source target => source ≠ target
    | _ => false

/-- Where every recorded change goes one view on, the view counts them. -/
theorem viewChanges_eq {log : List (Event B)} {view : ViewNumber}
    (replayed : replayView log = some view)
    (single : ∀ source target, Event.advanced source target ∈ log →
      target = source ∨ source.next? = some target) : view.toNat = viewChanges log := by
  have added (log : List (Event B)) (event : Event B) :
      viewChanges (log ++ [event]) = viewChanges log + viewChanges [event] :=
    List.countP_append
  refine replayView_rec (motive := fun log view => view.toNat = viewChanges log)
    rfl ?_ ?_ replayed single
  · intro log source target change counted
    rw [added, ← counted]
    rcases change with stayed | following
    · simp [viewChanges, stayed]
    · have above := ViewNumber.next?_eq_some.mp following
      have apart : source ≠ target := by
        intro same
        rw [same] at above
        omega
      simp [viewChanges, apart, above]
  · intro log view event quiet counted
    rw [added, ← counted]
    cases event with
    | advanced source target => exact absurd rfl (quiet source target)
    | _ => rfl

def ConsensusMessage.qc? : ConsensusMessage B → Option (QC B)
  | .propose made => some made.qc
  | .timeout sent => some sent.highQc
  | _ => none

/-- A message that passes the check of its own type. -/
def ConsensusMessage.Verifies (authorities : AuthorityList B) : ConsensusMessage B → Prop
  | .propose made => made.verify authorities = .ok ()
  | .timeout sent => sent.verify authorities = .ok ()
  | .vote cast => cast.verify authorities = .ok ()
  | .tc formed => formed.verify authorities = .ok ()
  | .syncRequest _ _ => True
  | .phantom => True

/-- What may arrive where no QC is completed by keys of outsiders, in messages
that pass their check. -/
def Network.Inside (network : Network B) (system : System B C) (message : ConsensusMessage B) :
    Prop :=
  network.Byzantine system message ∧ (message.Verifies network.authorities →
    ∀ qc, message.qc? = some qc → ¬ qc.SignedByOutsider network.authorities)

/-- The byte strings that are hashed in a run, those behind the QCs of verified
proposals among them. -/
def Network.hashed (network : Network B) (system : System B C) : Set (List UInt8) :=
  network.preimages system ∪ { bytes | ∃ id proposal, network.Honest id ∧
    Event.verifiedProposal proposal ∈ (system id).worker.log ∧ bytes = proposal.qc.preimage }

/-- A QC that no outsider completes, and whose valid signatures of honest keys
were made by their owners. -/
structure Genuine (network : Network B) (system : System B C) (qc : QC B) : Prop where
  inside : ¬ qc.SignedByOutsider network.authorities
  signed : ∀ vote ∈ qc.votes, network.Honest vote.1 →
    BlockT.verify vote.2 qc.digest vote.1 = true →
    ∃ event ∈ (system vote.1).worker.log, event.signed? = some qc.digest

def Event.GenuineIn (network : Network B) (system : System B C) (event : Event B) : Prop :=
  ∀ qc, event.qc? = some qc → Genuine network system qc

variable {network : Network B} {system final : System B C} {id : AuthorityId B}

theorem Network.inside_persistent : network.Persistent (network.Inside (C := C)) := by
  intro before after message grows present
  exact ⟨network.byzantine_persistent before after message grows present.1, present.2⟩

theorem Genuine.default : Genuine network final QC.default where
  inside := by
    intro outside
    exact Nat.not_lt_zero _ outside.2.1
  signed := by
    intro vote member
    cases member

/-- What passes the check then is signed by a quorum of authorities. -/
theorem Genuine.sound {qc : QC B} (genuine : Genuine network final qc)
    (certified : qc.verify network.authorities = .ok ()) : qc.Sound network.authorities := by
  refine QC.sound_iff.mpr ⟨certified, fun vote member => ?_⟩
  obtain ⟨distinct, many, valid⟩ := QC.verify_ok_iff.mp certified
  by_contra stranger
  exact genuine.inside ⟨distinct, many, valid, vote, member, stranger⟩

theorem Genuine.of_held {log : List (Event B)} {qc : QC B}
    (genuine : ∀ event ∈ log, event.GenuineIn network final) (held : HeldQc log qc) :
    Genuine network final qc := by
  rcases held with ⟨proposal, member, rfl⟩ | ⟨timeout, member, rfl⟩ | member
  · exact genuine _ member _ rfl
  · exact genuine _ member _ rfl
  · exact genuine _ member _ rfl

theorem ConsensusMessage.mem_signatures_of_qc? {message : ConsensusMessage B} {qc : QC B}
    (carried : message.qc? = some qc) {vote : AuthorityId B × AuthoritySignature B}
    (member : vote ∈ qc.votes) : (vote.1, vote.2, qc.digest) ∈ message.signatures := by
  have among : (vote.1, vote.2, qc.digest) ∈ qc.signatures := List.mem_map_of_mem member
  cases message with
  | propose proposal =>
    cases carried
    exact List.mem_append_left _ (List.mem_append_right _ among)
  | timeout timeout =>
    cases carried
    exact List.mem_append_right _ among
  | _ => cases carried

/-- A QC of a message that arrives: it was sent by an honest replica, or its
signatures are unforged. -/
theorem Genuine.of_unforged {message : ConsensusMessage B} {qc : QC B}
    (grows : network.Grows system final) (carried : message.qc? = some qc)
    (inside : ¬ qc.SignedByOutsider network.authorities)
    (unforged : network.Unforged system message) : Genuine network final qc where
  inside := inside
  signed := by
    intro vote member honest valid
    obtain ⟨event, logged, signed⟩ := unforged _ _ _
      (ConsensusMessage.mem_signatures_of_qc? carried member) honest valid
    exact ⟨event, grows _ honest logged, signed⟩

variable [ClientForHotstuff B C] {guard : Replica B C → Prop}

/-- The QC of an arriving message, wherever the message comes from. -/
theorem Genuine.of_arrived {message : ConsensusMessage B} {qc : QC B}
    (reachable : network.Reachable network.Inside guard system)
    (grows : network.Grows system final)
    (others : ∀ sender, network.Honest sender → ∀ event ∈ (system sender).worker.log,
      event.GenuineIn network final)
    (arrives : network.Inside system message)
    (verifies : message.Verifies network.authorities) (carried : message.qc? = some qc) :
    Genuine network final qc := by
  obtain ⟨⟨sender, force, honest, sent⟩ | unforged, inside⟩ := arrives
  · have sendable := (reachable.evident Network.inside_persistent honest).mem sent
    cases message with
    | propose proposal => exact others sender honest _ sendable _ carried
    | timeout timeout => exact others sender honest _ sendable _ carried
    | _ => cases carried
  · exact .of_unforged grows carried (inside verifies qc carried) unforged

theorem signed_of_verifiedVote {keystore : Keystore B} {log : List (Event B)} {vote : Vote B}
    (reachable : network.Reachable network.Inside guard system)
    (grows : network.Grows system final) (receiver : network.Honest id)
    (own : keystore = network.keystore id) (shorter : log ⊆ (final id).worker.log)
    (past : Past (Evidence (Policy.only (network.Inside system)) keystore network.authorities) log)
    (verified : Event.verifiedVote vote ∈ log) (honest : network.Honest vote.voter) :
    ∃ event ∈ (final vote.voter).worker.log, event.signed? = some vote.digest := by
  obtain ⟨before, earlier, valid, (⟨gossiped | unforged, _⟩ | sendable)⟩ := past.mem verified
  · obtain ⟨sender, force, sending, sent⟩ := gossiped
    have evident := reachable.evident Network.inside_persistent sending
    obtain ⟨seen, proposal, voted⟩ := evident.mem sent
    have same := reachable.voter_eq Network.inside_persistent sending voted
    rw [same]
    exact ⟨_, grows sender sending voted, rfl⟩
  · obtain ⟨_, signature, present, genuine⟩ := Vote.verify_ok_iff.mp valid
    obtain ⟨event, logged, signed⟩ := unforged vote.voter signature vote.digest
      (by simp [ConsensusMessage.signatures, present]) honest genuine
    exact ⟨event, grows _ honest logged, signed⟩
  · obtain ⟨seen, proposal, voted⟩ := sendable
    obtain ⟨_, _, _, _, _, _, _, found⟩ := past.mem (earlier voted)
    subst own
    have same : vote.voter = id :=
      Option.some.inj (found.symm.trans (network.own id receiver.1 receiver.2))
    rw [same]
    exact ⟨_, shorter (earlier voted), rfl⟩

/-- The step: an event with genuine QCs before it, here and at all senders, has
a genuine QC. -/
theorem Event.GenuineIn.of_evidence {log : List (Event B)} {event : Event B}
    (reachable : network.Reachable network.Inside guard system)
    (grows : network.Grows system final)
    (others : ∀ sender, network.Honest sender → ∀ event ∈ (system sender).worker.log,
      event.GenuineIn network final)
    (honest : network.Honest id) (shorter : log ⊆ (final id).worker.log)
    (past : Past (Evidence (Policy.only (network.Inside system)) (network.keystore id)
      network.authorities) log)
    (genuine : ∀ event ∈ log, event.GenuineIn network final)
    (evidence : Evidence (Policy.only (network.Inside system)) (network.keystore id)
      network.authorities log event) : event.GenuineIn network final := by
  intro qc found
  cases event with
  | verifiedProposal proposal =>
    rcases evidence.2 with arrives | own
    · have checked := (ConsensusState.verifyProposal_ok_iff.mp evidence.1).2
      exact .of_arrived reachable grows others arrives checked found
    · exact genuine _ own _ found
  | verifiedTimeout timeout =>
    rcases evidence.2 with arrives | own
    · exact .of_arrived reachable grows others arrives evidence.1 found
    · exact genuine _ own _ found
  | proposed proposal =>
    cases found
    rcases evidence.1 with start | held
    · rw [start]
      exact .default
    · exact .of_held genuine held
  | timedOut timeout =>
    cases found
    rcases evidence.1 with start | held
    · rw [start]
      exact .default
    · exact .of_held genuine held
  | aggregatedQc formed =>
    cases found
    obtain ⟨_, _, entries⟩ := evidence
    constructor
    · intro outside
      obtain ⟨entry, listed, stranger⟩ := outside.2.2.2
      obtain ⟨vote, verified, _, _, voter, _⟩ := entries entry listed
      obtain ⟨_, _, valid, _⟩ := past.mem verified
      rw [← voter] at stranger
      exact stranger (Vote.verify_ok_iff.mp valid).1
    · intro entry listed correct _
      obtain ⟨vote, verified, _, digest, voter, _⟩ := entries entry listed
      rw [← voter] at correct ⊢
      rw [← digest]
      exact signed_of_verifiedVote reachable grows honest rfl shorter past verified correct
  | _ => cases found

/-- Every QC in every log of a run is genuine, seen from any later state. -/
theorem Network.Reachable.genuineIn (reachable : network.Reachable network.Inside guard system)
    (grows : network.Grows system final) :
    ∀ id, network.Honest id → ∀ event ∈ (system id).worker.log,
      event.GenuineIn network final := by
  apply reachable.all_events (motive := Event.GenuineIn network final)
    Network.inside_persistent grows
  intro system id log event before earlier others honest shorter _ past genuine evidence
  exact .of_evidence before earlier others honest shorter past genuine evidence

omit [ClientForHotstuff B C] in
/-- Whoever signed the digest of a QC has voted for its proposal: the digests of
timeouts and proposals are of byte strings of other lengths. -/
theorem cast_of_signed_qc {qc : QC B} {event : Event B}
    (apart : Set.InjOn (hashOf (B := B)) (network.hashed system))
    (certified : qc.preimage ∈ network.hashed system) (honest : network.Honest id)
    (member : event ∈ (system id).worker.log) (signed : event.signed? = some qc.digest) :
    Cast system id qc.view qc.proposalHash := by
  have hashed (bytes : List UInt8) (listed : bytes ∈ event.preimages) :
      bytes ∈ network.hashed system := .inl ⟨id, honest, event, member, listed⟩
  have length : qc.preimage.length = 40 := votePreimage_length _ _
  cases event with
  | voted seen proposal cast =>
    have bytes : cast.preimage = qc.preimage :=
      apart (hashed _ (by simp [Event.preimages])) certified (Option.some.inj signed)
    obtain ⟨sameHash, sameView⟩ := votePreimage_inj bytes
    exact ⟨seen, proposal, cast, member, sameView, sameHash⟩
  | timedOut timeout =>
    have bytes : timeout.preimage = qc.preimage :=
      apart (hashed _ (by simp [Event.preimages])) certified (Option.some.inj signed)
    have short : timeout.preimage.length = 16 := timeoutPreimage_length _ _
    rw [bytes] at short
    omega
  | proposed proposal =>
    have bytes : proposal.preimage = qc.preimage :=
      apart (hashed _ (by simp [Event.preimages])) certified (Option.some.inj signed)
    have long := proposal.preimage_length
    rw [bytes] at long
    omega
  | _ => cases signed

/-- A verified proposal on a QC other than the default one has an honest voter
behind it. -/
theorem Network.Reachable.cast_below
    (few : 3 * network.faulty.card < network.authorities.length)
    (reachable : network.Reachable network.Inside guard system)
    (apart : Set.InjOn (hashOf (B := B)) (network.hashed system)) (honest : network.Honest id)
    {proposal : Proposal B}
    (verified : Event.verifiedProposal proposal ∈ (system id).worker.log)
    (certified : proposal.qc.verify network.authorities = .ok ()) :
    ∃ voter, network.Honest voter ∧
      Cast system voter proposal.qc.view proposal.qc.proposalHash := by
  have genuine := reachable.genuineIn (fun _ _ _ member => member) id honest _ verified _ rfl
  have sound := genuine.sound certified
  have fewIds : 3 * network.faulty.card < network.authorities.ids.length := by
    simpa [AuthorityList.ids] using few
  obtain ⟨voter, listed, _, correct⟩ := sound.1.common sound.1 network.faulty fewIds
  obtain ⟨vote, member, rfl⟩ := List.mem_map.mp listed
  have voting : network.Honest vote.1 := ⟨sound.1.known _ listed, correct⟩
  obtain ⟨event, logged, signed⟩ := genuine.signed vote member voting (sound.2 vote member)
  exact ⟨vote.1, voting, cast_of_signed_qc apart (.inr ⟨id, proposal, honest, verified, rfl⟩)
    voting logged signed⟩

theorem Network.Reachable.view_of_cast
    (reachable : network.Reachable network.Inside guard system) (honest : network.Honest id)
    {view : ViewNumber} {hash : Hash B} (cast : Cast system id view hash) :
    view ≤ (system id).worker.state.view := by
  obtain ⟨seen, proposal, vote, member, rfl, _⟩ := cast
  have disciplined := reachable.disciplined Network.inside_persistent honest
  exact UInt64.le_trans (disciplined.spent _ member) disciplined.behind

theorem Network.Reachable.proposal_of_cast
    (reachable : network.Reachable network.Inside guard system) (honest : network.Honest id)
    {view : ViewNumber} {hash : Hash B} (cast : Cast system id view hash) :
    ∃ proposal, Event.verifiedProposal proposal ∈ (system id).worker.log ∧
      proposal.view = view ∧ proposal.digest = hash := by
  obtain ⟨seen, proposal, vote, member, rfl, rfl⟩ := cast
  obtain ⟨verified, proposalView, voteView, digest, _⟩ :=
    (reachable.evident Network.inside_persistent honest).mem member
  exact ⟨proposal, verified, proposalView.trans voteView.symm, digest.symm⟩

/-- The proposal that a verified one is built on is of a view that some honest
replica has reached. -/
theorem Network.Reachable.parent_view_reached
    (few : 3 * network.faulty.card < network.authorities.length)
    (reachable : network.Reachable network.Inside guard system)
    (apart : Set.InjOn (hashOf (B := B)) (network.hashed system))
    (real : ∀ bytes ∈ network.preimages system, hashOf (B := B) bytes ≠ BlockT.defaultHash)
    (honest : network.Honest id) {child proposal : Proposal B}
    (verified : Event.verifiedProposal child ∈ (system id).worker.log)
    (verifiedToo : Event.verifiedProposal proposal ∈ (system id).worker.log)
    (built : proposal.digest = child.qc.proposalHash) :
    ∃ voter, network.Honest voter ∧ proposal.view ≤ (system voter).worker.state.view := by
  have hashed : proposal.preimage ∈ network.preimages system :=
    ⟨id, honest, _, verifiedToo, by simp [Event.preimages]⟩
  have evident := reachable.evident Network.inside_persistent honest
  have checked := (ConsensusState.verifyProposal_ok_iff.mp (evident.mem verified).1).2
  rcases (Proposal.verify_ok_iff.mp checked).2 with exempt | certified
  · rw [(QC.eq_default_iff.mp exempt).1] at built
    exact absurd built (real _ hashed)
  · obtain ⟨voter, voting, cast⟩ := reachable.cast_below few apart honest verified certified
    obtain ⟨voted, seen, view, digest⟩ := reachable.proposal_of_cast voting cast
    have bytes : voted.preimage = proposal.preimage :=
      apart (.inl ⟨voter, voting, _, seen, by simp [Event.preimages]⟩) (.inl hashed)
        (digest.trans built.symm)
    refine ⟨voter, voting, ?_⟩
    rw [← (Proposal.preimage_inj bytes).2.2.1, view]
    exact reachable.view_of_cast voting cast

/-- In a run the view of a replica is the number of its view changes. -/
theorem Network.Reachable.view_eq (reachable : network.Reachable network.Inside guard system)
    (honest : network.Honest id) :
    (system id).worker.state.view.toNat = viewChanges (system id).worker.log := by
  have run : Replica.Run (network.keystore id) network.authorities (system id) :=
    (reachable.replica Network.inside_persistent honest).mono (fun _ _ => trivial)
      fun _ _ => trivial
  exact viewChanges_eq (Replica.Run.paced run).replayed (Replica.Run.single_changes run)

/-- With fewer than a third of the authorities faulty, and whatever they send but
for QCs completed by keys of outsiders: none of the additions to a view overflows
in any honest replica, as long as none has changed its view `2 ^ 64 - 1` times. -/
theorem no_view_overflow {network : Network B} {system : System B C}
    (few : 3 * network.faulty.card < network.authorities.length)
    (reachable : network.Reachable network.Inside (fun _ => True) system)
    (apart : Set.InjOn (hashOf (B := B)) (network.hashed system))
    (real : ∀ bytes ∈ network.preimages system, hashOf (B := B) bytes ≠ BlockT.defaultHash)
    (short : ∀ id, network.Honest id → viewChanges (system id).worker.log + 1 < 2 ^ 64)
    {id : AuthorityId B} (honest : network.Honest id) : (system id).control ≠ .halted := by
  have bounded (voter : AuthorityId B) (voting : network.Honest voter) :
      (system voter).worker.state.view.toNat + 1 < 2 ^ 64 := by
    rw [reachable.view_eq voting]
    exact short voter voting
  intro halted
  have stuck := (reachable.replica Network.inside_persistent honest).stuck
    (Policy.only_meets (network.Inside system)) halted
  rcases stuck with last | empty | ⟨parent, grandpa, verified, verifiedToo, built, last⟩
  · have large := ViewNumber.next?_eq_none.mp last
    have small := bounded id honest
    omega
  · have same := (reachable.evident Network.inside_persistent honest).sameAuthorities
    rw [← same, empty] at few
    exact Nat.not_lt_zero _ few
  · obtain ⟨voter, voting, reached⟩ :=
      reachable.parent_view_reached few apart real honest verified verifiedToo built
    have large := ViewNumber.next?_eq_none.mp last
    have small := bounded voter voting
    have below := UInt64.le_iff_toNat_le.mp reached
    omega

def hashedBytes (log : List (Event B)) : List (List UInt8) :=
  log.flatMap fun event =>
    event.preimages ++ (event.verifiedProposal?.map fun proposal => proposal.qc.preimage).toList

def hashesDiffer (strings : List (List UInt8)) : Bool :=
  let hashed := strings.map fun bytes => (hashOf (B := B) bytes, bytes)
  hashed.all fun first => hashed.all fun second =>
    decide (first.1 = second.1 → first.2 = second.2)

section Alone

variable {log : List (Event B)} {bytes : List UInt8}

omit [ClientForHotstuff B C] in
/-- Where one replica alone has done anything, its log has all the bytes. -/
theorem mem_preimages_alone (quiet : ∀ other, other ≠ id → (system other).worker.log = [])
    (hashed : bytes ∈ network.preimages system) : bytes ∈ hashedBytes (system id).worker.log := by
  obtain ⟨other, _, event, logged, listed⟩ := hashed
  by_cases same : other = id
  · subst other
    exact List.mem_flatMap.mpr ⟨event, logged, List.mem_append_left _ listed⟩
  · rw [quiet other same] at logged
    cases logged

omit [ClientForHotstuff B C] in
theorem mem_hashed_alone (quiet : ∀ other, other ≠ id → (system other).worker.log = [])
    (hashed : bytes ∈ network.hashed system) : bytes ∈ hashedBytes (system id).worker.log := by
  rcases hashed with signed | ⟨other, proposal, _, verified, rfl⟩
  · exact mem_preimages_alone quiet signed
  · by_cases same : other = id
    · subst other
      refine List.mem_flatMap.mpr ⟨_, verified, List.mem_append_right _ ?_⟩
      exact List.mem_singleton_self _
    · rw [quiet other same] at verified
      cases verified

omit [ClientForHotstuff B C] in
theorem apart_alone (quiet : ∀ other, other ≠ id → (system other).worker.log = [])
    (differ : hashesDiffer (B := B) (hashedBytes (system id).worker.log) = true) :
    Set.InjOn (hashOf (B := B)) (network.hashed system) := by
  simp only [hashesDiffer, List.all_eq_true, List.mem_map, forall_exists_index, and_imp,
    forall_apply_eq_imp_iff₂, decide_eq_true_eq] at differ
  intro first hashed second hashedToo same
  exact differ first (mem_hashed_alone quiet hashed) second (mem_hashed_alone quiet hashedToo) same

theorem Network.Reachable.react {allowed : System B C → ConsensusMessage B → Prop} {call : Call B}
    (fuel : Nat) (honest : network.Honest id)
    (arrives : (system id).control = .idle →
      Replica.Step (allowed system) (system id) { system id with control := .running call })
    (reachable : network.Reachable allowed (fun _ => True) system) :
    network.Reachable allowed (fun _ => True)
      (Function.update system id ((system id).react fuel call)) := by
  unfold Replica.react
  split
  · rename_i idle
    split
    · apply Network.Reachable.settle (fun _ _ => trivial) fuel honest
      · exact .step reachable honest trivial (arrives idle)
      · exact Replica.settles_true fuel _
    · rw [Function.update_eq_self]
      exact reachable
  · rw [Function.update_eq_self]
    exact reachable

/-- One replica handles inputs that may arrive at any time. -/
theorem Network.Reachable.session {allowed : System B C → ConsensusMessage B → Prop}
    (fuel : Nat) (calls : List (Call B)) (honest : network.Honest id)
    (arrive : ∀ call ∈ calls, ∀ now : System B C, (now id).control = .idle →
      Replica.Step (allowed now) (now id) { now id with control := .running call })
    (reachable : network.Reachable allowed (fun _ => True) system) :
    network.Reachable allowed (fun _ => True)
      (Function.update system id ((system id).session fuel calls)) := by
  induction calls generalizing system with
  | nil =>
    rw [show (system id).session fuel [] = system id from rfl, Function.update_eq_self]
    exact reachable
  | cons call rest ih =>
    have first := reachable.react fuel honest (arrive call (List.mem_cons_self ..) system)
    have others := ih (fun call member => arrive call (List.mem_cons_of_mem _ member)) first
    rw [Function.update_self, Function.update_idem] at others
    exact others

end Alone

/-- The other replicas have started, and one has handled its inputs. -/
def Sample.alone (count : Nat) (fuel : Nat) (calls : List (Call Sample)) :
    System Sample Sample.Client :=
  Function.update (Sample.node count fun _ => 1) (0 : Fin 8)
    ((Sample.node count (fun _ => 1) 0).session fuel calls)

theorem Sample.alone_quiet (count fuel : Nat) (calls : List (Call Sample)) :
    ∀ other, other ≠ (0 : Fin 8) → (Sample.alone count fuel calls other).worker.log = [] := by
  intro other apart
  rw [Sample.alone, Function.update_of_ne apart]
  rfl

theorem Sample.alone_reachable {count fuel : Nat} {faulty : Finset (Fin 8)}
    {calls : List (Call Sample)}
    {allowed : System Sample Sample.Client → ConsensusMessage Sample → Prop}
    (honest : (Sample.network count faulty).Honest (0 : Fin 8))
    (arrive : ∀ call ∈ calls, ∀ now : System Sample Sample.Client,
      (now (0 : Fin 8)).control = .idle → Replica.Step (allowed now) (now (0 : Fin 8))
        { now (0 : Fin 8) with control := .running call }) :
    (Sample.network count faulty).Reachable allowed (fun _ => True)
      (Sample.alone count fuel calls) :=
  .session fuel calls honest arrive (.start fun id _ => Sample.replica_initial count id _)

theorem Sample.alone_viewChanges {count fuel bound : Nat} {calls : List (Call Sample)}
    (own : viewChanges (Sample.alone count fuel calls (0 : Fin 8)).worker.log ≤ bound)
    (id : Fin 8) : viewChanges (Sample.alone count fuel calls id).worker.log ≤ bound := by
  by_cases same : id = 0
  · subst id
    exact own
  · rw [Sample.alone_quiet count fuel calls id same]
    exact Nat.zero_le _

/-- The single authority finalizes a block without an overflow. -/
theorem no_view_overflow_solo :
    let system := Sample.alone 1 30 [.localTimer, .localTimer]
    finalizedProposals (system (0 : Fin 8)).worker.log ≠ [] ∧
      (system (0 : Fin 8)).control ≠ .halted := by
  intro system
  have honest : (Sample.network 1 ∅).Honest (0 : Fin 8) := by decide
  have quiet := Sample.alone_quiet 1 30 [.localTimer, .localTimer]
  refine ⟨by decide +kernel, ?_⟩
  refine no_view_overflow (by decide) ?_ ?_ ?_ ?_ honest
  · apply Sample.alone_reachable honest
    intro call member now idle
    obtain rfl : call = .localTimer := by simpa using member
    exact .timer idle
  · exact apart_alone quiet (by decide +kernel)
  · have real : ∀ bytes ∈ hashedBytes (system (0 : Fin 8)).worker.log,
        hashOf (B := Sample) bytes ≠ BlockT.defaultHash := by decide +kernel
    intro bytes hashed
    exact real bytes (mem_preimages_alone quiet hashed)
  · intro id _
    have few : viewChanges (system id).worker.log ≤ 9 :=
      Sample.alone_viewChanges (by decide +kernel) id
    omega

/-- Proposals of the faulty authority 3: one of the last view, one on a QC for
it that the keys 5, 6 and 7 have signed, and one on a QC for that. -/
def Sample.lastView : Proposal Sample :=
  Sample.proposal QC.default 1 (UInt64.ofNat (2 ^ 64 - 1)) 3

def Sample.overLastView : Proposal Sample :=
  Sample.proposal (Sample.qc Sample.lastView.digest 5 [5, 6, 7]) 2 3 3

def Sample.overflowing : List (Proposal Sample) :=
  [Sample.lastView, Sample.overLastView,
    Sample.proposal (Sample.qc Sample.overLastView.digest 5 [5, 6, 7]) 3 7 3]

/-- With three of four authorities honest, the faulty one sends three proposals
whose QCs are signed by keys of nobody. Replica 0 is in view 1 when it computes
the view after the last one, and its task panics. -/
theorem view_overflow_by_outsiders :
    let network := Sample.network 4 {3}
    let system := Sample.alone 4 9 (Sample.overflowing.map .proposal)
    3 * network.faulty.card < network.authorities.length ∧
    network.Reachable network.Byzantine (fun _ => True) system ∧
    Set.InjOn (hashOf (B := Sample)) (network.hashed system) ∧
    (∀ bytes ∈ network.preimages system, hashOf (B := Sample) bytes ≠ BlockT.defaultHash) ∧
    (∀ id, network.Honest id → viewChanges (system id).worker.log ≤ 1) ∧
    network.Honest (0 : Fin 8) ∧ (system (0 : Fin 8)).control = .halted := by
  intro network system
  have honest : network.Honest (0 : Fin 8) := by decide
  have quiet := Sample.alone_quiet 4 9 (Sample.overflowing.map .proposal)
  refine ⟨by decide, ?_, apart_alone quiet (by decide +kernel), ?_, ?_, honest, by decide +kernel⟩
  · apply Sample.alone_reachable honest
    intro call member now idle
    obtain ⟨proposal, listed, rfl⟩ := List.mem_map.mp member
    have strangers : ∀ proposal ∈ Sample.overflowing,
        ∀ entry ∈ (ConsensusMessage.propose proposal).signatures,
          ¬ network.Honest entry.1 := by decide +kernel
    have unforged : network.Unforged now (.propose proposal) := by
      intro id signature digest among correct
      exact absurd correct (strangers proposal listed _ among)
    exact .receive idle (.inr unforged) rfl
  · have real : ∀ bytes ∈ hashedBytes (system (0 : Fin 8)).worker.log,
        hashOf (B := Sample) bytes ≠ BlockT.defaultHash := by decide +kernel
    intro bytes hashed
    exact real bytes (mem_preimages_alone quiet hashed)
  · intro id _
    exact Sample.alone_viewChanges (by decide +kernel) id

end Hotstuff
