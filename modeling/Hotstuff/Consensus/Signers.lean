import Hotstuff.Consensus.Overflow

/-! Who stands behind a signature. Votes, timeouts and proposals are signed over
byte strings of different lengths, so a digest that an honest key has signed
tells what its owner has done, as long as the hashes of a run do not collide. -/

namespace Hotstuff

variable {B C : Type} [BlockT B]

/-- The bytes behind every digest that is computed when an event is recorded,
those of the certificates in a checked message among them. -/
def Event.digested : Event B → List (List UInt8)
  | .verifiedProposal proposal => [proposal.preimage, proposal.qc.preimage]
  | .proposed proposal => [proposal.preimage]
  | .verifiedVote vote => [vote.preimage]
  | .voted _ _ vote => [vote.preimage]
  | .verifiedTimeout timeout => [timeout.preimage, timeout.highQc.preimage]
  | .timedOut timeout => [timeout.preimage]
  | .verifiedTc tc => tc.votes.map fun vote => timeoutPreimage tc.view vote.2.2
  | .aggregatedQc qc => [qc.preimage]
  | _ => []

/-- The byte strings that honest replicas hash in a run. -/
def Network.digested (network : Network B) (system : System B C) : Set (List UInt8) :=
  { bytes | ∃ id, network.Honest id ∧
    ∃ event ∈ (system id).worker.log, bytes ∈ event.digested }

theorem Network.digested_mono {network : Network B} {system final : System B C}
    (grows : network.Grows system final) : network.digested system ⊆ network.digested final := by
  intro bytes ⟨id, honest, event, logged, among⟩
  exact ⟨id, honest, event, grows id honest logged, among⟩

theorem Event.preimages_subset (event : Event B) : event.preimages ⊆ event.digested := by
  cases event with
  | verifiedProposal proposal => simp [Event.preimages, Event.digested]
  | _ => simp [Event.preimages, Event.digested]

theorem Network.preimages_subset (network : Network B) (system : System B C) :
    network.preimages system ⊆ network.digested system := by
  rintro bytes ⟨id, honest, event, logged, listed⟩
  exact ⟨id, honest, event, logged, event.preimages_subset listed⟩

section Signed

variable {strings : Set (List UInt8)} {event : Event B}

/-- An event that signs a digest has the bytes of that digest. -/
theorem Event.preimage_of_signed (apart : Set.InjOn (hashOf (B := B)) strings)
    (own : ∀ bytes ∈ event.preimages, bytes ∈ strings) {bytes : List UInt8}
    (among : bytes ∈ strings) (signed : event.signed? = some (hashOf bytes)) :
    (∃ seen proposal vote, event = .voted seen proposal vote ∧ vote.preimage = bytes) ∨
    (∃ timeout, event = .timedOut timeout ∧ timeout.preimage = bytes) ∨
    ∃ proposal, event = .proposed proposal ∧ proposal.preimage = bytes := by
  cases event with
  | voted seen proposal vote =>
    refine .inl ⟨seen, proposal, vote, rfl, ?_⟩
    exact apart (own _ (by simp [Event.preimages])) among (Option.some.inj signed)
  | timedOut timeout =>
    refine .inr (.inl ⟨timeout, rfl, ?_⟩)
    exact apart (own _ (by simp [Event.preimages])) among (Option.some.inj signed)
  | proposed proposal =>
    refine .inr (.inr ⟨proposal, rfl, ?_⟩)
    exact apart (own _ (by simp [Event.preimages])) among (Option.some.inj signed)
  | _ => cases signed

theorem Event.voted_of_signed (apart : Set.InjOn (hashOf (B := B)) strings)
    (own : ∀ bytes ∈ event.preimages, bytes ∈ strings) {hash : Hash B} {view : ViewNumber}
    (among : votePreimage (B := B) hash view ∈ strings)
    (signed : event.signed? = some (hashOf (votePreimage (B := B) hash view))) :
    ∃ seen proposal vote, event = .voted seen proposal vote ∧ vote.view = view ∧
      vote.proposalHash = hash := by
  have length := votePreimage_length (B := B) hash view
  rcases Event.preimage_of_signed apart own among signed with
    ⟨seen, proposal, vote, rfl, bytes⟩ | ⟨timeout, rfl, bytes⟩ | ⟨proposal, rfl, bytes⟩
  · obtain ⟨sameHash, sameView⟩ := votePreimage_inj bytes
    exact ⟨seen, proposal, vote, rfl, sameView, sameHash⟩
  · have short : timeout.preimage.length = 16 := timeoutPreimage_length _ _
    rw [bytes] at short
    omega
  · have long := proposal.preimage_length
    rw [bytes] at long
    omega

theorem Event.timedOut_of_signed (apart : Set.InjOn (hashOf (B := B)) strings)
    (own : ∀ bytes ∈ event.preimages, bytes ∈ strings) {view high : ViewNumber}
    (among : timeoutPreimage view high ∈ strings)
    (signed : event.signed? = some (hashOf (timeoutPreimage view high))) :
    ∃ timeout, event = .timedOut timeout ∧ timeout.view = view ∧
      timeout.highQc.view = high := by
  have length := timeoutPreimage_length view high
  rcases Event.preimage_of_signed apart own among signed with
    ⟨seen, proposal, vote, rfl, bytes⟩ | ⟨timeout, rfl, bytes⟩ | ⟨proposal, rfl, bytes⟩
  · have long : vote.preimage.length = 40 := votePreimage_length _ _
    rw [bytes] at long
    omega
  · exact ⟨timeout, rfl, timeoutPreimage_inj bytes⟩
  · have long := proposal.preimage_length
    rw [bytes] at long
    omega

end Signed

section Arrived

variable [ClientForHotstuff B C] {network : Network B} {system : System B C}
  {allowed : System B C → ConsensusMessage B → Prop} {guard : Replica B C → Prop}
  {id : AuthorityId B} {timeout : Timeout B}

theorem Network.Reachable.timeout_voter (persistent : network.Persistent allowed)
    (reachable : network.Reachable allowed guard system) (honest : network.Honest id)
    (made : Event.timedOut timeout ∈ (system id).worker.log) : timeout.voter = id := by
  have found := ((reachable.evident persistent honest).mem made).2
  exact Option.some.inj (found.symm.trans (network.own id honest.1 honest.2))

/-- A valid timeout of an honest authority that arrives, or that a replica has
made itself, is of a view its authority has timed out in, with a high QC of the
same view. -/
theorem Network.Reachable.timedOut_of_arrived (persistent : network.Persistent allowed)
    (reachable : network.Reachable allowed guard system) {strings : Set (List UInt8)}
    (apart : Set.InjOn (hashOf (B := B)) strings) (inside : network.digested system ⊆ strings)
    (among : timeout.preimage ∈ strings) (receiver : network.Honest id)
    (valid : timeout.verify network.authorities = .ok ())
    (present : network.Byzantine system (.timeout timeout) ∨
      Event.timedOut timeout ∈ (system id).worker.log)
    (honest : network.Honest timeout.voter) :
    ∃ own, Event.timedOut own ∈ (system timeout.voter).worker.log ∧ own.view = timeout.view ∧
      own.highQc.view = timeout.highQc.view := by
  have sent {sender : AuthorityId B} (sending : network.Honest sender)
      (made : Event.timedOut timeout ∈ (system sender).worker.log) :
      ∃ own, Event.timedOut own ∈ (system timeout.voter).worker.log ∧
        own.view = timeout.view ∧ own.highQc.view = timeout.highQc.view := by
    rw [reachable.timeout_voter persistent sending made]
    exact ⟨timeout, made, rfl, rfl⟩
  rcases present with (gossiped | unforged) | made
  · obtain ⟨sender, force, sending, gossiped⟩ := gossiped
    exact sent sending ((reachable.evident persistent sending).mem gossiped)
  · obtain ⟨⟨_, signature, found, correct⟩, _⟩ := Timeout.verify_ok_iff.mp valid
    obtain ⟨event, logged, signed⟩ := unforged timeout.voter signature timeout.digest
      (by simp [ConsensusMessage.signatures, found]) honest correct
    have own (bytes : List UInt8) (listed : bytes ∈ event.preimages) : bytes ∈ strings :=
      inside (network.preimages_subset system ⟨_, honest, event, logged, listed⟩)
    obtain ⟨made, rfl, view, high⟩ := Event.timedOut_of_signed apart own among signed
    exact ⟨made, logged, view, high⟩
  · exact sent receiver made

end Arrived

theorem injOn_of_hashesDiffer {strings : List (List UInt8)}
    (differ : hashesDiffer (B := B) strings = true) :
    Set.InjOn (hashOf (B := B)) {bytes | bytes ∈ strings} := by
  simp only [hashesDiffer, List.all_eq_true, List.mem_map, forall_exists_index, and_imp,
    forall_apply_eq_imp_iff₂, decide_eq_true_eq] at differ
  intro first listed second listedToo same
  exact differ first listed second listedToo same

/-- The byte strings hashed by the replicas of a cluster. -/
def Cluster.digested (cluster : Cluster B C) : List (List UInt8) :=
  (cluster.flatMap fun entry => entry.2.worker.log.flatMap Event.digested).dedup

theorem Cluster.digested_subset {network : Network B} {cluster : Cluster B C}
    (covered : cluster.covers network = true) (rest : System B C) :
    network.digested (cluster.system rest) ⊆ {bytes | bytes ∈ cluster.digested} := by
  intro bytes ⟨id, honest, event, logged, among⟩
  exact List.mem_dedup.mpr (List.mem_flatMap.mpr ⟨_, Cluster.mem_of_honest covered rest honest,
    List.mem_flatMap.mpr ⟨event, logged, among⟩⟩)

/-- The same with one more byte string. -/
theorem Cluster.insert_apart {network : Network B} {cluster : Cluster B C} {bytes : List UInt8}
    (covered : cluster.covers network = true)
    (differ : hashesDiffer (B := B) (bytes :: cluster.digested) = true) (rest : System B C) :
    Set.InjOn (hashOf (B := B)) (insert bytes (network.digested (cluster.system rest))) := by
  apply (injOn_of_hashesDiffer differ).mono
  intro other hashed
  rcases hashed with same | among
  · exact List.mem_cons.mpr (.inl same)
  · exact List.mem_cons.mpr (.inr (Cluster.digested_subset covered rest among))

end Hotstuff
