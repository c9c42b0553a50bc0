import Hotstuff.Consensus.Aggregator

/-! `ConsensusState` of `consensus/src/consensus.rs`. A panic of the source is
`none` where nothing else can go wrong, and `Fault.panic` elsewhere. -/

namespace Hotstuff

/-- The keystore of a node. `signWith` is `sign_with` with the returned bytes
already converted to an `AuthoritySignature`. -/
structure Keystore (B : Type) [BlockT B] where
  hasKeys : AuthorityId B → Bool
  signWith : AuthorityId B → Hash B → Except String (Option (AuthoritySignature B))

structure ConsensusState (B : Type) [BlockT B] where
  keystore : Keystore B
  authorities : AuthorityList B
  view : ViewNumber
  lastVotedView : ViewNumber
  highQc : QC B
  aggregator : Aggregator B

namespace ConsensusState

variable {B : Type} [BlockT B]

def new (keystore : Keystore B) (authorities : AuthorityList B) : ConsensusState B :=
  { keystore, authorities, view := 0, lastVotedView := 0, highQc := QC.default,
    aggregator := Aggregator.new }

def localAuthorityId (state : ConsensusState B) : Option (AuthorityId B) :=
  state.authorities.ids.find? state.keystore.hasKeys

def increaseLastVotedView (state : ConsensusState B) : ConsensusState B :=
  { state with lastVotedView := max state.lastVotedView state.view }

def makeTimeout (state : ConsensusState B) : Except (HotstuffError B) (Timeout B) :=
  match state.localAuthorityId with
  | none => .error .notAuthority
  | some id =>
    let timeout : Timeout B := ⟨state.highQc, state.view, id, none⟩
    match state.keystore.signWith id timeout.digest with
    | .error reason => .error (.other reason)
    | .ok signature => .ok { timeout with signature }

def makeProposal (state : ConsensusState B) (payload : Payload B) (tc : Option (TC B)) :
    Except (HotstuffError B) (Proposal B) :=
  match state.localAuthorityId with
  | none => .error .notAuthority
  | some id =>
    let proposal : Proposal B := ⟨state.highQc, tc, payload, state.view, id, none⟩
    match state.keystore.signWith id proposal.digest with
    | .error reason => .error (.other reason)
    | .ok signature => .ok { proposal with signature }

theorem makeTimeout_ok {state : ConsensusState B} {timeout : Timeout B}
    (made : state.makeTimeout = .ok timeout) :
    timeout.highQc = state.highQc ∧ timeout.view = state.view ∧
      state.localAuthorityId = some timeout.voter := by
  unfold makeTimeout at made
  split at made
  · cases made
  · rename_i id found
    dsimp only at made
    split at made
    · cases made
    · cases made
      exact ⟨rfl, rfl, found⟩

theorem makeProposal_ok {state : ConsensusState B} {payload : Payload B} {tc : Option (TC B)}
    {proposal : Proposal B} (made : state.makeProposal payload tc = .ok proposal) :
    proposal.qc = state.highQc ∧ proposal.view = state.view ∧
      state.localAuthorityId = some proposal.author := by
  unfold makeProposal at made
  split at made
  · cases made
  · rename_i id found
    dsimp only at made
    split at made
    · cases made
    · cases made
      exact ⟨rfl, rfl, found⟩

theorem makeProposal_payload {state : ConsensusState B} {payload : Payload B}
    {tc : Option (TC B)} {proposal : Proposal B}
    (made : state.makeProposal payload tc = .ok proposal) : proposal.payload = payload := by
  unfold makeProposal at made
  split at made
  · cases made
  · dsimp only at made
    split at made
    · cases made
    · cases made
      rfl

theorem makeProposal_tc {state : ConsensusState B} {payload : Payload B}
    {tc : Option (TC B)} {proposal : Proposal B}
    (made : state.makeProposal payload tc = .ok proposal) : proposal.tc = tc := by
  unfold makeProposal at made
  split at made
  · cases made
  · dsimp only at made
    split at made
    · cases made
    · cases made
      rfl

/-- The signature of a timeout is what the keystore returned for its digest. -/
theorem makeTimeout_signed {state : ConsensusState B} {timeout : Timeout B}
    (made : state.makeTimeout = .ok timeout) :
    state.keystore.signWith timeout.voter timeout.digest = .ok timeout.signature := by
  unfold makeTimeout at made
  split at made
  · cases made
  · dsimp only at made
    split at made
    · cases made
    · rename_i signature signed
      cases made
      exact signed

theorem makeProposal_signed {state : ConsensusState B} {payload : Payload B}
    {tc : Option (TC B)} {proposal : Proposal B}
    (made : state.makeProposal payload tc = .ok proposal) :
    state.keystore.signWith proposal.author proposal.digest = .ok proposal.signature := by
  unfold makeProposal at made
  split at made
  · cases made
  · dsimp only at made
    split at made
    · cases made
    · rename_i signature signed
      cases made
      exact signed

/-- The view is marked as voted before signing, so a signing error spends it. -/
def makeVote (state : ConsensusState B) (proposal : Proposal B) :
    Option (Vote B) × ConsensusState B :=
  match state.localAuthorityId with
  | none => (none, state)
  | some id =>
    if proposal.view ≤ state.lastVotedView then (none, state)
    else
      let marked := { state with lastVotedView := max state.lastVotedView proposal.view }
      let vote : Vote B := ⟨proposal.digest, proposal.view, id, none⟩
      match state.keystore.signWith id vote.digest with
      | .error _ => (none, marked)
      | .ok signature => (some { vote with signature }, marked)

/-- The three outcomes of `make_vote`: nothing happens, signing fails after the
view is marked, or the vote is made. -/
theorem makeVote_cases (state : ConsensusState B) (proposal : Proposal B) :
    state.makeVote proposal = (none, state) ∨
    (state.lastVotedView < proposal.view ∧ state.makeVote proposal =
      (none, { state with lastVotedView := max state.lastVotedView proposal.view })) ∨
    (state.lastVotedView < proposal.view ∧ ∃ id signature,
      state.localAuthorityId = some id ∧
      state.makeVote proposal = (some ⟨proposal.digest, proposal.view, id, signature⟩,
        { state with lastVotedView := max state.lastVotedView proposal.view })) := by
  unfold makeVote
  cases state.localAuthorityId with
  | none => exact .inl rfl
  | some id =>
    by_cases spent : proposal.view ≤ state.lastVotedView
    · simp [spent]
    · have fresh := UInt64.not_le.mp spent
      simp only [spent, ↓reduceIte]
      cases state.keystore.signWith id
          (Vote.digest ⟨proposal.digest, proposal.view, id, none⟩) with
      | error reason => exact .inr (.inl ⟨fresh, rfl⟩)
      | ok signature => exact .inr (.inr ⟨fresh, id, signature, rfl, rfl⟩)

theorem makeVote_signed {state marked : ConsensusState B} {proposal : Proposal B} {vote : Vote B}
    (made : state.makeVote proposal = (some vote, marked)) :
    state.localAuthorityId = some vote.voter ∧
      state.keystore.signWith vote.voter vote.digest = .ok vote.signature := by
  unfold makeVote at made
  split at made
  · cases made
  · rename_i id found
    split at made
    · cases made
    · dsimp only at made
      split at made
      · cases made
      · rename_i signature signed
        cases made
        exact ⟨found, signed⟩

/-- Leaders rotate; an empty authority list is a division by zero. -/
def viewLeader (state : ConsensusState B) (view : ViewNumber) : Option (AuthorityId B) :=
  state.authorities.ids[view.toNat % state.authorities.length]?

def isLeader (state : ConsensusState B) : Option Bool :=
  (state.viewLeader state.view).map fun leader => state.localAuthorityId = some leader

def verifyTimeout (state : ConsensusState B) (timeout : Timeout B) :
    Except (HotstuffError B) Unit :=
  timeout.verify state.authorities

def verifyProposal (state : ConsensusState B) (proposal : Proposal B) : Except (Fault B) Unit :=
  match state.viewLeader proposal.view with
  | none => .error .panic
  | some leader =>
    if proposal.author = leader then (proposal.verify state.authorities).mapError .error
    else .error (.error .wrongProposer)

def verifyVote (state : ConsensusState B) (vote : Vote B) : Except (HotstuffError B) Unit :=
  if vote.view < state.view then .error .expiredVote else vote.verify state.authorities

def verifyTc (state : ConsensusState B) (tc : TC B) : Except (HotstuffError B) Unit :=
  if tc.view < state.view then .error .invalidTC else tc.verify state.authorities

/-- The check of a proposal depends on the authorities alone. -/
theorem verifyProposal_congr {state other : ConsensusState B}
    (same : state.authorities = other.authorities) (proposal : Proposal B) :
    state.verifyProposal proposal = other.verifyProposal proposal := by
  simp only [verifyProposal, viewLeader, same]

theorem localAuthorityId_congr {state other : ConsensusState B}
    (sameKeystore : state.keystore = other.keystore)
    (sameAuthorities : state.authorities = other.authorities) :
    state.localAuthorityId = other.localAuthorityId := by
  simp only [localAuthorityId, sameKeystore, sameAuthorities]

theorem viewLeader_congr {state other : ConsensusState B}
    (same : state.authorities = other.authorities) (view : ViewNumber) :
    state.viewLeader view = other.viewLeader view := by
  simp only [viewLeader, same]

theorem isLeader_true {state : ConsensusState B} (leads : state.isLeader = some true) :
    ∃ id, state.viewLeader state.view = some id ∧ state.localAuthorityId = some id := by
  obtain ⟨id, leader, own⟩ := Option.map_eq_some_iff.mp leads
  exact ⟨id, leader, of_decide_eq_true own⟩

theorem verifyProposal_ok_iff {state : ConsensusState B} {proposal : Proposal B} :
    state.verifyProposal proposal = .ok () ↔
      state.viewLeader proposal.view = some proposal.author ∧
        proposal.verify state.authorities = .ok () := by
  unfold verifyProposal
  cases state.viewLeader proposal.view with
  | none => simp
  | some leader =>
    by_cases same : proposal.author = leader
    · subst leader
      cases proposal.verify state.authorities with
      | error failure => simp [Except.mapError]
      | ok value => simp [Except.mapError]
    · have apart : leader ≠ proposal.author := fun equal => same equal.symm
      simp [same, apart]

theorem verifyVote_ok_iff {state : ConsensusState B} {vote : Vote B} :
    state.verifyVote vote = .ok () ↔
      state.view ≤ vote.view ∧ vote.verify state.authorities = .ok () := by
  unfold verifyVote
  by_cases late : vote.view < state.view
  · simp [late, UInt64.not_le.mpr late]
  · simp [late, UInt64.not_lt.mp late]

theorem verifyTc_ok_iff {state : ConsensusState B} {tc : TC B} :
    state.verifyTc tc = .ok () ↔ state.view ≤ tc.view ∧ tc.verify state.authorities = .ok () := by
  unfold verifyTc
  by_cases late : tc.view < state.view
  · simp [late, UInt64.not_le.mpr late]
  · simp [late, UInt64.not_lt.mp late]

def addTimeout (state : ConsensusState B) (timeout : Timeout B) :
    Except (HotstuffError B) (Option (TC B)) × ConsensusState B :=
  let (result, aggregator) := state.aggregator.addTimeout timeout state.authorities
  (result, { state with aggregator })

def addVote (state : ConsensusState B) (vote : Vote B) :
    Except (HotstuffError B) (Option (QC B)) × ConsensusState B :=
  let (result, aggregator) := state.aggregator.addVote vote state.authorities
  (result, { state with aggregator })

def updateHighQc (state : ConsensusState B) (qc : QC B) : ConsensusState B :=
  if state.highQc.view < qc.view then { state with highQc := qc } else state

@[simp] theorem updateHighQc_view (state : ConsensusState B) (qc : QC B) :
    (state.updateHighQc qc).view = state.view := by
  unfold updateHighQc
  split <;> rfl

@[simp] theorem updateHighQc_lastVotedView (state : ConsensusState B) (qc : QC B) :
    (state.updateHighQc qc).lastVotedView = state.lastVotedView := by
  unfold updateHighQc
  split <;> rfl

@[simp] theorem updateHighQc_aggregator (state : ConsensusState B) (qc : QC B) :
    (state.updateHighQc qc).aggregator = state.aggregator := by
  unfold updateHighQc
  split <;> rfl

@[simp] theorem updateHighQc_authorities (state : ConsensusState B) (qc : QC B) :
    (state.updateHighQc qc).authorities = state.authorities := by
  unfold updateHighQc
  split <;> rfl

@[simp] theorem updateHighQc_keystore (state : ConsensusState B) (qc : QC B) :
    (state.updateHighQc qc).keystore = state.keystore := by
  unfold updateHighQc
  split <;> rfl

/-- The view moves to `view + 1` when it is at or above the target; `none` is
an overflow of the addition. -/
def advanceViewFromTarget (state : ConsensusState B) (view : ViewNumber) :
    Option (ConsensusState B) :=
  if view ≤ state.view then view.next?.map fun following => { state with view := following }
  else some state

end ConsensusState

end Hotstuff
