import Hotstuff.Consensus.Certificate

/-! What the digests stand for. The bytes carry no tag for the kind of a
message: their length tells the kinds apart, and behind it each field has a
fixed place. -/

namespace Hotstuff

variable {B : Type} [BlockT B]

/-- The fields a signature is made for. -/
inductive Content (B : Type) [BlockT B] where
  | proposal (author : AuthorityId B) (payload : Payload B) (view : ViewNumber)
      (parentHash : Hash B)
  | vote (proposalHash : Hash B) (view : ViewNumber)
  | timeout (view highView : ViewNumber)
deriving DecidableEq

/-- Whatever a signature is checked against. For an entry of a TC this is the
digest that `TC::verify` builds from the view listed in it. -/
inductive SignedMessage (B : Type) [BlockT B] where
  | proposal (proposal : Proposal B)
  | vote (vote : Vote B)
  | qc (qc : QC B)
  | timeout (timeout : Timeout B)
  | tcVote (tc : TC B) (highView : ViewNumber)
deriving DecidableEq

def Content.preimage : Content B → List UInt8
  | .proposal author payload view parentHash =>
    BlockT.encodeAuthority (B := B) author ++ payload.encode ++ encodeView view ++
      BlockT.encodeHash (B := B) parentHash
  | .vote proposalHash view => votePreimage (B := B) proposalHash view
  | .timeout view highView => timeoutPreimage view highView

/-- The length of the signed bytes, different for each kind. -/
def Content.width : Content B → Nat
  | .proposal _ _ _ _ => 104 + BlockT.numberBytes B
  | .vote _ _ => 40
  | .timeout _ _ => 16

theorem Content.preimage_length (content : Content B) :
    content.preimage.length = content.width := by
  cases content with
  | proposal author payload view parentHash =>
    simp only [preimage, width, List.length_append, Payload.encode_length, encodeView_length,
      BlockT.encodeHash_length, BlockT.encodeAuthority_length]
    omega
  | vote proposalHash view => exact votePreimage_length proposalHash view
  | timeout view highView => exact timeoutPreimage_length view highView

private theorem Content.proposal_inj {author otherAuthor : AuthorityId B}
    {payload otherPayload : Payload B} {view otherView : ViewNumber}
    {parentHash otherParent : Hash B}
    (same : (Content.proposal author payload view parentHash).preimage =
      (Content.proposal otherAuthor otherPayload otherView otherParent).preimage) :
    Content.proposal author payload view parentHash =
      .proposal otherAuthor otherPayload otherView otherParent := by
  let first : Proposal B := ⟨⟨parentHash, 0, []⟩, none, payload, view, author, none⟩
  let second : Proposal B :=
    ⟨⟨otherParent, 0, []⟩, none, otherPayload, otherView, otherAuthor, none⟩
  have bytes : first.preimage = second.preimage := same
  obtain ⟨authors, payloads, views, parents⟩ := Proposal.preimage_inj bytes
  rw [show author = otherAuthor from authors, show payload = otherPayload from payloads,
    show view = otherView from views, show parentHash = otherParent from parents]

theorem Content.preimage_inj {content other : Content B}
    (same : content.preimage = other.preimage) : content = other := by
  have widths := congrArg List.length same
  rw [content.preimage_length, other.preimage_length] at widths
  cases content with
  | proposal author payload view parentHash =>
    cases other with
    | proposal => exact Content.proposal_inj same
    | vote => simp only [width] at widths; omega
    | timeout => simp only [width] at widths; omega
  | vote proposalHash view =>
    cases other with
    | proposal => simp only [width] at widths; omega
    | vote =>
      obtain ⟨hashes, views⟩ := votePreimage_inj same
      rw [hashes, views]
    | timeout => cases widths
  | timeout view highView =>
    cases other with
    | proposal => simp only [width] at widths; omega
    | vote => cases widths
    | timeout =>
      obtain ⟨views, highs⟩ := timeoutPreimage_inj same
      rw [views, highs]

namespace SignedMessage

def content : SignedMessage B → Content B
  | .proposal made => .proposal made.author made.payload made.view made.qc.proposalHash
  | .vote cast => .vote cast.proposalHash cast.view
  | .qc formed => .vote formed.proposalHash formed.view
  | .timeout sent => .timeout sent.view sent.highQc.view
  | .tcVote formed highView => .timeout formed.view highView

def preimage : SignedMessage B → List UInt8
  | .proposal made => made.preimage
  | .vote cast => cast.preimage
  | .qc formed => formed.preimage
  | .timeout sent => sent.preimage
  | .tcVote formed highView => timeoutPreimage formed.view highView

def digest : SignedMessage B → Hash B
  | .proposal made => made.digest
  | .vote cast => cast.digest
  | .qc formed => formed.digest
  | .timeout sent => sent.digest
  | .tcVote formed highView => hashOf (timeoutPreimage formed.view highView)

/-- The byte string that is hashed for a digest. -/
def hashed (message : SignedMessage B) : List UInt8 :=
  Bytes.lengthPrefixed message.preimage

theorem preimage_eq (message : SignedMessage B) : message.preimage = message.content.preimage := by
  cases message <;> rfl

theorem digest_eq (message : SignedMessage B) :
    message.digest = BlockT.hashing (B := B) message.hashed := by
  cases message <;> rfl

/-- A message that passes its check shows this signature of this key. -/
def Accepts (authorities : AuthorityList B) (id : AuthorityId B)
    (signature : AuthoritySignature B) : SignedMessage B → Prop
  | .proposal made =>
    made.verify authorities = .ok () ∧ made.author = id ∧ made.signature = some signature
  | .vote cast =>
    cast.verify authorities = .ok () ∧ cast.voter = id ∧ cast.signature = some signature
  | .qc formed => formed.verify authorities = .ok () ∧ (id, signature) ∈ formed.votes
  | .timeout sent =>
    sent.verify authorities = .ok () ∧ sent.voter = id ∧ sent.signature = some signature
  | .tcVote formed highView =>
    formed.verify authorities = .ok () ∧ (id, signature, highView) ∈ formed.votes

theorem Accepts.verified {authorities : AuthorityList B} {id : AuthorityId B}
    {signature : AuthoritySignature B} {message : SignedMessage B}
    (accepts : message.Accepts authorities id signature) :
    BlockT.verify signature message.digest id = true := by
  cases message with
  | proposal proposal =>
    obtain ⟨passed, rfl, present⟩ := accepts
    obtain ⟨⟨_, signed, found, valid⟩, _⟩ := Proposal.verify_ok_iff.mp passed
    rw [present] at found
    cases found
    exact valid
  | vote vote =>
    obtain ⟨passed, rfl, present⟩ := accepts
    obtain ⟨_, signed, found, valid⟩ := Vote.verify_ok_iff.mp passed
    rw [present] at found
    cases found
    exact valid
  | qc qc =>
    obtain ⟨passed, listed⟩ := accepts
    obtain ⟨_, _, valid⟩ := QC.verify_ok_iff.mp passed
    exact valid _ listed
  | timeout timeout =>
    obtain ⟨passed, rfl, present⟩ := accepts
    obtain ⟨⟨_, signed, found, valid⟩, _⟩ := Timeout.verify_ok_iff.mp passed
    rw [present] at found
    cases found
    exact valid
  | tcVote tc highView =>
    obtain ⟨passed, listed⟩ := accepts
    obtain ⟨_, _, valid⟩ := TC.verify_ok_iff.mp passed
    exact valid _ listed

theorem digest_inj {messages : Set (SignedMessage B)}
    (injective : Set.InjOn (BlockT.hashing (B := B)) (hashed '' messages))
    {first second : SignedMessage B} (member : first ∈ messages) (memberToo : second ∈ messages) :
    first.digest = second.digest ↔ first.content = second.content := by
  constructor
  · intro same
    rw [digest_eq, digest_eq] at same
    have bytes := injective (Set.mem_image_of_mem _ member) (Set.mem_image_of_mem _ memberToo) same
    have preimages := Bytes.lengthPrefixed_inj bytes
    rw [preimage_eq, preimage_eq] at preimages
    exact Content.preimage_inj preimages
  · intro same
    rw [digest_eq, digest_eq, hashed, hashed, preimage_eq, preimage_eq, same]

end SignedMessage

/-- Where the hash does not collide, a digest stands for one kind of content and
its fields, an entry of a TC is checked against the bytes of a timeout, and a
signature that is valid on one digest only is accepted for one content only. -/
theorem digests_unambiguous {messages : Set (SignedMessage B)}
    (injective : Set.InjOn (BlockT.hashing (B := B)) (SignedMessage.hashed '' messages)) :
    (∀ first ∈ messages, ∀ second ∈ messages,
      first.digest = second.digest ↔ first.content = second.content) ∧
    (∀ (tc : TC B) (timeout : Timeout B), tc.view = timeout.view →
      (SignedMessage.tcVote tc timeout.highQc.view).preimage = timeout.preimage) ∧
    ((∀ (signature : AuthoritySignature B) (digest other : Hash B) (id : AuthorityId B),
        BlockT.verify signature digest id = true → BlockT.verify signature other id = true →
        digest = other) →
      ∀ first ∈ messages, ∀ second ∈ messages, ∀ authorities others id signature,
        first.Accepts authorities id signature → second.Accepts others id signature →
        first.content = second.content) := by
  refine ⟨?_, ?_, ?_⟩
  · intro first member second memberToo
    exact SignedMessage.digest_inj injective member memberToo
  · intro tc timeout views
    simp only [SignedMessage.preimage, Timeout.preimage, views]
  · intro binding first member second memberToo authorities others id signature accepts acceptsToo
    apply (SignedMessage.digest_inj injective member memberToo).mp
    exact binding signature _ _ id accepts.verified acceptsToo.verified

/-- One message of each kind on the sample chain. -/
def Sample.messages : List (SignedMessage Sample) :=
  [.proposal (Sample.proposal QC.default 1 1 1), .vote (Sample.vote (7 : BitVec 64) 3 2),
    .qc (Sample.qc (7 : BitVec 64) 3 [0, 1, 2]), .timeout (Sample.timeout QC.default 3 1),
    .tcVote (Sample.tc 3 [0, 1, 2]) 0]

theorem digests_unambiguous_sample :
    (∀ first ∈ Sample.messages, ∀ second ∈ Sample.messages,
      first.digest = second.digest ↔ first.content = second.content) ∧
    ∀ first ∈ Sample.messages, ∀ second ∈ Sample.messages, ∀ authorities others id signature,
      first.Accepts authorities id signature → second.Accepts others id signature →
      first.content = second.content := by
  have distinct : ∀ first ∈ Sample.messages, ∀ second ∈ Sample.messages,
      BlockT.hashing (B := Sample) first.hashed = BlockT.hashing (B := Sample) second.hashed →
      first.hashed = second.hashed := by decide +kernel
  have injective : Set.InjOn (BlockT.hashing (B := Sample))
      (SignedMessage.hashed '' { message | message ∈ Sample.messages }) := by
    rintro _ ⟨first, member, rfl⟩ _ ⟨second, memberToo, rfl⟩ same
    exact distinct first member second memberToo same
  obtain ⟨unambiguous, _, bound⟩ := digests_unambiguous injective
  exact ⟨unambiguous, bound fun _ _ _ _ => Sample.verify_binding⟩

end Hotstuff
