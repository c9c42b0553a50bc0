import Hotstuff.Consensus.Primitives

/-! The messages of `consensus/src/message.rs`, their digests and checks. -/

namespace Hotstuff

variable {B : Type} [BlockT B]

def AuthorityList.ids (authorities : AuthorityList B) : List (AuthorityId B) :=
  authorities.map Prod.fst

/-- Quorum certificate for a proposal. -/
structure QC (B : Type) [BlockT B] where
  proposalHash : Hash B
  view : ViewNumber
  votes : List (AuthorityId B × AuthoritySignature B)
deriving DecidableEq

/-- Timeout certificate: each vote lists the view its digest was built with. -/
structure TC (B : Type) [BlockT B] where
  view : ViewNumber
  votes : List (AuthorityId B × AuthoritySignature B × ViewNumber)
deriving DecidableEq

structure Payload (B : Type) [BlockT B] where
  blockHash : Hash B
  blockNumber : Number B
deriving DecidableEq

structure Proposal (B : Type) [BlockT B] where
  qc : QC B
  tc : Option (TC B)
  payload : Payload B
  view : ViewNumber
  author : AuthorityId B
  signature : Option (AuthoritySignature B)
deriving DecidableEq

structure Vote (B : Type) [BlockT B] where
  proposalHash : Hash B
  view : ViewNumber
  voter : AuthorityId B
  signature : Option (AuthoritySignature B)
deriving DecidableEq

structure Timeout (B : Type) [BlockT B] where
  highQc : QC B
  view : ViewNumber
  voter : AuthorityId B
  signature : Option (AuthoritySignature B)
deriving DecidableEq

inductive ConsensusMessage (B : Type) [BlockT B] where
  | propose (proposal : Proposal B)
  | vote (vote : Vote B)
  | timeout (timeout : Timeout B)
  | tc (tc : TC B)
  | syncRequest (hash : Hash B) (id : AuthorityId B)
  | phantom
deriving DecidableEq

/-- `Default` for a QC: the genesis certificate. -/
def QC.default : QC B := ⟨BlockT.defaultHash, 0, []⟩

/-- `PartialEq` for QCs ignores the votes. -/
def QC.eq (qc other : QC B) : Bool :=
  qc.proposalHash = other.proposalHash && qc.view = other.view

/-- The bytes signed by a vote, and certified by a QC. -/
def votePreimage (proposalHash : Hash B) (view : ViewNumber) : List UInt8 :=
  BlockT.encodeHash (B := B) proposalHash ++ encodeView view

def timeoutPreimage (view highView : ViewNumber) : List UInt8 :=
  encodeView view ++ encodeView highView

def Payload.encode (payload : Payload B) : List UInt8 :=
  BlockT.encodeHash (B := B) payload.blockHash ++ encodeNumber payload.blockNumber

def Proposal.preimage (proposal : Proposal B) : List UInt8 :=
  BlockT.encodeAuthority (B := B) proposal.author ++ proposal.payload.encode ++
    encodeView proposal.view ++ BlockT.encodeHash (B := B) proposal.qc.proposalHash

def QC.preimage (qc : QC B) : List UInt8 := votePreimage qc.proposalHash qc.view

def Vote.preimage (vote : Vote B) : List UInt8 := votePreimage vote.proposalHash vote.view

def Timeout.preimage (timeout : Timeout B) : List UInt8 :=
  timeoutPreimage timeout.view timeout.highQc.view

theorem votePreimage_length (proposalHash : Hash B) (view : ViewNumber) :
    (votePreimage (B := B) proposalHash view).length = 40 := by
  simp [votePreimage, BlockT.encodeHash_length]

theorem timeoutPreimage_length (view highView : ViewNumber) :
    (timeoutPreimage view highView).length = 16 := by
  simp [timeoutPreimage]

theorem Proposal.preimage_length (proposal : Proposal B) :
    proposal.preimage.length = 104 + BlockT.numberBytes B := by
  simp only [Proposal.preimage, Payload.encode, List.length_append, encodeView_length,
    BlockT.encodeHash_length, BlockT.encodeAuthority_length, encodeNumber_length]
  omega

theorem votePreimage_inj {proposalHash otherHash : Hash B} {view otherView : ViewNumber}
    (same : votePreimage (B := B) proposalHash view = votePreimage otherHash otherView) :
    proposalHash = otherHash ∧ view = otherView := by
  obtain ⟨hashes, views⟩ := List.append_inj same (by simp [BlockT.encodeHash_length])
  exact ⟨BlockT.encodeHash_inj hashes, encodeView_inj views⟩

theorem timeoutPreimage_inj {view highView otherView otherHigh : ViewNumber}
    (same : timeoutPreimage view highView = timeoutPreimage otherView otherHigh) :
    view = otherView ∧ highView = otherHigh := by
  obtain ⟨views, highs⟩ := List.append_inj same (by simp)
  exact ⟨encodeView_inj views, encodeView_inj highs⟩

theorem Payload.encode_length (payload : Payload B) :
    payload.encode.length = 32 + BlockT.numberBytes B := by
  simp [Payload.encode, BlockT.encodeHash_length]

theorem Payload.encode_inj {payload other : Payload B} (same : payload.encode = other.encode) :
    payload = other := by
  obtain ⟨hashes, numbers⟩ := List.append_inj same (by simp [BlockT.encodeHash_length])
  cases payload
  cases other
  exact congrArg₂ Payload.mk (BlockT.encodeHash_inj hashes) (encodeNumber_inj numbers)

/-- The digest of a proposal fixes its author, payload, view and parent. -/
theorem Proposal.preimage_inj {proposal other : Proposal B}
    (same : proposal.preimage = other.preimage) :
    proposal.author = other.author ∧ proposal.payload = other.payload ∧
      proposal.view = other.view ∧ proposal.qc.proposalHash = other.qc.proposalHash := by
  obtain ⟨front, parents⟩ := List.append_inj same (by
    simp [Payload.encode_length, BlockT.encodeAuthority_length])
  obtain ⟨start, views⟩ := List.append_inj front (by
    simp [Payload.encode_length, BlockT.encodeAuthority_length])
  obtain ⟨authors, payloads⟩ := List.append_inj start (by
    simp [BlockT.encodeAuthority_length])
  exact ⟨BlockT.encodeAuthority_inj authors, Payload.encode_inj payloads, encodeView_inj views,
    BlockT.encodeHash_inj parents⟩

def QC.digest (qc : QC B) : Hash B := hashOf qc.preimage

def Proposal.digest (proposal : Proposal B) : Hash B := hashOf proposal.preimage

def Vote.digest (vote : Vote B) : Hash B := hashOf vote.preimage

def Timeout.digest (timeout : Timeout B) : Hash B := hashOf timeout.preimage

def Proposal.parentHash (proposal : Proposal B) : Hash B := proposal.qc.proposalHash

/-- The first loop of both certificate checks: `used` holds the voters seen
so far, and a second vote of one of them is an error. -/
def grantVotes (used : List (AuthorityId B)) (grant : Nat) :
    List (AuthorityId B) → Except (HotstuffError B) Nat
  | [] => .ok grant
  | id :: rest =>
    if id ∈ used then .error (.authorityReuse id)
    else grantVotes (id :: used) (grant + 1) rest

/-- The second loop of both certificate checks, over voters with their
signatures and the digest each signature is checked on. -/
def verifySignatures : List (AuthorityId B × AuthoritySignature B × Hash B) →
    Except (HotstuffError B) Unit
  | [] => .ok ()
  | (voter, signature, digest) :: rest =>
    if BlockT.verify signature digest voter then verifySignatures rest
    else .error (.invalidSignature voter)

/-- The two loops with the quorum test between them. -/
def verifyCertificate (authorities : AuthorityList B)
    (votes : List (AuthorityId B × AuthoritySignature B × Hash B)) :
    Except (HotstuffError B) Unit := do
  let grant ← grantVotes [] 0 (votes.map Prod.fst)
  if grant ≤ authorities.length * 2 / 3 then .error .insufficientQuorum
  else verifySignatures votes

def QC.verify (qc : QC B) (authorities : AuthorityList B) : Except (HotstuffError B) Unit :=
  verifyCertificate authorities (qc.votes.map fun vote => (vote.1, vote.2, qc.digest))

/-- `TC::verify` rebuilds each timeout digest from the view listed for the vote. -/
def TC.verify (tc : TC B) (authorities : AuthorityList B) : Except (HotstuffError B) Unit :=
  verifyCertificate authorities
    (tc.votes.map fun vote => (vote.1, vote.2.1, hashOf (timeoutPreimage tc.view vote.2.2)))

/-- The check shared by proposals, votes and timeouts: the signer is an
authority and its signature is present and valid. -/
def verifySigned (authorities : AuthorityList B) (id : AuthorityId B)
    (signature : Option (AuthoritySignature B)) (digest : Hash B) :
    Except (HotstuffError B) Unit :=
  if id ∈ authorities.ids then
    match signature with
    | none => .error .nullSignature
    | some signature =>
      if BlockT.verify signature digest id then .ok () else .error (.invalidSignature id)
  else .error (.unknownAuthority id)

/-- A QC equal to the default one is accepted without looking at its votes. -/
def QC.verifyUnlessDefault (qc : QC B) (authorities : AuthorityList B) :
    Except (HotstuffError B) Unit :=
  if qc.eq QC.default then .ok () else qc.verify authorities

def Proposal.verify (proposal : Proposal B) (authorities : AuthorityList B) :
    Except (HotstuffError B) Unit := do
  verifySigned authorities proposal.author proposal.signature proposal.digest
  proposal.qc.verifyUnlessDefault authorities

def Vote.verify (vote : Vote B) (authorities : AuthorityList B) : Except (HotstuffError B) Unit :=
  verifySigned authorities vote.voter vote.signature vote.digest

def Timeout.verify (timeout : Timeout B) (authorities : AuthorityList B) :
    Except (HotstuffError B) Unit := do
  verifySigned authorities timeout.voter timeout.signature timeout.digest
  timeout.highQc.verifyUnlessDefault authorities

end Hotstuff
