import Hotstuff.Consensus.Message

/-! A small executable block type: 64-bit hashes, eight keys, and a signature
that records its signer and digest. Witnesses and counterexamples run on it. -/

namespace Hotstuff

inductive Sample : Type
deriving DecidableEq

instance Sample.keys_neZero : NeZero 8 := ⟨by decide⟩

/-- One round of a multiplicative hash over `2 ^ 64`. -/
def Sample.mix (state : Nat) (byte : UInt8) : Nat :=
  (state * 6364136223846793005 + byte.toNat + 1442695040888963407) % 2 ^ 64

private theorem padded_inj {first second : List UInt8} {zeros : Nat}
    (same : first ++ List.replicate zeros 0 = second ++ List.replicate zeros 0) :
    first = second :=
  List.append_cancel_right same

instance : BlockT Sample where
  Hash := BitVec 64
  AuthorityId := Fin 8
  AuthoritySignature := Fin 8 × BitVec 64
  numberBytes := 4
  defaultHash := 0
  hashing bytes := BitVec.ofNat 64 (bytes.foldl Sample.mix 1)
  encodeHash hash := Bytes.littleEndian 8 hash.toNat ++ List.replicate 24 0
  encodeAuthority id := Bytes.littleEndian 1 id.val ++ List.replicate 31 0
  verify signature digest id := signature = (id, digest)
  encodeHash_length := by simp
  encodeHash_inj := by
    intro first second same
    exact BitVec.eq_of_toNat_eq
      (Bytes.littleEndian_inj (padded_inj same) (by have := first.isLt; omega)
        (by have := second.isLt; omega))
  encodeAuthority_length := by simp
  encodeAuthority_inj := by
    intro first second same
    exact Fin.ext
      (Bytes.littleEndian_inj (padded_inj same) (by have := first.isLt; omega)
        (by have := second.isLt; omega))

/-- The signature of a sample key on a digest. -/
def Sample.sign (id : Fin 8) (digest : Hash Sample) : AuthoritySignature Sample := (id, digest)

/-- A sample signature is valid for one digest only. -/
theorem Sample.verify_binding {signature : AuthoritySignature Sample}
    {digest other : Hash Sample} {id : AuthorityId Sample}
    (first : BlockT.verify signature digest id = true)
    (second : BlockT.verify signature other id = true) : digest = other := by
  have one := of_decide_eq_true first
  have two := of_decide_eq_true second
  exact congrArg Prod.snd (one.symm.trans two)

/-- The first `count` keys with unit weight. -/
def Sample.authorities (count : Nat) : AuthorityList Sample :=
  (List.finRange 8).take count |>.map fun id => (id, 1)

/-- Certificates and messages with the signatures of sample keys. The entries of
the TC list view 0 as the view of the high QC. -/
def Sample.qc (proposalHash : Hash Sample) (view : ViewNumber) (voters : List (Fin 8)) :
    QC Sample :=
  ⟨proposalHash, view, voters.map fun voter =>
    (voter, Sample.sign voter (hashOf (votePreimage (B := Sample) proposalHash view)))⟩

def Sample.tc (view : ViewNumber) (voters : List (Fin 8)) : TC Sample :=
  ⟨view, voters.map fun voter =>
    (voter, Sample.sign voter (hashOf (timeoutPreimage view 0)), 0)⟩

def Sample.timeout (highQc : QC Sample) (view : ViewNumber) (voter : Fin 8) : Timeout Sample :=
  ⟨highQc, view, voter, some (Sample.sign voter (hashOf (timeoutPreimage view highQc.view)))⟩

def Sample.vote (proposalHash : Hash Sample) (view : ViewNumber) (voter : Fin 8) : Vote Sample :=
  ⟨proposalHash, view, voter,
    some (Sample.sign voter (hashOf (votePreimage (B := Sample) proposalHash view)))⟩

def Sample.proposal (qc : QC Sample) (block : BitVec 64) (view : ViewNumber) (author : Fin 8) :
    Proposal Sample :=
  let unsigned : Proposal Sample := ⟨qc, none, ⟨block, block.setWidth 32⟩, view, author, none⟩
  { unsigned with signature := some (Sample.sign author unsigned.digest) }

end Hotstuff
