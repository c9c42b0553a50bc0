import Mathlib.Data.List.Pairwise
import Mathlib.Data.UInt
import Mathlib.Data.Set.Function
import Hotstuff.Lib.Bytes

/-! Types of `hotstuff/primitives` and `consensus/src/primitives.rs`, with the
block, hash and signature types the crate takes from Substrate as parameters. -/

namespace Hotstuff

/-- `ViewNumber` is `u64`. -/
abbrev ViewNumber := UInt64

/-- `view + 1` under overflow checks; `none` stands for the overflow panic. -/
def ViewNumber.next? (view : ViewNumber) : Option ViewNumber :=
  if view.toNat + 1 < 2 ^ 64 then some (view + 1) else none

/-- What a `BlockT` implementation and the sr25519 application keys bring.
Hash and key encodings are 32 bytes, block numbers have a fixed width, and
`hashing` and `verify` are the header's hasher and `AuthorityPair::verify`. -/
class BlockT (B : Type) where
  Hash : Type
  AuthorityId : Type
  AuthoritySignature : Type
  numberBytes : Nat
  [hashDecEq : DecidableEq Hash]
  [authorityDecEq : DecidableEq AuthorityId]
  [signatureDecEq : DecidableEq AuthoritySignature]
  defaultHash : Hash
  hashing : List UInt8 → Hash
  encodeHash : Hash → List UInt8
  encodeAuthority : AuthorityId → List UInt8
  verify : AuthoritySignature → Hash → AuthorityId → Bool
  encodeHash_length : ∀ hash, (encodeHash hash).length = 32
  encodeHash_inj : Function.Injective encodeHash
  encodeAuthority_length : ∀ id, (encodeAuthority id).length = 32
  encodeAuthority_inj : Function.Injective encodeAuthority

export BlockT (Hash AuthorityId AuthoritySignature)

instance [BlockT B] : DecidableEq (Hash B) := BlockT.hashDecEq

instance [BlockT B] : DecidableEq (AuthorityId B) := BlockT.authorityDecEq

instance [BlockT B] : DecidableEq (AuthoritySignature B) := BlockT.signatureDecEq

instance [BlockT B] : LawfulBEq (AuthorityId B) := inferInstance

/-- Block numbers are unsigned integers of the block type's width. -/
abbrev Number (B : Type) [BlockT B] := BitVec (8 * BlockT.numberBytes B)

/-- `AuthorityList`: authorities with their weights. -/
abbrev AuthorityList (B : Type) [BlockT B] := List (AuthorityId B × UInt64)

inductive HotstuffError (B : Type) [BlockT B] where
  | authorityReuse (id : AuthorityId B)
  | insufficientQuorum
  | invalidSignature (id : AuthorityId B)
  | nullSignature
  | unknownAuthority (id : AuthorityId B)
  | notAuthority
  | wrongProposer
  | proposalNoParent
  | expiredVote
  | invalidTC
  | finalizeBlock (reason : String)
  | saveProposal (reason : String)
  | clientError (reason : String)
  | other (reason : String)
deriving DecidableEq

/-- A handler stops with an error it returns, or by a panic of its task. -/
inductive Fault (B : Type) [BlockT B] where
  | error (error : HotstuffError B)
  | panic
deriving DecidableEq

section Encoding

variable {B : Type} [BlockT B]

def encodeView (view : ViewNumber) : List UInt8 :=
  Bytes.littleEndian 8 view.toNat

def encodeNumber (number : Number B) : List UInt8 :=
  Bytes.littleEndian (BlockT.numberBytes B) number.toNat

/-- `Hash::hash_of` on a byte vector: the vector is hashed in encoded form,
behind its compact length. -/
def hashOf (data : List UInt8) : Hash B :=
  BlockT.hashing (B := B) (Bytes.lengthPrefixed data)

/-- `EMPTY_PAYLOAD`, the bytes of `hotstuff/empty_payload`. -/
def emptyPayload : List UInt8 :=
  ['h', 'o', 't', 's', 't', 'u', 'f', 'f', '/', 'e', 'm', 'p', 't', 'y', '_',
    'p', 'a', 'y', 'l', 'o', 'a', 'd'].map (fun letter => UInt8.ofNat letter.toNat)

def emptyPayloadHash : Hash B :=
  BlockT.hashing (B := B) emptyPayload

@[simp] theorem encodeView_length (view : ViewNumber) : (encodeView view).length = 8 := by
  simp [encodeView]

theorem encodeView_inj {first second : ViewNumber} (same : encodeView first = encodeView second) :
    first = second := by
  have fits (view : ViewNumber) : view.toNat < 256 ^ 8 := by
    have bound := view.toNat_lt
    omega
  exact UInt64.toNat_inj.mp (Bytes.littleEndian_inj same (fits first) (fits second))

@[simp] theorem encodeNumber_length (number : Number B) :
    (encodeNumber number).length = BlockT.numberBytes B := by
  simp [encodeNumber]

theorem encodeNumber_inj {first second : Number B}
    (same : encodeNumber first = encodeNumber second) : first = second := by
  have fits (number : Number B) : number.toNat < 256 ^ BlockT.numberBytes B := by
    have bound := number.isLt
    rw [Nat.pow_mul] at bound
    exact bound
  exact BitVec.eq_of_toNat_eq (Bytes.littleEndian_inj same (fits first) (fits second))

end Encoding

/-- Where a view increases along a list, it tells the elements apart. -/
theorem ViewNumber.eq_of_increasing {items : List α} {key : α → ViewNumber} {first second : α}
    (increasing : items.Pairwise fun earlier later => key earlier < key later)
    (member : first ∈ items) (memberToo : second ∈ items) (same : key first = key second) :
    first = second := by
  by_contra different
  have symm : Std.Symm fun one two : α => key one ≠ key two := ⟨fun _ _ unequal => unequal.symm⟩
  have apart : items.Pairwise fun one two => key one ≠ key two := by
    refine increasing.imp fun less equal => ?_
    rw [equal] at less
    exact UInt64.lt_irrefl _ less
  exact apart.forall member memberToo different same

/-- Where a view increases along a list, the order of two views is the order
of their elements. -/
theorem ViewNumber.of_increasing {items : List α} {key : α → ViewNumber} {first second : α}
    {ordered : α → α → Prop}
    (increasing : items.Pairwise fun earlier later => key earlier < key later)
    (pairwise : items.Pairwise ordered) (member : first ∈ items) (memberToo : second ∈ items)
    (less : key first < key second) : ordered first second := by
  have symm : Std.Symm fun one two : α =>
      (key one < key two → ordered one two) ∧ (key two < key one → ordered two one) :=
    ⟨fun _ _ both => ⟨both.2, both.1⟩⟩
  have both : items.Pairwise fun one two =>
      (key one < key two → ordered one two) ∧ (key two < key one → ordered two one) := by
    refine (increasing.and pairwise).imp fun holds => ⟨fun _ => holds.2, fun greater => ?_⟩
    exact absurd (UInt64.lt_trans greater holds.1) (UInt64.lt_irrefl _)
  have different : first ≠ second := fun same => by
    rw [same] at less
    exact UInt64.lt_irrefl _ less
  exact (both.forall member memberToo different).1 less

theorem ViewNumber.toNat_max (first second : ViewNumber) :
    (max first second).toNat = max first.toNat second.toNat := by
  rw [UInt64.max_def]
  split
  · rename_i below
    exact (Nat.max_eq_right (UInt64.le_iff_toNat_le.mp below)).symm
  · rename_i above
    have below := UInt64.le_of_lt (UInt64.not_le.mp above)
    exact (Nat.max_eq_left (UInt64.le_iff_toNat_le.mp below)).symm

theorem ViewNumber.next?_eq_some {view following : ViewNumber} :
    view.next? = some following ↔ following.toNat = view.toNat + 1 := by
  unfold ViewNumber.next?
  split
  · rename_i small
    have value : (view + 1).toNat = view.toNat + 1 := by
      rw [UInt64.toNat_add]
      exact Nat.mod_eq_of_lt small
    constructor
    · intro same
      cases same
      exact value
    · intro same
      exact congrArg some (UInt64.toNat_inj.mp (value.trans same.symm))
  · rename_i large
    constructor
    · intro same
      cases same
    · intro same
      have bound := following.toNat_lt
      omega

end Hotstuff
