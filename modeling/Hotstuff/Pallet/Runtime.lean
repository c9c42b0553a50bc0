import Mathlib.Logic.Relation
import Hotstuff.Lib.Bytes

/-! The pallet of `pallets/hotstuff/src/lib.rs` with the storage and the digest
it works on. An absent storage value stays different from a stored empty list,
since the getter and `decode_len` treat it differently. -/

namespace Hotstuff

/-- Slots are `u64` in a newtype. -/
abbrev Slot := UInt64

abbrev ConsensusEngineId := UInt8 × UInt8 × UInt8 × UInt8

/-- `HOTSTUFF_ENGINE_ID`, the bytes of `HOTS`. -/
def hotstuffEngineId : ConsensusEngineId := (72, 79, 84, 83)

/-- `Slot::decode`: eight bytes, least significant first. Bytes behind them are
left unread, fewer are an error. -/
def Slot.decode (data : List UInt8) : Option Slot :=
  if 8 ≤ data.length then some (UInt64.ofNat (Bytes.ofLittleEndian (data.take 8))) else none

inductive DigestItem where
  | preRuntime (engine : ConsensusEngineId) (data : List UInt8)
  | consensus (engine : ConsensusEngineId) (data : List UInt8)
  | seal (engine : ConsensusEngineId) (data : List UInt8)
  | other (data : List UInt8)
  | runtimeEnvironmentUpdated
deriving DecidableEq

def DigestItem.asPreRuntime : DigestItem → Option (ConsensusEngineId × List UInt8)
  | .preRuntime engine data => some (engine, data)
  | _ => none

/-- The logs the pallet deposits for the consensus engine. -/
inductive ConsensusLog (A : Type) where
  | authoritiesChange (authorities : List A)
  | onDisabled (index : UInt64)
deriving DecidableEq

/-- The configuration of the pallet, with the encoding of its logs. -/
class Config (T : Type) where
  AccountId : Type
  AuthorityId : Type
  [authorityDecEq : DecidableEq AuthorityId]
  maxAuthorities : UInt32
  allowMultipleBlocksPerSlot : Bool
  encodeLog : ConsensusLog AuthorityId → List UInt8
  decodeLog : List UInt8 → Option (ConsensusLog AuthorityId)
  decodeLog_encodeLog : ∀ log, decodeLog (encodeLog log) = some log

instance Config.decidableEqAuthorityId [Config T] : DecidableEq (Config.AuthorityId T) :=
  Config.authorityDecEq

/-- `BoundedVec` of authorities. -/
abbrev BoundedVec (T : Type) [Config T] :=
  { list : List (Config.AuthorityId T) // list.length ≤ (Config.maxAuthorities T).toNat }

def BoundedVec.truncateFrom {T : Type} [Config T] (list : List (Config.AuthorityId T)) :
    BoundedVec T :=
  ⟨list.take (Config.maxAuthorities T).toNat, List.length_take_le _ _⟩

/-- The ways block execution panics in the pallet. -/
inductive Panic where
  | alreadyInitialized
  | tooManyAuthorities
  | slotDecreased
  | slotNotIncreased
  | disabledAuthor (index : UInt64)
  | divisionByZero
deriving DecidableEq

/-- `slot % count as u64`. -/
def Slot.remainder (slot : Slot) (count : Nat) : Except Panic UInt64 :=
  if UInt64.ofNat count = 0 then .error .divisionByZero else .ok (slot % UInt64.ofNat count)

/-- The loop over pre-runtime digests: the first one of the engine decides. -/
def slotFromDigests : List (ConsensusEngineId × List UInt8) → Option Slot
  | [] => none
  | (id, data) :: rest => if id = hotstuffEngineId then Slot.decode data else slotFromDigests rest

/-- Storage of the pallet, the digest of the current block, and the digests of
the blocks before it. -/
structure Pallet (T : Type) [Config T] where
  stored : Option (BoundedVec T)
  currentSlot : Slot
  digest : List DigestItem
  history : List DigestItem

namespace Pallet

variable {T : Type} [Config T]

def empty : Pallet T := { stored := none, currentSlot := 0, digest := [], history := [] }

/-- The getter: the default, an empty list, stands for an absent value. -/
def authorities (pallet : Pallet T) : List (Config.AuthorityId T) :=
  (pallet.stored.map Subtype.val).getD []

theorem authorities_length_le (pallet : Pallet T) :
    pallet.authorities.length ≤ (Config.maxAuthorities T).toNat := by
  unfold authorities
  cases pallet.stored with
  | none => exact Nat.zero_le _
  | some bounded => exact bounded.property

/-- `Authorities::decode_len`: no length for an absent value. -/
def decodeLen (pallet : Pallet T) : Option Nat :=
  pallet.stored.map fun bounded => bounded.val.length

def logs (pallet : Pallet T) : List DigestItem := pallet.history ++ pallet.digest

def depositLog (pallet : Pallet T) (item : DigestItem) : Pallet T :=
  { pallet with digest := pallet.digest ++ [item] }

/-- The next block starts with the pre-runtime items of its header. -/
def initializeBlock (pallet : Pallet T) (digests : List (ConsensusEngineId × List UInt8)) :
    Pallet T :=
  { pallet with
    history := pallet.logs
    digest := digests.map fun entry => .preRuntime entry.1 entry.2 }

def changeAuthorities (pallet : Pallet T) (new : BoundedVec T) : Pallet T :=
  if new.val.isEmpty then pallet
  else
    { pallet with stored := some new }.depositLog
      (.consensus hotstuffEngineId (Config.encodeLog (.authoritiesChange new.val)))

def initializeAuthorities (pallet : Pallet T) (authorities : List (Config.AuthorityId T)) :
    Except Panic (Pallet T) :=
  if authorities.isEmpty then .ok pallet
  else if ¬ pallet.authorities.isEmpty then .error .alreadyInitialized
  else if fits : authorities.length ≤ (Config.maxAuthorities T).toNat then
    .ok { pallet with stored := some ⟨authorities, fits⟩ }
  else .error .tooManyAuthorities

def onGenesisSession (pallet : Pallet T)
    (validators : List (Config.AccountId T × Config.AuthorityId T)) :
    Except Panic (Pallet T) :=
  pallet.initializeAuthorities (validators.map Prod.snd)

/-- The new list is compared before it is truncated. -/
def onNewSession (pallet : Pallet T) (changed : Bool)
    (validators _queuedValidators : List (Config.AccountId T × Config.AuthorityId T)) :
    Pallet T :=
  if changed then
    let nextAuthorities := validators.map Prod.snd
    if pallet.authorities ≠ nextAuthorities then
      pallet.changeAuthorities (BoundedVec.truncateFrom nextAuthorities)
    else pallet
  else pallet

def onDisabled (pallet : Pallet T) (index : UInt32) : Pallet T :=
  pallet.depositLog
    (.consensus hotstuffEngineId
      (Config.encodeLog (.onDisabled (A := Config.AuthorityId T) index.toUInt64)))

def currentSlotFromDigests (pallet : Pallet T) : Option Slot :=
  slotFromDigests (pallet.digest.filterMap DigestItem.asPreRuntime)

/-- The two assertions on the slot of a new block. -/
def assertSlot (pallet : Pallet T) (newSlot : Slot) : Except Panic Unit :=
  if Config.allowMultipleBlocksPerSlot T then
    if pallet.currentSlot ≤ newSlot then .ok () else .error .slotDecreased
  else
    if pallet.currentSlot < newSlot then .ok () else .error .slotNotIncreased

/-- `on_initialize`, up to the weight it returns. -/
def onInitialize (pallet : Pallet T) (isDisabled : UInt32 → Bool) : Except Panic (Pallet T) :=
  match pallet.currentSlotFromDigests with
  | none => .ok pallet
  | some newSlot => do
    pallet.assertSlot newSlot
    let next := { pallet with currentSlot := newSlot }
    match next.decodeLen with
    | none => .ok next
    | some count => do
      let authorityIndex ← newSlot.remainder count
      if isDisabled authorityIndex.toUInt32 then .error (.disabledAuthor authorityIndex)
      else .ok next

/-- `do_try_state`, with the texts of its errors. -/
def doTryState (pallet : Pallet T) (isDisabled : UInt32 → Bool) : Except String Unit :=
  let currentSlot := pallet.currentSlotFromDigests.getD pallet.currentSlot
  if ¬ Config.allowMultipleBlocksPerSlot T ∧ ¬ currentSlot.toNat < 2 ^ 64 - 1 then
    .error "Current slot has reached maximum value and cannot be incremented further."
  else
    match pallet.decodeLen with
    | none => .error "Failed to decode authorities length"
    | some 0 => .error "Authorities must be non-empty."
    | some (count + 1) =>
      if isDisabled (currentSlot % UInt64.ofNat (count + 1)).toUInt32 then
        .error "Current validator is disabled and should not be attempting to author blocks."
      else .ok ()

/-- `FindAuthor::find_author`. -/
def findAuthor (pallet : Pallet T) :
    List (ConsensusEngineId × List UInt8) → Except Panic (Option UInt32)
  | [] => .ok none
  | (id, data) :: rest =>
    if id = hotstuffEngineId then
      match Slot.decode data with
      | none => .ok none
      | some slot => do
        let authorIndex ← slot.remainder pallet.authorities.length
        .ok (some authorIndex.toUInt32)
    else pallet.findAuthor rest

/-- `FindAccountFromAuthorIndex` over another lookup. -/
def findAccountFromAuthorIndex (pallet : Pallet T)
    (inner : List (ConsensusEngineId × List UInt8) → Except Panic (Option UInt32))
    (digests : List (ConsensusEngineId × List UInt8)) :
    Except Panic (Option (Config.AuthorityId T)) := do
  match ← inner digests with
  | none => .ok none
  | some index => .ok pallet.authorities[index.toNat]?

def hotstuffAuthorId (pallet : Pallet T) (digests : List (ConsensusEngineId × List UInt8)) :
    Except Panic (Option (Config.AuthorityId T)) :=
  pallet.findAccountFromAuthorIndex pallet.findAuthor digests

/-- States that genesis can build: from the configuration of the pallet, and
from the first session. -/
inductive Genesis : Pallet T → Prop where
  | empty : Genesis empty
  | build (before : Genesis pallet) (ran : pallet.initializeAuthorities configured = .ok next) :
      Genesis next
  | session (before : Genesis pallet) (ran : pallet.onGenesisSession validators = .ok next) :
      Genesis next

/-- What happens to the pallet behind genesis. Other pallets deposit what they
like, except for logs of this engine. -/
inductive Step : Pallet T → Pallet T → Prop where
  | newSession (changed : Bool)
      (validators queued : List (Config.AccountId T × Config.AuthorityId T)) :
      Step pallet (pallet.onNewSession changed validators queued)
  | disabled (index : UInt32) : Step pallet (pallet.onDisabled index)
  | block (digests : List (ConsensusEngineId × List UInt8)) :
      Step pallet (pallet.initializeBlock digests)
  | slot (isDisabled : UInt32 → Bool) (ran : pallet.onInitialize isDisabled = .ok next) :
      Step pallet next
  | deposit (item : DigestItem) (foreign : ∀ data, item ≠ .consensus hotstuffEngineId data) :
      Step pallet (pallet.depositLog item)

/-- A run of the chain from some genesis. -/
def Reachable (pallet : Pallet T) : Prop :=
  ∃ start, Genesis start ∧ Relation.ReflTransGen Step start pallet

end Pallet

/-- A small executable configuration with three authorities at most. -/
inductive SampleRuntime : Type

instance : Config SampleRuntime where
  AccountId := Nat
  AuthorityId := UInt8
  maxAuthorities := 3
  allowMultipleBlocksPerSlot := false
  encodeLog
    | .authoritiesChange new => 1 :: new
    | .onDisabled index => 2 :: Bytes.littleEndian 8 index.toNat
  decodeLog
    | 1 :: rest => some (.authoritiesChange rest)
    | 2 :: rest => some (.onDisabled (UInt64.ofNat (Bytes.ofLittleEndian rest)))
    | _ => none
  decodeLog_encodeLog log := by
    cases log with
    | authoritiesChange new => rfl
    | onDisabled index =>
      have fits : index.toNat < 256 ^ 8 := index.toNat_lt
      simp [Bytes.ofLittleEndian_littleEndian fits]

def SampleRuntime.keys (ids : List UInt8) : List (Config.AuthorityId SampleRuntime) := ids

def SampleRuntime.validators (ids : List UInt8) :
    List (Config.AccountId SampleRuntime × Config.AuthorityId SampleRuntime) :=
  ids.map fun id => (id.toNat, id)

end Hotstuff
