import Hotstuff.Lib.Spacing
import Hotstuff.Pallet.Author

/-! Time and slots over a chain of blocks. The slot of a block comes with its
header and its time with the timestamp inherent; the pallet checks the one in
`on_initialize` and compares both in `on_timestamp_set`. -/

namespace Hotstuff

/-- What the pallet takes from `pallet_timestamp::Config`. A moment is an unsigned
integer of some width. -/
class TimestampConfig (T : Type) where
  momentBits : Nat
  wide : 32 ≤ momentBits
  minimumPeriod : BitVec momentBits

abbrev Moment (T : Type) [TimestampConfig T] := BitVec (TimestampConfig.momentBits T)

/-- `slot_duration` without the feature `experimental`: twice the minimum period,
saturating. -/
def slotDuration (T : Type) [TimestampConfig T] : Moment T :=
  .ofNat _ (min ((TimestampConfig.minimumPeriod (T := T)).toNat * 2)
    (2 ^ TimestampConfig.momentBits T - 1))

/-- The assertions of `on_timestamp_set`. -/
inductive TimestampPanic where
  | zeroDuration
  | slotMismatch
deriving DecidableEq

variable {T : Type} [Config T] [TimestampConfig T]

/-- `saturated_into::<u64>` of the slot that a moment falls into. -/
def timestampSlot (moment : Moment T) : Slot :=
  .ofNat (min (moment / slotDuration T).toNat (2 ^ 64 - 1))

/-- `CompatibleDigestItem::hotstuff_pre_digest`, as an entry of a header. -/
def hotstuffPreDigest (slot : Slot) : ConsensusEngineId × List UInt8 :=
  (hotstuffEngineId, Bytes.littleEndian 8 slot.toNat)

/-- The pallet reads the slot that a node has put in front of the header. -/
theorem slotFromDigests_preDigest (slot : Slot)
    (rest : List (ConsensusEngineId × List UInt8)) :
    slotFromDigests (hotstuffPreDigest slot :: rest) = some slot := by
  have fits : slot.toNat < 256 ^ 8 := slot.toNat_lt
  have length := Bytes.littleEndian_length 8 slot.toNat
  simp only [slotFromDigests, hotstuffPreDigest, ↓reduceIte, Slot.decode, length, le_refl]
  rw [List.take_of_length_le (Nat.le_of_eq length), Bytes.ofLittleEndian_littleEndian fits,
    UInt64.ofNat_toNat]

theorem Slot.remainder_value (slot : Slot) {count : Nat} (positive : 0 < count)
    (fits : count < 2 ^ 32) :
    ∃ index, slot.remainder count = .ok index ∧ index.toUInt32.toNat = slot.toNat % count := by
  obtain ⟨index, remainder, _, wide⟩ := slot.remainder_ok positive fits
  refine ⟨index, remainder, ?_⟩
  have value : index.toNat = index.toUInt32.toNat := by
    rw [← UInt32.toNat_toUInt64, wide]
  rw [← value]
  unfold Slot.remainder at remainder
  split at remainder
  · cases remainder
  · cases remainder
    rw [UInt64.toNat_mod, UInt64.toNat_ofNat', Nat.mod_eq_of_lt (a := count) (by omega)]

namespace Pallet

/-- `on_timestamp_set`. -/
def onTimestampSet (pallet : Pallet T) (moment : Moment T) : Except TimestampPanic Unit :=
  if slotDuration T = 0 then .error .zeroDuration
  else if pallet.currentSlot = timestampSlot moment then .ok ()
  else .error .slotMismatch

/-- What else happens to the pallet within a block. -/
inductive Within : Pallet T → Pallet T → Prop where
  | newSession (changed : Bool)
      (validators queued : List (Config.AccountId T × Config.AuthorityId T)) :
      Within pallet (pallet.onNewSession changed validators queued)
  | disabled (index : UInt32) : Within pallet (pallet.onDisabled index)
  | deposit (item : DigestItem) (foreign : ∀ data, item ≠ .consensus hotstuffEngineId data) :
      Within pallet (pallet.depositLog item)

/-- A block that was executed: the pallet behind its `on_initialize`, and the
time of its inherent. -/
structure Executed (T : Type) [Config T] [TimestampConfig T] where
  opened : Pallet T
  moment : Moment T

/-- The slot in the header of a block. -/
def Executed.slot? (block : Executed T) : Option Slot :=
  block.opened.currentSlotFromDigests

def Executed.author (block : Executed T) : Except Panic (Option (Config.AuthorityId T)) :=
  block.opened.hotstuffAuthorId (block.opened.digest.filterMap DigestItem.asPreRuntime)

/-- The blocks of a chain and the pallet behind them. None of them panics, and
sessions may change before `on_initialize`, before the inherent and after it. -/
inductive Chain : List (Executed T) → Pallet T → Prop where
  | genesis (genesis : Genesis pallet) : Chain [] pallet
  | block (before : Chain blocks parent)
      (prepared : Relation.ReflTransGen Within (parent.initializeBlock digests) prior)
      (ran : prior.onInitialize isDisabled = .ok opened)
      (body : Relation.ReflTransGen Within opened stamped)
      (timed : stamped.onTimestampSet moment = .ok ())
      (rest : Relation.ReflTransGen Within stamped next) :
      Chain (blocks ++ [⟨opened, moment⟩]) next

theorem onTimestampSet_ok_iff {pallet : Pallet T} {moment : Moment T} :
    pallet.onTimestampSet moment = .ok () ↔
      slotDuration T ≠ 0 ∧ pallet.currentSlot = timestampSlot moment := by
  unfold onTimestampSet
  split
  · rename_i zero
    simp [zero]
  · rename_i positive
    split
    · rename_i same
      exact ⟨fun _ => ⟨positive, same⟩, fun _ => rfl⟩
    · rename_i other
      simp [other]

omit [TimestampConfig T] in
theorem changeAuthorities_currentSlot (pallet : Pallet T) (new : BoundedVec T) :
    (pallet.changeAuthorities new).currentSlot = pallet.currentSlot := by
  unfold changeAuthorities
  split <;> rfl

omit [TimestampConfig T] in
theorem Within.currentSlot {pallet next : Pallet T} (step : Within pallet next) :
    next.currentSlot = pallet.currentSlot := by
  cases step with
  | newSession changed validators queued =>
    unfold onNewSession
    split
    · dsimp only
      split
      · exact changeAuthorities_currentSlot pallet _
      · rfl
    · rfl
  | disabled index => rfl
  | deposit item foreign => rfl

omit [TimestampConfig T] in
theorem currentSlot_within {pallet next : Pallet T}
    (steps : Relation.ReflTransGen Within pallet next) :
    next.currentSlot = pallet.currentSlot := by
  induction steps with
  | refl => rfl
  | tail _ step ih => exact step.currentSlot.trans ih

omit [TimestampConfig T] in
/-- A block that gets past `on_initialize` has no slot, or one that passes the
assertions. -/
theorem onInitialize_ok {pallet next : Pallet T} {isDisabled : UInt32 → Bool}
    (ran : pallet.onInitialize isDisabled = .ok next) :
    (pallet.currentSlotFromDigests = none ∧ next = pallet) ∨
    ∃ slot, pallet.currentSlotFromDigests = some slot ∧ pallet.assertSlot slot = .ok () ∧
      next = { pallet with currentSlot := slot } := by
  unfold onInitialize at ran
  split at ran
  · rename_i absent
    cases ran
    exact .inl ⟨absent, rfl⟩
  · rename_i slot current
    cases asserted : pallet.assertSlot slot with
    | error panic => simp [asserted, bind, Except.bind] at ran
    | ok _ =>
      refine .inr ⟨slot, current, asserted, ?_⟩
      simp only [asserted, bind, Except.bind] at ran
      split at ran
      · cases ran
        rfl
      · split at ran
        · cases ran
        · split at ran
          · cases ran
          · cases ran
            rfl

omit [TimestampConfig T] in
theorem assertSlot_ok_iff {pallet : Pallet T} {slot : Slot} :
    pallet.assertSlot slot = .ok () ↔ pallet.currentSlot ≤ slot ∧
      (Config.allowMultipleBlocksPerSlot T = false → pallet.currentSlot < slot) := by
  unfold assertSlot
  cases Config.allowMultipleBlocksPerSlot T with
  | true =>
    by_cases reached : pallet.currentSlot ≤ slot
    · simp [reached]
    · simp [reached]
  | false =>
    by_cases passed : pallet.currentSlot < slot
    · simp [passed, UInt64.le_of_lt passed]
    · simp [passed]

/-- Slots as they are told by the headers, the storage and the time. -/
structure Punctual (blocks : List (Executed T)) (pallet : Pallet T) : Prop where
  timed : ∀ block ∈ blocks, slotDuration T ≠ 0 ∧
    block.opened.currentSlot = timestampSlot block.moment
  told : ∀ block ∈ blocks, ∀ slot, block.slot? = some slot → block.opened.currentSlot = slot
  ordered : blocks.Pairwise fun earlier later =>
    earlier.opened.currentSlot ≤ later.opened.currentSlot ∧
      (Config.allowMultipleBlocksPerSlot T = false → later.slot?.isSome = true →
        earlier.opened.currentSlot < later.opened.currentSlot)
  current : ∀ block ∈ blocks, block.opened.currentSlot ≤ pallet.currentSlot

/-- How one block moves the slot. -/
theorem onInitialize_moves {pallet opened : Pallet T} {isDisabled : UInt32 → Bool}
    (ran : pallet.onInitialize isDisabled = .ok opened) (moment : Moment T) :
    pallet.currentSlot ≤ opened.currentSlot ∧
    (∀ slot, (Executed.mk opened moment).slot? = some slot → opened.currentSlot = slot) ∧
    (Config.allowMultipleBlocksPerSlot T = false →
      (Executed.mk opened moment).slot?.isSome = true →
        pallet.currentSlot < opened.currentSlot) := by
  rcases onInitialize_ok ran with ⟨absent, rfl⟩ | ⟨slot, current, asserted, rfl⟩
  · have nothing : (Executed.mk opened moment).slot? = none := absent
    simp [nothing]
  · have found : (Executed.mk { pallet with currentSlot := slot } moment).slot? = some slot :=
      current
    obtain ⟨reached, passed⟩ := assertSlot_ok_iff.mp asserted
    refine ⟨reached, ?_, fun single _ => passed single⟩
    intro other same
    exact Option.some.inj (found.symm.trans same)

theorem Punctual.block {blocks : List (Executed T)} {parent prior opened stamped next : Pallet T}
    {digests : List (ConsensusEngineId × List UInt8)} {isDisabled : UInt32 → Bool}
    {moment : Moment T} (punctual : Punctual blocks parent)
    (prepared : Relation.ReflTransGen Within (parent.initializeBlock digests) prior)
    (ran : prior.onInitialize isDisabled = .ok opened)
    (body : Relation.ReflTransGen Within opened stamped)
    (timed : stamped.onTimestampSet moment = .ok ())
    (rest : Relation.ReflTransGen Within stamped next) :
    Punctual (blocks ++ [⟨opened, moment⟩]) next := by
  have start : prior.currentSlot = parent.currentSlot :=
    (currentSlot_within prepared).trans rfl
  have kept : stamped.currentSlot = opened.currentSlot := currentSlot_within body
  have finish : next.currentSlot = opened.currentSlot := (currentSlot_within rest).trans kept
  obtain ⟨reached, told, passed⟩ := onInitialize_moves ran moment
  rw [start] at reached passed
  obtain ⟨positive, inSlot⟩ := onTimestampSet_ok_iff.mp timed
  refine ⟨?_, ?_, ?_, ?_⟩
  · intro block member
    rcases List.mem_append.mp member with old | new
    · exact punctual.timed block old
    · rw [List.mem_singleton.mp new]
      exact ⟨positive, kept.symm.trans inSlot⟩
  · intro block member
    rcases List.mem_append.mp member with old | new
    · exact punctual.told block old
    · rw [List.mem_singleton.mp new]
      exact told
  · refine List.pairwise_append.mpr ⟨punctual.ordered, List.pairwise_singleton _ _, ?_⟩
    intro earlier old later new
    rw [List.mem_singleton.mp new]
    have before := punctual.current earlier old
    refine ⟨UInt64.le_trans before reached, fun single slotted => ?_⟩
    exact UInt64.lt_of_le_of_lt before (passed single slotted)
  · intro block member
    rw [finish]
    rcases List.mem_append.mp member with old | new
    · exact UInt64.le_trans (punctual.current block old) reached
    · rw [List.mem_singleton.mp new]
      exact UInt64.le_refl _

theorem Chain.punctual {blocks : List (Executed T)} {pallet : Pallet T}
    (chain : Chain blocks pallet) : Punctual blocks pallet := by
  induction chain with
  | genesis _ => exact ⟨by simp, by simp, .nil, by simp⟩
  | block _ prepared ran body timed rest ih => exact ih.block prepared ran body timed rest

/-- Stored slots are in the order of the blocks, without repetition where every
block has a slot of its own. -/
theorem Punctual.increasing {blocks batch : List (Executed T)} {pallet : Pallet T}
    (punctual : Punctual blocks pallet)
    (single : Config.allowMultipleBlocksPerSlot T = false) (chosen : batch.Sublist blocks)
    (slotted : ∀ block ∈ batch, block.slot?.isSome = true) :
    (batch.map fun block => block.opened.currentSlot.toNat).Pairwise (· < ·) := by
  apply List.pairwise_map.mpr
  apply (punctual.ordered.sublist chosen).imp_of_mem
  intro earlier later _ member order
  exact UInt64.lt_iff_toNat_lt.mp (order.2 single (slotted later member))

/-- The authority that is looked up as the author has its turn in the slot. -/
theorem Executed.turn {block : Executed T} {author : Config.AuthorityId T}
    (found : block.author = .ok (some author)) :
    ∃ slot, block.slot? = some slot ∧
      block.opened.authorities[slot.toNat % block.opened.authorities.length]? = some author := by
  unfold Executed.author hotstuffAuthorId findAccountFromAuthorIndex at found
  rw [findAuthor_eq] at found
  unfold Executed.slot? currentSlotFromDigests
  cases current : slotFromDigests (block.opened.digest.filterMap DigestItem.asPreRuntime) with
  | none =>
    rw [current] at found
    cases found
  | some slot =>
    refine ⟨slot, rfl, ?_⟩
    rw [current] at found
    by_cases absent : block.opened.authorities = []
    · rw [absent] at found
      cases found
    · have positive := List.length_pos_iff.mpr absent
      have small : block.opened.authorities.length < 2 ^ 32 :=
        Nat.lt_of_le_of_lt block.opened.authorities_length_le (UInt32.toNat_lt _)
      obtain ⟨index, remainder, value⟩ := slot.remainder_value positive small
      rw [← value]
      simpa only [remainder, Except.map, bind, Except.bind, Except.ok.injEq] using found

end Pallet

/-- Moments of 64 bits, and slots of six seconds. -/
instance : TimestampConfig SampleRuntime where
  momentBits := 64
  wide := by decide
  minimumPeriod := 3000

namespace SampleRuntime

/-- The block of a slot, which nothing else happens in. -/
def openBlock (parent : Pallet SampleRuntime) (slot : Slot) : Pallet SampleRuntime :=
  { parent.initializeBlock [hotstuffPreDigest slot] with currentSlot := slot }

def firstBlock : Pallet SampleRuntime := openBlock genesis 1

def secondBlock : Pallet SampleRuntime := openBlock firstBlock 2

def thirdBlock : Pallet SampleRuntime := openBlock secondBlock 4

/-- The third slot is skipped. -/
def blocks : List (Pallet.Executed SampleRuntime) :=
  [⟨firstBlock, 11999#64⟩, ⟨secondBlock, 12000#64⟩, ⟨thirdBlock, 24001#64⟩]

end SampleRuntime

end Hotstuff
