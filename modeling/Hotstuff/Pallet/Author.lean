import Hotstuff.Pallet.Replay

/-! The author of a block, looked up from the slot in its digest. `on_initialize`
finds no length for absent authorities and goes on; `find_author` takes them for
an empty list and divides by its length. -/

namespace Hotstuff

variable {T : Type} [Config T]

/-- As long as the count fits into 32 bits, so does the index, and it is below
the count. -/
theorem Slot.remainder_ok (slot : Slot) {count : Nat} (positive : 0 < count)
    (fits : count < 2 ^ 32) :
    ∃ index, slot.remainder count = .ok index ∧ index.toUInt32.toNat < count ∧
      index.toUInt32.toUInt64 = index := by
  have value : (UInt64.ofNat count).toNat = count := by
    rw [UInt64.toNat_ofNat']
    exact Nat.mod_eq_of_lt (by omega)
  have nonzero : UInt64.ofNat count ≠ 0 := by
    intro zero
    rw [zero] at value
    exact Nat.ne_of_lt positive value
  have below : (slot % UInt64.ofNat count).toNat < count := by
    rw [UInt64.toNat_mod, value]
    exact Nat.mod_lt _ positive
  have narrow : (slot % UInt64.ofNat count).toUInt32.toNat = (slot % UInt64.ofNat count).toNat := by
    rw [UInt64.toNat_toUInt32]
    exact Nat.mod_eq_of_lt (by omega)
  refine ⟨slot % UInt64.ofNat count, ?_, ?_, ?_⟩
  · rw [Slot.remainder, if_neg nonzero]
  · rw [narrow]
    exact below
  · apply UInt64.toNat_inj.mp
    rw [UInt32.toNat_toUInt64, narrow]

namespace Pallet

theorem findAuthor_eq (pallet : Pallet T) (digests : List (ConsensusEngineId × List UInt8)) :
    pallet.findAuthor digests =
      match slotFromDigests digests with
      | none => .ok none
      | some slot => (slot.remainder pallet.authorities.length).map
          fun index => some index.toUInt32 := by
  induction digests with
  | nil => rfl
  | cons entry rest ih =>
    obtain ⟨id, data⟩ := entry
    unfold findAuthor slotFromDigests
    split
    · cases Slot.decode data with
      | none => rfl
      | some slot => cases slot.remainder pallet.authorities.length <;> rfl
    · exact ih

theorem decodeLen_of_nonempty {pallet : Pallet T} (nonempty : pallet.authorities ≠ []) :
    pallet.decodeLen = some pallet.authorities.length := by
  unfold decodeLen authorities at *
  cases stored : pallet.stored with
  | none => simp [stored] at nonempty
  | some bounded => rfl

/-- What `find_author` owes its callers on a list of digests: it does not panic,
and an index it returns is that of an authority, which `HotstuffAuthorId` finds,
and the one that `on_initialize` looks up as disabled in every block with these
digests and authorities whose slot it accepts. -/
structure Resolves (pallet : Pallet T) (digests : List (ConsensusEngineId × List UInt8)) :
    Prop where
  total : ∃ found, pallet.findAuthor digests = .ok found
  valid : ∀ index, pallet.findAuthor digests = .ok (some index) →
    index.toNat < pallet.authorities.length ∧
    ∃ id, pallet.authorities[index.toNat]? = some id ∧
      pallet.hotstuffAuthorId digests = .ok (some id)
  consistent : ∀ index, pallet.findAuthor digests = .ok (some index) →
    ∀ block : Pallet T, block.authorities = pallet.authorities →
      block.digest.filterMap DigestItem.asPreRuntime = digests →
      ∀ accepted, block.onInitialize (fun _ => false) = .ok accepted →
      ∀ isDisabled, block.onInitialize isDisabled =
        if isDisabled index then .error (.disabledAuthor index.toUInt64) else .ok accepted

theorem onInitialize_eq {block : Pallet T} {slot : Slot} {index : UInt64}
    (current : block.currentSlotFromDigests = some slot) (nonempty : block.authorities ≠ [])
    (remainder : slot.remainder block.authorities.length = .ok index)
    (isDisabled : UInt32 → Bool) :
    block.onInitialize isDisabled = (do
      block.assertSlot slot
      if isDisabled index.toUInt32 then .error (.disabledAuthor index)
      else .ok { block with currentSlot := slot }) := by
  have length : ({ block with currentSlot := slot } : Pallet T).decodeLen =
      some block.authorities.length := decodeLen_of_nonempty nonempty
  simp only [onInitialize, current, length, remainder]
  rfl

theorem findAuthor_of_slot {pallet : Pallet T} {digests : List (ConsensusEngineId × List UInt8)}
    {slot : Slot} {index : UInt64} (current : slotFromDigests digests = some slot)
    (remainder : slot.remainder pallet.authorities.length = .ok index) :
    pallet.findAuthor digests = .ok (some index.toUInt32) := by
  rw [findAuthor_eq, current]
  simp only [remainder, Except.map]

theorem resolves_of_no_slot {pallet : Pallet T}
    {digests : List (ConsensusEngineId × List UInt8)} (none : slotFromDigests digests = none) :
    pallet.Resolves digests := by
  have found : pallet.findAuthor digests = .ok Option.none := by
    rw [findAuthor_eq, none]
  refine ⟨⟨_, found⟩, ?_, ?_⟩
  · intro index returned
    rw [found] at returned
    cases returned
  · intro index returned
    rw [found] at returned
    cases returned

theorem resolves_of_nonempty {pallet : Pallet T}
    (digests : List (ConsensusEngineId × List UInt8)) (nonempty : pallet.authorities ≠ []) :
    pallet.Resolves digests := by
  cases current : slotFromDigests digests with
  | none => exact resolves_of_no_slot current
  | some slot =>
    obtain ⟨index, remainder, below, wide⟩ := slot.remainder_ok
      (List.length_pos_iff.mpr nonempty)
      (Nat.lt_of_le_of_lt pallet.authorities_length_le (UInt32.toNat_lt _))
    have found := findAuthor_of_slot current remainder
    refine ⟨⟨_, found⟩, ?_, ?_⟩
    · intro other returned
      cases found.symm.trans returned
      refine ⟨below, _, List.getElem?_eq_getElem below, ?_⟩
      simp only [hotstuffAuthorId, findAccountFromAuthorIndex, found, bind, Except.bind,
        List.getElem?_eq_getElem below]
    · intro other returned block same digest accepted passed isDisabled
      cases found.symm.trans returned
      have ofBlock : block.currentSlotFromDigests = some slot := by
        rw [currentSlotFromDigests, digest]
        exact current
      rw [← same] at nonempty remainder
      rw [onInitialize_eq ofBlock nonempty remainder] at passed ⊢
      rw [wide]
      cases asserted : block.assertSlot slot with
      | error panic => simp [asserted, bind, Except.bind] at passed
      | ok _ =>
        simp only [asserted, bind, Except.bind, Bool.false_eq_true, ↓reduceIte] at passed ⊢
        rw [passed]

end Pallet

/-- The lookup of the author does what it should in every state and on every list
of digests, unless a slot is found in them while there are no authorities. -/
theorem find_author_resolves_iff (pallet : Pallet T)
    (digests : List (ConsensusEngineId × List UInt8)) :
    pallet.Resolves digests ↔
      ¬ (pallet.authorities = [] ∧ ∃ slot, slotFromDigests digests = some slot) := by
  constructor
  · intro resolves ⟨absent, slot, current⟩
    obtain ⟨found, returned⟩ := resolves.total
    rw [Pallet.findAuthor_eq, current, absent] at returned
    cases returned
  · intro condition
    by_cases absent : pallet.authorities = []
    · apply Pallet.resolves_of_no_slot
      apply Option.eq_none_iff_forall_ne_some.mpr
      intro slot current
      exact condition ⟨absent, slot, current⟩
    · exact Pallet.resolves_of_nonempty digests absent

/-- A chain without authorities at genesis starts the block of slot 1, which
`on_initialize` lets pass. Looking up its author is a division by zero. -/
theorem find_author_divides_by_zero :
    let digests := [(hotstuffEngineId, Bytes.littleEndian 8 1)]
    let block : Pallet SampleRuntime := Pallet.empty.initializeBlock digests
    block.Reachable ∧
    block.onInitialize (fun _ => false) = .ok { block with currentSlot := 1 } ∧
    block.findAuthor digests = .error .divisionByZero ∧ ¬ block.Resolves digests := by
  intro digests block
  refine ⟨⟨_, .empty, .single (.block digests)⟩, rfl, rfl, ?_⟩
  intro resolves
  obtain ⟨found, returned⟩ := resolves.total
  cases returned

/-- With authorities at genesis the lookup never fails in the whole run. -/
theorem Pallet.resolves_of_genesis {start pallet : Pallet T} (nonempty : start.authorities ≠ [])
    (run : Relation.ReflTransGen Step start pallet)
    (digests : List (ConsensusEngineId × List UInt8)) : pallet.Resolves digests :=
  resolves_of_nonempty digests ((follows_of_steps run).remains nonempty)

/-- The state that `do_try_state` asks for is enough. -/
theorem Pallet.resolves_of_doTryState {pallet : Pallet T} {isDisabled : UInt32 → Bool}
    (sound : pallet.doTryState isDisabled = .ok ())
    (digests : List (ConsensusEngineId × List UInt8)) : pallet.Resolves digests := by
  apply resolves_of_nonempty
  intro absent
  unfold doTryState at sound
  dsimp only at sound
  split at sound
  · cases sound
  · split at sound
    · cases sound
    · cases sound
    · rename_i count length
      unfold decodeLen at length
      unfold authorities at absent
      cases stored : pallet.stored with
      | none => simp [stored] at length
      | some bounded =>
        simp only [stored, Option.map_some, Option.getD_some] at absent length
        simp [absent] at length

end Hotstuff
