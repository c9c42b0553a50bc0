import Mathlib.Data.Finset.Card
import Mathlib.Data.Finset.Dedup

/-! Quorums of more than two thirds of a membership list. -/

/-- Pairwise distinct members that number more than two thirds of the list. -/
structure Quorum (members voters : List α) : Prop where
  nodup : voters.Nodup
  known : ∀ voter ∈ voters, voter ∈ members
  large : members.length * 2 / 3 < voters.length

namespace Quorum

variable {α : Type} [DecidableEq α] {members first second : List α}

theorem toFinset_card (quorum : Quorum members first) :
    first.toFinset.card = first.length :=
  List.toFinset_card_of_nodup quorum.nodup

theorem union_card_le (one : Quorum members first) (two : Quorum members second) :
    (first.toFinset ∪ second.toFinset).card ≤ members.length := by
  have inside : first.toFinset ∪ second.toFinset ⊆ members.toFinset := by
    intro voter present
    rcases Finset.mem_union.mp present with left | right
    · exact List.mem_toFinset.mpr (one.known voter (List.mem_toFinset.mp left))
    · exact List.mem_toFinset.mpr (two.known voter (List.mem_toFinset.mp right))
  exact (Finset.card_le_card inside).trans members.toFinset_card_le

/-- Fewer than a third of faulty members cannot cover the intersection of two
quorums, for every membership size. -/
theorem common (one : Quorum members first) (two : Quorum members second)
    (faulty : Finset α) (few : 3 * faulty.card < members.length) :
    ∃ voter ∈ first, voter ∈ second ∧ voter ∉ faulty := by
  have total := one.union_card_le two
  have split := Finset.card_union_add_card_inter first.toFinset second.toFinset
  rw [one.toFinset_card, two.toFinset_card] at split
  have sizeOne := one.large
  have sizeTwo := two.large
  have bigger : faulty.card < (first.toFinset ∩ second.toFinset).card := by omega
  obtain ⟨voter, shared, honest⟩ := Finset.exists_mem_notMem_of_card_lt_card bigger
  obtain ⟨left, right⟩ := Finset.mem_inter.mp shared
  exact ⟨voter, List.mem_toFinset.mp left, List.mem_toFinset.mp right, honest⟩

end Quorum
