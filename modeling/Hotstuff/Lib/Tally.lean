import Mathlib.Data.Finset.Card
import Mathlib.Data.List.Induction

/-! The first item of each key in a sequence, and how many there are. -/

namespace Tally

variable {α κ : Type} [DecidableEq κ]

/-- The items whose key has not occurred before, in order of arrival. -/
def firsts (key : α → κ) (items : List α) : List α :=
  items.foldl (fun kept item => if key item ∈ kept.map key then kept else kept ++ [item]) []

theorem firsts_concat (key : α → κ) (items : List α) (item : α) :
    firsts key (items ++ [item]) =
      if key item ∈ (firsts key items).map key then firsts key items
      else firsts key items ++ [item] := by
  simp [firsts]

/-- Taking first items loses no key. -/
theorem mem_firsts_keys (key : α → κ) (items : List α) (name : κ) :
    name ∈ (firsts key items).map key ↔ name ∈ items.map key := by
  induction items using List.reverseRecOn with
  | nil => rfl
  | append_singleton items last ih =>
    rw [firsts_concat]
    by_cases seen : key last ∈ (firsts key items).map key
    · rw [if_pos seen, ih, List.map_append, List.mem_append]
      constructor
      · exact .inl
      · rintro (old | added)
        · exact old
        · rw [List.mem_singleton.mp added]
          rw [← List.mem_singleton.mp added] at seen ⊢
          exact ih.mp seen
    · rw [if_neg seen, List.map_append, List.map_append, List.mem_append, List.mem_append, ih]

theorem firsts_concat_fresh {key : α → κ} {items : List α} {item : α}
    (fresh : key item ∉ items.map key) :
    firsts key (items ++ [item]) = firsts key items ++ [item] := by
  rw [← mem_firsts_keys] at fresh
  rw [firsts_concat, if_neg fresh]

theorem firsts_nodup (key : α → κ) (items : List α) : ((firsts key items).map key).Nodup := by
  induction items using List.reverseRecOn with
  | nil => exact List.nodup_nil
  | append_singleton items last ih =>
    rw [firsts_concat]
    split
    · exact ih
    · rename_i fresh
      rw [List.map_append]
      exact ih.append (List.nodup_singleton _) (by simpa using fresh)

theorem mem_of_mem_firsts {key : α → κ} {items : List α} {item : α}
    (member : item ∈ firsts key items) : item ∈ items := by
  induction items using List.reverseRecOn with
  | nil => exact member
  | append_singleton items last ih =>
    rw [firsts_concat] at member
    split at member
    · exact List.mem_append_left _ (ih member)
    · rcases List.mem_append.mp member with old | added
      · exact List.mem_append_left _ (ih old)
      · exact List.mem_append_right _ added

/-- There are as many first items as there are keys. -/
theorem firsts_length (key : α → κ) (items : List α) :
    (firsts key items).length = (items.map key).toFinset.card := by
  have same : ((firsts key items).map key).toFinset = (items.map key).toFinset := by
    ext name
    rw [List.mem_toFinset, List.mem_toFinset, mem_firsts_keys]
  rw [← same, List.toFinset_card_of_nodup (firsts_nodup key items), List.length_map]

/-- One more item adds its key if that is new. -/
theorem card_concat (key : α → κ) (items : List α) (item : α) :
    ((items ++ [item]).map key).toFinset.card =
      (items.map key).toFinset.card + if key item ∈ items.map key then 0 else 1 := by
  rw [List.map_append, List.toFinset_append, Finset.union_comm]
  have single : ([item].map key).toFinset ∪ (items.map key).toFinset =
      insert (key item) (items.map key).toFinset := rfl
  rw [single]
  by_cases seen : key item ∈ items.map key
  · rw [if_pos seen, Finset.insert_eq_of_mem (List.mem_toFinset.mpr seen), Nat.add_zero]
  · rw [if_neg seen,
      Finset.card_insert_of_notMem (fun member => seen (List.mem_toFinset.mp member))]

/-- Where an item completes something exactly if its key is new and the keys are
then more than `limit`, the completions are the keys beyond the limit. -/
theorem excess_concat {key : α → κ} {items : List α} {item : α} {limit : Nat} {completed : Prop}
    [Decidable completed] (completes : completed ↔ key item ∉ items.map key ∧
      limit + 1 ≤ ((items ++ [item]).map key).toFinset.card) :
    ((items ++ [item]).map key).toFinset.card - limit =
      (items.map key).toFinset.card - limit + if completed then 1 else 0 := by
  rw [card_concat] at completes ⊢
  by_cases seen : key item ∈ items.map key
  · rw [if_pos seen, if_neg (fun done => (completes.mp done).1 seen), Nat.add_zero, Nat.add_zero]
  · rw [if_neg seen] at completes ⊢
    by_cases done : completed
    · have enough := (completes.mp done).2
      rw [if_pos done]
      omega
    · have short : ¬ limit + 1 ≤ (items.map key).toFinset.card + 1 := fun enough =>
        done (completes.mpr ⟨seen, enough⟩)
      rw [if_neg done]
      omega

end Tally
