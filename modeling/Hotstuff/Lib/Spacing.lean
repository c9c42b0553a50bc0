import Mathlib.Data.Nat.ModEq

/-! Numbers in a list that keep a distance, and how many of them fit into a window. -/

/-- From each number to every later one it is at least the gap. -/
def Spaced (gap : Nat) (numbers : List Nat) : Prop :=
  numbers.Pairwise fun first second => first + gap ≤ second

namespace Spaced

variable {gap : Nat} {numbers : List Nat}

theorem length_le (spaced : Spaced gap numbers) {start count : Nat}
    (window : ∀ number ∈ numbers, start ≤ number ∧ number < start + count * gap) :
    numbers.length ≤ count := by
  induction numbers generalizing start count with
  | nil => exact Nat.zero_le _
  | cons head rest ih =>
    obtain ⟨behind, spacedRest⟩ := List.pairwise_cons.mp spaced
    obtain ⟨low, high⟩ := window head List.mem_cons_self
    cases count with
    | zero =>
      rw [Nat.zero_mul] at high
      omega
    | succ count =>
      rw [Nat.succ_mul] at window
      -- The rest lies behind the first gap of the window.
      have later : ∀ number ∈ rest,
          start + gap ≤ number ∧ number < start + gap + count * gap := by
        intro number member
        have apart := behind number member
        have inside := window number (List.mem_cons_of_mem _ member)
        omega
      exact Nat.succ_le_succ (ih spacedRest later)

theorem of_increasing (increasing : numbers.Pairwise (· < ·)) : Spaced 1 numbers :=
  increasing

end Spaced
