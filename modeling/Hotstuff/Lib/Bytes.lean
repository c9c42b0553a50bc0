import Mathlib.Data.Nat.Basic
import Mathlib.Tactic.Ring

/-! Fixed-width little-endian numbers and length-prefixed byte strings, with
the injectivity laws that let a concatenation of fields be read back. -/

namespace Bytes

/-- The `width` low bytes of a number, least significant first. -/
def littleEndian : Nat → Nat → List UInt8
  | 0, _ => []
  | width + 1, number => UInt8.ofNat number :: littleEndian width (number / 256)

@[simp] theorem littleEndian_length (width number : Nat) :
    (littleEndian width number).length = width := by
  induction width generalizing number with
  | zero => rfl
  | succ width ih => simp [littleEndian, ih]

private theorem byte_mod {first second : Nat} (same : UInt8.ofNat first = UInt8.ofNat second) :
    first % 256 = second % 256 := by
  have values := congrArg UInt8.toNat same
  simpa using values

/-- Equal encodings of one width come from equal numbers, as long as both
numbers fit into that width. -/
theorem littleEndian_inj {width first second : Nat}
    (same : littleEndian width first = littleEndian width second)
    (fits : first < 256 ^ width) (fitsToo : second < 256 ^ width) : first = second := by
  induction width generalizing first second with
  | zero =>
    simp only [Nat.pow_zero] at fits fitsToo
    omega
  | succ width ih =>
    simp only [littleEndian, List.cons.injEq] at same
    obtain ⟨low, high⟩ := same
    rw [Nat.pow_succ] at fits fitsToo
    have rest := ih high (Nat.div_lt_of_lt_mul (by rw [Nat.mul_comm]; exact fits))
      (Nat.div_lt_of_lt_mul (by rw [Nat.mul_comm]; exact fitsToo))
    have digit := byte_mod low
    omega

/-- The number that bytes stand for, least significant first. -/
def ofLittleEndian : List UInt8 → Nat
  | [] => 0
  | byte :: rest => byte.toNat + 256 * ofLittleEndian rest

theorem ofLittleEndian_littleEndian {width number : Nat} (fits : number < 256 ^ width) :
    ofLittleEndian (littleEndian width number) = number := by
  induction width generalizing number with
  | zero =>
    simp only [Nat.pow_zero] at fits
    simp only [littleEndian, ofLittleEndian]
    omega
  | succ width ih =>
    rw [Nat.pow_succ, Nat.mul_comm] at fits
    have digit : (UInt8.ofNat number).toNat = number % 256 := by simp
    rw [littleEndian, ofLittleEndian, ih (Nat.div_lt_of_lt_mul fits), digit]
    omega

/-- The compact form of a collection length: the two low bits of the first
byte select a one, two, four or five byte form. -/
def compactLength (length : Nat) : List UInt8 :=
  if length < 2 ^ 6 then littleEndian 1 (length * 4)
  else if length < 2 ^ 14 then littleEndian 2 (length * 4 + 1)
  else if length < 2 ^ 30 then littleEndian 4 (length * 4 + 2)
  else 3 :: littleEndian 4 length

/-- A byte string behind its compact length. -/
def lengthPrefixed (data : List UInt8) : List UInt8 :=
  compactLength data.length ++ data

private theorem compactLength_cases (length : Nat) :
    (length < 2 ^ 6 ∧ (compactLength length).length = 1) ∨
      (2 ^ 6 ≤ length ∧ length < 2 ^ 14 ∧ (compactLength length).length = 2) ∨
      (2 ^ 14 ≤ length ∧ length < 2 ^ 30 ∧ (compactLength length).length = 4) ∨
      (2 ^ 30 ≤ length ∧ (compactLength length).length = 5) := by
  unfold compactLength
  split
  · left; simp; omega
  · split
    · right; left; simp; omega
    · split
      · right; right; left; simp; omega
      · right; right; right; simp; omega

theorem lengthPrefixed_inj {first second : List UInt8}
    (same : lengthPrefixed first = lengthPrefixed second) : first = second := by
  have total := congrArg List.length same
  simp only [lengthPrefixed, List.length_append] at total
  have lengths : first.length = second.length := by
    rcases compactLength_cases first.length with one | one | one | one <;>
      rcases compactLength_cases second.length with two | two | two | two <;> omega
  unfold lengthPrefixed at same
  rw [lengths] at same
  exact List.append_cancel_left same

end Bytes
