import Hotstuff.Lib.Command

/-! Two commands run side by side. They mirror one another under a relation of
states when related states give the same result and related states again. -/

/-- Equal failures, or related values. -/
inductive Agree {ε α : Type} (related : α → α → Prop) : Except ε α → Except ε α → Prop where
  | error (failure : ε) : Agree related (.error failure) (.error failure)
  | ok (both : related value other) : Agree related (.ok value) (.ok other)

namespace Agree

variable {ε α β : Type} {related : α → α → Prop} {first second : Except ε α}

theorem cases (agree : Agree related first second) :
    (∃ failure, first = .error failure ∧ second = .error failure) ∨
      ∃ value other, first = .ok value ∧ second = .ok other ∧ related value other := by
  cases agree with
  | error failure => exact .inl ⟨failure, rfl, rfl⟩
  | ok both => exact .inr ⟨_, _, rfl, rfl, both⟩

theorem bind {following : β → β → Prop} {next further : α → Except ε β}
    (agree : Agree related first second)
    (each : ∀ value other, related value other → Agree following (next value) (further other)) :
    Agree following (first >>= next) (second >>= further) := by
  cases agree with
  | error failure => exact .error failure
  | ok both => exact each _ _ both

end Agree

namespace Command

variable {ε σ α β : Type}

/-- From related states both commands return the same, and leave related states. -/
def Mirrors (related : σ → σ → Prop) (first second : Command ε σ α) : Prop :=
  ∀ state other, related state other →
    (first state).1 = (second other).1 ∧ related (first state).2 (second other).2

namespace Mirrors

variable {related : σ → σ → Prop}

theorem pure (value : α) : Mirrors related (Pure.pure value : Command ε σ α) (Pure.pure value) :=
  fun _ _ start => ⟨rfl, start⟩

theorem fail (failure : ε) :
    Mirrors related (Command.fail failure : Command ε σ α) (Command.fail failure) :=
  fun _ _ start => ⟨rfl, start⟩

theorem check (result : Except ε α) :
    Mirrors related (Command.check result) (Command.check result) :=
  fun _ _ start => ⟨rfl, start⟩

theorem update {change alter : σ → σ}
    (keeps : ∀ state other, related state other → related (change state) (alter other)) :
    Mirrors related (Command.update change : Command ε σ Unit) (Command.update alter) :=
  fun state other start => ⟨rfl, keeps state other start⟩

theorem bind {first second : Command ε σ α} {next following : α → Command ε σ β}
    (one : Mirrors related first second)
    (two : ∀ value, Mirrors related (next value) (following value)) :
    Mirrors related (first >>= next) (second >>= following) := by
  intro state other start
  obtain ⟨same, kept⟩ := one state other start
  rcases ran : first state with ⟨outcome, left⟩
  rcases ranToo : second other with ⟨result, right⟩
  rw [ran, ranToo] at same kept
  cases same
  cases outcome with
  | error failure =>
    rw [bind_error ran, bind_error ranToo]
    exact ⟨rfl, kept⟩
  | ok value =>
    rw [bind_ok ran, bind_ok ranToo]
    exact two value left right kept

/-- Commands that read their states may go on differently, as long as they
mirror one another for related states. -/
theorem read_bind {next following : σ → Command ε σ α}
    (each : ∀ state other, related state other → Mirrors related (next state) (following other)) :
    Mirrors related (Command.read >>= next) (Command.read >>= following) :=
  fun state other start => each state other start state other start

theorem ite {condition : Prop} [Decidable condition] {yes no right wrong : Command ε σ α}
    (positive : condition → Mirrors related yes right)
    (negative : ¬ condition → Mirrors related no wrong) :
    Mirrors related (if condition then yes else no) (if condition then right else wrong) := by
  split
  · exact positive ‹_›
  · exact negative ‹_›

end Mirrors

end Command
