import Mathlib.Logic.Relation

/-! Commands over a mutable state, and rules for runs of the steps they are made
of. A failing command keeps the state it has reached, as a method on a mutable
receiver does. -/

/-- A command returns a value or a failure, together with the state it leaves. -/
def Command (ε σ α : Type) : Type := σ → Except ε α × σ

namespace Command

variable {ε σ α β γ : Type}

instance : Monad (Command ε σ) where
  pure value := fun state => (.ok value, state)
  bind first second := fun state =>
    match first state with
    | (.ok value, next) => second value next
    | (.error failure, next) => (.error failure, next)

def fail (failure : ε) : Command ε σ α := fun state => (.error failure, state)

def read : Command ε σ σ := fun state => (.ok state, state)

def update (change : σ → σ) : Command ε σ Unit := fun state => (.ok (), change state)

/-- Lift a check that reads nothing and changes nothing. -/
def check (result : Except ε α) : Command ε σ α := fun state => (result, state)

@[simp] theorem pure_apply (value : α) (state : σ) :
    (pure value : Command ε σ α) state = (.ok value, state) := rfl

@[simp] theorem read_apply (state : σ) :
    (read : Command ε σ σ) state = (.ok state, state) := rfl

@[simp] theorem update_apply (change : σ → σ) (state : σ) :
    (update change : Command ε σ Unit) state = (.ok (), change state) := rfl

@[simp] theorem check_apply (result : Except ε α) (state : σ) :
    (check result : Command ε σ α) state = (result, state) := rfl

theorem bind_apply (first : Command ε σ α) (second : α → Command ε σ β) (state : σ) :
    (first >>= second) state =
      match first state with
      | (.ok value, next) => second value next
      | (.error failure, next) => (.error failure, next) := rfl

theorem apply_eq {command : Command ε σ α} {state : σ} {outcome : Except ε α}
    (ran : (command state).1 = outcome) : command state = (outcome, (command state).2) := by
  rw [← ran]

theorem bind_ok {first : Command ε σ α} {second : α → Command ε σ β} {state next : σ} {value : α}
    (ran : first state = (.ok value, next)) : (first >>= second) state = second value next := by
  simp [bind_apply, ran]

theorem bind_error {first : Command ε σ α} {second : α → Command ε σ β} {state next : σ}
    {failure : ε} (ran : first state = (.error failure, next)) :
    (first >>= second) state = (.error failure, next) := by
  simp [bind_apply, ran]

@[simp] theorem read_bind (second : σ → Command ε σ β) (state : σ) :
    (read >>= second) state = second state state := rfl

@[simp] theorem update_bind (change : σ → σ) (second : Unit → Command ε σ β) (state : σ) :
    (update change >>= second) state = second () (change state) := rfl

theorem bind_assoc (first : Command ε σ α) (second : α → Command ε σ β)
    (third : β → Command ε σ γ) :
    (first >>= second) >>= third = first >>= fun value => second value >>= third := by
  funext state
  rcases ran : first state with ⟨outcome, next⟩
  cases outcome with
  | error failure => rw [bind_error ran, bind_error (bind_error ran)]
  | ok value => rw [bind_ok ran, bind_apply, bind_ok ran, bind_apply]

/-- A predicate kept by every step survives a whole run of steps. -/
theorem keep_along {step : σ → σ → Prop} (kept : σ → Prop) {state next : σ}
    (run : Relation.ReflTransGen step state next)
    (stable : ∀ state next, step state next → kept state → kept next)
    (holds : kept state) : kept next := by
  induction run with
  | refl => exact holds
  | tail _ last ih => exact stable _ _ last ih

/-- Where every step lowers a rank or is the last one, a run is done after as
many steps. -/
theorem done_within {step : σ → σ → Prop} {done : σ → Prop} (rank : σ → Nat)
    (lowers : ∀ state next, step state next → done next ∨ rank next < rank state)
    (run : Nat → σ)
    (moves : ∀ index, done (run index) ∨ step (run index) (run (index + 1))) :
    ∃ index ≤ rank (run 0) + 1, done (run index) := by
  induction bound : rank (run 0) using Nat.strongRecOn generalizing run with
  | ind bound ih =>
    rcases moves 0 with finished | moved
    · exact ⟨0, Nat.zero_le _, finished⟩
    · rcases lowers _ _ moved with finished | lower
      · exact ⟨1, Nat.le_add_left _ _, finished⟩
      · rw [bound] at lower
        obtain ⟨index, within, finished⟩ := ih _ lower (fun index => run (index + 1))
          (fun index => moves (index + 1)) rfl
        refine ⟨index + 1, ?_, finished⟩
        omega

end Command
