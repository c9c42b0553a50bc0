import Hotstuff.Consensus.Worker

/-! Runs of one replica. Between two calls the network task may change the
pending queue and the node may change the client, except for the stored
proposals. -/

namespace Hotstuff

/-- A worker waits for its next input, runs a handler, or has panicked. -/
inductive Control (B : Type) [BlockT B] where
  | idle
  | running (call : Call B)
  | halted
deriving DecidableEq

structure Replica (B C : Type) [BlockT B] where
  worker : ConsensusWorker B C
  control : Control B

namespace Replica

variable {B C : Type} [BlockT B] [ClientForHotstuff B C]

/-- The handler `run` selects for a message; other messages are ignored. -/
def callOf : ConsensusMessage B → Option (Call B)
  | .propose proposal => some (.proposal proposal)
  | .vote vote => some (.vote vote)
  | .timeout timeout => some (.timeout timeout)
  | .tc tc => some (.tc tc)
  | .syncRequest _ _ => none
  | .phantom => none

/-- Errors are logged and dropped by `run`, a panic ends the task. -/
def controlAfter : Except (Fault B) (Option (Call B)) → Control B
  | .ok none => .idle
  | .ok (some call) => .running call
  | .error (.error _) => .idle
  | .error .panic => .halted

omit [ClientForHotstuff B C] in
theorem controlAfter_running {result : Except (Fault B) (Option (Call B))} {call : Call B}
    (running : controlAfter result = .running call) : result = .ok (some call) := by
  rcases result with (_ | _) | _ | next
  · cases running
  · cases running
  · cases running
  · cases running
    rfl

def resume (replica : Replica B C) (call : Call B) : Replica B C :=
  { worker := (ConsensusWorker.handle call replica.worker).2
    control := controlAfter (ConsensusWorker.handle call replica.worker).1 }

/-- The call a replica is in runs, and leaves it in the next one. -/
def Resumes (replica next : Replica B C) : Prop :=
  ∃ call, replica.control = .running call ∧ next = replica.resume call

/-- One step of a replica that may receive the messages in `allowed`. -/
inductive Step (allowed : ConsensusMessage B → Prop) : Replica B C → Replica B C → Prop where
  | timer (idle : replica.control = .idle) :
      Step allowed replica { replica with control := .running .localTimer }
  | receive (idle : replica.control = .idle) (present : allowed message)
      (selected : callOf message = some call) :
      Step allowed replica { replica with control := .running call }
  | resume (running : replica.control = .running call) :
      Step allowed replica (replica.resume call)
  | environment (client : C) (queue : Option (List (BlockInfo B)))
      (kept : ClientForHotstuff.aux (B := B) client = ClientForHotstuff.aux replica.worker.client) :
      Step allowed replica { replica with
        worker := { replica.worker with client, pendingFinalizeQueue := queue } }

/-- `start_hotstuff`: a fresh consensus state, nothing stored under proposal
digests, and any pending queue. -/
structure Initial (keystore : Keystore B) (authorities : AuthorityList B)
    (replica : Replica B C) : Prop where
  worker : ∃ client queue, (∀ key, ClientForHotstuff.aux (B := B) client key = none) ∧
    replica.worker = ConsensusWorker.new (.new keystore authorities) client queue
  control : replica.control = .idle

/-- States reached by steps that each start in a state satisfying `guard`. -/
inductive Reachable (allowed : ConsensusMessage B → Prop) (guard : Replica B C → Prop)
    (keystore : Keystore B) (authorities : AuthorityList B) : Replica B C → Prop where
  | start (initial : Initial keystore authorities replica) :
      Reachable allowed guard keystore authorities replica
  | step (before : Reachable allowed guard keystore authorities replica) (holds : guard replica)
      (move : Step allowed replica next) : Reachable allowed guard keystore authorities next

/-- Every run: any message at any time, no condition on the steps. -/
abbrev Run (keystore : Keystore B) (authorities : AuthorityList B) (replica : Replica B C) :
    Prop :=
  Reachable (fun _ => True) (fun _ => True) keystore authorities replica

theorem Step.mono {allowed wider : ConsensusMessage B → Prop} {replica next : Replica B C}
    (widened : ∀ message, allowed message → wider message) (step : Step allowed replica next) :
    Step wider replica next := by
  cases step with
  | timer idle => exact .timer idle
  | receive idle present selected => exact .receive idle (widened _ present) selected
  | resume running => exact .resume running
  | environment client queue kept => exact .environment client queue kept

theorem Reachable.mono {allowed wider : ConsensusMessage B → Prop}
    {guard weaker : Replica B C → Prop} {keystore : Keystore B} {authorities : AuthorityList B}
    {replica : Replica B C} (widened : ∀ message, allowed message → wider message)
    (weakened : ∀ state, guard state → weaker state)
    (reachable : Reachable allowed guard keystore authorities replica) :
    Reachable wider weaker keystore authorities replica := by
  induction reachable with
  | start initial => exact .start initial
  | step _ holds move ih => exact .step ih (weakened _ holds) (move.mono widened)

/-- Run the calls of a replica one after another, at most `fuel` of them. -/
def settle : Nat → Replica B C → Replica B C
  | 0, replica => replica
  | fuel + 1, replica =>
    match replica.control with
    | .running call => settle fuel (replica.resume call)
    | _ => replica

theorem settle_still {replica : Replica B C} (fuel : Nat)
    (still : ∀ call, replica.control ≠ .running call) : replica.settle fuel = replica := by
  cases fuel with
  | zero => rfl
  | succ fuel =>
    unfold settle
    split
    · rename_i call running
      exact absurd running (still call)
    · rfl

theorem settle_succ (fuel : Nat) (replica : Replica B C) :
    replica.settle (fuel + 1) = (replica.settle fuel).settle 1 := by
  induction fuel generalizing replica with
  | zero => rfl
  | succ fuel ih =>
    rw [settle]
    split
    · rename_i call running
      have first : replica.settle (fuel + 1) = (replica.resume call).settle fuel := by
        rw [settle]
        simp only [running]
      rw [ih, first]
    · rename_i waiting
      rw [settle_still (fuel + 1) waiting, settle_still 1 waiting]

/-- The calls `run` makes itself: for the local timer, or for a message. -/
def external : Call B → Bool
  | .generateProposal _ => false
  | _ => true

/-- An idle replica handles one input to its end; any other one ignores it. -/
def react (fuel : Nat) (replica : Replica B C) (call : Call B) : Replica B C :=
  match replica.control with
  | .idle =>
    if external call then settle fuel { replica with control := .running call } else replica
  | _ => replica

/-- A session: inputs handled one after another. -/
def session (fuel : Nat) (replica : Replica B C) (calls : List (Call B)) : Replica B C :=
  calls.foldl (fun replica call => replica.react fuel call) replica

/-- Whether every call `settle` runs starts in a state that passes `check`. -/
def settles (check : Replica B C → Bool) : Nat → Replica B C → Bool
  | 0, _ => true
  | fuel + 1, replica =>
    match replica.control with
    | .running call => check replica && settles check fuel (replica.resume call)
    | _ => true

/-- The same for the calls of a session, and for the states it takes inputs in. -/
def complies (check : Replica B C → Bool) (fuel : Nat) (replica : Replica B C) :
    List (Call B) → Bool
  | [] => true
  | call :: rest =>
    check replica && settles check fuel { replica with control := .running call } &&
      complies check fuel (replica.react fuel call) rest

section Reached

variable {allowed : ConsensusMessage B → Prop} {guard : Replica B C → Prop}
  {check : Replica B C → Bool} {keystore : Keystore B} {authorities : AuthorityList B}
  {replica : Replica B C}

theorem Reachable.settle (sound : ∀ state, check state = true → guard state) (fuel : Nat)
    (reachable : Reachable allowed guard keystore authorities replica)
    (passed : settles check fuel replica = true) :
    Reachable allowed guard keystore authorities (replica.settle fuel) := by
  induction fuel generalizing replica with
  | zero => exact reachable
  | succ fuel ih =>
    unfold Replica.settle
    unfold settles at passed
    split
    · rename_i call running
      rw [running, Bool.and_eq_true] at passed
      exact ih (.step reachable (sound _ passed.1) (.resume running)) passed.2
    · exact reachable

/-- An input from outside is a step, whatever it is. -/
theorem Step.input {call : Call B} (idle : replica.control = .idle)
    (outside : external call = true) :
    Step (fun _ => True) replica { replica with control := .running call } := by
  cases call with
  | localTimer => exact .timer idle
  | timeout timeout => exact .receive idle trivial (show callOf (.timeout timeout) = _ from rfl)
  | proposal proposal =>
    exact .receive idle trivial (show callOf (.propose proposal) = _ from rfl)
  | vote vote => exact .receive idle trivial (show callOf (.vote vote) = _ from rfl)
  | tc tc => exact .receive idle trivial (show callOf (.tc tc) = _ from rfl)
  | generateProposal tc => cases outside

theorem Reachable.react (sound : ∀ state, check state = true → guard state) (fuel : Nat)
    (call : Call B) (reachable : Reachable (fun _ => True) guard keystore authorities replica)
    (idle : check replica = true)
    (passed : settles check fuel { replica with control := .running call } = true) :
    Reachable (fun _ => True) guard keystore authorities (replica.react fuel call) := by
  unfold Replica.react
  split
  · rename_i waiting
    split
    · rename_i outside
      exact .settle sound fuel (.step reachable (sound _ idle) (.input waiting outside)) passed
    · exact reachable
  · exact reachable

/-- A session that passes the check of a guard is a run under the guard. -/
theorem Reachable.session (sound : ∀ state, check state = true → guard state) (fuel : Nat)
    (calls : List (Call B))
    (reachable : Reachable (fun _ => True) guard keystore authorities replica)
    (passed : complies check fuel replica calls = true) :
    Reachable (fun _ => True) guard keystore authorities (replica.session fuel calls) := by
  induction calls generalizing replica with
  | nil => exact reachable
  | cons call rest ih =>
    simp only [complies, Bool.and_eq_true] at passed
    exact ih (reachable.react sound fuel call passed.1.1 passed.1.2) passed.2

theorem settles_true (fuel : Nat) (replica : Replica B C) :
    settles (fun _ => true) fuel replica = true := by
  induction fuel generalizing replica with
  | zero => rfl
  | succ fuel ih =>
    unfold settles
    split
    · exact ih _
    · rfl

theorem complies_true (fuel : Nat) (replica : Replica B C) (calls : List (Call B)) :
    complies (fun _ => true) fuel replica calls = true := by
  induction calls generalizing replica with
  | nil => rfl
  | cons call rest ih =>
    simp only [complies, Bool.true_and, Bool.and_eq_true]
    exact ⟨settles_true fuel _, ih _⟩

theorem Run.session (run : Run keystore authorities replica) (fuel : Nat)
    (calls : List (Call B)) : Run keystore authorities (replica.session fuel calls) :=
  Reachable.session (fun _ _ => trivial) fuel calls run (complies_true fuel replica calls)

end Reached

end Replica

end Hotstuff
