import Hotstuff.Consensus.PayloadSide
import Hotstuff.Consensus.Pending

/-! A node: a replica together with the notifications that its pending queue has
not read yet. The chain grows and notifies beside the replica, and the network
task polls the queue at any time between two calls. -/

namespace Hotstuff

open Command ConsensusWorker PendingFinalizeBlockQueue

variable {B C : Type} [BlockT B]

structure Node (B C : Type) [BlockT B] where
  replica : Replica B C
  imports : List (ImportNotification B)
  finals : List (Number B)

variable [ClientForHotstuff B C]

/-- The steps of the worker itself: it takes an input, or runs a call. -/
def Replica.Works (replica next : Replica B C) : Prop :=
  Replica.Step (fun _ => True) replica next ∧
    (next.worker = replica.worker ∨ Replica.Resumes replica next)

/-- The same from a state that passes a check. -/
def Replica.WorksFrom (check : Replica B C → Bool) (replica next : Replica B C) : Prop :=
  check replica = true ∧ Replica.Works replica next

theorem Replica.settle_works {check : Replica B C → Bool} (fuel : Nat) {replica : Replica B C}
    (passed : settles check fuel replica = true) :
    Relation.ReflTransGen (Replica.WorksFrom check) replica (replica.settle fuel) := by
  induction fuel generalizing replica with
  | zero => exact .refl
  | succ fuel ih =>
    unfold Replica.settle
    unfold settles at passed
    split
    · rename_i call running
      rw [running, Bool.and_eq_true] at passed
      exact .head ⟨passed.1, .resume running, .inr ⟨call, running, rfl⟩⟩ (ih passed.2)
    · exact .refl

theorem Replica.session_works {check : Replica B C → Bool} (fuel : Nat) (calls : List (Call B))
    {replica : Replica B C} (passed : complies check fuel replica calls = true) :
    Relation.ReflTransGen (Replica.WorksFrom check) replica (replica.session fuel calls) := by
  induction calls generalizing replica with
  | nil => exact .refl
  | cons call rest ih =>
    simp only [complies, Bool.and_eq_true] at passed
    have first : Relation.ReflTransGen (Replica.WorksFrom check) replica
        (replica.react fuel call) := by
      unfold Replica.react
      split
      · rename_i idle
        split
        · rename_i outside
          exact .head ⟨passed.1.1, .input idle outside, .inl rfl⟩
            (Replica.settle_works fuel passed.1.2)
        · exact .refl
      · exact .refl
    exact first.trans (ih passed.2)

variable [KnownBlocks B C]

/-- A block that the client knows under its number. The hash of the empty
payload is no block's hash. -/
def BlockInfo.Known (client : C) (block : BlockInfo B) : Prop :=
  ∃ hash, block.hash = some hash ∧ hash ≠ emptyPayloadHash ∧
    KnownBlocks.number client hash = some block.number

/-- What is known stays known. -/
def Grows (B : Type) [BlockT B] [ClientForHotstuff B C] [KnownBlocks B C] (client next : C) :
    Prop :=
  ∀ (hash : Hash B) number, KnownBlocks.number client hash = some number →
    KnownBlocks.number next hash = some number

theorem SameSupply.grows {worker next : ConsensusWorker B C} (same : SameSupply worker next) :
    Grows B worker.client next.client :=
  fun hash _ found => (congrFun same.number hash).trans found

theorem BlockInfo.Known.mono {client next : C} {block : BlockInfo B} (grows : Grows B client next)
    (known : block.Known client) : block.Known next := by
  obtain ⟨hash, found, real, number⟩ := known
  exact ⟨hash, found, real, grows hash _ number⟩

theorem BlockInfo.Known.getD_ne {client : C} {block : BlockInfo B} (known : block.Known client) :
    block.hash.getD emptyPayloadHash ≠ emptyPayloadHash := by
  obtain ⟨hash, found, real, _⟩ := known
  simpa [found] using real

namespace Node

inductive Step : Node B C → Node B C → Prop where
  | work (works : Replica.Works node.replica next) : Step node { node with replica := next }
  | chain (client : C) (imports : List (ImportNotification B)) (finals : List (Number B))
      (kept : ClientForHotstuff.aux (B := B) client =
        ClientForHotstuff.aux node.replica.worker.client)
      (grows : Grows B node.replica.worker.client client)
      (known : ∀ notification ∈ imports,
        BlockInfo.Known client ⟨some notification.hash, notification.number⟩) :
      Step node
        { replica := { node.replica with worker := { node.replica.worker with client } }
          imports := node.imports ++ imports
          finals := node.finals ++ finals }
  | poll (ready : Poll B) (imports : List (ImportNotification B)) (finals : List (Number B))
      (importsRead : node.imports = ready.imports ++ imports)
      (finalsRead : node.finals = ready.finals ++ finals)
      (polled : PendingFinalizeBlockQueue.poll ⟨node.replica.worker.pendingFinalizeQueue⟩ ready =
        .ok pending) :
      Step node
        { replica := { node.replica with
            worker := { node.replica.worker with pendingFinalizeQueue := pending.queue } }
          imports
          finals }

/-- A worker started with the queue that is made for it. -/
structure Initial [HeaderBackend B C] (keystore : Keystore B) (authorities : AuthorityList B)
    (node : Node B C) : Prop where
  replica : ∃ client pending, (∀ key, ClientForHotstuff.aux (B := B) client key = none) ∧
    PendingFinalizeBlockQueue.new client = .ok pending ∧
    node.replica = ⟨ConsensusWorker.new (.new keystore authorities) client pending.queue, .idle⟩
  imports : node.imports = []
  finals : node.finals = []

/-- Nodes reached by steps that each start in a state satisfying `guard`. -/
inductive Reachable [HeaderBackend B C] (guard : Node B C → Prop) (keystore : Keystore B)
    (authorities : AuthorityList B) : Node B C → Prop where
  | start (initial : Initial keystore authorities node) : Reachable guard keystore authorities node
  | step (before : Reachable guard keystore authorities node) (holds : guard node)
      (move : Step node next) : Reachable guard keystore authorities next

abbrev Run [HeaderBackend B C] (keystore : Keystore B) (authorities : AuthorityList B)
    (node : Node B C) : Prop :=
  Reachable (fun _ => True) keystore authorities node

theorem Step.replica {node next : Node B C} (step : Step node next) :
    Replica.Step (fun _ => True) node.replica next.replica := by
  cases step with
  | work works => exact works.1
  | chain client imports finals kept grows known =>
    exact .environment client node.replica.worker.pendingFinalizeQueue kept
  | poll ready imports finals importsRead finalsRead polled =>
    exact .environment node.replica.worker.client _ rfl

variable [HeaderBackend B C] {keystore : Keystore B} {authorities : AuthorityList B}
  {guard : Node B C → Prop} {node : Node B C}

theorem Reachable.mono {weaker : Node B C → Prop} (weakened : ∀ state, guard state → weaker state)
    (reachable : Reachable guard keystore authorities node) :
    Reachable weaker keystore authorities node := by
  induction reachable with
  | start initial => exact .start initial
  | step _ holds move ih => exact .step ih (weakened _ holds) move

/-- A node runs its replica. -/
theorem Reachable.replica (reachable : Reachable guard keystore authorities node) :
    Replica.Run keystore authorities node.replica := by
  induction reachable with
  | start initial =>
    obtain ⟨client, pending, fresh, _, same⟩ := initial.replica
    rw [same]
    exact .start ⟨⟨client, pending.queue, fresh, rfl⟩, rfl⟩
  | step _ _ move ih => exact .step ih trivial move.replica

/-- The queue is not poisoned, and everything in it and on its way there is a
known block. -/
structure QueueKnown (node : Node B C) : Prop where
  sound : ∃ queue, node.replica.worker.pendingFinalizeQueue = some queue
  queue : ∀ queue, node.replica.worker.pendingFinalizeQueue = some queue →
    ∀ block ∈ queue, block.Known node.replica.worker.client
  imports : ∀ notification ∈ node.imports,
    BlockInfo.Known node.replica.worker.client ⟨some notification.hash, notification.number⟩

omit [KnownBlocks B C] [HeaderBackend B C] in
/-- A worker's own step leaves the queue and the known blocks as they are. -/
theorem works_frame {replica next : Replica B C} (works : Replica.Works replica next) :
    SameSupply replica.worker next.worker := by
  rcases works.2 with same | ⟨call, _, rfl⟩
  · rw [same]
    exact ⟨rfl, .refl⟩
  · exact (handle_payloadSide call replica.worker).sameSupply

omit [HeaderBackend B C] in
/-- A poll of known blocks does not panic, and what it leaves in the queue was
there or has just been read. -/
theorem QueueKnown.poll (known : QueueKnown node) (ready : Poll B) :
    ∃ queue, PendingFinalizeBlockQueue.poll ⟨node.replica.worker.pendingFinalizeQueue⟩ ready =
        .ok ⟨some queue⟩ ∧
      ∀ block ∈ queue, block ∈ ready.imports.filterMap newBest ∨
        ∃ old, node.replica.worker.pendingFinalizeQueue = some old ∧ block ∈ old := by
  obtain ⟨old, present⟩ := known.sound
  rw [present]
  have hashed : ∀ block ∈ old, block.hash.isSome := fun block member => by
    obtain ⟨hash, found, _⟩ := known.queue old present block member
    simp [found]
  refine ⟨_, poll_some ready hashed, fun block member => ?_⟩
  rcases List.mem_append.mp ((Backlog.trims_suffix _ _).subset member) with kept | read
  · exact .inr ⟨old, rfl, kept⟩
  · exact .inl read

omit [HeaderBackend B C] in
theorem QueueKnown.step {next : Node B C} (known : QueueKnown node) (step : Step node next) :
    QueueKnown next := by
  cases step with
  | work works =>
    have same := works_frame works
    exact ⟨same.queue ▸ known.sound, fun pending found block member =>
      (known.queue pending (same.queue ▸ found) block member).mono same.grows,
      fun notification member => (known.imports notification member).mono same.grows⟩
  | chain client imports finals kept grows fresh =>
    refine ⟨known.sound,
      fun pending found block member => (known.queue pending found block member).mono grows,
      fun notification member => ?_⟩
    rcases List.mem_append.mp member with old | added
    · exact (known.imports notification old).mono grows
    · exact fresh notification added
  | poll ready imports finals importsRead finalsRead polled =>
    obtain ⟨queue, ran, read⟩ := known.poll ready
    cases polled.symm.trans ran
    have unread := known.imports
    rw [importsRead] at unread
    refine ⟨⟨queue, rfl⟩, fun same found block member => ?_, fun notification member =>
      unread notification (List.mem_append_right _ member)⟩
    cases found
    rcases read block member with fresh | ⟨old, present, kept⟩
    · obtain ⟨notification, among, made⟩ := List.mem_filterMap.mp fresh
      rw [(newBest_eq_some.mp made).2]
      exact unread notification (List.mem_append_left _ among)
    · exact known.queue old present block kept

theorem Reachable.queueKnown (reachable : Reachable guard keystore authorities node) :
    QueueKnown node := by
  induction reachable with
  | start initial =>
    obtain ⟨client, pending, _, made, same⟩ := initial.replica
    obtain ⟨rfl, _⟩ := PendingFinalizeBlockQueue.new_ok made
    refine ⟨⟨[], by rw [same]; rfl⟩, fun queue found block member => ?_,
      fun notification member => ?_⟩
    · rw [same] at found
      cases found
      cases member
    · rw [initial.imports] at member
      cases member
  | step _ _ move ih => exact ih.step move

/-- The node hears of some blocks and the queue reads the news at once. -/
def news (node : Node B C) (ready : Poll B) : Node B C :=
  match PendingFinalizeBlockQueue.poll ⟨node.replica.worker.pendingFinalizeQueue⟩ ready with
  | .error _ => node
  | .ok pending =>
    { node with replica := { node.replica with
        worker := { node.replica.worker with pendingFinalizeQueue := pending.queue } } }

theorem Run.news (run : Run keystore authorities node) (ready : Poll B)
    (importsRead : node.imports = []) (finalsRead : node.finals = [])
    (known : ∀ notification ∈ ready.imports,
      BlockInfo.Known node.replica.worker.client ⟨some notification.hash, notification.number⟩) :
    Run keystore authorities (node.news ready) := by
  unfold Node.news
  split
  · exact run
  · rename_i pending polled
    have told := Reachable.step run trivial (.chain node.replica.worker.client ready.imports
      ready.finals rfl (fun _ _ found => found) known)
    rw [importsRead, finalsRead] at told ⊢
    exact .step told trivial (.poll ready [] [] (by simp) (by simp) polled)

/-- A session whose states pass the check of a guard is a run under the guard. -/
theorem Reachable.session {check : Replica B C → Bool}
    (sound : ∀ replica, check replica = true → guard { node with replica })
    (reachable : Reachable guard keystore authorities node) (fuel : Nat) (calls : List (Call B))
    (passed : Replica.complies check fuel node.replica calls = true) :
    Reachable guard keystore authorities
      { node with replica := node.replica.session fuel calls } := by
  have reached (replica : Replica B C)
      (works : Relation.ReflTransGen (Replica.WorksFrom check) node.replica replica) :
      Reachable guard keystore authorities { node with replica } := by
    induction works with
    | refl => exact reachable
    | tail _ last ih => exact .step ih (sound _ last.1) (.work last.2)
  exact reached _ (Replica.session_works fuel calls passed)

theorem Run.session (run : Run keystore authorities node) (fuel : Nat) (calls : List (Call B)) :
    Run keystore authorities { node with replica := node.replica.session fuel calls } :=
  Reachable.session (fun _ _ => trivial) run fuel calls (Replica.complies_true fuel _ calls)

end Node

instance : KnownBlocks Sample Sample.Client where
  number _ hash := some (Sample.number hash)
  number_inChain _ hash _ := ⟨Sample.number hash, rfl⟩
  number_finalizeBlock _ _ := rfl
  number_insertAux _ _ _ := rfl

namespace Sample

def newNode (count : Nat) (id : Fin 8) : Node Sample Sample.Client :=
  ⟨Sample.replica count id [], [], []⟩

theorem newNode_initial (count : Nat) (id : Fin 8) :
    Node.Initial (keystore id) (authorities count) (newNode count id) where
  replica :=
    ⟨_, _, fun _ => rfl, PendingFinalizeBlockQueue.new_total (B := Sample)
      (⟨[], (0 : BitVec 64)⟩ : Client) (by decide) (by decide) fun _ => ⟨_, rfl⟩, rfl⟩
  imports := rfl
  finals := rfl

theorem newNode_run (count : Nat) (id : Fin 8) :
    Node.Run (keystore id) (authorities count) (newNode count id) :=
  .start (newNode_initial count id)

/-- A node that has heard of block 1 and then handles some inputs, with a bound
on the calls for each of them. -/
def told (count : Nat) (id : Fin 8) (fuel : Nat) (calls : List (Call Sample)) :
    Node Sample Sample.Client :=
  let node := (newNode count id).news ⟨[⟨(1 : BitVec 64), 1, true⟩], []⟩
  { node with replica := node.replica.session fuel calls }

theorem told_run (count : Nat) (id : Fin 8) (fuel : Nat) (calls : List (Call Sample)) :
    Node.Run (keystore id) (authorities count) (told count id fuel calls) := by
  refine Node.Run.session (Node.Run.news (newNode_run count id) _ rfl rfl fun heard member => ?_)
    fuel calls
  cases List.mem_singleton.mp member
  exact ⟨_, rfl, by decide +kernel, rfl⟩

end Sample

end Hotstuff
