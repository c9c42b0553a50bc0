import Hotstuff.Consensus.Sample
import Hotstuff.Consensus.Replica

/-! A node on the sample block type: a client that stores proposals in a list,
and a keystore with one key that always signs. -/

namespace Hotstuff

/-- The blocks with small hashes are in the chain, and the low half of a block hash
is the number of the block. -/
structure Sample.Client where
  stored : List (Hash Sample × Proposal Sample)
  finalized : Hash Sample

def Sample.number (hash : Hash Sample) : Number Sample := BitVec.setWidth 32 hash

private theorem lookup_insert (stored : List (Hash Sample × Proposal Sample))
    (key : Hash Sample) (value : Proposal Sample) :
    (fun other => ((key, value) :: stored).lookup other) =
      Function.update (fun other => stored.lookup other) key (some value) := by
  funext other
  by_cases same : other = key
  · subst other
    simp
  · rw [Function.update_of_ne same, List.lookup_cons, beq_false_of_ne same]

instance : ClientForHotstuff Sample Sample.Client where
  Encoded := Proposal Sample
  encode := id
  decode := .ok
  status _ (hash : BitVec 64) := .ok (if hash < 64 then .inChain else .unknown)
  info client := ⟨client.finalized, Sample.number client.finalized⟩
  finalizeBlock client hash := (.ok (), { client with finalized := hash })
  getAux client key := .ok (client.stored.lookup key)
  insertAux client key value := (.ok (), { client with stored := (key, value) :: client.stored })
  aux client key := client.stored.lookup key
  decode_encode _ := rfl
  getAux_ok _ _ _ read := (Except.ok.inj read).symm
  insertAux_ok client key value _ := lookup_insert client.stored key value
  insertAux_error client key value := .inr (lookup_insert client.stored key value)
  finalizeBlock_aux _ _ := rfl

namespace Sample

def keystore (id : Fin 8) : Keystore Sample where
  hasKeys key := key = id
  signWith key digest := .ok (some (Sample.sign key digest))

/-- A freshly started replica of `count` authorities with the key `id`. -/
def replica (count : Nat) (id : Fin 8) (queue : List (BlockInfo Sample)) :
    Replica Sample Sample.Client where
  worker := ConsensusWorker.new (.new (keystore id) (authorities count)) ⟨[], (0 : BitVec 64)⟩
    (some queue)
  control := .idle

theorem replica_initial (count : Nat) (id : Fin 8) (queue : List (BlockInfo Sample)) :
    Replica.Initial (keystore id) (authorities count) (replica count id queue) where
  worker := ⟨_, _, fun _ => rfl, rfl⟩
  control := rfl

theorem replica_run (count : Nat) (id : Fin 8) (queue : List (BlockInfo Sample)) :
    Replica.Run (keystore id) (authorities count) (replica count id queue) :=
  .start (replica_initial count id queue)

/-- One authority on its own, with one block to finalize. It forms every
certificate itself; its first timer leads to two proposals, the second one to a
third proposal, which finalizes the block of the first. -/
def solo : Replica Sample Sample.Client :=
  (replica 1 0 [⟨some (1 : BitVec 64), 1⟩]).session 30 [.localTimer, .localTimer]

theorem solo_run : Replica.Run (keystore 0) (authorities 1) solo :=
  (replica_run 1 0 _).session 30 [.localTimer, .localTimer]

/-- Replica 0 of four. A TC takes it to view 1, and the timeouts of the other
three take it to view 2. -/
def timedOut : Replica Sample Sample.Client :=
  (replica 4 0 []).session 9
    [.tc (tc 0 [1, 2, 3]), .timeout (timeout QC.default 1 1), .timeout (timeout QC.default 1 2),
      .timeout (timeout QC.default 1 3)]

theorem timedOut_run : Replica.Run (keystore 0) (authorities 4) timedOut :=
  (replica_run 4 0 _).session 9 _

end Sample

end Hotstuff
