import Mathlib.Logic.Function.Basic
import Hotstuff.Consensus.Message

/-! The node client as the crate uses it, with the proposal store of
`consensus/src/store.rs` and `consensus/src/synchronizer.rs` on top. -/

namespace Hotstuff

inductive BlockStatus where
  | inChain
  | unknown
deriving DecidableEq

/-- The part of the client's chain information the crate reads. -/
structure ChainInfo (B : Type) [BlockT B] where
  finalizedHash : Hash B
  finalizedNumber : Number B

/-- A Substrate client. `aux` is the content of its auxiliary store under
proposal-digest keys; reads return it, a successful write updates one key, a
failed one leaves either value, and finalization does not touch it. SCALE
decoding undoes encoding. -/
class ClientForHotstuff (B : Type) [BlockT B] (C : Type) where
  Encoded : Type
  encode : Proposal B → Encoded
  decode : Encoded → Except String (Proposal B)
  status : C → Hash B → Except String BlockStatus
  info : C → ChainInfo B
  finalizeBlock : C → Hash B → Except String Unit × C
  getAux : C → Hash B → Except String (Option Encoded)
  insertAux : C → Hash B → Encoded → Except String Unit × C
  aux : C → Hash B → Option Encoded
  decode_encode : ∀ proposal, decode (encode proposal) = .ok proposal
  getAux_ok : ∀ client key found, getAux client key = .ok found → found = aux client key
  insertAux_ok : ∀ client key value, (insertAux client key value).1 = .ok () →
    aux (insertAux client key value).2 = Function.update (aux client) key (some value)
  insertAux_error : ∀ client key value,
    aux (insertAux client key value).2 = aux client ∨
      aux (insertAux client key value).2 = Function.update (aux client) key (some value)
  finalizeBlock_aux : ∀ client hash, aux (finalizeBlock client hash).2 = aux client

namespace Synchronizer

variable {B C : Type} [BlockT B] [ClientForHotstuff B C]

def saveProposal (client : C) (proposal : Proposal B) : Except (HotstuffError B) Unit × C :=
  let value := ClientForHotstuff.encode (C := C) proposal
  let (result, written) := ClientForHotstuff.insertAux client proposal.digest value
  (result.mapError .saveProposal, written)

def getProposalParent (client : C) (proposal : Proposal B) :
    Except (HotstuffError B) (Proposal B) :=
  match ClientForHotstuff.getAux client proposal.parentHash with
  | .error reason => .error (.other reason)
  | .ok none => .error .proposalNoParent
  | .ok (some data) => (ClientForHotstuff.decode (C := C) data).mapError .other

def getProposalAncestors (client : C) (proposal : Proposal B) :
    Except (HotstuffError B) (Proposal B × Proposal B) := do
  let parent ← getProposalParent client proposal
  let grandpa ← getProposalParent client parent
  return (parent, grandpa)

/-- A parent that is found is what the store holds under its hash. -/
theorem getProposalParent_ok {client : C} {proposal parent : Proposal B}
    (found : getProposalParent client proposal = .ok parent) :
    ∃ data, ClientForHotstuff.aux client proposal.parentHash = some data ∧
      ClientForHotstuff.decode (C := C) data = .ok parent := by
  unfold getProposalParent at found
  split at found
  · cases found
  · cases found
  · rename_i data read
    refine ⟨data, (ClientForHotstuff.getAux_ok _ _ _ read).symm, ?_⟩
    cases decoded : ClientForHotstuff.decode (C := C) data with
    | error reason => simp [decoded, Except.mapError] at found
    | ok value => simpa [decoded, Except.mapError] using found

theorem getProposalAncestors_ok {client : C} {proposal parent grandpa : Proposal B}
    (found : getProposalAncestors client proposal = .ok (parent, grandpa)) :
    getProposalParent client proposal = .ok parent ∧
      getProposalParent client parent = .ok grandpa := by
  unfold getProposalAncestors at found
  cases first : getProposalParent client proposal with
  | error reason => simp [first, bind, Except.bind] at found
  | ok one =>
    cases second : getProposalParent client one with
    | error reason => simp [first, second, bind, Except.bind] at found
    | ok two =>
      simp only [first, second, bind, Except.bind, pure, Except.pure, Except.ok.injEq,
        Prod.mk.injEq] at found
      obtain ⟨rfl, rfl⟩ := found
      exact ⟨rfl, second⟩

end Synchronizer

end Hotstuff
