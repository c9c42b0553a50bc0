import Mathlib.Data.List.Nodup
import Mathlib.Logic.Function.Basic
import Hotstuff.Consensus.Message

/-! `consensus/src/aggregator.rs`: votes and timeouts are collected per view
until a quorum completes a certificate. The hash maps are total functions
whose absent entries are the default maker, as `or_default` makes them. -/

namespace Hotstuff

/-- What `QCMaker` and `TCMaker` share: a weight counter beside the entries
collected so far, in arrival order and one for each voter. -/
structure Maker (B : Type) [BlockT B] (α : Type) where
  weight : Nat
  votes : List (AuthorityId B × α)
  counted : weight = votes.length
  distinct : (votes.map Prod.fst).Nodup

abbrev QCMaker (B : Type) [BlockT B] := Maker B (AuthoritySignature B)

abbrev TCMaker (B : Type) [BlockT B] := Maker B (AuthoritySignature B × ViewNumber)

variable {B : Type} [BlockT B] {α : Type}

def Maker.new : Maker B α := ⟨0, [], rfl, List.nodup_nil⟩

def Maker.grow (maker : Maker B α) (voter : AuthorityId B) (value : α)
    (fresh : voter ∉ maker.votes.map Prod.fst) : Maker B α where
  weight := maker.weight + 1
  votes := maker.votes ++ [(voter, value)]
  counted := by simp [maker.counted]
  distinct := by
    rw [List.map_append]
    exact List.Nodup.append maker.distinct (List.nodup_singleton voter) (by simpa using fresh)

/-- The shared body of both `append` methods: a known voter is ignored, a
missing signature is an error, and a quorum returns every entry so far. -/
def Maker.append (maker : Maker B α) (voter : AuthorityId B) (entry : Option α)
    (authorities : AuthorityList B) :
    Except (HotstuffError B) (Option (List (AuthorityId B × α))) × Maker B α :=
  if seen : voter ∈ maker.votes.map Prod.fst then (.ok none, maker)
  else
    match entry with
    | none => (.error .nullSignature, maker)
    | some value =>
      let grown := maker.grow voter value seen
      if grown.weight < authorities.length * 2 / 3 + 1 then (.ok none, grown)
      else (.ok (some grown.votes), grown)

def QCMaker.append (maker : QCMaker B) (vote : Vote B) (authorities : AuthorityList B) :
    Except (HotstuffError B) (Option (QC B)) × QCMaker B :=
  let (result, grown) := Maker.append maker vote.voter vote.signature authorities
  (result.map (Option.map fun votes => ⟨vote.proposalHash, vote.view, votes⟩), grown)

/-- `TCMaker::append` lists the timeout's own view beside each signature. -/
def TCMaker.append (maker : TCMaker B) (timeout : Timeout B) (authorities : AuthorityList B) :
    Except (HotstuffError B) (Option (TC B)) × TCMaker B :=
  let entry := timeout.signature.map fun signature => (signature, timeout.view)
  let (result, grown) := Maker.append maker timeout.voter entry authorities
  (result.map (Option.map fun votes => ⟨timeout.view, votes⟩), grown)

/-- One `append` adds at most the entry it is given, and only for a new voter. -/
theorem Maker.append_votes (maker : Maker B α) (voter : AuthorityId B) (entry : Option α)
    (authorities : AuthorityList B) :
    (maker.append voter entry authorities).2.votes =
      if voter ∈ maker.votes.map Prod.fst then maker.votes
      else maker.votes ++ (entry.map fun value => (voter, value)).toList := by
  unfold Maker.append
  by_cases seen : voter ∈ maker.votes.map Prod.fst
  · rw [dif_pos seen, if_pos seen]
  · rw [dif_neg seen, if_neg seen]
    cases entry with
    | none => simp
    | some value =>
      dsimp only
      split <;> rfl

theorem Maker.append_some {maker : Maker B α} {entries : List (AuthorityId B × α)}
    (returned : (maker.append voter entry authorities).1 = .ok (some entries)) :
    entries = (maker.append voter entry authorities).2.votes ∧
      authorities.length * 2 / 3 < entries.length := by
  unfold Maker.append at returned ⊢
  by_cases seen : voter ∈ maker.votes.map Prod.fst
  · simp [seen] at returned
  · rw [dif_neg seen] at returned ⊢
    cases entry with
    | none => simp at returned
    | some value =>
      have weighed := (maker.grow voter value seen).counted
      dsimp only at returned ⊢
      split at returned
      · simp at returned
      · rename_i enough
        rw [if_neg enough]
        simp only [Except.ok.injEq, Option.some.injEq] at returned
        subst returned
        exact ⟨rfl, by omega⟩

structure Aggregator (B : Type) [BlockT B] where
  votesAggregator : ViewNumber → Hash B → QCMaker B
  timeoutsAggregators : ViewNumber → TCMaker B

def Aggregator.new : Aggregator B := ⟨fun _ _ => Maker.new, fun _ => Maker.new⟩

def Aggregator.addVote (aggregator : Aggregator B) (vote : Vote B)
    (authorities : AuthorityList B) :
    Except (HotstuffError B) (Option (QC B)) × Aggregator B :=
  let makers := aggregator.votesAggregator vote.view
  let (result, grown) := QCMaker.append (makers vote.digest) vote authorities
  (result, { aggregator with
    votesAggregator := Function.update aggregator.votesAggregator vote.view
      (Function.update makers vote.digest grown) })

def Aggregator.addTimeout (aggregator : Aggregator B) (timeout : Timeout B)
    (authorities : AuthorityList B) :
    Except (HotstuffError B) (Option (TC B)) × Aggregator B :=
  let maker := aggregator.timeoutsAggregators timeout.view
  let (result, grown) := TCMaker.append maker timeout authorities
  (result, { aggregator with
    timeoutsAggregators := Function.update aggregator.timeoutsAggregators timeout.view grown })

namespace Aggregator

variable {aggregator : Aggregator B} {authorities : AuthorityList B}

/-- An entry of a vote collection was there before or is the vote just added. -/
theorem mem_addVote {vote : Vote B} {view : ViewNumber} {digest : Hash B}
    {entry : AuthorityId B × AuthoritySignature B}
    (member : entry ∈
      ((aggregator.addVote vote authorities).2.votesAggregator view digest).votes) :
    entry ∈ (aggregator.votesAggregator view digest).votes ∨
      (view = vote.view ∧ digest = vote.digest ∧ entry.1 = vote.voter ∧
        vote.signature = some entry.2) := by
  simp only [addVote, QCMaker.append, Function.update_apply] at member
  split at member
  · rename_i sameView
    subst sameView
    simp only [Function.update_apply] at member
    split at member
    · rename_i sameDigest
      subst sameDigest
      rw [Maker.append_votes] at member
      split at member
      · exact .inl member
      · rcases List.mem_append.mp member with old | fresh
        · exact .inl old
        · obtain ⟨value, signed, rfl⟩ := by simpa using fresh
          exact .inr ⟨rfl, rfl, rfl, signed⟩
    · exact .inl member
  · exact .inl member

theorem mem_addTimeout {timeout : Timeout B} {view : ViewNumber}
    {entry : AuthorityId B × AuthoritySignature B × ViewNumber}
    (member : entry ∈
      ((aggregator.addTimeout timeout authorities).2.timeoutsAggregators view).votes) :
    entry ∈ (aggregator.timeoutsAggregators view).votes ∨
      (view = timeout.view ∧ entry.1 = timeout.voter ∧ timeout.signature = some entry.2.1) := by
  simp only [addTimeout, TCMaker.append, Function.update_apply] at member
  split at member
  · rename_i sameView
    subst sameView
    rw [Maker.append_votes] at member
    split at member
    · exact .inl member
    · rcases List.mem_append.mp member with old | fresh
      · exact .inl old
      · obtain ⟨signature, signed, rfl⟩ := by simpa using fresh
        exact .inr ⟨rfl, rfl, signed⟩
  · exact .inl member

theorem map_map_ok_some_iff {ε α β : Type} {result : Except ε (Option α)} {change : α → β}
    {value : β} : result.map (Option.map change) = .ok (some value) ↔
      ∃ found, result = .ok (some found) ∧ change found = value := by
  rcases result with reason | _ | found
  · simp [Except.map]
  · simp [Except.map]
  · simp [Except.map]

/-- A list that holds the entries of some items lists their voters. -/
theorem voters_of_entries {α β : Type} {entries : List (AuthorityId B × α)} {items : List β}
    {entry : β → Option (AuthorityId B × α)} {voter : β → AuthorityId B}
    (own : ∀ item found, entry item = some found → found.1 = voter item)
    (same : entries.map some = items.map entry) : entries.map Prod.fst = items.map voter := by
  induction entries generalizing items with
  | nil => cases items with
    | nil => rfl
    | cons item rest => simp at same
  | cons first entries ih => cases items with
    | nil => simp at same
    | cons item rest =>
      simp only [List.map_cons, List.cons.injEq] at same ⊢
      exact ⟨own item first same.1.symm, ih same.2⟩

/-- A returned QC lists every vote collected under the digest of the last one. -/
theorem addVote_some {vote : Vote B} {qc : QC B}
    (returned : (aggregator.addVote vote authorities).1 = .ok (some qc)) :
    qc.proposalHash = vote.proposalHash ∧ qc.view = vote.view ∧
      qc.votes =
        ((aggregator.addVote vote authorities).2.votesAggregator vote.view vote.digest).votes ∧
      authorities.length * 2 / 3 < qc.votes.length := by
  obtain ⟨votes, result, rfl⟩ := map_map_ok_some_iff.mp returned
  obtain ⟨same, large⟩ := Maker.append_some result
  refine ⟨rfl, rfl, ?_, large⟩
  simpa only [addVote, QCMaker.append, Function.update_self] using same

theorem addTimeout_some {timeout : Timeout B} {tc : TC B}
    (returned : (aggregator.addTimeout timeout authorities).1 = .ok (some tc)) :
    tc.view = timeout.view ∧
      tc.votes =
        ((aggregator.addTimeout timeout authorities).2.timeoutsAggregators timeout.view).votes ∧
      authorities.length * 2 / 3 < tc.votes.length := by
  obtain ⟨votes, result, rfl⟩ := map_map_ok_some_iff.mp returned
  obtain ⟨same, large⟩ := Maker.append_some result
  refine ⟨rfl, ?_, large⟩
  simpa only [addTimeout, TCMaker.append, Function.update_self] using same

end Aggregator

end Hotstuff
