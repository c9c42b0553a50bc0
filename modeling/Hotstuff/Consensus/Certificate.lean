import Hotstuff.Lib.Quorum
import Hotstuff.Consensus.Sample

/-! What the certificate checks accept, and where they fall short of a quorum
of authorities. -/

namespace Hotstuff

variable {B : Type} [BlockT B]

@[simp] theorem AuthorityList.ids_length (authorities : AuthorityList B) :
    authorities.ids.length = authorities.length := by
  simp [AuthorityList.ids]

theorem grantVotes_ok_iff {used ids : List (AuthorityId B)} {grant total : Nat} :
    grantVotes used grant ids = .ok total ↔
      ids.Nodup ∧ (∀ id ∈ ids, id ∉ used) ∧ total = grant + ids.length := by
  induction ids generalizing used grant with
  | nil => simp [grantVotes, eq_comm]
  | cons id rest ih =>
    by_cases reused : id ∈ used
    · simp [grantVotes, reused]
    · simp only [grantVotes, reused, ↓reduceIte, ih, List.nodup_cons, List.mem_cons,
        List.length_cons]
      constructor
      · rintro ⟨distinct, fresh, same⟩
        refine ⟨⟨fun member => fresh id member (.inl rfl), distinct⟩, ?_, by omega⟩
        rintro other (rfl | member)
        · exact reused
        · exact fun present => fresh other member (.inr present)
      · rintro ⟨⟨absent, distinct⟩, fresh, same⟩
        refine ⟨distinct, ?_, by omega⟩
        rintro other member (rfl | present)
        · exact absent member
        · exact fresh other (.inr member) present

theorem verifySignatures_ok_iff {votes : List (AuthorityId B × AuthoritySignature B × Hash B)} :
    verifySignatures votes = .ok () ↔
      ∀ vote ∈ votes, BlockT.verify vote.2.1 vote.2.2 vote.1 = true := by
  induction votes with
  | nil => simp [verifySignatures]
  | cons vote rest ih =>
    obtain ⟨voter, signature, digest⟩ := vote
    by_cases valid : BlockT.verify signature digest voter = true
    · simp [verifySignatures, valid, ih]
    · simp [verifySignatures, valid]

/-- The certificate check accepts distinct voters above two thirds with valid
signatures; it never compares a voter with the authority list. -/
theorem verifyCertificate_ok_iff {authorities : AuthorityList B}
    {votes : List (AuthorityId B × AuthoritySignature B × Hash B)} :
    verifyCertificate authorities votes = .ok () ↔
      (votes.map Prod.fst).Nodup ∧ authorities.length * 2 / 3 < votes.length ∧
        ∀ vote ∈ votes, BlockT.verify vote.2.1 vote.2.2 vote.1 = true := by
  unfold verifyCertificate
  cases counted : grantVotes [] 0 (votes.map Prod.fst) with
  | error failure =>
    have repeated : ¬ (votes.map Prod.fst).Nodup := by
      intro distinct
      have accepted : grantVotes [] 0 (votes.map Prod.fst) = .ok (votes.map Prod.fst).length :=
        grantVotes_ok_iff.mpr ⟨distinct, by simp, by simp⟩
      rw [counted] at accepted
      cases accepted
    simp [bind, Except.bind, repeated]
  | ok total =>
    obtain ⟨distinct, _, same⟩ := grantVotes_ok_iff.mp counted
    have total_eq : total = votes.length := by simpa using same
    subst total_eq
    simp only [bind, Except.bind]
    by_cases few : votes.length ≤ authorities.length * 2 / 3
    · simp [few, Nat.not_lt.mpr few]
    · simp [few, distinct, Nat.lt_of_not_le few, verifySignatures_ok_iff]

theorem QC.verify_ok_iff {qc : QC B} {authorities : AuthorityList B} :
    qc.verify authorities = .ok () ↔
      (qc.votes.map Prod.fst).Nodup ∧ authorities.length * 2 / 3 < qc.votes.length ∧
        ∀ vote ∈ qc.votes, BlockT.verify vote.2 qc.digest vote.1 = true := by
  simp only [QC.verify, verifyCertificate_ok_iff, List.map_map, List.length_map,
    List.forall_mem_map, Function.comp_def]

theorem TC.verify_ok_iff {tc : TC B} {authorities : AuthorityList B} :
    tc.verify authorities = .ok () ↔
      (tc.votes.map Prod.fst).Nodup ∧ authorities.length * 2 / 3 < tc.votes.length ∧
        ∀ vote ∈ tc.votes,
          BlockT.verify vote.2.1 (hashOf (timeoutPreimage tc.view vote.2.2)) vote.1 = true := by
  simp only [TC.verify, verifyCertificate_ok_iff, List.map_map, List.length_map,
    List.forall_mem_map, Function.comp_def]

theorem verifySigned_ok_iff {authorities : AuthorityList B} {id : AuthorityId B}
    {signature : Option (AuthoritySignature B)} {digest : Hash B} :
    verifySigned authorities id signature digest = .ok () ↔
      id ∈ authorities.ids ∧
        ∃ signed, signature = some signed ∧ BlockT.verify signed digest id = true := by
  unfold verifySigned
  by_cases known : id ∈ authorities.ids
  · cases signature with
    | none => simp [known]
    | some signed =>
      by_cases valid : BlockT.verify signed digest id = true
      · simp [known, valid]
      · simp [known, valid]
  · simp [known]

theorem QC.eq_default_iff {qc : QC B} :
    qc.eq QC.default = true ↔ qc.proposalHash = BlockT.defaultHash ∧ qc.view = 0 := by
  simp only [QC.eq, Bool.and_eq_true, decide_eq_true_eq]
  rfl

theorem QC.verifyUnlessDefault_ok_iff {qc : QC B} {authorities : AuthorityList B} :
    qc.verifyUnlessDefault authorities = .ok () ↔
      qc.eq QC.default = true ∨ qc.verify authorities = .ok () := by
  unfold QC.verifyUnlessDefault
  by_cases exempt : qc.eq QC.default = true
  · simp [exempt]
  · simp [exempt]

private theorem seq_ok_iff {ε : Type} {first second : Except ε Unit} :
    (do first; second) = .ok () ↔ first = .ok () ∧ second = .ok () := by
  cases first with
  | error failure => simp [bind, Except.bind]
  | ok value => simp [bind, Except.bind]

theorem Vote.verify_ok_iff {vote : Vote B} {authorities : AuthorityList B} :
    vote.verify authorities = .ok () ↔
      vote.voter ∈ authorities.ids ∧ ∃ signed, vote.signature = some signed ∧
        BlockT.verify signed vote.digest vote.voter = true :=
  verifySigned_ok_iff

theorem Timeout.verify_ok_iff {timeout : Timeout B} {authorities : AuthorityList B} :
    timeout.verify authorities = .ok () ↔
      (timeout.voter ∈ authorities.ids ∧ ∃ signed, timeout.signature = some signed ∧
        BlockT.verify signed timeout.digest timeout.voter = true) ∧
      (timeout.highQc.eq QC.default = true ∨ timeout.highQc.verify authorities = .ok ()) := by
  unfold Timeout.verify
  rw [seq_ok_iff, verifySigned_ok_iff, QC.verifyUnlessDefault_ok_iff]

theorem Proposal.verify_ok_iff {proposal : Proposal B} {authorities : AuthorityList B} :
    proposal.verify authorities = .ok () ↔
      (proposal.author ∈ authorities.ids ∧ ∃ signed, proposal.signature = some signed ∧
        BlockT.verify signed proposal.digest proposal.author = true) ∧
      (proposal.qc.eq QC.default = true ∨ proposal.qc.verify authorities = .ok ()) := by
  unfold Proposal.verify
  rw [seq_ok_iff, verifySigned_ok_iff, QC.verifyUnlessDefault_ok_iff]

/-- A QC signed by a quorum of the authorities. -/
def QC.Sound (authorities : AuthorityList B) (qc : QC B) : Prop :=
  Quorum authorities.ids (qc.votes.map Prod.fst) ∧
    ∀ vote ∈ qc.votes, BlockT.verify vote.2 qc.digest vote.1 = true

/-- A TC signed by a quorum of the authorities, each on its listed view. -/
def TC.Sound (authorities : AuthorityList B) (tc : TC B) : Prop :=
  Quorum authorities.ids (tc.votes.map Prod.fst) ∧
    ∀ vote ∈ tc.votes,
      BlockT.verify vote.2.1 (hashOf (timeoutPreimage tc.view vote.2.2)) vote.1 = true

/-- Enough distinct voters with valid signatures, one of whom is no authority. -/
def QC.SignedByOutsider (authorities : AuthorityList B) (qc : QC B) : Prop :=
  (qc.votes.map Prod.fst).Nodup ∧ authorities.length * 2 / 3 < qc.votes.length ∧
    (∀ vote ∈ qc.votes, BlockT.verify vote.2 qc.digest vote.1 = true) ∧
    ∃ vote ∈ qc.votes, vote.1 ∉ authorities.ids

def TC.SignedByOutsider (authorities : AuthorityList B) (tc : TC B) : Prop :=
  (tc.votes.map Prod.fst).Nodup ∧ authorities.length * 2 / 3 < tc.votes.length ∧
    (∀ vote ∈ tc.votes,
      BlockT.verify vote.2.1 (hashOf (timeoutPreimage tc.view vote.2.2)) vote.1 = true) ∧
    ∃ vote ∈ tc.votes, vote.1 ∉ authorities.ids

theorem quorum_votes_iff {authorities : AuthorityList B} {votes : List (AuthorityId B × α)} :
    Quorum authorities.ids (votes.map Prod.fst) ↔
      (votes.map Prod.fst).Nodup ∧ authorities.length * 2 / 3 < votes.length ∧
        ∀ vote ∈ votes, vote.1 ∈ authorities.ids := by
  constructor
  · intro quorum
    refine ⟨quorum.nodup, by simpa using quorum.large, fun vote member => ?_⟩
    exact quorum.known _ (List.mem_map_of_mem member)
  · rintro ⟨distinct, many, members⟩
    refine ⟨distinct, ?_, by simpa using many⟩
    intro voter present
    obtain ⟨vote, member, rfl⟩ := List.mem_map.mp present
    exact members vote member

theorem QC.sound_iff {qc : QC B} {authorities : AuthorityList B} :
    qc.Sound authorities ↔
      qc.verify authorities = .ok () ∧ ∀ vote ∈ qc.votes, vote.1 ∈ authorities.ids := by
  rw [QC.verify_ok_iff, QC.Sound, quorum_votes_iff]
  tauto

theorem TC.sound_iff {tc : TC B} {authorities : AuthorityList B} :
    tc.Sound authorities ↔
      tc.verify authorities = .ok () ∧ ∀ vote ∈ tc.votes, vote.1 ∈ authorities.ids := by
  rw [TC.verify_ok_iff, TC.Sound, quorum_votes_iff]
  tauto

/-- Both certificate checks decide exactly the quorums of authorities on every
certificate but those that an outsider completes. -/
theorem verify_decides_sound_iff (authorities : AuthorityList B) :
    (∀ qc : QC B, (qc.verify authorities = .ok () ↔ qc.Sound authorities) ↔
      ¬ qc.SignedByOutsider authorities) ∧
    (∀ tc : TC B, (tc.verify authorities = .ok () ↔ tc.Sound authorities) ↔
      ¬ tc.SignedByOutsider authorities) := by
  constructor
  · intro qc
    simp only [QC.sound_iff, QC.SignedByOutsider, QC.verify_ok_iff]
    grind
  · intro tc
    simp only [TC.sound_iff, TC.SignedByOutsider, TC.verify_ok_iff]
    grind

/-- With the single authority `0`, a QC and a TC signed by key `1` alone pass. -/
theorem verify_accepts_outsider :
    ¬ (∀ qc : QC Sample, qc.verify (Sample.authorities 1) = .ok () ↔
      qc.Sound (Sample.authorities 1)) ∧
    ¬ (∀ tc : TC Sample, tc.verify (Sample.authorities 1) = .ok () ↔
      tc.Sound (Sample.authorities 1)) := by
  constructor
  · intro law
    let digest : Hash Sample := hashOf (votePreimage (B := Sample) (7 : BitVec 64) 3)
    let qc : QC Sample := ⟨(7 : BitVec 64), 3, [((1 : Fin 8), Sample.sign 1 digest)]⟩
    have sound := (law qc).mp (QC.verify_ok_iff.mpr (by decide +kernel))
    have known := sound.1.known (1 : Fin 8) (by decide)
    exact absurd known (by decide)
  · intro law
    let tc : TC Sample := ⟨3, [((1 : Fin 8), Sample.sign 1 (hashOf (timeoutPreimage 3 2)), 2)]⟩
    have sound := (law tc).mp (TC.verify_ok_iff.mpr (by decide +kernel))
    have known := sound.1.known (1 : Fin 8) (by decide)
    exact absurd known (by decide)

end Hotstuff
