import Mathlib.Logic.Relation

/-! The two-chain commit rule over an abstract voting record. A block is
committed once it and a direct child are certified in consecutive views. The
locking rule keeps every later certified block on the same chain. -/

namespace TwoChain

/-- What the votes of a run look like from outside: who voted for which block
in which view, which blocks are certified, and what they build on and carry. -/
structure Record (Voter Block : Type) where
  Voted : Voter → Nat → Block → Prop
  Certified : Nat → Block → Prop
  Parent : Block → Block → Prop
  Carries : Block → Nat → Prop

/-- Certificates share a voter, no one votes twice in a view, and no one votes
for a block that carries less than an earlier one. -/
structure Lawful (record : Record Voter Block) : Prop where
  shared : record.Certified v x → record.Certified w y →
    ∃ voter, record.Voted voter v x ∧ record.Voted voter w y
  single : record.Voted voter v x → record.Voted voter v y → x = y
  locked : record.Voted voter v x → record.Voted voter w y → v < w →
    record.Carries x a → record.Carries y b → a ≤ b

variable {Voter Block : Type} {record : Record Voter Block}

/-- Blocks built on certified blocks down to one that carries no certificate. -/
inductive Grounded (record : Record Voter Block) : Block → Prop where
  | genesis (carried : record.Carries block 0) : Grounded record block
  | extend (parent : record.Parent earlier block) (carried : record.Carries block view)
      (certified : record.Certified view earlier) (rest : Grounded record earlier) :
      Grounded record block

structure Committed (record : Record Voter Block) (view : Nat) (block : Block) where
  child : Block
  positive : 0 < view
  parent : record.Parent block child
  carried : record.Carries child view
  certified : record.Certified view block
  childCertified : record.Certified (view + 1) child

theorem Lawful.certified_unique (lawful : Lawful record) (first : record.Certified view x)
    (second : record.Certified view y) : x = y := by
  obtain ⟨voter, one, two⟩ := lawful.shared first second
  exact lawful.single one two

/-- The locking rule forces a certificate at least as high as the committed
block into every block certified after the committing child. -/
theorem Committed.carried_le (lawful : Lawful record) (commit : Committed record view block)
    (later : view + 1 < other) (certified : record.Certified other x)
    (carried : record.Carries x carriedView) : view ≤ carriedView := by
  obtain ⟨voter, voted, votedLater⟩ := lawful.shared commit.childCertified certified
  exact lawful.locked voted votedLater later commit.carried carried

theorem Committed.near (lawful : Lawful record) (commit : Committed record view block)
    (certified : record.Certified other x) (above : view ≤ other) (close : other ≤ view + 1) :
    Relation.ReflTransGen record.Parent block x := by
  rcases Nat.eq_or_lt_of_le above with same | next
  · subst other
    rw [lawful.certified_unique commit.certified certified]
  · have same : other = view + 1 := by omega
    subst other
    rw [lawful.certified_unique certified commit.childCertified]
    exact .single commit.parent

/-- Every grounded block certified at or above a committed view descends from
the committed block. -/
theorem Committed.descends (lawful : Lawful record) (commit : Committed record view block)
    (grounded : Grounded record x) :
    ∀ {other}, record.Certified other x → view ≤ other →
      Relation.ReflTransGen record.Parent block x := by
  induction grounded with
  | genesis carried =>
    intro other certified above
    rcases Nat.lt_or_ge (view + 1) other with later | close
    · have low := commit.carried_le lawful later certified carried
      have positive := commit.positive
      omega
    · exact commit.near lawful certified above close
  | extend parent carried earlierCertified _ ih =>
    intro other certified above
    rcases Nat.lt_or_ge (view + 1) other with later | close
    · have low := commit.carried_le lawful later certified carried
      exact (ih earlierCertified low).tail parent
    · exact commit.near lawful certified above close

theorem Committed.agree (lawful : Lawful record) (first : Committed record view block)
    (second : Committed record other another) (grounded : Grounded record block)
    (groundedToo : Grounded record another) :
    Relation.ReflTransGen record.Parent block another ∨
      Relation.ReflTransGen record.Parent another block := by
  rcases Nat.le_total view other with below | above
  · exact .inl (first.descends lawful groundedToo second.certified below)
  · exact .inr (second.descends lawful grounded first.certified above)

end TwoChain
