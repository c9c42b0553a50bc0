import Hotstuff.Consensus.Pacemaker

/-! The `GossipValidator` of `consensus/src/network.rs`. It drops messages from
before the previous view in three places, each with a test of its own, while the
worker moves the view it compares with. -/

namespace Hotstuff

section Validator

variable {B : Type} [BlockT B]

inductive ValidationResult (H : Type) where
  | processAndKeep (topic : H)
  | discard
deriving DecidableEq

/-- The view a message is filtered by; requests and placeholders have none. -/
def messageView : ConsensusMessage B → ViewNumber
  | .propose proposal => proposal.view
  | .vote vote => vote.view
  | .timeout timeout => timeout.view
  | .tc tc => tc.view
  | _ => 0

/-- The hash of the bytes of `hotstuff/consensus`. -/
def ConsensusMessage.gossipTopic : Hash B :=
  BlockT.hashing (B := B)
    (['h', 'o', 't', 's', 't', 'u', 'f', 'f', '/', 'c', 'o', 'n', 's', 'e', 'n', 's', 'u',
      's'].map fun letter => UInt8.ofNat letter.toNat)

/-- The validator holds the view that the worker has set last, 0 to begin with,
and reads messages with `decode`. -/
structure GossipValidator (B : Type) [BlockT B] where
  decode : List UInt8 → Option (ConsensusMessage B)
  view : ViewNumber

namespace GossipValidator

def setView (validator : GossipValidator B) (newView : ViewNumber) : GossipValidator B :=
  { validator with view := newView }

def getView (validator : GossipValidator B) : ViewNumber := validator.view

def validate (validator : GossipValidator B) (data : List UInt8) : ValidationResult (Hash B) :=
  match validator.decode data with
  | some message =>
    let currentView := validator.getView
    if 1 < currentView ∧ messageView message < currentView - 1 then .discard
    else .processAndKeep ConsensusMessage.gossipTopic
  | none => .discard

/-- Whether a kept message is thrown away; the topic is not looked at. -/
def messageExpired (validator : GossipValidator B) (_topic : Hash B) (data : List UInt8) : Bool :=
  match validator.decode data with
  | some message =>
    let currentView := validator.getView
    if 1 ≤ currentView ∧ messageView message < currentView - 1 then true else false
  | none => true

/-- Whether a message is sent on to a peer. -/
def messageAllowed (validator : GossipValidator B) (topic : Hash B) (data : List UInt8) : Bool :=
  if topic ≠ ConsensusMessage.gossipTopic then false
  else
    match validator.decode data with
    | some message =>
      let currentView := validator.getView
      if 1 ≤ currentView ∧ messageView message < currentView - 1 then false else true
    | none => false

/-- A message passes all three tests, at entry, while it is kept and at egress. -/
structure Keeps (validator : GossipValidator B) (data : List UInt8) : Prop where
  validate : validator.validate data = .processAndKeep ConsensusMessage.gossipTopic
  unexpired : ∀ topic, validator.messageExpired topic data = false
  allowed : validator.messageAllowed ConsensusMessage.gossipTopic data = true

structure Drops (validator : GossipValidator B) (data : List UInt8) : Prop where
  discarded : validator.validate data = .discard
  expired : ∀ topic, validator.messageExpired topic data = true
  withheld : validator.messageAllowed ConsensusMessage.gossipTopic data = false

/-- The message is from two views back or more. -/
def Stale (validator : GossipValidator B) (message : ConsensusMessage B) : Prop :=
  (messageView message).toNat + 1 < validator.view.toNat

variable {validator : GossipValidator B} {data : List UInt8}

/-- Where the subtraction does not wrap, it takes the view one back. -/
private theorem lt_sub_one_iff {view current : ViewNumber} (positive : 1 ≤ current) :
    view < current - 1 ↔ view.toNat + 1 < current.toNat := by
  rw [UInt64.le_iff_toNat_le] at positive
  have back : (current - 1).toNat = current.toNat - 1 :=
    UInt64.toNat_sub_of_le current 1 (UInt64.le_iff_toNat_le.mpr positive)
  rw [UInt64.lt_iff_toNat_lt, back]
  omega

theorem entry_test_iff {message : ConsensusMessage B} :
    (1 < validator.getView ∧ messageView message < validator.getView - 1) ↔
      validator.Stale message := by
  constructor
  · intro passed
    exact (lt_sub_one_iff (UInt64.le_of_lt passed.1)).mp passed.2
  · intro stale
    have above : 1 < validator.getView := by
      unfold Stale at stale
      rw [UInt64.lt_iff_toNat_lt]
      exact Nat.lt_of_le_of_lt (Nat.le_add_left 1 _) stale
    exact ⟨above, (lt_sub_one_iff (UInt64.le_of_lt above)).mpr stale⟩

/-- The test of the other two; at view 1 nothing is below its bound. -/
theorem later_test_iff {message : ConsensusMessage B} :
    (1 ≤ validator.getView ∧ messageView message < validator.getView - 1) ↔
      validator.Stale message := by
  constructor
  · intro passed
    exact (lt_sub_one_iff passed.1).mp passed.2
  · intro stale
    obtain ⟨above, below⟩ := entry_test_iff.mpr stale
    exact ⟨UInt64.le_of_lt above, below⟩

theorem keeps_of_fresh {message : ConsensusMessage B}
    (decoded : validator.decode data = some message) (fresh : ¬ validator.Stale message) :
    validator.Keeps data where
  validate := by simp only [GossipValidator.validate, decoded, entry_test_iff, fresh, ↓reduceIte]
  unexpired _ := by simp only [messageExpired, decoded, later_test_iff, fresh, ↓reduceIte]
  allowed := by
    simp only [messageAllowed, decoded, later_test_iff, fresh, ne_eq, not_true_eq_false,
      ↓reduceIte]

theorem drops_of_stale {message : ConsensusMessage B}
    (decoded : validator.decode data = some message) (stale : validator.Stale message) :
    validator.Drops data where
  discarded := by simp only [GossipValidator.validate, decoded, entry_test_iff, stale, ↓reduceIte]
  expired _ := by simp only [messageExpired, decoded, later_test_iff, stale, ↓reduceIte]
  withheld := by
    simp only [messageAllowed, decoded, later_test_iff, stale, ne_eq, not_true_eq_false,
      ↓reduceIte]

theorem drops_of_undecoded (undecoded : validator.decode data = none) : validator.Drops data where
  discarded := by simp only [GossipValidator.validate, undecoded]
  expired _ := by simp only [messageExpired, undecoded]
  withheld := by simp only [messageAllowed, undecoded, ne_eq, not_true_eq_false, ↓reduceIte]

/-- The three tests agree, at every view and on every byte string. -/
theorem keeps_or_drops (validator : GossipValidator B) (data : List UInt8) :
    validator.Keeps data ∨ validator.Drops data := by
  cases decoded : validator.decode data with
  | none => exact .inr (drops_of_undecoded decoded)
  | some message =>
    by_cases stale : validator.Stale message
    · exact .inr (drops_of_stale decoded stale)
    · exact .inl (keeps_of_fresh decoded stale)

theorem Drops.not_keeps (drops : validator.Drops data) : ¬ validator.Keeps data := by
  intro keeps
  have both := drops.discarded.symm.trans keeps.validate
  cases both

/-- What is dropped at one view is dropped at every higher one. -/
theorem Drops.later {view : ViewNumber} (drops : validator.Drops data)
    (above : validator.view ≤ view) : (validator.setView view).Drops data := by
  cases decoded : validator.decode data with
  | none => exact drops_of_undecoded decoded
  | some message =>
    have stale : validator.Stale message := by
      by_contra fresh
      exact drops.not_keeps (keeps_of_fresh decoded fresh)
    have higher : (validator.setView view).Stale message :=
      Nat.lt_of_lt_of_le stale (UInt64.le_iff_toNat_le.mp above)
    exact drops_of_stale decoded higher

end GossipValidator

/-- The views the validator has been set to so far, from 0 on. -/
def validatorViews (log : List (Event B)) : List ViewNumber :=
  0 :: log.filterMap fun event =>
    match event with
    | .advanced _ target => some target
    | _ => none

theorem validatorViews_concat (log : List (Event B)) (event : Event B) :
    validatorViews (log ++ [event]) =
      match event with
      | .advanced _ target => validatorViews log ++ [target]
      | _ => validatorViews log := by
  cases event <;> simp [validatorViews]

/-- The views have only grown, up to the last. -/
def ClimbsTo (views : List ViewNumber) (view : ViewNumber) : Prop :=
  views.getLast? = some view ∧ views.Pairwise (· ≤ ·) ∧ ∀ earlier ∈ views, earlier ≤ view

theorem ClimbsTo.concat {views : List ViewNumber} {view target : ViewNumber}
    (climbs : ClimbsTo views view) (upward : view ≤ target) :
    ClimbsTo (views ++ [target]) target := by
  obtain ⟨_, increasing, below⟩ := climbs
  have under : ∀ earlier ∈ views, earlier ≤ target := fun earlier member =>
    UInt64.le_trans (below earlier member) upward
  refine ⟨List.getLast?_concat, ?_, ?_⟩
  · rw [List.pairwise_append]
    refine ⟨increasing, List.pairwise_singleton _ _, fun earlier member later single => ?_⟩
    rw [List.mem_singleton.mp single]
    exact under earlier member
  · intro earlier member
    rcases List.mem_append.mp member with old | new
    · exact under earlier old
    · rw [List.mem_singleton.mp new]
      exact UInt64.le_refl _

/-- Where no recorded change goes back, the validator has climbed to the view. -/
theorem validatorViews_climb {log : List (Event B)} {view : ViewNumber}
    (replayed : replayView log = some view)
    (upward : ∀ source target, Event.advanced source target ∈ log → source ≤ target) :
    ClimbsTo (validatorViews log) view := by
  refine replayView_rec (motive := fun log view => ClimbsTo (validatorViews log) view)
    ?_ ?_ ?_ replayed upward
  · simp [ClimbsTo, validatorViews]
  · intro log source target upward climbs
    rw [validatorViews_concat]
    exact climbs.concat upward
  · intro log view event quiet climbs
    rw [validatorViews_concat]
    cases event with
    | advanced source target => exact absurd rfl (quiet source target)
    | _ => exact climbs

/-- A vote, timeout or TC that the worker does not reject as stale. -/
def ConsensusState.Current (state : ConsensusState B) : ConsensusMessage B → Prop
  | .vote vote => state.verifyVote vote ≠ .error .expiredVote
  | .timeout timeout => ¬ timeout.view < state.view
  | .tc tc => state.verifyTc tc ≠ .error .invalidTC
  | _ => False

theorem ConsensusState.Current.view_le {state : ConsensusState B} {message : ConsensusMessage B}
    (current : state.Current message) : state.view ≤ messageView message := by
  cases message with
  | vote vote =>
    apply UInt64.not_lt.mp
    intro late
    exact current (by simp only [verifyVote, show vote.view < state.view from late, ↓reduceIte])
  | timeout timeout => exact UInt64.not_lt.mp current
  | tc tc =>
    apply UInt64.not_lt.mp
    intro late
    exact current (by simp only [verifyTc, show tc.view < state.view from late, ↓reduceIte])
  | propose | syncRequest | phantom => exact current.elim

end Validator

variable {B C : Type} [BlockT B] [ClientForHotstuff B C] {keystore : Keystore B}
  {authorities : AuthorityList B}

/-- In every run the validator has been at ever higher views and is at the view
of the worker. Its three tests agree on every message at every view, what it
dropped at one of its views it drops at all later ones, and at none of them does
it drop what the worker would not reject as stale. -/
theorem gossip_filter_agrees (decode : List UInt8 → Option (ConsensusMessage B))
    {replica : Replica B C} (run : Replica.Run keystore authorities replica) :
    (validatorViews replica.worker.log).getLast? = some replica.worker.network ∧
    replica.worker.network = replica.worker.state.view ∧
    (∀ view data, (GossipValidator.mk decode view).Keeps data ∨
      (GossipValidator.mk decode view).Drops data) ∧
    (validatorViews replica.worker.log).Pairwise (fun earlier later => earlier ≤ later ∧
      ∀ data, (GossipValidator.mk decode earlier).Drops data →
        (GossipValidator.mk decode later).Drops data) ∧
    ∀ view ∈ validatorViews replica.worker.log, ∀ data message, decode data = some message →
      replica.worker.state.Current message → (GossipValidator.mk decode view).Keeps data := by
  obtain ⟨network, replayed⟩ := Replica.Run.paced run
  have upward (source target : ViewNumber)
      (member : Event.advanced source target ∈ replica.worker.log) : source ≤ target := by
    rcases Replica.Run.single_changes run source target member with same | following
    · rw [same]
      exact UInt64.le_refl _
    · have above := ViewNumber.next?_eq_some.mp following
      rw [UInt64.le_iff_toNat_le]
      omega
  obtain ⟨last, increasing, below⟩ := validatorViews_climb replayed upward
  refine ⟨last.trans (congrArg some network.symm), network, ?_, ?_, ?_⟩
  · intro view data
    exact GossipValidator.keeps_or_drops _ data
  · apply increasing.imp
    intro earlier later above
    exact ⟨above, fun data drops => drops.later above⟩
  · intro view member data message decoded current
    apply GossipValidator.keeps_of_fresh decoded
    intro stale
    have older := UInt64.le_iff_toNat_le.mp (below view member)
    have fresh := UInt64.le_iff_toNat_le.mp current.view_le
    have behind : (messageView message).toNat + 1 < view.toNat := stale
    omega

/-- Three TCs take a replica to view 3, where a vote of view 3 is kept, as it was
at the views before. -/
theorem gossip_filter_agrees_third_view :
    let replica := (Sample.replica 4 0 []).session 9
      [.tc (Sample.tc 0 [1, 2, 3]), .tc (Sample.tc 1 [1, 2, 3]), .tc (Sample.tc 2 [1, 2, 3])]
    validatorViews replica.worker.log = [0, 1, 2, 3] ∧
    ∀ view ∈ validatorViews replica.worker.log, (GossipValidator.mk
      (fun _ => some (.vote (Sample.vote (7 : BitVec 64) 3 2))) view).Keeps [] := by
  intro replica
  refine ⟨by decide +kernel, fun view member => ?_⟩
  have run : Replica.Run (Sample.keystore 0) (Sample.authorities 4) replica :=
    (Sample.replica_run 4 0 []).session 9 _
  apply (gossip_filter_agrees _ run).2.2.2.2 view member [] _ rfl
  have accepted : replica.worker.state.verifyVote (Sample.vote (7 : BitVec 64) 3 2) = .ok () := by
    decide +kernel
  intro expired
  rw [accepted] at expired
  cases expired

end Hotstuff
