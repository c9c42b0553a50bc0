import Hotstuff.Pallet.Runtime

/-! A light client that follows the logs of the pallet holds the authorities
the pallet stores. -/

namespace Hotstuff

variable {T : Type} [Config T]

/-- What a follower makes of one digest item. A log of the engine that does not
decode leaves it without a list. -/
def followLog (authorities : List (Config.AuthorityId T)) :
    DigestItem → Option (List (Config.AuthorityId T))
  | .consensus engine data =>
    if engine = hotstuffEngineId then
      (Config.decodeLog data).map fun log =>
        match log with
        | .authoritiesChange new => new
        | .onDisabled _ => authorities
    else some authorities
  | _ => some authorities

def replayLogs (authorities : List (Config.AuthorityId T)) (logs : List DigestItem) :
    Option (List (Config.AuthorityId T)) :=
  logs.foldlM followLog authorities

theorem followLog_change (authorities new : List (Config.AuthorityId T)) :
    followLog authorities
      (.consensus hotstuffEngineId (Config.encodeLog (.authoritiesChange new))) = some new := by
  simp only [followLog, ↓reduceIte, Config.decodeLog_encodeLog, Option.map_some]

theorem followLog_disabled (authorities : List (Config.AuthorityId T)) (index : UInt64) :
    followLog authorities
      (.consensus hotstuffEngineId (Config.encodeLog (.onDisabled (A := Config.AuthorityId T)
        index))) = some authorities := by
  simp only [followLog, ↓reduceIte, Config.decodeLog_encodeLog, Option.map_some]

theorem followLog_foreign (authorities : List (Config.AuthorityId T)) {item : DigestItem}
    (foreign : ∀ data, item ≠ .consensus hotstuffEngineId data) :
    followLog authorities item = some authorities := by
  cases item with
  | consensus engine data =>
    have other : engine ≠ hotstuffEngineId := by
      intro same
      rw [same] at foreign
      exact foreign data rfl
    simp only [followLog, other, ↓reduceIte]
  | _ => rfl

/-- Pre-runtime items say nothing about the authorities. -/
theorem replayLogs_preRuntime (authorities : List (Config.AuthorityId T))
    (digests : List (ConsensusEngineId × List UInt8)) :
    replayLogs authorities (digests.map fun entry => .preRuntime entry.1 entry.2) =
      some authorities := by
  induction digests with
  | nil => rfl
  | cons entry rest ih =>
    rw [List.map_cons, replayLogs, List.foldlM_cons]
    exact ih

namespace Pallet

/-- From one state to another, the deposited logs account for the change of the
authorities, and the list is not emptied. -/
structure Follows (before after : Pallet T) : Prop where
  replayed : ∃ added, after.logs = before.logs ++ added ∧
    replayLogs before.authorities added = some after.authorities
  remains : before.authorities ≠ [] → after.authorities ≠ []

theorem Follows.refl (pallet : Pallet T) : Follows pallet pallet where
  replayed := ⟨[], (List.append_nil _).symm, rfl⟩
  remains present := present

theorem Follows.trans {first second third : Pallet T} (one : Follows first second)
    (two : Follows second third) : Follows first third where
  replayed := by
    obtain ⟨added, logs, replayed⟩ := one.replayed
    obtain ⟨more, logsToo, replayedToo⟩ := two.replayed
    refine ⟨added ++ more, by rw [logsToo, logs, List.append_assoc], ?_⟩
    rw [replayLogs, List.foldlM_append]
    rw [replayLogs] at replayed
    rw [replayed]
    exact replayedToo
  remains present := two.remains (one.remains present)

/-- A deposited log of which a follower makes the stored list. -/
theorem Follows.of_deposit {before after : Pallet T} {item : DigestItem}
    (logs : after.logs = before.logs ++ [item])
    (followed : followLog before.authorities item = some after.authorities)
    (remains : before.authorities ≠ [] → after.authorities ≠ []) : Follows before after where
  replayed := by
    refine ⟨[item], logs, ?_⟩
    rw [replayLogs, List.foldlM_cons, followed]
    rfl
  remains := remains

theorem Follows.of_same {before after : Pallet T} (logs : after.logs = before.logs)
    (stored : after.stored = before.stored) : Follows before after where
  replayed := ⟨[], by rw [logs, List.append_nil], by simp only [authorities, stored]; rfl⟩
  remains present := by
    simp only [authorities, stored] at present ⊢
    exact present

theorem depositLog_logs (pallet : Pallet T) (item : DigestItem) :
    (pallet.depositLog item).logs = pallet.logs ++ [item] := by
  simp only [logs, depositLog, List.append_assoc]

theorem changeAuthorities_follows (pallet : Pallet T) (new : BoundedVec T) :
    Follows pallet (pallet.changeAuthorities new) := by
  unfold changeAuthorities
  split
  · exact .refl pallet
  · rename_i nonempty
    apply Follows.of_deposit
    · exact depositLog_logs _ _
    · exact followLog_change _ _
    · intro _ emptied
      exact nonempty (List.isEmpty_iff.mpr emptied)

theorem onNewSession_follows (pallet : Pallet T) (changed : Bool)
    (validators queued : List (Config.AccountId T × Config.AuthorityId T)) :
    Follows pallet (pallet.onNewSession changed validators queued) := by
  unfold onNewSession
  split
  · dsimp only
    split
    · exact changeAuthorities_follows pallet _
    · exact .refl pallet
  · exact .refl pallet

/-- A block that gets past `on_initialize` has changed the slot at most. -/
theorem onInitialize_storage {pallet next : Pallet T} {isDisabled : UInt32 → Bool}
    (ran : pallet.onInitialize isDisabled = .ok next) :
    next.logs = pallet.logs ∧ next.stored = pallet.stored := by
  unfold onInitialize at ran
  split at ran
  · cases ran
    exact ⟨rfl, rfl⟩
  · rename_i newSlot _
    cases asserted : pallet.assertSlot newSlot with
    | error panic => simp [asserted, bind, Except.bind] at ran
    | ok _ =>
      simp only [asserted, bind, Except.bind] at ran
      split at ran
      · cases ran
        exact ⟨rfl, rfl⟩
      · split at ran
        · cases ran
        · split at ran
          · cases ran
          · cases ran
            exact ⟨rfl, rfl⟩

theorem Step.follows {pallet next : Pallet T} (step : Step pallet next) : Follows pallet next := by
  cases step with
  | newSession changed validators queued =>
    exact onNewSession_follows pallet changed validators queued
  | disabled index =>
    apply Follows.of_deposit
    · exact depositLog_logs _ _
    · exact followLog_disabled _ _
    · exact fun present => present
  | block digests =>
    refine ⟨⟨_, rfl, ?_⟩, fun present => present⟩
    exact replayLogs_preRuntime pallet.authorities digests
  | slot isDisabled ran =>
    obtain ⟨logs, stored⟩ := onInitialize_storage ran
    exact .of_same logs stored
  | deposit item foreign =>
    apply Follows.of_deposit
    · exact depositLog_logs _ _
    · exact followLog_foreign _ foreign
    · exact fun present => present

theorem follows_of_steps {start pallet : Pallet T}
    (steps : Relation.ReflTransGen Step start pallet) : Follows start pallet := by
  induction steps with
  | refl => exact .refl start
  | tail _ step ih => exact ih.trans step.follows

theorem initializeAuthorities_logs {pallet next : Pallet T}
    {configured : List (Config.AuthorityId T)}
    (ran : pallet.initializeAuthorities configured = .ok next) : next.logs = pallet.logs := by
  unfold initializeAuthorities at ran
  split at ran
  · cases ran
    rfl
  · split at ran
    · cases ran
    · split at ran
      · cases ran
        rfl
      · cases ran

/-- Genesis deposits nothing. -/
theorem Genesis.logs {pallet : Pallet T} (genesis : Genesis pallet) : pallet.logs = [] := by
  induction genesis with
  | empty => rfl
  | build _ ran ih => exact (initializeAuthorities_logs ran).trans ih
  | session _ ran ih => exact (initializeAuthorities_logs ran).trans ih

end Pallet

/-- In every run from genesis, the logs of the engine replayed over the genesis
list give the stored list, which is within the bound and not emptied by anything
that follows. -/
theorem authority_logs_replay {start pallet : Pallet T} (genesis : start.Genesis)
    (run : Relation.ReflTransGen Pallet.Step start pallet) :
    replayLogs start.authorities pallet.logs = some pallet.authorities ∧
    pallet.authorities.length ≤ (Config.maxAuthorities T).toNat ∧
    ∀ later, Relation.ReflTransGen Pallet.Step pallet later →
      pallet.authorities ≠ [] → later.authorities ≠ [] := by
  refine ⟨?_, pallet.authorities_length_le, ?_⟩
  · obtain ⟨added, logs, replayed⟩ := (Pallet.follows_of_steps run).replayed
    rw [genesis.logs, List.nil_append] at logs
    rw [logs]
    exact replayed
  · intro later steps
    exact (Pallet.follows_of_steps steps).remains

/-- Two authorities at genesis. -/
def SampleRuntime.genesis : Pallet SampleRuntime :=
  { (Pallet.empty : Pallet SampleRuntime) with
    stored := some ⟨SampleRuntime.keys [0, 1], by decide⟩ }

theorem SampleRuntime.genesis_built : SampleRuntime.genesis.Genesis := by
  have ran : Pallet.empty.initializeAuthorities (SampleRuntime.keys [0, 1]) =
      .ok SampleRuntime.genesis := rfl
  exact .build .empty ran

/-- A session of more authorities than fit, one of them disabled, and a session
without any. -/
def SampleRuntime.afterSessions : Pallet SampleRuntime :=
  ((SampleRuntime.genesis.onNewSession true (SampleRuntime.validators [2, 3, 4, 5]) []).onDisabled
    1).onNewSession true [] []

theorem authority_logs_replay_truncated :
    replayLogs SampleRuntime.genesis.authorities SampleRuntime.afterSessions.logs =
      some SampleRuntime.afterSessions.authorities ∧
    SampleRuntime.afterSessions.authorities = SampleRuntime.keys [2, 3, 4] := by
  have run : Relation.ReflTransGen Pallet.Step SampleRuntime.genesis
      SampleRuntime.afterSessions :=
    ((Relation.ReflTransGen.single (.newSession true _ [])).tail (.disabled 1)).tail
      (.newSession true [] [])
  exact ⟨(authority_logs_replay SampleRuntime.genesis_built run).1, by decide⟩

end Hotstuff
