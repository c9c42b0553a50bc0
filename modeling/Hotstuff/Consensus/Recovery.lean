import Hotstuff.Consensus.Byzantine
import Hotstuff.Consensus.GivenUp

/-! Leaving a view together. Replicas that wait in one view, as many as a quorum,
can always leave it by their own timers: each sends its timeout, and each gets the
timeouts of the others. What was sent and counted before does not matter. -/

namespace Hotstuff

open ConsensusWorker

variable {B C : Type} [BlockT B]

def Keystore.Signs (keystore : Keystore B) (id : AuthorityId B) : Prop :=
  ∀ digest, ∃ signature, keystore.signWith id digest = .ok (some signature) ∧
    BlockT.verify signature digest id = true

variable [ClientForHotstuff B C]

/-- Who moves in a part of a run, and on which inputs. -/
structure Exchange (B : Type) [BlockT B] where
  members : List (AuthorityId B)
  inputs : Call B → Prop

/-- A move of an exchange. A member starts on one of its inputs, a timer or a message
that was gossiped, or goes on with its call; nobody else moves. -/
inductive Network.Proceeds (network : Network B) (exchange : Exchange B) (system : System B C) :
    System B C → Prop where
  | timer (id : AuthorityId B) (member : id ∈ exchange.members) (honest : network.Honest id)
      (idle : (system id).control = .idle) (due : exchange.inputs .localTimer) :
      Proceeds network exchange system
        (Function.update system id { system id with control := .running .localTimer })
  | receive (id : AuthorityId B) (message : ConsensusMessage B) (call : Call B)
      (member : id ∈ exchange.members) (honest : network.Honest id)
      (idle : (system id).control = .idle) (sent : network.Gossiped system message)
      (called : Replica.callOf message = some call) (wanted : exchange.inputs call) :
      Proceeds network exchange system
        (Function.update system id { system id with control := .running call })
  | resume (id : AuthorityId B) (call : Call B) (member : id ∈ exchange.members)
      (honest : network.Honest id) (running : (system id).control = .running call) :
      Proceeds network exchange system (Function.update system id ((system id).resume call))

abbrev Network.Leads (network : Network B) (exchange : Exchange B) :
    System B C → System B C → Prop :=
  Relation.ReflTransGen (network.Proceeds exchange)

/-- A run of the network, on any messages that faulty authorities can send. -/
abbrev Network.Runs (network : Network B) (system : System B C) : Prop :=
  network.Reachable network.Byzantine (fun _ => True) system

variable {network : Network B} {exchange : Exchange B} {system later : System B C}
  {id : AuthorityId B} {view : ViewNumber}

theorem Network.Proceeds.step {next : System B C}
    (move : network.Proceeds exchange system next) :
    ∃ id replica, network.Honest id ∧ Replica.Step (network.Gossiped system) (system id) replica ∧
      next = Function.update system id replica := by
  cases move with
  | timer id _ honest idle _ => exact ⟨id, _, honest, .timer idle, rfl⟩
  | receive id message call _ honest idle sent called _ =>
    exact ⟨id, _, honest, .receive idle sent called, rfl⟩
  | resume id call _ honest running => exact ⟨id, _, honest, .resume running, rfl⟩

theorem Network.Runs.leads (runs : network.Runs system)
    (leads : network.Leads exchange system later) : network.Runs later := by
  induction leads with
  | refl => exact runs
  | tail _ move ih =>
    obtain ⟨id, replica, honest, step, rfl⟩ := move.step
    exact .step ih honest trivial (step.mono fun _ sent => .inl sent)

theorem Network.Leads.grows (leads : network.Leads exchange system later) :
    network.Grows system later := by
  induction leads with
  | refl => exact fun _ _ _ member => member
  | tail _ move ih =>
    obtain ⟨id, replica, _, step, rfl⟩ := move.step
    intro other honest event member
    exact Network.grows_update step other honest (ih other honest member)

theorem Network.Leads.resume {replica : Replica B C} {call : Call B}
    (member : id ∈ exchange.members) (honest : network.Honest id)
    (running : replica.control = .running call) :
    network.Leads exchange (Function.update system id replica)
      (Function.update system id (replica.resume call)) := by
  have here : Function.update system id replica id = replica := Function.update_self ..
  have move : network.Proceeds exchange (Function.update system id replica) _ :=
    .resume id call member honest (by rw [here]; exact running)
  rw [here, Function.update_idem] at move
  exact .single move

def Replica.Gone (view : ViewNumber) (replica : Replica B C) : Prop :=
  view < replica.worker.state.view ∨ replica.control = .halted

/-- The replica waits in the view, and has acted on the timeouts it has counted. -/
structure Replica.Waits (authorities : AuthorityList B) (id : AuthorityId B) (view : ViewNumber)
    (replica : Replica B C) : Prop where
  idle : replica.control = .idle
  view : replica.worker.state.view = view
  leaving : Leaving authorities id replica.worker

/-- The replica has counted the timeouts of some authorities and is still there,
or it is gone. -/
def Replica.Counts (authorities : AuthorityList B) (id : AuthorityId B) (view : ViewNumber)
    (voters : List (AuthorityId B)) (replica : Replica B C) : Prop :=
  replica.Gone view ∨ (replica.Waits authorities id view ∧
    ∀ voter ∈ voters, voter ∈ timeoutVoters view (verifiedTimeouts replica.worker.log))

/-- A valid timeout of an authority for the view has been gossiped. -/
def Network.Spoken (network : Network B) (view : ViewNumber) (system : System B C)
    (voter : AuthorityId B) : Prop :=
  ∃ timeout, network.Gossiped system (.timeout timeout) ∧ timeout.voter = voter ∧
    timeout.view = view ∧ timeout.verify network.authorities = .ok ()

omit [ClientForHotstuff B C] in
theorem Network.Spoken.mono {voter : AuthorityId B} (grows : network.Grows system later)
    (spoken : network.Spoken view system voter) : network.Spoken view later voter := by
  obtain ⟨timeout, sent, rest⟩ := spoken
  exact ⟨timeout, network.gossiped_persistent _ _ _ grows sent, rest⟩

/-- One more timeout of the view ends it, or is counted and waited upon. -/
theorem Network.Runs.counts (runs : network.Runs system) (honest : network.Honest id)
    {timeout : Timeout B} (running : (system id).control = .running (.timeout timeout))
    (current : (system id).worker.state.view = timeout.view)
    (verified : timeout.verify network.authorities = .ok ())
    (leaving : Leaving network.authorities id (system id).worker) :
    ((system id).resume (.timeout timeout)).Gone timeout.view ∨
    (((system id).resume (.timeout timeout)).Waits network.authorities id timeout.view ∧
      verifiedTimeouts ((system id).resume (.timeout timeout)).worker.log =
        verifiedTimeouts (system id).worker.log ++ [timeout]) := by
  by_cases alive : ((system id).resume (.timeout timeout)).control = .halted
  · exact .inl (.inr alive)
  by_cases left : timeout.view < ((system id).resume (.timeout timeout)).worker.state.view
  · exact .inl (.inl left)
  have own := runs.replica network.byzantine_persistent honest
  have evident := runs.evident network.byzantine_persistent honest
  have reached : (system id).worker.state.view ≤ timeout.view := UInt64.le_of_eq current
  have grown : (system id).worker.state.view ≤
      ((system id).resume (.timeout timeout)).worker.state.view :=
    acts_view_le (Replica.Step.follows (.resume running))
  have calm : (handleTimeout timeout (system id).worker).1 ≠ .error .panic :=
    (controlAfter_calm alive).1
  have checked : (system id).worker.state.verifyTimeout timeout = .ok () := by
    rw [ConsensusState.verifyTimeout, evident.sameAuthorities]
    exact verified
  have control : ((system id).resume (.timeout timeout)).control = .upon _ :=
    (controlAfter_calm alive).2
  rcases (handleTimeout_outcome timeout (system id).worker).counts
    ⟨evident.sameKeystore, evident.sameAuthorities, rfl⟩ calm with
    ⟨refused, _⟩ | ⟨trace, after, written, script, _⟩
  · exact absurd ⟨reached, checked⟩ refused
  change ((system id).resume (.timeout timeout)).worker.log = _ at written
  change ((system id).resume (.timeout timeout)).control =
    .upon (following (handleTimeout timeout (system id).worker).1) at control
  generalize following (handleTimeout timeout (system id).worker).1 = next at control script
  cases script with
  | formedTc _ _ tc accepted moved qc formed move _ ends =>
    have completed : ((system id).worker.state.addTimeout timeout).1 = .ok (some tc) := by
      rw [ConsensusState.addTimeout, evident.sameAuthorities]
      exact formed
    exact absurd (handleTimeout_leaves current checked completed calm) left
  | timeout _ _ accepted qc missed =>
    have recorded : verifiedTimeouts ((system id).resume (.timeout timeout)).worker.log =
        verifiedTimeouts (system id).worker.log ++ [timeout] := by
      rw [written, verifiedTimeouts_append, ← verifiedTimeouts_filter (_ :: accepted)]
      simp [List.filter_cons, Event.counts, qc.counts_nothing, verifiedTimeouts,
        Event.verifiedTimeout?]
    refine .inr ⟨⟨control, ?_, ?_⟩, recorded⟩
    · rw [current] at grown
      exact (UInt64.le_antisymm grown (UInt64.not_lt.mp left)).symm
    · exact leaving.timeout (own.counted (by simp [running])) evident.sameAuthorities verified
        (fun _ => UInt64.le_of_eq current.symm) reached calm grown recorded

variable (exchange) in
theorem Network.Runs.hears {voters : List (AuthorityId B)} {voter : AuthorityId B}
    (runs : network.Runs system) (member : id ∈ exchange.members) (honest : network.Honest id)
    (wanted : ∀ timeout, timeout.voter = voter → timeout.view = view →
      exchange.inputs (.timeout timeout))
    (counts : (system id).Counts network.authorities id view voters)
    (spoken : network.Spoken view system voter) :
    ∃ replica, network.Leads exchange system (Function.update system id replica) ∧
      replica.Counts network.authorities id view (voter :: voters) := by
  rcases counts with gone | ⟨waits, counted⟩
  · refine ⟨system id, ?_, .inl gone⟩
    rw [Function.update_eq_self]
  · obtain ⟨timeout, sent, rfl, rfl, verified⟩ := spoken
    let started : Replica B C := { system id with control := .running (.timeout timeout) }
    have arrives : network.Leads exchange system (Function.update system id started) :=
      .single (.receive id _ _ member honest waits.idle sent rfl (wanted timeout rfl rfl))
    refine ⟨started.resume (.timeout timeout),
      arrives.trans (Network.Leads.resume member honest rfl), ?_⟩
    have here : Function.update system id started id = started := Function.update_self ..
    have next := (runs.leads arrives).counts honest (by rw [here]) (by rw [here]; exact waits.view)
      verified (by rw [here]; exact waits.leaving)
    rw [here] at next
    apply next.imp_right
    intro added
    obtain ⟨waiting, recorded⟩ := added
    refine ⟨waiting, fun other listed => ?_⟩
    rw [recorded, timeoutVoters_concat, if_pos rfl]
    rcases List.mem_cons.mp listed with rfl | old
    · exact Finset.mem_insert_self _ _
    · exact Finset.mem_insert_of_mem (counted other old)

omit [ClientForHotstuff B C] in
theorem TimerOutcome.of_made {worker : ConsensusWorker B C} {timeout : Timeout B}
    {ending : Ending B C} (outcome : TimerOutcome worker ending)
    (made : worker.state.increaseLastVotedView.makeTimeout = .ok timeout) :
    ending = (.ok (some (.timeout timeout)),
      (worker.spending.emit (.timedOut timeout)).emit (.gossip (.timeout timeout) true)) := by
  cases outcome with
  | unsigned reason failed => cases made.symm.trans failed
  | timedOut other same =>
    cases made.symm.trans same
    rfl

omit [ClientForHotstuff B C] in
theorem ConsensusState.makeTimeout_eq {state : ConsensusState B}
    {signature : Option (AuthoritySignature B)} (own : state.localAuthorityId = some id)
    (signed : state.keystore.signWith id
      (⟨state.highQc, state.view, id, none⟩ : Timeout B).digest = .ok signature) :
    state.makeTimeout = .ok ⟨state.highQc, state.view, id, signature⟩ := by
  simp only [makeTimeout, own, signed]

theorem Network.Runs.times_out (runs : network.Runs system) (honest : network.Honest id)
    (signs : (network.keystore id).Signs id) :
    ∃ timeout, (system id).worker.state.increaseLastVotedView.makeTimeout = .ok timeout ∧
      timeout.voter = id ∧ timeout.view = (system id).worker.state.view ∧
      timeout.verify network.authorities = .ok () := by
  have evident := runs.evident network.byzantine_persistent honest
  have own : (system id).worker.state.increaseLastVotedView.localAuthorityId = some id :=
    evident.localAuthorityId.trans (network.own id honest.1 honest.2)
  let unsigned : Timeout B :=
    ⟨(system id).worker.state.highQc, (system id).worker.state.view, id, none⟩
  obtain ⟨signature, signed, valid⟩ := signs unsigned.digest
  refine ⟨{ unsigned with signature := some signature }, ?_, rfl, rfl, ?_⟩
  · rw [← evident.sameKeystore] at signed
    exact ConsensusState.makeTimeout_eq own signed
  · refine Timeout.verify_ok_iff.mpr ⟨⟨honest.1, signature, rfl, valid⟩, ?_⟩
    rcases evident.highQc with default | held
    · exact .inl (QC.eq_default_iff.mpr (by simp [unsigned, default, QC.default]))
    · exact evident.heldQc held

variable (exchange) in
/-- The timer of a waiting replica fires: its timeout is sent, and counted here. -/
theorem Network.Runs.fires (runs : network.Runs system) (member : id ∈ exchange.members)
    (honest : network.Honest id) (due : exchange.inputs .localTimer)
    (signs : (network.keystore id).Signs id)
    (waits : (system id).Waits network.authorities id view) :
    ∃ replica, network.Leads exchange system (Function.update system id replica) ∧
      network.Spoken view (Function.update system id replica) id ∧
      replica.Counts network.authorities id view [id] := by
  obtain ⟨timeout, made, rfl, same, verified⟩ := runs.times_out honest signs
  obtain rfl : timeout.view = view := same.trans waits.view
  let started : Replica B C := { system timeout.voter with control := .running .localTimer }
  let sending : Replica B C := started.resume .localTimer
  have timed : handle .localTimer (system timeout.voter).worker = _ :=
    (handleLocalTimer_outcome (system timeout.voter).worker).of_made made
  have arrives : network.Leads exchange system (Function.update system timeout.voter started) :=
    .single (.timer timeout.voter member honest waits.idle due)
  have leads : network.Leads exchange system (Function.update system timeout.voter sending) :=
    arrives.trans (Network.Leads.resume member honest rfl)
  have control : sending.control = .running (.timeout timeout) := by
    simp [sending, started, Replica.resume, timed, Replica.controlAfter]
  have log : sending.worker.log = (system timeout.voter).worker.log ++ [.resetTimer,
      .localTimer (system timeout.voter).worker.state.view, .timedOut timeout,
      .gossip (.timeout timeout) true] := by
    simp [sending, started, Replica.resume, timed, spending]
  have unmoved : sending.worker.state.view = (system timeout.voter).worker.state.view := by
    simp [sending, started, Replica.resume, timed, spending, ConsensusState.increaseLastVotedView]
  have leaving : Leaving network.authorities timeout.voter sending.worker := by
    apply waits.leaving.of_same
    · simp [log, verifiedTimeouts, Event.verifiedTimeout?]
    · exact UInt64.le_of_eq unmoved.symm
  have here : Function.update system timeout.voter sending timeout.voter = sending :=
    Function.update_self ..
  have spoken : network.Spoken timeout.view (Function.update system timeout.voter sending)
      timeout.voter := by
    refine ⟨timeout, ⟨timeout.voter, true, honest, ?_⟩, rfl, rfl, verified⟩
    rw [here, log]
    simp
  have counting : network.Leads exchange (Function.update system timeout.voter sending)
      (Function.update system timeout.voter (sending.resume (.timeout timeout))) :=
    .resume member honest control
  refine ⟨_, leads.trans counting, spoken.mono counting.grows, ?_⟩
  have next := (runs.leads leads).counts honest (by rw [here]; exact control)
    (by rw [here, unmoved]; exact waits.view) verified (by rw [here]; exact leaving)
  rw [here] at next
  apply next.imp_right
  intro counted
  obtain ⟨waiting, recorded⟩ := counted
  refine ⟨waiting, fun voter listed => ?_⟩
  rw [List.mem_singleton.mp listed, recorded, timeoutVoters_concat, if_pos rfl]
  exact Finset.mem_insert_self _ _

variable (exchange) in
/-- What a replica can count one by one, it can count all of. -/
theorem Network.Runs.counts_all (counts : List (AuthorityId B) → Replica B C → Prop)
    (given : System B C → AuthorityId B → Prop)
    (kept : ∀ system later voter, network.Grows system later → given system voter →
      given later voter)
    {heard senders : List (AuthorityId B)}
    (one : ∀ system heard, ∀ voter ∈ senders, network.Runs system → counts heard (system id) →
      given system voter → ∃ replica, network.Leads exchange system
        (Function.update system id replica) ∧ counts (voter :: heard) replica)
    (runs : network.Runs system) (start : counts heard (system id))
    (spoken : ∀ sender ∈ senders, given system sender) :
    ∃ replica, network.Leads exchange system (Function.update system id replica) ∧
      counts (senders ++ heard) replica := by
  induction senders with
  | nil => exact ⟨system id, by rw [Function.update_eq_self], start⟩
  | cons sender rest ih =>
    obtain ⟨replica, leads, counted⟩ :=
      ih (fun system heard voter listed => one system heard voter (List.mem_cons_of_mem _ listed))
        fun other listed => spoken other (List.mem_cons_of_mem _ listed)
    rw [← Function.update_self id replica system] at counted
    obtain ⟨final, onward, all⟩ := one _ _ sender List.mem_cons_self (runs.leads leads) counted
      (kept _ _ sender leads.grows (spoken sender List.mem_cons_self))
    rw [Function.update_idem] at onward
    exact ⟨final, leads.trans onward, all⟩

omit [ClientForHotstuff B C] in
/-- A quorum that has been counted, with the replica in it, is not waited upon. -/
theorem Replica.Counts.gone {authorities : AuthorityList B} {voters heard : List (AuthorityId B)}
    {replica : Replica B C} (counts : replica.Counts authorities id view heard)
    (quorum : Quorum authorities.ids voters) (included : voters ⊆ heard) (own : id ∈ voters) :
    replica.Gone view := by
  rcases counts with gone | ⟨waits, counted⟩
  · exact gone
  · have large : authorities.length * 2 / 3 <
        (timeoutVoters view (verifiedTimeouts replica.worker.log)).card := by
      have inside : voters.toFinset ⊆ timeoutVoters view (verifiedTimeouts replica.worker.log) :=
        fun voter listed => counted voter (included (List.mem_toFinset.mp listed))
      have size := quorum.large
      rw [← quorum.toFinset_card, AuthorityList.ids, List.length_map] at size
      exact size.trans_le (Finset.card_le_card inside)
    have left := waits.leaving.left view (counted id (included own)) large
    rw [waits.view] at left
    exact absurd left (UInt64.lt_irrefl view)

variable (exchange) in
/-- What each replica of a list can do by itself, all of them can do in turn. -/
theorem Network.Runs.each (ready done : System B C → AuthorityId B → Prop)
    {ids : List (AuthorityId B)}
    (kept : ∀ system later id, network.Grows system later → later id = system id →
      (ready system id → ready later id) ∧ (done system id → done later id))
    (moves : ∀ system id, network.Runs system → id ∈ ids → ready system id →
      ∃ replica, network.Leads exchange system (Function.update system id replica) ∧
        done (Function.update system id replica) id)
    (runs : network.Runs system) (nodup : ids.Nodup) (all : ∀ id ∈ ids, ready system id) :
    ∃ later, network.Leads exchange system later ∧ (∀ id ∈ ids, done later id) ∧
      ∀ id ∉ ids, later id = system id := by
  induction ids generalizing system with
  | nil => exact ⟨system, .refl, fun _ member => (by cases member), fun _ _ => rfl⟩
  | cons first rest ih =>
    obtain ⟨fresh, distinct⟩ := List.nodup_cons.mp nodup
    obtain ⟨replica, leads, achieved⟩ :=
      moves system first runs List.mem_cons_self (all first List.mem_cons_self)
    have others (id : AuthorityId B) (listed : id ∈ rest) :
        ready (Function.update system first replica) id := by
      have different : id ≠ first := fun same => fresh (same ▸ listed)
      exact (kept system _ id leads.grows (Function.update_of_ne different ..)).1
        (all id (List.mem_cons_of_mem _ listed))
    obtain ⟨later, onward, reached, unchanged⟩ :=
      ih (fun system id runs listed => moves system id runs (List.mem_cons_of_mem _ listed))
        (runs.leads leads) distinct others
    refine ⟨later, leads.trans onward, fun id listed => ?_, fun id absent => ?_⟩
    · rcases List.mem_cons.mp listed with rfl | member
      · exact (kept _ later id onward.grows (unchanged id fresh)).2 achieved
      · exact reached id member
    · have different : id ≠ first := fun same => absent (same ▸ List.mem_cons_self)
      rw [unchanged id fun member => absent (List.mem_cons_of_mem _ member),
        Function.update_of_ne different]

/-- The replicas of a list give up a view: their timers fire, and the timeouts that
they have sent for the view arrive. -/
def Exchange.givingUp (view : ViewNumber) (voters : List (AuthorityId B)) : Exchange B where
  members := voters
  inputs
    | .localTimer => True
    | .timeout timeout => timeout.voter ∈ voters ∧ timeout.view = view
    | _ => False

variable {guard : Replica B C → Prop}

/-- A view cannot hold a quorum of replicas for ever. Take any run, with any number
of faulty authorities, messages in any order, any of them lost or late. When a
quorum of honest replicas waits in one view, their timers and the timeouts that
these send are enough to take each of them to a later view, unless it panics. -/
theorem quorums_recover (reachable : network.Reachable network.Byzantine guard system)
    (apart : Set.InjOn (hashOf (B := B)) (network.digested system))
    (able : ∀ id, network.Honest id → (network.keystore id).Signs id)
    {voters : List (AuthorityId B)} (quorum : Quorum network.authorities.ids voters)
    (waiting : ∀ voter ∈ voters, voter ∉ network.faulty ∧ (system voter).control = .idle ∧
      (system voter).worker.state.view = view) :
    ∃ later, network.Leads (.givingUp view voters) system later ∧
      ∀ voter ∈ voters, (later voter).Gone view := by
  have runs : network.Runs system :=
    reachable.mono (fun _ _ present => present) fun _ _ => trivial
  have honest (voter : AuthorityId B) (listed : voter ∈ voters) : network.Honest voter :=
    ⟨quorum.known voter listed, (waiting voter listed).1⟩
  have waits (voter : AuthorityId B) (listed : voter ∈ voters) :
      (system voter).Waits network.authorities voter view := by
    obtain ⟨_, idle, current⟩ := waiting voter listed
    exact ⟨idle, current, reachable.leaving apart (fun _ _ _ member => member)
      (honest voter listed) (by simp [idle])⟩
  -- First every replica of the quorum sends its timeout.
  obtain ⟨middle, speaking, spoken, _⟩ := runs.each (.givingUp view voters)
    (fun now id => (now id).Waits network.authorities id view)
    (fun now id => network.Spoken view now id ∧ (now id).Counts network.authorities id view [id])
    (fun now next id grows same => ⟨fun held => same ▸ held,
      fun held => ⟨held.1.mono grows, same ▸ held.2⟩⟩)
    (fun now id runs listed held => by
      obtain ⟨replica, leads, said, counted⟩ :=
        runs.fires (.givingUp view voters) listed (honest id listed) trivial
          (able id (honest id listed)) held
      exact ⟨replica, leads, said, by rwa [Function.update_self]⟩)
    quorum.nodup waits
  -- Then every one gets the timeouts of all.
  obtain ⟨later, hearing, gone, _⟩ := (runs.leads speaking).each (.givingUp view voters)
    (fun now id => (∀ voter ∈ voters, network.Spoken view now voter) ∧
      (now id).Counts network.authorities id view [id])
    (fun now id => (now id).Gone view)
    (fun now next id grows same =>
      ⟨fun held => ⟨fun voter listed => (held.1 voter listed).mono grows, same ▸ held.2⟩,
        fun held => same ▸ held⟩)
    (fun now id runs listed held => by
      obtain ⟨replica, leads, counted⟩ := runs.counts_all (.givingUp view voters)
        (Replica.Counts network.authorities id view) (network.Spoken view)
        (fun _ _ _ grows said => said.mono grows)
        (fun _ _ sender sends runs counted said =>
          runs.hears (.givingUp view voters) listed (honest id listed)
            (fun timeout same current => ⟨same ▸ sends, current⟩) counted said)
        held.2 held.1
      refine ⟨replica, leads, ?_⟩
      rw [Function.update_self]
      exact counted.gone quorum (fun _ member => List.mem_append_left _ member) listed)
    quorum.nodup fun id listed => ⟨fun voter other => (spoken voter other).1, (spoken id listed).2⟩
  exact ⟨later, speaking.trans hearing, gone⟩

theorem Sample.keystore_signs (id : Fin 8) : (Sample.keystore id).Signs id := by
  intro digest
  exact ⟨Sample.sign id digest, rfl, by simp [BlockT.verify, Sample.sign]⟩

/-- With one of four authorities faulty the others wait in view 4, and can leave it. -/
theorem quorums_recover_four :
    ∃ later, (Sample.network 4 {1}).Leads (.givingUp 4 ([0, 2, 3] : List (Fin 8)))
      Sample.outvoted later ∧ ∀ voter ∈ ([0, 2, 3] : List (Fin 8)), (later voter).Gone 4 := by
  have checked : Sample.outvotedCluster.covers (Sample.network 4 {1}) = true ∧
      hashesDiffer (B := Sample) Sample.outvotedCluster.digested = true ∧
      ∀ voter ∈ ([0, 2, 3] : List (Fin 8)), voter ∉ ({1} : Finset (Fin 8)) ∧
        (Sample.outvoted voter).control = .idle ∧
        (Sample.outvoted voter).worker.state.view = 4 := by
    decide +kernel
  obtain ⟨covered, differ, waiting⟩ := checked
  exact quorums_recover
    (Sample.outvoted_reachable.mono (fun _ _ present => present.1) fun _ holds => holds)
    ((injOn_of_hashesDiffer differ).mono (Cluster.digested_subset covered _))
    (fun id _ => Sample.keystore_signs id) ⟨by decide, by decide, by decide⟩ waiting

end Hotstuff
