import Hotstuff.Lib.Backlog
import Hotstuff.Consensus.SampleNode

/-! `PendingFinalizeBlockQueue` of `consensus/src/import.rs`: how it is made at
startup, and the polls of the network task that keep it. -/

namespace Hotstuff

variable {B C : Type} [BlockT B]

/-- `number + 1` under overflow checks; `none` stands for the overflow panic. -/
def Number.next? (number : Number B) : Option (Number B) :=
  if number.toNat + 1 < 2 ^ (8 * BlockT.numberBytes B) then some (number + 1) else none

theorem Number.next?_eq_some {number following : Number B} :
    Number.next? number = some following ↔ following.toNat = number.toNat + 1 := by
  unfold Number.next?
  split
  · rename_i small
    have one : BitVec.toNat (1 : Number B) = 1 :=
      (BitVec.toNat_ofNat 1 _).trans (Nat.mod_eq_of_lt (by omega))
    have value : (number + 1).toNat = number.toNat + 1 := by
      rw [BitVec.toNat_add, one]
      exact Nat.mod_eq_of_lt small
    constructor
    · intro same
      cases same
      exact value
    · intro same
      exact congrArg some (BitVec.eq_of_toNat_eq (value.trans same.symm))
  · rename_i large
    have bound := following.isLt
    exact iff_of_false (fun same => by cases same) fun same => by omega

/-- What `PendingFinalizeBlockQueue::new` reads of the chain beyond
`ClientForHotstuff`. -/
class HeaderBackend (B : Type) [BlockT B] (C : Type) where
  bestNumber : C → Number B
  blockHashFromId : C → Number B → Except String (Option (Hash B))

/-- A block imported by the node. -/
structure ImportNotification (B : Type) [BlockT B] where
  hash : Hash B
  number : Number B
  isNewBest : Bool

/-- The queue without its two streams, which are arguments of `poll`. A
poisoned lock is `none`. -/
structure PendingFinalizeBlockQueue (B : Type) [BlockT B] where
  inner : Option (List (BlockInfo B))

/-- What the two streams have ready when they are polled; of a finality
notification only the number is read. -/
structure Poll (B : Type) [BlockT B] where
  imports : List (ImportNotification B)
  finals : List (Number B)

namespace PendingFinalizeBlockQueue

/-- The loop of `new` over the block numbers up to the best one. -/
def load [HeaderBackend B C] (client : C) (number : Number B)
    (queue : List (Option (Hash B) × Number B)) :
    Except (Fault B) (List (Option (Hash B) × Number B)) :=
  if number ≤ HeaderBackend.bestNumber client then
    match HeaderBackend.blockHashFromId client number with
    | .error reason => .error (.error (.clientError reason))
    | .ok hash =>
      match next : Number.next? number with
      | none => .error .panic
      | some following =>
        have _above := Number.next?_eq_some.mp next
        load client following (queue ++ [(hash, number)])
  else .ok queue
termination_by 2 ^ (8 * BlockT.numberBytes B) - number.toNat
decreasing_by
  have := following.isLt
  omega

def new [ClientForHotstuff B C] [HeaderBackend B C] (client : C) :
    Except (Fault B) (PendingFinalizeBlockQueue B) :=
  match Number.next? (ClientForHotstuff.info (B := B) client).finalizedNumber with
  | none => .error .panic
  | some number =>
    match load client number [] with
    | .error fault => .error fault
    | .ok _ => .ok ⟨some []⟩

def queue (pending : PendingFinalizeBlockQueue B) : Option (List (BlockInfo B)) := pending.inner

def push (pending : PendingFinalizeBlockQueue B) (notification : ImportNotification B) :
    PendingFinalizeBlockQueue B :=
  if notification.isNewBest then
    ⟨pending.inner.map fun queue => queue ++ [⟨some notification.hash, notification.number⟩]⟩
  else pending

/-- The pop loop; `none` is the panic of `b.hash.unwrap()`. -/
def popFinalized (finalized : Number B) : List (BlockInfo B) → Option (List (BlockInfo B))
  | [] => some []
  | elem :: rest =>
    if finalized < elem.number then some (elem :: rest)
    else
      match elem.hash with
      | none => none
      | some _ => popFinalized finalized rest

def pop (pending : PendingFinalizeBlockQueue B) (finalized : Number B) :
    Except (Fault B) (PendingFinalizeBlockQueue B) :=
  match pending.inner with
  | none => .ok pending
  | some queue =>
    match popFinalized finalized queue with
    | none => .error .panic
    | some rest => .ok ⟨some rest⟩

/-- All import notifications are handled before the first finality one. -/
def poll (pending : PendingFinalizeBlockQueue B) (ready : Poll B) :
    Except (Fault B) (PendingFinalizeBlockQueue B) :=
  ready.finals.foldlM pop (ready.imports.foldl push pending)

def polls (pending : PendingFinalizeBlockQueue B) (rounds : List (Poll B)) :
    Except (Fault B) (PendingFinalizeBlockQueue B) :=
  rounds.foldlM poll pending

/-- The numbers behind one number up to another one, with their hashes. -/
def blocksBetween (hash : Number B → Hash B) (first last : Nat) : List (BlockInfo B) :=
  (List.range' first (last + 1 - first)).map fun number =>
    ⟨some (hash (BitVec.ofNat _ number)), BitVec.ofNat _ number⟩

theorem blocksBetween_length {hash : Number B → Hash B} {first last : Nat} :
    (blocksBetween hash first last).length = last + 1 - first := by
  simp [blocksBetween]

theorem blocksBetween_empty {hash : Number B → Hash B} {first last : Nat} (past : last < first) :
    blocksBetween hash first last = [] := by
  simp [blocksBetween, Nat.sub_eq_zero_of_le past]

theorem blocksBetween_cons {hash : Number B → Hash B} {number : Number B} {last : Nat}
    (reached : number.toNat ≤ last) :
    blocksBetween hash number.toNat last =
      ⟨some (hash number), number⟩ :: blocksBetween hash (number.toNat + 1) last := by
  have length : last + 1 - number.toNat = (last + 1 - (number.toNat + 1)) + 1 := by omega
  simp [blocksBetween, length, List.range'_succ]

/-- The loop collects the right blocks, in order. -/
theorem load_ok [HeaderBackend B C] {client : C} {number : Number B} {hash : Number B → Hash B}
    {queue loaded : List (Option (Hash B) × Number B)}
    (canonical : ∀ other, number ≤ other → other ≤ HeaderBackend.bestNumber client →
      HeaderBackend.blockHashFromId client other = .ok (some (hash other)))
    (ran : load client number queue = .ok loaded) :
    loaded = queue ++ (blocksBetween hash number.toNat
      (HeaderBackend.bestNumber client : Number B).toNat).map fun block =>
        (block.hash, block.number) := by
  fun_induction load client number queue with
  | case1 number queue reached reason failed => cases ran
  | case2 number queue reached found read next => cases ran
  | case3 number queue reached found read following next above ih =>
    have first := canonical number (BitVec.le_refl _) reached
    cases read.symm.trans first
    rw [blocksBetween_cons (BitVec.le_def.mp reached), ← above]
    refine (ih (fun other later => canonical other ?_) ran).trans (by simp)
    rw [BitVec.le_def] at later ⊢
    omega
  | case4 number queue passed =>
    cases ran
    rw [BitVec.le_def] at passed
    rw [blocksBetween_empty (Nat.not_le.mp passed)]
    simp

/-- The loop ends with an error of the client, or by an overflow behind the
greatest number there is. -/
theorem load_total [HeaderBackend B C] (client : C) (number : Number B)
    (queue : List (Option (Hash B) × Number B))
    (room : (HeaderBackend.bestNumber client : Number B).toNat + 1 <
      2 ^ (8 * BlockT.numberBytes B))
    (answers : ∀ other : Number B, ∃ found,
      HeaderBackend.blockHashFromId client other = .ok found) :
    ∃ loaded, load client number queue = .ok loaded := by
  fun_induction load client number queue with
  | case1 number queue reached reason failed =>
    obtain ⟨found, read⟩ := answers number
    cases failed.symm.trans read
  | case2 number queue reached found read full =>
    rw [BitVec.le_def] at reached
    have fits : number.toNat + 1 < 2 ^ (8 * BlockT.numberBytes B) := by omega
    simp [Number.next?, fits] at full
  | case3 number queue reached found read following next above ih => exact ih
  | case4 number queue passed => exact ⟨queue, rfl⟩

variable [ClientForHotstuff B C] [HeaderBackend B C]

/-- Whatever the loop has collected, the queue starts empty. -/
theorem new_ok {client : C} {pending : PendingFinalizeBlockQueue B}
    (made : new client = .ok pending) :
    pending = ⟨some []⟩ ∧ ∃ number loaded,
      Number.next? (ClientForHotstuff.info (B := B) client).finalizedNumber = some number ∧
      load client number [] = .ok loaded := by
  unfold new at made
  split at made
  · cases made
  · rename_i number next
    split at made
    · cases made
    · rename_i loaded ran
      cases made
      exact ⟨rfl, number, loaded, next, ran⟩

theorem new_total (client : C)
    (ordered : (ClientForHotstuff.info (B := B) client).finalizedNumber ≤
      HeaderBackend.bestNumber client)
    (room : (HeaderBackend.bestNumber client : Number B).toNat + 1 <
      2 ^ (8 * BlockT.numberBytes B))
    (answers : ∀ other : Number B, ∃ found,
      HeaderBackend.blockHashFromId client other = .ok found) :
    new client = .ok (⟨some []⟩ : PendingFinalizeBlockQueue B) := by
  rw [BitVec.le_def] at ordered
  have fits : (ClientForHotstuff.info (B := B) client).finalizedNumber.toNat + 1 <
      2 ^ (8 * BlockT.numberBytes B) := by omega
  obtain ⟨loaded, ran⟩ := load_total client
    ((ClientForHotstuff.info (B := B) client).finalizedNumber + 1) [] room answers
  unfold new Number.next?
  simp only [fits, ↓reduceIte, ran]

end PendingFinalizeBlockQueue

/-- `PendingFinalizeBlockQueue::new` collects the blocks behind the finalized
one up to the best one with their canonical hashes, and then returns an empty
queue: it is the right queue, and the worker starts with the right block,
exactly when there is nothing to collect. -/
theorem startup_queue_iff [ClientForHotstuff B C] [HeaderBackend B C] {client : C}
    {pending : PendingFinalizeBlockQueue B} {hash : Number B → Hash B} {finalized best : Number B}
    (finalizedIs : (ClientForHotstuff.info (B := B) client).finalizedNumber = finalized)
    (bestIs : HeaderBackend.bestNumber client = best) (ordered : finalized ≤ best)
    (canonical : ∀ number, finalized < number → number ≤ best →
      HeaderBackend.blockHashFromId client number = .ok (some (hash number)))
    (made : PendingFinalizeBlockQueue.new client = .ok pending) (state : ConsensusState B) :
    let blocks := PendingFinalizeBlockQueue.blocksBetween hash (finalized.toNat + 1) best.toNat
    (∃ first, Number.next? finalized = some first ∧
      PendingFinalizeBlockQueue.load client first [] =
        .ok (blocks.map fun block => (block.hash, block.number))) ∧
    ((pending.queue = some blocks ∧ (finalized < best →
        (ConsensusWorker.new state client pending.queue).processingBlock =
          some ⟨some (hash (finalized + 1)), finalized + 1⟩)) ↔ finalized = best) := by
  intro blocks
  obtain ⟨rfl, first, loaded, next, ran⟩ := PendingFinalizeBlockQueue.new_ok made
  subst finalizedIs bestIs
  have above := Number.next?_eq_some.mp next
  have known : ∀ number, first ≤ number → number ≤ HeaderBackend.bestNumber client →
      HeaderBackend.blockHashFromId client number = .ok (some (hash number)) := by
    intro number later
    refine canonical number ?_
    rw [BitVec.lt_def]
    rw [BitVec.le_def] at later
    omega
  have right := PendingFinalizeBlockQueue.load_ok known ran
  rw [above] at right
  refine ⟨⟨first, next, ran.trans (congrArg Except.ok right)⟩, ?_⟩
  rw [BitVec.le_def] at ordered
  constructor
  · rintro ⟨empty, _⟩
    have none : blocks = [] := (Option.some.inj empty).symm
    have length : blocks.length = 0 := by rw [none]; rfl
    rw [PendingFinalizeBlockQueue.blocksBetween_length] at length
    exact BitVec.eq_of_toNat_eq (by omega)
  · intro same
    refine ⟨congrArg some ?_, fun less => ?_⟩
    · refine (PendingFinalizeBlockQueue.blocksBetween_empty ?_).symm
      rw [same]
      exact Nat.lt_succ_self _
    · rw [same] at less
      exact absurd less (BitVec.lt_irrefl _)

/-- A chain of three blocks, the hash of each being its number. -/
instance : HeaderBackend Sample Sample.Client where
  bestNumber _ := 2
  blockHashFromId _ number := .ok (some (BitVec.setWidth 64 number))

/-- With the best block finalized the queue is right. -/
theorem startup_queue_fresh :
    PendingFinalizeBlockQueue.new (⟨[], (2 : BitVec 64)⟩ : Sample.Client) =
        .ok (⟨some []⟩ : PendingFinalizeBlockQueue Sample) ∧
      some [] = some (PendingFinalizeBlockQueue.blocksBetween (B := Sample)
        (BitVec.setWidth 64) 3 2) := by
  have made := PendingFinalizeBlockQueue.new_total (B := Sample)
    (⟨[], (2 : BitVec 64)⟩ : Sample.Client) (by decide) (by decide) fun _ => ⟨_, rfl⟩
  exact ⟨made, ((startup_queue_iff rfl rfl (by decide) (fun _ _ _ => rfl) made
    (.new (Sample.keystore 0) (Sample.authorities 1))).2.mpr (by decide)).1⟩

/-- Nothing is finalized and two blocks are imported: the loop collects both,
and the worker starts without them. -/
theorem startup_queue_lost :
    let client : Sample.Client := ⟨[], (0 : BitVec 64)⟩
    let state : ConsensusState Sample := .new (Sample.keystore 0) (Sample.authorities 1)
    PendingFinalizeBlockQueue.load (B := Sample) client 1 [] =
        .ok [(some (1 : BitVec 64), 1), (some (2 : BitVec 64), 2)] ∧
      ∃ pending : PendingFinalizeBlockQueue Sample,
        PendingFinalizeBlockQueue.new client = .ok pending ∧ pending.queue = some [] ∧
          (ConsensusWorker.new state client pending.queue).processingBlock = none := by
  intro client state
  have made := PendingFinalizeBlockQueue.new_total (B := Sample) client (by decide) (by decide)
    fun _ => ⟨_, rfl⟩
  obtain ⟨loaded, ran⟩ := PendingFinalizeBlockQueue.load_total (B := Sample) client 1 [] (by decide)
    fun _ => ⟨_, rfl⟩
  have right := PendingFinalizeBlockQueue.load_ok (fun _ _ _ => rfl) ran
  exact ⟨ran.trans (congrArg Except.ok right), _, made, rfl, rfl⟩

namespace PendingFinalizeBlockQueue

/-- The block a notification announces, if it is a new best one. -/
def newBest (notification : ImportNotification B) : Option (BlockInfo B) :=
  if notification.isNewBest then some ⟨some notification.hash, notification.number⟩ else none

/-- The new best blocks notified in some polls, in order. -/
def notified (rounds : List (Poll B)) : List (BlockInfo B) :=
  rounds.flatMap fun ready => ready.imports.filterMap newBest

def finals (rounds : List (Poll B)) : List (Number B) := rounds.flatMap Poll.finals

/-- A block above every finality notification. -/
def unfinalized (rounds : List (Poll B)) (block : BlockInfo B) : Bool :=
  (finals rounds).all fun finalized => finalized < block.number

theorem newBest_eq_some {notification : ImportNotification B} {block : BlockInfo B} :
    newBest notification = some block ↔
      notification.isNewBest ∧ block = ⟨some notification.hash, notification.number⟩ := by
  unfold newBest
  split
  · rename_i best
    simp [best, eq_comm]
  · rename_i other
    simp [other]

theorem newBest_hashed {imports : List (ImportNotification B)} {block : BlockInfo B}
    (member : block ∈ imports.filterMap newBest) : block.hash.isSome := by
  obtain ⟨notification, _, made⟩ := List.mem_filterMap.mp member
  rw [(newBest_eq_some.mp made).2]
  rfl

theorem push_queue (queue : List (BlockInfo B)) (imports : List (ImportNotification B)) :
    imports.foldl push ⟨some queue⟩ = ⟨some (queue ++ imports.filterMap newBest)⟩ := by
  induction imports generalizing queue with
  | nil => simp
  | cons notification rest ih =>
    rw [List.foldl_cons]
    cases best : notification.isNewBest with
    | false => simpa [push, newBest, best] using ih queue
    | true =>
      have step := ih (queue ++ [⟨some notification.hash, notification.number⟩])
      rw [List.append_assoc] at step
      simpa [push, newBest, best] using step

/-- The pop loop drops a stretch of the queue; it panics on no hash only. -/
theorem popFinalized_eq {finalized : Number B} {queue : List (BlockInfo B)}
    (hashed : ∀ block ∈ queue, block.hash.isSome) :
    popFinalized finalized queue =
      some (Backlog.trim (fun block => block.number.toNat) queue finalized.toNat) := by
  induction queue with
  | nil => rfl
  | cons block rest ih =>
    unfold popFinalized
    by_cases above : finalized < block.number
    · have kept : finalized.toNat < block.number.toNat := BitVec.lt_def.mp above
      simp [above, Backlog.trim, kept]
    · have gone : block.number.toNat ≤ finalized.toNat :=
        Nat.not_lt.mp fun less => above (BitVec.lt_def.mpr less)
      obtain ⟨hash, found⟩ := Option.isSome_iff_exists.mp (hashed block List.mem_cons_self)
      simp only [above, ↓reduceIte, found]
      rw [ih fun other member => hashed other (List.mem_cons_of_mem _ member)]
      simp [Backlog.trim, gone]

theorem pops_eq (marks : List (Number B)) {queue : List (BlockInfo B)}
    (hashed : ∀ block ∈ queue, block.hash.isSome) :
    marks.foldlM pop ⟨some queue⟩ = .ok ⟨some (Backlog.trims (fun block => block.number.toNat)
      queue (marks.map BitVec.toNat))⟩ := by
  induction marks generalizing queue with
  | nil => rfl
  | cons mark rest ih =>
    rw [List.foldlM_cons]
    simp only [pop, popFinalized_eq hashed]
    exact ih fun block member => hashed block ((List.dropWhile_suffix _).subset member)

theorem poll_some (ready : Poll B) {queue : List (BlockInfo B)}
    (hashed : ∀ block ∈ queue, block.hash.isSome) :
    poll ⟨some queue⟩ ready = .ok ⟨some (Backlog.trims (fun block => block.number.toNat)
      (queue ++ ready.imports.filterMap newBest) (ready.finals.map BitVec.toNat))⟩ := by
  have grown : ∀ block ∈ queue ++ ready.imports.filterMap newBest, block.hash.isSome := by
    intro block member
    rcases List.mem_append.mp member with old | fresh
    · exact hashed block old
    · exact newBest_hashed fresh
  unfold poll
  rw [push_queue, pops_eq _ grown]

/-- The rounds of a backlog that polls stand for. -/
def rounds (polled : List (Poll B)) : List (List (BlockInfo B) × List Nat) :=
  polled.map fun ready => (ready.imports.filterMap newBest, ready.finals.map BitVec.toNat)

/-- Polls do not panic, and work as on a backlog. -/
theorem polls_eq (polled : List (Poll B)) {queue : List (BlockInfo B)}
    (hashed : ∀ block ∈ queue, block.hash.isSome) :
    polls ⟨some queue⟩ polled =
      .ok ⟨some (Backlog.run (fun block => block.number.toNat) queue (rounds polled))⟩ := by
  induction polled generalizing queue with
  | nil => rfl
  | cons ready rest ih =>
    unfold polls
    rw [List.foldlM_cons, poll_some ready hashed]
    refine ih fun block member => ?_
    rcases List.mem_append.mp ((Backlog.trims_suffix _ _).subset member) with old | fresh
    · exact hashed block old
    · exact newBest_hashed fresh

theorem arrivals_rounds (polled : List (Poll B)) :
    Backlog.arrivals (rounds polled) = notified polled := by
  simp [Backlog.arrivals, rounds, notified, List.flatMap_map]

theorem above_rounds (polled : List (Poll B)) :
    Backlog.above (fun block => block.number.toNat) (Backlog.marks (rounds polled)) =
      unfinalized polled := by
  funext block
  rw [Bool.eq_iff_iff]
  simp only [Backlog.above, Backlog.marks, rounds, unfinalized, finals, List.flatMap_map,
    List.all_eq_true, List.mem_flatMap, List.mem_map, decide_eq_true_eq, BitVec.lt_def]
  constructor
  · rintro covered finalized ⟨ready, member, marked⟩
    exact covered _ ⟨ready, member, finalized, marked, rfl⟩
  · rintro covered _ ⟨ready, member, finalized, marked, rfl⟩
    exact covered finalized ⟨ready, member, marked⟩

/-- Every new best block that a finality notification covers is polled before
the notification is processed. -/
def Timely (polled : List (Poll B)) : Prop :=
  polled.Pairwise fun earlier later => ∀ finalized ∈ earlier.finals,
    ∀ block ∈ later.imports.filterMap newBest, finalized < block.number

theorem Timely.rounds {polled : List (Poll B)} (timely : Timely polled) :
    Backlog.Timely (fun block => block.number.toNat) (rounds polled) := by
  refine List.pairwise_map.mpr (timely.imp fun late mark marked block member => ?_)
  obtain ⟨finalized, present, rfl⟩ := List.mem_map.mp marked
  exact BitVec.lt_def.mp (late finalized present block member)

end PendingFinalizeBlockQueue

open PendingFinalizeBlockQueue in
/-- After any polls of a queue made at startup: nothing has panicked; the queue
is a final stretch of the new best blocks notified so far, all with a hash; the
blocks above every finality notification are in it as often and in the order in
which they were notified; and with increasing numbers and timely notifications
there is nothing else in it. -/
theorem pending_queue_accounting [ClientForHotstuff B C] [HeaderBackend B C] {client : C}
    {pending : PendingFinalizeBlockQueue B} (made : new client = .ok pending)
    (polled : List (Poll B)) :
    ∃ queue, pending.polls polled = .ok ⟨some queue⟩ ∧ queue <:+ notified polled ∧
      (∀ block ∈ queue, block.hash.isSome) ∧
      queue.filter (unfinalized polled) = (notified polled).filter (unfinalized polled) ∧
      ((notified polled).Pairwise (fun one two => one.number < two.number) → Timely polled →
        queue = (notified polled).filter (unfinalized polled)) := by
  obtain ⟨rfl, _⟩ := new_ok made
  have covered : ∀ block, unfinalized polled block = true →
      Backlog.above (fun block => block.number.toNat) (Backlog.marks (rounds polled)) block =
        true :=
    fun block holds => by rwa [above_rounds]
  have suffix := Backlog.run_suffix (fun block : BlockInfo B => block.number.toNat) (rounds polled)
  have kept := Backlog.run_filter (rounds polled) covered
  rw [arrivals_rounds] at suffix kept
  refine ⟨_, polls_eq polled (by simp), suffix, ?_, kept, ?_⟩
  · intro block member
    obtain ⟨ready, _, fresh⟩ := List.mem_flatMap.mp (suffix.subset member)
    exact newBest_hashed fresh
  · intro increasing timely
    have ordered : (Backlog.arrivals (rounds polled)).Pairwise
        fun one two => one.number.toNat < two.number.toNat := by
      rw [arrivals_rounds]
      exact increasing.imp BitVec.lt_def.mp
    have exactly := Backlog.run_exact (rounds polled) ordered timely.rounds
    rwa [arrivals_rounds, above_rounds] at exactly

/-- Three new best blocks in two polls, with the first one finalized between. -/
def Sample.polled : List (Poll Sample) :=
  [⟨[⟨(1 : BitVec 64), 1, true⟩, ⟨(2 : BitVec 64), 2, true⟩], [1]⟩,
    ⟨[⟨(9 : BitVec 64), 2, false⟩, ⟨(3 : BitVec 64), 3, true⟩], []⟩]

open PendingFinalizeBlockQueue in
theorem pending_queue_accounting_three :
    ∃ queue, (⟨some []⟩ : PendingFinalizeBlockQueue Sample).polls Sample.polled =
        .ok ⟨some queue⟩ ∧
      queue = [⟨some (2 : BitVec 64), 2⟩, ⟨some (3 : BitVec 64), 3⟩] := by
  have made := new_total (B := Sample) (⟨[], (0 : BitVec 64)⟩ : Sample.Client) (by decide)
    (by decide) fun _ => ⟨_, rfl⟩
  have timely : Timely Sample.polled := by
    have order : (1 : Number Sample) < 3 := by decide
    simpa [Timely, Sample.polled, newBest] using order
  have blocks : notified Sample.polled =
      [⟨some (1 : BitVec 64), 1⟩, ⟨some (2 : BitVec 64), 2⟩, ⟨some (3 : BitVec 64), 3⟩] := by rfl
  obtain ⟨queue, ran, _, _, _, exactly⟩ := pending_queue_accounting made Sample.polled
  exact ⟨queue, ran, (exactly (by rw [blocks]; decide) timely).trans (by decide +kernel)⟩

end Hotstuff
