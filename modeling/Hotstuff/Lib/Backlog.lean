import Mathlib.Data.List.Induction
import Mathlib.Order.Lattice

/-! A backlog of items with a key. Items arrive at its back, and a mark drops
the items at its front whose keys it covers. -/

namespace Backlog

variable {α κ : Type} [LinearOrder κ] (key : α → κ)

/-- An item is dropped only if every item before it is. -/
def trim (items : List α) (mark : κ) : List α :=
  items.dropWhile fun item => key item ≤ mark

def trims (items : List α) (marks : List κ) : List α :=
  marks.foldl (trim key) items

/-- Rounds of arrivals, each followed by its marks. -/
def run (items : List α) (rounds : List (List α × List κ)) : List α :=
  rounds.foldl (fun items round => trims key (items ++ round.1) round.2) items

def arrivals (rounds : List (List α × List κ)) : List α := rounds.flatMap Prod.fst

def marks (rounds : List (List α × List κ)) : List κ := rounds.flatMap Prod.snd

/-- The item is above every mark. -/
def above (marks : List κ) (item : α) : Bool := marks.all fun mark => mark < key item

/-- An item that a mark covers has arrived by the round of the mark. -/
def Timely (rounds : List (List α × List κ)) : Prop :=
  rounds.Pairwise fun earlier later => ∀ mark ∈ earlier.2, ∀ item ∈ later.1, mark < key item

variable {key} {items : List α} {rounds : List (List α × List κ)}

theorem above_append (first second : List κ) (item : α) :
    above key (first ++ second) item = (above key first item && above key second item) := by
  simp [above]

theorem run_concat (round : List α × List κ) :
    run key items (rounds ++ [round]) = trims key (run key items rounds ++ round.1) round.2 := by
  simp [run]

omit [LinearOrder κ] in
theorem arrivals_concat (round : List α × List κ) :
    arrivals (rounds ++ [round]) = arrivals rounds ++ round.1 := by
  simp [arrivals]

omit [LinearOrder κ] in
theorem marks_concat (round : List α × List κ) :
    marks (rounds ++ [round]) = marks rounds ++ round.2 := by
  simp [marks]

theorem trims_suffix (items : List α) (marks : List κ) : trims key items marks <:+ items := by
  induction marks generalizing items with
  | nil => exact List.suffix_rfl
  | cons mark rest ih => exact (ih _).trans (List.dropWhile_suffix _)

/-- Nothing is in the backlog that has not arrived, and nothing is missing from
it behind its first item. -/
theorem run_suffix (key : α → κ) (rounds : List (List α × List κ)) :
    run key [] rounds <:+ arrivals rounds := by
  induction rounds using List.reverseRecOn with
  | nil => exact List.suffix_rfl
  | append_singleton rounds round ih =>
    obtain ⟨gone, split⟩ := ih
    rw [run_concat, arrivals_concat]
    exact (trims_suffix _ _).trans ⟨gone, by rw [← split, List.append_assoc]⟩

/-- A mark takes nothing away that is above it. -/
theorem filter_trim {kept : α → Bool} {mark : κ}
    (covered : ∀ item, kept item = true → mark < key item) :
    (trim key items mark).filter kept = items.filter kept := by
  unfold trim
  induction items with
  | nil => rfl
  | cons item rest ih =>
    by_cases below : key item ≤ mark
    · have dropped : ¬ kept item = true := fun holds => not_lt.mpr below (covered item holds)
      simpa [List.dropWhile_cons, below, List.filter_cons, dropped] using ih
    · simp [below]

theorem filter_trims {kept : α → Bool} {marks : List κ}
    (covered : ∀ mark ∈ marks, ∀ item, kept item = true → mark < key item) :
    (trims key items marks).filter kept = items.filter kept := by
  induction marks generalizing items with
  | nil => rfl
  | cons mark rest ih =>
    refine (ih fun mark member => covered mark (List.mem_cons_of_mem _ member)).trans ?_
    exact filter_trim (covered mark List.mem_cons_self)

theorem above_iff {marks : List κ} {item : α} :
    above key marks item = true ↔ ∀ mark ∈ marks, mark < key item := by
  simp [above]

/-- What is above every mark is in the backlog, as often and in the order in
which it arrived. -/
theorem run_filter (rounds : List (List α × List κ)) {kept : α → Bool}
    (covered : ∀ item, kept item = true → above key (marks rounds) item = true) :
    (run key [] rounds).filter kept = (arrivals rounds).filter kept := by
  induction rounds using List.reverseRecOn with
  | nil => rfl
  | append_singleton rounds round ih =>
    simp only [marks_concat, above_append, Bool.and_eq_true] at covered
    rw [run_concat, arrivals_concat, List.filter_append]
    rw [filter_trims fun mark member item holds =>
      above_iff.mp (covered item holds).2 mark member]
    rw [List.filter_append, ih fun item holds => (covered item holds).1]

theorem trim_increasing (increasing : items.Pairwise fun one two => key one < key two) (mark : κ) :
    trim key items mark = items.filter fun item => mark < key item := by
  unfold trim
  induction items with
  | nil => rfl
  | cons item rest ih =>
    obtain ⟨first, later⟩ := List.pairwise_cons.mp increasing
    by_cases below : key item ≤ mark
    · simpa [List.dropWhile_cons, below, List.filter_cons, not_lt.mpr below] using ih later
    · have reached := not_le.mp below
      have all : ∀ other ∈ rest, mark < key other := fun other member =>
        reached.trans (first other member)
      have whole : (item :: rest).filter (fun other => mark < key other) = item :: rest :=
        List.filter_eq_self.mpr (by simpa [reached] using all)
      rw [whole, List.dropWhile_cons_of_neg (by simpa using reached)]

theorem trims_increasing (increasing : items.Pairwise fun one two => key one < key two)
    (marks : List κ) : trims key items marks = items.filter (above key marks) := by
  induction marks generalizing items with
  | nil => exact (List.filter_eq_self.mpr fun _ _ => rfl).symm
  | cons mark rest ih =>
    have step := trim_increasing increasing mark
    change trims key (trim key items mark) rest = _
    rw [ih (by rw [step]; exact increasing.sublist List.filter_sublist), step, List.filter_filter]
    exact List.filter_congr fun item _ => by simp [above, Bool.and_comm]

/-- With increasing keys and timely marks the backlog is exactly what is above
every mark. -/
theorem run_exact (rounds : List (List α × List κ))
    (increasing : (arrivals rounds).Pairwise fun one two => key one < key two)
    (timely : Timely key rounds) :
    run key [] rounds = (arrivals rounds).filter (above key (marks rounds)) := by
  induction rounds using List.reverseRecOn with
  | nil => rfl
  | append_singleton rounds round ih =>
    obtain ⟨before, _, late⟩ := List.pairwise_append.mp timely
    rw [arrivals_concat] at increasing
    have kept := ih (increasing.sublist (List.sublist_append_left _ _)) before
    have ordered : (run key [] rounds ++ round.1).Pairwise fun one two => key one < key two :=
      increasing.sublist ((run_suffix key rounds).sublist.append (List.Sublist.refl _))
    have fresh : ∀ item ∈ round.1, above key (marks rounds) item = true := by
      intro item member
      refine above_iff.mpr fun mark present => ?_
      obtain ⟨earlier, among, marked⟩ := List.mem_flatMap.mp present
      exact late earlier among round List.mem_cons_self mark marked item member
    rw [run_concat, trims_increasing ordered, arrivals_concat, marks_concat, kept,
      List.filter_append, List.filter_append, List.filter_filter]
    refine congrArg₂ (· ++ ·) (List.filter_congr fun item _ => ?_)
      (List.filter_congr fun item member => ?_)
    · rw [above_append, Bool.and_comm]
    · rw [above_append, fresh item member, Bool.true_and]

end Backlog
