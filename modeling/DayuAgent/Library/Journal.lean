import Mathlib.Algebra.BigOperators.Group.List.Basic
import Mathlib.Data.List.Nodup
import Mathlib.Data.List.Range
import Mathlib.Order.Lattice
import DayuAgent.Library.Transition

/-! Numbered logs that lose entries: what is stored of each, next to all that was ever
appended to it. -/

namespace Library

/-- One log: the entries that remain, and every entry in the order of assignment. -/
structure Journal (Entry : Type) where
  stored : List Entry
  issued : List Entry

namespace Journal

variable {Entry : Type} {number : Entry → Nat} {journal : Journal Entry}

def empty : Journal Entry := ⟨[], []⟩

def append (journal : Journal Entry) (entry : Entry) : Journal Entry :=
  ⟨journal.stored ++ [entry], journal.issued ++ [entry]⟩

def retain (journal : Journal Entry) (rest : List Entry) : Journal Entry :=
  { journal with stored := rest }

/-- Nothing is stored that was not appended, and the numbers count from one. -/
structure Sound (number : Entry → Nat) (journal : Journal Entry) : Prop where
  kept : journal.stored.Sublist journal.issued
  numbered : journal.issued.map number = List.range' 1 journal.issued.length

theorem empty_sound : Sound number empty := ⟨.slnil, rfl⟩

theorem Sound.append (sound : Sound number journal)
    (next : number entry = journal.issued.length + 1) : Sound number (journal.append entry) where
  kept := sound.kept.append (List.Sublist.refl _)
  numbered := by
    simp only [Journal.append, List.map_append, List.map_cons, List.map_nil, List.length_append,
      List.length_cons, List.length_nil, List.range'_1_concat]
    rw [sound.numbered, next, Nat.add_comm]

theorem Sound.retain (sound : Sound number journal) (fewer : rest.Sublist journal.stored) :
    Sound number (journal.retain rest) := ⟨fewer.trans sound.kept, sound.numbered⟩

/-- The numbers ascend strictly in the order of assignment. -/
theorem Sound.increasing (sound : Sound number journal) :
    journal.issued.Pairwise fun first second => number first < number second := by
  have sorted : (journal.issued.map number).Pairwise (· < ·) := by
    rw [sound.numbered]
    exact List.pairwise_lt_range'
  exact List.pairwise_map.mp sorted

theorem Sound.number_le (sound : Sound number journal) (member : entry ∈ journal.issued) :
    number entry ≤ journal.issued.length := by
  have counted : number entry ∈ List.range' 1 journal.issued.length := by
    rw [← sound.numbered]
    exact List.mem_map_of_mem member
  simp only [List.mem_range'_1] at counted
  omega

/-- Reading past an entry hides no stored entry that was appended after it. -/
theorem Sound.visible (sound : Sound number journal)
    (order : [earlier, later].Sublist journal.issued) (stored : later ∈ journal.stored) :
    later ∈ journal.stored.filter fun entry => number earlier < number entry := by
  have ascending := sound.increasing.sublist order
  simp only [List.pairwise_cons, List.mem_singleton, forall_eq, List.not_mem_nil,
    false_implies, implies_true, List.Pairwise.nil, and_true] at ascending
  exact List.mem_filter.mpr ⟨stored, by simpa using ascending⟩

/-- The entry appended last has the highest number. -/
theorem Sound.last (sound : Sound number journal) (ends : journal.issued.getLast? = some entry) :
    number entry = journal.issued.length := by
  obtain ⟨front, same⟩ := List.getLast?_eq_some_iff.mp ends
  have counted := sound.numbered
  rw [same] at counted ⊢
  simp only [List.map_append, List.map_cons, List.map_nil, List.length_append, List.length_cons,
    List.length_nil, List.range'_1_concat] at counted
  obtain ⟨_, own⟩ := List.append_inj' counted rfl
  simp only [List.cons.injEq, and_true] at own
  simp only [List.length_append, List.length_cons, List.length_nil]
  omega

/-- An entry whose number is found in the store is stored itself. -/
theorem Sound.stored_numbered (sound : Sound number journal) (issued : entry ∈ journal.issued)
    (found : other ∈ journal.stored) (same : number other = number entry) :
    entry ∈ journal.stored := by
  have distinct : (journal.issued.map number).Nodup := by
    rw [sound.numbered]
    exact List.nodup_range'
  have equal : other = entry :=
    List.inj_on_of_nodup_map distinct (sound.kept.subset found) issued same
  exact equal ▸ found

/-- The entry appended last is the last one stored, if it is stored at all. -/
theorem Sound.stored_last (sound : Sound number journal)
    (ends : journal.issued.getLast? = some entry) (member : entry ∈ journal.stored) :
    journal.stored.getLast? = some entry := by
  obtain ⟨front, same⟩ := List.getLast?_eq_some_iff.mp ends
  have kept := sound.kept
  have ordered := sound.increasing
  rw [same] at kept ordered
  obtain ⟨before, after, split, early, final⟩ := List.sublist_append_iff.mp kept
  rw [split] at member ⊢
  rcases List.sublist_singleton.mp final with rfl | rfl
  · rw [List.append_nil] at member
    have repeated := (List.pairwise_append.mp ordered).2.2 entry (early.subset member) entry
      (List.mem_singleton_self entry)
    exact (lt_irrefl _ repeated).elim
  · exact List.getLast?_append_cons ..

theorem foldl_max_le_iff (counts : List Nat) (base bound : Nat) :
    counts.foldl max base ≤ bound ↔ base ≤ bound ∧ ∀ count ∈ counts, count ≤ bound := by
  induction counts generalizing base with
  | nil => simp
  | cons count rest ih =>
    simp only [List.foldl_cons, ih, Nat.max_le, and_assoc, List.forall_mem_cons]

/-- While the last entry is stored, the highest stored number counts the entries issued. -/
theorem Sound.maximum (sound : Sound number journal)
    (stored : ∀ entry, journal.issued.getLast? = some entry → entry ∈ journal.stored) :
    (journal.stored.map number).foldl max 0 = journal.issued.length := by
  apply le_antisymm
  · refine (foldl_max_le_iff _ 0 _).mpr ⟨Nat.zero_le _, fun counted member => ?_⟩
    obtain ⟨entry, kept, rfl⟩ := List.mem_map.mp member
    exact sound.number_le (sound.kept.subset kept)
  · cases ends : journal.issued.getLast? with
    | none => simp [List.getLast?_eq_none_iff.mp ends]
    | some entry =>
      rw [← sound.last ends]
      exact ((foldl_max_le_iff _ 0 _).mp le_rfl).2 _ (List.mem_map_of_mem (stored entry ends))

/-- Reading past the entry appended last yields nothing. -/
theorem Sound.exhausted (sound : Sound number journal)
    (ends : journal.issued.getLast? = some entry) :
    journal.stored.filter (fun other => number entry < number other) = [] := by
  apply List.filter_eq_nil_iff.mpr
  intro other member
  have below := sound.number_le (sound.kept.subset member)
  have highest := sound.last ends
  simp only [decide_eq_true_eq, not_lt]
  omega

end Journal

/-- Entries that each belong to one of several logs, counted log by log. -/
theorem length_by_log {Entry Ref : Type} [DecidableEq Ref] (owner : Entry → Ref) (refs : List Ref)
    (distinct : refs.Nodup) (entries : List Entry) (owned : ∀ entry ∈ entries, owner entry ∈ refs) :
    (refs.flatMap fun ref => entries.filter fun entry => owner entry = ref).length =
      entries.length := by
  rw [List.length_flatMap]
  induction entries with
  | nil => simp
  | cons entry rest ih =>
    have one : (refs.map fun ref => if owner entry = ref then 1 else 0).sum = 1 := by
      rw [List.sum_map_eq_nsmul_single (owner entry), if_pos rfl,
        List.count_eq_one_of_mem distinct (owned entry List.mem_cons_self)]
      · rfl
      · exact fun other different _ => if_neg different.symm
    have each : ∀ ref, ((entry :: rest).filter fun other => owner other = ref).length =
        (if owner entry = ref then 1 else 0) +
          (rest.filter fun other => owner other = ref).length := by
      intro ref
      by_cases own : owner entry = ref <;> simp [own, Nat.add_comm]
    simp only [each, List.sum_map_add, one]
    rw [ih fun other member => owned other (List.mem_cons_of_mem _ member), List.length_cons,
      Nat.add_comm]

section Retention

variable {Entry Time : Type} [LinearOrder Time] {stamp : Entry → Time} {log : List Entry}

/-- Entries kept from the end of a log: those before them are all dropped. -/
theorem dropped_of_suffix {kept : Entry → Bool} (ends : log.filter kept <:+ log) :
    ∃ front, front ++ log.filter kept = log ∧ ∀ entry ∈ front, kept entry = false := by
  obtain ⟨front, split⟩ := ends
  have again := congrArg (List.filter kept) split
  rw [List.filter_append, List.filter_filter] at again
  simp only [Bool.and_self, List.append_left_eq_self, List.filter_eq_nil_iff] at again
  exact ⟨front, split, fun entry member => Bool.eq_false_iff.mpr (again entry member)⟩

theorem retained_suffix (ascending : log.Pairwise fun first second => stamp first ≤ stamp second)
    (cutoff : Time) : log.filter (fun entry => cutoff ≤ stamp entry) <:+ log := by
  induction log with
  | nil => exact List.suffix_rfl
  | cons entry rest ih =>
    obtain ⟨least, later⟩ := List.pairwise_cons.mp ascending
    by_cases young : cutoff ≤ stamp entry
    · have all : (entry :: rest).filter (fun other => cutoff ≤ stamp other) = entry :: rest := by
        apply List.filter_eq_self.mpr
        intro other member
        rcases List.mem_cons.mp member with rfl | below
        · simpa using young
        · simpa using young.trans (least other below)
      exact ⟨[], all⟩
    · rw [List.filter_cons_of_neg (by simpa using young)]
      exact (ih later).trans (List.suffix_cons entry rest)

/-- Every cutoff leaves an end of the log exactly if the stamps ascend along it. -/
theorem retained_suffix_iff :
    (∀ cutoff, log.filter (fun entry => cutoff ≤ stamp entry) <:+ log) ↔
      log.Pairwise fun first second => stamp first ≤ stamp second := by
  constructor
  · intro ends
    apply List.pairwise_iff_forall_sublist.mpr
    intro first second order
    by_contra descends
    obtain ⟨front, split, dropped⟩ := dropped_of_suffix (ends (stamp first))
    rw [← split] at order
    obtain ⟨early, late, same, early_sub, late_sub⟩ := List.sublist_append_iff.mp order
    cases early with
    | nil =>
      rw [List.nil_append] at same
      subst same
      have kept : second ∈ log.filter fun entry => stamp first ≤ stamp entry :=
        late_sub.subset (by simp)
      exact descends (by simpa using (List.mem_filter.mp kept).2)
    | cons head tail =>
      obtain ⟨rfl, _⟩ := List.cons.inj same
      have lost := dropped first (early_sub.subset List.mem_cons_self)
      simp at lost
  · exact retained_suffix

end Retention

section Recording

variable {State Label Ref Entry : Type} (log : State → Ref → List Entry)

/-- A step of a system with one log for each reference, noting what it adds to them. -/
def Recording (step : State → Label → State → Prop) (before : State × (Ref → List Entry))
    (label : Label) (after : State × (Ref → List Entry)) : Prop :=
  step before.1 label after.1 ∧ ∀ ref,
    after.2 ref = before.2 ref ++ (log after.1 ref).drop (log before.1 ref).length

/-- The recorded steps of a deterministic system. -/
def recordNext (next : State → Label → Option State) (before : State × (Ref → List Entry))
    (label : Label) : Option (State × (Ref → List Entry)) :=
  (next before.1 label).map fun after =>
    (after, fun ref => before.2 ref ++ (log after ref).drop (log before.1 ref).length)

theorem recordNext_recording {log : State → Ref → List Entry} {next : State → Label → Option State}
    (taken : recordNext log next before label = some after) :
    Recording log (fun first label second => next first label = some second) before label
      after := by
  obtain ⟨reached, moved, rfl⟩ := Option.map_eq_some_iff.mp taken
  exact ⟨moved, fun _ => rfl⟩

end Recording

end Library
