import Mathlib.Data.List.Dedup

namespace Library

section Sorting

variable {Entry : Type} {entries sorted : List Entry}

/-- Where the order tells the entries apart, only one arrangement of them is sorted. -/
theorem mergeSort_unique {precedes : Entry → Entry → Bool}
    (trans : ∀ one two three, precedes one two → precedes two three → precedes one three)
    (total : ∀ one two, precedes one two || precedes two one)
    (apart : ∀ one ∈ sorted, ∀ two ∈ sorted, precedes one two → precedes two one → one = two)
    (perm : entries.Perm sorted) (ordered : sorted.Pairwise (precedes · ·)) :
    entries.mergeSort precedes = sorted := by
  have same := (entries.mergeSort_perm precedes).trans perm
  refine same.eq_of_pairwise (fun one two first second => ?_)
    (List.pairwise_mergeSort trans total entries) ordered
  exact apart one (same.subset first) two second

/-- The one ascending arrangement of the entries is what sorting them yields. -/
theorem mergeSort_ascending (number : Entry → Nat) (perm : entries.Perm sorted)
    (ascending : sorted.Pairwise fun first second => number first < number second) :
    entries.mergeSort (fun first second => number first ≤ number second) = sorted := by
  have distinct : (sorted.map number).Nodup :=
    List.pairwise_map.mpr (ascending.imp Nat.ne_of_lt)
  refine mergeSort_unique ?_ ?_ ?_ perm ?_
  · intro one two three first second
    simp only [decide_eq_true_eq] at first second ⊢
    exact Nat.le_trans first second
  · intro one two
    simpa using Nat.le_total (number one) (number two)
  · intro one first two second before after
    simp only [decide_eq_true_eq] at before after
    exact List.inj_on_of_nodup_map distinct first second (Nat.le_antisymm before after)
  · exact ascending.imp fun less => by simpa using Nat.le_of_lt less

end Sorting

section Numbers

variable {Row Group Ident : Type} [DecidableEq Group] [DecidableEq Ident]
  (group : Row → Group) (precedes : Row → Row → Bool) (ident : Row → Ident)

/-- The rows of one group in order. -/
def sortedGroup (rows : List Row) (own : Group) : List Row :=
  (rows.filter fun row => group row = own).mergeSort precedes

/-- `row_number() OVER (PARTITION BY group ORDER BY precedes)`, next to each row. -/
def rowNumbers (rows : List Row) : List (Row × Nat) :=
  (rows.map group).dedup.flatMap fun own => (sortedGroup group precedes rows own).zipIdx 1

/-- The number of the row with the same identity, if there is one. -/
def numberOf (rows : List Row) (row : Row) : Option Nat :=
  ((rowNumbers group precedes rows).find? fun entry => ident entry.1 = ident row).map Prod.snd

variable {group precedes ident} {rows : List Row} {row : Row} {own : Group}

theorem mem_sortedGroup :
    row ∈ sortedGroup group precedes rows own ↔ row ∈ rows ∧ group row = own := by
  simp [sortedGroup]

theorem sortedGroup_perm : (sortedGroup group precedes rows own).Perm
    (rows.filter fun row => group row = own) := List.mergeSort_perm _ _

theorem mem_rowNumbers {place : Nat} : (row, place) ∈ rowNumbers group precedes rows ↔
    (row, place) ∈ (sortedGroup group precedes rows (group row)).zipIdx 1 := by
  constructor
  · intro numbered
    obtain ⟨own, _, member⟩ := List.mem_flatMap.mp numbered
    obtain ⟨_, belongs⟩ := mem_sortedGroup.mp (List.fst_mem_of_mem_zipIdx member)
    exact belongs.symm ▸ member
  · intro numbered
    obtain ⟨member, _⟩ := mem_sortedGroup.mp (List.fst_mem_of_mem_zipIdx numbered)
    exact List.mem_flatMap.mpr
      ⟨group row, List.mem_dedup.mpr (List.mem_map_of_mem member), numbered⟩

theorem rowNumbers_unique (distinct : rows.Nodup)
    (first : (row, one) ∈ rowNumbers group precedes rows)
    (second : (row, two) ∈ rowNumbers group precedes rows) : one = two := by
  have once : (sortedGroup group precedes rows (group row)).Nodup :=
    sortedGroup_perm.nodup_iff.mpr (distinct.filter _)
  obtain ⟨low, found⟩ := List.mk_mem_zipIdx_iff_le_and_getElem?_sub.mp (mem_rowNumbers.mp first)
  obtain ⟨least, again⟩ := List.mk_mem_zipIdx_iff_le_and_getElem?_sub.mp (mem_rowNumbers.mp second)
  have same := (List.getElem?_inj (List.getElem?_eq_some_iff.mp found).1 once).mp
    (found.trans again.symm)
  omega

/-- A row with an identity of its own gets its own number. -/
theorem numberOf_eq (distinct : (rows.map ident).Nodup)
    (numbered : (row, place) ∈ rowNumbers group precedes rows) :
    numberOf group precedes ident rows row = some place := by
  have member : ∀ {other}, other ∈ rowNumbers group precedes rows → other.1 ∈ rows := by
    intro other listed
    exact (mem_sortedGroup.mp (List.fst_mem_of_mem_zipIdx (mem_rowNumbers.mp listed))).1
  cases found : (rowNumbers group precedes rows).find? fun entry => ident entry.1 = ident row with
  | none =>
    have missed := List.find?_eq_none.mp found _ numbered
    simp at missed
  | some entry =>
    have listed := List.mem_of_find?_eq_some found
    have named : ident entry.1 = ident row := by simpa using List.find?_some found
    have same := List.inj_on_of_nodup_map distinct (member listed) (member numbered) named
    obtain ⟨other, number⟩ := entry
    subst same
    rw [numberOf, found, Option.map_some, rowNumbers_unique distinct.of_map listed numbered]

theorem numbered_of_mem (member : row ∈ rows) :
    ∃ place, (row, place) ∈ rowNumbers group precedes rows := by
  have sorted : row ∈ sortedGroup group precedes rows (group row) :=
    mem_sortedGroup.mpr ⟨member, rfl⟩
  obtain ⟨index, found⟩ := List.mem_iff_getElem?.mp sorted
  refine ⟨index + 1, mem_rowNumbers.mpr ?_⟩
  exact List.mk_mem_zipIdx_iff_le_and_getElem?_sub.mpr ⟨by omega, by simpa using found⟩

/-- Rows of one group do not share a number. -/
theorem numberOf_injective {other : Row} (distinct : (rows.map ident).Nodup) (member : row ∈ rows)
    (together : group row = group other) (also : other ∈ rows)
    (same : numberOf group precedes ident rows row = numberOf group precedes ident rows other) :
    row = other := by
  obtain ⟨place, numbered⟩ : ∃ place, (row, place) ∈ rowNumbers group precedes rows :=
    numbered_of_mem member
  obtain ⟨position, counted⟩ : ∃ place, (other, place) ∈ rowNumbers group precedes rows :=
    numbered_of_mem also
  rw [numberOf_eq distinct numbered, numberOf_eq distinct counted, Option.some.injEq] at same
  subst same
  obtain ⟨_, found⟩ := List.mk_mem_zipIdx_iff_le_and_getElem?_sub.mp (mem_rowNumbers.mp numbered)
  obtain ⟨_, again⟩ := List.mk_mem_zipIdx_iff_le_and_getElem?_sub.mp (mem_rowNumbers.mp counted)
  rw [together] at found
  exact Option.some.inj (found.symm.trans again)

/-- The rows of one group, in order, count up from one. -/
theorem numbered_group {Numbered : Type} (build : Row → Nat → Numbered)
    (distinct : (rows.map ident).Nodup) :
    (sortedGroup group precedes rows own).map (fun row =>
        build row ((numberOf group precedes ident rows row).getD 0)) =
      ((sortedGroup group precedes rows own).zipIdx 1).map fun entry => build entry.1 entry.2 := by
  have plain : sortedGroup group precedes rows own =
      ((sortedGroup group precedes rows own).zipIdx 1).map Prod.fst := by simp
  conv_lhs => rw [plain, List.map_map]
  apply List.map_congr_left
  intro entry member
  have belongs := (mem_sortedGroup.mp (List.fst_mem_of_mem_zipIdx member)).2
  have numbered : (entry.1, entry.2) ∈ rowNumbers group precedes rows :=
    mem_rowNumbers.mpr (belongs.symm ▸ member)
  simp [numberOf_eq distinct numbered]

end Numbers

end Library
