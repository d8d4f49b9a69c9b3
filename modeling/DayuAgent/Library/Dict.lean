import Mathlib.Data.List.Find
import Mathlib.Data.List.Nodup

/-! Insertion-ordered dictionaries with distinct keys. Replacing a key keeps
its position and a new key goes last, so a scan of the values is reproducible. -/

namespace Library

structure Dict (Key Value : Type) where
  entries : List (Key × Value)
  nodup : (entries.map Prod.fst).Nodup

namespace Dict

variable {Key Value : Type} [DecidableEq Key]

def empty : Dict Key Value := ⟨[], List.nodup_nil⟩

def get? (dict : Dict Key Value) (key : Key) : Option Value :=
  dict.entries.lookup key

def values (dict : Dict Key Value) : List Value := dict.entries.map Prod.snd

private def place (key : Key) (value : Value) : List (Key × Value) → List (Key × Value)
  | [] => [(key, value)]
  | (head, old) :: rest =>
    if head = key then (head, value) :: rest else (head, old) :: place key value rest

private theorem mem_place_keys (key : Key) (value : Value) (entries : List (Key × Value))
    (other : Key) : other ∈ (place key value entries).map Prod.fst ↔
      other = key ∨ other ∈ entries.map Prod.fst := by
  induction entries with
  | nil => simp [place]
  | cons entry rest ih =>
    obtain ⟨head, old⟩ := entry
    by_cases same : head = key
    · simp [place, same]
    · simp only [place, same, ↓reduceIte, List.map_cons, List.mem_cons, ih]
      tauto

private theorem place_nodup (key : Key) (value : Value) (entries : List (Key × Value))
    (distinct : (entries.map Prod.fst).Nodup) :
    ((place key value entries).map Prod.fst).Nodup := by
  induction entries with
  | nil => simp [place]
  | cons entry rest ih =>
    obtain ⟨head, old⟩ := entry
    obtain ⟨absent, distinctRest⟩ := List.nodup_cons.mp distinct
    by_cases same : head = key
    · simpa [place, same] using distinct
    · simp only [place, same, ↓reduceIte, List.map_cons, List.nodup_cons]
      refine ⟨?_, ih distinctRest⟩
      intro member
      rcases (mem_place_keys key value rest head).mp member with chosen | old
      · exact same chosen
      · exact absent old

private theorem lookup_cons_if (head : Key) (value : Value) (rest : List (Key × Value))
    (key : Key) : ((head, value) :: rest).lookup key =
      if key = head then some value else rest.lookup key := by
  by_cases same : key = head
  · simp [same]
  · have test : (key == head) = false := beq_eq_false_iff_ne.mpr same
    simp [List.lookup_cons, test, same]

private theorem lookup_place (key : Key) (value : Value) (entries : List (Key × Value))
    (other : Key) : (place key value entries).lookup other =
      if other = key then some value else entries.lookup other := by
  induction entries with
  | nil => simp [place, lookup_cons_if]
  | cons entry rest ih =>
    obtain ⟨head, old⟩ := entry
    by_cases same : head = key
    · subst head
      by_cases chosen : other = key <;> simp [place, lookup_cons_if, chosen]
    · by_cases chosen : other = head
      · subst head
        simp [place, same]
      · simp [place, lookup_cons_if, same, chosen, ih]

/-- Bind one key. An existing key keeps its place in the order. -/
def set (dict : Dict Key Value) (key : Key) (value : Value) : Dict Key Value :=
  ⟨place key value dict.entries, place_nodup key value dict.entries dict.nodup⟩

/-- Remove one key; an absent key leaves the dictionary as it is. -/
def erase (dict : Dict Key Value) (key : Key) : Dict Key Value :=
  ⟨dict.entries.filter (fun entry => entry.1 ≠ key),
    dict.nodup.sublist (List.filter_sublist.map Prod.fst)⟩

@[simp] theorem get?_empty (key : Key) : (empty : Dict Key Value).get? key = none := rfl

theorem get?_set (dict : Dict Key Value) (key : Key) (value : Value) (other : Key) :
    (dict.set key value).get? other = if other = key then some value else dict.get? other :=
  lookup_place key value dict.entries other

@[simp] theorem get?_set_self (dict : Dict Key Value) (key : Key) (value : Value) :
    (dict.set key value).get? key = some value := by simp [get?_set]

theorem get?_set_ne (dict : Dict Key Value) (value : Value) (different : other ≠ key) :
    (dict.set key value).get? other = dict.get? other := by simp [get?_set, different]

/-- The entries whose keys pass a test, in the same order. -/
def restrict (keep : Key → Bool) (dict : Dict Key Value) : Dict Key Value :=
  ⟨dict.entries.filter fun entry => keep entry.1,
    dict.nodup.sublist (List.filter_sublist.map Prod.fst)⟩

theorem get?_restrict (keep : Key → Bool) (dict : Dict Key Value) (key : Key) :
    (dict.restrict keep).get? key = if keep key then dict.get? key else none := by
  obtain ⟨entries, distinct⟩ := dict
  simp only [get?, restrict]
  induction entries with
  | nil => simp
  | cons entry rest ih =>
    obtain ⟨head, value⟩ := entry
    have kept := ih (List.nodup_cons.mp distinct).2
    by_cases shown : keep head
    · rw [List.filter_cons_of_pos (by exact shown), lookup_cons_if, kept, lookup_cons_if]
      by_cases chosen : key = head
      · simp [chosen, shown]
      · simp [chosen]
    · rw [List.filter_cons_of_neg (by exact shown), kept, lookup_cons_if]
      by_cases chosen : key = head
      · simp [chosen, shown]
      · simp [chosen]

theorem get?_erase (dict : Dict Key Value) (key other : Key) :
    (dict.erase key).get? other = if other = key then none else dict.get? other := by
  have restricted := get?_restrict (fun entry => decide (entry ≠ key)) dict other
  rw [show dict.erase key = dict.restrict fun entry => decide (entry ≠ key) from rfl, restricted]
  by_cases same : other = key <;> simp [same]

private theorem filter_place (keep : Key → Bool) (key : Key) (value : Value)
    (entries : List (Key × Value)) :
    (place key value entries).filter (fun entry => keep entry.1) =
      if keep key then place key value (entries.filter fun entry => keep entry.1)
      else entries.filter fun entry => keep entry.1 := by
  induction entries with
  | nil => by_cases shown : keep key <;> simp [place, shown]
  | cons entry rest ih =>
    obtain ⟨head, old⟩ := entry
    by_cases same : head = key
    · subst head
      by_cases shown : keep key <;> simp [place, shown]
    · by_cases shown : keep head <;> by_cases written : keep key <;>
        simp_all [place]

theorem restrict_set (keep : Key → Bool) (dict : Dict Key Value) (key : Key) (value : Value) :
    (dict.set key value).restrict keep =
      if keep key then (dict.restrict keep).set key value else dict.restrict keep := by
  have placed := filter_place keep key value dict.entries
  by_cases shown : keep key
  · rw [if_pos shown] at placed ⊢
    simp only [restrict, set, mk.injEq]
    exact placed
  · rw [if_neg shown] at placed ⊢
    simp only [restrict, set, mk.injEq]
    exact placed

private theorem lookup_of_mem (entries : List (Key × Value))
    (distinct : (entries.map Prod.fst).Nodup) (member : (key, value) ∈ entries) :
    entries.lookup key = some value := by
  induction entries with
  | nil => simp at member
  | cons entry rest ih =>
    obtain ⟨head, old⟩ := entry
    obtain ⟨absent, distinctRest⟩ := List.nodup_cons.mp distinct
    rcases List.mem_cons.mp member with same | later
    · cases same
      simp
    · have different : key ≠ head := by
        rintro rfl
        exact absent (List.mem_map.mpr ⟨_, later, rfl⟩)
      rw [lookup_cons_if, if_neg different]
      exact ih distinctRest later

theorem mem_entries_iff (dict : Dict Key Value) (key : Key) (value : Value) :
    (key, value) ∈ dict.entries ↔ dict.get? key = some value := by
  constructor
  · exact lookup_of_mem dict.entries dict.nodup
  · intro found
    obtain ⟨before, after, same, _⟩ := List.lookup_eq_some_iff.mp found
    simp [same]

theorem mem_values_iff (dict : Dict Key Value) (value : Value) :
    value ∈ dict.values ↔ ∃ key, dict.get? key = some value := by
  simp only [values, List.mem_map, Prod.exists, exists_eq_right, mem_entries_iff]

/-- A search for a value that only the kept keys can have. -/
theorem find?_restrict (keep : Key → Bool) (dict : Dict Key Value) (test : Value → Bool)
    (kept : ∀ {key value}, dict.get? key = some value → test value → keep key) :
    (dict.restrict keep).values.find? test = dict.values.find? test := by
  have shown : ∀ entry ∈ dict.entries, test entry.2 → keep entry.1 := fun entry member =>
    kept ((mem_entries_iff _ _ _).mp member)
  simp only [values, restrict, List.find?_map, List.find?_filter]
  congr 1
  apply List.find?_congr
  intro entry member
  by_cases passes : test entry.2
  · simp [passes, shown entry member passes]
  · simp [passes]

/-- The kept values, where a value carries its own key. -/
theorem values_restrict (keep : Key → Bool) (dict : Dict Key Value) {identify : Value → Key}
    (keyed : ∀ {key value}, dict.get? key = some value → identify value = key) :
    (dict.restrict keep).values = dict.values.filter fun value => keep (identify value) := by
  simp only [values, restrict, List.filter_map]
  congr 1
  apply List.filter_congr
  intro entry member
  exact congrArg keep (keyed ((mem_entries_iff _ _ _).mp member)).symm

/-- Values that carry their own key are distinct. -/
theorem nodup_values (dict : Dict Key Value) {identify : Value → Key}
    (keyed : ∀ {key value}, dict.get? key = some value → identify value = key) :
    (dict.values.map identify).Nodup := by
  have keys : dict.values.map identify = dict.entries.map Prod.fst := by
    rw [values, List.map_map]
    apply List.map_congr_left
    intro entry member
    exact keyed ((mem_entries_iff _ _ _).mp member)
  rw [keys]
  exact dict.nodup

section Transport

variable {Name Content : Type} (name : Key → Name)
  (injective : Function.Injective name) (content : Value → Content)

/-- The same dictionary under other keys and with other values, in the same order. -/
def transport (dict : Dict Key Value) : Dict Name Content :=
  ⟨dict.entries.map fun entry => (name entry.1, content entry.2), by
    have keys := dict.nodup.map injective
    rwa [List.map_map] at keys ⊢⟩

omit [DecidableEq Key] in
theorem transport_values (dict : Dict Key Value) :
    (dict.transport name injective content).values = dict.values.map content := by
  simp [transport, values]

variable [DecidableEq Name]

private theorem lookup_transport (entries : List (Key × Value)) (key : Key)
    (injective : Function.Injective name) :
    (entries.map fun entry => (name entry.1, content entry.2)).lookup (name key) =
      (entries.lookup key).map content := by
  induction entries with
  | nil => rfl
  | cons entry rest ih =>
    obtain ⟨head, value⟩ := entry
    rw [List.map_cons, lookup_cons_if, lookup_cons_if, ih]
    by_cases same : key = head
    · simp [same]
    · simp [same, injective.ne same]

theorem transport_get? (dict : Dict Key Value) (key : Key) :
    (dict.transport name injective content).get? (name key) = (dict.get? key).map content :=
  lookup_transport name content dict.entries key injective

private theorem place_transport (entries : List (Key × Value)) (key : Key) (value : Value)
    (injective : Function.Injective name) :
    (place key value entries).map (fun entry => (name entry.1, content entry.2)) =
      place (name key) (content value)
        (entries.map fun entry => (name entry.1, content entry.2)) := by
  induction entries with
  | nil => rfl
  | cons entry rest ih =>
    obtain ⟨head, old⟩ := entry
    by_cases same : head = key
    · simp [place, same]
    · simp [place, same, injective.ne same, ih]

theorem transport_set (dict : Dict Key Value) (key : Key) (value : Value) :
    (dict.set key value).transport name injective content =
      (dict.transport name injective content).set (name key) (content value) := by
  simp only [transport, set, mk.injEq]
  exact place_transport name content dict.entries key value injective

end Transport

end Dict

end Library
