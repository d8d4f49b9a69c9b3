import Mathlib.Data.List.Sort
import Mathlib.Data.String.Basic
import DayuAgent.Json.Reader

namespace DayuAgent

namespace Json

mutual

/-- Equality of parsed values: the order of keys does not matter, the type and the printed
form of a number do. -/
def same : Json → Json → Bool
  | .null, .null => true
  | .bool value, .bool other => value == other
  | .int value, .int other => value == other
  | .float printed, .float other => printed == other
  | .str value, .str other => value == other
  | .arr items, .arr others => sameItems items others
  | .obj fields, .obj others => fields.length == others.length && sameFields fields others
  | _, _ => false

def sameItems : List Json → List Json → Bool
  | [], [] => true
  | item :: rest, other :: others => same item other && sameItems rest others
  | _, _ => false

/-- Every key has the same value in the other object. -/
def sameFields : List (String × Json) → List (String × Json) → Bool
  | [], _ => true
  | (key, value) :: rest, others =>
    (match others.lookup key with
      | some other => same value other
      | none => false) && sameFields rest others

end

/-- The order of `sorted(dct.items())`, whose keys are distinct. -/
def KeyOrder (field other : String × Json) : Prop := field.1 ≤ other.1

instance : DecidableRel KeyOrder := fun field other =>
  inferInstanceAs (Decidable (field.1 ≤ other.1))

instance : Std.Total KeyOrder := ⟨fun field other => le_total field.1 other.1⟩

instance : IsTrans _ KeyOrder := ⟨fun _ _ _ first second => le_trans first second⟩

mutual

/-- What `sort_keys=True` writes in place of a value. -/
def sortKeys : Json → Json
  | .arr items => .arr (sortItems items)
  | .obj fields => .obj ((sortFields fields).insertionSort KeyOrder)
  | json => json

def sortItems : List Json → List Json
  | [] => []
  | item :: rest => sortKeys item :: sortItems rest

def sortFields : List (String × Json) → List (String × Json)
  | [] => []
  | (key, value) :: rest => (key, sortKeys value) :: sortFields rest

end

theorem sortItems_eq (items : List Json) : sortItems items = items.map sortKeys := by
  induction items with
  | nil => rfl
  | cons item rest ih => rw [sortItems, ih, List.map_cons]

theorem sortFields_eq (fields : List (String × Json)) :
    sortFields fields = fields.map fun field => (field.1, sortKeys field.2) := by
  induction fields with
  | nil => rfl
  | cons field rest ih => rw [sortFields, ih, List.map_cons]

theorem keys_sortFields (fields : List (String × Json)) :
    (sortFields fields).map Prod.fst = fields.map Prod.fst := by
  simp [sortFields_eq]

theorem sameFields_iff {fields others : List (String × Json)} :
    sameFields fields others = true ↔
      ∀ field ∈ fields, ∃ other,
        others.lookup field.1 = some other ∧ field.2.same other = true := by
  induction fields with
  | nil => simp [sameFields]
  | cons field rest ih =>
    rw [sameFields, Bool.and_eq_true, ih, List.forall_mem_cons]
    cases others.lookup field.1 <;> simp

/-- Distinct keys leave one way to put the fields in order. -/
theorem insertionSort_eq_iff {fields others : List (String × Json)}
    (distinct : (fields.map Prod.fst).Nodup) :
    fields.insertionSort KeyOrder = others.insertionSort KeyOrder ↔ fields.Perm others := by
  constructor
  · intro equal
    calc
      fields.Perm (fields.insertionSort KeyOrder) := (List.perm_insertionSort _ _).symm
      _ = others.insertionSort KeyOrder := equal
      List.Perm _ others := List.perm_insertionSort _ _
  · intro perm
    have shuffled : (fields.insertionSort KeyOrder).Perm (others.insertionSort KeyOrder) :=
      (List.perm_insertionSort _ _).trans (perm.trans (List.perm_insertionSort _ _).symm)
    refine shuffled.eq_of_pairwise ?_ (List.pairwise_insertionSort _ _)
      (List.pairwise_insertionSort _ _)
    intro field other member there below above
    have own := (List.mem_insertionSort _).mp member
    have same := perm.mem_iff.mpr ((List.mem_insertionSort _).mp there)
    exact List.inj_on_of_nodup_map distinct own same (le_antisymm below above)

private theorem lookup_of_mem {fields : List (String × Json)}
    (distinct : (fields.map Prod.fst).Nodup)
    {key : String} {value : Json} (member : (key, value) ∈ fields) :
    fields.lookup key = some value := by
  induction fields with
  | nil => contradiction
  | cons field rest ih =>
    obtain ⟨absent, distinct⟩ := List.nodup_cons.mp distinct
    rcases List.mem_cons.mp member with rfl | later
    · exact List.lookup_cons_self
    · have other : key ≠ field.1 := by
        rintro rfl
        exact absent (List.mem_map.mpr ⟨_, later, rfl⟩)
      rw [List.lookup_cons, beq_eq_false_iff_ne.mpr other]
      exact ih distinct later

private theorem mem_of_lookup {fields : List (String × Json)} {key : String} {value : Json}
    (found : fields.lookup key = some value) : (key, value) ∈ fields := by
  obtain ⟨before, after, rfl, _⟩ := List.lookup_eq_some_iff.mp found
  simp

/-- Two values are the same exactly when `sort_keys` makes them equal. -/
theorem same_iff {json other : Json} (formed : json.wellFormed = true)
    (formed' : other.wellFormed = true) :
    json.same other = true ↔ json.sortKeys = other.sortKeys := by
  induction json generalizing other with
  | null => cases other <;> simp [same, sortKeys]
  | bool value => cases other <;> simp [same, sortKeys]
  | int value => cases other <;> simp [same, sortKeys]
  | float printed => cases other <;> simp [same, sortKeys]
  | str value => cases other <;> simp [same, sortKeys]
  | arr items ih =>
    cases other with
    | arr others =>
      rw [wellFormed, wellFormedItems_iff] at formed formed'
      rw [same, sortKeys, sortKeys, Json.arr.injEq]
      induction items generalizing others with
      | nil => cases others <;> simp [sameItems, sortItems]
      | cons item rest further =>
        cases others with
        | nil => simp [sameItems, sortItems]
        | cons other others =>
          obtain ⟨first, more⟩ := List.forall_mem_cons.mp formed
          obtain ⟨first', more'⟩ := List.forall_mem_cons.mp formed'
          obtain ⟨one, all⟩ := List.forall_mem_cons.mp ih
          simp only [sameItems, sortItems, Bool.and_eq_true, List.cons.injEq]
          rw [one first first', further all more _ more']
    | null | bool | int | float | str | obj => simp [same, sortKeys]
  | obj fields ih =>
    cases other with
    | obj others =>
      obtain ⟨distinct, formed⟩ := wellFormed_obj.mp formed
      obtain ⟨distinct', formed'⟩ := wellFormed_obj.mp formed'
      have keys : ((sortFields fields).map Prod.fst).Nodup := by rwa [keys_sortFields]
      rw [same, sortKeys, sortKeys, Json.obj.injEq, insertionSort_eq_iff keys, Bool.and_eq_true,
        beq_iff_eq, sameFields_iff, sortFields_eq, sortFields_eq]
      rw [sortFields_eq] at keys
      constructor
      · rintro ⟨length, found⟩
        apply (List.subperm_of_subset (keys.of_map _) ?_).perm_of_length_le (by simp [length])
        intro pair member
        obtain ⟨field, own, rfl⟩ := List.mem_map.mp member
        obtain ⟨other, there, alike⟩ := found field own
        have present := mem_of_lookup there
        rw [(ih field own (formed field own) (formed' _ present)).mp alike]
        exact List.mem_map.mpr ⟨_, present, rfl⟩
      · intro perm
        refine ⟨by simpa using perm.length_eq, ?_⟩
        intro field own
        obtain ⟨other, there, pair⟩ :=
          List.mem_map.mp (perm.subset (List.mem_map.mpr ⟨field, own, rfl⟩))
        obtain ⟨key, value⟩ := Prod.mk.injEq .. ▸ pair
        refine ⟨other.2, lookup_of_mem distinct' (key ▸ there), ?_⟩
        exact (ih field own (formed field own) (formed' other there)).mpr value.symm
    | null | bool | int | float | str | arr => simp [same, sortKeys]

private theorem wellFormed_sortKeys {json : Json} (formed : json.wellFormed = true) :
    json.sortKeys.wellFormed = true := by
  induction json with
  | null | bool | int | float | str => exact formed
  | arr items ih =>
    rw [wellFormed, wellFormedItems_iff] at formed
    rw [sortKeys, sortItems_eq, wellFormed, wellFormedItems_iff]
    intro sorted member
    obtain ⟨item, own, rfl⟩ := List.mem_map.mp member
    exact ih item own (formed item own)
  | obj fields ih =>
    obtain ⟨distinct, formed⟩ := wellFormed_obj.mp formed
    rw [sortKeys, wellFormed_obj]
    constructor
    · apply ((List.perm_insertionSort KeyOrder _).map Prod.fst).nodup_iff.mpr
      rwa [keys_sortFields]
    · intro sorted member
      rw [List.mem_insertionSort, sortFields_eq] at member
      obtain ⟨field, own, rfl⟩ := List.mem_map.mp member
      exact ih field own (formed field own)

private theorem encode_injective {json other : Json} (formed : json.wellFormed = true)
    (formed' : other.wellFormed = true) (equal : encode json = encode other) : json = other := by
  have first := loads_dumps formed
  rw [dumps, equal, ← dumps, loads_dumps formed'] at first
  exact (Option.some.inj first).symm

/-- `json.dumps` with `sort_keys=True`. -/
def dumpsSorted (json : Json) : String := json.sortKeys.dumps

theorem dumpsSorted_eq_iff {json other : Json} (formed : json.wellFormed = true)
    (formed' : other.wellFormed = true) :
    dumpsSorted json = dumpsSorted other ↔ json.same other = true := by
  rw [same_iff formed formed', dumpsSorted, dumpsSorted, dumps, dumps,
    String.ofList_inj]
  constructor
  · exact encode_injective (wellFormed_sortKeys formed) (wellFormed_sortKeys formed')
  · exact congrArg encode

end Json

end DayuAgent
