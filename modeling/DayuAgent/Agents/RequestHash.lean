import DayuAgent.Agents.Supervisor
import DayuAgent.Json.Order

namespace DayuAgent

namespace Supervisor

/-- The semantics of a request, as `request_hash` prints them. -/
def canonical (message : String) (sessionId userId : Option String) (metadata : JsonObject) :
    Json :=
  .obj [("message", .str message), ("metadata", .obj metadata),
    ("session_id", .ofOption .str sessionId), ("user_id", .ofOption .str userId)]

/-- `hexdigest`: two lower-case digits for each byte. -/
def hexdigest (digest : List UInt8) : String :=
  .ofList (digest.flatMap fun byte =>
    [Nat.digitChar (byte.toNat / 16), Nat.digitChar (byte.toNat % 16)])

def requestHash (sha256 : ByteArray → List UInt8) (message : String)
    (sessionId userId : Option String) (metadata : JsonObject) : String :=
  hexdigest (sha256 (canonical message sessionId userId metadata).dumpsSorted.toUTF8)

private theorem hexdigest_injective : Function.Injective hexdigest := by
  have digit : ∀ value < 16, ∀ other < 16, Nat.digitChar value = Nat.digitChar other →
      value = other := by decide
  intro digest other equal
  rw [hexdigest, hexdigest, String.ofList_inj] at equal
  induction digest generalizing other with
  | nil =>
    cases other with
    | nil => rfl
    | cons byte rest => simp at equal
  | cons byte rest ih =>
    cases other with
    | nil => simp at equal
    | cons first others =>
      simp only [List.flatMap_cons, List.cons_append, List.nil_append, List.cons.injEq] at equal
      obtain ⟨high, low, more⟩ := equal
      have bound := byte.toNat_lt
      have bound' := first.toNat_lt
      have highs := digit _ (by omega) _ (by omega) high
      have lows := digit _ (by omega) _ (by omega) low
      have same : byte = first := UInt8.toNat_inj.mp (by omega)
      rw [same, ih more]

private theorem ofOption_same {value other : Option String} :
    (Json.ofOption .str value).same (.ofOption .str other) = true ↔ value = other := by
  cases value <;> cases other <;> simp [Json.ofOption, Json.same]

section Canonical

variable {message message' : String} {sessionId sessionId' userId userId' : Option String}
variable {metadata metadata' : JsonObject}

private theorem wellFormed_canonical (formed : (Json.obj metadata).wellFormed = true) :
    (canonical message sessionId userId metadata).wellFormed = true := by
  have option (value : Option String) : (Json.ofOption .str value).wellFormed = true := by
    cases value <;> rfl
  rw [canonical, Json.wellFormed_obj]
  constructor
  · change ["message", "metadata", "session_id", "user_id"].Nodup
    decide
  · simp only [List.forall_mem_cons]
    exact ⟨rfl, formed, option sessionId, option userId, by simp⟩

private theorem canonical_same : (canonical message sessionId userId metadata).same
      (canonical message' sessionId' userId' metadata') = true ↔
    message = message' ∧ sessionId = sessionId' ∧ userId = userId' ∧
      (Json.obj metadata).same (.obj metadata') = true := by
  rw [canonical, canonical, Json.same, Bool.and_eq_true, Json.sameFields_iff]
  have text : (Json.str message).same (.str message') = true ↔ message = message' := by
    simp [Json.same]
  simp only [List.length_cons, List.length_nil, BEq.rfl, List.mem_cons, List.not_mem_nil,
    or_false, List.lookup_cons, forall_eq_or_imp, forall_eq, Option.some.injEq,
    exists_eq_left', String.reduceBEq, true_and, text, ofOption_same]
  constructor
  · rintro ⟨content, fields, session, user⟩
    exact ⟨content, session, user, fields⟩
  · rintro ⟨content, session, user, fields⟩
    exact ⟨content, fields, session, user⟩

/-- Two requests have one hash exactly when they say the same. -/
theorem requestHash_eq_iff {sha256 : ByteArray → List UInt8}
    (injective : Function.Injective sha256) (formed : (Json.obj metadata).wellFormed = true)
    (formed' : (Json.obj metadata').wellFormed = true) :
    requestHash sha256 message sessionId userId metadata =
        requestHash sha256 message' sessionId' userId' metadata' ↔
      message = message' ∧ sessionId = sessionId' ∧ userId = userId' ∧
        (Json.obj metadata).same (.obj metadata') = true := by
  rw [← canonical_same, ← Json.dumpsSorted_eq_iff (wellFormed_canonical formed)
    (wellFormed_canonical formed'), requestHash, requestHash, hexdigest_injective.eq_iff,
    injective.eq_iff, String.toUTF8_eq_toByteArray, String.toUTF8_eq_toByteArray,
    String.toByteArray_inj]

end Canonical

/-- The order of keys does not tell two requests apart; an integer and a float do. -/
theorem requestHash_eq_iff_sample :
    requestHash (fun bytes => bytes.data.toList) "level?" none (some "null")
        [("unit", .obj [("system", .null), ("name", .str "m")]), ("digits", .int 1)] =
      requestHash (fun bytes => bytes.data.toList) "level?" none (some "null")
        [("digits", .int 1), ("unit", .obj [("name", .str "m"), ("system", .null)])] ∧
    requestHash (fun bytes => bytes.data.toList) "level?" none none [("digits", .int 1)] ≠
      requestHash (fun bytes => bytes.data.toList) "level?" none none
        [("digits", .float "1.0")] := by
  have injective : Function.Injective fun bytes : ByteArray => bytes.data.toList := by
    intro bytes other equal
    exact ByteArray.ext (Array.toList_inj.mp equal)
  constructor
  · exact (requestHash_eq_iff injective (by decide) (by decide)).mpr ⟨rfl, rfl, rfl, by decide⟩
  · intro equal
    have same := (requestHash_eq_iff injective (by decide) (by decide +kernel)).mp equal
    exact absurd same.2.2.2 (by decide)

end Supervisor

end DayuAgent
