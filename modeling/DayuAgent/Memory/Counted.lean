import DayuAgent.Memory.RunLog

namespace DayuAgent

open Library InMemorySessionStore

structure Counted (run : AgentRun) (log : List StreamEvent) : Prop where
  whole : run.Active → log.map (·.sequence) = List.range' 1 log.length
  ascending : log.Pairwise fun first second => first.sequence < second.sequence

/-- The next event of an active run, whatever becomes of the run. -/
theorem Counted.append (counted : Counted run log) (active : run.Active) (updated : AgentRun) :
    Counted updated (log ++ [nextEvent log ref type payload eventId now]) := by
  have numbered := SoundLog.numbered_snoc (counted.whole active)
    (show (nextEvent log ref type payload eventId now).sequence = log.length + 1 from rfl)
  exact ⟨fun _ => numbered, numbered_ordered numbered⟩

theorem counted_narrates : Narrates (fun _ => False) Counted where
  reserved _ _ _ := ⟨fun _ => rfl, .nil⟩
  attempted counted _ := ⟨counted.whole, counted.ascending⟩
  emitted _ none := none.elim
  moved counted move := counted.append move.active _
  committed _ _ counted running :=
    counted.append (by simp [AgentRun.Active, running, activeRunStatuses]) _

theorem Edit.counted (edit : Edit store effect after) (coherent : Coherent store)
    (prompt : ∀ ref event run, effect = .emitted ref event → store.runs.get? ref = some run →
      run.Active) (logged : Logged Counted store) : Logged Counted after := by
  by_cases emits : effect.Emits fun _ => False
  · exact edit.logged coherent counted_narrates emits logged
  · cases edit with
    | @emit run log found read =>
      refine logged.replace run.id ?_ found (Dict.get?_set_self _ _ _)
        ((logged.agrees found read).append (prompt _ _ run rfl found) run)
      intro ref different
      exact ⟨rfl, Dict.get?_set_ne _ _ different⟩
    | @prune run log found terminal read before =>
      refine logged.replace run.id ?_ found (Dict.get?_set_self _ _ _) ⟨?_, ?_⟩
      · intro ref different
        exact ⟨rfl, Dict.get?_set_ne _ _ different⟩
      · exact fun active => ((not_active_iff_terminal _).mpr terminal active).elim
      · exact (logged.agrees found read).ascending.sublist List.filter_sublist
    | _ => exact (emits trivial).elim

namespace InMemorySessionStore

/-- An append finds no terminal run. -/
def Prompt (store : InMemorySessionStore) (operation : Operation) : Prop :=
  ∀ ref ∈ operation.appendsTo, ∀ run ∈ store.runs.get? ref, ¬ run.Terminal

instance (store : InMemorySessionStore) (operation : Operation) :
    Decidable (Prompt store operation) :=
  inferInstanceAs (Decidable (∀ ref ∈ operation.appendsTo, ∀ run ∈ store.runs.get? ref,
    ¬ run.Terminal))

/-- Every append of a script finds no terminal run. -/
def PromptScript (store : InMemorySessionStore) : List (Ambient × Operation) → Prop
  | [] => True
  | (ambient, operation) :: rest =>
    Prompt store operation ∧ PromptScript (operation.perform ambient store).2 rest

instance decidePromptScript (store : InMemorySessionStore) :
    (script : List (Ambient × Operation)) → Decidable (PromptScript store script)
  | [] => inferInstanceAs (Decidable True)
  | (ambient, operation) :: rest =>
    have := decidePromptScript (operation.perform ambient store).2 rest
    inferInstanceAs (Decidable (_ ∧ _))

private theorem pruned_counted (edits : Run Edit store effects after)
    (each : ∀ effect ∈ effects, ∃ ref, effect = .pruned ref before) (coherent : Coherent store)
    (logged : Logged Counted store) : Coherent after ∧ Logged Counted after := by
  induction edits with
  | nil => exact ⟨coherent, logged⟩
  | snoc earlier edit ih =>
    obtain ⟨kept, between⟩ := ih fun effect member => each effect (List.mem_append_left _ member)
    obtain ⟨ref, pruned⟩ := each _ (List.mem_append_right _ (List.mem_singleton_self _))
    subst pruned
    exact ⟨edit.coherent kept, edit.counted kept (by simp) between⟩

theorem Answers.counted (answers : Answers store call after) (coherent : Coherent store)
    (prompt : Prompt store call.operation) (logged : Logged Counted store) :
    Logged Counted after := by
  obtain ⟨effects, edits, makes⟩ := answers.refines coherent
  rcases makes_kinds makes with quiet | ⟨own, type, payload, event, same, typed, rfl⟩ |
    ⟨before, same, each⟩
  · exact edits_logged edits coherent counted_narrates quiet logged
  · refine edits.of_single.counted coherent ?_ logged
    rintro _ _ run ⟨⟩ found
    refine (active_or_terminal run.status).resolve_right ?_
    exact prompt own (by rw [same]; rfl) run found
  · exact (pruned_counted edits each coherent logged).2

end InMemorySessionStore

end DayuAgent
