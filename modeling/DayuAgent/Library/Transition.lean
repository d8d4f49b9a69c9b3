import Mathlib.Logic.Hydra
import Mathlib.Logic.Relation

namespace Library

variable {State Label : Type}

/-- A finite run with its labels in the order in which they were taken. -/
inductive Run (step : State → Label → State → Prop) : State → List Label → State → Prop where
  | nil : Run step start [] start
  | snoc (earlier : Run step start labels middle) (last : step middle label final) :
      Run step start (labels ++ [label]) final

namespace Run

variable {step : State → Label → State → Prop}

theorem single (taken : step start label final) : Run step start [label] final :=
  .snoc .nil taken

theorem append (first : Run step start labels middle) (second : Run step middle later final) :
    Run step start (labels ++ later) final := by
  induction second with
  | nil => simpa using first
  | snoc earlier last ih => simpa only [← List.append_assoc] using Run.snoc ih last

theorem cons (first : step start label middle) (rest : Run step middle labels final) :
    Run step start (label :: labels) final := (single first).append rest

theorem split {before after : List Label} (run : Run step start (before ++ after) final) :
    ∃ middle, Run step start before middle ∧ Run step middle after final := by
  generalize same : before ++ after = labels at run
  induction run generalizing after with
  | nil =>
    obtain ⟨rfl, rfl⟩ := List.append_eq_nil_iff.mp same
    exact ⟨start, .nil, .nil⟩
  | @snoc labels middle label final earlier last ih =>
    rcases List.eq_nil_or_concat after with rfl | ⟨rest, ending, rfl⟩
    · simp only [List.append_nil] at same
      subst same
      exact ⟨final, .snoc earlier last, .nil⟩
    · rw [List.concat_eq_append, ← List.append_assoc] at same
      obtain ⟨sameLabels, sameLast⟩ := List.append_inj' same rfl
      obtain ⟨reached, first, second⟩ := ih sameLabels
      have ends : ending = label := by simpa using sameLast
      subst ends
      exact ⟨reached, first, by simpa using second.snoc last⟩

theorem of_nil (run : Run step start [] final) : start = final := by
  generalize none : ([] : List Label) = labels at run
  cases run with
  | nil => rfl
  | snoc => simp at none

theorem of_single (run : Run step start [label] final) : step start label final := by
  generalize one : [label] = labels at run
  cases run with
  | nil => simp at one
  | snoc earlier last =>
    obtain ⟨none, same⟩ := List.append_inj' (show [] ++ [label] = _ ++ [_] from one) rfl
    subst none
    cases same
    obtain rfl := earlier.of_nil
    exact last

/-- A run through one chosen label passes the two states around that step. -/
theorem around {before after : List Label} {label : Label}
    (run : Run step start (before ++ label :: after) final) :
    ∃ earlier later, Run step start before earlier ∧ step earlier label later ∧
      Run step later after final := by
  rw [List.append_cons] at run
  obtain ⟨later, first, second⟩ := run.split
  obtain ⟨earlier, reached, last⟩ := first.split
  exact ⟨earlier, later, reached, last.of_single, second⟩

theorem invariant {Holds : State → Prop} (run : Run step start labels final)
    (initially : Holds start)
    (preserved : ∀ {before label after}, Holds before → step before label after → Holds after) :
    Holds final := by
  induction run with
  | nil => exact initially
  | snoc earlier last ih => exact preserved ih last

/-- A reflexive and transitive comparison respected by every step from a state
that satisfies an invariant relates the two ends of every run. -/
theorem compares {Holds : State → Prop} (Below : State → State → Prop)
    (run : Run step start labels final) (initially : Holds start)
    (preserved : ∀ {before label after}, Holds before → step before label after → Holds after)
    (refl : ∀ state, Below state state)
    (trans : ∀ {first second third}, Below first second → Below second third → Below first third)
    (respected : ∀ {before label after}, Holds before → step before label after →
      Below before after) : Below start final := by
  induction run with
  | nil => exact refl _
  | snoc earlier last ih =>
    exact trans ih (respected (earlier.invariant initially preserved) last)

theorem mono {wider : State → Label → State → Prop}
    (included : ∀ {before label after}, step before label after → wider before label after)
    (run : Run step start labels final) : Run wider start labels final := by
  induction run with
  | nil => exact .nil
  | snoc earlier last ih => exact .snoc ih (included last)

/-- Steps that are steps of another system, under other labels. -/
theorem relabel {Other : Type} {wider : State → Other → State → Prop}
    (run : Run step start labels final)
    (included : ∀ {before label after}, step before label after →
      ∃ other, wider before other after) : ∃ others, Run wider start others final := by
  induction run with
  | nil => exact ⟨[], .nil⟩
  | snoc earlier last ih =>
    obtain ⟨others, before⟩ := ih
    obtain ⟨other, taken⟩ := included last
    exact ⟨_, before.snoc taken⟩

/-- The run with these labels passes a state on its way. -/
def Passes (step : State → Label → State → Prop) (start : State) (labels : List Label)
    (past final : State) : Prop :=
  ∃ earlier later, labels = earlier ++ later ∧ Run step start earlier past ∧
    Run step past later final

theorem passes_final (run : Run step start labels final) : Passes step start labels final final :=
  ⟨labels, [], (List.append_nil _).symm, run, .nil⟩

theorem passes_start (run : Run step start labels final) : Passes step start labels start final :=
  ⟨[], labels, rfl, .nil, run⟩

theorem Passes.append (passes : Passes step start labels past middle)
    (run : Run step middle more final) : Passes step start (labels ++ more) past final := by
  obtain ⟨earlier, later, rfl, before, after⟩ := passes
  exact ⟨earlier, later ++ more, List.append_assoc _ _ _, before, after.append run⟩

end Run

/-- What the labels of a run make elsewhere, one after the other. -/
inductive Produces {Effect : Type} (makes : Label → List Effect → Prop) :
    List Label → List Effect → Prop where
  | nil : Produces makes [] []
  | snoc (earlier : Produces makes labels effects) (last : makes label more) :
      Produces makes (labels ++ [label]) (effects ++ more)

/-- A system that is followed step by step refines the one that follows it. -/
theorem Run.simulated {Other : Type} {step : State → Label → State → Prop}
    {follows : Other → Label → Other → Prop} {related : State → Other → Prop}
    {start final : State} {labels : List Label} {origin : Other}
    (simulates : ∀ {before other label after}, related before other → step before label after →
      ∃ next, follows other label next ∧ related after next)
    (run : Run step start labels final) (initially : related start origin) :
    ∃ reached, Run follows origin labels reached ∧ related final reached := by
  induction run with
  | nil => exact ⟨origin, .nil, initially⟩
  | snoc earlier last ih =>
    obtain ⟨middle, before, between⟩ := ih
    obtain ⟨next, taken, after⟩ := simulates between last
    exact ⟨next, before.snoc taken, after⟩

/-- A run whose steps are runs of smaller steps is such a run. -/
theorem Run.flattened {Effect : Type} {follows : State → Label → State → Prop}
    {fine : State → Effect → State → Prop} {makes : Label → List Effect → Prop}
    {start final : State} {labels : List Label}
    (refines : ∀ {before label after}, follows before label after →
      ∃ effects, Run fine before effects after ∧ makes label effects)
    (run : Run follows start labels final) :
    ∃ effects, Run fine start effects final ∧ Produces makes labels effects := by
  induction run with
  | nil => exact ⟨[], .nil, .nil⟩
  | snoc earlier last ih =>
    obtain ⟨effects, before, produces⟩ := ih
    obtain ⟨more, taken, made⟩ := refines last
    exact ⟨effects ++ more, before.append taken, produces.snoc made⟩

namespace Produces

variable {Effect : Type} {makes : Label → List Effect → Prop} {labels : List Label}
  {effects : List Effect}

/-- A label that must make the effect has made it. -/
theorem made (produces : Produces makes labels effects) (member : label ∈ labels)
    (certain : ∀ more, makes label more → effect ∈ more) : effect ∈ effects := by
  induction produces with
  | nil => cases member
  | @snoc _ _ _ more earlier last ih =>
    rcases List.mem_append.mp member with old | new
    · exact List.mem_append_left _ (ih old)
    · rw [← List.mem_singleton.mp new] at last
      exact List.mem_append_right _ (certain _ last)

/-- The label behind an effect, with the labels on both sides of it. -/
theorem origin (produces : Produces makes labels (earlier ++ effect :: later)) :
    ∃ before label after front back first second, labels = before ++ label :: after ∧
      makes label (front ++ effect :: back) ∧ Produces makes before first ∧
      Produces makes after second ∧ earlier = first ++ front ∧ later = back ++ second := by
  generalize same : earlier ++ effect :: later = effects at produces
  induction produces generalizing later with
  | nil => simp at same
  | @snoc labels effects label more produces made ih =>
    have found : (∃ front, earlier = effects ++ front ∧ more = front ++ effect :: later) ∨
        ∃ rest, effects = earlier ++ effect :: rest ∧ later = rest ++ more := by
      rcases List.append_eq_append_iff.mp same with ⟨rest, first, own⟩ | ⟨rest, first, own⟩
      · cases rest with
        | nil => exact .inl ⟨[], by simpa using first.symm, by simpa using own.symm⟩
        | cons head rest =>
          cases own
          exact .inr ⟨rest, first, rfl⟩
      · exact .inl ⟨rest, first, own⟩
    rcases found with ⟨front, first, rfl⟩ | ⟨rest, first, rfl⟩
    · exact ⟨labels, label, [], front, later, effects, [], rfl, made, produces, .nil, first,
        (List.append_nil _).symm⟩
    · obtain ⟨before, inner, after, front, back, left, right, rfl, makes, past, next, one, two⟩ :=
        ih first.symm
      refine ⟨before, inner, after ++ [label], front, back, left, right ++ more, by simp, makes,
        past, next.snoc made, one, ?_⟩
      rw [two, List.append_assoc]

end Produces

/-- A deterministic system has one run for each schedule. -/
theorem Run.deterministic {next : State → Label → Option State} {labels : List Label}
    (first : Run (fun before label after => next before label = some after) start labels one)
    (second : Run (fun before label after => next before label = some after) start labels two) :
    one = two := by
  induction first generalizing two with
  | nil => exact second.of_nil
  | snoc earlier last ih =>
    obtain ⟨middle, before, taken⟩ := second.split
    obtain rfl := ih before
    exact Option.some.inj (last.symm.trans taken.of_single)

/-- When every step moves one party down a well-founded order and leaves the others alone,
finitely many parties cannot go on for ever. -/
theorem Run.bounded {Party Local : Type} {next : State → Party → Option State}
    {part : State → Party → Local} {below : Local → Local → Prop} (wellFounded : WellFounded below)
    (descends : ∀ {before party after}, next before party = some after →
      below (part after party) (part before party) ∧
        ∀ other, other ≠ party → part after other = part before other)
    (parties : Finset Party) (start : State) :
    ∃ bound, ∀ labels final,
      Run (fun before party after => next before party = some after) start labels final →
        (∀ party ∈ labels, party ∈ parties) → labels.length ≤ bound := by
  let parts (state : State) : Multiset Local := parties.val.map (part state)
  have lower {before after : State} {party : Party} (taken : next before party = some after)
      (member : party ∈ parties) : Relation.CutExpand below (parts after) (parts before) := by
    obtain ⟨rest, whole⟩ := Multiset.exists_cons_of_mem (Finset.mem_val.mpr member)
    have alone : party ∉ rest := by
      have distinct := parties.nodup
      rw [whole] at distinct
      exact (Multiset.nodup_cons.mp distinct).1
    obtain ⟨moved, still⟩ := descends taken
    have same : rest.map (part after) = rest.map (part before) := by
      refine Multiset.map_congr rfl fun other among => still other ?_
      exact ne_of_mem_of_not_mem among alone
    refine ⟨{part after party}, part before party, by simpa using moved, ?_⟩
    simp only [parts, whole, Multiset.map_cons, same]
    rw [add_comm, Multiset.singleton_add, add_comm, Multiset.singleton_add, Multiset.cons_swap]
  have terminates := InvImage.wf parts wellFounded.cutExpand
  induction start using terminates.induction with
  | _ start ih =>
    have later : ∀ party : Party, ∃ bound, party ∈ parties → ∀ after,
        next start party = some after → ∀ labels final,
          Run (fun before party after => next before party = some after) after labels final →
            (∀ party ∈ labels, party ∈ parties) → labels.length ≤ bound := by
      intro party
      by_cases enabled : party ∈ parties ∧ ∃ after, next start party = some after
      · obtain ⟨member, after, taken⟩ := enabled
        obtain ⟨bound, bounded⟩ := ih after (lower taken member)
        refine ⟨bound, fun _ other again => ?_⟩
        rw [taken] at again
        cases again
        exact bounded
      · refine ⟨0, fun member after taken => ?_⟩
        exact (enabled ⟨member, after, taken⟩).elim
    choose bound bounded using later
    refine ⟨parties.sup bound + 1, fun labels final run members => ?_⟩
    cases labels with
    | nil => exact Nat.zero_le _
    | cons party rest =>
      rw [← List.singleton_append] at run
      obtain ⟨middle, first, others⟩ := run.split
      obtain ⟨member, among⟩ := List.forall_mem_cons.mp members
      have short := bounded party member middle first.of_single rest final others among
      have least : bound party ≤ parties.sup bound := Finset.le_sup member
      simp only [List.length_cons]
      omega

/-- Follow a schedule of a deterministic system, failing at the first label that
is not enabled. -/
def follow (next : State → Label → Option State) (start : State) : List Label → Option State
  | [] => some start
  | label :: rest => (next start label).bind fun middle => follow next middle rest

theorem follow_run {next : State → Label → Option State} {labels : List Label}
    (reached : follow next start labels = some final) :
    Run (fun before label after => next before label = some after) start labels final := by
  induction labels generalizing start with
  | nil =>
    cases reached
    exact .nil
  | cons label rest ih =>
    obtain ⟨middle, taken, remaining⟩ := Option.bind_eq_some_iff.mp reached
    exact .cons taken (ih remaining)

/-- A test that succeeds at the end of a schedule holds of a state that a run reaches. -/
theorem follow_reaches {next : State → Label → Option State} {labels : List Label}
    {check : State → Prop} [DecidablePred check]
    (passed : (follow next start labels).any (fun final => check final) = true) :
    ∃ final, Run (fun before label after => next before label = some after) start labels final ∧
      check final := by
  cases reached : follow next start labels with
  | none => simp [reached] at passed
  | some final => exact ⟨final, follow_run reached, by simpa [reached] using passed⟩

/-- The steps of a deterministic system that a test of both their ends admits. -/
def admitted (next : State → Label → Option State) (allowed : State → Label → State → Prop)
    [∀ before label after, Decidable (allowed before label after)] (before : State)
    (label : Label) : Option State :=
  (next before label).bind fun after => if allowed before label after then some after else none

theorem admitted_some {next : State → Label → Option State}
    {allowed : State → Label → State → Prop}
    [∀ before label after, Decidable (allowed before label after)]
    (taken : admitted next allowed before label = some after) :
    next before label = some after ∧ allowed before label after := by
  obtain ⟨reached, moved, tested⟩ := Option.bind_eq_some_iff.mp taken
  split at tested
  · next passes =>
    cases tested
    exact ⟨moved, passes⟩
  · contradiction

section Components

variable {Name Shared Local : Type} [DecidableEq Name]

/-- In one step the surroundings change the shared state, or one component changes it
together with its own state. -/
inductive Interleaves (outside : Shared → Shared → Prop)
    (acts : Name → Shared → Local → Shared → Local → Prop) (shared : Shared)
    (locals : Name → Local) : Shared → (Name → Local) → Prop where
  | outside (change : outside shared after) : Interleaves outside acts shared locals after locals
  | acts (name : Name) (acted : acts name shared (locals name) after changed) :
      Interleaves outside acts shared locals after (Function.update locals name changed)

namespace Interleaves

variable {outside : Shared → Shared → Prop} {shared after : Shared}
variable {acts : Name → Shared → Local → Shared → Local → Prop} {locals later : Name → Local}

/-- One component acts, or it stays as it is while the others act. -/
theorem focus (step : Interleaves outside acts shared locals after later) (name : Name) :
    acts name shared (locals name) after (later name) ∨
      later name = locals name ∧
        (outside shared after ∨ ∃ other changed, other ≠ name ∧
          acts other shared (locals other) after changed) := by
  cases step with
  | outside change => exact .inr ⟨rfl, .inl change⟩
  | acts actor acted =>
    by_cases same : actor = name
    · subst same
      left
      rw [Function.update_self]
      exact acted
    · right
      rw [Function.update_of_ne (Ne.symm same)]
      exact ⟨rfl, .inr ⟨actor, _, same, acted⟩⟩

end Interleaves

end Components

end Library
