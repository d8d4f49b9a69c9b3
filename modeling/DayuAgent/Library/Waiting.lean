import Mathlib.Data.Fintype.Card
import Mathlib.Data.Fintype.EquivFin
import Mathlib.Data.Fintype.Sets
import Mathlib.Logic.Relation

namespace Library

/-- What each party waits for, and who holds each resource. -/
structure Waiting (Party Resource : Type) where
  wanted : Party → Option Resource
  holder : Resource → Option Party

namespace Waiting

variable {Party Resource : Type} {waiting : Waiting Party Resource}

def WaitsFor (waiting : Waiting Party Resource) (one two : Party) : Prop :=
  ∃ resource, waiting.wanted one = some resource ∧ waiting.holder resource = some two

/-- The party waits, through others, for itself. -/
def Ring (waiting : Waiting Party Resource) (party : Party) : Prop :=
  Relation.TransGen waiting.WaitsFor party party

theorem Ring.next (ring : waiting.Ring one) : ∃ two, waiting.WaitsFor one two ∧
    waiting.Ring two := by
  obtain ⟨two, waits, rest⟩ := Relation.TransGen.head'_iff.mp ring
  exact ⟨two, waits, .tail' rest waits⟩

theorem Ring.holds (ring : waiting.Ring party) :
    ∃ resource, waiting.holder resource = some party := by
  obtain ⟨_, _, resource, _, held⟩ := Relation.TransGen.tail'_iff.mp ring
  exact ⟨resource, held⟩

/-- No party waits for a resource of a kind that it holds already. -/
def Apart (waiting : Waiting Party Resource) (kind : Resource → Bool) : Prop :=
  ∀ party wanted held, waiting.wanted party = some wanted →
    waiting.holder held = some party → kind wanted ≠ kind held

variable {kind : Resource → Bool}

/-- A member of a ring that waits for one kind holds the other kind, and the holder it
waits for waits for that other kind. -/
theorem Ring.alternates (ring : waiting.Ring one) (apart : waiting.Apart kind)
    (wants : waiting.wanted one = some resource) :
    (∃ held, waiting.holder held = some one ∧ kind held = !kind resource) ∧
    ∃ two other, waiting.holder resource = some two ∧ waiting.Ring two ∧
      waiting.wanted two = some other ∧ kind other = !kind resource := by
  constructor
  · obtain ⟨held, holds⟩ := ring.holds
    have different := apart one resource held wants holds
    exact ⟨held, holds, Bool.eq_not.mpr different.symm⟩
  · obtain ⟨two, ⟨same, wantsSame, held⟩, ringTwo⟩ := ring.next
    rw [wants] at wantsSame
    cases wantsSame
    obtain ⟨_, ⟨other, wantsOther, _⟩, _⟩ := ringTwo.next
    exact ⟨two, other, held, ringTwo, wantsOther,
      Bool.eq_not.mpr (apart two other resource wantsOther held)⟩

/-- Every ring has a member that waits for the chosen kind. -/
theorem Ring.wanting (ring : waiting.Ring party) (apart : waiting.Apart kind) (chosen : Bool) :
    ∃ one resource, waiting.Ring one ∧ waiting.wanted one = some resource ∧
      kind resource = chosen := by
  obtain ⟨_, ⟨resource, wants, _⟩, _⟩ := ring.next
  by_cases same : kind resource = chosen
  · exact ⟨party, resource, ring, wants, same⟩
  · obtain ⟨_, two, other, _, ringTwo, wantsOther, kindOther⟩ := ring.alternates apart wants
    refine ⟨two, other, ringTwo, wantsOther, ?_⟩
    rw [kindOther]
    exact (Bool.eq_not.mpr (Ne.symm same)).symm

end Waiting

/-- When nobody waits in a ring and only finitely many parties are waited for, everybody
waits, through others, for a party that waits for nobody. -/
theorem waiting_ends {Party : Type} {waits : Party → Party → Prop} {parties : Finset Party}
    (within : ∀ one two, waits one two → two ∈ parties)
    (acyclic : ∀ party, ¬ Relation.TransGen waits party party) (party : Party) :
    ∃ last, Relation.ReflTransGen waits party last ∧ ∀ next, ¬ waits last next := by
  let below (two one : { party // party ∈ parties }) : Prop :=
    Relation.TransGen waits one.val two.val
  have transitive : IsTrans _ below := ⟨fun _ _ _ first second => second.trans first⟩
  have irreflexive : Std.Irrefl below := ⟨fun one => acyclic one.val⟩
  have wellFounded : WellFounded below := Finite.wellFounded_of_trans_of_irrefl below
  have ends (one : { party // party ∈ parties }) :
      ∃ last, Relation.ReflTransGen waits one.val last ∧ ∀ next, ¬ waits last next := by
    induction one using wellFounded.induction with
    | _ one ih =>
      by_cases idle : ∀ next, ¬ waits one.val next
      · exact ⟨one.val, .refl, idle⟩
      · simp only [not_forall, not_not] at idle
        obtain ⟨two, waiting⟩ := idle
        obtain ⟨last, chain, free⟩ := ih ⟨two, within _ _ waiting⟩ (.single waiting)
        exact ⟨last, .head waiting chain, free⟩
  by_cases idle : ∀ next, ¬ waits party next
  · exact ⟨party, .refl, idle⟩
  · simp only [not_forall, not_not] at idle
    obtain ⟨two, waiting⟩ := idle
    obtain ⟨last, chain, free⟩ := ends ⟨two, within _ _ waiting⟩
    exact ⟨last, .head waiting chain, free⟩

end Library
