import DayuAgent.Library.Command

/-! Commands confined to one of several views of a state: they read nothing else and
change nothing else, so commands confined to different views commute. -/

namespace Library

variable {State Label Error Value Other : Type}

/-- From this state the command acts on its own view as on the whole state, and no other
view notices it. -/
structure Confined (view : Label → State → State) (own : Label)
    (command : Command State Error Value) (state : State) : Prop where
  inside : command (view own state) = ((command state).1, view own (command state).2)
  outside : other ≠ own → view other (command state).2 = view other state

namespace Confined

variable {view : Label → State → State} {own : Label} {state : State}

theorem done (value : Value) :
    Confined view own (pure value : Command State Error Value) state where
  inside := rfl
  outside _ := rfl

theorem raised (error : Error) :
    Confined view own (Command.raise error : Command State Error Value) state where
  inside := rfl
  outside _ := rfl

theorem lifted (result : Except Error Value) :
    Confined view own (Command.lift result : Command State Error Value) state where
  inside := rfl
  outside _ := rfl

theorem written {change : State → State}
    (within : view own (change state) = change (view own state))
    (elsewhere : ∀ other, other ≠ own → view other (change state) = view other state) :
    Confined view own (Command.write change : Command State Error Unit) state where
  inside := by rw [Command.write_apply, Command.write_apply, within]
  outside {other} different := elsewhere other different

/-- What follows a read may depend on it only as far as the view shows it. -/
theorem inspected {next : State → Command State Error Value}
    (shown : next (view own state) = next state) (confined : Confined view own (next state) state) :
    Confined view own (Command.read >>= next) state where
  inside := by
    rw [Command.bind_apply, Command.bind_apply, Command.read_apply, Command.read_apply]
    dsimp only
    rw [shown]
    exact confined.inside
  outside different := confined.outside different

theorem bind {command : Command State Error Value} {next : Value → Command State Error Other}
    (first : Confined view own command state)
    (second : ∀ value after, command state = (.ok value, after) →
      Confined view own (next value) after) :
    Confined view own (command >>= next) state := by
  have inside := first.inside
  cases ran : command state with
  | mk result after =>
    rw [ran] at inside
    cases result with
    | ok value =>
      have later := second value after ran
      constructor
      · rw [Command.bind_ok inside, Command.bind_ok ran]
        exact later.inside
      · intro other different
        have unseen := first.outside different
        rw [ran] at unseen
        rw [Command.bind_ok ran, later.outside different]
        exact unseen
    | error error =>
      constructor
      · rw [Command.bind_error inside, Command.bind_error ran]
      · intro other different
        have unseen := first.outside different
        rw [ran] at unseen
        rw [Command.bind_error ran]
        exact unseen

section Commuting

variable {first : Command State Error Value} {second : Command State Error Other} {one two : Label}

/-- A command answers and acts the same after a command confined elsewhere. -/
theorem undisturbed (different : one ≠ two) (early : Confined view one first state)
    (between : Confined view two second state)
    (late : Confined view one first (second state).2) :
    (first (second state).2).1 = (first state).1 ∧
      view one (first (second state).2).2 = view one (first state).2 := by
  have same := between.outside different
  have acts := late.inside
  rw [same, early.inside] at acts
  exact ⟨(Prod.ext_iff.mp acts).1.symm, (Prod.ext_iff.mp acts).2.symm⟩

/-- Commands confined to different views leave every view the same in either order. -/
theorem commute (different : one ≠ two) (early : Confined view one first state)
    (late : Confined view one first (second state).2) (between : Confined view two second state)
    (after : Confined view two second (first state).2) (label : Label) :
    view label (second (first state).2).2 = view label (first (second state).2).2 := by
  by_cases left : label = one
  · subst left
    rw [after.outside different, (undisturbed different early between late).2]
  · by_cases right : label = two
    · subst right
      rw [late.outside different.symm, (undisturbed different.symm between early after).2]
    · rw [after.outside right, early.outside left, late.outside left, between.outside right]

end Commuting

end Confined

end Library
