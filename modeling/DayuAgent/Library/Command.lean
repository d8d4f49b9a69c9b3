import Mathlib.Logic.Function.Basic

/-! Commands over a mutable state that may raise. A raised error keeps every
mutation made before it, unlike a transaction that rolls back. -/

namespace Library

def Command (State Error Value : Type) := State → Except Error Value × State

namespace Command

variable {State Error Value Other : Type}

instance : Monad (Command State Error) where
  pure value := fun state => (.ok value, state)
  bind command next := fun state =>
    match command state with
    | (.ok value, after) => next value after
    | (.error error, after) => (.error error, after)

def raise (error : Error) : Command State Error Value := fun state => (.error error, state)

def read : Command State Error State := fun state => (.ok state, state)

def write (change : State → State) : Command State Error Unit := fun state => (.ok (), change state)

/-- Embed a computation that reads and changes no state. -/
def lift (result : Except Error Value) : Command State Error Value := fun state => (result, state)

@[simp] theorem pure_apply (value : Value) (state : State) :
    (pure value : Command State Error Value) state = (.ok value, state) := rfl

@[simp] theorem raise_apply (error : Error) (state : State) :
    (raise error : Command State Error Value) state = (.error error, state) := rfl

@[simp] theorem read_apply (state : State) :
    (read : Command State Error State) state = (.ok state, state) := rfl

@[simp] theorem write_apply (change : State → State) (state : State) :
    (write change : Command State Error Unit) state = (.ok (), change state) := rfl

@[simp] theorem lift_apply (result : Except Error Value) (state : State) :
    (lift result : Command State Error Value) state = (result, state) := rfl

theorem bind_apply (command : Command State Error Value) (next : Value → Command State Error Other)
    (state : State) : (command >>= next) state =
      match command state with
      | (.ok value, after) => next value after
      | (.error error, after) => (.error error, after) := rfl

/-- A command that succeeds hands its value and its state to the next one. -/
theorem bind_ok {command : Command State Error Value} {next : Value → Command State Error Other}
    (done : command state = (.ok value, after)) : (command >>= next) state = next value after := by
  rw [bind_apply, done]

theorem bind_error {command : Command State Error Value} {next : Value → Command State Error Other}
    (failed : command state = (.error error, after)) :
    (command >>= next) state = (.error error, after) := by
  rw [bind_apply, failed]

end Command

end Library
