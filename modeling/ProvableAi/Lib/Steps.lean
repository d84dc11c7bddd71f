/-
# Computations that can be cut

A method of a store runs statement by statement, and a crash or an exception can
end it after any of them.  A computation over the states `σ` is the states it
enters, in order, and how it ends if nothing cuts it; `left` are the states it can
be found in.

States, errors and values are of any types.
-/

import Mathlib.Data.List.Basic

namespace ProvableAi
namespace Steps

/-- The states that a computation enters after the one it starts in, and its end. -/
structure Run (σ ε α : Type) where
  entered : List σ
  result : Except ε α

end Steps

/-- A computation that starts in a state. -/
structure Steps (σ ε α : Type) where
  exec : σ → Steps.Run σ ε α

namespace Steps

variable {σ ε α β : Type}

/-- The state it ends in. -/
def last (m : Steps σ ε α) (s : σ) : σ := (m.exec s).entered.getLastD s

/-- The states it can be cut in. -/
def left (m : Steps σ ε α) (s : σ) : List σ := s :: (m.exec s).entered

/-- A statement that reads. -/
def read (f : σ → Except ε α) : Steps σ ε α := ⟨fun s => ⟨[], f s⟩⟩

/-- What needs no state. -/
def lift (x : Except ε α) : Steps σ ε α := read fun _ => x

/-- A statement that writes. -/
def write (f : σ → σ) : Steps σ ε Unit := ⟨fun s => ⟨[f s], .ok ()⟩⟩

/-- One computation after the other. -/
def andThen (m : Steps σ ε α) (f : α → Steps σ ε β) : Steps σ ε β where
  exec s :=
    match (m.exec s).result with
    | .error e => ⟨(m.exec s).entered, .error e⟩
    | .ok a => ⟨(m.exec s).entered ++ ((f a).exec (m.last s)).entered, ((f a).exec (m.last s)).result⟩

instance : Monad (Steps σ ε) where
  pure a := ⟨fun _ => ⟨[], .ok a⟩⟩
  bind := andThen

section Exec

variable {m : Steps σ ε α} {f : α → Steps σ ε β} {s : σ} {e : ε} {a : α} {entered : List σ}

theorem exec_read (g : σ → Except ε α) (s : σ) : (read g).exec s = ⟨[], g s⟩ := rfl

theorem exec_bind : (m >>= f).exec s = match (m.exec s).result with
    | .error e => ⟨(m.exec s).entered, .error e⟩
    | .ok a => ⟨(m.exec s).entered ++ ((f a).exec (m.last s)).entered, ((f a).exec (m.last s)).result⟩ := rfl

theorem bind_error (h : m.exec s = ⟨entered, .error e⟩) : (m >>= f).exec s = ⟨entered, .error e⟩ := by
  rw [exec_bind, h]

theorem bind_ok (h : m.exec s = ⟨entered, .ok a⟩) : (m >>= f).exec s =
    ⟨entered ++ ((f a).exec (entered.getLastD s)).entered, ((f a).exec (entered.getLastD s)).result⟩ := by
  rw [exec_bind, last, h]

theorem read_error {g : σ → Except ε α} (h : g s = .error e) : (read g >>= f).exec s = ⟨[], .error e⟩ :=
  bind_error (by rw [exec_read, h])

theorem read_ok {g : σ → Except ε α} (h : g s = .ok a) : (read g >>= f).exec s = (f a).exec s := by
  have hread : (read g).exec s = ⟨[], .ok a⟩ := by rw [exec_read, h]
  exact bind_ok hread

theorem lift_error : (lift (.error e) >>= f).exec s = ⟨[], .error e⟩ := read_error (s := s) rfl

theorem lift_ok : (lift (.ok a) >>= f).exec s = (f a).exec s := read_ok (s := s) rfl

theorem write_bind {g : σ → σ} {f : Unit → Steps σ ε β} :
    (write g >>= f).exec s = ⟨g s :: ((f ()).exec (g s)).entered, ((f ()).exec (g s)).result⟩ :=
  bind_ok (show (write g).exec s = ⟨[g s], .ok ()⟩ from rfl)

end Exec

end Steps
end ProvableAi
