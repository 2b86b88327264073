/-!
# Log records

A computation that reports what it does returns its records with its value, in the order they were
made.  `Logged` composes such computations, and `ExceptT ε Logged` keeps the records made before a
failure.
-/

namespace Depthwise.Log

/-- How detailed a record is. -/
inductive Level where
  | debug
  | trace
  deriving DecidableEq, Repr

def Level.label : Level → String
  | .debug => "DEBUG"
  | .trace => "TRACE"

/-- One record. -/
structure Record where
  level : Level
  text : String
  deriving DecidableEq, Repr

/-- The record as one line, its level first. -/
def Record.line (r : Record) : String := s!"{r.level.label} {r.text}"

end Depthwise.Log

namespace Depthwise

/-- A value and the records made on the way to it. -/
structure Logged (α : Type) where
  value : α
  log : List Log.Record

namespace Logged

instance : Monad Logged where
  pure a := ⟨a, []⟩
  bind x f := ⟨(f x.value).value, x.log ++ (f x.value).log⟩

/-- Make one record. -/
def record (r : Log.Record) : Logged Unit := ⟨(), [r]⟩

@[simp] theorem pure_value {α : Type} (a : α) : (pure a : Logged α).value = a := rfl

@[simp] theorem pure_log {α : Type} (a : α) : (pure a : Logged α).log = [] := rfl

@[simp] theorem bind_value {α β : Type} (x : Logged α) (f : α → Logged β) :
    (x >>= f).value = (f x.value).value := rfl

@[simp] theorem bind_log {α β : Type} (x : Logged α) (f : α → Logged β) :
    (x >>= f).log = x.log ++ (f x.value).log := rfl

/-- A computation that may fail comes to what it comes to without its records. -/
theorem value_bind {ε α β : Type} (x : ExceptT ε Logged α) (f : α → ExceptT ε Logged β) :
    (x >>= f).run.value = x.run.value >>= fun a => (f a).run.value := by
  rw [ExceptT.run_bind, bind_value]
  cases x.run.value <;> rfl

end Logged

end Depthwise
