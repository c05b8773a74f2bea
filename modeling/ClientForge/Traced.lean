/-
# ClientForge.Traced -- results with a log

A step of the generator may fail and may leave records in the log; the records of a step
that fails are kept.  `Traced α` is such a step: its records in order, and its result.
Running two steps one after the other appends the records of the second to those of the
first (`bind_ok`), and a failed first step hides the second altogether (`bind_fail`).
-/
import ClientForge.Failure

namespace ClientForge

set_option autoImplicit false

/-- How much a record matters, least first. -/
inductive Level where
  | debug
  | info
  | warning
  deriving DecidableEq

def Level.name : Level → String
  | .debug => "DEBUG"
  | .info => "INFO"
  | .warning => "WARNING"

/-- The part of the generator that a record comes from. -/
inductive Source where
  | loader
  | contract
  | models
  | flavors
  | swr
  | driver
  | package
  deriving DecidableEq

/-- The name of a part, as the log writes it. -/
def Source.name : Source → String
  | .loader => "hookify.loader"
  | .contract => "hookify.generation.contract"
  | .models => "hookify.generation.models"
  | .flavors => "hookify.generation.flavors"
  | .swr => "hookify.generation.flavors.swr"
  | .driver => "hookify.generation.driver"
  | .package => "hookify.generator"

/-- One entry of the log. -/
structure Record where
  level : Level
  source : Source
  message : String
  deriving DecidableEq

abbrev Log := List Record

/-- A step with its log and its result. -/
structure Traced (α : Type) where
  log : Log
  result : Attempt α

namespace Traced

variable {α β : Type}

protected def pure (a : α) : Traced α := ⟨[], .ok a⟩

protected def bind (x : Traced α) (f : α → Traced β) : Traced β :=
  match x.result with
  | .ok a => ⟨x.log ++ (f a).log, (f a).result⟩
  | .error e => ⟨x.log, .error e⟩

instance : Monad Traced where
  pure := Traced.pure
  bind := Traced.bind

/-- A step that only fails or succeeds. -/
def ofAttempt (result : Attempt α) : Traced α := ⟨[], result⟩

instance : MonadLift Attempt Traced := ⟨ofAttempt⟩

/-- A step that fails without a record. -/
def fail (e : Failure) : Traced α := ⟨[], .error e⟩

/-- Leave a record. -/
def record (level : Level) (source : Source) (message : String) : Traced Unit :=
  ⟨[⟨level, source, message⟩], .ok ()⟩

/-- Run a step to its end and hand on what became of it; the records stay. -/
def attempt (x : Traced α) : Traced (Attempt α) := ⟨x.log, .ok x.result⟩

@[simp] theorem result_pure (a : α) : (pure a : Traced α).result = .ok a := rfl

@[simp] theorem log_pure (a : α) : (pure a : Traced α).log = [] := rfl

theorem bind_ok {x : Traced α} {a : α} (h : x.result = .ok a) (f : α → Traced β) :
    x >>= f = ⟨x.log ++ (f a).log, (f a).result⟩ := by
  simp [Bind.bind, Traced.bind, h]

theorem bind_fail {x : Traced α} {e : Failure} (h : x.result = .error e)
    (f : α → Traced β) : x >>= f = ⟨x.log, .error e⟩ := by
  simp [Bind.bind, Traced.bind, h]

end Traced

end ClientForge
