/-!
What is logged. An event has a level and says which part of the program it comes from. A computation that may
fail logs events up to where it ends, and what it gives does not depend on them.
-/

namespace Certified

/-- How much an event matters, the most important first. -/
inductive LogLevel where
  | error
  | warn
  | info
  | debug
  | trace
deriving DecidableEq

/-- The number of levels that matter more. -/
def LogLevel.rank : LogLevel → Nat
  | .error => 0
  | .warn => 1
  | .info => 2
  | .debug => 3
  | .trace => 4

/-- An event without the time at which it was logged. -/
structure LogEvent where
  level : LogLevel
  /-- The part of the program that logs it. -/
  target : String
  message : String
deriving DecidableEq

/-- What a computation gives, and what it has logged when it ends. -/
structure Logged (ε α : Type) where
  result : Except ε α
  log : List LogEvent := []

namespace Logged

variable {ε δ α β : Type}

/-- What is computed without a log. -/
def silent (result : Except ε α) : Logged ε α :=
  { result }

/-- Events are logged, and nothing else is done. -/
def note (log : List LogEvent) : Logged ε Unit :=
  { result := .ok (), log }

def mapError (f : ε → δ) (x : Logged ε α) : Logged δ α :=
  { x with result := x.result.mapError f }

/-- What comes after a step that fails is not done and logs nothing. -/
def andThen (x : Logged ε α) (next : α → Logged ε β) : Logged ε β :=
  match x.result with
  | .ok a => { result := (next a).result, log := x.log ++ (next a).log }
  | .error e => { result := .error e, log := x.log }

instance : Monad (Logged ε) where
  pure a := silent (.ok a)
  bind := andThen

variable (x : Logged ε α) (next : α → Logged ε β) (result : Except ε α) (a : α) (events : List LogEvent)

/-! ### Results -/

@[simp] theorem result_silent : (silent result).result = result := rfl

@[simp] theorem result_note : (note events : Logged ε Unit).result = .ok () := rfl

@[simp] theorem result_mapError (f : ε → δ) : (x.mapError f).result = x.result.mapError f := rfl

@[simp] theorem result_pure : (pure a : Logged ε α).result = .ok a := rfl

@[simp] theorem result_bind : (x >>= next).result = x.result >>= fun a => (next a).result := by
  change (andThen x next).result = _
  rw [andThen]
  cases x.result <;> rfl

/-! ### Logs -/

@[simp] theorem log_silent : (silent result).log = [] := rfl

@[simp] theorem log_note : (note events : Logged ε Unit).log = events := rfl

@[simp] theorem log_mapError (f : ε → δ) : (x.mapError f).log = x.log := rfl

@[simp] theorem log_pure : (pure a : Logged ε α).log = [] := rfl

@[simp] theorem silent_ok_bind : (silent (.ok a) >>= next) = next a := rfl

@[simp] theorem silent_error_bind (e : ε) : (silent (.error e) >>= next) = silent (.error e) := rfl

variable {x next a}

theorem log_bind_of_ok (done : x.result = .ok a) : (x >>= next).log = x.log ++ (next a).log := by
  change (andThen x next).log = _
  rw [andThen, done]

theorem log_bind_pure (f : α → β) : (x >>= fun a => pure (f a)).log = x.log := by
  change (andThen x _).log = _
  rw [andThen]
  cases x.result with
  | error e => rfl
  | ok a => exact List.append_nil x.log

/-- An event is logged by the first step, or by the second one if it is reached. -/
theorem mem_log_bind {event : LogEvent} :
    event ∈ (x >>= next).log ↔ event ∈ x.log ∨ ∃ a, x.result = .ok a ∧ event ∈ (next a).log := by
  change event ∈ (andThen x next).log ↔ _
  rw [andThen]
  cases x.result with
  | error e => simp
  | ok a => simp

end Logged
end Certified
