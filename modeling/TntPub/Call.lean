namespace TntPub

abbrev Bytes := List UInt8

/-- Every exception the modelled code throws itself or lets through. -/
inductive Exception
  | corruptMessage
  | invalidMessageReceived
  | failedToCreate
  | invalidRegex
deriving DecidableEq

/-- The texts; that of a rejected regular expression belongs to cxxtools. -/
def Exception.what : Exception → Option String
  | corruptMessage => some "corrupt message"
  | invalidMessageReceived => some "invalid message received"
  | failedToCreate => some "failed to create data message from data"
  | invalidRegex => none

/-- Why a call did not return: a C++ exception, or an access to a destroyed object,
after which the program has no defined behaviour. -/
inductive Interrupt
  | exception (e : Exception)
  | useAfterFree
deriving DecidableEq

/-- A C++ call on a state that keeps its changes when it is left by an interrupt. -/
abbrev Call (σ : Type) := EStateM Interrupt σ

namespace Call

variable {σ α β : Type}

theorem bind_ok {x : Call σ α} {f : α → Call σ β} {a : α} {s s' : σ} (h : x s = .ok a s') :
    (x >>= f) s = f a s' := by
  simp only [bind, EStateM.bind, h]

theorem bind_error {x : Call σ α} {f : α → Call σ β} {e : Interrupt} {s s' : σ}
    (h : x s = .error e s') : (x >>= f) s = .error e s' := by
  simp only [bind, EStateM.bind, h]

theorem bind_eq_ok {x : Call σ α} {f : α → Call σ β} {b : β} {s s' : σ} :
    (x >>= f) s = .ok b s' ↔ ∃ a t, x s = .ok a t ∧ f a t = .ok b s' := by
  simp only [bind, EStateM.bind]
  cases x s with
  | ok a t => simp [and_assoc]
  | error e t => simp

end Call

end TntPub
