import XmlAdvisor.Binding.Store
import XmlAdvisor.Request.Error

/-!
# Requests

**A request** may fail, and what it changes stays changed when it fails: the store of grammars and
its cancellation, which tells whether the request has been given up.

**Giving up** happens from outside and at any time.  A request notices it only where it looks, so a
cancellation is described by how many more looks it lets pass (`Cancellation.passes`).  Loading a
grammar may be what gives the request up.
-/

namespace XmlAdvisor

/-- Tells whether a request has been given up. -/
structure Cancellation where
  /-- How many more looks pass; without a number all do. -/
  passes : Option Nat := none
  deriving DecidableEq, Repr, Inhabited

namespace Cancellation

/-- The request is never given up. -/
def never : Cancellation := {}

/-- The request has been given up. -/
def now : Cancellation := ⟨some 0⟩

/-- What is left after a look, if the look passes. -/
def look? (c : Cancellation) : Option Cancellation :=
  match c.passes with
  | none => some c
  | some 0 => none
  | some (n + 1) => some ⟨some n⟩

end Cancellation

/-- What a request may change. -/
structure RequestState where
  store : GrammarStore := {}
  cancellation : Cancellation := .never

/-- A request that gives a value or fails. -/
abbrev Request (α : Type) : Type :=
  ExceptT RequestError (StateM RequestState) α

namespace Request

variable {α β : Type}

/-- What a request gives from a state, and the state that it leaves. -/
def runFrom (r : Request α) (s : RequestState) : Except RequestError α × RequestState :=
  (ExceptT.run r).run s

/-- The request that gives a value or fails without looking at anything. -/
def ofExcept : Except RequestError α → Request α
  | .ok a => pure a
  | .error e => throw e

/-- The request for a place that has to exist. -/
def ofPlace (r : Except PlaceError α) : Request α :=
  ofExcept (orBadLocation r)

/-- Fails if the request has been given up. -/
def check : Request Unit := do
  match (← get).cancellation.look? with
  | some cancellation => modify fun s => { s with cancellation }
  | none => throw .cancelled

/-- A value in place of what a request gives, if it fails but has not been given up. -/
def orElseValue (r : Request α) (value : α) : Request α :=
  tryCatch r fun
    | .cancelled => throw .cancelled
    | _ => pure value

/-- Joins what a request gives for each item. -/
def flatMapM (f : α → Request (List β)) : List α → Request (List β)
  | [] => pure []
  | a :: more => do
    let first ← f a
    let rest ← flatMapM f more
    return first ++ rest

/-! ## Steps of a request -/

/-- A step that passes gives a value and the state after it. -/
theorem runFrom_pure (a : α) (s : RequestState) : runFrom (pure a) s = (.ok a, s) := rfl

/-- A step that fails ends the request in the state it has reached. -/
theorem runFrom_throw (e : RequestError) (s : RequestState) :
    runFrom (throw e : Request α) s = (.error e, s) := rfl

/-- A request goes on where its first step ends. -/
theorem runFrom_bind (r : Request α) (f : α → Request β) (s : RequestState) :
    runFrom (r >>= f) s =
      match runFrom r s with
      | (.ok a, s') => runFrom (f a) s'
      | (.error e, s') => (.error e, s') := by
  simp only [runFrom, ExceptT.run, StateT.run, bind, ExceptT.bind, ExceptT.mk, StateT.bind,
    ExceptT.bindCont]
  cases r s with
  | mk result s' => cases result <;> rfl

end Request

end XmlAdvisor
