import Mathlib.Data.List.Basic
import Mathlib.Tactic.Common

/-!
# Asynchronous operations and their queued handlers

An operation that was started gets a result at some later time, and from then
on its handler is queued.  Cancelling gives a result to operations that have
none; a handler that is already queued keeps the result it has.
-/

namespace CompletionQueue

/-- An operation whose handler has not run. -/
structure Flight (Kind Result : Type*) where
  kind : Kind
  serial : Nat
  /-- The result its handler is queued with; none while it is pending. -/
  result : Option Result

variable {Kind Result : Type*} {flights : List (Flight Kind Result)}
  {flight : Flight Kind Result}

/-- Start an operation. -/
def start (kind : Kind) (serial : Nat)
    (flights : List (Flight Kind Result)) :
    List (Flight Kind Result) :=
  flights ++ [⟨kind, serial, none⟩]

/-- Give a result to pending operations. -/
def resolve (verdict : Flight Kind Result → Option Result)
    (flights : List (Flight Kind Result)) :
    List (Flight Kind Result) :=
  flights.map fun flight =>
    { flight with result := flight.result <|> verdict flight }

/-- The pending operation with this serial number completes. -/
def finish (serial : Nat) (result : Result) :
    List (Flight Kind Result) → List (Flight Kind Result) :=
  resolve fun flight =>
    if flight.serial = serial then some result else none

/-- The pending operations of some kinds are cancelled. -/
def cancel (selects : Kind → Bool) (aborted : Kind → Result) :
    List (Flight Kind Result) → List (Flight Kind Result) :=
  resolve fun flight =>
    if selects flight.kind then some (aborted flight.kind) else none

/-- The operation with this serial number. -/
def lookup (serial : Nat) (flights : List (Flight Kind Result)) :
    Option (Flight Kind Result) :=
  flights.find? fun flight => flight.serial == serial

/-- Take an operation out, as its handler runs. -/
def remove (serial : Nat) (flights : List (Flight Kind Result)) :
    List (Flight Kind Result) :=
  flights.eraseP fun flight => flight.serial == serial

/-- The kind of the pending operation with this serial number. -/
def awaits (serial : Nat) (flights : List (Flight Kind Result)) :
    Option Kind :=
  (lookup serial flights).bind fun flight =>
    if flight.result.isNone then some flight.kind else none

theorem start_map_kind (kind : Kind) (serial : Nat) :
    (start kind serial flights).map Flight.kind =
      flights.map Flight.kind ++ [kind] := by
  simp [start]

theorem resolve_map_kind (verdict : Flight Kind Result → Option Result) :
    (resolve verdict flights).map Flight.kind =
      flights.map Flight.kind := by
  simp [resolve, Function.comp_def]

@[simp]
theorem finish_map_kind (serial : Nat) (result : Result) :
    (finish serial result flights).map Flight.kind =
      flights.map Flight.kind :=
  resolve_map_kind _

@[simp]
theorem cancel_map_kind (selects : Kind → Bool) (aborted : Kind → Result) :
    (cancel selects aborted flights).map Flight.kind =
      flights.map Flight.kind :=
  resolve_map_kind _

@[simp]
theorem cancel_nil (selects : Kind → Bool) (aborted : Kind → Result) :
    cancel selects aborted [] = [] :=
  rfl

theorem remove_singleton :
    remove flight.serial [flight] = [] := by
  simp [remove]

theorem mem_of_mem_remove {serial : Nat}
    (member : flight ∈ remove serial flights) :
    flight ∈ flights :=
  List.mem_of_mem_eraseP member

theorem lookup_eq_some {serial : Nat}
    (found : lookup serial flights = some flight) :
    flight ∈ flights ∧ flight.serial = serial :=
  ⟨List.mem_of_find?_eq_some found,
    by simpa using List.find?_some found⟩

theorem mem_remove_of_ne {serial : Nat} {found : Flight Kind Result}
    (located : lookup serial flights = some found)
    (member : flight ∈ flights) (other : flight ≠ found) :
    flight ∈ remove serial flights := by
  induction flights with
  | nil => simp at member
  | cons first rest ih =>
      rcases List.mem_cons.mp member with same | inside
      · have later : first.serial ≠ serial := by
          intro here
          simp only [lookup, List.find?_cons, here, beq_self_eq_true,
            Option.some.injEq] at located
          exact other (same.trans located)
        rw [remove, List.eraseP_cons_of_neg (by simpa using later), same]
        exact List.mem_cons_self
      · by_cases here : first.serial = serial
        · rw [remove, List.eraseP_cons_of_pos (by simpa using here)]
          exact inside
        · have behind : lookup serial rest = some found := by
            simpa [lookup, List.find?_cons, here] using located
          rw [remove, List.eraseP_cons_of_neg (by simpa using here)]
          exact List.mem_cons_of_mem first (ih behind inside)

section Invariants

variable (Invariant : Flight Kind Result → Prop)

/-- What holds of all operations, and of one that gets a result, holds after
results were given. -/
theorem resolve_forall {verdict : Flight Kind Result → Option Result}
    (before : ∀ flight ∈ flights, Invariant flight)
    (resolved : ∀ flight ∈ flights, flight.result = none →
      ∀ result, verdict flight = some result →
        Invariant { flight with result := some result }) :
    ∀ flight ∈ resolve verdict flights, Invariant flight := by
  intro flight member
  obtain ⟨earlier, inside, rfl⟩ := List.mem_map.mp member
  obtain ⟨kind, serial, result⟩ := earlier
  cases result with
  | some result => exact before _ inside
  | none =>
      cases verdict_eq : verdict ⟨kind, serial, none⟩ with
      | none => simpa [verdict_eq] using before _ inside
      | some result => exact resolved _ inside rfl result verdict_eq

theorem finish_forall {serial : Nat} {result : Result}
    (before : ∀ flight ∈ flights, Invariant flight)
    (finished : ∀ flight ∈ flights, flight.result = none →
      flight.serial = serial →
        Invariant { flight with result := some result }) :
    ∀ flight ∈ finish serial result flights, Invariant flight := by
  apply resolve_forall Invariant before
  intro flight member pending other verdict
  rw [Option.ite_none_right_eq_some, Option.some.injEq] at verdict
  obtain ⟨same, rfl⟩ := verdict
  exact finished flight member pending same

theorem cancel_forall (selects : Kind → Bool) (aborted : Kind → Result)
    (before : ∀ flight ∈ flights, Invariant flight)
    (cancelled : ∀ flight ∈ flights, flight.result = none →
      selects flight.kind = true →
        Invariant { flight with
          result := some (aborted flight.kind) }) :
    ∀ flight ∈ cancel selects aborted flights, Invariant flight := by
  apply resolve_forall Invariant before
  intro flight member pending other verdict
  rw [Option.ite_none_right_eq_some, Option.some.injEq] at verdict
  obtain ⟨selected, rfl⟩ := verdict
  exact cancelled flight member pending selected

theorem start_forall {kind : Kind} {serial : Nat}
    (before : ∀ flight ∈ flights, Invariant flight)
    (started : Invariant ⟨kind, serial, none⟩) :
    ∀ flight ∈ start kind serial flights, Invariant flight := by
  intro flight member
  rcases List.mem_append.mp member with earlier | here
  · exact before flight earlier
  · rw [List.mem_singleton.mp here]
    exact started

theorem remove_forall {serial : Nat}
    (before : ∀ flight ∈ flights, Invariant flight) :
    ∀ flight ∈ remove serial flights, Invariant flight :=
  fun flight member => before flight (mem_of_mem_remove member)

end Invariants

theorem cancel_result_ne_none (selects : Kind → Bool)
    (aborted : Kind → Result)
    (member : flight ∈ cancel selects aborted flights)
    (selected : selects flight.kind = true) : flight.result ≠ none := by
  obtain ⟨earlier, _, rfl⟩ := List.mem_map.mp member
  have selected : selects earlier.kind = true := selected
  simp [selected]

end CompletionQueue
