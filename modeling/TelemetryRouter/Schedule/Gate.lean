/-!
# A fair gate

One task at a time is inside. The others wait in the order in which they came, and the first of them enters when the task inside
leaves. A task that gives up, inside or waiting, leaves no trace.
-/

namespace TelemetryRouter

/-- The number of a task. -/
abbrev TaskId : Type := Nat

/-- The task inside, and the tasks that wait. -/
structure Gate where
  inside : Option TaskId
  waiting : List TaskId
  deriving DecidableEq, Repr

namespace Gate

/-- A gate with nobody inside and nobody waiting. -/
def free : Gate := ⟨none, []⟩

/-- A task comes to the gate. -/
def join (g : Gate) (t : TaskId) : Gate := { g with waiting := g.waiting ++ [t] }

/-- The gate with a task inside, if it is that task's turn. -/
def enter? (g : Gate) (t : TaskId) : Option Gate :=
  match g.inside, g.waiting with
  | none, first :: rest => if first = t then some ⟨some t, rest⟩ else none
  | _, _ => none

/-- A task leaves, from inside or from among those that wait. -/
def leave (g : Gate) (t : TaskId) : Gate :=
  ⟨if g.inside = some t then none else g.inside, g.waiting.filter (· ≠ t)⟩

/-- Only the task that enters is inside, and it no longer waits at the front. -/
theorem enter?_eq_some_iff (g h : Gate) (t : TaskId) :
    g.enter? t = some h ↔ g.inside = none ∧ g.waiting = t :: h.waiting ∧ h.inside = some t := by
  obtain ⟨inside, waiting⟩ := g
  obtain ⟨hi, hw⟩ := h
  cases inside with
  | some x => simp [enter?]
  | none =>
    cases waiting with
    | nil => simp [enter?]
    | cons first rest =>
      by_cases hf : first = t
      · subst hf
        simp only [enter?, if_true, Option.some.injEq, mk.injEq, true_and, List.cons.injEq]
        exact ⟨fun ⟨a, b⟩ => ⟨b, a.symm⟩, fun ⟨a, b⟩ => ⟨b.symm, a⟩⟩
      · simp [enter?, hf]

end Gate

end TelemetryRouter
