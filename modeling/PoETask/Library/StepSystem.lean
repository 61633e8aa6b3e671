import Mathlib.Logic.Basic

/-!
# Step systems

Labelled step relations with initial states, their reachable states and the rules
every safety proof uses: an invariant holds in each reachable state, a property of
the runs whose steps all meet a condition is a property of the restricted system,
and a system that is simulated by another one reaches only what that one reaches.
-/

namespace PoETask.Library

universe u v

/-- A system that moves from state to state under labels. -/
structure StepSystem (State : Type u) (Label : Type v) where
  initial : State → Prop
  step : State → Label → State → Prop

namespace StepSystem

variable {State : Type u} {Label : Type v}

/-- The states of the finite runs of a system. -/
inductive Reachable (system : StepSystem State Label) : State → Prop where
  | initial {state : State} (starts : system.initial state) : Reachable system state
  | step {state next : State} {label : Label} (reached : Reachable system state)
      (moves : system.step state label next) : Reachable system next

/-- The same system, taking only the steps that meet a condition. -/
def restrict (system : StepSystem State Label) (allowed : State → Label → Prop) :
    StepSystem State Label where
  initial := system.initial
  step state label next := allowed state label ∧ system.step state label next

/-- The runs of a restricted system are runs of the system. -/
theorem Reachable.of_restrict {system : StepSystem State Label}
    {allowed : State → Label → Prop} {state : State}
    (reached : (system.restrict allowed).Reachable state) : system.Reachable state := by
  induction reached with
  | initial starts => exact .initial starts
  | step _ moves ih => exact .step ih moves.2

/-- A property that holds at the start and is kept by every step. -/
structure Invariant (system : StepSystem State Label) (property : State → Prop) : Prop where
  initial : ∀ state, system.initial state → property state
  step : ∀ state label next, property state → system.step state label next → property next

theorem Invariant.of_reachable {system : StepSystem State Label} {property : State → Prop}
    {state : State} (invariant : system.Invariant property) (reached : system.Reachable state) :
    property state := by
  induction reached with
  | initial starts => exact invariant.initial _ starts
  | step _ moves ih => exact invariant.step _ _ _ ih moves

/-- The finite runs from one state to another. -/
inductive Run (system : StepSystem State Label) (state : State) : State → Prop where
  | refl : Run system state state
  | step {next last : State} {label : Label} (run : Run system state next)
      (moves : system.step next label last) : Run system state last

theorem Run.single {system : StepSystem State Label} {state next : State} {label : Label}
    (moves : system.step state label next) : system.Run state next :=
  .step .refl moves

theorem Run.trans {system : StepSystem State Label} {state next last : State}
    (run : system.Run state next) (later : system.Run next last) : system.Run state last := by
  induction later with
  | refl => exact run
  | step _ moves ih => exact .step ih moves

theorem Reachable.run {system : StepSystem State Label} {state last : State}
    (reached : system.Reachable state) (run : system.Run state last) : system.Reachable last := by
  induction run with
  | refl => exact reached
  | step _ moves ih => exact .step ih moves

section Simulation

variable {Abstract : Type u} {AbstractLabel : Type v}

/-- Every step of the first system is answered by a run of the second one. -/
structure Simulates (system : StepSystem State Label)
    (abstract : StepSystem Abstract AbstractLabel) (related : State → Abstract → Prop) : Prop where
  initial : ∀ state, system.initial state → ∃ seen, abstract.initial seen ∧ related state seen
  step : ∀ state label next seen, related state seen → system.step state label next →
    ∃ later, abstract.Run seen later ∧ related next later

theorem Simulates.of_reachable {system : StepSystem State Label}
    {abstract : StepSystem Abstract AbstractLabel} {related : State → Abstract → Prop}
    {state : State} (simulates : system.Simulates abstract related)
    (reached : system.Reachable state) : ∃ seen, abstract.Reachable seen ∧ related state seen := by
  induction reached with
  | initial starts =>
      rcases simulates.initial _ starts with ⟨seen, seenStarts, isRelated⟩
      exact ⟨seen, .initial seenStarts, isRelated⟩
  | step _ moves ih =>
      rcases ih with ⟨seen, seenReached, isRelated⟩
      rcases simulates.step _ _ _ _ isRelated moves with ⟨later, run, laterRelated⟩
      exact ⟨later, seenReached.run run, laterRelated⟩

end Simulation

section Play

variable {advance : State → Label → Option State} {allowed : State → Label → Prop}
  [decidable : ∀ state label, Decidable (allowed state label)]

/-- Run a step function through a list of labels, each of which has to be allowed. -/
def play (advance : State → Label → Option State) (allowed : State → Label → Prop)
    [∀ state label, Decidable (allowed state label)] (state : State) : List Label → Option State
  | [] => some state
  | label :: later =>
      if allowed state label then
        (advance state label).bind fun next => play advance allowed next later
      else
        none

theorem reachable_play {system : StepSystem State Label} {state last : State} {labels : List Label}
    (reached : system.Reachable state)
    (takes : ∀ state label next, allowed state label → advance state label = some next →
      system.step state label next)
    (plays : play advance allowed state labels = some last) : system.Reachable last := by
  induction labels generalizing state with
  | nil =>
      cases plays
      exact reached
  | cons label later ih =>
      simp only [play] at plays
      split at plays
      · rename_i isAllowed
        rcases Option.bind_eq_some_iff.mp plays with ⟨next, moves, plays⟩
        exact ih (.step reached (takes state label next isAllowed moves)) plays
      · cases plays

end Play

end StepSystem

end PoETask.Library
