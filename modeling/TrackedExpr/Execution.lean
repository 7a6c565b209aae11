import TrackedExpr.Frame

/-!
# Running code

A host gives meaning to attributes and native functions over a state of its own.
A run takes at most a given number of steps.

**Definitions.**
* `Host`, `Host.run`, `Execution`;
* `Step`: an executed instruction and the stack height on entry;
* `stepsAt`: the steps of a run at chosen positions, such as those that code kept when it was
  instrumented.
-/

namespace TrackedExpr

universe u

/-- What a program surrounds its expressions with. -/
structure Host (σ : Type u) where
  /-- how attributes are read in a state -/
  read : σ → AttributeReader
  /-- how a native function answers a call -/
  call : NativeCall → σ → σ × Except EvalError Value

/-- An instruction about to be executed: its index and the stack height. -/
structure Step where
  index : Nat
  depth : Nat
deriving DecidableEq, Repr

/-- A run: the state it leaves, its outcome (none if it was cut off), and its steps. -/
structure Execution (σ : Type u) where
  state : σ
  outcome : Option (Except EvalError Value)
  steps : List Step

/-- A run that did one step more at its beginning. -/
def Execution.after {σ : Type u} (s : Step) (e : Execution σ) : Execution σ :=
  { e with steps := s :: e.steps }

/-- Runs code from a frame for at most the given number of steps. -/
def Host.run {σ : Type u} (host : Host σ) (code : Code) (scope : Scope) :
    Nat → Frame → σ → Execution σ
  | 0, _, state => ⟨state, none, []⟩
  | limit + 1, frame, state =>
      let here : Step := ⟨frame.pc, frame.depth⟩
      match frame.step (host.read state) code scope with
      | .finished v => ⟨state, some (.ok v), [here]⟩
      | .failed e => ⟨state, some (.error e), [here]⟩
      | .running next => (host.run code scope limit next state).after here
      | .calling call next =>
          match host.call call state with
          | (state, .ok v) => (host.run code scope limit (next.resume v) state).after here
          | (state, .error e) => ⟨state, some (.error e), [here]⟩

/-- The steps at the given positions, renamed to the places of the positions in the list. -/
def stepsAt (steps : List Step) (positions : List Nat) : List Step :=
  steps.filterMap fun s => (positions.idxOf? s.index).map fun i => ⟨i, s.depth⟩

end TrackedExpr
