import TrackedExpr.Proofs.StackSafety
import TrackedExpr.Proofs.Splicing

/-!
# Code in its new place

An instruction does in spliced code what it did before.  Control then goes on at the
landing of the index to which it went before, so that what is inserted there runs
first.

**Definitions.**
* `SparesLabels`: insertions that set no label and stand at none;
* `Frame.relocate`, `Progress.relocate`, `Turn.relocate`.

**Results.**
* `Frame.execute?_relocate`: an instruction executed in spliced code;
* `Frame.step_position`, `Host.turn_position`: a step, and a turn, at the position of
  an instruction.
-/

namespace TrackedExpr

universe u

open Code (addedAt landing landing_succ position)

/-- The insertions set no label and stand at none. -/
structure SparesLabels (c : Code) (ins : List Insertion) : Prop where
  unset : ∀ x ∈ ins, labelsSet x.ops = []
  clear : ∀ (i : Nat) (l : Label), c.instructions[i]? = some (.setLabel l) → addedAt ins i = 0

/-- A frame of code, in spliced code. -/
def Frame.relocate (ins : List Insertion) (f : Frame) : Frame := ⟨f.stack, landing ins f.pc⟩

/-- What a step leads to, in spliced code. -/
def Progress.relocate (ins : List Insertion) : Progress → Progress
  | .running f => .running (f.relocate ins)
  | .calling call f => .calling call (f.relocate ins)
  | .finished v => .finished v
  | .failed e => .failed e

/-- What a turn leads to, in spliced code. -/
def Turn.relocate {σ : Type u} (ins : List Insertion) : Turn σ → Turn σ
  | .goes f s => .goes (f.relocate ins) s
  | .ends r s => .ends r s

namespace Frame

variable {c c' : Code} {ins : List Insertion} {read : AttributeReader} {pc : Nat}

section Operations

theorem push_relocate (below : List Value) (r : Except EvalError Value) :
    push (landing ins pc) below r = (push pc below r).relocate ins := by
  cases r <;> rfl

theorem unpack_relocate (count : UInt64) (below : List Value) (v : Value) :
    unpack (landing ins pc) count below v = (unpack pc count below v).relocate ins := by
  cases v with
  | tuple items =>
      by_cases hcount : items.length = count.toNat
      · simp [unpack, hcount, Progress.relocate, relocate]
      · simp [unpack, hcount, Progress.relocate]
  | _ => rfl

theorem invoke_relocate (below : List Value) (function : Value) (args : List Value)
    (kwargs : Kwargs) :
    invoke read (landing ins pc) below function args kwargs
      = (invoke read pc below function args kwargs).relocate ins := by
  cases function with
  | builtin b => exact push_relocate below _
  | _ => rfl

theorem call?_relocate (form : CallForm) (operand : UInt16) (stack : List Value) :
    call? read (landing ins pc) form operand stack
      = (call? read pc form operand stack).map (Progress.relocate ins) := by
  unfold call?
  cases form.operands stack with
  | none => rfl
  | some operands =>
      obtain ⟨star, mapping, rest⟩ := operands
      dsimp only
      cases rest.drop (ArgSpec.decode operand).slots with
      | nil => rfl
      | cons function below =>
          dsimp only [Option.map_some]
          cases callArguments (ArgSpec.decode operand)
              (rest.take (ArgSpec.decode operand).slots).reverse star mapping with
          | error e => rfl
          | ok arguments => exact congrArg some (invoke_relocate below function _ _)

/-- A label is at a landing, since nothing is inserted in front of it. -/
theorem jumpTo_relocate (h : c.splice ins = .ok c') (hspares : SparesLabels c ins) (l : Label)
    (stack : List Value) : jumpTo c' l stack = (jumpTo c l stack).relocate ins := by
  have hindex : c'.labelIndex? l = (c.labelIndex? l).map (position ins) := by
    apply Code.labelIndex?_splice h
    intro x hx
    simp [hspares.unset x hx]
  unfold jumpTo
  rw [hindex]
  cases ht : c.labelIndex? l with
  | none => rfl
  | some t =>
      have hclear := hspares.clear t l (Code.labelIndex?_eq_some_iff.mp ht).1
      have hposition : position ins t = landing ins t := by
        rw [position, hclear, Nat.add_zero]
      rw [Option.map_some, hposition]
      rfl

end Operations

variable (h : c.splice ins = .ok c') (hspares : SparesLabels c ins) (scope : Scope)
include h hspares

/-- An instruction does in spliced code what it did before. -/
theorem execute?_relocate (op : Instruction) (stack : List Value) :
    execute? read c' scope (landing ins pc) op stack
      = (execute? read c scope pc op stack).map (Progress.relocate ins) := by
  have hjump := jumpTo_relocate h hspares
  cases op with
  | setLabel l => rfl
  | loadConst v => rfl
  | loadName n =>
      simp only [execute?, Option.map_some]
      cases scope.resolve? n <;> rfl
  | buildTuple n =>
      by_cases hn : stack.length < n.toNat
      · simp [execute?, hn]
      · simp [execute?, hn, Progress.relocate, relocate]
  | call form operand => exact call?_relocate form operand stack
  | loadAttr a =>
      cases stack with
      | nil => rfl
      | cons v s => exact congrArg some (push_relocate s _)
  | dupTop => cases stack <;> rfl
  | rotTwo => obtain _ | ⟨v, _ | ⟨w, s⟩⟩ := stack <;> rfl
  | rotThree => obtain _ | ⟨v, _ | ⟨w, _ | ⟨x, s⟩⟩⟩ := stack <;> rfl
  | popTop => cases stack <;> rfl
  | unpackSequence n =>
      cases stack with
      | nil => rfl
      | cons v s => exact congrArg some (unpack_relocate n s v)
  | binary op =>
      obtain _ | ⟨r, _ | ⟨l, s⟩⟩ := stack
      · rfl
      · rfl
      · exact congrArg some (push_relocate s _)
  | compare op =>
      obtain _ | ⟨r, _ | ⟨l, s⟩⟩ := stack
      · rfl
      · rfl
      · exact congrArg some (push_relocate s _)
  | unaryNot => cases stack <;> rfl
  | unaryNegative =>
      cases stack with
      | nil => rfl
      | cons v s => exact congrArg some (push_relocate s _)
  | returnValue => cases stack <;> rfl
  | jump kind l =>
      cases kind with
      | always => exact congrArg some (hjump l stack)
      | _ =>
          cases stack with
          | nil => rfl
          | cons v s =>
              simp only [execute?, Option.map_some, hjump]
              cases v.isTruthy <;> rfl

/-- A step with enough values on the stack, at the position of its instruction. -/
theorem step_position {i : Nat} {op : Instruction} {stack : List Value}
    (hop : c.instructions[i]? = some op) (hpops : (op.effect false).pops ≤ stack.length) :
    step read c' scope ⟨stack, position ins i⟩ = (step read c scope ⟨stack, i⟩).relocate ins := by
  have hop' : c'.instructions[position ins i]? = some op := by
    rw [Code.getElem?_position h, hop]
  obtain ⟨progress, hexecute, -⟩ := @execute?_conforms c (i + 1) op stack read scope hpops
  have hexecute' := @execute?_relocate c c' ins read (i + 1) h hspares scope op stack
  rw [landing_succ] at hexecute'
  simp [step, hop, hop', Nat.not_lt.mpr hpops, hexecute, hexecute']

end Frame

namespace Host

variable {σ : Type u} {host : Host σ} {c c' : Code} {ins : List Insertion}

/-- A turn with enough values on the stack, at the position of its instruction. -/
theorem turn_position (h : c.splice ins = .ok c') (hspares : SparesLabels c ins) (scope : Scope)
    {i : Nat} {op : Instruction} {stack : List Value} (hop : c.instructions[i]? = some op)
    (hpops : (op.effect false).pops ≤ stack.length) (s : σ) :
    host.turn c' scope ⟨stack, position ins i⟩ s
      = (host.turn c scope ⟨stack, i⟩ s).relocate ins := by
  unfold turn
  rw [Frame.step_position h hspares scope hop hpops]
  cases Frame.step (host.read s) c scope ⟨stack, i⟩ with
  | calling call g =>
      simp only [Progress.relocate]
      obtain ⟨t, r⟩ := host.call call s
      cases r <;> rfl
  | _ => rfl

end Host
end TrackedExpr
