import Mathlib
import TrackedExpr.Monitor

/-!
# What instructions are aimed at

An attribute load, or a call of `getattr`, is aimed at an attribute of an object.
The aim is what stock monitors are shown, before the instruction runs.  A call
whose keywords are not text is aimed at an attribute as well, though it fails
before it looks anything up.

**Definitions.**
* `callSlots`: the slots of a plain call;
* `Instruction.aim?`, `Frame.aim?`: the attribute that an instruction, and the next step,
  is aimed at;
* `Instruction.takesAim`: the instructions that can be aimed at something;
* `Instruction.balks`, `Frame.balks`: a call whose keywords are not text.

**Results.**
* `Instruction.aim?_of_not_takesAim`, `Instruction.aim?_call_native`,
  `Instruction.aim?_of_short`: other instructions, calls of native functions, and instructions
  that lack a value are aimed at nothing.
-/

namespace TrackedExpr

/-- The attribute of an object that is looked up, if an object is looked at. -/
def objectAccess? : Option (Value × String) → Option (ObjectRef × String)
  | some (.object o, a) => some (o, a)
  | _ => none

theorem objectAccess?_eq_some {access : Option (Value × String)} {o : ObjectRef} {a : String}
    (h : objectAccess? access = some (o, a)) : access = some (.object o, a) := by
  unfold objectAccess? at h
  split at h
  · cases h
    rfl
  · cases h

/-- The counted slots of a plain call, in push order. -/
def callSlots (raw : UInt16) (stack : List Value) : List Value :=
  (stack.take (ArgSpec.decode raw).slots).reverse

/-- The attribute of an object that an instruction is aimed at: the one that it is going to look
up, unless it is a call whose keywords are not text. -/
def Instruction.aim? : Instruction → List Value → Option (ObjectRef × String)
  | .loadAttr a, v :: _ => objectAccess? (some (v, a))
  | .call .plain raw, stack =>
      match stack.drop (ArgSpec.decode raw).slots with
      | function :: _ =>
          let (args, kwargs) := splitArguments (callSlots raw stack) (ArgSpec.decode raw)
          objectAccess? (getattrAccess? function args kwargs)
      | [] => none
  | _, _ => none

/-- The attribute of an object that the next step is aimed at. -/
def Frame.aim? (c : Code) (f : Frame) : Option (ObjectRef × String) :=
  c.instructions[f.pc]?.bind fun op => op.aim? f.stack

/-- Whether an instruction is a plain call with a keyword that is not text, which fails before
anything is called. -/
def Instruction.balks : Instruction → List Value → Bool
  | .call .plain raw, stack =>
      !(keywordSlots ((callSlots raw stack).drop (ArgSpec.decode raw).positional.toNat)).isOk
  | _, _ => false

/-- Whether the next step is such a call. -/
def Frame.balks (c : Code) (f : Frame) : Bool :=
  c.instructions[f.pc]?.any fun op => op.balks f.stack

/-- Whether an instruction is a load of an attribute or a call. -/
def Instruction.takesAim : Instruction → Bool
  | .loadAttr _ => true
  | op => op.isCall

theorem Instruction.isCall_of_not_takesAim {op : Instruction} (h : op.takesAim = false) :
    op.isCall = false := by
  cases op with
  | loadAttr a => rfl
  | _ => exact h

theorem Instruction.aim?_of_not_takesAim {op : Instruction} (h : op.takesAim = false)
    (stack : List Value) : op.aim? stack = none := by
  cases op with
  | loadAttr a => cases h
  | call form raw => cases h
  | _ => rfl

theorem Instruction.aim?_call {raw : UInt16} {stack below : List Value} {function : Value}
    (h : stack.drop (ArgSpec.decode raw).slots = function :: below) :
    (Instruction.call .plain raw).aim? stack = objectAccess? (getattrAccess? function
      (splitArguments (callSlots raw stack) (ArgSpec.decode raw)).1
      (splitArguments (callSlots raw stack) (ArgSpec.decode raw)).2) := by
  simp only [aim?, h]

theorem Instruction.aim?_call_native {raw : UInt16} {stack below : List Value} {ref : NativeRef}
    (h : stack.drop (ArgSpec.decode raw).slots = .native ref :: below) :
    (Instruction.call .plain raw).aim? stack = none := by
  rw [aim?_call h]
  rfl

/-- On a stack that is too short an instruction is aimed at nothing. -/
theorem Instruction.aim?_of_short {op : Instruction} {stack : List Value}
    (h : stack.length < (op.effect false).pops) : op.aim? stack = none := by
  cases op with
  | loadAttr a =>
      obtain rfl : stack = [] := by simpa [effect] using h
      rfl
  | call form raw =>
      cases form with
      | plain =>
          have hdrop : stack.drop (ArgSpec.decode raw).slots = [] := by
            rw [List.drop_eq_nil_iff]
            exact Nat.le_of_lt_succ h
          simp only [aim?, hdrop]
      | _ => rfl
  | _ => rfl

theorem Frame.aim?_eq {c : Code} {f : Frame} {op : Instruction}
    (hop : c.instructions[f.pc]? = some op) : f.aim? c = op.aim? f.stack := by
  rw [aim?, hop, Option.bind_some]

end TrackedExpr
