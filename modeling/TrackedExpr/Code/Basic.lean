import TrackedExpr.Failure

/-!
# Code

A compiled expression is a named sequence of instructions.

**Definitions.**
* `Code`, `Code.default`: code under the name that expressions have;
* `Code.labelTable`: where the labels are, or the first label that is set twice;
* `Code.labelIndex?`: the last place where a label is set;
* `Code.same`: equality as expressions observe it;
* `Code.chars`: the listing.
-/

namespace TrackedExpr

/-- A named instruction sequence. -/
structure Code where
  name : String
  instructions : List Instruction

namespace Code

/-- The name of code that is given none. -/
def defaultName : String := "<expr>"

def ofInstructions (ops : List Instruction) : Code := ⟨defaultName, ops⟩

def size (c : Code) : Nat := c.instructions.length

def sets (l : Label) : Instruction → Bool
  | .setLabel k => k == l
  | _ => false

/-- The last place, counted from `start`, where a label is set. -/
def lastSet? (l : Label) : Nat → List Instruction → Option Nat
  | _, [] => none
  | start, op :: rest =>
      match lastSet? l (start + 1) rest with
      | some i => some i
      | none => if sets l op then some start else none

def labelIndex? (c : Code) (l : Label) : Option Nat := lastSet? l 0 c.instructions

/-- Collects the labels of a sequence whose first instruction is at `start`, given the labels
before it. -/
def labelsFrom (start : Nat) (known : List (Label × Nat)) :
    List Instruction → Except StackError (List (Label × Nat))
  | [] => .ok known
  | .setLabel l :: rest =>
      if known.any (fun e => e.1 = l) then .error (.duplicateLabel l)
      else labelsFrom (start + 1) (known ++ [(l, start)]) rest
  | _ :: rest => labelsFrom (start + 1) known rest

/-- Where every label is set, or the first label that is set twice. -/
def labelTable (c : Code) : Except StackError (List (Label × Nat)) :=
  labelsFrom 0 [] c.instructions

/-- Equality of instruction sequences. -/
def sameInstructions : List Instruction → List Instruction → Bool
  | [], [] => true
  | a :: as, b :: bs => a.same b && sameInstructions as bs
  | _, _ => false

/-- Equality of code: same name and same instructions. -/
def same (a b : Code) : Bool :=
  a.name == b.name && sameInstructions a.instructions b.instructions

/-- The listing: one instruction a line. -/
def chars (c : Code) : List Char :=
  joinChars ['\n'] (c.instructions.map Instruction.line)

def listing (c : Code) : String := String.ofList c.chars

def constants (c : Code) : List Value :=
  c.instructions.filterMap fun
    | .loadConst v => some v
    | _ => none

end Code
end TrackedExpr
