import TrackedExpr.Failure

/-!
# Operators on values

Integers are 64-bit words: an operator answers the exact result or reports an
overflow.  An operator on an integer and a float works on floats.

**Definitions.**
* `exactInt`: an integer result, if a word holds it;
* `flooredMod`: the remainder that takes the sign of the divisor;
* `Value.binary`, `Value.compare`, `Value.negate`, `Value.absolute`.
-/

namespace TrackedExpr

/-- An integer result, if a 64-bit word holds it. -/
def exactInt (r : Int) : Except EvalError Value :=
  if Int64.minValue.toInt ≤ r ∧ r ≤ Int64.maxValue.toInt then .ok (.int (Int64.ofInt r))
  else .error .overflow

/-- The remainder of `a` by a non-zero `b` that is zero or has the sign of `b`. -/
def flooredMod (a b : Int64) : Int64 :=
  if b = -1 then 0
  else
    let r := a % b
    if r ≠ 0 ∧ ((r < 0) ≠ (b < 0)) then r + b else r

/-- Operators on integers.  Division answers a float. -/
def intBinary (op : BinaryOp) (a b : Int64) : Except EvalError Value :=
  match op with
  | .add => exactInt (a.toInt + b.toInt)
  | .subtract => exactInt (a.toInt - b.toInt)
  | .multiply => exactInt (a.toInt * b.toInt)
  | .trueDivide =>
      if b = 0 then .error .zeroDivision else .ok (.float (floatOfInt a / floatOfInt b))
  | .modulo => if b = 0 then .error .zeroDivision else .ok (.int (flooredMod a b))

/-- Operators on floats. -/
def floatBinary (op : BinaryOp) (a b : Float) : Except EvalError Value :=
  match op with
  | .add => .ok (.float (a + b))
  | .subtract => .ok (.float (a - b))
  | .multiply => .ok (.float (a * b))
  | .trueDivide => if b == 0.0 then .error .zeroDivision else .ok (.float (a / b))
  | .modulo =>
      if b == 0.0 then .error .zeroDivision else .ok (.float (a - b * (a / b).floor))

/-- Comparison of floats; nothing is ordered with a value that is not a number. -/
def floatOrder (op : CompareOp) (a b : Float) : Bool :=
  match op with
  | .lt => decide (a < b)
  | .le => decide (a ≤ b)
  | .gt => decide (b < a)
  | .ge => decide (b ≤ a)
  | .eq => a == b
  | .ne => !(a == b)

/-- Whether an ordering satisfies a comparison. -/
def CompareOp.accepts (op : CompareOp) (o : Ordering) : Bool :=
  match op with
  | .lt => o == .lt
  | .le => o != .gt
  | .gt => o == .gt
  | .ge => o != .lt
  | .eq => o == .eq
  | .ne => o != .eq

namespace Value

/-- Binary operators: strings and tuples are joined by addition, numbers are combined. -/
def binary (op : BinaryOp) (l r : Value) : Except EvalError Value :=
  match op, l, r with
  | .add, .str a, .str b => .ok (.str (a ++ b))
  | .add, .tuple a, .tuple b => .ok (.tuple (a ++ b))
  | op, .int a, .int b => intBinary op a b
  | op, .int a, .float b => floatBinary op (floatOfInt a) b
  | op, .float a, .int b => floatBinary op a (floatOfInt b)
  | op, .float a, .float b => floatBinary op a b
  | op, l, r => .error (.type (.operands op.opname l.typeName r.typeName))

/-- The four order comparisons, on two strings or two numbers. -/
def order (op : CompareOp) (l r : Value) : Except EvalError Bool :=
  match l, r with
  | .str a, .str b => .ok (op.accepts (Ord.compare a b))
  | .int a, .int b => .ok (op.accepts (Ord.compare a.toInt b.toInt))
  | .int a, .float b => .ok (floatOrder op (floatOfInt a) b)
  | .float a, .int b => .ok (floatOrder op a (floatOfInt b))
  | .float a, .float b => .ok (floatOrder op a b)
  | l, r => .error (.type (.incomparable op.mnemonic l.typeName r.typeName))

/-- Comparison: equality of any two values, order of two strings or two numbers. -/
def compare (op : CompareOp) (l r : Value) : Except EvalError Bool :=
  match op with
  | .eq => .ok (l.same r)
  | .ne => .ok (!l.same r)
  | op => order op l r

/-- Arithmetic negation. -/
def negate : Value → Except EvalError Value
  | .int i => exactInt (-i.toInt)
  | .float x => .ok (.float (-x))
  | v => .error (.type (.noNegative v.typeName))

/-- Absolute value. -/
def absolute : Value → Except EvalError Value
  | .int i => exactInt i.toInt.natAbs
  | .float x => .ok (.float x.abs)
  | v => .error (.type (.noAbsolute v.typeName))

end Value
end TrackedExpr
