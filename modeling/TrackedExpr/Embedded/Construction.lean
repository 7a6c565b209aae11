import TrackedExpr.Embedded.Statement

/-!
# Constructing code in the host language

An embedded listing is replaced by an expression of the host language that
constructs the code.  Labels are numbered in the order in which they are placed.

**Definitions.**
* `Item`, `resolve`: instructions whose labels have numbers;
* `Instruction.construction`: the expression that constructs an instruction;
* `construct`: the expressions for the statements of a text.
-/

namespace TrackedExpr
namespace Embedded

section Labels

/-- An instruction, or a load of a constant that the host language computes. -/
inductive Item
  | instruction (op : Instruction)
  | hostConst (tokens : Tokens)

/-- Numbers the labels from `labels.length` on; no label may be placed twice. -/
def numberLabels (labels : List String) : List Statement → Except Fault (List String)
  | [] => .ok labels
  | .label name :: rest =>
      if name ∈ labels then .error (.labelTwice name) else numberLabels (labels ++ [name]) rest
  | _ :: rest => numberLabels labels rest

def labelNumber (labels : List String) (name : String) : Except Fault Label :=
  match labels.idxOf? name with
  | some i => .ok ⟨UInt32.ofNat i⟩
  | none => .error (.labelUndefined name)

/-- A statement with the number of its label. -/
def Statement.item (labels : List String) : Statement → Except Fault Item
  | .label name => (labelNumber labels name).map fun l => .instruction (.setLabel l)
  | .op instruction => .ok (.instruction instruction)
  | .jump kind target => (labelNumber labels target).map fun l => .instruction (.jump kind l)
  | .hostConst tokens _ => .ok (.hostConst tokens)

/-- Statements with the numbers of their labels. -/
def resolve (ss : List Statement) : Except Fault (List Item) :=
  match numberLabels [] ss with
  | .error e => .error e
  | .ok labels => ss.mapM (Statement.item labels)

end Labels

section Texts

/-- An expression applied to an argument. -/
def applied (function argument : String) : String := function ++ "(" ++ argument ++ ")"

/-- Something of the machine. -/
def machine (path : String) : String := "::exprwatch::vm::" ++ path

def textLiteral (s : String) : String := String.ofList (textConstant s.toList)

def labelText (l : Label) : String :=
  applied (machine "Label") (toString l.number.toNat ++ "u32")

/-- The expression for a constant that a listing can hold. -/
def constantText (v : Value) : String :=
  match v with
  | .bool b => applied (machine "Value::Bool") (if b then "true" else "false")
  | .int i => applied (machine "Value::Int") (String.ofList (intChars i.toInt) ++ "i64")
  | .float x =>
      applied (machine "Value::Float") (String.ofList (FloatText.plain.chars x) ++ "f64")
  | .str s => applied (machine "Value::str") (textLiteral s)
  | _ => machine "Value::None"

def binaryName : BinaryOp → String
  | .add => "Add"
  | .subtract => "Subtract"
  | .multiply => "Multiply"
  | .trueDivide => "TrueDivide"
  | .modulo => "Modulo"

def compareName : CompareOp → String
  | .lt => "Lt"
  | .le => "Le"
  | .eq => "Eq"
  | .ne => "Ne"
  | .gt => "Gt"
  | .ge => "Ge"

def callName : CallForm → String
  | .plain => "CallFunction"
  | .star => "CallFunctionVar"
  | .mapping => "CallFunctionKw"
  | .starMapping => "CallFunctionVarKw"

def jumpName : JumpKind → String
  | .always => "Jump"
  | .popIfFalse => "PopJumpIfFalse"
  | .popIfTrue => "PopJumpIfTrue"
  | .ifFalseOrPop => "JumpIfFalseOrPop"
  | .ifTrueOrPop => "JumpIfTrueOrPop"

/-- The name of an instruction and its argument. -/
def parts : Instruction → String × Option String
  | .setLabel l => ("SetLabel", some (labelText l))
  | .loadConst v => ("LoadConst", some (constantText v))
  | .loadName n => ("LoadName", some (applied "::std::rc::Rc::from" (textLiteral n)))
  | .loadAttr n => ("LoadAttr", some (applied "::std::rc::Rc::from" (textLiteral n)))
  | .dupTop => ("DupTop", none)
  | .rotTwo => ("RotTwo", none)
  | .rotThree => ("RotThree", none)
  | .popTop => ("PopTop", none)
  | .buildTuple n => ("BuildTuple", some (toString n.toNat ++ "usize"))
  | .unpackSequence n => ("UnpackSequence", some (toString n.toNat ++ "usize"))
  | .binary op => ("Binary", some (machine "BinaryOp::" ++ binaryName op))
  | .compare op => ("Compare", some (machine "CompareOp::" ++ compareName op))
  | .unaryNot => ("UnaryNot", none)
  | .unaryNegative => ("UnaryNegative", none)
  | .call form raw => (callName form, some (toString raw.toNat ++ "u16"))
  | .jump kind l => (jumpName kind, some (labelText l))
  | .returnValue => ("ReturnValue", none)

def construction (op : Instruction) : String :=
  match parts op with
  | (name, some argument) => applied (machine "Instruction::" ++ name) argument
  | (name, none) => machine "Instruction::" ++ name

def Item.construction : Item → String
  | .instruction op => Embedded.construction op
  | .hostConst tokens =>
      applied (machine "Instruction::LoadConst")
        (applied (machine "Value::from") (String.ofList (TokenTree.allChars tokens)))

end Texts

def items (cs : List Char) : Except Fault (List Item) :=
  match parse cs with
  | .error e => .error e
  | .ok ss => resolve ss

/-- The expressions that construct the instructions of a text. -/
def construct (source : String) : Except Fault (List String) :=
  (items source.toList).map fun is => is.map Item.construction

end Embedded
end TrackedExpr
