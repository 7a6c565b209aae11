import TrackedExpr.Assoc
import TrackedExpr.Code.Basic
import TrackedExpr.Listing.Token

/-!
# Assembling a listing

A listing is a sequence of label lines `name:` and instructions.  A label written
`L<n>` keeps its number; the others are numbered after the greatest of these, in
order of definition.  Only literal constants can be assembled.

**Definitions.**
* `ListingError`;
* `Listing.Item`: a label line or an instruction whose jump target is still a name;
* `Listing.parse`: the items of a token sequence;
* `Listing.numberLabels`: the numbers of the labels;
* `Code.ofListing`: the assembled code.
-/

namespace TrackedExpr

/-- Why a text is not a listing. -/
inductive ListingError
  | unexpectedToken (position : Nat) (expected : String) (kind : TokenKind) (text : String)
  | unexpectedEnd (context : String)
  | unknownOpcode (position : Nat) (name : String)
  | invalidInput (byte : Nat)
  | undefinedLabel (name : String)
  | duplicateLabel (name : String)
  | labelOverflow (name : String)
deriving DecidableEq, Repr

def ListingError.message : ListingError → String
  | .unexpectedToken position expected kind text =>
      "unexpected token at position " ++ toString position ++ ": " ++ expected ++ ", got "
        ++ kind.name ++ " '" ++ text ++ "'"
  | .unexpectedEnd context => "unexpected end of input: " ++ context
  | .unknownOpcode position name =>
      "unknown opcode `" ++ name ++ "` at position " ++ toString position
  | .invalidInput byte => "unrecognized input at byte " ++ toString byte
  | .undefinedLabel name => "label `" ++ name ++ "` is never defined"
  | .duplicateLabel name => "label `" ++ name ++ "` is defined more than once"
  | .labelOverflow name => "no label number left for `" ++ name ++ "`"

namespace Listing

section Numbers

/-- The value of a non-empty run of digits. -/
def natOfDigits? (cs : List Char) : Option Nat :=
  if cs.isEmpty || !cs.all Char.isDigit then none else some (Nat.ofDigitChars 10 cs 0)

/-- The value of digits after an optional minus sign. -/
def intOfDigits? : List Char → Option Int
  | '-' :: ds => (natOfDigits? ds).map fun n => -(n : Int)
  | ds => (natOfDigits? ds).map Int.ofNat

/-- A natural number below a bound. -/
def below? (bound : Nat) (n : Option Nat) : Option Nat :=
  n.filter fun n => n < bound

/-- The value of hexadecimal digits. -/
def natOfHexDigits (cs : List Char) : Nat :=
  cs.foldl (fun n c =>
    16 * n + (if c.isDigit then c.toNat - '0'.toNat else c.toLower.toNat - 'a'.toNat + 10)) 0

/-- The number that a label name fixes: `L` and digits, within 32 bits. -/
def labelNumber? : List Char → Option Nat
  | 'L' :: ds => below? UInt32.size (natOfDigits? ds)
  | _ => none

end Numbers

section Operands

/-- The value of a literal constant. -/
def constant? (t : Lexeme) : Option Value :=
  match t.kind with
  | .int =>
      (intOfDigits? t.text).bind fun i =>
        if Int64.minValue.toInt ≤ i ∧ i ≤ Int64.maxValue.toInt then some (.int (Int64.ofInt i))
        else none
  | .float => (FloatText.ofChars? t.text).map Value.float
  | .str => (Text.unescape? (t.text.drop 1).dropLast).map fun cs => .str (String.ofList cs)
  | .negInf => some (.float (-FloatText.infinity))
  | .word =>
      if t.text = "None".toList then some .none
      else if t.text = "True".toList then some (.bool true)
      else if t.text = "False".toList then some (.bool false)
      else if t.text = "inf".toList then some (.float FloatText.infinity)
      else if t.text = "NaN".toList then some (.float FloatText.notANumber)
      else none
  | .hex | .colon => none

def count? (t : Lexeme) : Option UInt64 :=
  (below? UInt64.size (natOfDigits? t.text)).map UInt64.ofNat

/-- A call operand, in hexadecimal or decimal. -/
def operand? (t : Lexeme) : Option UInt16 :=
  match t.kind with
  | .hex => (below? UInt16.size (some (natOfHexDigits (t.text.drop 2)))).map UInt16.ofNat
  | .int => (below? UInt16.size (natOfDigits? t.text)).map UInt16.ofNat
  | _ => none

/-- How the operand of an opcode is written. -/
inductive OpcodeForm
  | bare (op : Instruction)
  | constant
  | loadName
  | loadAttr
  | buildTuple
  | unpackSequence
  | comparison
  | call (form : CallForm)
  | jump (kind : JumpKind)

def opcodes : List (String × OpcodeForm) :=
  [ ("LOAD_CONST", .constant),
    ("LOAD_NAME", .loadName),
    ("LOAD_ATTR", .loadAttr),
    ("DUP_TOP", .bare .dupTop),
    ("ROT_TWO", .bare .rotTwo),
    ("ROT_THREE", .bare .rotThree),
    ("POP_TOP", .bare .popTop),
    ("BUILD_TUPLE", .buildTuple),
    ("UNPACK_SEQUENCE", .unpackSequence),
    ("BINARY_ADD", .bare (.binary .add)),
    ("BINARY_SUBTRACT", .bare (.binary .subtract)),
    ("BINARY_MULTIPLY", .bare (.binary .multiply)),
    ("BINARY_TRUE_DIVIDE", .bare (.binary .trueDivide)),
    ("BINARY_MODULO", .bare (.binary .modulo)),
    ("COMPARE_OP", .comparison),
    ("UNARY_NOT", .bare .unaryNot),
    ("UNARY_NEGATIVE", .bare .unaryNegative),
    ("CALL_FUNCTION", .call .plain),
    ("CALL_FUNCTION_VAR", .call .star),
    ("CALL_FUNCTION_KW", .call .mapping),
    ("CALL_FUNCTION_VAR_KW", .call .starMapping),
    ("JUMP_FORWARD", .jump .always),
    ("POP_JUMP_IF_FALSE", .jump .popIfFalse),
    ("POP_JUMP_IF_TRUE", .jump .popIfTrue),
    ("JUMP_IF_FALSE_OR_POP", .jump .ifFalseOrPop),
    ("JUMP_IF_TRUE_OR_POP", .jump .ifTrueOrPop),
    ("RETURN_VALUE", .bare .returnValue) ]

def opcode? (name : String) : Option OpcodeForm := Assoc.get? name opcodes

end Operands

section Parsing

/-- A label line, or an instruction whose jump target is still a name. -/
inductive Item
  | ready (op : Instruction)
  | define (name : String)
  | jump (kind : JumpKind) (name : String)

/-- The fault of a token in the wrong place. -/
def unexpected (position : Nat) (t : Lexeme) (expected : String) : ListingError :=
  .unexpectedToken position expected t.kind (String.ofList t.text)

def wordText (position : Nat) (t : Lexeme) (context : String) : Except ListingError String :=
  if t.kind = .word then .ok (String.ofList t.text)
  else .error (unexpected position t ("expected Word for " ++ context))

/-- The count that an integer token gives. -/
def readCount (position : Nat) (t : Lexeme) : Except ListingError UInt64 :=
  if t.kind = .int then
    match count? t with
    | some n => .ok n
    | none => .error (unexpected position t "expected a non-negative count")
  else .error (unexpected position t "expected Int for an item count")

/-- What an opcode expects, for a listing that ends before its operand. -/
def OpcodeForm.context : OpcodeForm → String
  | .bare _ => ""
  | .constant => "a constant"
  | .loadName => "a name"
  | .loadAttr => "an attribute"
  | .buildTuple | .unpackSequence => "an item count"
  | .comparison => "a comparison"
  | .call _ => "a call operand"
  | .jump _ => "a jump target"

/-- Reads the operand of an opcode from a token. -/
def readOperand (form : OpcodeForm) (position : Nat) (t : Lexeme) : Except ListingError Item :=
  match form with
  | .bare op => .ok (.ready op)
  | .constant =>
      match constant? t with
      | some v => .ok (.ready (.loadConst v))
      | none => .error (unexpected position t "expected a literal constant")
  | .loadName => (wordText position t form.context).map fun n => .ready (.loadName n)
  | .loadAttr => (wordText position t form.context).map fun n => .ready (.loadAttr n)
  | .buildTuple => (readCount position t).map fun n => .ready (.buildTuple n)
  | .unpackSequence => (readCount position t).map fun n => .ready (.unpackSequence n)
  | .comparison =>
      match wordText position t form.context with
      | .error e => .error e
      | .ok word =>
          match CompareOp.ofMnemonic? word with
          | some op => .ok (.ready (.compare op))
          | none => .error (unexpected position t "expected lt, le, eq, ne, gt or ge")
  | .call callForm =>
      match operand? t with
      | some raw => .ok (.ready (.call callForm raw))
      | none => .error (unexpected position t "expected a 16-bit call operand")
  | .jump kind => (wordText position t form.context).map fun n => .jump kind n

/-- Puts an item before the items of the rest. -/
def consItem (item : Except ListingError Item) (rest : Except ListingError (List Item)) :
    Except ListingError (List Item) :=
  match item with
  | .error e => .error e
  | .ok i => rest.map (i :: ·)

/-- The items of a token sequence whose first token has the given position. -/
def parse (position : Nat) : List Lexeme → Except ListingError (List Item)
  | [] => .ok []
  | t :: rest =>
      if t.kind ≠ .word then
        .error (unexpected position t "expected Word for an opcode or label")
      else
        let name := String.ofList t.text
        match rest with
        | [] =>
            match opcode? name with
            | none => .error (.unknownOpcode position name)
            | some (.bare op) => .ok [.ready op]
            | some form => .error (.unexpectedEnd form.context)
        | u :: rest' =>
            if u.kind = .colon then
              consItem (.ok (.define name)) (parse (position + 2) rest')
            else
              match opcode? name with
              | none => .error (.unknownOpcode position name)
              | some (.bare op) => consItem (.ok (.ready op)) (parse (position + 1) (u :: rest'))
              | some form =>
                  consItem (readOperand form (position + 1) u) (parse (position + 2) rest')

end Parsing

section Labels

/-- The names of the label lines, in order. -/
def definedNames (items : List Item) : List String :=
  items.filterMap fun
    | .define name => some name
    | _ => none

/-- The first name that occurs again after it was seen. -/
def firstRepeated? (seen : List String) : List String → Option String
  | [] => none
  | name :: rest => if name ∈ seen then some name else firstRepeated? (seen ++ [name]) rest

/-- The number after `n`, if 32 bits hold it. -/
def following? (n : Nat) : Option Nat := if n + 1 < UInt32.size then some (n + 1) else none

/-- The number of the first label that fixes none. -/
def firstFree? (names : List String) : Option Nat :=
  match (names.filterMap fun n => labelNumber? n.toList).max? with
  | none => some 0
  | some n => following? n

/-- Numbers label names in order: a fixed number is kept, others count up from `next`. -/
def assign (next : Option Nat) : List String → Except ListingError (List (String × Label))
  | [] => .ok []
  | name :: rest =>
      match labelNumber? name.toList with
      | some n => (assign next rest).map fun t => (name, ⟨UInt32.ofNat n⟩) :: t
      | none =>
          match next with
          | none => .error (.labelOverflow name)
          | some n =>
              (assign (following? n) rest).map fun t => (name, ⟨UInt32.ofNat n⟩) :: t

/-- The labels of the names that are defined. -/
def numberLabels (items : List Item) : Except ListingError (List (String × Label)) :=
  let names := definedNames items
  match firstRepeated? [] names with
  | some name => .error (.duplicateLabel name)
  | none => assign (firstFree? names) names

def labelOf (labels : List (String × Label)) (name : String) : Except ListingError Label :=
  match Assoc.get? name labels with
  | some l => .ok l
  | none => .error (.undefinedLabel name)

def resolve (labels : List (String × Label)) : Item → Except ListingError Instruction
  | .ready op => .ok op
  | .define name => (labelOf labels name).map Instruction.setLabel
  | .jump kind name => (labelOf labels name).map (Instruction.jump kind)

end Labels

/-- The tokens of a text, or the place where none begins. -/
def tokens (text : List Char) : Except ListingError (List Lexeme) :=
  match scan 0 text with
  | (ts, none) => .ok ts
  | (_, some byte) => .error (.invalidInput byte)

/-- The instructions that a text lists. -/
def assemble (text : List Char) : Except ListingError (List Instruction) := do
  let ts ← tokens text
  let items ← parse 0 ts
  let labels ← numberLabels items
  items.mapM (resolve labels)

end Listing

/-- The code that a listing describes, under the default name. -/
def Code.ofListing (text : String) : Except ListingError Code :=
  (Listing.assemble text.toList).map Code.ofInstructions

end TrackedExpr
