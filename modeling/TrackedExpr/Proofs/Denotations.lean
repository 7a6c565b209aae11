import Mathlib
import TrackedExpr.Proofs.Statements

/-!
# What a constructing expression denotes

The expression for an instruction is read back, by the names of the machine and the literals
of the host language, as the instruction.

**Definitions.**
* `Embedded.behind?`, `Embedded.application`: paths and applications;
* `Embedded.suffixed?`, `Embedded.textOf?`, `Embedded.labelOf?`, `Embedded.valueOf?`: arguments;
* `Embedded.denoted?`: the instruction that an expression constructs;
* `Instruction.Constructed`: the instructions whose expressions are read back.

**Results.**
* `Embedded.cooked?_quoteText`: a text constant denotes its text;
* `Embedded.denoted?_construction`: the expression for an instruction denotes it.
-/

namespace TrackedExpr

/-- An instruction whose constant, if it loads one, has an expression that is read back. -/
def Instruction.Constructed : Instruction → Prop
  | .loadConst v => v.Portable
  | _ => True

namespace Embedded

section Reading

/-- What stands behind a path at the beginning of a text. -/
def behind? (path : String) (cs : List Char) : Option (List Char) :=
  if path.toList.isPrefixOf cs then some (cs.drop path.toList.length) else none

/-- A name, and what stands in the brackets behind it if there are any. -/
def application (cs : List Char) : String × Option (List Char) :=
  (String.ofList (cs.takeWhile (· ≠ '(')),
    match cs.dropWhile (· ≠ '(') with
    | [] => none
    | _ :: rest => if rest.getLast? = some ')' then some rest.dropLast else none)

/-- A decimal integer with the suffix of its type. -/
def suffixed? (suffix : String) (cs : List Char) : Option Int :=
  if suffix.toList.isSuffixOf cs then
    Listing.intOfDigits? (cs.take (cs.length - suffix.toList.length))
  else none

/-- An unsigned integer with the suffix of its type, within its bits. -/
def unsigned? (suffix : String) (bits : Nat) (cs : List Char) : Option Nat :=
  (suffixed? suffix cs).bind fun i => if 0 ≤ i ∧ i < 2 ^ bits then some i.toNat else none

/-- A text constant. -/
def textOf? : List Char → Option String
  | '"' :: rest =>
      match cooked? .text rest with
      | some (value, []) => some (String.ofList value)
      | _ => none
  | _ => none

def labelOf? (cs : List Char) : Option Label :=
  match application cs with
  | (name, some argument) =>
      if name = machine "Label" then
        (unsigned? "u32" 32 argument).map fun n => ⟨UInt32.ofNat n⟩
      else none
  | _ => none

def integerOf? (cs : List Char) : Option Value :=
  (suffixed? "i64" cs).bind fun i =>
    if -2 ^ 63 ≤ i ∧ i < 2 ^ 63 then some (.int (Int64.ofInt i)) else none

/-- The constant that an expression constructs. -/
def valueOf? (cs : List Char) : Option Value :=
  (behind? (machine "Value::") cs).bind fun body =>
    match application body with
    | ("None", none) => some .none
    | ("Bool", some argument) =>
        if argument = "true".toList then some (.bool true)
        else if argument = "false".toList then some (.bool false)
        else none
    | ("Int", some argument) => integerOf? argument
    | ("str", some argument) => (textOf? argument).map Value.str
    | _ => none

/-- A name, which is made from a text constant. -/
def nameOf? (cs : List Char) : Option String :=
  match application cs with
  | (function, some argument) =>
      if function = "::std::rc::Rc::from" then textOf? argument else none
  | _ => none

def binaryNames : List (String × BinaryOp) :=
  [("Add", .add), ("Subtract", .subtract), ("Multiply", .multiply), ("TrueDivide", .trueDivide),
    ("Modulo", .modulo)]

def compareNames : List (String × CompareOp) :=
  [("Lt", .lt), ("Le", .le), ("Eq", .eq), ("Ne", .ne), ("Gt", .gt), ("Ge", .ge)]

/-- The operator that a path names. -/
def operatorOf? {α : Type} (path : String) (names : List (String × α)) (cs : List Char) :
    Option α :=
  (behind? (machine path) cs).bind fun name => Assoc.get? (String.ofList name) names

/-- The instructions that are constructed without an argument. -/
def bareNames : List (String × Instruction) :=
  [("DupTop", .dupTop), ("RotTwo", .rotTwo), ("RotThree", .rotThree), ("PopTop", .popTop),
    ("UnaryNot", .unaryNot), ("UnaryNegative", .unaryNegative), ("ReturnValue", .returnValue)]

/-- The instruction that a constructor makes of its argument. -/
def variantOf? (name : String) (argument : List Char) : Option Instruction :=
  let call := fun (form : CallForm) =>
    (unsigned? "u16" 16 argument).map fun n => Instruction.call form (UInt16.ofNat n)
  let jump := fun (kind : JumpKind) => (labelOf? argument).map (Instruction.jump kind)
  let count := fun (make : UInt64 → Instruction) =>
    (unsigned? "usize" 64 argument).map fun n => make (UInt64.ofNat n)
  match name with
  | "SetLabel" => (labelOf? argument).map .setLabel
  | "LoadConst" => (valueOf? argument).map .loadConst
  | "LoadName" => (nameOf? argument).map .loadName
  | "LoadAttr" => (nameOf? argument).map .loadAttr
  | "BuildTuple" => count .buildTuple
  | "UnpackSequence" => count .unpackSequence
  | "Binary" => (operatorOf? "BinaryOp::" binaryNames argument).map .binary
  | "Compare" => (operatorOf? "CompareOp::" compareNames argument).map .compare
  | "CallFunction" => call .plain
  | "CallFunctionVar" => call .star
  | "CallFunctionKw" => call .mapping
  | "CallFunctionVarKw" => call .starMapping
  | "Jump" => jump .always
  | "PopJumpIfFalse" => jump .popIfFalse
  | "PopJumpIfTrue" => jump .popIfTrue
  | "JumpIfFalseOrPop" => jump .ifFalseOrPop
  | "JumpIfTrueOrPop" => jump .ifTrueOrPop
  | _ => none

/-- The instruction that an expression constructs. -/
def denoted? (expression : String) : Option Instruction :=
  (behind? (machine "Instruction::") expression.toList).bind fun body =>
    match application body with
    | (name, none) => Assoc.get? name bareNames
    | (name, some argument) => variantOf? name argument

end Reading

section Arguments

theorem behind?_append (path rest : String) :
    behind? path (path ++ rest).toList = some rest.toList := by
  have hprefix : path.toList.isPrefixOf (path.toList ++ rest.toList) = true :=
    List.isPrefixOf_iff_prefix.mpr (List.prefix_append _ _)
  rw [behind?, String.toList_append, if_pos hprefix, List.drop_left]

theorem name_all {name : String} (h : '(' ∉ name.toList) :
    ∀ c ∈ name.toList, decide (c ≠ '(') = true := by
  intro c hc
  rw [decide_eq_true_eq]
  rintro rfl
  exact h hc

theorem application_name {name : String} (h : '(' ∉ name.toList) :
    application name.toList = (name, none) := by
  have htake : name.toList.takeWhile (fun c => c ≠ '(') = name.toList :=
    List.takeWhile_eq_self_iff.mpr (name_all h)
  have hdrop : name.toList.dropWhile (fun c => c ≠ '(') = [] :=
    List.dropWhile_eq_nil_iff.mpr (name_all h)
  rw [application, htake, hdrop]
  simp [String.ofList_toList]

theorem application_applied {name : String} (h : '(' ∉ name.toList) (argument : String) :
    application (applied name argument).toList = (name, some argument.toList) := by
  have htext : (applied name argument).toList = name.toList ++ '(' :: (argument.toList ++ [')']) := by
    simp [applied, String.toList_append]
  rw [htext, application, List.takeWhile_append_of_pos (name_all h),
    List.dropWhile_append_of_pos (name_all h)]
  simp [String.ofList_toList]

theorem applied_append (path name argument : String) :
    applied (path ++ name) argument = path ++ applied name argument := by
  simp [applied, String.append_assoc]

theorem suffixed?_append {suffix : String} {ds : List Char} :
    suffixed? suffix (ds ++ suffix.toList) = Listing.intOfDigits? ds := by
  have hsuffix : suffix.toList.isSuffixOf (ds ++ suffix.toList) = true :=
    List.isSuffixOf_iff_suffix.mpr (List.suffix_append _ _)
  rw [suffixed?, if_pos hsuffix]
  simp

theorem toString_toList (n : Nat) : (toString n).toList = natChars n := by
  simp [natChars]

/-- An unsigned literal is read as its value. -/
theorem unsigned?_literal {suffix : String} {bits n : Nat} (h : n < 2 ^ bits) :
    unsigned? suffix bits (toString n ++ suffix).toList = some n := by
  have hint : Listing.intOfDigits? (natChars n) = some (n : Int) := by
    rw [intOfDigits?_of_digits (all_isDigit_natChars n), natOfDigits?_natChars]
    rfl
  have hrange : (0 : Int) ≤ n ∧ (n : Int) < 2 ^ bits := ⟨Int.natCast_nonneg n, by exact_mod_cast h⟩
  rw [unsigned?, String.toList_append, toString_toList, suffixed?_append, hint, Option.bind_some,
    if_pos hrange, Int.toNat_natCast]

/-- Text constants of the host language denote their text. -/
theorem cooked?_quoteText (cs rest : List Char) :
    cooked? .text (quoteText cs ++ '"' :: rest) = some (cs, rest) := by
  have hzero : ∀ more, cooked? .text ('\\' :: 'x' :: '0' :: '0' :: more)
      = prepend '\x00' (cooked? .text more) := by
    intro more
    exact cooked?_escape (by simp) (by simp) rfl (by simp; omega)
  have hletter : ∀ more, cooked? .text ('\\' :: '0' :: more)
      = prepend '\x00' (cooked? .text more) := by
    intro more
    exact cooked?_escape (by simp) (by simp) (escape_letter rfl more) (by simp)
  induction cs using quoteText.induct with
  | case1 => rw [quoteText, List.nil_append, cooked?]
  | case2 d more hd ih =>
      rw [quoteText, if_pos hd, List.append_assoc]
      simp only [List.cons_append, List.nil_append]
      rw [hzero, ih]
      rfl
  | case3 d more hd ih =>
      rw [quoteText, if_neg hd, List.append_assoc]
      simp only [List.cons_append, List.nil_append]
      rw [hletter, ih]
      rfl
  | case4 c more hmore ih =>
      rw [quoteText, List.append_assoc, cooked?_escape_append, ih]
      · rfl
      · exact hmore

theorem textOf?_textLiteral (s : String) : textOf? (textLiteral s).toList = some s := by
  simp [textLiteral, textConstant, textOf?, cooked?_quoteText]

theorem labelOf?_labelText (l : Label) : labelOf? (labelText l).toList = some l := by
  have hlt : l.number.toNat < 2 ^ 32 := l.number.toNat_lt
  have hname : '(' ∉ (machine "Label").toList := by decide
  rw [labelText, labelOf?, application_applied hname]
  dsimp only
  rw [if_pos rfl, unsigned?_literal hlt, Option.map_some, UInt32.ofNat_toNat]

theorem nameOf?_applied (s : String) :
    nameOf? (applied "::std::rc::Rc::from" (textLiteral s)).toList = some s := by
  rw [nameOf?, application_applied (by decide)]
  simp [textOf?_textLiteral]

end Arguments

section Constants

theorem integerOf?_literal (i : Int64) :
    integerOf? (String.ofList (intChars i.toInt) ++ "i64").toList = some (.int i) := by
  have hrange : -2 ^ 63 ≤ i.toInt ∧ i.toInt < 2 ^ 63 := ⟨i.le_toInt, i.toInt_lt⟩
  rw [integerOf?, String.toList_append, String.toList_ofList, suffixed?_append,
    intOfDigits?_intChars, Option.bind_some, if_pos hrange, Int64.ofInt_toInt]

/-- The expression for a constant denotes it. -/
theorem valueOf?_constantText {v : Value} (h : v.Portable) :
    valueOf? (constantText v).toList = some v := by
  cases v with
  | none => rfl
  | bool b =>
      have htext : constantText (.bool b)
          = machine "Value::" ++ applied "Bool" (if b then "true" else "false") :=
        applied_append (machine "Value::") "Bool" _
      rw [htext, valueOf?, behind?_append, Option.bind_some,
        application_applied (by decide)]
      cases b <;> rfl
  | int i =>
      have htext : constantText (.int i)
          = machine "Value::" ++ applied "Int" (String.ofList (intChars i.toInt) ++ "i64") :=
        applied_append (machine "Value::") "Int" _
      rw [htext, valueOf?, behind?_append, Option.bind_some,
        application_applied (by decide)]
      exact integerOf?_literal i
  | str s =>
      have htext : constantText (.str s) = machine "Value::" ++ applied "str" (textLiteral s) :=
        applied_append (machine "Value::") "str" _
      rw [htext, valueOf?, behind?_append, Option.bind_some,
        application_applied (by decide)]
      simp [textOf?_textLiteral]
  | _ => exact False.elim h

end Constants

section Instructions

theorem denoted?_bare {name : String} (h : '(' ∉ name.toList) :
    denoted? (machine "Instruction::" ++ name) = Assoc.get? name bareNames := by
  rw [denoted?, behind?_append, Option.bind_some, application_name h]

theorem denoted?_applied {name : String} (h : '(' ∉ name.toList) (argument : String) :
    denoted? (applied (machine "Instruction::" ++ name) argument)
      = variantOf? name argument.toList := by
  rw [denoted?, applied_append, behind?_append, Option.bind_some, application_applied h]

/-- **The expression for an instruction denotes it.** -/
theorem denoted?_construction {op : Instruction} (h : op.Constructed) :
    denoted? (construction op) = some op := by
  cases op with
  | setLabel l =>
      rw [construction, parts, denoted?_applied (by decide)]
      simp only [variantOf?, labelOf?_labelText, Option.map_some]
  | loadConst v =>
      rw [construction, parts, denoted?_applied (by decide)]
      simp only [variantOf?, valueOf?_constantText h, Option.map_some]
  | loadName n =>
      rw [construction, parts, denoted?_applied (by decide)]
      simp only [variantOf?, nameOf?_applied, Option.map_some]
  | loadAttr n =>
      rw [construction, parts, denoted?_applied (by decide)]
      simp only [variantOf?, nameOf?_applied, Option.map_some]
  | buildTuple n =>
      rw [construction, parts, denoted?_applied (by decide)]
      simp only [variantOf?, unsigned?_literal n.toNat_lt, Option.map_some, UInt64.ofNat_toNat]
  | unpackSequence n =>
      rw [construction, parts, denoted?_applied (by decide)]
      simp only [variantOf?, unsigned?_literal n.toNat_lt, Option.map_some, UInt64.ofNat_toNat]
  | binary op =>
      rw [construction, parts, denoted?_applied (by decide)]
      cases op <;> rfl
  | compare op =>
      rw [construction, parts, denoted?_applied (by decide)]
      cases op <;> rfl
  | call form raw =>
      rw [construction, parts, denoted?_applied (by cases form <;> decide)]
      cases form <;>
        simp only [callName, variantOf?, unsigned?_literal raw.toNat_lt, Option.map_some,
          UInt16.ofNat_toNat]
  | jump kind l =>
      rw [construction, parts, denoted?_applied (by cases kind <;> decide)]
      cases kind <;> simp only [jumpName, variantOf?, labelOf?_labelText, Option.map_some]
  | _ =>
      rw [construction, parts, denoted?_bare (by decide)]
      rfl

end Instructions

end Embedded
end TrackedExpr
