import TrackedExpr.Code.Splice
import TrackedExpr.Code.StackProfile
import TrackedExpr.Frame

/-!
# Monitors and instrumentation

A monitor proposes insertions for an instruction sequence.  The two stock
monitors place a side-call in front of every attribute load and of every plain
call: a native function that is told what is about to happen and leaves the stack
as it found it.  Instrumentation keeps the proposals that are stack-neutral at a
reachable site and checks the result.

**Definitions.**
* `attributeSite`, `callSite`: the sequences placed at a site;
* `Monitor.attributes`, `Monitor.calls`: the stock monitors;
* `attributeReport?`, `answerCallSite`: what the side-calls are told and answer;
* `splitArguments`: the arguments of a call, read from its slots;
* `instrument`, `InstrumentError`.
-/

namespace TrackedExpr

/-- A pass that proposes insertions for an instruction sequence. -/
structure Monitor where
  propose : List Instruction → List Insertion

section Sites

/-- Before an attribute load: duplicates the object and hands it with the attribute's name to
the side-call, whose answer is dropped. -/
def attributeSite (sideCall : NativeRef) (attr : String) : List Instruction :=
  [ .dupTop,
    .loadConst (.native sideCall),
    .rotTwo,
    .loadConst (.str attr),
    .call .plain 2,
    .popTop ]

/-- Before a plain call: packs the argument slots, hands callable, slots and operand to the
side-call, and unpacks its answer to the stack as it was. -/
def callSite (sideCall : NativeRef) (raw : UInt16) : List Instruction :=
  let slots := UInt64.ofNat (ArgSpec.decode raw).slots
  [ .buildTuple slots,
    .loadConst (.native sideCall),
    .rotThree,
    .loadConst (.int (Int64.ofNat raw.toNat)),
    .call .plain 3,
    .unpackSequence 2,
    .unpackSequence slots ]

/-- The insertion at one instruction, for a choice of what precedes it. -/
def proposeAt (site : Instruction → Option (List Instruction)) :
    Nat → List Instruction → List Insertion
  | _, [] => []
  | index, op :: rest =>
      match site op with
      | some ops => ⟨index, ops⟩ :: proposeAt site (index + 1) rest
      | none => proposeAt site (index + 1) rest

namespace Monitor

def attributes (sideCall : NativeRef) : Monitor where
  propose := proposeAt (fun
    | .loadAttr a => some (attributeSite sideCall a)
    | _ => none) 0

/-- The monitor of plain calls; other call forms run untouched. -/
def calls (sideCall : NativeRef) : Monitor where
  propose := proposeAt (fun
    | .call .plain raw => some (callSite sideCall raw)
    | _ => none) 0

/-- The monitor that proposes the given insertions for every sequence. -/
def constant (insertions : List Insertion) : Monitor where
  propose := fun _ => insertions

end Monitor

end Sites

section SideCalls

/-- The keyword pairs in a run of name and value slots; a pair whose name is not text is
skipped. -/
def textPairs : List Value → Kwargs
  | .str name :: value :: rest => (name, value) :: textPairs rest
  | _ :: _ :: rest => textPairs rest
  | _ => []

/-- Positional and keyword arguments in the slots of a call. -/
def splitArguments (bundle : List Value) (spec : ArgSpec) : List Value × Kwargs :=
  (bundle.take spec.positional.toNat, textPairs (bundle.drop spec.positional.toNat))

/-- A call about to be made. -/
structure CallReport where
  function : Value
  args : List Value
  kwargs : Kwargs

/-- The access reported by the arguments of an attribute side-call. -/
def attributeReport? : List Value → Option (Value × String)
  | [target, .str attr] => some (target, attr)
  | _ => none

/-- What a call side-call reports, and its answer: the slots in reverse and the callable, which
two unpackings put back as they were. -/
def answerCallSite : List Value → Except EvalError (Option CallReport × Value)
  | [function, .tuple items, raw] =>
      let report := match raw with
        | .int i =>
            let (args, kwargs) := splitArguments items (ArgSpec.decode i.toUInt64.toUInt16)
            some ⟨function, args, kwargs⟩
        | _ => none
      .ok (report, .tuple [.tuple items.reverse, function])
  | [_, bundle, _] => .error (.type (.sideCallNotTuple bundle.typeName))
  | args => .error (.type (.sideCallCount args.length))

/-- The object and attribute name that a call of `getattr` looks up. -/
def getattrAccess? (function : Value) (args : List Value) (kwargs : Kwargs) :
    Option (Value × String) :=
  match function, kwargs, args with
  | .builtin .getattr, [], [target, .str name] => some (target, name)
  | .builtin .getattr, [], [target, .str name, _] => some (target, name)
  | _, _, _ => none

end SideCalls

/-- Why code cannot be instrumented. -/
inductive InstrumentError
  | unanalyzable (cause : StackError)
  | splice (cause : SpliceError)
  | corrupted (cause : StackError)
  | drift (index expected : Nat) (found : Option Nat)
deriving DecidableEq, Repr

def InstrumentError.message : InstrumentError → String
  | .unanalyzable e => "code cannot be analyzed: " ++ e.message
  | .splice e => e.message
  | .corrupted e => "instrumented code cannot be analyzed: " ++ e.message
  | .drift i expected found =>
      let depth := match found with
        | some d => "Some(" ++ toString d ++ ")"
        | none => "None"
      "instruction " ++ toString i ++ " entered at depth " ++ depth
        ++ " after instrumentation, expected " ++ toString expected

section Instrumentation

/-- The height after a straight run of instructions; none if it underflows or branches. -/
def simulate? : List Instruction → Nat → Option Nat
  | [], depth => some depth
  | op :: rest, depth =>
      if op.target?.isSome || op.isTerminal then none
      else
        let e := op.effect false
        if depth < e.pops then none else simulate? rest (depth - e.pops + e.pushes)

/-- Whether an insertion stands at a reachable instruction and is stack-neutral there. -/
def Insertion.isNeutral (profile : StackProfile) (i : Insertion) : Bool :=
  match profile.depthAt? i.index with
  | none => false
  | some entry => simulate? i.ops entry == some entry

/-- The first instruction that is reached at another height than before. -/
def firstDrift (before after : StackProfile) : Nat → List Nat → Option InstrumentError
  | _, [] => none
  | index, position :: rest =>
      match before.depthAt? index with
      | none => firstDrift before after (index + 1) rest
      | some expected =>
          let found := after.depthAt? position
          if found = some expected then firstDrift before after (index + 1) rest
          else some (.drift index expected found)

/-- Checks that every instruction of the code is reached at the height it had before. -/
def verifyDepths (code : Code) (profile : StackProfile) (accepted : List Insertion)
    (instrumented : Code) : Except InstrumentError Unit :=
  match instrumented.stackProfile with
  | .error e => .error (.corrupted e)
  | .ok after =>
      match firstDrift profile after 0 (code.splicedPositions accepted) with
      | some e => .error e
      | none => .ok ()

/-- What all monitors propose, in order. -/
def proposals (monitors : List Monitor) (code : Code) : List Insertion :=
  monitors.flatMap fun m => m.propose code.instructions

def spliceAll (code : Code) (insertions : List Insertion) : Except InstrumentError Code :=
  match code.splice insertions with
  | .error e => .error (.splice e)
  | .ok c => .ok c

/-- Instruments code.  With `verify`, proposals that are not stack-neutral at a reachable
instruction are dropped and the result is checked; without, all are spliced unseen. -/
def instrument (verify : Bool) (code : Code) (monitors : List Monitor) :
    Except InstrumentError Code :=
  let proposed := proposals monitors code
  if verify then
    match code.stackProfile with
    | .error e => .error (.unanalyzable e)
    | .ok profile =>
        let accepted := proposed.filter (Insertion.isNeutral profile)
        match spliceAll code accepted with
        | .error e => .error e
        | .ok instrumented =>
            match verifyDepths code profile accepted instrumented with
            | .error e => .error e
            | .ok () => .ok instrumented
  else spliceAll code proposed

end Instrumentation

end TrackedExpr
