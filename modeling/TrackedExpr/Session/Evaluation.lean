import TrackedExpr.Execution
import TrackedExpr.Session.Hookup

/-!
# Evaluations

A session is the host of the code it runs: it reads attributes, calls native
functions and answers the side-calls of monitors.

**Definitions.**
* `callNative`, `host`: the session as a host;
* `runCode`: one evaluation, cut off when it takes too many steps;
* `evaluateBinding`: one evaluation of a binding, which ends the generation of its
  channel first.
-/

namespace TrackedExpr
namespace Session

section Calls

/-- Tells a hook that an attribute is about to be loaded. -/
def tellAttribute (re : Reentry) (hook : Hook) (target : Value) (attr : String) (w : Session) :
    Session :=
  match hook with
  | .log => w.note (.attributeSite target attr)
  | .policy p => w.see re p target attr
  | .none => w

/-- Tells a hook that a call is about to be made. -/
def tellCall (re : Reentry) (hook : Hook) (report : CallReport) (w : Session) : Session :=
  match hook with
  | .log => w.note (.callSite report)
  | .policy p =>
      match getattrAccess? report.function report.args report.kwargs with
      | some (target, attr) => w.see re p target attr
      | none => w
  | .none => w

/-- Answers the side-call in front of an attribute load. -/
def answerAttributeSide (re : Reentry) (hook : Hook) (args : List Value) (w : Session) :
    Session × Outcome :=
  match attributeReport? args with
  | some (target, attr) => (w.tellAttribute re hook target attr, .ok .none)
  | none => (w, .ok .none)

/-- Answers the side-call in front of a call. -/
def answerCallSide (re : Reentry) (hook : Hook) (args : List Value) (w : Session) :
    Session × Outcome :=
  match answerCallSite args with
  | .error e => (w, .error e)
  | .ok (some report, answer) => (w.tellCall re hook report, .ok answer)
  | .ok (none, answer) => (w, .ok answer)

/-- The values that a call keeps in use. -/
def NativeCall.values (c : NativeCall) : List Value :=
  c.args ++ c.kwargs.map Prod.snd ++ c.waiting

def callNative (re : Reentry) (c : NativeCall) (w : Session) : Session × Outcome :=
  w.holding (pinValues (NativeCall.values c)) fun w =>
    match w.natives[c.function.id]? with
    | some (.host draft) => re (.native c.function.name draft c.args c.kwargs) w
    | some (.attributeSite hook) => w.answerAttributeSide re hook c.args
    | some (.callSite hook) => w.answerCallSide re hook c.args
    | none => (w, .error (.type (.notCallable (Value.native c.function).typeName)))

end Calls

/-- The session as a host. -/
def host (re : Reentry) : Host Session where
  read := attribute?
  call := callNative re

/-- Runs code in a scope, holding on to both. -/
def execute (re : Reentry) (code : Code) (scope : Scope) (limit : Nat) (w : Session) :
    Execution Session :=
  let pins := pinValues (scope.map Prod.snd ++ code.constants)
  let run := (host re).run code scope limit Frame.start { w with pins := pins ++ w.pins }
  { run with state := { run.state with pins := w.pins } }

def runCode (re : Reentry) (code : Code) (scope : Scope) (w : Session) : Session × Outcome :=
  let run := w.execute re code scope w.patience
  match run.outcome with
  | some r => (run.state, r)
  | none => ({ run.state with stalled := true }, .error .missingReturn)

/-- Evaluates a binding.  The dependencies of the evaluation before are severed first; changes
during the evaluation make the binding dirty but call nobody. -/
def evaluateBinding (re : Reentry) (b : Nat) (w : Session) : Session × Outcome :=
  match w.bindings[b]? with
  | none => (w, .error .missingReturn)
  | some binding =>
      let w := w.resetChannel binding.channel
      let w := w.modifyBinding b fun c => { c with dirty := false, evaluating := true }
      let (w, r) := w.runCode re binding.code binding.scope
      let w := w.modifyBinding b fun c => { c with evaluating := false, last := some r }
      (w, r)

end Session
end TrackedExpr
