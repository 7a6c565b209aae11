import TrackedExpr.Session.Perform

/-!
# Trials

Code and monitors can be tried out in a session without any command.

**Definitions.**
* `callValue`: calls any value;
* `MonitorDraft`, `monitorOf`, `monitorsOf`: monitors that write to the log;
* `dropHooks`: lets the monitors of side-calls go;
* `sideCall`: the side-call that a monitor places in front of an attribute load or a call;
* `trial`: runs code in the session's scope.
-/

namespace TrackedExpr
namespace Session

/-- An insertion written with names. -/
structure InsertionDraft where
  index : Nat
  ops : List OpDraft

/-- A monitor to be made. -/
inductive MonitorDraft
  | attributes
  | calls
  | constant (insertions : List InsertionDraft)

def insertionOf (w : Session) (draft : InsertionDraft) : Except Fault Insertion :=
  (w.opsOf draft.ops).map fun ops => ⟨draft.index, ops⟩

def monitorOf (w : Session) : MonitorDraft → Except Fault (Session × Monitor)
  | .attributes => .ok (w.attributeMonitor .log)
  | .calls => .ok (w.callMonitor .log)
  | .constant insertions => (insertions.mapM w.insertionOf).map fun is => (w, Monitor.constant is)

def monitorsOf (w : Session) : List MonitorDraft → Except Fault (Session × List Monitor)
  | [] => .ok (w, [])
  | draft :: rest => do
      let (w, m) ← w.monitorOf draft
      let (w, ms) ← w.monitorsOf rest
      return (w, m :: ms)

/-- The role of a native function once its monitor is gone. -/
def NativeRole.released : NativeRole → NativeRole
  | .attributeSite _ => .attributeSite .none
  | .callSite _ => .callSite .none
  | role => role

/-- Lets the monitors of all side-calls go. -/
def dropHooks (w : Session) : Session :=
  { w with natives := w.natives.map NativeRole.released }

/-- The native function that a monitor's first proposal for code calls, and where it is placed. -/
def sideCall (m : Monitor) (ops : List Instruction) : Option (NativeRef × Nat) :=
  match m.propose ops with
  | [] => none
  | i :: _ =>
      i.ops.findSome? fun
        | .loadConst (.native f) => some (f, i.index)
        | _ => none

def callValue (re : Reentry) (function : Value) (args : List Value) (kwargs : Kwargs)
    (w : Session) : Session × Outcome :=
  match function with
  | .builtin b => (w, b.call w.attribute? args kwargs)
  | .native ref => w.callNative re ⟨ref, args, kwargs, []⟩
  | v => (w, .error (.type (.notCallable v.typeName)))

/-- Readies a session for something that is not a command. -/
def fresh (w : Session) : Session := { w with actionsLeft := maxActions, log := [] }

/-- Runs code in the session's scope for at most so many steps. -/
def trial (code : Code) (limit : Nat) (w : Session) : Execution Session :=
  w.fresh.execute (enter maxDepth) code w.scope limit

end Session
end TrackedExpr
