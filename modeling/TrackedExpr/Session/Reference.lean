import TrackedExpr.Session.State

/-!
# References

Commands refer to things by name.

**Definitions.**
* `named`: the thing with a name, or the fault that there is none;
* `literal`, `literals`, `entries`: values written with names;
* `codeOf`, `changeOf`: code and changes written with names.
-/

namespace TrackedExpr
namespace Session

universe u

/-- The thing with a name. -/
def named {α : Type u} (table : List (String × α)) (name : String) : Except Fault α :=
  match Assoc.get? name table with
  | some a => .ok a
  | none => .error (.noSuch name)

mutual

def literal (w : Session) : Literal → Except Fault Value
  | .none => .ok .none
  | .bool b => .ok (.bool b)
  | .int i => .ok (.int i)
  | .float x => .ok (.float x)
  | .str s => .ok (.str s)
  | .tuple items => (literals w items).map Value.tuple
  | .object name => (named w.names.objects name).map Value.object
  | .builtin b => .ok (.builtin b)
  | .native name => (named w.names.natives name).map Value.native

def literals (w : Session) : List Literal → Except Fault (List Value)
  | [] => .ok []
  | l :: ls => do
      let v ← literal w l
      let vs ← literals w ls
      return v :: vs

end

/-- Names with the values of literals. -/
def entries (w : Session) (es : List (String × Literal)) : Except Fault (List (String × Value)) :=
  es.mapM fun e => (w.literal e.2).map fun v => (e.1, v)

def opOf (w : Session) : OpDraft → Except Fault Instruction
  | .loadConst l => (w.literal l).map Instruction.loadConst
  | .plain op => .ok op

def opsOf (w : Session) (ops : List OpDraft) : Except Fault (List Instruction) :=
  ops.mapM w.opOf

def codeOf (w : Session) : CodeDraft → Except Fault Code
  | .listing text =>
      match Code.ofListing text with
      | .ok c => .ok c
      | .error e => .error (.listing e)
  | .ops name ops => (w.opsOf ops).map fun ops => ⟨name, ops⟩

def changeOf (w : Session) (draft : ChangeDraft) : Except Fault Change := do
  let object ← named w.names.objects draft.object
  let old ← w.literal draft.old
  let new ← w.literal draft.new
  return ⟨object, draft.attr, old, new⟩

/-- The answer to a command, or why it is not carried out. -/
abbrev Attempt := Except Fault (Session × Reply)

end Session
end TrackedExpr
