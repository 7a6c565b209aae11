import TrackedExpr.Session.Policies

/-!
# Commands on bindings and tracked code

**Definitions.**
* `makeBinding`: instruments code for a new channel with policies of its own;
* `makeNamedBinding`, `makeReactive`, `evaluateNamed`, `resetBinding`, `pruneBinding`,
  `viewBinding`: bindings;
* `makeTracked`, `evaluateTracked`, `dropMonitors`: instrumented code without a binding.
-/

namespace TrackedExpr
namespace Session

section Making

/-- The monitor whose side-calls feed a policy with attribute loads. -/
def attributeMonitor (hook : Hook) (w : Session) : Session × Monitor :=
  let (w, f) := w.addNative "attribute_binder" (.attributeSite hook)
  (w, Monitor.attributes f)

/-- The monitor whose side-calls tell of calls. -/
def callMonitor (hook : Hook) (w : Session) : Session × Monitor :=
  let (w, f) := w.addNative "call_binder" (.callSite hook)
  (w, Monitor.calls f)

/-- Makes a policy and a monitor that feeds it, if wanted. -/
def monitorFor (wanted : Bool) (channel : Nat) (make : Hook → Session → Session × Monitor)
    (w : Session) : Session × Option (Nat × Monitor) :=
  if wanted then
    let (w, p) := w.addPolicy channel
    let (w, m) := make (.policy p) w
    (w, some (p, m))
  else (w, none)

/-- The code to be run instead of the given code, if any. -/
def instrumentFor (config : BindingConfig) (code : Code) (monitors : List Monitor) :
    Except InstrumentError (Option Code) :=
  if !config.tracksAnything then .ok none
  else
    match instrument config.verifyStack code monitors with
    | .ok c => .ok (some c)
    | .error e => if config.fallbackUninstrumented then .ok none else .error e

def makeBinding (code : Code) (scope : Scope) (config : BindingConfig) (onInvalid : Invalidation)
    (w : Session) : Except Fault (Session × Nat) :=
  let b := w.bindings.length
  let (w, c) := w.addChannel (.binding b)
  let (w, attributes) := w.monitorFor config.monitorAttributes c attributeMonitor
  let (w, getattr) := w.monitorFor config.monitorGetattr c callMonitor
  let monitors := (attributes.toList ++ getattr.toList).map Prod.snd
  match instrumentFor config code monitors with
  | .error e => .error (.instrumentation e)
  | .ok instrumented =>
      .ok (w.addBinding
        { plain := code
          instrumented := instrumented
          scope := scope
          channel := c
          attributes := attributes.map Prod.fst
          getattr := getattr.map Prod.fst
          onInvalid := onInvalid
          last := none
          dirty := true
          evaluating := false })

/-- Makes a binding as drafted; its scope is a copy of the session's with further entries. -/
def makeDrafted (draft : BindingDraft) (onInvalid : Invalidation) (w : Session) :
    Except Fault (Session × Nat) := do
  let code ← w.codeOf draft.code
  let added ← w.entries draft.scope
  let scope := added.foldl (fun s e => Assoc.put e.1 e.2 s) w.scope
  w.makeBinding code scope draft.config onInvalid

end Making

section Bindings

/-- Names a binding and answers whether it is instrumented. -/
def nameBinding (id : String) (b : Nat) (w : Session) : Session × Reply :=
  let instrumented := match w.bindings[b]? with
    | some binding => binding.instrumented.isSome
    | none => false
  (w.rename fun n => { n with bindings := Assoc.put id b n.bindings }, .instrumented instrumented)

/-- What a binding reports to. -/
def invalidationOf (w : Session) (id : String) : SinkDraft Command → Except Fault Invalidation
  | .script actions => .ok (.script id actions)
  | .recorder name => (named w.names.recorders name).map Invalidation.record

/-- Makes a binding that reports that it is invalid. -/
def makeNamedBinding (id : String) (draft : BindingDraft) (sink : SinkDraft Command)
    (w : Session) : Attempt := do
  let onInvalid ← w.invalidationOf id sink
  let (w, b) ← w.makeDrafted draft onInvalid
  return w.nameBinding id b

/-- Makes a binding that evaluates again whenever it is invalid.  It has its name only after its
first result was passed on. -/
def makeReactive (re : Reentry) (id : String) (draft : BindingDraft) (actions : Script)
    (w : Session) : Attempt := do
  let (w, b) ← w.makeDrafted draft (.rerun id actions)
  let w := w.keeping [.binding b] fun w =>
    let (w, r) := w.evaluateBinding re b
    w.passOn re id actions r
  return w.nameBinding id b

/-- The binding with a name, and its number. -/
def bindingNamed (w : Session) (id : String) : Except Fault (Nat × Binding) := do
  let b ← named w.names.bindings id
  match w.bindings[b]? with
  | some binding => .ok (b, binding)
  | none => .error (.noSuch id)

def evaluateNamed (re : Reentry) (id : String) (w : Session) : Attempt := do
  let (b, _) ← w.bindingNamed id
  let (w, r) := w.holding [.binding b] (evaluateBinding re b)
  return (w, .result r)

/-- Severs the dependencies of a binding and makes it dirty. -/
def resetBinding (id : String) (w : Session) : Attempt := do
  let (b, binding) ← w.bindingNamed id
  let w := w.resetChannel binding.channel
  return (w.modifyBinding b fun c => { c with dirty := true }, .nothing)

def resetNotifier (id : String) (w : Session) : Attempt := do
  let (_, binding) ← w.bindingNamed id
  return (w.resetChannel binding.channel, .nothing)

/-- Drops the listeners of policies whose objects are gone. -/
def prunePolicies : List Nat → Session → Session × Nat
  | [], w => (w, 0)
  | p :: ps, w =>
      let (w, n) := w.prunePolicy p
      let (w, m) := prunePolicies ps w
      (w, n + m)

def pruneBinding (id : String) (w : Session) : Attempt := do
  let (_, binding) ← w.bindingNamed id
  let (w, n) := prunePolicies binding.policies w
  return (w, .count n)

def bindingText (w : Session) (b : Binding) : String :=
  let flag := fun b : Bool => if b then "true" else "false"
  "ExpressionBinding \x7b code: " ++ String.ofList (Text.quote b.plain.name.toList)
    ++ ", instrumented: " ++ flag b.instrumented.isSome ++ ", dirty: " ++ flag b.dirty
    ++ ", generation: " ++ toString (w.generation b.channel).toNat ++ ", .. \x7d"

def viewBinding (id : String) (w : Session) : Attempt := do
  let (_, b) ← w.bindingNamed id
  return (w, .binding b.last b.dirty b.instrumented.isSome b.code b.plain (w.bindingText b))

/-- Gives a binding another name beside those it has. -/
def cloneBinding (id copy : String) (w : Session) : Attempt := do
  let b ← named w.names.bindings id
  return (w.rename fun n => { n with bindings := Assoc.put copy b n.bindings }, .nothing)

end Bindings

section TrackedCode

def nameTracked (id : String) (t : Tracked) (w : Session) : Session :=
  w.rename fun n => { n with tracked := Assoc.put id t n.tracked }

/-- Instruments code with both monitors on a channel, and answers its length. -/
def makeTracked (id : String) (draft : CodeDraft) (channel : String) (w : Session) :
    Attempt := do
  let code ← w.codeOf draft
  let c ← named w.names.channels channel
  let (w, attributes) := w.addPolicy c
  let (w, loads) := w.attributeMonitor (.policy attributes)
  let (w, getattr) := w.addPolicy c
  let (w, calls) := w.callMonitor (.policy getattr)
  match instrument true code [loads, calls] with
  | .error e => .error (.instrumentation e)
  | .ok instrumented =>
      return (w.nameTracked id ⟨instrumented, some (attributes, getattr)⟩,
        .count instrumented.size)

def listenerCount (w : Session) (p : Nat) : Nat :=
  match w.policies[p]? with
  | some policy => w.policySize policy
  | none => 0

/-- Runs tracked code in the session's scope. -/
def evaluateTracked (re : Reentry) (id : String) (w : Session) : Attempt := do
  let t ← named w.names.tracked id
  let (w, r) := w.runCode re t.code w.scope
  let monitors := (Assoc.get? id w.names.tracked).bind Tracked.monitors
  let listeners := monitors.map fun m => (w.listenerCount m.1, w.listenerCount m.2)
  return (w, .tracked r listeners)

/-- Drops the monitors of tracked code, and answers whether it had any. -/
def dropMonitors (id : String) (w : Session) : Attempt := do
  let t ← named w.names.tracked id
  return (w.nameTracked id { t with monitors := none }, .flag t.monitors.isSome)

end TrackedCode

end Session
end TrackedExpr
