import TrackedExpr.Session.Bindings
import TrackedExpr.Session.Objects

/-!
# Carrying out commands

Scripts and native functions run in the middle of other commands and carry out
commands themselves, so carrying out is defined for a given way to re-enter the
session, and the knot is tied by a bound on the nesting.

**Definitions.**
* `attempt`, `perform`: one command;
* `runActions`: a script, as long as there are actions left;
* `enter`: scripts and calls up to a depth of nesting;
* `respond`: one command from outside, with what can be seen afterwards;
* `Session.setUp`, `Session.play`: the things a session begins with, and all its
  commands.
-/

namespace TrackedExpr
namespace Session

section Commands

/-- What a command leads to, or why it is not carried out. -/
def attempt (re : Reentry) (w : Session) : Command → Attempt
  | .schema name s =>
      .ok (w.rename fun n => { n with schemas := Assoc.put name s n.schemas }, .nothing)
  | .object name draft => w.makeObject name draft
  | .native name draft => .ok (w.makeNative name draft)
  | .scope name value => w.bindName name value
  | .unname id => .ok (w.drop id Names.objects fun t n => { n with objects := t })
  | .alive id => .ok (w, .flags (w.livesOf id))
  | .set id attr value => w.setAttr re id attr value
  | .get id attr => w.getAttr id attr
  | .describe id attr => w.describeAttr id attr
  | .emit id attr old new => w.emitChange re id attr old new
  | .debug what => (w.debugText what).map fun text => (w, .text text)
  | .observe id object attr actions => w.observeObject re id object attr actions
  | .unobserve id => .ok (w.drop id Names.subscriptions fun t n => { n with subscriptions := t })
  | .listNew id => .ok (w.makeList id)
  | .listSubscribe id attr subscription actions => w.subscribeList id attr subscription actions
  | .listLive id attr => w.viewList id attr
  | .listDispatch id change => w.dispatchList re id change
  | .recorderNew id => .ok (w.makeRecorder id)
  | .recorder id => w.readRecorder id
  | .recorderClear id => w.clearRecorder id
  | .channelNew id sink => w.makeChannel id sink
  | .channelClone id copy => w.cloneChannel id copy
  | .channelReset id => w.resetNamed id
  | .channelNotify id change => w.notifyChannel re id change
  | .channelDrop id => .ok (w.drop id Names.channels fun t n => { n with channels := t })
  | .tokenNew id source => w.issueToken id source
  | .tokenRenew id renewed => w.renewToken id renewed
  | .token id => w.viewToken id
  | .tokenNotify id change => w.notifyToken re id change
  | .policyNew id channel => w.makePolicy id channel
  | .policyBind id value attr => w.bindNamed re id value attr
  | .policyContains id object attr => w.containsNamed id object attr
  | .policyPrune id => w.pruneNamed id
  | .policyClear id => w.clearNamed id
  | .policyDrop id => .ok (w.drop id Names.policies fun t n => { n with policies := t })
  | .binderNew id kind channel => w.makeBinder id kind channel
  | .binderSee id access hold => w.showAccess re id access hold
  | .binderPrune id hold => w.pruneBinder id hold
  | .binderDrop id => .ok (w.drop id Names.binders fun t n => { n with binders := t })
  | .handleNew id arena object attr channel => w.makeHandle re id arena object attr channel
  | .handleDrop id => .ok (w.drop id Names.handles fun t n => { n with handles := t })
  | .arenaNew id => .ok (w.makeArena id)
  | .arena id command => w.useArena id command
  | .bindingNew id draft sink => w.makeNamedBinding id draft sink
  | .reactiveNew id draft actions => w.makeReactive re id draft actions
  | .evaluate id => w.evaluateNamed re id
  | .reset id => w.resetBinding id
  | .notifierReset id => w.resetNotifier id
  | .prune id => w.pruneBinding id
  | .binding id => w.viewBinding id
  | .bindingClone id copy => w.cloneBinding id copy
  | .bindingDrop id => .ok (w.drop id Names.bindings fun t n => { n with bindings := t })
  | .trackedNew id code channel => w.makeTracked id code channel
  | .trackedEval id => w.evaluateTracked re id
  | .trackedDrop id => w.dropMonitors id

/-- Carries out a command.  A command at fault changes nothing. -/
def perform (re : Reentry) (c : Command) (w : Session) : Session × Reply :=
  match attempt re w c with
  | .ok r => r
  | .error f => (w, .fault f)

end Commands

section Reentry

/-- Carries out the commands of a script as long as there are actions left. -/
def runActions (re : Reentry) : Script → Session → Session
  | [], w => w
  | c :: rest, w =>
      if w.actionsLeft = 0 then w.note .exhausted
      else
        let (w, r) := { w with actionsLeft := w.actionsLeft - 1 }.perform re c
        runActions re rest (w.note (.act c r))

/-- Does what has to be done in the middle of something else. -/
def carryOut (re : Reentry) : Entry → Session → Session × Outcome
  | .script actions, w => (w.runActions re actions, .ok .none)
  | .native name draft args kwargs, w =>
      let w := (w.note (.call name args kwargs)).runActions re draft.actions
      w.behave re draft.behavior args kwargs

/-- Re-enters a session at most `depth` deep. -/
def enter : Nat → Reentry
  | 0 => fun _ w => ({ w with stalled := true }, .error .missingReturn)
  | depth + 1 => carryOut (enter depth)

end Reentry

section Outside

/-- How deep callbacks may be nested. -/
def maxDepth : Nat := 2000

/-- How many commands of scripts one command from outside may cause. -/
def maxActions : Nat := 100

/-- What can be seen of a session between two commands. -/
def status (w : Session) : Status where
  observers := w.names.objects.filterMap fun e =>
    match w.object? e.2 with
    | some cell =>
        if cell.kind.isObservable then some (e.1, w.observerCount (.object e.2.id)) else none
    | none => none
  bindings := w.names.bindings.filterMap fun e =>
    w.bindings[e.2]?.map fun b => (e.1, b.dirty, w.dependencyCount b, w.generation b.channel)
  policies := w.names.policies.filterMap fun e =>
    w.policies[e.2]?.map fun p => (e.1, w.policySize p, p.registry.token.generation)

/-- Carries out a command from outside. -/
def respond (c : Command) (w : Session) : Session × Response :=
  let (w, r) := { w with actionsLeft := maxActions, log := [] }.perform (enter maxDepth) c
  (w, ⟨r, w.log.reverse, w.status⟩)

/-- Carries out commands from outside one after the other. -/
def play : List Command → Session → List Response
  | [], _ => []
  | c :: rest, w =>
      let (w, r) := w.respond c
      r :: play rest w

/-- A session in which commands have been carried out, or the first fault. -/
def setUp (patience : Nat) (commands : List Command) : Except Fault Session :=
  commands.foldlM (fun w c => (attempt (enter maxDepth) w c).map Prod.fst)
    { patience := patience }

end Outside

end Session
end TrackedExpr
