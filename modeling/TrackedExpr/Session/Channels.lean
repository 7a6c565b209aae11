import TrackedExpr.Session.Notification
import TrackedExpr.Session.Reference

/-!
# Commands on observers, recorders, channels and tokens

**Definitions.**
* `observeObject`, `subscribeList`, `viewList`, `dispatchList`: observers;
* `sinkOf`: what a channel or binding reports to;
* `makeChannel`, `resetNamed`, `notifyChannel`: channels;
* `issueToken`, `renewToken`, `notifyToken`: tokens;
* `drop`: forgets a name.
-/

namespace TrackedExpr
namespace Session

universe u

/-- Forgets a name, and answers whether it named something.  `get` and `set` choose the table. -/
def drop {α : Type u} (id : String) (get : Names → List (String × α))
    (set : List (String × α) → Names → Names) (w : Session) : Session × Reply :=
  let table := get w.names
  (w.rename (set (Assoc.erase id table)), .flag (Assoc.get? id table).isSome)

section Observers

/-- The object with a name, if it can be observed. -/
def observableNamed (w : Session) (name : String) : Except Fault ObjectRef := do
  let o ← named w.names.objects name
  match w.object? o with
  | some cell => if cell.kind.isObservable then .ok o else .error (.noSuch "observable")
  | none => .error (.noSuch "observable")

/-- Observes an attribute of an object. -/
def observeObject (re : Reentry) (id object attr : String) (actions : Script) (w : Session) :
    Attempt := do
  let o ← w.observableNamed object
  let (w, s) := w.holding (pinValues [.object o]) (observe re o attr (.script id actions))
  return (w.rename fun n => { n with subscriptions := Assoc.put id s n.subscriptions }, .nothing)

def makeList (id : String) (w : Session) : Session × Reply :=
  let l := w.lists.length
  let w := { w with lists := w.lists ++ [[]] }
  (w.rename fun n => { n with lists := Assoc.put id l n.lists }, .nothing)

def sizeReply (w : Session) (source : Source) : Reply :=
  let n := w.observerCount source
  .sizes n (n == 0)

/-- Subscribes to an observer list.  The size answered counts a subscription of the same name
that is replaced. -/
def subscribeList (id attr subscription : String) (actions : Script) (w : Session) :
    Attempt := do
  let l ← named w.names.lists id
  let (w, s) := w.subscribe (.list l) attr (.script subscription actions)
  let reply := sizeReply { w with pins := .subscription s :: w.pins } (.list l)
  return (w.rename fun n =>
    { n with subscriptions := Assoc.put subscription s n.subscriptions }, reply)

/-- The observers of one attribute in a list, and the list, from which those that are gone are
removed. -/
def viewList (id attr : String) (w : Session) : Attempt := do
  let l ← named w.names.lists id
  let held := fun s => w.subscriptionHeld s
  let kept := Observers.prune held (w.observersAt (.list l))
  let live := (Observers.live held attr kept).length
  let n := Observers.count held kept
  return (w.modifyObservers (fun _ => kept) (.list l),
    .observers live n (n == 0) (Observers.debug held kept))

def dispatchList (re : Reentry) (id : String) (draft : ChangeDraft) (w : Session) : Attempt := do
  let l ← named w.names.lists id
  let change ← w.changeOf draft
  return (w.dispatch re (.list l) change, .nothing)

end Observers

section Recorders

def makeRecorder (id : String) (w : Session) : Session × Reply :=
  let r := w.recorders.length
  let w := { w with recorders := w.recorders ++ [[]] }
  (w.rename fun n => { n with recorders := Assoc.put id r n.recorders }, .nothing)

def readRecorder (id : String) (w : Session) : Attempt := do
  let r ← named w.names.recorders id
  return (w, .recorded (w.recorders[r]?.getD []))

def clearRecorder (id : String) (w : Session) : Attempt := do
  let r ← named w.names.recorders id
  return ({ w with recorders := w.recorders.set r [] }, .nothing)

end Recorders

section Channels

/-- What a channel reports to. -/
def sinkOf (w : Session) (id : String) : SinkDraft Command → Except Fault Sink
  | .script actions => .ok (.script id actions)
  | .recorder name => (named w.names.recorders name).map Sink.record

def makeChannel (id : String) (draft : SinkDraft Command) (w : Session) : Attempt := do
  let sink ← w.sinkOf id draft
  let (w, c) := w.addChannel sink
  return (w.rename fun n => { n with channels := Assoc.put id c n.channels }, .nothing)

/-- Gives a channel another name beside those it has. -/
def cloneChannel (id copy : String) (w : Session) : Attempt := do
  let c ← named w.names.channels id
  return (w.rename fun n => { n with channels := Assoc.put copy c n.channels }, .nothing)

def channelText (generation : UInt64) : String :=
  "NotifierProxy \x7b generation: " ++ toString generation.toNat ++ ", .. \x7d"

def resetNamed (id : String) (w : Session) : Attempt := do
  let c ← named w.names.channels id
  let w := w.resetChannel c
  return (w, .generation (w.generation c) (channelText (w.generation c)))

def notifyChannel (re : Reentry) (id : String) (draft : ChangeDraft) (w : Session) :
    Attempt := do
  let c ← named w.names.channels id
  let change ← w.changeOf draft
  return (w.keeping (pinValues change.values) (deliver re c ⟨none, change⟩), .nothing)

end Channels

section Tokens

/-- The channel where a token is issued. -/
def channelOf (w : Session) : TokenSource → Except Fault Nat
  | .channel name => named w.names.channels name
  | .binding name => do
      let b ← named w.names.bindings name
      match w.bindings[b]? with
      | some binding => .ok binding.channel
      | none => .error (.noSuch name)

def nameToken (id : String) (t : Token) (w : Session) : Session :=
  w.rename fun n => { n with tokens := Assoc.put id t n.tokens }

/-- Issues a token for the present generation. -/
def issueToken (id : String) (source : TokenSource) (w : Session) : Attempt := do
  let c ← w.channelOf source
  return (w.nameToken id (w.issue c), .nothing)

/-- Issues a token for the present generation of another token's channel, if that exists. -/
def renewToken (id renewed : String) (w : Session) : Attempt := do
  let t ← named w.names.tokens id
  match w.renew? t with
  | some fresh => return (w.nameToken renewed fresh, .flag true)
  | none => return (w, .flag false)

def tokenText (t : Token) (connected : Bool) : String :=
  "Disconnector \x7b generation: " ++ toString t.generation.toNat ++ ", connected: "
    ++ (if connected then "true" else "false") ++ " \x7d"

def viewToken (id : String) (w : Session) : Attempt := do
  let t ← named w.names.tokens id
  let c := w.connected t
  return (w, .token t.generation c (tokenText t c))

/-- Sends an event with a token, and answers whether it was delivered. -/
def notifyToken (re : Reentry) (id : String) (draft : ChangeDraft) (w : Session) : Attempt := do
  let t ← named w.names.tokens id
  let change ← w.changeOf draft
  let (w, delivered) := w.holding (pinValues change.values) (notify re t ⟨none, change⟩)
  return (w, .flag delivered)

end Tokens

end Session
end TrackedExpr
