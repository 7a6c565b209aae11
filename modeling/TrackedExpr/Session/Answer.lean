import TrackedExpr.Listing.Assembly
import TrackedExpr.Monitor
import TrackedExpr.Session.Command

/-!
# Answers

What a session says in reply to a command, what it logs on the way, and what can
be seen of it between two commands.

**Definitions.**
* `Fault`, `Fault.message`: why a command was not carried out;
* `Hookup`: the outcome of asking a policy to listen to an attribute;
* `Reply`: the answer to a command;
* `LogEntry`: what callbacks write down;
* `Status`: what can be seen between two commands.
-/

namespace TrackedExpr
namespace Session

/-- Why a command was not carried out. -/
inductive Fault
  | evaluation (cause : EvalError)
  | listing (cause : ListingError)
  | instrumentation (cause : InstrumentError)
  | assignment (cause : ModelError)
  /-- nothing has the name -/
  | noSuch (name : String)
  /-- the thing or number named does not fit the command -/
  | badInput (name : String)
  /-- the policy named is in the middle of a hookup -/
  | busy (name : String)
deriving DecidableEq, Repr

def Fault.message : Fault → String
  | .evaluation e => e.message
  | .listing e => e.message
  | .instrumentation e => e.message
  | .assignment e => e.message
  | .noSuch name | .badInput name | .busy name => name

/-- The outcome of asking a policy to listen to an attribute of a value. -/
inductive Hookup (ι : Type)
  | attached (listener : ι)
  /-- a listener that was there already -/
  | alreadyBound (listener : ι)
  | notAnObject
  | notObservable
  | unobservable (descriptor : AttrDescriptor)
  /-- the channel is gone -/
  | detached
deriving DecidableEq, Repr

/-- The outcome with another name for the listener. -/
def Hookup.map {ι ν : Type} (f : ι → ν) : Hookup ι → Hookup ν
  | .attached l => .attached (f l)
  | .alreadyBound l => .alreadyBound (f l)
  | .notAnObject => .notAnObject
  | .notObservable => .notObservable
  | .unobservable d => .unobservable d
  | .detached => .detached

abbrev Outcome := Except EvalError Value

/-- An event as a recorder keeps it. -/
structure RecordedEvent where
  typeName : String
  attr : String
  old : Value
  new : Value

/-- The attribute of a recorded event, with its type. -/
def RecordedEvent.path (e : RecordedEvent) : String := e.typeName ++ "." ++ e.attr

/-- What an arena operation answers. -/
inductive ArenaReply
  | ordinal (n : Option Nat)
  | object (label : Option String)
  | flag (b : Bool)
  | ordinals (ns : List Nat)
  | nothing

inductive Reply
  | nothing
  | fault (f : Fault)
  | flag (b : Bool)
  | flags (bs : List Bool)
  | count (n : Nat)
  | text (s : String)
  | attribute (v : Option Value)
  /-- the type of an object, what it declares of an attribute if it is observable, and the
  type and declaration of its schema if it has one -/
  | description (typeName : String) (declared : Option AttrDescriptor)
      (schema : Option (String × AttrDescriptor))
  | sizes (len : Nat) (isEmpty : Bool)
  /-- the observers of one attribute, then the whole observer list -/
  | observers (live len : Nat) (isEmpty : Bool) (text : String)
  | recorded (events : List RecordedEvent)
  | generation (n : UInt64) (text : String)
  | token (generation : UInt64) (connected : Bool) (text : String)
  | hookup (h : Hookup (Option Nat))
  | membership (contains isEmpty : Bool)
  | binder (pruned : Option Nat) (len : Nat) (generation : UInt64)
  | handle (subject : Option Nat) (attr : String)
  | arena (reply : ArenaReply) (len : Nat) (text : String)
  | instrumented (b : Bool)
  | result (r : Outcome)
  | binding (value : Option Outcome) (dirty instrumented : Bool) (code plain : Code)
      (text : String)
  | tracked (result : Outcome) (listeners : Option (Nat × Nat))

/-- What callbacks write down. -/
inductive LogEntry
  | call (name : String) (args : List Value) (kwargs : Kwargs)
  | act (command : Command) (reply : Reply)
  /-- the rest of a script was skipped -/
  | exhausted
  | change (id : String) (change : Change)
  | event (id : String) (emitter : Option Nat) (change : Change)
  | invalid (id : String) (dirty : Bool) (change : Change)
  /-- a reactive binding passed on a result -/
  | sink (id : String) (result : Outcome)
  | attributeSite (target : Value) (attr : String)
  | callSite (report : CallReport)

/-- What can be seen of a session between two commands. -/
structure Status where
  /-- live observers of every named observable object -/
  observers : List (String × Nat)
  /-- of every binding: dirtiness, number of dependencies, generation -/
  bindings : List (String × Bool × Nat × UInt64)
  /-- of every policy: number of listeners, generation -/
  policies : List (String × Nat × UInt64)

/-- The answer to a command, what was logged meanwhile, and what can be seen afterwards. -/
structure Response where
  reply : Reply
  log : List LogEntry
  status : Status

end Session
end TrackedExpr
