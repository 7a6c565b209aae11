import TrackedExpr.Config
import TrackedExpr.Failure
import TrackedExpr.Observable.Schema

/-!
# Commands

A session is driven by commands.  A command names the things it works on; callbacks
are scripts, which are lists of commands.

**Definitions.**
* `Literal`, `CodeDraft`: values and code whose references are names;
* `ObjectDraft`, `NativeDraft`, `SinkDraft`, `BindingDraft`: things to be made;
* `Command`, `Script`.
-/

namespace TrackedExpr
namespace Session

universe u

/-- A value written with names for objects and native functions. -/
inductive Literal
  | none
  | bool (b : Bool)
  | int (i : Int64)
  | float (x : Float)
  | str (s : String)
  | tuple (items : List Literal)
  | object (name : String)
  | builtin (b : Builtin)
  | native (name : String)

/-- An instruction of a code draft. -/
inductive OpDraft
  | loadConst (value : Literal)
  | plain (op : Instruction)

/-- Code to be made. -/
inductive CodeDraft
  | listing (text : String)
  | ops (name : String) (ops : List OpDraft)

/-- What a native function answers. -/
inductive Behavior
  /-- a tuple of the arguments, with a pair for every keyword argument -/
  | describe
  /-- the sum of the integers and booleans among the arguments, in machine words -/
  | sum
  | first
  | const (value : Literal)
  /-- assigns an attribute of a model -/
  | set
  | fail (error : EvalError)

/-- A native function to be made: what it does first, and what it answers. -/
structure NativeDraft (κ : Type u) where
  behavior : Behavior
  actions : List κ

/-- What kind of object to make. -/
inductive ObjectForm (κ : Type u)
  /-- an object with a schema -/
  | model (schema : String)
  /-- an object that is never observed -/
  | record (typeName : String)
  /-- an object that declares its attributes itself and runs a script before every
  subscription -/
  | source (typeName : String) (described : List (String × AttrDescriptor)) (onObserve : List κ)

/-- An object to be made, with its attributes. -/
structure ObjectDraft (κ : Type u) where
  form : ObjectForm κ
  attrs : List (String × Literal)

/-- What receives the events of a channel or the invalidations of a binding. -/
inductive SinkDraft (κ : Type u)
  | script (actions : List κ)
  | recorder (name : String)

structure BindingDraft where
  code : CodeDraft
  scope : List (String × Literal)
  config : BindingConfig

/-- A change written with names. -/
structure ChangeDraft where
  object : String
  attr : String
  old : Literal
  new : Literal

/-- Which accesses a binder reacts to. -/
inductive BinderKind
  | attribute
  | getattr
deriving DecidableEq, Repr

/-- An access shown to a binder. -/
inductive AccessDraft
  | attribute (value : Literal) (attr : String)
  | call (function : Literal) (args : List Literal) (kwargs : List (String × Literal))

/-- Where a token is issued. -/
inductive TokenSource
  | channel (name : String)
  | binding (name : String)

/-- What can be shown as text. -/
inductive DebugDraft
  | model (name : String)
  | native (name : String)
  | subscription (name : String)
  | change (change : ChangeDraft)

/-- An operation on an arena. -/
inductive ArenaCommand
  | intern (object : String)
  | find (object : String)
  | get (ordinal : Nat)
  | alive (ordinal : Nat)
  | prune
  | clear

/-- What can be asked of a session. -/
inductive Command
  | schema (name : String) (schema : Schema)
  | object (name : String) (draft : ObjectDraft Command)
  | native (name : String) (draft : NativeDraft Command)
  | scope (name : String) (value : Literal)
  | unname (id : String)
  | alive (id : String)
  | set (id attr : String) (value : Literal)
  | get (id attr : String)
  | describe (id attr : String)
  | emit (id attr : String) (old new : Literal)
  | debug (what : DebugDraft)
  | observe (id object attr : String) (actions : List Command)
  | unobserve (id : String)
  | listNew (id : String)
  | listSubscribe (id attr subscription : String) (actions : List Command)
  | listLive (id attr : String)
  | listDispatch (id : String) (change : ChangeDraft)
  | recorderNew (id : String)
  | recorder (id : String)
  | recorderClear (id : String)
  | channelNew (id : String) (sink : SinkDraft Command)
  | channelClone (id copy : String)
  | channelReset (id : String)
  | channelNotify (id : String) (change : ChangeDraft)
  | channelDrop (id : String)
  | tokenNew (id : String) (source : TokenSource)
  | tokenRenew (id renewed : String)
  | token (id : String)
  | tokenNotify (id : String) (change : ChangeDraft)
  | policyNew (id channel : String)
  | policyBind (id : String) (value : Literal) (attr : String)
  | policyContains (id object attr : String)
  | policyPrune (id : String)
  | policyClear (id : String)
  | policyDrop (id : String)
  | binderNew (id : String) (kind : BinderKind) (channel : String)
  | binderSee (id : String) (access : AccessDraft) (hold : Bool)
  | binderPrune (id : String) (hold : Bool)
  | binderDrop (id : String)
  | handleNew (id arena object attr channel : String)
  | handleDrop (id : String)
  | arenaNew (id : String)
  | arena (id : String) (command : ArenaCommand)
  | bindingNew (id : String) (draft : BindingDraft) (sink : SinkDraft Command)
  | reactiveNew (id : String) (draft : BindingDraft) (actions : List Command)
  | evaluate (id : String)
  | reset (id : String)
  | notifierReset (id : String)
  | prune (id : String)
  | binding (id : String)
  | bindingClone (id copy : String)
  | bindingDrop (id : String)
  | trackedNew (id : String) (code : CodeDraft) (channel : String)
  | trackedEval (id : String)
  | trackedDrop (id : String)

abbrev Script := List Command

def Command.verb : Command → String
  | .schema .. => "schema"
  | .object .. => "object"
  | .native .. => "native"
  | .scope .. => "scope"
  | .unname .. => "unname"
  | .alive .. => "alive"
  | .set .. => "set"
  | .get .. => "get"
  | .describe .. => "describe"
  | .emit .. => "emit"
  | .debug .. => "debug"
  | .observe .. => "observe"
  | .unobserve .. => "unobserve"
  | .listNew .. => "list_new"
  | .listSubscribe .. => "list_subscribe"
  | .listLive .. => "list_live"
  | .listDispatch .. => "list_dispatch"
  | .recorderNew .. => "recorder_new"
  | .recorder .. => "recorder"
  | .recorderClear .. => "recorder_clear"
  | .channelNew .. => "channel_new"
  | .channelClone .. => "channel_clone"
  | .channelReset .. => "channel_reset"
  | .channelNotify .. => "channel_notify"
  | .channelDrop .. => "channel_drop"
  | .tokenNew .. => "token_new"
  | .tokenRenew .. => "token_renew"
  | .token .. => "token"
  | .tokenNotify .. => "token_notify"
  | .policyNew .. => "policy_new"
  | .policyBind .. => "policy_bind"
  | .policyContains .. => "policy_contains"
  | .policyPrune .. => "policy_prune"
  | .policyClear .. => "policy_clear"
  | .policyDrop .. => "policy_drop"
  | .binderNew .. => "binder_new"
  | .binderSee .. => "binder_see"
  | .binderPrune .. => "binder_prune"
  | .binderDrop .. => "binder_drop"
  | .handleNew .. => "handle_new"
  | .handleDrop .. => "handle_drop"
  | .arenaNew .. => "arena_new"
  | .arena .. => "arena"
  | .bindingNew .. => "binding_new"
  | .reactiveNew .. => "reactive_new"
  | .evaluate .. => "evaluate"
  | .reset .. => "reset"
  | .notifierReset .. => "notifier_reset"
  | .prune .. => "prune"
  | .binding .. => "binding"
  | .bindingClone .. => "binding_clone"
  | .bindingDrop .. => "binding_drop"
  | .trackedNew .. => "tracked_new"
  | .trackedEval .. => "tracked_eval"
  | .trackedDrop .. => "tracked_drop"

end Session
end TrackedExpr
