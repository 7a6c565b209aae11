import TrackedExpr.Session.Channels

/-!
# Commands on policies, binders, handles and arenas

**Definitions.**
* `makePolicy`, `bindNamed`, `containsNamed`, `pruneNamed`, `clearNamed`: policies;
* `makeBinder`, `showAccess`, `pruneBinder`: binders, which feed a policy;
* `makeHandle`: a listener that belongs to no policy;
* `makeArena`, `useArena`: arenas.
-/

namespace TrackedExpr
namespace Session

section Policies

def makePolicy (id channel : String) (w : Session) : Attempt := do
  let c ← named w.names.channels channel
  let (w, p) := w.addPolicy c
  let w := { w with policyHistory := w.policyHistory ++ [(channel, p)] }
  return (w.rename fun n => { n with policies := Assoc.put id p n.policies }, .nothing)

/-- A policy that is not in the middle of a hookup. -/
def idle (w : Session) (id : String) (p : Nat) : Except Fault Policy :=
  match w.policies[p]? with
  | some policy => if policy.busy then .error (.busy id) else .ok policy
  | none => .error (.noSuch id)

/-- The listeners that a policy attached on request. -/
def attachedTo (w : Session) (p : Nat) : List SlotKey :=
  match w.policies[p]? with
  | some policy => policy.attached
  | none => []

/-- Counts a new listener among those attached on request. -/
def countListener (p : Nat) (h : Hookup SlotKey) (w : Session) : Session :=
  match h with
  | .attached key => w.modifyPolicy p fun c => { c with attached := c.attached ++ [key] }
  | _ => w

/-- Asks a policy to listen to an attribute of a value. -/
def bindNamed (re : Reentry) (id : String) (value : Literal) (attr : String) (w : Session) :
    Attempt := do
  let p ← named w.names.policies id
  let v ← w.literal value
  let _ ← w.idle id p
  let (w, h) := w.holding [.policy p, .value v] (hookUp re p v attr)
  let w := w.countListener p h
  return (w, .hookup (h.map fun key => (w.attachedTo p).idxOf? key))

/-- Whether a policy listens to an attribute of an object, and whether it listens to nothing. -/
def containsNamed (id object attr : String) (w : Session) : Attempt := do
  let p ← named w.names.policies id
  let o ← named w.names.objects object
  let policy ← w.idle id p
  let r := policy.registry
  return (w, .membership (w.connected r.token && r.contains w.objectAlive o attr)
    (w.policySize policy == 0))

/-- Drops the listeners whose objects are gone. -/
def pruneNamed (id : String) (w : Session) : Attempt := do
  let p ← named w.names.policies id
  let _ ← w.idle id p
  let (w, n) := w.prunePolicy p
  return (w, .count n)

def clearNamed (id : String) (w : Session) : Attempt := do
  let p ← named w.names.policies id
  let policy ← w.idle id p
  return (w.setRegistry p policy.registry.clear, .nothing)

end Policies

section Binders

/-- Makes a binder, with a policy of its own. -/
def makeBinder (id : String) (kind : BinderKind) (channel : String) (w : Session) :
    Attempt := do
  let c ← named w.names.channels channel
  let (w, p) := w.addPolicy c
  return (w.rename fun n => { n with binders := Assoc.put id (kind, p) n.binders }, .nothing)

/-- What a binder shows of its policy. -/
def binderReply (w : Session) (p : Nat) (pruned : Option Nat) : Reply :=
  match w.policies[p]? with
  | some policy => .binder pruned (w.policySize policy) policy.registry.token.generation
  | none => .binder pruned 0 0

/-- The attribute that an access looks up, if a binder reacts to the access; and the values in
use. -/
def accessOf (w : Session) : AccessDraft → Except Fault (Option (Value × String) × List Value)
  | .attribute value attr => do
      let v ← w.literal value
      return (some (v, attr), [v])
  | .call function args kwargs => do
      let f ← w.literal function
      let vs ← w.literals args
      let es ← w.entries kwargs
      return (getattrAccess? f vs es, f :: vs ++ es.map Prod.snd)

/-- Shows an access to a binder.  A policy that is held elsewhere tracks nothing. -/
def showAccess (re : Reentry) (id : String) (access : AccessDraft) (hold : Bool) (w : Session) :
    Attempt := do
  let (_, p) ← named w.names.binders id
  let (target, inUse) ← w.accessOf access
  let _ ← w.idle id p
  let w := match target, hold with
    | some (v, attr), false => w.keeping (pinValues inUse) (see re p v attr)
    | _, _ => w
  return (w, w.binderReply p none)

/-- Drops the listeners of a binder whose objects are gone; none if its policy is held
elsewhere. -/
def pruneBinder (id : String) (hold : Bool) (w : Session) : Attempt := do
  let (_, p) ← named w.names.binders id
  let _ ← w.idle id p
  let (w, n) := if hold then (w, 0) else w.prunePolicy p
  return (w, w.binderReply p (some n))

end Binders

section Arenas

def Arena.empty : Arena := ⟨SubjectArena.empty, []⟩

def makeArena (id : String) (w : Session) : Session × Reply :=
  let a := w.arenas.length
  let w := { w with arenas := w.arenas ++ [Arena.empty] }
  (w.rename fun n => { n with arenas := Assoc.put id a n.arenas }, .nothing)

/-- The arena with a name, and its number. -/
def arenaNamed (w : Session) (id : String) : Except Fault (Nat × Arena) := do
  let a ← named w.names.arenas id
  match w.arenas[a]? with
  | some arena => .ok (a, arena)
  | none => .error (.noSuch id)

/-- Interns an object, and numbers its key among the keys handed out. -/
def Arena.intern (alive : ObjectRef → Bool) (a : Arena) (o : ObjectRef) : Arena × SlotKey :=
  let (subjects, key) := a.subjects.intern alive o
  let handed := if key ∈ a.handed then a.handed else a.handed ++ [key]
  ({ subjects := subjects, handed := handed }, key)

def Arena.keyAt (a : Arena) (ordinal : Nat) : Except Fault SlotKey :=
  match a.handed[ordinal]? with
  | some key => .ok key
  | none => .error (.badInput "n")

def Arena.ordinals (a : Arena) (keys : List SlotKey) : List Nat :=
  (keys.filterMap fun key => a.handed.idxOf? key).mergeSort fun m n => m ≤ n

/-- An operation on an arena. -/
def Arena.use (w : Session) (a : Arena) : ArenaCommand → Except Fault (Arena × ArenaReply)
  | .intern object => do
      let o ← named w.names.objects object
      let (a, key) := a.intern w.objectAlive o
      return (a, .ordinal (a.handed.idxOf? key))
  | .find object => do
      let o ← named w.names.objects object
      let key := a.subjects.find? w.objectAlive o
      return (a, .ordinal (key.bind fun key => a.handed.idxOf? key))
  | .get n => do
      let key ← a.keyAt n
      return (a, .object ((a.subjects.get? w.objectAlive key).map ObjectRef.label))
  | .alive n => do
      let key ← a.keyAt n
      return (a, .flag (a.subjects.isAlive w.objectAlive key))
  | .prune =>
      let (subjects, keys) := a.subjects.prune w.objectAlive
      .ok ({ a with subjects := subjects }, .ordinals (a.ordinals keys))
  | .clear => .ok ({ a with subjects := a.subjects.clear }, .nothing)

/-- Carries out an operation on an arena. -/
def useArena (id : String) (command : ArenaCommand) (w : Session) : Attempt := do
  let (n, arena) ← w.arenaNamed id
  let (arena, reply) ← Arena.use w arena command
  return (w.modifyArena n fun _ => arena,
    .arena reply arena.subjects.size arena.subjects.debug)

/-- Makes a listener that belongs to no policy. -/
def makeHandle (re : Reentry) (id arena object attr channel : String) (w : Session) :
    Attempt := do
  let (n, a) ← w.arenaNamed arena
  let o ← w.observableNamed object
  let c ← named w.names.channels channel
  let (a, key) := a.intern w.objectAlive o
  let token := w.issue c
  let w := w.modifyArena n fun _ => a
  let (w, s) := w.holding (pinValues [.object o]) (observe re o attr (.forward none token))
  return (w.rename fun names => { names with handles := Assoc.put id s names.handles },
    .handle (a.handed.idxOf? key) attr)

end Arenas

end Session
end TrackedExpr
