import TrackedExpr.Proofs.Policies
import TrackedExpr.Session.Perform

/-!
# The books of a policy and the observers of its objects

Whatever a program does with a policy, the entries of its index, its listeners and the
observers of its objects correspond to each other one to one, and its answers name each
listener after one object and attribute only.

**Definitions.**
* `reachedSince`: the observers that a change reaches, of those subscribed since a certain
  time;
* `ExactBooks`: index, listeners and observers correspond;
* `SteadyAnswers`: what has been answered and will be answered;
* `PrunesExactly`: what pruning drops.

**Results.**
* `mem_heldSubscriptions_iff`: of what was subscribed since the outset, the policy holds
  what is held;
* `mem_reachedSince`, `reachedSince_eq`: those observers belong to the listeners;
* `policy_books_exact`: all of it holds in every session that a program reaches.
-/

namespace TrackedExpr
namespace Session

/-- The observers that a change of an attribute of an object reaches, of those that were subscribed
since a certain time. -/
def reachedSince (w : Session) (first id : Nat) (attr : String) : List (Observer Reaction) :=
  (w.reached id attr).filter fun ob => first ≤ ob.subscription

/-- Index, listeners and observers correspond: an entry for each listener and a listener for each
entry, every object in the arena, and of the observers subscribed since the policy was made one
for each entry and no other. -/
structure ExactBooks (p first : Nat) (w : Session) (P : Policy) : Prop where
  policy : w.policies[p]? = some P
  indexed : ∀ subject attr key, Assoc.get? (subject, attr) P.registry.index = some key ↔
    ∃ l, P.registry.listeners.get? key = some l ∧ l.subject = subject ∧ l.attr = attr
  placed : ∀ subject attr key, Assoc.get? (subject, attr) P.registry.index = some key →
    ∃ o, P.registry.subjects.slots.get? subject = some o
  subscribed : ∀ subject attr key l o, Assoc.get? (subject, attr) P.registry.index = some key →
    P.registry.listeners.get? key = some l → P.registry.subjects.slots.get? subject = some o →
      w.reachedSince first o.id attr
        = [⟨attr, l.subscription, .forward (some key) P.registry.token⟩]
  unsubscribed : ∀ o attr, w.HasObject o → (∀ subject,
    P.registry.subjects.slots.get? subject = some o →
      Assoc.get? (subject, attr) P.registry.index = none) → w.reachedSince first o.id attr = []

/-- No object and attribute got two new listeners since the policy last started from nothing, a
listener is named after one object and attribute only, and as long as object and channel exist the
next answer for them names it again. -/
structure SteadyAnswers (re : Reentry) (p c : Nat) (w : Session) (answers : List Answer) :
    Prop where
  once : (answers.filterMap Answer.newPair?).Nodup
  shared : ∀ a ∈ answers, ∀ b ∈ answers, ∀ key, a.hookup.key? = some key →
    b.hookup.key? = some key → a.object = b.object ∧ a.attr = b.attr
  same : ∀ a ∈ answers, ∀ key, a.hookup.key? = some key → w.channelAlive c = true →
    w.Present a.object → (w.bindTo re p (.object a.object) a.attr).2 = .alreadyBound key

/-- Pruning drops the listeners whose objects are gone, leaves the others in place, and answers
the number of those dropped. -/
def PrunesExactly (p : Nat) (w : Session) (P : Policy) : Prop :=
  (∃ P', (w.prunePolicy p).1.policies[p]? = some P' ∧
    ∀ key, P'.registry.listeners.get? key
      = (P.registry.listeners.get? key).filter (P.registry.serves w.objectAlive)) ∧
  (w.prunePolicy p).2
    = (P.registry.listeners.entries.filter fun e => !P.registry.serves w.objectAlive e.2).length

section Observers

variable {p c : Nat} {sink : Sink} {start w : Session} {P : Policy} {answers : List Answer}
  {n : Nat} {o : ObjectRef} {attr : String}

/-- Of what was subscribed since the outset nobody but the policy holds anything. -/
theorem mem_heldSubscriptions_iff (hstart : Outset p c sink start)
    (hground : Ground c sink start w n) (hclerk : Clerk p c start w P) {s : Nat}
    (hs : start.subscriptions ≤ s) : s ∈ w.heldSubscriptions ↔ s ∈ P.registry.subscriptions := by
  refine ⟨?_, hclerk.held hground hstart.named⟩
  intro hheld
  have hold : ¬ s < start.subscriptions := Nat.not_lt.mpr hs
  have hnames : w.names.subscriptions = start.names.subscriptions ∧
      w.names.handles = start.names.handles := by
    rw [hground.names]
    exact ⟨rfl, rfl⟩
  rw [heldSubscriptions, hground.pins, hnames.1, hnames.2, List.filterMap_nil, List.append_nil,
    List.mem_append] at hheld
  rcases hheld with hnamed | hpolicy
  · exact absurd (hstart.held s hnamed) hold
  · obtain ⟨Q, hQ, hsQ⟩ := List.mem_flatMap.mp hpolicy
    rw [livePolicies, List.mem_map] at hQ
    obtain ⟨⟨Q, q⟩, hentry, rfl⟩ := hQ
    have hplace := List.mem_zipIdx_iff_getElem?.mp (List.mem_filter.mp hentry).1
    dsimp only at hplace hsQ
    by_cases hq : q = p
    · subst hq
      obtain rfl := Option.some.inj (hplace.symm.trans hclerk.policy)
      exact hsQ
    · rw [hclerk.others q hq] at hplace
      exact absurd (hstart.others q Q hq hplace s hsQ) hold

/-- An observer that was subscribed since the outset and is reached belongs to a listener. -/
theorem mem_reachedSince (hstart : Outset p c sink start) (hground : Ground c sink start w n)
    (hclerk : Clerk p c start w P) (ho : w.HasObject o) {ob : Observer Reaction}
    (hob : ob ∈ w.reachedSince start.subscriptions o.id attr) :
    ∃ key l, P.registry.listeners.get? key = some l ∧ l.attr = attr ∧
      P.registry.subjects.slots.get? l.subject = some o ∧ ob.subscription = l.subscription := by
  obtain ⟨hreached, hfirst⟩ := List.mem_filter.mp hob
  obtain ⟨hattr, hheld, cell, hcell, hmem⟩ := mem_reached.mp hreached
  rw [mem_heldSubscriptions_iff hstart hground hclerk (of_decide_eq_true hfirst)] at hheld
  obtain ⟨key, l, hl, hsame⟩ := Registry.mem_subscriptions_iff.mp hheld
  obtain ⟨x, hx⟩ := hclerk.exact.placed key l hl
  have hplaced : ob ∈ w.subscribers o.id l.subscription := by
    rw [subscribers, observersAt, hcell]
    exact List.mem_filter.mpr ⟨hmem, decide_eq_true hsame.symm⟩
  rw [hclerk.placed key l x hl hx] at hplaced
  split at hplaced
  · next hid =>
      rw [List.mem_singleton] at hplaced
      obtain ⟨cell', hcell', rfl⟩ := (hclerk.known _ x hx).1
      obtain ⟨cell, hcell, rfl⟩ := ho
      rw [object?, ← hid] at hcell'
      obtain rfl := Option.some.inj (hcell.symm.trans hcell')
      exact ⟨key, l, hl, by rw [← hattr, hplaced], hx, hsame.symm⟩
  · cases hplaced

/-- Of those subscribed since the outset, exactly the observer of the listener is reached. -/
theorem reachedSince_eq (hstart : Outset p c sink start) (hground : Ground c sink start w n)
    (hclerk : Clerk p c start w P) {key : SlotKey} {l : Listener}
    (hl : P.registry.listeners.get? key = some l)
    (ho : P.registry.subjects.slots.get? l.subject = some o) :
    w.reachedSince start.subscriptions o.id l.attr
      = [⟨l.attr, l.subscription, .forward (some key) P.registry.token⟩] := by
  have hplaced := hclerk.placed key l o hl ho o.id
  rw [if_pos rfl] at hplaced
  rw [← hplaced, reachedSince, reached, Observers.live, Observers.prune, List.filter_filter,
    List.filter_filter, subscribers]
  apply List.filter_congr
  intro ob hob
  have hfirst := (hclerk.numbered key l hl).1
  have hheld : l.subscription ∈ w.heldSubscriptions :=
    hclerk.held hground hstart.named (Registry.mem_subscriptions hl)
  rw [Bool.eq_iff_iff]
  simp only [Bool.and_eq_true, decide_eq_true_eq]
  constructor
  · rintro ⟨⟨hsince, hattr⟩, hobheld⟩
    have hmem : ob ∈ w.reachedSince start.subscriptions o.id l.attr := by
      rw [reachedSince, reached, Observers.live, Observers.prune, List.mem_filter,
        List.mem_filter, List.mem_filter]
      exact ⟨⟨⟨hob, decide_eq_true hobheld⟩, decide_eq_true hattr⟩, decide_eq_true hsince⟩
    obtain ⟨key', l', hl', hattr', ho', hsame⟩ :=
      mem_reachedSince hstart hground hclerk (hclerk.known _ o ho).1 hmem
    have hsubject := hclerk.exact.subjects.key_eq ho' ho rfl
    have hkey := (hclerk.exact.indexed l.subject l.attr key).mpr ⟨l, hl, rfl, rfl⟩
    have hkey' := (hclerk.exact.indexed l.subject l.attr key').mpr ⟨l', hl', hsubject, hattr'⟩
    obtain rfl := Option.some.inj (hkey.symm.trans hkey')
    obtain rfl := Option.some.inj (hl.symm.trans hl')
    exact hsame
  · intro hsame
    have hmem : ob ∈ w.subscribers o.id l.subscription :=
      List.mem_filter.mpr ⟨hob, decide_eq_true hsame⟩
    rw [hplaced, List.mem_singleton] at hmem
    rw [hmem]
    exact ⟨⟨hfirst, rfl⟩, hheld⟩

/-- The index, the listeners and the observers correspond. -/
theorem exactBooks_of_clerk (hstart : Outset p c sink start) (hground : Ground c sink start w n)
    (hclerk : Clerk p c start w P) : ExactBooks p start.subscriptions w P where
  policy := hclerk.policy
  indexed := hclerk.exact.indexed
  placed := by
    intro subject attr key hkey
    obtain ⟨l, hl, rfl, -⟩ := (hclerk.exact.indexed subject attr key).mp hkey
    exact hclerk.exact.placed key l hl
  subscribed := by
    intro subject attr key l o hkey hl ho
    obtain ⟨l', hl', rfl, rfl⟩ := (hclerk.exact.indexed subject attr key).mp hkey
    obtain rfl := Option.some.inj (hl.symm.trans hl')
    exact reachedSince_eq hstart hground hclerk hl ho
  unsubscribed := by
    intro o attr ho hnone
    rw [List.eq_nil_iff_forall_not_mem]
    intro ob hob
    obtain ⟨key, l, hl, hattr, hslot, -⟩ := mem_reachedSince hstart hground hclerk ho hob
    have hkey := hnone l.subject hslot
    rw [(hclerk.exact.indexed l.subject attr key).mpr ⟨l, hl, rfl, hattr⟩] at hkey
    cases hkey

/-- As long as object and channel exist, the answer is the listener that was named before. -/
theorem bindTo_same (re : Reentry) (hground : Ground c sink start w n)
    (hclerk : Clerk p c start w P) (htally : Tally c w P answers n) {a : Answer}
    (ha : a ∈ answers) {key : SlotKey} (hkey : a.hookup.key? = some key)
    (hchannel : w.channelAlive c = true) (ho : w.Present a.object) :
    (w.bindTo re p (.object a.object) a.attr).2 = .alreadyBound key := by
  obtain ⟨htoken, l, hl⟩ := htally.lasting a ha key hkey hchannel ho.2
  obtain ⟨hattr, hslot⟩ := (htally.issued a ha key hkey).2 l hl
  have hobservable := (htally.observable a ha key hkey).2
  have hconnected : w.connected P.registry.token = true := by
    rw [htoken]
    simpa [connected, issue] using hchannel
  have hrefreshed : w.refreshed P.registry = P.registry := if_pos hconnected
  have hindexed : ∀ {r : Registry} {subject : SlotKey},
      (w.refreshed P.registry).Admits a.object r subject →
        Assoc.get? (subject, a.attr) r.index = some key := by
    intro r subject hadmits
    rw [hrefreshed] at hadmits
    have hold := (hadmits.keys l.subject a.object).mpr (Or.inl hslot)
    have hsubject := hadmits.exact.subjects.key_eq hold hadmits.self rfl
    rw [hadmits.index, hclerk.exact.indexed]
    exact ⟨l, hl, hsubject, hattr⟩
  obtain ⟨s, hhook, -⟩ := bindTo_cases re hground hclerk ho a.attr
  generalize (w.bindTo re p (.object a.object) a.attr).2 = hook at hhook ⊢
  cases hhook with
  | refused hdeclared _ _ => exact absurd hobservable hdeclared
  | detached _ hgone =>
      rw [hclerk.channel, hchannel] at hgone
      cases hgone
  | found _ _ hadmits hfound =>
      obtain rfl := Option.some.inj ((hindexed hadmits).symm.trans hfound)
      rfl
  | attached _ _ hadmits hnone =>
      rw [hindexed hadmits] at hnone
      cases hnone

end Observers

section Results

variable {re : Reentry} {p c : Nat} {sink : Sink} {start : Session} {a : Ledger}

/-- **A policy keeps exact books** in every session that a program reaches from its making.  Index,
listeners and observers correspond one to one; since the policy last started from nothing it has
answered with one listener for each object and attribute, and goes on with the same; and pruning
drops the listeners of the objects that are gone. -/
theorem policy_books_exact (hstart : Outset p c sink start)
    (hrun : PolicyRun re p c ⟨start, [], 0⟩ a) :
    ∃ P, ExactBooks p start.subscriptions a.session P ∧
      SteadyAnswers re p c a.session a.answers ∧ PrunesExactly p a.session P := by
  obtain ⟨P, hground, hclerk, htally⟩ := hrun.kept hstart
  refine ⟨P, exactBooks_of_clerk hstart hground hclerk, ?_, ?_⟩
  · exact ⟨htally.once, htally.shared,
      fun b hb key hkey hchannel ho => bindTo_same re hground hclerk htally hb hkey hchannel ho⟩
  · have hpruned := @Registry.Exact.prune P.registry a.session.objectAlive hclerk.exact
    rw [PrunesExactly, prunePolicy_eq hclerk.policy hclerk.idle]
    have hself := (getElem?_modifyPolicy hclerk.policy fun q =>
      { q with registry := (P.registry.prune a.session.objectAlive).1 }).1
    exact ⟨⟨_, hself, hpruned.listeners⟩, hpruned.dropped⟩

end Results

section Twins

/-- Two objects of the same contents, on which the examples work. -/
def firstTwin : ObjectRef := ⟨0, 0, "a", "Twin"⟩

def secondTwin : ObjectRef := ⟨1, 1, "b", "Twin"⟩

def twinSchema : Schema := (Schema.empty "Twin").observable "size"

/-- A session with a channel and a policy on it. -/
def twinSession : Session where
  objects := [⟨firstTwin, .model twinSchema, [("size", .int 1)], []⟩,
    ⟨secondTwin, .model twinSchema, [("size", .int 1)], []⟩]
  channels := [⟨0, .script "changes" []⟩]
  policies := [⟨Registry.empty ⟨0, 0⟩, [], false⟩]
  names := {
    objects := [("a", firstTwin), ("b", secondTwin)]
    channels := [("changes", 0)]
    policies := [("listener", 0)] }
  policyHistory := [("changes", 0)]
  patience := 100

/-- The session after the policy was asked for the size of each, and what it answered. -/
def boundTwins (re : Reentry) : Ledger where
  session := ((twinSession.bindTo re 0 (.object firstTwin) "size").1.bindTo re 0
    (.object secondTwin) "size").1
  answers := [⟨secondTwin, "size", .attached ⟨1, 0⟩⟩, ⟨firstTwin, "size", .attached ⟨0, 0⟩⟩]
  resets := 0

theorem twinSession_cell {i : Nat} {cell : ObjectCell} (h : twinSession.objects[i]? = some cell) :
    cell.ref.id = i ∧ cell.ref.address = i ∧ cell.kind = .model twinSchema ∧
      cell.observers = [] := by
  match i, h with
  | 0, rfl => exact ⟨rfl, rfl, rfl, rfl⟩
  | 1, rfl => exact ⟨rfl, rfl, rfl, rfl⟩

theorem twinSession_observers (i : Nat) : twinSession.observersAt (.object i) = [] := by
  rw [observersAt]
  cases hcell : twinSession.objects[i]? with
  | none => rfl
  | some cell => exact (twinSession_cell hcell).2.2.2

theorem twinSession_outset : Outset 0 0 (.script "changes" []) twinSession where
  cells := fun _ _ hcell => (twinSession_cell hcell).1
  kinds := by
    intro i cell hcell
    rw [(twinSession_cell hcell).2.2.1]
    trivial
  apart := by
    rintro o x ⟨⟨cell, hcell, rfl⟩, -⟩ ⟨⟨cell', hcell', rfl⟩, -⟩ haddr
    rw [(twinSession_cell hcell).2.1, (twinSession_cell hcell').2.1] at haddr
    rw [object?, haddr] at hcell
    rw [Option.some.inj (hcell.symm.trans hcell')]
  pins := rfl
  observers := by
    intro i ob hob
    rw [twinSession_observers] at hob
    cases hob
  held := by
    intro s hs
    cases hs
  others := by
    intro q Q hq hQ
    rcases q with _ | q
    · exact absurd rfl hq
    · cases hQ
  channel := rfl
  policy := rfl
  named := ⟨_, List.mem_singleton_self _, rfl⟩

theorem boundTwins_run :
    PolicyRun (enter 1) 0 0 ⟨twinSession, [], 0⟩ (boundTwins (enter 1)) := by
  have hfirst : twinSession.InHand (.object firstTwin) := by
    intro o ho
    obtain rfl := List.mem_singleton.mp ho
    exact ⟨⟨_, rfl, rfl⟩, by cbv⟩
  have hsecond : (twinSession.bindTo (enter 1) 0 (.object firstTwin) "size").1.InHand
      (.object secondTwin) := by
    intro o ho
    obtain rfl := List.mem_singleton.mp ho
    exact ⟨⟨_, rfl, rfl⟩, by cbv⟩
  exact (Relation.ReflTransGen.single (.bind hfirst)).tail (.bind hsecond)

theorem policy_books_exact_twins :
    ∃ P, ExactBooks 0 twinSession.subscriptions (boundTwins (enter 1)).session P ∧
      SteadyAnswers (enter 1) 0 0 (boundTwins (enter 1)).session (boundTwins (enter 1)).answers ∧
      PrunesExactly 0 (boundTwins (enter 1)).session P :=
  policy_books_exact twinSession_outset boundTwins_run

end Twins

end Session
end TrackedExpr
