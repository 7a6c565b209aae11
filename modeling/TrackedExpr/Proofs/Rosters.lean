import TrackedExpr.Proofs.Proceedings

/-!
# A dispatch runs the observers that were live when it began

Observers that react to a change may subscribe, drop guards and dispatch at the place where they
are kept themselves, to any depth.  What happens there is told as an account: who was registered,
whose guard was dropped, and for every dispatch whose turn it was and what happened in that turn.
From the moves of the account alone it can be said who is live: those that were registered and
whose guard was not dropped, and those that a dispatch in progress has yet to let react.

**Definitions.**
* `Move`, `Deed`: the account, and `movesOf` it;
* `roster`: who is live for an attribute after some moves;
* `Faithful`: every dispatch of an account, however deep, runs the roster of its beginning;
* `guards`, `inFlight`: what holds subscriptions;
* `Turnover`, `Tends`: what is done at a place, with its account;
* `Roll`: the place agrees with the moves so far;
* `annals`: moves that lead to the observers of a session.

**Results.**
* `Turnover.tracks`, `tracks_swept`, `tracks_dispatch`: what one step preserves;
* `tracks_replies`: observers in turn;
* `Tends.tracks`: whatever is done;
* `Roll.live`: the live observers are those of the roster.
-/

namespace TrackedExpr
namespace Session

section Accounts

/-- How the observers at a place change: one is registered, or the guard of one is dropped. -/
inductive Move
  | joined (ob : Observer Reaction)
  | left (subscription : Nat)

def Move.joined? : Move → Option (Observer Reaction)
  | .joined ob => some ob
  | .left _ => none

def Move.left? : Move → Option Nat
  | .joined _ => none
  | .left s => some s

/-- What happens at a place where observers are kept.  A dispatch lets observers react in turn; the
account tells what happens in each turn. -/
inductive Deed
  | move (m : Move)
  | dispatched (change : Change) (turns : List (Observer Reaction × List Deed))

mutual

/-- The moves of a deed, in order, those in turns included. -/
def Deed.moves : Deed → List Move
  | .move m => [m]
  | .dispatched _ turns => turnMoves turns

def turnMoves : List (Observer Reaction × List Deed) → List Move
  | [] => []
  | (_, ds) :: rest => movesOf ds ++ turnMoves rest

def movesOf : List Deed → List Move
  | [] => []
  | d :: ds => d.moves ++ movesOf ds

end

/-- The observers that were registered, in order. -/
def joined (h : List Move) : List (Observer Reaction) := h.filterMap Move.joined?

/-- The subscriptions whose guard was dropped. -/
def leavers (h : List Move) : List Nat := h.filterMap Move.left?

/-- The observers that are live after some moves, in the order of their registration, while
dispatches hold on to some subscriptions. -/
def present (h : List Move) (flying : List Nat) : List (Observer Reaction) :=
  (joined h).filter fun ob => ob.subscription ∉ leavers h ∨ ob.subscription ∈ flying

/-- Those of them that observe an attribute. -/
def roster (h : List Move) (flying : List Nat) (attr : String) : List (Observer Reaction) :=
  (present h flying).filter fun ob => ob.attr = attr

mutual

/-- **A dispatch is a faithful snapshot**: it runs those that are live for its attribute when it
begins, once each and in the order of their registration, whatever happens in their turns; and so
does every dispatch in these turns. -/
def Deed.Faithful : Deed → List Move → List Nat → Prop
  | .move _, _, _ => True
  | .dispatched change turns, h, flying =>
      turns.map Prod.fst = roster h flying change.attr ∧ FaithfulTurns turns h flying

/-- In the turn of an observer the dispatch holds on to it and to those after it. -/
def FaithfulTurns : List (Observer Reaction × List Deed) → List Move → List Nat → Prop
  | [], _, _ => True
  | (ob, ds) :: rest, h, flying =>
      Faithful ds h (ob.subscription :: rest.map (fun turn => turn.1.subscription) ++ flying) ∧
        FaithfulTurns rest (h ++ movesOf ds) flying

/-- An account, after some moves and while dispatches hold on to some subscriptions. -/
def Faithful : List Deed → List Move → List Nat → Prop
  | [], _, _ => True
  | d :: ds, h, flying => d.Faithful h flying ∧ Faithful ds (h ++ d.moves) flying

end

end Accounts

section Accounting

variable {h : List Move} {flying : List Nat}

theorem movesOf_append (ds ds' : List Deed) : movesOf (ds ++ ds') = movesOf ds ++ movesOf ds' := by
  induction ds with
  | nil => rfl
  | cons d ds ih => rw [List.cons_append, movesOf, movesOf, ih, List.append_assoc]

theorem movesOf_map_move (ms : List Move) : movesOf (ms.map Deed.move) = ms := by
  induction ms with
  | nil => rfl
  | cons m ms ih => rw [List.map_cons, movesOf, ih, Deed.moves, List.singleton_append]

@[simp] theorem joined_append (h h' : List Move) : joined (h ++ h') = joined h ++ joined h' :=
  List.filterMap_append

@[simp] theorem leavers_append (h h' : List Move) : leavers (h ++ h') = leavers h ++ leavers h' :=
  List.filterMap_append

@[simp] theorem joined_map_joined (obs : List (Observer Reaction)) :
    joined (obs.map Move.joined) = obs := by
  rw [joined, List.filterMap_map]
  exact List.filterMap_some

@[simp] theorem leavers_map_joined (obs : List (Observer Reaction)) :
    leavers (obs.map Move.joined) = [] := by
  rw [leavers, List.filterMap_map]
  exact List.filterMap_eq_nil_iff.mpr fun _ _ => rfl

@[simp] theorem joined_map_left (ss : List Nat) : joined (ss.map Move.left) = [] := by
  rw [joined, List.filterMap_map]
  exact List.filterMap_eq_nil_iff.mpr fun _ _ => rfl

@[simp] theorem leavers_map_left (ss : List Nat) : leavers (ss.map Move.left) = ss := by
  rw [leavers, List.filterMap_map]
  exact List.filterMap_some

theorem faithful_map_move (ms h : List Move) : Faithful (ms.map Deed.move) h flying := by
  induction ms generalizing h with
  | nil => trivial
  | cons m ms ih => exact ⟨trivial, ih (h ++ [m])⟩

theorem faithful_append {ds ds' : List Deed} :
    Faithful (ds ++ ds') h flying ↔
      Faithful ds h flying ∧ Faithful ds' (h ++ movesOf ds) flying := by
  induction ds generalizing h with
  | nil => simp [Faithful, movesOf]
  | cons d ds ih => simp [Faithful, movesOf, ih, and_assoc]

end Accounting
section Places

variable {source : Source} {w : Session} {pins : List Pin} {s : Nat}

/-- The subscriptions that something lasting holds: a name, a handle or a policy. -/
def guards (w : Session) : List Nat :=
  w.names.subscriptions.map Prod.snd ++ w.names.handles.map Prod.snd
    ++ w.livePolicies.flatMap fun p => p.registry.subscriptions

/-- The subscriptions that dispatches in progress hold on to. -/
def inFlight (w : Session) : List Nat := w.pins.filterMap Pin.subscription?

/-- The observers of an attribute that are live. -/
def liveAt (w : Session) (source : Source) (attr : String) : List (Observer Reaction) :=
  Observers.live (fun s => s ∈ w.heldSubscriptions) attr (w.observersAt source)

/-- The session after the observers at a place that are gone were removed. -/
def swept (source : Source) (w : Session) : Session :=
  w.modifyObservers (Observers.prune fun s => s ∈ w.heldSubscriptions) source

/-- A dispatch holds on to the values of its change. -/
def carrying (change : Change) (w : Session) : Session :=
  { w with pins := pinValues change.values ++ w.pins }

/-- The observers that a dispatch runs, each with the session in which it reacts. -/
def hearers (re : Reentry) (source : Source) (change : Change) (w : Session) :
    List (Observer Reaction × Session) :=
  replies re change (w.liveAt source change.attr) ((w.swept source).carrying change)

theorem mem_held : s ∈ w.heldSubscriptions ↔ s ∈ w.guards ∨ s ∈ w.inFlight := by
  simp only [heldSubscriptions, guards, inFlight, List.mem_append]
  tauto

/-- Pins that hold on to neither a binding nor a policy guard nothing. -/
theorem guards_pinned (h : ∀ pin ∈ pins, pin.Light) :
    guards { w with pins := pins ++ w.pins } = w.guards := by
  simp only [guards, livePolicies, policyAlive_pinned h]

theorem observersAt_modifyObservers {f : List (Observer Reaction) → List (Observer Reaction)}
    (hf : f [] = []) (w : Session) :
    (w.modifyObservers f source).observersAt source = f (w.observersAt source) := by
  cases source with
  | object id =>
      simp only [observersAt, modifyObservers, modifyObject, List.getElem?_modify_eq]
      cases w.objects[id]? <;> simp [hf]
  | list id =>
      simp only [observersAt, modifyObservers, List.getElem?_modify_eq]
      cases w.lists[id]? <;> simp [hf]

theorem observersAt_swept (source : Source) (w : Session) : (w.swept source).observersAt source
    = Observers.prune (fun s => s ∈ w.heldSubscriptions) (w.observersAt source) :=
  observersAt_modifyObservers rfl w

theorem swept_eq (source : Source) (w : Session) : ∃ objects lists,
    w.swept source = { w with objects := objects, lists := lists } := by
  cases source <;> exact ⟨_, _, rfl⟩

theorem dispatch_eq_reactAll (re : Reentry) (source : Source) (change : Change) (w : Session) :
    w.dispatch re source change =
      { ((w.swept source).carrying change).reactAll re change (w.liveAt source change.attr) with
        pins := w.pins } := by
  have hpins : (w.swept source).pins = w.pins := by cases source <;> rfl
  rw [liveAt, ← Observers.live_prune, ← observersAt_swept, ← hpins]
  rfl

end Places

section Conduct

/-- What does not dispatch at a place: it may register observers, and drop guards. -/
structure Turnover (source : Source) (news : List (Observer Reaction)) (w w' : Session) : Prop where
  observers : w'.observersAt source = w.observersAt source ++ news
  later : w.subscriptions ≤ w'.subscriptions
  numbered : ∀ ob ∈ news, w.subscriptions ≤ ob.subscription ∧ ob.subscription < w'.subscriptions
  distinct : (news.map Observer.subscription).Nodup
  /-- a guard that was dropped does not come back -/
  dropped : ∀ s < w.subscriptions, s ∈ w'.guards → s ∈ w.guards
  inFlight : w'.inFlight = w.inFlight

/-- The subscriptions at a place whose guard was dropped. -/
def lost (source : Source) (news : List (Observer Reaction)) (w w' : Session) : List Nat :=
  ((w'.observersAt source).map Observer.subscription).filter fun s =>
    (s ∈ w.guards ∨ s ∈ news.map Observer.subscription) ∧ s ∉ w'.guards

/-- The moves of a turnover. -/
def turnover (source : Source) (news : List (Observer Reaction)) (w w' : Session) : List Move :=
  news.map Move.joined ++ (lost source news w w').map Move.left

/-- An observer reacts, while as much is held on to as when it began. -/
def reacted (re : Reentry) (change : Change) (e : Observer Reaction × Session) : Session :=
  { e.2.react re change e.1.action with pins := e.2.pins }

/-- Observers in turn, each with what happens in its turn. -/
def turnsOf (deeds : Observer Reaction × Session → List Deed)
    (hearers : List (Observer Reaction × Session)) : List (Observer Reaction × List Deed) :=
  hearers.map fun e => (e.1, deeds e)

/-- What is done at a place where observers are kept, with its account.  In the turn of an observer
anything of this may be done at the same place. -/
inductive Tends (source : Source) : Session → Session → List Deed → Prop
  | turnover {w w' : Session} {news : List (Observer Reaction)} :
      Turnover source news w w' →
      Tends source w w' ((turnover source news w w').map Deed.move)
  | sweep {w : Session} :
      Tends source w (w.swept source) []
  | dispatch {re : Reentry} {change : Change} {w : Session}
      {deeds : Observer Reaction × Session → List Deed} :
      (∀ e ∈ w.hearers re source change, Tends source e.2 (reacted re change e) (deeds e)) →
      Tends source w (w.dispatch re source change)
        [.dispatched change (turnsOf deeds (w.hearers re source change))]
  | trans {w w' w'' : Session} {ds ds' : List Deed} :
      Tends source w w' ds →
      Tends source w' w'' ds' →
      Tends source w w'' (ds ++ ds')

/-- The observers at a place are those of the moves so far, apart from some that are gone. -/
structure Roll (source : Source) (h : List Move) (w : Session) : Prop where
  numbered : ∀ ob ∈ joined h, ob.subscription < w.subscriptions
  counted : ∀ s ∈ leavers h, s < w.subscriptions
  distinct : ((joined h).map Observer.subscription).Nodup
  entries : (w.observersAt source).Sublist (joined h)
  kept : ∀ ob ∈ joined h, ob.subscription ∉ leavers h ∨ ob.subscription ∈ w.inFlight →
    ob ∈ w.observersAt source
  guarded : ∀ ob ∈ w.observersAt source, ob.subscription ∈ w.guards ↔ ob.subscription ∉ leavers h

/-- What is done keeps the roll, and its account is faithful. -/
structure Tracks (source : Source) (w w' : Session) (ds : List Deed) : Prop where
  inFlight : w'.inFlight = w.inFlight
  roll : ∀ {h}, Roll source h w → Roll source (h ++ movesOf ds) w'
  faithful : ∀ {h}, Roll source h w → Faithful ds h w.inFlight

end Conduct

section Steps

variable {source : Source} {h : List Move} {w w' w'' : Session} {news : List (Observer Reaction)}
  {ds ds' : List Deed} {re : Reentry} {change : Change} {attr : String}

/-- What is left of a list without repetitions has the same elements of some kind, if none of these
is missing. -/
theorem filter_eq_filter_of_sublist {α : Type} {p : α → Bool} {l l' : List α}
    (hsub : l'.Sublist l) (hnodup : l.Nodup) (hall : ∀ x ∈ l, p x = true → x ∈ l') :
    l'.filter p = l.filter p := by
  refine (hsub.filter p).eq_of_length_le ?_
  refine ((hnodup.filter p).subperm fun x hx => ?_).length_le
  obtain ⟨hx, hp⟩ := List.mem_filter.mp hx
  exact List.mem_filter.mpr ⟨hall x hx hp, hp⟩

theorem Roll.present (hw : Roll source h w) :
    Observers.prune (fun s => s ∈ w.heldSubscriptions) (w.observersAt source)
      = Session.present h w.inFlight := by
  have hheld : ∀ ob ∈ w.observersAt source, decide (ob.subscription ∈ w.heldSubscriptions)
      = decide (ob.subscription ∉ leavers h ∨ ob.subscription ∈ w.inFlight) := by
    intro ob hob
    rw [decide_eq_decide, mem_held, hw.guarded ob hob]
  rw [Observers.prune, Session.present, List.filter_congr hheld]
  exact filter_eq_filter_of_sublist hw.entries hw.distinct.of_map fun ob hob hlive =>
    hw.kept ob hob (of_decide_eq_true hlive)

/-- **The live observers are those of the roster.** -/
theorem Roll.live (hw : Roll source h w) (attr : String) :
    w.liveAt source attr = roster h w.inFlight attr := by
  rw [liveAt, Observers.live, hw.present, roster]

/-- Two observers of the roll that share their subscription are the same. -/
theorem Roll.eq_of_subscription (hw : Roll source h w) {ob ob' : Observer Reaction}
    (hob : ob ∈ joined h) (hob' : ob' ∈ joined h) (heq : ob.subscription = ob'.subscription) :
    ob = ob' :=
  List.inj_on_of_nodup_map hw.distinct hob hob' heq

/-- What is held on to may change, as long as observers that are not gone are held. -/
theorem Roll.repinned (hw : Roll source h w)
    (hobservers : w'.observersAt source = w.observersAt source)
    (hsubscriptions : w'.subscriptions = w.subscriptions) (hguards : w'.guards = w.guards)
    (hflight : ∀ s ∈ w'.inFlight, s ∈ w.inFlight ∨
      ∃ ob ∈ w.observersAt source, ob.subscription = s) : Roll source h w' where
  numbered := hsubscriptions ▸ hw.numbered
  counted := hsubscriptions ▸ hw.counted
  distinct := hw.distinct
  entries := hobservers ▸ hw.entries
  guarded := by rw [hobservers, hguards]; exact hw.guarded
  kept := by
    intro ob hob hlive
    rw [hobservers]
    rcases hlive with hstays | hflies
    · exact hw.kept ob hob (Or.inl hstays)
    · rcases hflight _ hflies with hflies | ⟨ob', hob', heq⟩
      · exact hw.kept ob hob (Or.inr hflies)
      · obtain rfl := hw.eq_of_subscription hob (hw.entries.subset hob') heq.symm
        exact hob'

theorem mem_lost {s : Nat} : s ∈ lost source news w w' ↔
    s ∈ (w'.observersAt source).map Observer.subscription ∧
      (s ∈ w.guards ∨ s ∈ news.map Observer.subscription) ∧ s ∉ w'.guards := by
  rw [lost, List.mem_filter, decide_eq_true_iff]

theorem Roll.turnover (hw : Roll source h w) (hturn : Turnover source news w w') :
    Roll source (h ++ turnover source news w w') w' := by
  have hjoined : joined (h ++ Session.turnover source news w w') = joined h ++ news := by
    simp [Session.turnover]
  have hleavers : leavers (h ++ Session.turnover source news w w')
      = leavers h ++ lost source news w w' := by
    simp [Session.turnover]
  have hnumbered : ∀ ob ∈ joined h ++ news, ob.subscription < w'.subscriptions := by
    intro ob hob
    rcases List.mem_append.mp hob with hold | hnew
    · exact Nat.lt_of_lt_of_le (hw.numbered ob hold) hturn.later
    · exact (hturn.numbered ob hnew).2
  have hentries : (w'.observersAt source).Sublist (joined h ++ news) := by
    rw [hturn.observers]
    exact hw.entries.append (List.Sublist.refl news)
  constructor
  · rwa [hjoined]
  · intro s hs
    rw [hleavers, List.mem_append] at hs
    rcases hs with hs | hs
    · exact Nat.lt_of_lt_of_le (hw.counted s hs) hturn.later
    · obtain ⟨ob, hob, rfl⟩ := List.mem_map.mp (mem_lost.mp hs).1
      exact hnumbered ob (hentries.subset hob)
  · rw [hjoined, List.map_append]
    refine hw.distinct.append hturn.distinct fun s hold hnew => ?_
    obtain ⟨ob, hob, rfl⟩ := List.mem_map.mp hold
    obtain ⟨ob', hob', heq⟩ := List.mem_map.mp hnew
    have hlate := (hturn.numbered ob' hob').1
    rw [heq] at hlate
    exact Nat.not_lt_of_le hlate (hw.numbered ob hob)
  · rwa [hjoined]
  · intro ob hob hlive
    rw [hjoined, List.mem_append] at hob
    rw [hleavers, List.mem_append, not_or, hturn.inFlight] at hlive
    rw [hturn.observers, List.mem_append]
    exact hob.imp_left fun hold => hw.kept ob hold (hlive.imp_left And.left)
  · intro ob hob
    rw [hleavers, List.mem_append, not_or]
    have hplaced : ob.subscription ∈ (w'.observersAt source).map Observer.subscription :=
      List.mem_map_of_mem hob
    rw [hturn.observers, List.mem_append] at hob
    constructor
    · intro hguarded
      refine ⟨?_, fun hlost => (mem_lost.mp hlost).2.2 hguarded⟩
      -- one that was there has kept its guard; a new one has a number that nobody has left with
      rcases hob with hold | hnew
      · refine (hw.guarded ob hold).mp (hturn.dropped _ ?_ hguarded)
        exact hw.numbered ob (hw.entries.subset hold)
      · exact fun hleft =>
          Nat.not_lt_of_le (hturn.numbered ob hnew).1 (hw.counted _ hleft)
    · rintro ⟨hstays, hkept⟩
      by_contra hgone
      refine hkept (mem_lost.mpr ⟨hplaced, ?_, hgone⟩)
      exact hob.imp (fun hold => (hw.guarded ob hold).mpr hstays) List.mem_map_of_mem

theorem Turnover.tracks (hturn : Turnover source news w w') :
    Tracks source w w' ((turnover source news w w').map Deed.move) where
  inFlight := hturn.inFlight
  roll := by
    intro h hw
    rw [movesOf_map_move]
    exact hw.turnover hturn
  faithful := fun _ => faithful_map_move _ _

theorem Roll.swept (hw : Roll source h w) : Roll source h (w.swept source) := by
  have hobservers := observersAt_swept source w
  obtain ⟨objects, lists, heq⟩ := swept_eq source w
  rw [heq] at hobservers ⊢
  refine ⟨hw.numbered, hw.counted, hw.distinct, ?_, ?_, ?_⟩
  · rw [hobservers]
    exact List.filter_sublist.trans hw.entries
  · intro ob hob hlive
    have hplaced := hw.kept ob hob hlive
    rw [hobservers, Observers.prune, List.mem_filter, decide_eq_true_iff, mem_held,
      hw.guarded ob hplaced]
    exact ⟨hplaced, hlive⟩
  · intro ob hob
    rw [hobservers] at hob
    exact hw.guarded ob (List.mem_of_mem_filter hob)

theorem inFlight_swept (source : Source) (w : Session) :
    (w.swept source).inFlight = w.inFlight := by
  cases source <;> rfl

theorem tracks_swept (source : Source) (w : Session) : Tracks source w (w.swept source) [] where
  inFlight := inFlight_swept source w
  roll := fun hw => by
    rw [movesOf, List.append_nil]
    exact hw.swept
  faithful := fun _ => trivial

theorem Tracks.trans (hfirst : Tracks source w w' ds) (hsecond : Tracks source w' w'' ds') :
    Tracks source w w'' (ds ++ ds') where
  inFlight := hsecond.inFlight.trans hfirst.inFlight
  roll := fun hw => by
    rw [movesOf_append, ← List.append_assoc]
    exact hsecond.roll (hfirst.roll hw)
  faithful := fun hw =>
    faithful_append.mpr
      ⟨hfirst.faithful hw, hfirst.inFlight ▸ hsecond.faithful (hfirst.roll hw)⟩

end Steps

section Turns

variable {source : Source} {h : List Move} {w w' t : Session} {ds : List Deed} {re : Reentry}
  {change : Change} {first : Observer Reaction} {obs rest : List (Observer Reaction)}
  {deeds : Observer Reaction × Session → List Deed}

/-- A dispatch holds on to observers. -/
def boarded (obs : List (Observer Reaction)) (w : Session) : Session :=
  { w with pins := (obs.map fun ob => Pin.subscription ob.subscription) ++ w.pins }

theorem inFlight_boarded (obs : List (Observer Reaction)) (w : Session) :
    (boarded obs w).inFlight = obs.map Observer.subscription ++ w.inFlight := by
  rw [inFlight, boarded, List.filterMap_append, List.filterMap_map]
  exact congrArg (· ++ w.inFlight) (congrFun List.filterMap_eq_map obs)

theorem guards_boarded (obs : List (Observer Reaction)) (w : Session) :
    (boarded obs w).guards = w.guards := by
  refine guards_pinned fun pin hpin => ?_
  obtain ⟨ob, -, rfl⟩ := List.mem_map.mp hpin
  exact ⟨rfl, rfl⟩

theorem observersAt_pins (w : Session) (pins : List Pin) :
    observersAt { w with pins := pins } source = w.observersAt source := by
  cases source <;> rfl

theorem Roll.boarded (hw : Roll source h w) (hobs : ∀ ob ∈ obs, ob ∈ w.observersAt source) :
    Roll source h (boarded obs w) := by
  refine hw.repinned (observersAt_pins w _) rfl (guards_boarded obs w) fun s hs => ?_
  rw [inFlight_boarded, List.mem_append, List.mem_map] at hs
  rcases hs with ⟨ob, hob, rfl⟩ | hflies
  · exact Or.inr ⟨ob, hobs ob hob, rfl⟩
  · exact Or.inl hflies

theorem Roll.landed (ht : Roll source h (Session.boarded obs t)) : Roll source h t := by
  refine ht.repinned (observersAt_pins t _).symm rfl (guards_boarded obs t).symm fun s hs => ?_
  rw [inFlight_boarded]
  exact Or.inl (List.mem_append_right _ hs)

/-- **The turn of an observer.**  Those that have yet to react stay in their place, since the
dispatch holds on to them. -/
theorem Tracks.turn
    (hturn : Tracks source (boarded (first :: rest) w) (boarded (first :: rest) t) ds)
    (hw : Roll source h w) (hobs : ∀ ob ∈ first :: rest, ob ∈ w.observersAt source) :
    Roll source (h ++ movesOf ds) t ∧ (∀ ob ∈ rest, ob ∈ t.observersAt source) ∧
      Faithful ds h (first.subscription :: rest.map Observer.subscription ++ w.inFlight) := by
  have hboarded := hw.boarded hobs
  have hreacted := hturn.roll hboarded
  refine ⟨hreacted.landed, fun ob hob => ?_, ?_⟩
  · have hold : ob ∈ joined h := hw.entries.subset (hobs ob (List.mem_cons_of_mem _ hob))
    have hflies : ob.subscription ∈ (boarded (first :: rest) t).inFlight := by
      rw [inFlight_boarded]
      exact List.mem_append_left _ (List.mem_map_of_mem (List.mem_cons_of_mem _ hob))
    rw [← observersAt_pins t]
    refine hreacted.kept ob ?_ (Or.inr hflies)
    rw [joined_append]
    exact List.mem_append_left _ hold
  · have hfaithful := hturn.faithful hboarded
    rwa [inFlight_boarded] at hfaithful

/-- The session after the first of some observers has reacted. -/
def afterTurn (re : Reentry) (change : Change) (first : Observer Reaction)
    (rest : List (Observer Reaction)) (w : Session) : Session :=
  { reacted re change (first, boarded (first :: rest) w) with pins := w.pins }

theorem replies_cons : replies re change (first :: rest) w = (first, boarded (first :: rest) w) ::
    replies re change rest (afterTurn re change first rest w) :=
  rfl

theorem reactAll_cons : w.reactAll re change (first :: rest)
    = (afterTurn re change first rest w).reactAll re change rest :=
  rfl

theorem map_fst_replies (obs : List (Observer Reaction)) (w : Session) :
    (replies re change obs w).map Prod.fst = obs := by
  induction obs generalizing w with
  | nil => rfl
  | cons first rest ih => rw [replies_cons, List.map_cons, ih]

/-- Every observer has one turn. -/
theorem map_fst_turnsOf (obs : List (Observer Reaction)) (w : Session) :
    (turnsOf deeds (replies re change obs w)).map Prod.fst = obs := by
  rw [turnsOf, List.map_map]
  exact map_fst_replies obs w

theorem map_subscription_turnsOf (obs : List (Observer Reaction)) (w : Session) :
    (turnsOf deeds (replies re change obs w)).map (fun turn => turn.1.subscription)
      = obs.map Observer.subscription := by
  have hnames := congrArg (List.map Observer.subscription) (@map_fst_turnsOf re change deeds obs w)
  rwa [List.map_map] at hnames

theorem pins_reactAll (obs : List (Observer Reaction)) (w : Session) :
    (w.reactAll re change obs).pins = w.pins := by
  induction obs generalizing w with
  | nil => rfl
  | cons first rest ih => exact ih (afterTurn re change first rest w)

/-- **Observers in turn.** -/
theorem tracks_replies (hturns : ∀ e ∈ replies re change obs w,
      Tracks source e.2 (reacted re change e) (deeds e))
    (hw : Roll source h w) (hobs : ∀ ob ∈ obs, ob ∈ w.observersAt source) :
    Roll source (h ++ turnMoves (turnsOf deeds (replies re change obs w)))
        (w.reactAll re change obs) ∧
      FaithfulTurns (turnsOf deeds (replies re change obs w)) h w.inFlight := by
  -- the moves so far grow with every turn, so the history is generalized with the session
  induction obs generalizing w h with
  | nil =>
      refine ⟨?_, trivial⟩
      rwa [replies, turnsOf, List.map_nil, turnMoves, List.append_nil]
  | cons first rest ih =>
      rw [replies_cons] at hturns ⊢
      rw [reactAll_cons, turnsOf, List.map_cons, turnMoves]
      obtain ⟨hroll, hplaced, hown⟩ := Tracks.turn (t := afterTurn re change first rest w)
        (hturns _ List.mem_cons_self) hw hobs
      obtain ⟨hrolls, hfaithful⟩ :=
        ih (fun e he => hturns e (List.mem_cons_of_mem _ he)) hroll hplaced
      rw [List.append_assoc] at hrolls
      rw [← map_subscription_turnsOf rest (afterTurn re change first rest w)] at hown
      exact ⟨hrolls, hown, hfaithful⟩

theorem light_values {pin : Pin} (hpin : pin ∈ pinValues change.values) :
    pin.Light ∧ pin.subscription? = none := by
  obtain ⟨v, -, rfl⟩ := List.mem_map.mp hpin
  exact ⟨⟨rfl, rfl⟩, rfl⟩

theorem inFlight_carrying (change : Change) (w : Session) :
    (w.carrying change).inFlight = w.inFlight :=
  filterMap_pins (fun _ hpin => (light_values hpin).2) w.pins

theorem guards_carrying (change : Change) (w : Session) : (w.carrying change).guards = w.guards :=
  guards_pinned fun _ hpin => (light_values hpin).1

theorem Roll.carrying (hw : Roll source h w) (change : Change) :
    Roll source h (w.carrying change) :=
  hw.repinned (observersAt_pins w _) rfl (guards_carrying change w) fun _ hs =>
    Or.inl (inFlight_carrying change w ▸ hs)

/-- A dispatch lets go of the values of its change. -/
theorem Roll.released (ht : Roll source h t) (hpins : t.pins = pinValues change.values ++ w.pins) :
    Roll source h { t with pins := w.pins } := by
  have hback : t = Session.carrying change { t with pins := w.pins } := by
    rw [Session.carrying, ← hpins]
  refine ht.repinned (observersAt_pins t _) rfl ?_ fun s hs => Or.inl ?_
  · conv_rhs => rw [hback, guards_carrying]
  · rw [hback, inFlight_carrying]
    exact hs

/-- **A dispatch.** -/
theorem tracks_dispatch (hturns : ∀ e ∈ w.hearers re source change,
      Tracks source e.2 (reacted re change e) (deeds e)) :
    Tracks source w (w.dispatch re source change)
      [.dispatched change (turnsOf deeds (w.hearers re source change))] := by
  have hpins : (((w.swept source).carrying change).reactAll re change
      (w.liveAt source change.attr)).pins = pinValues change.values ++ w.pins := by
    rw [pins_reactAll]
    cases source <;> rfl
  have hreplies : ∀ {h}, Roll source h w →
      Roll source (h ++ turnMoves (turnsOf deeds (w.hearers re source change)))
          (((w.swept source).carrying change).reactAll re change (w.liveAt source change.attr)) ∧
        FaithfulTurns (turnsOf deeds (w.hearers re source change)) h w.inFlight := by
    intro h hw
    have hlive : ∀ ob ∈ w.liveAt source change.attr,
        ob ∈ ((w.swept source).carrying change).observersAt source := by
      intro ob hob
      rw [Session.carrying, observersAt_pins, observersAt_swept]
      exact List.mem_of_mem_filter hob
    have hall := tracks_replies hturns (hw.swept.carrying change) hlive
    rwa [inFlight_carrying, inFlight_swept] at hall
  rw [dispatch_eq_reactAll]
  refine ⟨rfl, fun hw => ?_, fun hw => ?_⟩
  · rw [movesOf, movesOf, List.append_nil, Deed.moves]
    exact (hreplies hw).1.released hpins
  · refine ⟨⟨?_, (hreplies hw).2⟩, trivial⟩
    rw [hearers, map_fst_turnsOf]
    exact hw.live change.attr

/-- **Whatever is done at a place**, its observers are those of the account. -/
theorem Tends.tracks (hdone : Tends source w w' ds) : Tracks source w w' ds := by
  induction hdone with
  | turnover hturn => exact hturn.tracks
  | sweep => exact tracks_swept source _
  | dispatch _ ih => exact tracks_dispatch ih
  | trans _ _ ih ih' => exact ih.trans ih'

end Turns

section Annals

variable {source : Source} {w : Session}

/-- Moves that lead to the observers of a session: they were registered, and some were dropped. -/
def annals (source : Source) (w : Session) : List Move :=
  (w.observersAt source).map Move.joined ++
    (((w.observersAt source).map Observer.subscription).filter fun s => s ∉ w.guards).map Move.left

/-- The observers at a place have different subscriptions, and these were made already. -/
structure Enrolled (source : Source) (w : Session) : Prop where
  numbered : ∀ ob ∈ w.observersAt source, ob.subscription < w.subscriptions
  distinct : ((w.observersAt source).map Observer.subscription).Nodup

theorem Enrolled.roll (hw : Enrolled source w) : Roll source (w.annals source) w := by
  have hjoined : joined (w.annals source) = w.observersAt source := by simp [annals]
  have hleavers : ∀ s, s ∈ leavers (w.annals source) ↔
      s ∈ (w.observersAt source).map Observer.subscription ∧ s ∉ w.guards := by
    simp [annals]
  refine ⟨?_, ?_, ?_, ?_, ?_, ?_⟩
  · rw [hjoined]
    exact hw.numbered
  · intro s hs
    obtain ⟨ob, hob, rfl⟩ := List.mem_map.mp ((hleavers s).mp hs).1
    exact hw.numbered ob hob
  · rw [hjoined]
    exact hw.distinct
  · rw [hjoined]
  · intro ob hob _
    rwa [hjoined] at hob
  · intro ob hob
    rw [hleavers, not_and, not_not]
    exact ⟨fun hguarded _ => hguarded, fun h => h (List.mem_map_of_mem hob)⟩

end Annals

end Session
end TrackedExpr
