import TrackedExpr.Proofs.Rosters

/-!
# Callbacks that work on their own observer list

Commands subscribe to a list, drop guards, look at the list and dispatch at it, and the callbacks
that they register do the same.  The account of such commands can be written down as they are
carried out, however deep their callbacks are nested, and every dispatch in it is a faithful
snapshot.

**Definitions.**
* `AtList`: these commands;
* `Scripted`, `Listed`: observers that run such commands, and a list that has no others;
* `commandDeeds`, `scriptDeeds`, `turnDeeds`: the account of a command, of a script, and of the turn
  of an observer;
* `Chronicled`: what leaves a list so and has an account;
* `Manages`: callbacks whose turns are accounted for.

**Results.**
* `chronicled_subscribe`, `chronicled_unobserve`, `chronicled_view`, `chronicled_dispatch`:
  commands;
* `chronicled_replies`, `chronicled_runActions`: observers in turn, and scripts;
* `manages_enter`: callbacks of any depth;
* `dispatch_is_snapshot`: every dispatch runs the observers that were live when it began.
-/

namespace TrackedExpr

namespace Assoc

universe u v

theorem mem_of_mem_erase {κ : Type u} {α : Type v} [DecidableEq κ] {key : κ} {e : κ × α} :
    ∀ {m : List (κ × α)}, e ∈ erase key m → e ∈ m
  | first :: rest, h => by
      by_cases hfirst : first.1 = key
      · rw [erase, if_pos hfirst] at h
        exact List.mem_cons_of_mem _ (mem_of_mem_erase h)
      · rw [erase, if_neg hfirst, List.mem_cons] at h
        rcases h with rfl | h
        · exact List.mem_cons_self
        · exact List.mem_cons_of_mem _ (mem_of_mem_erase h)

end Assoc

namespace Session

section Commands

/-- Commands that subscribe to a list, drop guards, look at the list and dispatch at it, as do the
callbacks that they register. -/
inductive AtList (id : String) : Command → Prop
  | subscribe {attr s : String} {actions : Script} :
      (∀ c ∈ actions, AtList id c) →
      AtList id (.listSubscribe id attr s actions)
  | drop {s : String} : AtList id (.unobserve s)
  | view {attr : String} : AtList id (.listLive id attr)
  | dispatch {change : ChangeDraft} : AtList id (.listDispatch id change)

/-- An observer that runs such commands. -/
def Scripted (id : String) (ob : Observer Reaction) : Prop :=
  ∃ s actions, ob.action = .script s actions ∧ ∀ c ∈ actions, AtList id c

/-- A list whose observers all do. -/
structure Listed (id : String) (l : Nat) (w : Session) : Prop where
  named : Assoc.get? id w.names.lists = some l
  there : l < w.lists.length
  scripted : ∀ ob ∈ w.observersAt (.list l), Scripted id ob

/-- The account of a command at a list.  `turns` tells of the turns of observers. -/
def commandDeeds (l : Nat) (re : Reentry) (turns : Change → Observer Reaction × Session → List Deed)
    (w : Session) : Command → List Deed
  | .listSubscribe id attr s actions =>
      (turnover (.list l) [⟨attr, w.subscriptions, .script s actions⟩] w
        (w.perform re (.listSubscribe id attr s actions)).1).map Deed.move
  | .unobserve s => (turnover (.list l) [] w (w.perform re (.unobserve s)).1).map Deed.move
  | .listDispatch _ draft =>
      match w.changeOf draft with
      | .ok change => [.dispatched change (turnsOf (turns change) (w.hearers re (.list l) change))]
      | .error _ => []
  | _ => []

/-- The account of a script. -/
def scriptDeeds (l : Nat) (re : Reentry)
    (turns : Change → Observer Reaction × Session → List Deed) : Script → Session → List Deed
  | [], _ => []
  | c :: rest, w =>
      if w.actionsLeft = 0 then []
      else
        let (w', reply) := w.spent.perform re c
        commandDeeds l re turns w.spent c ++ scriptDeeds l re turns rest (w'.note (.act c reply))

/-- The account of the turn of an observer, while scripts are nested at most `depth` deep. -/
def turnDeeds (l : Nat) : Nat → Change → Observer Reaction × Session → List Deed
  | 0, _, _ => []
  | depth + 1, change, e =>
      match e.1.action with
      | .script s actions =>
          scriptDeeds l (enter depth) (turnDeeds l depth) actions (e.2.note (.change s change))
      | .forward _ _ => []

/-- What is done at a list has an account, and leaves the list as it should be. -/
structure Chronicled (id : String) (l : Nat) (w w' : Session) (ds : List Deed) : Prop where
  tends : Tends (.list l) w w' ds
  listed : Listed id l w'
  pins : w'.pins = w.pins

/-- Callbacks whose turns are accounted for. -/
def Manages (id : String) (l : Nat) (re : Reentry)
    (turns : Change → Observer Reaction × Session → List Deed) : Prop :=
  ∀ {change e}, Listed id l e.2 → Scripted id e.1 →
    Chronicled id l e.2 (reacted re change e) (turns change e)

end Commands

section Steps

variable {source : Source} {id s attr : String} {l : Nat} {w w' w'' : Session}
  {actions : Script} {ds ds' : List Deed}

/-- What concerns neither observers nor their subscriptions. -/
theorem Tends.beside (hobservers : w'.observersAt source = w.observersAt source)
    (hsubscriptions : w'.subscriptions = w.subscriptions) (hguards : w'.guards = w.guards)
    (hflight : w'.inFlight = w.inFlight) : Tends source w w' [] := by
  have hturn : Turnover source [] w w' := by
    refine ⟨?_, Nat.le_of_eq hsubscriptions.symm, nofun, List.nodup_nil, fun s _ hs => ?_, hflight⟩
    · rw [hobservers, List.append_nil]
    · rwa [hguards] at hs
  have hnothing : lost source [] w w' = [] := by
    refine List.eq_nil_iff_forall_not_mem.mpr fun s hs => ?_
    obtain ⟨-, hheld, hgone⟩ := mem_lost.mp hs
    rcases hheld with hguarded | hnew
    · exact hgone (hguards ▸ hguarded)
    · cases hnew
  have htends := Tends.turnover hturn
  rwa [Session.turnover, hnothing] at htends

theorem Chronicled.refl (hw : Listed id l w) : Chronicled id l w w [] :=
  ⟨Tends.beside rfl rfl rfl rfl, hw, rfl⟩

theorem Chronicled.trans (h : Chronicled id l w w' ds) (h' : Chronicled id l w' w'' ds') :
    Chronicled id l w w'' (ds ++ ds') :=
  ⟨h.tends.trans h'.tends, h'.listed, h'.pins.trans h.pins⟩

/-- The log, the number of actions that are left and the mark of a stall do not matter. -/
theorem Chronicled.beside (hw : Listed id l w) (log : List LogEntry) (left : Nat) (stalled : Bool) :
    Chronicled id l w { w with log := log, actionsLeft := left, stalled := stalled } [] :=
  ⟨Tends.beside rfl rfl rfl rfl, ⟨hw.named, hw.there, hw.scripted⟩, rfl⟩

theorem Chronicled.noted (hw : Listed id l w) (entry : LogEntry) :
    Chronicled id l w (w.note entry) [] :=
  Chronicled.beside hw (entry :: w.log) w.actionsLeft w.stalled

/-- The session after a subscription to a list. -/
def subscribed (l : Nat) (attr s : String) (actions : Script) (w : Session) : Session :=
  (w.subscribe (.list l) attr (.script s actions)).1.rename fun n =>
    { n with subscriptions := Assoc.put s w.subscriptions n.subscriptions }

/-- The session after a guard was dropped. -/
def unsubscribed (s : String) (w : Session) : Session :=
  w.rename fun n => { n with subscriptions := Assoc.erase s n.subscriptions }

theorem observersAt_subscribed (hl : l < w.lists.length) :
    (subscribed l attr s actions w).observersAt (.list l)
      = w.observersAt (.list l) ++ [⟨attr, w.subscriptions, .script s actions⟩] := by
  show ((w.lists.modify l fun os => os ++ [⟨attr, w.subscriptions, .script s actions⟩])[l]?).getD []
    = (w.lists[l]?).getD [] ++ [⟨attr, w.subscriptions, .script s actions⟩]
  rw [List.getElem?_modify_eq, List.getElem?_eq_getElem hl]
  rfl

/-- A subscription to a list, which may drop the guard that had its name before. -/
theorem turnover_subscribed (hl : l < w.lists.length) :
    Turnover (.list l) [⟨attr, w.subscriptions, .script s actions⟩] w
      (subscribed l attr s actions w) where
  observers := observersAt_subscribed hl
  later := Nat.le_succ _
  numbered := by
    intro ob hob
    obtain rfl := List.mem_singleton.mp hob
    exact ⟨Nat.le_refl _, Nat.lt_succ_self _⟩
  distinct := List.nodup_singleton _
  inFlight := rfl
  dropped := by
    intro k hk hguarded
    simp only [guards, List.mem_append] at hguarded ⊢
    refine hguarded.imp_left (Or.imp_left fun hnamed => ?_)
    obtain ⟨e, he, rfl⟩ := List.mem_map.mp hnamed
    rcases Assoc.mem_put he with rfl | hold
    · exact absurd hk (Nat.lt_irrefl _)
    · exact List.mem_map_of_mem hold

theorem turnover_unsubscribed (source : Source) (s : String) (w : Session) :
    Turnover source [] w (unsubscribed s w) where
  observers := by
    rw [List.append_nil]
    cases source <;> rfl
  later := Nat.le_refl _
  numbered := nofun
  distinct := List.nodup_nil
  inFlight := rfl
  dropped := by
    intro k _ hguarded
    simp only [guards, List.mem_append] at hguarded ⊢
    refine hguarded.imp_left (Or.imp_left fun hnamed => ?_)
    obtain ⟨e, he, rfl⟩ := List.mem_map.mp hnamed
    exact List.mem_map_of_mem (Assoc.mem_of_mem_erase he)

theorem subscribeList_eq (attr s : String) (actions : Script)
    (hid : Assoc.get? id w.names.lists = some l) : ∃ reply,
     w.subscribeList id attr s actions = .ok (subscribed l attr s actions w, reply) := by
  simp only [subscribeList, named, hid]
  exact ⟨_, rfl⟩

theorem viewList_eq (attr : String) (hid : Assoc.get? id w.names.lists = some l) :
    ∃ reply, w.viewList id attr = .ok (w.swept (.list l), reply) := by
  have hkept : w.modifyObservers (fun _ => Observers.prune (fun s => w.subscriptionHeld s)
      (w.observersAt (.list l))) (.list l) = w.swept (.list l) := by
    show { w with lists := w.lists.modify l fun _ => _ } = { w with lists := w.lists.modify l _ }
    congr 1
    refine List.ext_getElem? fun i => ?_
    rw [List.getElem?_modify, List.getElem?_modify]
    cases hi : w.lists[i]? with
    | none => rfl
    | some obs =>
        by_cases hli : l = i
        · subst hli
          simp [observersAt, hi, subscriptionHeld]
        · simp [hli]
  simp only [viewList, named, hid, bind, Except.bind]
  exact ⟨_, congrArg (fun u => Except.ok (u, _)) hkept⟩

end Steps

section Runs

variable {id s attr : String} {l : Nat} {re : Reentry} {w : Session}
  {turns : Change → Observer Reaction × Session → List Deed}
  {actions : Script} {change : Change} {c : Command} {obs : List (Observer Reaction)}

theorem chronicled_subscribe (hw : Listed id l w) (hactions : ∀ c ∈ actions, AtList id c) :
    Chronicled id l w (w.perform re (.listSubscribe id attr s actions)).1
      (commandDeeds l re turns w (.listSubscribe id attr s actions)) := by
  obtain ⟨reply, heq⟩ := subscribeList_eq attr s actions hw.named
  have hperform : w.perform re (.listSubscribe id attr s actions)
      = (subscribed l attr s actions w, reply) := by rw [perform, attempt, heq]
  rw [commandDeeds, hperform]
  refine ⟨Tends.turnover (turnover_subscribed hw.there), ⟨hw.named, ?_, ?_⟩, rfl⟩
  · exact (List.length_modify _ _ _).symm ▸ hw.there
  · intro ob hob
    rw [observersAt_subscribed hw.there, List.mem_append, List.mem_singleton] at hob
    rcases hob with hold | rfl
    · exact hw.scripted ob hold
    · exact ⟨s, actions, rfl, hactions⟩

theorem chronicled_unobserve (hw : Listed id l w) :
    Chronicled id l w (w.perform re (.unobserve s)).1 (commandDeeds l re turns w (.unobserve s)) :=
  ⟨Tends.turnover (turnover_unsubscribed (.list l) s w), ⟨hw.named, hw.there, hw.scripted⟩, rfl⟩

theorem Listed.swept (hw : Listed id l w) : Listed id l (w.swept (.list l)) := by
  refine ⟨hw.named, (List.length_modify _ _ _).symm ▸ hw.there, fun ob hob => ?_⟩
  rw [observersAt_swept] at hob
  exact hw.scripted ob (List.mem_of_mem_filter hob)

theorem chronicled_view (hw : Listed id l w) :
    Chronicled id l w (w.perform re (.listLive id attr)).1
      (commandDeeds l re turns w (.listLive id attr)) := by
  obtain ⟨reply, heq⟩ := viewList_eq attr hw.named
  rw [perform, attempt, heq]
  exact ⟨Tends.sweep, hw.swept, rfl⟩

theorem Listed.pinned (hw : Listed id l w) (pins : List Pin) :
    Listed id l { w with pins := pins } :=
  ⟨hw.named, hw.there, hw.scripted⟩

/-- Observers in turn. -/
theorem chronicled_replies (hre : Manages id l re turns) (hw : Listed id l w)
    (hobs : ∀ ob ∈ obs, Scripted id ob) :
    (∀ e ∈ replies re change obs w, Tends (.list l) e.2 (reacted re change e) (turns change e)) ∧
      Listed id l (w.reactAll re change obs) := by
  induction obs generalizing w with
  | nil => exact ⟨nofun, hw⟩
  | cons first rest ih =>
      rw [replies_cons, reactAll_cons]
      have hfirst : Chronicled id l (boarded (first :: rest) w)
          (reacted re change (first, boarded (first :: rest) w))
          (turns change (first, boarded (first :: rest) w)) :=
        @hre change (first, boarded (first :: rest) w) (hw.pinned _)
          (hobs first List.mem_cons_self)
      have hafter : Listed id l (afterTurn re change first rest w) := hfirst.listed.pinned w.pins
      obtain ⟨hturns, hlast⟩ := ih hafter fun ob hob => hobs ob (List.mem_cons_of_mem _ hob)
      refine ⟨fun e he => ?_, hlast⟩
      rcases List.mem_cons.mp he with rfl | he
      · exact hfirst.tends
      · exact hturns e he

theorem chronicled_dispatch (hre : Manages id l re turns) (hw : Listed id l w) (change : Change) :
    Chronicled id l w (w.dispatch re (.list l) change)
      [.dispatched change (turnsOf (turns change) (w.hearers re (.list l) change))] := by
  have hlive : ∀ ob ∈ w.liveAt (.list l) change.attr, Scripted id ob := fun ob hob =>
    hw.scripted ob (List.mem_of_mem_filter (List.mem_of_mem_filter hob))
  have hcarrying : Listed id l ((w.swept (.list l)).carrying change) := hw.swept.pinned _
  obtain ⟨hturns, hlast⟩ := @chronicled_replies id l re _ turns change _ hre hcarrying hlive
  refine ⟨Tends.dispatch hturns, ?_, ?_⟩
  · rw [dispatch_eq_reactAll]
    exact hlast.pinned w.pins
  · rw [dispatch_eq_reactAll]

/-- A command. -/
theorem chronicled_perform (hre : Manages id l re turns) (hw : Listed id l w) (hc : AtList id c) :
    Chronicled id l w (w.perform re c).1 (commandDeeds l re turns w c) := by
  cases hc with
  | subscribe hactions => exact chronicled_subscribe hw hactions
  | drop => exact chronicled_unobserve hw
  | view => exact chronicled_view hw
  | @dispatch draft =>
      have hnamed : named w.names.lists id = .ok l := by rw [named, hw.named]
      simp only [perform, attempt, dispatchList, hnamed, bind, Except.bind, commandDeeds]
      cases w.changeOf draft with
      | error f => exact Chronicled.refl hw
      | ok change => exact chronicled_dispatch hre hw change

/-- A script. -/
theorem chronicled_runActions (hre : Manages id l re turns) (hw : Listed id l w)
    (hactions : ∀ c ∈ actions, AtList id c) :
    Chronicled id l w (w.runActions re actions) (scriptDeeds l re turns actions w) := by
  induction actions generalizing w with
  | nil => exact Chronicled.refl hw
  | cons c rest ih =>
      rw [runActions, scriptDeeds]
      split
      · exact Chronicled.noted hw .exhausted
      · have hspent : Chronicled id l w w.spent [] := Chronicled.beside hw w.log _ w.stalled
        have hdone := chronicled_perform hre hspent.listed (hactions c List.mem_cons_self)
        have hnoted := Chronicled.noted hdone.listed (.act c (w.spent.perform re c).2)
        have hrest := ih hnoted.listed fun c hc => hactions c (List.mem_cons_of_mem _ hc)
        have hall := (hspent.trans hdone).trans (hnoted.trans hrest)
        rwa [List.nil_append, List.nil_append] at hall

theorem reacted_of_pins {e : Observer Reaction × Session}
    (hpins : (e.2.react re change e.1.action).pins = e.2.pins) :
    reacted re change e = e.2.react re change e.1.action := by
  rw [reacted, ← hpins]

/-- **Callbacks of any depth.** -/
theorem manages_enter (id : String) (l depth : Nat) :
    Manages id l (enter depth) (turnDeeds l depth) := by
  induction depth with
  | zero =>
      -- the script is not run at all, so there is nothing to tell of
      rintro change e he ⟨s, actions, haction, -⟩
      have hrun : Chronicled id l e.2 (e.2.react (enter 0) change e.1.action) [] := by
        rw [haction, react, runScript]
        split
        · exact Chronicled.noted he _
        · exact Chronicled.beside he _ _ true
      rwa [reacted_of_pins hrun.pins]
  | succ depth ih =>
      rintro change e he ⟨s, actions, haction, hactions⟩
      have hnoted := Chronicled.noted he (.change s change)
      have hrun := hnoted.trans (chronicled_runActions ih hnoted.listed hactions)
      have hreact : e.2.react (enter (depth + 1)) change e.1.action
          = runActions (enter depth) actions (e.2.note (.change s change)) := by
        rw [haction, react, runScript]
        cases actions <;> rfl
      have hdeeds : turnDeeds l (depth + 1) change e = scriptDeeds l (enter depth)
          (turnDeeds l depth) actions (e.2.note (.change s change)) := by
        rw [turnDeeds, haction]
      rw [← hreact, ← hdeeds, List.nil_append] at hrun
      rwa [reacted_of_pins hrun.pins]

end Runs

section Results

variable {source : Source} {w₀ w : Session} {ds : List Deed}

/-- **A dispatch is a faithful snapshot.**  Take a place where observers are kept, in a session in
which no dispatch is in progress, and let anything be done there: observers are registered, guards
are dropped, the observers are looked at, and changes are dispatched, whose observers do the same,
to any depth.  Then every dispatch runs those that were live for its attribute when it began, once
each and in the order of their registration; it runs none that is registered during the dispatch,
and none of another attribute.  Afterwards the live observers are those that were registered and
whose guard was not dropped, in the order of their registration.  This holds in particular of
scripts that work on an observer list, with callbacks that do. -/
theorem dispatch_is_snapshot (hw₀ : Enrolled source w₀) (hidle : w₀.inFlight = []) :
    (∀ {w ds}, Tends source w₀ w ds →
      Faithful ds (w₀.annals source) [] ∧
      ((joined (w₀.annals source ++ movesOf ds)).map Observer.subscription).Nodup ∧
      (∀ attr, w.liveAt source attr = roster (w₀.annals source ++ movesOf ds) [] attr) ∧
      w.observerCount source = (present (w₀.annals source ++ movesOf ds) []).length) ∧
    ∀ {id l actions} depth, source = .list l → Listed id l w₀ → (∀ c ∈ actions, AtList id c) →
      Tends source w₀ (w₀.runActions (enter depth) actions)
        (scriptDeeds l (enter depth) (turnDeeds l depth) actions w₀) := by
  refine ⟨fun {w ds} hdone => ?_, ?_⟩
  · have htracks := hdone.tracks
    have hroll := htracks.roll hw₀.roll
    have hflight : w.inFlight = [] := htracks.inFlight.trans hidle
    have hfaithful := htracks.faithful hw₀.roll
    have hpresent := hroll.present
    rw [hidle] at hfaithful
    rw [hflight] at hpresent
    refine ⟨hfaithful, hroll.distinct, fun attr => ?_, congrArg List.length hpresent⟩
    rw [hroll.live, hflight]
  · rintro id l actions depth rfl hlisted hactions
    exact (chronicled_runActions (manages_enter id l depth) hlisted hactions).tends

end Results

section Stage

/-- An object whose changes are told of at a list. -/
def stageObject : ObjectRef := ⟨0, 0, "m", "Stage"⟩

def stageChange (attr : String) : Change := ⟨stageObject, attr, .none, .none⟩

def stageDraft (attr : String) : ChangeDraft := ⟨"m", attr, .none, .none⟩

/-- What the first observer does: it drops the guard of the second, registers another one and
dispatches a change of another attribute. -/
def stageActions : Script :=
  [.unobserve "b", .listSubscribe "l" "x" "d" [], .listDispatch "l" (stageDraft "y")]

def firstStaged : Observer Reaction := ⟨"x", 0, .script "a" stageActions⟩

def secondStaged : Observer Reaction := ⟨"x", 1, .script "b" []⟩

def thirdStaged : Observer Reaction := ⟨"y", 2, .script "c" []⟩

def lateStaged : Observer Reaction := ⟨"x", 3, .script "d" []⟩

/-- A session with a list that has two observers of one attribute and one of another. -/
def stageSession : Session where
  objects := [⟨stageObject, .record, [], []⟩]
  lists := [[firstStaged, secondStaged, thirdStaged]]
  subscriptions := 3
  names := { objects := [("m", stageObject)], lists := [("l", 0)],
             subscriptions := [("a", 0), ("b", 1), ("c", 2)] }
  patience := 0
  actionsLeft := 100

def stageScript : Script := [.listDispatch "l" (stageDraft "x")]

/-- The second observer runs although its guard was dropped in the turn of the first, the one
registered there does not, and the nested dispatch runs the observer of the other attribute. -/
def stageDeeds : List Deed :=
  [.dispatched (stageChange "x")
    [(firstStaged, [.move (.left 1), .move (.joined lateStaged),
      .dispatched (stageChange "y") [(thirdStaged, [])]]), (secondStaged, [])]]

theorem listed_stageSession : Listed "l" 0 stageSession := by
  refine ⟨rfl, Nat.one_pos, fun ob hob => ?_⟩
  have hob : ob ∈ [firstStaged, secondStaged, thirdStaged] := hob
  simp only [List.mem_cons, List.not_mem_nil, or_false] at hob
  obtain rfl | rfl | rfl := hob
  · refine ⟨_, _, rfl, fun c hc => ?_⟩
    simp only [stageActions, List.mem_cons, List.not_mem_nil, or_false] at hc
    obtain rfl | rfl | rfl := hc
    · exact AtList.drop
    · exact AtList.subscribe nofun
    · exact AtList.dispatch
  · exact ⟨_, _, rfl, nofun⟩
  · exact ⟨_, _, rfl, nofun⟩

theorem scriptDeeds_stageScript :
    scriptDeeds 0 (enter 2) (turnDeeds 0 2) stageScript stageSession = stageDeeds := by
  cbv

/-- Afterwards the first observer of the attribute and the late one are live. -/
theorem dispatch_is_snapshot_stage :
    Faithful stageDeeds (stageSession.annals (.list 0)) [] ∧
      (stageSession.runActions (enter 2) stageScript).liveAt (.list 0) "x"
        = [firstStaged, lateStaged] := by
  have henrolled : Enrolled (.list 0) stageSession := by constructor <;> decide
  obtain ⟨hdone, hscripts⟩ := dispatch_is_snapshot henrolled rfl
  have hall : ∀ c ∈ stageScript, AtList "l" c := by
    intro c hc
    obtain rfl := List.mem_singleton.mp hc
    exact AtList.dispatch
  have htends := hscripts 2 rfl listed_stageSession hall
  rw [scriptDeeds_stageScript] at htends
  obtain ⟨hfaithful, -, hlive, -⟩ := hdone htends
  refine ⟨hfaithful, (hlive "x").trans ?_⟩
  cbv

end Stage

end Session
end TrackedExpr
