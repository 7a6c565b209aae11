import TrackedExpr.Proofs.Proceedings

/-!
# One notice for each route

A binding has one policy for attribute loads and another for calls of `getattr`, and each of
them listens to an attribute once, however often it is shown the attribute.  So a change runs
the callback of the binding once for each of the two routes by which its latest evaluation
has read the attribute.

**Definitions.**
* `tellers`: the observers that tell a binding of a change;
* `notices`: how often the callback of a binding has written something down;
* `Resting`: a binding outside of its evaluations, with a callback that only writes;
* `Discreet`: observers that leave a binding alone and write nothing in its name;
* `Hears`: what was done while a binding rested, with the number of its notices;
* `Spared`, `Meanwhile`: what goes on between evaluations.

**Results.**
* `Engaged.mem_tellers`, `Engaged.length_tellers`: one observer for each policy that listens;
* `invalidate_resting`: a binding that is told of a change writes one notice;
* `hears_replies`, `hears_assign`: observers in turn, and an assignment;
* `Meanwhile.hears`: whatever goes on between evaluations;
* `notices_by_route`: a change after an evaluation.
-/

namespace TrackedExpr
namespace Session

section Telling

/-- Whether a reaction passes changes on with a token. -/
def Reaction.carries (token : Token) : Reaction → Bool
  | .script _ _ => false
  | .forward _ t => t = token

/-- The observers that tell a binding of a change. -/
def tellers (k : Wiring) (id : Nat) (attr : String) (w : Session) : List (Observer Reaction) :=
  (w.reached id attr).filter fun ob => ob.action.carries (w.issue k.channel)

variable {k : Wiring} {n p id s : Nat} {w : Session} {o : ObjectRef} {attr : String}
  {ob ob' : Observer Reaction} {listens : Nat → Bool}

theorem Reaction.carries_iff {token : Token} {action : Reaction} :
    action.carries token = true ↔ ∃ l, action = .forward l token := by
  cases action with
  | script name actions => simp [carries]
  | forward l t => simp [carries]

theorem told_iff : Told k (ob, w) ↔ ob.action.carries (w.issue k.channel) = true :=
  Reaction.carries_iff.symm

theorem Reaction.forwardsTo_of_carries {token : Token} {action : Reaction}
    (h : action.carries token = true) : action.forwardsTo token.channel = true := by
  obtain ⟨l, rfl⟩ := carries_iff.mp h
  exact decide_eq_true rfl

/-- What is held by neither names nor a running reaction nor another policy is held by a policy of
the binding. -/
theorem exists_listener_of_held (hheld : s ∈ w.heldSubscriptions) (hhidden : ¬ Elsewhere k w s)
    (hpins : ∀ pin ∈ w.pins, pin.subscription? = none) :
    ∃ p ∈ k.policies, ∃ P, w.policies[p]? = some P ∧ ∃ key l,
      P.registry.listeners.get? key = some l ∧ l.subscription = s := by
  rw [Elsewhere, not_or, not_or] at hhidden
  obtain ⟨hnamed, hhandled, hothers⟩ := hhidden
  rcases heldSubscriptions_cases hheld hpins with hheld | ⟨p, P, hP, hs⟩
  · exact absurd hheld (List.mem_append.not.mpr (not_or.mpr ⟨hnamed, hhandled⟩))
  · refine ⟨p, ?_, P, hP, Registry.mem_subscriptions_iff.mp hs⟩
    by_contra hother
    exact hothers ⟨p, hother, P, hP, hs⟩

/-- The observer of a listener is determined by object and attribute. -/
theorem Engaged.stationed_unique (h : Engaged k n w) (hp : p ∈ k.policies)
    (hob : Stationed w p o ob) (hob' : Stationed w p o ob') (hattr : ob.attr = ob'.attr) :
    ob = ob' := by
  obtain ⟨P, hP, -, horderly⟩ := h.policies p hp
  obtain ⟨key, l, hl, hx, rfl⟩ := (stationed_iff hP).mp hob
  obtain ⟨key', l', hl', hx', rfl⟩ := (stationed_iff hP).mp hob'
  have hsubject := horderly.exact.subjects.key_eq hx hx' rfl
  have hkey := (horderly.exact.indexed l.subject l.attr key).mpr ⟨l, hl, rfl, rfl⟩
  have hkey' := (horderly.exact.indexed l.subject l.attr key').mpr
    ⟨l', hl', hsubject.symm, hattr.symm⟩
  obtain rfl := Option.some.inj (hkey.symm.trans hkey')
  obtain rfl := Option.some.inj (hl.symm.trans hl')
  rfl

/-- **The observers that tell a binding of a change** are those of its listeners. -/
theorem Engaged.mem_tellers (h : Engaged k n w)
    (hpins : ∀ pin ∈ w.pins, pin.subscription? = none) (ho : w.HasObject o) :
    ob ∈ w.tellers k o.id attr ↔ ob.attr = attr ∧ ob.action.carries (w.issue k.channel) = true ∧
      ∃ p ∈ k.policies, Stationed w p o ob := by
  rw [tellers, List.mem_filter, mem_reached]
  constructor
  · rintro ⟨⟨hattr, hheld, cell, hcell, hmem⟩, hcarries⟩
    refine ⟨hattr, hcarries, ?_⟩
    have hpost : ob ∈ w.posts k.channel o.id := by
      rw [mem_posts, observersAt, hcell]
      exact ⟨hmem, Reaction.forwardsTo_of_carries hcarries⟩
    obtain ⟨p, hp, P, hP, key, l, hl, hs⟩ :=
      exists_listener_of_held hheld (h.posted.hidden _ _ hpost) hpins
    obtain ⟨Q, hQ, -, horderly⟩ := h.policies p hp
    obtain rfl := Option.some.inj (hP.symm.trans hQ)
    obtain ⟨x, hx⟩ := horderly.exact.placed key l hl
    have hstationed : Stationed w p x (P.registry.post key l) := ⟨P, hP, key, l, hl, hx, rfl⟩
    obtain ⟨hid, rfl⟩ := h.posted.matched p hp x _ hstationed o.id ob hpost hs.symm
    have hobject : w.HasObject x := horderly.known l.subject x hx
    obtain rfl : o = x := h.eq_of_address ho hobject ((h.home o ho).trans (hid.trans
      (h.home x hobject).symm))
    exact ⟨p, hp, hstationed⟩
  · rintro ⟨hattr, hcarries, p, hp, hstationed⟩
    have hmem := (mem_posts.mp (h.posted.manned p hp o ob hstationed)).1
    refine ⟨⟨hattr, h.held h.alive hp hstationed, ?_⟩, hcarries⟩
    rw [observersAt] at hmem
    cases hcell : w.objects[o.id]? with
    | none =>
        rw [hcell] at hmem
        cases hmem
    | some cell =>
        rw [hcell] at hmem
        exact ⟨cell, rfl, hmem⟩

theorem Engaged.nodup_tellers (h : Engaged k n w) (id : Nat) (attr : String) :
    ((w.tellers k id attr).map Observer.subscription).Nodup := by
  have hsame : w.tellers k id attr = (w.posts k.channel id).filter fun ob =>
      ob.subscription ∈ w.heldSubscriptions ∧ ob.attr = attr ∧
        ob.action.carries (w.issue k.channel) = true := by
    rw [tellers, Session.reached, Observers.live, Observers.prune, posts, List.filter_filter,
      List.filter_filter, List.filter_filter]
    refine List.filter_congr fun ob _ => ?_
    cases hcarries : ob.action.carries (w.issue k.channel) with
    | false => simp
    | true => simp [show ob.action.forwardsTo k.channel = true from
        Reaction.forwardsTo_of_carries hcarries, Bool.and_comm]
  rw [hsame]
  exact (h.posted.unique id).sublist (List.filter_sublist.map _)

/-- The subscriptions of the listeners that policies of the binding have for an attribute, one for
each policy that has one. -/
theorem Engaged.exists_subscriptions (h : Engaged k n w)
    (hlistens : ∀ p ∈ k.policies, listens p = true ↔ Attends w p o attr) :
    ∀ {ps : List Nat}, ps ⊆ k.policies → ps.Nodup → ∃ ss : List Nat, ss.Nodup ∧
      ss.length = ps.countP listens ∧ ∀ s, s ∈ ss ↔ ∃ p ∈ ps, ∃ ob, Stationed w p o ob ∧
        ob.attr = attr ∧ ob.action.carries (w.issue k.channel) = true ∧ ob.subscription = s
  | [], _, _ => ⟨[], List.nodup_nil, rfl, by simp⟩
  | p :: ps, hps, hnodup => by
      obtain ⟨hfresh, hrest⟩ := List.nodup_cons.mp hnodup
      have hp : p ∈ k.policies := hps List.mem_cons_self
      have hsub : ps ⊆ k.policies := fun q hq => hps (List.mem_cons_of_mem _ hq)
      obtain ⟨ss, hss, hlength, hmem⟩ := h.exists_subscriptions hlistens hsub hrest
      have hstation := (hlistens p hp).trans (h.attends_iff hp)
      cases hlisten : listens p with
      | false =>
          refine ⟨ss, hss, by simp [hlength, hlisten], fun s => (hmem s).trans ?_⟩
          simp only [List.mem_cons, exists_eq_or_imp]
          refine (or_iff_right ?_).symm
          rintro ⟨ob, hob, hattr, hcarries, -⟩
          rw [hstation.mpr ⟨ob, hob, hattr, Reaction.carries_iff.mp hcarries⟩] at hlisten
          cases hlisten
      | true =>
          obtain ⟨ob, hob, hattr, hcarries⟩ := hstation.mp hlisten
          have hnew : ob.subscription ∉ ss := by
            intro hold
            obtain ⟨q, hq, ob', hob', -, -, hsame⟩ := (hmem _).mp hold
            obtain rfl := h.posted.distinct q (hsub hq) p hp o o ob' ob hob' hob hsame
            exact hfresh hq
          refine ⟨ob.subscription :: ss, List.nodup_cons.mpr ⟨hnew, hss⟩,
            by simp [hlength, hlisten], fun s => ?_⟩
          rw [List.mem_cons, hmem]
          simp only [List.mem_cons, exists_eq_or_imp]
          refine or_congr ⟨?_, ?_⟩ Iff.rfl
          · rintro rfl
            exact ⟨ob, hob, hattr, Reaction.carries_iff.mpr hcarries, rfl⟩
          · rintro ⟨ob', hob', hattr', -, rfl⟩
            rw [h.stationed_unique hp hob hob' (hattr.trans hattr'.symm)]

/-- **One observer tells the binding for each policy that listens to the attribute.** -/
theorem Engaged.length_tellers (h : Engaged k n w)
    (hpins : ∀ pin ∈ w.pins, pin.subscription? = none) (ho : w.HasObject o)
    (hlistens : ∀ p ∈ k.policies, listens p = true ↔ Attends w p o attr)
    (hne : k.attributes ≠ k.getattr) :
    (w.tellers k o.id attr).length = k.policies.countP listens := by
  have hnodup : k.policies.Nodup := by simp [Wiring.policies, hne]
  obtain ⟨ss, hss, hlength, hmem⟩ :=
    h.exists_subscriptions hlistens (List.Subset.refl _) hnodup
  have hperm : ((w.tellers k o.id attr).map Observer.subscription).Perm ss := by
    rw [List.perm_ext_iff_of_nodup (h.nodup_tellers o.id attr) hss]
    intro s
    rw [List.mem_map, hmem]
    constructor
    · rintro ⟨ob, hob, rfl⟩
      obtain ⟨hattr, hcarries, p, hp, hstationed⟩ := (h.mem_tellers hpins ho).mp hob
      exact ⟨p, hp, ob, hstationed, hattr, hcarries, rfl⟩
    · rintro ⟨p, hp, ob, hstationed, hattr, hcarries, rfl⟩
      exact ⟨ob, (h.mem_tellers hpins ho).mpr ⟨hattr, hcarries, p, hp, hstationed⟩, rfl⟩
  rw [← hlength, ← hperm.length_eq, List.length_map]

end Telling

section Writing

/-- Whether an entry tells that a binding was invalidated. -/
def LogEntry.tells (name : String) : LogEntry → Bool
  | .invalid id _ _ => id = name
  | _ => false

/-- How often a callback that only writes has written something down. -/
def notices : Invalidation → Session → Nat
  | .script name _, w => w.log.countP (LogEntry.tells name)
  | .record r, w => (w.recorders[r]?.getD []).length
  | .rerun _ _, _ => 0

/-- A binding outside of its evaluations, with a callback that only writes, to a recorder that is
there. -/
structure Resting (k : Wiring) (onInvalid : Invalidation) (w : Session) : Prop where
  binding : ∃ B, w.bindings[k.binding]? = some B ∧ B.onInvalid = onInvalid ∧ B.evaluating = false
  idle : onInvalid.Idle
  recorder : ∀ r, onInvalid = .record r → r < w.recorders.length

/-- What was done while a binding rested, with the number of notices of its callback: the binding
rests, and listens to what it listened to. -/
structure Hears (k : Wiring) (onInvalid : Invalidation) (n i : Nat) (w w' : Session) : Prop where
  engaged : Engaged k n w'
  resting : Resting k onInvalid w'
  lasts : Lasts w w'
  channel : w'.channels[k.channel]? = w.channels[k.channel]?
  policies : ∀ p ∈ k.policies, w'.policies[p]? = w.policies[p]?
  notices : w'.notices onInvalid = w.notices onInvalid + i

/-- What leaves a binding alone, and writes nothing in its name. -/
structure Discreet (k : Wiring) (onInvalid : Invalidation) (w w' : Session) : Prop
    extends Aside k w w' where
  notices : w'.notices onInvalid = w.notices onInvalid
  recorders : w.recorders.length ≤ w'.recorders.length

variable {k : Wiring} {onInvalid : Invalidation} {n i j : Nat} {w w' w'' : Session} {re : Reentry}
  {change : Change} {ob : Observer Reaction} {obs : List (Observer Reaction)}

theorem Discreet.hears (h : Discreet k onInvalid w w') (hw : Engaged k n w)
    (hrest : Resting k onInvalid w) : Hears k onInvalid n 0 w w' where
  engaged := h.engaged hw
  resting := by
    refine ⟨?_, hrest.idle, fun r hr => Nat.lt_of_lt_of_le (hrest.recorder r hr) h.recorders⟩
    rw [h.record]
    exact hrest.binding
  lasts := h.lasts
  channel := h.channel
  policies := h.policies
  notices := h.notices

theorem Hears.trans (h : Hears k onInvalid n i w w') (h' : Hears k onInvalid n j w' w'') :
    Hears k onInvalid n (i + j) w w'' where
  engaged := h'.engaged
  resting := h'.resting
  lasts := h.lasts.trans h'.lasts
  channel := h'.channel.trans h.channel
  policies := fun p hp => (h'.policies p hp).trans (h.policies p hp)
  notices := by rw [h'.notices, h.notices, Nat.add_assoc]

theorem Hears.attends_iff (h : Hears k onInvalid n i w w') (hw : Engaged k n w) {p : Nat}
    (hp : p ∈ k.policies) {x : ObjectRef} {a : String} : Attends w' p x a ↔ Attends w p x a :=
  hw.attends_congr hp h.channel (h.policies p hp)

theorem Furnished.discreet (h : Furnished k w) (pins : List Pin) :
    Discreet k onInvalid w { w with pins := pins } :=
  ⟨h.aside pins w.log w.recorders, by cases onInvalid <;> rfl, Nat.le_refl _⟩

/-- What is done while more is held on to. -/
theorem Hears.keeping {pins : List Pin} (hw : Engaged k n w) (hrest : Resting k onInvalid w)
    (h : Engaged k n { w with pins := pins ++ w.pins } →
      Resting k onInvalid { w with pins := pins ++ w.pins } →
      Hears k onInvalid n i { w with pins := pins ++ w.pins } w') :
    Hears k onInvalid n i w { w' with pins := w.pins } := by
  have hpinned := (hw.toFurnished.discreet (pins ++ w.pins)).hears hw hrest
  have hdone := h hpinned.engaged hpinned.resting
  have hunpinned := (hdone.engaged.toFurnished.discreet w.pins).hears hdone.engaged hdone.resting
  have hall := (hpinned.trans hdone).trans hunpinned
  rwa [Nat.zero_add, Nat.add_zero] at hall

/-- A notice that the callback of a binding writes down. -/
def noticed (onInvalid : Invalidation) (change : Change) (w : Session) : Session :=
  match onInvalid with
  | .script name _ => w.note (.invalid name true change)
  | .record r => w.record r change
  | .rerun _ _ => w

/-- **A binding that rests writes one notice** when it is told of a change. -/
theorem invalidate_resting (h : Resting k onInvalid w) (re : Reentry) (change : Change) :
    Session.invalidate re k.binding change w = noticed onInvalid change
      (w.modifyBinding k.binding fun c => { c with dirty := true }) := by
  obtain ⟨⟨B, hB, hcallback, hevaluating⟩, hidle, -⟩ := h
  have hself : (w.modifyBinding k.binding fun c => { c with dirty := true }).bindings[k.binding]?
      = some { B with dirty := true } := by
    simp [modifyBinding, hB]
  simp only [Session.invalidate, hself, hevaluating, reactToInvalidation, hcallback]
  cases onInvalid with
  | script name actions =>
      obtain rfl : actions = [] := hidle
      rfl
  | record r => rfl
  | rerun name actions => exact hidle.elim

/-- The callback of a binding that rests writes one notice. -/
theorem hears_noticed (hw : Engaged k n w) (hrest : Resting k onInvalid w) (change : Change) :
    Hears k onInvalid n 1 w (noticed onInvalid change w) := by
  cases onInvalid with
  | script name actions =>
      refine ⟨(hw.aside w.pins _ w.recorders).engaged hw, ⟨hrest.binding, hrest.idle, nofun⟩,
        Lasts.refl w, rfl, fun _ _ => rfl, ?_⟩
      simp [noticed, Session.notices, note, LogEntry.tells]
  | record r =>
      have hr := hrest.recorder r rfl
      refine ⟨(hw.aside w.pins w.log _).engaged hw, ⟨hrest.binding, hrest.idle, ?_⟩,
        Lasts.refl w, rfl, fun _ _ => rfl, ?_⟩
      · rintro r' heq
        rw [noticed, record, List.length_modify]
        exact hrest.recorder r' heq
      · simp [noticed, Session.notices, record, List.getElem?_eq_getElem hr]
  | rerun name actions => exact hrest.idle.elim

theorem hears_roused (hw : Engaged k n w) (hrest : Resting k onInvalid w) :
    Hears k onInvalid n 0 w (roused k w) := by
  refine ⟨(hw.repinned _).flagged Binding.last (fun _ => true) Binding.evaluating,
    ⟨?_, hrest.idle, hrest.recorder⟩, Lasts.refl w, rfl, fun _ _ => rfl, by cases onInvalid <;> rfl⟩
  obtain ⟨B, hB, hcallback, hevaluating⟩ := hrest.binding
  exact ⟨{ B with dirty := true }, by simp [roused, gripped, modifyBinding, hB], hcallback,
    hevaluating⟩

/-- **A binding that rests writes one notice** when it is told of a change. -/
theorem hears_told (hw : Engaged k n w) (hrest : Resting k onInvalid w) (re : Reentry)
    (change : Change) (htold : Told k (ob, w)) :
    Hears k onInvalid n 1 w (w.react re change ob.action) := by
  have hgripped : Resting k onInvalid (gripped k w) := ⟨hrest.binding, hrest.idle, hrest.recorder⟩
  rw [hw.react_told change htold, invalidate_resting hgripped]
  have hroused := hears_roused hw hrest
  have hnoticed := hears_noticed hroused.engaged hroused.resting change
  have hdone := hroused.trans hnoticed
  exact hdone.trans ((hdone.engaged.toFurnished.discreet w.pins).hears hdone.engaged hdone.resting)

/-- **Observers in turn**: those that tell the binding lead to a notice each. -/
theorem hears_replies : ∀ {obs : List (Observer Reaction)} {w : Session}, Engaged k n w →
    Resting k onInvalid w → (∀ e ∈ replies re change obs w, ¬ Told k e → Furnished k e.2 →
      Discreet k onInvalid e.2 (e.2.react re change e.1.action)) →
    Hears k onInvalid n (obs.countP fun ob => ob.action.carries (w.issue k.channel)) w
      (w.reactAll re change obs)
  | [], w, hw, hrest, _ => (hw.toFurnished.discreet w.pins).hears hw hrest
  | first :: rest, w, hw, hrest, h => by
      let pins := (first :: rest).map fun ob => Pin.subscription ob.subscription
      have hfirst : Hears k onInvalid n
          (if first.action.carries (w.issue k.channel) then 1 else 0) w
          (w.keeping pins fun w => w.react re change first.action) := by
        refine @Hears.keeping k onInvalid n _ w _ pins hw hrest fun hpinned hresting => ?_
        split
        · next hcarries => exact hears_told hpinned hresting re change (told_iff.mpr hcarries)
        · next hcarries =>
            exact (h _ List.mem_cons_self (fun htold => hcarries (told_iff.mp htold))
              hpinned.toFurnished).hears hpinned hresting
      have hrest' := hears_replies hfirst.engaged hfirst.resting
        fun e he => h e (List.mem_cons_of_mem _ he)
      rw [issue_congr hfirst.channel] at hrest'
      rw [List.countP_cons, Nat.add_comm, reactAll]
      exact hfirst.trans hrest'

end Writing

section Changing

variable {re : Reentry} {k : Wiring} {onInvalid : Invalidation} {n : Nat} {w w' : Session}
  {o : ObjectRef} {schema : Schema} {attr : String} {v : Value}

/-- The observers of others leave a binding alone in an assignment, and write nothing in its
name. -/
def Spared (re : Reentry) (k : Wiring) (onInvalid : Invalidation) (o : ObjectRef) (attr : String)
    (v : Value) (w : Session) : Prop :=
  ∀ e ∈ w.repliesTo re o attr v, ¬ Told k e → Furnished k e.2 →
    Discreet k onInvalid e.2 (e.2.react re (w.changeTo o attr v) e.1.action)

/-- **An assignment that reports a change** leads to a notice for each observer that tells the
binding. -/
theorem hears_assign (hw : Engaged k n w) (hrest : Resting k onInvalid w)
    (hv : v.Among w.HasObject k.Outer) (hreports : w.Reports o schema attr v)
    (hspared : w.Spared re k onInvalid o attr v) :
    Hears k onInvalid n (w.tellers k o.id attr).length w (w.assign re o schema attr v).1 := by
  have hspread : Discreet k onInvalid w (w.spread o attr v) :=
    ⟨hw.toFurnished.aside_spread hw.alive hv, by cases onInvalid <;> rfl, Nat.le_refl _⟩
  have hbegun := hspread.hears hw hrest
  have hreacted := hears_replies hbegun.engaged hbegun.resting hspared
  have hended := (hreacted.engaged.toFurnished.discreet w.pins).hears hreacted.engaged
    hreacted.resting
  have hall := (hbegun.trans hreacted).trans hended
  rwa [issue_congr hspread.channel, Nat.zero_add, Nat.add_zero, List.countP_eq_length_filter,
    ← assign_eq_spread hreports] at hall

/-- An assignment that reports nothing leads to no notice. -/
theorem hears_silent (hw : Engaged k n w) (hrest : Resting k onInvalid w)
    (hv : v.Among w.HasObject k.Outer) (hsilent : ¬ w.Reports o schema attr v) :
    Hears k onInvalid n 0 w (w.assign re o schema attr v).1 := by
  rcases assign_of_not_reports re hsilent with heq | heq
  · rw [heq]
    exact (hw.toFurnished.discreet w.pins).hears hw hrest
  · rw [heq]
    have hput : Discreet k onInvalid w (w.putAt o attr v) :=
      ⟨hw.toFurnished.aside_putAt hv, by cases onInvalid <;> rfl, Nat.le_refl _⟩
    exact hput.hears hw hrest

/-- What goes on between evaluations: assignments whose other observers spare the binding, and
whatever leaves it alone. -/
inductive Meanwhile (re : Reentry) (k : Wiring) (onInvalid : Invalidation) :
    Session → Session → Prop
  | aside {w w' : Session} :
      (Furnished k w → Discreet k onInvalid w w') →
      Meanwhile re k onInvalid w w'
  | set {w : Session} {o : ObjectRef} {schema : Schema} {attr : String} {v : Value} :
      w.schema? o = some schema →
      v.Among w.HasObject k.Outer →
      (w.Reports o schema attr v → w.Spared re k onInvalid o attr v) →
      Meanwhile re k onInvalid w (w.assign re o schema attr v).1
  | trans {w w' w'' : Session} :
      Meanwhile re k onInvalid w w' →
      Meanwhile re k onInvalid w' w'' →
      Meanwhile re k onInvalid w w''

/-- An assignment by a command. -/
theorem Meanwhile.assigned (hschema : w.schema? o = some schema)
    (hv : v.Among w.HasObject k.Outer)
    (hspared : w.Reports o schema attr v → Spared re k onInvalid o attr v
      { w with pins := pinValues [.object o, v] ++ w.pins }) :
    Meanwhile re k onInvalid w (w.assigned re o schema attr v) := by
  have hbegin : Meanwhile re k onInvalid w { w with pins := pinValues [.object o, v] ++ w.pins } :=
    Meanwhile.aside fun hw => hw.discreet _
  have hset : Meanwhile re k onInvalid { w with pins := pinValues [.object o, v] ++ w.pins }
      (Session.assign re o schema attr v
        { w with pins := pinValues [.object o, v] ++ w.pins }).1 :=
    Meanwhile.set hschema hv hspared
  exact (hbegin.trans hset).trans (Meanwhile.aside fun hw => hw.discreet w.pins)

theorem Meanwhile.hears (h : Meanwhile re k onInvalid w w') : Engaged k n w →
    Resting k onInvalid w → ∃ i, Hears k onInvalid n i w w' := by
  induction h with
  | aside haside => exact fun hw hrest => ⟨0, (haside hw.toFurnished).hears hw hrest⟩
  | @set w o schema attr v _ hv hspared =>
      intro hw hrest
      by_cases hreports : w.Reports o schema attr v
      · exact ⟨_, hears_assign hw hrest hv hreports (hspared hreports)⟩
      · exact ⟨0, hears_silent hw hrest hv hreports⟩
  | trans _ _ ih ih' =>
      intro hw hrest
      obtain ⟨i, hfirst⟩ := ih hw hrest
      obtain ⟨j, hthen⟩ := ih' hfirst.engaged hfirst.resting
      exact ⟨i + j, hfirst.trans hthen⟩

/-- **A change leads to one notice for each policy that listens to the attribute.** -/
theorem notices_assigned (hw : Engaged k n w) (hrest : Resting k onInvalid w)
    (htop : ∀ pin ∈ w.pins, pin.subscription? = none) (ho : w.HasObject o)
    (hv : v.Among w.HasObject k.Outer) (hreports : w.Reports o schema attr v)
    (hspared : Spared re k onInvalid o attr v
      { w with pins := pinValues [.object o, v] ++ w.pins })
    (hne : k.attributes ≠ k.getattr) {listens : Nat → Bool}
    (hlistens : ∀ p ∈ k.policies, listens p = true ↔ Attends w p o attr) :
    (w.assigned re o schema attr v).notices onInvalid
      = w.notices onInvalid + k.policies.countP listens := by
  have hpins : ∀ pin ∈ pinValues [.object o, v] ++ w.pins, pin.subscription? = none := by
    intro pin hpin
    rcases List.mem_append.mp hpin with hvalue | hpin
    · obtain ⟨u, -, rfl⟩ := List.mem_map.mp hvalue
      rfl
    · exact htop pin hpin
  have hall := @Hears.keeping k onInvalid n _ w _ (pinValues [.object o, v]) hw hrest
    fun hpinned hresting => hears_assign hpinned hresting hv hreports hspared
  have hcount := (hw.repinned (pinValues [.object o, v] ++ w.pins)).length_tellers hpins ho hlistens
    hne
  rw [← hcount]
  exact hall.notices

theorem notices_silent (hw : Engaged k n w) (hrest : Resting k onInvalid w)
    (hv : v.Among w.HasObject k.Outer) (hsilent : ¬ w.Reports o schema attr v) :
    (w.assigned re o schema attr v).notices onInvalid = w.notices onInvalid :=
  (@Hears.keeping k onInvalid n 0 w _ (pinValues [.object o, v]) hw hrest
    fun hpinned hresting => hears_silent hpinned hresting hv hsilent).notices

end Changing

section Routes

variable {re : Reentry} {k : Wiring} {verify : Bool} {n p : Nat} {w w' : Session} {B : Binding}
  {r : Outcome} {o : ObjectRef} {attr : String}

/-- What a policy listens to after an evaluation, among what can be observed later on. -/
theorem Engaged.attends_evaluate
    (hinstrumented : instrument verify k.plain (k.monitors.map StockMonitor.monitor) = .ok k.code)
    (hw : Engaged k n w) (hn : n + 1 < 2 ^ 64) (hB : w.bindings[k.binding]? = some B)
    (hr : (w.evaluation re k.binding B).outcome = some r)
    (hnatives : ∀ e ∈ w.callsOut re k B, Bears re k e 0) (hspares : Spares re k (w.callsOut re k B))
    (hp : p ∈ k.policies)
    (hlasts : Lasts (Session.concluded k.binding r w (w.evaluation re k.binding B).state) w')
    (hobservable : w'.declared? o attr = some .observable) :
    Attends (Session.concluded k.binding r w (w.evaluation re k.binding B).state) p o attr ↔
      (o, attr) ∈ ((host re).visited B.code B.scope w.patience Frame.start
        (w.beginning k.binding B)).filterMap (k.shown? p B.code) := by
  rw [hw.toTended.attends_evaluate hinstrumented hn hB hr hnatives hspares hp, mem_observables]
  refine and_iff_left_of_imp fun hshown => ?_
  obtain ⟨hrun, -⟩ := hw.toTended.evaluate hinstrumented hB hr hnatives
  have hobject :
      HasObject (Session.concluded k.binding r w (w.evaluation re k.binding B).state) o :=
    hrun.known p (o, attr) hshown
  rwa [← hlasts.declared? hobject]

/-- After an evaluation a binding rests. -/
theorem resting_concluded {t : Session} {onInvalid : Invalidation} (hidle : onInvalid.Idle)
    (hcallback : (concluded k.binding r w t).bindings[k.binding]?.map Binding.onInvalid
      = some onInvalid)
    (hrecorder : ∀ recorder, onInvalid = .record recorder →
      recorder < (concluded k.binding r w t).recorders.length) :
    Resting k onInvalid (concluded k.binding r w t) := by
  refine ⟨?_, hidle, hrecorder⟩
  obtain ⟨B, hB, hsame⟩ := Option.map_eq_some_iff.mp hcallback
  refine ⟨B, hB, hsame, ?_⟩
  rw [concluded, modifyBinding, List.getElem?_modify_eq] at hB
  obtain ⟨C, -, rfl⟩ := Option.map_eq_some_iff.mp hB
  rfl

/-- The policies that listen to an attribute after an evaluation, counted by the routes by which
this has read the attribute. -/
theorem countP_routes (hne : k.attributes ≠ k.getattr) (w : Session) (B : Binding)
    (hkeywords : ∀ f ∈ (host re).visited B.code B.scope w.patience Frame.start
      (w.beginning k.binding B), f.balks B.code = false) (o : ObjectRef) (attr : String) :
    ∃ listens : Nat → Bool, (∀ p ∈ k.policies, listens p = true ↔
      (o, attr) ∈ ((host re).visited B.code B.scope w.patience Frame.start
        (w.beginning k.binding B)).filterMap (k.shown? p B.code)) ∧
      k.policies.countP listens = (if (o, attr) ∈ w.loads re k.binding B then 1 else 0)
        + if (o, attr) ∈ w.asks re k.binding B then 1 else 0 := by
  refine ⟨fun p => if p = k.attributes then (o, attr) ∈ w.loads re k.binding B
    else (o, attr) ∈ w.asks re k.binding B, ?_, ?_⟩
  · intro p hp
    simp only [Wiring.policies, List.mem_cons, List.not_mem_nil, or_false] at hp
    rcases hp with rfl | rfl
    · rw [List.filterMap_congr fun f _ => Wiring.shown?_attributes hne]
      simp [loads]
    · rw [List.filterMap_congr fun f hf => Wiring.shown?_getattr hne (hkeywords f hf)]
      simp [asks, hne.symm]
  · simp [Wiring.policies, List.countP_cons, hne.symm, Nat.add_comm]

/-- A change after an evaluation and whatever came after it, for a binding that is engaged when the
evaluation begins. -/
theorem Engaged.notices_after_evaluation {u : Session} {onInvalid : Invalidation} {schema : Schema}
    {v : Value}
    (hinstrumented : instrument verify k.plain (k.monitors.map StockMonitor.monitor) = .ok k.code)
    (hne : k.attributes ≠ k.getattr) (hw : Engaged k n w) (hn : n + 1 < 2 ^ 64)
    (hB : w.bindings[k.binding]? = some B) (hcallback : B.onInvalid = onInvalid)
    (hidle : onInvalid.Idle) (hr : (w.evaluation re k.binding B).outcome = some r)
    (hnatives : ∀ e ∈ w.callsOut re k B, Furnished k e.2 → Aside k e.2 (callNative re e.1 e.2).1 ∧
      ResultAmong (callNative re e.1 e.2).1.HasObject k.Outer (callNative re e.1 e.2).2)
    (hkeywords : ∀ f ∈ (host re).visited B.code B.scope w.patience Frame.start
      (w.beginning k.binding B), f.balks B.code = false)
    (hu : u = Session.concluded k.binding r w (w.evaluation re k.binding B).state)
    (hrecorder : ∀ recorder, onInvalid = .record recorder → recorder < u.recorders.length)
    (hmeanwhile : Meanwhile re k onInvalid u w') (htop : ∀ pin ∈ w'.pins, pin.subscription? = none)
    (ho : w'.HasObject o) (hschema : w'.schema? o = some schema)
    (hv : v.Among w'.HasObject k.Outer)
    (hspared : w'.Reports o schema attr v → Spared re k onInvalid o attr v
      { w' with pins := pinValues [.object o, v] ++ w'.pins }) :
    (w'.Reports o schema attr v → (w'.assigned re o schema attr v).notices onInvalid
      = w'.notices onInvalid + ((if (o, attr) ∈ w.loads re k.binding B then 1 else 0)
        + if (o, attr) ∈ w.asks re k.binding B then 1 else 0)) ∧
    (¬ w'.Reports o schema attr v → (w'.assigned re o schema attr v).notices onInvalid
      = w'.notices onInvalid) := by
  subst hu
  have hevaluated : Minds k [] w
      (Session.concluded k.binding r w (w.evaluation re k.binding B).state)
      (.began :: (w.moments re k B (fun _ => []) ++ [.ended])) :=
    minds_evaluate hinstrumented (hw.fits hB) hB hr fun e he =>
      ⟨Minds.aside fun h => (hnatives e he h).1, fun h => (hnatives e he h).2⟩
  have hengaged := hevaluated.engaged hw
  have hresting : Resting k onInvalid (Session.concluded k.binding r w
      (w.evaluation re k.binding B).state) := by
    refine resting_concluded hidle ?_ hrecorder
    rw [hevaluated.callback hw, hB, Option.map_some, hcallback]
  obtain ⟨i, hhears⟩ := hmeanwhile.hears hengaged hresting
  refine ⟨fun hreports => ?_,
    fun hsilent => notices_silent hhears.engaged hhears.resting hv hsilent⟩
  have hobservable : w'.declared? o attr = some .observable := by
    rw [declared?_of_schema? hschema, hreports.2.1]
  have hbears : ∀ e ∈ w.callsOut re k B, Bears re k e 0 := fun e he =>
    ⟨fun h => Handles.elsewhere (hnatives e he h.toFurnished).1.toUntouched,
      fun h => (hnatives e he h).2⟩
  obtain ⟨listens, hlistens, hcount⟩ := countP_routes hne w B hkeywords o attr
  -- what the policies listen to is what the evaluation has read
  have hattends : ∀ p ∈ k.policies, listens p = true ↔ Attends w' p o attr := by
    intro p hp
    rw [hlistens p hp, hhears.attends_iff hengaged hp]
    exact (hw.attends_evaluate hinstrumented hn hB hr hbears
      (fun e he h => (hnatives e he h).1.toUntouched) hp hhears.lasts hobservable).symm
  rw [← hcount]
  exact notices_assigned hhears.engaged hhears.resting htop ho hv hreports (hspared hreports) hne
    hattends

/-- **A change runs the callback once for each route by which the attribute was read.**  Bind code
for both monitors with a callback that only writes, in a session where objects run nothing when
they are observed; let it be instrumented and name the binding.  After whatever proceedings with
the binding, in which its channel is reset less often than generations run over, let an evaluation
end whose native functions leave the binding alone and whose plain calls have no keywords but text.
From then on let there be assignments only, and whatever else leaves the binding alone.  Then an
assignment that reports a change leads to one notice of the callback if the evaluation has loaded
the attribute, to another one if it has asked `getattr` for it, and to no more; and an assignment
that reports nothing leads to none. -/
theorem notices_by_route {w₀ w₁ w'' : Session} {code instrumented : Code} {scope : Scope}
    {config : BindingConfig} {onInvalid : Invalidation} {b : Nat} {id name : String}
    {reply : Reply} {ms : List Moment} {schema : Schema} {v : Value}
    (hready : Ready w₀ code scope) (hcounted : Counted w₀)
    (hmade : w₀.makeBinding code scope config onInvalid = .ok (w₁, b))
    (hattributes : config.monitorAttributes = true) (hgetattr : config.monitorGetattr = true)
    (hinstrumented : w₁.bindings[b]?.bind Binding.instrumented = some instrumented)
    (hidle : onInvalid.Idle)
    (hproceedings : Proceedings (w₀.nextWiring code instrumented scope) (w₁.nameBinding id b).1 w
      ms)
    (hn : ms.countP Moment.resets + 1 < 2 ^ 64) (hB : w.bindingNamed name = .ok (b, B))
    (hr : (w.evaluation re b B).outcome = some r)
    (hnatives : ∀ e ∈ w.callsOut re (w₀.nextWiring code instrumented scope) B,
      Furnished (w₀.nextWiring code instrumented scope) e.2 →
      Aside (w₀.nextWiring code instrumented scope) e.2 (callNative re e.1 e.2).1 ∧
        ResultAmong (callNative re e.1 e.2).1.HasObject
          (w₀.nextWiring code instrumented scope).Outer (callNative re e.1 e.2).2)
    (hkeywords : ∀ f ∈ (host re).visited B.code B.scope w.patience Frame.start
      (w.beginning b B), f.balks B.code = false)
    (heval : w.evaluateNamed re name = .ok (w', reply))
    (hrecorder : ∀ recorder, onInvalid = .record recorder → recorder < w'.recorders.length)
    (hmeanwhile : Meanwhile re (w₀.nextWiring code instrumented scope) onInvalid w' w'')
    (htop : ∀ pin ∈ w''.pins, pin.subscription? = none)
    (ho : w''.HasObject o) (hschema : w''.schema? o = some schema)
    (hv : v.Among w''.HasObject (w₀.nextWiring code instrumented scope).Outer)
    (hspared : w''.Reports o schema attr v →
      Spared re (w₀.nextWiring code instrumented scope) onInvalid o attr v
        { w'' with pins := pinValues [.object o, v] ++ w''.pins }) :
    (w''.Reports o schema attr v → (w''.assigned re o schema attr v).notices onInvalid
      = w''.notices onInvalid + ((if (o, attr) ∈ w.loads re b B then 1 else 0)
        + if (o, attr) ∈ w.asks re b B then 1 else 0)) ∧
    (¬ w''.Reports o schema attr v → (w''.assigned re o schema attr v).notices onInvalid
      = w''.notices onInvalid) := by
  obtain ⟨rfl, rfl, hcode⟩ := eq_of_makeBinding hattributes hgetattr hmade hinstrumented
  have hne := nextWiring_apart w₀ code instrumented scope
  have hstart := hready.engaged hcounted instrumented onInvalid id
  have hminds := hproceedings.minds hcode
  have hw := hminds.engaged hstart
  rw [Nat.zero_add] at hw
  obtain ⟨hid, hself⟩ := bindingNamed_ok hB
  have hcallback : B.onInvalid = onInvalid := by
    have hkept := hminds.callback hstart
    rw [show w.bindings[(w₀.nextWiring code instrumented scope).binding]? = some B from hself]
      at hkept
    simpa [nextWiring, withNext, nameBinding, rename] using hkept
  rw [evaluateNamed_eq hid hself hr] at heval
  obtain ⟨hw', -⟩ := Prod.mk.inj (Except.ok.inj heval)
  have hall := hw.notices_after_evaluation hcode hne hn hself hcallback hidle hr hnatives hkeywords
    hw'.symm hrecorder hmeanwhile htop ho hschema hv hspared
  exact hall

end Routes

section Dial

/-- A model. -/
def dial : ObjectRef := ⟨0, 0, "m", "Dial"⟩

def dialSchema : Schema := (Schema.empty "Dial").observable "x"

/-- A session with the model. -/
def dialSession : Session where
  objects := [⟨dial, .model dialSchema, [("x", .int 1)], []⟩]
  patience := 100

def dialScope : Scope := [("m", .object dial)]

/-- Loads `x` of the model, and asks `getattr` for it. -/
def dialCode : Code := Code.ofInstructions
  [.loadName "m", .loadAttr "x", .popTop, .loadName "getattr", .loadName "m", .loadConst (.str "x"),
    .call .plain 2, .returnValue]

def watchedDial : Code := Code.ofInstructions <|
  [.loadName "m"] ++ attributeSite ⟨0, "attribute_binder"⟩ "x"
    ++ [.loadAttr "x", .popTop, .loadName "getattr", .loadName "m", .loadConst (.str "x")]
    ++ callSite ⟨1, "call_binder"⟩ 2 ++ [.call .plain 2, .returnValue]

/-- The binding of that code. -/
def dialBinding (last : Option Outcome) (dirty : Bool) : Binding where
  plain := dialCode
  instrumented := some watchedDial
  scope := dialScope
  channel := 0
  attributes := some 0
  getattr := some 1
  onInvalid := .script "b" []
  last := last
  dirty := dirty
  evaluating := false

def dialWiring : Wiring := dialSession.nextWiring dialCode watchedDial dialScope

/-- The session with the new binding. -/
def boundDial : Session :=
  ((dialSession.withNext dialCode (some watchedDial) dialScope
    (.script "b" [])).nameBinding "b" 0).1

/-- The session after the binding was evaluated. -/
def evaluatedDial : Session :=
  concluded 0 (.ok (.int 1)) boundDial
    (boundDial.evaluation (enter 1) 0 (dialBinding none true)).state

/-- The session after `x` was set to 2. -/
def turnedDial : Session := evaluatedDial.assigned (enter 1) dial dialSchema "x" (.int 2)

theorem makeBinding_dial :
    dialSession.makeBinding dialCode dialScope {} (.script "b" []) = .ok
      (dialSession.withNext dialCode (some watchedDial) dialScope (.script "b" []), 0) := by
  have hinstrument : instrumentFor {} dialCode [Monitor.attributes ⟨0, "attribute_binder"⟩,
      Monitor.calls ⟨1, "call_binder"⟩] = .ok (some watchedDial) := by cbv
  exact makeBinding_of_instrumentFor rfl rfl hinstrument

theorem ready_dialSession : Ready dialSession dialCode dialScope := by
  refine .of_single rfl rfl rfl trivial ?_ ?_ ?_
  · intro v hv
    obtain rfl : v = .str "x" := by simpa [dialCode, Code.ofInstructions] using hv
    trivial
  · exact List.forall_mem_singleton.mpr ⟨_, rfl, rfl⟩
  · exact List.forall_mem_singleton.mpr trivial

theorem counted_dialSession : Counted dialSession :=
  .of_unobserved rfl rfl rfl (List.forall_mem_singleton.mpr rfl)

theorem evaluation_boundDial : Assoc.get? "b" boundDial.names.bindings = some 0 ∧
    (boundDial.evaluation (enter 1) 0 (dialBinding none true)).outcome = some (.ok (.int 1)) ∧
    (boundDial.callsOut (enter 1) dialWiring (dialBinding none true)).length = 0 ∧
    ((host (enter 1)).visited watchedDial dialScope boundDial.patience Frame.start
      (boundDial.beginning 0 (dialBinding none true))).any (fun f => f.balks watchedDial) = false ∧
    boundDial.loads (enter 1) 0 (dialBinding none true) = [(dial, "x")] ∧
    boundDial.asks (enter 1) 0 (dialBinding none true) = [(dial, "x")] := by
  cbv

theorem assignment_evaluatedDial : evaluatedDial.schema? dial = some dialSchema ∧
    evaluatedDial.attribute? dial "x" = some (.int 1) ∧
    (repliesTo (enter 1) dial "x" (.int 2)
      { evaluatedDial with pins := pinValues [.object dial, .int 2] ++ evaluatedDial.pins }).map
      (fun e => (e.1.action, e.2.issue 0)) = [(.forward (some ⟨0, 0⟩) ⟨0, 1⟩, ⟨0, 1⟩),
        (.forward (some ⟨0, 0⟩) ⟨0, 1⟩, ⟨0, 1⟩)] ∧
    evaluatedDial.notices (.script "b" []) = 0 ∧ turnedDial.notices (.script "b" []) = 2 := by
  cbv

theorem assignment_turnedDial : turnedDial.schema? dial = some dialSchema ∧
    turnedDial.attribute? dial "x" = some (.int 2) ∧ turnedDial.pins.length = 0 ∧
    (turnedDial.object? dial).map ObjectCell.ref = some dial ∧
    (repliesTo (enter 1) dial "x" (.int 3)
      { turnedDial with pins := pinValues [.object dial, .int 3] ++ turnedDial.pins }).map
      (fun e => (e.1.action, e.2.issue 0)) = [(.forward (some ⟨0, 0⟩) ⟨0, 1⟩, ⟨0, 1⟩),
        (.forward (some ⟨0, 0⟩) ⟨0, 1⟩, ⟨0, 1⟩)] := by
  cbv

/-- All observers of the model tell the binding. -/
theorem spared_dial {w : Session} {v : Value} (entries : List (Option SlotKey))
    (hreplies : (w.repliesTo (enter 1) dial "x" v).map (fun e => (e.1.action, e.2.issue 0))
      = entries.map fun l => (.forward l ⟨0, 1⟩, ⟨0, 1⟩)) :
    Spared (enter 1) dialWiring (.script "b" []) dial "x" v w := by
  intro e he huntold
  have hmem := List.mem_map_of_mem (f := fun e : Observer Reaction × Session =>
    (e.1.action, e.2.issue 0)) he
  rw [hreplies, List.mem_map] at hmem
  obtain ⟨l, -, heq⟩ := hmem
  obtain ⟨haction, hissue⟩ := Prod.mk.inj heq
  exact absurd ⟨l, haction.symm.trans (congrArg _ hissue)⟩ huntold

theorem reports_dial {w : Session} {v v' : Value} (hx : w.attribute? dial "x" = some v)
    (hother : v.same v' = false) : w.Reports dial dialSchema "x" v' := by
  refine ⟨rfl, rfl, ?_⟩
  rw [hx]
  exact hother

/-- In this session the attribute was read by both routes, and its second change leads to two more
notices. -/
theorem notices_by_route_dial :
    (turnedDial.assigned (enter 1) dial dialSchema "x" (.int 3)).notices (.script "b" [])
      = turnedDial.notices (.script "b" []) + 2 := by
  obtain ⟨hid, hout, hcalls, hbalks, hloads, hasks⟩ := evaluation_boundDial
  obtain ⟨hschema, hx, hreplies, -, -⟩ := assignment_evaluatedDial
  obtain ⟨hschema', hx', hpins, hobject, hreplies'⟩ := assignment_turnedDial
  have hB : boundDial.bindings[0]? = some (dialBinding none true) := rfl
  have heval : boundDial.evaluateNamed (enter 1) "b"
      = .ok (evaluatedDial, .result (.ok (.int 1))) := evaluateNamed_eq hid hB hout
  have hnone := List.eq_nil_of_length_eq_zero hcalls
  have hkeywords : ∀ f ∈ (host (enter 1)).visited watchedDial dialScope boundDial.patience
      Frame.start (boundDial.beginning 0 (dialBinding none true)), f.balks watchedDial = false :=
    fun f hf => Bool.eq_false_iff.mpr (List.any_eq_false.mp hbalks f hf)
  have hthere : turnedDial.HasObject dial := by
    obtain ⟨cell, hcell, href⟩ := Option.map_eq_some_iff.mp hobject
    exact ⟨cell, hcell, href⟩
  have hturned : Meanwhile (enter 1) dialWiring (.script "b" []) evaluatedDial turnedDial :=
    Meanwhile.assigned hschema trivial fun _ =>
      spared_dial [some ⟨0, 0⟩, some ⟨0, 0⟩] hreplies
  have hbound : Proceedings dialWiring boundDial boundDial [] := Proceedings.aside Aside.refl
  have hall := (notices_by_route (v := .int 3) ready_dialSession counted_dialSession
    makeBinding_dial rfl rfl rfl rfl hbound (by decide) (bindingNamed_eq hid hB) hout
    (fun e he => absurd (hnone ▸ he) List.not_mem_nil) hkeywords heval nofun hturned
    (fun pin hpin => absurd (List.eq_nil_of_length_eq_zero hpins ▸ hpin) List.not_mem_nil) hthere
    hschema' trivial fun _ =>
      spared_dial [some ⟨0, 0⟩, some ⟨0, 0⟩] hreplies').1
      (reports_dial hx' rfl)
  rw [hall, hloads, hasks]
  rfl

/-- **A change may run the callback twice**: here the evaluation has read the attribute by both
routes. -/
theorem twice_by_both_routes :
    ¬ ∀ (w₀ w₁ w w' : Session) (code instrumented : Code) (scope : Scope) (name : String) (b : Nat)
      (id : String) (B : Binding) (reply : Reply) (o : ObjectRef) (schema : Schema) (attr : String)
      (v : Value), Ready w₀ code scope → Counted w₀ →
      w₀.makeBinding code scope {} (.script name []) = .ok (w₁, b) →
      w₁.bindings[b]?.bind Binding.instrumented = some instrumented →
      w = (w₁.nameBinding id b).1 → w.bindingNamed id = .ok (b, B) →
      w.evaluateNamed (enter 1) id = .ok (w', reply) →
      (o, attr) ∈ w.loads (enter 1) b B ∨ (o, attr) ∈ w.asks (enter 1) b B →
      w'.schema? o = some schema → w'.Reports o schema attr v →
      (w'.assigned (enter 1) o schema attr v).notices (.script name [])
        = w'.notices (.script name []) + 1 := by
  intro honce
  obtain ⟨hid, hout, -, -, hloads, -⟩ := evaluation_boundDial
  obtain ⟨hschema, hx, -, hbefore, hafter⟩ := assignment_evaluatedDial
  have hB : boundDial.bindings[0]? = some (dialBinding none true) := rfl
  have heval : boundDial.evaluateNamed (enter 1) "b"
      = .ok (evaluatedDial, .result (.ok (.int 1))) := evaluateNamed_eq hid hB hout
  have hread : (dial, "x") ∈ boundDial.loads (enter 1) 0 (dialBinding none true) := by
    rw [hloads]
    exact List.mem_singleton_self _
  have hall := honce dialSession _ boundDial evaluatedDial dialCode watchedDial dialScope "b" 0 "b"
    _ _ dial dialSchema "x" (.int 2) ready_dialSession counted_dialSession makeBinding_dial rfl rfl
    (bindingNamed_eq hid hB) heval (Or.inl hread) hschema (reports_dial hx rfl)
  rw [hbefore] at hall
  exact absurd (hafter.symm.trans hall) (by decide)

end Dial

end Session
end TrackedExpr
