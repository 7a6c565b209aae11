import TrackedExpr.Proofs.Announcements
import TrackedExpr.Proofs.Dependencies

/-!
# The observers of a binding

For every listener of its policies a binding has one observer at the listener's object.  The
observer reports to the binding's channel, and nothing but the policy holds its subscription.
So a change of an attribute reaches the binding once for each of its policies that listens to
the attribute.

**Definitions.**
* `posts`: the observers of an object that report to a channel;
* `Registry.Stations`, `Stationed`: the observer that belongs to a listener, and its object;
* `Elsewhere`: subscriptions held by anything but the policies of a binding;
* `Posted`: a binding whose listeners have their observers;
* `Aside`: what leaves a binding and its observers alone;
* `Engaged`: a tended binding that has a name, and whose listeners have their observers;
* `Counted`: a session that has numbered all subscriptions and channels that are used.

**Results.**
* `Posted.mono`: fewer listeners and fewer observers;
* `Posted.hookUp`: a hookup;
* `Posted.pruneAt`: an object forgets observers that nobody holds;
* `Aside.engaged`: whatever leaves the binding alone;
* `Shows.engaged`, `Shows.attends`: an access that is shown to a policy;
* `Engaged.beginning`, `Engaged.concluded`: an evaluation begins and ends;
* `Engaged.reached`: a change reaches the policies that listen to the attribute;
* `Engaged.react_told`: the observer of a listener tells the binding;
* `Ready.engaged`: a new binding is engaged once it has a name.
-/

namespace TrackedExpr

/-- The observer that reports to a listener. -/
def Registry.post (r : Registry) (key : SlotKey) (l : Listener) : Observer Session.Reaction :=
  ⟨l.attr, l.subscription, .forward (some key) r.token⟩

/-- A listener for an attribute of an object has an observer. -/
def Registry.Stations (r : Registry) (x : ObjectRef) (ob : Observer Session.Reaction) : Prop :=
  ∃ key l, r.listeners.get? key = some l ∧ r.subjects.slots.get? l.subject = some x ∧
    ob = r.post key l

section Stations

variable {r r' : Registry} {o x : ObjectRef} {ob : Observer Session.Reaction} {subject : SlotKey}
  {attr : String} {s : Nat}

theorem Registry.not_stations_clear (token : Token) :
    ¬ ({ r.clear with token := token } : Registry).Stations x ob := by
  rintro ⟨key, l, hl, -⟩
  rw [Registry.clear, Slots.get?_clear] at hl
  cases hl

/-- A registry that gave an object a key has the same observers. -/
theorem Registry.Admits.stations (hadmits : r.Admits o r' subject) (hr : r.Exact)
    (h : r'.Stations x ob) : r.Stations x ob := by
  obtain ⟨key, l, hl, hx, rfl⟩ := h
  rw [hadmits.listeners] at hl
  obtain ⟨y, hy⟩ := hr.placed key l hl
  obtain rfl : y = x := Option.some.inj (((hadmits.keys _ y).mpr (Or.inl hy)).symm.trans hx)
  exact ⟨key, l, hl, hy, by rw [Registry.post, Registry.post, hadmits.token]⟩

theorem Registry.Exact.stations_attach (hr : r.Exact)
    (hslot : r.subjects.slots.get? subject = some o)
    (h : (r.attach ⟨subject, attr, s⟩).Stations x ob) :
    r.Stations x ob ∨ x = o ∧ ob = ⟨attr, s, .forward (some r.listeners.nextKey) r.token⟩ := by
  obtain ⟨key, l, hl, hx, rfl⟩ := h
  rw [hr.get?_attach] at hl
  split at hl
  · next hkey =>
      obtain rfl := Option.some.inj hl
      rw [hkey]
      exact Or.inr ⟨Option.some.inj (hx.symm.trans hslot), rfl⟩
  · exact Or.inl ⟨key, l, hl, hx, rfl⟩

theorem Registry.Stations.mem_subscriptions (h : r.Stations x ob) :
    ob.subscription ∈ r.subscriptions := by
  obtain ⟨key, l, hl, -, rfl⟩ := h
  exact Registry.mem_subscriptions hl

end Stations

namespace Session

section Notions

/-- Whether a reaction passes changes on to a channel. -/
def Reaction.forwardsTo (c : Nat) : Reaction → Bool
  | .script _ _ => false
  | .forward _ token => token.channel = c

/-- The observers of an object that report to a channel. -/
def posts (w : Session) (c id : Nat) : List (Observer Reaction) :=
  (w.observersAt (.object id)).filter fun ob => ob.action.forwardsTo c

/-- The observer of a listener of a policy, and its object. -/
def Stationed (w : Session) (p : Nat) (x : ObjectRef) (ob : Observer Reaction) : Prop :=
  ∃ P, w.policies[p]? = some P ∧ P.registry.Stations x ob

/-- A subscription is held by anything but the policies of a binding. -/
def Elsewhere (k : Wiring) (w : Session) (s : Nat) : Prop :=
  s ∈ w.names.subscriptions.map Prod.snd ∨ s ∈ w.names.handles.map Prod.snd ∨
    ∃ q, q ∉ k.policies ∧ ∃ Q, w.policies[q]? = some Q ∧ s ∈ Q.registry.subscriptions

/-- A binding whose listeners have their observers, each with a subscription of its own. -/
structure Posted (k : Wiring) (w : Session) : Prop where
  manned : ∀ p ∈ k.policies, ∀ x ob, Stationed w p x ob → ob ∈ w.posts k.channel x.id
  matched : ∀ p ∈ k.policies, ∀ x ob, Stationed w p x ob → ∀ id, ∀ ob' ∈ w.posts k.channel id,
    ob'.subscription = ob.subscription → id = x.id ∧ ob' = ob
  distinct : ∀ p ∈ k.policies, ∀ q ∈ k.policies, ∀ x y ob ob', Stationed w p x ob →
    Stationed w q y ob' → ob.subscription = ob'.subscription → p = q
  unique : ∀ id, ((w.posts k.channel id).map Observer.subscription).Nodup
  counted : ∀ id, ∀ ob ∈ w.posts k.channel id, ob.subscription < w.subscriptions
  hidden : ∀ id, ∀ ob ∈ w.posts k.channel id, ¬ Elsewhere k w ob.subscription
  fresh : ∀ s, Elsewhere k w s → s < w.subscriptions

/-- What leaves a binding and its observers alone. -/
structure Aside (k : Wiring) (w w' : Session) : Prop extends Untouched k w w' where
  record : w'.bindings[k.binding]? = w.bindings[k.binding]?
  named : (∃ e ∈ w.names.bindings, e.2 = k.binding) → ∃ e ∈ w'.names.bindings, e.2 = k.binding
  posts : ∀ id, (w'.posts k.channel id).Sublist (w.posts k.channel id)
  kept : ∀ p ∈ k.policies, ∀ x ob, Stationed w p x ob → ob ∈ w.posts k.channel x.id →
    ob ∈ w'.posts k.channel x.id
  subscriptions : w.subscriptions ≤ w'.subscriptions
  newcomers : ∀ s, Elsewhere k w' s →
    Elsewhere k w s ∨ w.subscriptions ≤ s ∧ s < w'.subscriptions

end Notions

section Frames

variable {k : Wiring} {n : Nat} {w w' : Session} {p : Nat} {P : Policy} {o x : ObjectRef}
  {ob : Observer Reaction} {c id : Nat}

theorem stations_refreshed {r : Registry} (h : (w.refreshed r).Stations x ob) : r.Stations x ob := by
  unfold refreshed at h
  split at h
  · exact h
  · exact absurd h (Registry.not_stations_clear _)

theorem stationed_iff (hP : w.policies[p]? = some P) :
    Stationed w p x ob ↔ P.registry.Stations x ob := by
  constructor
  · rintro ⟨Q, hQ, h⟩
    obtain rfl := Option.some.inj (hP.symm.trans hQ)
    exact h
  · exact fun h => ⟨P, hP, h⟩

theorem Stationed.congr (h : Stationed w' p x ob) (hpolicies : w'.policies[p]? = w.policies[p]?) :
    Stationed w p x ob := by
  obtain ⟨P, hP, hstations⟩ := h
  exact ⟨P, hpolicies.symm.trans hP, hstations⟩

theorem mem_posts : ob ∈ w.posts c id ↔
    ob ∈ w.observersAt (.object id) ∧ ob.action.forwardsTo c = true := List.mem_filter

theorem posts_congr (hobjects : w'.objects = w.objects) (c id : Nat) :
    w'.posts c id = w.posts c id := by
  simp only [posts, observersAt, hobjects]

/-- Fewer listeners and fewer observers, of which those of the listeners are kept. -/
theorem Posted.mono (h : Posted k w)
    (hstations : ∀ p ∈ k.policies, ∀ x ob, Stationed w' p x ob → Stationed w p x ob)
    (hposts : ∀ id, (w'.posts k.channel id).Sublist (w.posts k.channel id))
    (hkept : ∀ p ∈ k.policies, ∀ x ob, Stationed w p x ob → ob ∈ w.posts k.channel x.id →
      ob ∈ w'.posts k.channel x.id)
    (hsubscriptions : w.subscriptions ≤ w'.subscriptions)
    (hnewcomers : ∀ s, Elsewhere k w' s →
      Elsewhere k w s ∨ w.subscriptions ≤ s ∧ s < w'.subscriptions) : Posted k w' where
  manned := fun p hp x ob hob =>
    hkept p hp x ob (hstations p hp x ob hob) (h.manned p hp x ob (hstations p hp x ob hob))
  matched := fun p hp x ob hob id ob' hob' =>
    h.matched p hp x ob (hstations p hp x ob hob) id ob' ((hposts id).subset hob')
  distinct := fun p hp q hq x y ob ob' hob hob' =>
    h.distinct p hp q hq x y ob ob' (hstations p hp x ob hob) (hstations q hq y ob' hob')
  unique := fun id => (h.unique id).sublist ((hposts id).map _)
  counted := fun id ob hob =>
    Nat.lt_of_lt_of_le (h.counted id ob ((hposts id).subset hob)) hsubscriptions
  hidden := by
    intro id ob hob helsewhere
    have hold := (hposts id).subset hob
    rcases hnewcomers _ helsewhere with hheld | ⟨hnew, -⟩
    · exact h.hidden id ob hold hheld
    · exact Nat.not_lt.mpr hnew (h.counted id ob hold)
  fresh := by
    intro s hs
    rcases hnewcomers s hs with hheld | ⟨-, hlt⟩
    · exact Nat.lt_of_lt_of_le (h.fresh s hheld) hsubscriptions
    · exact hlt

/-- Nothing matters but objects, policies, subscriptions and names. -/
theorem Posted.beside (h : Posted k w) (hobjects : w'.objects = w.objects)
    (hpolicies : w'.policies = w.policies) (hsubscriptions : w'.subscriptions = w.subscriptions)
    (hnames : w'.names = w.names) : Posted k w' := by
  have hposts := posts_congr hobjects k.channel
  refine h.mono (fun p _ x ob hob => hob.congr (by rw [hpolicies])) ?_ ?_ ?_ ?_
  · exact fun id => hposts id ▸ List.Sublist.refl _
  · exact fun p _ x ob _ hob => hposts x.id ▸ hob
  · exact Nat.le_of_eq hsubscriptions.symm
  · intro s hs
    rw [Elsewhere, hnames, hpolicies] at hs
    exact Or.inl hs

theorem Aside.posted (h : Aside k w w') (hw : Posted k w) : Posted k w' :=
  hw.mono (fun p hp _ _ hob => hob.congr (h.policies p hp)) h.posts h.kept h.subscriptions
    h.newcomers

theorem Aside.of_untouched (h : Untouched k w w')
    (hrecord : w'.bindings[k.binding]? = w.bindings[k.binding]?) (hobjects : w'.objects = w.objects)
    (hpolicies : w'.policies = w.policies) (hsubscriptions : w'.subscriptions = w.subscriptions)
    (hnames : w'.names = w.names) : Aside k w w' := by
  have hposts := posts_congr hobjects k.channel
  refine ⟨h, hrecord, fun hnamed => hnames ▸ hnamed, ?_, ?_, ?_, ?_⟩
  · exact fun id => hposts id ▸ List.Sublist.refl _
  · exact fun p _ x ob _ hob => hposts x.id ▸ hob
  · exact Nat.le_of_eq hsubscriptions.symm
  · intro s hs
    rw [Elsewhere, hnames, hpolicies] at hs
    exact Or.inl hs

theorem Aside.refl (h : Furnished k w) : Aside k w w :=
  Aside.of_untouched (Untouched.refl h) rfl rfl rfl rfl rfl

theorem Aside.trans {w'' : Session} (h : Aside k w w') (h' : Aside k w' w'') : Aside k w w'' where
  toUntouched := h.toUntouched.trans h'.toUntouched
  record := h'.record.trans h.record
  named := fun hnamed => h'.named (h.named hnamed)
  posts := fun id => (h'.posts id).trans (h.posts id)
  kept := by
    intro p hp x ob hob hmem
    have hstay : Stationed w' p x ob := hob.congr (h.policies p hp).symm
    exact h'.kept p hp x ob hstay (h.kept p hp x ob hob hmem)
  subscriptions := Nat.le_trans h.subscriptions h'.subscriptions
  newcomers := by
    intro s hs
    have hfirst := h.subscriptions
    have hthen := h'.subscriptions
    rcases h'.newcomers s hs with hmid | ⟨hle, hlt⟩
    · exact (h.newcomers s hmid).imp_right fun hnew => ⟨hnew.1, by omega⟩
    · exact Or.inr ⟨by omega, hlt⟩

/-- Pins, the log and recorders do not matter. -/
theorem Furnished.aside (h : Furnished k w) (pins : List Pin) (log : List LogEntry)
    (recorders : List (List RecordedEvent)) :
    Aside k w { w with pins := pins, log := log, recorders := recorders } :=
  Aside.of_untouched ⟨h.beside w.names pins log recorders, Lasts.refl w, rfl, fun _ _ => rfl⟩
    rfl rfl rfl rfl rfl

end Frames

section Hookups

variable {k : Wiring} {n : Nat} {w t : Session} {p : Nat} {P : Policy} {o : ObjectRef}
  {attr : String} {hook : Hookup SlotKey}

/-- A policy with another registry that has no listeners but those that it had. -/
theorem Posted.setRegistry (h : Posted k w) (hp : p ∈ k.policies)
    (hP : w.policies[p]? = some P) {r : Registry}
    (hr : ∀ x ob, r.Stations x ob → P.registry.Stations x ob) : Posted k (w.setRegistry p r) := by
  obtain ⟨hself, hother⟩ := getElem?_modifyPolicy hP fun policy => { policy with registry := r }
  refine h.mono ?_ (fun _ => List.Sublist.refl _) (fun _ _ _ _ _ hob => hob) (Nat.le_refl _) ?_
  · intro q _ x ob hob
    by_cases hq : q = p
    · subst hq
      exact ⟨P, hP, hr x ob ((@stationed_iff (w.setRegistry q r) _ _ _ _ hself).mp hob)⟩
    · exact hob.congr (hother q hq)
  · rintro s (hs | hs | ⟨q, hq, Q, hQ, hs⟩)
    · exact Or.inl (Or.inl hs)
    · exact Or.inl (Or.inr (Or.inl hs))
    · have hne : q ≠ p := fun heq => hq (heq ▸ hp)
      exact Or.inl (Or.inr (Or.inr ⟨q, hq, Q, (hother q hne).symm.trans hQ, hs⟩))

/-- A new listener has a new observer. -/
theorem Posted.attach (h : Posted k w) (hp : p ∈ k.policies) (hP : w.policies[p]? = some P)
    (ho : w.HasObject o) {r : Registry} {subject : SlotKey} (hexact : r.Exact)
    (hslot : r.subjects.slots.get? subject = some o) (hchannel : r.token.channel = k.channel)
    (hr : ∀ x ob, r.Stations x ob → P.registry.Stations x ob) :
    Posted k (w.withListener p r subject o attr) := by
  obtain ⟨hself, hother⟩ := getElem?_modifyPolicy hP fun policy => { policy with
    registry := r.attach ⟨subject, attr, w.subscriptions⟩, busy := false }
  let ob₀ : Observer Reaction :=
    ⟨attr, w.subscriptions, .forward (some r.listeners.nextKey) r.token⟩
  have hposts : ∀ id, (w.withListener p r subject o attr).posts k.channel id
      = w.posts k.channel id ++ if id = o.id then [ob₀] else [] := by
    intro id
    rw [posts, observersAt_withListener ho, List.filter_append, ← posts]
    congr 1
    split
    · simp [ob₀, Reaction.forwardsTo, hchannel]
    · rfl
  have hmem : ∀ id ob, ob ∈ (w.withListener p r subject o attr).posts k.channel id ↔
      ob ∈ w.posts k.channel id ∨ id = o.id ∧ ob = ob₀ := by
    intro id ob
    rw [hposts, List.mem_append]
    split <;> simp_all
  have hstations : ∀ q x ob, Stationed (w.withListener p r subject o attr) q x ob →
      Stationed w q x ob ∨ q = p ∧ x = o ∧ ob = ob₀ := by
    intro q x ob hob
    by_cases hq : q = p
    · subst hq
      have hob := (@stationed_iff (w.withListener q r subject o attr) _ _ _ _ hself).mp hob
      rcases hexact.stations_attach hslot hob with hold | ⟨hx, hob⟩
      · exact Or.inl ⟨P, hP, hr x ob hold⟩
      · exact Or.inr ⟨rfl, hx, hob⟩
    · exact Or.inl (hob.congr (hother q hq))
  -- the subscriptions that were there are older than the new one
  have hold : ∀ q ∈ k.policies, ∀ x ob, Stationed w q x ob → ob.subscription < w.subscriptions :=
    fun q hq x ob hob => h.counted x.id ob (h.manned q hq x ob hob)
  have helsewhere : ∀ s, Elsewhere k (w.withListener p r subject o attr) s → Elsewhere k w s := by
    rintro s (hs | hs | ⟨q, hq, Q, hQ, hs⟩)
    · exact Or.inl hs
    · exact Or.inr (Or.inl hs)
    · have hne : q ≠ p := fun heq => hq (heq ▸ hp)
      exact Or.inr (Or.inr ⟨q, hq, Q, (hother q hne).symm.trans hQ, hs⟩)
  constructor
  · intro q hq x ob hob
    rw [hmem]
    rcases hstations q x ob hob with hob | ⟨-, rfl, rfl⟩
    · exact Or.inl (h.manned q hq x ob hob)
    · exact Or.inr ⟨rfl, rfl⟩
  · intro q hq x ob hob id ob' hob' hsame
    rcases (hmem id ob').mp hob' with hpost | ⟨rfl, rfl⟩ <;>
      rcases hstations q x ob hob with hstation | ⟨-, rfl, rfl⟩
    · exact h.matched q hq x ob hstation id ob' hpost hsame
    · exact absurd hsame (Nat.ne_of_lt (h.counted id ob' hpost))
    · exact absurd hsame.symm (Nat.ne_of_lt (hold q hq x ob hstation))
    · exact ⟨rfl, rfl⟩
  · intro q hq q' hq' x y ob ob' hob hob' hsame
    rcases hstations q x ob hob with hstation | ⟨rfl, -, rfl⟩ <;>
      rcases hstations q' y ob' hob' with hstation' | ⟨rfl, -, rfl⟩
    · exact h.distinct q hq q' hq' x y ob ob' hstation hstation' hsame
    · exact absurd hsame (Nat.ne_of_lt (hold q hq x ob hstation))
    · exact absurd hsame.symm (Nat.ne_of_lt (hold q' hq' y ob' hstation'))
    · rfl
  · intro id
    rw [hposts, List.map_append, List.nodup_append]
    refine ⟨h.unique id, by split <;> simp, ?_⟩
    intro s hs s' hs' hsame
    obtain ⟨ob, hob, rfl⟩ := List.mem_map.mp hs
    split at hs'
    · obtain rfl : s' = w.subscriptions := by simpa [ob₀] using hs'
      exact absurd hsame (Nat.ne_of_lt (h.counted id ob hob))
    · cases hs'
  · intro id ob hob
    rcases (hmem id ob).mp hob with hob | ⟨-, rfl⟩
    · exact Nat.lt_succ_of_lt (h.counted id ob hob)
    · exact Nat.lt_succ_self _
  · intro id ob hob hheld
    rcases (hmem id ob).mp hob with hob | ⟨-, rfl⟩
    · exact h.hidden id ob hob (helsewhere _ hheld)
    · exact absurd (h.fresh _ (helsewhere _ hheld)) (Nat.lt_irrefl _)
  · exact fun s hs => Nat.lt_succ_of_lt (h.fresh s (helsewhere s hs))

/-- **The listeners have their observers after a hookup.** -/
theorem Posted.hookUp (h : Posted k w) (hw : Tended k n w) (hp : p ∈ k.policies)
    (hP : w.policies[p]? = some P) (ho : w.HasObject o) (hhook : HookUp p P w o attr t hook) :
    Posted k t := by
  obtain ⟨Q, hQ, -, horderly⟩ := hw.policies p hp
  obtain rfl := Option.some.inj (hP.symm.trans hQ)
  have hexact : (w.refreshed P.registry).Exact := refreshed_exact horderly.exact
  cases hhook with
  | refused _ _ _ => exact h
  | detached _ _ => exact h.setRegistry hp hP fun x ob hob => absurd hob (Registry.not_stations_clear _)
  | found _ _ hadmits _ =>
      exact h.setRegistry hp hP fun x ob hob => stations_refreshed (hadmits.stations hexact hob)
  | attached _ _ hadmits _ =>
      have hchannel := (horderly.refreshed hw.channel).channel
      rw [← hadmits.token] at hchannel
      exact h.attach hp hP ho hadmits.exact hadmits.self hchannel
        fun x ob hob => stations_refreshed (hadmits.stations hexact hob)

end Hookups

section Objects

variable {k : Wiring} {n : Nat} {w : Session} {o : ObjectRef} {attr : String} {v : Value}

theorem posts_putAt (w : Session) (o : ObjectRef) (attr : String) (v : Value) (c id : Nat) :
    (w.putAt o attr v).posts c id = w.posts c id := by
  rw [posts, posts, observersAt_putAt]

theorem Furnished.aside_putAt (h : Furnished k w) (hv : v.Among w.HasObject k.Outer) :
    Aside k w (w.putAt o attr v) where
  toUntouched := h.putAt hv
  record := rfl
  named := id
  posts := fun id => by rw [posts_putAt]
  kept := fun p _ x ob _ hob => by rwa [posts_putAt]
  subscriptions := Nat.le_refl _
  newcomers := fun _ hs => Or.inl hs

theorem observersAt_pruneAt (w : Session) (id i : Nat) :
    (w.pruneAt id).observersAt (.object i) = if i = id then
      Observers.prune (fun s => s ∈ w.heldSubscriptions) (w.observersAt (.object i))
    else w.observersAt (.object i) := by
  simp only [observersAt, Session.pruneAt, modifyObservers, modifyObject, List.getElem?_modify]
  by_cases hi : i = id
  · subst hi
    cases w.objects[i]? <;> simp [Observers.prune]
  · cases w.objects[i]? <;> simp [hi, Ne.symm hi]

/-- The policies of a binding that exists hold the subscriptions of its observers. -/
theorem Furnished.held (h : Furnished k w) (halive : w.bindingAlive k.binding = true) {p : Nat}
    (hp : p ∈ k.policies) {x : ObjectRef} {ob : Observer Reaction} (hob : Stationed w p x ob) :
    ob.subscription ∈ w.heldSubscriptions := by
  obtain ⟨B, hB, hfits⟩ := h.binding
  obtain ⟨P, hP, hstations⟩ := hob
  have hpolicy : w.policyAlive p = true := by
    apply policyAlive_of_binding (mem_liveBindings hB halive)
    rw [hfits.policies]
    exact hp
  exact Session.mem_heldSubscriptions (mem_livePolicies hP hpolicy) hstations.mem_subscriptions

/-- An object forgets observers that nobody holds, and none of a binding that exists. -/
theorem Furnished.aside_pruneAt (h : Furnished k w) (halive : w.bindingAlive k.binding = true)
    (id : Nat) : Aside k w (w.pruneAt id) where
  toUntouched := h.pruneAt id
  record := rfl
  named := fun hnamed => hnamed
  posts := by
    intro i
    rw [posts, posts, observersAt_pruneAt]
    split
    · exact List.filter_sublist.filter _
    · exact List.Sublist.refl _
  kept := by
    intro p hp x ob hob hmem
    rw [mem_posts] at hmem ⊢
    rw [observersAt_pruneAt]
    split
    · exact ⟨List.mem_filter.mpr ⟨hmem.1, decide_eq_true (h.held halive hp hob)⟩, hmem.2⟩
    · exact hmem
  subscriptions := Nat.le_refl _
  newcomers := fun _ hs => Or.inl hs

end Objects

/-- A tended binding that has a name and receives what its channel delivers, and whose listeners
have their observers. -/
structure Engaged (k : Wiring) (n : Nat) (w : Session) : Prop extends Tended k n w where
  sink : ∃ g, w.channels[k.channel]? = some ⟨g, .binding k.binding⟩
  named : ∃ e ∈ w.names.bindings, e.2 = k.binding
  posted : Posted k w

section Engagements

variable {re : Reentry} {k : Wiring} {n m : Nat} {w w' t : Session} {p q : Nat}
  {o x : ObjectRef} {attr a : String} {B : Binding} {r : Outcome}

theorem Engaged.alive (h : Engaged k n w) : w.bindingAlive k.binding = true :=
  bindingAlive_of_named h.named

/-- Only bindings and channels have changed, and the channel delivers as it did. -/
theorem Engaged.beside (h : Engaged k n w) (ht : Tended k m w')
    (hsink : ∃ g, w'.channels[k.channel]? = some ⟨g, .binding k.binding⟩)
    (hobjects : w'.objects = w.objects) (hpolicies : w'.policies = w.policies)
    (hsubscriptions : w'.subscriptions = w.subscriptions) (hnames : w'.names = w.names) :
    Engaged k m w' :=
  ⟨ht, hsink, hnames ▸ h.named, h.posted.beside hobjects hpolicies hsubscriptions hnames⟩

/-- **A binding stays engaged** whatever leaves it alone. -/
theorem Aside.engaged (h : Aside k w w') (hw : Engaged k n w) : Engaged k n w' where
  toTended := h.tended hw.toTended
  sink := by
    rw [h.channel]
    exact hw.sink
  named := h.named hw.named
  posted := h.posted hw.posted

theorem Engaged.repinned (h : Engaged k n w) (pins : List Pin) :
    Engaged k n { w with pins := pins } :=
  (h.aside pins w.log w.recorders).engaged h

theorem Engaged.reset (h : Engaged k n w) : Engaged k (n + 1) (w.resetChannel k.channel) := by
  refine h.beside h.toTended.reset ?_ rfl rfl rfl rfl
  obtain ⟨g, hg⟩ := h.sink
  exact ⟨g + 1, by simp [resetChannel, modifyChannel, hg]⟩

theorem Engaged.flagged (h : Engaged k n w) (last : Binding → Option Outcome)
    (dirty evaluating : Binding → Bool) :
    Engaged k n (w.modifyBinding k.binding fun B =>
      { B with last := last B, dirty := dirty B, evaluating := evaluating B }) :=
  h.beside ((h.toFurnished.flagged last dirty evaluating k.binding).tended h.toTended) h.sink rfl rfl
    rfl rfl

theorem HookUp.rest {P : Policy} {hook : Hookup SlotKey} (h : HookUp p P w o attr t hook) :
    t.channels = w.channels ∧ t.bindings = w.bindings ∧ t.names = w.names := by
  cases h <;> exact ⟨rfl, rfl, rfl⟩

/-- An access that is shown to a policy of an engaged binding is a hookup. -/
theorem Engaged.hookUp (h : Engaged k n w) (hp : p ∈ k.policies) (ho : w.InGrip (.object o))
    (re : Reentry) (attr : String) : ∃ P hook,
      w.policies[p]? = some P ∧ HookUp p P w o attr (w.see re p (.object o) attr) hook := by
  obtain ⟨B, hB, hfits⟩ := h.binding
  have halive : w.policyAlive p = true := by
    apply policyAlive_of_binding (mem_liveBindings hB h.alive)
    rw [hfits.policies]
    exact hp
  exact h.toTended.hookUp hp ho re attr halive

/-- **A binding stays engaged** when an access is shown to its policies. -/
theorem Shows.engaged (h : Shows re p o attr w t) (hp : p ∈ k.policies) (hw : Engaged k n w) :
    Engaged k n t ∧ t.channels = w.channels ∧ t.bindings = w.bindings := by
  induction h with
  | @once w pins hgrip =>
      have hpinned : Engaged k n { w with pins := pins ++ w.pins } := hw.repinned _
      obtain ⟨P, hook, hP, hhook⟩ := hpinned.hookUp hp hgrip re attr
      obtain ⟨hchannels, hbindings, hnames⟩ := hhook.rest
      have hsaw := hhook.tended hpinned.toTended hp hP (hgrip o rfl).1
      have hposted := hpinned.posted.hookUp hpinned.toTended hp hP (hgrip o rfl).1 hhook
      have hsee : Engaged k n (Session.see re p (.object o) attr { w with pins := pins ++ w.pins }) :=
        ⟨hsaw, by rw [hchannels]; exact hw.sink, by rw [hnames]; exact hw.named, hposted⟩
      exact ⟨hsee.repinned w.pins, hchannels, hbindings⟩
  | again _ _ ih ih' =>
      obtain ⟨ht, hchannels, hbindings⟩ := ih hw
      obtain ⟨hu, hchannels', hbindings'⟩ := ih' ht
      exact ⟨hu, hchannels'.trans hchannels, hbindings'.trans hbindings⟩

/-- **What is listened to after an access was shown**: what was, and the attribute if it can be
observed. -/
theorem Shows.attends (h : Shows re p o attr w t) (hp : p ∈ k.policies) (hw : Engaged k n w) :
    Attends t q x a ↔
      Attends w q x a ∨ q = p ∧ x = o ∧ a = attr ∧ w.declared? o attr = some .observable := by
  induction h with
  | @once w pins hgrip =>
      have hpinned : Engaged k n { w with pins := pins ++ w.pins } := hw.repinned _
      obtain ⟨P, hook, hP, hhook⟩ := hpinned.hookUp hp hgrip re attr
      exact hhook.attends_iff hpinned.toTended hp hP (hpinned.channelAlive hpinned.alive)
  | @again w t u hfirst hthen ih ih' =>
      have ht := (hfirst.engaged hp hw).1
      have hobject : w.HasObject o := hfirst.hasObject
      have hdeclared := (hfirst.tended hp hw.toTended).2.1.declared? hobject attr
      rw [ih' ht, ih hw, hdeclared, or_assoc, or_self]

/-- An evaluation of an engaged binding begins. -/
theorem Engaged.beginning (h : Engaged k n w) (hB : w.bindings[k.binding]? = some B) :
    Engaged k (n + 1) (w.beginning k.binding B) := by
  have hpinned := h.repinned ([.binding k.binding] ++ w.pins)
  have hflagged := hpinned.reset.flagged Binding.last (fun _ => false) (fun _ => true)
  rw [Session.beginning, (h.fits hB).channel]
  exact hflagged.repinned _

/-- An evaluation of an engaged binding ends. -/
theorem Engaged.concluded (h : Engaged k n t) (r : Outcome) (w : Session) :
    Engaged k n (concluded k.binding r w t) :=
  (h.repinned w.pins).flagged (fun _ => some r) Binding.dirty (fun _ => false)

/-- A policy listens to an attribute of an object by one observer of the present generation. -/
theorem Engaged.attends_iff (h : Engaged k n w) (hp : p ∈ k.policies) : Attends w p x a ↔
    ∃ ob, Stationed w p x ob ∧ ob.attr = a ∧
      ∃ l, ob.action = .forward l (w.issue k.channel) := by
  obtain ⟨P, hP, -, horderly⟩ := h.policies p hp
  rw [Session.attends_iff hP, horderly.channel]
  constructor
  · rintro ⟨htoken, key, l, hl, rfl, hx⟩
    exact ⟨P.registry.post key l, ⟨P, hP, key, l, hl, hx, rfl⟩, rfl, some key,
      congrArg (Reaction.forward (some key)) htoken⟩
  · rintro ⟨ob, hob, rfl, l', hl'⟩
    obtain ⟨key, l, hl, hx, rfl⟩ := (stationed_iff hP).mp hob
    exact ⟨(Reaction.forward.inj hl').2, key, l, hl, rfl, hx⟩

/-- **A change reaches the policies** that listen to the attribute. -/
theorem Engaged.reached (h : Engaged k n w) (hp : p ∈ k.policies) (hattends : Attends w p o a) :
    ∃ ob ∈ w.reached o.id a, ∃ l, ob.action = .forward l (w.issue k.channel) := by
  obtain ⟨ob, hob, hattr, hl⟩ := (h.attends_iff hp).mp hattends
  have hmem := (mem_posts.mp (h.posted.manned p hp o ob hob)).1
  have hcell : ∃ cell, w.objects[o.id]? = some cell ∧ ob ∈ cell.observers := by
    rw [observersAt] at hmem
    cases hcell : w.objects[o.id]? with
    | none =>
        rw [hcell] at hmem
        cases hmem
    | some cell =>
        rw [hcell] at hmem
        exact ⟨cell, rfl, hmem⟩
  exact ⟨ob, mem_reached.mpr ⟨hattr, h.held h.alive hp hob, hcell⟩, hl⟩

/-- What is held on to while a channel tells a binding of a change. -/
def gripped (k : Wiring) (w : Session) : Session :=
  { w with pins := [.binding k.binding] ++ ([.channel k.channel] ++ w.pins) }

/-- **The observer of a listener tells the binding**, in the present generation of its channel. -/
theorem Engaged.react_told (h : Engaged k n w) (change : Change) {action : Reaction}
    (hl : ∃ l, action = .forward l (w.issue k.channel)) : w.react re change action
      = { Session.invalidate re k.binding change (gripped k w) with pins := w.pins } := by
  obtain ⟨l, rfl⟩ := hl
  obtain ⟨g, hg⟩ := h.sink
  have hconnected : w.connected (w.issue k.channel) = true :=
    (connected_iff (h.channelAlive h.alive)).mpr rfl
  have halive : bindingAlive { w with pins := [.channel k.channel] ++ w.pins } k.binding = true :=
    bindingAlive_of_pinned _ h.alive
  have hreceive : ∀ event : Event, Session.receive re event
      { w with pins := [.channel k.channel] ++ w.pins } (.binding k.binding)
        = { Session.invalidate re k.binding event.change (gripped k w) with
            pins := [.channel k.channel] ++ w.pins } := by
    intro event
    rw [Session.receive, halive]
    rfl
  simp only [react, notify, hconnected, if_true]
  rw [deliver, show (w.issue k.channel).channel = k.channel from rfl, hg]
  dsimp only
  rw [keeping, hreceive]

end Engagements

section Making

variable {w : Session} {plain code : Code} {scope : Scope} {onInvalid : Invalidation}

/-- A session that has numbered all subscriptions and channels that are used in it. -/
structure Counted (w : Session) : Prop where
  subscriptions : ∀ s, s ∈ w.names.subscriptions.map Prod.snd ∨
    s ∈ w.names.handles.map Prod.snd ∨ (∃ P ∈ w.policies, s ∈ P.registry.subscriptions) →
      s < w.subscriptions
  channels : ∀ id, ∀ ob ∈ w.observersAt (.object id), ∀ l token, ob.action = .forward l token →
    token.channel < w.channels.length

/-- A session in which nothing is observed yet. -/
theorem Counted.of_unobserved (hsubscriptions : w.names.subscriptions = [])
    (hhandles : w.names.handles = []) (hpolicies : w.policies = [])
    (hobjects : ∀ cell ∈ w.objects, cell.observers = []) : Counted w := by
  constructor
  · rw [hsubscriptions, hhandles, hpolicies]
    rintro s (hs | hs | ⟨P, hP, -⟩)
    · cases hs
    · cases hs
    · cases hP
  · intro id ob hob
    cases hcell : w.objects[id]? with
    | none =>
        rw [observersAt, hcell] at hob
        cases hob
    | some cell =>
        simp only [observersAt, hcell, hobjects cell (List.mem_of_getElem? hcell)] at hob
        cases hob

/-- **A new binding is engaged** once it has a name. -/
theorem Ready.engaged (h : Ready w plain scope) (hw : Counted w) (code : Code)
    (onInvalid : Invalidation) (id : String) :
    Engaged (w.nextWiring plain code scope) 0
      ((w.withNext plain (some code) scope onInvalid).nameBinding id w.bindings.length).1 := by
  have hposts : ∀ i, posts ((w.withNext plain (some code) scope onInvalid).nameBinding id
      w.bindings.length).1 w.channels.length i = [] := by
    intro i
    rw [posts, List.filter_eq_nil_iff]
    intro ob hob hforwards
    cases haction : ob.action with
    | script name actions => simp [haction, Reaction.forwardsTo] at hforwards
    | forward l token =>
        have hlt := hw.channels i ob hob l token haction
        have hsame : token.channel = w.channels.length := by
          simpa [haction, Reaction.forwardsTo] using hforwards
        omega
  have hstations : ∀ p ∈ (w.nextWiring plain code scope).policies, ∀ x ob, ¬ Stationed
      ((w.withNext plain (some code) scope onInvalid).nameBinding id w.bindings.length).1 p x ob := by
    rintro p hp x ob ⟨P, hP, key, l, hl, -⟩
    simp only [Wiring.policies, nextWiring, List.mem_cons, List.not_mem_nil, or_false] at hp
    have hpolicy : P = ⟨Registry.empty ⟨w.channels.length, 0⟩, [], false⟩ := by
      rcases hp with rfl | rfl
      · simpa [nameBinding, rename, withNext] using hP.symm
      · simpa [nameBinding, rename, withNext] using hP.symm
    subst hpolicy
    cases hl
  constructor
  · have htended := h.tended code onInvalid
    have hnamed : Untouched (w.nextWiring plain code scope)
        (w.withNext plain (some code) scope onInvalid)
        ((w.withNext plain (some code) scope onInvalid).nameBinding id w.bindings.length).1 :=
      ⟨htended.beside _ _ _ _, Lasts.refl _, rfl, fun _ _ => rfl⟩
    exact hnamed.tended htended
  · exact ⟨0, List.getElem?_concat_length⟩
  · exact ⟨_, Assoc.mem_of_get? (Assoc.get?_put_self id _ _), rfl⟩
  · constructor
    · exact fun p hp x ob hob => absurd hob (hstations p hp x ob)
    · exact fun p hp x ob hob => absurd hob (hstations p hp x ob)
    · exact fun p hp _ _ x _ ob _ hob => absurd hob (hstations p hp x ob)
    · intro i
      show List.Nodup (List.map _ (posts _ w.channels.length i))
      rw [hposts]
      exact List.nodup_nil
    · intro i ob hob
      rw [show (w.nextWiring plain code scope).channel = w.channels.length from rfl, hposts] at hob
      cases hob
    · intro i ob hob
      rw [show (w.nextWiring plain code scope).channel = w.channels.length from rfl, hposts] at hob
      cases hob
    · rintro s (hs | hs | ⟨q, hq, Q, hQ, hs⟩)
      · exact hw.subscriptions s (Or.inl hs)
      · exact hw.subscriptions s (Or.inr (Or.inl hs))
      · have hold : Q ∈ w.policies := by
          simp only [Wiring.policies, nextWiring, List.mem_cons, List.not_mem_nil, or_false,
            not_or] at hq
          have hQ : (w.policies ++ [⟨Registry.empty ⟨w.channels.length, 0⟩, [], false⟩,
              ⟨Registry.empty ⟨w.channels.length, 0⟩, [], false⟩])[q]? = some Q := hQ
          have hlt := (List.getElem?_eq_some_iff.mp hQ).1
          rw [List.length_append, List.length_cons, List.length_cons, List.length_nil] at hlt
          rw [List.getElem?_append_left (by omega)] at hQ
          exact List.mem_of_getElem? hQ
        exact hw.subscriptions s (Or.inr (Or.inr ⟨Q, hold, hs⟩))

end Making

end Session
end TrackedExpr
