import TrackedExpr.Proofs.Callbacks
import TrackedExpr.Proofs.Notices

/-!
# What belongs to which binding

Every binding has a channel of its own, and policies that report to no other.  An observer of an
object passes changes on to one channel, and a policy that holds its subscription reports to that
channel too.  So in a session in which nothing but bindings track anything, each channel, each
policy and each observer belongs to one binding.

**Definitions.**
* `Layout`, `layout`: the channels, policies and callbacks of the bindings;
* `Allotted`: a session in which all of them belong to one binding each;
* `Registry.Shrinks`, `Sees`: what an access that is shown to a policy does to its registry and
  to the session.

**Results.**
* `Allotted.mono`: nothing but fewer observers and fewer listeners;
* `Allotted.assigned`: an assignment;
* `sees_see`, `Sees.allotted`: an access that is shown to a policy;
* `makeBinding_withBinding`, `Allotted.withBinding`: a new binding.
-/

namespace TrackedExpr

/-- A registry that reports to the same channel and holds no more subscriptions. -/
structure Registry.Shrinks (r r' : Registry) : Prop where
  channel : r'.token.channel = r.token.channel
  subscriptions : r'.subscriptions ⊆ r.subscriptions

section Shrinking

variable {r r' r'' : Registry}

theorem Registry.Shrinks.refl (r : Registry) : r.Shrinks r := ⟨rfl, List.Subset.refl _⟩

theorem Registry.Shrinks.trans (h : r.Shrinks r') (h' : r'.Shrinks r'') : r.Shrinks r'' :=
  ⟨h'.channel.trans h.channel, fun _ hs => h.subscriptions (h'.subscriptions hs)⟩

/-- Fewer listeners hold fewer subscriptions. -/
theorem Registry.subscriptions_subset
    (h : ∀ key l, r'.listeners.get? key = some l → r.listeners.get? key = some l) :
    r'.subscriptions ⊆ r.subscriptions := by
  intro s hs
  obtain ⟨key, l, hl, rfl⟩ := Registry.mem_subscriptions_iff.mp hs
  exact Registry.mem_subscriptions (h key l hl)

theorem Registry.shrinks_clear (r : Registry) : r.Shrinks r.clear := by
  refine ⟨rfl, Registry.subscriptions_subset fun key l hl => ?_⟩
  rw [Registry.clear, Slots.get?_clear] at hl
  cases hl

theorem Registry.shrinks_resync (r : Registry) (w : Session) :
    r.Shrinks (r.resync (w.connected r.token) (w.renew? r.token)).1 := by
  unfold Registry.resync Session.renew?
  cases w.connected r.token with
  | true => exact Registry.Shrinks.refl r
  | false =>
      cases w.channelAlive r.token.channel with
      | true => exact r.shrinks_clear.trans ⟨rfl, List.Subset.refl _⟩
      | false => exact r.shrinks_clear

theorem Registry.shrinks_lookup (r : Registry) (alive : ObjectRef → Bool) (o : ObjectRef)
    (attr : String) : r.Shrinks (r.lookup alive o attr).1 := ⟨rfl, List.Subset.refl _⟩

theorem Registry.shrinks_prune (r : Registry) (alive : ObjectRef → Bool) :
    r.Shrinks (r.prune alive).1 := by
  unfold Registry.prune
  dsimp only
  split
  · exact Registry.Shrinks.refl r
  · refine ⟨rfl, Registry.subscriptions_subset fun key l hl => ?_⟩
    rw [Slots.get?_removeAll] at hl
    split at hl
    · cases hl
    · exact hl

/-- A new listener adds its own subscription to those that are held. -/
theorem Registry.mem_subscriptions_attach {l : Listener} {s : Nat}
    (h : s ∈ (r.attach l).subscriptions) : s ∈ r.subscriptions ∨ s = l.subscription := by
  obtain ⟨key, x, hx, rfl⟩ := Registry.mem_subscriptions_iff.mp h
  rcases Slots.eq_or_get?_of_insert hx with rfl | hold
  · exact Or.inr rfl
  · exact Or.inl (Registry.mem_subscriptions hold)

end Shrinking

namespace Session

section Layouts

/-- The channel, the policies and the callback of a binding. -/
structure Lines where
  channel : Nat
  policies : List Nat
  onInvalid : Invalidation

def Binding.lines (B : Binding) : Lines := ⟨B.channel, B.policies, B.onInvalid⟩

/-- The receivers of the channels, the lines of the bindings, and the channels to which the policies
report. -/
structure Layout where
  sinks : List Sink
  lines : List Lines
  reports : List Nat

def layout (w : Session) : Layout where
  sinks := w.channels.map Channel.sink
  lines := w.bindings.map Binding.lines
  reports := w.policies.map fun P => P.registry.token.channel

/-- Every channel belongs to a binding, and a binding has just the policies that report to its
channel; callbacks only write. -/
structure Layout.Sound (l : Layout) : Prop where
  sinks : ∀ (c : Nat) (sink : Sink), l.sinks[c]? = some sink →
    ∃ b k, sink = .binding b ∧ l.lines[b]? = some k ∧ k.channel = c
  lines : ∀ (b : Nat) (k : Lines), l.lines[b]? = some k →
    l.sinks[k.channel]? = some (.binding b) ∧ k.onInvalid.Idle
  policies : ∀ (b : Nat) (k : Lines), l.lines[b]? = some k →
    ∀ p, p ∈ k.policies ↔ l.reports[p]? = some k.channel
  reports : ∀ (p c : Nat), l.reports[p]? = some c → c < l.sinks.length

/-- The subscriptions that are held by names. -/
def namedSubscriptions (w : Session) : List Nat :=
  w.names.subscriptions.map Prod.snd ++ w.names.handles.map Prod.snd

/-- A session in which every channel, policy and observer that passes changes on belongs to one
binding, and subscriptions are numbered; no object runs anything when it is observed. -/
structure Allotted (w : Session) : Prop where
  layout : w.layout.Sound
  kinds : ∀ (i : Nat) (cell : ObjectCell), w.objects[i]? = some cell → cell.kind.Idle
  observers : ∀ i, ∀ ob ∈ w.observersAt (.object i),
    ob.action.Idle ∧ ob.subscription < w.subscriptions
  owned : ∀ i, ∀ ob ∈ w.observersAt (.object i), ∀ c, ob.action.forwardsTo c = true →
    c < w.channels.length ∧ ob.subscription ∉ w.namedSubscriptions ∧
      ∀ (p : Nat) (P : Policy), w.policies[p]? = some P →
        ob.subscription ∈ P.registry.subscriptions → P.registry.token.channel = c
  listeners : ∀ (p : Nat) (P : Policy), w.policies[p]? = some P →
    ∀ s ∈ P.registry.subscriptions, s < w.subscriptions
  named : ∀ s ∈ w.namedSubscriptions, s < w.subscriptions

variable {w w' : Session} {b c p : Nat} {B : Binding} {P : Policy}

theorem map_modify_of_eq {α β : Type} {f : α → α} {g : α → β} (h : ∀ a, g (f a) = g a)
    (l : List α) (i : Nat) : (l.modify i f).map g = l.map g := by
  refine List.ext_getElem? fun j => ?_
  rw [List.getElem?_map, List.getElem?_map, List.getElem?_modify]
  cases l[j]? with
  | none => rfl
  | some a => by_cases hi : i = j <;> simp [hi, h]

theorem layout_modifyBinding {f : Binding → Binding} (hf : ∀ B, (f B).lines = B.lines) (i : Nat) :
    (w.modifyBinding i f).layout = w.layout := by
  simp only [layout, modifyBinding, map_modify_of_eq hf]

theorem layout_resetChannel (c : Nat) : (w.resetChannel c).layout = w.layout := by
  have hsinks : (w.resetChannel c).channels.map Channel.sink = w.channels.map Channel.sink :=
    map_modify_of_eq (f := fun d => { d with generation := d.generation + 1 }) (fun _ => rfl)
      w.channels c
  rw [layout, hsinks]
  rfl

/-- The layout asks of a policy only to which channel it reports. -/
theorem reports_modify {f : Policy → Policy} (hP : w.policies[p]? = some P)
    (hf : (f P).registry.token.channel = P.registry.token.channel) :
    ((w.policies.modify p f).map fun P => P.registry.token.channel)
      = w.policies.map fun P => P.registry.token.channel := by
  refine List.ext_getElem? fun q => ?_
  rw [List.getElem?_map, List.getElem?_map, List.getElem?_modify]
  by_cases hq : p = q
  · subst hq
    simp [hP, hf]
  · cases w.policies[q]? <;> simp [hq]

theorem layout_setRegistry {r : Registry} (hP : w.policies[p]? = some P)
    (hr : P.registry.Shrinks r) : (w.setRegistry p r).layout = w.layout :=
  congrArg (Layout.mk _ _) (reports_modify hP hr.channel)

end Layouts

section Keeping

variable {w w' : Session} {b p : Nat} {P : Policy} {o : ObjectRef} {attr : String} {v : Value}

theorem Allotted.idle_of_shapes (h : Allotted w) (hshapes : SameShapes w.objects w'.objects) :
    ∀ (i : Nat) (cell : ObjectCell), w'.objects[i]? = some cell → cell.kind.Idle := by
  intro i cell hcell
  obtain ⟨cell', hcell', -, hkind⟩ := hshapes.symm.cell hcell
  rw [← hkind]
  exact h.kinds i cell' hcell'

/-- **Fewer observers and fewer listeners**: everything still belongs to one binding. -/
theorem Allotted.mono (h : Allotted w) (hlayout : w'.layout = w.layout)
    (hkinds : ∀ (i : Nat) (cell : ObjectCell), w'.objects[i]? = some cell → cell.kind.Idle)
    (hobservers : ∀ i, w'.observersAt (.object i) ⊆ w.observersAt (.object i))
    (hlisteners : ∀ (p : Nat) (P' : Policy), w'.policies[p]? = some P' → ∃ P,
      w.policies[p]? = some P ∧ P'.registry.subscriptions ⊆ P.registry.subscriptions)
    (hcount : w.subscriptions ≤ w'.subscriptions)
    (hnamed : w'.namedSubscriptions ⊆ w.namedSubscriptions) : Allotted w' where
  layout := by
    rw [hlayout]
    exact h.layout
  kinds := hkinds
  observers := by
    intro i ob hob
    obtain ⟨hidle, hlt⟩ := h.observers i ob (hobservers i hob)
    exact ⟨hidle, Nat.lt_of_lt_of_le hlt hcount⟩
  owned := by
    intro i ob hob c hforwards
    obtain ⟨hlt, hunnamed, howner⟩ := h.owned i ob (hobservers i hob) c hforwards
    have hlength := congrArg (fun l => l.sinks.length) hlayout
    simp only [Session.layout, List.length_map] at hlength
    refine ⟨hlength ▸ hlt, fun hheld => hunnamed (hnamed hheld), fun p P' hP' hs => ?_⟩
    obtain ⟨P, hP, hsubset⟩ := hlisteners p P' hP'
    have hreports := congrArg (fun l => l.reports[p]?) hlayout
    simp only [Session.layout, List.getElem?_map, hP, hP', Option.map_some] at hreports
    exact (Option.some.inj hreports).trans (howner p P hP (hsubset hs))
  listeners := by
    intro p P' hP' s hs
    obtain ⟨P, hP, hsubset⟩ := hlisteners p P' hP'
    exact Nat.lt_of_lt_of_le (h.listeners p P hP s (hsubset hs)) hcount
  named := fun s hs => Nat.lt_of_lt_of_le (h.named s (hnamed hs)) hcount

/-- Objects, policies and subscriptions are the same, and names hold the same subscriptions. -/
theorem Allotted.beside (h : Allotted w) (hlayout : w'.layout = w.layout)
    (hobjects : w'.objects = w.objects) (hpolicies : w'.policies = w.policies)
    (hcount : w'.subscriptions = w.subscriptions)
    (hnamed : w'.namedSubscriptions = w.namedSubscriptions) : Allotted w' := by
  refine h.mono hlayout (hobjects ▸ h.kinds) ?_ ?_ (Nat.le_of_eq hcount.symm) ?_
  · intro i
    rw [observersAt, observersAt, hobjects]
    exact List.Subset.refl _
  · exact fun p P hP => ⟨P, hpolicies ▸ hP, List.Subset.refl _⟩
  · rw [hnamed]
    exact List.Subset.refl _

/-- Bindings may have other names. -/
theorem Allotted.rebound (h : Allotted w) (table : List (String × Nat)) :
    Allotted (w.rename fun n => { n with bindings := table }) :=
  h.beside rfl rfl rfl rfl rfl

theorem Allotted.repinned (h : Allotted w) (pins : List Pin) :
    Allotted { w with pins := pins } :=
  h.beside rfl rfl rfl rfl rfl

theorem Allotted.resetChannel (h : Allotted w) (c : Nat) : Allotted (w.resetChannel c) :=
  h.beside (layout_resetChannel c) rfl rfl rfl rfl

theorem Allotted.modifyBinding (h : Allotted w) {f : Binding → Binding}
    (hf : ∀ B, (f B).lines = B.lines) (i : Nat) : Allotted (w.modifyBinding i f) :=
  h.beside (layout_modifyBinding hf i) rfl rfl rfl rfl

theorem Stirs.layout_eq (h : Stirs w w') : w'.layout = w.layout := by
  obtain ⟨raised, hraised⟩ := h.bindings
  have hlines : w'.bindings.map Binding.lines = w.bindings.map Binding.lines := by
    refine List.ext_getElem? fun i => ?_
    rw [List.getElem?_map, List.getElem?_map, hraised]
    cases w.bindings[i]? <;> rfl
  rw [layout, hlines, h.rest]
  rfl

theorem Stirs.allotted (h : Stirs w w') (hw : Allotted w) : Allotted w' := by
  refine hw.beside h.layout_eq ?_ ?_ ?_ ?_
  all_goals rw [h.rest]
  rfl

/-- A policy with a registry that has shrunk. -/
theorem Allotted.setRegistry (h : Allotted w) {r : Registry} (hP : w.policies[p]? = some P)
    (hr : P.registry.Shrinks r) : Allotted (w.setRegistry p r) := by
  refine h.mono (layout_setRegistry hP hr) h.kinds (fun _ => List.Subset.refl _) ?_
    (Nat.le_refl _) (List.Subset.refl _)
  obtain ⟨hself, hother⟩ := getElem?_modifyPolicy hP fun policy => { policy with registry := r }
  intro q Q hQ
  by_cases hq : q = p
  · subst hq
    obtain rfl := Option.some.inj (hself.symm.trans hQ)
    exact ⟨P, hP, hr.subscriptions⟩
  · exact ⟨Q, (hother q hq).symm.trans hQ, List.Subset.refl _⟩

/-- Objects with other attributes, and fewer observers. -/
theorem Allotted.modifyObject (h : Allotted w) {f : ObjectCell → ObjectCell}
    (hf : ∀ cell, (f cell).shape = cell.shape ∧ (f cell).observers ⊆ cell.observers) (i : Nat) :
    Allotted (w.modifyObject i f) := by
  refine h.mono rfl (h.idle_of_shapes (SameShapes.modify _ _ fun cell => (hf cell).1)) ?_
    (fun _ P hP => ⟨P, hP, List.Subset.refl _⟩) (Nat.le_refl _) (List.Subset.refl _)
  intro j
  simp only [observersAt, Session.modifyObject, List.getElem?_modify]
  cases w.objects[j]? with
  | none => exact List.Subset.refl _
  | some cell =>
      by_cases hi : i = j
      · simpa [hi] using (hf cell).2
      · simp [hi]

theorem Allotted.putAt (h : Allotted w) (o : ObjectRef) (attr : String) (v : Value) :
    Allotted (w.putAt o attr v) :=
  h.modifyObject (f := fun cell => { cell with attrs := Assoc.put attr v cell.attrs })
    (fun _ => ⟨rfl, List.Subset.refl _⟩) o.id

theorem Allotted.pruneAt (h : Allotted w) (id : Nat) : Allotted (w.pruneAt id) :=
  h.modifyObject (f := fun cell => { cell with
    observers := Observers.prune (fun s => s ∈ w.heldSubscriptions) cell.observers })
    (fun _ => ⟨rfl, List.filter_subset_self _⟩) id

end Keeping

section Telling

/-- What a change does to a binding whose callback only writes. -/
def told (change : Change) (b : Nat) (w : Session) : Session :=
  match w.bindings[b]? with
  | some B =>
      let w := w.modifyBinding b fun c => { c with dirty := true }
      if B.evaluating then w else noticed B.onInvalid change w
  | none => w

variable {re : Reentry} {w w' : Session} {b : Nat} {B : Binding} {change : Change}
  {o : ObjectRef} {schema : Schema} {attr : String} {v : Value}

theorem stirs_noticed (onInvalid : Invalidation) (change : Change) (w : Session) :
    Stirs w (noticed onInvalid change w) := by
  cases onInvalid <;> exact Stirs.of_bindings rfl

theorem stirs_told (change : Change) (b : Nat) (w : Session) : Stirs w (w.told change b) := by
  unfold told
  cases w.bindings[b]? with
  | none => exact Stirs.refl w
  | some B =>
      dsimp only
      split
      · exact Stirs.raise w b
      · exact (Stirs.raise w b).trans (stirs_noticed _ _ _)

/-- A binding whose callback only writes. -/
theorem invalidate_idle (re : Reentry) (hB : w.bindings[b]? = some B) (hidle : B.onInvalid.Idle)
    (change : Change) : w.invalidate re b change = w.told change b := by
  have hself : (w.modifyBinding b fun c => { c with dirty := true }).bindings[b]?
      = some { B with dirty := true } := by
    simp [modifyBinding, hB]
  simp only [invalidate, told, hself, hB]
  split
  · rfl
  · simp only [reactToInvalidation]
    cases hcallback : B.onInvalid with
    | script name actions =>
        rw [hcallback] at hidle
        obtain rfl : actions = [] := hidle
        rfl
    | record r => rfl
    | rerun name actions =>
        rw [hcallback] at hidle
        exact hidle.elim

theorem told_pinned (change : Change) (b : Nat) (w : Session) (pins : List Pin) :
    { (told change b { w with pins := pins }) with pins := w.pins } = w.told change b := by
  simp only [told]
  cases w.bindings[b]? with
  | none => rfl
  | some B =>
      dsimp only
      split
      · rfl
      · cases B.onInvalid <;> rfl

/-- **An observer tells the binding to which it belongs**, if its token is connected. -/
theorem Allotted.react_forward (h : Allotted w) (re : Reentry) (change : Change)
    (hB : w.bindings[b]? = some B) (l : Option SlotKey) {token : Token}
    (hchannel : token.channel = B.channel) : w.react re change (.forward l token)
      = if w.connected token = true ∧ w.bindingAlive b = true then w.told change b else w := by
  have hlines : w.layout.lines[b]? = some B.lines := by simp [Session.layout, hB]
  obtain ⟨hsink, hidle⟩ := h.layout.lines b B.lines hlines
  simp only [Session.layout, List.getElem?_map] at hsink
  obtain ⟨channel, hc, hsame⟩ := Option.map_eq_some_iff.mp hsink
  have halive : bindingAlive { w with pins := [.channel token.channel] ++ w.pins } b
      = w.bindingAlive b := rfl
  simp only [Session.react, notify]
  by_cases hconnected : w.connected token = true
  · rw [if_pos hconnected]
    simp only [deliver, hchannel, show w.channels[B.channel]? = some channel from hc, hsame, keeping,
      receive]
    rw [← hchannel, halive]
    by_cases hthere : w.bindingAlive b = true
    · rw [if_pos hthere, if_pos ⟨hconnected, hthere⟩]
      rw [invalidate_idle re (by exact hB) hidle]
      exact told_pinned change b w _
    · rw [if_neg hthere, if_neg fun hboth => hthere hboth.2]
  · rw [if_neg hconnected, if_neg fun hboth => hconnected hboth.1]

/-- What an observer that passes changes on does is nothing, or it tells the binding to which it
belongs. -/
theorem Allotted.react_cases (h : Allotted w) (re : Reentry) (change : Change)
    (l : Option SlotKey) (token : Token) : w.react re change (.forward l token) = w ∨
      ∃ b B, w.bindings[b]? = some B ∧ B.channel = token.channel ∧
        w.react re change (.forward l token) = w.told change b := by
  cases hc : w.channels[token.channel]? with
  | none =>
      left
      simp only [Session.react, notify, deliver, hc]
      split <;> rfl
  | some channel =>
      obtain ⟨b, k, -, hk, hchannel⟩ := h.layout.sinks token.channel channel.sink
        (by simp [Session.layout, hc])
      simp only [Session.layout, List.getElem?_map] at hk
      obtain ⟨B, hB, rfl⟩ := Option.map_eq_some_iff.mp hk
      rw [h.react_forward re change hB l hchannel.symm]
      split
      · exact Or.inr ⟨b, B, hB, hchannel, rfl⟩
      · exact Or.inl rfl

theorem Allotted.stirs_react (h : Allotted w) (re : Reentry) (change : Change) {action : Reaction}
    (hidle : action.Idle) : Stirs w (w.react re change action) := by
  cases action with
  | script name actions =>
      obtain rfl : actions = [] := hidle
      exact Stirs.of_bindings rfl
  | forward l token =>
      rcases h.react_cases re change l token with heq | ⟨b, B, -, -, heq⟩
      · rw [heq]
        exact Stirs.refl w
      · rw [heq]
        exact stirs_told change b w

/-- **Observers in turn** do nothing but tell bindings and write. -/
theorem Allotted.stirs_reactAll : ∀ {obs : List (Observer Reaction)} {w : Session}, Allotted w →
    (∀ ob ∈ obs, ob.action.Idle) → Stirs w (w.reactAll re change obs)
  | [], w, _, _ => Stirs.refl w
  | first :: rest, w, h, hidle => by
      have hpinned := h.repinned
        (((first :: rest).map fun ob => Pin.subscription ob.subscription) ++ w.pins)
      have hfirst : Stirs w (w.keeping
          ((first :: rest).map fun ob => Pin.subscription ob.subscription)
          fun w => w.react re change first.action) :=
        (hpinned.stirs_react re change (hidle first List.mem_cons_self)).unpinned
      rw [reactAll]
      exact hfirst.trans ((hfirst.allotted h).stirs_reactAll
        fun ob hob => hidle ob (List.mem_cons_of_mem _ hob))

theorem Allotted.idle_of_reached (h : Allotted w) {id : Nat} {ob : Observer Reaction}
    (hob : ob ∈ w.reached id attr) : ob.action.Idle := by
  have hmem : ob ∈ w.observersAt (.object id) :=
    List.mem_of_mem_filter (List.mem_of_mem_filter hob)
  exact (h.observers id ob hmem).1

/-- An assignment does nothing, or puts the value in place, or lets observers tell bindings and write
as well. -/
theorem Allotted.assign_cases (h : Allotted w) (re : Reentry) (o : ObjectRef) (schema : Schema)
    (attr : String) (v : Value) : (w.assign re o schema attr v).1 = w ∨
      (w.assign re o schema attr v).1 = w.putAt o attr v ∨
      ∃ u, Stirs (w.spread o attr v) u ∧
        (w.assign re o schema attr v).1 = { u with pins := w.pins } := by
  by_cases hreports : w.Reports o schema attr v
  · have hspread : Allotted (w.spread o attr v) :=
      ((h.putAt o attr v).pruneAt o.id).repinned _
    exact Or.inr (Or.inr ⟨_, hspread.stirs_reactAll fun ob hob => h.idle_of_reached hob,
      assign_eq_spread hreports⟩)
  · exact (assign_of_not_reports re hreports).imp_right Or.inl

/-- **An assignment** changes nothing about what belongs to which binding. -/
theorem Allotted.assign (h : Allotted w) (re : Reentry) (o : ObjectRef) (schema : Schema)
    (attr : String) (v : Value) : Allotted (w.assign re o schema attr v).1 := by
  rcases h.assign_cases re o schema attr v with heq | heq | ⟨u, hstirs, heq⟩
  · rw [heq]
    exact h
  · rw [heq]
    exact h.putAt o attr v
  · rw [heq]
    exact (hstirs.allotted (((h.putAt o attr v).pruneAt o.id).repinned _)).repinned w.pins

end Telling

section Hookups

/-- What an access that is shown to a policy leads to: nothing, or a registry that has shrunk, or a
new listener as well. -/
inductive Sees (p : Nat) (w : Session) : Session → Prop
  | nothing : Sees p w w
  | shrinks {P : Policy} {r : Registry} :
      w.policies[p]? = some P →
      P.registry.Shrinks r →
      Sees p w (w.setRegistry p r)
  | listens {P : Policy} {r : Registry} {subject : SlotKey} {o : ObjectRef} {attr : String} :
      w.policies[p]? = some P →
      P.registry.Shrinks r →
      Sees p w (w.withListener p r subject o attr)

variable {w w' : Session} {p : Nat} {v : Value} {attr : String}

theorem sees_listen (hkinds : ∀ (i : Nat) (cell : ObjectCell), w.objects[i]? = some cell →
    cell.kind.Idle) (re : Reentry) (p : Nat) (o : ObjectRef) (attr : String) :
    Sees p w (w.listen re p o attr).1 := by
  unfold listen
  cases hP : w.policies[p]? with
  | none => exact Sees.nothing
  | some P =>
      dsimp only
      have hresync := P.registry.shrinks_resync w
      generalize P.registry.resync (w.connected P.registry.token)
        (w.renew? P.registry.token) = resynced at hresync
      obtain ⟨r, there⟩ := resynced
      cases there with
      | false => exact Sees.shrinks hP hresync
      | true =>
          have hlookup := hresync.trans (r.shrinks_lookup w.objectAlive o attr)
          dsimp only
          generalize r.lookup w.objectAlive o attr = found at hlookup
          obtain ⟨r', subject, known⟩ := found
          cases known with
          | some key => exact Sees.shrinks hP hlookup
          | none =>
              have hattached := attachListener_eq re r' subject attr
                (fun cell hcell => hkinds o.id cell hcell) (p := p)
              dsimp only
              rw [hattached]
              exact Sees.listens hP hlookup

theorem sees_hookUp (hkinds : ∀ (i : Nat) (cell : ObjectCell), w.objects[i]? = some cell →
    cell.kind.Idle) (re : Reentry) (p : Nat) (v : Value) (attr : String) :
    Sees p w (w.hookUp re p v attr).1 := by
  unfold hookUp
  split
  · split
    · exact sees_listen hkinds re p _ attr
    · exact Sees.nothing
    · exact Sees.nothing
  · exact Sees.nothing

theorem Sees.unpinned {pins : List Pin} (h : Sees p { w with pins := pins } w') :
    Sees p w { w' with pins := w.pins } := by
  cases h with
  | nothing => exact Sees.nothing
  | shrinks hP hr => exact Sees.shrinks hP hr
  | listens hP hr => exact Sees.listens hP hr

/-- **What an access that is shown to a policy leads to.** -/
theorem sees_see (hkinds : ∀ (i : Nat) (cell : ObjectCell), w.objects[i]? = some cell →
    cell.kind.Idle) (re : Reentry) (p : Nat) (v : Value) (attr : String) :
    Sees p w (w.see re p v attr) := by
  unfold see
  split
  · exact (@sees_hookUp { w with pins := [.policy p] ++ w.pins } hkinds re p v attr).unpinned
  · exact Sees.nothing

/-- A policy that has gained a listener is an observer more. -/
theorem exists_observersAt_withListener (w : Session) (p : Nat) (r : Registry) (subject : SlotKey)
    (o : ObjectRef) (attr : String) (i : Nat) : ∃ new,
      (w.withListener p r subject o attr).observersAt (.object i)
        = w.observersAt (.object i) ++ new ∧
      ∀ ob ∈ new, ob = ⟨attr, w.subscriptions, .forward (some r.listeners.nextKey) r.token⟩ := by
  simp only [observersAt, withListener, List.getElem?_modify]
  cases w.objects[i]? with
  | none => exact ⟨[], rfl, by simp⟩
  | some cell =>
      by_cases hi : o.id = i
      · exact ⟨[_], by simp [hi], fun ob hob => List.mem_singleton.mp hob⟩
      · exact ⟨[], by simp [hi], by simp⟩

theorem mem_observersAt_withListener {r : Registry} {subject : SlotKey} {o : ObjectRef} {i : Nat}
    {ob : Observer Reaction}
    (h : ob ∈ (w.withListener p r subject o attr).observersAt (.object i)) :
    ob ∈ w.observersAt (.object i) ∨
      ob = ⟨attr, w.subscriptions, .forward (some r.listeners.nextKey) r.token⟩ := by
  obtain ⟨new, hobservers, hnew⟩ := exists_observersAt_withListener w p r subject o attr i
  rw [hobservers] at h
  exact (List.mem_append.mp h).imp_right (hnew ob)

theorem layout_withListener {P : Policy} {r : Registry} (subject : SlotKey) (o : ObjectRef)
    (attr : String) (hP : w.policies[p]? = some P) (hr : P.registry.Shrinks r) :
    (w.withListener p r subject o attr).layout = w.layout :=
  congrArg (Layout.mk _ _) (reports_modify hP hr.channel)

/-- A policy that has gained a listener holds one more subscription, and the others hold what they
held. -/
theorem listeners_withListener {P Q : Policy} {r : Registry} {subject : SlotKey} {o : ObjectRef}
    {q s : Nat} (hP : w.policies[p]? = some P) (hr : P.registry.Shrinks r)
    (hQ : (w.withListener p r subject o attr).policies[q]? = some Q)
    (hs : s ∈ Q.registry.subscriptions) :
    (∃ Q', w.policies[q]? = some Q' ∧ s ∈ Q'.registry.subscriptions ∧
      Q'.registry.token.channel = Q.registry.token.channel) ∨
    q = p ∧ s = w.subscriptions ∧ Q.registry.token.channel = r.token.channel := by
  obtain ⟨hself, hother⟩ := getElem?_modifyPolicy hP fun policy => { policy with
    registry := r.attach ⟨subject, attr, w.subscriptions⟩, busy := false }
  by_cases hq : q = p
  · subst hq
    obtain rfl := Option.some.inj (hself.symm.trans hQ)
    rcases Registry.mem_subscriptions_attach hs with hold | rfl
    · exact Or.inl ⟨P, hP, hr.subscriptions hold, hr.channel.symm⟩
    · exact Or.inr ⟨rfl, rfl, rfl⟩
  · exact Or.inl ⟨Q, (hother q hq).symm.trans hQ, hs, rfl⟩

/-- A policy has gained a listener. -/
theorem Allotted.withListener (h : Allotted w) {P : Policy} {r : Registry} (subject : SlotKey)
    (o : ObjectRef) (attr : String) (hP : w.policies[p]? = some P) (hr : P.registry.Shrinks r) :
    Allotted (w.withListener p r subject o attr) where
  layout := by
    rw [layout_withListener subject o attr hP hr]
    exact h.layout
  kinds := h.idle_of_shapes (sameShapes_withListener w p r subject o attr)
  observers := by
    intro i ob hob
    rcases mem_observersAt_withListener hob with hold | rfl
    · obtain ⟨hidle, hlt⟩ := h.observers i ob hold
      exact ⟨hidle, Nat.lt_succ_of_lt hlt⟩
    · exact ⟨trivial, Nat.lt_succ_self _⟩
  owned := by
    intro i ob hob c hforwards
    rcases mem_observersAt_withListener hob with hold | rfl
    · obtain ⟨hlt, hunnamed, howner⟩ := h.owned i ob hold c hforwards
      refine ⟨hlt, hunnamed, fun q Q hQ hs => ?_⟩
      rcases listeners_withListener hP hr hQ hs with ⟨Q', hQ', hs', hchannel⟩ | ⟨-, hnew, -⟩
      · exact hchannel.symm.trans (howner q Q' hQ' hs')
      · exact absurd hnew (Nat.ne_of_lt (h.observers i ob hold).2)
    · obtain rfl : r.token.channel = c := of_decide_eq_true hforwards
      refine ⟨?_, fun hheld => absurd (h.named _ hheld) (Nat.lt_irrefl _), fun q Q hQ hs => ?_⟩
      · have hlt := h.layout.reports p P.registry.token.channel (by simp [Session.layout, hP])
        simp only [Session.layout, List.length_map, ← hr.channel] at hlt
        exact hlt
      · rcases listeners_withListener hP hr hQ hs with ⟨Q', hQ', hs', -⟩ | ⟨-, -, hchannel⟩
        · exact absurd (h.listeners q Q' hQ' _ hs') (Nat.lt_irrefl _)
        · exact hchannel
  listeners := by
    intro q Q hQ s hs
    rcases listeners_withListener hP hr hQ hs with ⟨Q', hQ', hs', -⟩ | ⟨-, rfl, -⟩
    · exact Nat.lt_succ_of_lt (h.listeners q Q' hQ' s hs')
    · exact Nat.lt_succ_self _
  named := fun s hs => Nat.lt_succ_of_lt (h.named s hs)

theorem sees_prunePolicy (p : Nat) (w : Session) : Sees p w (w.prunePolicy p).1 := by
  unfold prunePolicy
  cases hP : w.policies[p]? with
  | none => exact Sees.nothing
  | some P =>
      dsimp only
      split
      · exact Sees.nothing
      · exact Sees.shrinks hP (P.registry.shrinks_prune w.objectAlive)

theorem Sees.names_eq (h : Sees p w w') : w'.names = w.names := by
  cases h <;> rfl

theorem Sees.pins_eq (h : Sees p w w') : w'.pins = w.pins := by
  cases h <;> rfl

theorem Sees.natives_eq (h : Sees p w w') : w'.natives = w.natives := by
  cases h <;> rfl

theorem Sees.layout_eq (h : Sees p w w') : w'.layout = w.layout := by
  cases h with
  | nothing => rfl
  | shrinks hP hr => exact layout_setRegistry hP hr
  | listens hP hr => exact layout_withListener _ _ _ hP hr

/-- **An access that is shown to a policy** changes nothing about what belongs to which binding. -/
theorem Sees.allotted (h : Sees p w w') (hw : Allotted w) : Allotted w' := by
  cases h with
  | nothing => exact hw
  | shrinks hP hr => exact hw.setRegistry hP hr
  | listens hP hr => exact hw.withListener _ _ _ hP hr

end Hookups

section Making

/-- A session with a binding more, which has a channel and a number of policies of its own. -/
def withBinding (w : Session) (n : Nat) (B : Binding) (natives : List NativeRole) : Session :=
  { w with
    channels := w.channels ++ [⟨0, .binding w.bindings.length⟩]
    policies := w.policies ++
      List.replicate n ⟨Registry.empty ⟨w.channels.length, 0⟩, [], false⟩
    natives := natives
    bindings := w.bindings ++ [B] }

variable {w w' : Session} {code : Code} {scope : Scope} {config : BindingConfig}
  {onInvalid : Invalidation} {b n : Nat} {B : Binding}

/-- A monitor that is wanted adds a policy of its channel, and a native function. -/
theorem monitorFor_eq (make : Hook → Session → Session × Monitor)
    (hmake : ∀ hook v, ∃ natives, (make hook v).1 = { v with natives := natives }) (wanted : Bool)
    (c : Nat) (w : Session) : ∃ n natives, (w.monitorFor wanted c make).1 = { w with
        policies := w.policies ++ List.replicate n ⟨Registry.empty (w.issue c), [], false⟩
        natives := natives } ∧
      ((w.monitorFor wanted c make).2.map Prod.fst).toList = List.range' w.policies.length n := by
  cases wanted with
  | false => exact ⟨0, w.natives, by simp [monitorFor], rfl⟩
  | true =>
      obtain ⟨natives, hnatives⟩ := hmake (.policy w.policies.length) (w.addPolicy c).1
      exact ⟨1, natives, hnatives, rfl⟩

/-- What making a binding adds to a session, with whichever monitors. -/
theorem makeBinding_withBinding (h : w.makeBinding code scope config onInvalid = .ok (w', b)) :
    b = w.bindings.length ∧ ∃ n B natives, w' = w.withBinding n B natives ∧
      B.lines = ⟨w.channels.length, List.range' w.policies.length n, onInvalid⟩ := by
  have hissue : ∀ policies natives, issue { w with
      channels := w.channels ++ [⟨0, .binding w.bindings.length⟩]
      policies := policies
      natives := natives } w.channels.length = ⟨w.channels.length, 0⟩ := by
    intro policies natives
    simp [issue, generation]
  obtain ⟨n, natives, hsession, hpolicies⟩ := monitorFor_eq attributeMonitor
    (fun _ _ => ⟨_, rfl⟩) config.monitorAttributes w.channels.length
    { w with channels := w.channels ++ [⟨0, .binding w.bindings.length⟩] }
  simp only [makeBinding, addChannel] at h
  generalize monitorFor config.monitorAttributes w.channels.length attributeMonitor
    { w with channels := w.channels ++ [⟨0, .binding w.bindings.length⟩] } = first
    at h hsession hpolicies
  obtain ⟨w₁, attributes⟩ := first
  obtain rfl := hsession
  obtain ⟨m, natives', hsession', hpolicies'⟩ := monitorFor_eq callMonitor
    (fun _ _ => ⟨_, rfl⟩) config.monitorGetattr w.channels.length _
  dsimp only at h
  generalize monitorFor config.monitorGetattr w.channels.length callMonitor _ = second
    at h hsession' hpolicies'
  obtain ⟨w₂, getattr⟩ := second
  obtain rfl := hsession'
  dsimp only at h
  split at h
  · cases h
  · next instrumented _ =>
      cases h
      refine ⟨rfl, n + m, ⟨code, instrumented, scope, w.channels.length, attributes.map Prod.fst,
        getattr.map Prod.fst, onInvalid, none, true, false⟩, natives', ?_, ?_⟩
      · rw [hissue w.policies w.natives, hissue _ natives]
        simp only [withBinding, List.append_assoc, List.replicate_append_replicate]
      · have hplaces : (attributes.map Prod.fst).toList ++ (getattr.map Prod.fst).toList
            = List.range' w.policies.length (n + m) := by
          rw [hpolicies, hpolicies', List.length_append, List.length_replicate, List.range'_append_1]
        simp only [Binding.lines, Binding.policies, hplaces]

/-- New objects that nobody observes. -/
theorem Allotted.furnished (h : Allotted w) {more : List ObjectCell}
    (hmore : ∀ cell ∈ more, cell.kind.Idle ∧ cell.observers = [])
    (hobjects : w'.objects = w.objects ++ more) (hlayout : w'.layout = w.layout)
    (hpolicies : w'.policies = w.policies) (hcount : w'.subscriptions = w.subscriptions)
    (hnamed : w'.namedSubscriptions = w.namedSubscriptions) : Allotted w' := by
  have hcell : ∀ (i : Nat) (cell : ObjectCell), w'.objects[i]? = some cell →
      w.objects[i]? = some cell ∨ cell ∈ more := by
    intro i cell hcell
    rw [hobjects, List.getElem?_append] at hcell
    split at hcell
    · exact Or.inl hcell
    · exact Or.inr (List.mem_of_getElem? hcell)
  refine h.mono hlayout ?_ ?_ ?_ (Nat.le_of_eq hcount.symm) ?_
  · intro i cell hi
    rcases hcell i cell hi with hold | hnew
    · exact h.kinds i cell hold
    · exact (hmore cell hnew).1
  · intro i ob hob
    rw [observersAt] at hob ⊢
    cases hi : w'.objects[i]? with
    | none =>
        rw [hi] at hob
        cases hob
    | some cell =>
        rw [hi] at hob
        rcases hcell i cell hi with hold | hnew
        · rwa [hold]
        · dsimp only at hob
          rw [(hmore cell hnew).2] at hob
          cases hob
  · exact fun p P hP => ⟨P, hpolicies ▸ hP, List.Subset.refl _⟩
  · rw [hnamed]
    exact List.Subset.refl _

/-- The layout with a binding more. -/
theorem Layout.Sound.extend {l : Layout} (h : l.Sound) (n : Nat) (hidle : onInvalid.Idle) :
    Layout.Sound ⟨l.sinks ++ [.binding l.lines.length],
      l.lines ++ [⟨l.sinks.length, List.range' l.reports.length n, onInvalid⟩],
      l.reports ++ List.replicate n l.sinks.length⟩ where
  sinks := by
    intro c sink hc
    rcases getElem?_concat_some hc with hold | ⟨rfl, rfl⟩
    · obtain ⟨b, k, hsink, hk, hchannel⟩ := h.sinks c sink hold
      exact ⟨b, k, hsink, getElem?_append_some hk _, hchannel⟩
    · exact ⟨_, _, rfl, List.getElem?_concat_length, rfl⟩
  lines := by
    intro b k hk
    rcases getElem?_concat_some hk with hold | ⟨rfl, rfl⟩
    · obtain ⟨hsink, hcallback⟩ := h.lines b k hold
      exact ⟨getElem?_append_some hsink _, hcallback⟩
    · exact ⟨List.getElem?_concat_length, hidle⟩
  policies := by
    intro b k hk p
    rcases getElem?_concat_some hk with hold | ⟨rfl, rfl⟩
    · have hlt := (List.getElem?_eq_some_iff.mp (h.lines b k hold).1).1
      rw [h.policies b k hold, List.getElem?_append]
      split
      · rfl
      · next hge =>
          rw [List.getElem?_eq_none (Nat.le_of_not_lt hge), List.getElem?_replicate]
          split
          · exact ⟨nofun, fun heq => absurd (Option.some.inj heq) (Nat.ne_of_gt hlt)⟩
          · exact Iff.rfl
    · rw [List.mem_range'_1, List.getElem?_append]
      split
      · next hlt =>
          constructor
          · exact fun hp => absurd hp.1 (Nat.not_le_of_lt hlt)
          · exact fun heq => absurd (h.reports p _ heq) (Nat.lt_irrefl _)
      · next hge =>
          rw [List.getElem?_replicate]
          constructor
          · intro hp
            rw [if_pos (by omega)]
          · intro heq
            split at heq
            · omega
            · cases heq
  reports := by
    intro p c hc
    rw [List.length_append]
    rcases List.mem_append.mp (List.mem_of_getElem? hc) with hold | hnew
    · obtain ⟨q, hq⟩ := List.mem_iff_getElem?.mp hold
      exact Nat.lt_add_right 1 (h.reports q c hq)
    · rw [List.eq_of_mem_replicate hnew]
      exact Nat.lt_succ_self _

/-- **A new binding** has what belongs to it, and takes nothing from others. -/
theorem Allotted.withBinding (h : Allotted w) (natives : List NativeRole)
    (hB : B.lines = ⟨w.channels.length, List.range' w.policies.length n, onInvalid⟩)
    (hidle : onInvalid.Idle) : Allotted (w.withBinding n B natives) := by
  have hlayout := h.layout.extend n hidle
  have hempty : ∀ (p : Nat) (P : Policy), (w.withBinding n B natives).policies[p]? = some P →
      ∀ s ∈ P.registry.subscriptions, w.policies[p]? = some P := by
    intro p P hP s hs
    simp only [Session.withBinding, List.getElem?_append] at hP
    split at hP
    · exact hP
    · obtain rfl := List.eq_of_mem_replicate (List.mem_of_getElem? hP)
      cases hs
  refine ⟨?_, h.kinds, h.observers, ?_, ?_, h.named⟩
  · simpa [Session.layout, Session.withBinding, hB, Registry.empty] using hlayout
  · intro i ob hob c hforwards
    obtain ⟨hlt, hunnamed, howner⟩ := h.owned i ob hob c hforwards
    refine ⟨?_, hunnamed, fun p P hP hs => howner p P (hempty p P hP _ hs) hs⟩
    simp only [Session.withBinding, List.length_append]
    exact Nat.lt_add_right 1 hlt
  · exact fun p P hP s hs => h.listeners p P (hempty p P hP s hs) s hs

end Making

end Session
end TrackedExpr
