import TrackedExpr.Proofs.Changes
import TrackedExpr.Proofs.Retracing
import TrackedExpr.Session.Bindings

/-!
# A new binding is wired up

A binding that is made in a still session gets a channel, policies and side-calls that
nothing else uses, so it is wired up as long as something holds it.

**Definitions.**
* `nextWiring`: the wiring of the binding that is made next.

**Results.**
* `makeBinding_eq`, `exists_of_makeBinding`, `eq_of_makeBinding`: what making a binding with both
  monitors adds to a session;
* `Still.wired`: a new binding that is instrumented is wired up.
-/

namespace TrackedExpr
namespace Session

/-- The wiring of the binding that is made next. -/
def nextWiring (w : Session) (plain code : Code) (scope : Scope) : Wiring where
  binding := w.bindings.length
  channel := w.channels.length
  attributes := w.policies.length
  getattr := w.policies.length + 1
  loads := ⟨w.natives.length, "attribute_binder"⟩
  calls := ⟨w.natives.length + 1, "call_binder"⟩
  plain := plain
  code := code
  scope := scope

section Making

variable {w w₁ start : Session} {plain code : Code} {scope : Scope} {config : BindingConfig}
  {onInvalid : Invalidation} {b : Nat}

/-- A session with the things that a new binding needs, and the binding. -/
def withNext (w : Session) (plain : Code) (instrumented : Option Code) (scope : Scope)
    (onInvalid : Invalidation) : Session :=
  let c := w.channels.length
  let policy : Policy := ⟨Registry.empty ⟨c, 0⟩, [], false⟩
  { w with
    channels := w.channels ++ [⟨0, .binding w.bindings.length⟩]
    policies := w.policies ++ [policy, policy]
    natives := w.natives ++
      [.attributeSite (.policy w.policies.length), .callSite (.policy (w.policies.length + 1))]
    bindings := w.bindings ++
      [{  plain := plain
          instrumented := instrumented
          scope := scope
          channel := c
          attributes := some w.policies.length
          getattr := some (w.policies.length + 1)
          onInvalid := onInvalid
          last := none
          dirty := true
          evaluating := false }] }

/-- What making a binding with both monitors adds to a session. -/
theorem makeBinding_eq (hattributes : config.monitorAttributes = true)
    (hgetattr : config.monitorGetattr = true) :
    w.makeBinding plain scope config onInvalid =
      ((instrumentFor config plain [Monitor.attributes ⟨w.natives.length, "attribute_binder"⟩,
        Monitor.calls ⟨w.natives.length + 1, "call_binder"⟩]).mapError Fault.instrumentation).map
          fun instrumented =>
            (w.withNext plain instrumented scope onInvalid, w.bindings.length) := by
  have hissue : ∀ v : Session, v.channels = w.channels ++ [⟨0, .binding w.bindings.length⟩] →
      v.issue w.channels.length = ⟨w.channels.length, 0⟩ := by
    intro v hv
    simp [issue, generation, hv]
  simp only [makeBinding, monitorFor, hattributes, hgetattr, if_true, addChannel, addPolicy,
    attributeMonitor, callMonitor, addNative]
  rw [hissue _ rfl, hissue _ rfl]
  simp only [withNext, addBinding, Option.toList_some, List.cons_append, List.nil_append,
    List.map_cons, List.map_nil, Option.map_some, List.length_append, List.length_cons,
    List.length_nil, List.append_assoc]
  cases instrumentFor config plain [Monitor.attributes ⟨w.natives.length, "attribute_binder"⟩,
    Monitor.calls ⟨w.natives.length + 1, "call_binder"⟩] <;> rfl

theorem makeBinding_of_instrumentFor (hattributes : config.monitorAttributes = true)
    (hgetattr : config.monitorGetattr = true) {instrumented : Option Code}
    (h : instrumentFor config plain [Monitor.attributes ⟨w.natives.length, "attribute_binder"⟩,
      Monitor.calls ⟨w.natives.length + 1, "call_binder"⟩] = .ok instrumented) :
    w.makeBinding plain scope config onInvalid
      = .ok (w.withNext plain instrumented scope onInvalid, w.bindings.length) := by
  rw [makeBinding_eq hattributes hgetattr, h]
  rfl

/-- A binding that is made is the next one, and its code is instrumented for its monitors. -/
theorem exists_of_makeBinding (hattributes : config.monitorAttributes = true)
    (hgetattr : config.monitorGetattr = true)
    (hmade : w.makeBinding plain scope config onInvalid = .ok (w₁, b)) :
    b = w.bindings.length ∧ ∃ instrumented, w₁ = w.withNext plain instrumented scope onInvalid ∧
      ∀ code, instrumented = some code → instrument config.verifyStack plain
        ((w.nextWiring plain code scope).monitors.map StockMonitor.monitor) = .ok code := by
  rw [makeBinding_eq hattributes hgetattr] at hmade
  cases hinstrument : instrumentFor config plain
      [Monitor.attributes ⟨w.natives.length, "attribute_binder"⟩,
        Monitor.calls ⟨w.natives.length + 1, "call_binder"⟩] with
  | error e =>
      rw [hinstrument] at hmade
      cases hmade
  | ok instrumented =>
      rw [hinstrument] at hmade
      cases hmade
      refine ⟨rfl, instrumented, rfl, ?_⟩
      rintro code rfl
      simp only [instrumentFor, BindingConfig.tracksAnything, hattributes, Bool.true_or,
        Bool.not_true, Bool.false_eq_true, if_false] at hinstrument
      split at hinstrument
      · next c hc =>
          cases hinstrument
          exact hc
      · split at hinstrument <;> cases hinstrument

/-- A binding that is made, when its instrumented code is known. -/
theorem eq_of_makeBinding (hattributes : config.monitorAttributes = true)
    (hgetattr : config.monitorGetattr = true) {code : Code}
    (hmade : w.makeBinding plain scope config onInvalid = .ok (w₁, b))
    (hinstrumented : w₁.bindings[b]?.bind Binding.instrumented = some code) :
    b = w.bindings.length ∧ w₁ = w.withNext plain (some code) scope onInvalid ∧
      instrument config.verifyStack plain
        ((w.nextWiring plain code scope).monitors.map StockMonitor.monitor) = .ok code := by
  obtain ⟨rfl, c, rfl, hcode⟩ := exists_of_makeBinding hattributes hgetattr hmade
  obtain rfl : c = some code := by
    simpa [withNext] using hinstrumented
  exact ⟨rfl, rfl, hcode code rfl⟩

/-- The two policies of a new binding are different ones. -/
theorem nextWiring_apart (w : Session) (plain code : Code) (scope : Scope) :
    (w.nextWiring plain code scope).attributes ≠ (w.nextWiring plain code scope).getattr :=
  Nat.ne_of_lt (Nat.lt_succ_self _)

/-- An element of a list, or the one that was added. -/
theorem getElem?_concat_some {α : Type} {l : List α} {x y : α} {i : Nat}
    (h : (l ++ [x])[i]? = some y) : l[i]? = some y ∨ i = l.length ∧ y = x := by
  rw [List.getElem?_append] at h
  split at h
  · exact Or.inl h
  · next hi =>
      obtain ⟨hlt, hy⟩ := List.getElem?_eq_some_iff.mp h
      have hlt : i - l.length < 1 := hlt
      refine Or.inr ⟨by omega, ?_⟩
      rw [← hy]
      exact List.getElem_singleton _

/-- **A binding that is made in a still session is wired up** as long as something holds it. -/
theorem Still.wired (hstill : Still w) {names : Names} {pins : List Pin}
    (halive : bindingAlive { w.withNext plain (some code) scope onInvalid with
      names := names, pins := pins } w.bindings.length = true) :
    Wired (w.nextWiring plain code scope) { w.withNext plain (some code) scope onInvalid with
      names := names, pins := pins } := by
  constructor
  · constructor
    · exact hstill.cells
    · intro i c hc
      rcases getElem?_concat_some hc with hc | ⟨-, rfl⟩
      · exact hstill.sinks i c hc
      · trivial
  · exact ⟨_, List.getElem?_concat_length, rfl, rfl, rfl, rfl, rfl, rfl⟩
  · exact ⟨0, List.getElem?_concat_length⟩
  · exact halive
  · simp [nextWiring, withNext]
  · simp [nextWiring, withNext]
  · intro p hp
    simp only [Wiring.policies, nextWiring, List.mem_cons, List.not_mem_nil, or_false] at hp
    refine ⟨⟨Registry.empty ⟨w.channels.length, 0⟩, [], false⟩, ?_, rfl, rfl,
      Registry.Sound.of_empty _⟩
    rcases hp with rfl | rfl <;> simp [withNext]

/-- An element of a list to which others were added. -/
theorem getElem?_append_some {α : Type} {l : List α} {x : α} {i : Nat} (h : l[i]? = some x)
    (l' : List α) : (l ++ l')[i]? = some x := by
  rw [List.getElem?_append_left (List.getElem?_eq_some_iff.mp h).1, h]

theorem issue_withNext (instrumented : Option Code) {c : Nat} (hc : c < w.channels.length) :
    (w.withNext plain instrumented scope onInvalid).issue c = w.issue c := by
  simp [issue, generation, withNext, List.getElem?_append_left hc]

/-- **A binding stays wired up** when another one is made, and nothing about it changes. -/
theorem Wired.withNext {k : Wiring} (h : Wired k w) (instrumented : Option Code) (o : ObjectRef)
    (attr : String) :
    Assigned k o attr w (w.withNext plain instrumented scope onInvalid) := by
  obtain ⟨B, hB, hfits⟩ := h.binding
  obtain ⟨g, hg⟩ := h.channel
  constructor
  · constructor
    · refine ⟨h.cells, ?_⟩
      intro i c hc
      rcases getElem?_concat_some hc with hc | ⟨-, rfl⟩
      · exact h.sinks i c hc
      · trivial
    · exact ⟨B, getElem?_append_some hB _, hfits⟩
    · exact ⟨g, getElem?_append_some hg _⟩
    · exact h.alive
    · exact getElem?_append_some h.loads _
    · exact getElem?_append_some h.calls _
    · intro p hp
      obtain ⟨P, hP, hrest⟩ := h.policies p hp
      exact ⟨P, getElem?_append_some hP _, hrest⟩
  · rfl
  · rfl
  · exact fun _ => rfl
  · exact fun _ _ _ => rfl
  · exact congrArg (Option.map Binding.last) ((getElem?_append_some hB _).trans hB.symm)
  · rintro ⟨B', hB', hd⟩
    exact ⟨B', getElem?_append_some hB' _, hd⟩
  · rintro x a ⟨p, hp, P, hP, htoken, hlistens⟩
    refine ⟨p, hp, P, getElem?_append_some hP _, ?_, hlistens⟩
    rw [issue_withNext _ (List.getElem?_eq_some_iff.mp hg).1]
    exact htoken

theorem bindingAlive_nameBinding (id : String) (b : Nat) :
    (w.nameBinding id b).1.bindingAlive b = true :=
  bindingAlive_of_named ⟨_, Assoc.mem_of_get? (Assoc.get?_put_self id b _), rfl⟩

/-- A session stays mute with a new binding that does nothing when it becomes invalid. -/
theorem Mute.withNext (hm : Mute w) (hidle : onInvalid.Idle) (instrumented : Option Code) :
    Mute (w.withNext plain instrumented scope onInvalid) := by
  intro i B hB
  rcases getElem?_concat_some hB with hB | ⟨-, rfl⟩
  · exact hm i B hB
  · exact hidle

end Making

end Session
end TrackedExpr
