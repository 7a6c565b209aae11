import TrackedExpr.Proofs.Books

/-!
# Exact delivery through a policy

A change that is set in an object reaches the channel of a policy once if the policy
answered, since the latest reset of the channel, that it listens to the attribute, and
does not reach it otherwise.  When the channel is gone, nothing ever reaches it again.

**Definitions.**
* `RecordedOutset`: a session in which a channel that only records and its only policy have
  just been made;
* `eventsOf`: the events of a channel in a log;
* `deliveryOf`: what an observer delivers on its channel;
* `Ledger.Listens`: the policy has answered that it listens;
* `Severed`: nothing is delivered any more, and the policy answers that it is detached.

**Results.**
* `eventsOf_assigned`: the events that an assignment adds are delivered by the observers
  of the policy's listeners;
* `eventsOf_listening`, `eventsOf_otherwise`: one event, or none;
* `Kept.severed`: after the channel is gone;
* `policy_delivers_exactly`: what every assignment in a run delivers.
-/

namespace TrackedExpr
namespace Session

/-- A session in which a channel and its only policy have just been made, and whoever observes
objects already only writes their changes down. -/
structure RecordedOutset (p c : Nat) (name : String) (w : Session) : Prop
    extends Outset p c (.script name []) w where
  quiet : ∀ i, ∀ ob ∈ w.observersAt (.object i), ∃ id, ob.action = .script id []
  history : (w.policyHistory.filter fun e => e.1 = name) = [(name, p)]

/-- An event as it was logged: the place of the listener that saw the change, and the change. -/
def LogEntry.event? (name : String) : LogEntry → Option (Option Nat × Change)
  | .event id ordinal seen => if id = name then some (ordinal, seen) else none
  | _ => none

/-- The events of a channel in a log, newest first. -/
def eventsOf (name : String) (log : List LogEntry) : List (Option Nat × Change) :=
  log.filterMap (LogEntry.event? name)

/-- What an observer delivers on its channel when it sees a change. -/
def deliveryOf (w : Session) (name : String) (change : Change) (ob : Observer Reaction) :
    Option (Option Nat × Change) :=
  match ob.action with
  | .script _ _ => none
  | .forward listener token =>
      if w.connected token then some (w.emitterOrdinal name listener, change) else none

/-- The policy has answered, since it last started from nothing or its channel was reset, that it
listens to an attribute of an object. -/
def Ledger.Listens (a : Ledger) (o : ObjectRef) (attr : String) : Prop :=
  ∃ b ∈ a.answers, b.object = o ∧ b.attr = attr ∧ ∃ key, b.hookup.key? = some key

/-- The channel of a policy has got the same events as before, and the policy answers that it is
detached. -/
structure Severed (re : Reentry) (p : Nat) (name : String) (w w' : Session) : Prop where
  events : eventsOf name w'.log = eventsOf name w.log
  detached : ∀ o attr, w'.Present o → w'.declared? o attr = some .observable →
    (w'.bindTo re p (.object o) attr).2 = .detached

section Entries

variable {p c : Nat} {name : String} {start w : Session} {P : Policy} {answers : List Answer}
  {n : Nat} {o : ObjectRef} {attr : String} {v : Value}

theorem event?_entryFor (w : Session) (name : String) (change : Change) (ob : Observer Reaction) :
    (w.entryFor name change ob).bind (LogEntry.event? name) = w.deliveryOf name change ob := by
  unfold entryFor deliveryOf
  cases ob.action with
  | script id actions => rfl
  | forward listener token =>
      by_cases hconnected : w.connected token = true
      · simp [hconnected, LogEntry.event?]
      · simp [hconnected]

/-- Who observed an object before the policy was made delivers nothing. -/
theorem deliveryOf_old (hstart : RecordedOutset p c name start)
    (hground : Ground c (.script name []) start w n)
    (change : Change) {ob : Observer Reaction} (hob : ob ∈ w.reached o.id attr)
    (hold : ¬ start.subscriptions ≤ ob.subscription) : w.deliveryOf name change ob = none := by
  obtain ⟨-, -, cell, hcell, hmem⟩ := mem_reached.mp hob
  have hplace : ob ∈ w.observersAt (.object o.id) := by
    rw [observersAt, hcell]
    exact hmem
  rcases hground.observers o.id ob hplace with ⟨-, hstart'⟩ | ⟨hfirst, -⟩
  · obtain ⟨id, haction⟩ := hstart.quiet _ ob hstart'
    rw [deliveryOf, haction]
  · exact absurd hfirst hold

/-- The observers that an announcement shows are those of the policy's listeners. -/
theorem eventsOf_announcements (hstart : RecordedOutset p c name start)
    (hground : Ground c (.script name []) start w n) :
    eventsOf name (w.announcements name o attr v)
      = ((w.reachedSince start.subscriptions o.id attr).filterMap
          (w.deliveryOf name (w.changeTo o attr v))).reverse := by
  rw [eventsOf, announcements, List.filterMap_reverse, List.filterMap_filterMap, reachedSince,
    List.filterMap_filter]
  congr 1
  apply List.filterMap_congr
  intro ob hob
  rw [event?_entryFor]
  by_cases hsince : start.subscriptions ≤ ob.subscription
  · simp [hsince]
  · simp [hsince, deliveryOf_old hstart hground _ hob hsince]

/-- Whatever observes an object in a run is only told of its changes. -/
theorem Ground.onlyTold (h : Ground c (.script name []) start w n)
    (hstart : RecordedOutset p c name start)
    (o : ObjectRef) : w.OnlyTold c o := by
  refine ⟨⟨_, _, h.channel⟩, ?_⟩
  intro ob hob
  rcases h.observers o.id ob hob with ⟨-, hold⟩ | ⟨-, -, key, token, haction, hchannel⟩
  · exact Or.inl (hstart.quiet _ ob hold)
  · exact Or.inr ⟨some key, token, haction, hchannel⟩

/-- **The events that an assignment adds.** -/
theorem eventsOf_assigned (hstart : RecordedOutset p c name start)
    (hground : Ground c (.script name []) start w n)
    (re : Reentry) {schema : Schema} (hreports : w.Reports o schema attr v) :
    eventsOf name (w.assigned re o schema attr v).log
      = ((w.reachedSince start.subscriptions o.id attr).filterMap
          (w.deliveryOf name (w.changeTo o attr v))).reverse ++ eventsOf name w.log := by
  rw [assign_announces re hground.channel (hground.onlyTold hstart o).reached hreports,
    ← eventsOf_announcements hstart hground]
  exact List.filterMap_append

/-- An assignment that reports nothing delivers nothing. -/
theorem eventsOf_silent (re : Reentry) {schema : Schema} (hsilent : ¬ w.Reports o schema attr v) :
    eventsOf name (w.assigned re o schema attr v).log = eventsOf name w.log := by
  rcases assign_of_silence re hsilent with heq | heq
  · rw [heq]
  · rw [heq]
    rfl

/-- The place of a listener of the policy among those that it attached on request. -/
theorem emitterOrdinal_eq (hstart : RecordedOutset p c name start)
    (hground : Ground c (.script name []) start w n)
    (hclerk : Clerk p c start w P) (key : SlotKey) :
    w.emitterOrdinal name (some key) = P.attached.idxOf? key := by
  have hpolicies : w.names.policies = start.names.policies := by rw [hground.names]
  have halive : w.policyAlive p = true := by
    obtain ⟨e, he, rfl⟩ := hstart.named
    simp only [policyAlive, Bool.or_eq_true, List.any_eq_true, decide_eq_true_eq]
    exact Or.inl (Or.inl (Or.inl (Or.inl ⟨e, by rwa [hpolicies], rfl⟩)))
  simp only [emitterOrdinal, hground.history, hstart.history, hclerk.policy, halive, if_true]

end Entries

section Deliveries

variable {re : Reentry} {p c : Nat} {name : String} {start : Session} {a b : Ledger} {P : Policy}
  {o : ObjectRef} {attr : String} {v : Value} {schema : Schema}

/-- **One event** is delivered if the policy listens and its channel exists. -/
theorem eventsOf_listening (hstart : RecordedOutset p c name start)
    (hkept : Kept p c (.script name []) start a.session a.answers a.resets)
    (hresets : a.resets < 2 ^ 64) (ho : a.session.Present o)
    (hreports : a.session.Reports o schema attr v) (halive : a.session.channelAlive c = true)
    (hlistens : a.Listens o attr) :
    ∃ key k, ⟨o, attr, .attached key⟩ ∈ a.answers ∧
      (a.session.attachedTo p).idxOf? key = some k ∧
      eventsOf name (a.session.assigned re o schema attr v).log
        = (some k, a.session.changeTo o attr v) :: eventsOf name a.session.log := by
  obtain ⟨P, hground, hclerk, htally⟩ := hkept
  obtain ⟨b, hb, rfl, rfl, key, hkey⟩ := hlistens
  obtain ⟨htoken, l, hl⟩ := htally.lasting b hb key hkey halive ho.2
  obtain ⟨hattr, hslot⟩ := (htally.issued b hb key hkey).2 l hl
  obtain ⟨⟨x, attr, hook⟩, hanswer, rfl, rfl, hslot'⟩ := htally.current hresets htoken key l hl
  obtain rfl : x = b.object := Option.some.inj (hslot'.symm.trans hslot)
  obtain ⟨k, hk⟩ : ∃ k, P.attached.idxOf? key = some k :=
    Option.isSome_iff_exists.mp (List.isSome_idxOf?.mpr (htally.counted _ hanswer key rfl))
  have hattached : a.session.attachedTo p = P.attached := by
    rw [attachedTo, hclerk.policy]
  have hconnected : a.session.connected P.registry.token = true := by
    rw [htoken]
    simpa [connected, issue] using halive
  refine ⟨key, k, by rwa [← hattr], by rwa [hattached], ?_⟩
  rw [eventsOf_assigned hstart hground re hreports, ← hattr,
    reachedSince_eq hstart.toOutset hground hclerk hl hslot]
  simp only [List.filterMap_cons, List.filterMap_nil, deliveryOf, hconnected, if_true,
    emitterOrdinal_eq hstart hground hclerk, hk]
  rfl

/-- **No event** is delivered if the policy does not listen or its channel is gone. -/
theorem eventsOf_otherwise (hstart : RecordedOutset p c name start)
    (hkept : Kept p c (.script name []) start a.session a.answers a.resets)
    (ho : a.session.HasObject o) (hreports : a.session.Reports o schema attr v)
    (hnone : a.session.channelAlive c = true → a.resets < 2 ^ 64 ∧ ¬ a.Listens o attr) :
    eventsOf name (a.session.assigned re o schema attr v).log = eventsOf name a.session.log := by
  obtain ⟨P, hground, hclerk, htally⟩ := hkept
  rw [eventsOf_assigned hstart hground re hreports, List.filterMap_eq_nil_iff.mpr]
  · rfl
  · intro ob hob
    obtain ⟨key, l, hl, rfl, hslot, -⟩ := mem_reachedSince hstart.toOutset hground hclerk ho hob
    rw [reachedSince_eq hstart.toOutset hground hclerk hl hslot, List.mem_singleton] at hob
    rw [hob, deliveryOf]
    dsimp only
    rw [if_neg]
    intro hconnected
    simp only [connected, Bool.and_eq_true, decide_eq_true_eq, hclerk.channel] at hconnected
    obtain ⟨hresets, hmute⟩ := hnone hconnected.1
    -- a listener of this generation was answered for
    have htoken : P.registry.token = a.session.issue c := by
      rw [issue, hconnected.2, ← hclerk.channel]
    obtain ⟨b, hb, hattached, hattr, hslot'⟩ := htally.current hresets htoken key l hl
    obtain rfl := Option.some.inj (hslot'.symm.trans hslot)
    exact hmute ⟨b, hb, rfl, hattr, key, by rw [hattached]; rfl⟩

/-- A policy whose channel is gone answers that it is detached. -/
theorem Kept.detached (hkept : Kept p c (.script name []) start a.session a.answers a.resets)
    (hgone : a.session.channelAlive c = false) (re : Reentry) (ho : a.session.Present o)
    (hobservable : a.session.declared? o attr = some .observable) :
    (a.session.bindTo re p (.object o) attr).2 = .detached := by
  obtain ⟨P, hground, hclerk, -⟩ := hkept
  obtain ⟨s, hhook, -⟩ := bindTo_cases re hground hclerk ho attr
  generalize (a.session.bindTo re p (.object o) attr).2 = hook at hhook ⊢
  cases hhook with
  | refused hdeclared _ _ => exact absurd hobservable hdeclared
  | detached => rfl
  | found _ halive _ _ =>
      rw [hclerk.channel, hgone] at halive
      cases halive
  | attached _ halive _ _ =>
      rw [hclerk.channel, hgone] at halive
      cases halive

/-- A step delivers nothing when the channel is gone. -/
theorem Kept.eventsOf_step (hstart : RecordedOutset p c name start)
    (hkept : Kept p c (.script name []) start a.session a.answers a.resets)
    (hgone : a.session.channelAlive c = false) (hstep : PolicyStep re p c a b) :
    eventsOf name b.session.log = eventsOf name a.session.log := by
  cases hstep with
  | bind hv => rw [(hkept.onward_bind hv re _).2]
  | prune =>
      obtain ⟨P, -, hclerk, -⟩ := hkept
      dsimp only
      rw [prunePolicy_eq hclerk.policy hclerk.idle]
      rfl
  | clear | reset | rename | create => rfl
  | @assign w answers n o schema attr v htold ho hschema hv =>
      by_cases hreports : w.Reports o schema attr v
      · exact eventsOf_otherwise (a := ⟨w, answers, n⟩) hstart hkept ho.1 hreports fun halive => by
          rw [hgone] at halive
          cases halive
      · exact eventsOf_silent re hreports

/-- **When the channel is gone** it stays so, and nothing is delivered any more. -/
theorem Kept.severed (hstart : RecordedOutset p c name start)
    (hkept : Kept p c (.script name []) start a.session a.answers a.resets)
    (hgone : a.session.channelAlive c = false) (hrun : PolicyRun re p c a b) :
    b.session.channelAlive c = false ∧ Severed re p name a.session b.session := by
  induction hrun with
  | refl => exact ⟨hgone, rfl, fun o attr ho hobservable => hkept.detached hgone re ho hobservable⟩
  | tail hrun hstep ih =>
      obtain ⟨hgone', hsevered⟩ := ih
      have hkept' := hkept.run hstart.named hrun
      have hlater := (hkept'.onward hstep).channelAlive.mt (by rw [hgone']; exact nofun)
      rw [Bool.not_eq_true] at hlater
      exact ⟨hlater, (hkept'.eventsOf_step hstart hgone' hstep).trans hsevered.events,
        fun o attr ho hobservable =>
          (hkept'.step hstart.named hstep).detached hlater re ho hobservable⟩

/-- **Delivery through a policy is exact.**  In every session that a program reaches from the
making of the policy with fewer than 2^64 resets of the channel, an assignment that reports a change
delivers one event if the channel exists and the policy has answered since the latest reset that it
listens, under the listener that it answered with; and none otherwise.  When the channel is gone,
nothing is delivered any more, whatever the program does. -/
theorem policy_delivers_exactly (hstart : RecordedOutset p c name start)
    (hrun : PolicyRun re p c ⟨start, [], 0⟩ a) (hresets : a.resets < 2 ^ 64) :
    (∀ o schema attr v, a.session.Present o → a.session.Reports o schema attr v →
        (a.session.channelAlive c = true → a.Listens o attr →
          ∃ key k, ⟨o, attr, .attached key⟩ ∈ a.answers ∧
            (a.session.attachedTo p).idxOf? key = some k ∧
            eventsOf name (a.session.assigned re o schema attr v).log
              = (some k, a.session.changeTo o attr v) :: eventsOf name a.session.log) ∧
        (¬ (a.session.channelAlive c = true ∧ a.Listens o attr) →
          eventsOf name (a.session.assigned re o schema attr v).log
            = eventsOf name a.session.log)) ∧
      (a.session.channelAlive c = false →
        ∀ b, PolicyRun re p c a b → Severed re p name a.session b.session) := by
  have hkept := PolicyRun.kept hstart.toOutset hrun
  refine ⟨?_, fun hgone b hlater => (hkept.severed hstart hgone hlater).2⟩
  intro o schema attr v ho hreports
  refine ⟨eventsOf_listening hstart hkept hresets ho hreports, ?_⟩
  intro hnone
  exact eventsOf_otherwise hstart hkept ho.1 hreports fun halive =>
    ⟨hresets, fun hlistens => hnone ⟨halive, hlistens⟩⟩

end Deliveries

section Twins

theorem policy_delivers_exactly_twins :
    ∃ key k, ⟨firstTwin, "size", .attached key⟩ ∈ (boundTwins (enter 1)).answers ∧
      ((boundTwins (enter 1)).session.attachedTo 0).idxOf? key = some k ∧
      eventsOf "changes" ((boundTwins (enter 1)).session.assigned (enter 1) firstTwin twinSchema
          "size" (.int 2)).log
        = (some k, (boundTwins (enter 1)).session.changeTo firstTwin "size" (.int 2))
          :: eventsOf "changes" (boundTwins (enter 1)).session.log := by
  have hstart : RecordedOutset 0 0 "changes" twinSession := by
    refine ⟨twinSession_outset, ?_, rfl⟩
    intro i ob hob
    rw [twinSession_observers] at hob
    cases hob
  have hpresent : (boundTwins (enter 1)).session.Present firstTwin := ⟨⟨_, rfl, rfl⟩, by cbv⟩
  have hreports : (boundTwins (enter 1)).session.Reports firstTwin twinSchema "size" (.int 2) :=
    ⟨by cbv, by cbv, by cbv⟩
  have hlistens : (boundTwins (enter 1)).Listens firstTwin "size" :=
    ⟨⟨firstTwin, "size", .attached ⟨0, 0⟩⟩, List.mem_cons_of_mem _ List.mem_cons_self, rfl, rfl,
      ⟨0, 0⟩, rfl⟩
  obtain ⟨hdelivers, -⟩ := policy_delivers_exactly hstart boundTwins_run (by decide)
  exact (hdelivers firstTwin twinSchema "size" (.int 2) hpresent hreports).1 (by cbv) hlistens

end Twins

end Session
end TrackedExpr
