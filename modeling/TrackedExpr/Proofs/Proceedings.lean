import TrackedExpr.Proofs.Moments
import TrackedExpr.Proofs.Posts

/-!
# A clean binding has overlooked nothing since it was last evaluated

Native functions, observers and callbacks may set attributes and evaluate and reset a binding
while it is evaluated, to any depth.  Every evaluation severs the dependencies of the binding
and makes it clean when it begins.  So the binding, when it is clean, tells of what was read
since an evaluation last began; of what an outer evaluation had read before that it tells
nothing, although the outer evaluation leaves its result.

**Definitions.**
* `Frame.readings`, `moments`: what one turn, and an evaluation, contributes;
* `replies`, `Told`: observers in turn, and those that tell the binding;
* `Proceedings`: evaluations, resets and assignments, nested to any depth, with their account;
* `Alert`: what a binding knows at any point of the proceedings;
* `Minds`: what keeps a binding engaged and alert.

**Results.**
* `law_minds`, `minds_evaluate`: what one turn of an evaluation preserves, and an evaluation;
* `minds_replies`, `minds_set`: observers in turn, and an assignment;
* `Proceedings.minds`: whatever is done;
* `nothing_overlooked`: a clean binding.
-/

namespace TrackedExpr

/-- A plain call that asks `getattr` for an attribute has no keywords. -/
theorem Instruction.not_balks_of_asked? {raw : UInt16} {stack : List Value}
    {x : ObjectRef × String} (h : (Instruction.call .plain raw).asked? stack = some x) :
    (Instruction.call .plain raw).balks stack = false := by
  simp only [asked?] at h
  split at h
  · next below hdrop =>
      split at h
      · next hkeyword =>
          have hnone : (callSlots raw stack).drop (ArgSpec.decode raw).positional.toNat = [] := by
            rw [List.drop_eq_nil_iff, length_callSlots hdrop, ArgSpec.slots, hkeyword]
            exact Nat.le_refl _
          rw [balks, hnone]
          rfl
      · cases h
  · cases h

namespace Session

section Accounts

/-- The attribute that the next step loads from an object or asks `getattr` for. -/
def Frame.readings (c : Code) (f : Frame) : List Moment :=
  ((f.loaded? c).toList ++ (f.asked? c).toList).map fun x => .read x.1 x.2

/-- A session in which one more action was begun. -/
def spent (w : Session) : Session := { w with actionsLeft := w.actionsLeft - 1 }

/-- The session in which the script of a native function begins. -/
def calling (call : NativeCall) (w : Session) : Session :=
  { w with
    pins := pinValues (NativeCall.values call) ++ w.pins
    log := .call call.function.name call.args call.kwargs :: w.log }

/-- What a turn of the code of a binding contributes: what it reads, and what its native call
does. -/
def turnMoments (k : Wiring) (c : Code) (marks : NativeCall × Session → List Moment) (f : Frame)
    (w : Session) : List Moment :=
  Frame.readings c f ++ (pending k c f w).flatMap marks

/-- What the run of a binding's code in an evaluation contributes. -/
def moments (re : Reentry) (k : Wiring) (B : Binding)
    (marks : NativeCall × Session → List Moment) (w : Session) : List Moment :=
  (host re).chronicle B.code B.scope (turnMoments k B.code marks) w.patience Frame.start
    (w.beginning k.binding B)

/-- The session in which observers begin to react to an assignment. -/
def spread (o : ObjectRef) (attr : String) (v : Value) (w : Session) : Session :=
  { (w.putAt o attr v).pruneAt o.id with pins := pinValues (w.changeTo o attr v).values ++ w.pins }

/-- Observers that react in turn, each with the session in which it reacts. -/
def replies (re : Reentry) (change : Change) : List (Observer Reaction) → Session →
    List (Observer Reaction × Session)
  | [], _ => []
  | first :: rest, w =>
      let pins := (first :: rest).map fun ob => Pin.subscription ob.subscription
      (first, { w with pins := pins ++ w.pins }) ::
        replies re change rest (w.keeping pins fun w => w.react re change first.action)

/-- The observers that react to an assignment. -/
def repliesTo (re : Reentry) (o : ObjectRef) (attr : String) (v : Value) (w : Session) :
    List (Observer Reaction × Session) :=
  replies re (w.changeTo o attr v) (w.reached o.id attr) (w.spread o attr v)

/-- An observer that passes a change on to a binding in the present generation of its channel. -/
def Told (k : Wiring) (e : Observer Reaction × Session) : Prop :=
  ∃ l, e.1.action = .forward l (e.2.issue k.channel)

/-- The session in which a binding that is told of a change has been made dirty. -/
def roused (k : Wiring) (w : Session) : Session :=
  (gripped k w).modifyBinding k.binding fun c => { c with dirty := true }

/-- The proceedings with a binding, and an account of them: evaluations that end, resets, and
assignments to attributes of models, and whatever leaves the binding alone.  Native functions, the
callback of the binding and other observers take part in them. -/
inductive Proceedings (k : Wiring) : Session → Session → List Moment → Prop
  | aside {w w' : Session} :
      (Furnished k w → Aside k w w') →
      Proceedings k w w' []
  | evaluate {re : Reentry} {w w' : Session} {id : String} {B : Binding} {reply : Reply}
      {marks : NativeCall × Session → List Moment} :
      w.bindingNamed id = .ok (k.binding, B) →
      (w.evaluation re k.binding B).outcome ≠ none →
      (∀ e ∈ w.callsOut re k B, Proceedings k e.2 (callNative re e.1 e.2).1 (marks e)) →
      (∀ e ∈ w.callsOut re k B, Furnished k e.2 →
        ResultAmong (callNative re e.1 e.2).1.HasObject k.Outer (callNative re e.1 e.2).2) →
      w.evaluateNamed re id = .ok (w', reply) →
      Proceedings k w w' (.began :: (w.moments re k B marks ++ [.ended]))
  | reset {w w' : Session} {id : String} {B : Binding} {reply : Reply} :
      w.bindingNamed id = .ok (k.binding, B) →
      w.resetBinding id = .ok (w', reply) →
      Proceedings k w w' [.severed]
  | put {re : Reentry} {w : Session} {o : ObjectRef} {schema : Schema} {attr : String} {v : Value} :
      w.schema? o = some schema →
      v.Among w.HasObject k.Outer →
      ¬ w.Reports o schema attr v →
      Proceedings k w (w.assign re o schema attr v).1 []
  | set {re : Reentry} {w : Session} {o : ObjectRef} {schema : Schema} {attr : String} {v : Value}
      {marks : Observer Reaction × Session → List Moment} :
      w.schema? o = some schema →
      v.Among w.HasObject k.Outer →
      w.Reports o schema attr v →
      (∀ e ∈ w.repliesTo re o attr v, Told k e → Proceedings k (roused k e.2)
        (Session.invalidate re k.binding (w.changeTo o attr v) (gripped k e.2)) (marks e)) →
      (∀ e ∈ w.repliesTo re o attr v, ¬ Told k e →
        Proceedings k e.2 (e.2.react re (w.changeTo o attr v) e.1.action) (marks e)) →
      Proceedings k w (w.assign re o schema attr v).1
        (.changed o attr :: (w.repliesTo re o attr v).flatMap marks)
  | trans {w w' w'' : Session} {ms ms' : List Moment} :
      Proceedings k w w' ms →
      Proceedings k w' w'' ms' →
      Proceedings k w w'' (ms ++ ms')

end Accounts

/-- What a binding knows after the proceedings so far, while some observers have yet to react: it is
dirty, or will be told of a change, or its policies listen to what was read since an evaluation last
began, and nothing of this was changed. -/
def Alert (k : Wiring) (out : List (Observer Reaction)) (ms : List Moment) (w : Session) : Prop :=
  Dirty k w ∨ (∃ ob ∈ out, ∃ l, ob.action = .forward l (w.issue k.channel)) ∨
    ∀ o attr, ReadSince ms o attr → w.HasObject o ∧
      (w.declared? o attr = some .observable → ∃ p ∈ k.policies, Attends w p o attr) ∧
      ¬ Overlooked ms o attr

section Alertness

variable {re : Reentry} {k : Wiring} {n : Nat} {w w' t u : Session}
  {out : List (Observer Reaction)} {ms ms' : List Moment} {o : ObjectRef} {attr : String}
  {op : Instruction} {stack : List Value}

theorem issue_congr (hchannel : w'.channels[k.channel]? = w.channels[k.channel]?) :
    w'.issue k.channel = w.issue k.channel := by
  rw [issue, issue, generation, generation, hchannel]

/-- A binding stays alert if nothing that it listens to is lost. -/
theorem Alert.mono (h : Alert k out ms w) (hdirty : Dirty k w → Dirty k w')
    (hchannel : w'.channels[k.channel]? = w.channels[k.channel]?) (hlasts : Lasts w w')
    (hattends : ∀ p ∈ k.policies, ∀ x a, Attends w p x a → Attends w' p x a) :
    Alert k out ms w' := by
  rcases h with hd | hout | hread
  · exact Or.inl (hdirty hd)
  · exact Or.inr (Or.inl (issue_congr hchannel ▸ hout))
  · refine Or.inr (Or.inr fun o attr hsince => ?_)
    obtain ⟨hobject, hlistened, hkept⟩ := hread o attr hsince
    refine ⟨hlasts.hasObject hobject, fun hobservable => ?_, hkept⟩
    rw [hlasts.declared? hobject] at hobservable
    obtain ⟨p, hp, hattended⟩ := hlistened hobservable
    exact ⟨p, hp, hattends p hp o attr hattended⟩

/-- Whatever leaves the binding alone leaves it alert. -/
theorem Alert.aside (h : Alert k out ms w) (hw : Engaged k n w) (haside : Aside k w w') :
    Alert k out ms w' := by
  refine h.mono ?_ haside.channel haside.lasts ?_
  · rintro ⟨B, hB, hdirty⟩
    exact ⟨B, haside.record.trans hB, hdirty⟩
  · exact fun p hp x a hattends =>
      (hw.attends_congr hp haside.channel (haside.policies p hp)).mpr hattends

theorem Alert.began (k : Wiring) (w : Session) (out : List (Observer Reaction)) (ms : List Moment) :
    Alert k out (ms ++ [.began]) w := by
  refine Or.inr (Or.inr fun o attr hsince => ?_)
  rcases readSince_concat.mp hsince with hread | ⟨hne, -⟩
  · cases hread
  · exact absurd rfl hne

/-- The end of an evaluation is told of. -/
theorem Alert.ended (h : Alert k out ms w) : Alert k out (ms ++ [.ended]) w := by
  refine h.imp_right (Or.imp_right fun hknown o attr hsince => ?_)
  rcases readSince_concat.mp hsince with heq | ⟨-, hsince⟩
  · cases heq
  · obtain ⟨hobject, hlistened, hkept⟩ := hknown o attr hsince
    exact ⟨hobject, hlistened, fun hover =>
      hkept (hover.of_concat.resolve_right fun hchanged => nomatch hchanged.1)⟩

/-- An attribute is read to which a policy has come to listen. -/
theorem Alert.read (h : Alert k out ms w) (hobject : w.HasObject o)
    (hattends : w.declared? o attr = some .observable → ∃ p ∈ k.policies, Attends w p o attr) :
    Alert k out (ms ++ [.read o attr]) w := by
  refine h.imp_right (Or.imp_right fun hknown x a hsince => ?_)
  have hkept : ¬ Overlooked (ms ++ [.read o attr]) x a := by
    intro hover
    have hold := hover.of_concat.resolve_right fun hchanged => nomatch hchanged.1
    exact (hknown x a hold.readSince).2.2 hold
  rcases readSince_concat.mp hsince with heq | ⟨-, hsince⟩
  · obtain ⟨rfl, rfl⟩ := Moment.read.inj heq
    exact ⟨hobject, hattends, hkept⟩
  · obtain ⟨hthere, hlistened, -⟩ := hknown x a hsince
    exact ⟨hthere, hlistened, hkept⟩

/-- **A change reaches the observers of the binding**, if it has read the attribute. -/
theorem Alert.changed (h : Alert k out ms w) (hw : Engaged k n w)
    (hobservable : w.declared? o attr = some .observable) :
    Alert k (w.reached o.id attr ++ out) (ms ++ [.changed o attr]) w := by
  rcases h with hdirty | ⟨ob, hob, hl⟩ | hknown
  · exact Or.inl hdirty
  · exact Or.inr (Or.inl ⟨ob, List.mem_append_right _ hob, hl⟩)
  · by_cases hread : ReadSince ms o attr
    · obtain ⟨p, hp, hattends⟩ := (hknown o attr hread).2.1 hobservable
      obtain ⟨ob, hob, hl⟩ := hw.reached hp hattends
      exact Or.inr (Or.inl ⟨ob, List.mem_append_left _ hob, hl⟩)
    · refine Or.inr (Or.inr fun x a hsince => ?_)
      rcases readSince_concat.mp hsince with heq | ⟨-, hsince⟩
      · cases heq
      · obtain ⟨hobject, hlistened, hkept⟩ := hknown x a hsince
        refine ⟨hobject, hlistened, fun hover => ?_⟩
        rcases hover.of_concat with hold | ⟨heq, -⟩
        · exact hkept hold
        · obtain ⟨rfl, rfl⟩ := Moment.changed.inj heq
          exact hread hsince

end Alertness

/-- What is done with a binding, with an account of it, while some observers react: the binding stays
engaged and keeps its callback, its channel is reset as often as the account tells, and it stays
alert without these observers. -/
structure Minds (k : Wiring) (obs : List (Observer Reaction)) (w w' : Session)
    (ms : List Moment) : Prop where
  engaged : ∀ {n}, Engaged k n w → Engaged k (n + ms.countP Moment.resets) w'
  lasts : ∀ {n}, Engaged k n w → Lasts w w'
  callback : ∀ {n}, Engaged k n w → w'.bindings[k.binding]?.map Binding.onInvalid
    = w.bindings[k.binding]?.map Binding.onInvalid
  alert : ∀ {n out before}, Engaged k n w → Alert k (obs ++ out) before w →
    Alert k out (before ++ ms) w'

section Minding

variable {k : Wiring} {obs obs' : List (Observer Reaction)} {w w' w'' : Session}
  {ms ms' : List Moment}

theorem Minds.aside (h : Furnished k w → Aside k w w') : Minds k [] w w' [] where
  engaged := fun hw => (h hw.toFurnished).engaged hw
  lasts := fun hw => (h hw.toFurnished).lasts
  callback := fun hw => by rw [(h hw.toFurnished).record]
  alert := by
    intro n out before hw halert
    rw [List.append_nil]
    exact halert.aside hw (h hw.toFurnished)

theorem Minds.trans (h : Minds k obs w w' ms) (h' : Minds k obs' w' w'' ms') :
    Minds k (obs ++ obs') w w'' (ms ++ ms') where
  engaged := by
    intro n hw
    rw [List.countP_append, ← Nat.add_assoc]
    exact h'.engaged (h.engaged hw)
  lasts := fun hw => (h.lasts hw).trans (h'.lasts (h.engaged hw))
  callback := fun hw => (h'.callback (h.engaged hw)).trans (h.callback hw)
  alert := by
    intro n out before hw halert
    rw [List.append_assoc] at halert
    rw [← List.append_assoc]
    exact h'.alert (h.engaged hw) (h.alert hw halert)

theorem Minds.of_engaged (h : ∀ {n}, Engaged k n w → Minds k obs w w' ms) :
    Minds k obs w w' ms where
  engaged := fun hw => (h hw).engaged hw
  lasts := fun hw => (h hw).lasts hw
  callback := fun hw => (h hw).callback hw
  alert := fun hw => (h hw).alert hw

/-- What is done while more is held on to. -/
theorem Minds.keeping {pins : List Pin} (h : Minds k obs { w with pins := pins ++ w.pins } w' ms) :
    Minds k obs w { w' with pins := w.pins } ms := by
  have hpinned : Minds k [] w { w with pins := pins ++ w.pins } [] :=
    Minds.aside fun hw => hw.aside _ w.log w.recorders
  have hunpinned : Minds k [] w' { w' with pins := w.pins } [] :=
    Minds.aside fun hw => hw.aside w.pins w'.log w'.recorders
  have hall := (hpinned.trans h).trans hunpinned
  rwa [List.nil_append, List.nil_append, List.append_nil, List.append_nil] at hall

end Minding

section Turns

variable {re : Reentry} {k : Wiring} {n : Nat} {w t : Session} {out : List (Observer Reaction)}
  {ms : List Moment} {op : Instruction} {stack : List Value} {f : Frame}

/-- What an attribute load or a plain call of `getattr` reads is what it is aimed at. -/
theorem Frame.readings_eq (hop : k.code.instructions[f.pc]? = some op) :
    Frame.readings k.code f = [] ∨ ∃ o attr, Frame.readings k.code f = [.read o attr] ∧
      op.aim? f.stack = some (o, attr) := by
  unfold Frame.readings Frame.loaded? Frame.asked?
  rw [hop, Option.bind_some, Option.bind_some]
  cases op with
  | loadAttr a =>
      cases hstack : f.stack with
      | nil => exact Or.inl rfl
      | cons v below =>
          cases v with
          | object o => exact Or.inr ⟨o, a, rfl, rfl⟩
          | _ => exact Or.inl rfl
  | call form raw =>
      cases form with
      | plain =>
          cases hasked : (Instruction.call .plain raw).asked? f.stack with
          | none => exact Or.inl rfl
          | some x =>
              refine Or.inr ⟨x.1, x.2, rfl, ?_⟩
              rw [← Instruction.asked?_eq (Instruction.not_balks_of_asked? hasked), hasked]
      | _ => exact Or.inl rfl
  | _ => exact Or.inl rfl

theorem Frame.readings_of_no_aim (haim : f.aim? k.code = none) :
    Frame.readings k.code f = [] := by
  cases hop : k.code.instructions[f.pc]? with
  | none => simp [Frame.readings, Frame.loaded?, Frame.asked?, hop]
  | some op =>
      rcases Frame.readings_eq hop with hnone | ⟨o, attr, -, hsome⟩
      · exact hnone
      · rw [Frame.aim?_eq hop, hsome] at haim
        cases haim

theorem Approaches.engaged (h : Approaches re k op stack w t) (hw : Engaged k n w) :
    Engaged k n t ∧ t.bindings = w.bindings := by
  cases h with
  | nothing _ => exact ⟨hw, rfl⟩
  | shows _ hshows =>
      obtain ⟨ht, -, hbindings⟩ := hshows.engaged (k.listener_mem op) hw
      exact ⟨ht, hbindings⟩

/-- The binding comes to listen to what an instruction is aimed at. -/
theorem Approaches.attends (h : Approaches re k op stack w t) (hw : Engaged k n w)
    (haim : op.aim? stack = some (o, attr)) : t.HasObject o ∧
      (t.declared? o attr = some .observable → ∃ p ∈ k.policies, Attends t p o attr) := by
  obtain ⟨-, hlasts, -⟩ := h.tended hw.toTended
  cases h with
  | nothing hnone => exact absurd (haim.symm.trans hnone) nofun
  | shows haim' hshows =>
      obtain ⟨rfl, rfl⟩ := Prod.mk.inj (Option.some.inj (haim.symm.trans haim'))
      refine ⟨hlasts.hasObject hshows.hasObject, fun hobservable => ⟨_, k.listener_mem op, ?_⟩⟩
      rw [hlasts.declared? hshows.hasObject] at hobservable
      exact (hshows.attends (k.listener_mem op) hw).mpr (Or.inr ⟨rfl, rfl, rfl, hobservable⟩)

theorem Alert.approach (h : Alert k out ms w) (hw : Engaged k n w)
    (happroach : Approaches re k op stack w t) : Alert k out ms t := by
  obtain ⟨-, hlasts, -⟩ := happroach.tended hw.toTended
  cases happroach with
  | nothing _ => exact h
  | shows _ hshows =>
      obtain ⟨-, hchannels, hbindings⟩ := hshows.engaged (k.listener_mem op) hw
      refine h.mono ?_ (by rw [hchannels]) hlasts fun q _ x a hold =>
        (hshows.attends (k.listener_mem op) hw).mpr (Or.inl hold)
      rintro ⟨B, hB, hdirty⟩
      exact ⟨B, by rw [hbindings]; exact hB, hdirty⟩

/-- What an instruction reads is listened to before the instruction runs. -/
theorem Approaches.minds (h : Approaches re k op f.stack w t)
    (hop : k.code.instructions[f.pc]? = some op) : Minds k [] w t (Frame.readings k.code f) := by
  constructor
  · intro n hw
    have hnone : (Frame.readings k.code f).countP Moment.resets = 0 := by
      rcases Frame.readings_eq hop with heq | ⟨o, attr, heq, -⟩ <;> rw [heq] <;> rfl
    rw [hnone]
    exact (h.engaged hw).1
  · exact fun hw => (h.tended hw.toTended).2.1
  · exact fun hw => by rw [(h.engaged hw).2]
  · intro n out before hw halert
    have hthere := halert.approach hw h
    rcases Frame.readings_eq hop with heq | ⟨o, attr, heq, haim⟩
    · rw [heq, List.append_nil]
      exact hthere
    · obtain ⟨hobject, hattends⟩ := h.attends hw haim
      rw [heq]
      exact hthere.read hobject hattends

/-- **What one turn of an evaluation preserves.** -/
theorem law_minds (re : Reentry) (k : Wiring) (marks : NativeCall × Session → List Moment) :
    Law re k
      (fun e => Minds k [] e.2 (callNative re e.1 e.2).1 (marks e) ∧ (Furnished k e.2 →
        ResultAmong (callNative re e.1 e.2).1.HasObject k.Outer (callNative re e.1 e.2).2))
      (fun w => ∃ n, Engaged k n w) (turnMoments k k.code marks)
      (fun ms w u => Minds k [] w u ms) where
  tended := fun ⟨n, hw⟩ => ⟨n, hw.toTended⟩
  refl := fun _ => Minds.aside Aside.refl
  trans := fun _ h h' => h.trans h'
  idle := by
    intro g haim hnative w
    rw [turnMoments, Frame.readings_of_no_aim haim, pending, hnative]
    rfl
  approach := fun ⟨n, hw⟩ happroach => ⟨n, (happroach.engaged hw).1⟩
  answer := fun ⟨_, hanswer⟩ ⟨_, hw⟩ => hanswer hw.toFurnished
  turn := by
    rintro g op w t u hop ⟨n, hw⟩ happroach hturns
    have ht := (happroach.engaged hw).1
    have hread := happroach.minds hop
    have hcalled : Minds k [] t u ((pending k k.code g t).flatMap marks) := by
      rcases hturns with ⟨hnone, rfl⟩ | ⟨call, hcall, ⟨hminds, -⟩, rfl⟩
      · rw [pending, hnone]
        exact Minds.aside Aside.refl
      · rw [pending, hcall]
        simpa using hminds
    exact ⟨⟨_, hcalled.engaged ht⟩, hcalled.lasts ht, hread.trans hcalled⟩

end Turns

section Conduct

variable {re : Reentry} {k : Wiring} {n : Nat} {w w' : Session} {B : Binding} {id : String}
  {r : Outcome} {reply : Reply} {o : ObjectRef} {attr : String} {v : Value} {schema : Schema}
  {change : Change}

theorem minds_beginning (hB : w.bindings[k.binding]? = some B) :
    Minds k [] w (w.beginning k.binding B) [.began] where
  engaged := fun hw => hw.beginning hB
  lasts := fun _ => Lasts.refl w
  callback := fun _ => by simp [Session.beginning, modifyBinding, resetChannel, modifyChannel, hB]
  alert := fun _ _ => Alert.began k _ _ _

theorem minds_concluded (r : Outcome) (w t : Session) :
    Minds k [] t (concluded k.binding r w t) [.ended] where
  engaged := fun ht => ht.concluded r w
  lasts := fun _ => Lasts.refl t
  callback := fun _ => by cases hB : t.bindings[k.binding]? <;> simp [concluded, modifyBinding, hB]
  alert := by
    intro n out before ht halert
    refine halert.ended.mono ?_ rfl (Lasts.refl t) fun _ _ _ _ h => h
    rintro ⟨B, hB, hdirty⟩
    exact ⟨{ B with last := some r, evaluating := false },
      by simp [concluded, modifyBinding, hB], hdirty⟩

/-- An evaluation, whose native calls mind the binding. -/
theorem minds_evaluate {verify : Bool} {marks : NativeCall × Session → List Moment}
    (hinstrumented : instrument verify k.plain (k.monitors.map StockMonitor.monitor) = .ok k.code)
    (hfits : B.Fits k) (hB : w.bindings[k.binding]? = some B)
    (hr : (w.evaluation re k.binding B).outcome = some r)
    (hnatives : ∀ e ∈ w.callsOut re k B, Minds k [] e.2 (callNative re e.1 e.2).1 (marks e) ∧
      (Furnished k e.2 →
        ResultAmong (callNative re e.1 e.2).1.HasObject k.Outer (callNative re e.1 e.2).2)) :
    Minds k [] w (concluded k.binding r w (w.evaluation re k.binding B).state)
      (.began :: (w.moments re k B marks ++ [.ended])) := by
  refine Minds.of_engaged fun hw => ?_
  have hplace : Frame.start.relocate (k.insertions verify) = Frame.start := rfl
  have hrun : Minds k [] (w.beginning k.binding B) (w.evaluation re k.binding B).state
      (w.moments re k B marks) := by
    unfold evaluation at hr ⊢
    unfold callsOut at hnatives
    unfold moments
    rw [hfits.code, hfits.scope] at hr hnatives ⊢
    obtain ⟨-, hrun⟩ := (law_minds re k marks).run hinstrumented w.patience
      ⟨_, hw.beginning hB⟩ Frame.Reachable.start (fun v hv => absurd hv List.not_mem_nil)
      (hplace ▸ hr) (hplace ▸ hnatives)
    rw [hplace] at hrun
    exact hrun
  exact (minds_beginning hB).trans (hrun.trans (minds_concluded r w _))

theorem minds_reset (hB : w.bindingNamed id = .ok (k.binding, B))
    (hreset : w.resetBinding id = .ok (w', reply)) : Minds k [] w w' [.severed] := by
  obtain ⟨-, hself⟩ := bindingNamed_ok hB
  rw [resetBinding, hB] at hreset
  obtain ⟨rfl, -⟩ := Prod.mk.inj (Except.ok.inj hreset)
  constructor
  · intro n hw
    have hreset := hw.reset.flagged Binding.last (fun _ => true) Binding.evaluating
    rwa [← (hw.fits hself).channel] at hreset
  · exact fun _ => Lasts.refl w
  · exact fun _ => by simp [modifyBinding, resetChannel, modifyChannel, hself]
  · refine fun _ _ => Or.inl ⟨{ B with dirty := true }, ?_, rfl⟩
    simp [modifyBinding, resetChannel, modifyChannel, hself]

/-- An assignment that reports nothing. -/
theorem minds_put (hv : v.Among w.HasObject k.Outer) (hsilent : ¬ w.Reports o schema attr v) :
    Minds k [] w (w.assign re o schema attr v).1 [] := by
  rcases assign_of_not_reports re hsilent with heq | heq
  · rw [heq]
    exact Minds.aside Aside.refl
  · rw [heq]
    exact Minds.aside fun hw => hw.aside_putAt hv

/-- A binding that is told of a change. -/
theorem minds_told {ob : Observer Reaction} {ms : List Moment}
    (h : Minds k [] (roused k w) (Session.invalidate re k.binding change (gripped k w)) ms)
    (htold : Told k (ob, w)) : Minds k [ob] w (w.react re change ob.action) ms := by
  refine Minds.of_engaged fun hw => ?_
  have hraised : ∀ {n}, Engaged k n w → Engaged k n (roused k w) := fun hw =>
    (hw.repinned _).flagged Binding.last (fun _ => true) Binding.evaluating
  obtain ⟨B, hB, -⟩ := hw.binding
  have hdirty : Dirty k (roused k w) :=
    ⟨{ B with dirty := true }, by simp [roused, gripped, modifyBinding, hB], rfl⟩
  have hthere := h.engaged (hraised hw)
  rw [hw.react_told change htold]
  constructor
  · exact fun hw => (h.engaged (hraised hw)).repinned w.pins
  · exact fun hw => h.lasts (hraised hw)
  · exact fun hw => (h.callback (hraised hw)).trans (by simp [roused, gripped, modifyBinding, hB])
  · -- a dirty binding is alert, whatever it was before
    exact fun hw _ => (h.alert (hraised hw) (Or.inl hdirty)).aside hthere
      (hthere.aside w.pins _ _)

/-- An observer that does not tell the binding. -/
theorem minds_untold {ob : Observer Reaction} {ms : List Moment}
    (h : Minds k [] w (w.react re change ob.action) ms) (htold : ¬ Told k (ob, w)) :
    Minds k [ob] w (w.react re change ob.action) ms where
  engaged := h.engaged
  lasts := h.lasts
  callback := h.callback
  alert := by
    intro n out before hw halert
    refine h.alert hw (halert.imp_right (Or.imp_left ?_))
    rintro ⟨ob', hob', hl⟩
    rcases List.mem_cons.mp hob' with rfl | hob'
    · exact absurd hl htold
    · exact ⟨ob', hob', hl⟩

/-- **Observers in turn.** -/
theorem minds_replies {marks : Observer Reaction × Session → List Moment} :
    ∀ {obs : List (Observer Reaction)} {w : Session}, (∀ e ∈ replies re change obs w,
      Minds k [e.1] e.2 (e.2.react re change e.1.action) (marks e)) →
        Minds k obs w (w.reactAll re change obs) ((replies re change obs w).flatMap marks)
  | [], _, _ => Minds.aside Aside.refl
  | first :: rest, w, h => by
      rw [replies, List.flatMap_cons, reactAll]
      have hfirst := (h _ List.mem_cons_self).keeping
      exact hfirst.trans (minds_replies fun e he => h e (List.mem_cons_of_mem _ he))

/-- The value is put in place before observers react. -/
theorem Furnished.aside_spread (h : Furnished k w) (halive : w.bindingAlive k.binding = true)
    (hv : v.Among w.HasObject k.Outer) : Aside k w (w.spread o attr v) := by
  have hput : Aside k w (w.putAt o attr v) := h.aside_putAt hv
  have hpruned := hput.trans (hput.furnished.aside_pruneAt halive o.id)
  exact hpruned.trans (hpruned.furnished.aside _ _ _)

theorem assign_eq_spread (hreports : w.Reports o schema attr v) : (w.assign re o schema attr v).1
    = { (w.spread o attr v).reactAll re (w.changeTo o attr v) (w.reached o.id attr) with
        pins := w.pins } := by
  rw [assign_of_reports re hreports, dispatch_eq, reached_putAt]
  rfl

/-- An assignment that reports a change. -/
theorem minds_set {marks : Observer Reaction × Session → List Moment}
    (hschema : w.schema? o = some schema) (hv : v.Among w.HasObject k.Outer)
    (hreports : w.Reports o schema attr v)
    (h : ∀ e ∈ w.repliesTo re o attr v,
      Minds k [e.1] e.2 (e.2.react re (w.changeTo o attr v) e.1.action) (marks e)) :
    Minds k [] w (w.assign re o schema attr v).1
      (.changed o attr :: (w.repliesTo re o attr v).flatMap marks) := by
  refine Minds.of_engaged fun hw => ?_
  have hobservable : w.declared? o attr = some .observable := by
    rw [declared?_of_schema? hschema, hreports.2.1]
  have hspread : Aside k w (w.spread o attr v) := hw.toFurnished.aside_spread hw.alive hv
  have hreplies := minds_replies h
  have hrest : Aside k ((w.spread o attr v).reactAll re (w.changeTo o attr v)
      (w.reached o.id attr)) (w.assign re o schema attr v).1 := by
    rw [assign_eq_spread hreports]
    exact (hreplies.engaged (hspread.engaged hw)).aside w.pins _ _
  constructor
  · intro n hw
    rw [List.countP_cons_of_neg (by simp [Moment.resets])]
    exact hrest.engaged (hreplies.engaged (hspread.engaged hw))
  · exact fun hw => hspread.lasts.trans ((hreplies.lasts (hspread.engaged hw)).trans hrest.lasts)
  · intro n hw
    rw [hrest.record, hreplies.callback (hspread.engaged hw), hspread.record]
  · intro n out before hw halert
    have hreached := (halert.changed hw hobservable).aside hw hspread
    have hreacted := hreplies.alert (hspread.engaged hw) hreached
    rw [List.append_cons]
    exact hreacted.aside (hreplies.engaged (hspread.engaged hw)) hrest

end Conduct

section Scripts

variable {re : Reentry} {k : Wiring} {w w' : Session} {ms ms' : List Moment} {id attr : String}

/-- Pins, the log and the number of actions that are left do not matter. -/
theorem Proceedings.beside (w : Session) (pins : List Pin) (log : List LogEntry) (left : Nat) :
    Proceedings k w { w with pins := pins, log := log, actionsLeft := left } [] :=
  Proceedings.aside fun hw => Aside.of_untouched
    ⟨⟨hw.numbered, hw.home, hw.kinds, hw.stock, hw.binding, hw.loads, hw.calls⟩, Lasts.refl w, rfl,
      fun _ _ => rfl⟩ rfl rfl rfl rfl rfl

theorem Proceedings.keeping {pins : List Pin}
    (h : Proceedings k { w with pins := pins ++ w.pins } w' ms) :
    Proceedings k w { w' with pins := w.pins } ms := by
  have hbegin : Proceedings k w { w with pins := pins ++ w.pins } [] :=
    Proceedings.beside w _ w.log w.actionsLeft
  have hend : Proceedings k w' { w' with pins := w.pins } [] :=
    Proceedings.beside w' w.pins w'.log w'.actionsLeft
  have hall := (hbegin.trans h).trans hend
  rwa [List.nil_append, List.append_nil] at hall

/-- A command of a script, and those after it. -/
theorem Proceedings.act {c : Command} {rest : Script} {reply : Reply} (hleft : w.actionsLeft ≠ 0)
    (hattempt : attempt re w.spent c = .ok (w', reply)) (h : Proceedings k w.spent w' ms)
    (hrest : Proceedings k (w'.note (.act c reply))
      (runActions re rest (w'.note (.act c reply))) ms') :
    Proceedings k w (w.runActions re (c :: rest)) (ms ++ ms') := by
  have hspent : Proceedings k w w.spent [] := Proceedings.beside w w.pins w.log _
  have hnoted : Proceedings k w' (w'.note (.act c reply)) [] :=
    Proceedings.beside w' w'.pins _ w'.actionsLeft
  have hall := ((hspent.trans h).trans hnoted).trans hrest
  rw [List.nil_append, List.append_nil] at hall
  rw [spent] at hattempt
  rw [runActions, if_neg hleft, perform, hattempt]
  exact hall

theorem assign_ok {o : ObjectRef} {schema : Schema} {v : Value}
    (haccepts : schema.accepts attr = true) : (w.assign re o schema attr v).2 = .ok () := by
  unfold Session.assign
  rw [haccepts]
  dsimp only
  split
  · cases ‹(!true) = true›
  · split <;> rfl

/-- An assignment by a command. -/
theorem setAttr_eq {o : ObjectRef} {schema : Schema} {value : Literal} {v : Value}
    (hid : Assoc.get? id w.names.objects = some o) (hschema : w.schema? o = some schema)
    (hv : w.literal value = .ok v) (haccepts : schema.accepts attr = true) :
    w.setAttr re id attr value = .ok (w.assigned re o schema attr v, .nothing) := by
  have hok := @assign_ok re { w with pins := pinValues [.object o, v] ++ w.pins } attr o schema v
    haccepts
  simp only [Session.setAttr, named, hid, bind, Except.bind, hschema, hv, holding, assigned, hok]
  rfl

theorem Proceedings.assigned {o : ObjectRef} {schema : Schema} {v : Value}
    (h : Proceedings k { w with pins := pinValues [.object o, v] ++ w.pins }
      (assign re o schema attr v { w with pins := pinValues [.object o, v] ++ w.pins }).1 ms) :
    Proceedings k w (w.assigned re o schema attr v) ms := h.keeping

/-- A call of a native function, which runs its script and then answers. -/
theorem Proceedings.native {call : NativeCall} {draft : NativeDraft Command} {depth : Nat}
    (hnative : w.natives[call.function.id]? = some (.host draft)) (hset : draft.behavior ≠ .set)
    (h : Proceedings k (w.calling call) (runActions (enter depth) draft.actions (w.calling call)) ms) :
    Proceedings k w (callNative (enter (depth + 1)) call w).1 ms := by
  have hcall : (callNative (enter (depth + 1)) call w).1
      = { runActions (enter depth) draft.actions (w.calling call) with pins := w.pins } := by
    simp only [callNative, holding, hnative, enter, carryOut]
    cases hbehavior : draft.behavior with
    | set => exact absurd hbehavior hset
    | const l =>
        simp only [behave]
        split <;> rfl
    | _ => rfl
  have hbegin : Proceedings k w (w.calling call) [] := Proceedings.beside w _ _ w.actionsLeft
  have hend : Proceedings k (runActions (enter depth) draft.actions (w.calling call))
      { runActions (enter depth) draft.actions (w.calling call) with pins := w.pins } [] :=
    Proceedings.beside _ w.pins _ _
  have hall := (hbegin.trans h).trans hend
  rwa [List.nil_append, List.append_nil, ← hcall] at hall

/-- A binding that is told of a change while it is evaluated becomes dirty, and does nothing. -/
theorem invalidate_evaluating {change : Change} {B : Binding}
    (hB : w.bindings[k.binding]? = some B) (hevaluating : B.evaluating = true) :
    Session.invalidate re k.binding change (gripped k w) = roused k w := by
  simp [Session.invalidate, roused, gripped, modifyBinding, hB, hevaluating]

/-- An assignment that only tells the binding, while this is evaluated. -/
theorem Proceedings.set_evaluating {o : ObjectRef} {schema : Schema} {v : Value}
    (hschema : w.schema? o = some schema) (hv : v.Among w.HasObject k.Outer)
    (hreports : w.Reports o schema attr v)
    (htold : ∀ e ∈ w.repliesTo re o attr v, Told k e ∧
      ∃ B, e.2.bindings[k.binding]? = some B ∧ B.evaluating = true) :
    Proceedings k w (w.assign re o schema attr v).1 [.changed o attr] := by
  have hnothing : (w.repliesTo re o attr v).flatMap (fun _ => ([] : List Moment)) = [] :=
    List.flatMap_eq_nil_iff.mpr fun _ _ => rfl
  rw [← hnothing]
  refine Proceedings.set hschema hv hreports ?_ ?_
  · intro e he _
    obtain ⟨-, B, hB, hevaluating⟩ := htold e he
    rw [invalidate_evaluating hB hevaluating]
    exact Proceedings.aside Aside.refl
  · exact fun e he huntold => absurd (htold e he).1 huntold

end Scripts

section Results

variable {k : Wiring} {w w' : Session} {ms : List Moment}

/-- **Whatever is done with a binding**, it stays alert. -/
theorem Proceedings.minds {verify : Bool}
    (hinstrumented : instrument verify k.plain (k.monitors.map StockMonitor.monitor) = .ok k.code)
    (h : Proceedings k w w' ms) : Minds k [] w w' ms := by
  induction h with
  | aside haside => exact Minds.aside haside
  | @evaluate re w w' id B reply marks hB hends _ hanswers heval ih =>
      obtain ⟨hid, hself⟩ := bindingNamed_ok hB
      obtain ⟨r, hr⟩ := Option.ne_none_iff_exists'.mp hends
      rw [evaluateNamed_eq hid hself hr] at heval
      obtain ⟨rfl, -⟩ := Prod.mk.inj (Except.ok.inj heval)
      exact Minds.of_engaged fun hw => minds_evaluate hinstrumented (hw.fits hself) hself hr
        fun e he => ⟨ih e he, hanswers e he⟩
  | reset hB hreset => exact minds_reset hB hreset
  | put _ hv hsilent => exact minds_put hv hsilent
  | set hschema hv hreports _ _ htold huntold =>
      refine minds_set hschema hv hreports fun e he => ?_
      by_cases h : Told k e
      · exact minds_told (htold e he h) h
      · exact minds_untold (huntold e he h) h
  | trans _ _ ih ih' => exact ih.trans ih'

/-- **A clean binding has overlooked nothing since it was last evaluated.**  Bind code for both
monitors in a session where objects run nothing when they are observed, let it be instrumented and
name the binding.  Then evaluate it, reset it and set attributes of models in any order; native
functions, observers and the callback of the binding may do the same, nested to any depth.  If the
binding is clean, no attribute that was read since an evaluation of it last began was changed after
it was read.  So nothing is lost, unless an evaluation began while another went on. -/
theorem nothing_overlooked {w₀ w₁ w : Session} {code instrumented : Code} {scope : Scope}
    {config : BindingConfig} {onInvalid : Invalidation} {b : Nat} {id : String} {B : Binding}
    {ms : List Moment} (hready : Ready w₀ code scope) (hcounted : Counted w₀)
    (hmade : w₀.makeBinding code scope config onInvalid = .ok (w₁, b))
    (hattributes : config.monitorAttributes = true) (hgetattr : config.monitorGetattr = true)
    (hinstrumented : w₁.bindings[b]?.bind Binding.instrumented = some instrumented)
    (hproceedings : Proceedings (w₀.nextWiring code instrumented scope) (w₁.nameBinding id b).1 w ms)
    (hB : w.bindings[b]? = some B) (hclean : B.dirty = false) (o : ObjectRef) (attr : String) :
    ¬ Overlooked ms o attr ∧
      (Flat ms → (holdings ms).ongoing = [] → ¬ Lost ms o attr) := by
  obtain ⟨rfl, rfl, hcode⟩ := eq_of_makeBinding hattributes hgetattr hmade hinstrumented
  have hstart := hready.engaged hcounted instrumented onInvalid id
  have hminds := hproceedings.minds hcode
  have hnothing : Alert (w₀.nextWiring code instrumented scope) ([] ++ []) []
      ((w₀.withNext code (some instrumented) scope onInvalid).nameBinding id
        w₀.bindings.length).1 := by
    refine Or.inr (Or.inr ?_)
    rintro o attr ⟨earlier, later, heq, -⟩
    exact absurd heq (List.append_ne_nil_of_right_ne_nil _ (List.cons_ne_nil _ _)).symm
  have hkept : ¬ Overlooked ms o attr := by
    rcases hminds.alert hstart hnothing with ⟨B', hB', hdirty⟩ | ⟨ob, hob, -⟩ | hknown
    · obtain rfl := Option.some.inj (hB.symm.trans hB')
      exact absurd (hclean.symm.trans hdirty) Bool.false_ne_true
    · cases hob
    · exact fun hover => (hknown o attr hover.readSince).2.2 hover
  exact ⟨hkept, fun hflat hended hlost => hkept (hflat.overlooked hended hlost)⟩

end Results

section Door

/-- A model. -/
def door : ObjectRef := ⟨0, 0, "m", "Door"⟩

def doorSchema : Schema := (Schema.empty "Door").observable "x"

/-- What the native function does: it shuts the door and evaluates the binding. -/
def doorActions : Script := [.set "m" "x" (.bool false), .evaluate "b"]

/-- A session with the model and the native function. -/
def doorSession : Session where
  objects := [⟨door, .model doorSchema, [("x", .bool true)], []⟩]
  natives := [.host ⟨.sum, doorActions⟩]
  names := { objects := [("m", door)] }
  patience := 100
  actionsLeft := 100

def doorScope : Scope := [("f", .native ⟨0, "f"⟩), ("m", .object door)]

/-- Reads `x` of the model, calls the function if it reads that `x` holds, and returns what it has
read first. -/
def doorCode : Code := Code.ofInstructions
  [.loadName "m", .loadAttr "x", .loadName "m", .loadAttr "x", .jump .popIfFalse ⟨0⟩, .loadName "f",
    .call .plain 0, .popTop, .setLabel ⟨0⟩, .returnValue]

def watchedDoor : Code := Code.ofInstructions <|
  [.loadName "m"] ++ attributeSite ⟨1, "attribute_binder"⟩ "x"
    ++ [.loadAttr "x", .loadName "m"] ++ attributeSite ⟨1, "attribute_binder"⟩ "x"
    ++ [.loadAttr "x", .jump .popIfFalse ⟨0⟩, .loadName "f"]
    ++ callSite ⟨2, "call_binder"⟩ 0 ++ [.call .plain 0, .popTop, .setLabel ⟨0⟩, .returnValue]

/-- The binding of that code. -/
def doorBinding (last : Option Outcome) (dirty evaluating : Bool) : Binding where
  plain := doorCode
  instrumented := some watchedDoor
  scope := doorScope
  channel := 0
  attributes := some 0
  getattr := some 1
  onInvalid := .script "b" []
  last := last
  dirty := dirty
  evaluating := evaluating

def doorWiring : Wiring := doorSession.nextWiring doorCode watchedDoor doorScope

/-- The session with the new binding. -/
def boundDoor : Session :=
  ((doorSession.withNext doorCode (some watchedDoor) doorScope
    (.script "b" [])).nameBinding "b" 0).1

theorem makeBinding_door :
    doorSession.makeBinding doorCode doorScope {} (.script "b" []) = .ok
      (doorSession.withNext doorCode (some watchedDoor) doorScope (.script "b" []), 0) := by
  have hinstrument : instrumentFor {} doorCode [Monitor.attributes ⟨1, "attribute_binder"⟩,
      Monitor.calls ⟨2, "call_binder"⟩] = .ok (some watchedDoor) := by cbv
  exact makeBinding_of_instrumentFor rfl rfl hinstrument

/-- The session after the binding was evaluated. -/
def evaluatedDoor : Session :=
  concluded 0 (.ok (.bool true)) boundDoor
    (boundDoor.evaluation (enter 1) 0 (doorBinding none true false)).state


/-- The session in which the native function runs its script. -/
def callingDoor : Session :=
  ((boundDoor.callsOut (enter 1) doorWiring (doorBinding none true false)).head?.map
    fun e => e.2.calling e.1).getD boundDoor

/-- The session in which the script shuts the door. -/
def shuttingDoor : Session :=
  { callingDoor.spent with
    pins := pinValues [.object door, .bool false] ++ callingDoor.spent.pins }

/-- The session in which the script has shut the door. -/
def shutDoor : Session := callingDoor.spent.assigned (enter 0) door doorSchema "x" (.bool false)

/-- The session in which the script evaluates the binding. -/
def reevaluatingDoor : Session := (shutDoor.note (.act (.set "m" "x" (.bool false)) .nothing)).spent

/-- The moments of the evaluation. -/
def doorMoments : List Moment :=
  [.began, .read door "x", .read door "x", .changed door "x",
    .began, .read door "x", .read door "x", .ended, .ended]

theorem evaluation_boundDoor : Assoc.get? "b" boundDoor.names.bindings = some 0 ∧
    (boundDoor.evaluation (enter 1) 0 (doorBinding none true false)).outcome
      = some (.ok (.bool true)) ∧
    (boundDoor.callsOut (enter 1) doorWiring (doorBinding none true false)).map
      (fun e => e.2.natives[e.1.function.id]?) = [some (.host ⟨.sum, doorActions⟩)] ∧
    boundDoor.moments (enter 1) doorWiring (doorBinding none true false)
      (fun _ => [.changed door "x", .began, .read door "x", .read door "x", .ended])
        = [.read door "x", .read door "x", .changed door "x", .began, .read door "x",
          .read door "x", .ended] := by
  cbv

theorem assignment_callingDoor : callingDoor.actionsLeft ≠ 0 ∧
    Assoc.get? "m" callingDoor.names.objects = some door ∧
    callingDoor.schema? door = some doorSchema ∧
    callingDoor.attribute? door "x" = some (.bool true) := by
  cbv

theorem replies_shuttingDoor : (shuttingDoor.repliesTo (enter 0) door "x" (.bool false)).map
    (fun e => (e.1.action, e.2.issue 0, e.2.bindings))
      = [(.forward (some ⟨0, 0⟩) ⟨0, 1⟩, ⟨0, 1⟩, [doorBinding none false true])] := by
  cbv

theorem evaluation_reevaluatingDoor :
    (shutDoor.note (.act (.set "m" "x" (.bool false)) .nothing)).actionsLeft ≠ 0 ∧
    Assoc.get? "b" reevaluatingDoor.names.bindings = some 0 ∧
    reevaluatingDoor.bindings = [doorBinding none true true] ∧
    (reevaluatingDoor.evaluation (enter 0) 0 (doorBinding none true true)).outcome
      = some (.ok (.bool false)) ∧
    (reevaluatingDoor.callsOut (enter 0) doorWiring (doorBinding none true true)).length = 0 ∧
    reevaluatingDoor.moments (enter 0) doorWiring (doorBinding none true true) (fun _ => [])
      = [.read door "x", .read door "x"] := by
  cbv

theorem evaluatedDoor_eq :
    evaluatedDoor.bindings = [doorBinding (some (.ok (.bool true))) false false] ∧
      evaluatedDoor.declared? door "x" = some .observable := by
  cbv

theorem ready_doorSession : Ready doorSession doorCode doorScope := by
  refine .of_single rfl rfl rfl trivial ?_ ?_ ?_
  · intro v hv
    simp [doorCode, Code.ofInstructions] at hv
  · exact List.forall_mem_cons.mpr ⟨Nat.one_pos, List.forall_mem_singleton.mpr ⟨_, rfl, rfl⟩⟩
  · exact List.forall_mem_singleton.mpr trivial

theorem counted_doorSession : Counted doorSession :=
  .of_unobserved rfl rfl rfl (List.forall_mem_singleton.mpr rfl)

/-- The script shuts the door, which makes the binding dirty. -/
theorem proceedings_shutDoor :
    attempt (enter 0) callingDoor.spent (.set "m" "x" (.bool false)) = .ok (shutDoor, .nothing) ∧
      Proceedings doorWiring callingDoor.spent shutDoor [.changed door "x"] := by
  obtain ⟨-, hid, hschema, hx⟩ := assignment_callingDoor
  have hset : attempt (enter 0) callingDoor.spent (.set "m" "x" (.bool false))
      = .ok (shutDoor, .nothing) := setAttr_eq hid hschema rfl rfl
  have hreports : shuttingDoor.Reports door doorSchema "x" (.bool false) := by
    refine ⟨rfl, rfl, ?_⟩
    show ((callingDoor.attribute? door "x").getD .none).same (.bool false) = false
    rw [hx]
    rfl
  refine ⟨hset, Proceedings.assigned ?_⟩
  show Proceedings doorWiring shuttingDoor _ _
  refine Proceedings.set_evaluating (w := shuttingDoor) hschema trivial hreports fun e he => ?_
  have hmem := List.mem_map_of_mem (f := fun e : Observer Reaction × Session =>
    (e.1.action, e.2.issue 0, e.2.bindings)) he
  rw [replies_shuttingDoor, List.mem_singleton, Prod.mk.injEq, Prod.mk.injEq] at hmem
  obtain ⟨haction, hissue, hbindings⟩ := hmem
  refine ⟨⟨some ⟨0, 0⟩, haction.trans (congrArg _ hissue.symm)⟩, doorBinding none false true, ?_,
    rfl⟩
  rw [hbindings]
  rfl

/-- The script evaluates the binding, whose evaluation goes on. -/
theorem proceedings_reevaluatedDoor : ∃ w reply,
    attempt (enter 0) reevaluatingDoor (.evaluate "b") = .ok (w, reply) ∧
      Proceedings doorWiring reevaluatingDoor w
        [.began, .read door "x", .read door "x", .ended] := by
  obtain ⟨-, hid, hbindings, hout, hcalls, hmoments⟩ := evaluation_reevaluatingDoor
  have hB : reevaluatingDoor.bindings[0]? = some (doorBinding none true true) := by
    rw [hbindings]
    rfl
  have heval := evaluateNamed_eq hid hB hout
  have hnone := List.eq_nil_of_length_eq_zero hcalls
  have hall : [.began, .read door "x", .read door "x", .ended] = Moment.began ::
      (reevaluatingDoor.moments (enter 0) doorWiring (doorBinding none true true) (fun _ => [])
        ++ [.ended]) := by
    rw [hmoments]
    rfl
  rw [hall]
  have hends : (reevaluatingDoor.evaluation (enter 0) 0 (doorBinding none true true)).outcome
      ≠ none := by
    rw [hout]
    nofun
  exact ⟨_, _, heval, Proceedings.evaluate (bindingNamed_eq hid hB) hends
    (fun e he => absurd (hnone ▸ he) List.not_mem_nil)
    (fun e he => absurd (hnone ▸ he) List.not_mem_nil) heval⟩

theorem proceedings_callingDoor : Proceedings doorWiring callingDoor
    (runActions (enter 0) doorActions callingDoor)
    [.changed door "x", .began, .read door "x", .read door "x", .ended] := by
  obtain ⟨hset, hshut⟩ := proceedings_shutDoor
  obtain ⟨w, reply, heval, hproceedings⟩ := proceedings_reevaluatedDoor
  have hend : Proceedings doorWiring (w.note (.act (.evaluate "b") reply))
      (runActions (enter 0) [] (w.note (.act (.evaluate "b") reply))) [] :=
    Proceedings.aside Aside.refl
  exact Proceedings.act assignment_callingDoor.1 hset hshut
    (Proceedings.act evaluation_reevaluatingDoor.1 heval hproceedings hend)

theorem proceedings_evaluatedDoor : Proceedings doorWiring boundDoor evaluatedDoor doorMoments := by
  obtain ⟨hid, hout, hnatives, hmoments⟩ := evaluation_boundDoor
  have hB : boundDoor.bindings[0]? = some (doorBinding none true false) := rfl
  have heval : boundDoor.evaluateNamed (enter 1) "b"
      = .ok (evaluatedDoor, .result (.ok (.bool true))) := evaluateNamed_eq hid hB hout
  have hcall : ∀ e ∈ boundDoor.callsOut (enter 1) doorWiring (doorBinding none true false),
      e.2.natives[e.1.function.id]? = some (.host ⟨.sum, doorActions⟩) ∧
        e.2.calling e.1 = callingDoor := by
    obtain ⟨e, he, hnative⟩ := List.map_eq_singleton_iff.mp hnatives
    intro e' he'
    rw [he, List.mem_singleton] at he'
    subst he'
    refine ⟨hnative, ?_⟩
    rw [callingDoor, he]
    rfl
  have hall : doorMoments = Moment.began ::
      (boundDoor.moments (enter 1) doorWiring (doorBinding none true false)
        (fun _ => [.changed door "x", .began, .read door "x", .read door "x", .ended])
        ++ [.ended]) := by
    rw [hmoments]
    rfl
  have hends : (boundDoor.evaluation (enter 1) 0 (doorBinding none true false)).outcome ≠ none := by
    rw [hout]
    nofun
  rw [hall]
  refine Proceedings.evaluate (bindingNamed_eq hid hB) hends ?_ ?_ heval
  · intro e he
    obtain ⟨hnative, hcalling⟩ := hcall e he
    exact Proceedings.native hnative nofun (hcalling.symm ▸ proceedings_callingDoor)
  · intro e he _ v hv
    simp only [callNative, holding, (hcall e he).1, enter, carryOut, behave] at hv
    cases hv
    trivial

/-- **A clean binding may keep a result for which something was overlooked**: here the evaluation
that ended last had read what was changed before a nested evaluation made the binding clean. -/
theorem lost_by_outer_evaluation :
    ¬ ∀ (w₀ w₁ w : Session) (code instrumented : Code) (scope : Scope) (onInvalid : Invalidation)
      (b : Nat) (id : String) (B : Binding) (ms : List Moment), Ready w₀ code scope →
      Counted w₀ → w₀.makeBinding code scope {} onInvalid = .ok (w₁, b) →
      w₁.bindings[b]?.bind Binding.instrumented = some instrumented →
      Proceedings (w₀.nextWiring code instrumented scope) (w₁.nameBinding id b).1 w ms →
      w.bindings[b]? = some B → B.dirty = false → (holdings ms).ongoing = [] →
      ∀ o attr, w.declared? o attr = some .observable → ¬ Lost ms o attr := by
  intro hkept
  obtain ⟨hbindings, hobservable⟩ := evaluatedDoor_eq
  have hB : evaluatedDoor.bindings[0]? = some (doorBinding (some (.ok (.bool true))) false false) := by
    rw [hbindings]
    rfl
  have hlost : Lost doorMoments door "x" := by
    unfold Lost
    decide
  exact hkept doorSession _ evaluatedDoor doorCode watchedDoor doorScope (.script "b" []) 0 "b" _
    doorMoments ready_doorSession counted_doorSession makeBinding_door rfl proceedings_evaluatedDoor
    hB rfl rfl door "x" hobservable hlost

/-- In this session nothing was overlooked since the nested evaluation began. -/
theorem nothing_overlooked_door : evaluatedDoor.bindings
      = [doorBinding (some (.ok (.bool true))) false false] ∧
    Proceedings doorWiring boundDoor evaluatedDoor doorMoments ∧
    ¬ Overlooked doorMoments door "x" := by
  obtain ⟨hbindings, -⟩ := evaluatedDoor_eq
  have hB : evaluatedDoor.bindings[0]? = some (doorBinding (some (.ok (.bool true))) false false) := by
    rw [hbindings]
    rfl
  exact ⟨hbindings, proceedings_evaluatedDoor, (nothing_overlooked ready_doorSession
    counted_doorSession makeBinding_door rfl rfl rfl proceedings_evaluatedDoor hB rfl door "x").1⟩

end Door

end Session
end TrackedExpr
