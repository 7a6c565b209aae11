import TrackedExpr.Proofs.NativeCalls
import TrackedExpr.Proofs.Retracing
import TrackedExpr.Proofs.Tending

/-!
# Laws of the runs of a binding's code

While the instrumented code of a binding runs, a session changes in two ways only: the
side-calls in front of an instruction show a policy what the instruction is aimed at, and
native functions are called.  What is kept by both, turn by turn, is kept by a whole run.

**Definitions.**
* `Wiring.listener`: the policy that is shown what an instruction is aimed at;
* `Shows`, `Approaches`: an access is shown, and what the side-calls in front of an instruction
  do;
* `Turns`: the turn of the instruction itself;
* `Law`: what approaches and turns keep.

**Results.**
* `Tended.sideCall`, `Tended.served`: one side-call, and all in front of an instruction;
* `Tended.turns_goes`, `Tended.turns_ends`: one turn of the plain code;
* `Law.run`: a whole run.
-/

namespace TrackedExpr

open Code (position)

namespace Session

section Sites

variable {k : Wiring} {op : Instruction}

/-- The policy that is shown what an instruction is aimed at. -/
def Wiring.listener (k : Wiring) : Instruction → Nat
  | .loadAttr _ => k.attributes
  | _ => k.getattr

theorem Wiring.listener_mem (k : Wiring) (op : Instruction) : k.listener op ∈ k.policies := by
  cases op with
  | loadAttr a => exact List.mem_cons_self
  | _ => exact List.mem_cons_of_mem _ List.mem_cons_self

/-- Side-calls of a binding stand in front of what they are for. -/
theorem Wiring.Feeds.siteFor_ne {ref : NativeRef} (h : k.Feeds ref op) : siteFor op ref ≠ [] := by
  cases op with
  | loadAttr a => exact List.cons_ne_nil _ _
  | call form raw =>
      cases form with
      | plain => exact List.cons_ne_nil _ _
      | _ => exact h.elim
  | _ => exact h.elim

theorem Wiring.Feeds.not_outer {ref : NativeRef} (h : k.Feeds ref op) : ¬ k.Outer ref := by
  rintro ⟨hloads, hcalls⟩
  cases op with
  | loadAttr a => exact hloads (congrArg NativeRef.id h)
  | call form raw =>
      cases form with
      | plain => exact hcalls (congrArg NativeRef.id h)
      | _ => exact h.elim
  | _ => exact h.elim

end Sites

section Approaching

/-- An attribute of an object is shown to a policy, once or more often, while more is held on to. -/
inductive Shows (re : Reentry) (p : Nat) (o : ObjectRef) (attr : String) :
    Session → Session → Prop
  | once {w : Session} {pins : List Pin} :
      InGrip { w with pins := pins ++ w.pins } (.object o) →
      Shows re p o attr w
        { Session.see re p (.object o) attr { w with pins := pins ++ w.pins } with pins := w.pins }
  | again {w t u : Session} :
      Shows re p o attr w t →
      Shows re p o attr t u →
      Shows re p o attr w u

/-- What the side-calls in front of an instruction do: they show the policy of the instruction what
this is aimed at, if it is aimed at anything. -/
inductive Approaches (re : Reentry) (k : Wiring) (op : Instruction) (stack : List Value) :
    Session → Session → Prop
  | shows {o : ObjectRef} {attr : String} {w t : Session} :
      op.aim? stack = some (o, attr) →
      Shows re (k.listener op) o attr w t →
      Approaches re k op stack w t
  | nothing {w : Session} :
      op.aim? stack = none →
      Approaches re k op stack w w

variable {re : Reentry} {k : Wiring} {n p : Nat} {w t u : Session} {o : ObjectRef} {attr : String}
  {op : Instruction} {stack : List Value} {ref : NativeRef} {call : NativeCall}

theorem Shows.tended (h : Shows re p o attr w t) (hp : p ∈ k.policies) (hw : Tended k n w) :
    Tended k n t ∧ Lasts w t ∧ t.pins = w.pins := by
  induction h with
  | @once w pins hgrip =>
      have hmore : Untouched k w { w with pins := pins ++ w.pins } := hw.repinned _
      obtain ⟨hsaw, hlasts⟩ := (hmore.tended hw).see hp hgrip re attr
      exact ⟨(hsaw.repinned w.pins).tended hsaw, hlasts, rfl⟩
  | again _ _ ih ih' =>
      obtain ⟨ht, hlasts, hpins⟩ := ih hw
      obtain ⟨hu, hlasts', hpins'⟩ := ih' ht
      exact ⟨hu, hlasts.trans hlasts', hpins'.trans hpins⟩

theorem Shows.hasObject (h : Shows re p o attr w t) : w.HasObject o := by
  induction h with
  | once hgrip => exact (hgrip o rfl).1
  | again _ _ ih _ => exact ih

theorem Approaches.tended (h : Approaches re k op stack w t) (hw : Tended k n w) :
    Tended k n t ∧ Lasts w t ∧ t.pins = w.pins := by
  cases h with
  | shows _ hshows => exact hshows.tended (k.listener_mem op) hw
  | nothing _ => exact ⟨hw, Lasts.refl w, rfl⟩

theorem Approaches.trans (h : Approaches re k op stack w t) (h' : Approaches re k op stack t u) :
    Approaches re k op stack w u := by
  cases h with
  | nothing _ => exact h'
  | shows haim hshows =>
      cases h' with
      | nothing hnone => exact absurd (haim.symm.trans hnone) nofun
      | shows haim' hshows' =>
          obtain ⟨rfl, rfl⟩ := Prod.mk.inj (Option.some.inj (haim.symm.trans haim'))
          exact Approaches.shows haim (hshows.again hshows')

/-- An access that is shown to its policy, while more is held on to. -/
theorem approaches_of_access {v : Value} (haim : op.aim? stack = objectAccess? (some (v, attr)))
    {pins : List Pin} (hv : InGrip { w with pins := pins ++ w.pins } v) :
    Approaches re k op stack w
      { Session.see re (k.listener op) v attr { w with pins := pins ++ w.pins } with
        pins := w.pins } := by
  by_cases hobject : ∃ o, v = .object o
  · obtain ⟨o, rfl⟩ := hobject
    exact Approaches.shows haim (Shows.once hv)
  · rw [see_of_not_object fun o ho => hobject ⟨o, ho⟩]
    refine Approaches.nothing ?_
    rw [haim]
    cases v with
    | object o => exact absurd ⟨o, rfl⟩ hobject
    | _ => rfl

/-- The side-call in front of a call is shown what the call is aimed at. -/
theorem approaches_of_told {raw : UInt16} {function : Value} {below : List Value}
    (hdrop : stack.drop (ArgSpec.decode raw).slots = function :: below)
    (hstack : ∀ v ∈ stack, v.Among w.HasObject k.Outer) {pins : List Pin}
    (hpins : .value (.tuple (callSlots raw stack)) ∈ pins) :
    Approaches re k (.call .plain raw) stack w
      { tellCall re (.policy k.getattr)
          ⟨function, (splitArguments (callSlots raw stack) (ArgSpec.decode raw)).1,
            (splitArguments (callSlots raw stack) (ArgSpec.decode raw)).2⟩
          { w with pins := pins ++ w.pins } with pins := w.pins } := by
  have haim := Instruction.aim?_call hdrop
  simp only [tellCall]
  cases haccess : getattrAccess? function
      (splitArguments (callSlots raw stack) (ArgSpec.decode raw)).1
      (splitArguments (callSlots raw stack) (ArgSpec.decode raw)).2 with
  | none =>
      rw [haccess] at haim
      exact Approaches.nothing haim
  | some access =>
      obtain ⟨target, attr⟩ := access
      rw [haccess] at haim
      obtain ⟨hslot, hmem⟩ := target_mem_callSlots haccess
      refine approaches_of_access haim ?_
      rintro o rfl
      exact ⟨hstack _ hmem, _, List.mem_append_left _ hpins,
        Value.mem_itemObjects.mpr ⟨.object o, hslot, List.mem_singleton_self o⟩⟩

/-- **A side-call answers its site**, and shows its policy what is aimed at next. -/
theorem Tended.sideCall (h : Tended k n w) (hfeeds : k.Feeds ref op)
    (hstack : ∀ v ∈ stack, v.Among w.HasObject k.Outer)
    (hcall : sideCallAt ref op stack = some call) (re : Reentry) :
    ∃ t, (host re).call call w = (t, .ok (siteAnswer op stack)) ∧
      Approaches re k op stack w t := by
  cases op with
  | loadAttr a =>
      obtain rfl : ref = k.loads := hfeeds
      cases stack with
      | nil => cases hcall
      | cons v below =>
          cases hcall
          refine ⟨_, callNative_loads h.loads re v a below, approaches_of_access rfl ?_⟩
          rintro o rfl
          exact ⟨hstack _ List.mem_cons_self, .object o,
            List.mem_append_left _ List.mem_cons_self, List.mem_singleton_self o⟩
  | call form raw =>
      cases form with
      | plain =>
          obtain rfl : ref = k.calls := hfeeds
          simp only [sideCallAt] at hcall
          cases hdrop : stack.drop (ArgSpec.decode raw).slots with
          | nil =>
              rw [hdrop] at hcall
              cases hcall
          | cons function below =>
              rw [hdrop] at hcall
              refine ⟨_, callNative_calls h.calls hdrop re (Option.some.inj hcall).symm, ?_⟩
              cases hcall
              exact approaches_of_told hdrop hstack (List.mem_cons_of_mem _ List.mem_cons_self)
      | _ => exact hfeeds.elim
  | _ => exact hfeeds.elim

/-- The side-calls in front of an instruction that has its operands answer, and each shows its
policy what the instruction is aimed at. -/
theorem Tended.served (re : Reentry) (hpops : (op.effect false).pops ≤ stack.length) :
    ∀ {refs : List NativeRef} {w : Session}, Tended k n w → (∀ ref ∈ refs, k.Feeds ref op) →
      (∀ v ∈ stack, v.Among w.HasObject k.Outer) →
        ∃ t, (host re).Served op stack refs w t ∧
          (refs = [] ∧ t = w ∨ Approaches re k op stack w t)
  | [], w, _, _, _ => ⟨w, Host.Served.nil w, Or.inl ⟨rfl, rfl⟩⟩
  | ref :: refs, w, h, hfeeds, hstack => by
      have href := hfeeds ref List.mem_cons_self
      obtain ⟨call, hcall⟩ := sideCallAt_isSome href.siteFor_ne hpops
      obtain ⟨t, hanswer, hfirst⟩ := h.sideCall href hstack hcall re
      obtain ⟨ht, hlasts, -⟩ := hfirst.tended h
      obtain ⟨u, hserved, hrest⟩ := served re hpops ht
        (fun r hr => hfeeds r (List.mem_cons_of_mem _ hr))
        fun v hv => (hstack v hv).mono (fun _ ho => hlasts.hasObject ho) fun _ hf => hf
      refine ⟨u, Host.Served.cons hcall hanswer hserved, Or.inr ?_⟩
      rcases hrest with ⟨-, rfl⟩ | hrest
      · exact hfirst
      · exact hfirst.trans hrest

/-- The sites in front of an instruction show its policy what it is aimed at. -/
theorem Tended.approach {verify : Bool}
    (hinstrumented : instrument verify k.plain (k.monitors.map StockMonitor.monitor) = .ok k.code)
    (h : Tended k n w) {f : Frame} (hreach : Frame.Reachable k.plain k.scope f)
    (hstack : ∀ v ∈ f.stack, v.Among w.HasObject k.Outer)
    (hop : k.plain.instructions[f.pc]? = some op) (hpops : (op.effect false).pops ≤ f.stack.length)
    (hserved : (host re).Served op f.stack (sideCallsAt (k.insertions verify) f.pc) w t) :
    Approaches re k op f.stack w t := by
  obtain ⟨t', hserved', happroach⟩ := h.served re hpops (Wiring.Proper.feeds_of_mem hop) hstack
  obtain rfl := hserved.unique hserved'
  rcases happroach with ⟨hnone, rfl⟩ | happroach
  · refine Approaches.nothing (Option.eq_none_iff_forall_ne_some.mpr fun x hx => ?_)
    exact Wiring.Proper.sideCallsAt_ne_nil hinstrumented hreach hop hx hnone
  · exact happroach

end Approaching

section Turning

/-- The turn of an instruction of the instrumented code that belongs to no site: it makes a native
call that is allowed, or none. -/
def Turns (re : Reentry) (k : Wiring) (allowed : NativeCall × Session → Prop) (g : Frame)
    (t u : Session) : Prop :=
  g.nativeCall? k.Outer t.attribute? k.code k.scope = none ∧ u = t ∨
    ∃ call, g.nativeCall? k.Outer t.attribute? k.code k.scope = some call ∧ allowed (call, t) ∧
      u = (callNative re call t).1

variable {re : Reentry} {k : Wiring} {n : Nat} {t u : Session} {f f' g : Frame}
  {allowed : NativeCall × Session → Prop}

theorem Tended.nativeCall?_calling (h : Tended k n t)
    (hstack : ∀ v ∈ f.stack, v.Among t.HasObject k.Outer) {call : NativeCall}
    (hstep : f.step t.attribute? k.plain k.scope = .calling call f') :
    f.nativeCall? k.Outer t.attribute? k.plain k.scope = some call ∧
      ∀ v ∈ f'.stack, v.Among t.HasObject k.Outer := by
  have hamong := Frame.step_among h.stock hstack
  rw [hstep] at hamong
  obtain ⟨houter, hbelow⟩ := hamong
  exact ⟨by simp [Frame.nativeCall?, hstep, Progress.native?, houter], hbelow⟩

variable (hsame : g.nativeCall? k.Outer t.attribute? k.code k.scope
    = f.nativeCall? k.Outer t.attribute? k.plain k.scope)
  (hallowed : ∀ call, g.nativeCall? k.Outer t.attribute? k.code k.scope = some call →
    allowed (call, t))
include hsame hallowed

/-- A turn that goes on. -/
theorem Tended.turns_goes (h : Tended k n t) (hstack : ∀ v ∈ f.stack, v.Among t.HasObject k.Outer)
    (hturn : (host re).turn k.plain k.scope f t = .goes f' u) :
    Turns re k allowed g t u ∧ (Lasts t u →
      (∀ call, g.nativeCall? k.Outer t.attribute? k.code k.scope = some call →
        ResultAmong (callNative re call t).1.HasObject k.Outer (callNative re call t).2) →
      ∀ v ∈ f'.stack, v.Among u.HasObject k.Outer) := by
  rcases Host.turn_goes hturn with ⟨hstep, rfl⟩ | ⟨call, below, v, hstep, hanswer, rfl⟩
  · have hstep : f.step u.attribute? k.plain k.scope = .running f' := hstep
    have hamong := Frame.step_among h.stock hstack
    rw [hstep] at hamong
    refine ⟨Or.inl ⟨?_, rfl⟩, fun _ _ => hamong⟩
    rw [hsame, Frame.nativeCall?, hstep]
    rfl
  · obtain ⟨hcall, hbelow⟩ := h.nativeCall?_calling hstack hstep
    rw [← hsame] at hcall
    have hanswer : callNative re call t = (u, .ok v) := hanswer
    refine ⟨Or.inr ⟨call, hcall, hallowed call hcall, by rw [hanswer]⟩, ?_⟩
    intro hlasts hresult x hx
    have hresult := hresult call hcall
    rw [hanswer] at hresult
    rcases List.mem_cons.mp hx with rfl | hx
    · exact resultAmong_ok.mp hresult
    · exact (hbelow x hx).mono (fun _ ho => hlasts.hasObject ho) fun _ hf => hf

/-- A turn that ends the run. -/
theorem Tended.turns_ends (h : Tended k n t) (hstack : ∀ v ∈ f.stack, v.Among t.HasObject k.Outer)
    {r : Outcome} (hturn : (host re).turn k.plain k.scope f t = .ends r u) :
    Turns re k allowed g t u := by
  rcases Host.turn_ends hturn with ⟨v, hstep, -, rfl⟩ | ⟨e, hstep, -, rfl⟩ |
    ⟨call, below, e, hstep, hanswer, -⟩
  · have hstep : f.step u.attribute? k.plain k.scope = .finished v := hstep
    refine Or.inl ⟨?_, rfl⟩
    rw [hsame, Frame.nativeCall?, hstep]
    rfl
  · have hstep : f.step u.attribute? k.plain k.scope = .failed e := hstep
    refine Or.inl ⟨?_, rfl⟩
    rw [hsame, Frame.nativeCall?, hstep]
    rfl
  · obtain ⟨hcall, -⟩ := h.nativeCall?_calling hstack hstep
    rw [← hsame] at hcall
    have hanswer : callNative re call t = (u, .error e) := hanswer
    exact Or.inr ⟨call, hcall, hallowed call hcall, by rw [hanswer]⟩

end Turning

section Laws

/-- What is kept while the instrumented code of a binding runs: `holds` is true of every session on
the way, and `gives` relates two sessions by what the turns between them contribute to an account
of the run. -/
structure Law (re : Reentry) (k : Wiring) (allowed : NativeCall × Session → Prop)
    (holds : Session → Prop) {μ : Type} (mark : Frame → Session → List μ)
    (gives : List μ → Session → Session → Prop) : Prop where
  tended : ∀ {w}, holds w → ∃ n, Tended k n w
  refl : ∀ {w}, holds w → gives [] w w
  trans : ∀ {w t u ms ms'}, holds w → gives ms w t → gives ms' t u → gives (ms ++ ms') w u
  idle : ∀ {g}, g.aim? k.code = none →
    (∀ read, g.nativeCall? k.Outer read k.code k.scope = none) → ∀ w, mark g w = []
  approach : ∀ {op stack w t}, holds w → Approaches re k op stack w t → holds t
  answer : ∀ {e}, allowed e → holds e.2 →
    ResultAmong (callNative re e.1 e.2).1.HasObject k.Outer (callNative re e.1 e.2).2
  turn : ∀ {g op w t u}, k.code.instructions[g.pc]? = some op → holds w →
    Approaches re k op g.stack w t → Turns re k allowed g t u →
      holds u ∧ Lasts t u ∧ gives (mark g t) w u

variable {re : Reentry} {k : Wiring} {allowed : NativeCall × Session → Prop}
  {holds : Session → Prop} {μ : Type} {mark : Frame → Session → List μ}
  {gives : List μ → Session → Session → Prop}

/-- **What turns keep, a whole run keeps.** -/
theorem Law.run {verify : Bool} (hlaw : Law re k allowed holds mark gives)
    (hinstrumented : instrument verify k.plain (k.monitors.map StockMonitor.monitor) = .ok k.code)
    (m : Nat) : ∀ {f : Frame} {w : Session} {r : Outcome}, holds w →
      Frame.Reachable k.plain k.scope f → (∀ v ∈ f.stack, v.Among w.HasObject k.Outer) →
      ((host re).run k.code k.scope m (f.relocate (k.insertions verify)) w).outcome = some r →
      (∀ e ∈ (host re).nativeCalls k.Outer k.code k.scope m (f.relocate (k.insertions verify)) w,
        allowed e) →
      holds ((host re).run k.code k.scope m (f.relocate (k.insertions verify)) w).state ∧
        gives ((host re).chronicle k.code k.scope mark m (f.relocate (k.insertions verify)) w) w
          ((host re).run k.code k.scope m (f.relocate (k.insertions verify)) w).state := by
  have hsplice : k.plain.splice (k.insertions verify) = .ok k.code :=
    splice_of_instrument hinstrumented
  have hsites : SitesOnly k.plain (k.insertions verify) k.Feeds := Wiring.Proper.sitesOnly_feeds
  have hinner : ∀ i, ∀ ref ∈ sideCallsAt (k.insertions verify) i, ¬ k.Outer ref := by
    intro i ref href
    obtain ⟨op, -, hfeeds⟩ := hsites.of_mem href
    exact hfeeds.not_outer
  -- the frames of sites contribute nothing, neither to the account nor to the native calls
  have hquiet : ∀ {i : Nat} {x : Frame}, x.Aside (sideCallsAt (k.insertions verify) i) k.code →
      ∀ read, x.nativeCall? k.Outer read k.code k.scope = none :=
    fun hx read => Frame.nativeCall?_of_aside hx (hinner _) read k.scope
  have hidle : ∀ {i : Nat} {x : Frame}, x.Aside (sideCallsAt (k.insertions verify) i) k.code →
      ∀ u, mark x u = [] := fun hx => hlaw.idle hx.1 (hquiet hx)
  induction m using Nat.strongRecOn with
  | ind m ih =>
      intro f w r h hreach hstack hout hallowed
      obtain ⟨n, hw⟩ := hlaw.tended h
      rw [Host.nativeCalls_eq_chronicle] at hallowed
      have hblock : (host re).Block k.plain k.code (k.insertions verify) k.scope f w :=
        Host.block hsplice hsites f w fun op hop hpops =>
          (hw.served re hpops (Wiring.Proper.feeds_of_mem hop) hstack).imp fun _ ht => ht.1
      cases hblock with
      | @stops fs g e _ hpath haside hg hturn =>
          obtain ⟨d, rfl⟩ := hpath.exceeded hout
          rw [hpath.run, Host.run_succ, hturn, hpath.chronicle fun x hx => hidle (haside x hx),
            Host.chronicle_ends _ hturn, hidle hg]
          exact ⟨h, hlaw.refl h⟩
      | @runs fs op t hop hpops hserved hpath haside hturn hnative =>
          obtain ⟨d, rfl⟩ := hpath.exceeded hout
          have happroach := hw.approach hinstrumented hreach hstack hop hpops hserved
          have ht := hlaw.approach h happroach
          obtain ⟨htended, hlasts, -⟩ := happroach.tended hw
          have hstack' : ∀ v ∈ f.stack, v.Among t.HasObject k.Outer := fun v hv =>
            (hstack v hv).mono (fun _ ho => hlasts.hasObject ho) fun _ hf => hf
          have hop' : k.code.instructions[position (k.insertions verify) f.pc]? = some op := by
            rw [Code.getElem?_position hsplice, hop]
          have hsame : Frame.nativeCall? k.Outer t.attribute? k.code k.scope
              ⟨f.stack, position (k.insertions verify) f.pc⟩
                = f.nativeCall? k.Outer t.attribute? k.plain k.scope := by
            rw [Frame.nativeCall?, Frame.nativeCall?, hnative]
          rw [hpath.chronicle fun x hx u => by rw [hquiet (haside x hx)]; rfl] at hallowed
          rw [hpath.run, Host.run_succ, hpath.chronicle fun x hx => hidle (haside x hx)]
          cases hplain : (host re).turn k.plain k.scope f t with
          | ends r' u =>
              rw [hplain] at hturn
              rw [Host.chronicle_ends _ hturn] at hallowed
              rw [hturn, Host.chronicle_ends _ hturn]
              have hturns : Turns re k allowed ⟨f.stack, position (k.insertions verify) f.pc⟩ t u :=
                htended.turns_ends hsame (fun call hcall => hallowed _ (by simp [host, hcall]))
                  hstack' hplain
              obtain ⟨hu, -, hgives⟩ := hlaw.turn
                (g := ⟨f.stack, position (k.insertions verify) f.pc⟩) hop' h happroach hturns
              exact ⟨hu, hgives⟩
          | goes f' u =>
              rw [hplain] at hturn
              rw [Host.chronicle_goes _ hturn, ← Host.nativeCalls_eq_chronicle] at hallowed
              rw [hturn, Host.chronicle_goes _ hturn]
              have hhere : ∀ call, Frame.nativeCall? k.Outer t.attribute? k.code k.scope
                  ⟨f.stack, position (k.insertions verify) f.pc⟩ = some call →
                    allowed (call, t) :=
                fun call hcall => hallowed _ (List.mem_append_left _ (by simp [host, hcall]))
              obtain ⟨hturns, hstack''⟩ := htended.turns_goes hsame hhere hstack' hplain
              obtain ⟨hu, hlasts', hgives⟩ := hlaw.turn
                (g := ⟨f.stack, position (k.insertions verify) f.pc⟩) hop' h happroach hturns
              have hrest : ((host re).run k.code k.scope d
                  (f'.relocate (k.insertions verify)) u).outcome = some r := by
                rw [← hout, hpath.run (d + 1), Host.run_succ, hturn]
                rfl
              obtain ⟨hend, hgives'⟩ := ih d (by omega) hu (reachable_of_turn hreach hplain)
                (hstack'' hlasts' fun call hcall => hlaw.answer (hhere call hcall) ht) hrest
                fun e he => hallowed e (List.mem_append_right _ he)
              exact ⟨hend, hlaw.trans h hgives hgives'⟩

end Laws

end Session
end TrackedExpr
