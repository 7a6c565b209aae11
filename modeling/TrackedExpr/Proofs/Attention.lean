import TrackedExpr.Proofs.Conduct

/-!
# What an evaluation is attentive to

While the instrumented code of a binding runs, each policy comes to listen to what the
instructions of its kind are aimed at, as far as it can be observed, and to nothing else.
The code may call native functions, which may do anything that can be done around the
binding; the account is exact if they leave the binding alone.

**Definitions.**
* `Wiring.spot?`, `Wiring.shown?`: what an instruction, and the next step, shows to a policy;
* `Stretch`: what a stretch of a run does to a binding;
* `Bears`, `Spares`: a native call that is allowed, and calls that leave the binding alone;
* `pending`: the native call of a turn;
* `Recounted`: a run that is a stretch.

**Results.**
* `Approaches.stretch`, `Turns.stretch`: the side-calls in front of an instruction, and its turn;
* `Tended.run`: a whole run.
-/

namespace TrackedExpr

namespace Session

section Shows

/-- What an instruction shows to a policy. -/
def Wiring.spot? (k : Wiring) (p : Nat) (op : Instruction) (stack : List Value) :
    Option (ObjectRef × String) :=
  if p = k.listener op then op.aim? stack else none

/-- What the next step shows to a policy. -/
def Wiring.shown? (k : Wiring) (p : Nat) (c : Code) (f : Frame) : Option (ObjectRef × String) :=
  c.instructions[f.pc]?.bind fun op => k.spot? p op f.stack

variable {k : Wiring} {p : Nat} {op : Instruction} {stack : List Value} {c : Code} {f : Frame}

theorem Wiring.spot?_eq_none (h : op.aim? stack = none) : k.spot? p op stack = none := by
  rw [spot?, h, ite_self]

theorem Wiring.shown?_eq_none (h : f.aim? c = none) : k.shown? p c f = none := by
  rw [shown?, Option.bind_eq_none_iff]
  intro op hop
  rw [Frame.aim?_eq hop] at h
  exact spot?_eq_none h

theorem Wiring.shown?_eq (hop : c.instructions[f.pc]? = some op) :
    k.shown? p c f = k.spot? p op f.stack := by
  rw [shown?, hop, Option.bind_some]

end Shows

/-- What a stretch of a run of the instrumented code does to a binding, with the number of resets:
what is done is allowed, and, if it is calm and the binding is held on to, each policy comes to
listen to what it was shown and can be observed. -/
structure Stretch (k : Wiring) (calm : Prop) (n : Nat) (spots : Nat → List (ObjectRef × String))
    (w w' : Session) : Prop where
  handles : Handles k w w' n
  pins : w'.pins = w.pins
  known : ∀ p, ∀ x ∈ spots p, w'.HasObject x.1
  attends : calm → .binding k.binding ∈ w.pins → ∀ p ∈ k.policies, ∀ x a,
    Attends w' p x a ↔ Attends w p x a ∨ (x, a) ∈ spots p ∧ w'.declared? x a = some .observable

section Stretches

variable {k : Wiring} {calm calm' : Prop} {n m i : Nat}
  {spots spots' : Nat → List (ObjectRef × String)} {w w' w'' : Session}

theorem Stretch.refl (h : Furnished k w) (calm : Prop) : Stretch k calm 0 (fun _ => []) w w where
  handles := Handles.elsewhere (Untouched.refl h)
  pins := rfl
  known := fun _ _ hx => absurd hx List.not_mem_nil
  attends := fun _ _ _ _ _ _ => by simp

theorem Stretch.mono (h : Stretch k calm n spots w w') (hcalm : calm' → calm) :
    Stretch k calm' n spots w w' :=
  ⟨h.handles, h.pins, h.known, fun hc => h.attends (hcalm hc)⟩

theorem Stretch.trans (h : Stretch k calm n spots w w') (h' : Stretch k calm m spots' w' w'')
    (hw : Tended k i w) :
    Stretch k calm (n + m) (fun p => spots p ++ spots' p) w w'' := by
  obtain ⟨hw', -⟩ := h.handles.tended hw
  obtain ⟨-, hlasts⟩ := h'.handles.tended hw'
  constructor
  · exact h.handles.trans h'.handles
  · exact h'.pins.trans h.pins
  · intro p x hx
    rcases List.mem_append.mp hx with hx | hx
    · exact hlasts.hasObject (h.known p x hx)
    · exact h'.known p x hx
  · intro hcalm hpin p hp x a
    have hpin' : .binding k.binding ∈ w'.pins := h.pins ▸ hpin
    rw [h'.attends hcalm hpin' p hp, h.attends hcalm hpin p hp, List.mem_append, or_and_right,
      or_assoc]
    -- what was shown before is declared as it was
    have hdeclared : (x, a) ∈ spots p → w''.declared? x a = w'.declared? x a :=
      fun hx => hlasts.declared? (h.known p (x, a) hx) a
    have hsame : (x, a) ∈ spots p ∧ w'.declared? x a = some .observable ↔
        (x, a) ∈ spots p ∧ w''.declared? x a = some .observable :=
      and_congr_right fun hx => by rw [hdeclared hx]
    rw [hsame]

/-- A stretch in which the same was shown. -/
theorem Stretch.congr (h : Stretch k calm n spots w w')
    (hspots : ∀ p x, x ∈ spots' p ↔ x ∈ spots p) : Stretch k calm n spots' w w' where
  handles := h.handles
  pins := h.pins
  known := fun p x hx => h.known p x ((hspots p x).mp hx)
  attends := by
    intro hcalm hpin p hp x a
    rw [hspots]
    exact h.attends hcalm hpin p hp x a

end Stretches

section Approaching

variable {re : Reentry} {k : Wiring} {n p : Nat} {w t : Session} {o : ObjectRef} {attr : String}
  {op : Instruction} {stack : List Value}

/-- A policy that is shown an attribute comes to listen to it, if it can be observed. -/
theorem Shows.stretch (h : Shows re p o attr w t) (hp : p ∈ k.policies) (hw : Tended k n w) :
    Stretch k True 0 (fun q => if q = p then [(o, attr)] else []) w t := by
  induction h with
  | @once w pins hgrip =>
      have hmore : Untouched k w { w with pins := pins ++ w.pins } := hw.repinned _
      have hmoretended := hmore.tended hw
      obtain ⟨hsaw, hlasts⟩ := hmoretended.see hp hgrip re attr
      have hspot : ∀ q x a, (x, a) ∈ (if q = p then [(o, attr)] else []) ↔
          q = p ∧ Value.object o = .object x ∧ a = attr := by
        intro q x a
        split <;> simp_all [eq_comm]
      constructor
      · exact (Handles.elsewhere hmore).trans
          ((Handles.see hp hgrip).trans (Handles.elsewhere (hsaw.repinned w.pins)))
      · rfl
      · rintro q ⟨x, a⟩ hx
        obtain ⟨-, hx, -⟩ := (hspot q x a).mp hx
        exact hlasts.hasObject (hgrip x hx).1
      · intro _ hpin q _ x a
        obtain ⟨hchannel, hpolicies⟩ := hmoretended.alive (List.mem_append_right _ hpin)
        have hattends := @Tended.attends_see k n { w with pins := pins ++ w.pins } p q x a
          hmoretended hp (.object o) hgrip re attr (hpolicies p hp) hchannel
        refine hattends.trans (or_congr Iff.rfl ?_)
        rw [hspot, and_assoc, and_assoc]
        refine and_congr_right fun _ => and_congr_right fun hx => ?_
        have hobject := (hgrip x hx).1
        constructor
        · rintro ⟨rfl, hobservable⟩
          exact ⟨rfl, (hlasts.declared? hobject a).trans hobservable⟩
        · rintro ⟨rfl, hobservable⟩
          exact ⟨rfl, (hlasts.declared? hobject a).symm.trans hobservable⟩
  | again hfirst _ ih ih' =>
      refine ((ih hw).trans (ih' (hfirst.tended hp hw).1) hw).congr fun q x => ?_
      rw [List.mem_append, or_self]

/-- **The side-calls in front of an instruction** show its policy what the instruction is aimed
at. -/
theorem Approaches.stretch (h : Approaches re k op stack w t) (hw : Tended k n w) :
    Stretch k True 0 (fun p => (k.spot? p op stack).toList) w t := by
  cases h with
  | shows haim hshows =>
      refine (hshows.stretch (k.listener_mem op) hw).congr fun p x => ?_
      rw [Wiring.spot?, haim]
      split <;> exact Iff.rfl
  | nothing haim =>
      refine (Stretch.refl hw.toFurnished True).congr fun p x => ?_
      rw [Wiring.spot?_eq_none haim]
      exact Iff.rfl

end Approaching

section Runs

/-- A native call that a binding can stand, with the number of resets: it does what may be done
around the binding, and answers what the session has. -/
structure Bears (re : Reentry) (k : Wiring) (e : NativeCall × Session) (n : Nat) : Prop where
  handles : ∀ {m : Nat}, Tended k m e.2 → Handles k e.2 (callNative re e.1 e.2).1 n
  answer : Furnished k e.2 →
    ResultAmong (callNative re e.1 e.2).1.HasObject k.Outer (callNative re e.1 e.2).2

/-- Native calls that leave a binding alone. -/
def Spares (re : Reentry) (k : Wiring) (calls : List (NativeCall × Session)) : Prop :=
  ∀ e ∈ calls, Furnished k e.2 → Untouched k e.2 (callNative re e.1 e.2).1

variable {re : Reentry} {k : Wiring} {n : Nat} {w t u : Session} {f g : Frame}
  {resets : NativeCall × Session → Nat}

/-- The native call of a turn, with the session in which it is made. -/
def pending (k : Wiring) (c : Code) (f : Frame) (w : Session) : List (NativeCall × Session) :=
  ((f.nativeCall? k.Outer w.attribute? c k.scope).map fun call => (call, w)).toList

/-- **The turn of an instruction** shows nothing to the policies. -/
theorem Turns.stretch (h : Turns re k (fun e => Bears re k e (resets e)) g t u)
    (ht : Tended k n t) : Stretch k (Spares re k (pending k k.code g t))
      ((pending k k.code g t).map resets).sum (fun _ => []) t u := by
  rcases h with ⟨hnone, rfl⟩ | ⟨call, hcall, ⟨hhandles, -⟩, rfl⟩
  · rw [pending, hnone]
    exact Stretch.refl ht.toFurnished _
  · have hpending : pending k k.code g t = [(call, t)] := by
      rw [pending, hcall]
      rfl
    rw [hpending, List.map_singleton, List.sum_singleton]
    refine ⟨hhandles ht, rfl, fun _ _ hx => absurd hx List.not_mem_nil, ?_⟩
    intro hspares _ p hp x a
    have huntouched := hspares (call, t) (List.mem_singleton_self _) ht.toFurnished
    rw [ht.attends_congr hp huntouched.channel (huntouched.policies p hp)]
    simp

/-- The frame and the session of a turn, if the turn shows anything or makes a native call. -/
def noted (k : Wiring) (g : Frame) (w : Session) : List (Frame × Session) :=
  if g.aim? k.code = none ∧ pending k k.code g w = [] then [] else [(g, w)]

theorem flatMap_noted {ν : Type} (F : Frame × Session → List ν)
    (hF : g.aim? k.code = none → pending k k.code g w = [] → F (g, w) = []) :
    (noted k g w).flatMap F = F (g, w) := by
  unfold noted
  split
  · next hquiet => exact (hF hquiet.1 hquiet.2).symm
  · exact List.flatMap_singleton F (g, w)

/-- What the turns of a stretch tell of it. -/
def Recounts (re : Reentry) (k : Wiring) (resets : NativeCall × Session → Nat)
    (turns : List (Frame × Session)) (w w' : Session) : Prop :=
  Stretch k (Spares re k (turns.flatMap fun e => pending k k.code e.1 e.2))
    ((turns.flatMap fun e => pending k k.code e.1 e.2).map resets).sum
    (fun p => turns.flatMap fun e => (k.shown? p k.code e.1).toList) w w'

/-- A run of the instrumented code is a stretch, which its native calls and the frames that it
visits tell of. -/
def Recounted (re : Reentry) (k : Wiring) (resets : NativeCall × Session → Nat) (m : Nat)
    (f : Frame) (w : Session) : Prop :=
  Stretch k (Spares re k ((host re).nativeCalls k.Outer k.code k.scope m f w))
    (((host re).nativeCalls k.Outer k.code k.scope m f w).map resets).sum
    (fun p => ((host re).visited k.code k.scope m f w).filterMap (k.shown? p k.code))
    w ((host re).run k.code k.scope m f w).state

theorem law_recounts (re : Reentry) (k : Wiring) (resets : NativeCall × Session → Nat) :
    Law re k (fun e => Bears re k e (resets e)) (fun w => ∃ n, Tended k n w) (noted k)
      (Recounts re k resets) where
  tended := id
  refl := by
    rintro w ⟨n, hw⟩
    exact Stretch.refl hw.toFurnished _
  trans := by
    rintro w t u ts ts' ⟨n, hw⟩ h h'
    unfold Recounts at h h' ⊢
    simp only [List.flatMap_append, List.map_append, List.sum_append]
    refine (h.mono ?_).trans (h'.mono ?_) hw
    · exact fun hspares e he => hspares e (List.mem_append_left _ he)
    · exact fun hspares e he => hspares e (List.mem_append_right _ he)
  idle := by
    intro g haim hnative w
    have hpending : pending k k.code g w = [] := by
      rw [pending, hnative]
      rfl
    exact if_pos ⟨haim, hpending⟩
  approach := by
    rintro op stack w t ⟨n, hw⟩ happroach
    exact ⟨n, (happroach.tended hw).1⟩
  answer := by
    rintro e hbears ⟨n, hw⟩
    exact hbears.answer hw.toFurnished
  turn := by
    rintro g op w t u hop ⟨n, hw⟩ happroach hturns
    obtain ⟨ht, -, -⟩ := happroach.tended hw
    have hstretch := hturns.stretch ht
    obtain ⟨hu, hlasts⟩ := hstretch.handles.tended ht
    refine ⟨⟨_, hu⟩, hlasts, ?_⟩
    -- the sites show what the instruction is aimed at, and the turn shows nothing more
    have hboth := ((happroach.stretch hw).mono fun _ => trivial).trans hstretch hw
    rw [Nat.zero_add] at hboth
    have hcalls : (noted k g t).flatMap (fun e => pending k k.code e.1 e.2)
        = pending k k.code g t := flatMap_noted _ fun _ hpending => hpending
    have hshown : ∀ p, (noted k g t).flatMap (fun e => (k.shown? p k.code e.1).toList)
        = (k.spot? p op g.stack).toList := by
      intro p
      rw [← Wiring.shown?_eq hop]
      exact flatMap_noted _ fun haim _ => by rw [Wiring.shown?_eq_none haim]; rfl
    unfold Recounts
    rw [hcalls, funext hshown]
    exact hboth.congr fun p x => by rw [List.append_nil]

/-- **What a run of the instrumented code does to a binding**: each policy comes to listen to what
it is shown and can be observed, and to nothing else, if native functions leave the binding
alone. -/
theorem Tended.run {verify : Bool}
    (hinstrumented : instrument verify k.plain (k.monitors.map StockMonitor.monitor) = .ok k.code)
    (re : Reentry) (resets : NativeCall × Session → Nat) (m : Nat) {r : Outcome}
    (h : Tended k n w) (hreach : Frame.Reachable k.plain k.scope f)
    (hstack : ∀ v ∈ f.stack, v.Among w.HasObject k.Outer)
    (hout : ((host re).run k.code k.scope m (f.relocate (k.insertions verify)) w).outcome = some r)
    (hbears : ∀ e ∈ (host re).nativeCalls k.Outer k.code k.scope m
      (f.relocate (k.insertions verify)) w, Bears re k e (resets e)) :
    Recounted re k resets m (f.relocate (k.insertions verify)) w := by
  obtain ⟨-, hrecounts⟩ :=
    (law_recounts re k resets).run hinstrumented m ⟨n, h⟩ hreach hstack hout hbears
  have hcalls : ∀ g w, (noted k g w).flatMap (fun e => pending k k.code e.1 e.2)
      = pending k k.code g w := fun g w => flatMap_noted _ fun _ hpending => hpending
  have hshown : ∀ p g w, (noted k g w).flatMap (fun e => (k.shown? p k.code e.1).toList)
      = (k.shown? p k.code g).toList := fun p g w =>
    flatMap_noted _ fun haim _ => by rw [Wiring.shown?_eq_none haim]; rfl
  unfold Recounts at hrecounts
  unfold Recounted
  simp only [Host.flatMap_chronicle, hcalls, hshown] at hrecounts
  simp only [Host.nativeCalls_eq_chronicle, Host.filterMap_visited]
  exact hrecounts

end Runs

end Session
end TrackedExpr
