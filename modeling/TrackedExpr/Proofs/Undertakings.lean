import TrackedExpr.Proofs.Neighbours

/-!
# What goes on beside a binding

The work on one binding resets its channel, marks it, shows accesses to its policies and prunes
them, and takes its names away.  None of this touches the channel, the policies or the names of
another binding, or the observers that tell it of changes; neither does a new object or a new
binding.

**Definitions.**
* `Works`: what goes on in a session in which no attribute is set, and which bindings it may touch;
* `Owns`: a binding that may be touched, in a session in which everything belongs to one binding;
* `callsMade`, `ShowsTo`: the native calls of an evaluation, and its side-calls among them;
* `Operation`: an evaluation, a reset, a pruning or a dropping of a binding.

**Results.**
* `Works.allotted`: everything still belongs to one binding;
* `Works.resident`, `Works.agree`: a binding that may not be touched stays where it is, and the
  sessions agree about it;
* `Owns.callNative`, `Owns.run`, `Owns.operate`: a side-call, the run of a binding's code, and an
  operation on a binding are work on this binding.
-/

namespace TrackedExpr
namespace Session

section Working

/-- What goes on in a session in which no attribute is set: work on the bindings that may be
touched, notes of other things, and new models and bindings.  If the bindings that may not be
touched have what their callbacks write for their own, nothing else writes there. -/
inductive Works (own : Prop) (may : Nat → Prop) : Session → Session → Prop
  | refl {w : Session} : Works own may w w
  | trans {w w' w'' : Session} : Works own may w w' → Works own may w' w'' → Works own may w w''
  | notes {w : Session} {pins : List Pin} {entries : List LogEntry} {left : Nat} {stalled : Bool} :
      (∀ e ∈ entries, ∀ id dirty change, e ≠ .invalid id dirty change) →
      Works own may w { w with
        pins := pins, log := entries ++ w.log, actionsLeft := left, stalled := stalled }
  | resets {w : Session} {b : Nat} {B : Binding} :
      w.bindings[b]? = some B →
      may b →
      Works own may w (w.resetChannel B.channel)
  | marks {w : Session} {b : Nat} {f : Binding → Binding} :
      may b →
      (∀ B, (f B).lines = B.lines) →
      Works own may w (w.modifyBinding b f)
  | sees {w : Session} {p : Nat} (re : Reentry) (v : Value) (attr : String) :
      (∀ (b : Nat) (B : Binding), w.bindings[b]? = some B → p ∈ B.policies → may b) →
      Works own may w (w.see re p v attr)
  | prunes {w : Session} {p : Nat} :
      (∀ (b : Nat) (B : Binding), w.bindings[b]? = some B → p ∈ B.policies → may b) →
      Works own may w (w.prunePolicy p).1
  | names {w : Session} {id : String} {table : List (String × Nat)} :
      (∀ b, Assoc.get? id w.names.bindings = some b → may b) →
      (∀ other, other ≠ id → Assoc.get? other table = Assoc.get? other w.names.bindings) →
      Works own may w (w.rename fun n => { n with bindings := table })
  | makes {w w' : Session} {code : Code} {scope : Scope} {config : BindingConfig}
      {onInvalid : Invalidation} {b : Nat} :
      onInvalid.Idle →
      (own → ∀ (c : Nat) (k : Lines), ¬ may c → w.layout.lines[c]? = some k →
        k.onInvalid.Apart onInvalid) →
      w.makeBinding code scope config onInvalid = .ok (w', b) →
      Works own may w w'
  | furnishes {w : Session} {more : List ObjectCell} {natives : List NativeRole}
      {recorders : List (List RecordedEvent)} {names : Names} {scope : Scope} :
      (∀ cell ∈ more, cell.kind.Idle ∧ cell.observers = []) →
      (own → ∀ (c : Nat) (k : Lines) (r : Nat), ¬ may c → w.layout.lines[c]? = some k →
        k.onInvalid = .record r → recorders[r]? = w.recorders[r]?) →
      Works own may w { w with
        objects := w.objects ++ more
        natives := natives
        recorders := recorders
        names := { names with
          bindings := w.names.bindings
          subscriptions := w.names.subscriptions
          handles := w.names.handles }
        scope := scope }

variable {own : Prop} {may : Nat → Prop} {a b p : Nat} {k : Lines} {w w' : Session}
  {re : Reentry} {id : String} {A B : Binding}

/-- **Whatever goes on**, everything still belongs to one binding. -/
theorem Works.allotted (h : Works own may w w') : Allotted w → Allotted w' := by
  induction h with
  | refl => exact fun hw => hw
  | trans _ _ ih ih' => exact fun hw => ih' (ih hw)
  | notes _ => exact fun hw => hw.beside rfl rfl rfl rfl rfl
  | resets _ _ => exact fun hw => hw.resetChannel _
  | marks _ hf => exact fun hw => hw.modifyBinding hf _
  | sees re v attr _ => exact fun hw => (sees_see hw.kinds re _ v attr).allotted hw
  | prunes _ => exact fun hw => (sees_prunePolicy _ _).allotted hw
  | names _ _ => exact fun hw => hw.rebound _
  | makes hidle _ hmade =>
      obtain ⟨-, n, B, natives, rfl, hB⟩ := makeBinding_withBinding hmade
      exact fun hw => hw.withBinding natives hB hidle
  | furnishes hmore _ => exact fun hw => hw.furnished hmore rfl rfl rfl rfl rfl

/-- Bindings keep their lines, and new ones have callbacks that do not write where a binding does
that may not be touched. -/
theorem Works.lines_eq (h : Works own may w w') : Allotted w →
    ∃ more, w'.layout.lines = w.layout.lines ++ more ∧
      ∀ k' ∈ more, own → ∀ (c : Nat) (k : Lines), ¬ may c → w.layout.lines[c]? = some k →
        k.onInvalid.Apart k'.onInvalid := by
  have hsame : ∀ {u u' : Session}, u'.layout = u.layout →
      ∃ more, u'.layout.lines = u.layout.lines ++ more ∧
        ∀ k' ∈ more, own → ∀ (c : Nat) (k : Lines), ¬ may c → u.layout.lines[c]? = some k →
          k.onInvalid.Apart k'.onInvalid :=
    fun hlayout => ⟨[], by rw [hlayout, List.append_nil], by simp⟩
  induction h with
  | refl => exact fun _ => hsame rfl
  | trans h _ ih ih' =>
      intro hw
      obtain ⟨more, hmore, hapart⟩ := ih hw
      obtain ⟨more', hmore', hapart'⟩ := ih' (h.allotted hw)
      refine ⟨more ++ more', by rw [hmore', hmore, List.append_assoc],
        fun k' hk' hown c k hc hk => ?_⟩
      rcases List.mem_append.mp hk' with hfirst | hsecond
      · exact hapart k' hfirst hown c k hc hk
      · exact hapart' k' hsecond hown c k hc (hmore ▸ getElem?_append_some hk more)
  | notes _ => exact fun _ => hsame rfl
  | resets _ _ => exact fun _ => hsame (layout_resetChannel _)
  | marks _ hf => exact fun _ => hsame (layout_modifyBinding hf _)
  | sees re v attr _ => exact fun hw => hsame (sees_see hw.kinds re _ v attr).layout_eq
  | prunes _ => exact fun _ => hsame (sees_prunePolicy _ _).layout_eq
  | names _ _ => exact fun _ => hsame rfl
  | makes _ hapart hmade =>
      obtain ⟨-, n, B, natives, rfl, hB⟩ := makeBinding_withBinding hmade
      refine fun _ => ⟨[B.lines], by simp [layout, withBinding], fun k' hk' => ?_⟩
      obtain rfl := List.mem_singleton.mp hk'
      rw [hB]
      exact hapart
  | furnishes _ _ => exact fun _ => hsame rfl

/-- A binding that may not be touched keeps its names. -/
theorem Works.name_kept (h : Works own may w w') (hb : ¬ may b) : Allotted w →
    Assoc.get? id w.names.bindings = some b → Assoc.get? id w'.names.bindings = some b := by
  induction h with
  | refl => exact fun _ hid => hid
  | trans h _ ih ih' => exact fun hw hid => ih' (h.allotted hw) (ih hw hid)
  | notes _ => exact fun _ hid => hid
  | resets _ _ => exact fun _ hid => hid
  | marks _ _ => exact fun _ hid => hid
  | sees re v attr _ =>
      intro hw hid
      rwa [(sees_see hw.kinds re _ v attr).names_eq]
  | prunes _ =>
      intro _ hid
      rwa [(sees_prunePolicy _ _).names_eq]
  | @names w name table hname hothers =>
      intro _ hid
      have hne : id ≠ name := by
        rintro rfl
        exact hb (hname b hid)
      exact (hothers id hne).trans hid
  | makes _ _ hmade =>
      obtain ⟨-, n, B, natives, rfl, -⟩ := makeBinding_withBinding hmade
      exact fun _ hid => hid
  | furnishes _ _ => exact fun _ hid => hid

/-- **What goes on leaves a binding in its place** that it may not touch. -/
theorem Works.resident (h : Works own may w w') (hb : ¬ may b) (hw : Resident own b k w) :
    Resident own b k w' := by
  obtain ⟨more, hmore, hapart⟩ := h.lines_eq hw.toAllotted
  obtain ⟨id, hid⟩ := hw.hasName
  refine ⟨h.allotted hw.toAllotted, ?_, fun hown c k' hne hk' => ?_,
    ⟨id, h.name_kept hb hw.toAllotted hid⟩⟩
  · rw [hmore]
    exact getElem?_append_some hw.lines more
  · rw [hmore, List.getElem?_append] at hk'
    split at hk'
    · exact hw.apart hown c k' hne hk'
    · exact hapart k' (List.mem_of_getElem? hk') hown b k hb hw.lines

theorem agree_resetChannel {c : Nat} (hne : c ≠ k.channel) :
    Agree own b k w (w.resetChannel c) where
  binding := rfl
  channel := by simp [resetChannel, modifyChannel, hne]
  policies := fun _ _ => rfl
  ears := fun _ => rfl
  cells := fun _ _ => rfl
  written := fun _ => written_congr rfl rfl

theorem agree_modifyBinding {c : Nat} (hne : c ≠ b) (f : Binding → Binding) :
    Agree own b k w (w.modifyBinding c f) :=
  Agree.beside (by simp [Session.modifyBinding, hne]) rfl rfl rfl fun _ => written_congr rfl rfl

/-- A policy of another binding is shown an access, or pruned. -/
theorem Sees.agree (h : Sees p w w') (hw : Allotted w) (hk : w.layout.lines[b]? = some k)
    (hp : p ∉ k.policies) : Agree own b k w w' := by
  have hpolicies : ∀ (f : Policy → Policy), ∀ q ∈ k.policies,
      (w.policies.modify p f)[q]? = w.policies[q]? := by
    intro f q hq
    refine List.getElem?_modify_ne _ _ ?_
    rintro rfl
    exact hp hq
  cases h with
  | nothing => exact Agree.refl b k w
  | shrinks hP hr =>
      exact ⟨rfl, rfl, hpolicies _, fun i => ears_congr rfl (hpolicies _), fun _ _ => rfl,
        fun _ => written_congr rfl rfl⟩
  | @listens P r subject o attr hP hr =>
      have hother : r.token.channel ≠ k.channel := by
        rw [hr.channel]
        exact mt (hw.mem_policies hk hP).mpr hp
      refine ⟨rfl, rfl, hpolicies _, fun i => ?_, fun i _ => ?_, fun _ => written_congr rfl rfl⟩
      · obtain ⟨new, hobservers, hnew⟩ := exists_observersAt_withListener w p r subject o attr i
        have hdeaf : (new.filter fun ob => ob.action.forwardsTo k.channel ∧
            ob.subscription ∈ w.subscriptionsOf k.policies) = [] := by
          refine List.filter_eq_nil_iff.mpr fun ob hob => ?_
          rw [hnew ob hob]
          simp [Reaction.forwardsTo, hother]
        rw [ears, ears, hobservers, subscriptionsOf_congr (hpolicies _), List.filter_append, hdeaf,
          List.append_nil]
      · simp only [withListener, List.getElem?_modify]
        cases w.objects[i]? with
        | none => rfl
        | some cell => by_cases hi : o.id = i <;> simp [hi, ObjectCell.bare]

theorem written_notes {entries : List LogEntry}
    (h : ∀ e ∈ entries, ∀ id dirty change, e ≠ .invalid id dirty change)
    (hlog : w'.log = entries ++ w.log) (hrecorders : w'.recorders = w.recorders)
    (onInvalid : Invalidation) : w'.written onInvalid = w.written onInvalid := by
  cases onInvalid with
  | script name actions =>
      have hsilent : entries.filter (LogEntry.tells name) = [] := by
        refine List.filter_eq_nil_iff.mpr fun e he => ?_
        cases e <;> first | exact Bool.false_ne_true | exact absurd rfl (h _ he _ _ _)
      simp only [written, hlog, List.filter_append, hsilent, List.nil_append]
  | record r => simp only [written, hrecorders]
  | rerun name actions => rfl

/-- The policies that a binding has are there. -/
theorem Allotted.policy_lt (h : Allotted w) (hk : w.layout.lines[b]? = some k)
    (hp : p ∈ k.policies) : p < w.policies.length := by
  have hreports := (h.layout.policies b k hk p).mp hp
  simp only [Session.layout, List.getElem?_map] at hreports
  obtain ⟨P, hP, -⟩ := Option.map_eq_some_iff.mp hreports
  exact (List.getElem?_eq_some_iff.mp hP).1

/-- A new binding leaves the others alone. -/
theorem agree_withBinding (hw : Allotted w) (hk : w.layout.lines[b]? = some k) (n : Nat)
    (B : Binding) (natives : List NativeRole) : Agree own b k w (w.withBinding n B natives) := by
  obtain ⟨C, hC, rfl⟩ := exists_binding_of_lines hk
  have hsink := (hw.layout.lines b C.lines hk).1
  simp only [Session.layout, List.getElem?_map] at hsink
  obtain ⟨channel, hchannel, -⟩ := Option.map_eq_some_iff.mp hsink
  have hpolicies : ∀ p ∈ C.lines.policies,
      (w.withBinding n B natives).policies[p]? = w.policies[p]? :=
    fun p hp => List.getElem?_append_left (hw.policy_lt hk hp)
  refine ⟨?_, ?_, hpolicies, fun i => ears_congr rfl hpolicies, fun _ _ => rfl,
    fun _ => written_congr rfl rfl⟩
  · exact List.getElem?_append_left (List.getElem?_eq_some_iff.mp hC).1
  · exact List.getElem?_append_left (List.getElem?_eq_some_iff.mp hchannel).1

/-- New objects that nobody observes leave a binding alone, as do new names and functions. -/
theorem agree_furnished {more : List ObjectCell} (hmore : ∀ cell ∈ more, cell.observers = [])
    (hbinding : w'.bindings = w.bindings) (hobjects : w'.objects = w.objects ++ more)
    (hchannels : w'.channels = w.channels) (hpolicies : w'.policies = w.policies)
    (hwritten : own → w'.written k.onInvalid = w.written k.onInvalid) : Agree own b k w w' := by
  have hobservers : ∀ i, w'.observersAt (.object i) = w.observersAt (.object i) := by
    intro i
    rw [observersAt, observersAt, hobjects]
    rcases Nat.lt_or_ge i w.objects.length with hlt | hge
    · rw [List.getElem?_append_left hlt]
    · rw [List.getElem?_append_right hge, List.getElem?_eq_none hge]
      cases hcell : more[i - w.objects.length]? with
      | none => rfl
      | some cell => exact hmore cell (List.mem_of_getElem? hcell)
  refine ⟨by rw [hbinding], by rw [hchannels], fun _ _ => by rw [hpolicies], fun i => ?_,
    fun i hi => ?_, hwritten⟩
  · exact ears_congr (hobservers i) fun _ _ => by rw [hpolicies]
  · rw [hobjects, List.getElem?_append_left]
    refine Nat.lt_of_not_le fun hge => hi ?_
    rw [ears, observersAt, List.getElem?_eq_none hge]
    rfl

/-- **What goes on leaves a binding alone** that it may not touch. -/
theorem Works.agree (h : Works own may w w') (hb : ¬ may b) :
    Resident own b k w → Agree own b k w w' := by
  -- the policies and the channels of others are not those of the binding
  have hapart : ∀ {u : Session} {p : Nat}, u.layout.lines[b]? = some k →
      (∀ (c : Nat) (C : Binding), u.bindings[c]? = some C → p ∈ C.policies → may c) →
      p ∉ k.policies := by
    intro u p hk howner hp
    obtain ⟨B, hB, rfl⟩ := exists_binding_of_lines hk
    exact hb (howner b B hB hp)
  induction h with
  | refl => exact fun _ => Agree.refl b k _
  | trans h _ ih ih' => exact fun hw => (ih hw).trans (ih' (h.resident hb hw))
  | @notes u pins entries left stalled hentries =>
      intro _
      have hwritten := @written_notes u
        { u with pins := pins, log := entries ++ u.log, actionsLeft := left, stalled := stalled }
        entries hentries rfl rfl k.onInvalid
      exact Agree.beside rfl rfl rfl rfl fun _ => hwritten
  | @resets u c C hC hmay =>
      intro hw
      have hne : c ≠ b := fun hsame => hb (hsame ▸ hmay)
      have hlines : u.layout.lines[c]? = some C.lines := by simp [layout, hC]
      exact agree_resetChannel (hw.channel_ne hne hw.lines hlines)
  | @marks u c f hmay _ =>
      have hne : c ≠ b := fun hsame => hb (hsame ▸ hmay)
      exact fun _ => agree_modifyBinding hne f
  | sees re v attr howner =>
      exact fun hw => (sees_see hw.kinds re _ v attr).agree hw.toAllotted hw.lines
        (hapart hw.lines howner)
  | prunes howner =>
      exact fun hw => (sees_prunePolicy _ _).agree hw.toAllotted hw.lines (hapart hw.lines howner)
  | names _ _ => exact fun _ => Agree.beside rfl rfl rfl rfl fun _ => written_congr rfl rfl
  | makes _ _ hmade =>
      obtain ⟨-, n, B, natives, rfl, -⟩ := makeBinding_withBinding hmade
      exact fun hw => agree_withBinding hw.toAllotted hw.lines n B natives
  | furnishes hmore hrecorders =>
      refine fun hw => agree_furnished (fun cell hcell => (hmore cell hcell).2) rfl rfl rfl rfl
        fun hown => ?_
      cases hwriter : k.onInvalid with
      | record r => simp only [written, hrecorders hown b k r hb hw.lines hwriter]
      | _ => rfl

end Working

section Owning

variable {own : Prop} {may : Nat → Prop} {a c p : Nat} {k : Lines} {w w' : Session} {re : Reentry}
  {C : Binding}

theorem Works.repinned (w : Session) (pins : List Pin) : Works own may w { w with pins := pins } :=
  @Works.notes own may w pins [] w.actionsLeft w.stalled (by simp)

theorem Works.keeping {pins : List Pin} (h : Works own may { w with pins := pins ++ w.pins } w') :
    Works own may w { w' with pins := w.pins } :=
  ((Works.repinned w _).trans h).trans (Works.repinned w' w.pins)

/-- A policy belongs to one binding. -/
theorem Allotted.owner_unique (h : Allotted w) (hk : w.layout.lines[a]? = some k)
    (hp : p ∈ k.policies) (hC : w.bindings[c]? = some C) (hpC : p ∈ C.policies) : c = a := by
  have hlines : w.layout.lines[c]? = some C.lines := by simp [Session.layout, hC]
  have hreports := (h.layout.policies a k hk p).mp hp
  have hreports' := (h.layout.policies c C.lines hlines p).mp hpC
  by_contra hne
  exact h.channel_ne hne hk hlines (Option.some.inj (hreports'.symm.trans hreports))

/-- A binding that may be touched is there, with certain lines, and everything belongs to one
binding. -/
structure Owns (may : Nat → Prop) (a : Nat) (k : Lines) (w : Session) : Prop
    extends Allotted w where
  lines : w.layout.lines[a]? = some k
  may : may a

theorem Owns.alone (h : Owns may a k w) (hp : p ∈ k.policies) :
    ∀ (c : Nat) (C : Binding), w.bindings[c]? = some C → p ∈ C.policies → may c := by
  intro c C hC hpC
  rw [h.owner_unique h.lines hp hC hpC]
  exact h.may

theorem Works.owns (h : Works own may w w') (hw : Owns may a k w) : Owns may a k w' := by
  obtain ⟨more, hmore, -⟩ := h.lines_eq hw.toAllotted
  exact ⟨h.allotted hw.toAllotted, hmore ▸ getElem?_append_some hw.lines more, hw.may⟩

/-- The policies of the binding are pruned. -/
theorem Owns.prunePolicies : ∀ {ps : List Nat} {w : Session}, Owns may a k w →
    (∀ p ∈ ps, p ∈ k.policies) → Works own may w (Session.prunePolicies ps w).1
  | [], _, _, _ => Works.refl
  | p :: ps, w, h, hps => by
      have hfirst : Works own may w (w.prunePolicy p).1 :=
        Works.prunes (h.alone (hps p List.mem_cons_self))
      exact hfirst.trans
        ((hfirst.owns h).prunePolicies fun q hq => hps q (List.mem_cons_of_mem _ hq))

end Owning

section Evaluating

/-- The native calls that an evaluation of a binding makes, each with the session in which it is
made. -/
def callsMade (re : Reentry) (b : Nat) (B : Binding) (w : Session) : List (NativeCall × Session) :=
  (host re).nativeCalls (fun _ => True) B.code B.scope w.patience Frame.start (w.beginning b B)

/-- A native function that shows accesses to one of the policies, as the side-calls of a binding
do. -/
def ShowsTo (ps : List Nat) (w : Session) (f : NativeRef) : Prop :=
  ∃ p ∈ ps, w.natives[f.id]? = some (.attributeSite (.policy p)) ∨
    w.natives[f.id]? = some (.callSite (.policy p))

variable {own : Prop} {may : Nat → Prop} {a : Nat} {k : Lines} {w w' : Session} {re : Reentry}
  {A : Binding} {call : NativeCall} {id : String} {reply : Reply}

/-- **A side-call of the binding** shows an access to the binding and to no other. -/
theorem Owns.callNative (h : Owns may a k w) (hside : w.ShowsTo k.policies call.function)
    (re : Reentry) : Works own may w (Session.callNative re call w).1 := by
  obtain ⟨p, hp, hrole⟩ := hside
  have hshown : ∀ v attr, Works own may
      { w with pins := pinValues (NativeCall.values call) ++ w.pins }
      (Session.see re p v attr { w with pins := pinValues (NativeCall.values call) ++ w.pins }) :=
    fun v attr => Works.sees re v attr (h.alone hp)
  unfold Session.callNative
  refine @Works.keeping own may w _ (pinValues (NativeCall.values call)) ?_
  rcases hrole with hrole | hrole
  · simp only [hrole, answerAttributeSide]
    split
    · exact hshown _ _
    · exact Works.refl
  · simp only [hrole, answerCallSide]
    split
    · exact Works.refl
    · simp only [tellCall]
      split
      · exact hshown _ _
      · exact Works.refl
    · exact Works.refl

/-- A native function that shows accesses to one of the policies, or answers and does nothing
else. -/
def NativeRole.keepsTo (ps : List Nat) : NativeRole → Bool
  | .attributeSite (.policy p) | .callSite (.policy p) => p ∈ ps
  | .host ⟨.set, _⟩ => false
  | .host ⟨_, actions⟩ => actions.isEmpty
  | _ => false

/-- A call of such a function. -/
theorem showsTo_or_works {ps : List Nat} {role : NativeRole}
    (hrole : w.natives[call.function.id]? = some role) (hkeeps : role.keepsTo ps = true)
    (depth : Nat) : w.ShowsTo ps call.function ∨
      Works own may w (Session.callNative (enter (depth + 1)) call w).1 := by
  cases role with
  | attributeSite hook =>
      cases hook with
      | policy p => exact Or.inl ⟨p, of_decide_eq_true hkeeps, Or.inl hrole⟩
      | _ => cases hkeeps
  | callSite hook =>
      cases hook with
      | policy p => exact Or.inl ⟨p, of_decide_eq_true hkeeps, Or.inr hrole⟩
      | _ => cases hkeeps
  | host draft =>
      right
      obtain ⟨behavior, actions⟩ := draft
      have hset : behavior ≠ .set := by
        rintro rfl
        cases hkeeps
      obtain rfl : actions = [] := by
        cases behavior <;> first | exact List.isEmpty_iff.mp hkeeps | cases hkeeps
      rw [callNative_quiet hrole hset depth]
      exact @Works.notes own may w w.pins [.call call.function.name call.args call.kwargs]
        w.actionsLeft w.stalled fun e he => by
          obtain rfl := List.mem_singleton.mp he
          exact nofun

/-- **The run of a binding's code** does what its native calls do. -/
theorem Owns.run (h : Owns may a k w) {code : Code} {scope : Scope} {limit : Nat} {f : Frame}
    (hcalls : ∀ e ∈ (host re).nativeCalls (fun _ => True) code scope limit f w,
      e.2.ShowsTo k.policies e.1.function ∨ Works own may e.2 (Session.callNative re e.1 e.2).1) :
    Works own may w ((host re).run code scope limit f w).state := by
  have hrun : Owns may a k w → Works own may w ((host re).run code scope limit f w).state := by
    refine Host.rel_run (R := fun u v => Owns may a k u → Works own may u v) (fun _ _ => Works.refl)
      (fun huv hvt hu => (huv hu).trans (hvt ((huv hu).owns hu))) fun e he hown => ?_
    exact (hcalls e he).elim (fun hside => hown.callNative hside re) fun hworks => hworks
  exact hrun h

theorem Owns.beginning (h : Owns may a k w) (hA : w.bindings[a]? = some A) :
    Works own may w (w.beginning a A) := by
  have hpinned : Works own may w _ := Works.repinned w ([.binding a] ++ w.pins)
  have hreset := hpinned.trans (Works.resets (b := a) hA h.may)
  have hmarked := hreset.trans
    (Works.marks (f := fun c => { c with dirty := false, evaluating := true }) h.may fun _ => rfl)
  exact hmarked.trans (Works.repinned _ _)

/-- An evaluation leaves the session of its run, and its result with the binding. -/
theorem evaluateBinding_eq (re : Reentry) (hA : w.bindings[a]? = some A) : ∃ stalled last,
    (evaluateBinding re a { w with pins := [.binding a] ++ w.pins }).1 = modifyBinding
      { (w.evaluation re a A).state with pins := [.binding a] ++ w.pins, stalled := stalled } a
      fun c => { c with evaluating := false, last := last } := by
  simp only [evaluateBinding, hA, runCode, execute]
  unfold evaluation beginning
  simp only [resetChannel, modifyChannel, modifyBinding]
  split
  · exact ⟨_, _, rfl⟩
  · exact ⟨_, _, rfl⟩

/-- **An evaluation of a binding by its name.** -/
theorem Owns.evaluateNamed (h : Owns may a A.lines w) (hA : w.bindingNamed id = .ok (a, A))
    (hcalls : ∀ e ∈ w.callsMade re a A,
      e.2.ShowsTo A.policies e.1.function ∨ Works own may e.2 (Session.callNative re e.1 e.2).1)
    (heval : w.evaluateNamed re id = .ok (w', reply)) : Works own may w w' := by
  obtain ⟨hid, hA⟩ := bindingNamed_ok hA
  obtain ⟨i, B, u, r, hi, hB, hdone, rfl, -⟩ := evaluateNamed_ok heval
  obtain rfl := Option.some.inj (hi.symm.trans hid)
  have hbegun : Works own may w _ := h.beginning hA
  have hrun : Works own may w (w.evaluation re i A).state :=
    hbegun.trans ((hbegun.owns h).run hcalls)
  obtain ⟨stalled, last, heq⟩ := evaluateBinding_eq re hA
  rw [hdone] at heq
  obtain rfl := heq
  have hended := hrun.trans (@Works.notes own may _ ([.binding i] ++ w.pins) []
    (w.evaluation re i A).state.actionsLeft stalled (by simp))
  have hmarked := hended.trans
    (Works.marks (f := fun c => { c with evaluating := false, last := last }) h.may fun _ => rfl)
  exact hmarked.trans (Works.repinned _ w.pins)

end Evaluating

section Operating

/-- What is done with a binding. -/
inductive Operation
  | evaluate
  | reset
  | prune
  | drop

def Operation.command (id : String) : Operation → Command
  | .evaluate => .evaluate id
  | .reset => .reset id
  | .prune => .prune id
  | .drop => .bindingDrop id

variable {own : Prop} {may : Nat → Prop} {a : Nat} {w w' : Session} {re : Reentry} {A : Binding}
  {id : String} {reply : Reply}

theorem pins_prunePolicies : ∀ (ps : List Nat) (w : Session),
    (Session.prunePolicies ps w).1.pins = w.pins
  | [], _ => rfl
  | p :: ps, w => (pins_prunePolicies ps (w.prunePolicy p).1).trans (sees_prunePolicy p w).pins_eq

/-- What is held on to meanwhile is let go. -/
theorem pins_operate (re : Reentry) (op : Operation) (id : String) (w : Session) :
    (w.perform re (op.command id)).1.pins = w.pins := by
  unfold perform
  cases hattempt : attempt re w (op.command id) with
  | error f => rfl
  | ok after =>
      obtain ⟨w', reply⟩ := after
      cases op with
      | evaluate =>
          obtain ⟨b, B, u, r, -, -, -, rfl, -⟩ := evaluateNamed_ok hattempt
          rfl
      | reset =>
          obtain ⟨⟨b, B⟩, -, hattempt⟩ := bind_eq_ok hattempt
          cases hattempt
          rfl
      | prune =>
          obtain ⟨⟨b, B⟩, -, hattempt⟩ := bind_eq_ok hattempt
          cases hattempt
          exact pins_prunePolicies B.policies w
      | drop =>
          cases hattempt
          rfl

/-- **An operation on a binding** is work on this binding, if whatever else the native functions do
that its evaluation calls is no other. -/
theorem Owns.operate (h : Owns may a A.lines w) (hA : w.bindingNamed id = .ok (a, A))
    {op : Operation} (hcalls : op = .evaluate → ∀ e ∈ w.callsMade re a A,
      e.2.ShowsTo A.policies e.1.function ∨ Works own may e.2 (Session.callNative re e.1 e.2).1) :
    Works own may w (w.perform re (op.command id)).1 := by
  obtain ⟨hid, hbinding⟩ := bindingNamed_ok hA
  cases op with
  | evaluate =>
      cases hattempt : w.evaluateNamed re id with
      | error f =>
          simp only [perform, Operation.command, attempt, hattempt]
          exact Works.refl
      | ok after =>
          simp only [perform, Operation.command, attempt, hattempt]
          exact h.evaluateNamed hA (hcalls rfl) hattempt
  | reset =>
      simp only [perform, Operation.command, attempt, resetBinding, hA, bind, Except.bind, pure,
        Except.pure]
      have hreset : Works own may w _ := Works.resets hbinding h.may
      exact hreset.trans (Works.marks h.may fun _ => rfl)
  | prune =>
      simp only [perform, Operation.command, attempt, pruneBinding, hA, bind, Except.bind, pure,
        Except.pure]
      exact h.prunePolicies fun _ hp => hp
  | drop =>
      simp only [perform, Operation.command, attempt, drop]
      refine @Works.names own may w id _ (fun b hb => ?_) fun other hne => Assoc.get?_erase_ne hne _
      obtain rfl := Option.some.inj (hid.symm.trans hb)
      exact h.may

end Operating

end Session
end TrackedExpr
