import TrackedExpr.Proofs.Simulation

/-!
# Spliced code, one instruction after another

A run of spliced code comes to an instruction by way of the sites in front of it, and
then does there what the code does, whatever the side-calls have done to the state.  On
the way it makes no native call but the side-calls.

**Definitions.**
* `Frame.nativeCall?`, `Host.nativeCalls`: the native calls of a kind that a step, and a run,
  makes;
* `Host.chronicle`: what the turns of a run contribute to an account of it;
* `Host.Block`: what a run of spliced code does until an instruction of the code has its turn.

**Results.**
* `Host.rel_run`: a run does what its native calls do;
* `Host.Served.unique`: the side-calls in front of an instruction lead to one state;
* `Host.block`: a run of spliced code begins with a block, if the side-calls answer;
* `Host.Path.chronicle`: what a block leaves of the account of a run.
-/

namespace TrackedExpr

universe u v

open Code (position)

section Calls

variable {σ : Type u} (kind : NativeRef → Prop) [DecidablePred kind]

/-- The call of a native function of a kind that the next step makes. -/
def Frame.nativeCall? (read : AttributeReader) (c : Code) (scope : Scope) (f : Frame) :
    Option NativeCall :=
  (f.step read c scope).native?.filter fun call => kind call.function

/-- The calls of native functions of a kind that a run makes, in order, each with the state in
which it is made. -/
def Host.nativeCalls (host : Host σ) (c : Code) (scope : Scope) :
    Nat → Frame → σ → List (NativeCall × σ)
  | 0, _, _ => []
  | limit + 1, f, s =>
      ((f.nativeCall? kind (host.read s) c scope).map fun call => (call, s)).toList ++
        match host.turn c scope f s with
        | .goes g t => nativeCalls host c scope limit g t
        | .ends _ _ => []

/-- What the turns of a run contribute to an account of it, in order, each by the frame and the state
in which it begins. -/
def Host.chronicle {μ : Type v} (host : Host σ) (c : Code) (scope : Scope)
    (mark : Frame → σ → List μ) : Nat → Frame → σ → List μ
  | 0, _, _ => []
  | limit + 1, f, s =>
      mark f s ++
        match host.turn c scope f s with
        | .goes g t => chronicle host c scope mark limit g t
        | .ends _ _ => []

variable {kind} {c : Code} {f : Frame}

theorem Progress.native?_relocate (ins : List Insertion) (progress : Progress) :
    (progress.relocate ins).native? = progress.native? := by
  cases progress <;> rfl

/-- A frame that makes no call but a side-call makes none of another kind. -/
theorem Frame.nativeCall?_of_aside {side : List NativeRef} (h : f.Aside side c)
    (hside : ∀ ref ∈ side, ¬ kind ref) (read : AttributeReader) (scope : Scope) :
    f.nativeCall? kind read c scope = none := by
  unfold nativeCall?
  cases hstep : f.step read c scope with
  | calling call g =>
      obtain ⟨r, hr, hfunction⟩ := pendingCall?_of_calling hstep
      obtain ⟨ref, href, hcalled⟩ := h.2 r hr
      obtain rfl : call.function = ref := Value.native.inj (hfunction.symm.trans hcalled)
      simp [Progress.native?, hside _ href]
  | _ => rfl

end Calls

namespace Host

variable {σ : Type u} {host : Host σ} {c c' : Code} {ins : List Insertion} {scope : Scope}
  {f g : Frame} {s t : σ} {fs : List Frame}

section Accounts

variable {μ : Type v} {mark : Frame → σ → List μ}

theorem chronicle_goes (mark : Frame → σ → List μ) (hturn : host.turn c scope f s = .goes g t)
    (n : Nat) : host.chronicle c scope mark (n + 1) f s
      = mark f s ++ host.chronicle c scope mark n g t := by
  rw [chronicle, hturn]

theorem chronicle_ends (mark : Frame → σ → List μ) {r : Except EvalError Value}
    (hturn : host.turn c scope f s = .ends r t) (n : Nat) :
    host.chronicle c scope mark (n + 1) f s = mark f s := by
  rw [chronicle, hturn, List.append_nil]

/-- A path whose turns contribute nothing. -/
theorem Path.chronicle (hpath : host.Path c scope f s fs g t)
    (hnothing : ∀ x ∈ fs, ∀ u, mark x u = []) (n : Nat) :
    host.chronicle c scope mark (fs.length + n) f s = host.chronicle c scope mark n g t := by
  induction hpath with
  | nil => rw [List.length_nil, Nat.zero_add]
  | @cons f g _ s t _ fs hturn _ ih =>
      rw [List.length_cons, Nat.add_right_comm, chronicle_goes mark hturn,
        hnothing f List.mem_cons_self, ih fun x hx => hnothing x (List.mem_cons_of_mem _ hx)]
      rfl

/-- The native calls of a run are an account of it. -/
theorem nativeCalls_eq_chronicle (kind : NativeRef → Prop) [DecidablePred kind] : ∀ (n : Nat)
    (f : Frame) (s : σ), host.nativeCalls kind c scope n f s
      = host.chronicle c scope
        (fun f s => ((f.nativeCall? kind (host.read s) c scope).map fun call => (call, s)).toList)
        n f s
  | 0, _, _ => rfl
  | n + 1, f, s => by
      rw [nativeCalls, chronicle]
      cases host.turn c scope f s with
      | goes g t => exact congrArg _ (nativeCalls_eq_chronicle kind n g t)
      | ends r t => rfl

/-- What is collected from the frames visited is an account of a run. -/
theorem filterMap_visited {β : Type} (q : Frame → Option β) : ∀ (n : Nat) (f : Frame) (s : σ),
    (host.visited c scope n f s).filterMap q
      = host.chronicle c scope (fun f _ => (q f).toList) n f s
  | 0, _, _ => rfl
  | n + 1, f, s => by
      cases hturn : host.turn c scope f s with
      | goes g t =>
          rw [collect_goes q hturn, chronicle_goes _ hturn, filterMap_visited q n g t]
      | ends r t => rw [collect_ends q hturn, chronicle_ends _ hturn]

/-- An account of a run by way of another. -/
theorem flatMap_chronicle {ν : Type v} (F : μ → List ν) : ∀ (n : Nat) (f : Frame) (s : σ),
    (host.chronicle c scope mark n f s).flatMap F
      = host.chronicle c scope (fun f s => (mark f s).flatMap F) n f s
  | 0, _, _ => rfl
  | n + 1, f, s => by
      rw [chronicle, chronicle, List.flatMap_append]
      cases host.turn c scope f s with
      | goes g t => exact congrArg _ (flatMap_chronicle F n g t)
      | ends r t => rfl

end Accounts

/-- **A run of code does what its native calls do**, one after the other. -/
theorem rel_run {R : σ → σ → Prop} (hrefl : ∀ s, R s s)
    (htrans : ∀ {s t u}, R s t → R t u → R s u) : ∀ {n : Nat} {f : Frame} {s : σ},
    (∀ e ∈ host.nativeCalls (fun _ => True) c scope n f s, R e.2 (host.call e.1 e.2).1) →
      R s (host.run c scope n f s).state
  | 0, _, s, _ => hrefl s
  | n + 1, f, s, h => by
      have hcall : ∀ {call g}, f.step (host.read s) c scope = .calling call g →
          R s (host.call call s).1 := by
        intro call g hstep
        refine h (call, s) (List.mem_append_left _ ?_)
        simp [Frame.nativeCall?, hstep, Progress.native?]
      rw [run_succ]
      rw [nativeCalls] at h
      cases hturn : host.turn c scope f s with
      | goes g t =>
          have hrest : R t (host.run c scope n g t).state := rel_run hrefl htrans fun e he =>
            h e (List.mem_append_right _ (by rw [hturn]; exact he))
          rcases turn_goes hturn with ⟨-, rfl⟩ | ⟨call, below, v, hstep, hanswer, -⟩
          · exact hrest
          · have hfirst := hcall hstep
            rw [hanswer] at hfirst
            exact htrans hfirst hrest
      | ends r t =>
          rcases turn_ends hturn with ⟨v, -, -, rfl⟩ | ⟨e, -, -, rfl⟩ |
            ⟨call, below, e, hstep, hanswer, -⟩
          · exact hrefl _
          · exact hrefl _
          · have hlast := hcall hstep
            rwa [hanswer] at hlast

/-- Side-calls lead to one state. -/
theorem Served.unique {op : Instruction} {stack : List Value} {refs : List NativeRef} {t' : σ}
    (h : host.Served op stack refs s t) (h' : host.Served op stack refs s t') : t = t' := by
  induction h with
  | nil => cases h' with | nil => rfl
  | @cons ref refs call s t u hcall hanswer _ ih =>
      cases h' with
      | @cons _ _ call' _ t' _ hcall' hanswer' hrest' =>
          obtain rfl := Option.some.inj (hcall.symm.trans hcall')
          obtain rfl := (Prod.mk.inj (hanswer.symm.trans hanswer')).1
          exact ih hrest'

/-- What a run of spliced code does until an instruction of the code has its turn: the sites in
front of it run through, or one of them, or the instruction, lacks a value; past the end there is
nothing to run. -/
inductive Block (host : Host σ) (c c' : Code) (ins : List Insertion) (scope : Scope) (f : Frame)
    (s : σ) : Prop
  | runs {fs : List Frame} {op : Instruction} {t : σ} :
      c.instructions[f.pc]? = some op →
      (op.effect false).pops ≤ f.stack.length →
      host.Served op f.stack (sideCallsAt ins f.pc) s t →
      host.Path c' scope (f.relocate ins) s fs ⟨f.stack, position ins f.pc⟩ t →
      (∀ x ∈ fs, x.Aside (sideCallsAt ins f.pc) c') →
      host.turn c' scope ⟨f.stack, position ins f.pc⟩ t
        = (host.turn c scope f t).relocate ins →
      (∀ read, (Frame.step read c' scope ⟨f.stack, position ins f.pc⟩).native?
        = (f.step read c scope).native?) →
      Block host c c' ins scope f s
  | stops {fs : List Frame} {g : Frame} {e : EvalError} :
      f.aim? c = none →
      host.Path c' scope (f.relocate ins) s fs g s →
      (∀ x ∈ fs, x.Aside (sideCallsAt ins f.pc) c') →
      g.Aside (sideCallsAt ins f.pc) c' →
      host.turn c' scope g s = .ends (.error e) s →
      Block host c c' ins scope f s

/-- **A run of spliced code begins with a block**, if the side-calls answer in front of an
instruction that has its operands. -/
theorem block {P : NativeRef → Instruction → Prop} (hsplice : c.splice ins = .ok c')
    (hsites : SitesOnly c ins P) (f : Frame) (s : σ)
    (hserved : ∀ op, c.instructions[f.pc]? = some op → (op.effect false).pops ≤ f.stack.length →
      ∃ t, host.Served op f.stack (sideCallsAt ins f.pc) s t) :
    host.Block c c' ins scope f s := by
  cases hop : c.instructions[f.pc]? with
  | none =>
      have hplace : f.relocate ins = ⟨f.stack, position ins f.pc⟩ := hsites.relocate_past hop
      have hop' : c'.instructions[(f.relocate ins).pc]? = none := by
        rw [hplace, Code.getElem?_position hsplice, hop]
      have haim : f.aim? c = none := by
        rw [Frame.aim?, hop]
        rfl
      have haside : (f.relocate ins).Aside (sideCallsAt ins f.pc) c' := by
        refine ⟨?_, ?_⟩
        · rw [Frame.aim?, hop']
          rfl
        · intro r hr
          rw [Frame.pendingCall?, hop'] at hr
          cases hr
      have hturn : host.turn c' scope (f.relocate ins) s = .ends (.error .missingReturn) s := by
        rw [turn, Frame.step, hop']
      exact Block.stops haim (Path.nil _ s) (by simp) haside hturn
  | some op =>
      rcases Nat.lt_or_ge f.stack.length (op.effect false).pops with hlt | hpops
      · obtain ⟨fs, g, j, name, hpath, hwithin, haside, hends⟩ :=
          @short_path σ host c c' ins scope P hsplice hsites f op hop hlt s
        have haim : f.aim? c = none := by
          rw [Frame.aim?_eq hop, Instruction.aim?_of_short hlt]
        refine Block.stops haim hpath ?_ haside hends
        intro x hx
        obtain ⟨ref, href, hx⟩ := hwithin x hx
        exact aside_of_within href hx
      · obtain ⟨t, hserved⟩ := hserved op hop hpops
        obtain ⟨fs, hpath, hwithin⟩ :=
          @served_path σ host c c' ins scope P hsplice hsites f op hop s t hserved
        refine Block.runs hop hpops hserved hpath ?_
          (turn_position hsplice hsites.sparesLabels scope hop hpops t) ?_
        · intro x hx
          obtain ⟨ref, href, hx⟩ := hwithin x hx
          exact aside_of_within href hx
        · intro read
          rw [Frame.step_position hsplice hsites.sparesLabels scope hop hpops,
            Progress.native?_relocate]

end Host
end TrackedExpr
