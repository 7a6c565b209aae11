import TrackedExpr.Proofs.ControlFlow
import TrackedExpr.Proofs.Runs

/-!
# Safety of analysed code

The effects by which the analysis follows the control flow are those of the
machine.  So a run of code with a stack profile is always at a point of the
profile, and never lacks a value, a label or an instruction.

**Definitions.**
* `EvalError.isStructural`: the failures that the analysis excludes;
* `Frame.Conforms`: what an instruction may lead to, by its effect alone;
* `Frame.Reachable`: the frames of all runs, whatever is read and answered.

**Results.**
* `Frame.step_conforms`: the machine keeps to the effects;
* `Frame.Reachable.reaches`: a frame is at a point of the control flow;
* `stackProfile_safe`: the profile is sound for every run.
-/

namespace TrackedExpr

/-- The failures that stem from the code and not from the values: a stack that is too short, a
label that is not set, and an end without a result. -/
def EvalError.isStructural : EvalError → Bool
  | .stackUnderflow _ _ | .undefinedLabel _ | .missingReturn => true
  | _ => false

section Operations

/-- If there is an error, it is not structural. -/
def Ordinary {α : Type} (r : Except EvalError α) : Prop :=
  ∀ e, r = .error e → e.isStructural = false

@[simp] theorem ordinary_ok {α : Type} (a : α) : Ordinary (.ok a : Except EvalError α) := by
  intro e h
  cases h

@[simp] theorem ordinary_error {α : Type} {e : EvalError} :
    Ordinary (.error e : Except EvalError α) ↔ e.isStructural = false := by
  constructor
  · exact fun h => h e rfl
  · rintro h e' he
    cases he
    exact h

theorem Ordinary.map {α β : Type} {r : Except EvalError α} (h : Ordinary r) (f : α → β) :
    Ordinary (r.map f) := by
  cases r with
  | ok a => exact ordinary_ok (f a)
  | error e => simpa [Except.map] using h

theorem Ordinary.bind {α β : Type} {r : Except EvalError α} (h : Ordinary r)
    {f : α → Except EvalError β} (hf : ∀ a, Ordinary (f a)) : Ordinary (r >>= f) := by
  cases r with
  | ok a => exact hf a
  | error e => simpa [Bind.bind, Except.bind] using h

theorem exactInt_ordinary (r : Int) : Ordinary (exactInt r) := by
  unfold exactInt
  split <;> simp [EvalError.isStructural]

theorem intBinary_ordinary (op : BinaryOp) (a b : Int64) : Ordinary (intBinary op a b) := by
  cases op with
  | add => exact exactInt_ordinary _
  | subtract => exact exactInt_ordinary _
  | multiply => exact exactInt_ordinary _
  | trueDivide => unfold intBinary; dsimp only; split <;> simp [EvalError.isStructural]
  | modulo => unfold intBinary; dsimp only; split <;> simp [EvalError.isStructural]

theorem floatBinary_ordinary (op : BinaryOp) (a b : Float) : Ordinary (floatBinary op a b) := by
  cases op with
  | trueDivide => unfold floatBinary; dsimp only; split <;> simp [EvalError.isStructural]
  | modulo => unfold floatBinary; dsimp only; split <;> simp [EvalError.isStructural]
  | _ => exact ordinary_ok _

namespace Value

theorem binary_ordinary (op : BinaryOp) (l r : Value) : Ordinary (binary op l r) := by
  unfold binary
  split
  · simp
  · simp
  · exact intBinary_ordinary _ _ _
  · exact floatBinary_ordinary _ _ _
  · exact floatBinary_ordinary _ _ _
  · exact floatBinary_ordinary _ _ _
  · simp [EvalError.isStructural]

theorem compare_ordinary (op : CompareOp) (l r : Value) : Ordinary (compare op l r) := by
  have horder : ∀ op, Ordinary (order op l r) := by
    intro op
    unfold order
    split <;> simp [EvalError.isStructural]
  cases op with
  | eq => exact ordinary_ok _
  | ne => exact ordinary_ok _
  | _ => exact horder _

theorem negate_ordinary (v : Value) : Ordinary v.negate := by
  unfold negate
  split
  · exact exactInt_ordinary _
  · simp
  · simp [EvalError.isStructural]

theorem absolute_ordinary (v : Value) : Ordinary v.absolute := by
  unfold absolute
  split
  · exact exactInt_ordinary _
  · simp
  · simp [EvalError.isStructural]

theorem length_ordinary (v : Value) : Ordinary v.length := by
  unfold length
  split <;> simp [EvalError.isStructural]

end Value

theorem loadAttr_ordinary (read : AttributeReader) (v : Value) (a : String) :
    Ordinary (loadAttr read v a) := by
  unfold loadAttr
  dsimp only
  split <;> simp [EvalError.isStructural]

theorem getattr_ordinary (read : AttributeReader) (args : List Value) :
    Ordinary (getattr read args) := by
  have hrequest : Ordinary (getattrRequest args) := by
    unfold getattrRequest
    split <;> simp [EvalError.isStructural]
  unfold getattr
  cases hr : getattrRequest args with
  | error e => simpa using hrequest e hr
  | ok request =>
      obtain ⟨target, name, default⟩ := request
      dsimp only
      split
      · simp
      · exact loadAttr_ordinary read target name

theorem Builtin.call_ordinary (read : AttributeReader) (b : Builtin) (args : List Value)
    (kwargs : Kwargs) : Ordinary (b.call read args kwargs) := by
  unfold Builtin.call
  split
  · simp [EvalError.isStructural]
  · split
    · exact getattr_ordinary _ _
    · exact Value.length_ordinary _
    · simp
    · exact Value.absolute_ordinary _
    · simp [EvalError.isStructural]

theorem keywordPair_ordinary (name value : Value) : Ordinary (keywordPair name value) := by
  unfold keywordPair
  split <;> simp [EvalError.isStructural]

theorem keywordSlots_ordinary (slots : List Value) : Ordinary (keywordSlots slots) := by
  fun_induction keywordSlots slots with
  | case1 name value rest ih =>
      exact (keywordPair_ordinary _ _).bind fun _ => ih.bind fun _ => ordinary_ok _
  | case2 => exact ordinary_ok _

theorem mappingItems_ordinary (items : List Value) : Ordinary (mappingItems items) := by
  fun_induction mappingItems items with
  | case1 => exact ordinary_ok _
  | case2 name value rest ih =>
      exact (keywordPair_ordinary _ _).bind fun _ => ih.bind fun _ => ordinary_ok _
  | case3 => simp [EvalError.isStructural]

theorem callArguments_ordinary (spec : ArgSpec) (slots : List Value)
    (star mapping : Option Value) : Ordinary (callArguments spec slots star mapping) := by
  have hstar : Ordinary (starItems star) := by
    unfold starItems
    split <;> simp [EvalError.isStructural]
  have hmapping : Ordinary (mappingOperand mapping) := by
    unfold mappingOperand
    split
    · simp
    · exact mappingItems_ordinary _
    · simp [EvalError.isStructural]
  exact (keywordSlots_ordinary _).bind fun _ => hstar.bind fun _ => hmapping.bind fun _ =>
    ordinary_ok _

end Operations

namespace Frame

section Effects

/-- What an instruction may lead to, by its effect alone, when it takes its operands from `s` and
control goes on at `pc` unless it jumps. -/
inductive Conforms (c : Code) (pc : Nat) (op : Instruction) (s : List Value) : Progress → Prop
  | next (pushed : List Value) :
      op.isTerminal = false →
      pushed.length = (op.effect false).pushes →
      Conforms c pc op s (.running ⟨pushed ++ s.drop (op.effect false).pops, pc⟩)
  | taken {l : Label} {t : Nat} (pushed : List Value) :
      op.target? = some l →
      c.labelIndex? l = some t →
      pushed.length = (op.effect true).pushes →
      Conforms c pc op s (.running ⟨pushed ++ s.drop (op.effect true).pops, t⟩)
  | lost {l : Label} :
      op.target? = some l →
      c.labelIndex? l = none →
      Conforms c pc op s (.failed (.undefinedLabel l))
  | calling {call : NativeCall} :
      op.isTerminal = false →
      (op.effect false).pushes = 1 →
      call.waiting = s.drop (op.effect false).pops →
      Conforms c pc op s (.calling call ⟨s.drop (op.effect false).pops, pc⟩)
  | finished {v : Value} :
      op = .returnValue →
      s.head? = some v →
      Conforms c pc op s (.finished v)
  | failed {e : EvalError} :
      e.isStructural = false →
      Conforms c pc op s (.failed e)

variable {c : Code} {pc : Nat} {op : Instruction} {s : List Value}

/-- An operation with one result, which can fail. -/
theorem conforms_push (hterm : op.isTerminal = false) (hpushes : (op.effect false).pushes = 1)
    {r : Except EvalError Value} (hr : Ordinary r) :
    Conforms c pc op s (push pc (s.drop (op.effect false).pops) r) := by
  cases r with
  | ok v => exact Conforms.next [v] hterm (by simp [hpushes])
  | error e => exact Conforms.failed (by simpa using hr)

/-- A jump that is taken. -/
theorem conforms_jumpTo {l : Label} (pushed : List Value) (hl : op.target? = some l)
    (hpushed : pushed.length = (op.effect true).pushes) :
    Conforms c pc op s (jumpTo c l (pushed ++ s.drop (op.effect true).pops)) := by
  unfold jumpTo
  cases ht : c.labelIndex? l with
  | some t => exact Conforms.taken pushed hl ht hpushed
  | none => exact Conforms.lost hl ht

/-- A call form finds its operands if there are enough values. -/
theorem operands_of_le {form : CallForm} (h : form.extras ≤ s.length) :
    ∃ star mapping, form.operands s = some (star, mapping, s.drop form.extras) := by
  cases form with
  | plain => exact ⟨none, none, rfl⟩
  | star =>
      obtain _ | ⟨t, s⟩ := s
      · simp [CallForm.extras] at h
      · exact ⟨some t, none, rfl⟩
  | mapping =>
      obtain _ | ⟨m, s⟩ := s
      · simp [CallForm.extras] at h
      · exact ⟨none, some m, rfl⟩
  | starMapping =>
      obtain _ | ⟨m, _ | ⟨t, s⟩⟩ := s
      · simp [CallForm.extras] at h
      · simp [CallForm.extras] at h
      · exact ⟨some t, some m, rfl⟩

theorem call?_conforms (read : AttributeReader) {form : CallForm} {operand : UInt16}
    (h : ((Instruction.call form operand).effect false).pops ≤ s.length) :
    ∃ progress, call? read pc form operand s = some progress ∧
      Conforms c pc (.call form operand) s progress := by
  simp only [Instruction.effect] at h
  obtain ⟨star, mapping, hoperands⟩ := @operands_of_le s form (by omega)
  obtain ⟨function, below, hdrop⟩ :
      ∃ function below, (s.drop form.extras).drop (ArgSpec.decode operand).slots
        = function :: below := by
    apply List.exists_cons_of_length_pos
    simp only [List.length_drop]
    omega
  have hbelow : s.drop ((Instruction.call form operand).effect false).pops = below := by
    have := congrArg List.tail hdrop
    rw [List.drop_drop, List.tail_drop] at this
    simpa [Instruction.effect, Nat.add_comm, Nat.add_left_comm] using this
  unfold call?
  simp only [hoperands, hdrop]
  cases hargs : callArguments (ArgSpec.decode operand)
      ((s.drop form.extras).take (ArgSpec.decode operand).slots).reverse star mapping with
  | error e => exact ⟨_, rfl, Conforms.failed (callArguments_ordinary _ _ _ _ e hargs)⟩
  | ok arguments =>
      obtain ⟨args, kwargs⟩ := arguments
      refine ⟨_, rfl, ?_⟩
      subst hbelow
      dsimp only
      cases function with
      | builtin b => exact conforms_push rfl rfl (Builtin.call_ordinary _ _ _ _)
      | native ref => exact Conforms.calling rfl rfl rfl
      | _ => exact Conforms.failed rfl

theorem unpack_conforms (n : UInt64) (v : Value) :
    Conforms c pc (.unpackSequence n) (v :: s) (unpack pc n s v) := by
  cases v with
  | tuple items =>
      by_cases hn : items.length = n.toNat
      · simp only [unpack, hn, if_true]
        exact Conforms.next items rfl hn
      · simp only [unpack, hn, if_false]
        exact Conforms.failed rfl
  | _ => exact Conforms.failed rfl

theorem jump_conforms (read : AttributeReader) (scope : Scope) {kind : JumpKind} {l : Label}
    (h : ((Instruction.jump kind l).effect false).pops ≤ s.length) :
    ∃ progress, execute? read c scope pc (.jump kind l) s = some progress ∧
      Conforms c pc (.jump kind l) s progress := by
  by_cases hkind : kind = .always
  · subst hkind
    exact ⟨_, rfl, conforms_jumpTo [] rfl rfl⟩
  · obtain _ | ⟨v, s⟩ := s
    · cases kind <;> simp [Instruction.effect] at h hkind
    · obtain hnext | ⟨kept, hkept, -, hjump⟩ := execute?_jump hkind read c scope pc l v s
      · refine ⟨_, hnext, ?_⟩
        cases kind with
        | always => exact absurd rfl hkind
        | _ => exact Conforms.next [] rfl rfl
      · refine ⟨_, hjump, ?_⟩
        cases kind with
        | always => exact absurd rfl hkind
        | _ => exact conforms_jumpTo kept rfl hkept

/-- An instruction with enough values on the stack keeps to its effect. -/
theorem execute?_conforms (read : AttributeReader) (scope : Scope)
    (h : (op.effect false).pops ≤ s.length) :
    ∃ progress, execute? read c scope pc op s = some progress ∧
      Conforms c pc op s progress := by
  cases op with
  | setLabel l => exact ⟨_, rfl, Conforms.next [] rfl rfl⟩
  | loadConst v => exact ⟨_, rfl, Conforms.next [v] rfl rfl⟩
  | loadName n =>
      refine ⟨_, rfl, ?_⟩
      cases scope.resolve? n with
      | some v => exact Conforms.next [v] rfl rfl
      | none => exact Conforms.failed rfl
  | buildTuple n =>
      have hn : ¬ s.length < n.toNat := by simpa [Instruction.effect] using h
      refine ⟨_, by simp [execute?, hn]; rfl, ?_⟩
      exact Conforms.next [.tuple (s.take n.toNat).reverse] rfl rfl
  | call form operand => exact call?_conforms read h
  | jump kind l => exact jump_conforms read scope h
  | rotThree =>
      obtain _ | ⟨v, _ | ⟨w, _ | ⟨x, s⟩⟩⟩ := s
      · simp [Instruction.effect] at h
      · simp [Instruction.effect] at h
      · simp [Instruction.effect] at h
      · exact ⟨_, rfl, Conforms.next [w, x, v] rfl rfl⟩
  | rotTwo =>
      obtain _ | ⟨v, _ | ⟨w, s⟩⟩ := s
      · simp [Instruction.effect] at h
      · simp [Instruction.effect] at h
      · exact ⟨_, rfl, Conforms.next [w, v] rfl rfl⟩
  | binary op =>
      obtain _ | ⟨r, _ | ⟨l, s⟩⟩ := s
      · simp [Instruction.effect] at h
      · simp [Instruction.effect] at h
      · exact ⟨_, rfl, conforms_push rfl rfl (Value.binary_ordinary _ _ _)⟩
  | compare op =>
      obtain _ | ⟨r, _ | ⟨l, s⟩⟩ := s
      · simp [Instruction.effect] at h
      · simp [Instruction.effect] at h
      · exact ⟨_, rfl, conforms_push rfl rfl ((Value.compare_ordinary _ _ _).map _)⟩
  | loadAttr a =>
      obtain _ | ⟨v, s⟩ := s
      · simp [Instruction.effect] at h
      · exact ⟨_, rfl, conforms_push rfl rfl (loadAttr_ordinary _ _ _)⟩
  | dupTop =>
      obtain _ | ⟨v, s⟩ := s
      · simp [Instruction.effect] at h
      · exact ⟨_, rfl, Conforms.next [v, v] rfl rfl⟩
  | popTop =>
      obtain _ | ⟨v, s⟩ := s
      · simp [Instruction.effect] at h
      · exact ⟨_, rfl, Conforms.next [] rfl rfl⟩
  | unpackSequence n =>
      obtain _ | ⟨v, s⟩ := s
      · simp [Instruction.effect] at h
      · exact ⟨_, rfl, unpack_conforms n v⟩
  | unaryNot =>
      obtain _ | ⟨v, s⟩ := s
      · simp [Instruction.effect] at h
      · exact ⟨_, rfl, Conforms.next [.bool (!v.isTruthy)] rfl rfl⟩
  | unaryNegative =>
      obtain _ | ⟨v, s⟩ := s
      · simp [Instruction.effect] at h
      · exact ⟨_, rfl, conforms_push rfl rfl (Value.negate_ordinary _)⟩
  | returnValue =>
      obtain _ | ⟨v, s⟩ := s
      · simp [Instruction.effect] at h
      · exact ⟨_, rfl, Conforms.finished rfl rfl⟩

end Effects

section Steps

variable {c : Code} {scope : Scope} {f : Frame} {read : AttributeReader}

/-- A step with enough values on the stack keeps to the effect of its instruction. -/
theorem step_conforms {op : Instruction} (hop : c.instructions[f.pc]? = some op)
    (h : (op.effect false).pops ≤ f.depth) :
    Conforms c (f.pc + 1) op f.stack (f.step read c scope) := by
  obtain ⟨progress, hexecute, hconforms⟩ := @execute?_conforms c (f.pc + 1) op f.stack read scope h
  have hlt : ¬ f.stack.length < (op.effect false).pops := Nat.not_lt.mpr h
  have hstep : f.step read c scope = progress := by
    simp [step, hop, hlt, hexecute]
  rw [hstep]
  exact hconforms

theorem depth_append_drop {pushed s : List Value} {e : StackEffect} {pc : Nat}
    (hpushed : pushed.length = e.pushes) :
    (⟨pushed ++ s.drop e.pops, pc⟩ : Frame).depth = e.after s.length := by
  simp only [depth, List.length_append, List.length_drop, StackEffect.after, hpushed]
  omega

/-- A step that goes on follows an edge. -/
theorem edge_of_running {op : Instruction} {g : Frame} (hop : c.instructions[f.pc]? = some op)
    (h : (op.effect false).pops ≤ f.depth) (hstep : f.step read c scope = .running g) :
    c.Edge (f.pc, f.depth) (g.pc, g.depth) := by
  have hconforms := @step_conforms c scope f read op hop h
  rw [hstep] at hconforms
  cases hconforms with
  | next pushed hterm hpushed =>
      rw [depth_append_drop hpushed]
      exact Code.Edge.next hop hterm h
  | taken pushed hl ht hpushed =>
      rw [depth_append_drop hpushed]
      exact Code.Edge.jump hop hl ht (by rwa [op.effect_pops])

/-- A call that is answered follows an edge. -/
theorem edge_of_calling {op : Instruction} {g : Frame} {call : NativeCall}
    (hop : c.instructions[f.pc]? = some op) (h : (op.effect false).pops ≤ f.depth)
    (hstep : f.step read c scope = .calling call g) (v : Value) :
    c.Edge (f.pc, f.depth) ((g.resume v).pc, (g.resume v).depth) := by
  have hconforms := @step_conforms c scope f read op hop h
  rw [hstep] at hconforms
  cases hconforms with
  | calling hterm hpushes _ =>
      rw [resume, ← List.singleton_append, depth_append_drop (by simp [hpushes])]
      exact Code.Edge.next hop hterm h

/-- At a point that fits, a structural failure does not happen. -/
theorem ordinary_of_fits (hfits : c.Fits (f.pc, f.depth)) {e : EvalError}
    (hstep : f.step read c scope = .failed e) : e.isStructural = false := by
  obtain ⟨op, hop, hpops, htarget⟩ := hfits
  have hconforms := @step_conforms c scope f read op hop hpops
  rw [hstep] at hconforms
  cases hconforms with
  | lost hl hnone =>
      obtain ⟨t, ht⟩ := htarget _ hl
      rw [hnone] at ht
      cases ht
  | failed he => exact he

/-- The frames that runs can come to, whatever attributes hold and native functions answer. -/
inductive Reachable (c : Code) (scope : Scope) : Frame → Prop
  | start : Reachable c scope start
  | step {f g : Frame} {read : AttributeReader} :
      Reachable c scope f →
      f.step read c scope = .running g →
      Reachable c scope g
  | answer {f g : Frame} {read : AttributeReader} {call : NativeCall} {v : Value} :
      Reachable c scope f →
      f.step read c scope = .calling call g →
      Reachable c scope (g.resume v)

/-- A frame of sound code is at a point of its control flow. -/
theorem Reachable.reaches (hsound : c.Sound) (h : Reachable c scope f) :
    c.Reaches (f.pc, f.depth) := by
  induction h with
  | start => exact Code.Reaches.start c
  | step _ hstep ih =>
      obtain ⟨op, hop, hpops, -⟩ := hsound.fits _ ih
      exact ih.edge (edge_of_running hop hpops hstep)
  | answer _ hstep ih =>
      obtain ⟨op, hop, hpops, -⟩ := hsound.fits _ ih
      exact ih.edge (edge_of_calling hop hpops hstep _)

end Steps

end Frame

universe u

section Runs

variable {σ : Type u} {host : Host σ} {c : Code} {scope : Scope}

theorem reachable_of_turn {f g : Frame} {s t : σ} (h : Frame.Reachable c scope f)
    (hturn : host.turn c scope f s = .goes g t) : Frame.Reachable c scope g := by
  obtain ⟨hstep, -⟩ | ⟨call, k, v, hstep, -, rfl⟩ := Host.turn_goes hturn
  · exact h.step hstep
  · exact h.answer hstep

theorem reachable_of_path {f g : Frame} {s t : σ} {fs : List Frame}
    (h : Frame.Reachable c scope f) (hpath : host.Path c scope f s fs g t) :
    Frame.Reachable c scope g := by
  induction hpath with
  | nil => exact h
  | cons hturn _ ih => exact ih (reachable_of_turn h hturn)

/-- A structural failure of sound code is the answer of a native function. -/
theorem call_of_structural {f : Frame} {s t : σ} {e : EvalError} (hfits : c.Fits (f.pc, f.depth))
    (he : e.isStructural = true) (hturn : host.turn c scope f s = .ends (.error e) t) :
    ∃ call g, f.step (host.read s) c scope = .calling call g ∧
      (host.call call s).2 = .error e := by
  obtain ⟨v, -, hr, -⟩ | ⟨e', hstep, hr, -⟩ | ⟨call, g, e', hstep, hcall, hr⟩ :=
    Host.turn_ends hturn
  · cases hr
  · cases hr
    simp [Frame.ordinary_of_fits hfits hstep] at he
  · cases hr
    exact ⟨call, g, hstep, by rw [hcall]⟩

/-- **The stack profile is sound.**  In every run of code with a profile, whatever attributes
hold and native functions answer, the program counter is at an instruction, the stack has the
height that the profile gives for it, and this is at most the greatest height.  A run therefore
lacks a value, a label or a result only if a native function that it called says so. -/
theorem stackProfile_safe {p : StackProfile} (h : c.stackProfile = .ok p) (scope : Scope) :
    (∀ f, Frame.Reachable c scope f →
      f.pc < c.size ∧ p.entryDepths[f.pc]? = some (some f.depth) ∧ f.depth ≤ p.maxDepth) ∧
    ∀ (host : Host σ) (limit : Nat) (state : σ) (e : EvalError),
      (host.run c scope limit Frame.start state).outcome = some (.error e) →
      e.isStructural = true →
      ∃ fs f s call g, host.Path c scope Frame.start state fs f s ∧
        f.step (host.read s) c scope = .calling call g ∧ (host.call call s).2 = .error e := by
  have hsound := Code.sound_of_stackProfile h
  constructor
  · intro f hf
    have hreach := hf.reaches hsound
    obtain ⟨op, hop, -⟩ := hsound.fits _ hreach
    refine ⟨(List.getElem?_eq_some_iff.mp hop).1, ?_, Code.stackProfile_le_maxDepth h hreach⟩
    exact Code.depthAt?_eq_some_iff.mp ((Code.stackProfile_depthAt? h).mpr hreach)
  · intro host limit state e hrun he
    obtain ⟨fs, f, s, t, hpath, hends⟩ := Host.path_of_outcome hrun
    have hreach := (reachable_of_path Frame.Reachable.start hpath).reaches hsound
    obtain ⟨call, g, hstep, hcall⟩ := call_of_structural (hsound.fits _ hreach) he hends
    exact ⟨fs, f, s, call, g, hpath, hstep, hcall⟩

/-- `a.x and b`: a read on one branch, and a join. -/
def shortCircuit : Code := Code.ofInstructions
  [ .loadName "a",
    .loadAttr "x",
    .jump .ifFalseOrPop ⟨0⟩,
    .loadName "b",
    .setLabel ⟨0⟩,
    .returnValue ]

theorem stackProfile_shortCircuit :
    shortCircuit.stackProfile
      = .ok ⟨[some 0, some 1, some 1, some 0, some 1, some 1], 1⟩ := by
  cbv

theorem stackProfile_safe_shortCircuit :
    shortCircuit.stackProfile
        = .ok ⟨[some 0, some 1, some 1, some 0, some 1, some 1], 1⟩ ∧
      ∀ f, Frame.Reachable shortCircuit [("a", .bool true)] f → f.pc < 6 ∧ f.depth ≤ 1 := by
  refine ⟨stackProfile_shortCircuit, ?_⟩
  intro f hf
  obtain ⟨hpc, -, hdepth⟩ :=
    (@stackProfile_safe Unit _ _ stackProfile_shortCircuit [("a", .bool true)]).1 f hf
  exact ⟨hpc, hdepth⟩

end Runs

end TrackedExpr
