import TrackedExpr.Proofs.Runs

/-!
# What values are made of

Values in which every object and every native function is of a kind are closed under
everything that an instruction does.  So code whose constants, scope and attributes are
such values calls native functions of the kind only, and none if there are none.

**Definitions.**
* `Value.Among`: made of plain data, builtin functions, and objects and native functions of
  a kind;
* `Stock`: where an evaluation takes its values from;
* `Value.MadeOf`, `Materials`: the same without native functions.

**Results.**
* `Frame.execute?_among`, `Frame.step_among`: an instruction takes values of the kind to
  values of the kind, and calls native functions of the kind only;
* `Frame.step_madeOf`: if there are none, it calls nothing native.
-/

namespace TrackedExpr

mutual

/-- A value in which every object and every native function is of a kind. -/
def Value.Among (objects : ObjectRef → Prop) (natives : NativeRef → Prop) : Value → Prop
  | .native f => natives f
  | .object o => objects o
  | .tuple items => Value.AllAmong objects natives items
  | _ => True

/-- A list of such values. -/
def Value.AllAmong (objects : ObjectRef → Prop) (natives : NativeRef → Prop) : List Value → Prop
  | [] => True
  | v :: vs => v.Among objects natives ∧ Value.AllAmong objects natives vs

end

section Operations

variable {objects : ObjectRef → Prop} {natives : NativeRef → Prop}

theorem Value.allAmong_iff (vs : List Value) :
    Value.AllAmong objects natives vs ↔ ∀ v ∈ vs, v.Among objects natives := by
  induction vs with
  | nil => simp [Value.AllAmong]
  | cons v vs ih => simp [Value.AllAmong, ih]

@[simp] theorem Value.among_tuple {items : List Value} :
    (Value.tuple items).Among objects natives ↔ ∀ v ∈ items, v.Among objects natives := by
  rw [Value.Among, Value.allAmong_iff]

section Monotonicity

variable {objects' : ObjectRef → Prop} {natives' : NativeRef → Prop}

mutual

/-- A value of a kind is of every wider kind. -/
theorem Value.Among.mono (hobjects : ∀ o, objects o → objects' o)
    (hnatives : ∀ f, natives f → natives' f) :
    ∀ {v : Value}, v.Among objects natives → v.Among objects' natives'
  | .native f, h => hnatives f h
  | .object o, h => hobjects o h
  | .tuple items, h => by
      rw [Value.Among] at h ⊢
      exact Value.AllAmong.mono hobjects hnatives h
  | .none, _ | .bool _, _ | .int _, _ | .float _, _ | .str _, _ | .builtin _, _ => trivial

theorem Value.AllAmong.mono (hobjects : ∀ o, objects o → objects' o)
    (hnatives : ∀ f, natives f → natives' f) :
    ∀ {vs : List Value}, Value.AllAmong objects natives vs → Value.AllAmong objects' natives' vs
  | [], _ => trivial
  | _ :: _, h => ⟨Value.Among.mono hobjects hnatives h.1, Value.AllAmong.mono hobjects hnatives h.2⟩

end

end Monotonicity

/-- A result of the kind, or an error. -/
def ResultAmong (objects : ObjectRef → Prop) (natives : NativeRef → Prop)
    (r : Except EvalError Value) : Prop :=
  ∀ v, r = .ok v → v.Among objects natives

@[simp] theorem resultAmong_ok {v : Value} :
    ResultAmong objects natives (.ok v) ↔ v.Among objects natives := by
  constructor
  · exact fun h => h v rfl
  · rintro h w hw
    cases hw
    exact h

@[simp] theorem resultAmong_error (e : EvalError) : ResultAmong objects natives (.error e) := by
  rintro v hv
  cases hv

theorem exactInt_among (r : Int) : ResultAmong objects natives (exactInt r) := by
  unfold exactInt
  split <;> simp [Value.Among]

theorem intBinary_among (op : BinaryOp) (a b : Int64) :
    ResultAmong objects natives (intBinary op a b) := by
  cases op with
  | trueDivide => unfold intBinary; dsimp only; split <;> simp [Value.Among]
  | modulo => unfold intBinary; dsimp only; split <;> simp [Value.Among]
  | _ => exact exactInt_among _

theorem floatBinary_among (op : BinaryOp) (a b : Float) :
    ResultAmong objects natives (floatBinary op a b) := by
  cases op with
  | trueDivide => unfold floatBinary; dsimp only; split <;> simp [Value.Among]
  | modulo => unfold floatBinary; dsimp only; split <;> simp [Value.Among]
  | _ => simp [floatBinary, Value.Among]

theorem binary_among {op : BinaryOp} {l r : Value} (hl : l.Among objects natives)
    (hr : r.Among objects natives) : ResultAmong objects natives (Value.binary op l r) := by
  unfold Value.binary
  split
  · simp [Value.Among]
  · rw [Value.among_tuple] at hl hr
    rw [resultAmong_ok, Value.among_tuple]
    intro v hv
    rcases List.mem_append.mp hv with hv | hv
    · exact hl v hv
    · exact hr v hv
  · exact intBinary_among _ _ _
  · exact floatBinary_among _ _ _
  · exact floatBinary_among _ _ _
  · exact floatBinary_among _ _ _
  · simp

theorem negate_among (v : Value) : ResultAmong objects natives v.negate := by
  unfold Value.negate
  split
  · exact exactInt_among _
  · simp [Value.Among]
  · simp

theorem absolute_among (v : Value) : ResultAmong objects natives v.absolute := by
  unfold Value.absolute
  split
  · exact exactInt_among _
  · simp [Value.Among]
  · simp

/-- What attributes are read. -/
def ReadAmong (objects : ObjectRef → Prop) (natives : NativeRef → Prop) (read : AttributeReader) :
    Prop :=
  ∀ o a v, read o a = some v → v.Among objects natives

variable {read : AttributeReader}

theorem loadAttr_among (hread : ReadAmong objects natives read) (target : Value) (a : String) :
    ResultAmong objects natives (loadAttr read target a) := by
  cases target with
  | object o =>
      unfold loadAttr
      cases hv : read o a with
      | none => simp [hv]
      | some v => simpa [hv] using hread o a v hv
  | _ => simp [loadAttr]

theorem getattr_among (hread : ReadAmong objects natives read) {args : List Value}
    (hargs : ∀ v ∈ args, v.Among objects natives) :
    ResultAmong objects natives (getattr read args) := by
  have hload := loadAttr_among hread
  unfold getattr
  cases hr : getattrRequest args with
  | error e => simp
  | ok request =>
      obtain ⟨target, name, default⟩ := request
      dsimp only
      split
      · next v _ =>
          -- the default is one of the arguments
          rw [resultAmong_ok]
          unfold getattrRequest at hr
          split at hr
          · cases hr
          · cases hr
            exact hargs v (by simp)
          · cases hr
          · cases hr
          · cases hr
      · exact hload target name

theorem Builtin.call_among (hread : ReadAmong objects natives read) (b : Builtin)
    {args : List Value} (hargs : ∀ v ∈ args, v.Among objects natives) (kwargs : Kwargs) :
    ResultAmong objects natives (b.call read args kwargs) := by
  unfold Builtin.call
  split
  · simp
  · split
    · exact getattr_among hread hargs
    · unfold Value.length
      split <;> simp [Value.Among]
    · unfold Value.text
      split <;> simp [Value.Among]
    · exact absolute_among _
    · simp

end Operations

/-- What an evaluation takes its values from: constants, scope and attributes. -/
structure Stock (objects : ObjectRef → Prop) (natives : NativeRef → Prop) (c : Code)
    (scope : Scope) (read : AttributeReader) : Prop where
  constants : ∀ v, .loadConst v ∈ c.instructions → v.Among objects natives
  scope : ∀ name v, Assoc.get? name scope = some v → v.Among objects natives
  read : ReadAmong objects natives read

/-- A stock of a kind, with other attributes, in a wider kind. -/
theorem Stock.mono {objects objects' : ObjectRef → Prop} {natives : NativeRef → Prop} {c : Code}
    {scope : Scope} {read read' : AttributeReader} (h : Stock objects natives c scope read)
    (hobjects : ∀ o, objects o → objects' o) (hread : ReadAmong objects' natives read') :
    Stock objects' natives c scope read' where
  constants := fun v hv => (h.constants v hv).mono hobjects fun _ hf => hf
  scope := fun name v hv => (h.scope name v hv).mono hobjects fun _ hf => hf
  read := hread

/-- What a step leads to is made of values of the kind, and a call is of such a function. -/
def Progress.Among (objects : ObjectRef → Prop) (natives : NativeRef → Prop) : Progress → Prop
  | .running f => ∀ v ∈ f.stack, v.Among objects natives
  | .calling call f => natives call.function ∧ ∀ v ∈ f.stack, v.Among objects natives
  | .finished v => v.Among objects natives
  | .failed _ => True

namespace Frame

variable {objects : ObjectRef → Prop} {natives : NativeRef → Prop} {c : Code} {scope : Scope}
  {read : AttributeReader} {pc : Nat} {stack : List Value}

section Calls

theorem push_among {r : Except EvalError Value} (hstack : ∀ v ∈ stack, v.Among objects natives)
    (hr : ResultAmong objects natives r) : (push pc stack r).Among objects natives := by
  cases r with
  | error e => trivial
  | ok v => simpa [push, Progress.Among] using ⟨hr v rfl, hstack⟩

theorem jumpTo_among (l : Label) (hstack : ∀ v ∈ stack, v.Among objects natives) :
    (jumpTo c l stack).Among objects natives := by
  unfold jumpTo
  split
  · exact hstack
  · trivial

theorem resolve?_among (hscope : ∀ name v, Assoc.get? name scope = some v → v.Among objects natives)
    {name : String} {v : Value} (h : scope.resolve? name = some v) : v.Among objects natives := by
  unfold Scope.resolve? at h
  split at h
  · next w hw =>
      cases h
      exact hscope name v hw
  · obtain ⟨b, -, rfl⟩ := Option.map_eq_some_iff.mp h
    trivial

/-- A jump goes on with slots of the stack. -/
theorem jump_among {kind : JumpKind} {l : Label} (hstack : ∀ v ∈ stack, v.Among objects natives)
    {progress : Progress} (h : execute? read c scope pc (.jump kind l) stack = some progress) :
    progress.Among objects natives := by
  by_cases hkind : kind = .always
  · subst hkind
    cases h
    exact jumpTo_among l hstack
  · rcases stack with _ | ⟨v, s⟩
    · cases kind with
      | always => exact absurd rfl hkind
      | _ => cases h
    · rw [List.forall_mem_cons] at hstack
      obtain hnext | ⟨kept, -, hkept, hjump⟩ := execute?_jump hkind read c scope pc l v s
      · obtain rfl := Option.some.inj (hnext.symm.trans h)
        exact hstack.2
      · obtain rfl := Option.some.inj (hjump.symm.trans h)
        apply jumpTo_among
        intro w hw
        rcases List.mem_append.mp hw with hw | hw
        · rw [hkept w hw]
          exact hstack.1
        · exact hstack.2 w hw

theorem unpack_among (n : UInt64) {v : Value} (hv : v.Among objects natives)
    (hstack : ∀ w ∈ stack, w.Among objects natives) :
    (unpack pc n stack v).Among objects natives := by
  cases v with
  | tuple items =>
      simp only [unpack]
      split
      · intro w hw
        rcases List.mem_append.mp hw with hw | hw
        · exact Value.among_tuple.mp hv w hw
        · exact hstack w hw
      · trivial
  | _ => trivial

theorem operands_among {form : CallForm} {star mapping : Option Value} {rest : List Value}
    (h : form.operands stack = some (star, mapping, rest))
    (hstack : ∀ v ∈ stack, v.Among objects natives) :
    (∀ v, star = some v → v.Among objects natives) ∧ ∀ v ∈ rest, v.Among objects natives := by
  unfold CallForm.operands at h
  split at h
  · cases h
    exact ⟨by simp, hstack⟩
  · cases h
    exact ⟨by simpa using hstack _ (by simp), fun v hv => hstack v (by simp [hv])⟩
  · cases h
    exact ⟨by simp, fun v hv => hstack v (by simp [hv])⟩
  · cases h
    exact ⟨by simpa using hstack _ (by simp), fun v hv => hstack v (by simp [hv])⟩
  · cases h

/-- The arguments of a call are among the slots and the items of the star operand. -/
theorem callArguments_among {spec : ArgSpec} {slots : List Value} {star mapping : Option Value}
    {args : List Value} {kwargs : Kwargs}
    (h : callArguments spec slots star mapping = .ok (args, kwargs))
    (hslots : ∀ v ∈ slots, v.Among objects natives)
    (hstar : ∀ v, star = some v → v.Among objects natives) :
    ∀ v ∈ args, v.Among objects natives := by
  unfold callArguments at h
  cases hn : keywordSlots (slots.drop spec.positional.toNat) with
  | error e => simp [hn, bind, Except.bind] at h
  | ok named =>
      cases hm : starItems star with
      | error e => simp [hn, hm, bind, Except.bind] at h
      | ok more =>
          cases hk : mappingOperand mapping with
          | error e => simp [hn, hm, hk, bind, Except.bind] at h
          | ok mapped =>
              simp only [hn, hm, hk, bind, Except.bind, pure, Except.pure, Except.ok.injEq,
                Prod.mk.injEq] at h
              obtain ⟨rfl, -⟩ := h
              intro v hv
              rcases List.mem_append.mp hv with hv | hv
              · exact hslots v (List.mem_of_mem_take hv)
              · unfold starItems at hm
                split at hm
                · cases hm
                  cases hv
                · cases hm
                  exact Value.among_tuple.mp (hstar _ rfl) v hv
                · cases hm

theorem call?_among (hread : ReadAmong objects natives read) {form : CallForm} {operand : UInt16}
    (hstack : ∀ v ∈ stack, v.Among objects natives) {progress : Progress}
    (h : call? read pc form operand stack = some progress) : progress.Among objects natives := by
  unfold call? at h
  cases hoperands : form.operands stack with
  | none => simp [hoperands] at h
  | some operands =>
      obtain ⟨star, mapping, rest⟩ := operands
      obtain ⟨hstar, hrest⟩ := operands_among hoperands hstack
      simp only [hoperands] at h
      cases hdrop : rest.drop (ArgSpec.decode operand).slots with
      | nil => simp [hdrop] at h
      | cons function below =>
          have hbelow : ∀ v ∈ function :: below, v.Among objects natives := by
            rw [← hdrop]
            exact fun v hv => hrest v (List.mem_of_mem_drop hv)
          have hslots : ∀ v ∈ (rest.take (ArgSpec.decode operand).slots).reverse,
              v.Among objects natives :=
            fun v hv => hrest v (List.mem_of_mem_take (List.mem_reverse.mp hv))
          simp only [hdrop, Option.some.injEq] at h
          subst h
          cases hargs : callArguments (ArgSpec.decode operand)
              (rest.take (ArgSpec.decode operand).slots).reverse star mapping with
          | error e => trivial
          | ok arguments =>
              obtain ⟨args, kwargs⟩ := arguments
              have hmade := callArguments_among hargs hslots hstar
              have hrest' : ∀ v ∈ below, v.Among objects natives :=
                fun v hv => hbelow v (by simp [hv])
              cases function with
              | builtin b => exact push_among hrest' (Builtin.call_among hread b hmade kwargs)
              | native ref => exact ⟨hbelow (.native ref) (by simp), hrest'⟩
              | _ => trivial

end Calls

/-- An instruction takes values of the kind to values of the kind, and calls native functions of
the kind only. -/
theorem execute?_among (hm : Stock objects natives c scope read) {op : Instruction}
    (hop : op ∈ c.instructions) (hstack : ∀ v ∈ stack, v.Among objects natives)
    {progress : Progress} (h : execute? read c scope pc op stack = some progress) :
    progress.Among objects natives := by
  cases op with
  | setLabel l =>
      cases h
      exact hstack
  | loadConst v =>
      cases h
      simpa [Progress.Among] using ⟨hm.constants v hop, hstack⟩
  | loadName n =>
      cases h
      cases hv : scope.resolve? n with
      | none => trivial
      | some v => simpa [Progress.Among] using ⟨resolve?_among hm.scope hv, hstack⟩
  | buildTuple n =>
      simp only [execute?] at h
      split at h
      · cases h
      · cases h
        simp only [Progress.Among, List.forall_mem_cons, Value.among_tuple, List.mem_reverse]
        exact ⟨fun v hv => hstack v (List.mem_of_mem_take hv),
          fun v hv => hstack v (List.mem_of_mem_drop hv)⟩
  | call form operand => exact call?_among hm.read hstack h
  | returnValue =>
      rcases stack with _ | ⟨v, s⟩
      · cases h
      · cases h
        exact hstack v (by simp)
  | jump kind l => exact jump_among hstack h
  | rotThree =>
      rcases stack with _ | ⟨v, _ | ⟨w, _ | ⟨x, s⟩⟩⟩
      · cases h
      · cases h
      · cases h
      · cases h
        simp only [Progress.Among, List.forall_mem_cons] at hstack ⊢
        exact ⟨hstack.2.1, hstack.2.2.1, hstack.1, hstack.2.2.2⟩
  | rotTwo =>
      rcases stack with _ | ⟨v, _ | ⟨w, s⟩⟩
      · cases h
      · cases h
      · cases h
        simp only [Progress.Among, List.forall_mem_cons] at hstack ⊢
        exact ⟨hstack.2.1, hstack.1, hstack.2.2⟩
  | binary op =>
      rcases stack with _ | ⟨r, _ | ⟨l, s⟩⟩
      · cases h
      · cases h
      · cases h
        simp only [List.forall_mem_cons] at hstack
        exact push_among hstack.2.2 (binary_among hstack.2.1 hstack.1)
  | compare op =>
      rcases stack with _ | ⟨r, _ | ⟨l, s⟩⟩
      · cases h
      · cases h
      · cases h
        simp only [List.forall_mem_cons] at hstack
        refine push_among hstack.2.2 ?_
        cases Value.compare op l r with
        | error e => exact resultAmong_error e
        | ok b => exact resultAmong_ok.mpr trivial
  | loadAttr a =>
      rcases stack with _ | ⟨v, s⟩
      · cases h
      · cases h
        simp only [List.forall_mem_cons] at hstack
        exact push_among hstack.2 (loadAttr_among hm.read v a)
  | dupTop =>
      rcases stack with _ | ⟨v, s⟩
      · cases h
      · cases h
        simp only [Progress.Among, List.forall_mem_cons] at hstack ⊢
        exact ⟨hstack.1, hstack⟩
  | popTop =>
      rcases stack with _ | ⟨v, s⟩
      · cases h
      · cases h
        simp only [Progress.Among, List.forall_mem_cons] at hstack ⊢
        exact hstack.2
  | unpackSequence n =>
      rcases stack with _ | ⟨v, s⟩
      · cases h
      · cases h
        simp only [List.forall_mem_cons] at hstack
        exact unpack_among n hstack.1 hstack.2
  | unaryNot =>
      rcases stack with _ | ⟨v, s⟩
      · cases h
      · cases h
        simp only [Progress.Among, List.forall_mem_cons] at hstack ⊢
        exact ⟨trivial, hstack.2⟩
  | unaryNegative =>
      rcases stack with _ | ⟨v, s⟩
      · cases h
      · cases h
        simp only [List.forall_mem_cons] at hstack
        exact push_among hstack.2 (negate_among v)

/-- A step from values of the kind leads to values of the kind, and calls native functions of the
kind only. -/
theorem step_among (hm : Stock objects natives c scope read) {f : Frame}
    (hstack : ∀ v ∈ f.stack, v.Among objects natives) :
    (f.step read c scope).Among objects natives := by
  unfold step
  cases hop : c.instructions[f.pc]? with
  | none => trivial
  | some op =>
      dsimp only
      split
      · trivial
      · cases hexecute : execute? read c scope (f.pc + 1) op f.stack with
        | none => trivial
        | some progress => exact execute?_among hm (List.mem_of_getElem? hop) hstack hexecute

end Frame

section WithoutNatives

mutual

/-- A value of plain data, builtin functions and objects of which `ok` holds. -/
def Value.MadeOf (ok : ObjectRef → Prop) : Value → Prop
  | .native _ => False
  | .object o => ok o
  | .tuple items => Value.AllMadeOf ok items
  | _ => True

/-- A list of such values. -/
def Value.AllMadeOf (ok : ObjectRef → Prop) : List Value → Prop
  | [] => True
  | v :: vs => v.MadeOf ok ∧ Value.AllMadeOf ok vs

end

/-- What attributes are read. -/
def ReadMadeOf (ok : ObjectRef → Prop) (read : AttributeReader) : Prop :=
  ∀ o a v, read o a = some v → v.MadeOf ok

/-- What an evaluation takes its values from: constants, scope and attributes. -/
structure Materials (ok : ObjectRef → Prop) (c : Code) (scope : Scope) (read : AttributeReader) :
    Prop where
  constants : ∀ v, .loadConst v ∈ c.instructions → v.MadeOf ok
  scope : ∀ name v, Assoc.get? name scope = some v → v.MadeOf ok
  read : ReadMadeOf ok read

/-- What a step leads to is made of values of the kind, and is not a call. -/
def Progress.MadeOf (ok : ObjectRef → Prop) : Progress → Prop
  | .running f => ∀ v ∈ f.stack, v.MadeOf ok
  | .calling _ _ => False
  | .finished v => v.MadeOf ok
  | .failed _ => True

variable {ok : ObjectRef → Prop}

mutual

/-- What is made without native functions. -/
theorem Value.madeOf_iff : ∀ {v : Value}, v.MadeOf ok ↔ v.Among ok fun _ => False
  | .tuple items => by rw [Value.MadeOf, Value.Among, Value.allMadeOf_iff]
  | .native _ | .object _ | .none | .bool _ | .int _ | .float _ | .str _ | .builtin _ => Iff.rfl

theorem Value.allMadeOf_iff : ∀ {vs : List Value},
    Value.AllMadeOf ok vs ↔ Value.AllAmong ok (fun _ => False) vs
  | [] => Iff.rfl
  | v :: vs => by
      rw [Value.AllMadeOf, Value.AllAmong, Value.madeOf_iff, Value.allMadeOf_iff]

end

theorem Materials.stock {c : Code} {scope : Scope} {read : AttributeReader}
    (h : Materials ok c scope read) : Stock ok (fun _ => False) c scope read where
  constants := fun v hv => Value.madeOf_iff.mp (h.constants v hv)
  scope := fun name v hv => Value.madeOf_iff.mp (h.scope name v hv)
  read := fun o a v hv => Value.madeOf_iff.mp (h.read o a v hv)

/-- A step from values without native functions calls none. -/
theorem Frame.step_madeOf {c : Code} {scope : Scope} {read : AttributeReader}
    (hm : Materials ok c scope read) {f : Frame} (hstack : ∀ v ∈ f.stack, v.MadeOf ok) :
    (f.step read c scope).MadeOf ok := by
  have hamong := step_among hm.stock fun v hv => Value.madeOf_iff.mp (hstack v hv)
  cases hstep : f.step read c scope with
  | running g =>
      rw [hstep] at hamong
      exact fun v hv => Value.madeOf_iff.mpr (hamong v hv)
  | calling call g =>
      rw [hstep] at hamong
      exact hamong.1
  | finished v =>
      rw [hstep] at hamong
      exact Value.madeOf_iff.mpr hamong
  | failed e => trivial

end WithoutNatives

end TrackedExpr
