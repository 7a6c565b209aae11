import TrackedExpr.Proofs.StackSafety

/-!
# Effects of instructions

What an instruction pops and pushes is written down beside the machine and not read
off it.  Here the machine is taken apart into the single accesses to its stack: the
value on top, so many values from the top, an exchange, a slice.  An access may find
too few values; behind the test that opens a step none does.

**Definitions.**
* `Instruction.branches`: whether a branch is taken;
* `Access`, with `Access.pop`, `Access.top`, `Access.popMany`, `Access.exchange`,
  `Access.insertUnder`, `Access.slice`: single accesses, which answer nothing where they
  find too few values;
* `Instruction.perform`: an instruction as a sequence of accesses.

**Results.**
* `Instruction.run_perform`: the machine does what the accesses do;
* `Instruction.perform_isSome_iff`: the accesses find their values exactly when the stack
  is not shorter than what the instruction pops;
* `Host.turn_underflow_iff`: when a turn ends for want of values;
* `Host.effect_of_goes`: what a turn that goes on does to the stack and to the counter;
* `turn_effect`: all of this together.
-/

namespace TrackedExpr

section Branches

/-- Whether an instruction takes its branch on a stack. -/
def Instruction.branches : Instruction → List Value → Bool
  | .jump .always _, _ => true
  | .jump kind _, v :: _ => kind.takes v
  | _, _ => false

theorem Instruction.branches_of_target? {op : Instruction} (h : op.target? = none)
    (s : List Value) : op.branches s = false := by
  cases op with
  | jump kind l => cases h
  | _ => rfl

end Branches

/-- An access to a stack of values, whose head is the top; nothing where it finds too few. -/
abbrev Access (α : Type) := StateT (List Value) Option α

namespace Access

/-- Takes the top. -/
def pop : Access Value
  | v :: s => some (v, s)
  | [] => none

/-- Looks at the top. -/
def top : Access Value
  | v :: s => some (v, v :: s)
  | [] => none

/-- Takes so many values, which are answered in push order. -/
def popMany (n : Nat) : Access (List Value) := fun s =>
  if n ≤ s.length then some ((s.take n).reverse, s.drop n) else none

def push (v : Value) : Access Unit := fun s => some ((), v :: s)

/-- Puts values on the stack, the first one on top. -/
def pushAll (vs : List Value) : Access Unit := fun s => some ((), vs ++ s)

/-- Exchanges the two values on top. -/
def exchange : Access Unit
  | v :: w :: s => some ((), w :: v :: s)
  | _ => none

/-- Puts a value under so many others. -/
def insertUnder (n : Nat) (v : Value) : Access Unit := fun s =>
  if n ≤ s.length then some ((), s.take n ++ v :: s.drop n) else none

/-- The items of a list between two places. -/
def slice (start stop : Nat) (items : List Value) : Access (List Value) := fun s =>
  if start ≤ stop ∧ stop ≤ items.length then some ((items.drop start).take (stop - start), s)
  else none

/-- Goes on to `pc`. -/
def goOn (pc : Nat) : Access Progress := fun s => some (.running ⟨s, pc⟩, s)

/-- Goes on to `pc` with the result of an operation on top. -/
def answer (pc : Nat) (r : Except EvalError Value) : Access Progress := fun s =>
  some (Frame.push pc s r, s)

def fail (e : EvalError) : Access Progress := fun s => some (.failed e, s)

def branchTo (code : Code) (l : Label) : Access Progress := fun s =>
  some (Frame.jumpTo code l s, s)

/-- The operand that a call form takes on top of the counted ones, if it takes it. -/
def extra (wanted : Bool) : Access (Option Value) :=
  if wanted then some <$> pop else pure none

end Access

/-- Whether a call form takes a tuple of further positional arguments. -/
def CallForm.hasStar : CallForm → Bool
  | .star | .starMapping => true
  | _ => false

/-- Whether a call form takes a tuple of further keyword pairs. -/
def CallForm.hasMapping : CallForm → Bool
  | .mapping | .starMapping => true
  | _ => false

open Access in
/-- An instruction as a sequence of accesses, going on at `pc` unless it jumps. -/
def Instruction.perform (read : AttributeReader) (code : Code) (scope : Scope) (pc : Nat) :
    Instruction → Access Progress
  | .setLabel _ => goOn pc
  | .loadConst v => do
      push v
      goOn pc
  | .loadName n =>
      match scope.resolve? n with
      | some v => do
          push v
          goOn pc
      | none => fail (.unknownName n)
  | .loadAttr a => do
      let target ← pop
      answer pc (TrackedExpr.loadAttr read target a)
  | .dupTop => do
      let v ← top
      push v
      goOn pc
  | .rotTwo => do
      exchange
      goOn pc
  | .rotThree => do
      let v ← pop
      insertUnder 2 v
      goOn pc
  | .popTop => do
      let _ ← pop
      goOn pc
  | .buildTuple n => do
      let items ← popMany n.toNat
      push (.tuple items)
      goOn pc
  | .unpackSequence n => do
      let v ← pop
      match v with
      | .tuple items =>
          if items.length = n.toNat then do
            pushAll items
            goOn pc
          else fail (.unpack n items.length)
      | other => fail (.type (.notASequence other.typeName))
  | .binary op => do
      let r ← pop
      let l ← pop
      answer pc (Value.binary op l r)
  | .compare op => do
      let r ← pop
      let l ← pop
      answer pc ((Value.compare op l r).map Value.bool)
  | .unaryNot => do
      let v ← pop
      push (.bool (!v.isTruthy))
      goOn pc
  | .unaryNegative => do
      let v ← pop
      answer pc v.negate
  | .call form operand => do
      let spec := ArgSpec.decode operand
      let mapping ← extra form.hasMapping
      let star ← extra form.hasStar
      let slots ← popMany spec.slots
      let function ← pop
      let positional ← slice 0 spec.positional.toNat slots
      let named ← slice spec.positional.toNat slots.length slots
      match callArguments spec (positional ++ named) star mapping with
      | .ok (args, kwargs) => fun s => some (Frame.invoke read pc s function args kwargs, s)
      | .error e => fail e
  | .jump .always l => branchTo code l
  | .jump .popIfFalse l => do
      let v ← pop
      if v.isTruthy then goOn pc else branchTo code l
  | .jump .popIfTrue l => do
      let v ← pop
      if v.isTruthy then branchTo code l else goOn pc
  | .jump .ifFalseOrPop l => do
      let v ← top
      if v.isTruthy then do
        let _ ← pop
        goOn pc
      else branchTo code l
  | .jump .ifTrueOrPop l => do
      let v ← top
      if v.isTruthy then branchTo code l
      else do
        let _ ← pop
        goOn pc
  | .returnValue => do
      let v ← pop
      return .finished v

namespace Access

variable {α β : Type} {m : Access α} {f : α → Access β} {a : α} {s t : List Value}

theorem bind_of_some (h : m s = some (a, t)) : (m >>= f) s = f a t := by
  change (m s).bind (fun e => f e.1 e.2) = _
  rw [h, Option.bind_some]

theorem bind_of_none (h : m s = none) : (m >>= f) s = none := by
  change (m s).bind (fun e => f e.1 e.2) = _
  rw [h, Option.bind_none]

theorem popMany_of_le {n : Nat} (h : n ≤ s.length) :
    popMany n s = some ((s.take n).reverse, s.drop n) := if_pos h

theorem popMany_of_lt {n : Nat} (h : s.length < n) : popMany n s = none :=
  if_neg (Nat.not_le_of_lt h)

/-- The two slices of a list at a place in it. -/
theorem slices {n : Nat} {items : List Value} (h : n ≤ items.length) :
    slice 0 n items s = some (items.take n, s) ∧
      slice n items.length items s = some (items.drop n, s) := by
  have hrest : (items.drop n).take (items.length - n) = items.drop n := by
    rw [← List.length_drop, List.take_length]
  exact ⟨if_pos ⟨Nat.zero_le n, h⟩, (if_pos ⟨h, Nat.le_refl _⟩).trans (by rw [hrest])⟩

end Access

namespace Frame

variable {read : AttributeReader} {code : Code} {scope : Scope} {pc : Nat}

/-- The operands above the counted slots, taken one by one. -/
theorem extras_eq (form : CallForm) (k : Option Value → Option Value → Access Progress)
    (s : List Value) :
    (do let mapping ← Access.extra form.hasMapping
        let star ← Access.extra form.hasStar
        k star mapping : Access Progress) s
      = (form.operands s).bind fun e => k e.1 e.2.1 e.2.2 := by
  cases form with
  | starMapping => obtain _ | ⟨m, _ | ⟨t, s⟩⟩ := s <;> rfl
  | _ => cases s <;> rfl

theorem run_perform_call (form : CallForm) (operand : UInt16) (s : List Value) :
    ((Instruction.call form operand).perform read code scope pc s).map Prod.fst
      = call? read pc form operand s := by
  simp only [Instruction.perform, call?]
  rw [extras_eq form]
  cases hoperands : form.operands s with
  | none => rfl
  | some operands =>
      obtain ⟨star, mapping, rest⟩ := operands
      generalize hspec : ArgSpec.decode operand = spec
      dsimp only [Option.bind_some]
      by_cases hlt : rest.length < spec.slots
      · rw [Access.bind_of_none (Access.popMany_of_lt hlt),
          List.drop_eq_nil_of_le (Nat.le_of_lt hlt)]
        rfl
      · rw [Access.bind_of_some (Access.popMany_of_le (Nat.le_of_not_lt hlt))]
        cases hdrop : rest.drop spec.slots with
        | nil => rfl
        | cons function below =>
            have hslots : spec.positional.toNat ≤ (rest.take spec.slots).reverse.length := by
              rw [List.length_reverse, List.length_take, Nat.min_eq_left (Nat.le_of_not_lt hlt)]
              exact Nat.le_add_right _ _
            obtain ⟨hpositional, hnamed⟩ := Access.slices (s := below) hslots
            rw [Access.bind_of_some rfl, Access.bind_of_some hpositional,
              Access.bind_of_some hnamed, List.take_append_drop]
            cases callArguments spec (rest.take spec.slots).reverse star mapping <;> rfl

theorem run_perform_unpack (n : UInt64) (s : List Value) :
    ((Instruction.unpackSequence n).perform read code scope pc s).map Prod.fst
      = execute? read code scope pc (.unpackSequence n) s := by
  obtain _ | ⟨v, s⟩ := s
  · rfl
  · cases v with
    | tuple items =>
        by_cases hn : items.length = n.toNat
        · simp only [execute?, unpack, hn, if_true]
          rw [Instruction.perform, Access.bind_of_some rfl]
          simp only [hn, if_true]
          rfl
        · simp only [execute?, unpack, hn, if_false]
          rw [Instruction.perform, Access.bind_of_some rfl]
          simp only [hn, if_false]
          rfl
    | _ => rfl

theorem run_perform_jump (kind : JumpKind) (l : Label) (s : List Value) :
    ((Instruction.jump kind l).perform read code scope pc s).map Prod.fst
      = execute? read code scope pc (.jump kind l) s := by
  cases kind with
  | always => rfl
  | _ =>
      obtain _ | ⟨v, s⟩ := s
      · rfl
      · simp only [Instruction.perform, execute?]
        cases htruthy : v.isTruthy
        all_goals
          rw [Access.bind_of_some rfl, htruthy]
          rfl

/-- **The machine does what the accesses do.** -/
theorem run_perform (op : Instruction) (s : List Value) :
    (op.perform read code scope pc s).map Prod.fst = execute? read code scope pc op s := by
  cases op with
  | call form operand => exact run_perform_call form operand s
  | jump kind l => exact run_perform_jump kind l s
  | unpackSequence n => exact run_perform_unpack n s
  | loadName n =>
      simp only [Instruction.perform, execute?]
      cases scope.resolve? n <;> rfl
  | rotTwo => obtain _ | ⟨v, _ | ⟨w, s⟩⟩ := s <;> rfl
  | rotThree => obtain _ | ⟨v, _ | ⟨w, _ | ⟨x, s⟩⟩⟩ := s <;> rfl
  | binary op => obtain _ | ⟨r, _ | ⟨l, s⟩⟩ := s <;> rfl
  | compare op => obtain _ | ⟨r, _ | ⟨l, s⟩⟩ := s <;> rfl
  | buildTuple n =>
      simp only [Instruction.perform, execute?]
      by_cases h : s.length < n.toNat
      · rw [Access.bind_of_none (Access.popMany_of_lt h), if_pos h]
        rfl
      · rw [Access.bind_of_some (Access.popMany_of_le (Nat.le_of_not_lt h)), if_neg h]
        rfl
  | _ => cases s <;> rfl

theorem length_of_operands {form : CallForm} {star mapping : Option Value} {s rest : List Value}
    (h : form.operands s = some (star, mapping, rest)) :
    s.length = rest.length + form.extras := by
  cases form with
  | plain =>
      cases h
      rfl
  | starMapping =>
      obtain _ | ⟨m, _ | ⟨t, s⟩⟩ := s
      · cases h
      · cases h
      · cases h
        rfl
  | _ =>
      obtain _ | ⟨v, s⟩ := s
      · cases h
      · cases h
        rfl

/-- A call finds its values only on a stack that holds what it pops. -/
theorem pops_le_of_call? {form : CallForm} {operand : UInt16} {s : List Value}
    {progress : Progress} (h : call? read pc form operand s = some progress) :
    ((Instruction.call form operand).effect false).pops ≤ s.length := by
  simp only [call?] at h
  split at h
  · cases h
  · next star mapping rest hoperands =>
      split at h
      · cases h
      · next function below hdrop =>
          have hlength := congrArg List.length hdrop
          rw [List.length_drop, List.length_cons] at hlength
          rw [length_of_operands hoperands]
          simp only [Instruction.effect]
          omega

/-- An instruction finds its values only on a stack that holds what it pops. -/
theorem pops_le_of_execute? {op : Instruction} {s : List Value} {progress : Progress}
    (h : execute? read code scope pc op s = some progress) :
    (op.effect false).pops ≤ s.length := by
  cases op with
  | call form operand => exact pops_le_of_call? h
  | jump kind l =>
      cases kind with
      | always => exact Nat.zero_le _
      | _ =>
          obtain _ | ⟨v, s⟩ := s
          · cases h
          · exact Nat.le_add_left 1 _
  | buildTuple n =>
      simp only [execute?] at h
      split at h
      · cases h
      · next hlt => exact Nat.le_of_not_lt hlt
  | rotThree =>
      obtain _ | ⟨v, _ | ⟨w, _ | ⟨x, s⟩⟩⟩ := s
      · cases h
      · cases h
      · cases h
      · exact Nat.le_add_left 3 _
  | rotTwo =>
      obtain _ | ⟨v, _ | ⟨w, s⟩⟩ := s
      · cases h
      · cases h
      · exact Nat.le_add_left 2 _
  | binary op =>
      obtain _ | ⟨r, _ | ⟨l, s⟩⟩ := s
      · cases h
      · cases h
      · exact Nat.le_add_left 2 _
  | compare op =>
      obtain _ | ⟨r, _ | ⟨l, s⟩⟩ := s
      · cases h
      · cases h
      · exact Nat.le_add_left 2 _
  | setLabel l => exact Nat.zero_le _
  | loadConst v => exact Nat.zero_le _
  | loadName n => exact Nat.zero_le _
  | _ =>
      obtain _ | ⟨v, s⟩ := s
      · cases h
      · exact Nat.le_add_left 1 _

/-- The accesses find their values exactly when the stack holds what the instruction pops. -/
theorem perform_isSome_iff (op : Instruction) (s : List Value) :
    (op.perform read code scope pc s).isSome = true ↔ (op.effect false).pops ≤ s.length := by
  rw [← Option.isSome_map (f := Prod.fst), run_perform, Option.isSome_iff_exists]
  constructor
  · rintro ⟨progress, hprogress⟩
    exact pops_le_of_execute? hprogress
  · intro h
    obtain ⟨progress, hprogress, -⟩ := @execute?_conforms code pc op s read scope h
    exact ⟨progress, hprogress⟩

section Steps

variable {f g : Frame} {op : Instruction}

/-- A step with enough values is what the accesses of its instruction lead to. -/
theorem exists_perform_of_le (hop : code.instructions[f.pc]? = some op)
    (h : (op.effect false).pops ≤ f.depth) :
    ∃ progress rest,
      op.perform read code scope (f.pc + 1) f.stack = some (progress, rest) ∧
        f.step read code scope = progress := by
  obtain ⟨⟨progress, rest⟩, hperform⟩ :=
    Option.isSome_iff_exists.mp ((perform_isSome_iff op f.stack).mpr h)
  have hexecute := @run_perform read code scope (f.pc + 1) op f.stack
  rw [hperform, Option.map_some] at hexecute
  have hlong : ¬ f.stack.length < (op.effect false).pops := Nat.not_lt_of_le h
  refine ⟨progress, rest, hperform, ?_⟩
  simp only [step, hop, hlong, ← hexecute, if_false]

/-- **A step fails for want of values** exactly when there is an instruction that pops more than
the stack holds. -/
theorem step_underflow_iff {i : Nat} {n : String} :
    f.step read code scope = .failed (.stackUnderflow i n) ↔
      ∃ op, code.instructions[f.pc]? = some op ∧ f.depth < (op.effect false).pops ∧
        i = f.pc ∧ n = op.opname := by
  constructor
  · intro hstep
    cases hop : code.instructions[f.pc]? with
    | none => simp [step, hop] at hstep
    | some op =>
        by_cases hlt : f.depth < (op.effect false).pops
        · have hshort : f.stack.length < (op.effect false).pops := hlt
          simp only [step, hop, hshort, if_true, Progress.failed.injEq,
            EvalError.stackUnderflow.injEq] at hstep
          exact ⟨op, rfl, hlt, hstep.1.symm, hstep.2.symm⟩
        · -- with enough values no failure of this kind is left
          have hconforms := @step_conforms code scope f read op hop (Nat.le_of_not_lt hlt)
          rw [hstep] at hconforms
          cases hconforms with
          | failed he => cases he
  · rintro ⟨op, hop, hlt, rfl, rfl⟩
    have hshort : f.stack.length < (op.effect false).pops := hlt
    simp only [step, hop, hshort, if_true]

/-- What an instruction does to the stack and to the program counter, with or without its branch. -/
structure Moves (code : Code) (op : Instruction) (taken : Bool) (f g : Frame) : Prop where
  enough : (op.effect taken).pops ≤ f.depth
  height : g.depth = f.depth - (op.effect taken).pops + (op.effect taken).pushes
  below : g.stack.drop (op.effect taken).pushes = f.stack.drop (op.effect taken).pops
  counter : if taken then ∃ l, op.target? = some l ∧ code.labelIndex? l = some g.pc
    else g.pc = f.pc + 1

theorem moves_of_pushed {taken : Bool} {pushed : List Value} {pc : Nat}
    (h : (op.effect false).pops ≤ f.depth)
    (hpushed : pushed.length = (op.effect taken).pushes)
    (hcounter : if taken then ∃ l, op.target? = some l ∧ code.labelIndex? l = some pc
      else pc = f.pc + 1) :
    Moves code op taken f ⟨pushed ++ f.stack.drop (op.effect taken).pops, pc⟩ where
  enough := by rwa [op.effect_pops]
  height := depth_append_drop hpushed
  below := by rw [← hpushed, List.drop_left]
  counter := hcounter

/-- A jump goes on as its branch says. -/
theorem moves_of_jump {kind : JumpKind} {l : Label}
    (hop : code.instructions[f.pc]? = some (.jump kind l))
    (h : ((Instruction.jump kind l).effect false).pops ≤ f.depth)
    (hstep : f.step read code scope = .running g) :
    Moves code (.jump kind l) ((Instruction.jump kind l).branches f.stack) f g := by
  have hlong : ¬ f.stack.length < ((Instruction.jump kind l).effect false).pops :=
    Nat.not_lt_of_le h
  -- a branch that is taken goes on at its label
  have hjump : ∀ {kept : List Value},
      kept.length = ((Instruction.jump kind l).effect true).pushes →
      jumpTo code l (kept ++ f.stack.drop ((Instruction.jump kind l).effect true).pops)
        = .running g → Moves code (.jump kind l) true f g := by
    intro kept hkept hrunning
    unfold jumpTo at hrunning
    split at hrunning
    · next t ht =>
        cases hrunning
        exact moves_of_pushed h hkept ⟨l, rfl, ht⟩
    · cases hrunning
  simp only [step, hop, hlong, if_false] at hstep
  by_cases hkind : kind = .always
  · subst hkind
    exact @hjump [] rfl hstep
  · obtain ⟨pc, v, s, rfl⟩ : ∃ pc v s, f = ⟨v :: s, pc⟩ := by
      obtain ⟨_ | ⟨v, s⟩, pc⟩ := f
      · cases kind <;> simp [Instruction.effect] at hlong hkind
      · exact ⟨pc, v, s, rfl⟩
    obtain ⟨kept, hkept, -, hexecute⟩ := execute?_jump_takes hkind read code scope (pc + 1) l v s
    rw [hexecute] at hstep
    have hbranches : (Instruction.jump kind l).branches (v :: s) = kind.takes v := by
      cases kind with
      | always => exact absurd rfl hkind
      | _ => rfl
    have hbelow : ∀ taken,
        (v :: s).drop ((Instruction.jump kind l).effect taken).pops = s := by
      intro taken
      cases kind with
      | always => exact absurd rfl hkind
      | _ => rfl
    have hnone : ((Instruction.jump kind l).effect false).pushes = 0 := by cases kind <;> rfl
    dsimp only at hstep hjump
    rw [hbranches]
    cases htakes : kind.takes v with
    | true =>
        rw [htakes, if_pos rfl] at hstep
        exact hjump hkept (by rw [hbelow]; exact hstep)
    | false =>
        rw [htakes, if_neg Bool.false_ne_true] at hstep
        cases hstep
        have hmoves := @moves_of_pushed code ⟨v :: s, pc⟩ (.jump kind l) false [] (pc + 1) h
          hnone.symm rfl
        rwa [hbelow] at hmoves

/-- An instruction that is no jump goes on behind itself. -/
theorem moves_of_conforms (hop : code.instructions[f.pc]? = some op)
    (h : (op.effect false).pops ≤ f.depth) (htarget : op.target? = none)
    (hstep : f.step read code scope = .running g) : Moves code op false f g := by
  have hconforms := @step_conforms code scope f read op hop h
  rw [hstep] at hconforms
  cases hconforms with
  | next pushed _ hpushed => exact moves_of_pushed h hpushed rfl
  | taken pushed hl _ _ =>
      rw [htarget] at hl
      cases hl

/-- A step that does not fail has an instruction and the values that it pops. -/
theorem exists_op_of_step (hgoes : ∀ e, f.step read code scope ≠ .failed e) :
    ∃ op, code.instructions[f.pc]? = some op ∧ (op.effect false).pops ≤ f.depth := by
  cases hop : code.instructions[f.pc]? with
  | none => exact absurd (by simp [step, hop]) (hgoes .missingReturn)
  | some op =>
      refine ⟨op, rfl, Nat.le_of_not_lt fun hlt => ?_⟩
      exact hgoes _ (step_underflow_iff.mpr ⟨op, hop, hlt, rfl, rfl⟩)

/-- **A step that goes on** moves as the effect of its instruction says. -/
theorem moves_of_running (hstep : f.step read code scope = .running g) :
    ∃ op, code.instructions[f.pc]? = some op ∧ Moves code op (op.branches f.stack) f g := by
  obtain ⟨op, hop, h⟩ := @exists_op_of_step read code scope f fun e => by simp [hstep]
  refine ⟨op, hop, ?_⟩
  cases htarget : op.target? with
  | none =>
      rw [Instruction.branches_of_target? htarget]
      exact moves_of_conforms hop h htarget hstep
  | some l =>
      cases op with
      | jump kind k => exact moves_of_jump hop h hstep
      | _ => cases htarget

/-- **A call that is answered** moves as the effect of its instruction says. -/
theorem moves_of_calling {call : NativeCall} (hstep : f.step read code scope = .calling call g)
    (v : Value) : ∃ op, code.instructions[f.pc]? = some op ∧
      Moves code op (op.branches f.stack) f (g.resume v) := by
  obtain ⟨op, hop, h⟩ := @exists_op_of_step read code scope f fun e => by simp [hstep]
  refine ⟨op, hop, ?_⟩
  have hconforms := @step_conforms code scope f read op hop h
  rw [hstep] at hconforms
  cases hconforms with
  | calling hterm hpushes _ =>
      have htarget : op.target? = none := by
        cases op with
        | jump kind l =>
            cases kind <;> simp [Instruction.isTerminal, Instruction.effect] at hterm hpushes
        | _ => rfl
      rw [Instruction.branches_of_target? htarget]
      exact @moves_of_pushed _ _ _ _ [v] _ h hpushes.symm rfl

end Steps

end Frame

universe u

variable {σ : Type u} {host : Host σ} {code : Code} {scope : Scope} {f g : Frame} {s t : σ}

/-- A turn ends for want of values exactly when the stack is shorter than what the instruction
pops, or a native function that is called answers so. -/
theorem Host.turn_underflow_iff {i : Nat} {n : String} :
    host.turn code scope f s = .ends (.error (.stackUnderflow i n)) t ↔
      (∃ op, code.instructions[f.pc]? = some op ∧ f.depth < (op.effect false).pops ∧
        i = f.pc ∧ n = op.opname ∧ t = s) ∨
      ∃ call g, f.step (host.read s) code scope = .calling call g ∧
        host.call call s = (t, .error (.stackUnderflow i n)) := by
  constructor
  · intro hturn
    obtain ⟨v, -, hr, -⟩ | ⟨e, hstep, hr, rfl⟩ | ⟨call, g, e, hstep, hcall, hr⟩ :=
      Host.turn_ends hturn
    · cases hr
    · cases hr
      obtain ⟨op, hop, hlt, rfl, rfl⟩ := Frame.step_underflow_iff.mp hstep
      exact Or.inl ⟨op, hop, hlt, rfl, rfl, rfl⟩
    · cases hr
      exact Or.inr ⟨call, g, hstep, hcall⟩
  · rintro (⟨op, hop, hlt, rfl, rfl, rfl⟩ | ⟨call, g, hstep, hcall⟩)
    · have hstep := (@Frame.step_underflow_iff (host.read t) code scope f f.pc op.opname).mpr
        ⟨op, hop, hlt, rfl, rfl⟩
      rw [Host.turn, hstep]
    · rw [Host.turn, hstep]
      simp only [hcall]

/-- What a turn that goes on does to the stack and to the program counter. -/
theorem Host.moves_of_goes (hturn : host.turn code scope f s = .goes g t) :
    ∃ op, code.instructions[f.pc]? = some op ∧
      Frame.Moves code op (op.branches f.stack) f g := by
  obtain ⟨hstep, -⟩ | ⟨call, k, v, hstep, -, rfl⟩ := Host.turn_goes hturn
  · exact Frame.moves_of_running hstep
  · exact Frame.moves_of_calling hstep v

/-- **The effects are those of the machine.**  In every frame, whatever attributes hold and native
functions answer: a turn lacks values exactly when its instruction pops more than the stack holds,
or a native function says so; a turn that goes on leaves the stack below what is popped as it was,
with as many values more as are pushed, and goes on at the next instruction or, exactly if the
branch is taken, at its label; and each access of an instruction with enough values on the stack
finds what it looks for. -/
theorem turn_effect (host : Host σ) (code : Code) (scope : Scope) (f : Frame) (s : σ) :
    (∀ i n t, host.turn code scope f s = .ends (.error (.stackUnderflow i n)) t ↔
      (∃ op, code.instructions[f.pc]? = some op ∧ f.depth < (op.effect false).pops ∧
        i = f.pc ∧ n = op.opname ∧ t = s) ∨
      ∃ call g, f.step (host.read s) code scope = .calling call g ∧
        host.call call s = (t, .error (.stackUnderflow i n))) ∧
    (∀ g t, host.turn code scope f s = .goes g t → ∃ op, code.instructions[f.pc]? = some op ∧
      Frame.Moves code op (op.branches f.stack) f g) ∧
    ∀ op, code.instructions[f.pc]? = some op → (op.effect false).pops ≤ f.depth →
      ∃ progress rest,
        op.perform (host.read s) code scope (f.pc + 1) f.stack = some (progress, rest) ∧
          f.step (host.read s) code scope = progress :=
  ⟨fun _ _ _ => Host.turn_underflow_iff, fun _ _ => Host.moves_of_goes,
    fun _ => Frame.exists_perform_of_le⟩

/-- A host without attributes, in which native functions answer nothing. -/
def bareHost : Host Unit where
  read := fun _ _ _ => none
  call := fun _ s => (s, .ok .none)

/-- At the jump of `a.x and b`, on a false value, with something below, and on no value. -/
theorem turn_effect_shortCircuit :
    (∃ op, shortCircuit.instructions[2]? = some op ∧
      op.branches [.bool false, .int 7] = true ∧
      Frame.Moves shortCircuit op (op.branches [.bool false, .int 7])
        ⟨[.bool false, .int 7], 2⟩ ⟨[.bool false, .int 7], 4⟩) ∧
    bareHost.turn shortCircuit [] ⟨[], 2⟩ ()
      = .ends (.error (.stackUnderflow 2 "JUMP_IF_FALSE_OR_POP")) () := by
  constructor
  · have hgoes : bareHost.turn shortCircuit [] ⟨[.bool false, .int 7], 2⟩ ()
        = .goes ⟨[.bool false, .int 7], 4⟩ () := rfl
    obtain ⟨op, hop, hmoves⟩ := (turn_effect bareHost shortCircuit [] _ ()).2.1 _ _ hgoes
    obtain rfl := Option.some.inj hop
    exact ⟨_, rfl, rfl, hmoves⟩
  · exact ((turn_effect bareHost shortCircuit [] ⟨[], 2⟩ ()).1 _ _ _).mpr
      (Or.inl ⟨.jump .ifFalseOrPop ⟨0⟩, rfl, Nat.zero_lt_one, rfl, rfl, rfl⟩)

end TrackedExpr
