import TrackedExpr.Proofs.Aims
import TrackedExpr.Proofs.Runs

/-!
# Sites

A stock site calls its side-call with what is on the stack and puts the stack back
as it was.  On a stack that is too short for the instruction behind it, it fails as
that instruction would.

**Definitions.**
* `siteFor`: the sequence that a stock monitor places in front of an instruction;
* `sideCallAt`, `siteAnswer`: the call it makes and the answer it needs;
* `Frame.pendingCall?`: the call that the next step makes;
* `Frame.Within`: being inside a site;
* `Host.Served`: the side-calls of all sites in front of an instruction.

**Results.**
* `Host.site_path`, `Host.sites_path`: a site, and a row of sites, runs through, and its only
  effect is that of the side-calls;
* `Host.site_underflow`: a site on a stack that is too short;
* `Frame.pendingCall?_of_calling`: the call that is handed to the host is the one pending.
-/

namespace TrackedExpr

universe u

/-- What stock monitors place in front of an instruction. -/
def siteFor : Instruction → NativeRef → List Instruction
  | .loadAttr a, ref => attributeSite ref a
  | .call .plain raw, ref => callSite ref raw
  | _, _ => []

/-- Sites make plain calls only. -/
theorem plain_of_mem_siteFor {op : Instruction} {ref : NativeRef} {form : CallForm} {raw : UInt16}
    (h : .call form raw ∈ siteFor op ref) : form = .plain := by
  cases op with
  | loadAttr a =>
      obtain ⟨hform, -⟩ : form = .plain ∧ raw = 2 := by simpa [siteFor, attributeSite] using h
      exact hform
  | call form' raw' =>
      cases form' with
      | plain =>
          obtain ⟨hform, -⟩ : form = .plain ∧ raw = 3 := by simpa [siteFor, callSite] using h
          exact hform
      | _ => cases h
  | _ => cases h

/-- The call that a site makes on a stack; none if the stack is too short. -/
def sideCallAt (ref : NativeRef) : Instruction → List Value → Option NativeCall
  | .loadAttr a, v :: below => some ⟨ref, [v, .str a], [], v :: below⟩
  | .call .plain raw, stack =>
      match stack.drop (ArgSpec.decode raw).slots with
      | function :: below =>
          some ⟨ref, [function, .tuple (callSlots raw stack), .int (Int64.ofNat raw.toNat)], [],
            below⟩
      | [] => none
  | _, _ => none

/-- The answer that lets a site put the stack back. -/
def siteAnswer : Instruction → List Value → Value
  | .call .plain raw, stack =>
      match stack.drop (ArgSpec.decode raw).slots with
      | function :: _ => .tuple [.tuple (callSlots raw stack).reverse, function]
      | [] => .none
  | _, _ => .none

/-- A site makes its call if the stack holds what the instruction behind it pops. -/
theorem sideCallAt_isSome {ref : NativeRef} {op : Instruction} {stack : List Value}
    (hsite : siteFor op ref ≠ []) (h : (op.effect false).pops ≤ stack.length) :
    ∃ call, sideCallAt ref op stack = some call := by
  cases op with
  | loadAttr a =>
      obtain _ | ⟨v, below⟩ := stack
      · simp [Instruction.effect] at h
      · exact ⟨_, rfl⟩
  | call form raw =>
      cases form with
      | plain =>
          have hlt : (ArgSpec.decode raw).slots < stack.length := by
            simp only [Instruction.effect, CallForm.extras] at h
            omega
          obtain ⟨function, below, hdrop⟩ := List.exists_cons_of_length_pos
            (show 0 < (stack.drop (ArgSpec.decode raw).slots).length by
              rw [List.length_drop]
              omega)
          exact ⟨_, by rw [sideCallAt, hdrop]⟩
      | _ => exact absurd rfl hsite
  | _ => exact absurd rfl hsite

/-- The counts of a call operand fit a machine word. -/
theorem toNat_ofNat_slots (raw : UInt16) :
    (UInt64.ofNat (ArgSpec.decode raw).slots).toNat = (ArgSpec.decode raw).slots := by
  have hpositional := (ArgSpec.decode raw).positional.toNat_lt
  have hkeyword := (ArgSpec.decode raw).keyword.toNat_lt
  apply UInt64.toNat_ofNat_of_lt'
  simp only [ArgSpec.slots, UInt64.size]
  omega

/-- The native call that a step makes. -/
def Progress.native? : Progress → Option NativeCall
  | .calling call _ => some call
  | _ => none

namespace Frame

/-- What a call instruction passes on; none if the operands are missing or malformed. -/
def callReport? (form : CallForm) (operand : UInt16) (stack : List Value) : Option CallReport :=
  match form.operands stack with
  | none => none
  | some (star, mapping, rest) =>
      match rest.drop (ArgSpec.decode operand).slots with
      | [] => none
      | function :: _ =>
          match callArguments (ArgSpec.decode operand)
              (rest.take (ArgSpec.decode operand).slots).reverse star mapping with
          | .ok (args, kwargs) => some ⟨function, args, kwargs⟩
          | .error _ => none

/-- The call that the next step makes. -/
def pendingCall? (c : Code) (f : Frame) : Option CallReport :=
  match c.instructions[f.pc]? with
  | some (.call form operand) => callReport? form operand f.stack
  | _ => none

/-- The frame is between two places, is aimed at nothing and makes no call but the side-call. -/
def Within (c : Code) (ref : NativeRef) (p q : Nat) (f : Frame) : Prop :=
  p ≤ f.pc ∧ f.pc < q ∧ f.aim? c = none ∧
    ∀ r, f.pendingCall? c = some r → r.function = .native ref

variable {c : Code}

/-- A call is made as it is reported; if there is none, it fails, or its operands are missing,
whatever attributes hold. -/
theorem call?_cases (pc : Nat) (form : CallForm) (operand : UInt16) (stack : List Value) :
    (∃ r below, callReport? form operand stack = some r ∧ ∀ read,
      call? read pc form operand stack = some (invoke read pc below r.function r.args r.kwargs)) ∨
    callReport? form operand stack = none ∧ ∃ e : Option EvalError, ∀ read,
      call? read pc form operand stack = e.map Progress.failed := by
  unfold callReport? call?
  cases hoperands : form.operands stack with
  | none => exact Or.inr ⟨rfl, none, fun _ => rfl⟩
  | some operands =>
      obtain ⟨star, mapping, rest⟩ := operands
      dsimp only
      cases hdrop : rest.drop (ArgSpec.decode operand).slots with
      | nil => exact Or.inr ⟨rfl, none, fun _ => rfl⟩
      | cons function below =>
          dsimp only
          cases hargs : callArguments (ArgSpec.decode operand)
              (rest.take (ArgSpec.decode operand).slots).reverse star mapping with
          | error e => exact Or.inr ⟨rfl, some e, fun _ => rfl⟩
          | ok arguments =>
              obtain ⟨args, kwargs⟩ := arguments
              exact Or.inl ⟨⟨function, args, kwargs⟩, below, rfl, fun _ => rfl⟩

theorem call?_of_report {pc : Nat} {form : CallForm} {operand : UInt16} {stack : List Value}
    {r : CallReport} (h : callReport? form operand stack = some r) :
    ∃ below, ∀ read, call? read pc form operand stack
      = some (invoke read pc below r.function r.args r.kwargs) := by
  rcases call?_cases pc form operand stack with ⟨r', below, hr', hcall⟩ | ⟨hnone, -⟩
  · obtain rfl := Option.some.inj (hr'.symm.trans h)
    exact ⟨below, hcall⟩
  · rw [hnone] at h
    cases h

theorem call?_of_no_report {pc : Nat} {form : CallForm} {operand : UInt16} {stack : List Value}
    (h : callReport? form operand stack = none) :
    ∃ e : Option EvalError, ∀ read, call? read pc form operand stack = e.map Progress.failed := by
  rcases call?_cases pc form operand stack with ⟨r, below, hr, -⟩ | ⟨-, hcall⟩
  · rw [hr] at h
    cases h
  · exact hcall

theorem operands_length :
    ∀ {form : CallForm} {stack rest : List Value} {star mapping : Option Value},
      form.operands stack = some (star, mapping, rest) →
        stack.length = rest.length + form.extras
  | .plain, _, _, _, _, h => by cases h; rfl
  | .star, _ :: _, _, _, _, h => by cases h; rfl
  | .mapping, _ :: _, _, _, _, h => by cases h; rfl
  | .starMapping, _ :: _ :: _, _, _, _, h => by cases h; rfl

theorem pendingCall?_of_ne_call {f : Frame} {op : Instruction}
    (hop : c.instructions[f.pc]? = some op) (h : op.isCall = false) :
    f.pendingCall? c = none := by
  unfold pendingCall?
  rw [hop]
  cases op with
  | call form operand => cases h
  | _ => rfl

theorem within_of_not_takesAim {ref : NativeRef} {p q : Nat} {f : Frame} {op : Instruction}
    (hop : c.instructions[f.pc]? = some op) (h : op.takesAim = false) (hp : p ≤ f.pc)
    (hq : f.pc < q) : f.Within c ref p q := by
  refine ⟨hp, hq, ?_, ?_⟩
  · rw [aim?_eq hop, Instruction.aim?_of_not_takesAim h]
  · intro r hr
    rw [pendingCall?_of_ne_call hop (Instruction.isCall_of_not_takesAim h)] at hr
    cases hr

/-- A plain call of the native function of a site is its side-call. -/
theorem within_of_sideCall {ref : NativeRef} {p q : Nat} {f : Frame} {raw : UInt16}
    {below : List Value} (hop : c.instructions[f.pc]? = some (.call .plain raw))
    (hfunction : f.stack.drop (ArgSpec.decode raw).slots = .native ref :: below) (hp : p ≤ f.pc)
    (hq : f.pc < q) : f.Within c ref p q := by
  refine ⟨hp, hq, ?_, ?_⟩
  · rw [aim?_eq hop]
    exact Instruction.aim?_call_native hfunction
  · intro r hr
    simp only [pendingCall?, hop, callReport?, CallForm.operands, hfunction] at hr
    split at hr
    · cases hr
      rfl
    · cases hr

/-- A call on a stack that is too short is not made. -/
theorem pendingCall?_of_short {f : Frame} {op : Instruction}
    (hop : c.instructions[f.pc]? = some op) (h : f.stack.length < (op.effect false).pops) :
    f.pendingCall? c = none := by
  unfold pendingCall?
  rw [hop]
  cases op with
  | call form operand =>
      dsimp only
      unfold callReport?
      cases hoperands : form.operands f.stack with
      | none => rfl
      | some operands =>
          obtain ⟨star, mapping, rest⟩ := operands
          have hrest := operands_length hoperands
          have hdrop : rest.drop (ArgSpec.decode operand).slots = [] := by
            rw [List.drop_eq_nil_iff]
            simp only [Instruction.effect] at h
            omega
          simp [hdrop]
  | _ => rfl

section NativeCalls

variable {scope : Scope} {read : AttributeReader}

theorem native?_push (pc : Nat) (stack : List Value) (r : Except EvalError Value) :
    (push pc stack r).native? = none := by
  cases r <;> rfl

theorem native?_jumpTo (l : Label) (stack : List Value) : (jumpTo c l stack).native? = none := by
  unfold jumpTo
  split <;> rfl

theorem native?_unpack (pc : Nat) (n : UInt64) (stack : List Value) (v : Value) :
    (unpack pc n stack v).native? = none := by
  unfold unpack
  split
  · split <;> rfl
  · rfl

theorem native?_invoke {pc : Nat} {below : List Value} {function : Value} {args : List Value}
    {kwargs : Kwargs} {call : NativeCall}
    (h : (invoke read pc below function args kwargs).native? = some call) :
    function = .native call.function := by
  unfold invoke at h
  split at h
  · rw [native?_push] at h
    cases h
  · cases h
    rfl
  · cases h

/-- Only calls call native functions. -/
theorem native?_of_ne_call {pc : Nat} {op : Instruction} {stack : List Value}
    {progress : Progress} (hop : op.isCall = false)
    (h : execute? read c scope pc op stack = some progress) : progress.native? = none := by
  cases op with
  | call form operand => cases hop
  | jump kind l =>
      cases kind with
      | always =>
          cases h
          exact native?_jumpTo l stack
      | _ =>
          cases stack with
          | nil => cases h
          | cons v s =>
              cases h
              split
              all_goals first | rfl | exact native?_jumpTo l _
  | loadName n =>
      simp only [execute?, Option.some.injEq] at h
      subst h
      split <;> rfl
  | buildTuple n =>
      simp only [execute?] at h
      split at h
      · cases h
      · cases h
        rfl
  | _ =>
      rcases stack with _ | ⟨_, _ | ⟨_, _ | ⟨_, _⟩⟩⟩
      all_goals
        cases h
        try first | rfl | exact native?_push _ _ _ | exact native?_unpack _ _ _ _

/-- A call that is handed to the host is the call that is pending. -/
theorem pendingCall?_of_calling {f g : Frame} {call : NativeCall}
    (h : f.step read c scope = .calling call g) :
    ∃ r, f.pendingCall? c = some r ∧ r.function = .native call.function := by
  unfold step at h
  unfold pendingCall?
  cases hop : c.instructions[f.pc]? with
  | none => simp [hop] at h
  | some op =>
      simp only [hop] at h
      split at h
      · cases h
      · cases hexecute : execute? read c scope (f.pc + 1) op f.stack with
        | none => simp [hexecute] at h
        | some progress =>
            obtain rfl : progress = .calling call g := by simpa [hexecute] using h
            cases hcalls : op.isCall with
            | false => cases native?_of_ne_call hcalls hexecute
            | true =>
                cases op with
                | call form operand =>
                    dsimp only
                    cases hreport : callReport? form operand f.stack with
                    | none =>
                        obtain ⟨e, hcall⟩ := @call?_of_no_report (f.pc + 1) _ _ _ hreport
                        rw [execute?, hcall] at hexecute
                        cases e <;> cases hexecute
                    | some r =>
                        obtain ⟨below, hcall⟩ := @call?_of_report (f.pc + 1) _ _ _ _ hreport
                        rw [execute?, hcall, Option.some.injEq] at hexecute
                        exact ⟨r, rfl, native?_invoke (congrArg Progress.native? hexecute)⟩
                | _ => cases hcalls

end NativeCalls

end Frame

namespace Host

variable {σ : Type u} {host : Host σ} {c : Code} {scope : Scope}

section Turns

variable {p : Nat} {op : Instruction} {stack : List Value} {g : Frame} {s t : σ}

/-- An instruction that goes on. -/
theorem turn_of_running (hop : c.instructions[p]? = some op)
    (hpops : (op.effect false).pops ≤ stack.length)
    (h : Frame.execute? (host.read s) c scope (p + 1) op stack = some (.running g)) :
    host.turn c scope ⟨stack, p⟩ s = .goes g s := by
  simp [turn, Frame.step, hop, Nat.not_lt.mpr hpops, h]

/-- An instruction that calls a native function, which answers. -/
theorem turn_of_calling {call : NativeCall} {v : Value} (hop : c.instructions[p]? = some op)
    (hpops : (op.effect false).pops ≤ stack.length)
    (h : Frame.execute? (host.read s) c scope (p + 1) op stack = some (.calling call g))
    (hcall : host.call call s = (t, .ok v)) :
    host.turn c scope ⟨stack, p⟩ s = .goes ⟨v :: g.stack, g.pc⟩ t := by
  simp [turn, Frame.step, hop, Nat.not_lt.mpr hpops, h, hcall, Frame.resume]

/-- An instruction on a stack that is too short. -/
theorem turn_of_short (hop : c.instructions[p]? = some op)
    (hpops : stack.length < (op.effect false).pops) :
    host.turn c scope ⟨stack, p⟩ s = .ends (.error (.stackUnderflow p op.opname)) s := by
  simp [turn, Frame.step, hop, hpops]

end Turns

section Sites

variable {p : Nat} {rest : List Instruction} {ref : NativeRef} {s t : σ}

theorem getElem?_of_drop {site : List Instruction} {k : Nat} {op : Instruction}
    (h : c.instructions.drop p = site ++ rest) (hop : site[k]? = some op) :
    c.instructions[p + k]? = some op := by
  obtain ⟨hk, -⟩ := List.getElem?_eq_some_iff.mp hop
  rw [← List.getElem?_drop, h, List.getElem?_append_left hk, hop]

/-- The site of an attribute load duplicates the object and drops the answer. -/
theorem attributeSite_path {a : String} {v w : Value} {below : List Value}
    (h : c.instructions.drop p = attributeSite ref a ++ rest)
    (hcall : host.call ⟨ref, [v, .str a], [], v :: below⟩ s = (t, .ok w)) :
    ∃ fs, host.Path c scope ⟨v :: below, p⟩ s fs ⟨v :: below, p + 6⟩ t ∧ fs.length = 6 ∧
      ∀ f ∈ fs, f.Within c ref p (p + 6) := by
  have h0 : c.instructions[p]? = some .dupTop := @getElem?_of_drop c p rest _ 0 _ h rfl
  have h1 : c.instructions[p + 1]? = some (.loadConst (.native ref)) := getElem?_of_drop h rfl
  have h2 : c.instructions[p + 2]? = some .rotTwo := getElem?_of_drop h rfl
  have h3 : c.instructions[p + 3]? = some (.loadConst (.str a)) := getElem?_of_drop h rfl
  have h4 : c.instructions[p + 4]? = some (.call .plain 2) := getElem?_of_drop h rfl
  have h5 : c.instructions[p + 5]? = some .popTop := getElem?_of_drop h rfl
  have hpops : ((Instruction.call .plain 2).effect false).pops = 3 := rfl
  refine ⟨[ ⟨v :: below, p⟩,
      ⟨v :: v :: below, p + 1⟩,
      ⟨.native ref :: v :: v :: below, p + 2⟩,
      ⟨v :: .native ref :: v :: below, p + 3⟩,
      ⟨.str a :: v :: .native ref :: v :: below, p + 4⟩,
      ⟨w :: v :: below, p + 5⟩ ], ?_, rfl, ?_⟩
  · exact Path.cons (turn_of_running h0 (by simp [Instruction.effect]) rfl) <|
      Path.cons (turn_of_running h1 (by simp [Instruction.effect]) rfl) <|
      Path.cons (turn_of_running h2 (by simp [Instruction.effect]) rfl) <|
      Path.cons (turn_of_running h3 (by simp [Instruction.effect]) rfl) <|
      Path.cons (turn_of_calling h4 (by simp [hpops]) rfl hcall) <|
      Path.single (turn_of_running h5 (by simp [Instruction.effect]) rfl)
  · simp only [List.forall_mem_cons, List.not_mem_nil, false_implies, implies_true, and_true]
    exact ⟨Frame.within_of_not_takesAim h0 rfl (by simp) (by simp),
      Frame.within_of_not_takesAim h1 rfl (by simp) (by simp),
      Frame.within_of_not_takesAim h2 rfl (by simp) (by simp),
      Frame.within_of_not_takesAim h3 rfl (by simp) (by simp),
      Frame.within_of_sideCall h4 rfl (by simp) (by simp),
      Frame.within_of_not_takesAim h5 rfl (by simp) (by simp)⟩

/-- The site of a call packs the slots and lets the answer put them back. -/
theorem callSite_path {raw : UInt16} {function : Value} {below stack : List Value}
    (h : c.instructions.drop p = callSite ref raw ++ rest)
    (hdrop : stack.drop (ArgSpec.decode raw).slots = function :: below)
    (hcall : host.call
      ⟨ref, [function, .tuple (callSlots raw stack), .int (Int64.ofNat raw.toNat)], [], below⟩ s
        = (t, .ok (.tuple [.tuple (callSlots raw stack).reverse, function]))) :
    ∃ fs, host.Path c scope ⟨stack, p⟩ s fs ⟨stack, p + 7⟩ t ∧ fs.length = 7 ∧
      ∀ f ∈ fs, f.Within c ref p (p + 7) := by
  let slots := UInt64.ofNat (ArgSpec.decode raw).slots
  have h0 : c.instructions[p]? = some (.buildTuple slots) :=
    @getElem?_of_drop c p rest _ 0 _ h rfl
  have h1 : c.instructions[p + 1]? = some (.loadConst (.native ref)) := getElem?_of_drop h rfl
  have h2 : c.instructions[p + 2]? = some .rotThree := getElem?_of_drop h rfl
  have h3 : c.instructions[p + 3]? = some (.loadConst (.int (Int64.ofNat raw.toNat))) :=
    getElem?_of_drop h rfl
  have h4 : c.instructions[p + 4]? = some (.call .plain 3) := getElem?_of_drop h rfl
  have h5 : c.instructions[p + 5]? = some (.unpackSequence 2) := getElem?_of_drop h rfl
  have h6 : c.instructions[p + 6]? = some (.unpackSequence slots) := getElem?_of_drop h rfl
  have hpops : ((Instruction.call .plain 3).effect false).pops = 4 := rfl
  have hslots : slots.toNat = (ArgSpec.decode raw).slots := toNat_ofNat_slots raw
  have hle : (ArgSpec.decode raw).slots ≤ stack.length := by
    apply Nat.le_of_not_lt
    intro hlt
    rw [List.drop_eq_nil_of_le (by omega)] at hdrop
    cases hdrop
  have htake : (stack.take (ArgSpec.decode raw).slots).length = (ArgSpec.decode raw).slots := by
    rw [List.length_take, Nat.min_eq_left hle]
  have hstack : stack.take (ArgSpec.decode raw).slots ++ function :: below = stack := by
    rw [← hdrop, List.take_append_drop]
  have hreverse : (callSlots raw stack).reverse = stack.take (ArgSpec.decode raw).slots :=
    List.reverse_reverse _
  rw [hreverse] at hcall
  have hbuild : Frame.execute? (host.read s) c scope (p + 1) (.buildTuple slots) stack
      = some (.running ⟨.tuple (callSlots raw stack) :: function :: below, p + 1⟩) := by
    simp [Frame.execute?, hslots, Nat.not_lt.mpr hle, hdrop, callSlots]
  have hunpack : Frame.execute? (host.read t) c scope (p + 7) (.unpackSequence slots)
      (.tuple (stack.take (ArgSpec.decode raw).slots) :: function :: below)
        = some (.running ⟨stack, p + 7⟩) := by
    simp [Frame.execute?, Frame.unpack, hslots, hle, hstack]
  refine ⟨[ ⟨stack, p⟩,
      ⟨.tuple (callSlots raw stack) :: function :: below, p + 1⟩,
      ⟨.native ref :: .tuple (callSlots raw stack) :: function :: below, p + 2⟩,
      ⟨.tuple (callSlots raw stack) :: function :: .native ref :: below, p + 3⟩,
      ⟨.int (Int64.ofNat raw.toNat) :: .tuple (callSlots raw stack) :: function :: .native ref
        :: below, p + 4⟩,
      ⟨.tuple [.tuple (stack.take (ArgSpec.decode raw).slots), function] :: below, p + 5⟩,
      ⟨.tuple (stack.take (ArgSpec.decode raw).slots) :: function :: below, p + 6⟩ ],
    ?_, rfl, ?_⟩
  · exact Path.cons (turn_of_running h0 (by simpa [Instruction.effect, hslots]) hbuild) <|
      Path.cons (turn_of_running h1 (by simp [Instruction.effect]) rfl) <|
      Path.cons (turn_of_running h2 (by simp [Instruction.effect]) rfl) <|
      Path.cons (turn_of_running h3 (by simp [Instruction.effect]) rfl) <|
      Path.cons (turn_of_calling h4 (by simp [hpops]) rfl hcall) <|
      Path.cons (turn_of_running h5 (by simp [Instruction.effect]) rfl) <|
      Path.single (turn_of_running h6 (by simp [Instruction.effect]) hunpack)
  · simp only [List.forall_mem_cons, List.not_mem_nil, false_implies, implies_true, and_true]
    exact ⟨Frame.within_of_not_takesAim h0 rfl (by simp) (by simp),
      Frame.within_of_not_takesAim h1 rfl (by simp) (by simp),
      Frame.within_of_not_takesAim h2 rfl (by simp) (by simp),
      Frame.within_of_not_takesAim h3 rfl (by simp) (by simp),
      Frame.within_of_sideCall h4 rfl (by simp) (by simp),
      Frame.within_of_not_takesAim h5 rfl (by simp) (by simp),
      Frame.within_of_not_takesAim h6 rfl (by simp) (by simp)⟩

/-- **A site leaves the stack as it was**, and its only effect is that of its side-call. -/
theorem site_path {op : Instruction} {stack : List Value} {call : NativeCall}
    (h : c.instructions.drop p = siteFor op ref ++ rest)
    (hsite : sideCallAt ref op stack = some call)
    (hcall : host.call call s = (t, .ok (siteAnswer op stack))) :
    ∃ fs, host.Path c scope ⟨stack, p⟩ s fs ⟨stack, p + (siteFor op ref).length⟩ t ∧
      fs.length = (siteFor op ref).length ∧
      ∀ f ∈ fs, f.Within c ref p (p + (siteFor op ref).length) := by
  cases op with
  | loadAttr a =>
      cases stack with
      | nil => cases hsite
      | cons v below =>
          cases hsite
          exact attributeSite_path h hcall
  | call form raw =>
      cases form with
      | plain =>
          simp only [sideCallAt, siteAnswer] at hsite hcall
          cases hdrop : stack.drop (ArgSpec.decode raw).slots with
          | nil =>
              rw [hdrop] at hsite
              cases hsite
          | cons function below =>
              rw [hdrop] at hsite hcall
              cases hsite
              exact callSite_path h hdrop hcall
      | _ => cases hsite
  | _ => cases hsite

/-- On a stack that is too short for the instruction, its site fails before it calls. -/
theorem site_underflow {op : Instruction} {stack : List Value}
    (h : c.instructions.drop p = siteFor op ref ++ rest) (hne : siteFor op ref ≠ [])
    (hpops : stack.length < (op.effect false).pops) :
    ∃ fs g j name, host.Path c scope ⟨stack, p⟩ s fs g s ∧
      (∀ f ∈ fs ++ [g], f.Within c ref p (p + (siteFor op ref).length)) ∧
      host.turn c scope g s = .ends (.error (.stackUnderflow j name)) s := by
  cases op with
  | loadAttr a =>
      have h0 : c.instructions[p]? = some .dupTop := @getElem?_of_drop c p rest _ 0 _ h rfl
      refine ⟨[], ⟨stack, p⟩, _, _, Path.nil _ _, ?_, turn_of_short h0 hpops⟩
      simp only [List.nil_append, List.mem_singleton, forall_eq]
      exact Frame.within_of_not_takesAim h0 rfl (Nat.le_refl p) (by simp [siteFor, attributeSite])
  | call form raw =>
      cases form with
      | plain =>
          let slots := UInt64.ofNat (ArgSpec.decode raw).slots
          have h0 : c.instructions[p]? = some (.buildTuple slots) :=
            @getElem?_of_drop c p rest _ 0 _ h rfl
          have h1 : c.instructions[p + 1]? = some (.loadConst (.native ref)) :=
            getElem?_of_drop h rfl
          have h2 : c.instructions[p + 2]? = some .rotThree := getElem?_of_drop h rfl
          have hslots : slots.toNat = (ArgSpec.decode raw).slots := toNat_ofNat_slots raw
          have hw0 : Frame.Within c ref p
              (p + (siteFor (.call .plain raw) ref).length) ⟨stack, p⟩ :=
            Frame.within_of_not_takesAim h0 rfl (Nat.le_refl p) (by simp [siteFor, callSite])
          rcases Nat.lt_or_ge stack.length (ArgSpec.decode raw).slots with hlt | hge
          · refine ⟨[], ⟨stack, p⟩, _, _, Path.nil _ _, ?_, turn_of_short h0 ?_⟩
            · simpa using hw0
            · simpa [Instruction.effect, hslots] using hlt
          · -- the slots are there but not the callable: the rotation lacks a value
            have hle : stack.length ≤ (ArgSpec.decode raw).slots := by
              simp only [Instruction.effect, CallForm.extras] at hpops
              omega
            have hbuild : Frame.execute? (host.read s) c scope (p + 1) (.buildTuple slots) stack
                = some (.running ⟨[.tuple (stack.take slots.toNat).reverse], p + 1⟩) := by
              simp [Frame.execute?, hslots, Nat.not_lt.mpr hge, hle]
            refine ⟨[⟨stack, p⟩, ⟨[.tuple (stack.take slots.toNat).reverse], p + 1⟩],
              ⟨[.native ref, .tuple (stack.take slots.toNat).reverse], p + 2⟩, _, _, ?_, ?_,
              turn_of_short h2 (by simp [Instruction.effect])⟩
            · exact Path.cons (turn_of_running h0 (by simpa [Instruction.effect, hslots]) hbuild)
                (Path.single (turn_of_running h1 (by simp [Instruction.effect]) rfl))
            · simp only [List.cons_append, List.nil_append, List.forall_mem_cons,
                List.not_mem_nil, false_implies, implies_true, and_true]
              exact ⟨hw0, Frame.within_of_not_takesAim h1 rfl (by simp) (by simp [siteFor, callSite]),
                Frame.within_of_not_takesAim h2 rfl (by simp) (by simp [siteFor, callSite])⟩
      | _ => exact absurd rfl hne
  | _ => exact absurd rfl hne

end Sites

section Rows

/-- The side-calls in front of an instruction, one after another. -/
inductive Served (host : Host σ) (op : Instruction) (stack : List Value) :
    List NativeRef → σ → σ → Prop
  | nil (s : σ) : Served host op stack [] s s
  | cons {ref : NativeRef} {refs : List NativeRef} {call : NativeCall} {s t u : σ} :
      sideCallAt ref op stack = some call →
      host.call call s = (t, .ok (siteAnswer op stack)) →
      Served host op stack refs t u →
      Served host op stack (ref :: refs) s u

variable {op : Instruction} {stack : List Value}

/-- All sites in front of an instruction run through. -/
theorem sites_path {refs : List NativeRef} {s t : σ} (hserved : host.Served op stack refs s t) :
    ∀ {p : Nat} {rest : List Instruction},
      c.instructions.drop p = refs.flatMap (siteFor op) ++ rest →
        ∃ fs, host.Path c scope ⟨stack, p⟩ s fs ⟨stack, p + (refs.flatMap (siteFor op)).length⟩ t ∧
          fs.length = (refs.flatMap (siteFor op)).length ∧
          ∀ f ∈ fs, ∃ ref ∈ refs, f.Within c ref p (p + (refs.flatMap (siteFor op)).length) := by
  induction hserved with
  | nil s =>
      intro p rest _
      exact ⟨[], Path.nil _ s, rfl, by simp⟩
  | @cons ref refs call s t u hsite hcall _ ih =>
      intro p rest h
      rw [List.flatMap_cons, List.append_assoc] at h
      obtain ⟨fs, hfs, hlen, hwithin⟩ := site_path h hsite hcall
      have hnext : c.instructions.drop (p + (siteFor op ref).length)
          = refs.flatMap (siteFor op) ++ rest := by
        rw [← List.drop_drop, h, List.drop_left]
      obtain ⟨gs, hgs, hlen', hwithin'⟩ := ih hnext
      refine ⟨fs ++ gs, ?_, ?_, ?_⟩
      · rw [List.flatMap_cons, List.length_append, ← Nat.add_assoc]
        exact hfs.trans hgs
      · simp [hlen, hlen']
      · intro f hf
        rw [List.flatMap_cons, List.length_append]
        rcases List.mem_append.mp hf with hf | hf
        · obtain ⟨hp, hq, hcalls⟩ := hwithin f hf
          exact ⟨ref, by simp, hp, by omega, hcalls⟩
        · obtain ⟨ref', hmem, hp, hq, hcalls⟩ := hwithin' f hf
          exact ⟨ref', List.mem_cons_of_mem _ hmem, by omega, by omega, hcalls⟩

end Rows

end Host
end TrackedExpr
