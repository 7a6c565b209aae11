import TrackedExpr.Monitor
import TrackedExpr.Proofs.Materials
import TrackedExpr.Proofs.Sites

/-!
# What evaluations read

An evaluation depends on attributes only through the ones that it looks up, by an
attribute load or by a call of `getattr`.

**Definitions.**
* `Instruction.access?`, `Frame.access?`: the attribute that an instruction, and the
  next step, looks up;
* `Host.accesses`: the attributes that a run looks up, in order;
* `Host.aims`: the attributes that the instructions of a run are aimed at;
* `Host.balked`: those at which calls are aimed whose keywords are not text.

**Results.**
* `Frame.step_congr`: a step depends on nothing else;
* `Host.run_of_made`: a run that calls nothing native leaves the state as it was;
* `Host.run_congr`: two such runs with equal accesses are equal;
* `Host.run_eq_of_le`: a run that ended does not go on.
-/

namespace TrackedExpr

universe u

/-- The attribute that an instruction looks up. -/
def Instruction.access? : Instruction → List Value → Option (ObjectRef × String)
  | .loadAttr a, v :: _ => objectAccess? (some (v, a))
  | .call form operand, stack =>
      (Frame.callReport? form operand stack).bind fun r =>
        objectAccess? (getattrAccess? r.function r.args r.kwargs)
  | _, _ => none

/-- The attribute that the next step looks up. -/
def Frame.access? (c : Code) (f : Frame) : Option (ObjectRef × String) :=
  c.instructions[f.pc]?.bind fun op => op.access? f.stack

/-- The attributes that a run looks up, in order. -/
def Host.accesses {σ : Type u} (host : Host σ) (c : Code) (scope : Scope) (limit : Nat)
    (f : Frame) (s : σ) : List (ObjectRef × String) :=
  (host.visited c scope limit f s).filterMap (Frame.access? c)

/-- The attributes that the instructions of a run are aimed at, in order. -/
def Host.aims {σ : Type u} (host : Host σ) (c : Code) (scope : Scope) (limit : Nat) (f : Frame)
    (s : σ) : List (ObjectRef × String) :=
  (host.visited c scope limit f s).filterMap (Frame.aim? c)

/-- The attributes at which calls of a run are aimed whose keywords are not text. -/
def Host.balked {σ : Type u} (host : Host σ) (c : Code) (scope : Scope) (limit : Nat) (f : Frame)
    (s : σ) : List (ObjectRef × String) :=
  ((host.visited c scope limit f s).filter (Frame.balks c)).filterMap (Frame.aim? c)

section Congruence

variable {read read' : AttributeReader}

theorem loadAttr_congr {target : Value} {a : String}
    (h : ∀ o, target = .object o → read o a = read' o a) :
    loadAttr read target a = loadAttr read' target a := by
  cases target with
  | object o => simp [loadAttr, h o rfl]
  | _ => rfl

theorem getattr_congr {args : List Value}
    (h : ∀ o a, objectAccess? (getattrAccess? (.builtin .getattr) args []) = some (o, a) →
      read o a = read' o a) : getattr read args = getattr read' args := by
  unfold getattr
  cases hr : getattrRequest args with
  | error e => rfl
  | ok request =>
      obtain ⟨target, name, default⟩ := request
      have hload : loadAttr read target name = loadAttr read' target name := by
        apply loadAttr_congr
        rintro o rfl
        apply h
        unfold getattrRequest at hr
        split at hr
        · cases hr
          rfl
        · cases hr
          rfl
        · cases hr
        · cases hr
        · cases hr
      dsimp only
      rw [hload]

theorem Builtin.call_congr {b : Builtin} {args : List Value} {kwargs : Kwargs}
    (h : ∀ o a, objectAccess? (getattrAccess? (.builtin b) args kwargs) = some (o, a) →
      read o a = read' o a) : b.call read args kwargs = b.call read' args kwargs := by
  unfold Builtin.call
  cases kwargs with
  | cons e rest => rfl
  | nil =>
      cases b with
      | getattr => exact getattr_congr h
      | _ => rcases args with _ | ⟨v, _ | ⟨w, rest⟩⟩ <;> rfl

end Congruence

namespace Frame

variable {c : Code} {read read' : AttributeReader} {f : Frame}

/-- A step depends on the attributes only through the one that it looks up. -/
theorem step_congr (scope : Scope) (h : ∀ o a, f.access? c = some (o, a) → read o a = read' o a) :
    f.step read c scope = f.step read' c scope := by
  unfold step
  unfold access? at h
  cases hop : c.instructions[f.pc]? with
  | none => rfl
  | some op =>
      rw [hop, Option.bind_some] at h
      have hexecute : execute? read c scope (f.pc + 1) op f.stack
          = execute? read' c scope (f.pc + 1) op f.stack := by
        cases op with
        | loadAttr a =>
            cases hs : f.stack with
            | nil => rfl
            | cons v s =>
                have hload : loadAttr read v a = loadAttr read' v a := by
                  apply loadAttr_congr
                  rintro o rfl
                  apply h
                  rw [hs]
                  rfl
                simp only [execute?, hload]
        | call form operand =>
            simp only [execute?]
            cases hreport : callReport? form operand f.stack with
            | none =>
                obtain ⟨e, hcall⟩ := @call?_of_no_report (f.pc + 1) _ _ _ hreport
                rw [hcall, hcall]
            | some r =>
                obtain ⟨below, hcall⟩ := @call?_of_report (f.pc + 1) _ _ _ _ hreport
                rw [hcall, hcall]
                simp only [Instruction.access?, hreport, Option.bind_some] at h
                unfold invoke
                cases hfunction : r.function with
                | builtin b =>
                    rw [hfunction] at h
                    simp only [Builtin.call_congr h]
                | _ => rfl
        | jump kind l => cases kind <;> cases f.stack <;> rfl
        | _ => rcases f.stack with _ | ⟨_, _ | ⟨_, _ | ⟨_, _⟩⟩⟩ <;> rfl
      simp only [hexecute]

/-- On a stack that is too short nothing is looked up. -/
theorem access?_of_short {op : Instruction} (hop : c.instructions[f.pc]? = some op)
    (h : f.stack.length < (op.effect false).pops) : f.access? c = none := by
  have hpending := pendingCall?_of_short hop h
  unfold pendingCall? at hpending
  unfold access?
  rw [hop] at hpending ⊢
  rw [Option.bind_some]
  cases op with
  | loadAttr a =>
      obtain hs : f.stack = [] := by simpa [Instruction.effect] using h
      rw [hs]
      rfl
  | call form operand =>
      dsimp only at hpending
      rw [Instruction.access?, hpending]
      rfl
  | _ => rfl

end Frame

namespace Host

section Visits

variable {σ : Type u} {host : Host σ} {c : Code} {scope : Scope} {f g : Frame} {s t : σ}

theorem accesses_succ_goes (hturn : host.turn c scope f s = .goes g t) (n : Nat) :
    host.accesses c scope (n + 1) f s
      = (f.access? c).toList ++ host.accesses c scope n g t :=
  collect_goes _ hturn n

theorem accesses_succ_ends {r : Except EvalError Value}
    (hturn : host.turn c scope f s = .ends r t) (n : Nat) :
    host.accesses c scope (n + 1) f s = (f.access? c).toList :=
  collect_ends _ hturn n

theorem aims_succ_goes (hturn : host.turn c scope f s = .goes g t) (n : Nat) :
    host.aims c scope (n + 1) f s = (f.aim? c).toList ++ host.aims c scope n g t :=
  collect_goes _ hturn n

theorem aims_succ_ends {r : Except EvalError Value}
    (hturn : host.turn c scope f s = .ends r t) (n : Nat) :
    host.aims c scope (n + 1) f s = (f.aim? c).toList :=
  collect_ends _ hturn n

theorem Path.accesses {fs : List Frame} (hpath : host.Path c scope f s fs g t) (n : Nat) :
    host.accesses c scope (fs.length + n) f s
      = fs.filterMap (Frame.access? c) ++ host.accesses c scope n g t := by
  rw [Host.accesses, hpath.visited, List.filterMap_append, Host.accesses]

theorem Path.aims {fs : List Frame} (hpath : host.Path c scope f s fs g t) (n : Nat) :
    host.aims c scope (fs.length + n) f s
      = fs.filterMap (Frame.aim? c) ++ host.aims c scope n g t := by
  rw [Host.aims, hpath.visited, List.filterMap_append, Host.aims]

end Visits

variable {σ : Type u} {host : Host σ} {c : Code} {scope : Scope} {ok : ObjectRef → Prop}

/-- From values of a kind without native functions, a turn leaves the state as it was. -/
theorem turn_of_made {s : σ} (hm : Materials ok c scope (host.read s)) {f : Frame}
    (hstack : ∀ v ∈ f.stack, v.MadeOf ok) :
    (∃ g, f.step (host.read s) c scope = .running g ∧ host.turn c scope f s = .goes g s ∧
      ∀ v ∈ g.stack, v.MadeOf ok) ∨
    ∃ r, host.turn c scope f s = .ends r s ∧
      ((∃ v, f.step (host.read s) c scope = .finished v ∧ r = .ok v) ∨
        ∃ e, f.step (host.read s) c scope = .failed e ∧ r = .error e) := by
  have hmade := Frame.step_madeOf hm hstack
  unfold turn
  cases hstep : f.step (host.read s) c scope with
  | running g =>
      rw [hstep] at hmade
      exact Or.inl ⟨g, rfl, rfl, hmade⟩
  | calling call g =>
      rw [hstep] at hmade
      exact hmade.elim
  | finished v => exact Or.inr ⟨.ok v, rfl, Or.inl ⟨v, rfl, rfl⟩⟩
  | failed e => exact Or.inr ⟨.error e, rfl, Or.inr ⟨e, rfl, rfl⟩⟩

theorem state_of_made {s : σ} (hm : Materials ok c scope (host.read s)) {f : Frame}
    (hstack : ∀ v ∈ f.stack, v.MadeOf ok) :
    (∀ g t, host.turn c scope f s = .goes g t → t = s) ∧
      ∀ r t, host.turn c scope f s = .ends r t → t = s := by
  rcases turn_of_made hm hstack with ⟨g, -, hturn, -⟩ | ⟨r, hturn, -⟩
  · rw [hturn]
    constructor
    · rintro g' t ⟨⟩
      rfl
    · rintro r t ⟨⟩
  · rw [hturn]
    constructor
    · rintro g t ⟨⟩
    · rintro r' t ⟨⟩
      rfl

/-- Runs that look up the same attributes and read the same there go the same way. -/
theorem run_congr {s t : σ} (hm : Materials ok c scope (host.read s)) (n : Nat) :
    ∀ {f : Frame}, (∀ v ∈ f.stack, v.MadeOf ok) →
      (∀ x ∈ host.accesses c scope n f s, host.read s x.1 x.2 = host.read t x.1 x.2) →
        (host.run c scope n f t).outcome = (host.run c scope n f s).outcome := by
  induction n with
  | zero => exact fun _ _ => rfl
  | succ n ih =>
      intro f hstack hreads
      have hstep : f.step (host.read s) c scope = f.step (host.read t) c scope := by
        apply Frame.step_congr
        intro o a hx
        apply hreads (o, a)
        rw [accesses, visited, List.filterMap_cons, hx]
        exact List.mem_cons_self
      rw [run_succ, run_succ]
      rcases turn_of_made hm hstack with ⟨g, hg, hturn, hmade⟩ | ⟨r, hturn, hr⟩
      · rw [accesses_succ_goes hturn] at hreads
        have hturn' : host.turn c scope f t = .goes g t := by
          rw [turn, ← hstep, hg]
        rw [hturn, hturn']
        exact ih hmade fun x hx => hreads x (List.mem_append_right _ hx)
      · have hturn' : host.turn c scope f t = .ends r t := by
          rcases hr with ⟨v, hv, rfl⟩ | ⟨e, he, rfl⟩
          · rw [turn, ← hstep, hv]
          · rw [turn, ← hstep, he]
        rw [hturn, hturn']

/-- A run that ended does not go on. -/
theorem run_eq_of_le {s : σ} {r : Except EvalError Value} {n m : Nat} (hle : n ≤ m) :
    ∀ {f : Frame}, (host.run c scope n f s).outcome = some r →
      host.run c scope m f s = host.run c scope n f s := by
  induction n generalizing s m with
  | zero =>
      intro f h
      cases h
  | succ n ih =>
      intro f h
      obtain ⟨k, rfl⟩ : ∃ k, m = k + 1 := ⟨m - 1, by omega⟩
      rw [run_succ] at h ⊢
      rw [run_succ]
      cases hturn : host.turn c scope f s with
      | goes g t =>
          rw [hturn] at h
          dsimp only
          rw [ih (by omega) h]
      | ends r' t => rfl

theorem run_of_le {s : σ} {r : Except EvalError Value} {n m : Nat} (hle : n ≤ m) {f : Frame}
    (h : (host.run c scope n f s).outcome = some r) : (host.run c scope m f s).outcome = some r := by
  rw [run_eq_of_le hle h, h]

end Host
end TrackedExpr
