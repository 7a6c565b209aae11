import TrackedExpr.Monitor
import TrackedExpr.Proofs.Relocation
import TrackedExpr.Proofs.Sites

/-!
# Code with sites simulates the code

Where all insertions are sites whose side-calls nobody notices, a run of spliced code
does what the run of the code does: it comes to each instruction by way of the sites
in front of it, and leaves it as the code does.

**Definitions.**
* `SitesOnly`, `sideCallsAt`: insertions that are sites, and their side-calls;
* `Host.Steady`: code that goes alike in states that it cannot tell apart;
* `Host.Serves`: a side-call that answers its sites and that nobody notices;
* `Host.outerCalls`, `Code.executed`: what a run is seen to do;
* `Host.Agree`: two runs that are seen to do the same.

**Results.**
* `Host.turn_simulated`: one turn, and the turns that simulate it;
* `Host.agree_of_run`, `Host.agree_of_spliced_run`: the simulation, from either side.
-/

namespace TrackedExpr

universe u

open Code (addedAt landing landing_succ position position_inj landing_inj)

section Observation

/-- Whether a function is one of the side-calls. -/
def Value.isSideCall (side : List NativeRef) : Value → Bool
  | .native ref => side.any fun r => r.id = ref.id
  | _ => false

/-- The call that the next step makes, unless it is a side-call. -/
def Frame.outerCall? (side : List NativeRef) (c : Code) (f : Frame) : Option CallReport :=
  (f.pendingCall? c).filter fun r => !r.function.isSideCall side

/-- The calls that a run makes, in order, but for the side-calls. -/
def Host.outerCalls {σ : Type u} (side : List NativeRef) (host : Host σ) (c : Code)
    (scope : Scope) (limit : Nat) (f : Frame) (s : σ) : List CallReport :=
  (host.visited c scope limit f s).filterMap (Frame.outerCall? side c)

/-- A frame that is aimed at nothing and makes no call but a side-call. -/
def Frame.Aside (side : List NativeRef) (c : Code) (f : Frame) : Prop :=
  f.aim? c = none ∧ ∀ r, f.pendingCall? c = some r → ∃ ref ∈ side, r.function = .native ref

/-- The steps that execute an instruction; running past the end executes none. -/
def Code.executed (c : Code) (steps : List Step) : List Step :=
  steps.filter fun s => s.index < c.size

/-- Whether a run ended for lack of a value. -/
def Underflows (outcome : Option (Except EvalError Value)) : Prop :=
  ∃ i op, outcome = some (.error (.stackUnderflow i op))

end Observation

section Sites

/-- Every insertion is a site in front of an instruction, of a side-call of which `P` holds. -/
def SitesOnly (c : Code) (ins : List Insertion) (P : NativeRef → Instruction → Prop) : Prop :=
  ∀ x ∈ ins, ∃ op ref, c.instructions[x.index]? = some op ∧ x.ops = siteFor op ref ∧
    siteFor op ref ≠ [] ∧ P ref op

variable {c : Code} {ins : List Insertion} {P : NativeRef → Instruction → Prop}

theorem labelsSet_siteFor (op : Instruction) (ref : NativeRef) :
    labelsSet (siteFor op ref) = [] := by
  cases op with
  | call form raw => cases form <;> rfl
  | _ => rfl

/-- The native function that an instruction loads. -/
def Instruction.native? : Instruction → Option NativeRef
  | .loadConst (.native ref) => some ref
  | _ => none

/-- The side-calls of the sites at an index, in order. -/
def sideCallsAt (ins : List Insertion) (i : Nat) : List NativeRef :=
  (ins.filter fun x => x.index = i).filterMap fun x => x.ops.findSome? Instruction.native?

theorem findSome?_siteFor {op : Instruction} {ref : NativeRef} (h : siteFor op ref ≠ []) :
    (siteFor op ref).findSome? Instruction.native? = some ref := by
  cases op with
  | loadAttr a => rfl
  | call form raw =>
      cases form with
      | plain => rfl
      | _ => exact absurd rfl h
  | _ => exact absurd rfl h

theorem mem_sideCallsAt {op : Instruction} {ref : NativeRef} {i : Nat}
    (h : siteFor op ref ≠ []) (hmem : ⟨i, siteFor op ref⟩ ∈ ins) : ref ∈ sideCallsAt ins i := by
  rw [sideCallsAt, List.mem_filterMap]
  exact ⟨_, List.mem_filter.mpr ⟨hmem, by simp⟩, findSome?_siteFor h⟩

/-- Every side-call stands in front of an instruction that it is for. -/
theorem SitesOnly.of_mem (h : SitesOnly c ins P) {ref : NativeRef} {i : Nat}
    (href : ref ∈ sideCallsAt ins i) : ∃ op, c.instructions[i]? = some op ∧ P ref op := by
  rw [sideCallsAt, List.mem_filterMap] at href
  obtain ⟨x, hx, href⟩ := href
  obtain ⟨hmem, hindex⟩ := List.mem_filter.mp hx
  obtain ⟨op, ref', hop, hops, hne, hP⟩ := h x hmem
  rw [hops, findSome?_siteFor hne] at href
  obtain rfl := Option.some.inj href
  rw [of_decide_eq_true hindex] at hop
  exact ⟨op, hop, hP⟩

/-- What is inserted in front of an instruction is a row of sites. -/
theorem SitesOnly.row {op : Instruction} {i : Nat} (hop : c.instructions[i]? = some op) :
    ∀ {ins : List Insertion}, SitesOnly c ins P →
      insertedAt ins i = (sideCallsAt ins i).flatMap (siteFor op) ∧
        ∀ ref ∈ sideCallsAt ins i, siteFor op ref ≠ [] ∧ P ref op
  | [], _ => ⟨rfl, by simp [sideCallsAt]⟩
  | x :: ins, h => by
      obtain ⟨hrow, hP⟩ := row hop fun y hy => h y (List.mem_cons_of_mem _ hy)
      obtain ⟨op', ref, hop', hops, hne, hPref⟩ := h x (by simp)
      by_cases hx : x.index = i
      · obtain rfl : op' = op := by
          rw [hx, hop] at hop'
          exact (Option.some.inj hop').symm
        have hcalls : sideCallsAt (x :: ins) i = ref :: sideCallsAt ins i := by
          simp [sideCallsAt, hx, hops, findSome?_siteFor hne]
        rw [hcalls]
        refine ⟨?_, ?_⟩
        · rw [List.flatMap_cons, ← hrow, ← hops]
          simp [insertedAt, hx]
        · simpa using ⟨⟨hne, hPref⟩, hP⟩
      · have hcalls : sideCallsAt (x :: ins) i = sideCallsAt ins i := by
          simp [sideCallsAt, hx]
        rw [hcalls]
        refine ⟨?_, hP⟩
        rw [← hrow]
        simp [insertedAt, hx]

theorem SitesOnly.addedAt_eq_zero (h : SitesOnly c ins P) {i : Nat}
    (hnone : ∀ op ref, c.instructions[i]? = some op → siteFor op ref = []) :
    addedAt ins i = 0 := by
  have hnil : ins.filter (fun x => x.index = i) = [] := by
    rw [List.filter_eq_nil_iff]
    intro x hx hi
    obtain ⟨op, ref, hop, -, hne, -⟩ := h x hx
    rw [of_decide_eq_true hi] at hop
    exact hne (hnone op ref hop)
  rw [addedAt, hnil]
  rfl

theorem SitesOnly.sparesLabels (h : SitesOnly c ins P) : SparesLabels c ins where
  unset := by
    intro x hx
    obtain ⟨op, ref, -, hops, -⟩ := h x hx
    rw [hops]
    exact labelsSet_siteFor op ref
  clear := by
    intro i l hl
    apply h.addedAt_eq_zero
    intro op ref hop
    obtain rfl : Instruction.setLabel l = op := by
      rw [hl] at hop
      exact Option.some.inj hop
    rfl

/-- Nothing is inserted behind the last instruction. -/
theorem SitesOnly.relocate_past (h : SitesOnly c ins P) {f : Frame}
    (hop : c.instructions[f.pc]? = none) : f.relocate ins = ⟨f.stack, position ins f.pc⟩ := by
  have hadded : addedAt ins f.pc = 0 := by
    apply h.addedAt_eq_zero
    intro op ref hop'
    rw [hop] at hop'
    cases hop'
  rw [position, hadded, Nat.add_zero]
  rfl

end Sites

section Positions

variable {c : Code} {ins : List Insertion}

theorem idxOf?_splicedPositions {i : Nat} (hi : i < c.size) :
    (c.splicedPositions ins).idxOf? (position ins i) = some i := by
  rw [List.idxOf?_eq_some_iff]
  refine ⟨by simpa [Code.splicedPositions_eq] using hi, by simp [Code.splicedPositions_eq], ?_⟩
  intro j hj heq
  simp only [Code.splicedPositions_eq, List.getElem_map, List.getElem_range] at heq
  have := position_inj heq
  omega

/-- Places inside a site are not the positions of instructions. -/
theorem idxOf?_splicedPositions_eq_none {i q : Nat} (hp : landing ins i ≤ q)
    (hq : q < position ins i) : (c.splicedPositions ins).idxOf? q = none := by
  rw [List.idxOf?_eq_none_iff, Code.splicedPositions_eq, List.mem_map]
  rintro ⟨j, -, rfl⟩
  obtain ⟨k, hk⟩ := Nat.exists_eq_add_of_le hp
  have hlt : k < addedAt ins i := by
    simp only [position] at hq hk
    omega
  obtain ⟨rfl, rfl⟩ := landing_inj (Nat.le_refl _) (Nat.le_of_lt hlt) hk
  omega

theorem idxOf?_splicedPositions_of_size_le {i : Nat} (hi : c.size ≤ i) :
    (c.splicedPositions ins).idxOf? (position ins i) = none := by
  rw [List.idxOf?_eq_none_iff, Code.splicedPositions_eq, List.mem_map]
  rintro ⟨j, hj, heq⟩
  have := position_inj heq
  have := List.mem_range.mp hj
  omega

end Positions

namespace Host

variable {σ : Type u}

/-- Two turns that go alike: on from one frame, or to one end, in states that cannot be told
apart.  The frame's stack is of the kind `fine`. -/
inductive TurnsAlike (same : σ → σ → Prop) (fine : List Value → Prop) : Turn σ → Turn σ → Prop
  | goes {g : Frame} {s t : σ} :
      fine g.stack → same s t → TurnsAlike same fine (.goes g s) (.goes g t)
  | ends {r : Except EvalError Value} {s t : σ} :
      same s t → TurnsAlike same fine (.ends r s) (.ends r t)

/-- From stacks of the kind `fine`, code goes alike in states that cannot be told apart. -/
structure Steady (host : Host σ) (c : Code) (scope : Scope) (same : σ → σ → Prop)
    (fine : List Value → Prop) : Prop where
  symm : ∀ {s t}, same s t → same t s
  trans : ∀ {s t u}, same s t → same t u → same s u
  turn : ∀ {f s t}, fine f.stack → same s t →
    TurnsAlike same fine (host.turn c scope f s) (host.turn c scope f t)

/-- A side-call that answers what its site needs, and that nobody notices. -/
def Serves (host : Host σ) (same : σ → σ → Prop) (fine : List Value → Prop) (ref : NativeRef)
    (op : Instruction) : Prop :=
  ∀ stack call s, fine stack → same s s → sideCallAt ref op stack = some call →
    ∃ t, host.call call s = (t, .ok (siteAnswer op stack)) ∧ same s t

/-- The side-calls in front of an instruction are served if it has its operands. -/
theorem served_of_serves {host : Host σ} {c : Code} {scope : Scope} {same : σ → σ → Prop}
    {fine : List Value → Prop} (hsteady : host.Steady c scope same fine) {op : Instruction}
    {stack : List Value} (hfine : fine stack) (hpops : (op.effect false).pops ≤ stack.length) :
    ∀ {refs : List NativeRef} {s : σ}, same s s →
      (∀ ref ∈ refs, siteFor op ref ≠ [] ∧ host.Serves same fine ref op) →
        ∃ t, host.Served op stack refs s t ∧ same s t
  | [], s, hs, _ => ⟨s, Served.nil s, hs⟩
  | ref :: refs, s, hs, h => by
      obtain ⟨hne, hserves⟩ := h ref (by simp)
      obtain ⟨call, hcall⟩ := sideCallAt_isSome hne hpops
      obtain ⟨t, ht, hst⟩ := hserves stack call s hfine hs hcall
      obtain ⟨u, hu, htu⟩ := served_of_serves hsteady hfine hpops
        (hsteady.trans (hsteady.symm hst) hst) fun r hr => h r (List.mem_cons_of_mem _ hr)
      exact ⟨u, Served.cons hcall ht hu, hsteady.trans hst htu⟩

/-- Two runs that are seen to do the same, one of code and one of the code with insertions. -/
structure Agree (host : Host σ) (same : σ → σ → Prop) (side : List NativeRef) (c c' : Code)
    (ins : List Insertion) (scope : Scope) (n : Nat) (f : Frame) (s : σ) (m : Nat) (f' : Frame)
    (s' : σ) : Prop where
  state : (host.run c scope n f s).outcome ≠ none →
    same (host.run c scope n f s).state (host.run c' scope m f' s').state
  outcome : (host.run c scope n f s).outcome = (host.run c' scope m f' s').outcome ∨
    Underflows (host.run c scope n f s).outcome ∧ Underflows (host.run c' scope m f' s').outcome
  calls : host.outerCalls side c scope n f s = host.outerCalls side c' scope m f' s'
  steps : ¬ Underflows (host.run c scope n f s).outcome →
    stepsAt (host.run c' scope m f' s').steps (c.splicedPositions ins)
      = c.executed (host.run c scope n f s).steps

section Composition

variable {host : Host σ} {same : σ → σ → Prop} {side : List NativeRef} {c c' : Code}
  {ins : List Insertion} {scope : Scope} {f g f' g' : Frame} {s t s' t' : σ} {n m : Nat}

/-- A frame in which nothing is seen of a run of spliced code. -/
structure Silent (side : List NativeRef) (c c' : Code) (ins : List Insertion) (f : Frame) :
    Prop where
  call : f.outerCall? side c' = none
  aim : f.aim? c' = none
  place : (c.splicedPositions ins).idxOf? f.pc = none

theorem outerCall?_position (h : c.splice ins = .ok c') (f : Frame) :
    Frame.outerCall? side c' ⟨f.stack, position ins f.pc⟩ = f.outerCall? side c := by
  unfold Frame.outerCall? Frame.pendingCall?
  rw [Code.getElem?_position h]

theorem outerCalls_succ_goes (hturn : host.turn c scope f s = .goes g t) (n : Nat) :
    host.outerCalls side c scope (n + 1) f s
      = (f.outerCall? side c).toList ++ host.outerCalls side c scope n g t :=
  collect_goes _ hturn n

theorem outerCalls_succ_ends {r : Except EvalError Value}
    (hturn : host.turn c scope f s = .ends r t) (n : Nat) :
    host.outerCalls side c scope (n + 1) f s = (f.outerCall? side c).toList :=
  collect_ends _ hturn n

theorem filterMap_silent {fs : List Frame} (hsilent : ∀ x ∈ fs, Silent side c c' ins x) :
    fs.filterMap (Frame.outerCall? side c') = [] := by
  rw [List.filterMap_eq_nil_iff]
  exact fun x hx => (hsilent x hx).call

theorem stepsAt_silent {fs : List Frame} (hsilent : ∀ x ∈ fs, Silent side c c' ins x) :
    stepsAt (fs.map Frame.here) (c.splicedPositions ins) = [] := by
  rw [stepsAt, List.filterMap_eq_nil_iff]
  intro x hx
  obtain ⟨f, hf, rfl⟩ := List.mem_map.mp hx
  simp [Frame.here, (hsilent f hf).place]

/-- Going through sites first is not seen. -/
theorem Agree.after_path {fs : List Frame} (hpath : host.Path c' scope f' s' fs g' t')
    (hsilent : ∀ x ∈ fs, Silent side c c' ins x)
    (h : host.Agree same side c c' ins scope n f s m g' t') :
    host.Agree same side c c' ins scope n f s (fs.length + m) f' s' := by
  have hrun := hpath.run m
  constructor
  · rw [hrun]
    exact h.state
  · rw [hrun]
    exact h.outcome
  · rw [h.calls, outerCalls, outerCalls, hpath.visited m, List.filterMap_append,
      filterMap_silent hsilent, List.nil_append]
  · intro hout
    rw [hrun, ← h.steps hout, stepsAt, List.filterMap_append]
    exact congrArg (· ++ _) (stepsAt_silent hsilent)

/-- A turn at an instruction, and the turn at its position. -/
theorem Agree.step (hsplice : c.splice ins = .ok c') (hi : f.pc < c.size)
    (hturn : host.turn c scope f s = .goes g t)
    (hturn' : host.turn c' scope ⟨f.stack, position ins f.pc⟩ s' = .goes g' t')
    (h : host.Agree same side c c' ins scope n g t m g' t') :
    host.Agree same side c c' ins scope (n + 1) f s (m + 1) ⟨f.stack, position ins f.pc⟩ s' := by
  constructor
  · rw [run_succ, run_succ, hturn, hturn']
    exact h.state
  · rw [run_succ, run_succ, hturn, hturn']
    exact h.outcome
  · rw [outerCalls_succ_goes hturn, outerCalls_succ_goes hturn', outerCall?_position hsplice,
      h.calls]
  · rw [run_succ, run_succ, hturn, hturn']
    intro hout
    have hsteps := h.steps hout
    simp only [Execution.after, Frame.here, stepsAt, List.filterMap_cons, Code.executed,
      idxOf?_splicedPositions hi, Option.map_some, List.filter_cons, hi, decide_true, if_true]
    exact congrArg _ hsteps

/-- A turn that ends both runs. -/
theorem Agree.ends {r : Except EvalError Value} (hsplice : c.splice ins = .ok c')
    (hturn : host.turn c scope f s = .ends r t)
    (hturn' : host.turn c' scope ⟨f.stack, position ins f.pc⟩ s' = .ends r t') (h : same t t')
    (n m : Nat) :
    host.Agree same side c c' ins scope (n + 1) f s (m + 1) ⟨f.stack, position ins f.pc⟩ s' := by
  constructor
  · rw [run_succ, run_succ, hturn, hturn']
    exact fun _ => h
  · rw [run_succ, run_succ, hturn, hturn']
    exact Or.inl rfl
  · rw [outerCalls_succ_ends hturn, outerCalls_succ_ends hturn', outerCall?_position hsplice]
  · rw [run_succ, run_succ, hturn, hturn']
    intro _
    by_cases hi : f.pc < c.size
    · simp [Frame.here, stepsAt, Code.executed, idxOf?_splicedPositions hi, hi, Frame.depth]
    · simp [Frame.here, stepsAt, Code.executed, hi,
        idxOf?_splicedPositions_of_size_le (Nat.le_of_not_lt hi)]

/-- A turn that lacks a value, and one that does so too, maybe at another place. -/
theorem Agree.short {i j : Nat} {op op' : String}
    (hturn : host.turn c scope f s = .ends (.error (.stackUnderflow i op)) t)
    (hturn' : host.turn c' scope f' s' = .ends (.error (.stackUnderflow j op')) t')
    (hcall : f.outerCall? side c = none) (hcall' : f'.outerCall? side c' = none)
    (h : same t t') (n m : Nat) :
    host.Agree same side c c' ins scope (n + 1) f s (m + 1) f' s' := by
  have hout : Underflows (host.run c scope (n + 1) f s).outcome := by
    rw [run_succ, hturn]
    exact ⟨i, op, rfl⟩
  constructor
  · rw [run_succ, run_succ, hturn, hturn']
    exact fun _ => h
  · refine Or.inr ⟨hout, ?_⟩
    rw [run_succ, hturn']
    exact ⟨j, op', rfl⟩
  · rw [outerCalls_succ_ends hturn, outerCalls_succ_ends hturn', hcall, hcall']
  · exact fun h => absurd hout h

/-- No turn yet, and a run that is cut off inside the sites. -/
theorem Agree.cut {fs : List Frame} (hpath : host.Path c' scope f' s' fs g' t')
    (hsilent : ∀ x ∈ fs, Silent side c c' ins x) (hm : m ≤ fs.length) :
    host.Agree same side c c' ins scope 0 f s m f' s' := by
  obtain ⟨hout, hvisited⟩ := hpath.cut hm
  have htake : ∀ x ∈ fs.take m, Silent side c c' ins x :=
    fun x hx => hsilent x (List.mem_of_mem_take hx)
  constructor
  · exact fun h => absurd rfl h
  · exact Or.inl hout.symm
  · rw [outerCalls, outerCalls, hvisited, filterMap_silent htake]
    rfl
  · intro _
    rw [steps_run, hvisited, stepsAt_silent htake]
    rfl

end Composition

section Simulation

variable {host : Host σ} {same : σ → σ → Prop} {fine : List Value → Prop}
  {side : List NativeRef} {c c' : Code} {ins : List Insertion} {scope : Scope}

/-- A turn of code, and the turns of spliced code that do the same. -/
inductive Simulated (host : Host σ) (same : σ → σ → Prop) (fine : List Value → Prop)
    (side : List NativeRef) (c c' : Code) (ins : List Insertion) (scope : Scope) (f : Frame)
    (s s' : σ) : Prop
  | goes {fs : List Frame} {op : Instruction} {g : Frame} {t u u' : σ} :
      c.instructions[f.pc]? = some op →
      host.Served op f.stack (sideCallsAt ins f.pc) s' t →
      host.Path c' scope (f.relocate ins) s' fs ⟨f.stack, position ins f.pc⟩ t →
      (∀ x ∈ fs, Silent side c c' ins x) →
      host.turn c scope f s = .goes g u →
      host.turn c scope f t = .goes g u' →
      host.turn c' scope ⟨f.stack, position ins f.pc⟩ t = .goes (g.relocate ins) u' →
      fine g.stack →
      same u u' →
      Simulated host same fine side c c' ins scope f s s'
  | ends {fs : List Frame} {op : Instruction} {r : Except EvalError Value} {t u u' : σ} :
      c.instructions[f.pc]? = some op →
      host.Served op f.stack (sideCallsAt ins f.pc) s' t →
      host.Path c' scope (f.relocate ins) s' fs ⟨f.stack, position ins f.pc⟩ t →
      (∀ x ∈ fs, Silent side c c' ins x) →
      host.turn c scope f s = .ends r u →
      host.turn c scope f t = .ends r u' →
      host.turn c' scope ⟨f.stack, position ins f.pc⟩ t = .ends r u' →
      same u u' →
      Simulated host same fine side c c' ins scope f s s'
  | past :
      c.instructions[f.pc]? = none →
      f.relocate ins = ⟨f.stack, position ins f.pc⟩ →
      host.turn c scope f s = .ends (.error .missingReturn) s →
      host.turn c' scope (f.relocate ins) s' = .ends (.error .missingReturn) s' →
      Simulated host same fine side c c' ins scope f s s'
  | short {fs : List Frame} {op : Instruction} {g : Frame} {i j : Nat} {name name' : String} :
      c.instructions[f.pc]? = some op →
      f.stack.length < (op.effect false).pops →
      host.Path c' scope (f.relocate ins) s' fs g s' →
      (∀ x ∈ fs, Silent side c c' ins x) →
      f.outerCall? side c = none →
      g.outerCall? side c' = none →
      g.aim? c' = none →
      host.turn c scope f s = .ends (.error (.stackUnderflow i name)) s →
      host.turn c' scope g s' = .ends (.error (.stackUnderflow j name')) s' →
      Simulated host same fine side c c' ins scope f s s'

theorem aside_of_within {ref : NativeRef} {p q : Nat} {f : Frame} (hside : ref ∈ side)
    (h : f.Within c' ref p q) : f.Aside side c' :=
  ⟨h.2.2.1, fun r hr => ⟨ref, hside, h.2.2.2 r hr⟩⟩

theorem outerCall?_of_aside {f : Frame} (h : f.Aside side c') : f.outerCall? side c' = none := by
  rw [Frame.outerCall?, Option.filter_eq_none_iff]
  intro r hr
  obtain ⟨ref, hside, hfunction⟩ := h.2 r hr
  have hmem : ∃ x ∈ side, x.id = ref.id := ⟨ref, hside, rfl⟩
  simpa [hfunction, Value.isSideCall] using hmem

theorem silent_of_within {ref : NativeRef} {i : Nat} {f : Frame} (hside : ref ∈ side)
    (h : f.Within c' ref (landing ins i) (position ins i)) : Silent side c c' ins f :=
  ⟨outerCall?_of_aside (aside_of_within hside h), h.2.2.1,
    idxOf?_splicedPositions_eq_none h.1 h.2.1⟩

/-- The sites of an instruction stand between its landing and its position. -/
theorem sites_placed {P : NativeRef → Instruction → Prop} (hsplice : c.splice ins = .ok c')
    (hsites : SitesOnly c ins P) {i : Nat} {op : Instruction} (hop : c.instructions[i]? = some op) :
    (∃ rest, c'.instructions.drop (landing ins i)
        = (sideCallsAt ins i).flatMap (siteFor op) ++ rest) ∧
      position ins i = landing ins i + ((sideCallsAt ins i).flatMap (siteFor op)).length := by
  obtain ⟨hrow, -⟩ := hsites.row hop
  have hi : i < c.size := (List.getElem?_eq_some_iff.mp hop).1
  constructor
  · rw [Code.drop_landing hsplice (Nat.le_of_lt hi), List.drop_eq_getElem_cons hi, interleave, hrow]
    exact ⟨_, rfl⟩
  · rw [position, ← hrow, Code.length_insertedAt]

/-- From where an instruction lands, its sites lead to its position. -/
theorem served_path {P : NativeRef → Instruction → Prop} (hsplice : c.splice ins = .ok c')
    (hsites : SitesOnly c ins P) {f : Frame} {op : Instruction}
    (hop : c.instructions[f.pc]? = some op) {s t : σ}
    (hserved : host.Served op f.stack (sideCallsAt ins f.pc) s t) :
    ∃ fs, host.Path c' scope (f.relocate ins) s fs ⟨f.stack, position ins f.pc⟩ t ∧
      ∀ x ∈ fs, ∃ ref ∈ sideCallsAt ins f.pc,
        x.Within c' ref (landing ins f.pc) (position ins f.pc) := by
  obtain ⟨⟨rest, hdrop⟩, hplace⟩ := sites_placed hsplice hsites hop
  obtain ⟨fs, hpath, -, hwithin⟩ :=
    @sites_path σ host c' scope op f.stack _ s t hserved _ _ hdrop
  rw [← hplace] at hpath hwithin
  exact ⟨fs, hpath, hwithin⟩

/-- If a value is missing, the first site takes it and fails, or else the instruction. -/
theorem short_path {P : NativeRef → Instruction → Prop} (hsplice : c.splice ins = .ok c')
    (hsites : SitesOnly c ins P) {f : Frame} {op : Instruction}
    (hop : c.instructions[f.pc]? = some op) (hlt : f.stack.length < (op.effect false).pops)
    (s : σ) :
    ∃ fs g j name, host.Path c' scope (f.relocate ins) s fs g s ∧
      (∀ x ∈ fs, ∃ ref ∈ sideCallsAt ins f.pc,
        x.Within c' ref (landing ins f.pc) (position ins f.pc)) ∧
      g.Aside (sideCallsAt ins f.pc) c' ∧
      host.turn c' scope g s = .ends (.error (.stackUnderflow j name)) s := by
  obtain ⟨-, hrefs⟩ := hsites.row hop
  obtain ⟨⟨rest, hdrop⟩, hplace⟩ := sites_placed hsplice hsites hop
  cases hcalls : sideCallsAt ins f.pc with
  | nil =>
      have hop' : c'.instructions[position ins f.pc]? = some op := by
        rw [Code.getElem?_position hsplice, hop]
      have hpath : host.Path c' scope (f.relocate ins) s [] ⟨f.stack, position ins f.pc⟩ s := by
        rw [hplace, hcalls]
        exact Path.nil _ s
      have haside : Frame.Aside [] c' ⟨f.stack, position ins f.pc⟩ := by
        refine ⟨?_, ?_⟩
        · rw [Frame.aim?_eq hop', Instruction.aim?_of_short hlt]
        · intro r hr
          rw [@Frame.pendingCall?_of_short c' ⟨f.stack, position ins f.pc⟩ op hop' hlt] at hr
          cases hr
      exact ⟨[], _, _, _, hpath, by simp, haside, turn_of_short hop' hlt⟩
  | cons ref refs =>
      obtain ⟨hne, -⟩ := hrefs ref (by simp [hcalls])
      rw [hcalls, List.flatMap_cons, List.append_assoc] at hdrop
      obtain ⟨fs, g, j, name, hpath, hwithin, hends⟩ := site_underflow hdrop hne hlt
      have hend : landing ins f.pc + (siteFor op ref).length ≤ position ins f.pc := by
        rw [hplace, hcalls, List.flatMap_cons, List.length_append]
        omega
      refine ⟨fs, g, j, name, hpath, ?_,
        aside_of_within List.mem_cons_self (hwithin g (by simp)), hends⟩
      intro x hx
      obtain ⟨hp, hq, hsite⟩ := hwithin x (List.mem_append_left _ hx)
      exact ⟨ref, List.mem_cons_self, hp, Nat.lt_of_lt_of_le hq hend, hsite⟩

theorem short_simulated (hsplice : c.splice ins = .ok c')
    (hsites : SitesOnly c ins fun ref op => ref ∈ side ∧ host.Serves same fine ref op)
    {f : Frame} {op : Instruction} (hop : c.instructions[f.pc]? = some op)
    (hlt : f.stack.length < (op.effect false).pops) (s s' : σ) :
    Simulated host same fine side c c' ins scope f s s' := by
  obtain ⟨-, hrefs⟩ := hsites.row hop
  obtain ⟨fs, g, j, name, hpath, hwithin, ⟨haim, hcalls⟩, hends⟩ :=
    @short_path σ host c c' ins scope _ hsplice hsites _ _ hop hlt s'
  have hcall : f.outerCall? side c = none := by
    rw [Frame.outerCall?, Frame.pendingCall?_of_short hop hlt, Option.filter_none]
  have hcall' : g.outerCall? side c' = none := by
    apply outerCall?_of_aside
    refine ⟨haim, ?_⟩
    intro r hr
    obtain ⟨ref, href, hfunction⟩ := hcalls r hr
    exact ⟨ref, (hrefs ref href).2.1, hfunction⟩
  refine Simulated.short hop hlt hpath ?_ hcall hcall' haim (turn_of_short hop hlt) hends
  intro x hx
  obtain ⟨ref, href, hx⟩ := hwithin x hx
  exact silent_of_within (hrefs ref href).2.1 hx

/-- The end of spliced code is the end of the code. -/
theorem past_simulated {P : NativeRef → Instruction → Prop} (hsplice : c.splice ins = .ok c')
    (hsites : SitesOnly c ins P) {f : Frame} (hop : c.instructions[f.pc]? = none) (s s' : σ) :
    Simulated host same fine side c c' ins scope f s s' := by
  have hplace := hsites.relocate_past hop
  have hop' := Code.getElem?_position hsplice f.pc
  refine Simulated.past hop hplace ?_ ?_
  · simp [turn, Frame.step, hop]
  · simp [turn, Frame.step, hplace, hop, hop']

variable (hsteady : host.Steady c scope same fine) (hsplice : c.splice ins = .ok c')
  (hsites : SitesOnly c ins fun ref op => ref ∈ side ∧ host.Serves same fine ref op)
include hsteady hsplice hsites

/-- **One turn is simulated** by the sites in front of the instruction and a turn at its
position; if a value is missing, the first of them that takes it fails. -/
theorem turn_simulated (f : Frame) (hfine : fine f.stack) {s s' : σ} (hs : same s s') :
    Simulated host same fine side c c' ins scope f s s' := by
  cases hop : c.instructions[f.pc]? with
  | none => exact past_simulated hsplice hsites hop s s'
  | some op =>
      by_cases hpops : (op.effect false).pops ≤ f.stack.length
      · obtain ⟨-, hrefs⟩ := hsites.row hop
        have hs' : same s' s' := hsteady.trans (hsteady.symm hs) hs
        obtain ⟨t, hserved, hst⟩ := served_of_serves hsteady hfine hpops hs'
          fun ref hr => ⟨(hrefs ref hr).1, (hrefs ref hr).2.2⟩
        obtain ⟨fs, hpath, hwithin⟩ :=
          @served_path σ host c c' ins scope _ hsplice hsites _ _ hop _ _ hserved
        have hsilent : ∀ x ∈ fs, Silent side c c' ins x := by
          intro x hx
          obtain ⟨ref, hr, hx⟩ := hwithin x hx
          exact silent_of_within (hrefs ref hr).2.1 hx
        have hplaced :=
          @turn_position σ host c c' ins hsplice hsites.sparesLabels scope _ _ _ hop hpops t
        have halike := hsteady.turn hfine (hsteady.trans hs hst)
        generalize hturn : host.turn c scope f s = a at halike
        rw [show (⟨f.stack, f.pc⟩ : Frame) = f from rfl] at hplaced
        generalize hturn' : host.turn c scope f t = b at halike hplaced
        cases halike with
        | goes hg hu => exact Simulated.goes hop hserved hpath hsilent hturn hturn' hplaced hg hu
        | ends hu => exact Simulated.ends hop hserved hpath hsilent hturn hturn' hplaced hu
      · exact short_simulated hsplice hsites hop (Nat.lt_of_not_le hpops) s s'

/-- **However long code runs, spliced code can run as long** and is seen to do the same. -/
theorem agree_of_run : ∀ (n : Nat) (f : Frame) {s s' : σ}, fine f.stack → same s s' →
    ∃ m, n ≤ m ∧ host.Agree same side c c' ins scope n f s m (f.relocate ins) s'
  | 0, f, s, s', _, _ =>
      ⟨0, Nat.le_refl 0, Agree.cut (Path.nil _ s') (by simp) (Nat.le_refl _)⟩
  | n + 1, f, s, s', hfine, hs => by
      cases turn_simulated hsteady hsplice hsites f hfine hs with
      | @goes fs op g t u u' hop _ hpath hsilent hturn _ hturn' hg hu =>
          obtain ⟨m, hm, hagree⟩ := agree_of_run n g hg hu
          exact ⟨fs.length + (m + 1), by omega, Agree.after_path hpath hsilent
            (Agree.step hsplice (List.getElem?_eq_some_iff.mp hop).1 hturn hturn' hagree)⟩
      | @ends fs op r t u u' hop _ hpath hsilent hturn _ hturn' hu =>
          exact ⟨fs.length + (n + 1), by omega,
            Agree.after_path hpath hsilent (Agree.ends hsplice hturn hturn' hu n n)⟩
      | past hop hplace hturn hturn' =>
          rw [hplace] at hturn' ⊢
          exact ⟨n + 1, Nat.le_refl _, Agree.ends hsplice hturn hturn' hs n n⟩
      | @short fs op g i j name name' _ _ hpath hsilent hcall hcall' _ hturn hturn' =>
          exact ⟨fs.length + (n + 1), by omega,
            Agree.after_path hpath hsilent (Agree.short hturn hturn' hcall hcall' hs n n)⟩

/-- **However long spliced code runs**, it is seen to do what the code does in as many steps or
fewer. -/
theorem agree_of_spliced_run (m : Nat) : ∀ (f : Frame) {s s' : σ}, fine f.stack → same s s' →
    ∃ n, n ≤ m ∧ host.Agree same side c c' ins scope n f s m (f.relocate ins) s' := by
  induction m using Nat.strongRecOn with
  | ind m ih =>
      intro f s s' hfine hs
      cases turn_simulated hsteady hsplice hsites f hfine hs with
      | @goes fs op g t u u' hop _ hpath hsilent hturn _ hturn' hg hu =>
          rcases Nat.lt_or_ge fs.length m with hlt | hge
          · obtain ⟨k, rfl⟩ : ∃ k, m = fs.length + (k + 1) := ⟨m - fs.length - 1, by omega⟩
            obtain ⟨n, hn, hagree⟩ := ih k (by omega) g hg hu
            exact ⟨n + 1, by omega, Agree.after_path hpath hsilent
              (Agree.step hsplice (List.getElem?_eq_some_iff.mp hop).1 hturn hturn' hagree)⟩
          · exact ⟨0, Nat.zero_le m, Agree.cut hpath hsilent hge⟩
      | @ends fs op r t u u' hop _ hpath hsilent hturn _ hturn' hu =>
          rcases Nat.lt_or_ge fs.length m with hlt | hge
          · obtain ⟨k, rfl⟩ : ∃ k, m = fs.length + (k + 1) := ⟨m - fs.length - 1, by omega⟩
            exact ⟨1, by omega,
              Agree.after_path hpath hsilent (Agree.ends hsplice hturn hturn' hu 0 k)⟩
          · exact ⟨0, Nat.zero_le m, Agree.cut hpath hsilent hge⟩
      | past hop hplace hturn hturn' =>
          rw [hplace] at hturn' ⊢
          cases m with
          | zero => exact ⟨0, Nat.le_refl 0, Agree.cut (Path.nil _ s') (by simp) (Nat.le_refl _)⟩
          | succ m => exact ⟨1, by omega, Agree.ends hsplice hturn hturn' hs 0 m⟩
      | @short fs op g i j name name' _ _ hpath hsilent hcall hcall' _ hturn hturn' =>
          rcases Nat.lt_or_ge fs.length m with hlt | hge
          · obtain ⟨k, rfl⟩ : ∃ k, m = fs.length + (k + 1) := ⟨m - fs.length - 1, by omega⟩
            exact ⟨1, by omega,
              Agree.after_path hpath hsilent (Agree.short hturn hturn' hcall hcall' hs 0 k)⟩
          · exact ⟨0, Nat.zero_le m, Agree.cut hpath hsilent hge⟩

end Simulation

end Host
end TrackedExpr
