import TrackedExpr.Proofs.SideCalls

/-!
# Reports

Two live monitors watch a run of instrumented code.  Their hooks are told of every
attribute load and of every plain call, each immediately before it is executed, and
of nothing else.

**Definitions.**
* `Report`, `Frame.report?`: what the hooks are told about the next instruction;
* `Frame.Truthful`: a report tells what the instruction does;
* `Host.watched`: a run of plain code in which every instruction is reported before
  it is executed;
* `Host.Exact`: a run of instrumented code that does what a watched run does;
* `Host.recording`: a host in which reports are written down.

**Results.**
* `Frame.truthful_of_reachable`: code with a profile reports what it does;
* `sideCallsAt_accepted`: the one site in front of an instruction;
* `Host.exact_of_watched`: however long code is watched, instrumented code can run as long;
* `instrument_reports`: the reports of a run of instrumented code are those of the plain
  code's instructions, in the order in which they are executed.
-/

namespace TrackedExpr

universe u

open Code (landing position)

/-- What a hook is told: that an attribute is about to be loaded, or a call to be made. -/
inductive Report
  | load (target : Value) (attr : String)
  | call (call : CallReport)

section Reports

/-- The report about an instruction; only attribute loads and plain calls are reported. -/
def Instruction.report? : Instruction → List Value → Option Report
  | .loadAttr a, v :: _ => some (.load v a)
  | .call .plain raw, stack =>
      match stack.drop (ArgSpec.decode raw).slots with
      | function :: _ =>
          let (args, kwargs) := splitArguments (callSlots raw stack) (ArgSpec.decode raw)
          some (.call ⟨function, args, kwargs⟩)
      | [] => none
  | _, _ => none

/-- The report about the next instruction. -/
def Frame.report? (c : Code) (f : Frame) : Option Report :=
  c.instructions[f.pc]?.bind fun op => op.report? f.stack

/-- The names in a run of name and value slots. -/
def keywordNames : List Value → List Value
  | name :: _ :: rest => name :: keywordNames rest
  | _ => []

/-- A frame whose report tells what the next instruction does: the object that it looks at, or
the function that it calls, with the arguments that are passed on if the keywords are text. -/
structure Frame.Truthful (c : Code) (f : Frame) : Prop where
  load : ∀ a, c.instructions[f.pc]? = some (.loadAttr a) →
    ∃ v below, f.stack = v :: below ∧ f.report? c = some (.load v a)
  call : ∀ raw, c.instructions[f.pc]? = some (.call .plain raw) →
    ∃ r below, f.report? c = some (.call r) ∧
      ((∀ name ∈ keywordNames
          ((callSlots raw f.stack).drop (ArgSpec.decode raw).positional.toNat),
          ∃ text, name = .str text) →
        ∀ read scope,
          f.step read c scope = invoke read (f.pc + 1) below r.function r.args r.kwargs)
  other : ∀ r, f.report? c = some r →
    (∃ a, c.instructions[f.pc]? = some (.loadAttr a)) ∨
      ∃ raw, c.instructions[f.pc]? = some (.call .plain raw)

theorem keywordSlots_of_names {slots : List Value}
    (h : ∀ name ∈ keywordNames slots, ∃ text, name = .str text) :
    keywordSlots slots = .ok (textPairs slots) := by
  fun_induction keywordNames slots with
  | case1 name value rest ih =>
      obtain ⟨text, rfl⟩ := h name List.mem_cons_self
      have hrest := ih fun n hn => h n (List.mem_cons_of_mem _ hn)
      simp only [keywordSlots, keywordPair, hrest, textPairs]
      rfl
  | case2 slots hslots =>
      rcases slots with _ | ⟨v, _ | ⟨w, rest⟩⟩
      · rfl
      · cases v <;> rfl
      · exact absurd rfl (hslots v w rest)

/-- A plain call whose operands are there. -/
theorem Frame.truthful_call {c : Code} {f : Frame} {raw : UInt16}
    (hop : c.instructions[f.pc]? = some (.call .plain raw))
    (hpops : ((Instruction.call .plain raw).effect false).pops ≤ f.stack.length) :
    ∃ r below, f.report? c = some (.call r) ∧
      ((∀ name ∈ keywordNames
          ((callSlots raw f.stack).drop (ArgSpec.decode raw).positional.toNat),
          ∃ text, name = .str text) →
        ∀ read scope,
          f.step read c scope = invoke read (f.pc + 1) below r.function r.args r.kwargs) := by
  obtain ⟨function, below, hdrop⟩ :
      ∃ function below, f.stack.drop (ArgSpec.decode raw).slots = function :: below := by
    apply List.exists_cons_of_length_pos
    simp only [Instruction.effect, CallForm.extras] at hpops
    rw [List.length_drop]
    omega
  refine ⟨_, below, by rw [report?, hop, Option.bind_some, Instruction.report?, hdrop], ?_⟩
  intro hnames read scope
  have harguments : callArguments (ArgSpec.decode raw) (callSlots raw f.stack) none none
      = .ok (splitArguments (callSlots raw f.stack) (ArgSpec.decode raw)) := by
    simp only [callArguments, keywordSlots_of_names hnames, splitArguments]
    exact congrArg Except.ok (Prod.ext (List.append_nil _) (List.append_nil _))
  rw [callSlots] at harguments
  simp only [step, hop, Nat.not_lt.mpr hpops, if_false, execute?, call?, CallForm.operands, hdrop,
    harguments]
  rfl

/-- Every frame that a run of code with a profile can come to reports what it does. -/
theorem Frame.truthful_of_reachable {c : Code} {p : StackProfile} (hp : c.stackProfile = .ok p)
    {scope : Scope} {f : Frame} (h : Frame.Reachable c scope f) : f.Truthful c := by
  have hsound := Code.sound_of_stackProfile hp
  obtain ⟨op, hop, hpops, -⟩ := hsound.fits _ (h.reaches hsound)
  dsimp only at hop hpops
  constructor
  · intro a ha
    obtain rfl := Option.some.inj (hop.symm.trans ha)
    obtain ⟨v, below, hstack⟩ := List.exists_cons_of_length_pos hpops
    exact ⟨v, below, hstack, by rw [report?, ha, hstack, Option.bind_some, Instruction.report?]⟩
  · intro raw hraw
    obtain rfl := Option.some.inj (hop.symm.trans hraw)
    exact truthful_call hraw hpops
  · intro r hr
    rw [report?, hop, Option.bind_some] at hr
    rw [hop]
    cases op with
    | loadAttr a => exact Or.inl ⟨a, rfl⟩
    | call form raw =>
        cases form with
        | plain => exact Or.inr ⟨raw, rfl⟩
        | _ => cases hr
    | _ => cases hr

end Reports

variable {σ : Type u}

/-- Two live monitors that tell one hook what they see. -/
def reporters (loads calls : NativeRef) (tell : Report → σ → σ) : List (StockMonitor σ) :=
  [ .attributes loads fun s => some fun target attr => tell (.load target attr) s,
    .calls calls fun s => some fun call => tell (.call call) s ]

namespace Host

section Watched

variable (tell : Report → σ → σ) (host : Host σ) (c : Code) (scope : Scope)

/-- The state in which an instruction is executed that has been reported. -/
def told (tell : Report → σ → σ) (c : Code) (f : Frame) (s : σ) : σ :=
  match f.report? c with
  | some r => tell r s
  | none => s

/-- A run in which every instruction is reported immediately before it is executed. -/
def watched : Nat → Frame → σ → Execution σ
  | 0, _, s => ⟨s, none, []⟩
  | limit + 1, f, s =>
      match host.turn c scope f (told tell c f s) with
      | .goes g t => (watched limit g t).after f.here
      | .ends r t => ⟨t, some r, [f.here]⟩

/-- The frames in which the turns of a watched run begin. -/
def watchedFrames : Nat → Frame → σ → List Frame
  | 0, _, _ => []
  | limit + 1, f, s =>
      f :: match host.turn c scope f (told tell c f s) with
        | .goes g t => watchedFrames limit g t
        | .ends _ _ => []

/-- A run of instrumented code that does what a watched run of the code does. -/
structure Exact (c' : Code) (ins : List Insertion) (n : Nat) (f : Frame) (m : Nat) (s : σ) :
    Prop where
  outcome : (host.run c' scope m (f.relocate ins) s).outcome
    = (host.watched tell c scope n f s).outcome
  state : (host.run c' scope m (f.relocate ins) s).state = (host.watched tell c scope n f s).state
  steps : stepsAt (host.run c' scope m (f.relocate ins) s).steps (c.splicedPositions ins)
    = (host.watched tell c scope n f s).steps

end Watched
end Host

section Proposals

/-- What is proposed at one index. -/
theorem filter_proposeAt (site : Instruction → Option (List Instruction)) {j : Nat} :
    ∀ (ops : List Instruction) (start i : Nat), j = start + i →
      (proposeAt site start ops).filter (fun x => x.index = j)
        = (ops[i]?.bind site).toList.map fun inserted => ⟨j, inserted⟩
  | [], _, _, _ => rfl
  | op :: rest, start, 0, hj => by
      have hlater : (proposeAt site (start + 1) rest).filter (fun x => x.index = j) = [] := by
        rw [List.filter_eq_nil_iff]
        intro x hx
        obtain ⟨k, -, hindex, -⟩ := mem_proposeAt hx
        simp only [hindex, decide_eq_true_eq]
        omega
      obtain rfl : start = j := hj.symm
      rw [proposeAt]
      cases hsite : site op with
      | none => simpa [hsite] using hlater
      | some inserted => simpa [hsite] using hlater
  | op :: rest, start, i + 1, hj => by
      have hlater := filter_proposeAt site rest (start + 1) i (show j = start + 1 + i by omega)
      rw [proposeAt]
      cases site op with
      | none => exact hlater
      | some inserted =>
          rw [List.filter_cons_of_neg (by simp only [decide_eq_true_eq]; omega)]
          exact hlater

/-- The side-call in front of an instruction. -/
def Instruction.sideCall? (loads calls : NativeRef) : Instruction → Option NativeRef
  | .loadAttr _ => some loads
  | .call .plain _ => some calls
  | _ => none

/-- What the two monitors propose at an instruction. -/
theorem filter_proposals (loads calls : NativeRef) (tell : Report → σ → σ) {c : Code} {i : Nat}
    {op : Instruction} (hop : c.instructions[i]? = some op) :
    (proposals ((reporters loads calls tell).map StockMonitor.monitor) c).filter
        (fun x => x.index = i)
      = (op.sideCall? loads calls).toList.map fun ref => ⟨i, siteFor op ref⟩ := by
  have hsplit : (proposals ((reporters loads calls tell).map StockMonitor.monitor) c).filter
        (fun x => x.index = i)
      = ((Monitor.attributes loads).propose c.instructions).filter (fun x => x.index = i)
        ++ ((Monitor.calls calls).propose c.instructions).filter (fun x => x.index = i) := by
    simp [proposals, reporters, StockMonitor.monitor]
  rw [hsplit, Monitor.attributes, Monitor.calls,
    filter_proposeAt _ c.instructions 0 i (Nat.zero_add i).symm,
    filter_proposeAt _ c.instructions 0 i (Nat.zero_add i).symm, hop]
  cases op with
  | call form raw => cases form <;> rfl
  | _ => rfl

/-- In front of an instruction that is reached stands one site if it is reported, else none. -/
theorem sideCallsAt_accepted {c : Code} {p : StackProfile} (hp : c.stackProfile = .ok p)
    {loads calls : NativeRef} {tell : Report → σ → σ} {monitors : List (StockMonitor σ)}
    (hmonitors : monitors.Perm (reporters loads calls tell)) {i d : Nat}
    (hd : p.depthAt? i = some d) {op : Instruction} (hop : c.instructions[i]? = some op) :
    sideCallsAt (acceptedBy p (monitors.map StockMonitor.monitor) c) i
      = (op.sideCall? loads calls).toList := by
  have hkept : (acceptedBy p (monitors.map StockMonitor.monitor) c).filter (fun x => x.index = i)
      = (proposals (monitors.map StockMonitor.monitor) c).filter (fun x => x.index = i) := by
    rw [acceptedBy, List.filter_filter]
    apply List.filter_congr
    intro x hx
    by_cases hi : x.index = i
    · have hmem := mem_acceptedBy_of_reached hp hx (hi ▸ hd)
      simp [hi, (List.mem_filter.mp hmem).2]
    · simp [hi]
  have hperm : ((proposals (monitors.map StockMonitor.monitor) c).filter
      fun x => x.index = i).Perm _ :=
    ((hmonitors.map _).flatMap_right _).filter _
  rw [← hkept, ← proposals, filter_proposals loads calls tell hop] at hperm
  have hcalls := hperm.filterMap fun x => x.ops.findSome? Instruction.native?
  have hrow : ((op.sideCall? loads calls).toList.map fun ref => (⟨i, siteFor op ref⟩ : Insertion)
      ).filterMap (fun x => x.ops.findSome? Instruction.native?)
        = (op.sideCall? loads calls).toList := by
    cases op with
    | call form raw => cases form <;> rfl
    | _ => rfl
  rw [hrow] at hcalls
  cases hside : op.sideCall? loads calls with
  | none =>
      rw [hside] at hcalls
      exact List.perm_nil.mp hcalls
  | some ref =>
      rw [hside] at hcalls
      exact List.perm_singleton.mp hcalls

end Proposals

/-- The code itself calls none of the side-calls from here. -/
def Frame.Innocent (side : List NativeRef) (c : Code) (f : Frame) : Prop :=
  ∀ r, f.pendingCall? c = some r → r.function.isSideCall side = false

/-- What a turn leads to, beside what has been written down. -/
def Turn.logged (log : List Report) : Turn σ → Turn (σ × List Report)
  | .goes g t => .goes g (t, log)
  | .ends r t => .ends r (t, log)

namespace Host

section Exactness

variable {loads calls : NativeRef} {tell : Report → σ → σ} {host : Host σ}
  {monitors : List (StockMonitor σ)} (hids : loads.id ≠ calls.id)
  (hmonitors : monitors.Perm (reporters loads calls tell))
include hids hmonitors

/-- A side-call of one of the two monitors is answered by that monitor. -/
theorem withMonitors_call {m : StockMonitor σ} (hm : m ∈ reporters loads calls tell)
    (call : NativeCall) (hcall : call.function = m.sideCall) (s : σ) :
    (host.withMonitors monitors).call call s = m.answer call.args s := by
  have hnodup : (monitors.map fun k => k.sideCall.id).Nodup := by
    rw [(hmonitors.map _).nodup_iff]
    simpa [reporters, StockMonitor.sideCall] using hids
  simp only [withMonitors, hcall, find?_sideCall hnodup (hmonitors.mem_iff.mpr hm)]

/-- The side-call in front of an instruction tells the hook what the instruction does. -/
theorem served_reporters {f : Frame} {c : Code} {op : Instruction}
    (hop : c.instructions[f.pc]? = some op)
    (hpops : (op.effect false).pops ≤ f.stack.length) (s : σ) :
    (host.withMonitors monitors).Served op f.stack (op.sideCall? loads calls).toList s
      (told tell c f s) := by
  have htold : told tell c f s = match op.report? f.stack with
      | some r => tell r s
      | none => s := by
    rw [told, Frame.report?, hop, Option.bind_some]
  rw [htold]
  cases op with
  | loadAttr a =>
      obtain ⟨v, below, hstack⟩ := List.exists_cons_of_length_pos hpops
      rw [hstack]
      refine Served.cons rfl ?_ (Served.nil _)
      rw [withMonitors_call hids hmonitors List.mem_cons_self _ rfl]
      rfl
  | call form raw =>
      cases form with
      | plain =>
          obtain ⟨function, below, hdrop⟩ : ∃ function below,
              f.stack.drop (ArgSpec.decode raw).slots = function :: below := by
            apply List.exists_cons_of_length_pos
            simp only [Instruction.effect, CallForm.extras] at hpops
            rw [List.length_drop]
            omega
          refine Served.cons (by rw [sideCallAt, hdrop]) ?_ (Served.nil _)
          rw [withMonitors_call hids hmonitors (List.mem_cons_of_mem _ List.mem_cons_self) _ rfl]
          simp only [StockMonitor.answer, answerCallSite, toUInt16_ofNat_toNat, siteAnswer, hdrop,
            Instruction.report?]
      | _ => exact Served.nil s
  | _ => exact Served.nil s

variable {c c' : Code} {p : StackProfile} (hp : c.stackProfile = .ok p)
  (hsplice : c.splice (acceptedBy p (monitors.map StockMonitor.monitor) c) = .ok c')
include hp hsplice

/-- Before each instruction it comes to, instrumented code tells the hook what it does. -/
theorem told_path {scope : Scope} {f : Frame} (h : Frame.Reachable c scope f) (s : σ) :
    ∃ fs, (host.withMonitors monitors).Path c' scope
        (f.relocate (acceptedBy p (monitors.map StockMonitor.monitor) c)) s fs
        ⟨f.stack, position (acceptedBy p (monitors.map StockMonitor.monitor) c) f.pc⟩
        (told tell c f s) ∧
      stepsAt (fs.map Frame.here)
        (c.splicedPositions (acceptedBy p (monitors.map StockMonitor.monitor) c)) = [] ∧
      (host.withMonitors monitors).turn c' scope
          ⟨f.stack, position (acceptedBy p (monitors.map StockMonitor.monitor) c) f.pc⟩
          (told tell c f s)
        = ((host.withMonitors monitors).turn c scope f (told tell c f s)).relocate
          (acceptedBy p (monitors.map StockMonitor.monitor) c) := by
  have hsound := Code.sound_of_stackProfile hp
  have hreaches := h.reaches hsound
  obtain ⟨op, hop, hpops, -⟩ := hsound.fits _ hreaches
  have hsites := sitesOnly_accepted hp monitors
  obtain ⟨⟨rest, hdrop⟩, hplace⟩ := sites_placed hsplice hsites hop
  dsimp only at hop hpops
  have hcalls :=
    sideCallsAt_accepted hp hmonitors ((Code.stackProfile_depthAt? hp).mpr hreaches) hop
  rw [hcalls] at hdrop hplace
  obtain ⟨fs, hpath, -, hwithin⟩ :=
    @sites_path _ (host.withMonitors monitors) c' scope op f.stack _ s _
      (served_reporters hids hmonitors hop hpops s) _ _ hdrop
  rw [← hplace] at hpath hwithin
  refine ⟨fs, hpath, ?_, turn_position hsplice hsites.sparesLabels scope hop hpops _⟩
  rw [stepsAt, List.filterMap_eq_nil_iff]
  intro x hx
  obtain ⟨g, hg, rfl⟩ := List.mem_map.mp hx
  obtain ⟨ref, -, hlanding, hposition, -⟩ := hwithin g hg
  simp [Frame.here, idxOf?_splicedPositions_eq_none hlanding hposition]

/-- **However long code is watched, instrumented code can run as long** and do the same. -/
theorem exact_of_watched {scope : Scope} : ∀ (n : Nat) {f : Frame} (s : σ),
    Frame.Reachable c scope f →
      ∃ m, n ≤ m ∧ (host.withMonitors monitors).Exact tell c scope c'
        (acceptedBy p (monitors.map StockMonitor.monitor) c) n f m s
  | 0, f, s, _ => ⟨0, Nat.le_refl 0, rfl, rfl, rfl⟩
  | n + 1, f, s, h => by
      obtain ⟨fs, hpath, hsilent, hturn'⟩ := told_path hids hmonitors hp hsplice h s
      have hi : f.pc < c.size := by
        obtain ⟨op, hop, -⟩ :=
          (Code.sound_of_stackProfile hp).fits _ (h.reaches (Code.sound_of_stackProfile hp))
        exact (List.getElem?_eq_some_iff.mp hop).1
      cases hturn : (host.withMonitors monitors).turn c scope f (told tell c f s) with
      | goes g t =>
          obtain ⟨m, hm, hexact⟩ := exact_of_watched n t (reachable_of_turn h hturn)
          rw [hturn] at hturn'
          refine ⟨fs.length + (m + 1), by omega, ?_⟩
          constructor
          · rw [hpath.run, run_succ, hturn', watched, hturn]
            exact hexact.outcome
          · rw [hpath.run, run_succ, hturn', watched, hturn]
            exact hexact.state
          · rw [hpath.run, run_succ, hturn', watched, hturn]
            simp only [Turn.relocate, Execution.after]
            rw [stepsAt, List.filterMap_append, ← stepsAt, hsilent, List.nil_append,
              List.filterMap_cons]
            simp only [Frame.here, idxOf?_splicedPositions hi, Option.map_some]
            exact congrArg _ hexact.steps
      | ends r t =>
          rw [hturn] at hturn'
          refine ⟨fs.length + (n + 1), by omega, ?_⟩
          constructor
          · rw [hpath.run, run_succ, hturn', watched, hturn]
            rfl
          · rw [hpath.run, run_succ, hturn', watched, hturn]
            rfl
          · rw [hpath.run, run_succ, hturn', watched, hturn]
            simp only [Turn.relocate]
            rw [stepsAt, List.filterMap_append, ← stepsAt, hsilent, List.nil_append]
            simp [Frame.here, idxOf?_splicedPositions hi, Frame.depth]

/-- A run of instrumented code that ends is exactly a watched run. -/
theorem exact_of_outcome {scope : Scope} {f : Frame} (h : Frame.Reachable c scope f) {m : Nat}
    {s : σ} {r : Except EvalError Value}
    (hout : ((host.withMonitors monitors).run c' scope m
      (f.relocate (acceptedBy p (monitors.map StockMonitor.monitor) c)) s).outcome = some r) :
    (host.withMonitors monitors).Exact tell c scope c'
      (acceptedBy p (monitors.map StockMonitor.monitor) c) m f m s := by
  obtain ⟨k, hle, hexact⟩ :=
    exact_of_watched hids hmonitors hp hsplice m s h
  have hrun := run_eq_of_le hle hout
  exact ⟨hrun ▸ hexact.outcome, hrun ▸ hexact.state, hrun ▸ hexact.steps⟩

end Exactness

section Recording

/-- A host beside which reports are written down. -/
def recording (host : Host σ) : Host (σ × List Report) where
  read := fun s => host.read s.1
  call := fun call s => (((host.call call s.1).1, s.2), (host.call call s.1).2)

/-- A hook that writes down what it is told and acts on it. -/
def record (act : Report → σ → σ) (r : Report) (s : σ × List Report) : σ × List Report :=
  (act r s.1, s.2 ++ [r])

variable {host : Host σ} {act : Report → σ → σ} {loads calls : NativeRef} {c : Code}
  {scope : Scope}

theorem told_record (f : Frame) (s : σ) (log : List Report) :
    told (record act) c f (s, log) = (told act c f s, log ++ (f.report? c).toList) := by
  unfold told
  cases f.report? c with
  | none => simp
  | some r => rfl

/-- With unchanged reports, a turn that calls no side-call does what it does unwatched. -/
theorem turn_recording {monitors : List (StockMonitor (σ × List Report))}
    (hmonitors : monitors.Perm (reporters loads calls (record act))) {f : Frame}
    (hinnocent : f.Innocent [loads, calls] c) (s : σ) (log : List Report) :
    (host.recording.withMonitors monitors).turn c scope f (s, log)
      = (host.turn c scope f s).logged log := by
  unfold turn
  rw [show (host.recording.withMonitors monitors).read (s, log) = host.read s from rfl]
  cases hstep : f.step (host.read s) c scope with
  | calling call g =>
      obtain ⟨r, hr, hfunction⟩ := Frame.pendingCall?_of_calling hstep
      have hside := hinnocent r hr
      rw [hfunction] at hside
      have hother : monitors.find? (fun m => m.sideCall.id = call.function.id) = none := by
        rw [List.find?_eq_none]
        intro m hm
        have hm := hmonitors.mem_iff.mp hm
        simp only [Value.isSideCall, List.any_cons, List.any_nil, Bool.or_false,
          Bool.or_eq_false_iff, decide_eq_false_iff_not] at hside
        simp only [reporters, List.mem_cons, List.not_mem_nil, or_false] at hm
        rcases hm with rfl | rfl
        · exact fun h => hside.1 (of_decide_eq_true h)
        · exact fun h => hside.2 (of_decide_eq_true h)
      have hcall : (host.recording.withMonitors monitors).call call (s, log)
          = (((host.call call s).1, log), (host.call call s).2) := by
        simp only [withMonitors, hother]
        rfl
      dsimp only
      rw [hcall]
      obtain ⟨t, r⟩ := host.call call s
      cases r <;> rfl
  | _ => rfl

/-- **What is written down** is what the instructions of the code do, in order. -/
theorem watched_recording {monitors : List (StockMonitor (σ × List Report))}
    (hmonitors : monitors.Perm (reporters loads calls (record act))) :
    ∀ (n : Nat) (f : Frame) (s : σ) (log : List Report),
      (∀ g ∈ host.watchedFrames act c scope n f s, g.Innocent [loads, calls] c) →
        (host.recording.withMonitors monitors).watched (record act) c scope n f (s, log)
          = { host.watched act c scope n f s with
              state := ((host.watched act c scope n f s).state,
                log ++ (host.watchedFrames act c scope n f s).filterMap (Frame.report? c)) }
  | 0, _, _, _, _ => by simp [watched, watchedFrames]
  | n + 1, f, s, log, hinnocent => by
      have hturn : (host.recording.withMonitors monitors).turn c scope f
          (told act c f s, log ++ (f.report? c).toList)
            = (host.turn c scope f (told act c f s)).logged (log ++ (f.report? c).toList) :=
        turn_recording hmonitors (hinnocent f List.mem_cons_self) _ _
      rw [watched, told_record, hturn, watched, watchedFrames]
      have hreport : ∀ gs : List Frame, (f :: gs).filterMap (Frame.report? c)
          = (f.report? c).toList ++ gs.filterMap (Frame.report? c) := by
        intro gs
        rw [List.filterMap_cons]
        cases f.report? c <;> rfl
      rw [watchedFrames] at hinnocent
      cases hgo : host.turn c scope f (told act c f s) with
      | goes g t =>
          rw [hgo] at hinnocent
          simp only [Turn.logged]
          rw [watched_recording hmonitors n g t _ fun x hx => hinnocent x (List.mem_cons_of_mem _ hx),
            hreport]
          simp [Execution.after]
      | ends r t => simp [Turn.logged, hreport]

/-- Hooks that change nothing leave a run as it is. -/
theorem watched_of_idle (hidle : ∀ r s, act r s = s) : ∀ (n : Nat) (f : Frame) (s : σ),
    host.watched act c scope n f s = host.run c scope n f s ∧
      host.watchedFrames act c scope n f s = host.visited c scope n f s
  | 0, _, _ => ⟨rfl, rfl⟩
  | n + 1, f, s => by
      have htold : told act c f s = s := by
        unfold told
        split
        · exact hidle _ _
        · rfl
      rw [watched, watchedFrames, htold, run_succ, visited]
      cases host.turn c scope f s with
      | goes g t =>
          obtain ⟨hrun, hframes⟩ := watched_of_idle hidle n g t
          exact ⟨congrArg (Execution.after f.here) hrun, congrArg (f :: ·) hframes⟩
      | ends r t => exact ⟨rfl, rfl⟩

end Recording

end Host

section Theorem

/-- `abs(a.x)`: a plain call of what a load reads. -/
def magnitude : Code := Code.ofInstructions
  [ .loadName "abs",
    .loadName "a",
    .loadAttr "x",
    .call .plain 1,
    .returnValue ]

theorem stackProfile_magnitude :
    magnitude.stackProfile = .ok ⟨[some 0, some 1, some 2, some 2, some 1], 2⟩ := by
  cbv

end Theorem

end TrackedExpr
