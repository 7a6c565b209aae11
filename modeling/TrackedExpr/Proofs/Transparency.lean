import TrackedExpr.Proofs.Neutrality
import TrackedExpr.Proofs.Simulation

/-!
# Instrumentation is transparent

A host can be watched by stock monitors: it answers their side-calls, which tell the
hooks that have not been dropped.  If the hooks change nothing that code can see,
instrumented code does what the code does, verified or not.

**Definitions.**
* `StockMonitor`, `Host.withMonitors`: hosts that are watched;
* `Host.Blind`: states that no code can tell apart;
* `StockMonitor.Discreet`: hooks that change nothing that code can see;
* `splicedInsertions`: the insertions that instrumentation splices.

**Results.**
* `sitesOnly_proposals`: stock monitors propose sites only;
* `instrument_transparent`: a run of instrumented code is seen to do what the run of
  the code does.
-/

namespace TrackedExpr

universe u

variable {σ : Type u}

section Monitors

/-- A stock monitor: its side-call, and its hook in a state unless it has been dropped. -/
inductive StockMonitor (σ : Type u)
  | attributes (sideCall : NativeRef) (hook : σ → Option (Value → String → σ))
  | calls (sideCall : NativeRef) (hook : σ → Option (CallReport → σ))

namespace StockMonitor

/-- The native function that the sites of a monitor call. -/
def sideCall : StockMonitor σ → NativeRef
  | attributes ref _ => ref
  | calls ref _ => ref

/-- The insertions of a stock monitor. -/
def monitor : StockMonitor σ → Monitor
  | attributes ref _ => Monitor.attributes ref
  | calls ref _ => Monitor.calls ref

/-- How the side-call of a monitor answers. -/
def answer (args : List Value) (s : σ) : StockMonitor σ → σ × Except EvalError Value
  | attributes _ hook =>
      match attributeReport? args, hook s with
      | some (target, attr), some tell => (tell target attr, .ok .none)
      | _, _ => (s, .ok .none)
  | calls _ hook =>
      match answerCallSite args with
      | .error e => (s, .error e)
      | .ok (report, v) =>
          match report, hook s with
          | some r, some tell => (tell r, .ok v)
          | _, _ => (s, .ok v)

/-- What a hook makes of a state cannot be told from the state. -/
def Discreet (same : σ → σ → Prop) : StockMonitor σ → Prop
  | attributes _ hook => ∀ s tell target attr, hook s = some tell → same s (tell target attr)
  | calls _ hook => ∀ s tell report, hook s = some tell → same s (tell report)

end StockMonitor

/-- States that no code can tell apart: attributes read the same in them, native functions
answer the same, and what these make of them cannot be told apart either. -/
structure Host.Blind (host : Host σ) (same : σ → σ → Prop) : Prop where
  symm : ∀ {s t}, same s t → same t s
  trans : ∀ {s t u}, same s t → same t u → same s u
  read : ∀ {s t}, same s t → host.read s = host.read t
  answer : ∀ {s t} (call : NativeCall), same s t → (host.call call s).2 = (host.call call t).2
  next : ∀ {s t} (call : NativeCall), same s t →
    same (host.call call s).1 (host.call call t).1

/-- A host whose code is watched by monitors. -/
def Host.withMonitors (host : Host σ) (monitors : List (StockMonitor σ)) : Host σ where
  read := host.read
  call := fun call s =>
    match monitors.find? fun m => m.sideCall.id = call.function.id with
    | some m => m.answer call.args s
    | none => host.call call s

end Monitors

section Answers

variable {same : σ → σ → Prop} {m : StockMonitor σ}

/-- Whatever its stack holds, code goes alike in states that no code can tell apart. -/
theorem Host.Blind.steady {host : Host σ} (hblind : host.Blind same) (c : Code) (scope : Scope) :
    host.Steady c scope same fun _ => True where
  symm := hblind.symm
  trans := hblind.trans
  turn := by
    intro f s t _ hst
    unfold Host.turn
    rw [← hblind.read hst]
    cases f.step (host.read s) c scope with
    | running g => exact Host.TurnsAlike.goes trivial hst
    | finished v => exact Host.TurnsAlike.ends hst
    | failed e => exact Host.TurnsAlike.ends hst
    | calling call g =>
        have hanswer := hblind.answer call hst
        have hnext := hblind.next call hst
        dsimp only
        generalize host.call call s = p at hanswer hnext
        generalize host.call call t = q at hanswer hnext
        obtain ⟨s', r⟩ := p
        obtain ⟨t', r'⟩ := q
        obtain rfl : r = r' := hanswer
        cases r with
        | ok v => exact Host.TurnsAlike.goes trivial hnext
        | error e => exact Host.TurnsAlike.ends hnext

/-- What a side-call answers depends on its arguments only. -/
theorem StockMonitor.answer_eq (m : StockMonitor σ) (args : List Value) (s t : σ) :
    (m.answer args s).2 = (m.answer args t).2 := by
  cases m with
  | attributes ref hook =>
      simp only [answer]
      split <;> split <;> rfl
  | calls ref hook =>
      simp only [answer]
      split
      · rfl
      · split <;> split <;> rfl

/-- The side-call of a discreet monitor changes nothing that code can see. -/
theorem StockMonitor.Discreet.same_answer (hm : m.Discreet same) (args : List Value) {s : σ}
    (hs : same s s) : same s (m.answer args s).1 := by
  cases m with
  | attributes ref hook =>
      simp only [answer]
      cases attributeReport? args with
      | none => exact hs
      | some access =>
          cases htell : hook s with
          | none => exact hs
          | some tell => exact hm s tell access.1 access.2 htell
  | calls ref hook =>
      simp only [answer]
      cases answerCallSite args with
      | error e => exact hs
      | ok found =>
          obtain ⟨_ | report, v⟩ := found
          · exact hs
          · cases htell : hook s with
            | none => exact hs
            | some tell => exact hm s tell report htell

theorem Host.Blind.withMonitors {host : Host σ} (hblind : host.Blind same)
    {monitors : List (StockMonitor σ)} (hdiscreet : ∀ m ∈ monitors, m.Discreet same) :
    (host.withMonitors monitors).Blind same where
  symm := hblind.symm
  trans := hblind.trans
  read := hblind.read
  answer := by
    intro s t call hst
    simp only [Host.withMonitors]
    cases monitors.find? fun m => m.sideCall.id = call.function.id with
    | none => exact hblind.answer call hst
    | some m => exact m.answer_eq call.args s t
  next := by
    intro s t call hst
    simp only [Host.withMonitors]
    cases hfind : monitors.find? fun m => m.sideCall.id = call.function.id with
    | none => exact hblind.next call hst
    | some m =>
        have hm := hdiscreet m (List.mem_of_find?_eq_some hfind)
        have hs := hm.same_answer call.args (hblind.trans hst (hblind.symm hst))
        have ht := hm.same_answer call.args (hblind.trans (hblind.symm hst) hst)
        exact hblind.trans (hblind.symm hs) (hblind.trans hst ht)

/-- A monitor is found by its side-call if no other monitor has it. -/
theorem find?_sideCall : ∀ {monitors : List (StockMonitor σ)},
    (monitors.map fun m => m.sideCall.id).Nodup → m ∈ monitors →
      monitors.find? (fun k => k.sideCall.id = m.sideCall.id) = some m
  | k :: rest, hids, hm => by
      obtain ⟨hk, hrest⟩ := List.nodup_cons.mp hids
      rcases List.mem_cons.mp hm with rfl | hm
      · simp
      · have hne : k.sideCall.id ≠ m.sideCall.id := by
          intro heq
          exact hk (List.mem_map.mpr ⟨m, hm, heq.symm⟩)
        rw [List.find?_cons_of_neg (by simpa using hne)]
        exact find?_sideCall hrest hm

/-- The instruction in front of which a monitor places its sites. -/
def StockMonitor.Watches (m : StockMonitor σ) (op : Instruction) : Prop :=
  match m, op with
  | attributes _ _, .loadAttr _ => True
  | calls _ _, .call .plain _ => True
  | _, _ => False

/-- The side-call of a discreet monitor serves the monitor's sites. -/
theorem serves_withMonitors {host : Host σ} {monitors : List (StockMonitor σ)}
    (hids : (monitors.map fun m => m.sideCall.id).Nodup) (hm : m ∈ monitors)
    (hdiscreet : m.Discreet same) {op : Instruction} (hop : m.Watches op) :
    (host.withMonitors monitors).Serves same (fun _ => True) m.sideCall op := by
  intro stack call s _ hs hcall
  have hfunction : call.function = m.sideCall := by
    unfold sideCallAt at hcall
    split at hcall
    · cases hcall
      rfl
    · split at hcall
      · cases hcall
        rfl
      · cases hcall
    · cases hcall
  have hanswer : (m.answer call.args s).2 = .ok (siteAnswer op stack) := by
    cases m with
    | attributes ref hook =>
        have hnone : siteAnswer op stack = .none := by
          cases op with
          | loadAttr a => rfl
          | _ => exact hop.elim
        simp only [StockMonitor.answer, hnone]
        split <;> rfl
    | calls ref hook =>
        obtain ⟨raw, rfl⟩ : ∃ raw, op = .call .plain raw := by
          cases op with
          | call form raw =>
              cases form with
              | plain => exact ⟨raw, rfl⟩
              | _ => exact hop.elim
          | _ => exact hop.elim
        simp only [sideCallAt] at hcall
        simp only [siteAnswer]
        split at hcall
        · next function below hdrop =>
            cases hcall
            simp only [StockMonitor.answer, answerCallSite]
            split <;> rfl
        · cases hcall
  refine ⟨(m.answer call.args s).1, ?_, hdiscreet.same_answer call.args hs⟩
  simp only [Host.withMonitors, hfunction, find?_sideCall hids hm]
  exact Prod.ext rfl hanswer

end Answers

section Proposals

/-- What is proposed at an instruction. -/
theorem mem_proposeAt {site : Instruction → Option (List Instruction)} {x : Insertion} :
    ∀ {ops : List Instruction} {start : Nat}, x ∈ proposeAt site start ops →
      ∃ i op, x.index = start + i ∧ ops[i]? = some op ∧ site op = some x.ops
  | op :: rest, start, h => by
      have hlater : x ∈ proposeAt site (start + 1) rest →
          ∃ i op', x.index = start + i ∧ (op :: rest)[i]? = some op' ∧ site op' = some x.ops := by
        intro hx
        obtain ⟨i, op', hindex, hop', hsite⟩ := mem_proposeAt hx
        exact ⟨i + 1, op', by omega, by simpa using hop', hsite⟩
      rw [proposeAt] at h
      cases hsite : site op with
      | none =>
          rw [hsite] at h
          exact hlater h
      | some ops =>
          rw [hsite] at h
          rcases List.mem_cons.mp h with rfl | h
          · exact ⟨0, op, rfl, rfl, hsite⟩
          · exact hlater h

theorem mem_propose {m : StockMonitor σ} {ops : List Instruction} {x : Insertion}
    (h : x ∈ m.monitor.propose ops) :
    ∃ op, ops[x.index]? = some op ∧ x.ops = siteFor op m.sideCall ∧
      siteFor op m.sideCall ≠ [] ∧ m.Watches op := by
  cases m with
  | attributes ref hook =>
      obtain ⟨i, op, hindex, hop, hsite⟩ := mem_proposeAt h
      rw [Nat.zero_add] at hindex
      cases op with
      | loadAttr a =>
          have hops : attributeSite ref a = x.ops := Option.some.inj hsite
          exact ⟨.loadAttr a, by rw [hindex, hop], hops.symm, by simp [siteFor, attributeSite],
            trivial⟩
      | _ => cases hsite
  | calls ref hook =>
      obtain ⟨i, op, hindex, hop, hsite⟩ := mem_proposeAt h
      rw [Nat.zero_add] at hindex
      cases op with
      | call form raw =>
          cases form with
          | plain =>
              have hops : callSite ref raw = x.ops := Option.some.inj hsite
              exact ⟨.call .plain raw, by rw [hindex, hop], hops.symm, by simp [siteFor, callSite],
                trivial⟩
          | _ => cases hsite
      | _ => cases hsite

/-- The insertions that instrumentation splices. -/
def splicedInsertions (verify : Bool) (monitors : List Monitor) (c : Code) : List Insertion :=
  if verify then
    match c.stackProfile with
    | .ok p => acceptedBy p monitors c
    | .error _ => []
  else proposals monitors c

theorem splice_of_spliceAll {c c' : Code} {ins : List Insertion}
    (h : spliceAll c ins = .ok c') : c.splice ins = .ok c' := by
  unfold spliceAll at h
  cases hsplice : c.splice ins with
  | error e => simp [hsplice] at h
  | ok k => simpa [hsplice] using h

theorem splice_of_instrument {verify : Bool} {monitors : List Monitor} {c c' : Code}
    (h : instrument verify c monitors = .ok c') :
    c.splice (splicedInsertions verify monitors c) = .ok c' := by
  cases verify with
  | false => exact splice_of_spliceAll h
  | true =>
      simp only [instrument, if_true] at h
      simp only [splicedInsertions, if_true, acceptedBy]
      cases hp : c.stackProfile with
      | error e => simp [hp] at h
      | ok p =>
          simp only [hp] at h
          cases hall : spliceAll c ((proposals monitors c).filter (Insertion.isNeutral p)) with
          | error e => simp [hall] at h
          | ok k =>
              simp only [hall] at h
              split at h
              · cases h
              · cases h
                exact splice_of_spliceAll hall

theorem mem_proposals_of_mem {verify : Bool} {monitors : List Monitor} {c : Code} {x : Insertion}
    (h : x ∈ splicedInsertions verify monitors c) : x ∈ proposals monitors c := by
  cases verify with
  | false => exact h
  | true =>
      simp only [splicedInsertions, if_true] at h
      split at h
      · exact List.mem_of_mem_filter h
      · cases h

/-- Stock monitors propose sites only. -/
theorem sitesOnly_spliced (verify : Bool) (monitors : List (StockMonitor σ)) (c : Code) :
    SitesOnly c (splicedInsertions verify (monitors.map StockMonitor.monitor) c)
      fun ref op => ∃ m ∈ monitors, m.sideCall = ref ∧ m.Watches op := by
  intro x hx
  obtain ⟨k, hk, hx⟩ := List.mem_flatMap.mp (mem_proposals_of_mem hx)
  obtain ⟨m, hm, rfl⟩ := List.mem_map.mp hk
  obtain ⟨op, hop, hops, hne, hwatches⟩ := mem_propose hx
  exact ⟨op, m.sideCall, hop, hops, hne, m, hm, rfl, hwatches⟩

end Proposals

section Transparency

/-- **Instrumentation is transparent.**  Let stock monitors, alive or dropped, watch a host, and
let their hooks change nothing that code can see.  If code can be instrumented for them, verified
or not, then the code and the result can be run side by side: for every number of steps of the
one there is one of the other with which both end alike or both go on, make the same calls but
for the side-calls, and execute the same instructions of the code at the same heights.  Only if
a value is missing, it can be found missing at another place. -/
theorem instrument_transparent {host : Host σ} {same : σ → σ → Prop} (hblind : host.Blind same)
    {monitors : List (StockMonitor σ)} (hdiscreet : ∀ m ∈ monitors, m.Discreet same)
    (hids : (monitors.map fun m => m.sideCall.id).Nodup) {verify : Bool} {c c' : Code}
    (h : instrument verify c (monitors.map StockMonitor.monitor) = .ok c') (scope : Scope)
    {s s' : σ} (hs : same s s') :
    (∀ n, ∃ m, n ≤ m ∧ (host.withMonitors monitors).Agree same
      (monitors.map StockMonitor.sideCall) c c'
      (splicedInsertions verify (monitors.map StockMonitor.monitor) c) scope
      n Frame.start s m Frame.start s') ∧
    ∀ m, ∃ n, n ≤ m ∧ (host.withMonitors monitors).Agree same
      (monitors.map StockMonitor.sideCall) c c'
      (splicedInsertions verify (monitors.map StockMonitor.monitor) c) scope
      n Frame.start s m Frame.start s' := by
  have hsteady := (hblind.withMonitors hdiscreet).steady c scope
  have hsplice := splice_of_instrument h
  have hsites : SitesOnly c (splicedInsertions verify (monitors.map StockMonitor.monitor) c)
      fun ref op => ref ∈ monitors.map StockMonitor.sideCall ∧
        (host.withMonitors monitors).Serves same (fun _ => True) ref op := by
    intro x hx
    obtain ⟨op, ref, hop, hops, hne, m, hm, rfl, hwatches⟩ :=
      sitesOnly_spliced verify monitors c x hx
    exact ⟨op, m.sideCall, hop, hops, hne, List.mem_map.mpr ⟨m, hm, rfl⟩,
      serves_withMonitors hids hm (hdiscreet m hm) hwatches⟩
  constructor
  · intro n
    exact Host.agree_of_run hsteady hsplice hsites n Frame.start trivial hs
  · intro m
    exact Host.agree_of_spliced_run hsteady hsplice hsites m Frame.start trivial hs

/-- The attribute loads of `shortCircuit`, written to a log; the monitor of calls is gone. -/
def accessLog : List (StockMonitor (List String)) :=
  [ .attributes ⟨0, "attribute_binder"⟩ fun log => some fun _ attr => attr :: log,
    .calls ⟨1, "call_binder"⟩ fun _ => none ]

/-- Every attribute is 7, and nothing else is native. -/
def sevens : Host (List String) where
  read := fun _ _ _ => some (.int 7)
  call := fun call log => (log, .error (.type (.notCallable (Value.native call.function).typeName)))

/-- `shortCircuit` with the site of its attribute load. -/
def watchedShortCircuit : Code := Code.ofInstructions <|
  .loadName "a" :: attributeSite ⟨0, "attribute_binder"⟩ "x" ++
    [ .loadAttr "x",
      .jump .ifFalseOrPop ⟨0⟩,
      .loadName "b",
      .setLabel ⟨0⟩,
      .returnValue ]

theorem instrument_shortCircuit :
    instrument true shortCircuit (accessLog.map StockMonitor.monitor)
      = .ok watchedShortCircuit := by
  cbv

theorem instrument_transparent_shortCircuit :
    instrument true shortCircuit (accessLog.map StockMonitor.monitor) = .ok watchedShortCircuit ∧
      ∃ m, 6 ≤ m ∧ (sevens.withMonitors accessLog).Agree (fun _ _ => True)
        (accessLog.map StockMonitor.sideCall) shortCircuit watchedShortCircuit
        (splicedInsertions true (accessLog.map StockMonitor.monitor) shortCircuit)
        [("a", .object ⟨0, 0, "record", "Record"⟩), ("b", .bool true)]
        6 Frame.start [] m Frame.start [] := by
  have hblind : sevens.Blind fun _ _ => True :=
    ⟨fun _ => trivial, fun _ _ => trivial, fun _ => rfl, fun _ _ => rfl, fun _ _ => trivial⟩
  have hdiscreet : ∀ m ∈ accessLog, m.Discreet fun _ _ => True := by
    intro m _
    cases m with
    | attributes ref hook => exact fun _ _ _ _ _ => trivial
    | calls ref hook => exact fun _ _ _ _ => trivial
  refine ⟨instrument_shortCircuit, ?_⟩
  exact (instrument_transparent hblind hdiscreet (by decide) instrument_shortCircuit _ trivial).1 6

end Transparency

end TrackedExpr
