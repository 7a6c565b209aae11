import TrackedExpr.Proofs.SideCalls

/-!
# Instrumented runs retrace plain runs

A run of a binding's instrumented code does what a run of its plain code would have
done at once, in the session in which it began.  Whatever it is aimed at, a policy
listens to afterwards, and nothing else is observed that was not observed before.

**Definitions.**
* `Wiring.Proper`: a binding whose code and scope call nothing native;
* `Alike`: sessions that such code cannot tell apart;
* `Matches`: results that are equal, or both lack a value in code that is not verified;
* `Among`: attributes in a list;
* `Retraces`: what a run of the instrumented code says about one of the plain code.

**Results.**
* `Wiring.Proper.steady`, `Wiring.Proper.sitesOnly`: plain and instrumented code are in the
  position of the simulation;
* `Wiring.Proper.retraces`: every run that ends retraces one.
-/

namespace TrackedExpr

open Code (position)

namespace Session

/-- The monitors of a binding. -/
def Wiring.monitors (k : Wiring) : List (StockMonitor Session) :=
  [.attributes k.loads fun _ => none, .calls k.calls fun _ => none]

/-- The insertions in a binding's instrumented code. -/
def Wiring.insertions (k : Wiring) (verify : Bool) : List Insertion :=
  splicedInsertions verify (k.monitors.map StockMonitor.monitor) k.plain

/-- A binding whose code is instrumented for both monitors, makes plain calls only, and takes
nothing native from its constants and its scope. -/
structure Wiring.Proper (k : Wiring) (verify : Bool) : Prop where
  instrumented : instrument verify k.plain (k.monitors.map StockMonitor.monitor) = .ok k.code
  plainCalls : ∀ form raw, .call form raw ∈ k.plain.instructions → form = .plain
  constants : ∀ v, .loadConst v ∈ k.plain.instructions → v.MadeOf AtHome
  scope : ∀ name v, Assoc.get? name k.scope = some v → v.MadeOf AtHome

/-- Values on a stack that are not native. -/
def Calm (stack : List Value) : Prop := ∀ v ∈ stack, v.MadeOf AtHome

/-- Sessions in which a binding is wired up and every attribute is the same. -/
structure Alike (k : Wiring) (w w' : Session) : Prop where
  left : Wired k w
  right : Wired k w'
  attributes : w'.attribute? = w.attribute?
  declared : w'.declared? = w.declared?

section Alike

variable {k : Wiring} {w w' w'' : Session}

theorem Alike.refl (h : Wired k w) : Alike k w w := ⟨h, h, rfl, rfl⟩

theorem Alike.symm (h : Alike k w w') : Alike k w' w :=
  ⟨h.right, h.left, h.attributes.symm, h.declared.symm⟩

theorem Alike.trans (h : Alike k w w') (h' : Alike k w' w'') : Alike k w w'' :=
  ⟨h.left, h'.right, h'.attributes.trans h.attributes, h'.declared.trans h.declared⟩

theorem Alike.grow {spots : Nat → String → Prop} (h : Alike k w w') (hw : Wired k w'')
    (hgrows : Grows k spots w' w'') : Alike k w w'' :=
  ⟨h.left, hw, hgrows.attribute?.trans h.attributes, hgrows.declared?.trans h.declared⟩

/-- Attributes hold nothing native. -/
theorem Wired.read (h : Wired k w) : ReadMadeOf AtHome w.attribute? := by
  intro o a v hv
  obtain ⟨cell, hcell, hv⟩ := Option.bind_eq_some_iff.mp hv
  exact (h.cells o.id cell hcell).attrs a v hv

end Alike

namespace Wiring.Proper

variable {k : Wiring} {verify : Bool} {w : Session}

theorem materials (hk : k.Proper verify) (h : Wired k w) (re : Reentry) :
    Materials AtHome k.plain k.scope ((host re).read w) :=
  ⟨hk.constants, hk.scope, h.read⟩

theorem splice (hk : k.Proper verify) : k.plain.splice (k.insertions verify) = .ok k.code :=
  splice_of_instrument hk.instrumented

/-- Instrumented code makes plain calls only, too. -/
theorem codeCalls (hk : k.Proper verify) :
    ∀ form raw, .call form raw ∈ k.code.instructions → form = .plain := by
  intro form raw hop
  rcases Code.mem_of_splice hk.splice hop with hop | ⟨x, hx, hop⟩
  · exact hk.plainCalls form raw hop
  · obtain ⟨op, ref, -, hops, -⟩ := sitesOnly_spliced verify _ _ x hx
    rw [hops] at hop
    exact plain_of_mem_siteFor hop

/-- Plain code goes alike in sessions that it cannot tell apart. -/
theorem steady (hk : k.Proper verify) (re : Reentry) :
    (host re).Steady k.plain k.scope (Alike k) Calm where
  symm := Alike.symm
  trans := Alike.trans
  turn := by
    intro f s t hstack hst
    have hread : (host re).read t = (host re).read s := hst.attributes
    rcases Host.turn_of_made (hk.materials hst.left re) hstack with
      ⟨g, hstep, hturn, hmade⟩ | ⟨r, hturn, ⟨v, hstep, rfl⟩ | ⟨e, hstep, rfl⟩⟩
    · have hturn' : (host re).turn k.plain k.scope f t = .goes g t := by
        rw [Host.turn, hread, hstep]
      rw [hturn, hturn']
      exact Host.TurnsAlike.goes hmade hst
    · have hturn' : (host re).turn k.plain k.scope f t = .ends (.ok v) t := by
        rw [Host.turn, hread, hstep]
      rw [hturn, hturn']
      exact Host.TurnsAlike.ends hst
    · have hturn' : (host re).turn k.plain k.scope f t = .ends (.error e) t := by
        rw [Host.turn, hread, hstep]
      rw [hturn, hturn']
      exact Host.TurnsAlike.ends hst

theorem feeds_of_watches {m : StockMonitor Session} (hm : m ∈ k.monitors) {op : Instruction}
    (hw : m.Watches op) : k.Feeds m.sideCall op := by
  simp only [monitors, List.mem_cons, List.not_mem_nil, or_false] at hm
  rcases hm with rfl | rfl
  · cases op with
    | loadAttr a => rfl
    | _ => exact hw.elim
  · cases op with
    | call form raw =>
        cases form with
        | plain => rfl
        | _ => exact hw.elim
    | _ => exact hw.elim

/-- Whatever instrumentation spliced is a site whose side-call feeds the binding. -/
theorem sitesOnly (re : Reentry) :
    SitesOnly k.plain (k.insertions verify) fun ref op =>
      ref ∈ k.monitors.map StockMonitor.sideCall ∧ (host re).Serves (Alike k) Calm ref op := by
  intro x hx
  obtain ⟨op, ref, hop, hops, hne, m, hm, rfl, hwatches⟩ := sitesOnly_spliced verify _ _ x hx
  refine ⟨op, m.sideCall, hop, hops, hne, List.mem_map.mpr ⟨m, hm, rfl⟩, ?_⟩
  intro stack call s hstack hs hcall
  obtain ⟨t, hanswer, hwired, hgrows, -⟩ :=
    hs.left.sideCall (feeds_of_watches hm hwatches) hstack hcall re
  exact ⟨t, hanswer, hs.grow hwired hgrows⟩

/-- Whatever instrumentation spliced feeds the binding. -/
theorem sitesOnly_feeds : SitesOnly k.plain (k.insertions verify) fun ref op => k.Feeds ref op := by
  intro x hx
  obtain ⟨op, ref, hop, hops, hne, m, hm, rfl, hwatches⟩ := sitesOnly_spliced verify _ _ x hx
  exact ⟨op, m.sideCall, hop, hops, hne, feeds_of_watches hm hwatches⟩

theorem feeds_of_mem {f : Frame} {op : Instruction}
    (hop : k.plain.instructions[f.pc]? = some op) :
    ∀ ref ∈ sideCallsAt (k.insertions verify) f.pc, k.Feeds ref op :=
  fun ref href => ((sitesOnly_feeds.row hop).2 ref href).2

/-- In front of an instruction that is reached and aimed at something there is a site. -/
theorem sideCallsAt_ne_nil
    (hinstrumented : instrument verify k.plain (k.monitors.map StockMonitor.monitor) = .ok k.code)
    {f : Frame} (hreach : Frame.Reachable k.plain k.scope f) {op : Instruction}
    (hop : k.plain.instructions[f.pc]? = some op) {x : ObjectRef × String}
    (hx : op.aim? f.stack = some x) : sideCallsAt (k.insertions verify) f.pc ≠ [] := by
  have hsite : ∀ m ∈ k.monitors, m.Watches op → siteFor op m.sideCall ≠ [] →
      sideCallsAt (k.insertions verify) f.pc ≠ [] := by
    intro m hm hw hne
    have hmem := site_mem_spliced hinstrumented hm hreach hop hw
    exact List.ne_nil_of_mem (mem_sideCallsAt hne hmem)
  cases op with
  | loadAttr a =>
      exact hsite (.attributes k.loads fun _ => none) List.mem_cons_self trivial
        (List.cons_ne_nil _ _)
  | call form raw =>
      cases form with
      | plain =>
          exact hsite (.calls k.calls fun _ => none) (List.mem_cons_of_mem _ List.mem_cons_self)
            trivial (List.cons_ne_nil _ _)
      | _ => cases hx
  | _ => cases hx

end Wiring.Proper

/-- Results that are equal, or that both lack a value in code that is not verified. -/
def Matches (verify : Bool) (r r' : Outcome) : Prop :=
  r = r' ∨ verify = false ∧ (∃ i op, r = .error (.stackUnderflow i op)) ∧
    ∃ i op, r' = .error (.stackUnderflow i op)

/-- An attribute of an object in a list. -/
def Among (xs : List (ObjectRef × String)) (id : Nat) (attr : String) : Prop :=
  ∃ x ∈ xs, x.1.id = id ∧ x.2 = attr

theorem Among.append_left {xs : List (ObjectRef × String)} {id : Nat} {attr : String}
    (h : Among xs id attr) (ys : List (ObjectRef × String)) : Among (ys ++ xs) id attr := by
  obtain ⟨x, hx, hat⟩ := h
  exact ⟨x, List.mem_append_right _ hx, hat⟩

/-- A run of a binding's code that ends with a result, and what it says about the run of the plain
code: how this ends, what it is aimed at and looks up, and what is listened to afterwards. -/
structure Retraces (re : Reentry) (k : Wiring) (verify : Bool) (f : Frame) (w w' : Session)
    (n m : Nat) (r r' : Outcome) : Prop where
  plain : ((host re).run k.plain k.scope n f w).outcome = some r
  result : Matches verify r r'
  wired : Wired k
    ((host re).run k.code k.scope m (f.relocate (k.insertions verify)) w').state
  grows : Grows k (Among ((host re).aims k.plain k.scope n f w)) w'
    ((host re).run k.code k.scope m (f.relocate (k.insertions verify)) w').state
  reads : ∀ x ∈ (host re).accesses k.plain k.scope n f w,
    x ∈ (host re).accesses k.code k.scope m (f.relocate (k.insertions verify)) w'
  aims : (host re).aims k.code k.scope m (f.relocate (k.insertions verify)) w'
    = (host re).aims k.plain k.scope n f w
  heeds : ∀ x ∈ (host re).aims k.plain k.scope n f w,
    w.declared? x.1 x.2 = some .observable → Heeds k
      ((host re).run k.code k.scope m (f.relocate (k.insertions verify)) w').state x.1 x.2

section Retracing

variable {re : Reentry} {k : Wiring} {verify : Bool} {f g : Frame} {w w' t : Session}
  {fs : List Frame} {op : Instruction} {n m : Nat} {r r' : Outcome}

theorem access?_position {c c' : Code} {ins : List Insertion} (h : c.splice ins = .ok c')
    (f : Frame) : Frame.access? c' ⟨f.stack, position ins f.pc⟩ = f.access? c := by
  unfold Frame.access?
  rw [Code.getElem?_position h]

theorem aim?_position {c c' : Code} {ins : List Insertion} (h : c.splice ins = .ok c')
    (f : Frame) : Frame.aim? c' ⟨f.stack, position ins f.pc⟩ = f.aim? c := by
  unfold Frame.aim?
  rw [Code.getElem?_position h]

/-- The only attribute that an instruction is aimed at is among those of a run from there. -/
theorem among_of_spotOf (hop : k.plain.instructions[f.pc]? = some op) {id : Nat} {attr : String}
    (h : spotOf op f.stack id attr) (xs : List (ObjectRef × String)) :
    Among ((f.aim? k.plain).toList ++ xs) id attr := by
  obtain ⟨o, ho, hid⟩ := h
  rw [Frame.aim?_eq hop, ho]
  exact ⟨(o, attr), List.mem_cons_self, hid, rfl⟩

variable (hk : k.Proper verify)
  (hpath : (host re).Path k.code k.scope (f.relocate (k.insertions verify)) w' fs
    ⟨f.stack, position (k.insertions verify) f.pc⟩ t)
  (hsilent : ∀ x ∈ fs, x.aim? k.code = none)
  (hop : k.plain.instructions[f.pc]? = some op)
include hk hpath hsilent hop

/-- A turn before a run that retraces, and the turns that simulate it. -/
theorem Retraces.after (hgrows : Grows k (spotOf op f.stack) w' t)
    (hheeds : ∀ x, f.aim? k.plain = some x → w.declared? x.1 x.2 = some .observable →
      Heeds k t x.1 x.2)
    (hturn : (host re).turn k.plain k.scope f w = .goes g w)
    (hturn' : (host re).turn k.code k.scope ⟨f.stack, position (k.insertions verify) f.pc⟩ t
      = .goes (g.relocate (k.insertions verify)) t)
    (h : Retraces re k verify g w t n m r r') :
    Retraces re k verify f w w' (n + 1) (fs.length + (m + 1)) r r' := by
  have hrun := hpath.run (m + 1)
  rw [Host.run_succ, hturn'] at hrun
  have hreads := hpath.accesses (m + 1)
  rw [Host.accesses_succ_goes hturn', access?_position hk.splice] at hreads
  have haims := hpath.aims (m + 1)
  rw [Host.aims_succ_goes hturn', aim?_position hk.splice, List.filterMap_eq_nil_iff.mpr hsilent,
    List.nil_append] at haims
  have hplain := Host.aims_succ_goes hturn n
  constructor
  · rw [Host.run_succ, hturn]
    exact h.plain
  · exact h.result
  · rw [hrun]
    exact h.wired
  · rw [hrun, hplain]
    exact (hgrows.mono fun _ _ ha => among_of_spotOf hop ha _).trans
      (h.grows.mono fun _ _ ha => ha.append_left _)
  · intro x hx
    rw [hreads]
    rw [Host.accesses_succ_goes hturn] at hx
    apply List.mem_append_right
    rcases List.mem_append.mp hx with hx | hx
    · exact List.mem_append_left _ hx
    · exact List.mem_append_right _ (h.reads x hx)
  · rw [haims, hplain, h.aims]
  · intro x hx hobservable
    rw [hrun]
    rw [hplain] at hx
    rcases List.mem_append.mp hx with hx | hx
    · exact h.grows.heeds (hheeds x (Option.mem_toList.mp hx) hobservable)
    · exact h.heeds x hx hobservable

/-- A turn that ends the run, and the turns that simulate it. -/
theorem Retraces.ends (hwired : Wired k t) (hgrows : Grows k (spotOf op f.stack) w' t)
    (hheeds : ∀ x, f.aim? k.plain = some x → w.declared? x.1 x.2 = some .observable →
      Heeds k t x.1 x.2)
    (hturn : (host re).turn k.plain k.scope f w = .ends r w)
    (hturn' : (host re).turn k.code k.scope ⟨f.stack, position (k.insertions verify) f.pc⟩ t
      = .ends r t) (m : Nat) :
    Retraces re k verify f w w' 1 (fs.length + (m + 1)) r r := by
  have hrun := hpath.run (m + 1)
  rw [Host.run_succ, hturn'] at hrun
  have hreads := hpath.accesses (m + 1)
  rw [Host.accesses_succ_ends hturn', access?_position hk.splice] at hreads
  have haims := hpath.aims (m + 1)
  rw [Host.aims_succ_ends hturn', aim?_position hk.splice, List.filterMap_eq_nil_iff.mpr hsilent,
    List.nil_append] at haims
  have hplain := Host.aims_succ_ends hturn 0
  constructor
  · rw [Host.run_succ, hturn]
  · exact Or.inl rfl
  · rw [hrun]
    exact hwired
  · rw [hrun, hplain]
    refine hgrows.mono fun _ _ ha => ?_
    have hamong := among_of_spotOf hop ha []
    rwa [List.append_nil] at hamong
  · intro x hx
    rw [hreads]
    rw [Host.accesses_succ_ends hturn] at hx
    exact List.mem_append_right _ hx
  · rw [haims, hplain]
  · intro x hx hobservable
    rw [hrun]
    rw [hplain] at hx
    exact hheeds x (Option.mem_toList.mp hx) hobservable

end Retracing

section Runs

variable {k : Wiring} {verify : Bool}

/-- Running past the end, or on without a value, looks up nothing. -/
theorem Retraces.silent {re : Reentry} {f : Frame} {w w' : Session} {m : Nat} {r r' : Outcome}
    (hw : Wired k w') (haccess : f.access? k.plain = none) (haim : f.aim? k.plain = none)
    (hturn : (host re).turn k.plain k.scope f w = .ends r w)
    (hstate : ((host re).run k.code k.scope m (f.relocate (k.insertions verify)) w').state = w')
    (haims : (host re).aims k.code k.scope m (f.relocate (k.insertions verify)) w' = [])
    (hmatches : Matches verify r r') : Retraces re k verify f w w' 1 m r r' := by
  have hreads : (host re).accesses k.plain k.scope 1 f w = [] := by
    rw [Host.accesses_succ_ends hturn, haccess]
    rfl
  have hplain : (host re).aims k.plain k.scope 1 f w = [] := by
    rw [Host.aims_succ_ends hturn, haim]
    rfl
  constructor
  · rw [Host.run_succ, hturn]
  · exact hmatches
  · rw [hstate]
    exact hw
  · rw [hstate]
    exact Grows.refl k _ w'
  · rw [hreads]
    exact fun x hx => absurd hx List.not_mem_nil
  · rw [haims, hplain]
  · rw [hplain]
    exact fun x hx => absurd hx List.not_mem_nil

/-- With verified code no run lacks a value. -/
theorem Wiring.Proper.not_short (hk : k.Proper verify) {f : Frame}
    (hreach : Frame.Reachable k.plain k.scope f) {op : Instruction}
    (hop : k.plain.instructions[f.pc]? = some op)
    (hlt : f.stack.length < (op.effect false).pops) : verify = false := by
  cases verify with
  | false => rfl
  | true =>
      have h := hk.instrumented
      simp only [instrument, if_true] at h
      cases hp : k.plain.stackProfile with
      | error e => simp [hp] at h
      | ok p =>
          have hsound := Code.sound_of_stackProfile hp
          obtain ⟨op', hop', hpops, -⟩ := hsound.fits _ (hreach.reaches hsound)
          obtain rfl := Option.some.inj (hop.symm.trans hop')
          exact absurd hlt (Nat.not_lt.mpr hpops)

/-- After the sites in front of an instruction, what it is aimed at is listened to. -/
theorem Wiring.Proper.heeds_of_served (hk : k.Proper verify) {re : Reentry} {f : Frame}
    {w w' t : Session} (hreach : Frame.Reachable k.plain k.scope f) (hstack : Calm f.stack)
    (hw : Alike k w w') {op : Instruction} (hop : k.plain.instructions[f.pc]? = some op)
    (hserved : (host re).Served op f.stack (sideCallsAt (k.insertions verify) f.pc) w' t) :
    Wired k t ∧ Grows k (spotOf op f.stack) w' t ∧ ∀ x, f.aim? k.plain = some x →
      w.declared? x.1 x.2 = some .observable → Heeds k t x.1 x.2 := by
  obtain ⟨hwired, hgrows, hheeds⟩ := hw.right.served hserved (feeds_of_mem hop) hstack
  refine ⟨hwired, hgrows, ?_⟩
  intro x hx hobservable
  rw [Frame.aim?_eq hop] at hx
  rw [← hw.declared] at hobservable
  exact hheeds (sideCallsAt_ne_nil hk.instrumented hreach hop hx) x.1 x.2 hx hobservable

/-- **Every run of the instrumented code that ends retraces one of the plain code.** -/
theorem Wiring.Proper.retraces (hk : k.Proper verify) (re : Reentry) (m : Nat) :
    ∀ {f : Frame} {w w' : Session} {r' : Outcome}, Frame.Reachable k.plain k.scope f →
      Calm f.stack → Alike k w w' →
      ((host re).run k.code k.scope m (f.relocate (k.insertions verify)) w').outcome = some r' →
        ∃ n r, n ≤ m ∧ Retraces re k verify f w w' n m r r' := by
  induction m using Nat.strongRecOn with
  | ind m ih =>
      intro f w w' r' hreach hstack hw hout
      cases Host.turn_simulated (hk.steady re) hk.splice (sitesOnly re) f hstack hw with
      | @goes fs op g t u u' hop hrow hpath hsilent hturn hturnt hturn' hg hu =>
          obtain ⟨hwired, hgrows, hheeds⟩ := hk.heeds_of_served hreach hstack hw hop hrow
          have halike := hw.grow hwired hgrows
          obtain rfl := (Host.state_of_made (hk.materials hw.left re) hstack).1 g u hturn
          obtain rfl := (Host.state_of_made (hk.materials hwired re) hstack).1 g u' hturnt
          obtain ⟨i, rfl⟩ := hpath.exceeded hout
          have hrest : ((host re).run k.code k.scope i
              (g.relocate (k.insertions verify)) u').outcome = some r' := by
            rw [← hout, hpath.run (i + 1), Host.run_succ, hturn']
            rfl
          obtain ⟨n, r, hn, h⟩ :=
            ih i (by omega) (reachable_of_turn hreach hturn) hg halike hrest
          exact ⟨n + 1, r, by omega, h.after hk hpath (fun x hx => (hsilent x hx).aim) hop hgrows
            hheeds hturn hturn'⟩
      | @ends fs op r t u u' hop hrow hpath hsilent hturn hturnt hturn' hu =>
          obtain ⟨hwired, hgrows, hheeds⟩ := hk.heeds_of_served hreach hstack hw hop hrow
          obtain rfl := (Host.state_of_made (hk.materials hw.left re) hstack).2 r u hturn
          obtain rfl := (Host.state_of_made (hk.materials hwired re) hstack).2 r u' hturnt
          obtain ⟨i, rfl⟩ := hpath.exceeded hout
          obtain rfl : r = r' := by
            rw [hpath.run (i + 1), Host.run_succ, hturn'] at hout
            exact Option.some.inj hout
          exact ⟨1, r, by omega, Retraces.ends hk hpath (fun x hx => (hsilent x hx).aim) hop hwired
            hgrows hheeds hturn hturn' i⟩
      | past hop hplace hturn hturn' =>
          cases m with
          | zero => cases hout
          | succ i =>
              have hrun := Host.run_succ (host re) k.code k.scope i
                (f.relocate (k.insertions verify)) w'
              rw [hturn'] at hrun
              obtain rfl : Except.error EvalError.missingReturn = r' := by
                rw [hrun] at hout
                exact Option.some.inj hout
              have haccess : f.access? k.plain = none := by
                rw [Frame.access?, hop]
                rfl
              have haim : f.aim? k.plain = none := by
                rw [Frame.aim?, hop]
                rfl
              have haims := Host.aims_succ_ends hturn' i
              rw [hplace, aim?_position hk.splice, haim, ← hplace] at haims
              exact ⟨1, _, by omega, Retraces.silent hw.right haccess haim hturn (by rw [hrun]) haims
                (Or.inl rfl)⟩
      | @short fs op g i j name name' hop hlt hpath hsilent hcall hcall' haim' hturn hturn' =>
          obtain ⟨d, rfl⟩ := hpath.exceeded hout
          have hrun := hpath.run (d + 1)
          rw [Host.run_succ, hturn'] at hrun
          obtain rfl : Except.error (EvalError.stackUnderflow j name') = r' := by
            rw [hrun] at hout
            exact Option.some.inj hout
          have haim : f.aim? k.plain = none := by
            rw [Frame.aim?_eq hop, Instruction.aim?_of_short hlt]
          have haims := hpath.aims (d + 1)
          rw [Host.aims_succ_ends hturn', haim',
            List.filterMap_eq_nil_iff.mpr fun x hx => (hsilent x hx).aim] at haims
          exact ⟨1, _, by omega, Retraces.silent hw.right (Frame.access?_of_short hop hlt) haim hturn
            (by rw [hrun]) haims (Or.inr ⟨hk.not_short hreach hop hlt, ⟨i, name, rfl⟩, j, name', rfl⟩)⟩

end Runs

end Session
end TrackedExpr
