import TrackedExpr.Proofs.Accesses
import TrackedExpr.Proofs.Transparency

/-!
# No access goes past its site

A stock site is stack-neutral wherever the instruction behind it finds its operands.
So instrumentation keeps every site that a run can come to.

**Results.**
* `simulate?_siteFor`: a site leaves the height as it was;
* `mem_acceptedBy_of_reached`, `instrument_stock`: with a profile, instrumentation succeeds
  and drops nothing that stock monitors propose at an instruction that is reached;
* `site_mem_spliced`: in front of every instruction that is reached and watched, the
  site is spliced.
-/

namespace TrackedExpr

universe u

variable {σ : Type u}

section Proposals

theorem mem_proposeAt_of_site {site : Instruction → Option (List Instruction)}
    {op : Instruction} {inserted : List Instruction} (hsite : site op = some inserted) :
    ∀ {ops : List Instruction} {i : Nat} (start : Nat), ops[i]? = some op →
      ⟨start + i, inserted⟩ ∈ proposeAt site start ops
  | [], i, start, hop => by simp at hop
  | first :: rest, 0, start, hop => by
      obtain rfl : first = op := by simpa using hop
      rw [proposeAt, hsite]
      exact List.mem_cons_self
  | first :: rest, i + 1, start, hop => by
      have hlater : ⟨start + 1 + i, inserted⟩ ∈ proposeAt site (start + 1) rest :=
        mem_proposeAt_of_site hsite (start + 1) (by simpa using hop)
      rw [Nat.add_right_comm, Nat.add_assoc] at hlater
      rw [proposeAt]
      cases site first with
      | none => exact hlater
      | some ops => exact List.mem_cons_of_mem _ hlater

theorem site_mem_propose {m : StockMonitor σ} {ops : List Instruction} {i : Nat}
    {op : Instruction} (hop : ops[i]? = some op) (hw : m.Watches op) :
    ⟨i, siteFor op m.sideCall⟩ ∈ m.monitor.propose ops := by
  rw [← Nat.zero_add i]
  cases m with
  | attributes ref hook =>
      cases op with
      | loadAttr a => exact mem_proposeAt_of_site rfl 0 hop
      | _ => exact hw.elim
  | calls ref hook =>
      cases op with
      | call form raw =>
          cases form with
          | plain => exact mem_proposeAt_of_site rfl 0 hop
          | _ => exact hw.elim
      | _ => exact hw.elim

end Proposals

section Neutrality

theorem simulate?_cons_of_le {op : Instruction} {rest : List Instruction} {d pops pushes : Nat}
    (heffect : op.effect false = ⟨pops, pushes⟩) (htarget : op.target? = none)
    (hterm : op.isTerminal = false) (hpops : pops ≤ d) :
    simulate? (op :: rest) d = simulate? rest (d - pops + pushes) := by
  simp [simulate?, heffect, htarget, hterm, Nat.not_lt.mpr hpops]

/-- A site is stack-neutral where the instruction behind it finds its operands. -/
theorem simulate?_siteFor {op : Instruction} {ref : NativeRef} {d : Nat}
    (h : (op.effect false).pops ≤ d) : simulate? (siteFor op ref) d = some d := by
  cases op with
  | loadAttr a =>
      have hd : 1 ≤ d := h
      rw [siteFor, attributeSite,
        @simulate?_cons_of_le .dupTop _ _ 1 2 rfl rfl rfl hd,
        @simulate?_cons_of_le (.loadConst _) _ _ 0 1 rfl rfl rfl (Nat.zero_le _),
        @simulate?_cons_of_le .rotTwo _ _ 2 2 rfl rfl rfl (by omega),
        @simulate?_cons_of_le (.loadConst _) _ _ 0 1 rfl rfl rfl (Nat.zero_le _),
        @simulate?_cons_of_le (.call .plain 2) _ _ 3 1 rfl rfl rfl (by omega),
        @simulate?_cons_of_le .popTop _ _ 1 0 rfl rfl rfl (by omega), simulate?]
      congr 1
      omega
  | call form raw =>
      cases form with
      | plain =>
          have hd : (ArgSpec.decode raw).slots + 1 ≤ d := h
          have hslots := toNat_ofNat_slots raw
          have hbuild : (Instruction.buildTuple (UInt64.ofNat (ArgSpec.decode raw).slots)).effect
              false = ⟨(ArgSpec.decode raw).slots, 1⟩ := by
            rw [Instruction.effect, hslots]
          have hunpack : (Instruction.unpackSequence
              (UInt64.ofNat (ArgSpec.decode raw).slots)).effect false
                = ⟨1, (ArgSpec.decode raw).slots⟩ := by
            rw [Instruction.effect, hslots]
          rw [siteFor, callSite,
            simulate?_cons_of_le hbuild rfl rfl (by omega),
            @simulate?_cons_of_le (.loadConst _) _ _ 0 1 rfl rfl rfl (Nat.zero_le _),
            @simulate?_cons_of_le .rotThree _ _ 3 3 rfl rfl rfl (by omega),
            @simulate?_cons_of_le (.loadConst _) _ _ 0 1 rfl rfl rfl (Nat.zero_le _),
            @simulate?_cons_of_le (.call .plain 3) _ _ 4 1 rfl rfl rfl (by omega),
            @simulate?_cons_of_le (.unpackSequence 2) _ _ 1 2 rfl rfl rfl (by omega),
            simulate?_cons_of_le hunpack rfl rfl (by omega), simulate?]
          congr 1
          omega
      | _ => rfl
  | _ => rfl

end Neutrality

section Acceptance

variable {c : Code} {p : StackProfile} (hp : c.stackProfile = .ok p)
  {monitors : List (StockMonitor σ)}
include hp

/-- Nothing that is proposed at an instruction that is reached is dropped. -/
theorem mem_acceptedBy_of_reached {x : Insertion}
    (hx : x ∈ proposals (monitors.map StockMonitor.monitor) c) {d : Nat}
    (hd : p.depthAt? x.index = some d) : x ∈ acceptedBy p (monitors.map StockMonitor.monitor) c := by
  obtain ⟨op, hop, hpops, -⟩ :=
    (Code.sound_of_stackProfile hp).fits _ ((Code.stackProfile_depthAt? hp).mp hd)
  refine List.mem_filter.mpr ⟨hx, isNeutral_iff.mpr ⟨d, hd, ?_⟩⟩
  obtain ⟨k, hk, hx⟩ := List.mem_flatMap.mp hx
  obtain ⟨m, -, rfl⟩ := List.mem_map.mp hk
  obtain ⟨op', hop', hops, -, -⟩ := mem_propose hx
  obtain rfl := Option.some.inj (hop.symm.trans hop')
  rw [hops]
  exact simulate?_siteFor hpops

theorem sitesOnly_accepted (monitors : List (StockMonitor σ)) :
    SitesOnly c (acceptedBy p (monitors.map StockMonitor.monitor) c)
      fun ref op => ∃ m ∈ monitors, m.sideCall = ref ∧ m.Watches op := by
  have hsites := sitesOnly_spliced true monitors c
  simpa only [splicedInsertions, if_true, hp] using hsites

/-- Verified instrumentation for stock monitors succeeds. -/
theorem instrument_stock (monitors : List (StockMonitor σ)) :
    ∃ c', instrument true c (monitors.map StockMonitor.monitor) = .ok c' ∧
      c.splice (acceptedBy p (monitors.map StockMonitor.monitor) c) = .ok c' := by
  obtain ⟨c', hsplice, hok, -⟩ :=
    instrument_of_stackProfile hp (monitors.map StockMonitor.monitor)
  refine ⟨c', (hok ?_).1, hsplice⟩
  rw [(Code.labelsSet_splice hsplice).nodup_iff, List.flatMap_eq_nil_iff.mpr, List.append_nil]
  · cases htable : c.labelTable with
    | ok labels => exact Code.labelTable_ok_iff.mp ⟨labels, htable⟩
    | error e => simp [Code.stackProfile, htable] at hp
  · exact fun x hx => (sitesOnly_accepted hp monitors).sparesLabels.unset x hx

end Acceptance

/-- **In front of an instruction that is reached and watched, the site is spliced.** -/
theorem site_mem_spliced {verify : Bool} {monitors : List (StockMonitor σ)} {c c' : Code}
    (h : instrument verify c (monitors.map StockMonitor.monitor) = .ok c') {m : StockMonitor σ}
    (hm : m ∈ monitors) {scope : Scope} {f : Frame} (hreach : Frame.Reachable c scope f)
    {op : Instruction} (hop : c.instructions[f.pc]? = some op) (hw : m.Watches op) :
    ⟨f.pc, siteFor op m.sideCall⟩
      ∈ splicedInsertions verify (monitors.map StockMonitor.monitor) c := by
  have hproposed : ⟨f.pc, siteFor op m.sideCall⟩
      ∈ proposals (monitors.map StockMonitor.monitor) c :=
    List.mem_flatMap.mpr ⟨_, List.mem_map.mpr ⟨m, hm, rfl⟩, site_mem_propose hop hw⟩
  cases verify with
  | false => exact hproposed
  | true =>
      simp only [instrument, if_true] at h
      simp only [splicedInsertions, if_true]
      cases hp : c.stackProfile with
      | error e => simp [hp] at h
      | ok p =>
          have hdepth : p.depthAt? f.pc = some f.depth :=
            (Code.stackProfile_depthAt? hp).mpr (hreach.reaches (Code.sound_of_stackProfile hp))
          exact mem_acceptedBy_of_reached hp hproposed hdepth

end TrackedExpr
