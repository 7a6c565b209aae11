import TrackedExpr.Proofs.Listings

/-!
# What a listing is assembled to

The names of an assembled text are words and its constants are literals.  Its labels are
numbered so that different names get different numbers, unless two of them fix the same
number in different spellings (`L1` and `L01`): then, and only then, the code sets a label
twice and cannot be assembled from its own listing.

**Definitions.**
* `Instruction.Written`, `Listing.Item.Written`: what a text can list;
* `Listing.items`: the items of a text, before its labels are numbered;
* `Listing.Parsed`: how items are read off lexemes;
* `Listing.fixedNumbers`: the numbers that label names fix.

**Results.**
* `Listing.scan_word`, `Listing.Parsed.written`: words and literals;
* `Listing.assign_nodup_iff`: when different names get different numbers;
* `Listing.labelsSet_resolve`: the labels that assembled instructions set;
* `Code.ofListing_sound`: the labels of an assembled text.
-/

namespace TrackedExpr

/-- An instruction that a text can list as it is: it has no label, its constant is a literal and
its name is a word. -/
def Instruction.Written : Instruction → Prop
  | .setLabel _ | .jump _ _ => False
  | .loadConst v => v.Literal
  | .loadName n | .loadAttr n => Listing.isWord n.toList = true
  | _ => True

namespace Listing

section Words

theorem foldl_longer_mem {f : TokenKind → Nat} :
    ∀ {ks : List TokenKind} {best : TokenKind × Nat}, best.2 = 0 ∨ best.2 = f best.1 →
      ((ks.map fun k => (k, f k)).foldl longer best).2 = 0 ∨
        ((ks.map fun k => (k, f k)).foldl longer best).2
          = f ((ks.map fun k => (k, f k)).foldl longer best).1 := by
  intro ks
  induction ks with
  | nil => exact fun h => h
  | cons k ks ih =>
      intro best hbest
      rw [List.map_cons, List.foldl_cons]
      apply ih
      unfold longer
      split
      · exact Or.inr rfl
      · exact hbest

/-- A token is a match of its class. -/
theorem longest?_eq_some {cs : List Char} {kind : TokenKind} {length : Nat}
    (h : longest? cs = some (kind, length)) : length = matchLength cs kind ∧ 0 < length := by
  have hbest := @foldl_longer_mem (matchLength cs) TokenKind.all (.hex, 0) (Or.inl rfl)
  rw [longest?] at h
  generalize (TokenKind.all.map fun k => (k, matchLength cs k)).foldl longer (.hex, 0) = best at h hbest
  split at h
  · cases h
  · next hne =>
      obtain rfl := Option.some.inj h
      exact ⟨hbest.resolve_left hne, Nat.pos_of_ne_zero hne⟩

theorem isWord_take {c : Char} {rest : List Char} (h : 0 < wordLength (c :: rest)) :
    isWord (c :: rest.take (wordLength (c :: rest) - 1)) = true := by
  cases hc : startsWord c with
  | false =>
      rw [wordLength, hc] at h
      cases h
  | true =>
      have htake : rest.take (1 + (rest.takeWhile continuesWord).length - 1)
          = rest.takeWhile continuesWord := by
        rw [Nat.add_sub_cancel_left]
        exact (List.prefix_iff_eq_take.mp (List.takeWhile_prefix _)).symm
      rw [wordLength, if_pos hc, htake, isWord, hc, Bool.true_and, List.all_takeWhile]

/-- A word that is scanned is a name. -/
theorem scan_word (start : Nat) (cs : List Char) :
    ∀ t ∈ (scan start cs).1, t.kind = .word → isWord t.text = true := by
  induction start, cs using scan.induct with
  | case1 start => simp [scan]
  | case2 start c rest hblank ih =>
      rw [scan, if_pos hblank]
      exact ih
  | case3 start rest hblank ih =>
      rw [scan, if_neg hblank, if_pos rfl]
      exact ih
  | case4 start c rest hblank hcomment hnone =>
      rw [scan, if_neg hblank, if_neg hcomment, hnone]
      simp
  | case5 start c rest hblank hcomment kind length hsome text more fault hmore ih =>
      rw [scan, if_neg hblank, if_neg hcomment, hsome]
      rw [hmore] at ih
      intro t ht hword
      simp only [text] at hmore
      simp only [hmore] at ht
      rcases List.mem_cons.mp ht with rfl | ht
      · obtain rfl : kind = .word := hword
        obtain ⟨hlength, hpos⟩ := longest?_eq_some hsome
        rw [hlength] at hpos ⊢
        exact isWord_take hpos
      · exact ih t ht hword

end Words

section Items

/-- An item that a text can list. -/
def Item.Written : Item → Prop
  | .ready op => op.Written
  | _ => True

theorem constant?_literal {t : Lexeme} {v : Value} (h : constant? t = some v) : v.Literal := by
  unfold constant? at h
  cases hkind : t.kind with
  | int =>
      rw [hkind] at h
      obtain ⟨i, -, hi⟩ := Option.bind_eq_some_iff.mp h
      split at hi
      · obtain rfl := Option.some.inj hi
        trivial
      · cases hi
  | float =>
      rw [hkind] at h
      obtain ⟨x, -, rfl⟩ := Option.map_eq_some_iff.mp h
      trivial
  | str =>
      rw [hkind] at h
      obtain ⟨cs, -, rfl⟩ := Option.map_eq_some_iff.mp h
      trivial
  | negInf =>
      rw [hkind] at h
      obtain rfl := Option.some.inj h
      trivial
  | word =>
      rw [hkind] at h
      dsimp only at h
      repeat' split at h
      all_goals
        cases h
      all_goals
        trivial
  | hex =>
      rw [hkind] at h
      cases h
  | colon =>
      rw [hkind] at h
      cases h

theorem wordText_eq_ok {position : Nat} {t : Lexeme} {context name : String}
    (hword : t.kind = .word → isWord t.text = true) (h : wordText position t context = .ok name) :
    isWord name.toList = true := by
  unfold wordText at h
  split at h
  · next hkind =>
      obtain rfl := Except.ok.inj h
      rw [String.toList_ofList]
      exact hword hkind
  · cases h

theorem opcode?_bare {name : String} {op : Instruction} (h : opcode? name = some (.bare op)) :
    op.Written := by
  have hall : ∀ e ∈ opcodes, ∀ o, e.2 = .bare o → o.Written := by
    simp [opcodes, Instruction.Written]
  exact hall _ (Assoc.mem_of_get? h) op rfl

theorem readOperand_written {form : OpcodeForm} {position : Nat} {t : Lexeme} {item : Item}
    (hword : t.kind = .word → isWord t.text = true) (hbare : ∀ op, form = .bare op → False)
    (h : readOperand form position t = .ok item) : item.Written := by
  cases form with
  | bare op => exact (hbare op rfl).elim
  | constant =>
      rw [readOperand] at h
      split at h
      · next v hv =>
          obtain rfl := Except.ok.inj h
          exact constant?_literal hv
      · cases h
  | loadName =>
      obtain ⟨n, hn, rfl⟩ := map_eq_ok h
      exact wordText_eq_ok hword hn
  | loadAttr =>
      obtain ⟨n, hn, rfl⟩ := map_eq_ok h
      exact wordText_eq_ok hword hn
  | buildTuple =>
      obtain ⟨n, -, rfl⟩ := map_eq_ok h
      trivial
  | unpackSequence =>
      obtain ⟨n, -, rfl⟩ := map_eq_ok h
      trivial
  | comparison =>
      rw [readOperand] at h
      repeat' split at h
      all_goals
        cases h
      trivial
  | call callForm =>
      rw [readOperand] at h
      split at h
      · obtain rfl := Except.ok.inj h
        trivial
      · cases h
  | jump kind =>
      obtain ⟨n, -, rfl⟩ := map_eq_ok h
      trivial

theorem consItem_eq_ok {item : Except ListingError Item} {rest : Except ListingError (List Item)}
    {items : List Item} (h : consItem item rest = .ok items) :
    ∃ i more, item = .ok i ∧ rest = .ok more ∧ items = i :: more := by
  cases item with
  | error e => cases h
  | ok i =>
      cases rest with
      | error e => cases h
      | ok more => exact ⟨i, more, rfl, rfl, (Except.ok.inj h).symm⟩

/-- Lexemes in the order in which items are read off them: a label with its colon, an instruction
that takes no operand, or one with its operand. -/
inductive Parsed : Nat → List Lexeme → List Item → Prop
  | nil {position : Nat} : Parsed position [] []
  | define {position : Nat} {t u : Lexeme} {ts : List Lexeme} {items : List Item}
      (ht : t.kind = .word) (hu : u.kind = .colon) (hts : Parsed (position + 2) ts items) :
      Parsed position (t :: u :: ts) (.define (String.ofList t.text) :: items)
  | bare {position : Nat} {t : Lexeme} {ts : List Lexeme} {items : List Item} {op : Instruction}
      (ht : t.kind = .word) (hop : opcode? (String.ofList t.text) = some (.bare op))
      (hcolon : ∀ u ∈ ts.head?, u.kind ≠ .colon) (hts : Parsed (position + 1) ts items) :
      Parsed position (t :: ts) (.ready op :: items)
  | operand {position : Nat} {t u : Lexeme} {ts : List Lexeme} {items : List Item}
      {form : OpcodeForm} {item : Item} (ht : t.kind = .word) (hu : u.kind ≠ .colon)
      (hform : opcode? (String.ofList t.text) = some form) (hbare : ∀ op, form ≠ .bare op)
      (hitem : readOperand form (position + 1) u = .ok item)
      (hts : Parsed (position + 2) ts items) : Parsed position (t :: u :: ts) (item :: items)

theorem parsed_of_parse {position : Nat} {ts : List Lexeme} {items : List Item}
    (h : parse position ts = .ok items) : Parsed position ts items := by
  fun_induction parse position ts generalizing items
  case case1 =>
    cases h
    exact Parsed.nil
  case case2 | case3 | case5 | case7 => cases h
  case case4 hkind _ op hop =>
    cases h
    exact Parsed.bare (not_not.mp hkind) hop (by simp) Parsed.nil
  case case6 hkind _ u rest hcolon ih =>
    obtain ⟨i, more, hi, hmore, rfl⟩ := consItem_eq_ok h
    cases hi
    exact Parsed.define (not_not.mp hkind) hcolon (ih hmore)
  case case8 hkind _ u rest hcolon op hop ih =>
    obtain ⟨i, more, hi, hmore, rfl⟩ := consItem_eq_ok h
    cases hi
    exact Parsed.bare (not_not.mp hkind) hop (by simpa using hcolon) (ih hmore)
  case case9 hkind _ u rest hcolon form hbare hop ih =>
    obtain ⟨i, more, hi, hmore, rfl⟩ := consItem_eq_ok h
    exact Parsed.operand (not_not.mp hkind) hcolon hop hbare hi (ih hmore)

/-- What is parsed is written. -/
theorem Parsed.written {position : Nat} {ts : List Lexeme} {items : List Item}
    (h : Parsed position ts items) (hwords : ∀ t ∈ ts, t.kind = .word → isWord t.text = true) :
    ∀ item ∈ items, item.Written := by
  induction h with
  | nil => exact List.forall_mem_nil _
  | define _ _ _ ih =>
      have hrest := ih fun v hv => hwords v (List.mem_cons_of_mem _ (List.mem_cons_of_mem _ hv))
      exact List.forall_mem_cons.mpr ⟨trivial, hrest⟩
  | bare _ hop _ _ ih =>
      have hrest := ih fun v hv => hwords v (List.mem_cons_of_mem _ hv)
      exact List.forall_mem_cons.mpr ⟨opcode?_bare hop, hrest⟩
  | @operand _ t u _ _ _ _ _ _ _ hbare hitem _ ih =>
      have hu := hwords u (List.mem_cons_of_mem _ List.mem_cons_self)
      have hrest := ih fun v hv => hwords v (List.mem_cons_of_mem _ (List.mem_cons_of_mem _ hv))
      exact List.forall_mem_cons.mpr ⟨readOperand_written hu hbare hitem, hrest⟩

end Items

section Numbering

/-- The numbers that label names fix. -/
def fixedNumbers (names : List String) : List Nat :=
  names.filterMap fun n => labelNumber? n.toList

theorem labelNumber?_lt {cs : List Char} {n : Nat} (h : labelNumber? cs = some n) : n < UInt32.size := by
  unfold labelNumber? at h
  split at h
  · simpa using (Option.filter_eq_some_iff.mp h).2
  · cases h

theorem following?_eq_some {n k : Nat} (h : following? n = some k) : k = n + 1 ∧ k < UInt32.size := by
  unfold following? at h
  split at h
  · next hlt =>
      obtain rfl := Option.some.inj h
      exact ⟨rfl, hlt⟩
  · cases h

/-- Labels that fix no number come after all that do. -/
theorem firstFree?_eq_some {names : List String} {k : Nat} (h : firstFree? names = some k) :
    k < UInt32.size ∧ ∀ n ∈ fixedNumbers names, n < k := by
  rw [firstFree?, show names.filterMap (fun n => labelNumber? n.toList) = fixedNumbers names
    from rfl] at h
  split at h
  · next hmax =>
      obtain rfl := Option.some.inj h
      rw [List.max?_eq_none_iff.mp hmax]
      simp
  · next n hmax =>
      obtain ⟨rfl, hlt⟩ := following?_eq_some h
      refine ⟨hlt, fun m hm => Nat.lt_succ_of_le ?_⟩
      exact (List.max?_eq_some_iff.mp hmax).2 m hm

/-- The number of a label is the one that its name fixes, or one that is free. -/
def Numbered (next : Option Nat) (e : String × Label) : Prop :=
  labelNumber? e.1.toList = some e.2.number.toNat ∨
    labelNumber? e.1.toList = none ∧ ∃ k, next = some k ∧ k ≤ e.2.number.toNat

theorem Numbered.of_following {n : Nat} {e : String × Label} (h : Numbered (following? n) e) :
    Numbered (some n) e := by
  rcases h with h | ⟨h, k, hk, hle⟩
  · exact Or.inl h
  · obtain ⟨rfl, -⟩ := following?_eq_some hk
    exact Or.inr ⟨h, n, rfl, Nat.le_of_succ_le hle⟩

theorem toNat_ofNat {n : Nat} (h : n < UInt32.size) : (UInt32.ofNat n).toNat = n := by
  simpa using Nat.mod_eq_of_lt h

/-- A number that no name fixes and that comes before all that are free is not given. -/
theorem notMem_of_numbered {next : Option Nat} {labels : List (String × Label)} {n : Nat}
    {l : Label} (hnumbered : ∀ e ∈ labels, Numbered next e) (hl : l.number.toNat = n)
    (hfixed : n ∉ fixedNumbers (labels.map Prod.fst)) (hfree : ∀ k, next = some k → n < k) :
    l ∉ labels.map Prod.snd := by
  intro hlabel
  obtain ⟨e, he, rfl⟩ := List.mem_map.mp hlabel
  rcases hnumbered e he with hname | ⟨-, k, hk, hle⟩
  · rw [hl] at hname
    exact hfixed (List.mem_filterMap.mpr ⟨e.1, List.mem_map_of_mem he, hname⟩)
  · have hlt := hfree k hk
    omega

theorem assign_numbered {names : List String} : ∀ {next : Option Nat}
    {labels : List (String × Label)}, (∀ k, next = some k → k < UInt32.size) →
      assign next names = .ok labels →
        labels.map Prod.fst = names ∧ ∀ e ∈ labels, Numbered next e := by
  induction names with
  | nil =>
      intro next labels _ h
      obtain rfl := Except.ok.inj h
      simp
  | cons name rest ih =>
      intro next labels hnext h
      simp only [assign] at h
      split at h
      · next n hfixed =>
          obtain ⟨more, hmore, rfl⟩ := map_eq_ok h
          obtain ⟨hnames, hnumbered⟩ := ih hnext hmore
          refine ⟨by simp [hnames], ?_⟩
          rintro e (_ | ⟨_, he⟩)
          · exact Or.inl (by rw [toNat_ofNat (labelNumber?_lt hfixed), hfixed])
          · exact hnumbered e he
      · next hfree =>
          split at h
          · cases h
          · next n =>
              obtain ⟨more, hmore, rfl⟩ := map_eq_ok h
              obtain ⟨hnames, hnumbered⟩ := ih (fun k hk => (following?_eq_some hk).2) hmore
              refine ⟨by simp [hnames], ?_⟩
              rintro e (_ | ⟨_, he⟩)
              · exact Or.inr ⟨hfree, n, rfl, Nat.le_of_eq (toNat_ofNat (hnext n rfl)).symm⟩
              · exact (hnumbered e he).of_following

/-- Different names get different labels, if no two of them fix the same number. -/
theorem assign_nodup {names : List String} : ∀ {next : Option Nat}
    {labels : List (String × Label)},
      (∀ k, next = some k → k < UInt32.size ∧ ∀ n ∈ fixedNumbers names, n < k) →
        (fixedNumbers names).Nodup → assign next names = .ok labels →
          (labels.map Prod.snd).Nodup := by
  induction names with
  | nil =>
      intro next labels _ _ h
      obtain rfl := Except.ok.inj h
      simp
  | cons name rest ih =>
      intro next labels hnext hfixed h
      simp only [assign] at h
      split at h
      · next n hname =>
          have hcons : fixedNumbers (name :: rest) = n :: fixedNumbers rest := by
            simp [fixedNumbers, hname]
          rw [hcons] at hnext hfixed
          obtain ⟨hn, hrest⟩ := List.nodup_cons.mp hfixed
          obtain ⟨more, hmore, rfl⟩ := map_eq_ok h
          obtain ⟨hnames, hnumbered⟩ := assign_numbered (fun k hk => (hnext k hk).1) hmore
          rw [← hnames] at hn
          rw [List.map_cons, List.nodup_cons]
          constructor
          · exact notMem_of_numbered hnumbered (toNat_ofNat (labelNumber?_lt hname)) hn
              fun k hk => (hnext k hk).2 n List.mem_cons_self
          · exact ih (fun k hk => ⟨(hnext k hk).1, fun m hm =>
              (hnext k hk).2 m (List.mem_cons_of_mem _ hm)⟩) hrest hmore
      · next hname =>
          have hcons : fixedNumbers (name :: rest) = fixedNumbers rest := by
            simp [fixedNumbers, hname]
          rw [hcons] at hnext hfixed
          split at h
          · cases h
          · next n =>
              obtain ⟨hlt, hbelow⟩ := hnext n rfl
              have hn : n ∉ fixedNumbers rest := fun hmem => Nat.lt_irrefl n (hbelow n hmem)
              obtain ⟨more, hmore, rfl⟩ := map_eq_ok h
              obtain ⟨hnames, hnumbered⟩ :=
                assign_numbered (fun k hk => (following?_eq_some hk).2) hmore
              rw [← hnames] at hn
              rw [List.map_cons, List.nodup_cons]
              constructor
              · refine notMem_of_numbered hnumbered (toNat_ofNat hlt) hn fun k hk => ?_
                obtain ⟨rfl, -⟩ := following?_eq_some hk
                exact Nat.lt_succ_self n
              · refine ih (fun k hk => ?_) hfixed hmore
                obtain ⟨rfl, hk⟩ := following?_eq_some hk
                exact ⟨hk, fun m hm => Nat.lt_succ_of_lt (hbelow m hm)⟩

/-- The fixed numbers are those of some of the labels. -/
theorem fixedNumbers_sublist {next : Option Nat} {labels : List (String × Label)}
    (h : ∀ e ∈ labels, Numbered next e) :
    (fixedNumbers (labels.map Prod.fst)).Sublist (labels.map fun e => e.2.number.toNat) := by
  induction labels with
  | nil => exact List.Sublist.refl _
  | cons e labels ih =>
      have hrest := ih fun d hd => h d (List.mem_cons_of_mem _ hd)
      rcases h e List.mem_cons_self with hfixed | ⟨hfree, -⟩
      · simpa [fixedNumbers, hfixed] using hrest
      · have hcons : fixedNumbers ((e :: labels).map Prod.fst)
            = fixedNumbers (labels.map Prod.fst) := by
          simp [fixedNumbers, hfree]
        rw [hcons]
        exact hrest.cons _

theorem number_injective : Function.Injective fun l : Label => l.number.toNat := by
  intro l k h
  cases l
  cases k
  exact congrArg Label.mk (UInt32.toNat_inj.mp h)

/-- **The labels of different names are different exactly if no two names fix the same
number.** -/
theorem numberLabels_eq_ok {items : List Item} {labels : List (String × Label)}
    (h : numberLabels items = .ok labels) :
    (definedNames items).Nodup ∧ labels.map Prod.fst = definedNames items ∧
      ((fixedNumbers (definedNames items)).Nodup ↔ (labels.map Prod.snd).Nodup) := by
  rw [numberLabels] at h
  cases hrepeated : firstRepeated? [] (definedNames items) with
  | some name => simp [hrepeated] at h
  | none =>
      simp only [hrepeated] at h
      have hnext := fun k => @firstFree?_eq_some (definedNames items) k
      obtain ⟨hnames, hnumbered⟩ := assign_numbered (fun k hk => (hnext k hk).1) h
      refine ⟨(firstRepeated?_eq_none.mp hrepeated).1, hnames,
        fun hfixed => assign_nodup hnext hfixed h, fun hnodup => ?_⟩
      have hnumbers := hnodup.map number_injective
      rw [List.map_map] at hnumbers
      rw [← hnames]
      exact (fixedNumbers_sublist hnumbered).nodup hnumbers

end Numbering

section Resolution

theorem forall₂_of_mapM {α β ε : Type} {f : α → Except ε β} {xs : List α} :
    ∀ {ys : List β}, xs.mapM f = .ok ys → List.Forall₂ (fun x y => f x = .ok y) xs ys := by
  induction xs with
  | nil =>
      intro ys h
      obtain rfl := Except.ok.inj h
      exact List.Forall₂.nil
  | cons x xs ih =>
      intro ys h
      rw [List.mapM_cons] at h
      cases hx : f x with
      | error e =>
          rw [hx] at h
          cases h
      | ok y =>
          rw [hx] at h
          cases hxs : xs.mapM f with
          | error e =>
              rw [hxs] at h
              cases h
          | ok rest =>
              rw [hxs] at h
              obtain rfl := Except.ok.inj h
              exact List.Forall₂.cons hx (ih hxs)

theorem labelOf_eq_ok {labels : List (String × Label)} {name : String} {l : Label}
    (h : labelOf labels name = .ok l) : Assoc.get? name labels = some l := by
  unfold labelOf at h
  split at h
  · next heq => rw [heq, Except.ok.inj h]
  · cases h

/-- Looking up every key gives the entries back. -/
theorem filterMap_get? {labels : List (String × Label)} (h : (labels.map Prod.fst).Nodup) :
    (labels.map Prod.fst).filterMap (fun n => Assoc.get? n labels) = labels.map Prod.snd := by
  induction labels with
  | nil => rfl
  | cons e labels ih =>
      obtain ⟨hkey, hrest⟩ := List.nodup_cons.mp h
      have htail : (labels.map Prod.fst).filterMap (fun n => Assoc.get? n (e :: labels))
          = (labels.map Prod.fst).filterMap fun n => Assoc.get? n labels := by
        apply List.filterMap_congr
        intro n hn
        have hne : e.1 ≠ n := fun heq => hkey (heq ▸ hn)
        simp [Assoc.get?, hne]
      rw [List.map_cons, List.map_cons, List.filterMap_cons, htail, ih hrest]
      simp [Assoc.get?]

/-- Label lines set the labels of their names, other lines none. -/
theorem labelsSet_resolve {labels : List (String × Label)} {items : List Item}
    {ops : List Instruction}
    (hops : List.Forall₂ (fun item op => resolve labels item = .ok op) items ops) :
    (∀ item ∈ items, item.Written) →
      labelsSet ops = (definedNames items).filterMap fun n => Assoc.get? n labels := by
  induction hops with
  | nil =>
      intro _
      rfl
  | @cons item op items ops hop _ ih =>
      intro hwritten
      have hrest := ih fun i hi => hwritten i (List.mem_cons_of_mem _ hi)
      cases item with
      | ready o =>
          obtain rfl := Except.ok.inj hop
          have hlabel : o.label? = none := by
            have ho : o.Written := hwritten _ List.mem_cons_self
            cases o with
            | setLabel l => exact ho.elim
            | _ => rfl
          rw [labelsSet_cons_of_none hlabel]
          exact hrest
      | define name =>
          obtain ⟨l, hl, rfl⟩ := map_eq_ok hop
          change l :: labelsSet ops = (name :: definedNames items).filterMap _
          rw [List.filterMap_cons, labelOf_eq_ok hl, hrest]
      | jump kind name =>
          obtain ⟨l, -, rfl⟩ := map_eq_ok hop
          exact hrest

end Resolution

section Assemblies

/-- How the instructions of a text come about: its tokens, their items and the labels of the
names in these. -/
structure Assembly (text : List Char) (ops : List Instruction) where
  lexemes : List Lexeme
  items : List Item
  labels : List (String × Label)
  scanned : tokens text = .ok lexemes
  parsed : parse 0 lexemes = .ok items
  numbered : numberLabels items = .ok labels
  resolved : items.mapM (resolve labels) = .ok ops

theorem exists_assembly {text : List Char} {ops : List Instruction}
    (h : assemble text = .ok ops) : Nonempty (Assembly text ops) := by
  obtain ⟨lexemes, scanned, h⟩ := bind_eq_ok h
  obtain ⟨items, parsed, h⟩ := bind_eq_ok h
  obtain ⟨labels, numbered, resolved⟩ := bind_eq_ok h
  exact ⟨⟨lexemes, items, labels, scanned, parsed, numbered, resolved⟩⟩

theorem getElem?_forall₂ {α β : Type} {R : α → β → Prop} {xs : List α} {ys : List β}
    (h : List.Forall₂ R xs ys) : ∀ i : Nat, Option.Rel R xs[i]? ys[i]? := by
  induction h with
  | nil =>
      intro i
      exact Option.Rel.none
  | cons hxy _ ih =>
      intro i
      cases i with
      | zero => exact Option.Rel.some hxy
      | succ i => exact ih i

namespace Assembly

variable {text : List Char} {ops : List Instruction} (a : Assembly text ops)

/-- The names of the label lines, in order. -/
def names : List String := definedNames a.items

/-- No two label names fix the same number. -/
def Apart : Prop := (fixedNumbers a.names).Nodup

theorem written : ∀ item ∈ a.items, item.Written := by
  have hscan : (scan 0 text).1 = a.lexemes := by
    have htokens := a.scanned
    unfold tokens at htokens
    split at htokens
    · next ts heq =>
        rw [heq]
        exact Except.ok.inj htokens
    · cases htokens
  have hwords := scan_word 0 text
  rw [hscan] at hwords
  exact (parsed_of_parse a.parsed).written hwords

/-- Every item becomes an instruction. -/
theorem exists_op {i : Nat} {item : Item} (h : a.items[i]? = some item) :
    ∃ op, ops[i]? = some op ∧ resolve a.labels item = .ok op := by
  have hrel := getElem?_forall₂ (forall₂_of_mapM a.resolved) i
  rw [h] at hrel
  cases hop : ops[i]? with
  | none =>
      rw [hop] at hrel
      cases hrel
  | some op =>
      rw [hop] at hrel
      obtain ⟨hresolve⟩ := hrel
      exact ⟨op, rfl, hresolve⟩

/-- Every instruction was an item. -/
theorem exists_item {i : Nat} {op : Instruction} (h : ops[i]? = some op) :
    ∃ item, a.items[i]? = some item ∧ resolve a.labels item = .ok op := by
  have hrel := getElem?_forall₂ (forall₂_of_mapM a.resolved) i
  rw [h] at hrel
  cases hitem : a.items[i]? with
  | none =>
      rw [hitem] at hrel
      cases hrel
  | some item =>
      rw [hitem] at hrel
      obtain ⟨hresolve⟩ := hrel
      exact ⟨item, rfl, hresolve⟩

/-- An instruction was listed as it is, or it has the label of a name. -/
theorem op_cases {i : Nat} {op : Instruction} (h : ops[i]? = some op) :
    op.Written ∨
      (∃ name l, a.items[i]? = some (.define name) ∧ Assoc.get? name a.labels = some l ∧
        op = .setLabel l) ∨
      (∃ kind name l, a.items[i]? = some (.jump kind name) ∧ Assoc.get? name a.labels = some l ∧
        op = .jump kind l) := by
  obtain ⟨item, hitem, hresolve⟩ := a.exists_item h
  cases item with
  | ready o =>
      obtain rfl := Except.ok.inj hresolve
      exact Or.inl (a.written _ (List.mem_of_getElem? hitem))
  | define name =>
      obtain ⟨l, hl, rfl⟩ := map_eq_ok hresolve
      exact Or.inr (Or.inl ⟨name, l, hitem, labelOf_eq_ok hl, rfl⟩)
  | jump kind name =>
      obtain ⟨l, hl, rfl⟩ := map_eq_ok hresolve
      exact Or.inr (Or.inr ⟨kind, name, l, hitem, labelOf_eq_ok hl, rfl⟩)

theorem names_nodup : a.names.Nodup := (numberLabels_eq_ok a.numbered).1

theorem labels_fst : a.labels.map Prod.fst = a.names := (numberLabels_eq_ok a.numbered).2.1

theorem labelsSet_eq : labelsSet ops = a.labels.map Prod.snd := by
  have hkeys : (a.labels.map Prod.fst).Nodup := by
    rw [a.labels_fst]
    exact a.names_nodup
  have hset := labelsSet_resolve (forall₂_of_mapM a.resolved) a.written
  change labelsSet ops = a.names.filterMap _ at hset
  rw [hset, ← a.labels_fst, filterMap_get? hkeys]

theorem apart_iff : a.Apart ↔ (labelsSet ops).Nodup := by
  rw [a.labelsSet_eq]
  exact (numberLabels_eq_ok a.numbered).2.2

/-- A jump has the label of its name. -/
theorem jump_label {i : Nat} {kind : JumpKind} {name : String}
    (h : a.items[i]? = some (.jump kind name)) :
    ∃ l, Assoc.get? name a.labels = some l ∧ ops[i]? = some (.jump kind l) := by
  obtain ⟨op, hop, hresolve⟩ := a.exists_op h
  obtain ⟨l, hl, rfl⟩ := map_eq_ok hresolve
  exact ⟨l, labelOf_eq_ok hl, hop⟩

/-- A label line sets the label of its name. -/
theorem define_label {j : Nat} {name : String} {l : Label}
    (h : a.items[j]? = some (.define name)) (hl : Assoc.get? name a.labels = some l) :
    ops[j]? = some (.setLabel l) := by
  obtain ⟨op, hop, hresolve⟩ := a.exists_op h
  obtain ⟨k, hk, rfl⟩ := map_eq_ok hresolve
  rw [labelOf_eq_ok hk, Option.some.injEq] at hl
  rw [hop, hl]

/-- A jump goes to the label line of its name. -/
theorem jump_target {i : Nat} {kind : JumpKind} {name : String}
    (h : a.items[i]? = some (.jump kind name)) :
    ∃ (j : Nat) (l : Label), a.items[j]? = some (.define name) ∧
      ops[i]? = some (.jump kind l) ∧ ops[j]? = some (.setLabel l) := by
  obtain ⟨l, hl, hop⟩ := a.jump_label h
  have hname : name ∈ a.names := by
    rw [← a.labels_fst]
    exact List.mem_map_of_mem (Assoc.mem_of_get? hl)
  obtain ⟨item, hitem, hdefine⟩ := List.mem_filterMap.mp hname
  obtain ⟨j, hj⟩ := List.mem_iff_getElem?.mp hitem
  cases item with
  | define n =>
      obtain rfl := Option.some.inj hdefine
      exact ⟨j, l, hj, hop, a.define_label hj hl⟩
  | ready op => cases hdefine
  | jump kind n => cases hdefine

/-- The label of a jump is set by no line of another name. -/
theorem target_unique (hapart : a.Apart) {i j : Nat} {kind : JumpKind} {name : String} {l : Label}
    (h : a.items[i]? = some (.jump kind name)) (hi : ops[i]? = some (.jump kind l))
    (hj : ops[j]? = some (.setLabel l)) : a.items[j]? = some (.define name) := by
  obtain ⟨k, hk, hop⟩ := a.jump_label h
  rw [hi] at hop
  cases hop
  have hlabels : (a.labels.map Prod.snd).Nodup := by
    rw [← a.labelsSet_eq]
    exact a.apart_iff.mp hapart
  rcases a.op_cases hj with hwritten | ⟨other, m, hitem, hm, heq⟩ | ⟨_, _, _, _, _, heq⟩
  · exact hwritten.elim
  · cases heq
    have hentry := List.inj_on_of_nodup_map hlabels (Assoc.mem_of_get? hm) (Assoc.mem_of_get? hk) rfl
    cases hentry
    exact hitem
  · cases heq

include a

theorem target_mem {op : Instruction} (hop : op ∈ ops) {l : Label} (hl : op.target? = some l) :
    l ∈ labelsSet ops := by
  obtain ⟨i, hi⟩ := List.mem_iff_getElem?.mp hop
  rcases a.op_cases hi with hwritten | ⟨_, _, _, _, rfl⟩ | ⟨kind, name, k, _, hk, rfl⟩
  · cases op with
    | jump kind k => exact hwritten.elim
    | _ => cases hl
  · cases hl
  · cases hl
    rw [a.labelsSet_eq]
    exact List.mem_map_of_mem (Assoc.mem_of_get? hk)

/-- What is assembled can be listed. -/
theorem legible (hfloats : ∀ x, .loadConst (.float x) ∈ ops → x.isNaN = false →
    FloatText.ofChars? (floatChars x) = some x) : ∀ op ∈ ops, op.Legible := by
  intro op hop
  obtain ⟨i, hi⟩ := List.mem_iff_getElem?.mp hop
  rcases a.op_cases hi with hwritten | ⟨_, _, _, _, rfl⟩ | ⟨_, _, _, _, _, rfl⟩
  · cases op with
    | loadConst v =>
        apply hwritten.legible
        rintro x rfl
        exact hfloats x hop
    | loadName n => exact hwritten
    | loadAttr n => exact hwritten
    | _ => trivial
  · trivial
  · trivial

end Assembly

end Assemblies

end Listing

section Soundness

open Listing

variable {text : String} {c : Code}

theorem Code.instructions_of_ofListing (h : Code.ofListing text = .ok c) :
    assemble text.toList = .ok c.instructions ∧ c.name = Code.defaultName := by
  obtain ⟨ops, hops, rfl⟩ := map_eq_ok h
  exact ⟨hops, rfl⟩

/-- Code that is assembled from its own listing sets no label twice. -/
theorem Code.labelsSet_nodup_of_ofListing (hlegible : ∀ op ∈ c.instructions, op.Legible)
    (h : Code.ofListing c.listing = .ok c) : (labelsSet c.instructions).Nodup := by
  obtain ⟨hassemble, -⟩ := Code.instructions_of_ofListing h
  obtain ⟨a⟩ := exists_assembly hassemble
  obtain ⟨ts, hscan, -, hparse⟩ := read_lines (fun op hop => reads_line (hlegible op hop)) 0
  have hlexemes : a.lexemes = ts := by
    have hscanned : tokens c.chars = .ok a.lexemes := by
      rw [← a.scanned, Code.listing, String.toList_ofList]
    rw [tokens, Code.chars, hscan] at hscanned
    exact (Except.ok.inj hscanned).symm
  have hitems : a.items = c.instructions.map Instruction.item := by
    have hparsed := a.parsed
    rw [hlexemes, hparse] at hparsed
    exact (Except.ok.inj hparsed).symm
  have hnodup := a.names_nodup
  rw [Assembly.names, hitems, definedNames_item] at hnodup
  exact hnodup.of_map _

/-- **The labels of an assembled text.**  Every label line has a name of its own and every jump
goes to the label line of its name.  Different names get different numbers, so that the labels
of the code can be tabulated, a jump goes to no other label line, and the code is assembled from
its own listing, exactly if no two names fix the same number. -/
theorem Code.ofListing_sound (h : Code.ofListing text = .ok c)
    (hfloats : ∀ x, .float x ∈ c.constants → x.isNaN = false →
      FloatText.ofChars? (floatChars x) = some x) :
    ∃ a : Assembly text.toList c.instructions,
      a.names.Nodup ∧ a.labels.map Prod.fst = a.names ∧
      (∀ (i : Nat) (kind : JumpKind) (name : String), a.items[i]? = some (.jump kind name) →
        ∃ (j : Nat) (l : Label), a.items[j]? = some (.define name) ∧
          c.instructions[i]? = some (.jump kind l) ∧ c.instructions[j]? = some (.setLabel l)) ∧
      (a.Apart → ∀ (i j : Nat) (kind : JumpKind) (name : String) (l : Label),
        a.items[i]? = some (.jump kind name) → c.instructions[i]? = some (.jump kind l) →
          c.instructions[j]? = some (.setLabel l) → a.items[j]? = some (.define name)) ∧
      (a.Apart ↔ (a.labels.map Prod.snd).Nodup) ∧
      (a.Apart ↔ ∃ table, c.labelTable = .ok table) ∧
      (a.Apart ↔ Code.ofListing c.listing = .ok c) := by
  obtain ⟨hassemble, hname⟩ := Code.instructions_of_ofListing h
  obtain ⟨a⟩ := exists_assembly hassemble
  have hlegible : ∀ op ∈ c.instructions, op.Legible :=
    a.legible fun x hx => hfloats x (List.mem_filterMap.mpr ⟨_, hx, rfl⟩)
  refine ⟨a, a.names_nodup, a.labels_fst, fun i kind name hi => a.jump_target hi,
    fun hapart i j kind name l hi hop hj => a.target_unique hapart hi hop hj, ?_, ?_, ?_⟩
  · rw [← a.labelsSet_eq]
    exact a.apart_iff
  · rw [Code.labelTable_ok_iff]
    exact a.apart_iff
  · rw [a.apart_iff]
    exact ⟨fun hlabels => Code.ofListing_of_legible hname hlabels (fun op hop l => a.target_mem hop)
      hlegible, Code.labelsSet_nodup_of_ofListing hlegible⟩

/-- A text with a numbered and a named label. -/
theorem ofListing_sound_named :
    Code.ofListing "L4:\nJUMP_FORWARD end\nend:\nRETURN_VALUE"
        = .ok ⟨"<expr>", [.setLabel ⟨4⟩, .jump .always ⟨5⟩, .setLabel ⟨5⟩, .returnValue]⟩ ∧
      Code.ofListing (Code.listing ⟨"<expr>", [.setLabel ⟨4⟩, .jump .always ⟨5⟩, .setLabel ⟨5⟩,
          .returnValue]⟩)
        = .ok ⟨"<expr>", [.setLabel ⟨4⟩, .jump .always ⟨5⟩, .setLabel ⟨5⟩, .returnValue]⟩ := by
  have h : Code.ofListing "L4:\nJUMP_FORWARD end\nend:\nRETURN_VALUE"
      = .ok ⟨"<expr>", [.setLabel ⟨4⟩, .jump .always ⟨5⟩, .setLabel ⟨5⟩, .returnValue]⟩ := by
    cbv
  obtain ⟨a, -, -, -, -, -, htable, hlisting⟩ := Code.ofListing_sound h (by simp [Code.constants])
  exact ⟨h, hlisting.mp (htable.mpr ⟨_, rfl⟩)⟩

/-- Two spellings of one number: the text is assembled, but its code sets a label twice and
its listing is refused. -/
theorem label_spellings_collide :
    Code.ofListing "L1:\nL01:\nRETURN_VALUE"
        = .ok ⟨"<expr>", [.setLabel ⟨1⟩, .setLabel ⟨1⟩, .returnValue]⟩ ∧
      Code.labelTable ⟨"<expr>", [.setLabel ⟨1⟩, .setLabel ⟨1⟩, .returnValue]⟩
        = .error (.duplicateLabel ⟨1⟩) ∧
      Code.ofListing (Code.listing ⟨"<expr>", [.setLabel ⟨1⟩, .setLabel ⟨1⟩, .returnValue]⟩)
        = .error (.duplicateLabel "L1") := by
  refine ⟨by cbv, rfl, ?_⟩
  cbv

end Soundness

end TrackedExpr
