import TrackedExpr.Proofs.Scanning

/-!
# Lines as statements of an embedded listing

The lines of a listing, each opcode closed by a semicolon, are the statements of an embedded
listing, for names that are no words of the host language and for constants other than
numbers with a fraction.

**Definitions.**
* `Listing.Shared`, `Value.Portable`, `Instruction.Portable`, `Listing.Item.Portable`: what both
  forms of a listing can write;
* `Listing.Item.line`, `Embedded.closed`: an item in either form;
* `Embedded.Yields`, `Embedded.States`: the tokens and the statement that a text is.

**Results.**
* `Listing.reads_item`, `Embedded.states_item`: a line is its item in either form;
* `Embedded.parse_lines`: the statements of a text.
-/

namespace TrackedExpr

section Forms

open Listing

/-- A name that both forms of a listing can write. -/
def Listing.Shared (name : String) : Prop :=
  isWord name.toList = true ∧ name ∉ Embedded.keywords

/-- A constant that both forms write alike: the least integer has no literal in the host
language, where its minus sign is not part of the number. -/
def Value.Portable : Value → Prop
  | .none | .bool _ | .str _ => True
  | .int i => -2 ^ 63 < i.toInt
  | _ => False

/-- An instruction without a label that both forms write alike. -/
def Instruction.Portable : Instruction → Prop
  | .setLabel _ | .jump _ _ => False
  | .loadConst v => v.Portable
  | .loadName n | .loadAttr n => Shared n
  | _ => True

/-- An item that both forms write alike.  No label fixes its own number. -/
def Listing.Item.Portable : Item → Prop
  | .ready op => op.Portable
  | .define name => Shared name ∧ labelNumber? name.toList = none
  | .jump _ name => Shared name

/-- The line of an item. -/
def Listing.Item.line : Item → List Char
  | .ready op => op.line
  | .define name => name.toList ++ [':']
  | .jump kind name => kind.opname.toList ++ ' ' :: name.toList

/-- The line of an item in an embedded listing, where a semicolon closes every opcode. -/
def Embedded.closed : Listing.Item → List Char
  | .define name => (Listing.Item.define name).line
  | item => item.line ++ [';']

theorem Instruction.Portable.legible {op : Instruction} (h : op.Portable) : op.Legible := by
  cases op with
  | loadConst v =>
      cases v with
      | none => exact Value.legible_none
      | bool b => exact Value.legible_bool b
      | int i => exact Value.legible_int i
      | str s => exact Value.legible_str s
      | _ => exact False.elim h
  | loadName n => exact h.1
  | loadAttr n => exact h.1
  | _ => trivial

/-- A line of a listing is read as its item. -/
theorem Listing.reads_item {item : Item} (h : item.Portable) :
    ∃ words, Reads item.line item words := by
  cases item with
  | ready op =>
      have hitem : op.item = .ready op := by
        cases op with
        | setLabel l => exact False.elim h
        | jump kind l => exact False.elim h
        | _ => rfl
      obtain ⟨words, hreads⟩ := reads_line (Instruction.Portable.legible h)
      rw [hitem] at hreads
      exact ⟨words, hreads⟩
  | define name =>
      have hreads := reads_define h.1.1
      rw [String.ofList_toList] at hreads
      exact ⟨_, hreads⟩
  | jump kind name =>
      have hreads := reads_jump kind h.1
      rw [String.ofList_toList] at hreads
      exact ⟨_, hreads⟩

end Forms

namespace Embedded

open Listing (Shared isWord isWord_opname isWord_jump)

section Tokens

/-- A text is scanned as these tokens, whatever stands behind it that meets a condition. -/
def Yields (text : List Char) (ts : Tokens) (stop : List Char → Prop) : Prop :=
  ∀ rest, stop rest → scan? (text ++ rest) = (scan? rest).map (ts.map Piece.leaf ++ ·)

variable {a b : List Char} {t : TokenTree} {ts us : Tokens} {stop halt : List Char → Prop}

theorem Scans.yields (h : Scans a t stop) : Yields a [t] stop :=
  fun _ hrest => scan?_scans h hrest

theorem Yields.append (ha : Yields a ts halt) (hb : Yields b us stop)
    (hhalt : ∀ rest, stop rest → halt (b ++ rest)) : Yields (a ++ b) (ts ++ us) stop := by
  intro rest hrest
  rw [List.append_assoc, ha _ (hhalt rest hrest), hb rest hrest, Option.map_map]
  congr 1
  funext ps
  simp

theorem Yields.blank (h : Yields a ts stop) : Yields (' ' :: a) ts stop := by
  intro rest hrest
  rw [List.cons_append, scan?_blank (Or.inl rfl), h rest hrest]

theorem nest?_leaf (ts done : Tokens) :
    nest? (ts.map Piece.leaf) [] done = some (done.reverse ++ ts) := by
  induction ts generalizing done with
  | nil => simp [nest?]
  | cons t ts ih => simp [nest?, ih]

end Tokens

section Operands

/-- The tokens of an operand: they do not begin with the colon of a label line. -/
structure IsOperand (text : List Char) (ts : Tokens) : Prop where
  yields : Yields text ts Parted
  begins : ∀ joint, ts.head? ≠ some (.punct ':' joint)

theorem Scans.isOperand {text : List Char} {t : TokenTree} (h : Scans text t Parted)
    (ht : ∀ joint, t ≠ .punct ':' joint) : IsOperand text [t] where
  yields := h.yields
  begins := fun joint => by simpa using ht joint

theorem isOperand_word {w : List Char} (h : isWord w = true) : IsOperand w [.word w] :=
  (scans_word h).isOperand (by simp)

theorem isOperand_number (n : Nat) :
    IsOperand (natChars n) [.literal (natChars n) (.numeral (.int n))] :=
  (scans_number n).isOperand (by simp)

theorem identifier_word {name : String} (h : name ∉ keywords) (ts : Tokens) :
    identifier (.word name.toList :: ts) = .ok (name, ts) := by
  rw [identifier]
  simp [h]

/-- A number that fits. -/
theorem constant_number {n : Nat} (h : (n : Int) ≤ Int64.maxValue.toInt) (cs : List Char)
    (more : Tokens) : constant (.literal cs (.numeral (.int n)) :: more)
      = .ok (.op (.loadConst (.int (Int64.ofInt n))), more) := by
  simp [constant, plainConstant, signedNumber, fraction?, number?, inRange, h, Except.map]

theorem constant_negated {n : Nat} (h : (n : Int) ≤ Int64.maxValue.toInt) (joint : Bool)
    (cs : List Char) (more : Tokens) :
    constant (.punct '-' joint :: .literal cs (.numeral (.int n)) :: more)
      = .ok (.op (.loadConst (.int (-Int64.ofInt n))), more) := by
  simp [constant, plainConstant, signedNumber, fraction?, number?, inRange, h, Except.map]

theorem isOperand_int (i : Int64) :
    IsOperand (Value.int i).chars ((if i.toInt < 0 then [.punct '-' false] else [])
      ++ [.literal (natChars i.toInt.natAbs) (.numeral (.int i.toInt.natAbs))]) := by
  have hnumber := scans_number i.toInt.natAbs
  rw [Value.chars_int, intChars]
  split
  · exact ⟨(scans_punct (Or.inr (Or.inr rfl))).yields.append hnumber.yields
      fun rest _ => unjoined_natChars _ rest, by simp⟩
  · exact isOperand_number _

/-- An integer with its sign. -/
theorem constant_int {i : Int64} (h : -2 ^ 63 < i.toInt) :
    ∃ ts, IsOperand (Value.int i).chars ts ∧
      ∀ more, constant (ts ++ more) = .ok (.op (.loadConst (.int i)), more) := by
  have hfits : (i.toInt.natAbs : Int) ≤ Int64.maxValue.toInt := by
    have hhigh := i.toInt_le
    have hmax : Int64.maxValue.toInt = 9223372036854775807 := rfl
    omega
  refine ⟨_, isOperand_int i, fun more => ?_⟩
  split
  · next hneg =>
      have hvalue : -Int64.ofInt i.toInt.natAbs = i := by
        rw [← Int64.ofInt_neg, ← Int.eq_neg_natAbs_of_nonpos (Int.le_of_lt hneg), Int64.ofInt_toInt]
      exact (constant_negated hfits _ _ more).trans (by rw [hvalue])
  · next hnonneg =>
      have hvalue : Int64.ofInt i.toInt.natAbs = i := by
        rw [Int.natAbs_of_nonneg (Int.not_lt.mp hnonneg), Int64.ofInt_toInt]
      exact (constant_number hfits _ more).trans (by rw [hvalue])

/-- A constant is read as it is written. -/
theorem constant_chars {v : Value} (h : v.Portable) :
    ∃ ts, IsOperand v.chars ts ∧
      ∀ more, constant (ts ++ more) = .ok (.op (.loadConst v), more) := by
  cases v with
  | none => exact ⟨_, isOperand_word (by decide), fun _ => rfl⟩
  | bool b =>
      cases b
      · exact ⟨_, isOperand_word (by decide), fun _ => rfl⟩
      · exact ⟨_, isOperand_word (by decide), fun _ => rfl⟩
  | int i => exact constant_int h
  | str s =>
      refine ⟨_, (scans_quote s.toList).isOperand (by simp), fun more => ?_⟩
      simp [constant]
  | _ => exact False.elim h

end Operands

section Operations

/-- A text is a statement, whatever stands behind it on another line. -/
structure States (text : List Char) (s : Statement) : Prop where
  begins : ∃ c cs, text = c :: cs ∧ c.toNat < 128
  reads : ∃ t ts, Yields text (t :: ts) Unjoined ∧
    ∀ more, statement (t :: ts ++ more) = .ok (s, more)

theorem isWord_begins {w rest : List Char} (h : isWord w = true) :
    ∃ c cs, w ++ rest = c :: cs ∧ c.toNat < 128 := by
  obtain ⟨c, cs, hw, -, hlt, -⟩ := (scans_word h).begins
  exact ⟨c, cs ++ rest, by rw [hw, List.cons_append], hlt⟩

theorem yields_semicolon {text : List Char} {ts : Tokens} (h : Yields text ts Parted) :
    Yields (text ++ [';']) (ts ++ [.punct ';' false]) Unjoined :=
  h.append (scans_punct (Or.inr (Or.inl rfl))).yields fun _ _ => Or.inr (Or.inr (Or.inr rfl))

/-- A label line. -/
theorem states_label {name : String} (h : Shared name) :
    States (name.toList ++ [':']) (.label name) where
  begins := isWord_begins h.1
  reads := by
    refine ⟨_, _, (scans_word h.1).yields.append (scans_punct (Or.inl rfl)).yields
      fun _ _ => Or.inr (Or.inr (Or.inl rfl)), fun more => ?_⟩
    rw [List.cons_append, statement, identifier_word h.2]
    rfl

theorem statement_operation {name : String} {ts more : Tokens} {s : Statement}
    (hname : name ∉ keywords) (hbegins : ∀ joint, ts.head? ≠ some (.punct ':' joint))
    (hread : ∀ more, operation name (ts ++ more) = .ok (s, more)) :
    statement (.word name.toList :: (ts ++ .punct ';' false :: more)) = .ok (s, more) := by
  rw [statement, identifier_word hname]
  dsimp only
  split
  · next joint rest heq =>
      cases ts with
      | nil => cases heq
      | cons t ts =>
          obtain ⟨rfl, -⟩ := List.cons.inj heq
          exact absurd rfl (hbegins joint)
  · rw [hread]
    rfl

/-- An opcode without an operand. -/
theorem states_bare {name : String} {s : Statement} (hword : isWord name.toList = true)
    (hname : name ∉ keywords) (hread : ∀ more, operation name more = .ok (s, more)) :
    States (name.toList ++ [';']) s where
  begins := isWord_begins hword
  reads := by
    refine ⟨_, _, yields_semicolon (scans_word hword).yields, fun more => ?_⟩
    exact @statement_operation name [] more s hname (by simp) hread

/-- An opcode and its operand. -/
theorem states_operand {name : String} {text : List Char} {ts : Tokens} {s : Statement}
    (hword : isWord name.toList = true) (hname : name ∉ keywords) (htext : IsOperand text ts)
    (hread : ∀ more, operation name (ts ++ more) = .ok (s, more)) :
    States (name.toList ++ ' ' :: text ++ [';']) s where
  begins := by
    rw [List.append_assoc]
    exact isWord_begins hword
  reads := by
    have hline : Yields (name.toList ++ ' ' :: text) (.word name.toList :: ts) Parted :=
      (scans_word hword).yields.append htext.yields.blank fun _ _ => Or.inl rfl
    refine ⟨_, _, yields_semicolon hline, fun more => ?_⟩
    rw [← statement_operation hname htext.begins hread]
    simp

theorem opname_notMem_keywords (op : Instruction) : op.opname ∉ keywords := by
  cases op with
  | binary op => cases op <;> decide
  | call form raw =>
      rw [Instruction.opname]
      cases form <;> decide
  | jump kind l =>
      rw [Instruction.opname]
      cases kind <;> decide
  | _ =>
      rw [Instruction.opname]
      decide

theorem operation_call (form : CallForm) (ts : Tokens) :
    operation form.opname ts
      = (natural UInt16.size ts).map fun e => (.op (.call form (UInt16.ofNat e.1)), e.2) := by
  cases form <;> rfl

theorem operation_jump (kind : JumpKind) (ts : Tokens) :
    operation kind.opname ts = (identifier ts).map fun e => (.jump kind e.1, e.2) := by
  cases kind <;> rfl

theorem name_word {name : String} (h : name ∉ keywords) (ts : Tokens) :
    Embedded.name (.word name.toList :: ts) = .ok (name, ts) := by
  rw [Embedded.name]
  · exact identifier_word h ts
  · simp

theorem natural_literal {bound n : Nat} (h : n < bound) (text : List Char) (ts : Tokens) :
    natural bound (.literal text (.numeral (.int n)) :: ts) = .ok (n, ts) := by
  simp [natural, number?, h]

/-- **A line closed by a semicolon is the instruction it was written from.** -/
theorem states_line {op : Instruction} (h : op.Portable) : States (op.line ++ [';']) (.op op) := by
  have hword := isWord_opname op
  have hname := opname_notMem_keywords op
  cases op with
  | setLabel l => exact False.elim h
  | jump kind l => exact False.elim h
  | loadConst v =>
      obtain ⟨ts, hoperand, hread⟩ := constant_chars h
      exact states_operand hword hname hoperand hread
  | loadName n =>
      refine states_operand hword hname (isOperand_word h.1) fun more => ?_
      change (Embedded.name _).map _ = _
      rw [List.singleton_append, name_word h.2]
      rfl
  | loadAttr n =>
      refine states_operand hword hname (isOperand_word h.1) fun more => ?_
      change (Embedded.name _).map _ = _
      rw [List.singleton_append, name_word h.2]
      rfl
  | buildTuple n =>
      refine states_operand hword hname (isOperand_number _) fun more => ?_
      change (natural _ _).map _ = _
      rw [List.singleton_append, natural_literal n.toNat_lt_size]
      simp [Except.map]
  | unpackSequence n =>
      refine states_operand hword hname (isOperand_number _) fun more => ?_
      change (natural _ _).map _ = _
      rw [List.singleton_append, natural_literal n.toNat_lt_size]
      simp [Except.map]
  | compare op =>
      have hmnemonic : isWord op.mnemonic.toList = true := by cases op <;> decide
      refine states_operand hword hname (isOperand_word hmnemonic) fun more => ?_
      cases op <;> rfl
  | call form raw =>
      refine states_operand hword hname ((scans_operand raw).isOperand (by simp)) fun more => ?_
      change operation form.opname _ = _
      rw [List.singleton_append, operation_call, natural_literal raw.toNat_lt_size]
      simp [Except.map]
  | binary op => cases op <;> exact states_bare hword hname fun _ => rfl
  | _ => exact states_bare hword hname fun _ => rfl

/-- An item as a statement. -/
def stated : Listing.Item → Statement
  | .ready op => .op op
  | .define name => .label name
  | .jump kind name => .jump kind name

/-- A line of an embedded listing is read as its item. -/
theorem states_item {item : Listing.Item} (h : item.Portable) :
    States (closed item) (stated item) := by
  cases item with
  | ready op => exact states_line h
  | define name => exact states_label h.1
  | jump kind name =>
      have hname : kind.opname ∉ keywords := opname_notMem_keywords (.jump kind ⟨0⟩)
      refine states_operand (isWord_jump kind) hname (isOperand_word h.1) fun more => ?_
      rw [List.singleton_append, operation_jump, identifier_word h.2]
      rfl

end Operations

section Lines

theorem statements_cons {t : TokenTree} {ts more : Tokens} {s : Statement}
    (h : statement (t :: ts ++ more) = .ok (s, more)) :
    statements (t :: ts ++ more) = (statements more).map (s :: ·) := by
  rw [List.cons_append] at h ⊢
  rw [statements, h]
  simp

/-- The statements of lines, one after another. -/
theorem statements_lines {α : Type} {line : α → List Char} {s : α → Statement} {xs : List α}
    (h : ∀ x ∈ xs, States (line x) (s x)) :
    ∃ ts, scan? (joinChars ['\n'] (xs.map line)) = some (ts.map Piece.leaf) ∧
      statements ts = .ok (xs.map s) := by
  induction xs with
  | nil => exact ⟨[], by rw [List.map_nil, joinChars, scan?]; rfl, by rw [statements]; rfl⟩
  | cons x xs ih =>
      obtain ⟨us, hscan, hus⟩ := ih fun y hy => h y (List.mem_cons_of_mem _ hy)
      obtain ⟨t, ts, hyields, hstatement⟩ := (h x List.mem_cons_self).reads
      have hstatements : statements (t :: ts ++ us) = .ok ((x :: xs).map s) := by
        rw [statements_cons (hstatement us), hus]
        rfl
      refine ⟨t :: ts ++ us, ?_, hstatements⟩
      cases xs with
      | nil =>
          have hlast := hyields [] rfl
          rw [List.append_nil] at hlast
          rw [List.map_nil, joinChars] at hscan
          rw [List.map_cons, List.map_nil, joinChars, hlast, hscan]
          simp
      | cons y xs =>
          rw [List.map_cons, Listing.joinChars_cons _ _ (by simp), List.singleton_append,
            hyields _ (unjoined_line _), scan?_blank (Or.inr rfl), hscan]
          simp

/-- A text without brackets and without a byte order mark. -/
theorem tokens?_leaves {c : Char} {cs : List Char} {ts : Tokens} (hc : c.toNat < 128)
    (hscan : scan? (c :: cs) = some (ts.map Piece.leaf)) : tokens? (c :: cs) = some ts := by
  unfold tokens?
  split
  · next heq =>
      obtain ⟨rfl, -⟩ := List.cons.inj heq
      exact absurd hc (by decide)
  · dsimp only
    rw [hscan, Option.bind_some, nest?_leaf]
    rfl

/-- **The statements of a text are what its lines state.** -/
theorem parse_lines {α : Type} {line : α → List Char} {s : α → Statement} {xs : List α}
    (hne : xs ≠ []) (h : ∀ x ∈ xs, States (line x) (s x))
    (hcomplete : ∀ x ∈ xs, (s x).isComplete = true) :
    parse (joinChars ['\n'] (xs.map line)) = .ok (xs.map s) := by
  obtain ⟨ts, hscan, hstatements⟩ := statements_lines h
  have hbegins : ∃ c cs, joinChars ['\n'] (xs.map line) = c :: cs ∧ c.toNat < 128 := by
    cases xs with
    | nil => exact absurd rfl hne
    | cons x xs =>
        obtain ⟨c, cs, hline, hlt⟩ := (h x List.mem_cons_self).begins
        cases xs with
        | nil => exact ⟨c, cs, hline, hlt⟩
        | cons y xs =>
            exact ⟨c, _, by rw [List.map_cons, Listing.joinChars_cons _ _ (by simp), hline]; rfl, hlt⟩
  obtain ⟨c, cs, hbegin, hlt⟩ := hbegins
  rw [hbegin] at hscan ⊢
  have hall : (xs.map s).all Statement.isComplete = true := by
    simpa using hcomplete
  rw [parse, tokens?_leaves hlt hscan]
  simp [hstatements, hall, hne]

end Lines

end Embedded
end TrackedExpr
