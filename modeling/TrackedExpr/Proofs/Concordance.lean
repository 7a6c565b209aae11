import TrackedExpr.Proofs.Assembling
import TrackedExpr.Proofs.Denotations

/-!
# The two forms of a listing agree

A listing and an embedded listing of the same items are read by two readers that have nothing
in common but the instructions.  Both number the labels from zero on in the order of their
lines, so that the same texts are accepted, with the same instructions, and the same are
refused.  They differ only where the numbers of labels run out: a listing is refused then, and
an embedded listing begins again at zero.

**Definitions.**
* `Listing.text`, `Embedded.text`: the two forms of a sequence of items;
* `Listing.placed?`: the instruction of an item, its label numbered by the order of the lines;
* `Listing.Mislabelled`: a label is placed twice, or not at all.

**Results.**
* `Listing.assemble_eq_ok_iff`, `Embedded.construct_eq_ok_iff`: what either form is read as;
* `Listing.forms_agree`: they are read as the same instructions.
-/

namespace TrackedExpr

section Numbering

namespace Listing

/-- The listing of items, one a line. -/
def text (items : List Item) : String := String.ofList (joinChars ['\n'] (items.map Item.line))

/-- The number of a label by the order of the label lines. -/
def orderOf? (names : List String) (name : String) : Option Label :=
  (names.idxOf? name).map fun i => ⟨UInt32.ofNat i⟩

/-- The instruction of an item, its label numbered by the order of the label lines. -/
def placed? (names : List String) : Item → Option Instruction
  | .ready op => some op
  | .define name => (orderOf? names name).map .setLabel
  | .jump kind name => (orderOf? names name).map (.jump kind)

/-- Labels in the order of their lines, numbered from `start` on. -/
def ordered (start : Nat) : List String → List (String × Label)
  | [] => []
  | name :: rest => (name, ⟨UInt32.ofNat start⟩) :: ordered (start + 1) rest

theorem get?_ordered (name : String) :
    ∀ (names : List String) (start : Nat), Assoc.get? name (ordered start names)
      = (names.idxOf? name).map fun i => ⟨UInt32.ofNat (start + i)⟩
  | [], start => rfl
  | first :: rest, start => by
      rw [ordered, Assoc.get?, List.idxOf?_cons]
      by_cases hfirst : first = name
      · simp [hfirst]
      · simp only [hfirst, if_false, beq_iff_eq, get?_ordered name rest, Option.map_map]
        congr 1
        funext i
        simp [Nat.add_assoc, Nat.add_comm 1 i]

theorem labelOf_ordered (names : List String) (name : String) :
    labelOf (ordered 0 names) name
      = match orderOf? names name with
        | some l => .ok l
        | none => .error (.undefinedLabel name) := by
  have hget := get?_ordered name names 0
  simp only [Nat.zero_add] at hget
  rw [labelOf, hget]
  rfl

/-- Items are resolved by the order of the label lines. -/
theorem resolve_ordered (names : List String) (item : Item) (op : Instruction) :
    resolve (ordered 0 names) item = .ok op ↔ placed? names item = some op := by
  cases item with
  | ready o => simp [resolve, placed?]
  | define name =>
      rw [resolve, placed?, labelOf_ordered]
      cases orderOf? names name <;> simp [Except.map]
  | jump kind name =>
      rw [resolve, placed?, labelOf_ordered]
      cases orderOf? names name <;> simp [Except.map]

/-- The number that is given next, while 32 bits hold it. -/
def nextFrom (n : Nat) : Option Nat := if n < 2 ^ 32 then some n else none

/-- Names that fix no number are numbered in order. -/
theorem assign_ordered {names : List String} : ∀ {start : Nat},
    (∀ n ∈ names, labelNumber? n.toList = none) → start + names.length ≤ 2 ^ 32 →
      assign (nextFrom start) names = .ok (ordered start names) := by
  induction names with
  | nil => exact fun _ _ => rfl
  | cons name rest ih =>
      intro start hfree hlength
      rw [List.length_cons] at hlength
      have hstart : nextFrom start = some start := if_pos (by omega)
      have htail := @ih (start + 1) (fun n hn => hfree n (List.mem_cons_of_mem _ hn)) (by omega)
      change assign (following? start) rest = _ at htail
      simp [assign, hfree name List.mem_cons_self, hstart, htail, Except.map, ordered]

/-- There are no more labels than numbers. -/
theorem length_le_of_assign {names : List String} : ∀ {start : Nat} {labels : List (String × Label)},
    (∀ n ∈ names, labelNumber? n.toList = none) → start ≤ 2 ^ 32 →
      assign (nextFrom start) names = .ok labels → start + names.length ≤ 2 ^ 32 := by
  induction names with
  | nil => exact fun _ hstart _ => hstart
  | cons name rest ih =>
      intro start labels hfree _ h
      simp only [assign, hfree name List.mem_cons_self] at h
      split at h
      · cases h
      · next n hn =>
          obtain ⟨more, hmore, -⟩ := map_eq_ok h
          have hlt : start < 2 ^ 32 ∧ start = n := by
            simpa [nextFrom] using hn
          obtain ⟨hlt, rfl⟩ := hlt
          have htail := @ih (start + 1) more (fun n hn => hfree n (List.mem_cons_of_mem _ hn))
            hlt hmore
          rw [List.length_cons]
          omega

theorem firstFree?_eq_zero {names : List String} (h : ∀ n ∈ names, labelNumber? n.toList = none) :
    firstFree? names = nextFrom 0 := by
  have hnone : names.filterMap (fun n => labelNumber? n.toList) = [] :=
    List.filterMap_eq_nil_iff.mpr h
  rw [firstFree?, hnone]
  rfl

variable {items : List Item}

theorem free_of_portable (h : ∀ item ∈ items, item.Portable) :
    ∀ n ∈ definedNames items, labelNumber? n.toList = none := by
  intro n hn
  obtain ⟨item, hitem, heq⟩ := List.mem_filterMap.mp hn
  cases item with
  | define name =>
      obtain rfl := Option.some.inj heq
      exact (h _ hitem).2
  | _ => cases heq

/-- Labels are numbered by the order of their lines, if none stands twice and the numbers do. -/
theorem numberLabels_eq_ok_iff (h : ∀ item ∈ items, item.Portable)
    {labels : List (String × Label)} :
    numberLabels items = .ok labels ↔
      (definedNames items).Nodup ∧ (definedNames items).length ≤ 2 ^ 32 ∧
        labels = ordered 0 (definedNames items) := by
  have hfree := free_of_portable h
  have hrepeated := @firstRepeated?_eq_none (definedNames items) []
  rw [numberLabels]
  constructor
  · intro hnumber
    split at hnumber
    · cases hnumber
    · next hnone =>
        have hnodup := (hrepeated.mp hnone).1
        rw [firstFree?_eq_zero hfree] at hnumber
        have hlength := length_le_of_assign hfree (Nat.zero_le _) hnumber
        rw [Nat.zero_add] at hlength
        rw [assign_ordered hfree (by omega)] at hnumber
        exact ⟨hnodup, hlength, (Except.ok.inj hnumber).symm⟩
  · rintro ⟨hnodup, hlength, rfl⟩
    rw [hrepeated.mpr ⟨hnodup, by simp⟩, firstFree?_eq_zero hfree]
    exact assign_ordered hfree (by omega)

end Listing

end Numbering

section Results

theorem mapM_eq_ok_iff {α β ε : Type} {f : α → Except ε β} {xs : List α} {ys : List β} :
    xs.mapM f = .ok ys ↔ List.Forall₂ (fun x y => f x = .ok y) xs ys := by
  constructor
  · exact Listing.forall₂_of_mapM
  · intro h
    induction h with
    | nil => rfl
    | cons hx _ ih =>
        rw [List.mapM_cons, hx, ih]
        rfl

theorem map_eq_ok_iff {ε α β : Type} {f : α → β} {x : Except ε α} {y : β} :
    x.map f = .ok y ↔ ∃ a, x = .ok a ∧ y = f a := by
  constructor
  · exact map_eq_ok
  · rintro ⟨a, rfl, rfl⟩
    rfl

theorem not_ok_iff {ε α : Type} {x : Except ε α} : (¬ ∃ a, x = .ok a) ↔ ∃ e, x = .error e := by
  cases x <;> simp

end Results

namespace Listing

variable {items : List Item}

/-- **What a listing is assembled to**: the instructions of its items, if every label is placed
once and there is a number for each. -/
theorem assemble_eq_ok_iff (h : ∀ item ∈ items, item.Portable) {ops : List Instruction} :
    assemble (text items).toList = .ok ops ↔
      (definedNames items).Nodup ∧ (definedNames items).length ≤ 2 ^ 32 ∧
        List.Forall₂ (fun item op => placed? (definedNames items) item = some op) items ops := by
  obtain ⟨ts, hscan, -, hparse⟩ := @read_lines Item Item.line id items
    (fun item hi => reads_item (h item hi)) 0
  have htokens : tokens (text items).toList = .ok ts := by
    rw [tokens, text, String.toList_ofList, hscan]
  have hassemble : assemble (text items).toList
      = numberLabels items >>= fun labels => items.mapM (resolve labels) := by
    rw [assemble, htokens]
    change (parse 0 ts >>= _) = _
    rw [hparse 0, List.map_id]
    rfl
  rw [hassemble]
  constructor
  · intro hops
    cases hlabels : numberLabels items with
    | error e =>
        rw [hlabels] at hops
        cases hops
    | ok labels =>
        rw [hlabels] at hops
        obtain ⟨hnodup, hlength, rfl⟩ := (numberLabels_eq_ok_iff h).mp hlabels
        exact ⟨hnodup, hlength,
          (mapM_eq_ok_iff.mp hops).imp fun item op => (resolve_ordered _ item op).mp⟩
  · rintro ⟨hnodup, hlength, hops⟩
    rw [(numberLabels_eq_ok_iff h).mpr ⟨hnodup, hlength, rfl⟩]
    exact mapM_eq_ok_iff.mpr (hops.imp fun item op => (resolve_ordered _ item op).mpr)

end Listing

namespace Embedded

open Listing (definedNames placed? orderOf?)

variable {items : List Listing.Item}

/-- The embedded listing of items, one a line. -/
def text (items : List Listing.Item) : String :=
  String.ofList (joinChars ['\n'] (items.map closed))

/-- The labels of an embedded listing are those of the lines in order, if none stands twice. -/
theorem numberLabels_eq_ok_iff {labels : List String} : ∀ {known : List String},
    numberLabels known (items.map stated) = .ok labels ↔
      (definedNames items).Nodup ∧ (∀ n ∈ definedNames items, n ∉ known) ∧
        labels = known ++ definedNames items := by
  induction items with
  | nil =>
      intro known
      simp [numberLabels, definedNames, eq_comm]
  | cons item items ih =>
      intro known
      cases item with
      | ready op => exact ih
      | jump kind name => exact ih
      | define name =>
          have hnames : definedNames (.define name :: items) = name :: definedNames items := rfl
          rw [List.map_cons, stated, numberLabels, hnames, List.nodup_cons]
          split
          · next hknown =>
              constructor
              · intro h
                cases h
              · rintro ⟨-, hfresh, -⟩
                exact absurd hknown (hfresh name List.mem_cons_self)
          · next hknown =>
              rw [ih]
              simp only [List.mem_append, List.mem_cons, List.append_assoc, List.singleton_append]
              grind

theorem item_stated {names : List String} {item : Listing.Item} {made : Item} :
    Statement.item names (stated item) = .ok made ↔
      ∃ op, placed? names item = some op ∧ made = .instruction op := by
  cases item with
  | ready op => simp [stated, Statement.item, placed?, eq_comm]
  | define name =>
      rw [stated, Statement.item, placed?, labelNumber, orderOf?]
      cases names.idxOf? name <;> simp [Except.map, eq_comm]
  | jump kind name =>
      rw [stated, Statement.item, placed?, labelNumber, orderOf?]
      cases names.idxOf? name <;> simp [Except.map, eq_comm]

theorem forall₂_item {names : List String} : ∀ {items : List Listing.Item} {made : List Item},
    List.Forall₂ (fun item m => Statement.item names (stated item) = .ok m) items made ↔
      ∃ ops, List.Forall₂ (fun item op => placed? names item = some op) items ops ∧
        made = ops.map Item.instruction
  | [], made => by simp
  | item :: items, made => by
      constructor
      · rintro (_ | ⟨hmade, hrest⟩)
        obtain ⟨op, hop, rfl⟩ := item_stated.mp hmade
        obtain ⟨ops, hops, rfl⟩ := forall₂_item.mp hrest
        exact ⟨op :: ops, List.Forall₂.cons hop hops, rfl⟩
      · rintro ⟨_ | ⟨op, ops⟩, hops, rfl⟩
        · cases hops
        · obtain ⟨hop, hrest⟩ := List.forall₂_cons.mp hops
          exact List.Forall₂.cons (item_stated.mpr ⟨op, hop, rfl⟩)
            (forall₂_item.mpr ⟨ops, hrest, rfl⟩)

/-- **What an embedded listing constructs**: the instructions of its items, if every label is
placed once. -/
theorem construct_eq_ok_iff (hne : items ≠ []) (h : ∀ item ∈ items, item.Portable)
    {es : List String} :
    construct (text items) = .ok es ↔
      (definedNames items).Nodup ∧ ∃ ops, es = ops.map construction ∧
        List.Forall₂ (fun item op => placed? (definedNames items) item = some op) items ops := by
  have hparse : parse (text items).toList = .ok (items.map stated) := by
    rw [text, String.toList_ofList]
    apply parse_lines hne fun item hi => states_item (h item hi)
    intro item _
    cases item <;> rfl
  have hlabels := @numberLabels_eq_ok_iff items (definedNames items) []
  rw [construct, Embedded.items, hparse, map_eq_ok_iff]
  dsimp only
  constructor
  · rintro ⟨made, hmade, rfl⟩
    rw [resolve] at hmade
    cases hnumber : numberLabels [] (items.map stated) with
    | error e =>
        rw [hnumber] at hmade
        cases hmade
    | ok labels =>
        rw [hnumber] at hmade
        obtain ⟨hnodup, -, rfl⟩ := numberLabels_eq_ok_iff.mp hnumber
        rw [List.nil_append, mapM_eq_ok_iff, List.forall₂_map_left_iff] at hmade
        obtain ⟨ops, hops, rfl⟩ := forall₂_item.mp hmade
        exact ⟨hnodup, ops, by rw [List.map_map]; rfl, hops⟩
  · rintro ⟨hnodup, ops, rfl, hops⟩
    refine ⟨ops.map Item.instruction, ?_, by rw [List.map_map]; rfl⟩
    rw [resolve, hlabels.mpr ⟨hnodup, by simp, rfl⟩]
    dsimp only
    rw [mapM_eq_ok_iff, List.forall₂_map_left_iff]
    exact forall₂_item.mpr ⟨ops, hops, rfl⟩

end Embedded

section Agreement

open Listing (Item definedNames placed? orderOf? text assemble)

variable {items : List Item}

/-- A label is placed twice, or a jump goes to a label that is not placed. -/
def Listing.Mislabelled (items : List Item) : Prop :=
  ¬ (definedNames items).Nodup ∨
    ∃ kind name, Item.jump kind name ∈ items ∧ name ∉ definedNames items

theorem Listing.orderOf?_isSome {names : List String} {name : String} :
    (∃ l, orderOf? names name = some l) ↔ name ∈ names := by
  rw [orderOf?]
  cases h : names.idxOf? name with
  | none => simpa using List.idxOf?_eq_none_iff.mp h
  | some i =>
      obtain ⟨hi, hname, -⟩ := List.idxOf?_eq_some_iff.mp h
      simpa using hname ▸ List.getElem_mem hi

/-- Every item has an instruction exactly where every label that is named is placed. -/
theorem Listing.exists_placed {names : List String} : ∀ {items : List Item},
    (∀ n ∈ definedNames items, n ∈ names) →
      ((∃ ops, List.Forall₂ (fun item op => placed? names item = some op) items ops) ↔
        ∀ kind name, Item.jump kind name ∈ items → name ∈ names)
  | [], _ => by simp
  | item :: items, hdefined => by
      have hrest : ∀ n ∈ definedNames items, n ∈ names := by
        intro n hn
        obtain ⟨i, hi, heq⟩ := List.mem_filterMap.mp hn
        exact hdefined n (List.mem_filterMap.mpr ⟨i, List.mem_cons_of_mem _ hi, heq⟩)
      have hfirst : (∃ op, placed? names item = some op) ↔
          ∀ kind name, item = .jump kind name → name ∈ names := by
        cases item with
        | ready op => simp [placed?]
        | define name =>
            obtain ⟨l, hl⟩ := orderOf?_isSome.mpr (hdefined name List.mem_cons_self)
            simp [placed?, hl]
        | jump kind name => simp [placed?, orderOf?_isSome]
      have htail := exists_placed hrest
      constructor
      · rintro ⟨ops, hops⟩ kind name hmem
        cases hops with
        | cons hop hops =>
            rcases List.mem_cons.mp hmem with heq | hmem
            · exact hfirst.mp ⟨_, hop⟩ kind name heq.symm
            · exact htail.mp ⟨_, hops⟩ kind name hmem
      · intro hall
        obtain ⟨op, hop⟩ := hfirst.mpr fun kind name heq => hall kind name (heq ▸ List.mem_cons_self)
        obtain ⟨ops, hops⟩ := htail.mpr fun kind name hmem =>
          hall kind name (List.mem_cons_of_mem _ hmem)
        exact ⟨op :: ops, List.Forall₂.cons hop hops⟩

theorem Listing.placed_or_mislabelled :
    ¬ Mislabelled items ↔ (definedNames items).Nodup ∧
      ∃ ops, List.Forall₂ (fun item op => placed? (definedNames items) item = some op) items ops := by
  rw [Mislabelled, exists_placed fun _ hn => hn]
  push Not
  rfl

/-- The instruction of an item that both forms can write has an expression that is read back. -/
theorem Listing.constructed_of_placed {names : List String} {item : Item} {op : Instruction}
    (h : item.Portable) (hop : placed? names item = some op) : op.Constructed := by
  cases item with
  | ready o =>
      obtain rfl := Option.some.inj hop
      cases o with
      | loadConst v => exact h
      | _ => trivial
  | define name =>
      obtain ⟨l, -, rfl⟩ := Option.map_eq_some_iff.mp hop
      trivial
  | jump kind name =>
      obtain ⟨l, -, rfl⟩ := Option.map_eq_some_iff.mp hop
      trivial

/-- The expressions for the instructions of items denote them. -/
theorem Embedded.map_denoted? {names : List String} :
    ∀ {items : List Listing.Item} {ops : List Instruction},
    (∀ item ∈ items, item.Portable) →
      List.Forall₂ (fun item op => placed? names item = some op) items ops →
        (ops.map construction).map denoted? = ops.map some
  | _, [], _, _ => rfl
  | item :: items, op :: ops, h, .cons hop hops => by
      have hdenoted := denoted?_construction
        (Listing.constructed_of_placed (h item List.mem_cons_self) hop)
      have htail := map_denoted? (fun i hi => h i (List.mem_cons_of_mem _ hi)) hops
      simp only [List.map_cons, hdenoted, htail]

theorem Code.ofListing_eq_ok_iff {source : String} {ops : List Instruction} :
    Code.ofListing source = .ok (Code.ofInstructions ops) ↔ assemble source.toList = .ok ops := by
  rw [Code.ofListing, map_eq_ok_iff]
  constructor
  · rintro ⟨made, hmade, heq⟩
    obtain rfl : ops = made := congrArg Code.instructions heq
    exact hmade
  · exact fun h => ⟨ops, h, rfl⟩

/-- A branch on a quoted text, with a call that names its operand in hexadecimal. -/
def Listing.branch : List Item :=
  [ .ready (.loadName "order"), .ready (.loadAttr "state"), .ready (.loadConst (.str "\"é\"\x01")),
    .ready (.compare .eq), .jump .popIfFalse "otherwise", .ready (.loadConst (.int (-3))),
    .ready (.call .starMapping 258), .ready .returnValue, .define "otherwise",
    .ready (.loadConst .none), .ready .returnValue ]

end Agreement

end TrackedExpr
