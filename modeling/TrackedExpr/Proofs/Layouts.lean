import TrackedExpr.Proofs.Assembling

/-!
# Layout means nothing

A token ends where a separator begins: what a class matches at the beginning of a text that
reaches no further than the token stays the same when what comes after the token is replaced by
something that begins with a blank or a comment.  So the texts of the tokens of a listing are read
again as the same tokens, whatever separators stand between them, and what is assembled depends on
the tokens alone.

**Definitions.**
* `Listing.Gap`, `Listing.Ends`: blanks and comments between tokens, and after the last one;
* `Listing.SetOff`: a text in front of which a token ends;
* `Listing.Stands`: a text is one token, whatever is set off from it;
* `Listing.Placed`: the tokens of a text at their places;
* `Listing.joined`: texts with separators between them.

**Results.**
* `Listing.matchLength_setOff`, `Listing.stands_of_longest?`: what is set off from a token does not
  change the matches, so each token stands by itself;
* `Listing.placed_scan`, `Listing.Placed.spans`: what scanning finds, and where;
* `Listing.scan_joined`: scanning the same tokens in another layout;
* `Listing.parse_unplaced`: parsing does not look at places;
* `Listing.layout_means_nothing`.
-/

namespace TrackedExpr

namespace Listing

section Separators

/-- Blanks and comments; each comment ends with its line. -/
inductive Gap : List Char → Prop
  | nil : Gap []
  | blank {c : Char} {gap : List Char} : isBlank c = true → Gap gap → Gap (c :: gap)
  | comment {note gap : List Char} : '\n' ∉ note → Gap gap → gap.head? = some '\n' →
      Gap ('#' :: note ++ gap)

/-- What may come after the last token: the last comment may end with the text. -/
inductive Ends : List Char → Prop
  | gap {gap : List Char} : Gap gap → Ends gap
  | comment {gap note : List Char} : Gap gap → '\n' ∉ note → Ends (gap ++ '#' :: note)

/-- A text in front of which a token ends: it is empty, or begins with a blank or a comment. -/
def SetOff : List Char → Prop
  | [] => True
  | c :: _ => isBlank c = true ∨ c = '#'

/-- A text is one token, whatever is set off from it. -/
structure Stands (kind : TokenKind) (text : List Char) : Prop where
  begins : ∃ c rest, text = c :: rest ∧ isBlank c = false ∧ c ≠ '#'
  longest : ∀ rest, SetOff rest → longest? (text ++ rest) = some (kind, text.length)

/-- The tokens of a text that begins at the byte `start`, each at its place: between them are blanks
and comments only, and each is one token by itself. -/
inductive Placed : Nat → List Char → List Lexeme → Prop
  | done {start : Nat} {tail : List Char} : Ends tail → Placed start tail []
  | token {start : Nat} {gap rest : List Char} {t : Lexeme} {ts : List Lexeme} :
      Gap gap → t.start = start + byteLength gap → Stands t.kind t.text → Placed t.stop rest ts →
      Placed start (gap ++ t.text ++ rest) (t :: ts)

/-- Texts with separators between them. -/
def joined : List (List Char) → List (List Char) → List Char
  | [], _ => []
  | text :: _, [] => text
  | text :: texts, gap :: gaps => text ++ gap ++ joined texts gaps

end Separators

section Lengths

theorem byteLength_eq_sum (cs : List Char) : byteLength cs = (cs.map Char.utf8Size).sum := by
  have hfold : ∀ (cs : List Char) (n : Nat),
      cs.foldl (fun n c => n + c.utf8Size) n = n + (cs.map Char.utf8Size).sum := by
    intro cs
    induction cs with
    | nil => exact fun n => rfl
    | cons c cs ih =>
        intro n
        rw [List.foldl_cons, ih, List.map_cons, List.sum_cons, Nat.add_assoc]
  rw [byteLength, hfold, Nat.zero_add]

@[simp] theorem byteLength_cons (c : Char) (cs : List Char) :
    byteLength (c :: cs) = c.utf8Size + byteLength cs := by
  rw [byteLength_eq_sum, byteLength_eq_sum, List.map_cons, List.sum_cons]

@[simp] theorem byteLength_append (as bs : List Char) :
    byteLength (as ++ bs) = byteLength as + byteLength bs := by
  rw [byteLength_eq_sum, byteLength_eq_sum, byteLength_eq_sum, List.map_append, List.sum_append]

theorem byteLength_pos {cs : List Char} (h : cs ≠ []) : 0 < byteLength cs := by
  cases cs with
  | nil => exact absurd rfl h
  | cons c cs =>
      rw [byteLength_cons]
      exact Nat.add_pos_left c.utf8Size_pos _

end Lengths

section Matches

variable {text rest rest' : List Char}

/-- A length that is within the text, and that depends only on what it covers as long as what
comes after that is set off. -/
structure Settled (f : List Char → Nat) : Prop where
  le : ∀ cs, f cs ≤ cs.length
  setOff : ∀ {text rest rest' : List Char}, f (text ++ rest) ≤ text.length → SetOff rest' →
    f (text ++ rest') = f (text ++ rest)

theorem SetOff.ne {c : Char} (h : SetOff (c :: rest)) {d : Char} (hd : isBlank d = false)
    (hcomment : d ≠ '#') : c ≠ d := by
  rintro rfl
  rcases h with h | h
  · rw [hd] at h
    cases h
  · exact hcomment h

/-- A class of characters that are neither blank nor begin a comment. -/
structure Inside (p : Char → Bool) : Prop where
  blank : ∀ c, isBlank c = true → p c = false
  comment : p '#' = false

theorem isBlank_cases {c : Char} (h : isBlank c = true) :
    c = ' ' ∨ c = '\t' ∨ c = '\r' ∨ c = '\n' ∨ c = '\x0c' := by
  simpa [isBlank, or_assoc] using h

theorem inside_of_all {p : Char → Bool}
    (h : [' ', '\t', '\r', '\n', '\x0c', '#'].all (fun c => !p c) = true) : Inside p := by
  simp only [List.all_cons, List.all_nil, Bool.and_true, Bool.and_eq_true, Bool.not_eq_true'] at h
  obtain ⟨hspace, htab, hreturn, hline, hpage, hcomment⟩ := h
  refine ⟨fun c hc => ?_, hcomment⟩
  rcases isBlank_cases hc with rfl | rfl | rfl | rfl | rfl
  · exact hspace
  · exact htab
  · exact hreturn
  · exact hline
  · exact hpage

variable {p : Char → Bool}

theorem Inside.eq_false (hp : Inside p) {c : Char} (h : SetOff (c :: rest)) : p c = false :=
  h.elim (hp.blank c) fun hc => hc ▸ hp.comment

theorem Inside.takeWhile (hp : Inside p) (h : SetOff rest) : rest.takeWhile p = [] := by
  cases rest with
  | nil => rfl
  | cons c rest =>
      rw [List.takeWhile_cons, hp.eq_false h]
      rfl

/-- The length of a run. -/
theorem Inside.settled_run (hp : Inside p) : Settled fun cs => (cs.takeWhile p).length where
  le := fun cs => (List.takeWhile_prefix _).length_le
  setOff := by
    intro text rest rest' hle hrest'
    simp only [List.takeWhile_append, hp.takeWhile hrest'] at hle ⊢
    split at hle
    · next hall =>
        rw [List.length_append] at hle
        have hnone : (rest.takeWhile p).length = 0 := by omega
        rw [if_pos hall, if_pos hall, List.length_eq_zero_iff.mp hnone]
    · next hall => rw [if_neg hall, if_neg hall]

/-- One character, if it is there. -/
theorem Inside.settled_head (hp : Inside p) :
    Settled fun cs => if cs.head?.any p then 1 else 0 where
  le := by
    intro cs
    cases cs with
    | nil => exact Nat.le_refl _
    | cons c cs =>
        rw [List.length_cons]
        split <;> omega
  setOff := by
    intro text rest rest' hle hrest'
    cases text with
    | cons c text => rfl
    | nil =>
        have hnone : (if rest'.head?.any p then 1 else 0) = 0 := by
          cases rest' with
          | nil => rfl
          | cons c rest' => simp [hp.eq_false hrest']
        exact hnone.trans (Nat.le_zero.mp hle).symm

theorem settled_digitRun : Settled digitRun := (inside_of_all (by decide)).settled_run

theorem settled_signLength : Settled signLength := by
  have hhead : signLength = fun cs => if cs.head?.any (· = '-') then 1 else 0 := by
    funext cs
    unfold signLength
    split
    · rfl
    · next hne =>
        cases cs with
        | nil => rfl
        | cons c cs => simp [show c ≠ '-' from fun h => hne cs (h ▸ rfl)]
  rw [hhead]
  exact (inside_of_all (by decide)).settled_head

theorem settled_exponentSignLength : Settled exponentSignLength := by
  have hhead : exponentSignLength = fun cs => if cs.head?.any (fun c => c = '-' || c = '+') then 1
      else 0 := by
    funext cs
    unfold exponentSignLength
    split
    · rfl
    · rfl
    · next hminus hplus =>
        cases cs with
        | nil => rfl
        | cons c cs =>
            simp [show c ≠ '-' from fun h => hminus cs (h ▸ rfl),
              show c ≠ '+' from fun h => hplus cs (h ▸ rfl)]
  rw [hhead]
  exact (inside_of_all (by decide)).settled_head

/-- Nothing is matched in what is set off. -/
theorem Settled.eq_zero {f : List Char → Nat} (hf : Settled f) (h : SetOff rest) : f rest = 0 := by
  have hnone : f [] = 0 := Nat.le_zero.mp (hf.le [])
  rw [← hnone]
  exact @Settled.setOff f hf [] [] rest (Nat.le_zero.mpr hnone) h

/-- A sign, which is one character at most, and a run of digits. -/
theorem settled_signed {sign : List Char → Nat} (hsign : Settled sign)
    (hone : ∀ cs, sign cs ≤ 1) : Settled fun cs =>
      if digitRun (cs.drop (sign cs)) = 0 then 0 else sign cs + digitRun (cs.drop (sign cs)) where
  le := by
    intro cs
    have hsigned := hsign.le cs
    have hdigits := settled_digitRun.le (cs.drop (sign cs))
    rw [List.length_drop] at hdigits
    split <;> omega
  setOff := by
    intro text rest rest' hle hrest'
    cases text with
    | nil =>
        simp only [List.nil_append] at hle ⊢
        rw [Nat.le_zero.mp hle, hsign.eq_zero hrest', List.drop_zero,
          settled_digitRun.eq_zero hrest', if_pos rfl]
    | cons c text =>
        have hsigned : sign (c :: text ++ rest) ≤ (c :: text).length :=
          (hone _).trans (Nat.succ_pos _)
        rw [hsign.setOff hsigned hrest']
        generalize sign (c :: text ++ rest) = k at hle hsigned ⊢
        rw [List.drop_append_of_le_length hsigned] at hle ⊢
        have hdigits : digitRun ((c :: text).drop k ++ rest) ≤ ((c :: text).drop k).length := by
          rw [List.length_drop]
          split at hle <;> omega
        rw [List.drop_append_of_le_length hsigned, settled_digitRun.setOff hdigits hrest']

/-- A character that counts in front of a match only. -/
def counted (n : Nat) : Nat := if n = 0 then 0 else n + 1

/-- A character, and a match after it that may have to be there. -/
theorem settled_led {f g : List Char → Nat} {k : Nat → Nat} (hp : Inside p) (hg : Settled g)
    (hk : k = (· + 1) ∨ k = counted) (hnil : f [] = 0)
    (hcons : ∀ c cs, f (c :: cs) = if p c then k (g cs) else 0) : Settled f := by
  have hbound : ∀ n, k n ≤ n + 1 := by
    rintro n
    rcases hk with rfl | rfl
    · exact Nat.le_refl _
    · unfold counted
      split <;> omega
  have hinner : ∀ n m, k n ≤ m + 1 → n ≤ m := by
    intro n m hle
    rcases hk with rfl | rfl
    · exact Nat.le_of_succ_le_succ hle
    · unfold counted at hle
      split at hle <;> omega
  constructor
  · intro cs
    cases cs with
    | nil => rw [hnil, List.length_nil]
    | cons c cs =>
        rw [hcons]
        split
        · exact (hbound _).trans (Nat.succ_le_succ (hg.le cs))
        · exact Nat.zero_le _
  · intro text rest rest' hle hrest'
    cases text with
    | nil =>
        rw [List.nil_append] at hle ⊢
        rw [List.nil_append, Nat.le_zero.mp hle]
        cases rest' with
        | nil => exact hnil
        | cons c rest' => rw [hcons, hp.eq_false hrest', if_neg Bool.false_ne_true]
    | cons c text =>
        rw [List.cons_append, hcons] at hle ⊢
        rw [List.cons_append, hcons]
        split
        · next hc =>
            rw [if_pos hc] at hle
            rw [hg.setOff (hinner _ _ hle) hrest']
        · rfl

/-- Two matches, one after the other. -/
theorem settled_add {f g : List Char → Nat} (hf : Settled f) (hg : Settled g) :
    Settled fun cs => f cs + g (cs.drop (f cs)) where
  le := by
    intro cs
    have hfirst := hf.le cs
    have hsecond := hg.le (cs.drop (f cs))
    rw [List.length_drop] at hsecond
    omega
  setOff := by
    intro text rest rest' hle hrest'
    have hfirst : f (text ++ rest) ≤ text.length := (Nat.le_add_right _ _).trans hle
    rw [hf.setOff hfirst hrest']
    generalize f (text ++ rest) = n at hle hfirst ⊢
    rw [List.drop_append_of_le_length hfirst] at hle ⊢
    have hsecond : g (text.drop n ++ rest) ≤ (text.drop n).length := by
      rw [List.length_drop]
      omega
    rw [List.drop_append_of_le_length hfirst, hg.setOff hsecond hrest']

theorem settled_intLength : Settled intLength :=
  settled_signed settled_signLength fun cs => by
    unfold signLength
    split <;> omega

theorem settled_fractionLength : Settled fractionLength := by
  refine settled_led (p := (· = '.')) (inside_of_all (by decide)) settled_digitRun (Or.inr rfl) rfl
    ?_
  intro c cs
  by_cases hc : c = '.'
  · subst hc
    simp [fractionLength, counted, Nat.add_comm]
  · simp [fractionLength, hc]

theorem settled_exponentLength : Settled exponentLength := by
  have hone : ∀ cs, exponentSignLength cs ≤ 1 := by
    intro cs
    unfold exponentSignLength
    split <;> omega
  refine settled_led (p := fun c => c = 'e' || c = 'E') (inside_of_all (by decide))
    (settled_signed settled_exponentSignLength hone) (Or.inr rfl) rfl ?_
  intro c cs
  by_cases hc : c = 'e' ∨ c = 'E'
  · by_cases hdigits : digitRun (cs.drop (exponentSignLength cs)) = 0
    · simp [exponentLength, counted, hc, hdigits]
    · simp [exponentLength, counted, hc, hdigits]
      omega
  · simp [exponentLength, hc]

/-- The length of a hexadecimal numeral without its zero. -/
def hexTail (cs : List Char) : Nat :=
  if cs.head? = some 'x' then counted (cs.tail.takeWhile isHexDigit).length else 0

theorem settled_hexTail : Settled hexTail := by
  have hdigits : Settled fun cs => (cs.takeWhile isHexDigit).length :=
    (inside_of_all (by decide)).settled_run
  refine settled_led (p := (· = 'x')) (inside_of_all (by decide)) hdigits (Or.inr rfl) rfl ?_
  intro c cs
  by_cases hc : c = 'x'
  · simp [hexTail, hc]
  · simp [hexTail, hc]

theorem settled_hexLength : Settled hexLength := by
  refine settled_led (p := (· = '0')) (inside_of_all (by decide)) settled_hexTail (Or.inr rfl) rfl
    fun c cs => ?_
  by_cases hc : c = '0'
  · subst hc
    cases cs with
    | nil => rfl
    | cons d cs =>
        by_cases hd : d = 'x'
        · subst hd
          by_cases hnone : (cs.takeWhile isHexDigit).length = 0
          · simp [hexLength, hexTail, counted, hnone]
          · simp [hexLength, hexTail, counted, hnone]
            omega
        · simp [hexLength, hexTail, counted, hd]
  · simp [hexLength, hc]

theorem settled_wordLength : Settled wordLength := by
  have hrun : Settled fun cs => (cs.takeWhile continuesWord).length :=
    (inside_of_all (by decide)).settled_run
  refine settled_led (p := startsWord) (inside_of_all (by decide)) hrun (Or.inl rfl) rfl ?_
  intro c cs
  simp [wordLength, Nat.add_comm]

/-- A given word. -/
theorem settled_literal {w : List Char} (hw : w.all (fun c => !isBlank c && c != '#') = true) :
    Settled fun cs => if w.isPrefixOf cs then w.length else 0 where
  le := by
    intro cs
    split
    · next h => exact (List.isPrefixOf_iff_prefix.mp h).length_le
    · exact Nat.zero_le _
  setOff := by
    intro text rest rest' hle hrest'
    have hiff : w.isPrefixOf (text ++ rest') ↔ w.isPrefixOf (text ++ rest) := by
      rw [List.isPrefixOf_iff_prefix, List.isPrefixOf_iff_prefix]
      constructor
      · intro h
        rcases Nat.le_total w.length text.length with hlength | hlength
        · exact (List.prefix_of_prefix_length_le h (List.prefix_append _ _) hlength).trans
            (List.prefix_append _ _)
        · -- what is left of the word stands at the beginning of the separator
          obtain ⟨more, rfl⟩ := List.prefix_of_prefix_length_le (List.prefix_append _ _) h hlength
          rw [List.prefix_append_right_inj] at h
          cases more with
          | nil =>
              rw [List.append_nil]
              exact List.prefix_append _ _
          | cons c more =>
              obtain ⟨behind, rfl⟩ := h
              have hc := List.all_eq_true.mp hw c (by simp)
              rw [Bool.and_eq_true, Bool.not_eq_true', bne_iff_ne] at hc
              exact absurd rfl (SetOff.ne hrest' hc.1 hc.2)
      · intro h
        rw [if_pos (List.isPrefixOf_iff_prefix.mpr h)] at hle
        exact (List.prefix_of_prefix_length_le h (List.prefix_append _ _) hle).trans
          (List.prefix_append _ _)
    simp only [hiff]

theorem settled_negInf : Settled fun cs => matchLength cs .negInf :=
  @settled_literal ['-', 'i', 'n', 'f'] (by decide)

theorem settled_colon : Settled fun cs => matchLength cs .colon := @settled_literal [':'] (by decide)

/-- A number whose integer reaches no further than the token. -/
theorem floatLength_setOff (hint : intLength (text ++ rest) ≤ text.length)
    (hle : floatLength (text ++ rest) ≤ text.length) (hrest' : SetOff rest') :
    floatLength (text ++ rest') = floatLength (text ++ rest) := by
  have htail := settled_add settled_fractionLength settled_exponentLength
  have hfloat : ∀ cs, floatLength cs = if intLength cs = 0 then 0 else
      if fractionLength (cs.drop (intLength cs)) + exponentLength ((cs.drop (intLength cs)).drop
          (fractionLength (cs.drop (intLength cs)))) = 0 then 0
      else intLength cs + (fractionLength (cs.drop (intLength cs)) + exponentLength
        ((cs.drop (intLength cs)).drop (fractionLength (cs.drop (intLength cs))))) := by
    intro cs
    rw [floatLength]
    simp only [List.drop_drop, Nat.add_assoc]
  rw [hfloat] at hle ⊢
  rw [hfloat, settled_intLength.setOff hint hrest']
  generalize intLength (text ++ rest) = whole at hint hle ⊢
  rw [List.drop_append_of_le_length hint] at hle ⊢
  rw [List.drop_append_of_le_length hint]
  by_cases hwhole : whole = 0
  · rw [if_pos hwhole, if_pos hwhole]
  · rw [if_neg hwhole] at hle
    have hinner := @htail.setOff (text.drop whole) rest rest' (by
      rw [List.length_drop]
      split at hle <;> omega) hrest'
    rw [hinner]

theorem quotedLength_le (cs : List Char) : quotedLength cs ≤ cs.length := by
  fun_induction quotedLength cs with
  | case1 => exact Nat.le_refl _
  | case2 rest => simp
  | case3 => simp
  | case4 rest => simp
  | case5 c rest hline hzero ih => simp
  | case6 c rest hline hpos ih =>
      simp only [List.length_cons]
      omega
  | case7 c rest _ _ _ hzero => simp
  | case8 c rest _ _ _ hpos ih =>
      simp only [List.length_cons]
      omega

theorem quotedLength_cons {c : Char} (hquote : c ≠ '"') (hescape : c ≠ '\\') (cs : List Char) :
    quotedLength (c :: cs) = counted (quotedLength cs) := by
  by_cases hcs : quotedLength cs = 0
  · rw [quotedLength, hcs]
    · rfl
    all_goals
      intros
      simp_all
  · rw [quotedLength_plain hescape hquote hcs, counted, if_neg hcs]

theorem quotedLength_escaped (c : Char) (cs : List Char) : quotedLength ('\\' :: c :: cs)
    = if c = '\n' then 0 else counted (counted (quotedLength cs)) := by
  by_cases hc : c = '\n'
  · rw [quotedLength, if_pos hc, if_pos hc]
  · by_cases hcs : quotedLength cs = 0
    · rw [quotedLength, if_neg hc, if_neg hc, hcs]
      rfl
    · rw [quotedLength_letter hc hcs, if_neg hc, counted, counted, if_neg hcs]
      rfl

theorem of_counted {n m : Nat} (hpos : 0 < counted n) (hle : counted n ≤ m + 1) :
    0 < n ∧ n ≤ m := by
  unfold counted at hpos hle
  split at hpos
  · cases hpos
  · next hn =>
      rw [if_neg hn] at hle
      omega

/-- A text that is closed within the token. -/
theorem quotedLength_setOff : ∀ {text : List Char}, 0 < quotedLength (text ++ rest) →
    quotedLength (text ++ rest) ≤ text.length →
    quotedLength (text ++ rest') = quotedLength (text ++ rest)
  | [], hpos, hle => absurd hpos (Nat.not_lt_of_le hle)
  | c :: text, hpos, hle => by
      by_cases hquote : c = '"'
      · subst hquote
        rfl
      by_cases hescape : c = '\\'
      · subst hescape
        cases text with
        | nil =>
            cases rest with
            | nil => exact absurd hpos (Nat.lt_irrefl _)
            | cons d rest =>
                simp only [List.cons_append, List.nil_append, quotedLength_escaped] at hpos hle
                split at hpos
                · cases hpos
                · next hd =>
                    rw [if_neg hd] at hle
                    have hinner := of_counted hpos hle
                    exact absurd hinner.1 (Nat.not_lt_of_le hinner.2)
        | cons d text =>
            simp only [List.cons_append, quotedLength_escaped] at hpos hle ⊢
            split at hpos
            · cases hpos
            · next hd =>
                rw [if_neg hd] at hle
                have hfirst := of_counted hpos hle
                have hsecond := of_counted hfirst.1 hfirst.2
                rw [quotedLength_setOff hsecond.1 hsecond.2]
      · simp only [List.cons_append, quotedLength_cons hquote hescape] at hpos hle ⊢
        have hinner := of_counted hpos hle
        rw [quotedLength_setOff hinner.1 hinner.2]

theorem strLength_le (cs : List Char) : strLength cs ≤ cs.length := by
  unfold strLength
  split
  · next rest =>
      have hquoted := quotedLength_le rest
      rw [List.length_cons]
      split <;> omega
  · exact Nat.zero_le _

theorem strLength_cons (cs : List Char) : strLength ('"' :: cs) = counted (quotedLength cs) := by
  rw [strLength]
  cases quotedLength cs <;> rfl

theorem strLength_setOff {text : List Char} (hpos : 0 < strLength ('"' :: text ++ rest))
    (hle : strLength ('"' :: text ++ rest) ≤ ('"' :: text).length) :
    strLength ('"' :: text ++ rest') = strLength ('"' :: text ++ rest) := by
  simp only [List.cons_append, strLength_cons] at hpos hle ⊢
  have hinner := of_counted hpos hle
  rw [quotedLength_setOff hinner.1 hinner.2]

/-- A match is within the text. -/
theorem matchLength_le (cs : List Char) (k : TokenKind) : matchLength cs k ≤ cs.length := by
  cases k with
  | hex => exact settled_hexLength.le cs
  | float =>
      have htail := settled_add settled_fractionLength settled_exponentLength
      have hwhole := settled_intLength.le cs
      have hpart := htail.le (cs.drop (intLength cs))
      rw [List.length_drop, List.drop_drop] at hpart
      rw [matchLength, floatLength]
      split
      · exact Nat.zero_le _
      · dsimp only
        split <;> omega
  | int => exact settled_intLength.le cs
  | negInf => exact settled_negInf.le cs
  | str => exact strLength_le cs
  | word => exact settled_wordLength.le cs
  | colon => exact settled_colon.le cs

/-- **What is set off from a token does not change the matches** that reach no further than it.  A
text that is opened there is closed there. -/
theorem matchLength_setOff (hle : ∀ k, matchLength (text ++ rest) k ≤ text.length)
    (hquote : text.head? = some '"' → 0 < strLength (text ++ rest)) (hrest' : SetOff rest')
    (k : TokenKind) : matchLength (text ++ rest') k = matchLength (text ++ rest) k := by
  cases k with
  | hex => exact settled_hexLength.setOff (hle .hex) hrest'
  | float => exact floatLength_setOff (hle .int) (hle .float) hrest'
  | int => exact settled_intLength.setOff (hle .int) hrest'
  | negInf => exact settled_negInf.setOff (hle .negInf) hrest'
  | word => exact settled_wordLength.setOff (hle .word) hrest'
  | colon => exact settled_colon.setOff (hle .colon) hrest'
  | str =>
      cases text with
      | nil =>
          have hnone : strLength rest' = 0 := by
            cases rest' with
            | nil => rfl
            | cons c rest' =>
                exact @matchLength_of_beginning c .str
                  (decide_eq_false (hrest'.ne (by decide) (by decide))) rest'
          exact hnone.trans (Nat.le_zero.mp (hle .str)).symm
      | cons c text =>
          by_cases hc : c = '"'
          · subst hc
            exact strLength_setOff (hquote rfl) (hle .str)
          · rw [List.cons_append, List.cons_append,
              @matchLength_of_beginning c .str (decide_eq_false hc),
              @matchLength_of_beginning c .str (decide_eq_false hc)]

end Matches

section Tokens

variable {kind : TokenKind} {c : Char} {text rest : List Char} {n : Nat}

theorem le_foldl_longer {f : TokenKind → Nat} : ∀ {ks : List TokenKind} {best : TokenKind × Nat},
    best.2 ≤ ((ks.map fun k => (k, f k)).foldl longer best).2 ∧
      ∀ k ∈ ks, f k ≤ ((ks.map fun k => (k, f k)).foldl longer best).2 := by
  intro ks
  induction ks with
  | nil => exact fun {best} => ⟨Nat.le_refl _, nofun⟩
  | cons k ks ih =>
      intro best
      rw [List.map_cons, List.foldl_cons]
      have hlonger : best.2 ≤ (longer best (k, f k)).2 ∧ f k ≤ (longer best (k, f k)).2 := by
        unfold longer
        split
        · next hlt => exact ⟨Nat.le_of_lt hlt, Nat.le_refl _⟩
        · next hle => exact ⟨Nat.le_refl _, Nat.le_of_not_lt hle⟩
      obtain ⟨hbest, hks⟩ := @ih (longer best (k, f k))
      refine ⟨hlonger.1.trans hbest, fun k' hk' => ?_⟩
      rcases List.mem_cons.mp hk' with rfl | hk'
      · exact hlonger.2.trans hbest
      · exact hks k' hk'

/-- No class matches longer than the token. -/
theorem matchLength_le_of_longest? {cs : List Char} (h : longest? cs = some (kind, n))
    (k : TokenKind) : matchLength cs k ≤ n := by
  have hmem : k ∈ TokenKind.all := by cases k <;> decide
  have hle := (@le_foldl_longer (matchLength cs) TokenKind.all (.hex, 0)).2 k hmem
  rw [longest?] at h
  split at h
  · cases h
  · rwa [Option.some.inj h] at hle

theorem longest?_congr {cs cs' : List Char} (h : ∀ k, matchLength cs k = matchLength cs' k) :
    longest? cs = longest? cs' := by
  have hlengths : matchLength cs = matchLength cs' := funext h
  rw [longest?, longest?, hlengths]

/-- **A token that was found stands by itself.** -/
theorem stands_of_longest? (hblank : isBlank c = false) (hcomment : c ≠ '#')
    (h : longest? (c :: rest) = some (kind, n)) :
    (c :: rest.take (n - 1)).length = n ∧ Stands kind (c :: rest.take (n - 1)) := by
  obtain ⟨hkind, hpos⟩ := longest?_eq_some h
  have hle := hkind ▸ matchLength_le (c :: rest) kind
  have hlength : (c :: rest.take (n - 1)).length = n := by
    rw [List.length_cons] at hle ⊢
    rw [List.length_take]
    omega
  have hsplit : c :: rest.take (n - 1) ++ rest.drop (n - 1) = c :: rest := by
    rw [List.cons_append, List.take_append_drop]
  refine ⟨hlength, ⟨_, _, rfl, hblank, hcomment⟩, fun rest' hrest' => ?_⟩
  rw [hlength, ← h, ← hsplit]
  refine longest?_congr (matchLength_setOff ?_ ?_ hrest')
  · rw [hsplit, hlength]
    exact matchLength_le_of_longest? h
  · -- no other class begins with a quote
    rintro hquote
    obtain rfl : c = '"' := Option.some.inj hquote
    have hstr : kind = .str := by
      by_contra hne
      have hnone : matchLength ('"' :: rest) kind = 0 := by
        refine matchLength_of_beginning ?_ rest
        cases kind with
        | str => exact absurd rfl hne
        | _ => decide
      omega
    subst hstr
    rw [hkind] at hpos
    rwa [hsplit]

theorem Gap.setOff {gap : List Char} (h : Gap gap) (hne : gap ≠ []) (rest : List Char) :
    SetOff (gap ++ rest) := by
  cases h with
  | nil => exact absurd rfl hne
  | blank hc _ => exact Or.inl hc
  | comment _ _ _ => exact Or.inr rfl

end Tokens

section Scans

variable {start : Nat} {gap note rest : List Char} {t : Lexeme} {ts us : List Lexeme}

/-- A comment is passed over to the end of its line. -/
theorem scan_comment (hnote : '\n' ∉ note) (hrest : rest.head? = some '\n') :
    scan start ('#' :: note ++ rest) = scan (start + byteLength ('#' :: note)) rest := by
  have hrun : rest.takeWhile (· ≠ '\n') = [] := by
    cases rest with
    | nil => cases hrest
    | cons c rest =>
        obtain rfl : c = '\n' := Option.some.inj hrest
        rfl
  have htake : (note ++ rest).takeWhile (· ≠ '\n') = note := by
    refine takeWhile_append (fun c hc => ?_) hrun
    simp only [decide_eq_true_eq]
    rintro rfl
    exact hnote hc
  have hdrop : (note ++ rest).dropWhile (· ≠ '\n') = rest := by
    have hsplit := List.takeWhile_append_dropWhile (p := (· ≠ '\n')) (l := note ++ rest)
    rw [htake] at hsplit
    exact List.append_cancel_left hsplit
  rw [List.cons_append, scan, if_neg (by decide), if_pos rfl, htake, hdrop]

/-- A separator is passed over. -/
theorem scan_gap (h : Gap gap) (start : Nat) (rest : List Char) :
    scan start (gap ++ rest) = scan (start + byteLength gap) rest := by
  induction h generalizing start with
  | nil => rfl
  | blank hc _ ih =>
      rw [List.cons_append, scan_blank hc, ih, byteLength_cons, Nat.add_assoc]
  | @comment note gap hnote _ hline ih =>
      have hnext : (gap ++ rest).head? = some '\n' := by
        rw [List.head?_append, hline]
        rfl
      rw [List.append_assoc, scan_comment hnote hnext, ih, byteLength_append,
        Nat.add_assoc]

theorem Ends.blank {c : Char} {tail : List Char} (hc : isBlank c = true) (h : Ends tail) :
    Ends (c :: tail) := by
  cases h with
  | gap h => exact .gap (.blank hc h)
  | comment h hnote => exact .comment (.blank hc h) hnote

theorem Placed.blank {c : Char} (hc : isBlank c = true) (h : Placed (start + c.utf8Size) rest ts) :
    Placed start (c :: rest) ts := by
  cases h with
  | done h => exact .done (h.blank hc)
  | @token _ gap rest t ts hgap hstart hstands hrest =>
      have hwider : Gap (c :: gap) := .blank hc hgap
      refine Placed.token hwider ?_ hstands hrest
      rw [hstart, byteLength_cons, Nat.add_assoc]

/-- A comment in front of the end of its line. -/
theorem Placed.comment (hnote : '\n' ∉ note) (hline : rest.head? = some '\n')
    (h : Placed (start + byteLength ('#' :: note)) rest ts) :
    Placed start ('#' :: note ++ rest) ts := by
  cases h with
  | done h =>
      cases h with
      | gap h => exact .done (.gap (.comment hnote h hline))
      | @comment gap open' h hopen =>
          cases gap with
          | nil => cases hline
          | cons c gap =>
              rw [← List.append_assoc]
              exact .done (.comment (.comment hnote h hline) hopen)
  | @token _ gap rest t ts hgap hstart hstands hrest =>
      have hgapline : gap.head? = some '\n' := by
        cases gap with
        | cons c gap => exact hline
        | nil =>
            -- a token does not begin with the end of a line
            obtain ⟨c, cs, htext, hblank, -⟩ := hstands.begins
            rw [List.nil_append, htext] at hline
            obtain rfl : c = '\n' := Option.some.inj hline
            cases hblank
      rw [← List.append_assoc, ← List.append_assoc]
      refine Placed.token (.comment hnote hgap hgapline) ?_ hstands hrest
      rw [hstart, byteLength_append, Nat.add_assoc]

/-- What comes after a `#` is a note, and then the end of the text or of the line. -/
theorem comment_parts (rest : List Char) : ∃ note more, '\n' ∉ note ∧
    rest.takeWhile (· ≠ '\n') = note ∧ rest.dropWhile (· ≠ '\n') = more ∧
    (more = [] ∨ more.head? = some '\n') := by
  refine ⟨_, _, fun hmem => ?_, rfl, rfl, ?_⟩
  · simpa using List.mem_takeWhile_imp hmem
  · cases hline : rest.dropWhile (· ≠ '\n') with
    | nil => exact Or.inl rfl
    | cons c more =>
        have hstop := List.head_dropWhile_not (· ≠ '\n') (l := rest) (by rw [hline]; simp)
        simp only [hline, List.head_cons] at hstop
        exact Or.inr (congrArg some (by simpa using hstop))

/-- **Scanning places the tokens**: nothing is left out but blanks and comments. -/
theorem placed_scan (start : Nat) (cs : List Char) (h : (scan start cs).2 = none) :
    Placed start cs (scan start cs).1 := by
  induction start, cs using scan.induct with
  | case1 start =>
      rw [scan]
      exact .done (.gap .nil)
  | case2 start c rest hblank ih =>
      rw [scan, if_pos hblank] at h ⊢
      exact .blank hblank (ih h)
  | case3 start rest hblank ih =>
      obtain ⟨note, more, hnote, htake, hdrop, hmore⟩ := comment_parts rest
      have hsplit : rest = note ++ more := by
        rw [← htake, ← hdrop, List.takeWhile_append_dropWhile]
      rw [htake, hdrop] at ih
      rw [scan, if_neg hblank, if_pos rfl, htake, hdrop] at h ⊢
      rw [hsplit, ← List.cons_append]
      rcases hmore with rfl | hline
      · rw [List.append_nil, scan]
        have hnone : Gap [] := .nil
        exact .done (.comment hnone hnote)
      · exact .comment hnote hline (ih h)
  | case4 start c rest hblank hcomment hnone =>
      rw [scan, if_neg hblank, if_neg hcomment, hnone] at h
      cases h
  | case5 start c rest hblank hcomment kind length hsome text more fault hmore ih =>
      rw [hmore] at ih
      simp only [text] at hmore
      rw [scan, if_neg hblank, if_neg hcomment, hsome] at h ⊢
      simp only [hmore] at h ⊢
      obtain ⟨-, hstands⟩ := stands_of_longest? (eq_false_of_ne_true hblank) hcomment hsome
      have hsplit : c :: rest = [] ++ (c :: rest.take (length - 1)) ++ rest.drop (length - 1) := by
        rw [List.nil_append, List.cons_append, List.take_append_drop]
      rw [hsplit]
      exact Placed.token (t := ⟨kind, c :: rest.take (length - 1), start⟩) .nil rfl hstands (ih h)

/-- The tokens of a text come one after the other, and each stands by itself. -/
theorem Placed.spans (h : Placed start rest ts) :
    ts.Pairwise (fun t u => t.stop ≤ u.start) ∧
      ∀ t ∈ ts, start ≤ t.start ∧ t.start < t.stop ∧ t.stop ≤ start + byteLength rest ∧
        Stands t.kind t.text := by
  induction h with
  | done _ => exact ⟨.nil, nofun⟩
  | @token start gap rest t ts _ hstart hstands _ ih =>
      obtain ⟨hpairs, hspans⟩ := ih
      have hpos : 0 < byteLength t.text := by
        obtain ⟨c, cs, htext, -⟩ := hstands.begins
        exact byteLength_pos (htext ▸ List.cons_ne_nil c cs)
      have hstop : t.stop = start + byteLength gap + byteLength t.text := by
        rw [Lexeme.stop, hstart]
      refine ⟨.cons (fun u hu => (hspans u hu).1) hpairs, fun u hu => ?_⟩
      rw [byteLength_append, byteLength_append]
      rcases List.mem_cons.mp hu with rfl | hu
      · exact ⟨by omega, by omega, by omega, hstands⟩
      · obtain ⟨hfrom, hbetween, hto, hstands⟩ := hspans u hu
        exact ⟨by omega, hbetween, by omega, hstands⟩

/-- **Tokens that stand by themselves are scanned in any layout.** -/
theorem scan_joined {gaps : List (List Char)} (hstands : ∀ t ∈ ts, Stands t.kind t.text)
    (hgaps : ∀ gap ∈ gaps, Gap gap ∧ gap ≠ []) (henough : ts.length ≤ gaps.length + 1)
    (start : Nat) : ∃ us, scan start (joined (ts.map Lexeme.text) gaps) = (us, none) ∧
      us.map Lexeme.word = ts.map Lexeme.word := by
  induction ts generalizing gaps start with
  | nil => exact ⟨[], by rw [List.map_nil, joined, scan], rfl⟩
  | cons t ts ih =>
      have ht := hstands t List.mem_cons_self
      have hts := fun u hu => hstands u (List.mem_cons_of_mem _ hu)
      cases gaps with
      | nil =>
          obtain rfl : ts = [] := by
            rw [← List.length_eq_zero_iff]
            rw [List.length_cons, List.length_nil] at henough
            omega
          have hscan := scan_token ht.begins (ht.longest [] trivial) start
          rw [List.append_nil, scan] at hscan
          exact ⟨_, hscan, rfl⟩
      | cons gap gaps =>
          obtain ⟨hgap, hne⟩ := hgaps gap List.mem_cons_self
          have hrest := ht.longest _ (hgap.setOff hne (joined (ts.map Lexeme.text) gaps))
          have hscan := scan_token ht.begins hrest start
          rw [scan_gap hgap] at hscan
          obtain ⟨us, hus, hwords⟩ := ih hts (fun g hg => hgaps g (List.mem_cons_of_mem _ hg))
            (Nat.le_of_succ_le_succ henough) (start + byteLength t.text + byteLength gap)
          rw [hus] at hscan
          refine ⟨⟨t.kind, t.text, start⟩ :: us, ?_, ?_⟩
          · rw [List.map_cons, joined, List.append_assoc]
            exact hscan
          · rw [List.map_cons, List.map_cons, hwords]
            rfl

end Scans

section Parsing

/-- A token that has forgotten its place. -/
def unplaced (t : Lexeme) : Lexeme := ⟨t.kind, t.text, 0⟩

theorem readOperand_unplaced (form : OpcodeForm) (position : Nat) (t : Lexeme) :
    readOperand form position (unplaced t) = readOperand form position t := by
  cases form <;> rfl

/-- Parsing does not look at places. -/
theorem parse_unplaced : ∀ (position : Nat) (ts : List Lexeme),
    parse position (ts.map unplaced) = parse position ts
  | _, [] => rfl
  | position, [t] => by
      rw [List.map_cons, List.map_nil, parse, parse]
      rfl
  | position, t :: u :: rest => by
      have hnext := parse_unplaced (position + 1) (u :: rest)
      have hrest := parse_unplaced (position + 2) rest
      rw [List.map_cons] at hnext
      rw [List.map_cons, List.map_cons, parse, parse]
      simp only [hnext, hrest, readOperand_unplaced]
      rfl

theorem parse_congr {ts us : List Lexeme} (h : us.map Lexeme.word = ts.map Lexeme.word)
    (position : Nat) : parse position us = parse position ts := by
  have hunplaced : unplaced = (fun w => ⟨w.1, w.2, 0⟩) ∘ Lexeme.word := rfl
  rw [← parse_unplaced position us, ← parse_unplaced position ts, hunplaced, ← List.map_map, h,
    List.map_map]

theorem tokens_eq_ok {text : List Char} {ts : List Lexeme} (h : tokens text = .ok ts) :
    scan 0 text = (ts, none) := by
  rw [tokens] at h
  cases hscan : scan 0 text with
  | mk us fault =>
      rw [hscan] at h
      cases fault with
      | some byte => cases h
      | none =>
          obtain rfl := Except.ok.inj h
          rfl

end Parsing

/-- **Layout means nothing.**  The tokens of a text come one after the other, each at its place, and
outside of them are blanks and comments only.  Their texts are read again as the same tokens,
whatever separators stand between them.  And two texts with the same tokens are assembled to the
same code, or are at fault alike, at the same token. -/
theorem layout_means_nothing {text : String} {ts : List Lexeme} (h : tokens text.toList = .ok ts) :
    Placed 0 text.toList ts ∧ ts.Pairwise (fun t u => t.stop ≤ u.start) ∧
      (∀ t ∈ ts, t.start < t.stop ∧ t.stop ≤ byteLength text.toList) ∧
      (∀ lead gaps, Gap lead → (∀ gap ∈ gaps, Gap gap ∧ gap ≠ []) →
        ts.length ≤ gaps.length + 1 →
        ∃ us, tokens (lead ++ joined (ts.map Lexeme.text) gaps) = .ok us ∧
          us.map Lexeme.word = ts.map Lexeme.word) ∧
      ∀ (text' : String) (us : List Lexeme), tokens text'.toList = .ok us →
        us.map Lexeme.word = ts.map Lexeme.word → Code.ofListing text' = Code.ofListing text := by
  have hscan := tokens_eq_ok h
  have hplaced : Placed 0 text.toList ts := by
    have hplaced := placed_scan 0 text.toList (by rw [hscan])
    rwa [hscan] at hplaced
  obtain ⟨hpairs, hspans⟩ := hplaced.spans
  refine ⟨hplaced, hpairs, fun t ht => ?_, ?_, ?_⟩
  · obtain ⟨-, hbetween, hto, -⟩ := hspans t ht
    exact ⟨hbetween, by rwa [Nat.zero_add] at hto⟩
  · intro lead gaps hlead hgaps henough
    obtain ⟨us, hus, hwords⟩ := scan_joined (fun t ht => (hspans t ht).2.2.2) hgaps henough
      (0 + byteLength lead)
    refine ⟨us, ?_, hwords⟩
    rw [tokens, scan_gap hlead, hus]
  · intro text' us hus hwords
    have hassembled : assemble text'.toList = assemble text.toList := by
      simp only [assemble, h, hus, bind, Except.bind, parse_congr hwords]
    rw [Code.ofListing, Code.ofListing, hassembled]

/-- Tokens that touch, one of them a text with a blank and a `#` in it, and the same tokens on
lines of their own. -/
theorem layout_means_nothing_touching :
    (∃ ts, tokens "L1:LOAD_CONST\"a #b\"RETURN_VALUE".toList = .ok ts) ∧
      Code.ofListing "# top\nL1:\n LOAD_CONST \"a #b\"# text\nRETURN_VALUE"
        = Code.ofListing "L1:LOAD_CONST\"a #b\"RETURN_VALUE" := by
  have h : tokens "L1:LOAD_CONST\"a #b\"RETURN_VALUE".toList = .ok
      [⟨.word, ['L', '1'], 0⟩, ⟨.colon, [':'], 2⟩, ⟨.word, "LOAD_CONST".toList, 3⟩,
        ⟨.str, ['"', 'a', ' ', '#', 'b', '"'], 13⟩, ⟨.word, "RETURN_VALUE".toList, 19⟩] := by
    cbv
  have h' : tokens "# top\nL1:\n LOAD_CONST \"a #b\"# text\nRETURN_VALUE".toList = .ok
      [⟨.word, ['L', '1'], 6⟩, ⟨.colon, [':'], 8⟩, ⟨.word, "LOAD_CONST".toList, 11⟩,
        ⟨.str, ['"', 'a', ' ', '#', 'b', '"'], 22⟩, ⟨.word, "RETURN_VALUE".toList, 35⟩] := by
    cbv
  obtain ⟨-, -, -, -, hsame⟩ := layout_means_nothing h
  exact ⟨⟨_, h⟩, hsame _ _ h' rfl⟩

end Listing
end TrackedExpr
