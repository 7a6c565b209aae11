import TrackedExpr.Assoc
import TrackedExpr.Code.Basic

/-!
# Stack profile

The stack height on entry to every instruction that control can reach, found by
following the control flow from an empty stack at the first instruction.

**Definitions.**
* `StackProfile`, `StackProfile.depthAt?`;
* `Code.stackProfile`: every join agrees on the height, nothing pops more than is
  there, every jump has its label, and no path runs past the end.
-/

namespace TrackedExpr

/-- Heights on entry (none for an unreachable instruction) and the greatest height. -/
structure StackProfile where
  entryDepths : List (Option Nat)
  maxDepth : Nat
deriving DecidableEq, Repr

/-- The height on entry to an instruction; the index past the end is never reached. -/
def StackProfile.depthAt? (p : StackProfile) (index : Nat) : Option Nat :=
  p.entryDepths[index]?.join

namespace Code

/-- The height after an instruction entered at `depth`. -/
def depthAfter (index : Nat) (op : Instruction) (depth : Nat) (taken : Bool) :
    Except StackError Nat :=
  let e := op.effect taken
  if depth < e.pops then .error (.underflow index op.opname depth e.pops)
  else .ok (depth - e.pops + e.pushes)

/-- The edge that an instruction's jump adds, if it has one. -/
def jumpEdge (labels : List (Label × Nat)) (index : Nat) (op : Instruction) (depth : Nat) :
    Except StackError (List (Nat × Nat)) :=
  match op.target? with
  | none => .ok []
  | some l =>
      match Assoc.get? l labels with
      | none => .error (.undefinedLabel l)
      | some target => (depthAfter index op depth true).map fun after => [(target, after)]

/-- The edge to the next instruction, if control can go on to it. -/
def fallEdge (index : Nat) (op : Instruction) (after : Nat) : List (Nat × Nat) :=
  if op.isTerminal then [] else [(index + 1, after)]

/-- What an instruction entered at `depth` leads to: the edges, the next instruction first, and
the greatest height it sees. -/
def edges (labels : List (Label × Nat)) (index : Nat) (op : Instruction) (depth : Nat) :
    Except StackError (List (Nat × Nat) × Nat) :=
  match jumpEdge labels index op depth with
  | .error e => .error e
  | .ok jumps =>
      match depthAfter index op depth false with
      | .error e => .error e
      | .ok after =>
          .ok (fallEdge index op after ++ jumps,
            max (max after depth) ((jumps.map Prod.snd).foldl max 0))

/-- Fewer entries are open once one of them is filled. -/
theorem open_set_lt {d : Nat} : ∀ {depths : List (Option Nat)} {i : Nat},
    depths[i]? = some none →
      ((depths.set i (some d)).filter Option.isNone).length
        < (depths.filter Option.isNone).length
  | [], i, h => by simp at h
  | o :: rest, 0, h => by
      simp only [List.getElem?_cons_zero, Option.some.injEq] at h
      subst h
      simp
  | o :: rest, i + 1, h => by
      have ih := @open_set_lt d rest i (by simpa using h)
      cases o <;> simpa using ih

/-- Follows the control flow from the edges still to be looked at, the last one found first. -/
def explore (ops : List Instruction) (labels : List (Label × Nat))
    (depths : List (Option Nat)) (maxDepth : Nat) :
    List (Nat × Nat) → Except StackError StackProfile
  | [] => .ok ⟨depths, maxDepth⟩
  | (index, depth) :: work =>
      match _h : depths[index]? with
      | none => .error .fallsOffEnd
      | some (some seen) =>
          if seen = depth then explore ops labels depths maxDepth work
          else .error (.inconsistent index seen depth)
      | some none =>
          match ops[index]? with
          | none => .error .fallsOffEnd
          | some op =>
              match edges labels index op depth with
              | .error e => .error e
              | .ok (found, height) =>
                  explore ops labels (depths.set index (some depth)) (max maxDepth height)
                    (found ++ work)
termination_by work => ((depths.filter Option.isNone).length, work.length)
decreasing_by
  · simp_wf
    exact Prod.Lex.right _ (by omega)
  · exact Prod.Lex.left _ _ (open_set_lt _h)

/-- The stack profile, or the first fault met. -/
def stackProfile (c : Code) : Except StackError StackProfile :=
  match c.labelTable with
  | .error e => .error e
  | .ok labels =>
      explore c.instructions labels (c.instructions.map fun _ => none) 0 [(0, 0)]

end Code
end TrackedExpr
