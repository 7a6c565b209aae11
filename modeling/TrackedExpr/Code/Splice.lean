import TrackedExpr.Code.Basic

/-!
# Splicing

An insertion places instructions immediately before the instruction at an index;
the index past the last instruction appends.  Insertions at one index keep the
order in which they are given.

**Definitions.**
* `Insertion`;
* `Code.splice`: the code with insertions, or the first insertion past the end;
* `Code.splicedPositions`: where the instructions of the code end up.
-/

namespace TrackedExpr

/-- Instructions to be placed immediately before the instruction at `index`. -/
structure Insertion where
  index : Nat
  ops : List Instruction

namespace Code

/-- Weaves insertions, sorted by index, into the instructions from `index` on. -/
def weave (index : Nat) (pending : List Insertion) : List Instruction → List Instruction
  | [] => (pending.takeWhile fun i => i.index = index).flatMap Insertion.ops
  | op :: rest =>
      (pending.takeWhile fun i => i.index = index).flatMap Insertion.ops
        ++ op :: weave (index + 1) (pending.dropWhile fun i => i.index = index) rest

/-- The code with the given insertions. -/
def splice (c : Code) (insertions : List Insertion) : Except SpliceError Code :=
  match insertions.find? fun i => c.size < i.index with
  | some bad => .error (.outOfRange bad.index c.size)
  | none =>
      let sorted := insertions.mergeSort fun a b => a.index ≤ b.index
      .ok ⟨c.name, weave 0 sorted c.instructions⟩

/-- The number of instructions that insertions place at an index. -/
def addedAt (insertions : List Insertion) (index : Nat) : Nat :=
  ((insertions.filter fun i => i.index = index).flatMap fun i => i.ops).length

/-- The places of `count` instructions from `index` on, when `shift` instructions were inserted
before `index`. -/
def positionsFrom (insertions : List Insertion) : Nat → Nat → Nat → List Nat
  | 0, _, _ => []
  | count + 1, index, shift =>
      let shift := shift + addedAt insertions index
      (index + shift) :: positionsFrom insertions count (index + 1) shift

/-- Where each instruction ends up after the insertions that are in range. -/
def splicedPositions (c : Code) (insertions : List Insertion) : List Nat :=
  positionsFrom insertions c.size 0 0

end Code
end TrackedExpr
