import Mathlib
import TrackedExpr.Execution

/-!
# Runs, turn by turn

In one turn a run executes an instruction and, if this calls a native function, has
the host answer.  Paths are runs of turns that go on.

**Definitions.**
* `JumpKind.takes`: whether a conditional jump is taken;
* `Turn`, `Host.turn`: one turn;
* `Host.visited`: the frames in which the turns of a run begin;
* `Host.Path`: turns from one frame and state to another, with the frames on the way.

**Results.**
* `Frame.execute?_jump_takes`, `Frame.execute?_jump`: all that a conditional jump can do;
* `Host.turn_goes`, `Host.turn_ends`: all that a turn can do;
* `Host.run_succ`: a run is made of turns;
* `Host.steps_run`: the steps of a run are the places of the frames visited;
* `Host.collect_goes`, `Host.collect_ends`: what is collected from the frames visited, turn by
  turn;
* `Host.Path.run`, `Host.Path.visited`: a run that follows a path.
-/

namespace TrackedExpr

universe u

/-- What a turn leads to. -/
inductive Turn (σ : Type u)
  | goes (frame : Frame) (state : σ)
  | ends (result : Except EvalError Value) (state : σ)

/-- The step that begins in a frame. -/
def Frame.here (f : Frame) : Step := ⟨f.pc, f.depth⟩

/-- Whether a conditional jump is taken for the value that it tests. -/
def JumpKind.takes (kind : JumpKind) (v : Value) : Bool :=
  match kind with
  | .always => true
  | .popIfFalse | .ifFalseOrPop => !v.isTruthy
  | .popIfTrue | .ifTrueOrPop => v.isTruthy

/-- A conditional jump jumps if it is taken, with the tested value if it keeps it, and else drops
the value and goes on. -/
theorem Frame.execute?_jump_takes {kind : JumpKind} (hkind : kind ≠ .always)
    (read : AttributeReader) (c : Code) (scope : Scope) (pc : Nat) (l : Label) (v : Value) (s : List Value) :
    ∃ kept, kept.length = ((Instruction.jump kind l).effect true).pushes ∧ (∀ w ∈ kept, w = v) ∧
      execute? read c scope pc (.jump kind l) (v :: s)
        = some (if kind.takes v then jumpTo c l (kept ++ s) else .running ⟨s, pc⟩) := by
  cases kind with
  | always => exact absurd rfl hkind
  | popIfFalse =>
      refine ⟨[], rfl, by simp, ?_⟩
      cases htruthy : v.isTruthy <;> simp [execute?, JumpKind.takes, htruthy]
  | popIfTrue =>
      refine ⟨[], rfl, by simp, ?_⟩
      cases htruthy : v.isTruthy <;> simp [execute?, JumpKind.takes, htruthy]
  | ifFalseOrPop =>
      refine ⟨[v], rfl, by simp, ?_⟩
      cases htruthy : v.isTruthy <;> simp [execute?, JumpKind.takes, htruthy]
  | ifTrueOrPop =>
      refine ⟨[v], rfl, by simp, ?_⟩
      cases htruthy : v.isTruthy <;> simp [execute?, JumpKind.takes, htruthy]

/-- A conditional jump drops the tested value and goes on, or jumps; it may keep the value then. -/
theorem Frame.execute?_jump {kind : JumpKind} (hkind : kind ≠ .always) (read : AttributeReader)
    (c : Code) (scope : Scope) (pc : Nat) (l : Label) (v : Value) (s : List Value) :
    execute? read c scope pc (.jump kind l) (v :: s) = some (.running ⟨s, pc⟩) ∨
    ∃ kept, kept.length = ((Instruction.jump kind l).effect true).pushes ∧ (∀ w ∈ kept, w = v) ∧
      execute? read c scope pc (.jump kind l) (v :: s) = some (jumpTo c l (kept ++ s)) := by
  obtain ⟨kept, hlength, hkept, hexecute⟩ := execute?_jump_takes hkind read c scope pc l v s
  split at hexecute
  · exact Or.inr ⟨kept, hlength, hkept, hexecute⟩
  · exact Or.inl hexecute

namespace Host

variable {σ : Type u} (host : Host σ) (code : Code) (scope : Scope)

/-- One turn: a step and, if it calls a native function, the answer. -/
def turn (f : Frame) (s : σ) : Turn σ :=
  match f.step (host.read s) code scope with
  | .running g => .goes g s
  | .calling call g =>
      match host.call call s with
      | (t, .ok v) => .goes (g.resume v) t
      | (t, .error e) => .ends (.error e) t
  | .finished v => .ends (.ok v) s
  | .failed e => .ends (.error e) s

section Inversion

variable {host code scope} {f g : Frame} {s t : σ}

/-- A turn that goes on is a step, or a call with its answer. -/
theorem turn_goes (h : host.turn code scope f s = .goes g t) :
    (f.step (host.read s) code scope = .running g ∧ t = s) ∨
    ∃ call k v, f.step (host.read s) code scope = .calling call k ∧
      host.call call s = (t, .ok v) ∧ g = k.resume v := by
  unfold turn at h
  cases hstep : f.step (host.read s) code scope with
  | running k =>
      rw [hstep] at h
      cases h
      exact Or.inl ⟨rfl, rfl⟩
  | calling call k =>
      simp only [hstep] at h
      cases hcall : host.call call s with
      | mk t' r =>
          rw [hcall] at h
          cases r with
          | ok v =>
              cases h
              exact Or.inr ⟨call, k, v, rfl, hcall, rfl⟩
          | error e => cases h
  | finished v => simp [hstep] at h
  | failed e => simp [hstep] at h

/-- A turn that ends a run returns, fails, or calls a function that fails. -/
theorem turn_ends {r : Except EvalError Value} (h : host.turn code scope f s = .ends r t) :
    (∃ v, f.step (host.read s) code scope = .finished v ∧ r = .ok v ∧ t = s) ∨
    (∃ e, f.step (host.read s) code scope = .failed e ∧ r = .error e ∧ t = s) ∨
    ∃ call k e, f.step (host.read s) code scope = .calling call k ∧
      host.call call s = (t, .error e) ∧ r = .error e := by
  unfold turn at h
  cases hstep : f.step (host.read s) code scope with
  | running k => simp [hstep] at h
  | finished v =>
      rw [hstep] at h
      cases h
      exact Or.inl ⟨v, rfl, rfl, rfl⟩
  | failed e =>
      rw [hstep] at h
      cases h
      exact Or.inr (Or.inl ⟨e, rfl, rfl, rfl⟩)
  | calling call k =>
      simp only [hstep] at h
      cases hcall : host.call call s with
      | mk t' r' =>
          rw [hcall] at h
          cases r' with
          | ok v => cases h
          | error e =>
              cases h
              exact Or.inr (Or.inr ⟨call, k, e, rfl, hcall, rfl⟩)

end Inversion

/-- The frames in which the turns of a run begin. -/
def visited : Nat → Frame → σ → List Frame
  | 0, _, _ => []
  | limit + 1, f, s =>
      f :: match host.turn code scope f s with
        | .goes g t => visited limit g t
        | .ends _ _ => []

theorem run_succ (limit : Nat) (f : Frame) (s : σ) :
    host.run code scope (limit + 1) f s =
      match host.turn code scope f s with
      | .goes g t => (host.run code scope limit g t).after f.here
      | .ends r t => ⟨t, some r, [f.here]⟩ := by
  rw [run, turn]
  cases f.step (host.read s) code scope with
  | running g => rfl
  | finished v => rfl
  | failed e => rfl
  | calling call g =>
      dsimp only
      obtain ⟨t, r⟩ := host.call call s
      cases r <;> rfl

theorem steps_run : ∀ (limit : Nat) (f : Frame) (s : σ),
    (host.run code scope limit f s).steps
      = (host.visited code scope limit f s).map Frame.here
  | 0, _, _ => rfl
  | limit + 1, f, s => by
      rw [run_succ, visited]
      cases host.turn code scope f s with
      | goes g t => simp [Execution.after, steps_run limit g t]
      | ends r t => rfl

section Collecting

variable {host code scope} {f g : Frame} {s t : σ} {β : Type} (q : Frame → Option β)

/-- What is collected from the frames visited, after a turn that goes on. -/
theorem collect_goes (hturn : host.turn code scope f s = .goes g t) (n : Nat) :
    (host.visited code scope (n + 1) f s).filterMap q
      = (q f).toList ++ (host.visited code scope n g t).filterMap q := by
  rw [visited, hturn, List.filterMap_cons]
  cases q f <;> rfl

theorem collect_ends {r : Except EvalError Value} (hturn : host.turn code scope f s = .ends r t)
    (n : Nat) : (host.visited code scope (n + 1) f s).filterMap q = (q f).toList := by
  rw [visited, hturn, List.filterMap_cons]
  cases q f <;> rfl

end Collecting

/-- Turns that lead from a frame and a state to others, with the frames in which they begin. -/
inductive Path : Frame → σ → List Frame → Frame → σ → Prop
  | nil (f : Frame) (s : σ) : Path f s [] f s
  | cons {f g h : Frame} {s t u : σ} {fs : List Frame} :
      host.turn code scope f s = .goes g t →
      Path g t fs h u →
      Path f s (f :: fs) h u

variable {host code scope} {f g h : Frame} {s t u : σ} {fs gs : List Frame}

theorem Path.single (hturn : host.turn code scope f s = .goes g t) :
    host.Path code scope f s [f] g t :=
  Path.cons hturn (Path.nil g t)

theorem Path.trans (hfs : host.Path code scope f s fs g t)
    (hgs : host.Path code scope g t gs h u) : host.Path code scope f s (fs ++ gs) h u := by
  induction hfs with
  | nil => exact hgs
  | cons hturn _ ih => exact Path.cons hturn (ih hgs)

/-- A run that follows a path and then goes on. -/
theorem Path.run (hpath : host.Path code scope f s fs g t) (n : Nat) :
    host.run code scope (fs.length + n) f s =
      { host.run code scope n g t with
        steps := fs.map Frame.here ++ (host.run code scope n g t).steps } := by
  induction hpath with
  | nil => simp
  | @cons f g _ s t _ fs hturn _ ih =>
      rw [List.length_cons, Nat.add_right_comm, run_succ, hturn]
      simp [ih, Execution.after]

theorem Path.visited (hpath : host.Path code scope f s fs g t) (n : Nat) :
    host.visited code scope (fs.length + n) f s = fs ++ host.visited code scope n g t := by
  induction hpath with
  | nil => simp
  | @cons f g _ s t _ fs hturn _ ih =>
      rw [List.length_cons, Nat.add_right_comm, Host.visited, hturn]
      simp [ih]

/-- A run that is cut off on a path. -/
theorem Path.cut (hpath : host.Path code scope f s fs g t) {n : Nat} (hn : n ≤ fs.length) :
    (host.run code scope n f s).outcome = none ∧
      host.visited code scope n f s = fs.take n := by
  induction hpath generalizing n with
  | nil =>
      obtain rfl : n = 0 := by simpa using hn
      exact ⟨rfl, rfl⟩
  | @cons f g _ s t _ fs hturn _ ih =>
      cases n with
      | zero => exact ⟨rfl, rfl⟩
      | succ n =>
          obtain ⟨hout, hvisited⟩ := ih (by simpa using hn)
          rw [run_succ, Host.visited, hturn]
          exact ⟨hout, by simp [hvisited]⟩

/-- A run that is not cut off is longer than the path that it follows. -/
theorem Path.exceeded (hpath : host.Path code scope f s fs g t) {m : Nat}
    {r : Except EvalError Value} (hout : (host.run code scope m f s).outcome = some r) :
    ∃ n, m = fs.length + (n + 1) := by
  rcases Nat.lt_or_ge fs.length m with hlt | hge
  · exact ⟨m - fs.length - 1, by omega⟩
  · rw [(hpath.cut hge).1] at hout
    cases hout

/-- A run that is not cut off ends with a turn, after a path. -/
theorem path_of_outcome : ∀ {n : Nat} {f : Frame} {s : σ} {r : Except EvalError Value},
    (host.run code scope n f s).outcome = some r →
      ∃ fs g t u, host.Path code scope f s fs g t ∧ host.turn code scope g t = .ends r u
  | 0, f, s, r, h => by simp [Host.run] at h
  | n + 1, f, s, r, h => by
      rw [run_succ] at h
      cases hturn : host.turn code scope f s with
      | goes g t =>
          rw [hturn] at h
          obtain ⟨fs, k, v, w, hpath, hends⟩ := path_of_outcome (n := n) h
          exact ⟨f :: fs, k, v, w, Path.cons hturn hpath, hends⟩
      | ends r' t =>
          rw [hturn] at h
          obtain rfl : r' = r := by simpa using h
          exact ⟨[], f, s, t, Path.nil f s, hturn⟩

end Host
end TrackedExpr
