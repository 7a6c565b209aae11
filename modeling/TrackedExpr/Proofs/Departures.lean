import TrackedExpr.Proofs.Snapshots

/-!
# Observers whose guard was dropped

The account of what happens at a place where observers are kept is laid out in time: dispatches
begin, deeper ones in the turns of shallower ones, and let go of each of their observers after its
turn.  Dropping a guard does not reach the dispatches that are in progress.  An observer can have a
turn after its guard was dropped, but then a dispatch that began before still holds on to it; and
once no dispatch is in progress, those whose guard was dropped have had their last turn.

**Definitions.**
* `Beat`, `timeline`: an account laid out in time;
* `Held`: a dispatch that began under the guard of a subscription has yet to let go of it;
* `AllHeld`: every turn is of a subscription that is held;
* `Immediate`: no turn comes after its guard was dropped.

**Results.**
* `Held.later`: what does not make a dispatch let go;
* `Deed.allHeld`, `allHeld_turnTimeline`, `allHeld_timeline`: deeds, turns and accounts;
* `turn_only_while_held`: who has a turn;
* `turn_after_drop`: a turn that comes after its guard was dropped.
-/

namespace TrackedExpr
namespace Session

section Timelines

/-- What happens at a place: a move, the beginning of a dispatch that collects some subscriptions,
the turn of one of these, and its end, when the dispatch lets go of it. -/
inductive Beat
  | move (m : Move)
  | begun (depth : Nat) (collected : List Nat)
  | turn (depth : Nat) (s : Nat)
  | over (depth : Nat) (s : Nat)

def Beat.move? : Beat → Option Move
  | .move m => some m
  | _ => none

/-- The moves of a timeline. -/
def movesIn (beats : List Beat) : List Move := beats.filterMap Beat.move?

/-- The subscriptions whose observers have turns. -/
def collected (turns : List (Observer Reaction × List Deed)) : List Nat :=
  turns.map fun turn => turn.1.subscription

mutual

/-- A deed laid out in time, in the turns of `depth` dispatches. -/
def Deed.timeline (depth : Nat) : Deed → List Beat
  | .move m => [.move m]
  | .dispatched _ turns => .begun depth (collected turns) :: turnTimeline depth turns

def turnTimeline (depth : Nat) : List (Observer Reaction × List Deed) → List Beat
  | [] => []
  | (ob, ds) :: rest =>
      .turn depth ob.subscription :: timeline (depth + 1) ds
        ++ .over depth ob.subscription :: turnTimeline depth rest

def timeline (depth : Nat) : List Deed → List Beat
  | [] => []
  | d :: ds => d.timeline depth ++ timeline depth ds

end

/-- A dispatch at less than `depth` began when the guard of a subscription was in place, collected
it, and has yet to let go of it.  `start` tells of the moves before the timeline. -/
def Held (start : List Move) (past : List Beat) (depth s : Nat) : Prop :=
  ∃ before since j ss, past = before ++ .begun j ss :: since ∧ j < depth ∧ s ∈ ss ∧
    s ∉ leavers (start ++ movesIn before) ∧ .over j s ∉ since

/-- Every turn that comes after some past is of a subscription that is held. -/
def AllHeld (start : List Move) : List Beat → List Beat → Prop
  | _, [] => True
  | past, beat :: later =>
      (∀ k s, beat = .turn k s → Held start past (k + 1) s) ∧ AllHeld start (past ++ [beat]) later

end Timelines

section Layout

@[simp] theorem movesIn_nil : movesIn [] = [] := rfl

@[simp] theorem movesIn_cons (beat : Beat) (beats : List Beat) :
    movesIn (beat :: beats) = beat.move?.toList ++ movesIn beats := by
  rw [movesIn, List.filterMap_cons]
  cases beat.move? <;> rfl

@[simp] theorem movesIn_append (xs ys : List Beat) :
    movesIn (xs ++ ys) = movesIn xs ++ movesIn ys :=
  List.filterMap_append

mutual

theorem Deed.movesIn_timeline (depth : Nat) : ∀ d : Deed, movesIn (d.timeline depth) = d.moves
  | .move _ => rfl
  | .dispatched _ turns => movesIn_turnTimeline depth turns

theorem movesIn_turnTimeline (depth : Nat) : ∀ turns : List (Observer Reaction × List Deed),
    movesIn (turnTimeline depth turns) = turnMoves turns
  | [] => rfl
  | (ob, ds) :: rest => by
      rw [turnTimeline, movesIn_append, turnMoves]
      exact congrArg₂ _ (movesIn_timeline (depth + 1) ds) (movesIn_turnTimeline depth rest)

/-- The moves are those of the account. -/
theorem movesIn_timeline (depth : Nat) : ∀ ds : List Deed,
    movesIn (timeline depth ds) = movesOf ds
  | [] => rfl
  | d :: ds => by
      rw [timeline, movesIn_append, movesOf, d.movesIn_timeline, movesIn_timeline depth ds]

end

mutual

theorem Deed.depth_le_of_over {depth j s : Nat} : ∀ {d : Deed}, .over j s ∈ d.timeline depth →
    depth ≤ j
  | .move _, h => by simp [Deed.timeline] at h
  | .dispatched _ turns, h => by
      rw [Deed.timeline, List.mem_cons] at h
      exact depth_le_of_over_turns (h.resolve_left nofun)

theorem depth_le_of_over_turns {depth j s : Nat} :
    ∀ {turns : List (Observer Reaction × List Deed)}, .over j s ∈ turnTimeline depth turns →
      depth ≤ j
  | (ob, ds) :: rest, h => by
      rw [turnTimeline, List.cons_append, List.mem_cons, List.mem_append, List.mem_cons] at h
      rcases h.resolve_left nofun with hown | hover | hrest
      · exact Nat.le_of_succ_le (depth_le_of_over hown)
      · exact Nat.le_of_eq (Beat.over.inj hover).1.symm
      · exact depth_le_of_over_turns hrest

/-- Only dispatches of an account let go in it. -/
theorem depth_le_of_over {depth j s : Nat} : ∀ {ds : List Deed}, .over j s ∈ timeline depth ds →
    depth ≤ j
  | d :: ds, h => by
      rw [timeline, List.mem_append] at h
      exact h.elim Deed.depth_le_of_over depth_le_of_over

end

end Layout

section Holding

variable {start : List Move} {past xs ys : List Beat} {depth depth' s k : Nat}

/-- A dispatch that begins collects a subscription whose guard is in place. -/
theorem held_begun {ss : List Nat} (hs : s ∈ ss) (hguarded : s ∉ leavers (start ++ movesIn past)) :
    Held start (past ++ [.begun depth ss]) (depth + 1) s :=
  ⟨past, [], depth, ss, rfl, Nat.lt_succ_self _, hs, hguarded, List.not_mem_nil⟩

theorem Held.mono (h : Held start past depth s) (hle : depth ≤ depth') :
    Held start past depth' s := by
  obtain ⟨before, since, j, ss, hpast, hj, hs, hguarded, hover⟩ := h
  exact ⟨before, since, j, ss, hpast, Nat.lt_of_lt_of_le hj hle, hs, hguarded, hover⟩

/-- Nothing but the end of its turn makes a dispatch let go of a subscription. -/
theorem Held.later (h : Held start past depth s) (hkept : ∀ j < depth, .over j s ∉ xs) :
    Held start (past ++ xs) depth s := by
  obtain ⟨before, since, j, ss, rfl, hj, hs, hguarded, hover⟩ := h
  refine ⟨before, since ++ xs, j, ss, by simp, hj, hs, hguarded, ?_⟩
  rw [List.mem_append, not_or]
  exact ⟨hover, hkept j hj⟩

/-- The turn of an observer makes only its own dispatch let go, and only of its subscription. -/
theorem Held.after_turn {ob : Observer Reaction} {ds : List Deed} (h : Held start past k s)
    (hk : k ≤ depth ∨ k ≤ depth + 1 ∧ s ≠ ob.subscription) :
    Held start (past ++ (.turn depth ob.subscription :: timeline (depth + 1) ds)
      ++ [.over depth ob.subscription]) k s := by
  have hle : k ≤ depth + 1 := hk.elim (fun hle => Nat.le_succ_of_le hle) And.left
  refine (h.later fun j hj hover => ?_).later fun j hj hover => ?_
  · rw [List.mem_cons] at hover
    have hdeep := depth_le_of_over (hover.resolve_left nofun)
    exact Nat.not_lt_of_le (Nat.le_trans hle hdeep) hj
  · obtain ⟨rfl, rfl⟩ := Beat.over.inj (List.mem_singleton.mp hover)
    exact hk.elim (fun hle => Nat.not_lt_of_le hle hj) fun hother => hother.2 rfl

theorem allHeld_append : AllHeld start past (xs ++ ys) ↔
    AllHeld start past xs ∧ AllHeld start (past ++ xs) ys := by
  induction xs generalizing past with
  | nil => simp [AllHeld]
  | cons x xs ih => simp [AllHeld, ih, and_assoc]

theorem AllHeld.held (h : AllHeld start past (xs ++ .turn k s :: ys)) :
    Held start (past ++ xs) (k + 1) s :=
  (allHeld_append.mp h).2.1 k s rfl

end Holding

section Accounts

variable {start : List Move} {past : List Beat} {flying : List Nat} {depth : Nat}

/-- The observers of a history have different subscriptions. -/
def Distinct (h : List Move) : Prop := ((joined h).map Observer.subscription).Nodup

theorem Distinct.of_append {h h' : List Move} (hdistinct : Distinct (h ++ h')) : Distinct h := by
  rw [Distinct, joined_append, List.map_append] at hdistinct
  exact hdistinct.of_append_left

theorem guarded_or_flying {h : List Move} {attr : String} {ob : Observer Reaction}
    (hob : ob ∈ roster h flying attr) :
    ob.subscription ∉ leavers h ∨ ob.subscription ∈ flying := by
  have hpresent : ob ∈ present h flying := List.mem_of_mem_filter hob
  rw [present, List.mem_filter, decide_eq_true_iff] at hpresent
  exact hpresent.2

theorem Distinct.roster {h : List Move} (hdistinct : Distinct h) (flying : List Nat)
    (attr : String) : ((roster h flying attr).map Observer.subscription).Nodup :=
  hdistinct.sublist ((List.filter_sublist.trans List.filter_sublist).map _)

mutual

/-- A dispatch collects what is guarded, and what the dispatches around it hold on to anyway. -/
theorem Deed.allHeld : ∀ (d : Deed) {past : List Beat} {flying : List Nat} {depth : Nat},
    d.Faithful (start ++ movesIn past) flying → Distinct (start ++ movesIn past ++ d.moves) →
    (∀ s ∈ flying, Held start past depth s) → AllHeld start past (d.timeline depth)
  | .move m, past, flying, depth, _, _, _ => ⟨nofun, trivial⟩
  | .dispatched change turns, past, flying, depth, hfaithful, hdistinct, hflying => by
      obtain ⟨hroster, hturns⟩ := hfaithful
      have hcollected : collected turns
          = (roster (start ++ movesIn past) flying change.attr).map Observer.subscription := by
        rw [← hroster, List.map_map]
        rfl
      have hmoves : movesIn (past ++ [.begun depth (collected turns)]) = movesIn past := by
        simp [Beat.move?]
      have hkept : ∀ s ∈ flying, Held start (past ++ [.begun depth (collected turns)]) depth s :=
        fun s hs => (hflying s hs).later (by simp)
      refine ⟨nofun, ?_⟩
      refine allHeld_turnTimeline turns (by rwa [hmoves]) (by rwa [hmoves]) ?_ ?_ hkept
      · rw [hcollected]
        exact hdistinct.of_append.roster flying change.attr
      · intro s hs
        have hmem := hs
        rw [hcollected] at hmem
        obtain ⟨ob, hob, rfl⟩ := List.mem_map.mp hmem
        rcases guarded_or_flying hob with hguarded | hflies
        · exact held_begun hs hguarded
        · exact (hkept _ hflies).mono (Nat.le_succ _)

/-- A turn ends what its dispatch holds of its own subscription only, and no other has the same. -/
theorem allHeld_turnTimeline : ∀ (turns : List (Observer Reaction × List Deed))
    {past : List Beat} {flying : List Nat} {depth : Nat},
    FaithfulTurns turns (start ++ movesIn past) flying →
    Distinct (start ++ movesIn past ++ turnMoves turns) → (collected turns).Nodup →
    (∀ s ∈ collected turns, Held start past (depth + 1) s) →
    (∀ s ∈ flying, Held start past depth s) → AllHeld start past (turnTimeline depth turns)
  | [], _, _, _, _, _, _, _, _ => trivial
  | (ob, ds) :: rest, past, flying, depth, hfaithful, hdistinct, hnodup, hcollected, hflying => by
      obtain ⟨hown, hrest⟩ := hfaithful
      rw [turnMoves, ← List.append_assoc] at hdistinct
      rw [collected, List.map_cons, List.nodup_cons] at hnodup
      have hbegun : movesIn (past ++ [.turn depth ob.subscription]) = movesIn past := by
        simp [Beat.move?]
      have hdone : movesIn (past ++ (.turn depth ob.subscription :: timeline (depth + 1) ds)
          ++ [.over depth ob.subscription]) = movesIn past ++ movesOf ds := by
        simp [movesIn_timeline, Beat.move?]
      have hkept : ∀ s ∈ flying, Held start (past ++ (.turn depth ob.subscription ::
          timeline (depth + 1) ds) ++ [.over depth ob.subscription]) depth s :=
        fun s hs => (hflying s hs).after_turn (Or.inl (Nat.le_refl _))
      refine allHeld_append.mpr ⟨⟨?_, ?_⟩, nofun, ?_⟩
      · rintro k s hturn
        obtain ⟨rfl, rfl⟩ := Beat.turn.inj hturn
        exact hcollected _ List.mem_cons_self
      · refine allHeld_timeline ds (by rwa [hbegun]) (by rw [hbegun]; exact hdistinct.of_append) ?_
        -- in the turn the dispatch itself is around what is done
        intro s hs
        refine Held.later ?_ (by simp)
        rcases List.mem_append.mp hs with hs | hs
        · exact hcollected s hs
        · exact (hflying s hs).mono (Nat.le_succ _)
      · refine allHeld_turnTimeline rest ?_ ?_ hnodup.2 (fun s hs => ?_) hkept
        · rwa [hdone, ← List.append_assoc]
        · rwa [hdone, ← List.append_assoc]
        · refine (hcollected s (List.mem_cons_of_mem _ hs)).after_turn
            (Or.inr ⟨Nat.le_refl _, ?_⟩)
          rintro rfl
          exact hnodup.1 hs

theorem allHeld_timeline : ∀ (ds : List Deed) {past : List Beat} {flying : List Nat} {depth : Nat},
    Faithful ds (start ++ movesIn past) flying → Distinct (start ++ movesIn past ++ movesOf ds) →
    (∀ s ∈ flying, Held start past depth s) → AllHeld start past (timeline depth ds)
  | [], _, _, _, _, _, _ => trivial
  | d :: ds, past, flying, depth, hfaithful, hdistinct, hflying => by
      rw [movesOf, ← List.append_assoc] at hdistinct
      have hmoves : movesIn (past ++ d.timeline depth) = movesIn past ++ d.moves := by
        rw [movesIn_append, d.movesIn_timeline]
      have hkept : ∀ s ∈ flying, Held start (past ++ d.timeline depth) depth s :=
        fun s hs => (hflying s hs).later fun j hj hover =>
          Nat.not_lt_of_le (Deed.depth_le_of_over hover) hj
      refine allHeld_append.mpr ⟨d.allHeld hfaithful.1 hdistinct.of_append hflying, ?_⟩
      refine allHeld_timeline ds ?_ ?_ hkept
      · rw [hmoves, ← List.append_assoc]
        exact hfaithful.2
      · rwa [hmoves, ← List.append_assoc]

end

/-- An account that begins while no dispatch is in progress. -/
theorem allHeld_of_faithful {ds : List Deed} (hfaithful : Faithful ds start [])
    (hdistinct : Distinct (start ++ movesOf ds)) : AllHeld start [] (timeline 0 ds) := by
  have hidle : ∀ s ∈ ([] : List Nat), Held start [] 0 s := nofun
  refine allHeld_timeline ds ?_ ?_ hidle
  · rwa [movesIn_nil, List.append_nil]
  · rwa [movesIn_nil, List.append_nil]

end Accounts

section Results

variable {source : Source} {w₀ : Session}

/-- Dropping a guard takes effect at once: no turn of its observer comes after it. -/
def Immediate (start : List Move) (beats : List Beat) : Prop :=
  ∀ past k s later, beats = past ++ .turn k s :: later → s ∉ leavers (start ++ movesIn past)

/-- **Who has a turn.**  Take a place where observers are kept, in a session in which no dispatch is
in progress, and let anything be done there, to any depth.  Whenever an observer has a turn, a
dispatch that began when its guard was in place has yet to let go of it: it is the dispatch of the
turn, or the turn is within one of its turns.  So an observer whose guard was dropped while no
dispatch was in progress has no turn afterwards, in whatever is done later.  Scripts that work on an
observer list are done so. -/
theorem turn_only_while_held (hw₀ : Enrolled source w₀) (hidle : w₀.inFlight = []) :
    (∀ {w ds}, Tends source w₀ w ds →
      (∀ past k s later, timeline 0 ds = past ++ .turn k s :: later →
        Held (w₀.annals source) past (k + 1) s) ∧
      ∀ first second, ds = first ++ second → ∀ s ∈ leavers (w₀.annals source ++ movesOf first),
        ∀ k, .turn k s ∉ timeline 0 second) ∧
    ∀ {id l actions} depth, source = .list l → Listed id l w₀ → (∀ c ∈ actions, AtList id c) →
      Tends source w₀ (w₀.runActions (enter depth) actions)
        (scriptDeeds l (enter depth) (turnDeeds l depth) actions w₀) := by
  refine ⟨fun {w ds} hdone => ?_, ?_⟩
  · have htracks := hdone.tracks
    have hdistinct : Distinct (w₀.annals source ++ movesOf ds) := (htracks.roll hw₀.roll).distinct
    have hfaithful := htracks.faithful hw₀.roll
    rw [hidle] at hfaithful
    refine ⟨?_, ?_⟩
    · intro past k s later hbeats
      have hall := allHeld_of_faithful hfaithful hdistinct
      rw [hbeats] at hall
      exact hall.held
    · rintro first second rfl s hdropped k hturn
      rw [movesOf_append, ← List.append_assoc] at hdistinct
      obtain ⟨past, later, hbeats⟩ := List.append_of_mem hturn
      have hall := allHeld_of_faithful (faithful_append.mp hfaithful).2 hdistinct
      rw [hbeats] at hall
      -- the dispatch that holds on to it would have begun after its guard was dropped
      obtain ⟨before, since, j, ss, -, -, -, hguarded, -⟩ := hall.held
      refine hguarded ?_
      rw [leavers_append]
      exact List.mem_append_left _ hdropped
  · rintro id l actions depth rfl hlisted hactions
    exact (chronicled_runActions (manages_enter id l depth) hlisted hactions).tends

theorem atList_stageScript : ∀ c ∈ stageScript, AtList "l" c := by
  intro c hc
  obtain rfl := List.mem_singleton.mp hc
  exact AtList.dispatch

/-- On the stage the second observer has its turn after its guard was dropped in the first turn. -/
theorem turn_after_drop :
    Tends (.list 0) stageSession (stageSession.runActions (enter 2) stageScript) stageDeeds ∧
      ¬ Immediate (stageSession.annals (.list 0)) (timeline 0 stageDeeds) := by
  refine ⟨?_, fun himmediate => ?_⟩
  · have hdone := chronicled_runActions (manages_enter "l" 0 2) listed_stageSession
      atList_stageScript
    rw [scriptDeeds_stageScript] at hdone
    exact hdone.tends
  · refine himmediate ((timeline 0 stageDeeds).take 8) 0 1 [.over 0 1] rfl ?_
    decide

/-- Its turn is held by the dispatch that collected it with the first. -/
theorem turn_only_while_held_stage :
    Held (stageSession.annals (.list 0)) ((timeline 0 stageDeeds).take 8) 1 1 := by
  have henrolled : Enrolled (.list 0) stageSession := by constructor <;> decide
  obtain ⟨hdone, hscripts⟩ := turn_only_while_held henrolled rfl
  have htends := hscripts 2 rfl listed_stageSession atList_stageScript
  rw [scriptDeeds_stageScript] at htends
  exact (hdone htends).1 _ 0 1 [.over 0 1] rfl

end Results

end Session
end TrackedExpr
