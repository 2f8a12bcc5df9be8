import Part21.Proofs.Resolution.Lifecycle

set_option autoImplicit false

/-!
# Moments of a pass

The turns that resolution takes say at each moment which instances are in progress: those that
were at first, and those that were begun since, less those that have come to an end
(`Turn.underway`).  So a limit on how many instances are in progress at a time is a property of
turns (`Turn.Within`), and it is put together as the turns of a pass are: attempt by attempt.

What turns tell of the standings behind them is the statement of `Progress.tells_of_moves`.
-/

namespace Part21

namespace Turn

/-- The instances in progress behind a turn, the last one first. -/
def goOn (path : List Int) : Turn → List Int
  | begun id => id :: path
  | ended id _ => path.filter fun other => decide (other ≠ id)
  | refused _ _ => path

/-- The instances in progress behind some turns. -/
def underway (path : List Int) (turns : List Turn) : List Int := turns.foldl goOn path

theorem underway_append (path : List Int) (first second : List Turn) :
    underway path (first ++ second) = underway (underway path first) second :=
  List.foldl_append

theorem underway_concat (path : List Int) (turns : List Turn) (turn : Turn) :
    underway path (turns ++ [turn]) = goOn (underway path turns) turn := by
  rw [underway_append]
  rfl

/-- At no moment of the turns are more than so many instances in progress. -/
def Within (limit : Nat) : List Int → List Turn → Prop
  | path, [] => path.length ≤ limit
  | path, turn :: rest => path.length ≤ limit ∧ Within limit (goOn path turn) rest

theorem within_append {limit : Nat} {path : List Int} {first second : List Turn} :
    Within limit path (first ++ second) ↔
      Within limit path first ∧ Within limit (underway path first) second := by
  induction first generalizing path with
  | nil =>
    refine ⟨fun h => ⟨?_, h⟩, And.right⟩
    cases second with
    | nil => exact h
    | cons turn rest => exact h.1
  | cons turn rest ih =>
    rw [List.cons_append, Within, ih, Within, and_assoc]
    rfl

theorem Within.length_le {limit : Nat} {path : List Int} {before after : List Turn}
    (h : Within limit path (before ++ after)) : (underway path before).length ≤ limit := by
  have hafter := (within_append.mp h).2
  cases after with
  | nil => exact hafter
  | cons turn rest => exact hafter.1

/-- Turns that leave the same instances in progress as there were before, and keep to a limit. -/
structure Fit (limit : Nat) (path : List Int) (turns : List Turn) : Prop where
  closed : underway path turns = path
  within : Within limit path turns

namespace Fit

variable {limit : Nat} {path : List Int}

theorem nil (h : path.length ≤ limit) : Fit limit path [] := ⟨rfl, h⟩

theorem append {first second : List Turn} (hfirst : Fit limit path first)
    (hsecond : Fit limit path second) : Fit limit path (first ++ second) where
  closed := by rw [underway_append, hfirst.closed, hsecond.closed]
  within := within_append.mpr ⟨hfirst.within, hfirst.closed.symm ▸ hsecond.within⟩

/-- A whole attempt fits if there is room for another instance. -/
theorem attempt {id : Int} {turns : List Turn} (hnew : id ∉ path) (hroom : path.length < limit)
    (h : Fit limit (id :: path) turns) (ending : Ending) :
    Fit limit path (begun id :: turns ++ [ended id ending]) := by
  have hclosed : goOn (id :: path) (ended id ending) = path := by
    change (id :: path).filter (fun other => decide (other ≠ id)) = path
    rw [List.filter_cons_of_neg (by simp), List.filter_eq_self]
    intro other hmem
    exact decide_eq_true fun hid => hnew (hid ▸ hmem)
  have hunderway : underway path (begun id :: turns) = id :: path := h.closed
  refine ⟨by rw [underway_concat, hunderway, hclosed], within_append.mpr ⟨⟨?_, h.within⟩, ?_⟩⟩
  · exact Nat.le_of_lt hroom
  · rw [hunderway]
    refine ⟨hroom, ?_⟩
    rw [hclosed]
    exact Nat.le_of_lt hroom

theorem refused (h : path.length ≤ limit) (referrer id : Int) :
    Fit limit path [Turn.refused referrer id] :=
  ⟨rfl, h, h⟩

end Fit

end Turn

namespace Progress

/-- What turns tell of the standings before and behind them. -/
structure Tells (p q : Progress) (turns : List Turn) : Prop where
  history : q.history = p.history ++ turns
  /-- they say what is in progress -/
  underway {path : List Int} (hpath : ∀ id, p.standing id = .inProgress ↔ id ∈ path) :
    ∀ id, q.standing id = .inProgress ↔ id ∈ Turn.underway path turns
  /-- what is resolved was so before, or its building was completed -/
  completed {id : Int} {value : Instance} (hresolved : q.standing id = .resolved value) :
    p.standing id = .resolved value ∨ .ended id (.completed value) ∈ turns
  /-- what was begun had neither been resolved nor failed before -/
  begun {id : Int} (hbegun : .begun id ∈ turns) :
    (∀ value, p.standing id ≠ .resolved value) ∧ ∀ error, p.standing id ≠ .failed error

namespace Tells

variable {records : Population} {p q s : Progress} {turns : List Turn}

theorem refl (p : Progress) : p.Tells p [] where
  history := (List.append_nil _).symm
  underway hpath := hpath
  completed hresolved := .inl hresolved
  begun hbegun := absurd hbegun List.not_mem_nil

theorem begin (h : p.Tells q turns) (hkeeps : p.Keeps q) {id : Int}
    (hopen : q.standing id = .unvisited) : p.Tells (q.begin id) (turns ++ [.begun id]) where
  history := by rw [history_begin, h.history, List.append_assoc]
  underway hpath other := by
    rw [Turn.underway_concat, Turn.goOn, List.mem_cons, ← h.underway hpath other, standing_begin]
    split <;> rename_i hid <;> simp [hid]
  completed {other value} hresolved := by
    rw [standing_begin] at hresolved
    split at hresolved
    · cases hresolved
    · exact (h.completed hresolved).imp_right (List.mem_append_left _)
  begun {other} hbegun := by
    rcases List.mem_append.mp hbegun with hold | hnew
    · exact h.begun hold
    · cases List.mem_singleton.mp hnew
      refine ⟨fun value hvalue => ?_, fun error herror => ?_⟩
      · rw [hkeeps.resolved hvalue] at hopen
        cases hopen
      · rw [hkeeps.failed herror] at hopen
        cases hopen

theorem finish (h : p.Tells q turns) (id : Int) (ending : Ending) :
    p.Tells (q.finish id ending) (turns ++ [.ended id ending]) where
  history := by rw [history_finish, h.history, List.append_assoc]
  underway hpath other := by
    rw [Turn.underway_concat, Turn.goOn, List.mem_filter, ← h.underway hpath other, standing_finish]
    split <;> rename_i hid <;> simp [hid, ending.standing_ne_inProgress]
  completed {other value} hresolved := by
    rw [standing_finish] at hresolved
    split at hresolved
    · rename_i hid
      rw [hid, Ending.eq_completed hresolved]
      exact .inr (List.mem_append_right _ (List.mem_singleton_self _))
    · exact (h.completed hresolved).imp_right (List.mem_append_left _)
  begun hbegun := by
    rcases List.mem_append.mp hbegun with hold | hnew
    · exact h.begun hold
    · cases List.mem_singleton.mp hnew

theorem refuse (h : p.Tells q turns) (referrer id : Int) :
    p.Tells (q.note (.refused referrer id)) (turns ++ [.refused referrer id]) where
  history := by rw [note, h.history, List.append_assoc]
  underway hpath other := by
    rw [Turn.underway_concat, standing_note]
    exact h.underway hpath other
  completed hresolved := (h.completed hresolved).imp_right (List.mem_append_left _)
  begun hbegun := by
    rcases List.mem_append.mp hbegun with hold | hnew
    · exact h.begun hold
    · cases List.mem_singleton.mp hnew

end Tells

/-- Every row of moves is told by turns. -/
theorem tells_of_moves {records : Population} {p q : Progress} (h : Moves records p q) :
    ∃ turns, p.Tells q turns := by
  induction h with
  | refl => exact ⟨[], .refl p⟩
  | tail hmoves hmove ih =>
    obtain ⟨turns, htells⟩ := ih
    cases hmove with
    | begun hopen hrecord => exact ⟨_, htells.begin (.of_moves hmoves) hopen⟩
    | ended hopen hending => exact ⟨_, htells.finish _ _⟩
    | reported event =>
      exact ⟨turns, htells.history, htells.underway, htells.completed, htells.begun⟩
    | refused referrer id => exact ⟨_, htells.refuse referrer id⟩

/-- No moment of turns that keep to a limit has more instances in progress. -/
theorem length_le_of_fit {records : Population} {limit : Nat} {path : List Int} {turns : List Turn}
    (hfit : Turn.Fit limit path turns) {p m : Progress}
    (hpath : ∀ id, p.standing id = .inProgress ↔ id ∈ path) (hmoves : Moves records p m)
    (hmoment : m.history <+: p.history ++ turns) {ids : List Int} (hdistinct : ids.Nodup)
    (hopen : ∀ id ∈ ids, m.standing id = .inProgress) : ids.length ≤ limit := by
  obtain ⟨before, htells⟩ := tells_of_moves hmoves
  rw [htells.history, List.prefix_append_right_inj] at hmoment
  obtain ⟨after, rfl⟩ := hmoment
  have hsub : ids ⊆ Turn.underway path before :=
    fun id hmem => (htells.underway hpath id).mp (hopen id hmem)
  exact Nat.le_trans (hdistinct.length_le_of_subset hsub) hfit.within.length_le

end Progress

end Part21
