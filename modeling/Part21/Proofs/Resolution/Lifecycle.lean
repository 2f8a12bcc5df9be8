import Mathlib.Logic.Relation
import Part21.Proofs.Resolution.Session

set_option autoImplicit false

/-!
# The lifecycle of instances

An instance is unvisited, then in progress, then resolved or failed.  Resolution
moves it on in four kinds of steps (`Move`): an attempt begins at an unvisited
instance that has a record, an attempt ends that is in progress, an event is
reported, a reference is refused.  Nothing else ever happens to a progress, whatever
the holders and factories do: they only choose which steps come next
(`Basis.enter_advances`).  A holder is told all turns so far, so it may do something else
each time.

So each property of the lifecycle is a property of single moves.  The main statement
is `Table.lifecycle`: between two requests of a session nothing is in progress, what
was resolved or failed stays as it is, failures are attributed to their instance and
never to the depth of references, and an instance is attempted again only after
attempts that were given up.
-/

namespace Part21

/-! ## Attempts -/

namespace Ending

/-- The attempt was given up: it leaves its instance as if it had never been begun. -/
def isGivenUp : Ending → Bool
  | tooDeep _ | calledOff _ => true
  | completed _ | failed _ => false

/-- A failure by which an attempt at an instance ends is attributed to the instance,
and is no matter of depth. -/
def IsAttributedTo (id : Int) : Ending → Prop
  | failed error =>
    error.reason.isTooDeep = false ∧ error.id = some id ∧ error.chain.head? = some id
  | _ => True

end Ending

namespace Turn

/-- What a turn changes about the attempts at an instance: a beginning opens another
one, an end closes the last one. -/
def recordAt (id : Int) (attempts : List (Option Ending)) : Turn → List (Option Ending)
  | begun other => if other = id then attempts ++ [none] else attempts
  | ended other ending => if other = id then attempts.dropLast ++ [some ending] else attempts
  | refused _ _ => attempts

/-- The attempts at an instance, the first one first, each with its ending if it has
come to one. -/
def attemptsAt (id : Int) (history : List Turn) : List (Option Ending) :=
  history.foldl (recordAt id) []

theorem attemptsAt_append_singleton (id : Int) (history : List Turn) (turn : Turn) :
    attemptsAt id (history ++ [turn]) = recordAt id (attemptsAt id history) turn := by
  simp [attemptsAt, List.foldl_append]

/-- All attempts have come to an end and were given up. -/
def GivenUp (attempts : List (Option Ending)) : Prop :=
  ∀ attempt ∈ attempts, ∃ ending, attempt = some ending ∧ ending.isGivenUp = true

theorem givenUp_append_singleton {attempts : List (Option Ending)} {ending : Ending}
    (h : GivenUp attempts) (hending : ending.isGivenUp = true) :
    GivenUp (attempts ++ [some ending]) := by
  intro attempt hmem
  rcases List.mem_append.mp hmem with hold | hnew
  · exact h attempt hold
  · exact ⟨ending, List.mem_singleton.mp hnew, hending⟩

/-- Every attempt at an instance was begun after earlier ones that were given up. -/
def RestartsGivenUp (history : List Turn) : Prop :=
  ∀ (id : Int) (before after : List Turn), history = before ++ begun id :: after →
    GivenUp (attemptsAt id before)

theorem restartsGivenUp_nil : RestartsGivenUp [] := by
  intro id before after h
  cases before <;> cases h

theorem restartsGivenUp_append_singleton {history : List Turn} {turn : Turn}
    (h : RestartsGivenUp history)
    (hbegun : ∀ id, turn = begun id → GivenUp (attemptsAt id history)) :
    RestartsGivenUp (history ++ [turn]) := by
  intro id before after heq
  -- The beginning in question is either the new turn or one of the old ones.
  rcases List.eq_nil_or_concat after with rfl | ⟨init, last, rfl⟩
  · obtain ⟨rfl, hlast⟩ := List.append_inj' heq rfl
    exact hbegun id (List.cons.inj hlast).1
  · rw [List.concat_eq_append, ← List.cons_append, ← List.append_assoc] at heq
    exact h id before init (List.append_inj' heq rfl).1

end Turn

namespace Standing

/-- A standing is what the attempts at an instance make of it: the last one is open or
has come to the end that is kept, or there is none but those that were given up. -/
def Accounts (attempts : List (Option Ending)) : Standing → Prop
  | unvisited => Turn.GivenUp attempts
  | inProgress => ∃ earlier, attempts = earlier ++ [none] ∧ Turn.GivenUp earlier
  | resolved value =>
    ∃ earlier, attempts = earlier ++ [some (.completed value)] ∧ Turn.GivenUp earlier
  | failed error =>
    ∃ earlier, attempts = earlier ++ [some (.failed error)] ∧ Turn.GivenUp earlier

theorem accounts_of_ending {earlier : List (Option Ending)} (h : Turn.GivenUp earlier)
    (ending : Ending) : ending.standing.Accounts (earlier ++ [some ending]) := by
  cases ending with
  | completed value => exact ⟨earlier, rfl, h⟩
  | failed error => exact ⟨earlier, rfl, h⟩
  | tooDeep error => exact Turn.givenUp_append_singleton h rfl
  | calledOff message => exact Turn.givenUp_append_singleton h rfl

end Standing

namespace Progress

/-! ## Standings behind a step -/

@[simp] theorem standing_note (p : Progress) (turn : Turn) :
    (p.note turn).standing = p.standing := rfl

theorem standing_begin (p : Progress) (id other : Int) :
    (p.begin id).standing other = if other = id then .inProgress else p.standing other := rfl

theorem standing_finish (p : Progress) (id : Int) (ending : Ending) (other : Int) :
    (p.finish id ending).standing other =
      if other = id then ending.standing else p.standing other := rfl

@[simp] theorem standing_begin_self (p : Progress) (id : Int) :
    (p.begin id).standing id = .inProgress := if_pos rfl

@[simp] theorem standing_finish_self (p : Progress) (id : Int) (ending : Ending) :
    (p.finish id ending).standing id = ending.standing := if_pos rfl

theorem standing_begin_other (p : Progress) {id other : Int} (h : other ≠ id) :
    (p.begin id).standing other = p.standing other := if_neg h

theorem standing_finish_other (p : Progress) {id other : Int} (ending : Ending)
    (h : other ≠ id) : (p.finish id ending).standing other = p.standing other := if_neg h

@[simp] theorem history_begin (p : Progress) (id : Int) :
    (p.begin id).history = p.history ++ [.begun id] := rfl

@[simp] theorem history_finish (p : Progress) (id : Int) (ending : Ending) :
    (p.finish id ending).history = p.history ++ [.ended id ending] := rfl

end Progress

theorem Ending.standing_ne_inProgress (ending : Ending) : ending.standing ≠ .inProgress := by
  cases ending <;> simp [Ending.standing]

theorem Ending.eq_completed {ending : Ending} {value : Instance}
    (h : ending.standing = .resolved value) : ending = .completed value := by
  cases ending <;> cases h
  rfl

theorem Ending.eq_failed {ending : Ending} {error : ResolutionError}
    (h : ending.standing = .failed error) : ending = .failed error := by
  cases ending <;> cases h
  rfl

/-! ## Moves -/

/-- One step of resolution over a population. -/
inductive Move (records : Population) : Progress → Progress → Prop where
  | begun {p : Progress} {id : Int} (hopen : p.standing id = .unvisited)
      (hrecord : records.contains id = true) : Move records p (p.begin id)
  | ended {p : Progress} {id : Int} {ending : Ending} (hopen : p.standing id = .inProgress)
      (hending : ending.IsAttributedTo id) : Move records p (p.finish id ending)
  | reported {p : Progress} (event : Event) : Move records p (p.report event)
  | refused {p : Progress} (referrer id : Int) : Move records p (p.note (.refused referrer id))

/-- Any number of steps of resolution. -/
abbrev Moves (records : Population) : Progress → Progress → Prop :=
  Relation.ReflTransGen (Move records)

namespace Progress

/-- What was found out of an instance for good stays as it is. -/
structure Keeps (p q : Progress) : Prop where
  resolved : ∀ {id value}, p.standing id = .resolved value → q.standing id = .resolved value
  failed : ∀ {id error}, p.standing id = .failed error → q.standing id = .failed error

theorem Keeps.refl (p : Progress) : p.Keeps p := ⟨fun h => h, fun h => h⟩

theorem Keeps.trans {p q r : Progress} (first : p.Keeps q) (second : q.Keeps r) : p.Keeps r :=
  ⟨fun h => second.resolved (first.resolved h), fun h => second.failed (first.failed h)⟩

/-- It is enough that standings change at instances only that are unvisited or in
progress. -/
theorem Keeps.of_standing {p q : Progress}
    (h : ∀ id, p.standing id ≠ .unvisited → p.standing id ≠ .inProgress →
      q.standing id = p.standing id) : p.Keeps q where
  resolved {id value} hid := (h id (by rw [hid]; nofun) (by rw [hid]; nofun)).trans hid
  failed {id error} hid := (h id (by rw [hid]; nofun) (by rw [hid]; nofun)).trans hid

theorem keeps_begin {p : Progress} {id : Int} (hopen : p.standing id = .unvisited) :
    p.Keeps (p.begin id) := by
  apply Keeps.of_standing
  intro other hvisited _
  exact standing_begin_other p fun hid => hvisited (hid ▸ hopen)

theorem keeps_finish {p : Progress} {id : Int} (hopen : p.standing id = .inProgress)
    (ending : Ending) : p.Keeps (p.finish id ending) := by
  apply Keeps.of_standing
  intro other _ hclosed
  exact standing_finish_other p ending fun hid => hclosed (hid ▸ hopen)

theorem Keeps.of_move {records : Population} {p q : Progress} (h : Move records p q) :
    p.Keeps q := by
  cases h with
  | begun hopen hrecord => exact keeps_begin hopen
  | ended hopen hending => exact keeps_finish hopen _
  | reported event => exact ⟨fun h => h, fun h => h⟩
  | refused referrer id => exact ⟨fun h => h, fun h => h⟩

theorem Keeps.of_moves {records : Population} {p q : Progress} (h : Moves records p q) :
    p.Keeps q := by
  induction h with
  | refl => exact Keeps.refl p
  | tail _ hmove ih => exact ih.trans (Keeps.of_move hmove)

/-- Everything that was found out for good is of some kind: the values of the instances that are
resolved, and the errors of those that have failed. -/
structure Found (p : Progress) (good : Int → Instance → Prop) (bad : Int → ResolutionError → Prop) :
    Prop where
  resolved : ∀ {id value}, p.standing id = .resolved value → good id value
  failed : ∀ {id error}, p.standing id = .failed error → bad id error

namespace Found

variable {p : Progress} {good : Int → Instance → Prop} {bad : Int → ResolutionError → Prop}

theorem of_untouched (h : ∀ id, p.standing id = .unvisited) : p.Found good bad where
  resolved {id value} hid := by
    rw [h id] at hid
    cases hid
  failed {id error} hid := by
    rw [h id] at hid
    cases hid

theorem begin (h : p.Found good bad) (id : Int) : (p.begin id).Found good bad where
  resolved {other value} hother := by
    rw [standing_begin] at hother
    split at hother
    · cases hother
    · exact h.resolved hother
  failed {other error} hother := by
    rw [standing_begin] at hother
    split at hother
    · cases hother
    · exact h.failed hother

/-- The end of an attempt adds what it came to. -/
theorem finish (h : p.Found good bad) {id : Int} {ending : Ending}
    (hcompleted : ∀ value, ending = .completed value → good id value)
    (hfailed : ∀ error, ending = .failed error → bad id error) :
    (p.finish id ending).Found good bad where
  resolved {other value} hother := by
    rw [standing_finish] at hother
    split at hother
    · rename_i hid
      exact hid ▸ hcompleted value (Ending.eq_completed hother)
    · exact h.resolved hother
  failed {other error} hother := by
    rw [standing_finish] at hother
    split at hother
    · rename_i hid
      exact hid ▸ hfailed error (Ending.eq_failed hother)
    · exact h.failed hother

theorem report (h : p.Found good bad) (event : Event) : (p.report event).Found good bad :=
  ⟨h.resolved, h.failed⟩

theorem refuse (h : p.Found good bad) (referrer id : Int) :
    (p.note (.refused referrer id)).Found good bad :=
  ⟨h.resolved, h.failed⟩

end Found

/-- What holds of a progress at any time: only instances with a record have been
visited, failures are attributed to their instance, standings agree with the history,
and the history begins no instance anew that was not given up. -/
structure Orderly (records : Population) (p : Progress) : Prop where
  known : ∀ {id}, p.standing id ≠ .unvisited → records.contains id = true
  attributed : ∀ {id error}, p.standing id = .failed error → (Ending.failed error).IsAttributedTo id
  accounted : ∀ id, (p.standing id).Accounts (Turn.attemptsAt id p.history)
  restarts : Turn.RestartsGivenUp p.history

theorem orderly_initial (records : Population) : Orderly records initial where
  known h := absurd rfl h
  attributed h := by cases h
  accounted id := by
    intro attempt hmem
    cases hmem
  restarts := Turn.restartsGivenUp_nil

namespace Orderly

variable {records : Population} {p : Progress}

theorem begin {id : Int} (h : Orderly records p) (hopen : p.standing id = .unvisited)
    (hrecord : records.contains id = true) : Orderly records (p.begin id) where
  known {other} hne := by
    by_cases hid : other = id
    · exact hid ▸ hrecord
    · rw [standing_begin_other p hid] at hne
      exact h.known hne
  attributed {other error} hother := by
    by_cases hid : other = id
    · rw [hid, standing_begin_self] at hother
      cases hother
    · rw [standing_begin_other p hid] at hother
      exact h.attributed hother
  accounted other := by
    have haccount := h.accounted other
    rw [history_begin, Turn.attemptsAt_append_singleton]
    by_cases hid : other = id
    · subst hid
      rw [hopen] at haccount
      simp only [standing_begin_self, Turn.recordAt, if_true]
      exact ⟨_, rfl, haccount⟩
    · simpa [standing_begin_other p hid, Turn.recordAt, Ne.symm hid] using haccount
  restarts := by
    rw [history_begin]
    refine Turn.restartsGivenUp_append_singleton h.restarts fun other hbegun => ?_
    cases hbegun
    have haccount := h.accounted id
    rw [hopen] at haccount
    exact haccount

theorem finish {id : Int} {ending : Ending} (h : Orderly records p)
    (hopen : p.standing id = .inProgress) (hending : ending.IsAttributedTo id) :
    Orderly records (p.finish id ending) where
  known {other} hne := by
    by_cases hid : other = id
    · subst hid
      exact h.known (by rw [hopen]; nofun)
    · rw [standing_finish_other p ending hid] at hne
      exact h.known hne
  attributed {other error} hother := by
    by_cases hid : other = id
    · rw [hid, standing_finish_self] at hother
      cases ending with
      | failed own => cases hother; exact hid ▸ hending
      | completed value => cases hother
      | tooDeep own => cases hother
      | calledOff message => cases hother
    · rw [standing_finish_other p ending hid] at hother
      exact h.attributed hother
  accounted other := by
    have haccount := h.accounted other
    rw [history_finish, Turn.attemptsAt_append_singleton]
    by_cases hid : other = id
    · subst hid
      rw [hopen] at haccount
      obtain ⟨earlier, hattempts, hearlier⟩ := haccount
      simp only [standing_finish_self, Turn.recordAt, if_true, hattempts, List.dropLast_concat]
      exact Standing.accounts_of_ending hearlier ending
    · simpa [standing_finish_other p ending hid, Turn.recordAt, Ne.symm hid] using haccount
  restarts := by
    rw [history_finish]
    exact Turn.restartsGivenUp_append_singleton h.restarts nofun

theorem refuse (h : Orderly records p) (referrer id : Int) :
    Orderly records (p.note (.refused referrer id)) where
  known hne := h.known hne
  attributed hother := h.attributed hother
  accounted other := by
    have haccount := h.accounted other
    simpa [note, Turn.attemptsAt_append_singleton, Turn.recordAt] using haccount
  restarts := Turn.restartsGivenUp_append_singleton h.restarts nofun

theorem move {q : Progress} (h : Orderly records p) (hmove : Move records p q) :
    Orderly records q := by
  cases hmove with
  | begun hopen hrecord => exact h.begin hopen hrecord
  | ended hopen hending => exact h.finish hopen hending
  | reported event => exact ⟨h.known, h.attributed, h.accounted, h.restarts⟩
  | refused referrer id => exact h.refuse referrer id

theorem moves {q : Progress} (h : Orderly records p) (hmoves : Moves records p q) :
    Orderly records q := by
  induction hmoves with
  | refl => exact h
  | tail _ hmove ih => exact ih.move hmove

end Orderly

/-- A progress goes on by whole attempts: in steps of resolution, and with the same
instances in progress before and behind them. -/
structure Advances (records : Population) (p q : Progress) : Prop where
  moves : Moves records p q
  open_iff : ∀ id, q.standing id = .inProgress ↔ p.standing id = .inProgress

namespace Advances

variable {records : Population} {p q r : Progress}

theorem refl (records : Population) (p : Progress) : Advances records p p :=
  ⟨.refl, fun _ => Iff.rfl⟩

theorem trans (first : Advances records p q) (second : Advances records q r) :
    Advances records p r :=
  ⟨first.moves.trans second.moves, fun id => (second.open_iff id).trans (first.open_iff id)⟩

theorem report (h : Advances records p q) (event : Event) : Advances records p (q.report event) :=
  ⟨h.moves.tail (.reported event), h.open_iff⟩

theorem refuse (h : Advances records p q) (referrer id : Int) :
    Advances records p (q.note (.refused referrer id)) :=
  ⟨h.moves.tail (.refused referrer id), h.open_iff⟩

/-- An attempt is a whole one if what happens between its beginning and its end is made
of whole attempts. -/
theorem attempt {id : Int} {ending : Ending} (hopen : p.standing id = .unvisited)
    (hrecord : records.contains id = true) (h : Advances records (p.begin id) q)
    (hending : ending.IsAttributedTo id) : Advances records p (q.finish id ending) where
  moves := by
    have hown : q.standing id = .inProgress := (h.open_iff id).mpr (standing_begin_self p id)
    exact ((Relation.ReflTransGen.single (.begun hopen hrecord)).trans h.moves).tail
      (.ended hown hending)
  open_iff other := by
    by_cases hid : other = id
    · subst hid
      rw [standing_finish_self, hopen]
      simp [ending.standing_ne_inProgress]
    · rw [standing_finish_other q ending hid, h.open_iff, standing_begin_other p hid]

end Advances

end Progress

/-! ## Resolution advances -/

/-- A relation between states that holds of whatever answers a building also holds of
the building as a whole. -/
theorem Build.run_rel {α σ : Type} {R : σ → σ → Prop} (hrefl : ∀ s, R s s)
    (htrans : ∀ {s t u}, R s t → R t u → R s u)
    {visited : Int → TypeDef → Text → σ → Except Thrown Unit × σ}
    {resolved : Int → σ → Except Thrown Instance × σ}
    (hvisited : ∀ id expected place s, R s (visited id expected place s).2)
    (hresolved : ∀ id s, R s (resolved id s).2) (build : Build α) (s : σ) :
    R s (build.run visited resolved s).2 := by
  induction build generalizing s with
  | done outcome => exact hrefl s
  | visit id expected place next ih => exact htrans (hvisited id expected place s) (ih _ _)
  | resolve id next ih => exact htrans (hresolved id s) (ih _ _)

theorem ResolutionError.id_attributed (e : ResolutionError) (id : Int) (offset line : Option Nat) :
    (e.attributed id offset line).id = some id := by
  unfold attributed
  split <;> rfl

theorem ResolutionError.chain_attributed (e : ResolutionError) (id : Int)
    (offset line : Option Nat) : (e.attributed id offset line).chain = id :: e.chain := by
  unfold attributed
  split
  · rename_i hnil
    exact congrArg (id :: ·) hnil.symm
  · rfl

theorem ResolutionError.head?_chain_attributed (e : ResolutionError) (id : Int)
    (offset line : Option Nat) : (e.attributed id offset line).chain.head? = some id := by
  rw [chain_attributed]
  rfl

theorem Ending.outcome_ofError (error : ResolutionError) :
    (Ending.ofError error).outcome = .error (.resolution error) := by
  unfold ofError
  split <;> rfl

theorem Ending.isAttributedTo_ofError {e : ResolutionError} {id : Int} (hid : e.id = some id)
    (hchain : e.chain.head? = some id) : (Ending.ofError e).IsAttributedTo id := by
  unfold ofError
  split
  · trivial
  · rename_i hdeep
    exact ⟨by simpa using hdeep, hid, hchain⟩

theorem Population.contains_of_find? {records : Population} {id : Int} {r : Record}
    (h : records.find? id = some r) : records.contains id = true := by
  rw [contains, h]
  rfl

namespace Basis

variable (b : Basis)

theorem ending_isAttributedTo (id : Int) (r : Record) (outcome : Except Thrown Instance) :
    (b.ending id r outcome).IsAttributedTo id := by
  cases outcome with
  | ok value => trivial
  | error thrown =>
    cases thrown with
    | resolution error =>
      exact Ending.isAttributedTo_ofError (error.id_attributed ..)
        (error.head?_chain_attributed ..)
    | failure failure => exact Ending.isAttributedTo_ofError rfl rfl
    | interrupt message => trivial

/-- Following a reference advances, if entering an instance does. -/
theorem visit_advances {enter : Pass → Int → Progress → Except Thrown Instance × Progress}
    (henter : ∀ pass id (p : Progress), p.Advances b.population (enter pass id p).2) (pass : Pass)
    (referrer id : Int) (expected : TypeDef) (place : Text) (p : Progress) :
    p.Advances b.population (b.visit enter pass referrer id expected place p).2 := by
  unfold visit
  split
  · exact .refl _ p
  · split
    · exact (Progress.Advances.refl _ p).report _
    · split
      · have hentered := henter pass id p
        split
        · rename_i thrown q hq
          rwa [hq] at hentered
        · rename_i value q hq
          rwa [hq] at hentered
      · exact (Progress.Advances.refl _ p).refuse _ _

/-- Entering an instance advances, whatever its holder asks for. -/
theorem enter_advances (buildings : Nat) (pass : Pass) (id : Int) (p : Progress) :
    p.Advances b.population (b.enter buildings pass id p).2 := by
  induction buildings generalizing pass id p with
  | zero => exact .refl _ p
  | succ buildings ih =>
    unfold enter
    split
    · exact .refl _ p
    · rename_i r hr
      split
      · exact .refl _ p
      · exact .refl _ p
      · exact .refl _ p
      · rename_i hopen
        exact .attempt hopen (Population.contains_of_find? hr)
          (Build.run_rel (Progress.Advances.refl b.population) Progress.Advances.trans
            (fun target expected place q => b.visit_advances ih _ id target expected place q)
            (fun target q => ih ⟨none, []⟩ target q) _ _)
          (b.ending_isAttributedTo id r _)

end Basis

/-! ## Between requests -/

theorem Population.contains_add {records more : Population} {r : Record}
    (hadd : records.add r = .ok more) {id : Int} (h : records.contains id = true) :
    more.contains id = true := by
  obtain ⟨name, _, hentries⟩ := entries_of_add hadd
  simp only [contains, find?, Option.isSome_map, hentries, List.find?_append] at h ⊢
  simp [h]

namespace Table

/-- The state of a table between two requests. -/
structure Idle (t : Table) : Prop where
  closed : ∀ id, t.standing id ≠ .inProgress
  orderly : t.progress.Orderly t.basis.population

theorem idle_empty (registry : Registry) (makers : Makers) (settings : Settings) :
    (empty registry makers settings).Idle :=
  ⟨nofun, Progress.orderly_initial _⟩

theorem advances_resolve (t : Table) (id : Int) (expected : Option Expected) :
    t.progress.Advances t.basis.population (t.resolve id expected).2.progress := by
  rw [resolve_snd]
  exact t.basis.enter_advances _ _ _ _

theorem Idle.resolve {t : Table} (h : t.Idle) (id : Int) (expected : Option Expected) :
    (t.resolve id expected).2.Idle where
  closed other := fun hother =>
    h.closed other ((t.advances_resolve id expected).open_iff other |>.mp hother)
  orderly := by
    rw [basis_resolve]
    exact h.orderly.moves (t.advances_resolve id expected).moves

theorem Idle.add {t u : Table} {r : Record} (hadd : t.add r = .ok u) (h : t.Idle) : u.Idle := by
  obtain ⟨_, records, hrecords, rfl⟩ := add_eq_ok hadd
  refine ⟨h.closed, ?_, h.orderly.attributed, h.orderly.accounted, h.orderly.restarts⟩
  exact fun hvisited => Population.contains_add hrecords (h.orderly.known hvisited)

theorem Idle.report {t : Table} (h : t.Idle) (event : Event) : (t.report event).Idle :=
  ⟨h.closed, h.orderly.known, h.orderly.attributed, h.orderly.accounted, h.orderly.restarts⟩

theorem Request.expects_anything (q : Request) : q.Expects fun _ => True := by
  cases q <;> trivial

theorem Idle.session {t : Table} (h : t.Idle) (requests : List Request) :
    (t.session requests).Idle :=
  session_invariant (K := fun _ => True) trivial Idle.add
    (fun _ id _ _ h => h.resolve id _) (fun _ event h => h.report event)
    (fun q _ => Request.expects_anything q) h

/-- What was found out for good before a session is the same behind it. -/
theorem keeps_session (t : Table) (requests : List Request) :
    t.progress.Keeps (t.session requests).progress := by
  refine session_invariant (P := fun u => t.progress.Keeps u.progress) (K := fun _ => True)
    trivial ?_ ?_ ?_ (fun q _ => Request.expects_anything q) (.refl _)
  · intro u v r hadd h
    obtain ⟨_, _, _, rfl⟩ := add_eq_ok hadd
    exact h
  · intro u id expected _ h
    exact h.trans (.of_moves (u.advances_resolve id expected).moves)
  · exact fun _ _ h => ⟨h.resolved, h.failed⟩

end Table

end Part21
