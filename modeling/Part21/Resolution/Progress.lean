import Part21.Journal
import Part21.Resolution.Build

set_option autoImplicit false

/-!
# Progress

What resolution has found out so far: the standing of every instance, the
attempts at building them, and the events reported.  An attempt that fails
because references go too deep, or that is called off, leaves its instance as if
it had never been begun; every other outcome is kept.

The standings are the states of an id in section 4.5 of `SPEC_FULL.md` (`ResolutionState`).
-/

namespace Part21

/-- How far an instance has come. -/
inductive Standing where
  | unvisited
  | inProgress
  | resolved (value : Instance)
  | failed (error : ResolutionError)

namespace Standing

/-- The name of a standing. -/
def name : Standing → Text
  | unvisited => "unvisited"
  | inProgress => "in_progress"
  | resolved _ => "resolved"
  | failed _ => "failed"

end Standing

/-- The standing in which an attempt leaves its instance. -/
def Ending.standing : Ending → Standing
  | .completed value => .resolved value
  | .failed error => .failed error
  | .tooDeep _ => .unvisited
  | .calledOff _ => .unvisited

/-- What resolution has found out and done. -/
structure Progress where
  standing : Int → Standing
  /-- the turns so far, the first one first -/
  history : List Turn
  /-- the events reported and not yet taken -/
  journal : List Event

namespace Progress

/-- Nothing has been begun. -/
def initial : Progress := ⟨fun _ => .unvisited, [], []⟩

/-- Give an instance another standing. -/
def put (p : Progress) (id : Int) (standing : Standing) : Progress :=
  { p with standing := fun other => if other = id then standing else p.standing other }

/-- Report an event. -/
def report (p : Progress) (event : Event) : Progress :=
  { p with journal := p.journal ++ [event] }

/-- Note a turn of an attempt. -/
def note (p : Progress) (turn : Turn) : Progress := { p with history := p.history ++ [turn] }

/-- Begin the building of an instance. -/
def begin (p : Progress) (id : Int) : Progress := (p.put id .inProgress).note (.begun id)

/-- The building of an instance comes to an end. -/
def finish (p : Progress) (id : Int) (ending : Ending) : Progress :=
  (p.put id ending.standing).note (.ended id ending)

end Progress

end Part21
