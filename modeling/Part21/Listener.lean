import Part21.Journal
import Part21.Text.Quoted
import Part21.Text.Capital

set_option autoImplicit false

/-!
# Listeners

A listener takes the events of a journal from a level on and passes them through
stages to a renderer.  It is set up by the name of a level, or by the name of
one of three presets.

Section B.2 of `SPEC_FULL.md`: `configure_logging` and its presets.
-/

namespace Part21

/-- How events are written. -/
inductive Renderer where
  | json
  | console (colors : Bool)
  deriving DecidableEq

namespace Renderer

/-- The name of a kind of renderer. -/
def name : Renderer → Text
  | json => "JSONRenderer"
  | console _ => "ConsoleRenderer"

end Renderer

/-- What an event passes through. -/
inductive Stage where
  | mergeContext
  | addLevel
  | addTime
  /-- a stage that the application adds -/
  | extra (index : Nat)
  | render (renderer : Renderer)
  deriving DecidableEq

/-- A listener: the least level it takes, and its stages. -/
structure Listener where
  threshold : Level
  stages : List Stage

/-- Why a listener cannot be set up. -/
inductive ListenerFault where
  | unknownLevel (name : Text)
  | unknownPreset (name : Text)
  deriving DecidableEq

namespace ListenerFault

/-- The text of the fault. -/
def message : ListenerFault → Text
  | unknownLevel name => "Unknown log level " ++ name.quoted
  | unknownPreset name => "Unknown logging preset " ++ name.quoted

end ListenerFault

namespace Level

/-- The level of a name, letter case ignored. -/
def find? (name : Text) : Option Level := all.find? fun level => level.name.upper = name.upper

end Level

namespace Listener

/-- The listener with a level, a renderer and a number of stages of the
application. -/
def make (level : Text) (colors json : Bool) (extras : Nat) : Except ListenerFault Listener :=
  match Level.find? level with
  | none => .error (.unknownLevel level)
  | some threshold =>
    .ok ⟨threshold,
      [.mergeContext, .addLevel, .addTime] ++ (List.range extras).map Stage.extra
        ++ [.render (if json then .json else .console colors)]⟩

/-- The level of a preset, and whether it writes in color and in JSON. -/
def preset? (name : Text) : Option (Text × Bool × Bool) :=
  if name = "development" then some ("DEBUG", true, false)
  else if name = "production" then some ("INFO", false, true)
  else if name = "testing" then some ("WARNING", false, false)
  else none

/-- The listener of a preset. -/
def ofPreset (name : Text) (extras : Nat) : Except ListenerFault Listener :=
  match preset? name with
  | none => .error (.unknownPreset name)
  | some (level, colors, json) => make level colors json extras

/-- The listener takes events of a level. -/
def takes (l : Listener) (level : Level) : Bool := l.threshold.rank ≤ level.rank

/-- The renderer that events end in. -/
def renderer? (l : Listener) : Option Renderer :=
  l.stages.findSome? fun stage =>
    match stage with
    | .render renderer => some renderer
    | _ => none

end Listener

end Part21
