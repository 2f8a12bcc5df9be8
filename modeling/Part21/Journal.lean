import Part21.Text.CodePoint

set_option autoImplicit false

/-!
# The journal

Reading and resolving report what they do as events.  An event has a name, a
level and fields; who listens decides what becomes of it.

The events are those of section B.2 of `SPEC_FULL.md`.
-/

namespace Part21

/-- How important an event is. -/
inductive Level where
  | debug
  | info
  | warning
  | error
  | critical
  deriving DecidableEq

namespace Level

/-- The rank of a level; higher ones are more important. -/
def rank : Level → Nat
  | debug => 10
  | info => 20
  | warning => 30
  | error => 40
  | critical => 50

/-- The name of a level. -/
def name : Level → Text
  | debug => "debug"
  | info => "info"
  | warning => "warning"
  | error => "error"
  | critical => "critical"

/-- All levels, in ascending order. -/
def all : List Level := [debug, info, warning, error, critical]

end Level

/-- Something that reading or resolving has done. -/
inductive Event where
  /-- a data section was put together from its records -/
  | sectionAssembled (records : Nat)
  /-- an exchange structure was put together from its sections -/
  | exchangeAssembled (sections records : Nat)
  /-- a table was filled from a section, or from the sections of a file -/
  | tableBuilt (entries : Nat) (sections : Option Nat)
  /-- a reference to an instance under construction was left to be followed later -/
  | cycleDeferred (id referrer : Int)
  /-- an instance could not be resolved -/
  | resolutionFailed (id : Int) (error : Text) (chain : List Int) (message : Text)

namespace Event

/-- The name of an event. -/
def name : Event → Text
  | sectionAssembled _ => "data_section_assembled"
  | exchangeAssembled _ _ => "exchange_file_assembled"
  | tableBuilt _ _ => "entity_table_built"
  | cycleDeferred _ _ => "resolution_cycle_deferred"
  | resolutionFailed _ _ _ _ => "entity_resolution_failed"

/-- The level of an event. -/
def level : Event → Level
  | resolutionFailed _ _ _ _ => .warning
  | _ => .debug

end Event

end Part21
