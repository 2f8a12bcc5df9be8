import Part21.Number.Numeral
import Part21.Text.Quoted
import Part21.Text.Small

set_option autoImplicit false

/-!
# Settings

What can be chosen about the building of entities: how deep references may go,
and two leniencies.  The depth is at least one and at most `depthLimit`, the
nesting that the stack holds.  Settings can be read from named variables; a
variable that is not set leaves the default.

Section B.3 of `SPEC_FULL.md`: `ResolverConfig` and its `from_env`.
-/

namespace Part21

namespace Settings

/-- How many frames the stack holds. -/
def stackFrames : Nat := 1000

/-- How many frames are left to those who ask and to the reporting of errors. -/
def reservedFrames : Nat := 100

/-- How many frames a level of nested references takes. -/
def framesPerLevel : Nat := 8

/-- The greatest depth that the stack holds. -/
def depthLimit : Nat := max 1 ((stackFrames - reservedFrames) / framesPerLevel)

end Settings

/-- What is chosen about the building of entities. -/
structure Settings where
  /-- how many instances may be under construction at a time, each referred to
  by the one before -/
  maxDepth : Nat
  /-- an enumeration takes declared items only -/
  strictEnumerations : Bool
  /-- an integer is taken where a real is declared -/
  acceptIntegerAsReal : Bool
  one_le : 1 ≤ maxDepth
  le_limit : maxDepth ≤ Settings.depthLimit

/-- Why settings are refused. -/
inductive SettingsFault where
  | depthTooSmall (depth : Int)
  | depthTooGreat (depth : Int)
  | notInteger (variable_ : Text) (value : Text)
  | notBoolean (variable_ : Text) (value : Text)
  | variableTooSmall (variable_ : Text) (value : Int)
  deriving DecidableEq

namespace SettingsFault

/-- The text of the fault. -/
def message : SettingsFault → Text
  | depthTooSmall depth => "max_depth must be at least 1, got " ++ Text.ofInt depth
  | depthTooGreat depth =>
    "max_depth " ++ Text.ofInt depth ++ " exceeds " ++ Text.ofNat Settings.depthLimit
      ++ ", the deepest nesting the recursion limit (" ++ Text.ofNat Settings.stackFrames
      ++ ") allows"
  | notInteger name value => name ++ " must be an integer, got " ++ value.quoted
  | notBoolean name value => name ++ " must be a boolean, got " ++ value.quoted
  | variableTooSmall name value => name ++ " must be at least 1, got " ++ Text.ofInt value

end SettingsFault

namespace Settings

/-- The settings that apply where nothing is chosen. -/
def default : Settings := ⟨64, true, true, by decide, by decide⟩

instance : Inhabited Settings := ⟨default⟩

/-- Settings of one's own choice. -/
def make (depth : Int) (strictEnumerations acceptIntegerAsReal : Bool) :
    Except SettingsFault Settings :=
  if low : depth < 1 then .error (.depthTooSmall depth)
  else if high : (depthLimit : Int) < depth then .error (.depthTooGreat depth)
  else
    .ok ⟨depth.toNat, strictEnumerations, acceptIntegerAsReal, by omega, by omega⟩

/-! ## Variables -/

/-- The variable of the depth. -/
def depthVariable : Text := "STEPFILE_MAX_DEPTH"

/-- The variable of the first leniency. -/
def strictVariable : Text := "STEPFILE_STRICT_ENUMERATIONS"

/-- The variable of the second leniency. -/
def acceptVariable : Text := "STEPFILE_ACCEPT_INTEGER_AS_REAL"

/-- The words for yes. -/
def yesWords : List Text := ["1", "true", "yes", "on"]

/-- The words for no. -/
def noWords : List Text := ["0", "false", "no", "off"]

/-- A positive integer. -/
def readDepth (value : Text) : Except SettingsFault Int :=
  match Numeral.decimal? (value.trim CodePoint.isBlank) with
  | none => .error (.notInteger depthVariable value)
  | some n => if n < 1 then .error (.variableTooSmall depthVariable n) else .ok n

/-- A word for yes or no, letter case ignored. -/
def readChoice (name value : Text) : Except SettingsFault Bool :=
  let word := Text.lower (value.trim CodePoint.isBlank)
  if yesWords.contains word then .ok true
  else if noWords.contains word then .ok false
  else .error (.notBoolean name value)

/-- The choice of a variable, or the default if it is not set. -/
def choice (given : Text → Option Text) (name : Text) : Except SettingsFault Bool :=
  match given name with
  | none => .ok true
  | some value => readChoice name value

/-- The settings that variables give. -/
def ofVariables (given : Text → Option Text) : Except SettingsFault Settings :=
  let depth : Except SettingsFault Int :=
    match given depthVariable with
    | none => .ok default.maxDepth
    | some value => readDepth value
  match depth with
  | .error fault => .error fault
  | .ok depth =>
    match choice given strictVariable with
    | .error fault => .error fault
    | .ok strict =>
      match choice given acceptVariable with
      | .error fault => .error fault
      | .ok accept => make depth strict accept

end Settings

end Part21
