import Part21.Resolution.Held

set_option autoImplicit false

/-!
# Conversions

A parameter is converted along its structure: a typed one comes down to what is inside it, a
list to its elements, and any other one is taken as a whole.  A `Held.Conversion` says of these
steps how a property of converting one parameter and one of converting the elements of an
aggregate hang together, and `Held.Conversion.one` draws the conclusion for every parameter.
The statements about held values in other modules are instances of it.
-/

namespace Part21

/-- The type that a way through references and defined types leads to. -/
def Ground.target : Ground → TypeDef
  | wrapper underlying => underlying
  | type t => t

namespace Held

theorem exists_of_map_eq_ok {α β : Type} {outcome : Except Thrown α} {f : α → β} {value : β}
    (h : outcome.map f = .ok value) : ∃ a, outcome = .ok a ∧ f a = value := by
  cases outcome with
  | error thrown => cases h
  | ok a => exact ⟨a, rfl, Except.ok.inj h⟩

/-- Two properties that hang together along a conversion: of a type, a parameter and what comes
of it, and of an element type, parameters and what comes of them. -/
structure Conversion (r : Registry) (s : Settings) (place : Text)
    (One : TypeDef → Parameter → Except Thrown Held → Prop)
    (Many : TypeDef → List Parameter → Except Thrown (List Held) → Prop) : Prop where
  /-- the way through references and defined types fails -/
  lost {t : TypeDef} {p : Parameter} {sought : Option Text} {failure : Failure}
    (hground : r.ground sought t = .error failure) : One t p (.error (.failure failure))
  /-- the parameter is taken as a whole -/
  whole {t : TypeDef} {p : Parameter} {sought : Option Text} {ground : Ground}
    (hground : r.ground sought t = .ok ground) : One t p (whole s place ground.target p)
  /-- the keyword names a defined type on the way -/
  unwrapped {t underlying : TypeDef} {keyword : Text} {inner : Parameter}
    {outcome : Except Thrown Held}
    (hground : r.ground (some keyword.upper) t = .ok (.wrapper underlying))
    (hinner : One underlying inner outcome) : One t (.typed keyword inner) outcome
  /-- the keyword names no option of a select -/
  unselected {t : TypeDef} {keyword name : Text} {options : List Text} {inner : Parameter}
    (hground : r.ground (some keyword.upper) t = .ok (.type (.select name options)))
    (hoption : r.selectOption ⟨name, options⟩ keyword = none) :
    One t (.typed keyword inner)
      (.error (.reason (.mismatch (some place) ("a type selectable by " ++ name) keyword)))
  /-- the keyword names an option of a select -/
  selected {t option : TypeDef} {keyword name : Text} {options : List Text} {inner : Parameter}
    {outcome : Except Thrown Held}
    (hground : r.ground (some keyword.upper) t = .ok (.type (.select name options)))
    (hoption : r.selectOption ⟨name, options⟩ keyword = some option)
    (hinner : One option inner outcome) :
    One t (.typed keyword inner) (outcome.map (.typed option.key))
  /-- an aggregate has too few elements or too many -/
  outside {t element : TypeDef} {name : Text} {kind : AggregateKind} {lower : Int}
    {upper : Option Int} {items : List Parameter}
    (hground : r.ground none t = .ok (.type (.aggregate name element kind lower upper)))
    (hbounds : withinBounds lower upper items.length = false) :
    One t (.list items)
      (.error (.reason (.mismatch (some place)
        (TypeDef.aggregate name element kind lower upper).describe
        ("aggregate of " ++ Text.ofNat items.length ++ " elements"))))
  /-- the elements of an aggregate are converted -/
  aggregate {t element : TypeDef} {name : Text} {kind : AggregateKind} {lower : Int}
    {upper : Option Int} {items : List Parameter} {outcome : Except Thrown (List Held)}
    (hground : r.ground none t = .ok (.type (.aggregate name element kind lower upper)))
    (hbounds : withinBounds lower upper items.length = true)
    (hitems : Many element items outcome) : One t (.list items) (outcome.map .list)
  nil {element : TypeDef} : Many element [] (.ok [])
  /-- an element is not converted -/
  stopped {element : TypeDef} {p : Parameter} {rest : List Parameter} {thrown : Thrown}
    (hfirst : One element p (.error thrown)) : Many element (p :: rest) (.error thrown)
  /-- an element is converted, and then the others -/
  cons {element : TypeDef} {p : Parameter} {rest : List Parameter} {first : Held}
    {outcome : Except Thrown (List Held)} (hfirst : One element p (.ok first))
    (hothers : Many element rest outcome) :
    Many element (p :: rest) (outcome.map fun others => first :: others)

namespace Conversion

variable {r : Registry} {s : Settings} {place : Text}
  {One : TypeDef → Parameter → Except Thrown Held → Prop}
  {Many : TypeDef → List Parameter → Except Thrown (List Held) → Prop}

mutual

/-- What holds of the steps of a conversion holds of it as a whole. -/
theorem one (c : Conversion r s place One Many) (t : TypeDef) (p : Parameter) :
    One t p (ofParameter r s place t p) := by
  match p with
  | .typed keyword inner =>
    rw [ofParameter]
    split
    · rename_i failure hground
      exact c.lost hground
    · rename_i underlying hground
      exact c.unwrapped hground (one c underlying inner)
    · rename_i name options hground
      split
      · rename_i hoption
        exact c.unselected hground hoption
      · rename_i option hoption
        exact c.selected hground hoption (one c option inner)
    · rename_i hground
      exact c.whole hground
  | .list items =>
    rw [ofParameter]
    split
    · rename_i failure hground
      exact c.lost hground
    · rename_i name element kind lower upper hground
      split
      · rename_i hbounds
        exact c.aggregate hground hbounds (many c element items)
      · rename_i hbounds
        exact c.outside hground (Bool.eq_false_iff.mpr hbounds)
    · rename_i hground
      exact c.whole hground
    · rename_i hground
      exact c.whole hground
  | .integer _ | .real _ | .string _ | .enumeration _ | .binary _ _ | .reference _ | .unset
  | .inapplicable =>
    rw [ofParameter]
    · split
      · rename_i failure hground
        exact c.lost hground
      · rename_i hground
        exact c.whole hground
      · rename_i hground
        exact c.whole hground
    · nofun
    · nofun

/-- What holds of the steps of a conversion holds of the elements of an aggregate. -/
theorem many (c : Conversion r s place One Many) (element : TypeDef) (items : List Parameter) :
    Many element items (ofParameters r s place element items) := by
  match items with
  | [] =>
    rw [ofParameters]
    exact c.nil
  | p :: rest =>
    have hfirst := one c element p
    have hothers := many c element rest
    rw [ofParameters]
    cases hp : ofParameter r s place element p with
    | error thrown =>
      rw [hp] at hfirst
      exact c.stopped hfirst
    | ok first =>
      rw [hp] at hfirst
      have hcons := c.cons hfirst hothers
      cases hrest : ofParameters r s place element rest <;> rw [hrest] at hcons <;> exact hcons

end

end Conversion

end Held

end Part21
