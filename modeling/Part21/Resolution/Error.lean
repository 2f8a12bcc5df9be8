import Part21.Schema.Fault

set_option autoImplicit false

/-!
# Resolution errors

An instance that cannot be built gives an error with a reason.  An error that
arises deep inside is attributed to one instance after another on its way out:
first to the instance that was being built, then to the one that refers to it,
and so on.  Each attribution keeps the one before it, so an error carries the
path of references from the instance asked for to the place of the failure, and
behind it what outside code may have raised there.

Sections 7 and B.4 of `SPEC_FULL.md`: the errors derived from `ResolutionError`, with
`attributed_to`.
-/

namespace Part21

/-- What outside code can raise, besides resolution errors, and the faults that
are treated like it. -/
inductive Failure where
  /-- outside code fails with a kind of failure and a text -/
  | foreign (kind message : Text)
  | schema (error : SchemaError)
  /-- an integer is too large for a real -/
  | tooLarge
  /-- the recursion goes too deep -/
  | exhausted
  deriving DecidableEq

namespace Failure

/-- The name of the kind of failure. -/
def kind : Failure → Text
  | foreign kind _ => kind
  | schema ⟨.notFound _, _⟩ => "KeyError"
  | schema ⟨.bottomless, _⟩ => "RecursionError"
  | schema _ => "SchemaError"
  | tooLarge => "OverflowError"
  | exhausted => "RecursionError"

/-- The failure of a recursion that goes too deep. -/
def isExhausted : Failure → Bool
  | exhausted => true
  | schema ⟨.bottomless, _⟩ => true
  | _ => false

/-- The text of the failure. -/
def message : Failure → Text
  | foreign _ message => message
  | schema ⟨.notFound name, _⟩ => (SchemaFault.notFound name).message.quoted
  | schema error => error.describe
  | tooLarge => "int too large to convert to float"
  | exhausted => []

end Failure

/-- Why an instance cannot be built. -/
inductive Reason where
  /-- a reason given in words -/
  | other (message : Text)
  /-- there is no such instance -/
  | unresolved (target : Int)
  | unknownType (keyword : Text)
  | arity (typeName : Text) (expected actual : Nat)
  | mismatch (place : Option Text) (expected found : Text)
  /-- a value that has to be given is not -/
  | unset (place : Text)
  /-- a value is left to a derivation that there is not -/
  | inapplicable (place : Text)
  /-- references go deeper than the limit -/
  | tooDeep (limit : Nat)
  /-- outside code, or a question to the schema, failed -/
  | construction (original : Failure)
  deriving DecidableEq

namespace Reason

/-- The name of the kind of reason. -/
def kind : Reason → Text
  | other _ => "ResolutionError"
  | unresolved _ => "UnresolvedReferenceError"
  | unknownType _ => "UnknownEntityTypeError"
  | arity _ _ _ => "ArityError"
  | mismatch _ _ _ => "TypeMismatchError"
  | unset _ => "UnexpectedUnsetError"
  | inapplicable _ => "UnexpectedInapplicableError"
  | tooDeep _ => "DepthExceededError"
  | construction _ => "ConstructionError"

/-- The text of the reason. -/
def message : Reason → Text
  | other message => message
  | unresolved target => "Unresolved reference to #" ++ Text.ofInt target
  | unknownType keyword => "Unknown entity type '" ++ keyword ++ "'"
  | arity typeName expected actual =>
    "'" ++ typeName ++ "' expects " ++ Text.ofNat expected ++ " parameters, got "
      ++ Text.ofNat actual
  | mismatch place expected found =>
    let behind : Text :=
      match place with
      | some (c :: name) => " for attribute '" ++ (c :: name) ++ "'"
      | _ => []
    "Expected " ++ expected ++ behind ++ ", found " ++ found
  | unset place => "Attribute '" ++ place ++ "' is not optional but is unset ($)"
  | inapplicable place => "Attribute '" ++ place ++ "' is not derived but is omitted (*)"
  | tooDeep limit => "Reference depth limit of " ++ Text.ofNat limit ++ " exceeded"
  | construction original =>
    "Building the entity raised " ++ original.kind ++ ": " ++ original.message

/-- The limit on references was exceeded.  That depends on the way to an instance
and not on the instance. -/
def isTooDeep : Reason → Bool
  | tooDeep _ => true
  | _ => false

end Reason

/-- The instance that an error is attributed to, with the path of references from
it to the failure, and its place. -/
structure Attribution where
  id : Option Int
  chain : List Int
  location : Location
  deriving DecidableEq

namespace Attribution

/-- Attributed to no instance. -/
def nothing : Attribution := ⟨none, [], .unknown⟩

/-- A message with the place and the path behind it, as far as they are known. -/
def annotate (a : Attribution) (message : Text) : Text :=
  let located := a.location.annotate message
  if a.chain = [] then located
  else
    let path := Text.join " -> " (a.chain.map fun id => "#" ++ Text.ofInt id)
    located ++ " [via " ++ path ++ "]"

end Attribution

/-- A resolution error: its reason, the attribution it has now, the earlier ones,
the latest first, and what was raised where it arose. -/
structure ResolutionError where
  reason : Reason
  current : Attribution
  earlier : List Attribution
  origin : Option Failure
  deriving DecidableEq

namespace ResolutionError

/-- An error that is not yet attributed to an instance. -/
def of (reason : Reason) : ResolutionError := ⟨reason, .nothing, [], none⟩

/-- The instance that the error is attributed to. -/
def id (e : ResolutionError) : Option Int := e.current.id

/-- The path of references from the instance that the error is attributed to. -/
def chain (e : ResolutionError) : List Int := e.current.chain

/-- The message of the error with place and path. -/
def describe (e : ResolutionError) : Text := e.current.annotate e.reason.message

/-- The error as it was at each of its attributions, the latest first, and what
was raised where it arose, each with the name of its kind. -/
def causes (e : ResolutionError) : List (Text × Text) :=
  (e.earlier.map fun a => (e.reason.kind, a.annotate e.reason.message))
    ++ (e.origin.map fun f => (f.kind, f.message)).toList

/-- The error attributed to an instance that refers to the one it is attributed
to.  A place that is not known stays as it was; the column is forgotten. -/
def attributedTo (e : ResolutionError) (id : Int) (offset line : Option Nat) : ResolutionError :=
  { e with
    current :=
      ⟨some id, id :: e.current.chain,
        ⟨offset.or e.current.location.offset, line.or e.current.location.line, none⟩⟩
    earlier := e.current :: e.earlier }

/-- The error attributed to the instance that was being built when it arose: in
place if it is not attributed yet, else as an instance that refers to it.  In
place, the instance's offset and line are taken if the error has no offset. -/
def attributed (e : ResolutionError) (id : Int) (offset line : Option Nat) : ResolutionError :=
  if e.current.chain = [] then
    let l := e.current.location
    { e with
      current := ⟨some id, [id], if l.offset.isNone then ⟨offset, line, l.column⟩ else l⟩ }
  else e.attributedTo id offset line

end ResolutionError

/-- What ends the building of an instance other than by its completion. -/
inductive Thrown where
  | resolution (error : ResolutionError)
  | failure (failure : Failure)
  /-- the building is called off, which is no failure -/
  | interrupt (message : Text)
  deriving DecidableEq

namespace Thrown

/-- A resolution error that is not yet attributed to an instance. -/
def reason (reason : Reason) : Thrown := .resolution (.of reason)

/-- A fault of the schema. -/
def schema (fault : SchemaFault) : Thrown := .failure (.schema (.of fault))

end Thrown

end Part21
