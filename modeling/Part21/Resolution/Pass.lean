import Part21.Resolution.Basis

set_option autoImplicit false

/-!
# Passes

A pass resolves one instance and, on the way, the instances it refers to that
are not resolved yet.  The instances under construction form the path of the
pass.  A reference to one of them is left to be followed later, which is how
circles come to an end; any other reference leads one step deeper, up to the
depth that the settings allow.

An error on the way is attributed to the instance under construction, and from
there to the one that refers to it, back to where the pass began.

Every building that is begun takes one more record out of those not yet visited,
so the nesting of buildings is bounded by the size of the population.

Section 4.5 of `SPEC_FULL.md`, with the limit of 5 and B.3: `Basis.visit` is
`ResolutionContext.visit`, and `Basis.enter` is `EntityTable._resolve` with `_fail`, on one
thread.
-/

namespace Part21

/-- Where a pass stands: the entity type it brought along, and the instances under
construction, the last one first. -/
structure Pass where
  brought : Option Blueprint
  path : List Int

namespace Basis

/-- How an attempt at building a record ends if its building ends so. -/
def ending (b : Basis) (id : Int) (r : Record) : Except Thrown Instance → Ending
  | .ok value => .completed value
  | .error (.resolution error) => .ofError (error.attributed id r.offset r.line)
  | .error (.failure failure) =>
    let reason :=
      if failure.isExhausted then .tooDeep b.settings.maxDepth else .construction failure
    .ofError ⟨reason, ⟨some id, [id], ⟨r.offset, r.line, none⟩⟩, [], some failure⟩
  | .error (.interrupt message) => .calledOff message

/-- The instance is under construction, but not on this pass. -/
def alreadyInProgress (id : Int) : ResolutionError :=
  ⟨.other ("#" ++ Text.ofInt id ++ " is already being resolved on this thread"),
    ⟨some id, [id], .unknown⟩, [], none⟩

/-- Follow a reference from the instance `referrer`, the last one on the path.
`enter` resolves an instance that is not on the path. -/
def visit (b : Basis)
    (enter : Pass → Int → Progress → Except Thrown Instance × Progress)
    (pass : Pass) (referrer id : Int) (expected : TypeDef) (place : Text) (p : Progress) :
    Except Thrown Unit × Progress :=
  match b.population.find? id with
  | none => (.error (.reason (.unresolved id)), p)
  | some r =>
    if pass.path.contains id then
      (b.checkTarget pass.brought id r expected place, p.report (.cycleDeferred id referrer))
    else if pass.path.length < b.settings.maxDepth then
      match enter pass id p with
      | (.error thrown, p) => (.error thrown, p)
      | (.ok _, p) => (b.checkTarget pass.brought id r expected place, p)
    else (.error (.reason (.tooDeep b.settings.maxDepth)), p.note (.refused referrer id))

/-- Resolve an instance on a pass, with at most so many buildings nested. -/
def enter (b : Basis) : Nat → Pass → Int → Progress → Except Thrown Instance × Progress
  | 0, _, _, p => (.error (.failure .exhausted), p)
  | buildings + 1, pass, id, p =>
    match b.population.find? id with
    | none => (.error (.reason (.unresolved id)), p)
    | some r =>
      match p.standing id with
      | .resolved value => (.ok value, p)
      | .failed error => (.error (.resolution error), p)
      | .inProgress => (.error (.resolution (alreadyInProgress id)), p)
      | .unvisited =>
        let inner : Pass := ⟨pass.brought, id :: pass.path⟩
        let site : Site :=
          ⟨id, inner.path.length, p.history, b.registry, b.settings⟩
        let (outcome, p) :=
          (b.build pass.brought site r).run
            (b.visit (enter b buildings) inner id)
            (enter b buildings ⟨none, []⟩)
            (p.begin id)
        let ending := b.ending id r outcome
        (ending.outcome, p.finish id ending)

/-- More buildings than this are never nested. -/
def nesting (b : Basis) : Nat := b.population.size + 1

/-- Resolve an instance on a pass of its own. -/
def resolve (b : Basis) (brought : Option Blueprint) (id : Int) (p : Progress) :
    Except Thrown Instance × Progress :=
  b.enter b.nesting ⟨brought, []⟩ id p

end Basis

end Part21
