import TypedMarkup.TypeExpr

/-! # Matching types

A declared type is matched against the type of a value. An argument-less type parameter takes the
whole type at its place; equal names with equally many arguments are matched argument by argument;
any other difference says nothing about the parameters.
-/
namespace TypedMarkup
set_option autoImplicit false

/-- The types found for type parameters. -/
abbrev Assignment : Type := String → Option TypeExpr

/-- One type parameter with two different types. -/
structure Conflict where
  param : String
  first : TypeExpr
  second : TypeExpr
deriving DecidableEq

namespace Assignment

def empty : Assignment := fun _ => none

/-- Gives a parameter a type, unless it has another one already. -/
def assign (s : Assignment) (param : String) (t : TypeExpr) : Except Conflict Assignment :=
  match s param with
  | none => .ok fun x => if x = param then some t else s x
  | some t' => if t' = t then .ok s else .error ⟨param, t', t⟩

mutual
def unify (params : List String) : Assignment → TypeExpr → TypeExpr → Except Conflict Assignment
  | s, .app p ps, actual =>
    if ps.isEmpty && params.contains p then s.assign p actual
    else if p = actual.name ∧ ps.length = actual.args.length then unifyArgs params s ps actual.args
    else .ok s

/-- Matches types in pairs, from left to right. -/
def unifyArgs (params : List String) :
    Assignment → List TypeExpr → List TypeExpr → Except Conflict Assignment
  | s, p :: ps, a :: as =>
    match unify params s p a with
    | .ok s' => unifyArgs params s' ps as
    | .error conflict => .error conflict
  | s, _, _ => .ok s
end

end Assignment
end TypedMarkup
