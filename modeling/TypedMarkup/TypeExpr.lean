/-! # Type expressions

A type is a name applied to types. A name without arguments may stand for a type parameter, and
`Array` with one argument is written as a suffix.
-/
namespace TypedMarkup
set_option autoImplicit false

inductive TypeExpr where
  | app (name : String) (args : List TypeExpr)

namespace TypeExpr

mutual
def decEq : (s t : TypeExpr) → Decidable (s = t)
  | app n as, app m bs =>
    if h : n = m then
      match decEqArgs as bs with
      | isTrue h' => isTrue (by rw [h, h'])
      | isFalse h' => isFalse (by rintro ⟨⟩; exact h' rfl)
    else isFalse (by rintro ⟨⟩; exact h rfl)

def decEqArgs : (ss ts : List TypeExpr) → Decidable (ss = ts)
  | [], [] => isTrue rfl
  | [], _ :: _ => isFalse nofun
  | _ :: _, [] => isFalse nofun
  | s :: ss, t :: ts =>
    match decEq s t, decEqArgs ss ts with
    | isTrue h, isTrue h' => isTrue (by rw [h, h'])
    | isFalse h, _ => isFalse (by rintro ⟨⟩; exact h rfl)
    | _, isFalse h => isFalse (by rintro ⟨⟩; exact h rfl)
end

instance : DecidableEq TypeExpr := decEq

/-- A property holds of all types if it passes from the arguments of a type to the type. -/
theorem ind {P : TypeExpr → Prop} (h : ∀ name args, (∀ a ∈ args, P a) → P (app name args)) : ∀ t, P t
  | app name args => h name args (indArgs args)
where
  indArgs : ∀ args : List TypeExpr, ∀ a ∈ args, P a
    | [], _, ha => absurd ha List.not_mem_nil
    | s :: rest, a, ha =>
      (List.mem_cons.mp ha).elim (fun e => e ▸ ind h s) (indArgs rest a)

def name : TypeExpr → String
  | app n _ => n

def args : TypeExpr → List TypeExpr
  | app _ as => as

def named (name : String) : TypeExpr := app name []

def arrayName : String := "Array"

def array (element : TypeExpr) : TypeExpr := app arrayName [element]

def isSimple (t : TypeExpr) : Bool := t.args.isEmpty

mutual
/-- Whether a name occurs in the type without arguments of its own. -/
def mentions (x : String) : TypeExpr → Bool
  | app n as => as.isEmpty && n == x || mentionsAny x as

def mentionsAny (x : String) : List TypeExpr → Bool
  | [] => false
  | a :: rest => mentions x a || mentionsAny x rest
end

theorem mentionsAny_eq_any (x : String) (ts : List TypeExpr) : mentionsAny x ts = ts.any (mentions x) := by
  induction ts with
  | nil => rfl
  | cons t rest ih => rw [mentionsAny, List.any_cons, ih]

theorem mentions_app (x n : String) (as : List TypeExpr) :
    (app n as).mentions x = (as.isEmpty && n == x || as.any (mentions x)) := by
  rw [mentions, mentionsAny_eq_any]

mutual
/-- The text of a type: arguments between angle brackets, arrays with a suffix. -/
def display : TypeExpr → String
  | app n [] => n
  | app n (a :: rest) =>
    if n = arrayName ∧ rest.isEmpty then display a ++ "[]"
    else n ++ "<" ++ display a ++ displayRest rest ++ ">"

def displayRest : List TypeExpr → String
  | [] => ""
  | a :: rest => ", " ++ display a ++ displayRest rest
end

@[simp] theorem display_named (name : String) : (named name).display = name := by
  simp [named, display]

end TypeExpr
end TypedMarkup
