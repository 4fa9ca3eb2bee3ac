/-!
# Builtin functions

The functions that a formula may call, each of one or two numbers.

* `Operation` — a function of one or two floats, with its arity readable.
* `Builtin.ofName?` — the builtin with a given name; names are matched exactly.
* `Builtin.operation` — what each builtin computes.
-/

namespace Scoresheet.Formula

/-- A function of one or two floats. -/
inductive Operation (β : Type) where
  | unary (f : Float → β)
  | binary (f : Float → Float → β)

namespace Operation

variable {β γ : Type}

/-- The number of arguments. -/
def arity : Operation β → Nat
  | unary _ => 1
  | binary _ => 2

/-- The operation whose results are passed through `g`. -/
def map (g : β → γ) : Operation β → Operation γ
  | unary f => unary fun a => g (f a)
  | binary f => binary fun a b => g (f a b)

/-- The value at a list of arguments, if there are as many as the operation takes. -/
def valueAt? : Operation β → List Float → Option β
  | unary f, [a] => some (f a)
  | binary f, [a, b] => some (f a b)
  | _, _ => none

@[simp] theorem arity_map (g : β → γ) (op : Operation β) : (op.map g).arity = op.arity := by
  cases op <;> rfl

/-- The arity is exactly the number of arguments at which there is a value. -/
theorem isSome_valueAt?_iff (op : Operation β) (args : List Float) :
    (op.valueAt? args).isSome = true ↔ args.length = op.arity := by
  match op, args with
  | unary _, [] | unary _, [_] | unary _, _ :: _ :: _ => simp [valueAt?, arity]
  | binary _, [] | binary _, [_] | binary _, [_, _] | binary _, _ :: _ :: _ :: _ =>
    simp [valueAt?, arity]

end Operation

/-- A function that formulas may call. -/
inductive Builtin where
  | floor
  | ceil
  | round
  | abs
  | sqrt
  | min
  | max
  | pow
deriving Repr, DecidableEq

/-- The lesser of two floats; a value that is no number gives way to the other one. -/
def lesser (a b : Float) : Float :=
  if a.isNaN then b else if b.isNaN then a else if b < a then b else a

/-- The greater of two floats; a value that is no number gives way to the other one. -/
def greater (a b : Float) : Float :=
  if a.isNaN then b else if b.isNaN then a else if a < b then b else a

namespace Builtin

/-- All builtins. -/
def all : List Builtin := [floor, ceil, round, abs, sqrt, min, max, pow]

/-- The name by which formulas call the function. -/
def name : Builtin → String
  | floor => "floor"
  | ceil => "ceil"
  | round => "round"
  | abs => "abs"
  | sqrt => "sqrt"
  | min => "min"
  | max => "max"
  | pow => "pow"

/-- The builtin of the given name. -/
def ofName? (name : String) : Option Builtin :=
  all.find? fun f => f.name == name

/-- What the builtin computes. `round` takes a half away from zero. -/
def operation : Builtin → Operation Float
  | floor => .unary Float.floor
  | ceil => .unary Float.ceil
  | round => .unary Float.round
  | abs => .unary Float.abs
  | sqrt => .unary Float.sqrt
  | min => .binary lesser
  | max => .binary greater
  | pow => .binary Float.pow

/-- The number of arguments. -/
def arity (f : Builtin) : Nat :=
  f.operation.arity

@[simp] theorem ofName?_name (f : Builtin) : ofName? f.name = some f := by
  cases f <;> rfl

end Builtin

end Scoresheet.Formula
