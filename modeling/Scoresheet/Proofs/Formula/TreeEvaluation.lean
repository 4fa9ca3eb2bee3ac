import Scoresheet.Formula.Machine
import Scoresheet.Proofs.Basic
import Scoresheet.Proofs.Formula.Expr

/-!
# The stack machine and the trees

What the stack machine computes from a listing is what evaluating the tree from left to right
computes, value or error; and a sequence that the machine evaluates is the listing of one tree.

* `Expr.evaluate` — the value of a tree, by recursion over it.
* `Operation.run_reverse`, `Operation.run_of_short` — all that one operation does with a stack.
* `runFrom_postorder` — the listing of a tree pushes the value of the tree.
* `exists_assemble_of_step` — a step of the machine is a step of the reading of a listing.

The last one carries the converse. Beside the machine's stack of numbers it keeps the stack of trees
that the same tokens assemble, and its invariant `Denotes` says that the trees have those numbers as
values. At the end of a run the one number left is the value of the one tree left.
-/

namespace Scoresheet.Formula

/-- What the operator computes from its operands. Division by either zero is refused. -/
def BinaryOperator.apply (op : BinaryOperator) (a b : Float) : Except Error Float :=
  match op with
  | add => .ok (a + b)
  | sub => .ok (a - b)
  | mul => .ok (a * b)
  | div => if b == 0.0 then .error .divisionByZero else .ok (a / b)

/-- The value of a call. The name is looked at after the arguments, and the number of arguments
after the name. -/
def callValue (name : String) (values : List Float) : Except Error Float :=
  match Builtin.ofName? name with
  | none => .error (.unknownSymbol name)
  | some f =>
    match f.operation.valueAt? values with
    | some value => finite name value
    | none => .error (.stack (.arityMismatch name f.arity values.length))

/-- The error of a computation, if it fails. -/
def fault? {α : Type} : Except Error α → Option Error
  | .ok _ => none
  | .error e => some e

theorem fault?_eq_some_iff {α : Type} {x : Except Error α} {e : Error} :
    fault? x = some e ↔ x = .error e := by
  cases x <;> simp [fault?]

namespace Expr

mutual

/-- **The value of a tree,** operands from left to right before the operation itself. -/
def evaluate : Expr → Except Error Float
  | number value => finite "literal" value
  | identifier name => .error (.unknownSymbol name)
  | negation operand => do finite "neg" (-(← operand.evaluate))
  | binary op left right => do
    let a ← left.evaluate
    let b ← right.evaluate
    finite op.operator.symbol (← op.apply a b)
  | call name arguments => do callValue name (← evaluateAll arguments)

/-- The values of the trees of a list, from left to right. -/
def evaluateAll : List Expr → Except Error (List Float)
  | [] => .ok []
  | e :: rest => do
    let value ← e.evaluate
    return value :: (← evaluateAll rest)

end

/-- Every call in the tree is one of a builtin with as many arguments as the builtin takes. -/
def CallsBuiltins (e : Expr) : Prop :=
  ∀ name arguments, call name arguments ∈ e.subtrees →
    ∃ f, Builtin.ofName? name = some f ∧ arguments.length = f.arity

/-- All trees of a list have a value if and only if the list does. -/
theorem evaluateAll_eq_ok_iff {es : List Expr} {values : List Float} :
    evaluateAll es = .ok values ↔ es.map evaluate = values.map .ok := by
  -- By induction on the trees, with the first value taken off on both sides.
  induction es generalizing values with
  | nil => cases values <;> simp [evaluateAll]
  | cons e rest ih =>
    rw [evaluateAll, bind_eq_ok_iff]
    constructor
    · rintro ⟨value, hvalue, h⟩
      obtain ⟨others, hothers, h⟩ := bind_eq_ok_iff.1 h
      obtain rfl := Except.ok.inj h
      rw [List.map_cons, List.map_cons, hvalue, ih.1 hothers]
    · intro h
      cases values with
      | nil => cases h
      | cons value others =>
        rw [List.map_cons, List.map_cons, List.cons.injEq] at h
        exact ⟨value, h.1, bind_eq_ok_iff.2 ⟨others, ih.2 h.2, rfl⟩⟩

theorem length_of_evaluateAll {es : List Expr} {values : List Float}
    (h : evaluateAll es = .ok values) : values.length = es.length := by
  simpa using (congrArg List.length (evaluateAll_eq_ok_iff.1 h)).symm

/-- The trees of a list fail as one of them does. -/
theorem exists_of_evaluateAll_eq_error {es : List Expr} {err : Error}
    (h : evaluateAll es = .error err) : ∃ e ∈ es, e.evaluate = .error err := by
  induction es with
  | nil => cases h
  | cons e rest ih =>
    rw [evaluateAll] at h
    obtain hhead | ⟨value, -, h⟩ := bind_eq_error_iff.1 h
    · exact ⟨e, List.mem_cons_self, hhead⟩
    · obtain htail | ⟨values, -, h⟩ := bind_eq_error_iff.1 h
      · obtain ⟨a, ha, herror⟩ := ih htail
        exact ⟨a, List.mem_cons_of_mem e ha, herror⟩
      · cases h

end Expr

/-! ### One operation on the stack -/

namespace Operation

/-- **An operation with its operands on the stack** puts its result in their place. -/
theorem run_reverse {op : Operation (Except Error Float)} {operands : List Float}
    {result : Except Error Float} (h : op.valueAt? operands = some result) (origin : String)
    (stack : List Float) :
    op.run origin (operands.reverse ++ stack) = (result.bind (finite origin)).map (· :: stack) := by
  -- By the number of the operands that the operation takes.
  unfold valueAt? at h
  split at h
  · rename_i f a
    obtain rfl := Option.some.inj h
    change (do return (← finite origin (← f a)) :: stack) = _
    cases f a with
    -- The operation itself has a fault, or its value is looked at.
    | error e => rfl
    | ok value => cases hv : finite origin value <;> simp [bind, Except.bind, hv] <;> rfl
  · rename_i f a b
    obtain rfl := Option.some.inj h
    change (do return (← finite origin (← f a b)) :: stack) = _
    cases f a b with
    | error e => rfl
    | ok value => cases hv : finite origin value <;> simp [bind, Except.bind, hv] <;> rfl
  -- With another number of operands there is no result.
  · exact absurd h (by simp)

/-- An operation that does not find its operands says how many it needs and how many there are. -/
theorem run_of_short {op : Operation (Except Error Float)} {stack : List Float}
    (h : stack.length < op.arity) (origin : String) :
    op.run origin stack = .error (.stack (.missingOperands origin op.arity stack.length)) := by
  -- All stacks that are too short, by the arity.
  match op, stack with
  | unary _, [] => rfl
  | binary _, [] => rfl
  | binary _, [_] => rfl
  -- These stacks are long enough.
  | unary _, _ :: _ =>
    rw [List.length_cons, arity] at h
    omega
  | binary _, _ :: _ :: _ =>
    rw [List.length_cons, List.length_cons, arity] at h
    omega

/-- **What an operation that succeeds has done:** it has taken its operands from the top of the
stack and put a finite result there. -/
theorem run_eq_ok {op : Operation (Except Error Float)} {origin : String}
    {stack stack' : List Float} (h : op.run origin stack = .ok stack') :
    ∃ operands rest result value, stack = operands.reverse ++ rest ∧
      op.valueAt? operands = some result ∧ result.bind (finite origin) = .ok value ∧
      stack' = value :: rest := by
  -- The machine has checked the height of the stack, so that the operands are there.
  by_cases hlength : stack.length < op.arity
  · rw [run_of_short hlength] at h
    cases h
  · have hstack : stack = ((stack.take op.arity).reverse).reverse ++ stack.drop op.arity := by
      rw [List.reverse_reverse, List.take_append_drop]
    have hoperands : ((stack.take op.arity).reverse).length = op.arity := by
      rw [List.length_reverse, List.length_take]
      omega
    obtain ⟨result, hresult⟩ :=
      Option.isSome_iff_exists.1 ((op.isSome_valueAt?_iff _).2 hoperands)
    rw [hstack, run_reverse hresult] at h
    -- What the operation comes to, after the check that it is finite.
    cases hvalue : result.bind (finite origin) with
    | error e =>
      rw [hvalue] at h
      cases h
    | ok value =>
      rw [hvalue] at h
      exact ⟨_, _, result, value, hstack, hresult, hvalue, (Except.ok.inj h).symm⟩

theorem valueAt?_unary_eq_some {β : Type} {f : Float → β} {operands : List Float} {result : β}
    (h : (unary f).valueAt? operands = some result) : ∃ a, operands = [a] ∧ f a = result := by
  match operands, h with
  | [a], h => exact ⟨a, rfl, Option.some.inj h⟩

theorem valueAt?_binary_eq_some {β : Type} {f : Float → Float → β} {operands : List Float}
    {result : β} (h : (binary f).valueAt? operands = some result) :
    ∃ a b, operands = [a, b] ∧ f a b = result := by
  match operands, h with
  | [a, b], h => exact ⟨a, b, rfl, Option.some.inj h⟩

theorem valueAt?_map {β γ : Type} (g : β → γ) (op : Operation β) (operands : List Float) :
    (op.map g).valueAt? operands = (op.valueAt? operands).map g := by
  match op, operands with
  | unary _, [] | unary _, [_] | unary _, _ :: _ :: _ => rfl
  | binary _, [] | binary _, [_] | binary _, [_, _] | binary _, _ :: _ :: _ :: _ => rfl

end Operation

theorem BinaryOperator.operation_operator (op : BinaryOperator) :
    op.operator.operation = .binary op.apply := by
  cases op <;> rfl

/-! ### Tokens on the stack -/

theorem step_operator (op : Operator) (stack : List Float) :
    step stack (.operator op) = op.operation.run op.symbol stack := rfl

theorem step_negation (a : Float) (stack : List Float) :
    step (a :: stack) (.operator .neg) = (finite "neg" (-a)).map (· :: stack) := by
  have hvalue : Operator.neg.operation.valueAt? [a] = some (.ok (-a)) := rfl
  exact Operation.run_reverse hvalue "neg" stack

theorem step_binary (op : BinaryOperator) (a b : Float) (stack : List Float) :
    step (b :: a :: stack) (.operator op.operator)
      = ((op.apply a b).bind (finite op.operator.symbol)).map (· :: stack) := by
  have hvalue : op.operator.operation.valueAt? [a, b] = some (op.apply a b) := by
    rw [op.operation_operator]
    rfl
  exact Operation.run_reverse hvalue op.operator.symbol stack

/-- A call of a builtin takes its operands off the stack if the token says how many those are. -/
theorem call_of_ofName? {name : String} {f : Builtin} (h : Builtin.ofName? name = some f)
    (declared : Nat) (stack : List Float) :
    call name declared stack
      = if f.arity = declared then (f.operation.map Except.ok).run name stack
        else .error (.stack (.arityMismatch name f.arity declared)) := by
  unfold call
  rw [h]

theorem step_function (name : String) (values stack : List Float) :
    step (values.reverse ++ stack) (.function name values.length)
      = (callValue name values).map (· :: stack) := by
  show call name values.length (values.reverse ++ stack) = _
  unfold callValue
  -- A name that is no builtin is the same fault on either side.
  cases hname : Builtin.ofName? name with
  | none =>
    unfold call
    rw [hname]
    rfl
  | some f =>
    rw [call_of_ofName? hname]
    -- The count of the token is that of the values, so that only the arity may differ from it.
    by_cases hcount : f.arity = values.length
    · obtain ⟨value, hvalue⟩ : ∃ value, f.operation.valueAt? values = some value :=
        Option.isSome_iff_exists.1 ((f.operation.isSome_valueAt?_iff values).2 hcount.symm)
      -- The operation has a value at these operands, and what is left is to check it.
      have hmap : (f.operation.map Except.ok).valueAt? values
          = some (.ok value : Except Error Float) := by
        rw [Operation.valueAt?_map, hvalue]
        rfl
      rw [if_pos hcount, Operation.run_reverse hmap]
      simp only [hvalue]
      rfl
    · have hnone : f.operation.valueAt? values = none := by
        rw [← Option.not_isSome_iff_eq_none, f.operation.isSome_valueAt?_iff values]
        exact fun h => hcount h.symm
      rw [if_neg hcount]
      simp only [hnone]
      rfl

theorem runFrom_append (stack : List Float) (tokens tokens' : List Token) :
    runFrom stack (tokens ++ tokens') = runFrom stack tokens >>= (runFrom · tokens') := by
  unfold runFrom
  exact List.foldlM_append

theorem runFrom_singleton (stack : List Float) (token : Token) :
    runFrom stack [token] = step stack token := by
  unfold runFrom
  rw [List.foldlM_cons]
  cases step stack token <;> rfl

/-! ### Listings on the stack machine -/

/-- The listings of several trees push the values of the trees, if that holds of each. -/
private theorem runFrom_flatMap_postorder {es : List Expr}
    (h : ∀ e ∈ es, ∀ stack, runFrom stack e.postorder = e.evaluate.map (· :: stack))
    (stack : List Float) :
    runFrom stack (es.flatMap Expr.postorder)
      = (Expr.evaluateAll es).map (fun values => values.reverse ++ stack) := by
  -- By induction on the trees. The stack grows by one value for each, the last of them on top.
  induction es generalizing stack with
  | nil => rfl
  | cons e rest ih =>
    obtain ⟨hhead, htail⟩ := List.forall_mem_cons.1 h
    rw [List.flatMap_cons, runFrom_append, hhead, Expr.evaluateAll]
    -- The first tree that fails ends both.
    cases e.evaluate with
    | error err => rfl
    | ok value =>
      change runFrom (value :: stack) _ = _
      rw [ih htail]
      cases Expr.evaluateAll rest with
      | error err => rfl
      | ok values =>
        show Except.ok (values.reverse ++ value :: stack)
          = Except.ok ((value :: values).reverse ++ stack)
        rw [List.reverse_cons, List.append_assoc, List.singleton_append]

/-- **The listing of a tree pushes the value of the tree,** or fails as the tree does. -/
theorem runFrom_postorder (e : Expr) (stack : List Float) :
    runFrom stack e.postorder = e.evaluate.map (· :: stack) := by
  induction e generalizing stack with
  | number value => exact runFrom_singleton stack (.number value)
  | identifier name => rfl
  | negation operand ih =>
    rw [Expr.postorder_negation, runFrom_append, ih, Expr.evaluate]
    cases operand.evaluate with
    | error err => rfl
    | ok a => exact (runFrom_singleton _ _).trans (step_negation a stack)
  | binary op left right ihl ihr =>
    rw [Expr.postorder_binary, runFrom_append, runFrom_append, ihl, Expr.evaluate]
    cases left.evaluate with
    | error err => rfl
    | ok a =>
      change (runFrom (a :: stack) right.postorder >>= _) = _
      rw [ihr]
      cases right.evaluate with
      | error err => rfl
      | ok b => exact (runFrom_singleton _ _).trans (step_binary op a b stack)
  | call name arguments ih =>
    rw [Expr.postorder_call, runFrom_append, runFrom_flatMap_postorder ih, Expr.evaluate]
    cases harguments : Expr.evaluateAll arguments with
    | error err => rfl
    | ok values =>
      -- The token counts the arguments, and there is a value for each of them.
      rw [← Expr.length_of_evaluateAll harguments]
      exact (runFrom_singleton _ _).trans (step_function name values stack)

/-- What the trees of a stack list pushes the values of the trees, the bottom first. -/
theorem runFrom_listing (trees : List Expr) :
    runFrom [] (Expr.listing trees) = (Expr.evaluateAll trees.reverse).map List.reverse := by
  unfold Expr.listing
  rw [runFrom_flatMap_postorder fun e _ => runFrom_postorder e]
  simp only [List.append_nil]

theorem evaluatePostfix_postorder (e : Expr) : evaluatePostfix e.postorder = e.evaluate := by
  unfold evaluatePostfix
  rw [runFrom_postorder]
  cases e.evaluate <;> rfl

/-! ### The first failure -/

theorem fault?_or_bind {α β : Type} (x : Except Error α) (f : α → Except Error β) :
    (fault? x).or (fault? (x >>= f)) = fault? (x >>= f) := by
  cases x <;> rfl

/-- **The failure of a tree is the first among its subtrees in post-order.** -/
theorem Expr.findSome?_fault? (e : Expr) :
    e.subtrees.findSome? (fun s => fault? s.evaluate) = fault? e.evaluate := by
  induction e with
  | number value => simp [subtrees]
  | identifier name => simp [subtrees]
  | negation operand ih =>
    rw [subtrees, List.findSome?_append, ih, List.findSome?_singleton, evaluate, fault?_or_bind]
  | binary op left right ihl ihr =>
    rw [subtrees, List.findSome?_append, List.findSome?_append, ihl, ihr,
      List.findSome?_singleton, evaluate]
    cases left.evaluate with
    | error err => rfl
    | ok a => exact fault?_or_bind right.evaluate _
  | call name arguments ih =>
    -- The first failure among all arguments is that of the first argument that fails.
    have hall : (arguments.flatMap subtrees).findSome? (fun s => fault? s.evaluate)
        = fault? (evaluateAll arguments) := by
      clear name
      induction arguments with
      | nil => rfl
      | cons a rest ihrest =>
        obtain ⟨ha, hrest⟩ := List.forall_mem_cons.1 ih
        rw [List.flatMap_cons, List.findSome?_append, ha, ihrest hrest, evaluateAll]
        cases a.evaluate with
        | error err => rfl
        | ok value => cases evaluateAll rest <;> rfl
    rw [subtrees_call, List.findSome?_append, hall, List.findSome?_singleton, evaluate,
      fault?_or_bind]

/-! ### Runs of the machine, read as trees -/

section CallsBuiltins

theorem Expr.callsBuiltins_number (value : Float) : (Expr.number value).CallsBuiltins := by
  simp [CallsBuiltins, subtrees]

theorem Expr.CallsBuiltins.negation {operand : Expr} (h : operand.CallsBuiltins) :
    (Expr.negation operand).CallsBuiltins := by
  intro name arguments hmem
  simp only [subtrees, List.mem_append, List.mem_singleton, reduceCtorEq, or_false] at hmem
  exact h name arguments hmem

theorem Expr.CallsBuiltins.binary {op : BinaryOperator} {left right : Expr}
    (hl : left.CallsBuiltins) (hr : right.CallsBuiltins) :
    (Expr.binary op left right).CallsBuiltins := by
  intro name arguments hmem
  simp only [subtrees, List.mem_append, List.mem_singleton, reduceCtorEq, or_false] at hmem
  exact hmem.elim (hl name arguments) (hr name arguments)

theorem Expr.CallsBuiltins.call {name : String} {arguments : List Expr} {f : Builtin}
    (hname : Builtin.ofName? name = some f) (hcount : arguments.length = f.arity)
    (h : ∀ a ∈ arguments, a.CallsBuiltins) : (Expr.call name arguments).CallsBuiltins := by
  intro name' arguments' hmem
  rw [subtrees_call, List.mem_append, List.mem_flatMap, List.mem_singleton] at hmem
  rcases hmem with ⟨a, ha, hmem⟩ | hmem
  · exact h a ha name' arguments' hmem
  · obtain ⟨rfl, rfl⟩ := Expr.call.inj hmem
    exact ⟨f, hname, hcount⟩

end CallsBuiltins

/-- The trees of a stack have the numbers of a stack as values, and call builtins only. -/
structure Denotes (trees : List Expr) (stack : List Float) : Prop where
  evaluate : trees.map Expr.evaluate = stack.map .ok
  builtins : ∀ e ∈ trees, e.CallsBuiltins

namespace Denotes

theorem nil : Denotes [] [] := ⟨rfl, fun _ h => absurd h List.not_mem_nil⟩

theorem cons {e : Expr} {value : Float} {trees : List Expr} {stack : List Float}
    (hvalue : e.evaluate = .ok value) (he : e.CallsBuiltins) (h : Denotes trees stack) :
    Denotes (e :: trees) (value :: stack) where
  evaluate := by rw [List.map_cons, List.map_cons, hvalue, h.evaluate]
  builtins := List.forall_mem_cons.2 ⟨he, h.builtins⟩

/-- The operands on top of a stack of numbers are the values of the trees on top of the other. -/
theorem split {trees : List Expr} {operands stack : List Float}
    (h : Denotes trees (operands.reverse ++ stack)) :
    ∃ arguments rest : List Expr, trees = arguments.reverse ++ rest ∧
      arguments.map Expr.evaluate = operands.map .ok ∧ (∀ a ∈ arguments, a.CallsBuiltins) ∧
      Denotes rest stack := by
  -- The stack and the trees have as many parts, and the trees of the operands are on top as well.
  have heval := h.evaluate
  rw [List.map_append, List.map_eq_append_iff] at heval
  obtain ⟨top, rest, rfl, htop, hrest⟩ := heval
  refine ⟨top.reverse, rest, by rw [List.reverse_reverse], ?_, ?_, hrest, ?_⟩
  · rw [List.map_reverse, htop, List.map_reverse, List.reverse_reverse]
  · intro a ha
    exact h.builtins a (List.mem_append_left _ (List.mem_reverse.1 ha))
  · intro a ha
    exact h.builtins a (List.mem_append_right _ ha)

end Denotes

/-- An operator that the machine runs is read as the root of a tree, above the trees of its
operands. -/
theorem exists_assemble_of_step_operator {trees : List Expr} {stack stack' : List Float}
    {o : Operator} (h : Denotes trees stack) (hstep : step stack (.operator o) = .ok stack') :
    ∃ trees', Expr.assemble trees (.operator o) = some trees' ∧ Denotes trees' stack' := by
  rw [step_operator] at hstep
  obtain ⟨operands, rest, result, value, rfl, hresult, hvalue, rfl⟩ := Operation.run_eq_ok hstep
  obtain ⟨arguments, below, rfl, hevaluate, hcalls, hbelow⟩ := h.split
  -- The minus takes one operand and every other operator two.
  by_cases hneg : o = .neg
  · subst hneg
    obtain ⟨a, rfl, rfl⟩ := Operation.valueAt?_unary_eq_some hresult
    obtain ⟨x, rfl, hx⟩ := List.map_eq_singleton_iff.1 hevaluate
    refine ⟨_, rfl, hbelow.cons ?_ (hcalls x (List.mem_singleton_self x)).negation⟩
    rw [Expr.evaluate, hx]
    exact hvalue
  · obtain ⟨op, rfl⟩ := BinaryOperator.exists_operator_eq hneg
    rw [op.operation_operator] at hresult
    obtain ⟨a, b, rfl, rfl⟩ := Operation.valueAt?_binary_eq_some hresult
    -- The left operand was below the right one.
    obtain ⟨x, tail, rfl, hx, htail⟩ := List.map_eq_cons_iff.1 hevaluate
    obtain ⟨y, rfl, hy⟩ := List.map_eq_singleton_iff.1 htail
    have hcallsx : x.CallsBuiltins := hcalls x (by simp)
    have hcallsy : y.CallsBuiltins := hcalls y (by simp)
    refine ⟨_, Expr.assemble_operator op x y below, hbelow.cons ?_ (hcallsx.binary hcallsy)⟩
    rw [Expr.evaluate, hx, hy]
    exact hvalue

/-- A call that the machine runs is one of a builtin, has as many operands as the builtin takes, and
puts the value of the call in their place. -/
theorem call_eq_ok {name : String} {declared : Nat} {stack stack' : List Float}
    (h : call name declared stack = .ok stack') :
    ∃ f operands rest value, Builtin.ofName? name = some f ∧ stack = operands.reverse ++ rest ∧
      declared = operands.length ∧ operands.length = f.arity ∧
      callValue name operands = .ok value ∧ stack' = value :: rest := by
  -- Only a call of a builtin succeeds.
  cases hname : Builtin.ofName? name with
  | none =>
    unfold call at h
    rw [hname] at h
    cases h
  | some f =>
    rw [call_of_ofName? hname] at h
    -- And only with as many arguments as the arity says.
    by_cases hdeclared : f.arity = declared
    · rw [if_pos hdeclared] at h
      obtain ⟨operands, rest, result, value, hstack, hresult, hvalue, hstack'⟩ :=
        Operation.run_eq_ok h
      rw [Operation.valueAt?_map, Option.map_eq_some_iff] at hresult
      obtain ⟨raw, hraw, rfl⟩ := hresult
      have hoperands : operands.length = f.arity :=
        (f.operation.isSome_valueAt?_iff operands).1 (Option.isSome_of_mem hraw)
      refine ⟨f, operands, rest, value, rfl, hstack, by rw [hoperands, hdeclared], hoperands, ?_,
        hstack'⟩
      unfold callValue
      simp only [hname, hraw]
      exact hvalue
    · rw [if_neg hdeclared] at h
      cases h

/-- A call that the machine runs is read as the root of a tree, above the trees of its operands. -/
theorem exists_assemble_of_step_function {trees : List Expr} {stack stack' : List Float}
    {name : String} {declared : Nat} (h : Denotes trees stack)
    (hstep : step stack (.function name declared) = .ok stack') :
    ∃ trees', Expr.assemble trees (.function name declared) = some trees' ∧
      Denotes trees' stack' := by
  change call name declared stack = _ at hstep
  obtain ⟨f, operands, rest, value, hname, rfl, hdeclared, hoperands, hvalue, rfl⟩ :=
    call_eq_ok hstep
  obtain ⟨arguments, below, rfl, hevaluate, hcalls, hbelow⟩ := h.split
  -- There are as many trees as numbers, so the token counts the trees as well.
  have hcount : arguments.length = operands.length := by
    simpa using congrArg List.length hevaluate
  have hbuiltin := Expr.CallsBuiltins.call hname (hcount.trans hoperands) hcalls
  rw [hdeclared, ← hcount]
  refine ⟨_, Expr.assemble_function name arguments below, hbelow.cons ?_ hbuiltin⟩
  rw [Expr.evaluate, Expr.evaluateAll_eq_ok_iff.2 hevaluate]
  exact hvalue

/-- **A step of the machine is a step of the reading of a listing.** The invariant says what the
trees of the one are to the numbers of the other. -/
theorem exists_assemble_of_step {trees : List Expr} {stack stack' : List Float} {token : Token}
    (h : Denotes trees stack) (hstep : step stack token = .ok stack') :
    ∃ trees', Expr.assemble trees token = some trees' ∧ Denotes trees' stack' := by
  cases token with
  | number value =>
    have hfinite : finite "literal" value >>= (fun v => .ok (v :: stack)) = .ok stack' := hstep
    obtain ⟨v, hv, hstack⟩ := bind_eq_ok_iff.1 hfinite
    obtain rfl := Except.ok.inj hstack
    exact ⟨_, rfl, h.cons hv (Expr.callsBuiltins_number value)⟩
  | operator o => exact exists_assemble_of_step_operator h hstep
  | function name declared => exact exists_assemble_of_step_function h hstep
  -- The other tokens have no place in a postfix sequence.
  | identifier name => cases hstep
  | leftParen => cases hstep
  | rightParen => cases hstep
  | comma => cases hstep

/-- A run of the machine reads a listing on the way. -/
theorem exists_foldlM_assemble_of_runFrom {trees : List Expr} {stack stack' : List Float}
    {tokens : List Token} (h : Denotes trees stack) (hrun : runFrom stack tokens = .ok stack') :
    ∃ trees', tokens.foldlM Expr.assemble trees = some trees' ∧ Denotes trees' stack' := by
  -- By induction on the tokens: each step keeps the trees in agreement with the stack.
  induction tokens generalizing trees stack with
  | nil =>
    obtain rfl := Except.ok.inj hrun
    exact ⟨trees, rfl, h⟩
  | cons token rest ih =>
    unfold runFrom at hrun
    rw [List.foldlM_cons] at hrun
    obtain ⟨next, hstep, hrest⟩ := bind_eq_ok_iff.1 hrun
    obtain ⟨trees₁, hassemble, hnext⟩ := exists_assemble_of_step h hstep
    obtain ⟨trees₂, hfold, hlast⟩ := ih hnext hrest
    refine ⟨trees₂, ?_, hlast⟩
    rw [List.foldlM_cons, hassemble]
    exact hfold

/-- A sequence that the machine evaluates is read as a tree of that value. -/
theorem exists_ofPostorder?_of_evaluatePostfix {tokens : List Token} {value : Float}
    (h : evaluatePostfix tokens = .ok value) :
    ∃ e, Expr.ofPostorder? tokens = some e ∧ e.CallsBuiltins ∧ e.evaluate = .ok value := by
  -- The machine ends with one value on the stack, and so the fold with one tree.
  have hrun : runFrom [] tokens = .ok [value] := by
    unfold evaluatePostfix at h
    split at h
    · cases h
    · rename_i hrun
      rw [hrun, Except.ok.inj h]
    · cases h
    · cases h
  obtain ⟨trees, hfold, hdenotes⟩ := exists_foldlM_assemble_of_runFrom Denotes.nil hrun
  obtain ⟨e, rfl, hvalue⟩ := List.map_eq_singleton_iff.1 hdenotes.evaluate
  refine ⟨e, ?_, hdenotes.builtins e (List.mem_singleton_self e), hvalue⟩
  unfold Expr.ofPostorder?
  rw [hfold]

/-- **The stack machine and the trees agree.** A listing has the value or the error of its tree, and
that error is the first of a subtree in post-order. A sequence has a value just in case it is the
listing of one tree and no other, the calls of that tree are calls of builtins with as many
arguments as they take, and the tree has the value. -/
theorem evaluatePostfix_iff_tree :
    (∀ e : Expr, evaluatePostfix e.postorder = e.evaluate ∧
      e.subtrees.findSome? (fun s => fault? s.evaluate) = fault? e.evaluate) ∧
    (∀ tokens value, evaluatePostfix tokens = .ok value ↔
      ∃ e : Expr, (∀ e' : Expr, e'.postorder = tokens ↔ e' = e) ∧ e.CallsBuiltins ∧
        e.evaluate = .ok value) := by
  refine ⟨fun e => ⟨evaluatePostfix_postorder e, e.findSome?_fault?⟩, fun tokens value => ?_⟩
  constructor
  -- The tree is read back from the sequence, and no other tree has it for its listing.
  · intro h
    obtain ⟨e, hread, hcalls, hvalue⟩ := exists_ofPostorder?_of_evaluatePostfix h
    obtain rfl := Expr.ofPostorder?_eq_some_iff.1 hread
    exact ⟨e, fun e' => Expr.postorder_injective.eq_iff, hcalls, hvalue⟩
  -- And the machine evaluates whatever tree is listed.
  · rintro ⟨e, honly, -, hvalue⟩
    rw [← (honly e).2 rfl, evaluatePostfix_postorder, hvalue]

end Scoresheet.Formula
