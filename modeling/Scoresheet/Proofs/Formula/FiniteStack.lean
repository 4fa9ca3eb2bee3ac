import Scoresheet.Proofs.Formula.TreeEvaluation

/-!
# Every number on the stack is finite

A token may bring any float, and an operation on finite numbers may give one that is not finite.
Neither gets onto the stack, so that whatever sequence of tokens runs, the stack holds finite
numbers at every point of the run, and no builtin is applied to anything else.

* `FiniteStack` — the stacks of finite numbers, which a step (`FiniteStack.step`) and so a run
  (`FiniteStack.runFrom`) leaves as such.
* `Operation.atPlaces?` — an operation that looks its arguments up by their places.
* `stepNoting?`, `runNoting?` — the machine whose builtins look their arguments up in a list, and
  the applications of builtins that it makes.
* `runNoting?_eq` — that machine never looks past the end of a list and makes the same run, and
  every application is a proper one.

The machine of this library matches on the stack, so that it cannot miss an operand. The machine
that looks operands up could, and would then come to nothing. What rules that out is the check of
the stack before the operands are taken off, together with the check of the arity before that.
-/

namespace Scoresheet.Formula

/-! ### Stacks of finite numbers -/

/-- All numbers of a stack are finite. -/
def FiniteStack (stack : List Float) : Prop :=
  ∀ x ∈ stack, x.isFinite = true

theorem finite_eq_ok_iff {origin : String} {value x : Float} :
    finite origin value = .ok x ↔ value.isFinite = true ∧ value = x := by
  unfold finite
  split_ifs with h <;> simp [h]

theorem finiteStack_nil : FiniteStack [] := fun _ h => nomatch h

namespace FiniteStack

variable {stack stack' : List Float}

theorem cons {x : Float} (hx : x.isFinite = true) (h : FiniteStack stack) :
    FiniteStack (x :: stack) :=
  List.forall_mem_cons.2 ⟨hx, h⟩

theorem reverse_take (h : FiniteStack stack) (n : ℕ) : FiniteStack (stack.take n).reverse :=
  fun x hx => h x (List.mem_of_mem_take (List.mem_reverse.1 hx))

/-- **One operation** puts a finite number in the place of its operands. -/
theorem run (h : FiniteStack stack) {op : Operation (Except Error Float)} {origin : String}
    (hrun : op.run origin stack = .ok stack') : FiniteStack stack' := by
  obtain ⟨operands, rest, result, value, rfl, -, hvalue, rfl⟩ := Operation.run_eq_ok hrun
  obtain ⟨raw, -, hfinite⟩ := bind_eq_ok_iff.1 hvalue
  obtain ⟨hraw, rfl⟩ := finite_eq_ok_iff.1 hfinite
  exact .cons hraw fun x hx => h x (List.mem_append_right _ hx)

/-- **One token** leaves a stack of finite numbers, if it leaves one at all. -/
theorem step (h : FiniteStack stack) {token : Token} (hstep : step stack token = .ok stack') :
    FiniteStack stack' := by
  cases token with
  | number value =>
    obtain ⟨x, hx, rfl⟩ := map_eq_ok_iff.1 hstep
    obtain ⟨hfinite, rfl⟩ := finite_eq_ok_iff.1 hx
    exact h.cons hfinite
  | operator op => exact h.run hstep
  | function name declared =>
    change call name declared stack = .ok stack' at hstep
    unfold call at hstep
    split at hstep
    · cases hstep
    · split at hstep
      · exact h.run hstep
      · cases hstep
  -- The other tokens stop the machine.
  | identifier name => cases hstep
  | leftParen => cases hstep
  | rightParen => cases hstep
  | comma => cases hstep

end FiniteStack

theorem runFrom_cons (stack : List Float) (token : Token) (rest : List Token) :
    runFrom stack (token :: rest) = step stack token >>= (runFrom · rest) := by
  unfold runFrom
  exact List.foldlM_cons

/-- **A run** leaves a stack of finite numbers, since each of its steps does. -/
theorem FiniteStack.runFrom {stack stack' : List Float} {tokens : List Token}
    (h : FiniteStack stack) (hrun : runFrom stack tokens = .ok stack') : FiniteStack stack' := by
  induction tokens generalizing stack with
  | nil =>
    obtain rfl := Except.ok.inj hrun
    exact h
  | cons token rest ih =>
    rw [runFrom_cons] at hrun
    obtain ⟨next, hstep, hrest⟩ := bind_eq_ok_iff.1 hrun
    exact ih (h.step hstep) hrest

/-- The value of a sequence is what its run leaves on the stack. -/
theorem runFrom_of_evaluatePostfix {tokens : List Token} {value : Float}
    (h : evaluatePostfix tokens = .ok value) : runFrom [] tokens = .ok [value] := by
  unfold evaluatePostfix at h
  split at h
  · cases h
  · rename_i x hrun
    rw [hrun, Except.ok.inj h]
  · cases h
  · cases h

/-- **The value of a sequence** is finite, whatever its tokens are. -/
theorem isFinite_of_evaluatePostfix {tokens : List Token} {value : Float}
    (h : evaluatePostfix tokens = .ok value) : value.isFinite = true :=
  finiteStack_nil.runFrom (runFrom_of_evaluatePostfix h) value List.mem_cons_self

/-! ### Arguments looked up by their places -/

namespace Operation

variable {β : Type}

/-- The operation at arguments that it looks up by their places; nothing, where it looks past the
end. Arguments that it does not look at make no difference. -/
def atPlaces? : Operation β → List Float → Option β
  | unary f, arguments => arguments[0]?.map f
  | binary f, arguments => do return f (← arguments[0]?) (← arguments[1]?)

/-- At as many arguments as the operation takes, none is looked for past the end. -/
theorem exists_atPlaces? (op : Operation β) {arguments : List Float}
    (h : arguments.length = op.arity) :
    ∃ value, op.atPlaces? arguments = some value ∧ op.valueAt? arguments = some value := by
  obtain ⟨value, hvalue⟩ := Option.isSome_iff_exists.1 ((op.isSome_valueAt?_iff arguments).2 h)
  refine ⟨value, ?_, hvalue⟩
  -- With as many arguments as places, both ways of reading them find the same.
  cases op with
  | unary f =>
    obtain ⟨a, rfl, rfl⟩ := valueAt?_unary_eq_some hvalue
    rfl
  | binary f =>
    obtain ⟨a, b, rfl, rfl⟩ := valueAt?_binary_eq_some hvalue
    rfl

end Operation

/-- A builtin applied to arguments. -/
structure Application where
  builtin : Builtin
  arguments : List Float

/-- **A proper application** has exactly as many arguments as the builtin takes, and all of them are
finite. -/
structure Application.Proper (a : Application) : Prop where
  length : a.arguments.length = a.builtin.arity
  finite : FiniteStack a.arguments

/-- A builtin on the stack, with the application that is made. The arguments are taken off the stack
as a list in which the builtin looks them up; if it looks past the end, nothing comes of it. -/
def applyNoting? (f : Builtin) (name : String) (stack : List Float) :
    Option (List Application × Except Error (List Float)) :=
  if stack.length < f.arity then
    some ([], .error (.stack (.missingOperands name f.arity stack.length)))
  else do
    let arguments := (stack.take f.arity).reverse
    let value ← f.operation.atPlaces? arguments
    return ([⟨f, arguments⟩], (finite name value).map (· :: stack.drop f.arity))

/-- A call on the stack, with the application that it makes. -/
def callNoting? (name : String) (declared : Nat) (stack : List Float) :
    Option (List Application × Except Error (List Float)) :=
  match Builtin.ofName? name with
  | none => some ([], .error (.unknownSymbol name))
  | some f =>
    if f.arity = declared then applyNoting? f name stack
    else some ([], .error (.stack (.arityMismatch name f.arity declared)))

/-- One token on the stack, with the applications of builtins that it makes. -/
def stepNoting? (stack : List Float) :
    Token → Option (List Application × Except Error (List Float))
  | .function name declared => callNoting? name declared stack
  | token => some ([], step stack token)

/-- The stack after a sequence of tokens, with all applications of builtins in the order in which
they are made. -/
def runNoting? (stack : List Float) :
    List Token → Option (List Application × Except Error (List Float))
  | [] => some ([], .ok stack)
  | token :: rest => do
    let (applications, outcome) ← stepNoting? stack token
    match outcome with
    | .error e => return (applications, .error e)
    | .ok next =>
      let (further, last) ← runNoting? next rest
      return (applications ++ further, last)

/-- **A builtin** finds its arguments in the list that is taken off the stack, and does what it does
by matching on the stack. -/
theorem applyNoting?_eq {stack : List Float} (h : FiniteStack stack) (f : Builtin) (name : String) :
    ∃ applications,
      applyNoting? f name stack
        = some (applications, (f.operation.map Except.ok).run name stack) ∧
      ∀ a ∈ applications, a.Proper := by
  unfold applyNoting?
  by_cases hshort : stack.length < f.arity
  · have harity : (f.operation.map (Except.ok : Float → Except Error Float)).arity = f.arity :=
      f.operation.arity_map _
    rw [if_pos hshort, Operation.run_of_short (harity.symm ▸ hshort), harity]
    exact ⟨[], rfl, nofun⟩
  · have hlength : (stack.take f.arity).reverse.length = f.operation.arity := by
      rw [List.length_reverse, List.length_take]
      exact Nat.min_eq_left (Nat.not_lt.1 hshort)
    obtain ⟨value, hplaces, hvalue⟩ := f.operation.exists_atPlaces? hlength
    have hmap : (f.operation.map Except.ok).valueAt? (stack.take f.arity).reverse
        = some (.ok value : Except Error Float) := by
      rw [Operation.valueAt?_map, hvalue]
      rfl
    -- The stack is the arguments, the last on top, and what is below them.
    have hrun : (f.operation.map Except.ok).run name stack
        = (finite name value).map (· :: stack.drop f.arity) := by
      have hstack := Operation.run_reverse hmap name (stack.drop f.arity)
      rwa [List.reverse_reverse, List.take_append_drop] at hstack
    rw [if_neg hshort, hrun]
    refine ⟨[⟨f, (stack.take f.arity).reverse⟩], ?_, ?_⟩
    · show (f.operation.atPlaces? (stack.take f.arity).reverse >>= _) = _
      rw [hplaces]
      rfl
    · exact List.forall_mem_singleton.2 ⟨hlength, h.reverse_take f.arity⟩

/-- **A call** makes a proper application if it makes any. -/
theorem callNoting?_eq {stack : List Float} (h : FiniteStack stack) (name : String)
    (declared : ℕ) :
    ∃ applications,
      callNoting? name declared stack = some (applications, call name declared stack) ∧
      ∀ a ∈ applications, a.Proper := by
  unfold callNoting? call
  -- The machine looks at the stack only for a builtin with as many arguments as its arity.
  cases Builtin.ofName? name with
  | none => exact ⟨[], rfl, nofun⟩
  | some f =>
    show ∃ applications, ite _ _ _ = some (applications, ite _ _ _) ∧ _
    by_cases hdeclared : f.arity = declared
    · rw [if_pos hdeclared, if_pos hdeclared]
      exact applyNoting?_eq h f name
    · rw [if_neg hdeclared, if_neg hdeclared]
      exact ⟨[], rfl, nofun⟩

/-- **One token** makes proper applications only, and does what it does on the stack. -/
theorem stepNoting?_eq {stack : List Float} (h : FiniteStack stack) (token : Token) :
    ∃ applications, stepNoting? stack token = some (applications, step stack token) ∧
      ∀ a ∈ applications, a.Proper := by
  cases token with
  | function name declared => exact callNoting?_eq h name declared
  | _ => exact ⟨[], rfl, nofun⟩

/-- **A run** makes proper applications only, and does what it does on the stack: no builtin looks
for an argument past the end. -/
theorem runNoting?_eq {stack : List Float} (h : FiniteStack stack) (tokens : List Token) :
    ∃ applications, runNoting? stack tokens = some (applications, runFrom stack tokens) ∧
      ∀ a ∈ applications, a.Proper := by
  induction tokens generalizing stack with
  | nil => exact ⟨[], rfl, nofun⟩
  | cons token rest ih =>
    obtain ⟨applications, hnoted, hproper⟩ := stepNoting?_eq h token
    rw [runFrom_cons, runNoting?, hnoted]
    cases hstep : step stack token with
    | error e => exact ⟨applications, rfl, hproper⟩
    | ok next =>
      -- The stack is one of finite numbers again, so that the rest of the run is as good.
      obtain ⟨further, hrest, hproper'⟩ := ih (h.step hstep)
      refine ⟨applications ++ further, ?_, List.forall_mem_append.2 ⟨hproper, hproper'⟩⟩
      show (runNoting? next rest >>= fun run => some (applications ++ run.1, run.2)) = _
      rw [hrest]
      rfl

end Scoresheet.Formula
