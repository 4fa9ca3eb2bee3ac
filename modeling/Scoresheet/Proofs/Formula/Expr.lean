import Scoresheet.Formula.Token

/-!
# Expression trees and their listings

A postfix sequence lists a tree: every operation follows its operands, and a call says how many
operands it has. The listing is therefore read back without any parenthesis, on a stack of trees:

* `Expr` — the trees, with calls of any name and any number of arguments.
* `Expr.subtrees`, `Expr.postorder` — the subtrees in post-order, and their roots as tokens.
* `Expr.assemble` — one token on a stack of trees.
* `Expr.ofPostorder?_eq_some_iff` — the token sequences that can be read back are the listings, and
  each of them is the listing of the one tree that is read.

The stack of trees has the shape of the stack machine's stack of numbers, top first, so that a run
of the machine can be followed tree by tree.
-/

namespace Scoresheet.Formula

/-- An operator between two operands. -/
inductive BinaryOperator where
  | add
  | sub
  | mul
  | div
deriving Repr, DecidableEq

namespace BinaryOperator

/-- The operator as tokens have it. -/
def operator : BinaryOperator → Operator
  | add => .add
  | sub => .sub
  | mul => .mul
  | div => .div

/-- The operator between two operands that a token's operator is, if it is one. -/
def ofOperator? : Operator → Option BinaryOperator
  | .add => some add
  | .sub => some sub
  | .mul => some mul
  | .div => some div
  | .neg => none

@[simp] theorem ofOperator?_operator (op : BinaryOperator) : ofOperator? op.operator = some op := by
  cases op <;> rfl

theorem ofOperator?_eq_some {o : Operator} {op : BinaryOperator} (h : ofOperator? o = some op) :
    op.operator = o := by
  cases o <;> cases h <;> rfl

theorem operator_injective : Function.Injective operator := by
  intro op op' h
  have hop := congrArg ofOperator? h
  rw [ofOperator?_operator, ofOperator?_operator] at hop
  exact Option.some.inj hop

/-- Every operator but the unary minus stands between two operands. -/
theorem exists_operator_eq {o : Operator} (h : o ≠ .neg) : ∃ op : BinaryOperator, op.operator = o :=
  match o with
  | .add => ⟨add, rfl⟩
  | .sub => ⟨sub, rfl⟩
  | .mul => ⟨mul, rfl⟩
  | .div => ⟨div, rfl⟩
  | .neg => absurd rfl h

end BinaryOperator

/-- An arithmetic expression. -/
inductive Expr where
  | number (value : Float)
  | identifier (name : String)
  | negation (operand : Expr)
  | binary (op : BinaryOperator) (left right : Expr)
  | call (name : String) (arguments : List Expr)

namespace Expr

/-- Induction over a tree, where a call may use the claim for each of its arguments. -/
@[elab_as_elim, induction_eliminator]
theorem induction {motive : Expr → Prop} (number : ∀ value, motive (.number value))
    (identifier : ∀ name, motive (.identifier name))
    (negation : ∀ operand, motive operand → motive (.negation operand))
    (binary : ∀ op left right, motive left → motive right → motive (.binary op left right))
    (call : ∀ name arguments, (∀ a ∈ arguments, motive a) → motive (.call name arguments))
    (e : Expr) : motive e :=
  @Expr.rec motive (fun arguments => ∀ a ∈ arguments, motive a) number identifier negation binary
    call (fun _ h => absurd h List.not_mem_nil)
    (fun _ _ hhead htail => List.forall_mem_cons.2 ⟨hhead, htail⟩) e

mutual

/-- The subtrees of a tree in post-order, the tree itself last. -/
def subtrees : Expr → List Expr
  | number value => [number value]
  | identifier name => [identifier name]
  | negation operand => operand.subtrees ++ [negation operand]
  | binary op left right => left.subtrees ++ right.subtrees ++ [binary op left right]
  | call name arguments => subtreesOfAll arguments ++ [call name arguments]

/-- The subtrees of all trees of a list, one tree after the other. -/
def subtreesOfAll : List Expr → List Expr
  | [] => []
  | e :: rest => e.subtrees ++ subtreesOfAll rest

end

theorem subtreesOfAll_eq_flatMap (es : List Expr) : subtreesOfAll es = es.flatMap subtrees := by
  induction es with
  | nil => rfl
  | cons e rest ih => rw [subtreesOfAll, ih, List.flatMap_cons]

theorem subtrees_call (name : String) (arguments : List Expr) :
    (call name arguments).subtrees = arguments.flatMap subtrees ++ [call name arguments] := by
  rw [subtrees, subtreesOfAll_eq_flatMap]

/-- The token of a tree's root. That of a call carries the number of arguments. -/
def root : Expr → Token
  | number value => .number value
  | identifier name => .identifier name
  | negation _ => .operator .neg
  | binary op _ _ => .operator op.operator
  | call name arguments => .function name arguments.length

/-- **The listing of a tree in post-order.** -/
def postorder (e : Expr) : List Token :=
  e.subtrees.map root

section Listing

@[simp] theorem postorder_number (value : Float) : (number value).postorder = [.number value] := rfl

@[simp] theorem postorder_identifier (name : String) :
    (identifier name).postorder = [.identifier name] := rfl

@[simp] theorem postorder_negation (operand : Expr) :
    (negation operand).postorder = operand.postorder ++ [.operator .neg] := by
  simp [postorder, subtrees, root]

@[simp] theorem postorder_binary (op : BinaryOperator) (left right : Expr) :
    (binary op left right).postorder
      = left.postorder ++ right.postorder ++ [.operator op.operator] := by
  simp [postorder, subtrees, root]

@[simp] theorem postorder_call (name : String) (arguments : List Expr) :
    (call name arguments).postorder
      = arguments.flatMap postorder ++ [.function name arguments.length] := by
  unfold postorder
  rw [subtrees_call, List.map_append, List.map_flatMap]
  rfl

end Listing

/-! ### Reading a listing back -/

/-- One token of a listing on a stack of trees, whose top comes first: the root takes its operands
off the stack, if there are as many. -/
def assemble : List Expr → Token → Option (List Expr)
  | trees, .number value => some (number value :: trees)
  | trees, .identifier name => some (identifier name :: trees)
  | a :: trees, .operator .neg => some (negation a :: trees)
  | b :: a :: trees, .operator o => do
    let op ← BinaryOperator.ofOperator? o
    return binary op a b :: trees
  | trees, .function name count =>
    if count ≤ trees.length then some (call name (trees.take count).reverse :: trees.drop count)
    else none
  | _, _ => none

/-- The tree with the given listing, if there is one. -/
def ofPostorder? (tokens : List Token) : Option Expr :=
  match tokens.foldlM assemble [] with
  | some [e] => some e
  | _ => none

@[simp] theorem assemble_operator (op : BinaryOperator) (a b : Expr) (trees : List Expr) :
    assemble (b :: a :: trees) (.operator op.operator) = some (binary op a b :: trees) := by
  cases op <;> rfl

/-- A call takes the topmost trees, of which the last argument is the top. -/
theorem assemble_function (name : String) (arguments trees : List Expr) :
    assemble (arguments.reverse ++ trees) (.function name arguments.length)
      = some (call name arguments :: trees) := by
  have hlength : arguments.length = arguments.reverse.length := List.length_reverse.symm
  rw [assemble, if_pos (by simp), hlength, List.take_left, List.drop_left, List.reverse_reverse]

/-- Reading the listings of several trees puts the trees on the stack, if that holds of each. -/
private theorem foldlM_assemble_flatMap {es : List Expr}
    (h : ∀ e ∈ es, ∀ trees, e.postorder.foldlM assemble trees = some (e :: trees))
    (trees : List Expr) :
    (es.flatMap postorder).foldlM assemble trees = some (es.reverse ++ trees) := by
  induction es generalizing trees with
  | nil => rfl
  | cons e rest ih =>
    obtain ⟨hhead, htail⟩ := List.forall_mem_cons.1 h
    rw [List.flatMap_cons, List.foldlM_append, hhead, Option.bind_eq_bind, Option.bind_some,
      ih htail, List.reverse_cons, List.append_assoc, List.singleton_append]

/-- Reading the listing of a tree puts the tree on the stack. -/
theorem foldlM_assemble_postorder (e : Expr) (trees : List Expr) :
    e.postorder.foldlM assemble trees = some (e :: trees) := by
  -- By induction on the tree: every constructor lists its children before itself, so that they are
  -- on the stack when its own token is read.
  induction e generalizing trees with
  | number value => rfl
  | identifier name => rfl
  | negation operand ih =>
    rw [postorder_negation, List.foldlM_append, ih]
    rfl
  | binary op left right ihl ihr =>
    -- The right operand is then on top, and `assemble` takes the two off in that order.
    rw [postorder_binary, List.foldlM_append, List.foldlM_append, ihl, Option.bind_eq_bind,
      Option.bind_some, ihr]
    exact congrArg (· >>= pure) (assemble_operator op left right trees)
  | call name arguments ih =>
    rw [postorder_call, List.foldlM_append, foldlM_assemble_flatMap ih]
    exact congrArg (· >>= pure) (assemble_function name arguments trees)

/-- **No two trees have the same listing.** -/
theorem postorder_injective : Function.Injective postorder := by
  intro e e' h
  have h₁ := foldlM_assemble_postorder e []
  rw [h, foldlM_assemble_postorder] at h₁
  simpa using h₁.symm

/-- What the trees of a stack list, the bottom first. -/
def listing (trees : List Expr) : List Token :=
  trees.reverse.flatMap postorder

@[simp] theorem listing_nil : listing [] = [] := rfl

@[simp] theorem listing_cons (e : Expr) (trees : List Expr) :
    listing (e :: trees) = listing trees ++ e.postorder := by
  simp [listing]

/-- Reading what the trees of a stack list gives the stack back. -/
theorem foldlM_assemble_listing (trees : List Expr) :
    (listing trees).foldlM assemble [] = some trees := by
  rw [listing, foldlM_assemble_flatMap fun e _ => foldlM_assemble_postorder e,
    List.reverse_reverse, List.append_nil]

/-- **No two stacks of trees list the same.** -/
theorem listing_injective : Function.Injective listing := by
  intro trees trees' h
  have hread := foldlM_assemble_listing trees
  rw [h, foldlM_assemble_listing] at hread
  exact (Option.some.inj hread).symm

/-- What the topmost trees list comes last. -/
theorem listing_append (top trees : List Expr) :
    listing (top ++ trees) = listing trees ++ top.reverse.flatMap postorder := by
  unfold listing
  rw [List.reverse_append, List.flatMap_append]

/-- A token that is read is added to what the stack lists. -/
theorem listing_of_assemble {trees trees' : List Expr} {token : Token}
    (h : assemble trees token = some trees') : listing trees' = listing trees ++ [token] := by
  unfold assemble at h
  split at h
  · obtain rfl := Option.some.inj h
    simp
  · obtain rfl := Option.some.inj h
    simp
  · obtain rfl := Option.some.inj h
    simp
  · simp only [Option.bind_eq_bind, Option.pure_def, Option.bind_eq_some_iff,
      Option.some.injEq] at h
    obtain ⟨op, hop, rfl⟩ := h
    simp [BinaryOperator.ofOperator?_eq_some hop]
  · split at h
    · rename_i name count hcount
      obtain rfl := Option.some.inj h
      -- The stack below the arguments and the arguments themselves make up the old stack.
      have hsplit : listing (trees.drop count) ++ (trees.take count).reverse.flatMap postorder
          = listing trees := by
        rw [← listing_append, List.take_append_drop]
      rw [listing_cons, postorder_call, ← List.append_assoc, hsplit, List.length_reverse,
        List.length_take, Nat.min_eq_left hcount]
    · exact absurd h (by simp)
  · exact absurd h (by simp)

/-- Tokens that are read are added to what the stack lists. -/
theorem listing_of_foldlM_assemble {tokens : List Token} {trees trees' : List Expr}
    (h : tokens.foldlM assemble trees = some trees') :
    listing trees' = listing trees ++ tokens := by
  -- By induction on the tokens: each appends itself to what the trees list.
  induction tokens generalizing trees with
  | nil =>
    obtain rfl := Option.some.inj h
    rw [List.append_nil]
  | cons token rest ih =>
    rw [List.foldlM_cons, Option.bind_eq_bind, Option.bind_eq_some_iff] at h
    obtain ⟨next, hnext, hrest⟩ := h
    rw [ih hrest, listing_of_assemble hnext, List.append_assoc, List.singleton_append]

/-- **What can be read back is a listing,** that of the tree which is read. -/
theorem ofPostorder?_eq_some_iff {tokens : List Token} {e : Expr} :
    ofPostorder? tokens = some e ↔ e.postorder = tokens := by
  constructor
  · intro h
    -- A listing may leave several trees on the stack; it is that of a tree if just one is left.
    unfold ofPostorder? at h
    split at h
    · rename_i tree htree
      obtain rfl := Option.some.inj h
      have hlist := listing_of_foldlM_assemble htree
      simpa using hlist
    · exact absurd h (by simp)
  -- Conversely the listing is read on the empty stack.
  · rintro rfl
    rw [ofPostorder?, foldlM_assemble_postorder]

end Expr

end Scoresheet.Formula
