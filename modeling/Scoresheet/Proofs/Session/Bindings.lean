import Mathlib.Data.List.Nodup
import Mathlib.Data.List.Perm.Basic
import Scoresheet.Proofs.Basic
import Scoresheet.Session.Validation

/-!
# The bindings of an answer

The values of an answer become bindings if no variable is given twice, and the bindings are then the
values in their order, each as its text. The validation looks for repeated names in another way and
finds one in the same cases.

* `Answer.bindings_eq_ok_iff` — when there are bindings, and which.
* `Answer.exists_of_bindingsFrom_eq_error` — why there are none.
* `Answer.valueOf?`, `Answer.valueOf?_perm` — the value of a variable, in whatever order they are.
* `Answer.find?_bindings` — the text that a variable is bound to.
* `repetitions_eq_nil_iff` — when the validation finds no repeated name.
-/

namespace Scoresheet

namespace Formula.Bindings

variable {bindings : Bindings} {name : String}

theorem find?_eq_none_iff :
    bindings.find? name = none ↔ name ∉ bindings.entries.map Prod.fst :=
  lookup_eq_none_iff_not_mem

theorem isSome_find?_iff : (bindings.find? name).isSome ↔ name ∈ bindings.entries.map Prod.fst := by
  rw [Option.isSome_iff_ne_none, ne_eq, find?_eq_none_iff, not_not]

/-- A name without a text is bound after the others. -/
theorem entries_insert (h : bindings.find? name = none) (text : String) :
    (bindings.insert name text).entries = bindings.entries ++ [(name, text)] := by
  unfold insert
  simp [h]

theorem find?_insert_eq_none_iff (h : bindings.find? name = none) {other text : String} :
    (bindings.insert name text).find? other = none ↔
      other ≠ name ∧ bindings.find? other = none := by
  rw [find?_eq_none_iff, find?_eq_none_iff, entries_insert h]
  simp [and_comm]

end Formula.Bindings

/-- What the value of a variable binds: the variable's name, to the text of the value. -/
def VariableValue.entry (v : VariableValue) : String × String :=
  (v.input.name, Decimal.plain v.value)

namespace Answer

/-- **Values become bindings** if their names are distinct and not bound before. -/
theorem bindingsFrom_eq_ok_iff {bindings bindings' : Formula.Bindings}
    {values : List VariableValue} :
    bindingsFrom bindings values = .ok bindings' ↔
      (values.map fun v => v.input.name).Nodup ∧
        (∀ v ∈ values, bindings.find? v.input.name = none) ∧
        bindings' = ⟨bindings.entries ++ values.map VariableValue.entry⟩ := by
  -- By induction on the values, with those that are bound already.
  induction values generalizing bindings with
  | nil => simp [bindingsFrom, eq_comm]
  | cons v rest ih =>
    unfold bindingsFrom
    cases hfound : bindings.find? v.input.name with
    -- The name is taken.
    | some text =>
      rw [Option.isSome_some, if_pos rfl]
      refine iff_of_false (fun h => nomatch h) fun ⟨_, hunbound, _⟩ => ?_
      rw [hunbound v List.mem_cons_self] at hfound
      cases hfound
    | none =>
      -- The name is free, so that it is new to the other values if and only if it is none of
      -- theirs.
      rw [Option.isSome_none, if_neg Bool.false_ne_true, ih]
      simp only [Formula.Bindings.find?_insert_eq_none_iff hfound,
        Formula.Bindings.entries_insert hfound, List.map_cons, List.nodup_cons,
        List.forall_mem_cons, hfound, true_and, List.mem_map, not_exists, not_and,
        List.append_assoc, List.singleton_append, VariableValue.entry]
      constructor
      · rintro ⟨hnodup, hunbound, heq⟩
        exact ⟨⟨fun w hw => (hunbound w hw).1, hnodup⟩, fun w hw => (hunbound w hw).2, heq⟩
      · rintro ⟨⟨hnew, hnodup⟩, hunbound, heq⟩
        exact ⟨hnodup, fun w hw => ⟨hnew w hw, hunbound w hw⟩, heq⟩

/-- **Values become no bindings** for the first of them whose name is bound by then. -/
theorem exists_of_bindingsFrom_eq_error {bindings : Formula.Bindings} {values : List VariableValue}
    {e : Formula.Error} (h : bindingsFrom bindings values = .error e) :
    ∃ before v after bindings', values = before ++ v :: after ∧
      bindingsFrom bindings before = .ok bindings' ∧
      (bindings'.find? v.input.name).isSome ∧ e = .duplicateBinding v.input.name := by
  -- By induction on the values up to the one whose name is taken.
  induction values generalizing bindings with
  | nil => cases h
  | cons v rest ih =>
    unfold bindingsFrom at h
    split at h
    · rename_i hbound
      exact ⟨[], v, rest, bindings, rfl, rfl, hbound, (Except.error.inj h).symm⟩
    · rename_i hfree
      obtain ⟨before, w, after, bindings', rfl, hbefore, hbound, heq⟩ := ih h
      refine ⟨v :: before, w, after, bindings', rfl, ?_, hbound, heq⟩
      rw [bindingsFrom, if_neg hfree, hbefore]

variable {answer : Answer} {bindings : Formula.Bindings} {name : String}

/-- **An answer has bindings** if it gives no variable twice. -/
theorem bindings_eq_ok_iff :
    answer.bindings = .ok bindings ↔
      answer.variableNames.Nodup ∧ bindings = ⟨answer.variableValues.map VariableValue.entry⟩ := by
  unfold Answer.bindings
  rw [bindingsFrom_eq_ok_iff]
  simp [variableNames, Formula.Bindings.find?]

/-- The names that are bound are those of the variables. -/
theorem map_fst_of_bindings (h : answer.bindings = .ok bindings) :
    bindings.entries.map Prod.fst = answer.variableNames := by
  obtain ⟨-, rfl⟩ := bindings_eq_ok_iff.1 h
  rw [List.map_map]
  rfl

theorem isSome_find?_of_bindings (h : answer.bindings = .ok bindings) :
    (bindings.find? name).isSome ↔ name ∈ answer.variableNames := by
  rw [Formula.Bindings.isSome_find?_iff, map_fst_of_bindings h]

/-- **The value of a variable:** the first that the answer gives for its name. -/
def valueOf? (answer : Answer) (name : String) : Option Float :=
  (answer.variableValues.map fun v => (v.input.name, v.value)).lookup name

/-- Where no variable is given twice, every value is that of its variable. -/
theorem valueOf?_eq_some_iff (h : answer.variableNames.Nodup) {value : Float} :
    answer.valueOf? name = some value ↔
      ∃ v ∈ answer.variableValues, v.input.name = name ∧ v.value = value := by
  have hnodup : ((answer.variableValues.map fun v => (v.input.name, v.value)).map
      Prod.fst).Nodup := by
    rwa [List.map_map]
  -- The names are distinct, so that being looked up is being a member.
  have hmem : (name, value) ∈ answer.variableValues.map (fun v => (v.input.name, v.value)) ↔
      ∃ v ∈ answer.variableValues, v.input.name = name ∧ v.value = value := by
    simp
  rw [← hmem]
  exact ⟨mem_of_lookup_eq_some, lookup_eq_some_of_mem hnodup⟩

/-- **The order of the values** does not count, where no variable is given twice. -/
theorem valueOf?_perm {other : Answer} (h : answer.variableNames.Nodup)
    (hperm : other.variableValues.Perm answer.variableValues) :
    other.valueOf? = answer.valueOf? := by
  have hother : other.variableNames.Nodup := ((hperm.map _).nodup_iff).2 h
  funext name
  refine Option.ext fun value => ?_
  rw [valueOf?_eq_some_iff h, valueOf?_eq_some_iff hother]
  simp only [hperm.mem_iff]

/-- **The text that a variable is bound to** is that of its value. -/
theorem find?_bindings (h : answer.bindings = .ok bindings) (name : String) :
    bindings.find? name = (answer.valueOf? name).map Decimal.plain := by
  obtain ⟨-, rfl⟩ := bindings_eq_ok_iff.1 h
  unfold valueOf? Formula.Bindings.find?
  dsimp only
  induction answer.variableValues with
  | nil => rfl
  | cons v rest ih =>
    rw [List.map_cons, List.map_cons, VariableValue.entry, List.lookup_cons, List.lookup_cons, ih]
    cases name == v.input.name <;> rfl

theorem find?_of_bindings (h : answer.bindings = .ok bindings) {text : String} :
    bindings.find? name = some text ↔
      ∃ v ∈ answer.variableValues, v.input.name = name ∧ Decimal.plain v.value = text := by
  rw [find?_bindings h, Option.map_eq_some_iff]
  simp only [valueOf?_eq_some_iff (bindings_eq_ok_iff.1 h).1]
  constructor
  · rintro ⟨value, ⟨v, hv, hname, rfl⟩, htext⟩
    exact ⟨v, hv, hname, htext⟩
  · rintro ⟨v, hv, hname, htext⟩
    exact ⟨v.value, ⟨v, hv, hname, rfl⟩, htext⟩

end Answer

/-- **No element is repeated** if they are distinct and new. -/
theorem repetitions_eq_nil_iff {α : Type} [BEq α] [LawfulBEq α] {seen list : List α} :
    repetitions seen list = [] ↔ list.Nodup ∧ ∀ a ∈ list, a ∉ seen := by
  -- By induction on the list: each element is held against all those before it.
  induction list generalizing seen with
  | nil => simp [repetitions]
  | cons a rest ih =>
    unfold repetitions
    by_cases hseen : a ∈ seen
    · rw [if_pos (List.contains_iff_mem.2 hseen)]
      exact iff_of_false (List.cons_ne_nil _ _) fun ⟨_, hnew⟩ => hnew a List.mem_cons_self hseen
    · rw [if_neg (mt List.contains_iff_mem.1 hseen), ih, List.nodup_cons, List.forall_mem_cons]
      simp only [List.mem_cons, not_or]
      -- An element is new to the rest if it is not among what was seen, and neither is this one.
      constructor
      · rintro ⟨hnodup, hnew⟩
        exact ⟨⟨fun ha => (hnew a ha).1 rfl, hnodup⟩, hseen, fun b hb => (hnew b hb).2⟩
      · rintro ⟨⟨ha, hnodup⟩, -, hnew⟩
        exact ⟨hnodup, fun b hb => ⟨fun heq => ha (heq ▸ hb), hnew b hb⟩⟩

end Scoresheet
