import Mathlib.Data.Set.Finite.List
import Mathlib.Order.WellFoundedSet
import Scoresheet.Proofs.Host
import Scoresheet.Proofs.Settings.Reference
import Scoresheet.Settings.Loading

/-!
# When loading settings comes to an end

The key of the settings is expanded in the world as it is, so that loading returns exactly if the
replacements in the key do. Where all variables have tidy values that is so for every key exactly if
no variable refers to itself, directly or through others. A variable that is not set refers to none,
so that an endless chain of references would come back to a variable.

* `expand_of_expands`, `expand_of_not_ends` — expanding a text in a world.
* `wellFounded_iff_acyclic` — no endless chains, and no circles.
* `Returns` — a computation that comes to an end.
* `looks_load` — loading settings changes nothing.
* `load_returns_iff_acyclic` — when texts are expanded and settings are loaded.
-/

namespace Scoresheet

/-- The value that a reference to a variable gives place to. -/
def World.value (world : World) (name : String) : List Char :=
  ((world.environmentValue? name).getD "").toList

namespace Settings

open Iteration

/-! ### Expanding in a world -/

theorem replaceFirst_of_none {text : List Char} (h : nextReference? text = none) (world : World) :
    replaceFirst (m := StateM World) valueOf text world = (.inr text, world) := by
  rw [replaceFirst, h]
  rfl

theorem replaceFirst_of_some {text before after : List Char} {name : String}
    (h : nextReference? text = some (before, name, after)) (world : World) :
    replaceFirst (m := StateM World) valueOf text world
      = (.inl (before ++ world.value name ++ after), world) := by
  rw [replaceFirst, h]
  rfl

/-- The first reference of a text gives place to its value until none is left. -/
theorem yields_replaceFirst_iff {world : World} {text : List Char} {r : List Char × World} :
    Yields (replaceFirst valueOf) text world r
      ↔ r.2 = world ∧ Expands world.value text r.1 := by
  constructor
  · -- By induction on the rounds: a round ends the loop if there is no reference left.
    intro h
    induction h with
    | @stop text world _ _ hstep =>
      cases hnext : nextReference? text with
      | none =>
        rw [replaceFirst_of_none hnext] at hstep
        cases hstep
        exact ⟨rfl, .done hnext⟩
      | some next =>
        rw [replaceFirst_of_some hnext] at hstep
        cases hstep
    | @again text _ world _ _ hstep _ ih =>
      -- The loop goes round again only where a reference is left, and then on the text replaced.
      cases hnext : nextReference? text with
      | none =>
        rw [replaceFirst_of_none hnext] at hstep
        cases hstep
      | some next =>
        rw [replaceFirst_of_some hnext] at hstep
        cases hstep
        exact ⟨ih.1, .replaced hnext ih.2⟩
  · obtain ⟨result, world'⟩ := r
    rintro ⟨hworld, h : Expands world.value text result⟩
    obtain rfl : world' = world := hworld
    induction h with
    | done hnext => exact .stop (replaceFirst_of_none hnext world')
    | replaced hnext _ ih => exact .again (replaceFirst_of_some hnext world') ih

/-- A text is expanded by the loop that replaces its references. -/
theorem expand_eq (world : World) (text : List Char) :
    expand (m := StateM World) valueOf text world
      = (iterate (replaceFirst valueOf) (text, world)).1.elim (none, world)
          fun r => (some r.1, r.2) :=
  rfl

/-- **A text that comes to an end** is expanded to what becomes of it. -/
theorem expand_of_expands {world : World} {text result : List Char}
    (h : Expands world.value text result) :
    expand (m := StateM World) valueOf text world = (some result, world) := by
  have hyields : Yields (replaceFirst valueOf) text world (result, world) :=
    yields_replaceFirst_iff.2 ⟨rfl, h⟩
  rw [expand_eq, ((iterate (replaceFirst valueOf) (text, world)).2 _).2 hyields]
  rfl

/-- Of a text that does not come to an end nothing becomes. -/
theorem expand_of_not_ends {world : World} {text : List Char} (h : ¬ Ends world.value text) :
    expand (m := StateM World) valueOf text world = (none, world) := by
  rw [expand_eq]
  cases hiterate : (iterate (replaceFirst valueOf) (text, world)).1 with
  | none => rfl
  | some r =>
    have hyields := ((iterate (replaceFirst valueOf) (text, world)).2 r).1 hiterate
    exact absurd ⟨r.1, (yields_replaceFirst_iff.1 hyields).2⟩ h

theorem ends_iff_expand {world : World} {text : List Char} :
    Ends world.value text
      ↔ ∃ result, expand (m := StateM World) valueOf text world = (some result, world) := by
  refine ⟨fun ⟨result, h⟩ => ⟨result, expand_of_expands h⟩, fun ⟨result, h⟩ => ?_⟩
  by_contra hends
  rw [expand_of_not_ends hends] at h
  cases h

/-! ### Circular references -/

/-- Only variables that are set refer to others. -/
theorem finite_refers (world : World) : {a | ∃ b, Refers world.value b a}.Finite := by
  refine (List.finite_toSet (world.environment.map Prod.fst)).subset ?_
  -- Only a name that is set has a value with references in it, and those names are a finite list.
  rintro a ⟨b, hb⟩
  rw [Refers, World.value, World.environmentValue?] at hb
  cases hlookup : world.environment.lookup a with
  | none =>
    rw [hlookup, Option.getD_none, references_of_none rfl] at hb
    cases hb
  | some v =>
    obtain ⟨l, r, heq, -⟩ := List.lookup_eq_some_iff.1 hlookup
    simp [heq]

/-- A relation with finitely many elements that have others below them is well-founded if it has no
circle. -/
theorem wellFounded_iff_acyclic {α : Type} {r : α → α → Prop} (h : {a | ∃ b, r b a}.Finite) :
    WellFounded r ↔ ∀ a, ¬ Relation.TransGen r a a := by
  constructor
  · intro hwf a hcircle
    exact (WellFounded.transGen hwf).irrefl.irrefl a hcircle
  · intro hacyclic
    -- A strict order is well founded on a finite set, so every name that refers is accessible.
    have : IsStrictOrder α (Relation.TransGen r) :=
      { irrefl := hacyclic, trans := fun _ _ _ => Relation.TransGen.trans }
    have hon : {a | ∃ b, r b a}.WellFoundedOn (Relation.TransGen r) := h.wellFoundedOn
    have hacc (a : α) (ha : ∃ b, r b a) : Acc r a := by
      refine hon.induction ha fun a _ ih => .intro a fun b hba => ?_
      by_cases hb : ∃ c, r c b
      · exact ih b hb (.single hba)
      -- A name outside the set refers to nothing.
      · exact .intro b fun c hcb => absurd ⟨c, hcb⟩ hb
    refine ⟨fun a => ?_⟩
    by_cases ha : ∃ b, r b a
    · exact hacc a ha
    · exact .intro a fun b hba => absurd ⟨b, hba⟩ ha

/-! ### Loading in a world -/

/-- **A computation returns** if it comes to an end, be it with a fault. It leaves the world as it
was. -/
def Returns {α : Type} (world : World) (x : ExceptT LoadError (StateM World) α) : Prop :=
  ∃ r, x world = (r, world) ∧ r ≠ .error .endlessKey

namespace Returns

variable {α β : Type} {world : World}

theorem pure (a : α) : Returns world (Pure.pure a) :=
  ⟨.ok a, rfl, nofun⟩

theorem throw {e : LoadError} (h : e ≠ .endlessKey) :
    Returns (α := α) world (MonadExcept.throw e) :=
  ⟨.error e, rfl, fun heq => h (Except.error.inj heq)⟩

/-- A computation that comes to a value goes on with it. -/
theorem bind_ok {x : ExceptT LoadError (StateM World) α}
    {f : α → ExceptT LoadError (StateM World) β} {a : α} (hx : x world = (.ok a, world))
    (hf : Returns world (f a)) : Returns world (x >>= f) := by
  rw [Returns, run_bind, hx]
  exact hf

theorem bind {x : ExceptT LoadError (StateM World) α} {f : α → ExceptT LoadError (StateM World) β}
    (hx : Returns world x) (hf : ∀ a, Returns world (f a)) : Returns world (x >>= f) := by
  obtain ⟨r, hrun, hr⟩ := hx
  cases r with
  | ok a => exact bind_ok hrun (hf a)
  | error e =>
    refine ⟨.error e, ?_, fun heq => hr (congrArg _ (Except.error.inj heq))⟩
    rw [run_bind, hrun]

/-- A computation that returns only looks. -/
theorem looks {x : ExceptT LoadError (StateM World) α} (h : Returns world x) : Looks world x := by
  obtain ⟨r, hrun, -⟩ := h
  rw [Looks, hrun]

end Returns

theorem returns_environmentValue? (world : World) (name : String) :
    Returns world (Host.environmentValue? name : ExceptT LoadError (StateM World) _) :=
  ⟨_, rfl, nofun⟩

theorem returns_hasFile (world : World) (path : Path) :
    Returns world (Host.hasFile path : ExceptT LoadError (StateM World) Bool) :=
  ⟨_, rfl, nofun⟩

theorem returns_file? (world : World) (path? : Option Path) :
    Returns world (file? path? : ExceptT LoadError (StateM World) _) := by
  cases path? with
  -- A path that is asked for must be there.
  | some path =>
    refine (returns_hasFile world path).bind fun found => ?_
    cases found
    · exact .throw nofun
    · exact .pure _
  | none =>
    -- Without one, the working directory is looked at and then the home directory.
    refine (returns_hasFile world localFile).bind fun found => ?_
    cases found
    · refine (returns_environmentValue? world _).bind fun home? => ?_
      cases home? with
      | none => exact .pure _
      | some home =>
        refine (returns_hasFile world _).bind fun found => ?_
        cases found <;> exact .pure _
    · exact .pure _

theorem returns_readFile (world : World) (path : Path) :
    Returns world (readFile path : ExceptT LoadError (StateM World) _) := by
  refine Returns.bind (x := Host.readText path) ⟨_, rfl, nofun⟩ fun text => ?_
  cases text with
  | error fault => exact .throw nofun
  | ok text =>
    dsimp only
    cases parse text with
    | error error => exact .throw nofun
    | ok settings => exact .pure _

theorem returns_fromFile (world : World) (path? : Option Path) :
    Returns world (fromFile path? : ExceptT LoadError (StateM World) _) := by
  refine (returns_file? world path?).bind fun file => ?_
  cases file with
  | none => exact .pure _
  | some path => exact returns_readFile world path

theorem returns_policyOf (world : World) (policy : FailurePolicy) :
    Returns world (policyOf policy : ExceptT LoadError (StateM World) _) := by
  refine (returns_environmentValue? world policyVariable).bind fun request? => ?_
  cases request? with
  | none => exact .pure _
  | some request =>
    dsimp only
    cases FailurePolicy.ofRequest request with
    | error message => exact .throw nofun
    | ok policy => exact .pure _

/-- The key's references are replaced in the world as it is. -/
theorem lift_expand {world : World} {text : List Char} {result : Option (List Char)}
    (h : expand (m := StateM World) valueOf text world = (result, world)) :
    (ExceptT.lift (expand valueOf text) : ExceptT LoadError (StateM World) _) world
      = (.ok result, world) := by
  change (match expand (m := StateM World) valueOf text world with
    | (result, world) => (Except.ok result, world)) = _
  rw [h]

theorem returns_expandKey {world : World} (hends : ∀ text, Ends world.value text)
    (key : Option String) :
    Returns world (expandKey key : ExceptT LoadError (StateM World) _) := by
  cases key with
  | none => exact .pure _
  | some key =>
    -- The rounds end, so the expansion is a text, which is dropped if it is empty.
    obtain ⟨result, hresult⟩ := hends key.toList
    refine .bind_ok (lift_expand (expand_of_expands hresult)) ?_
    cases result <;> exact .pure _

/-- A key whose references do not come to an end is not expanded. -/
theorem expandKey_of_not_ends {world : World} {key : String} (h : ¬ Ends world.value key.toList) :
    (expandKey (some key) : ExceptT LoadError (StateM World) _) world
      = (.error .endlessKey, world) := by
  refine (run_bind (ExceptT.lift (expand valueOf key.toList)) _ world).trans ?_
  rw [lift_expand (expand_of_not_ends h)]
  rfl

/-- A key is expanded without any change, or found not to come to an end. -/
theorem looks_expandKey (world : World) (key : Option String) :
    Looks world (expandKey key : ExceptT LoadError (StateM World) _) := by
  cases key with
  | none => exact .pure _
  | some key =>
    by_cases ends : Ends world.value key.toList
    · obtain ⟨result, hresult⟩ := ends
      refine Looks.bind (congrArg Prod.snd (lift_expand (expand_of_expands hresult))) fun text => ?_
      cases text with
      | none => rfl
      | some text => cases text <;> exact .pure _
    -- Rounds that never end are a fault of their own, and the world is left as it was.
    · exact congrArg Prod.snd (expandKey_of_not_ends ends)

/-- **Loading returns** where the replacements in all texts come to an end. -/
theorem returns_load {world : World} (hends : ∀ text, Ends world.value text) (path? : Option Path) :
    Returns world (load path?) := by
  refine (returns_fromFile world path?).bind fun settings => ?_
  refine (returns_environmentValue? world keyVariable).bind fun key? => ?_
  refine (returns_policyOf world _).bind fun policy => ?_
  exact (returns_expandKey hends _).bind fun key => .pure _

/-- **Loading settings changes nothing,** whatever comes of it. -/
theorem looks_load (world : World) (path? : Option Path) : Looks world (load path?) := by
  refine Looks.bind (returns_fromFile world path?).looks fun settings => ?_
  refine Looks.bind (returns_environmentValue? world keyVariable).looks fun key? => ?_
  refine Looks.bind (returns_policyOf world _).looks fun policy => ?_
  exact Looks.bind (looks_expandKey world _) fun key => .pure _

/-- **Loading comes to an end** unless variables refer to one another in a circle. Where all their
values are tidy, every text is expanded to one without references exactly if no variable refers to
itself, directly or through others, and then settings are loaded, or a fault is found, whatever the
files say. -/
theorem load_returns_iff_acyclic {world : World} (htidy : ∀ name, Tidy (world.value name)) :
    ((∀ text, ∃ result, expand (m := StateM World) valueOf text world = (some result, world) ∧
        nextReference? result = none) ↔
      ∀ name, ¬ Relation.TransGen (Refers world.value) name name) ∧
    ((∀ name, ¬ Relation.TransGen (Refers world.value) name name) →
      ∀ path?, Returns world (load path?)) := by
  -- The rounds end on every text if and only if the references between the names are acyclic.
  have hacyclic : (∀ text, Ends world.value text) ↔
      ∀ name, ¬ Relation.TransGen (Refers world.value) name name := by
    rw [forall_ends_iff_wellFounded htidy, wellFounded_iff_acyclic (finite_refers world)]
  rw [← hacyclic]
  refine ⟨?_, returns_load⟩
  constructor
  · intro h text
    obtain ⟨result, hresult, -⟩ := h text
    exact ends_iff_expand.2 ⟨result, hresult⟩
  · intro hends text
    obtain ⟨result, hresult⟩ := hends text
    exact ⟨result, expand_of_expands hresult, hresult.nextReference?_eq_none⟩

/-- A world without files. -/
def bareWorld (environment : List (String × String)) : World where
  files := ⟨.directory [], []⟩
  environment := environment
  now := .epoch
  nextId := .nil

/-- The value of a variable that is not set is tidy. -/
theorem tidy_value {environment : List (String × String)}
    (h : ∀ entry ∈ environment, Tidy entry.2.toList) (name : String) :
    Tidy ((bareWorld environment).value name) := by
  rw [World.value, World.environmentValue?]
  change Tidy ((environment.lookup name).getD "").toList
  cases hlookup : environment.lookup name with
  | none => exact ⟨[], .nil⟩
  -- The value that is found is an entry of the environment.
  | some v =>
    obtain ⟨l, r, rfl, -⟩ := List.lookup_eq_some_iff.1 hlookup
    exact h (name, v) (by simp)

/-- A key made of two variables, one of which refers to the other, which has stray dollars. -/
theorem load_returns_iff_acyclic_chain :
    let world := bareWorld [(keyVariable, "$\x7bA\x7d-$\x7bB\x7d"), ("A", "$\x7bB\x7d!"),
      ("B", "pa$$word")]
    (∀ name, Tidy (world.value name)) ∧
      (∀ name, ¬ Relation.TransGen (Refers world.value) name name) ∧
      ∀ path?, Returns world (load path?) := by
  intro world
  have hb : MadeOf 0 "pa$$word".toList [] := by
    exact .literal 0 (by decide) (.inl rfl) <| .literal 0 (by decide) (.inl rfl) <|
      .literal 2 (by decide) (.inr (by decide)) <| .literal 0 (by decide) (.inl rfl) <|
      .literal 0 (by decide) (.inl rfl) <| .literal 0 (by decide) (.inl rfl) .nil
  have ha : MadeOf 0 "$\x7bB\x7d!".toList ["B"] := by
    exact .reference ['B'] (by decide) <| .literal 0 (by decide) (.inl rfl) .nil
  have hkey : MadeOf 0 "$\x7bA\x7d-$\x7bB\x7d".toList ["A", "B"] := by
    exact .reference ['A'] (by decide) <| .literal 0 (by decide) (.inl rfl) <|
      .reference ['B'] (by decide) .nil
  have htidy : ∀ name, Tidy (world.value name) := by
    refine tidy_value ?_
    simp only [List.forall_mem_cons, List.not_mem_nil, false_implies, implies_true, and_true]
    exact ⟨⟨_, hkey⟩, ⟨_, ha⟩, ⟨_, hb⟩⟩
  -- The references go down the list of names: the key reads both, and the first reads the second.
  have hrank (b a : String) (h : Refers world.value b a) :
      ["B", "A", keyVariable].idxOf b < ["B", "A", keyVariable].idxOf a := by
    rw [Refers, World.value, World.environmentValue?] at h
    change b ∈ references ((List.lookup a [_, _, _]).getD "").toList at h
    simp only [List.lookup_cons, List.lookup_nil] at h
    split at h
    · obtain rfl := eq_of_beq ‹(a == keyVariable) = true›
      rw [Option.getD_some, hkey.references_eq] at h
      revert b
      decide
    split at h
    · obtain rfl := eq_of_beq ‹(a == "A") = true›
      rw [Option.getD_some, ha.references_eq] at h
      revert b
      decide
    split at h
    · rw [Option.getD_some, hb.references_eq] at h
      cases h
    · rw [Option.getD_none, references_of_none rfl] at h
      cases h
  have hacyclic := (wellFounded_iff_acyclic (finite_refers world)).1
    (Subrelation.wf (hrank _ _) (measure (["B", "A", keyVariable].idxOf ·)).wf)
  exact ⟨htidy, hacyclic, (load_returns_iff_acyclic htidy).2 hacyclic⟩

/-- The variable that holds the key refers to itself. -/
def selfReferring : World :=
  bareWorld [(keyVariable, "$\x7bSCORECALC_SIGNING_KEY\x7d")]

/-- The key that refers to itself is tidy. -/
theorem madeOf_selfReferring : MadeOf 0 "$\x7bSCORECALC_SIGNING_KEY\x7d".toList [keyVariable] := by
  exact .reference keyVariable.toList (by decide) .nil

/-- **Loading does not always return.** -/
theorem not_forall_load_returns :
    ¬ ∀ (world : World) (path? : Option Path), Returns world (load path?) := by
  -- The value of the key refers to the key.
  have hself : Refers selfReferring.value keyVariable keyVariable := by
    have : references (selfReferring.value keyVariable) = [keyVariable] :=
      madeOf_selfReferring.references_eq
    rw [Refers, this]
    exact List.mem_singleton_self _
  have htidy : ∀ name, Tidy (selfReferring.value name) :=
    tidy_value fun entry hentry => List.mem_singleton.1 hentry ▸ ⟨_, madeOf_selfReferring⟩
  -- A name that refers to itself is not accessible, so the rounds never end.
  have hends : ¬ Ends selfReferring.value "$\x7bSCORECALC_SIGNING_KEY\x7d".toList := by
    rw [ends_iff_acc htidy ⟨_, madeOf_selfReferring⟩, madeOf_selfReferring.references_eq]
    intro hacc
    have hirrefl (a : String) (ha : Acc (Refers selfReferring.value) a) :
        ¬ Refers selfReferring.value a a := by
      induction ha with
      | intro a _ ih => exact fun hrefers => ih a hrefers hrefers
    exact hirrefl keyVariable (hacc _ (List.mem_singleton_self _)) hself
  -- The settings are the expanded key, so that loading gives no answer either.
  have hload : load (m := StateM World) none selfReferring
      = (expandKey (some "$\x7bSCORECALC_SIGNING_KEY\x7d") >>= fun key =>
          return { signingKey := key } : ExceptT LoadError (StateM World) Settings)
        selfReferring := rfl
  rw [run_bind, expandKey_of_not_ends hends] at hload
  intro hreturns
  obtain ⟨r, hrun, hr⟩ := hreturns selfReferring none
  rw [hload] at hrun
  exact hr (congrArg Prod.fst hrun).symm

end Settings

end Scoresheet
