/-!
# Steps taken until they give a result

A step gives a result, or says where to go on. Taken again and again, it gives a result in the end,
or is taken forever. The loop is there for both, so that it has no measure to recurse on. What it
comes to is *pinned* instead: an outcome is a result together with the proof that the step yields
it, or nothing with the proof that it yields none. Whatever is known of a loop follows from its
type.

* `Yields` — the result that a step gives in the end.
* `Outcome` — this result, or nothing if there is none.
* `iterate` — the loop.
-/

namespace Scoresheet.Iteration

variable {σ α β : Type} {step : α → StateM σ (α ⊕ β)}

/-- **The step gives this result in the end,** and leaves this state behind. -/
inductive Yields (step : α → StateM σ (α ⊕ β)) : α → σ → β × σ → Prop
  | stop {a : α} {s s' : σ} {result : β} :
      step a s = (.inr result, s') → Yields step a s (result, s')
  | again {a next : α} {s s' : σ} {r : β × σ} :
      step a s = (.inl next, s') → Yields step next s' r → Yields step a s r

namespace Yields

variable {a : α} {s s' : σ} {r : β × σ}

theorem stop_iff {result : β} (h : step a s = (.inr result, s')) :
    Yields step a s r ↔ r = (result, s') := by
  constructor
  · intro hyields
    cases hyields with
    | stop hstep =>
      cases h.symm.trans hstep
      rfl
    | again hstep => cases h.symm.trans hstep
  · rintro rfl
    exact .stop h

theorem again_iff {next : α} (h : step a s = (.inl next, s')) :
    Yields step a s r ↔ Yields step next s' r := by
  constructor
  · intro hyields
    cases hyields with
    | stop hstep => cases h.symm.trans hstep
    | again hstep hyields =>
      cases h.symm.trans hstep
      exact hyields
  · exact .again h

/-- A step gives at most one result in the end. -/
theorem unique {r' : β × σ} (h : Yields step a s r) (h' : Yields step a s r') : r = r' := by
  induction h with
  | stop hstep => exact ((stop_iff hstep).1 h').symm
  | again hstep _ ih => exact ih ((again_iff hstep).1 h')

end Yields

/-- What comes of a step in the end: the result that it yields, or nothing if there is none. -/
def Outcome (step : α → StateM σ (α ⊕ β)) (start : α × σ) : Type :=
  {r? : Option (β × σ) // ∀ r, r? = some r ↔ Yields step start.1 start.2 r}

instance (start : α × σ) : Nonempty (Outcome step start) := by
  by_cases h : ∃ r, Yields step start.1 start.2 r
  · obtain ⟨r, hr⟩ := h
    refine ⟨some r, fun r' => ⟨fun heq => Option.some.inj heq ▸ hr, fun hr' => ?_⟩⟩
    rw [hr.unique hr']
  · exact ⟨none, fun r => ⟨nofun, fun hr => absurd ⟨r, hr⟩ h⟩⟩

/-- **A step taken until it gives a result.** That nothing comes of a step that never gives one is
known in the logic only: the loop then goes on. -/
def iterate (step : α → StateM σ (α ⊕ β)) : (start : α × σ) → Outcome step start :=
  -- That the steps come to an end is not shown: what is known of the loop is said by its type.
  WellFounded.extrinsicFix (fun next last => step last.1 last.2 = (.inl next.1, next.2))
    fun (a, s) again =>
      match h : step a s with
      | (.inl next, s') =>
        let ⟨r?, hr?⟩ := again (next, s') h
        ⟨r?, fun r => (hr? r).trans (Yields.again_iff h).symm⟩
      | (.inr result, s') =>
        ⟨some (result, s'), fun _ =>
          Option.some_inj.trans <| eq_comm.trans (Yields.stop_iff h).symm⟩

end Scoresheet.Iteration
