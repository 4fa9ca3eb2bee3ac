import Scoresheet.Host
import Scoresheet.Proofs.Files.System

/-!
# Computations in a world

What comes of chains of computations in a world, those that may fail among them, and what making
directories does to its files.

* `run_bind`, `run_lift_bind`, `run_ofExcept`, `run_adapt` — what comes of a computation that may
  fail.
* `Looks`, `run_bind_eq` — a computation that leaves the world as it was, and chains of such.
* `Host.makeDirectories_lift` — making directories is the same for computations that may fail.
* `World.KeepsFiles` — a world that differs in its directories only.
* `Host.keepsFiles_makeDirectories` — making directories changes no file.
-/

namespace Scoresheet

variable {ε ε' α β : Type}

/-! ### Chains -/

/-- What comes of a computation that goes on with the value of another. -/
theorem run_bind (x : ExceptT ε (StateM World) α) (f : α → ExceptT ε (StateM World) β)
    (world : World) :
    (x >>= f) world
      = match x world with
        | (.ok a, world) => f a world
        | (.error e, world) => (.error e, world) := by
  change (match x world with | (r, world) => ExceptT.bindCont f r world) = _
  obtain ⟨r, world⟩ := x world
  cases r <;> rfl

/-- A computation that goes on with the value of one that cannot fail. -/
theorem run_lift_bind (x : StateM World α) (f : α → ExceptT ε (StateM World) β) (world : World) :
    ((ExceptT.lift x : ExceptT ε (StateM World) α) >>= f) world = f (x world).1 (x world).2 :=
  run_bind (ExceptT.lift x) f world

/-- A result that is at hand. -/
theorem run_ofExcept (r : Except ε α) (world : World) :
    (MonadExcept.ofExcept r : ExceptT ε (StateM World) α) world = (r, world) := by
  cases r <;> rfl

/-- A failure in other words. -/
theorem run_adapt (f : ε → ε') (x : ExceptT ε (StateM World) α) (world : World) :
    (ExceptT.adapt f x : ExceptT ε' (StateM World) α) world =
      ((x world).1.mapError f, (x world).2) := by
  rfl

/-- A chain of two computations in a world that stays as it is, as one of their results. -/
theorem run_bind_eq {x : ExceptT ε (StateM World) α} {f : α → ExceptT ε (StateM World) β}
    {world : World} {r : Except ε α} {g : α → Except ε β} (hx : x world = (r, world))
    (hf : ∀ a, f a world = (g a, world)) : (x >>= f) world = (r >>= g, world) := by
  rw [run_bind, hx]
  cases r with
  | ok a => exact hf a
  | error e => rfl

/-- **A computation that only looks** leaves the world as it was. -/
def Looks (world : World) (x : ExceptT ε (StateM World) α) : Prop :=
  (x world).2 = world

namespace Looks

variable {world : World} {x : ExceptT ε (StateM World) α} {f : α → ExceptT ε (StateM World) β}

/-- What a computation comes to that only looks. -/
theorem eq (h : Looks world x) : x world = ((x world).1, world) :=
  Prod.ext rfl h

theorem pure (a : α) : Looks (ε := ε) world (Pure.pure a) :=
  rfl

theorem bind (hx : Looks world x) (hf : ∀ a, Looks world (f a)) : Looks world (x >>= f) := by
  rw [Looks, run_bind, hx.eq]
  cases (x world).1 with
  | ok a => exact hf a
  | error e => rfl

end Looks

namespace Host

/-! ### Directories made -/

/-- A chain is the same for computations that may fail. -/
theorem lift_bind (x : StateM World α) (f : α → StateM World β) :
    (ExceptT.lift (x >>= f) : ExceptT ε (StateM World) β) =
      ExceptT.lift x >>= fun a => ExceptT.lift (f a) := by
  funext world
  exact (run_lift_bind x (fun a => ExceptT.lift (f a)) world).symm

theorem ensureDirectory_lift (path : Path) :
    (ensureDirectory path : ExceptT ε (StateM World) _) = ExceptT.lift (ensureDirectory path) := by
  rw [ensureDirectory, ensureDirectory, lift_bind]
  refine bind_congr fun made => ?_
  -- A directory that cannot be made may be there already.
  cases made with
  | ok => rfl
  | error fault =>
    dsimp only
    rw [lift_bind]
    refine bind_congr fun there => ?_
    cases there <;> rfl

theorem ensureWithin_lift (path : Path) (ancestors : List Path) :
    (ensureWithin path ancestors : ExceptT ε (StateM World) _) =
      ExceptT.lift (ensureWithin path ancestors) := by
  -- By induction on the ancestors, each of which is looked at before its child is made.
  induction ancestors generalizing path with
  | nil => exact ensureDirectory_lift path
  | cons parent ancestors ih =>
    rw [ensureWithin, ensureWithin, lift_bind, ensureDirectory_lift]
    refine bind_congr fun made => ?_
    split
    · rw [lift_bind, ih]
      refine bind_congr fun made => ?_
      split <;> rfl
    · rfl

/-- **Making directories is the same for computations that may fail.** -/
theorem makeDirectories_lift (path : Path) :
    (makeDirectories path : ExceptT ε (StateM World) _) = ExceptT.lift (makeDirectories path) := by
  unfold makeDirectories
  split
  · rfl
  · exact ensureWithin_lift path path.ancestors

end Host

/-- **A world that differs from another in its directories only.** -/
structure World.KeepsFiles (world after : World) : Prop where
  files : ∀ place, after.files.file? place = world.files.file? place
  environment : after.environment = world.environment
  now : after.now = world.now
  nextId : after.nextId = world.nextId

namespace World.KeepsFiles

theorem refl (world : World) : world.KeepsFiles world :=
  ⟨fun _ => rfl, rfl, rfl, rfl⟩

theorem trans {first second third : World} (h : first.KeepsFiles second)
    (h' : second.KeepsFiles third) : first.KeepsFiles third :=
  ⟨fun place => (h'.files place).trans (h.files place), h'.environment.trans h.environment,
    h'.now.trans h.now, h'.nextId.trans h.nextId⟩

end World.KeepsFiles

/-- A computation that changes no file, in whatever world. -/
def KeepsFiles (x : StateM World α) : Prop :=
  ∀ world : World, world.KeepsFiles (x world).2

namespace KeepsFiles

theorem pure (a : α) : KeepsFiles (Pure.pure a : StateM World α) :=
  fun world => .refl world

theorem bind {x : StateM World α} {f : α → StateM World β} (hx : KeepsFiles x)
    (hf : ∀ a, KeepsFiles (f a)) : KeepsFiles (x >>= f) :=
  fun world => (hx world).trans (hf (x world).1 (x world).2)

end KeepsFiles

namespace Host

theorem keepsFiles_makeDirectory (path : Path) :
    KeepsFiles (makeDirectory path : StateM World _) := by
  intro world
  change world.KeepsFiles (World.makeDirectory path world).2
  unfold World.makeDirectory
  split
  next files made => exact ⟨FileSystem.file?_of_makeDirectory made, rfl, rfl, rfl⟩
  next => exact .refl world

theorem keepsFiles_ensureDirectory (path : Path) :
    KeepsFiles (ensureDirectory path : StateM World _) := by
  refine (keepsFiles_makeDirectory path).bind fun made => ?_
  cases made with
  | ok => exact .pure _
  | error fault =>
    refine KeepsFiles.bind (x := isDirectory path) (fun world => .refl world) fun there => ?_
    cases there <;> exact .pure _

theorem keepsFiles_ensureWithin (path : Path) (ancestors : List Path) :
    KeepsFiles (ensureWithin path ancestors : StateM World _) := by
  induction ancestors generalizing path with
  | nil => exact keepsFiles_ensureDirectory path
  | cons parent ancestors ih =>
    refine (keepsFiles_ensureDirectory path).bind fun made => ?_
    split
    · refine (ih parent).bind fun made => ?_
      split
      · exact keepsFiles_ensureDirectory path
      · exact .pure _
    · exact .pure _

/-- **Making directories changes no file.** -/
theorem keepsFiles_makeDirectories (path : Path) :
    KeepsFiles (makeDirectories path : StateM World _) := by
  unfold makeDirectories
  split
  · exact .pure _
  · exact keepsFiles_ensureWithin path path.ancestors

end Host

end Scoresheet
