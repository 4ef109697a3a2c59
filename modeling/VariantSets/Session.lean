import VariantSets.SetFamily

/-!
Sessions: several sets of one family, worked on by number, and handles that hold sets which were frozen.
-/
namespace VariantSets

structure Handle (S : Type) where
  set : S

namespace Handle
variable {S V R : Type} [SetFamily S V R]

def wrap (s : S) : Handle S := ⟨SetFamily.freeze s⟩

/-- A handle of its own on the same value. What it holds is a copy, and so open to change. -/
def copy (h : Handle S) : Handle S := ⟨SetFamily.copy h.set⟩

end Handle

/-- One step of a session. Sets and handles are named by their numbers. -/
inductive Command (V R : Type)
  /-- Puts a new set into a place; a construction that fails leaves the place as it was. -/
  | create (s : Nat) (c : Construction V R)
  | mutate (s : Nat) (m : Mutation V Nat)
  /-- Puts a copy of the second set into the first place. -/
  | copy (s source : Nat)
  /-- Moves a set behind a handle, and leaves an empty set in its place. -/
  | wrap (s h : Nat)
  /-- Moves the set behind a handle into a place as it is, and leaves no handle. -/
  | unwrap (s h : Nat)
  | copyHandle (h target : Nat)
  | copyOut (s h : Nat)

def Command.map {V Q R : Type} (g : Q → R) : Command V Q → Command V R
  | create s c => .create s (c.map g)
  | mutate s m => .mutate s m
  | copy s source => .copy s source
  | wrap s h => .wrap s h
  | unwrap s h => .unwrap s h
  | copyHandle h target => .copyHandle h target
  | copyOut s h => .copyOut s h

structure Session (S : Type) where
  sets : Nat → S
  handles : Nat → Option (Handle S)

namespace Session
variable {S V R : Type}

abbrev Answer := Except Refusal (Option Bool)

def putSet (σ : Session S) (s : Nat) (x : S) : Session S :=
  { σ with sets := fun i => if i = s then x else σ.sets i }

def putHandle (σ : Session S) (h : Nat) (x : Option (Handle S)) : Session S :=
  { σ with handles := fun i => if i = h then x else σ.handles i }

variable [SetFamily S V R]

def start : Session S := ⟨fun _ => SetFamily.empty, fun _ => none⟩

def step (σ : Session S) : Command V R → Answer × Session S
  | .create s c =>
    match SetFamily.build c with
    | .ok x => (.ok none, σ.putSet s x)
    | .error f => (.error f, σ)
  | .mutate s m =>
    let o := SetFamily.apply (σ.sets s) (m.map σ.sets)
    (o.answer.mapError .fault, σ.putSet s o.after)
  | .copy s source => (.ok none, σ.putSet s (SetFamily.copy (σ.sets source)))
  | .wrap s h =>
    (.ok none, (σ.putHandle h (some (.wrap (σ.sets s)))).putSet s SetFamily.empty)
  | .unwrap s h =>
    match σ.handles h with
    | some x => (.ok none, (σ.putSet s x.set).putHandle h none)
    | none => (.error .noHandle, σ)
  | .copyHandle h target =>
    match σ.handles h with
    | some x => (.ok none, σ.putHandle target (some x.copy))
    | none => (.error .noHandle, σ)
  | .copyOut s h =>
    match σ.handles h with
    | some x => (.ok none, σ.putSet s (SetFamily.copy x.set))
    | none => (.error .noHandle, σ)

def run (σ : Session S) : List (Command V R) → List Answer × Session S
  | [] => ([], σ)
  | c :: cs => ((σ.step c).1 :: ((σ.step c).2.run cs).1, ((σ.step c).2.run cs).2)

/-- Carries a script out from the start. The sources of a script are those that `g` makes out of `Q`; with
no `Q` at all a script can be carried out on any family. -/
def play (S : Type) [SetFamily S V R] {Q : Type} (g : Q → R) (script : List (Command V Q)) :
    List Answer × Session S :=
  (start : Session S).run (script.map (Command.map g))

@[simp] theorem sets_putSet (σ : Session S) (s i : Nat) (x : S) :
    (σ.putSet s x).sets i = if i = s then x else σ.sets i := rfl

@[simp] theorem handles_putSet (σ : Session S) (s : Nat) (x : S) :
    (σ.putSet s x).handles = σ.handles := rfl

@[simp] theorem handles_putHandle (σ : Session S) (h i : Nat) (x : Option (Handle S)) :
    (σ.putHandle h x).handles i = if i = h then x else σ.handles i := rfl

@[simp] theorem sets_putHandle (σ : Session S) (h : Nat) (x : Option (Handle S)) :
    (σ.putHandle h x).sets = σ.sets := rfl

end Session

end VariantSets
