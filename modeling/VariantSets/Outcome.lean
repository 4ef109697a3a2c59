import VariantSets.Fault

/-!
Outcomes of requests that may change what they are made of. The state after the request is part of the
outcome also when the request is refused, since a refused one may have done part of its work.
-/
namespace VariantSets

/-- The answer to a request, and the state it leaves behind. -/
structure Outcome (S A : Type) where
  answer : Except Fault A
  after : S

namespace Outcome
variable {S A B : Type}

def done (s : S) (a : A) : Outcome S A := ⟨.ok a, s⟩

def refuse (s : S) (f : Fault) : Outcome S A := ⟨.error f, s⟩

/-- Goes on from the state left behind, unless the request was refused. -/
def andThen (o : Outcome S A) (next : S → A → Outcome S B) : Outcome S B :=
  match o.answer with
  | .ok a => next o.after a
  | .error f => refuse o.after f

def map (g : A → B) (o : Outcome S A) : Outcome S B := ⟨o.answer.map g, o.after⟩

def state (o : Outcome S A) : Except Fault S := o.answer.map fun _ => o.after

@[simp] theorem answer_done (s : S) (a : A) : (done s a).answer = .ok a := rfl
@[simp] theorem after_done (s : S) (a : A) : (done s a).after = s := rfl
@[simp] theorem answer_refuse (s : S) (f : Fault) : (refuse s f : Outcome S A).answer = .error f := rfl
@[simp] theorem after_refuse (s : S) (f : Fault) : (refuse s f : Outcome S A).after = s := rfl
@[simp] theorem after_map (g : A → B) (o : Outcome S A) : (o.map g).after = o.after := rfl

@[simp] theorem andThen_done (s : S) (a : A) (next : S → A → Outcome S B) :
    (done s a).andThen next = next s a := rfl

@[simp] theorem andThen_refuse (s : S) (f : Fault) (next : S → A → Outcome S B) :
    (refuse s f).andThen next = refuse s f := rfl

end Outcome

end VariantSets
