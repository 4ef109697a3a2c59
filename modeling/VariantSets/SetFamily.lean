import VariantSets.Outcome

/-!
What both families of sets have in common, and what may be asked of any of them.
-/
namespace VariantSets

/-- Sets `S` of variants `V` that may also be had from a source `R`. -/
class SetFamily (S : Type) (V R : outParam Type) where
  empty : S
  full : S
  ofVariants : List V → Except Fault S
  /-- The set that a source gives. A source that is a written set may be malformed. -/
  ofSource : R → Except Refusal S
  /-- The same value, open to change. -/
  copy : S → S
  freeze : S → S
  isFrozen : S → Bool
  isEmpty : S → Bool
  size : S → Nat
  contains : S → V → Bool
  sameValue : S → S → Bool
  insert : S → V → Outcome S Bool
  erase : S → V → Outcome S Bool
  clear : S → Outcome S Unit
  assign : S → List V → Outcome S Unit
  union : S → S → Outcome S Unit
  inter : S → S → Outcome S Unit
  sdiff : S → S → Outcome S Unit
  symmDiff : S → S → Outcome S Unit
  compl : S → Outcome S Unit

inductive Construction (V R : Type)
  | empty
  | full
  | ofVariants (vs : List V)
  | ofSource (r : R)

def Construction.map {V Q R : Type} (g : Q → R) : Construction V Q → Construction V R
  | empty => .empty
  | full => .full
  | ofVariants vs => .ofVariants vs
  | ofSource r => .ofSource (g r)

inductive Mutation (V O : Type)
  | insert (v : V)
  | erase (v : V)
  | clear
  | assign (vs : List V)
  | union (o : O)
  | inter (o : O)
  | sdiff (o : O)
  | symmDiff (o : O)
  | compl
  | freeze

def Mutation.map {V O P : Type} (g : O → P) : Mutation V O → Mutation V P
  | insert v => .insert v
  | erase v => .erase v
  | clear => .clear
  | assign vs => .assign vs
  | union o => .union (g o)
  | inter o => .inter (g o)
  | sdiff o => .sdiff (g o)
  | symmDiff o => .symmDiff (g o)
  | compl => .compl
  | freeze => .freeze

namespace SetFamily
variable {S V R : Type} [SetFamily S V R]

def build : Construction V R → Except Refusal S
  | .empty => .ok empty
  | .full => .ok full
  | .ofVariants vs => (ofVariants vs).mapError .fault
  | .ofSource r => ofSource r

/-- Changes a set. Only adding and taking out one variant have something to say. -/
def apply (s : S) : Mutation V S → Outcome S (Option Bool)
  | .insert v => (insert s v).map some
  | .erase v => (erase s v).map some
  | .clear => (clear s).map fun _ => none
  | .assign vs => (assign s vs).map fun _ => none
  | .union t => (union s t).map fun _ => none
  | .inter t => (inter s t).map fun _ => none
  | .sdiff t => (sdiff s t).map fun _ => none
  | .symmDiff t => (symmDiff s t).map fun _ => none
  | .compl => (compl s).map fun _ => none
  | .freeze => .done (freeze s) none

def applyAll (s : S) : List (Mutation V S) → List (Except Fault (Option Bool)) × S
  | [] => ([], s)
  | m :: ms => ((apply s m).answer :: (applyAll (apply s m).after ms).1, (applyAll (apply s m).after ms).2)

end SetFamily

end VariantSets
