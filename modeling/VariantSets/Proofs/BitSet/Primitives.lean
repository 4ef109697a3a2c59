import VariantSets.Proofs.BitSet.Bulk
import VariantSets.Proofs.BitSet.Cursor

/-! Bit sets over the three steps that words of a fixed size do not allow everywhere: to take an ordinal for a number
of 32 bits, to shift a bit to a position, and to mask the positions below a bound. Every operation is written once
over steps that may do anything, in any monad. If the steps are right where they are allowed, then the operation comes
to what it comes to without them, so that no step is ever taken elsewhere. -/
namespace VariantSets

theorem Width.capacity_lt (w : Width) : w.capacity < 2 ^ 32 := by
  have reserved := w.capacity_lt_bits
  have short := w.bits_le
  omega

def Outcome.andThenM {m : Type → Type} [Monad m] {S A B : Type} (o : Outcome S A) (next : S → A → m (Outcome S B)) :
    m (Outcome S B) :=
  match o.answer with
  | .ok a => next o.after a
  | .error f => pure (.refuse o.after f)

theorem Outcome.andThenM_pure {m : Type → Type} [Monad m] {S A B : Type} {next : S → A → m (Outcome S B)}
    {plain : S → A → Outcome S B} (same : ∀ s a, next s a = pure (plain s a)) (o : Outcome S A) :
    o.andThenM next = pure (o.andThen plain) := by
  obtain ⟨x, s⟩ := o
  cases x with
  | ok a => exact same s a
  | error f => rfl

section
variable {m : Type → Type} [Monad m] [LawfulMonad m] {A B F : Type}

theorem run_foldlM_pure {step : B → A → ExceptT F m B} {plain : B → A → Except F B}
    (same : ∀ b a, (step b a).run = pure (plain b a)) (as : List A) (b : B) :
    (as.foldlM step b).run = pure (as.foldlM plain b) := by
  induction as generalizing b with
  | nil => rfl
  | cons a as ih =>
    rw [List.foldlM_cons, List.foldlM_cons, ExceptT.run_bind, same, pure_bind]
    cases plain b a with
    | ok c => exact ih c
    | error f => rfl

theorem filterAuxM_pure {p : A → m Bool} {q : A → Bool} {as : List A} (same : ∀ a ∈ as, p a = pure (q a))
    (taken : List A) : as.filterAuxM p taken = pure ((as.filter q).reverse ++ taken) := by
  induction as generalizing taken with
  | nil => rfl
  | cons a as ih =>
    obtain ⟨here, behind⟩ := List.forall_mem_cons.1 same
    simp only [List.filterAuxM, here, pure_bind, ih behind]
    cases keep : q a <;> simp [keep]

theorem filterM_pure {p : A → m Bool} {q : A → Bool} {as : List A} (same : ∀ a ∈ as, p a = pure (q a)) :
    as.filterM p = pure (as.filter q) := by
  simp only [List.filterM, filterAuxM_pure same, pure_bind, List.append_nil, List.reverse_reverse]

end

/-- The steps that have to be kept within bounds. -/
structure Primitives (m : Type → Type) (w : Width) where
  narrow : Nat → m Nat
  bit : Nat → m (Bitmap w)
  lowMask : Nat → m (Bitmap w)

namespace BitSet.Cursor
variable {V : Type} {E : Enumeration V} {w : Width} {n : Nat} {c : Cursor E w}

theorem within_next (h : c.remaining.Within n) : c.next.2.remaining.Within n := by
  unfold next
  split
  · exact h
  · exact h.and_left _

theorem within_after (h : c.remaining.Within n) (call : TokenSet.Cursor.Call) : (c.after call).remaining.Within n := by
  cases call with
  | next => exact within_next h
  | tryNext =>
    rw [after, tryNext_after]
    exact within_next h
  | remove => exact h
  | sizeHint => exact h

theorem within_follow (h : c.remaining.Within n) (calls : List TokenSet.Cursor.Call) :
    (c.follow calls).remaining.Within n := by
  induction calls generalizing c with
  | nil => exact h
  | cons call calls ih => exact ih (within_after h call)

end BitSet.Cursor

theorem BitSet.within_cursor {V : Type} {E : Enumeration V} {w : Width} (s : BitSet E w) :
    s.cursor.remaining.Within (limit E w) := by
  rw [cursor]
  exact .and_right s.bitmap (within_fullMask E w)

namespace Primitives

open VariantSets.BitSet (limit)

section
variable {m : Type → Type} [Monad m] {V : Type} {E : Enumeration V} {w : Width} (P : Primitives m w)

def bitOf (E : Enumeration V) (v : V) : m (Bitmap w) := do
  P.bit (← P.narrow (E.ordinal v))

def fullMask (E : Enumeration V) : m (Bitmap w) := do
  P.lowMask (← P.narrow (limit E w))

def slot (E : Enumeration V) (v : V) : m (Except Fault (Bitmap w)) :=
  if E.ordinal v < limit E w then .ok <$> P.bitOf E v
  else pure (.error (.ordinalOutOfRange (E.name v) (E.ordinal v) (limit E w)))

def contains (s : BitSet E w) (v : V) : m Bool :=
  if E.ordinal v < w.capacity then s.bitmap.meets <$> P.bitOf E v else pure false

def insert (s : BitSet E w) (v : V) : m (Outcome (BitSet E w) Bool) := do
  match ← P.slot E v with
  | .error f => pure (.refuse s f)
  | .ok b => pure (if s.bitmap.meets b then .done s false else s.replace (s.bitmap ||| b) true)

def erase (s : BitSet E w) (v : V) : m (Outcome (BitSet E w) Bool) := do
  match ← P.slot E v with
  | .error f => pure (.refuse s f)
  | .ok b => pure (if s.bitmap.meets b then s.replace (s.bitmap &&& ~~~b) true else .done s false)

def insertAll (s : BitSet E w) : List V → m (Outcome (BitSet E w) Unit)
  | [] => pure (.done s ())
  | v :: vs => do (← P.insert s v).andThenM fun t _ => insertAll t vs

def assign (s : BitSet E w) (vs : List V) : m (Outcome (BitSet E w) Unit) :=
  s.clear.andThenM fun t _ => P.insertAll t vs

def ofVariants (E : Enumeration V) (vs : List V) : m (Except Fault (BitSet E w)) :=
  Outcome.state <$> P.assign (BitSet.empty E w) vs

def full (E : Enumeration V) : m (BitSet E w) := BitSet.ofBitmap <$> P.fullMask E

def compl (s : BitSet E w) : m (Outcome (BitSet E w) Unit) := do
  pure (s.replace (~~~s.bitmap &&& (← P.fullMask E)) ())

def mark (E : Enumeration V) (b : Bitmap w) (v : V) : ExceptT Fault m (Bitmap w) :=
  if E.ordinal v < w.capacity then do pure (b ||| (← P.bitOf E v))
  else throw (.ordinalOutOfRange (E.name v) (E.ordinal v) w.capacity)

def bitmapOf (E : Enumeration V) (vs : List V) : m (Except Fault (Bitmap w)) :=
  (vs.foldlM (P.mark E) 0#w.bits).run

def cursor (s : BitSet E w) : m (BitSet.Cursor E w) := do
  pure ⟨s.bitmap &&& (← P.fullMask E)⟩

def next (c : BitSet.Cursor E w) : m (Option V × BitSet.Cursor E w) :=
  if c.remaining == 0#w.bits then pure (none, c)
  else do
    let i := c.remaining.trailingZeros
    pure (E.ofOrdinal? i, ⟨c.remaining &&& ~~~(← P.bit i)⟩)

def symbolMap (s : BitSet E w) : m (List Char) := do
  let marked ← (List.range w.capacity).filterM fun i => s.bitmap.meets <$> P.bit i
  pure (marked.filterMap Symbol.ofPosition?)

def readSymbol (b : Bitmap w) (c : Char) : ExceptT Fault m (Bitmap w) :=
  match BitSet.symbolPosition? w c with
  | some i => do pure (b ||| (← P.bit i))
  | none => throw (.invalidToken c)

def bitmapOfSymbols (cs : List Char) : m (Except Fault (Bitmap w)) :=
  (cs.foldlM P.readSymbol 0#w.bits).run

/-- The steps are right where words allow them: numbers of 32 bits stay as they are, and a position or bound is one
within the capacity. Elsewhere nothing is known of them. -/
structure Exact : Prop where
  narrow {n : Nat} : n < 2 ^ 32 → P.narrow n = pure n
  bit {i : Nat} : i < w.capacity → P.bit i = pure (Bitmap.bit w i)
  lowMask {n : Nat} : n ≤ w.capacity → P.lowMask n = pure (Bitmap.lowMask w n)

/-- Every operation comes to its result and does nothing else, on any set, with any arguments and at any point of a
walk. -/
structure Follows (E : Enumeration V) : Prop where
  contains (s : BitSet E w) (v : V) : P.contains s v = pure (s.contains v)
  insert (s : BitSet E w) (v : V) : P.insert s v = pure (s.insert v)
  erase (s : BitSet E w) (v : V) : P.erase s v = pure (s.erase v)
  assign (s : BitSet E w) (vs : List V) : P.assign s vs = pure (s.assign vs)
  compl (s : BitSet E w) : P.compl s = pure s.compl
  full : P.full E = pure (BitSet.full E w)
  ofVariants (vs : List V) : P.ofVariants E vs = pure (BitSet.ofVariants E w vs)
  bitmapOf (vs : List V) : P.bitmapOf E vs = pure (BitSet.bitmapOf E w vs)
  cursor (s : BitSet E w) : P.cursor s = pure s.cursor
  next (s : BitSet E w) (calls : List TokenSet.Cursor.Call) :
    P.next (s.cursor.follow calls) = pure (s.cursor.follow calls).next
  symbolMap (s : BitSet E w) : P.symbolMap s = pure s.symbolMap
  bitmapOfSymbols (cs : List Char) : P.bitmapOfSymbols cs = pure (BitSet.bitmapOfSymbols w cs)

namespace Exact
variable {P} [LawfulMonad m] (h : P.Exact)
include h

theorem bitOf {v : V} (below : E.ordinal v < w.capacity) : P.bitOf E v = pure (Bitmap.bit w (E.ordinal v)) := by
  have short : E.ordinal v < 2 ^ 32 := Nat.lt_trans below w.capacity_lt
  simp only [Primitives.bitOf, h.narrow short, pure_bind, h.bit below]

theorem fullMask (E : Enumeration V) : P.fullMask E = pure (BitSet.fullMask E w) := by
  have room : limit E w ≤ w.capacity := BitSet.limit_le_capacity E w
  have short : limit E w < 2 ^ 32 := Nat.lt_of_le_of_lt room w.capacity_lt
  simp only [Primitives.fullMask, h.narrow short, pure_bind, h.lowMask room, BitSet.fullMask]

theorem slot (E : Enumeration V) (v : V) : P.slot E v = pure (BitSet.slot E w v) := by
  unfold Primitives.slot BitSet.slot
  split
  · next fits =>
    have below : E.ordinal v < w.capacity := Nat.lt_of_lt_of_le fits (BitSet.limit_le_capacity E w)
    simp only [h.bitOf below, map_pure]
  · rfl

theorem contains (s : BitSet E w) (v : V) : P.contains s v = pure (s.contains v) := by
  unfold Primitives.contains BitSet.contains
  split
  · next below => simp only [h.bitOf below, map_pure, below, decide_true, Bool.true_and]
  · next large => simp only [large, decide_false, Bool.false_and]

theorem insert (s : BitSet E w) (v : V) : P.insert s v = pure (s.insert v) := by
  simp only [Primitives.insert, h.slot, pure_bind, BitSet.insert]
  cases BitSet.slot E w v <;> rfl

theorem erase (s : BitSet E w) (v : V) : P.erase s v = pure (s.erase v) := by
  simp only [Primitives.erase, h.slot, pure_bind, BitSet.erase]
  cases BitSet.slot E w v <;> rfl

theorem insertAll (s : BitSet E w) (vs : List V) : P.insertAll s vs = pure (s.insertAll vs) := by
  induction vs generalizing s with
  | nil => rfl
  | cons v vs ih =>
    simp only [Primitives.insertAll, h.insert, pure_bind]
    exact Outcome.andThenM_pure (fun t _ => ih t) (s.insert v)

theorem assign (s : BitSet E w) (vs : List V) : P.assign s vs = pure (s.assign vs) := by
  apply Outcome.andThenM_pure
  intro t _
  exact h.insertAll t vs

theorem mark (b : Bitmap w) (v : V) : (P.mark E b v).run = pure (BitSet.mark E b v) := by
  unfold Primitives.mark BitSet.mark
  split
  · next below => simp [h.bitOf below]
  · rfl

theorem readSymbol (b : Bitmap w) (c : Char) : (P.readSymbol b c).run = pure (BitSet.readSymbol b c) := by
  unfold Primitives.readSymbol BitSet.readSymbol
  cases found : BitSet.symbolPosition? w c with
  | some i => simp [h.bit (BitSet.symbolPosition?_eq_some.1 found).2]
  | none => rfl

theorem symbolMap (s : BitSet E w) : P.symbolMap s = pure s.symbolMap := by
  have asked : ∀ i ∈ List.range w.capacity,
      s.bitmap.meets <$> P.bit i = pure (s.bitmap.meets (Bitmap.bit w i)) := by
    intro i hi
    rw [h.bit (List.mem_range.1 hi), map_pure]
  simp only [Primitives.symbolMap, filterM_pure asked, pure_bind, BitSet.symbolMap]

theorem next {c : BitSet.Cursor E w} (within : c.remaining.Within w.capacity) : P.next c = pure c.next := by
  unfold Primitives.next BitSet.Cursor.next
  split
  · rfl
  · next nonzero =>
    cases remain : c.remaining.positions with
    | nil => exact absurd (beq_iff_eq.2 (Bitmap.positions_eq_nil.1 remain)) nonzero
    | cons i is =>
      have marked : c.remaining.getLsbD i = true := by simp [← Bitmap.mem_positions, remain]
      simp only [Bitmap.trailingZeros_eq remain, h.bit (within i marked), pure_bind]

theorem follows (E : Enumeration V) : P.Follows E where
  contains := h.contains
  insert := h.insert
  erase := h.erase
  assign := h.assign
  compl s := by simp only [Primitives.compl, h.fullMask, pure_bind, BitSet.compl]
  full := by simp only [Primitives.full, h.fullMask, map_pure, BitSet.ofBitmap, BitSet.full]
  ofVariants vs := by simp only [Primitives.ofVariants, h.assign, map_pure, BitSet.ofVariants]
  bitmapOf vs := run_foldlM_pure h.mark vs 0#w.bits
  cursor s := by simp only [Primitives.cursor, h.fullMask, pure_bind, BitSet.cursor]
  next s calls := h.next (BitSet.Cursor.within_follow (s.within_cursor.mono (BitSet.limit_le_capacity E w)) calls)
  symbolMap := h.symbolMap
  bitmapOfSymbols cs := run_foldlM_pure h.readSymbol cs 0#w.bits

end Exact

end

/-- A step where it is not allowed. -/
inductive Misuse
  | narrowed (n : Nat)
  | shifted (position : Nat)
  | masked (bound : Nat)
  deriving DecidableEq

/-- Steps that are refused where they are not allowed, so that one is enough to leave an operation without a result. -/
def checked (w : Width) : Primitives (Except Misuse) w where
  narrow n := if n < 2 ^ 32 then .ok n else .error (.narrowed n)
  bit i := if i < w.capacity then .ok (Bitmap.bit w i) else .error (.shifted i)
  lowMask n := if n ≤ w.capacity then .ok (Bitmap.lowMask w n) else .error (.masked n)

/-- Steps that take whatever is left of a number that is too large: its lower 32 bits, the position modulo the bits
of the word, or an empty mask. -/
def wrapping (w : Width) : Primitives Id w where
  narrow n := n % 2 ^ 32
  bit i := Bitmap.bit w (i % w.bits)
  lowMask n := if n ≤ w.bits then Bitmap.lowMask w n else 0#w.bits

theorem exact_checked (w : Width) : (checked w).Exact where
  narrow short := if_pos short
  bit below := if_pos below
  lowMask room := if_pos room

theorem exact_wrapping (w : Width) : (wrapping w).Exact where
  narrow short := Nat.mod_eq_of_lt short
  bit below := congrArg (Bitmap.bit w) (Nat.mod_eq_of_lt (Nat.lt_trans below w.capacity_lt_bits))
  lowMask room := if_pos (Nat.le_trans room (Nat.le_of_lt w.capacity_lt_bits))

end Primitives

namespace BitSet
variable {V : Type} {E : Enumeration V} {w : Width}

/-- What a variant beyond the capacity meets with: it is held by no set, and is refused with its whole ordinal, be it
alone or behind others that have a place. Only the bits of these are set. -/
structure Barred (E : Enumeration V) (w : Width) (v : V) : Prop where
  contains (s : BitSet E w) : s.contains v = false
  insert (s : BitSet E w) :
    s.insert v = .refuse s (.ordinalOutOfRange (E.name v) (E.ordinal v) (min w.capacity E.count))
  erase (s : BitSet E w) :
    s.erase v = .refuse s (.ordinalOutOfRange (E.name v) (E.ordinal v) (min w.capacity E.count))
  assign {s : BitSet E w} {before : List V} (opened : s.frozen = false)
    (below : ∀ u ∈ before, E.ordinal u < min w.capacity E.count) (behind : List V) :
    ∃ b, s.assign (before ++ v :: behind) =
        .refuse ⟨b, false⟩ (.ordinalOutOfRange (E.name v) (E.ordinal v) (min w.capacity E.count)) ∧
      Collects E before b
  ofVariants {before : List V} (below : ∀ u ∈ before, E.ordinal u < min w.capacity E.count) (behind : List V) :
    ofVariants E w (before ++ v :: behind) =
      .error (.ordinalOutOfRange (E.name v) (E.ordinal v) (min w.capacity E.count))
  bitmapOf {before : List V} (below : ∀ u ∈ before, E.ordinal u < w.capacity) (behind : List V) :
    bitmapOf E w (before ++ v :: behind) = .error (.ordinalOutOfRange (E.name v) (E.ordinal v) w.capacity)

theorem barred_of_le {v : V} (beyond : w.capacity ≤ E.ordinal v) : Barred E w v := by
  have large : limit E w ≤ E.ordinal v := Nat.le_trans (limit_le_capacity E w) beyond
  refine ⟨fun s => ?_, fun s => ?_, fun s => ?_, fun opened below behind => ?_, fun below behind => ?_,
    fun below behind => ?_⟩
  · rw [contains_eq, decide_eq_false (Nat.not_lt.2 beyond), Bool.false_and]
  · exact insert_of_not_lt (Nat.not_lt.2 large)
  · exact erase_of_not_lt (Nat.not_lt.2 large)
  · exact assign_of_firstBeyond opened ⟨behind, rfl, below, large⟩
  · exact ofVariants_of_firstBeyond ⟨behind, rfl, below, large⟩
  · exact bitmapOf_of_firstBeyond ⟨behind, rfl, below, beyond⟩

/-- With steps that are refused where they are not allowed every operation has its result, so that no step is taken
there; and with steps that wrap it has the same, so that none depends on what they do there. A variant beyond the
capacity is therefore never taken for another. The enumeration, the set and the arguments may be any. -/
theorem steps_in_range (E : Enumeration V) (w : Width) :
    (Primitives.checked w).Follows E ∧ (Primitives.wrapping w).Follows E ∧
      ∀ v, w.capacity ≤ E.ordinal v → Barred E w v := by
  refine ⟨(Primitives.exact_checked w).follows E, (Primitives.exact_wrapping w).follows E, ?_⟩
  intro v beyond
  exact barred_of_le beyond

def far : Enumeration Bool where
  -- The lower 32 bits of the second ordinal are the first.
  title := "Far"
  variants := [false, true]
  ordinal v := bif v then 2 ^ 32 + 1 else 1
  name v := bif v then "There" else "Here"

theorem steps_in_range_far :
    let s : BitSet far .long := ⟨2#64, false⟩
    Width.long.capacity ≤ far.ordinal true ∧ s.contains false = true ∧ s.contains true = false ∧
      (Primitives.checked .long).contains s true = .ok false ∧ (Primitives.wrapping .long).contains s true = false ∧
      s.erase true = .refuse s (.ordinalOutOfRange "There" 4294967297 2) ∧
      bitmapOf far .long [false, true] = .error (.ordinalOutOfRange "There" 4294967297 63) ∧
      (Primitives.checked .long).bitOf far true = .error (.narrowed 4294967297) ∧
      (Primitives.wrapping .long).bitOf far true = 2#64 := by
  -- The last two lines are what asking for the bit would come to, had nobody looked at the ordinal before.
  intro s
  have beyond : Width.long.capacity ≤ far.ordinal true := by decide
  have below : ∀ u ∈ [false], far.ordinal u < Width.long.capacity := by decide
  obtain ⟨checked, wrapping, barred⟩ := steps_in_range far .long
  have absent := (barred true beyond).contains s
  refine ⟨beyond, by decide, absent, ?_, ?_, (barred true beyond).erase s, (barred true beyond).bitmapOf below [],
    rfl, rfl⟩
  · rw [checked.contains, absent]
    rfl
  · rw [wrapping.contains, absent]
    rfl

end BitSet

end VariantSets
