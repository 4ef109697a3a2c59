/-!
Blanks: the characters that may stand around a written value.
-/
namespace VariantSets.Json

def isBlank (c : Char) : Bool := c == ' ' || c == '\t' || c == '\n' || c == '\r'

def strip (cs : List Char) : List Char :=
  ((cs.dropWhile isBlank).reverse.dropWhile isBlank).reverse

theorem exists_blanks_strip (cs : List Char) :
    ∃ before after, cs = before ++ strip cs ++ after ∧
      before.all isBlank ∧ after.all isBlank := by
  refine ⟨cs.takeWhile isBlank, ((cs.dropWhile isBlank).reverse.takeWhile isBlank).reverse, ?_, ?_, ?_⟩
  · rw [List.append_assoc, strip, ← List.reverse_append, List.takeWhile_append_dropWhile,
      List.reverse_reverse, List.takeWhile_append_dropWhile]
  · exact List.all_takeWhile
  · rw [List.all_reverse]
    exact List.all_takeWhile

theorem strip_blanks {before cs after : List Char} (hb : before.all isBlank) (ha : after.all isBlank)
    (head : ∀ c ∈ cs.head?, isBlank c = false) (last : ∀ c ∈ cs.getLast?, isBlank c = false)
    (some_text : cs ≠ []) : strip (before ++ cs ++ after) = cs := by
  have drop_blanks : ∀ (bs ds : List Char), bs.all isBlank → ds ≠ [] →
      (∀ c ∈ ds.head?, isBlank c = false) → (bs ++ ds).dropWhile isBlank = ds := by
    intro bs ds hbs hds hd
    rw [List.dropWhile_append_of_pos (by simpa using hbs)]
    cases ds with
    | nil => exact absurd rfl hds
    | cons d ds => rw [List.dropWhile_cons_of_neg (by simp [hd d rfl])]
  rw [strip, List.append_assoc, drop_blanks before (cs ++ after) hb (by simp [some_text]),
    List.reverse_append, drop_blanks after.reverse cs.reverse (by simpa using ha) (by simpa),
    List.reverse_reverse]
  · simpa using last
  · cases cs with
    | nil => exact absurd rfl some_text
    | cons d ds => simpa using head

end VariantSets.Json
