import FilterQuery.Proofs.Wildcards
import Mathlib.Algebra.Group.Nat.Even
import Mathlib.Data.List.DropRight

/-!
# Reading the tokens off a regular expression

The rendered tokens are a prefix code: whatever follows, the reader of regular expressions takes one
piece for one token, and different tokens are different pieces. So two patterns have the same regular
expression exactly when they have the same tokens, however these are written. Patterns that are
joined render to the joined expressions, unless the first one ends in an unpaired backslash, which
would make the first character of the second one literal. Backslashes pair up from the left, so the
last one is unpaired when the run of backslashes at the end is of odd length.
-/

namespace FilterQuery
namespace Pattern

theorem Token.piece_injective : Function.Injective Token.piece := by
  intro a b h
  cases a <;> cases b <;> simp_all [piece]

theorem regexp_eq_iff (p q : String) :
    regexp p = regexp q ↔ tokens p.toList = tokens q.toList := by
  constructor
  · intro h
    have hread : some ((tokens p.toList).map Token.piece) =
        some ((tokens q.toList).map Token.piece) := by
      rw [← read?_regexp, ← read?_regexp, h]
    exact List.map_injective_iff.mpr Token.piece_injective (Option.some.inj hread)
  · intro h
    rw [regexp_eq_renderFrom, regexp_eq_renderFrom, renderFrom_eq_flatMap, renderFrom_eq_flatMap, h]

/-- Whether the next character is literal, after the given ones have been rendered. -/
def escapedAfter (escaped : Bool) (cs : List Char) : Bool :=
  cs.foldl (fun escaped c => (step escaped c).2) escaped

theorem step_snd (escaped : Bool) (c : Char) : (step escaped c).2 = (!escaped && c == '\\') := by
  unfold step
  split_ifs <;> simp_all

theorem escapedAfter_concat (cs : List Char) (c : Char) :
    escapedAfter false (cs ++ [c]) = (!escapedAfter false cs && c == '\\') := by
  rw [escapedAfter, List.foldl_append]
  exact step_snd _ c

/-- The run of backslashes at the end decides, and what stands before it does not matter. -/
theorem escapedAfter_eq_false_iff (cs : List Char) :
    escapedAfter false cs = false ↔ Even (cs.rtakeWhile (· = '\\')).length := by
  induction cs using List.reverseRecOn with
  | nil => decide
  | append_singleton cs c ih =>
    rw [escapedAfter_concat]
    by_cases hc : c = '\\'
    · rw [List.rtakeWhile_concat_pos _ _ _ (by simpa using hc), List.length_append,
        List.length_singleton, Nat.even_add_one, ← ih]
      simp [hc]
    · rw [List.rtakeWhile_concat_neg _ _ _ (by simpa using hc)]
      simp [hc]

/-- At a place where the next character is not literal, rendering starts anew. -/
theorem renderFrom_append {escaped : Bool} {cs : List Char} (h : escapedAfter escaped cs = false)
    (ds : List Char) :
    renderFrom escaped (cs ++ ds) = renderFrom escaped cs ++ renderFrom false ds := by
  induction cs generalizing escaped with
  | nil =>
    obtain rfl : escaped = false := h
    rfl
  | cons c cs ih =>
    rw [List.cons_append, renderFrom, renderFrom, ih h, List.append_assoc]

/-- Patterns have the same regular expression exactly when they have the same tokens, and a pattern
that does not end in an unpaired backslash can be rendered apart from what follows it. -/
theorem regexp_shows_tokens (p q : String) :
    (Fragment.regexpOf (.string p) = Fragment.regexpOf (.string q) ↔
      tokens p.toList = tokens q.toList) ∧
    (Even (p.toList.rtakeWhile (· = '\\')).length →
      Fragment.regexpOf (.string (p ++ q)) =
        Fragment.regexpOf (.string p) ++ Fragment.regexpOf (.string q)) := by
  refine ⟨regexp_eq_iff p q, ?_⟩
  intro hpaired
  change regexp (p ++ q) = regexp p ++ regexp q
  rw [regexp_eq_renderFrom, regexp_eq_renderFrom, regexp_eq_renderFrom, ← String.ofList_append,
    String.toList_append, renderFrom_append ((escapedAfter_eq_false_iff p.toList).mpr hpaired)]

/-- The backslashes at the end of the first pattern are a pair, so the star stays a wildcard. -/
theorem regexp_shows_tokens_paired_backslashes :
    Even ("_\\\\".toList.rtakeWhile (· = '\\')).length ∧
      Fragment.regexpOf (.string ("_\\\\" ++ "*")) =
        Fragment.regexpOf (.string "_\\\\") ++ Fragment.regexpOf (.string "*") ∧
      Fragment.regexpOf (.string "\\a*") = Fragment.regexpOf (.string "a*") :=
  ⟨by decide, (regexp_shows_tokens _ _).2 (by decide), (regexp_shows_tokens _ _).1.mpr rfl⟩

end Pattern
end FilterQuery
