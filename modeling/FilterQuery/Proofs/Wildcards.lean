import FilterQuery.Clause.Fragment
import Mathlib.Computability.Language

/-!
# The meaning of wildcard patterns

A pattern and the regular expression that it is rendered as match the same texts. What a pattern
matches is said on the pattern itself, character by character. What a regular expression matches is
said on its pieces: its text is read from left to right, a star or a count after a piece applies to
that piece, and an operator that stands anywhere else makes the text unreadable. The languages of
the pieces are concatenated. Between the two stand the tokens of the pattern, each of which is
rendered on its own.
-/

namespace FilterQuery

namespace Regexp

inductive Piece where
  | literal (c : Char)
  | anyChar
  | repeated (piece : Piece)
  | once (piece : Piece)
  deriving DecidableEq, Repr

def Piece.language : Piece → Language Char
  | literal c => {[c]}
  | anyChar => {text | ∃ c, text = [c]}
  | repeated piece => KStar.kstar piece.language
  | once piece => piece.language ^ 1

def language (pieces : List Piece) : Language Char :=
  (pieces.map Piece.language).prod

/-- The characters that stand for themselves only after a backslash. -/
def operators : List Char :=
  ['.', '?', '+', '*', '|', '{', '}', '[', ']', '(', ')', '"', '\\', '#', '@', '&', '<', '>', '~',
    '^', '$']

/-- Reads on after some pieces, given the last one first. The star and the count one need a piece
before them; the other operators are not read. -/
def readAfter : List Piece → List Char → Option (List Piece)
  | pieces, [] => some pieces.reverse
  | pieces, '\\' :: c :: cs => readAfter (.literal c :: pieces) cs
  | pieces, '.' :: cs => readAfter (.anyChar :: pieces) cs
  | piece :: pieces, '*' :: cs => readAfter (.repeated piece :: pieces) cs
  | piece :: pieces, '{' :: '1' :: '}' :: cs => readAfter (.once piece :: pieces) cs
  | pieces, c :: cs => if c ∈ operators then none else readAfter (.literal c :: pieces) cs

def read? (regexp : String) : Option (List Piece) :=
  readAfter [] regexp.toList

/-- The characters that are not preceded by an escaping backslash. -/
def unescaped : List Char → List Char
  | '\\' :: _ :: cs => unescaped cs
  | c :: cs => c :: unescaped cs
  | [] => []

theorem readAfter_plain (pieces : List Piece) {c : Char} (hc : c ∉ operators) (cs : List Char) :
    readAfter pieces (c :: cs) = readAfter (.literal c :: pieces) cs := by
  rw [readAfter.eq_def]
  split <;> simp_all [operators]

theorem unescaped_cons {c : Char} (hc : c ≠ '\\') (cs : List Char) :
    unescaped (c :: cs) = c :: unescaped cs := by
  rw [unescaped.eq_def]
  split <;> simp_all

/-- In a text that can be read, the only operators without a backslash are those that are read. -/
theorem mem_of_readAfter {pieces result : List Piece} {cs : List Char}
    (h : readAfter pieces cs = some result) {c : Char} (hc : c ∈ unescaped cs)
    (hoperator : c ∈ operators) : c ∈ ['.', '*', '{', '}'] := by
  fun_induction readAfter pieces cs with
  | case1 => cases hc
  | case2 pieces d cs ih => exact ih h hc
  | case3 pieces cs ih =>
    rcases List.mem_cons.mp hc with rfl | hc
    · decide
    · exact ih h hc
  | case4 piece pieces cs ih =>
    rcases List.mem_cons.mp hc with rfl | hc
    · decide
    · exact ih h hc
  | case5 piece pieces cs ih =>
    have hcs : unescaped ('{' :: '1' :: '}' :: cs) = '{' :: '1' :: '}' :: unescaped cs := rfl
    rw [hcs] at hc
    simp only [List.mem_cons] at hc
    rcases hc with rfl | rfl | rfl | hc
    · decide
    · exact absurd hoperator (by decide)
    · decide
    · exact ih h hc
  | case6 => cases h
  | case7 pieces d cs _ _ _ _ hd ih =>
    -- a backslash at the end is an operator too, so this one is not it
    have hbackslash : d ≠ '\\' := by
      rintro rfl
      exact hd (by decide)
    rw [unescaped_cons hbackslash] at hc
    rcases List.mem_cons.mp hc with rfl | hc
    · exact absurd hoperator hd
    · exact ih h hc

example : read? "a|b" = none := by
  decide

section Language

variable {pieces : List Piece} {text : List Char}

theorem mem_language_nil : text ∈ language [] ↔ text = [] :=
  Language.mem_one text

theorem mem_language_cons {piece : Piece} :
    text ∈ language (piece :: pieces) ↔
      ∃ first ∈ piece.language, ∃ rest ∈ language pieces, first ++ rest = text := by
  rw [language, List.map_cons, List.prod_cons, Language.mem_mul]
  rfl

theorem mem_language_literal {c : Char} :
    text ∈ language (.literal c :: pieces) ↔ ∃ rest ∈ language pieces, c :: rest = text := by
  rw [mem_language_cons]
  constructor
  · rintro ⟨first, hfirst, rest, hrest, rfl⟩
    obtain rfl : first = [c] := hfirst
    exact ⟨rest, hrest, rfl⟩
  · rintro ⟨rest, hrest, rfl⟩
    exact ⟨[c], rfl, rest, hrest, rfl⟩

theorem mem_language_anyChar :
    text ∈ language (.once .anyChar :: pieces) ↔
      ∃ c, ∃ rest ∈ language pieces, c :: rest = text := by
  rw [mem_language_cons, Piece.language, pow_one]
  constructor
  · rintro ⟨first, ⟨c, rfl⟩, rest, hrest, rfl⟩
    exact ⟨c, rest, hrest, rfl⟩
  · rintro ⟨c, rest, hrest, rfl⟩
    exact ⟨[c], ⟨c, rfl⟩, rest, hrest, rfl⟩

theorem mem_language_repeated_anyChar (run : List Char) :
    run ∈ (Piece.repeated .anyChar).language := by
  apply Language.mem_kstar.mpr
  refine ⟨run.map fun c => [c], ?_, ?_⟩
  · induction run with
    | nil => rfl
    | cons c run ih => simp [← ih]
  · intro part hpart
    obtain ⟨c, -, rfl⟩ := List.mem_map.mp hpart
    exact ⟨c, rfl⟩

theorem mem_language_anyRun :
    text ∈ language (.repeated .anyChar :: pieces) ↔
      ∃ run, ∃ rest ∈ language pieces, run ++ rest = text := by
  rw [mem_language_cons]
  constructor
  · rintro ⟨run, -, h⟩
    exact ⟨run, h⟩
  · rintro ⟨run, h⟩
    exact ⟨run, mem_language_repeated_anyChar run, h⟩

end Language

end Regexp

namespace Pattern

inductive Token where
  | anyRun
  | anyChar
  | literal (c : Char)
  deriving DecidableEq, Repr

/-- The tokens that a pattern is read as, with its backslashes resolved. -/
def tokens : List Char → List Token
  | [] => []
  | ['\\'] => [.literal '\\']
  | '\\' :: c :: cs => .literal c :: tokens cs
  | '*' :: cs => .anyRun :: tokens cs
  | '_' :: cs => .anyChar :: tokens cs
  | c :: cs => .literal c :: tokens cs

def Token.render : Token → List Char
  | anyRun => ['.', '*']
  | anyChar => ['.', '{', '1', '}']
  | literal c => renderLiteral c

theorem tokens_cons_of_plain {c : Char} (cs : List Char) (notBackslash : c ≠ '\\')
    (notStar : c ≠ '*') (notUnderscore : c ≠ '_') :
    tokens (c :: cs) = .literal c :: tokens cs := by
  rw [tokens.eq_def]
  split <;> simp_all

/-- A backslash is read as the last character or together with the next one, so no other case of the
reader has to do with one. -/
theorem ne_backslash_of_not_read {c : Char} {cs : List Char} (hlast : c = '\\' → cs = [] → False)
    (hescaped : ∀ d ds, c = '\\' → cs = d :: ds → False) : c ≠ '\\' := by
  rintro rfl
  cases cs with
  | nil => exact hlast rfl rfl
  | cons d ds => exact hescaped d ds rfl rfl

/-- To render a pattern is to render its tokens. -/
theorem renderFrom_eq_flatMap (pattern : List Char) :
    renderFrom false pattern = (tokens pattern).flatMap Token.render := by
  fun_induction tokens pattern with
  | case1 => rfl
  | case2 => rfl
  | case3 c cs ih => exact congrArg (renderLiteral c ++ ·) ih
  | case4 cs ih => exact congrArg (['.', '*'] ++ ·) ih
  | case5 cs ih => exact congrArg (['.', '{', '1', '}'] ++ ·) ih
  | case6 c cs hlast hescaped hstar hunderscore ih =>
    rw [renderFrom, step_of_plain (ne_backslash_of_not_read hlast hescaped) hstar hunderscore, ih]
    rfl

inductive Matches : List Char → List Char → Prop
  | nil : Matches [] []
  | lastBackslash : Matches ['\\'] ['\\']
  | escaped (c : Char) {pattern text : List Char} :
      Matches pattern text → Matches ('\\' :: c :: pattern) (c :: text)
  | anyRun (run : List Char) {pattern text : List Char} :
      Matches pattern text → Matches ('*' :: pattern) (run ++ text)
  | anyChar (c : Char) {pattern text : List Char} :
      Matches pattern text → Matches ('_' :: pattern) (c :: text)
  | plain {c : Char} {pattern text : List Char} :
      c ≠ '\\' → c ≠ '*' → c ≠ '_' → Matches pattern text → Matches (c :: pattern) (c :: text)

def Token.piece : Token → Regexp.Piece
  | anyRun => .repeated .anyChar
  | anyChar => .once .anyChar
  | literal c => .literal c

/-- A rendered token is read as one piece, whatever stands before and after it. -/
theorem readAfter_render (pieces : List Regexp.Piece) (token : Token) (cs : List Char) :
    Regexp.readAfter pieces (token.render ++ cs) = Regexp.readAfter (token.piece :: pieces) cs := by
  cases token with
  | anyRun => rfl
  | anyChar => rfl
  | literal c =>
    rw [Token.render, renderLiteral]
    split
    · rfl
    · rename_i hc
      exact Regexp.readAfter_plain pieces hc cs

theorem readAfter_tokens (pieces : List Regexp.Piece) (tokens : List Token) :
    Regexp.readAfter pieces (tokens.flatMap Token.render) =
      some (pieces.reverse ++ tokens.map Token.piece) := by
  induction tokens generalizing pieces with
  | nil => simp [Regexp.readAfter]
  | cons token tokens ih =>
    rw [List.flatMap_cons, readAfter_render, ih]
    simp

theorem read?_regexp (pattern : String) :
    Regexp.read? (regexp pattern) = some ((tokens pattern.toList).map Token.piece) := by
  rw [Regexp.read?, regexp_eq_renderFrom, String.toList_ofList, renderFrom_eq_flatMap,
    readAfter_tokens, List.reverse_nil, List.nil_append]

example : Regexp.read? (regexp "a_\\*") = some [.literal 'a', .once .anyChar, .literal '*'] := by
  decide

theorem mem_language_of_matches {pattern text : List Char} (h : Matches pattern text) :
    text ∈ Regexp.language ((tokens pattern).map Token.piece) := by
  induction h with
  | nil => exact Regexp.mem_language_nil.mpr rfl
  | lastBackslash =>
    apply Regexp.mem_language_literal.mpr
    exact ⟨[], Regexp.mem_language_nil.mpr rfl, rfl⟩
  | escaped c _ ih => exact Regexp.mem_language_literal.mpr ⟨_, ih, rfl⟩
  | anyRun run _ ih => exact Regexp.mem_language_anyRun.mpr ⟨run, _, ih, rfl⟩
  | anyChar c _ ih => exact Regexp.mem_language_anyChar.mpr ⟨c, _, ih, rfl⟩
  | plain hbackslash hstar hunderscore _ ih =>
    rw [tokens_cons_of_plain _ hbackslash hstar hunderscore]
    exact Regexp.mem_language_literal.mpr ⟨_, ih, rfl⟩

theorem matches_of_mem_language {pattern text : List Char}
    (h : text ∈ Regexp.language ((tokens pattern).map Token.piece)) : Matches pattern text := by
  fun_induction tokens pattern generalizing text with
  | case1 =>
    obtain rfl := Regexp.mem_language_nil.mp h
    exact .nil
  | case2 =>
    obtain ⟨rest, hrest, rfl⟩ := Regexp.mem_language_literal.mp h
    obtain rfl := Regexp.mem_language_nil.mp hrest
    exact .lastBackslash
  | case3 c pattern ih =>
    obtain ⟨rest, hrest, rfl⟩ := Regexp.mem_language_literal.mp h
    exact .escaped c (ih hrest)
  | case4 pattern ih =>
    obtain ⟨run, rest, hrest, rfl⟩ := Regexp.mem_language_anyRun.mp h
    exact .anyRun run (ih hrest)
  | case5 pattern ih =>
    obtain ⟨c, rest, hrest, rfl⟩ := Regexp.mem_language_anyChar.mp h
    exact .anyChar c (ih hrest)
  | case6 c pattern hlast hescaped hstar hunderscore ih =>
    obtain ⟨rest, hrest, rfl⟩ := Regexp.mem_language_literal.mp h
    exact .plain (ne_backslash_of_not_read hlast hescaped) hstar hunderscore (ih hrest)

/-- The regular expression of a pattern can be read, it matches as a whole the texts that the
pattern matches, and the only operators in it without a backslash are the dot, the star and the
count. -/
theorem regexp_matches_texts_of_pattern (pattern : String) :
    ∃ pieces, Regexp.read? (Fragment.regexpOf (.string pattern)) = some pieces ∧
      (∀ text : String,
        Matches pattern.toList text.toList ↔ text.toList ∈ Regexp.language pieces) ∧
      (Regexp.unescaped (Fragment.regexpOf (.string pattern)).toList).filter
        (· ∈ Regexp.operators) ⊆ ['.', '*', '{', '}'] := by
  have hread : Regexp.read? (Fragment.regexpOf (.string pattern)) =
      some ((tokens pattern.toList).map Token.piece) := read?_regexp pattern
  refine ⟨_, hread, fun text => ⟨mem_language_of_matches, matches_of_mem_language⟩, ?_⟩
  intro c hc
  rw [List.mem_filter, decide_eq_true_iff] at hc
  exact Regexp.mem_of_readAfter hread hc.1 hc.2

end Pattern
end FilterQuery
