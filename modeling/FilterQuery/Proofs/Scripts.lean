import FilterQuery.Proofs.Keys

/-!
# Scripts and their tokens

The script of two fields holds their keys as literals between apostrophes. A literal ends at the
first apostrophe that no backslash escapes, a backslash escapes an apostrophe or another backslash,
and any other backslash is an error. Legal keys have no apostrophe, but they may have backslashes,
and these are not escaped. So the script reads as the comparison of the two keys exactly when no key
has a backslash: otherwise a literal says something else, goes on behind its key or has an error.
The text of the script determines the two keys and the operator all the same.
-/

namespace FilterQuery
namespace Script

inductive Token where
  | word (chars : List Char)
  | sign (chars : List Char)
  | literal (chars : List Char)

/-- Where the reader of a script stands, with what it has read of the token there. -/
inductive Mode where
  | between
  | word (soFar : List Char)
  | sign (first : Char)
  | literal (soFar : List Char)
  | escape (soFar : List Char)

def isWordChar (c : Char) : Bool :=
  c.isAlphanum || c == '_'

/-- The tokens that a character completes on its own, and the mode behind it. -/
def start (c : Char) : List Token × Mode :=
  if c.isWhitespace then ([], .between)
  else if isWordChar c then ([], .word [c])
  else if c = '\'' then ([], .literal [])
  else if c ∈ ['=', '!', '<', '>'] then ([], .sign c)
  else ([.sign [c]], .between)

/-- What a character completes and the mode behind it; there is none for a bad escape. -/
def step : Mode → Char → Option (List Token × Mode)
  | .between, c => some (start c)
  | .word soFar, c =>
      if isWordChar c then some ([], .word (soFar ++ [c]))
      else some (.word soFar :: (start c).1, (start c).2)
  | .sign first, c =>
      if c = '=' then some ([.sign [first, c]], .between)
      else some (.sign [first] :: (start c).1, (start c).2)
  | .literal soFar, c =>
      if c = '\'' then some ([.literal soFar], .between)
      else if c = '\\' then some ([], .escape soFar)
      else some ([], .literal (soFar ++ [c]))
  | .escape soFar, c =>
      if c = '\'' ∨ c = '\\' then some ([], .literal (soFar ++ [c])) else none

def finish : Mode → Option (List Token)
  | .between => some []
  | .word soFar => some [.word soFar]
  | .sign first => some [.sign [first]]
  | .literal _ | .escape _ => none

def read (mode : Mode) : List Char → Option (List Token)
  | [] => finish mode
  | c :: cs => do
    let (tokens, next) ← step mode c
    return tokens ++ (← read next cs)

/-- The tokens of a script, if it has no bad escape and no open literal. -/
def tokens? (source : String) : Option (List Token) :=
  read .between source.toList

def fieldTokens (key : String) : List Token :=
  [.word "doc".toList, .sign ['['], .literal key.toList, .sign [']'], .sign ['.'],
    .word "value".toList]

def comparisonTokens (subject : String) (c : Comparison) (object : String) : List Token :=
  fieldTokens subject ++ .sign c.symbol.toList :: fieldTokens object

theorem read_cons {mode next : Mode} {c : Char} {tokens : List Token}
    (h : step mode c = some (tokens, next)) (cs : List Char) :
    read mode (c :: cs) = (read next cs).map (tokens ++ ·) := by
  cases hread : read next cs <;> simp [read, h, hread]

theorem read_literal_cons {c : Char} (hquote : c ≠ '\'') (hslash : c ≠ '\\')
    (soFar cs : List Char) :
    read (.literal soFar) (c :: cs) = read (.literal (soFar ++ [c])) cs := by
  simp [read, step, hquote, hslash]

theorem read_literal_quote (soFar cs : List Char) :
    read (.literal soFar) ('\'' :: cs) = (read .between cs).map (.literal soFar :: ·) := by
  rw [read_cons rfl]
  rfl

theorem read_literal_backslash (soFar cs : List Char) :
    read (.literal soFar) ('\\' :: cs) = read (.escape soFar) cs := by
  simp [read, step]

theorem read_escape_cons {c : Char} (h : c = '\'' ∨ c = '\\') (soFar cs : List Char) :
    read (.escape soFar) (c :: cs) = read (.literal (soFar ++ [c])) cs := by
  simp [read, step, h]

theorem read_escape_bad {c : Char} (h : ¬ (c = '\'' ∨ c = '\\')) (soFar cs : List Char) :
    read (.escape soFar) (c :: cs) = none := by
  simp [read, step, h]

/-- Characters without a special meaning are part of what the literal says. -/
theorem read_literal_append {plain : List Char} (hquote : '\'' ∉ plain) (hslash : '\\' ∉ plain)
    (soFar cs : List Char) :
    read (.literal soFar) (plain ++ cs) = read (.literal (soFar ++ plain)) cs := by
  induction plain generalizing soFar with
  | nil => simp
  | cons c plain ih =>
    rw [List.mem_cons, not_or] at hquote hslash
    rw [List.cons_append, read_literal_cons (Ne.symm hquote.1) (Ne.symm hslash.1),
      ih hquote.2 hslash.2, List.append_assoc]
    rfl

/-- The first token is a literal. It continues what has been read, with an apostrophe somewhere or
by at most so many characters. -/
def Continues (soFar : List Char) (limit : Nat) (tokens : List Token) : Prop :=
  ∃ more rest, tokens = .literal (soFar ++ more) :: rest ∧ ('\'' ∈ more ∨ more.length ≤ limit)

theorem Continues.cons {soFar : List Char} {c : Char} {limit : Nat} {tokens : List Token}
    (h : Continues (soFar ++ [c]) limit tokens) : Continues soFar (limit + 1) tokens := by
  obtain ⟨more, rest, rfl, hmore⟩ := h
  refine ⟨c :: more, rest, by simp, ?_⟩
  rcases hmore with hquote | hlength
  · exact .inl (List.mem_cons_of_mem _ hquote)
  · exact .inr (by simpa using hlength)

theorem Continues.mono {soFar : List Char} {limit larger : Nat} {tokens : List Token}
    (h : Continues soFar limit tokens) (hle : limit ≤ larger) : Continues soFar larger tokens := by
  obtain ⟨more, rest, rfl, hmore⟩ := h
  exact ⟨more, rest, rfl, hmore.imp_right fun hlength => hlength.trans hle⟩

/-- A literal without an apostrophe ends at the first one, so what stands before it is the limit. -/
theorem continues_of_read (cs : List Char) (tokens : List Token) :
    (∀ soFar, read (.literal soFar) cs = some tokens →
      Continues soFar (cs.takeWhile (· ≠ '\'')).length tokens) ∧
    ∀ soFar, read (.escape soFar) cs = some tokens →
      Continues soFar (cs.takeWhile (· ≠ '\'')).length tokens := by
  induction cs with
  | nil => exact ⟨nofun, nofun⟩
  | cons c cs ih =>
    obtain ⟨ihliteral, ihescape⟩ := ih
    have hlimit : c ≠ '\'' → ((c :: cs).takeWhile (· ≠ '\'')).length =
        (cs.takeWhile (· ≠ '\'')).length + 1 := by
      intro hquote
      simp [hquote]
    constructor
    · intro soFar h
      by_cases hquote : c = '\''
      · subst hquote
        rw [read_literal_quote, Option.map_eq_some_iff] at h
        obtain ⟨rest, -, rfl⟩ := h
        exact ⟨[], rest, by simp, .inr (Nat.zero_le _)⟩
      · rw [hlimit hquote]
        by_cases hslash : c = '\\'
        · subst hslash
          rw [read_literal_backslash] at h
          exact (ihescape soFar h).mono (Nat.le_succ _)
        · rw [read_literal_cons hquote hslash] at h
          exact (ihliteral _ h).cons
    · intro soFar h
      by_cases hquote : c = '\''
      · -- the escaped apostrophe is part of what the literal says, however long it goes on
        subst hquote
        rw [read_escape_cons (.inl rfl)] at h
        obtain ⟨more, rest, rfl, -⟩ := ihliteral _ h
        exact ⟨'\'' :: more, rest, by simp, .inl (by simp)⟩
      · rw [hlimit hquote]
        by_cases hslash : c = '\\'
        · rw [read_escape_cons (.inr hslash)] at h
          exact (ihliteral _ h).cons
        · rw [read_escape_bad (by simp [hquote, hslash])] at h
          cases h

/-- A literal says its key only when the key has no backslash: the first one is not part of what is
said, and then too few characters are left before the closing apostrophe. -/
theorem backslash_notMem_of_read {key cs : List Char} {rest : List Token} (hquote : '\'' ∉ key)
    (h : read (.literal []) (key ++ '\'' :: cs) = some (.literal key :: rest)) : '\\' ∉ key := by
  intro hslash
  obtain ⟨before, after, rfl, hbefore⟩ := List.eq_append_cons_of_mem hslash
  have hquotes : '\'' ∉ before ∧ '\'' ∉ after := by simpa using hquote
  rw [List.append_assoc, read_literal_append hquotes.1 hbefore, List.cons_append,
    read_literal_backslash] at h
  obtain ⟨more, tokens, htokens, hmore⟩ := (continues_of_read _ _).2 _ h
  have hlimit : ((after ++ '\'' :: cs).takeWhile (· ≠ '\'')).length = after.length := by
    rw [List.takeWhile_append_of_pos (by simpa using fun c hc => ne_of_mem_of_not_mem hc hquotes.2)]
    simp
  obtain ⟨rfl, -⟩ : '\\' :: after = more ∧ rest = tokens := by simpa using htokens
  rw [hlimit, List.length_cons] at hmore
  rcases hmore with hmem | hlength
  · simp [hquotes.2] at hmem
  · omega

theorem read_doc (cs : List Char) :
    read .between ("doc['".toList ++ cs) =
      (read (.literal []) cs).map ([.word "doc".toList, .sign ['[']] ++ ·) := by
  change read .between ('d' :: 'o' :: 'c' :: '[' :: '\'' :: cs) = _
  rw [read_cons rfl, read_cons rfl, read_cons rfl, read_cons rfl, read_cons rfl]
  simp only [Option.map_map]
  rfl

theorem read_value (cs : List Char) :
    read .between ("].value ".toList ++ cs) =
      (read .between cs).map ([.sign [']'], .sign ['.'], .word "value".toList] ++ ·) := by
  change read .between (']' :: '.' :: 'v' :: 'a' :: 'l' :: 'u' :: 'e' :: ' ' :: cs) = _
  rw [read_cons rfl, read_cons rfl, read_cons rfl, read_cons rfl, read_cons rfl, read_cons rfl,
    read_cons rfl, read_cons rfl]
  simp only [Option.map_map]
  rfl

theorem read_sign_blank {first : Char} (h : step .between first = some ([], .sign first))
    (cs : List Char) :
    read .between (first :: ' ' :: cs) = (read .between cs).map (.sign [first] :: ·) := by
  rw [read_cons h, read_cons rfl, Option.map_map]
  rfl

theorem read_sign_equals {first : Char} (h : step .between first = some ([], .sign first))
    (cs : List Char) :
    read .between (first :: '=' :: ' ' :: cs) =
      (read .between cs).map (.sign [first, '='] :: ·) := by
  rw [read_cons h, read_cons rfl, read_cons rfl, Option.map_map, Option.map_map]
  rfl

theorem read_symbol (c : Comparison) (cs : List Char) :
    read .between (c.symbol.toList ++ ' ' :: cs) =
      (read .between cs).map (.sign c.symbol.toList :: ·) := by
  cases c with
  | gt | lt => exact read_sign_blank rfl cs
  | eq | neq | gte | lte => exact read_sign_equals rfl cs

theorem read_quoted {key : List Char} (hquote : '\'' ∉ key) (hslash : '\\' ∉ key)
    (cs : List Char) :
    read .between ("doc['".toList ++ (key ++ '\'' :: cs)) =
      (read .between cs).map ([.word "doc".toList, .sign ['['], .literal key] ++ ·) := by
  rw [read_doc, read_literal_append hquote hslash, read_literal_quote, Option.map_map]
  rfl

theorem backslash_notMem_of_read_quoted {key cs : List Char} {tokens : List Token}
    (hquote : '\'' ∉ key) (h : read .between ("doc['".toList ++ (key ++ '\'' :: cs)) =
      some ([.word "doc".toList, .sign ['['], .literal key] ++ tokens)) : '\\' ∉ key := by
  rw [read_doc, Option.map_eq_some_iff] at h
  obtain ⟨literal, hread, htokens⟩ := h
  obtain rfl : literal = .literal key :: tokens := by simpa using htokens
  exact backslash_notMem_of_read hquote hread

/-- The script of two fields is the comparison of its keys exactly when they have no backslash. -/
theorem tokens?_fieldScript_iff {subject object : String} (hs : '\'' ∉ subject.toList)
    (ho : '\'' ∉ object.toList) (c : Comparison) :
    tokens? (Document.fieldScript subject c object) = some (comparisonTokens subject c object) ↔
      '\\' ∉ subject.toList ∧ '\\' ∉ object.toList := by
  have hscript : (Document.fieldScript subject c object).toList =
      "doc['".toList ++ (subject.toList ++ '\'' :: ("].value ".toList ++ (c.symbol.toList ++ ' ' ::
        ("doc['".toList ++ (object.toList ++ '\'' :: "].value".toList))))) := by
    simp [Document.fieldScript]
  have hend : read .between "].value".toList =
      some [.sign [']'], .sign ['.'], .word "value".toList] := rfl
  rw [tokens?, hscript]
  constructor
  · intro h
    have hsubject := backslash_notMem_of_read_quoted hs h
    rw [read_quoted hs hsubject, read_value, read_symbol, Option.map_map, Option.map_map,
      Option.map_eq_some_iff] at h
    obtain ⟨tokens, hread, htokens⟩ := h
    obtain rfl : tokens = fieldTokens object := by
      simpa [comparisonTokens, fieldTokens] using htokens
    exact ⟨hsubject, backslash_notMem_of_read_quoted ho hread⟩
  · rintro ⟨hsubject, hobject⟩
    rw [read_quoted hs hsubject, read_value, read_symbol, read_quoted ho hobject, hend]
    rfl

end Script

theorem Resolver.resolvable_of_resolve_ok {r : Resolver} {t : Target} {key : String}
    (h : (r.resolve t).1 = .ok key) :
    r.policy.Admits t.field ∧ t.Resolvable ∧ key = t.key := by
  have hrun : (Resolving.resolve t).runFrom r = (.ok key, _) := Prod.ext h rfl
  obtain ⟨hpass, hkey, -⟩ := (Resolving.Performs.resolve t).of_runFrom_ok hrun
  exact ⟨(hpass (.admitted t) (by simp)).2, hpass (.legal t) (by simp), hkey⟩

namespace Clause

/-- The script that compares two accepted targets reads as the comparison of their keys exactly when
neither key has a backslash. -/
theorem script_compares_keys_iff_no_backslash (r : Resolver) (s o : Target)
    (subject object : String) (op : Value) (c : Comparison)
    (hs : (r.resolve s).1 = .ok subject) (ho : (r.resolve o).1 = .ok object)
    (hop : op.IsOperator (.compare c)) :
    ∃ q source, ((compile ⟨s.toValue, op, o.toValue⟩).runFrom r).1 = .ok q ∧
      q.document = .mapping [("script", .mapping [("script", .string source)])] ∧
      (Script.tokens? source = some (Script.comparisonTokens subject c object) ↔
        '\\' ∉ subject.toList ∧ '\\' ∉ object.toList) := by
  obtain ⟨hsfield, hsubject, rfl⟩ := Resolver.resolvable_of_resolve_ok hs
  obtain ⟨hofield, hobject, rfl⟩ := Resolver.resolvable_of_resolve_ok ho
  have hcompiles := Compiles.fields hop hsubject hobject
  have hpass : ∀ d ∈ checks ⟨s.toValue, op, o.toValue⟩, d.Passes r.policy := by
    simp only [checks, Value.target?_toValue, List.forall_mem_cons]
    exact ⟨⟨Target.isWritable_head hsubject.1, hsfield⟩, hsubject,
      ⟨Target.isWritable_head hobject.1, hofield⟩, hobject,
      ⟨hop.isWritable, _, hop⟩, ⟨rfl, _, hop⟩, by simp⟩
  have hrun := congrArg Prod.fst (hcompiles.performs.ok r hpass)
  refine ⟨_, _, hrun, Query.document_compareFields s.key c o.key, ?_⟩
  exact Script.tokens?_fieldScript_iff (hsubject.2.notMem_key (by decide))
    (hobject.2.notMem_key (by decide)) c

/-- Blanks, line breaks, slashes and letters of any alphabet do no harm. -/
theorem script_compares_keys_iff_no_backslash_line_break :
    let r := Resolver.start .unrestricted
    let s : Target := ⟨.string "é\n", [.int 0]⟩
    let o : Target := ⟨.string "a/b c", []⟩
    (r.resolve s).1 = .ok "é\n.0" ∧ (r.resolve o).1 = .ok "a/b c" ∧
      Value.IsOperator (.string "gte") (.compare .gte) ∧
      ∃ q source, ((compile ⟨s.toValue, .string "gte", o.toValue⟩).runFrom r).1 = .ok q ∧
        q.document = .mapping [("script", .mapping [("script", .string source)])] ∧
        Script.tokens? source = some (Script.comparisonTokens "é\n.0" .gte "a/b c") := by
  have hs : ((Resolver.start .unrestricted).resolve ⟨.string "é\n", [.int 0]⟩).1 =
      .ok "é\n.0" := rfl
  have ho : ((Resolver.start .unrestricted).resolve ⟨.string "a/b c", []⟩).1 = .ok "a/b c" := rfl
  intro r s o
  have hop : Value.IsOperator (.string "gte") (.compare .gte) := .inr rfl
  obtain ⟨q, source, hq, hdocument, hiff⟩ :=
    script_compares_keys_iff_no_backslash r s o _ _ _ _ hs ho hop
  exact ⟨hs, ho, hop, q, source, hq, hdocument, hiff.mpr (by decide)⟩

/-- A backslash at the end of a key escapes the closing apostrophe: the literal goes on up to the
second key, and the last literal stays open. -/
theorem backslash_in_key_breaks_script :
    let r := Resolver.start .unrestricted
    let s : Target := ⟨.string "a\\", []⟩
    let o : Target := ⟨.string "b", []⟩
    (r.resolve s).1 = .ok "a\\" ∧ (r.resolve o).1 = .ok "b" ∧
      ∃ q source, ((compile ⟨s.toValue, .string "eq", o.toValue⟩).runFrom r).1 = .ok q ∧
        q.document = .mapping [("script", .mapping [("script", .string source)])] ∧
        Script.tokens? source = none := by
  refine ⟨rfl, rfl, .compareFields "a\\" .eq "b", "doc['a\\'].value == doc['b'].value", ?_⟩
  exact ⟨rfl, rfl, rfl⟩

theorem exists_comparison_of_fields {s o : Target} {op : Value} {r : Resolver} {q : Query String}
    (h : ((compile ⟨s.toValue, op, o.toValue⟩).runFrom r).1 = .ok q) :
    ∃ c, op.IsOperator (.compare c) ∧ s.Legal ∧ o.Legal ∧ q = .compareFields s.key c o.key := by
  have hrun : (compile ⟨s.toValue, op, o.toValue⟩).runFrom r = (.ok q, _) := Prod.ext h rfl
  obtain ⟨subjectHead, subjectTail⟩ := s
  obtain ⟨objectHead, objectTail⟩ := o
  cases compiles_of_fragment (fragment_of_runFrom hrun) with
  | fields hop hs ho => exact ⟨_, hop, hs.2, ho.2, rfl⟩
  | literals hv _ _ => cases hv
  | subject hv _ _ _ _ => cases hv
  | object hv _ _ _ _ => cases hv

/-- The texts of two scripts are equal exactly when the keys and the operators are, whatever the
segments of the targets are and whichever policies have accepted them. -/
theorem script_text_determines_comparison (s o s' o' : Target) (op op' : Value) (r r' : Resolver)
    (q q' : Query String) (h : ((compile ⟨s.toValue, op, o.toValue⟩).runFrom r).1 = .ok q)
    (h' : ((compile ⟨s'.toValue, op', o'.toValue⟩).runFrom r').1 = .ok q') :
    ∃ source source',
      q.document = .mapping [("script", .mapping [("script", .string source)])] ∧
      q'.document = .mapping [("script", .mapping [("script", .string source')])] ∧
      (source = source' ↔
        s.key = s'.key ∧ (∃ c, op.IsOperator c ∧ op'.IsOperator c) ∧ o.key = o'.key) := by
  obtain ⟨c, hop, hs, -, rfl⟩ := exists_comparison_of_fields h
  obtain ⟨c', hop', hs', -, rfl⟩ := exists_comparison_of_fields h'
  refine ⟨_, _, Query.document_compareFields s.key c o.key,
    Query.document_compareFields s'.key c' o'.key, ?_⟩
  constructor
  · intro hsource
    obtain ⟨hsubject, rfl, hobject⟩ := Document.fieldScript_injective
      (hs.notMem_key (by decide)) (hs'.notMem_key (by decide)) hsource
    exact ⟨hsubject, ⟨.compare c, hop, hop'⟩, hobject⟩
  · rintro ⟨hsubject, ⟨d, hd, hd'⟩, hobject⟩
    have hsame : Operator.compare c = .compare c' := (hop.unique hd).trans (hd'.unique hop')
    rw [hsubject, hobject, Operator.compare.inj hsame]

/-- A key may have a part of the script's own text, and two paths may have one key. -/
theorem script_text_determines_comparison_template_in_key :
    let s : Target := ⟨.string "a", [.string "value < doc"]⟩
    let s' : Target := ⟨.string "a.value < doc", []⟩
    let o : Target := ⟨.string "b", [.int 0]⟩
    let r := Resolver.start .unrestricted
    let r' : Resolver := ⟨⟨["a.value < doc", "b"], [], [], .inr rfl⟩, ["b"]⟩
    ∃ q q' source source',
      ((compile ⟨s.toValue, .string "lt", o.toValue⟩).runFrom r).1 = .ok q ∧
      ((compile ⟨s'.toValue, .operator (.compare .lt), o.toValue⟩).runFrom r').1 = .ok q' ∧
      q.document = .mapping [("script", .mapping [("script", .string source)])] ∧
      q'.document = .mapping [("script", .mapping [("script", .string source')])] ∧
      source = source' := by
  have h : ((compile ⟨.target (.string "a") [.string "value < doc"], .string "lt",
      .target (.string "b") [.int 0]⟩).runFrom (.start .unrestricted)).1 =
        .ok (.compareFields "a.value < doc" .lt "b.0") := rfl
  have h' : ((compile ⟨.target (.string "a.value < doc") [], .operator (.compare .lt),
      .target (.string "b") [.int 0]⟩).runFrom
        ⟨⟨["a.value < doc", "b"], [], [], .inr rfl⟩, ["b"]⟩).1 =
          .ok (.compareFields "a.value < doc" .lt "b.0") := rfl
  have hkeys : Target.key ⟨.string "a", [.string "value < doc"]⟩ =
      Target.key ⟨.string "a.value < doc", []⟩ := rfl
  intro s s' o r r'
  obtain ⟨source, source', hsource, hsource', hiff⟩ :=
    script_text_determines_comparison s o s' o _ _ r r' _ _ h h'
  exact ⟨_, _, source, source', h, h', hsource, hsource',
    hiff.mpr ⟨hkeys, ⟨.compare .lt, .inr rfl, .inl rfl⟩, rfl⟩⟩

end Clause
end FilterQuery
