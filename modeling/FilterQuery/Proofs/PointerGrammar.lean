import FilterQuery.Proofs.Pointers

/-!
# The grammar of pointers

A pointer starts with a slash, and every tilde in it is followed by a zero or a one; nothing else is
asked of it, except that a number must not have too many digits. Since a slash is never part of an
escape, the escapes can be judged in the whole pointer or segment by segment. What a segment stands
for is said by a relation here, apart from the function that reads it. A pointer that cannot be read
is refused for its first segment that cannot be read.
-/

namespace FilterQuery

theorem bind_eq_error_iff {α β ε : Type} {first : Except ε α} {next : α → Except ε β} {fault : ε} :
    (first >>= next) = .error fault ↔
      first = .error fault ∨ ∃ a, first = .ok a ∧ next a = .error fault := by
  cases first <;> simp [bind, Except.bind]

theorem mapM_eq_error_iff {α β ε : Type} {read : α → Except ε β} {as : List α} {fault : ε} :
    as.mapM read = .error fault ↔
      ∃ before a after, as = before ++ a :: after ∧ (∀ b ∈ before, ∃ c, read b = .ok c) ∧
        read a = .error fault := by
  induction as with
  | nil => simp [pure, Except.pure]
  | cons first as ih =>
    have hcons : (first :: as).mapM read = .error fault ↔
        read first = .error fault ∨
          (∃ c, read first = .ok c) ∧ as.mapM read = .error fault := by
      simp [bind_eq_error_iff, pure, Except.pure]
    rw [hcons]
    constructor
    · intro h
      rcases h with hfirst | ⟨hfirst, has⟩
      · exact ⟨[], first, as, rfl, by simp, hfirst⟩
      · obtain ⟨before, a, after, hsplit, hbefore, ha⟩ := ih.mp has
        have hall : ∀ b ∈ first :: before, ∃ c, read b = .ok c :=
          List.forall_mem_cons.mpr ⟨hfirst, hbefore⟩
        exact ⟨first :: before, a, after, by rw [hsplit]; rfl, hall, ha⟩
    · rintro ⟨before, a, after, hsplit, hbefore, ha⟩
      cases before with
      | nil =>
        obtain ⟨hfirst, -⟩ := List.cons.inj hsplit
        rw [hfirst]
        exact .inl ha
      | cons b before =>
        obtain ⟨hfirst, has⟩ := List.cons.inj hsplit
        rw [hfirst]
        obtain ⟨hb, hbefore⟩ := List.forall_mem_cons.mp hbefore
        exact .inr ⟨hb, ih.mpr ⟨before, a, after, has, hbefore, ha⟩⟩

namespace Pointer

/-- Every tilde is followed by a zero or a one. -/
def Escaped (cs : List Char) : Prop :=
  ∀ before after, cs = before ++ '~' :: after →
    after.head? = some '0' ∨ after.head? = some '1'

theorem escaped_nil : Escaped [] := by
  intro before after h
  simp at h

theorem escaped_cons (c : Char) (cs : List Char) :
    Escaped (c :: cs) ↔
      (c = '~' → cs.head? = some '0' ∨ cs.head? = some '1') ∧ Escaped cs := by
  constructor
  · intro h
    refine ⟨?_, fun before after hcs => h (c :: before) after (by rw [hcs]; rfl)⟩
    rintro rfl
    exact h [] cs rfl
  · rintro ⟨hc, hcs⟩ before after hsplit
    cases before with
    | nil =>
      obtain ⟨rfl, rfl⟩ := List.cons.inj hsplit
      exact hc rfl
    | cons b before => exact hcs before after (List.cons.inj hsplit).2

theorem escaped_append_slash (cs ds : List Char) :
    Escaped (cs ++ '/' :: ds) ↔ Escaped cs ∧ Escaped ds := by
  induction cs with
  | nil => simp [escaped_cons, escaped_nil]
  | cons c cs ih =>
    have hhead : ∀ digit : Char, digit ≠ '/' →
        ((cs ++ '/' :: ds).head? = some digit ↔ cs.head? = some digit) := by
      intro digit hdigit
      cases cs <;> simp [hdigit.symm]
    rw [List.cons_append, escaped_cons, escaped_cons, ih, hhead '0' (by decide),
      hhead '1' (by decide), and_assoc]

theorem escaped_intercalate (raws : List (List Char)) :
    Escaped (['/'].intercalate raws) ↔ ∀ raw ∈ raws, Escaped raw := by
  induction raws with
  | nil => simp [escaped_nil]
  | cons raw raws ih =>
    cases raws with
    | nil => simp
    | cons next raws =>
      rw [List.intercalate_cons_cons, List.append_assoc, List.singleton_append,
        escaped_append_slash, ih]
      simp

theorem escaped_iff_segments (cs : List Char) :
    Escaped cs ↔ ∀ raw ∈ segments cs, Escaped raw := by
  rw [← escaped_intercalate, segments_eq_splitOn, List.intercalate_splitOn]

/-- The text that a raw segment stands for: `~0` is a tilde, `~1` a slash, and any other character
is itself. -/
inductive Unescapes : List Char → List Char → Prop
  | nil : Unescapes [] []
  | tilde {raw cs : List Char} : Unescapes raw cs → Unescapes ('~' :: '0' :: raw) ('~' :: cs)
  | slash {raw cs : List Char} : Unescapes raw cs → Unescapes ('~' :: '1' :: raw) ('/' :: cs)
  | plain {c : Char} {raw cs : List Char} :
      c ≠ '~' → Unescapes raw cs → Unescapes (c :: raw) (c :: cs)

theorem unescape?_eq_some_iff {raw cs : List Char} :
    unescape? raw = some cs ↔ Unescapes raw cs := by
  constructor
  · intro h
    fun_induction unescape? raw generalizing cs with
    | case1 =>
      cases h
      exact .nil
    | case2 raw ih =>
      obtain ⟨rest, hrest, rfl⟩ := Option.map_eq_some_iff.mp h
      exact .tilde (ih hrest)
    | case3 raw ih =>
      obtain ⟨rest, hrest, rfl⟩ := Option.map_eq_some_iff.mp h
      exact .slash (ih hrest)
    | case4 => cases h
    | case5 c raw _ _ htilde ih =>
      obtain ⟨rest, hrest, rfl⟩ := Option.map_eq_some_iff.mp h
      exact .plain htilde (ih hrest)
  · intro h
    induction h with
    | nil => rfl
    | tilde _ ih | slash _ ih => simp [unescape?, ih]
    | plain htilde _ ih => simp [unescape?, htilde, ih]

theorem exists_unescapes_iff (raw : List Char) : (∃ cs, Unescapes raw cs) ↔ Escaped raw := by
  constructor
  · rintro ⟨cs, h⟩
    induction h with
    | nil => exact escaped_nil
    | tilde _ ih | slash _ ih => simp [escaped_cons, ih]
    | plain htilde _ ih => simp [escaped_cons, htilde, ih]
  · intro h
    fun_induction unescape? raw with
    | case1 => exact ⟨[], .nil⟩
    | case2 raw ih =>
      obtain ⟨cs, hcs⟩ := ih (by simp_all [escaped_cons])
      exact ⟨_, .tilde hcs⟩
    | case3 raw ih =>
      obtain ⟨cs, hcs⟩ := ih (by simp_all [escaped_cons])
      exact ⟨_, .slash hcs⟩
    | case4 raw hzero hone =>
      rcases ((escaped_cons _ _).mp h).1 rfl with h0 | h1
      · cases raw with
        | nil => cases h0
        | cons c raw =>
          cases h0
          exact absurd rfl (hzero raw rfl)
      · cases raw with
        | nil => cases h1
        | cons c raw =>
          cases h1
          exact absurd rfl (hone raw rfl)
    | case5 c raw _ _ htilde ih =>
      obtain ⟨cs, hcs⟩ := ih ((escaped_cons c raw).mp h).2
      exact ⟨_, .plain htilde hcs⟩

theorem unescapeSegment_of_not_escaped {raw : String} (h : ¬ Escaped raw.toList) :
    unescapeSegment raw = .error (.badValue (.badEscape raw)) := by
  have hnone : unescape? raw.toList = none := by
    cases hraw : unescape? raw.toList with
    | none => rfl
    | some cs => exact absurd ((exists_unescapes_iff _).mp ⟨cs, unescape?_eq_some_iff.mp hraw⟩) h
  unfold unescapeSegment
  rw [hnone]

theorem unescapeSegment_of_unescapes {raw : String} {cs : List Char} (h : Unescapes raw.toList cs) :
    unescapeSegment raw = .ok (String.ofList cs) := by
  unfold unescapeSegment
  rw [unescape?_eq_some_iff.mpr h]

theorem IsIndex.notMem {cs : List Char} (h : IsIndex cs) {c : Char}
    (hc : ¬ ('0' ≤ c ∧ c ≤ '9')) : c ∉ cs := by
  intro hmem
  obtain rfl | ⟨first, rest, rfl, ⟨hone, hnine⟩, hrest⟩ := h
  · obtain rfl := List.mem_singleton.mp hmem
    exact hc (by decide)
  · rcases List.mem_cons.mp hmem with rfl | hmem
    · exact hc ⟨Char.le_trans (by decide) hone, hnine⟩
    · exact hc (hrest c hmem)

/-- An escape leaves its mark on both sides. -/
theorem Unescapes.eq_or_mem {raw cs : List Char} (h : Unescapes raw cs) :
    raw = cs ∨ '~' ∈ raw ∧ ('~' ∈ cs ∨ '/' ∈ cs) := by
  induction h with
  | nil => exact .inl rfl
  | tilde _ _ => exact .inr ⟨List.mem_cons_self .., .inl (List.mem_cons_self ..)⟩
  | slash _ _ => exact .inr ⟨List.mem_cons_self .., .inr (List.mem_cons_self ..)⟩
  | plain _ _ ih =>
    rcases ih with rfl | ⟨hraw, hcs⟩
    · exact .inl rfl
    · exact .inr ⟨List.mem_cons_of_mem _ hraw,
        hcs.imp (List.mem_cons_of_mem _) (List.mem_cons_of_mem _)⟩

/-- Only a segment without escapes can be an index, and its text is the segment itself. -/
theorem Unescapes.isIndex_iff {raw cs : List Char} (h : Unescapes raw cs) :
    IsIndex cs ↔ IsIndex raw := by
  rcases h.eq_or_mem with rfl | ⟨hraw, hcs⟩
  · exact Iff.rfl
  · have hraw' : ¬ IsIndex raw := fun hindex => hindex.notMem (by decide) hraw
    have hcs' : ¬ IsIndex cs := by
      intro hindex
      rcases hcs with hcs | hcs
      all_goals exact hindex.notMem (by decide) hcs
    exact iff_of_false hcs' hraw'

theorem IsIndex.eq_of_unescapes {raw cs : List Char} (h : IsIndex raw) (hcs : Unescapes raw cs) :
    cs = raw := by
  rcases hcs.eq_or_mem with rfl | ⟨hraw, -⟩
  · rfl
  · exact absurd hraw (h.notMem (by decide))

theorem IsIndex.escaped {raw : List Char} (h : IsIndex raw) : Escaped raw := by
  intro before after hsplit
  refine absurd ?_ (h.notMem (by decide : ¬ ('0' ≤ '~' ∧ '~' ≤ '9')))
  simp [hsplit]

/-- The segment that a raw one is read as: the number that it spells, or the text that it stands
for. -/
inductive StandsFor (raw : List Char) : Value → Prop
  | index (n : Nat) : IsIndex raw → Nat.toDigits 10 n = raw → StandsFor raw (.int n)
  | text {cs : List Char} :
      ¬ IsIndex raw → Unescapes raw cs → StandsFor raw (.string (String.ofList cs))

inductive Offends (raw : List Char) : Fault → Prop
  | escape : ¬ Escaped raw → Offends raw (.badValue (.badEscape (String.ofList raw)))
  | digits : IsIndex raw → 4300 < raw.length → Offends raw (.badValue (.indexTooLong raw.length))

/-- The escapes are right, and a number does not have too many digits. -/
def Readable (raw : List Char) : Prop :=
  Escaped raw ∧ (IsIndex raw → raw.length ≤ 4300)

section Reading

variable {raw : List Char}

theorem readSegment_of_not_escaped (h : ¬ Escaped raw) :
    readSegment raw = .error (.badValue (.badEscape (String.ofList raw))) := by
  unfold readSegment
  rw [unescapeSegment_of_not_escaped (by rwa [String.toList_ofList])]
  rfl

theorem readSegment_of_unescapes {cs : List Char} (h : Unescapes raw cs) :
    readSegment raw = ofText (String.ofList cs) := by
  unfold readSegment
  rw [unescapeSegment_of_unescapes (by rwa [String.toList_ofList])]
  rfl

theorem readSegment_of_index (h : IsIndex raw) :
    readSegment raw =
      if raw.length ≤ 4300 then .ok (.int (indexValue raw))
      else .error (.badValue (.indexTooLong raw.length)) := by
  obtain ⟨cs, hcs⟩ := (exists_unescapes_iff raw).mpr h.escaped
  obtain rfl := h.eq_of_unescapes hcs
  rw [readSegment_of_unescapes hcs]
  unfold ofText
  rw [String.toList_ofList, if_pos ((isIndex_iff cs).mpr h), String.length_ofList]
  rfl

theorem readSegment_of_text {cs : List Char} (h : ¬ IsIndex raw) (hcs : Unescapes raw cs) :
    readSegment raw = .ok (.string (String.ofList cs)) := by
  have htext : ¬ IsIndex cs := mt hcs.isIndex_iff.mp h
  rw [readSegment_of_unescapes hcs]
  unfold ofText
  rw [String.toList_ofList, if_neg (mt (isIndex_iff cs).mp htext)]

theorem Offends.readSegment_eq {fault : Fault} (h : Offends raw fault) :
    readSegment raw = .error fault := by
  cases h with
  | escape h => exact readSegment_of_not_escaped h
  | digits hindex hlong => rw [readSegment_of_index hindex, if_neg (by omega)]

theorem Readable.exists_standsFor (h : Readable raw) :
    ∃ v, StandsFor raw v ∧ readSegment raw = .ok v := by
  by_cases hindex : IsIndex raw
  · refine ⟨_, .index _ hindex (toDigits_indexValue hindex), ?_⟩
    rw [readSegment_of_index hindex, if_pos (h.2 hindex)]
  · obtain ⟨cs, hcs⟩ := (exists_unescapes_iff raw).mpr h.1
    exact ⟨_, .text hindex hcs, readSegment_of_text hindex hcs⟩

theorem exists_offends (h : ¬ Readable raw) : ∃ fault, Offends raw fault := by
  by_cases hescaped : Escaped raw
  · have hlong : ¬ (IsIndex raw → raw.length ≤ 4300) := fun hshort => h ⟨hescaped, hshort⟩
    rw [Classical.not_imp, Nat.not_le] at hlong
    exact ⟨_, .digits hlong.1 hlong.2⟩
  · exact ⟨_, .escape hescaped⟩

theorem readable_of_readSegment {v : Value} (h : readSegment raw = .ok v) :
    Readable raw ∧ StandsFor raw v := by
  by_cases hreadable : Readable raw
  · obtain ⟨w, hw, hread⟩ := hreadable.exists_standsFor
    cases hread.symm.trans h
    exact ⟨hreadable, hw⟩
  · obtain ⟨fault, hfault⟩ := exists_offends hreadable
    cases hfault.readSegment_eq.symm.trans h

theorem readSegment_eq_error_iff {fault : Fault} :
    readSegment raw = .error fault ↔ Offends raw fault := by
  refine ⟨fun h => ?_, Offends.readSegment_eq⟩
  by_cases hreadable : Readable raw
  · obtain ⟨v, -, hread⟩ := hreadable.exists_standsFor
    cases hread.symm.trans h
  · obtain ⟨other, hother⟩ := exists_offends hreadable
    cases hother.readSegment_eq.symm.trans h
    exact hother

theorem exists_readSegment_iff : (∃ v, readSegment raw = .ok v) ↔ ∀ fault, ¬ Offends raw fault := by
  simp only [← readSegment_eq_error_iff]
  cases readSegment raw <;> simp

end Reading

/-- What follows each slash of a pointer, up to the next one. -/
def rawSegments (p : String) : List (List Char) :=
  (p.toList.splitOn '/').tail

theorem rawSegments_of_slash {p : String} {cs : List Char} (h : p.toList = '/' :: cs) :
    rawSegments p = segments cs := by
  unfold rawSegments
  rw [h, ← segments_eq_splitOn]
  rfl

theorem length_segments (cs : List Char) : (segments cs).length = cs.count '/' + 1 := by
  induction cs with
  | nil => rfl
  | cons c cs ih =>
    unfold segments
    split
    · rename_i hslash
      rw [hslash, List.length_cons, ih, List.count_cons_self]
    · rename_i hslash
      rw [List.length_modifyHead, ih, List.count_cons_of_ne hslash]

end Pointer

namespace Target

open Pointer

theorem ofPointer_eq_error_iff {p : String} {cs : List Char} (h : p.toList = '/' :: cs)
    {fault : Fault} :
    ofPointer p = .error fault ↔ (segments cs).mapM readSegment = .error fault := by
  have hbind : ofPointer p = (segments cs).mapM readSegment >>= ofPath := by
    unfold ofPointer
    rw [h]
    rfl
  rw [hbind]
  cases hread : (segments cs).mapM readSegment with
  | error other => exact ⟨fun h => by cases h; rfl, fun h => by cases h; rfl⟩
  | ok path =>
    have hpath := mapM_eq_ok_iff.mp hread
    cases path with
    | nil => exact absurd (List.forall₂_nil_right_iff.mp hpath) (segments_ne_nil cs)
    | cons head tail => exact ⟨nofun, nofun⟩

theorem standsFor_of_ofPointer {p : String} {t : Target} (h : ofPointer p = .ok t) :
    ∃ cs, p.toList = '/' :: cs ∧ (∀ raw ∈ segments cs, Readable raw) ∧
      List.Forall₂ StandsFor (segments cs) t.path := by
  obtain ⟨cs, hcs, hread⟩ := ofPointer_eq_ok_iff.mp h
  have hboth : List.Forall₂ (fun raw v => Readable raw ∧ StandsFor raw v) (segments cs) t.path :=
    hread.imp fun _ _ => readable_of_readSegment
  exact ⟨cs, hcs, (List.forall₂_and_left _ _).mp hboth⟩

theorem exists_ofPointer_of_readable {p : String} {cs : List Char} (h : p.toList = '/' :: cs)
    (hreadable : ∀ raw ∈ segments cs, Readable raw) : ∃ t, ofPointer p = .ok t := by
  cases hp : ofPointer p with
  | ok t => exact ⟨t, rfl⟩
  | error fault =>
    obtain ⟨before, raw, after, hsplit, -, hfault⟩ :=
      mapM_eq_error_iff.mp ((ofPointer_eq_error_iff h).mp hp)
    obtain ⟨v, -, hv⟩ := (hreadable raw (by simp [hsplit])).exists_standsFor
    cases hv.symm.trans hfault

/-- A pointer can be read exactly when it starts with a slash, its escapes are right and no segment is
an index of more than 4300 digits. Each raw segment then gives one segment. A pointer with a slash in
front that cannot be read is refused for its first segment against which there is something. -/
theorem pointers_are_read_by_grammar (p : String) :
    ((∃ t, ofPointer p = .ok t) ↔
      p.toList.head? = some '/' ∧ Escaped p.toList ∧
        ∀ raw ∈ rawSegments p, IsIndex raw → raw.length ≤ 4300) ∧
    (∀ t, ofPointer p = .ok t →
      t.path.length = p.toList.count '/' ∧ List.Forall₂ StandsFor (rawSegments p) t.path) ∧
    (p.toList.head? = some '/' → ∀ fault, ofPointer p = .error fault ↔
      ∃ before raw after, rawSegments p = before ++ raw :: after ∧
        (∀ earlier ∈ before, ∀ other, ¬ Offends earlier other) ∧ Offends raw fault) ∧
    ∀ raw fault, Offends raw fault →
      ¬ Escaped raw ∧ fault.message =
          "Invalid escape in JSON pointer segment: " ++ Text.quote (String.ofList raw) ∨
        IsIndex raw ∧ fault.message =
          "Exceeds the limit (4300 digits) for integer string conversion: value has " ++
            toString raw.length ++
              " digits; use sys.set_int_max_str_digits() to increase the limit" := by
  refine ⟨⟨?_, ?_⟩, ?_, ?_, ?_⟩
  · rintro ⟨t, ht⟩
    obtain ⟨cs, hcs, hreadable, -⟩ := standsFor_of_ofPointer ht
    rw [rawSegments_of_slash hcs, hcs, escaped_cons, escaped_iff_segments]
    exact ⟨rfl, ⟨nofun, fun raw hraw => (hreadable raw hraw).1⟩,
      fun raw hraw => (hreadable raw hraw).2⟩
  · rintro ⟨hslash, hescaped, hshort⟩
    obtain ⟨cs, hcs⟩ := List.head?_eq_some_iff.mp hslash
    rw [rawSegments_of_slash hcs] at hshort
    rw [hcs, escaped_cons, escaped_iff_segments] at hescaped
    exact exists_ofPointer_of_readable hcs fun raw hraw => ⟨hescaped.2 raw hraw, hshort raw hraw⟩
  · intro t ht
    obtain ⟨cs, hcs, -, hstands⟩ := standsFor_of_ofPointer ht
    rw [rawSegments_of_slash hcs, hcs, List.count_cons_self, ← length_segments]
    exact ⟨hstands.length_eq.symm, hstands⟩
  · intro hslash fault
    obtain ⟨cs, hcs⟩ := List.head?_eq_some_iff.mp hslash
    rw [ofPointer_eq_error_iff hcs, mapM_eq_error_iff, rawSegments_of_slash hcs]
    simp only [exists_readSegment_iff, readSegment_eq_error_iff]
  · intro raw fault h
    cases h with
    | escape hescape => exact .inl ⟨hescape, rfl⟩
    | digits hindex _ => exact .inr ⟨hindex, rfl⟩

/-- An escape, a leading zero and a number; then a tilde at the end of the second segment, which is
reported although the third segment is wrong, too. -/
theorem pointers_are_read_by_grammar_second_segment :
    let p := "/a~1b/007/12"
    let t : Target := ⟨.string "a/b", [.string "007", .int 12]⟩
    let q := "/0/a~/~2"
    let fault : Fault := .badValue (.badEscape "a~")
    ofPointer p = .ok t ∧ Escaped p.toList ∧ t.path.length = 3 ∧
      List.Forall₂ StandsFor (rawSegments p) t.path ∧ q.toList.head? = some '/' ∧
      Offends ['a', '~'] fault ∧ ofPointer q = .error fault := by
  intro p t q fault
  have hp : ofPointer "/a~1b/007/12" = .ok t := rfl
  have hoffends : Offends ['a', '~'] fault := by
    refine .escape fun hescaped => ?_
    have hnext := hescaped ['a'] [] rfl
    simp at hnext
  have hslash : "/0/a~/~2".toList.head? = some '/' := by decide
  have hraws : rawSegments "/0/a~/~2" = [['0']] ++ ['a', '~'] :: [['~', '2']] := by decide
  obtain ⟨hiff, hread, -, -⟩ := pointers_are_read_by_grammar p
  obtain ⟨-, -, hfault, -⟩ := pointers_are_read_by_grammar q
  refine ⟨hp, (hiff.mp ⟨t, hp⟩).2.1, rfl, (hread t hp).2, hslash, hoffends, ?_⟩
  refine (hfault hslash fault).mpr ⟨_, _, _, hraws, ?_, hoffends⟩
  intro earlier hearlier
  obtain rfl := List.mem_singleton.mp hearlier
  exact exists_readSegment_iff.mp ⟨.int 0, rfl⟩

end Target
end FilterQuery
