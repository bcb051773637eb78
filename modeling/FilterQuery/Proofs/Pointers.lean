import FilterQuery.Proofs.Keys
import FilterQuery.Target.Reading

/-!
# Writing and reading pointers

A target is written as a pointer by escaping the texts of its segments, and a pointer is read by
cutting it at its slashes and undoing the escapes. Reading keeps the text of every segment, though
not its kind: a numeral without leading zeros comes back as a number and everything else as a
string. So a pointer that can be read is written again as it was, and a target that is written and
read again keeps its field, its pointer and its key.
-/

namespace FilterQuery

theorem bind_eq_ok_iff {α β ε : Type} {first : Except ε α} {next : α → Except ε β} {b : β} :
    (first >>= next) = .ok b ↔ ∃ a, first = .ok a ∧ next a = .ok b := by
  cases first <;> simp [bind, Except.bind]

theorem mapM_eq_ok_iff {α β ε : Type} {read : α → Except ε β} {as : List α} {bs : List β} :
    as.mapM read = .ok bs ↔ List.Forall₂ (fun a b => read a = .ok b) as bs := by
  induction as generalizing bs with
  | nil => cases bs <;> simp [pure, Except.pure]
  | cons a as ih =>
    rw [List.mapM_cons]
    cases ha : read a with
    | error fault => cases bs <;> simp [bind, Except.bind, ha]
    | ok b =>
      cases has : as.mapM read <;> cases bs <;>
        simp [bind, Except.bind, pure, Except.pure, ← ih, has, ha]

namespace Pointer

/-- Zero, or a digit from one to nine with any digits after it. -/
def IsIndex (cs : List Char) : Prop :=
  cs = ['0'] ∨
    ∃ first rest, cs = first :: rest ∧ ('1' ≤ first ∧ first ≤ '9') ∧
      ∀ c ∈ rest, '0' ≤ c ∧ c ≤ '9'

theorem isDigit_iff (c : Char) : c.isDigit = true ↔ '0' ≤ c ∧ c ≤ '9' := by
  simp [Char.isDigit, Char.le_def]

theorem isIndex_iff (cs : List Char) : isIndex cs = true ↔ IsIndex cs := by
  unfold IsIndex
  fun_cases isIndex cs with
  | case1 => simp
  | case2 => simp
  | case3 first rest hzero =>
    have hne : first :: rest ≠ ['0'] := by
      rintro ⟨⟩
      exact hzero rfl rfl
    simp [hne, isDigit_iff, and_assoc]

theorem not_isIndex_of_hyphen {cs : List Char} (h : '-' ∈ cs) : ¬ IsIndex cs := by
  rintro (rfl | ⟨first, rest, rfl, hfirst, hrest⟩)
  · exact absurd h (by decide)
  · rcases List.mem_cons.mp h with rfl | h
    · exact absurd hfirst (by decide)
    · exact absurd (hrest '-' h) (by decide)

instance : DecidablePred IsIndex := fun cs =>
  decidable_of_iff _ (isIndex_iff cs)

theorem digitChar_of_isDigit {c : Char} (h : '0' ≤ c ∧ c ≤ '9') :
    c.toNat - 48 < 10 ∧ Nat.digitChar (c.toNat - 48) = c := by
  have hlower : 48 ≤ c.toNat := Char.le_def.mp h.1
  have hupper : c.toNat ≤ 57 := Char.le_def.mp h.2
  refine ⟨by omega, Char.toNat_inj.mp ?_⟩
  rw [Nat.toNat_digitChar_of_lt_ten (by omega)]
  omega

/-- Digits read after a number that is not zero are the ones written after it. -/
theorem toDigits_ofDigitChars {cs : List Char} (hcs : ∀ c ∈ cs, '0' ≤ c ∧ c ≤ '9') {n : Nat}
    (hn : 0 < n) : Nat.toDigits 10 (Nat.ofDigitChars 10 cs n) = Nat.toDigits 10 n ++ cs := by
  induction cs generalizing n with
  | nil => simp
  | cons c cs ih =>
    obtain ⟨hlt, hc⟩ := digitChar_of_isDigit (hcs c (by simp))
    have hnext : Nat.toDigits 10 (10 * n + (c.toNat - 48)) = Nat.toDigits 10 n ++ [c] := by
      rw [← Nat.toDigits_append_toDigits (by decide) hn hlt, Nat.toDigits_of_lt_base hlt, hc]
    have hrest : ∀ d ∈ cs, '0' ≤ d ∧ d ≤ '9' := fun d hd => hcs d (by simp [hd])
    calc
      Nat.toDigits 10 (Nat.ofDigitChars 10 (c :: cs) n)
        = Nat.toDigits 10 (Nat.ofDigitChars 10 cs (10 * n + (c.toNat - 48))) := by
          rw [Nat.ofDigitChars_cons]
          rfl
      _ = Nat.toDigits 10 (10 * n + (c.toNat - 48)) ++ cs := ih hrest (by omega)
      _ = Nat.toDigits 10 n ++ c :: cs := by rw [hnext, List.append_assoc, List.singleton_append]

theorem toDigits_indexValue {cs : List Char} (h : IsIndex cs) :
    Nat.toDigits 10 (indexValue cs) = cs := by
  obtain rfl | ⟨first, rest, rfl, ⟨hone, hnine⟩, hrest⟩ := h
  · rfl
  -- a first digit other than zero makes the value positive, so that no digit in front gets lost
  · have hpos : 49 ≤ first.toNat := Char.le_def.mp hone
    have hdigit : '0' ≤ first ∧ first ≤ '9' := ⟨Char.le_trans (by decide) hone, hnine⟩
    obtain ⟨hlt, hfirst⟩ := digitChar_of_isDigit hdigit
    have hvalue : indexValue (first :: rest) = Nat.ofDigitChars 10 rest (first.toNat - 48) := by
      rw [indexValue, Nat.ofDigitChars_cons, Nat.mul_zero, Nat.zero_add]
      rfl
    rw [hvalue, toDigits_ofDigitChars hrest (by omega), Nat.toDigits_of_lt_base hlt, hfirst]
    rfl

def segment (text : String) : Value :=
  if IsIndex text.toList then .int (indexValue text.toList) else .string text

@[simp] theorem text_segment (text : String) : (segment text).text = text := by
  unfold segment
  split
  · rename_i hindex
    change Nat.repr (indexValue text.toList) = text
    rw [Nat.repr, toDigits_indexValue hindex, String.ofList_toList]
  · rfl

theorem ofText_eq_ok_iff {text : String} {v : Value} :
    ofText text = .ok v ↔ (IsIndex text.toList → text.length ≤ 4300) ∧ segment text = v := by
  unfold ofText segment
  by_cases hindex : IsIndex text.toList
  · rw [if_pos ((isIndex_iff _).mpr hindex), if_pos hindex]
    by_cases hlong : text.length ≤ 4300
    · simp [maxDigits, hlong]
    · simp [maxDigits, hlong, hindex]
  · rw [if_neg (mt (isIndex_iff _).mp hindex), if_neg hindex]
    simp [hindex]

/-- What is read can be written. -/
theorem isWritable_of_ofText {text : String} {v : Value} (h : ofText text = .ok v) :
    v.isWritable = true := by
  obtain ⟨hshort, rfl⟩ := ofText_eq_ok_iff.mp h
  unfold segment
  split
  · rename_i hindex
    have hlength : (Nat.toDigits 10 (indexValue text.toList)).length ≤ maxDigits := by
      rw [toDigits_indexValue hindex, String.length_toList]
      exact hshort hindex
    simpa [Value.isWritable, Value.numbers] using hlength
  · rfl

/-- A segment without a slash is the only way to escape what it stands for. -/
theorem escape_of_unescape? {raw cs : List Char} (h : unescape? raw = some cs)
    (hslash : '/' ∉ raw) : escape cs = raw := by
  fun_induction unescape? raw generalizing cs with
  | case1 =>
    cases h
    rfl
  | case2 raw ih =>
    obtain ⟨rest, hrest, rfl⟩ := Option.map_eq_some_iff.mp h
    simp [escape_cons, escapeChar, ih hrest (by simp_all)]
  | case3 raw ih =>
    obtain ⟨rest, hrest, rfl⟩ := Option.map_eq_some_iff.mp h
    simp [escape_cons, escapeChar, ih hrest (by simp_all)]
  | case4 => cases h
  | case5 c raw _ _ htilde ih =>
    obtain ⟨rest, hrest, rfl⟩ := Option.map_eq_some_iff.mp h
    have hc : c ≠ '/' := fun hc => hslash (by simp [hc])
    simp [escape_cons, escapeChar, htilde, hc, ih hrest (by simp_all)]

theorem readSegment_eq_ok_iff {raw : List Char} {v : Value} :
    readSegment raw = .ok v ↔
      ∃ text : String, unescape? raw = some text.toList ∧ ofText text = .ok v := by
  unfold readSegment
  rw [bind_eq_ok_iff]
  refine exists_congr fun text => and_congr_left fun _ => ?_
  unfold unescapeSegment
  rw [String.toList_ofList]
  cases unescape? raw with
  | none => simp
  | some cs => simp [← String.toList_inj]

theorem readSegment_escape {text : String} {v : Value} :
    readSegment (escape text.toList) = .ok v ↔ ofText text = .ok v := by
  rw [readSegment_eq_ok_iff, unescape?_escape]
  constructor
  · rintro ⟨other, hother, h⟩
    obtain rfl := String.toList_inj.mp (Option.some.inj hother)
    exact h
  · exact fun h => ⟨text, rfl, h⟩

theorem escape_text_of_readSegment {raw : List Char} {v : Value} (h : readSegment raw = .ok v)
    (hslash : '/' ∉ raw) : escape v.text.toList = raw := by
  obtain ⟨text, htext, h⟩ := readSegment_eq_ok_iff.mp h
  obtain ⟨-, rfl⟩ := ofText_eq_ok_iff.mp h
  rw [text_segment]
  exact escape_of_unescape? htext hslash

theorem escape_texts_of_readSegments {raws : List (List Char)} {vs : List Value}
    (h : List.Forall₂ (fun raw v => readSegment raw = .ok v) raws vs)
    (hslash : ∀ raw ∈ raws, '/' ∉ raw) : vs.map (fun v => escape v.text.toList) = raws := by
  induction h with
  | nil => rfl
  | @cons raw v raws vs hread _ ih =>
    rw [List.map_cons, escape_text_of_readSegment hread (hslash raw (by simp)),
      ih fun other hother => hslash other (by simp [hother])]

theorem isWritable_of_readSegments {raws : List (List Char)} {vs : List Value}
    (h : List.Forall₂ (fun raw v => readSegment raw = .ok v) raws vs) :
    ∀ v ∈ vs, v.isWritable = true := by
  induction h with
  | nil => simp
  | cons hread _ ih =>
    obtain ⟨text, -, htext⟩ := readSegment_eq_ok_iff.mp hread
    exact List.forall_mem_cons.mpr ⟨isWritable_of_ofText htext, ih⟩

theorem segments_eq_splitOn (cs : List Char) : segments cs = cs.splitOn '/' := by
  induction cs with
  | nil => rfl
  | cons c cs ih =>
    rw [segments, ih, List.splitOn_cons_eq_if_modifyHead]
    simp only [beq_iff_eq]

theorem slash_notMem_segments {cs raw : List Char} (h : raw ∈ segments cs) : '/' ∉ raw := by
  induction cs generalizing raw with
  | nil => simp_all [segments]
  | cons c cs ih =>
    rw [segments] at h
    split at h
    · rcases List.mem_cons.mp h with rfl | h
      · simp
      · exact ih h
    · rename_i hc
      -- any other character goes to the front of the first segment
      cases hcs : segments cs with
      | nil => exact absurd hcs (segments_ne_nil cs)
      | cons first rest =>
        rw [hcs, List.modifyHead_cons] at h
        rcases List.mem_cons.mp h with rfl | h
        · have hfirst : '/' ∉ first := ih (by simp [hcs])
          simp [hfirst, eq_comm, hc]
        · exact ih (by simp [hcs, h])

end Pointer

namespace Value

/-- What a segment comes back as when it is written in a pointer and read again: the number, if its
text is an index, and its text otherwise. -/
def reread (v : Value) : Value :=
  Pointer.segment v.text

end Value

namespace Target

def reread (t : Target) : Target :=
  ⟨t.head.reread, t.tail.map Value.reread⟩

theorem path_reread (t : Target) : t.reread.path = t.path.map Value.reread := rfl

theorem segmentTexts_reread (t : Target) : t.reread.segmentTexts = t.segmentTexts := by
  rw [segmentTexts, path_reread, List.map_map, segmentTexts]
  exact List.map_congr_left fun v _ => Pointer.text_segment v.text

theorem toList_pointer (t : Target) :
    t.pointer.toList =
      '/' :: ['/'].intercalate (t.segmentTexts.map fun s => Pointer.escape s.toList) := by
  rw [segmentTexts_eq_cons, List.map_cons, intercalate_cons_eq, pointer, String.toList_ofList,
    Value.pointerChars_eq_flatMap, path, List.flatMap_cons, List.map_map, List.flatMap_map]
  rfl

theorem names_eq_of_segmentTexts_eq {t u : Target} (h : t.segmentTexts = u.segmentTexts) :
    t.field = u.field ∧ t.pointer = u.pointer ∧ t.key = u.key := by
  refine ⟨?_, ?_, ?_⟩
  · rw [segmentTexts_eq_cons, segmentTexts_eq_cons] at h
    exact (List.cons.inj h).1
  · apply String.toList_inj.mp
    rw [toList_pointer, toList_pointer, h]
  · rw [key, key, h]

theorem ofPointer_eq_ok_iff {p : String} {t : Target} :
    ofPointer p = .ok t ↔
      ∃ cs, p.toList = '/' :: cs ∧
        List.Forall₂ (fun raw v => Pointer.readSegment raw = .ok v) (Pointer.segments cs)
          t.path := by
  unfold ofPointer
  split
  · rename_i cs hcs
    have hpath : ∀ path, ofPath path = .ok t ↔ path = t.path := by
      intro path
      cases t
      cases path <;> simp [ofPath, Target.path]
    simp only [hcs, List.cons.injEq, true_and, exists_eq_left', bind_eq_ok_iff, hpath,
      exists_eq_right, mapM_eq_ok_iff]
  · rename_i hslash
    constructor
    · intro h
      cases h
    · rintro ⟨cs, hcs, -⟩
      exact absurd hcs (hslash cs)

theorem pointer_of_ofPointer {p : String} {t : Target} (h : ofPointer p = .ok t) :
    t.pointer = p := by
  obtain ⟨cs, hp, hread⟩ := ofPointer_eq_ok_iff.mp h
  have htexts : t.segmentTexts.map (fun s => Pointer.escape s.toList) = Pointer.segments cs := by
    rw [segmentTexts, List.map_map]
    exact Pointer.escape_texts_of_readSegments hread fun _ => Pointer.slash_notMem_segments
  apply String.toList_inj.mp
  rw [toList_pointer, htexts, Pointer.segments_eq_splitOn, List.intercalate_splitOn, hp]

theorem isWritable_of_ofPointer {p : String} {t : Target} (h : ofPointer p = .ok t) :
    t.toValue.isWritable = true := by
  obtain ⟨cs, -, hread⟩ := ofPointer_eq_ok_iff.mp h
  exact t.isWritable_iff.mpr (Pointer.isWritable_of_readSegments hread)

theorem toPointer_of_isWritable {t : Target} (h : t.toValue.isWritable = true) :
    t.toPointer = .ok t.pointer := by
  unfold toPointer
  rw [Value.requireWritable_of_isWritable h]
  rfl

theorem toPointer_of_not_isWritable {t : Target} (h : ¬ t.toValue.isWritable = true) :
    t.toPointer = .error (.badValue .numberTooLong) := by
  unfold toPointer
  rw [Value.requireWritable_of_not_isWritable h]
  rfl

theorem toPointer_eq_ok_iff {t : Target} {p : String} :
    t.toPointer = .ok p ↔ t.toValue.isWritable = true ∧ t.pointer = p := by
  by_cases h : t.toValue.isWritable = true
  · simp [toPointer_of_isWritable h, h]
  · simp [toPointer_of_not_isWritable h, h]

theorem toPointer_of_ofPointer {p : String} {t : Target} (h : ofPointer p = .ok t) :
    t.toPointer = .ok p :=
  toPointer_eq_ok_iff.mpr ⟨isWritable_of_ofPointer h, pointer_of_ofPointer h⟩

theorem segments_pointer (t : Target) :
    ∃ cs, t.pointer.toList = '/' :: cs ∧
      Pointer.segments cs = t.segmentTexts.map fun s => Pointer.escape s.toList := by
  refine ⟨_, t.toList_pointer, ?_⟩
  rw [Pointer.segments_eq_splitOn, List.splitOn_intercalate]
  · intro raw hraw
    obtain ⟨s, -, rfl⟩ := List.mem_map.mp hraw
    exact Pointer.slash_notMem_escape s.toList
  · simp [segmentTexts_eq_cons]

theorem ofPointer_pointer_iff {t u : Target} :
    ofPointer t.pointer = .ok u ↔
      (∀ s ∈ t.segmentTexts, Pointer.IsIndex s.toList → s.length ≤ 4300) ∧ u = t.reread := by
  obtain ⟨cs, hcs, hsegments⟩ := t.segments_pointer
  have hpath : u = t.reread ↔ t.segmentTexts.map Pointer.segment = u.path := by
    rw [segmentTexts, List.map_map]
    constructor
    · rintro rfl
      rfl
    · intro h
      cases u
      cases h
      rfl
  rw [ofPointer_eq_ok_iff, hcs]
  -- the condition and the result separate because each segment is read on its own
  simp only [List.cons.injEq, true_and, exists_eq_left', hsegments, List.forall₂_map_left_iff,
    Pointer.readSegment_escape, Pointer.ofText_eq_ok_iff, List.forall₂_and_left, hpath]
  rw [← List.forall₂_eq_eq_eq, List.forall₂_map_left_iff]

/-- A pointer that can be read is written again as it was. A target has a pointer unless a number in
it is too long to be written; the pointer can be read unless a segment is an index of more than 4300
digits, and what is read keeps the field, the pointer and the key. -/
theorem pointers_are_read_as_written :
    (∀ (p : String) (t : Target), ofPointer p = .ok t → t.toPointer = .ok p) ∧
    ∀ t : Target,
      (t.toValue.isWritable = true → ∃ p, t.toPointer = .ok p) ∧
      (¬ t.toValue.isWritable = true → t.toPointer = .error (.badValue .numberTooLong)) ∧
      ∀ p, t.toPointer = .ok p →
        ((∀ s ∈ t.segmentTexts, Pointer.IsIndex s.toList → s.length ≤ 4300) ↔
          ∃ u, ofPointer p = .ok u) ∧
        ∀ u, ofPointer p = .ok u → u.path = t.path.map Value.reread ∧
          u.field = t.field ∧ u.toPointer = .ok p ∧ u.key = t.key := by
  refine ⟨fun p t h => toPointer_of_ofPointer h, fun t => ⟨?_, toPointer_of_not_isWritable, ?_⟩⟩
  · intro h
    exact ⟨_, toPointer_of_isWritable h⟩
  · intro p hp
    obtain ⟨-, rfl⟩ := toPointer_eq_ok_iff.mp hp
    refine ⟨⟨fun hshort => ⟨_, ofPointer_pointer_iff.mpr ⟨hshort, rfl⟩⟩, ?_⟩, ?_⟩
    · rintro ⟨u, hu⟩
      exact (ofPointer_pointer_iff.mp hu).1
    · intro u hu
      obtain ⟨-, rfl⟩ := ofPointer_pointer_iff.mp hu
      obtain ⟨hfield, -, hkey⟩ := names_eq_of_segmentTexts_eq t.segmentTexts_reread
      exact ⟨t.path_reread, hfield, toPointer_of_ofPointer hu, hkey⟩

/-- Escapes, an empty segment, a leading zero and two indices; then segments that are no strings. -/
theorem pointers_are_read_as_written_mixed_segments :
    let p := "/a~1b/~01//007/0/12"
    let t : Target := ⟨.string "a/b", [.string "~1", .string "", .string "007", .int 0, .int 12]⟩
    let u : Target := ⟨.string "10", [.bool true, .int (-5), .operator .like]⟩
    let reread : Target := ⟨.int 10, [.string "True", .string "-5", .string "FilterOperator.LIKE"]⟩
    ofPointer p = .ok t ∧ t.toPointer = .ok p ∧ u.toPointer = .ok u.pointer ∧
      (∀ s ∈ u.segmentTexts, Pointer.IsIndex s.toList → s.length ≤ 4300) ∧
      ∃ v, ofPointer u.pointer = .ok v ∧ v.path = reread.path ∧ v.field = u.field ∧
        v.toPointer = .ok u.pointer ∧ v.key = u.key := by
  intro p t u reread
  have hread : ofPointer "/a~1b/~01//007/0/12" = .ok t := rfl
  have hsame : u.path.map Value.reread = reread.path := by
    have hnumber : Pointer.segment "10" = .int 10 := if_pos (by decide)
    have hstring : ∀ s ∈ ["True", "-5", "FilterOperator.LIKE"], Pointer.segment s = .string s :=
      fun s hs => if_neg (by revert s; decide)
    change Pointer.segment "10" ::
      ["True", "-5", "FilterOperator.LIKE"].map Pointer.segment = reread.path
    rw [hnumber, List.map_congr_left hstring]
    rfl
  have hshort : ∀ s ∈ u.segmentTexts, Pointer.IsIndex s.toList → s.length ≤ 4300 := by decide
  have hu : u.toPointer = .ok u.pointer := rfl
  obtain ⟨hwritten, hkept⟩ := pointers_are_read_as_written
  obtain ⟨hreadable, hreread⟩ := (hkept u).2.2 _ hu
  obtain ⟨v, hv⟩ := hreadable.mp hshort
  obtain ⟨hpath, hnames⟩ := hreread v hv
  exact ⟨hread, hwritten p t hread, hu, hshort, v, hv, hpath.trans hsame, hnames⟩

theorem hyphen_mem_text_of_neg {n : Int} (h : n < 0) : '-' ∈ (Value.int n).text.toList := by
  cases n with
  | ofNat k => exact absurd h (Int.not_lt.mpr (Int.natCast_nonneg k))
  | negSucc k =>
    have htext : (Value.int (.negSucc k)).text = "-" ++ Nat.repr (k + 1) := rfl
    rw [htext, String.toList_append]
    exact List.mem_append_left _ (List.mem_singleton.mpr rfl)

/-- The only segment is a negative number, which is no index, and the target has no pointer. -/
theorem long_negative_number_has_no_pointer :
    let t : Target := ⟨.int (-Value.leastUnwritable), []⟩
    (∀ s ∈ t.segmentTexts, ¬ Pointer.IsIndex s.toList) ∧
      t.toPointer = .error (.badValue .numberTooLong) := by
  have hlong : ¬ (Value.int (-Value.leastUnwritable)).isWritable = true := by
    apply Value.not_isWritable_int
    rw [Int.natAbs_neg, Int.natAbs_natCast]
  have hneg : -(Value.leastUnwritable : Int) < 0 :=
    Int.neg_neg_of_pos (Int.natCast_pos.mpr Value.leastUnwritable_pos)
  refine ⟨fun s hs => ?_, toPointer_of_not_isWritable ?_⟩
  · obtain rfl := List.mem_singleton.mp hs
    exact Pointer.not_isIndex_of_hyphen (hyphen_mem_text_of_neg hneg)
  · exact not_isWritable_of_segment hlong (List.mem_singleton.mpr rfl)

end Target
end FilterQuery
