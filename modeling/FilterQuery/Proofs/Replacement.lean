import FilterQuery.Proofs.PointerGrammar

/-!
# Escapes as replacements

Escaping and unescaping can also be told as two replacements in the whole text, one after the other.
To escape, every tilde becomes `~0` and then every slash `~1`; to unescape, every `~1` becomes a
slash and then every `~0` a tilde. The second replacement goes through what the first one has
written, so the two agree with a single pass only because nothing that has been written makes an
escape together with what stands beside it. What a replacement does is said by a relation here, one
step for each occurrence and for each character that is passed over, and the search through the text
that carries it out is shown to take these steps.
-/

namespace FilterQuery
namespace Text

open String.Slice.Pattern

/-- The text in which every occurrence of `old` is replaced. Occurrences are looked for from the
left, and the search goes on behind the one that has been found. -/
inductive Replaced (old new : List Char) : List Char → List Char → Prop
  | nil : Replaced old new [] []
  | found {cs ds : List Char} : Replaced old new cs ds → Replaced old new (old ++ cs) (new ++ ds)
  | kept {c : Char} {cs ds : List Char} :
      ¬ old <+: c :: cs → Replaced old new cs ds → Replaced old new (c :: cs) (c :: ds)

namespace Replaced

variable {old new cs ds es : List Char}

theorem exists_of_append (hold : old ≠ []) (h : Replaced old new (old ++ cs) es) :
    ∃ ds, es = new ++ ds ∧ Replaced old new cs ds := by
  generalize htext : old ++ cs = text at h
  cases h with
  | nil => exact absurd (List.append_eq_nil_iff.mp htext).1 hold
  | found h => exact ⟨_, rfl, List.append_cancel_left htext ▸ h⟩
  | kept hkept _ => exact absurd ⟨cs, htext⟩ hkept

theorem exists_of_cons {c : Char} (hkept : ¬ old <+: c :: cs)
    (h : Replaced old new (c :: cs) es) : ∃ ds, es = c :: ds ∧ Replaced old new cs ds := by
  generalize htext : c :: cs = text at h
  cases h with
  | nil => cases htext
  | found h => exact absurd ⟨_, htext.symm⟩ hkept
  | kept _ h =>
    cases htext
    exact ⟨_, rfl, h⟩

theorem eq_nil (hold : old ≠ []) (h : Replaced old new [] es) : es = [] := by
  generalize htext : [] = text at h
  cases h with
  | nil => rfl
  | found _ => exact absurd (List.append_eq_nil_iff.mp htext.symm).1 hold
  | kept _ _ => cases htext

theorem eq (hold : old ≠ []) (h : Replaced old new cs ds) (h' : Replaced old new cs es) :
    ds = es := by
  induction h generalizing es with
  | nil => exact (eq_nil hold h').symm
  | found _ ih =>
    obtain ⟨rest, rfl, hrest⟩ := exists_of_append hold h'
    rw [ih hrest]
  | kept hkept _ ih =>
    obtain ⟨rest, rfl, hrest⟩ := exists_of_cons hkept h'
    rw [ih hrest]

/-- A stretch in which no occurrence begins is passed over. -/
theorem append {skipped : List Char}
    (hskipped : ∀ left right, skipped = left ++ right → right ≠ [] → ¬ old <+: right ++ cs)
    (h : Replaced old new cs ds) : Replaced old new (skipped ++ cs) (skipped ++ ds) := by
  induction skipped with
  | nil => exact h
  | cons c skipped ih =>
    refine .kept (hskipped [] (c :: skipped) rfl (by simp)) (ih ?_)
    intro left right hsplit
    exact hskipped (c :: left) right (by rw [hsplit]; rfl)

end Replaced

def written (new : String) {s : String.Slice} : SearchStep s → List Char
  | .matched _ _ => new.toList
  | .rejected start stop => (s.slice! start stop).copy.toList

theorem toList_foldl {α : Type} {write : String → α → String} {piece : α → List Char}
    (hwrite : ∀ sofar a, (write sofar a).toList = sofar.toList ++ piece a) (as : List α)
    (sofar : String) : (as.foldl write sofar).toList = sofar.toList ++ as.flatMap piece := by
  induction as generalizing sofar with
  | nil => simp
  | cons a as ih => rw [List.foldl_cons, ih, hwrite, List.append_assoc, List.flatMap_cons]

theorem toList_replace (s old new : String) :
    (s.replace old new).toList =
      (ToForwardSearcher.toSearcher old s.toSlice).toList.flatMap (written new) := by
  unfold String.replace String.Slice.replace
  rw [← Std.Iter.foldl_toList]
  refine (toList_foldl (fun sofar step => ?_) _ "").trans (List.nil_append _)
  cases step with
  | matched _ _ =>
    change (sofar ++ new.toSlice.copy).toList = sofar.toList ++ new.toList
    rw [String.copy_toSlice, String.toList_append]
  | rejected start stop => exact String.toList_append

section Search

variable {s : String.Slice} {start stop : s.Pos} {old before skipped after : String}

theorem copy_slice_of_splits (hstart : start.Splits before (skipped ++ after))
    (hstop : stop.Splits (before ++ skipped) after) : (s.slice! start stop).copy = skipped := by
  obtain ⟨hle, hcopy⟩ := String.Slice.copy_slice_eq_iff_splits.mpr ⟨before, after, hstart, hstop⟩
  rw [← String.Slice.slice_eq_slice! (h := hle), hcopy]

/-- Each place in a stretch is a position of the search, so what matches at no position between the
two ends occurs at none of the places. -/
theorem not_isPrefix_of_not_matchesAt (hstart : start.Splits before (skipped ++ after))
    (hstop : stop.Splits (before ++ skipped) after)
    (hnone : ∀ pos : s.Pos, start ≤ pos → pos < stop → ¬ Model.MatchesAt old pos)
    {left right : List Char} (hskipped : skipped.toList = left ++ right) (hright : right ≠ []) :
    ¬ old.toList <+: right ++ after.toList := by
  rintro ⟨rest, hrest⟩
  obtain rfl : skipped = String.ofList left ++ String.ofList right := by
    rw [← String.ofList_append, ← hskipped, String.ofList_toList]
  have hoccurs : String.ofList right ++ after = old ++ String.ofList rest := by
    apply String.toList_inj.mp
    simp [hrest]
  rw [String.append_assoc] at hstart
  have hpos := hstart.splits_rotateRight
  have hmatches : Model.MatchesAt old hstart.rotateRight :=
    Model.ForwardStringSearcher.matchesAt_iff_splits.mpr ⟨_, _, hpos.of_eq rfl hoccurs⟩
  refine hnone _ ?_ ?_ hmatches
  · exact (hstart.le_iff_exists_eq_append hpos).mpr ⟨_, rfl, rfl⟩
  · refine (hpos.lt_iff_exists_eq_append hstop).mpr ⟨_, ?_, String.append_assoc.symm, rfl⟩
    simpa using hright

/-- The steps of a search from a position on write what stands behind it, with its occurrences
replaced. -/
theorem replaced_of_isValidSearchFrom (new : String) {steps : List (SearchStep s)}
    (h : Model.IsValidSearchFrom old start steps) (hstart : start.Splits before after) :
    Replaced old.toList new.toList after.toList (steps.flatMap (written new)) := by
  induction h generalizing before after with
  | endPos =>
    rw [hstart.eq_endPos_iff.mp rfl]
    exact .nil
  | matched hmatch _ ih =>
    obtain ⟨_, rest, hmatch, hstop⟩ :=
      Model.ForwardStringSearcher.isLongestMatchAt_iff_splits.mp hmatch
    rw [hstart.eq_right hmatch, String.toList_append, List.flatMap_cons]
    exact .found (ih hstop)
  | @mismatched _ _ stop hlt hnone _ ih =>
    -- the search rejects a whole stretch at once, the relation passes over one character at a time
    have hstop := stop.splits
    obtain ⟨skipped, -, hbefore, rfl⟩ := (hstart.lt_iff_exists_eq_append hstop).mp hlt
    rw [hbefore] at hstop
    rw [String.toList_append, List.flatMap_cons, written, copy_slice_of_splits hstart hstop]
    exact .append (fun _ _ => not_isPrefix_of_not_matchesAt hstart hstop hnone) (ih hstop)

end Search

theorem replaced_replace {old : String} (hold : old ≠ "") (new s : String) :
    Replaced old.toList new.toList s.toList (s.replace old new).toList := by
  have hlawful := Model.ForwardStringSearcher.lawfulToForwardSearcherModel hold
  have hsearch := hlawful.isValidSearchFrom_toList s.toSlice
  have hwhole := String.Slice.splits_startPos s.toSlice
  rw [String.copy_toSlice] at hwhole
  rw [toList_replace]
  exact replaced_of_isValidSearchFrom new hsearch hwhole

theorem replace_eq_iff {old new s t : String} (hold : old ≠ "") :
    s.replace old new = t ↔ Replaced old.toList new.toList s.toList t.toList := by
  have hreplaced := replaced_replace hold new s
  constructor
  · rintro rfl
    exact hreplaced
  · intro h
    exact String.toList_inj.mp (hreplaced.eq (by simpa using hold) h)

theorem replace_replace_eq {first new second newer s : String} {mid cs : List Char}
    (hfirst : first ≠ "") (hsecond : second ≠ "")
    (hmid : Replaced first.toList new.toList s.toList mid)
    (hcs : Replaced second.toList newer.toList mid cs) :
    (s.replace first new).replace second newer = String.ofList cs := by
  have hreplace : s.replace first new = String.ofList mid :=
    (replace_eq_iff hfirst).mpr (by rwa [String.toList_ofList])
  rw [hreplace, replace_eq_iff hsecond, String.toList_ofList, String.toList_ofList]
  exact hcs

end Text

namespace Pointer

open Text

/-- A tilde before a zero is no `~1` and stays for the second replacement, which finds the same two
characters again; a slash that the first one has written is no part of a `~0`. -/
theorem Unescapes.exists_replaced {raw cs : List Char} (h : Unescapes raw cs) :
    ∃ mid, Replaced ['~', '1'] ['/'] raw mid ∧ Replaced ['~', '0'] ['~'] mid cs := by
  induction h with
  | nil => exact ⟨[], .nil, .nil⟩
  | tilde _ ih =>
    obtain ⟨mid, hfirst, hsecond⟩ := ih
    exact ⟨'~' :: '0' :: mid, .kept (by simp) (.kept (by simp) hfirst), .found hsecond⟩
  | slash _ ih =>
    obtain ⟨mid, hfirst, hsecond⟩ := ih
    exact ⟨'/' :: mid, .found hfirst, .kept (by simp) hsecond⟩
  | @plain c _ _ htilde _ ih =>
    obtain ⟨mid, hfirst, hsecond⟩ := ih
    exact ⟨c :: mid, .kept (by simp [htilde.symm]) hfirst, .kept (by simp [htilde.symm]) hsecond⟩

theorem exists_replaced_escape (cs : List Char) :
    ∃ mid, Replaced ['~'] ['~', '0'] cs mid ∧ Replaced ['/'] ['~', '1'] mid (escape cs) := by
  induction cs with
  | nil => exact ⟨[], .nil, .nil⟩
  | cons c cs ih =>
    obtain ⟨mid, hfirst, hsecond⟩ := ih
    rw [escape_cons]
    by_cases htilde : c = '~'
    · subst htilde
      exact ⟨'~' :: '0' :: mid, .found hfirst, .kept (by simp) (.kept (by simp) hsecond)⟩
    · have hfirst : Replaced ['~'] ['~', '0'] (c :: cs) (c :: mid) :=
        .kept (by simp [eq_comm, htilde]) hfirst
      by_cases hslash : c = '/'
      · subst hslash
        exact ⟨'/' :: mid, hfirst, .found hsecond⟩
      · rw [escapeChar, if_neg htilde, if_neg hslash]
        exact ⟨c :: mid, hfirst, .kept (by simp [eq_comm, hslash]) hsecond⟩

theorem replace_replace_of_unescapes {raw : String} {cs : List Char}
    (h : Unescapes raw.toList cs) :
    (raw.replace "~1" "/").replace "~0" "~" = String.ofList cs := by
  obtain ⟨mid, hfirst, hsecond⟩ := h.exists_replaced
  exact replace_replace_eq (by decide) (by decide) hfirst hsecond

theorem replace_replace_eq_escape (s : String) :
    (s.replace "~" "~0").replace "/" "~1" = String.ofList (escape s.toList) := by
  obtain ⟨mid, hfirst, hsecond⟩ := exists_replaced_escape s.toList
  exact replace_replace_eq (by decide) (by decide) hfirst hsecond

/-- A segment is refused exactly when a tilde in it is not followed by a zero or a one; every other
segment is unescaped as if every `~1` were replaced by a slash and then every `~0` by a tilde. A
text is escaped as if every tilde were replaced by `~0` and then every slash by `~1`, and unescaping
gives it back. -/
theorem unescaping_agrees_with_replacements :
    (∀ raw : String,
      (∀ fault, unescapeSegment raw = .error fault ↔
        ¬ Escaped raw.toList ∧ fault = .badValue (.badEscape raw)) ∧
      (Escaped raw.toList →
        unescapeSegment raw = .ok ((raw.replace "~1" "/").replace "~0" "~"))) ∧
    ∀ s : String,
      (s.replace "~" "~0").replace "/" "~1" = String.ofList (escape s.toList) ∧
      unescapeSegment ((s.replace "~" "~0").replace "/" "~1") = .ok s := by
  refine ⟨fun raw => ⟨fun fault => ?_, fun hescaped => ?_⟩, fun s => ?_⟩
  · by_cases hescaped : Escaped raw.toList
    · obtain ⟨cs, hcs⟩ := (exists_unescapes_iff raw.toList).mpr hescaped
      simp [unescapeSegment_of_unescapes hcs, hescaped]
    · simp [unescapeSegment_of_not_escaped hescaped, hescaped, eq_comm]
  · obtain ⟨cs, hcs⟩ := (exists_unescapes_iff raw.toList).mpr hescaped
    rw [unescapeSegment_of_unescapes hcs, replace_replace_of_unescapes hcs]
  · have hs : Unescapes (String.ofList (escape s.toList)).toList s.toList := by
      rw [String.toList_ofList]
      exact unescape?_eq_some_iff.mp (unescape?_escape s.toList)
    rw [replace_replace_eq_escape, unescapeSegment_of_unescapes hs, String.ofList_toList]
    exact ⟨rfl, rfl⟩

/-- Digits behind a tilde that has been written are no escape; a tilde at the end is refused. -/
theorem unescaping_agrees_with_replacements_digits_after_escape :
    let raw := "~01~1~00"
    Escaped raw.toList ∧ (raw.replace "~1" "/").replace "~0" "~" = "~1/~0" ∧
      ¬ Escaped "a~".toList ∧ unescapeSegment "a~" = .error (.badValue (.badEscape "a~")) ∧
      unescapeSegment (("~1/~0".replace "~" "~0").replace "/" "~1") = .ok "~1/~0" := by
  have hescaped : Escaped "~01~1~00".toList :=
    (exists_unescapes_iff _).mp ⟨"~1/~0".toList, unescape?_eq_some_iff.mp rfl⟩
  have hopen : ¬ Escaped "a~".toList := by
    intro h
    have hnext := h ['a'] [] rfl
    simp at hnext
  obtain ⟨hunescape, hescape⟩ := unescaping_agrees_with_replacements
  have htext : unescapeSegment "~01~1~00" = .ok "~1/~0" := rfl
  refine ⟨hescaped, ?_, hopen, ((hunescape "a~").1 _).mpr ⟨hopen, rfl⟩, (hescape "~1/~0").2⟩
  exact Except.ok.inj (((hunescape "~01~1~00").2 hescaped).symm.trans htext)

end Pointer
end FilterQuery
