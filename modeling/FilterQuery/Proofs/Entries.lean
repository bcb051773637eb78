import FilterQuery.Proofs.Pointers

/-!
# Entries and targets

A field can be named in a policy and in a target, as it is or by a pointer, and the two names are
read by different rules. An entry is cut after its first segment and stays a text; a target is read
to its end, and its indices become numbers. Both readings find the same field. So an entry of a
policy speaks about every target that is given by the same text or that is written as the entry. A
target that cannot be written has no pointer that could be such an entry.
-/

namespace FilterQuery

namespace Value

/-- The entries of a setting; null has none. -/
def entries? : Value → Option (List Value)
  | null => some []
  | list entries | tuple entries | set entries | sealedSet entries => some entries
  | _ => none

/-- One of the entries is the string or counts as it. -/
def HasEntry (v : Value) (s : String) : Prop :=
  ∃ entries, v.entries? = some entries ∧ ∃ entry ∈ entries, entry.string? = some s

end Value

namespace Policy

theorem entryField?_pointer (t : Target) : entryField? t.pointer = some t.field := by
  have hslash : ∀ c ∈ Pointer.escape t.field.toList, decide (c ≠ '/') = true := by
    intro c hc
    exact decide_eq_true fun h => Pointer.slash_notMem_escape t.field.toList (h ▸ hc)
  have hfirst : (['/'].intercalate (t.segmentTexts.map fun s => Pointer.escape s.toList)).takeWhile
      (· ≠ '/') = Pointer.escape t.field.toList := by
    rw [Target.segmentTexts_eq_cons, List.map_cons, Target.intercalate_cons_eq,
      List.takeWhile_append_of_pos hslash]
    cases t.tail <;> simp
  rw [entryField?, t.toList_pointer]
  simp only [hfirst, Pointer.unescape?_escape, Option.map_some, String.ofList_toList]

theorem entryField?_of_coerce {s : String} {t : Target} (h : Target.coerce (.string s) = .ok t) :
    entryField? s = some t.field := by
  rw [Target.coerce] at h
  split at h
  · rw [← Target.pointer_of_ofPointer h]
    exact entryField?_pointer t
  · rename_i hslash
    cases h
    rw [entryField?]
    split
    · rename_i cs hcs
      exact absurd (by rw [hcs]; rfl) hslash
    · rfl

theorem isWritable_of_coerce {s : String} {t : Target} (h : Target.coerce (.string s) = .ok t) :
    t.toValue.isWritable = true := by
  rw [Target.coerce] at h
  split at h
  · exact Target.isWritable_of_ofPointer h
  · cases h
    rfl

theorem readEntry_eq_ok_iff {setting : Setting} {v : Value} {field : String} :
    readEntry setting v = .ok field ↔
      ∃ s, v.string? = some s ∧ entryField? s = some field := by
  unfold readEntry
  cases v.string? with
  | none => simp
  | some s => cases h : entryField? s <;> simp [h]

theorem readSetting_eq_ok_iff {setting : Setting} {v : Value} {fields : List String} :
    readSetting setting v = .ok fields ↔
      ∃ entries, v.entries? = some entries ∧
        List.Forall₂ (fun entry field => readEntry setting entry = .ok field) entries fields := by
  simp only [← mapM_eq_ok_iff]
  cases v <;> simp [readSetting, Value.entries?, pure, Except.pure]

theorem mem_of_hasEntry {setting : Setting} {v : Value} {fields : List String} {s field : String}
    (h : readSetting setting v = .ok fields) (hentry : v.HasEntry s)
    (hfield : entryField? s = some field) : field ∈ fields := by
  obtain ⟨entries, hentries, entry, hmem, hs⟩ := hentry
  obtain ⟨others, hothers, hread⟩ := readSetting_eq_ok_iff.mp h
  obtain rfl : entries = others := Option.some.inj (hentries.symm.trans hothers)
  have hentry : readEntry setting entry = .ok field := readEntry_eq_ok_iff.mpr ⟨s, hs, hfield⟩
  clear h hentries hothers
  induction hread with
  | nil => cases hmem
  | cons hfirst _ ih =>
    rcases List.mem_cons.mp hmem with rfl | hmem
    · cases hfirst.symm.trans hentry
      exact List.mem_cons_self ..
    · exact List.mem_cons_of_mem _ (ih hmem)

theorem exists_of_ofLists {allow deny require : Value} {p : Policy}
    (h : ofLists allow deny require = .ok p) :
    ∃ allowed denied, readSetting .allow allow = .ok allowed ∧
      readSetting .deny deny = .ok denied ∧ p.allow = allowed.eraseDups ∧
      p.deny = denied.eraseDups := by
  obtain ⟨allowed, hallow, h⟩ := bind_eq_ok_iff.mp h
  obtain ⟨denied, hdeny, h⟩ := bind_eq_ok_iff.mp h
  obtain ⟨required, -, h⟩ := bind_eq_ok_iff.mp h
  rw [ofFields] at h
  split at h
  · cases h
    exact ⟨allowed, denied, hallow, hdeny, rfl, rfl⟩
  · cases h

/-- The policy is made from the three lists, given by themselves or in a mapping. -/
inductive MadeFrom : Value → Value → Value → Policy → Prop
  | lists {allow deny require : Value} {p : Policy} :
      ofLists allow deny require = .ok p → MadeFrom allow deny require p
  | settings {entries : List (String × Value)} {p : Policy} :
      ofSettings (.mapping entries) = .ok p →
      MadeFrom (entryValue entries .allow) (entryValue entries .deny)
        (entryValue entries .require) p

theorem MadeFrom.ofLists_eq {allow deny require : Value} {p : Policy}
    (h : MadeFrom allow deny require p) : ofLists allow deny require = .ok p := by
  cases h with
  | lists h => exact h
  | @settings entries _ h =>
    rw [ofSettings] at h
    split at h
    · exact h
    · cases h

section Entry

variable {allow deny require : Value} {p : Policy} {s field : String}

theorem mem_allow_of_hasEntry (h : MadeFrom allow deny require p) (hentry : allow.HasEntry s)
    (hfield : entryField? s = some field) : field ∈ p.allow := by
  obtain ⟨allowed, -, hallow, -, heq, -⟩ := exists_of_ofLists h.ofLists_eq
  rw [heq, List.mem_eraseDups]
  exact mem_of_hasEntry hallow hentry hfield

theorem mem_deny_of_hasEntry (h : MadeFrom allow deny require p) (hentry : deny.HasEntry s)
    (hfield : entryField? s = some field) : field ∈ p.deny := by
  obtain ⟨-, denied, -, hdeny, -, heq⟩ := exists_of_ofLists h.ofLists_eq
  rw [heq, List.mem_eraseDups]
  exact mem_of_hasEntry hdeny hentry hfield

theorem permits_of_mem_allow (h : field ∈ p.allow) : p.permits field = true := by
  have hdeny : p.deny = [] := p.exclusive.resolve_left (List.ne_nil_of_mem h)
  apply (p.permits_iff field).mpr
  exact ⟨.inr h, by rw [hdeny]; exact List.not_mem_nil⟩

end Entry

end Policy

theorem Resolver.resolve_of_mem_deny {r : Resolver} {t : Target}
    (hwritable : t.head.isWritable = true) (h : t.field ∈ r.policy.deny) :
    r.resolve t = (.error (.denied t.field), r) := by
  have hallow : r.policy.allow = [] := r.policy.exclusive.resolve_right (List.ne_nil_of_mem h)
  rw [resolve_of_refused hwritable fun hadmits => hadmits.2 h, Policy.refusal, if_pos hallow]

namespace Policy

/-- An entry and a target of the same text, or of a pointer and the target written so, name the same
field; so the target is refused by a policy that denies the entry, and its field is permitted by one
that allows it. A target is written so unless a number in it is too long. -/
theorem entries_name_fields_of_targets :
    (∀ (s : String) (t : Target), Target.coerce (.string s) = .ok t →
      t.head.toText = .ok t.field ∧ entryField? s = some t.field) ∧
    (∀ t : Target,
      (t.toValue.isWritable = true → ∃ s, t.toPointer = .ok s ∧
        t.head.toText = .ok t.field ∧ entryField? s = some t.field) ∧
      (¬ t.toValue.isWritable = true → t.toPointer = .error (.badValue .numberTooLong))) ∧
    ∀ (s : String) (t : Target), Target.coerce (.string s) = .ok t ∨ t.toPointer = .ok s →
      ∀ (allow deny require : Value) (p : Policy), MadeFrom allow deny require p →
        (deny.HasEntry s → ∀ r : Resolver, r.policy = p →
          r.resolve t = (.error (.denied t.field), r)) ∧
        (allow.HasEntry s → p.permits t.field = true) := by
  have htext {t : Target} (h : t.toValue.isWritable = true) : t.head.toText = .ok t.field :=
    Value.toText_of_isWritable (Target.isWritable_head h)
  refine ⟨?_, ?_, ?_⟩
  · intro s t h
    exact ⟨htext (isWritable_of_coerce h), entryField?_of_coerce h⟩
  · intro t
    refine ⟨fun h => ?_, Target.toPointer_of_not_isWritable⟩
    exact ⟨_, Target.toPointer_of_isWritable h, htext h, entryField?_pointer t⟩
  · intro s t hname allow deny require p hp
    have hnamed : t.toValue.isWritable = true ∧ entryField? s = some t.field := by
      rcases hname with h | h
      · exact ⟨isWritable_of_coerce h, entryField?_of_coerce h⟩
      · obtain ⟨hwritable, rfl⟩ := Target.toPointer_eq_ok_iff.mp h
        exact ⟨hwritable, entryField?_pointer t⟩
    obtain ⟨hwritable, hfield⟩ := hnamed
    constructor
    · rintro hentry r rfl
      exact Resolver.resolve_of_mem_deny (Target.isWritable_head hwritable)
        (mem_deny_of_hasEntry hp hentry hfield)
    · intro hentry
      exact permits_of_mem_allow (mem_allow_of_hasEntry hp hentry hfield)

/-- A field that is read as a number is denied, and one with a slash of its own is allowed. -/
theorem entries_name_fields_of_targets_number_and_slash :
    let t : Target := ⟨.int 12, [.string "a"]⟩
    let u : Target := ⟨.string "a/b", [.null]⟩
    let deny := Value.list [.string "x", .string "/12/a"]
    let entries := [("allow", Value.tuple [.string "/a~1b/None"])]
    let p : Policy := ⟨[], ["x", "12"], [], .inl rfl⟩
    let q : Policy := ⟨["a/b"], [], [], .inr rfl⟩
    Target.coerce (.string "/12/a") = .ok t ∧ entryField? "/12/a" = some t.field ∧
      ofLists .null deny .null = .ok p ∧ deny.HasEntry "/12/a" ∧
      (Resolver.start p).resolve t = (.error (.denied t.field), Resolver.start p) ∧
      u.toPointer = .ok "/a~1b/None" ∧ ofSettings (.mapping entries) = .ok q ∧
      (entryValue entries .allow).HasEntry "/a~1b/None" ∧ q.permits u.field = true := by
  intro t u deny entries p q
  have hcoerce : Target.coerce (.string "/12/a") = .ok t := rfl
  have hpointer : u.toPointer = .ok "/a~1b/None" :=
    Target.toPointer_eq_ok_iff.mpr ⟨rfl, by decide⟩
  have hp : ofLists .null deny .null = .ok p := rfl
  have hq : ofSettings (.mapping entries) = .ok q := by
    have hnames : unknownNames entries = [] := List.mergeSort_nil
    rw [ofSettings, hnames]
    rfl
  have hdeny : deny.HasEntry "/12/a" := ⟨_, rfl, .string "/12/a", by simp, rfl⟩
  have hallow : (entryValue entries .allow).HasEntry "/a~1b/None" :=
    ⟨_, rfl, .string "/a~1b/None", List.mem_singleton.mpr rfl, rfl⟩
  obtain ⟨hentry, -, hpolicies⟩ := entries_name_fields_of_targets
  have hdenied := (hpolicies _ t (.inl hcoerce) _ _ _ p (.lists hp)).1 hdeny (.start p) rfl
  have hallowed := (hpolicies _ u (.inr hpointer) _ _ _ q (.settings hq)).2 hallow
  exact ⟨hcoerce, (hentry _ t hcoerce).2, hp, hdeny, hdenied, hpointer, hq, hallow, hallowed⟩

/-- The target has a field and no pointer. -/
theorem long_segment_has_no_entry :
    let t : Target := ⟨.string "a", [.int Value.leastUnwritable]⟩
    t.head.toText = .ok "a" ∧ t.toPointer = .error (.badValue .numberTooLong) := by
  refine ⟨rfl, Target.toPointer_of_not_isWritable ?_⟩
  exact Target.not_isWritable_of_segment Value.not_isWritable_leastUnwritable
    (List.mem_cons_of_mem _ (List.mem_singleton.mpr rfl))

end Policy
end FilterQuery
