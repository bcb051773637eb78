import FilterQuery.Proofs.Entries
import FilterQuery.Proofs.PointerGrammar

/-!
# Settings and the policies made from them

Settings are a mapping that has nothing but the three lists of a policy. Each list is null or a
collection of strings, and of a string that starts with a slash only the first segment is read, so
nothing but its escapes can be wrong with it. Settings of this form make a policy unless they both
allow and deny fields; all others are refused with a fault of their own kind. What the policy says
about a field follows from the entries, whatever their order and however often they are repeated,
while the required fields are kept as they are listed.
-/

namespace FilterQuery

theorem mem_of_forall₂_some {α β : Type} {read : α → Option β} {as : List α} {bs : List β}
    (h : List.Forall₂ (fun a b => read a = some b) as bs) (b : β) :
    b ∈ bs ↔ ∃ a ∈ as, read a = some b := by
  have hmap : as.map read = bs.map some := by
    rw [← List.forall₂_eq_eq_eq, List.forall₂_map_left_iff, List.forall₂_map_right_iff]
    exact h
  have hsome : some b ∈ bs.map some ↔ b ∈ bs := by simp
  rw [← hsome, ← hmap, List.mem_map]

theorem exists_forall₂_iff {α β : Type} {R : α → β → Prop} {as : List α} :
    (∃ bs, List.Forall₂ R as bs) ↔ ∀ a ∈ as, ∃ b, R a b := by
  induction as with
  | nil => simp
  | cons a as ih =>
    rw [List.forall_mem_cons, ← ih]
    constructor
    · rintro ⟨bs, h⟩
      cases h with
      | cons hab has => exact ⟨⟨_, hab⟩, _, has⟩
    · rintro ⟨⟨b, hab⟩, bs, has⟩
      exact ⟨b :: bs, .cons hab has⟩

theorem exists_forall₂_between {α β γ : Type} {R : α → β → Prop} {S : β → γ → Prop} {as : List α}
    {cs : List γ} (h : List.Forall₂ (fun a c => ∃ b, R a b ∧ S b c) as cs) :
    ∃ bs, List.Forall₂ R as bs ∧ List.Forall₂ S bs cs := by
  induction h with
  | nil => exact ⟨[], .nil, .nil⟩
  | cons hac _ ih =>
    obtain ⟨b, hab, hbc⟩ := hac
    obtain ⟨bs, has, hcs⟩ := ih
    exact ⟨b :: bs, .cons hab has, .cons hbc hcs⟩

namespace Value

/-- The value is null or a collection of strings, and these are the strings. -/
def Lists (v : Value) (names : List String) : Prop :=
  ∃ entries, v.entries? = some entries ∧
    List.Forall₂ (fun entry name => entry.string? = some name) entries names

theorem Lists.hasEntry_iff {v : Value} {names : List String} (h : v.Lists names) (s : String) :
    v.HasEntry s ↔ s ∈ names := by
  obtain ⟨entries, hentries, hnames⟩ := h
  rw [mem_of_forall₂_some hnames]
  unfold HasEntry
  simp [hentries]

end Value

namespace Policy

open Pointer

/-- An entry names the field that it is, or as a pointer the one that its first segment stands for. -/
inductive Names : String → String → Prop
  | bare {s : String} : s.toList.head? ≠ some '/' → Names s s
  | pointer {s : String} {first cs : List Char} :
      s.toList.head? = some '/' → (rawSegments s).head? = some first → Unescapes first cs →
      Names s (String.ofList cs)

def Listed (v : Value) (field : String) : Prop :=
  ∃ s, v.HasEntry s ∧ Names s field

/-- The first segment of a pointer has right escapes; the others do not matter. -/
def WellSpelled (s : String) : Prop :=
  s.toList.head? = some '/' → ∀ first, (rawSegments s).head? = some first → Escaped first

theorem head?_segments (cs : List Char) : (segments cs).head? = some (cs.takeWhile (· ≠ '/')) := by
  induction cs with
  | nil => rfl
  | cons c cs ih =>
    unfold segments
    by_cases hslash : c = '/'
    · simp [hslash]
    · rw [if_neg hslash, List.head?_modifyHead, ih]
      simp [hslash]

theorem exists_first_of_slash {s : String} (h : s.toList.head? = some '/') :
    ∃ first, (rawSegments s).head? = some first ∧
      entryField? s = (unescape? first).map String.ofList := by
  obtain ⟨cs, hcs⟩ := List.head?_eq_some_iff.mp h
  refine ⟨cs.takeWhile (· ≠ '/'), by rw [rawSegments_of_slash hcs, head?_segments], ?_⟩
  unfold entryField?
  rw [hcs]
  rfl

theorem entryField?_of_bare {s : String} (h : s.toList.head? ≠ some '/') :
    entryField? s = some s := by
  unfold entryField?
  split
  · rename_i cs hcs
    simp [hcs] at h
  · rfl

theorem entryField?_eq_some_iff {s field : String} : entryField? s = some field ↔ Names s field := by
  by_cases hslash : s.toList.head? = some '/'
  · obtain ⟨first, hfirst, hentry⟩ := exists_first_of_slash hslash
    rw [hentry, Option.map_eq_some_iff]
    constructor
    · rintro ⟨text, htext, rfl⟩
      exact .pointer hslash hfirst (unescape?_eq_some_iff.mp htext)
    · intro h
      cases h with
      | bare h => exact absurd hslash h
      | pointer _ hother htext =>
        cases hfirst.symm.trans hother
        exact ⟨_, unescape?_eq_some_iff.mpr htext, rfl⟩
  · rw [entryField?_of_bare hslash]
    constructor
    · intro h
      cases h
      exact .bare hslash
    · intro h
      cases h with
      | bare _ => rfl
      | pointer h _ _ => exact absurd h hslash

theorem exists_names_iff (s : String) : (∃ field, Names s field) ↔ WellSpelled s := by
  constructor
  · rintro ⟨field, hfield⟩ hslash first hfirst
    cases hfield with
    | bare h => exact absurd hslash h
    | pointer _ hother htext =>
      cases hfirst.symm.trans hother
      exact (exists_unescapes_iff first).mp ⟨_, htext⟩
  · intro h
    by_cases hslash : s.toList.head? = some '/'
    · obtain ⟨first, hfirst, -⟩ := exists_first_of_slash hslash
      obtain ⟨text, htext⟩ := (exists_unescapes_iff first).mpr (h hslash first hfirst)
      exact ⟨_, .pointer hslash hfirst htext⟩
    · exact ⟨s, .bare hslash⟩

section Setting

variable {setting : Setting} {v : Value} {fields : List String}

/-- A setting can be read when it is null or a collection of strings and each of them names a
field. -/
theorem exists_readSetting_iff :
    (∃ fields, readSetting setting v = .ok fields) ↔
      ∃ entries, v.entries? = some entries ∧
        ∀ entry ∈ entries, ∃ s, entry.string? = some s ∧ WellSpelled s := by
  simp only [readSetting_eq_ok_iff, readEntry_eq_ok_iff, entryField?_eq_some_iff]
  rw [exists_comm]
  simp only [exists_and_left, exists_forall₂_iff]
  refine exists_congr fun entries => and_congr_right fun _ => ?_
  refine forall₂_congr fun entry _ => ?_
  simp only [← exists_names_iff]
  rw [exists_comm]
  simp only [exists_and_left]

variable (h : readSetting setting v = .ok fields)
include h

theorem exists_lists_of_readSetting :
    ∃ names, v.Lists names ∧ List.Forall₂ Names names fields := by
  obtain ⟨entries, hentries, hread⟩ := readSetting_eq_ok_iff.mp h
  simp only [readEntry_eq_ok_iff, entryField?_eq_some_iff] at hread
  obtain ⟨names, hnames, hfields⟩ := exists_forall₂_between hread
  exact ⟨names, ⟨entries, hentries, hnames⟩, hfields⟩

theorem mem_fields_iff (field : String) : field ∈ fields ↔ Listed v field := by
  unfold Listed
  obtain ⟨names, hnames, hfields⟩ := exists_lists_of_readSetting h
  have hread : List.Forall₂ (fun s field => entryField? s = some field) names fields :=
    hfields.imp fun _ _ => entryField?_eq_some_iff.mpr
  simp only [mem_of_forall₂_some hread, hnames.hasEntry_iff, entryField?_eq_some_iff]

theorem fields_ne_nil_iff : fields ≠ [] ↔ ∃ s, v.HasEntry s := by
  obtain ⟨names, hnames, hfields⟩ := exists_lists_of_readSetting h
  simp only [hnames.hasEntry_iff]
  rw [← List.length_pos_iff, ← hfields.length_eq, List.length_pos_iff_exists_mem]

end Setting

section Made

variable {allow deny require : Value} {p : Policy}

theorem eraseDups_eq_nil_iff {fields : List String} : fields.eraseDups = [] ↔ fields = [] := by
  simp only [List.eq_nil_iff_forall_not_mem, List.mem_eraseDups]

theorem ofFields_eq_ok_iff {allowed denied required : List String} :
    ofFields allowed denied required = .ok p ↔
      (allowed = [] ∨ denied = []) ∧ p.allow = allowed.eraseDups ∧ p.deny = denied.eraseDups ∧
        p.require = required := by
  unfold ofFields
  cases p
  simp only [eraseDups_eq_nil_iff]
  split
  · rename_i hexclusive
    simp [hexclusive, eq_comm]
  · rename_i hexclusive
    simp [hexclusive]

theorem ofLists_eq_ok_iff :
    ofLists allow deny require = .ok p ↔
      ∃ allowed denied required, readSetting .allow allow = .ok allowed ∧
        readSetting .deny deny = .ok denied ∧ readSetting .require require = .ok required ∧
        ofFields allowed denied required = .ok p := by
  unfold ofLists
  simp only [bind_eq_ok_iff, exists_and_left]

theorem exists_ofFields_iff {allowed denied required : List String} :
    (∃ p, ofFields allowed denied required = .ok p) ↔ allowed = [] ∨ denied = [] := by
  constructor
  · rintro ⟨p, hp⟩
    exact (ofFields_eq_ok_iff.mp hp).1
  · intro h
    have hexclusive : allowed.eraseDups = [] ∨ denied.eraseDups = [] :=
      h.imp eraseDups_eq_nil_iff.mpr eraseDups_eq_nil_iff.mpr
    unfold ofFields
    rw [dif_pos hexclusive]
    exact ⟨_, rfl⟩

end Made

section Faults

variable {fault : Fault}

theorem config_of_readEntry {setting : Setting} {v : Value}
    (h : readEntry setting v = .error fault) : ∃ cause, fault = .config cause := by
  unfold readEntry at h
  split at h
  · cases h
    exact ⟨_, rfl⟩
  · split at h
    · cases h
      exact ⟨_, rfl⟩
    · cases h

theorem config_of_readSetting {setting : Setting} {v : Value}
    (h : readSetting setting v = .error fault) : ∃ cause, fault = .config cause := by
  cases v with
  | null => cases h
  | list entries | tuple entries | set entries | sealedSet entries =>
    obtain ⟨-, entry, -, -, -, hentry⟩ := mapM_eq_error_iff.mp h
    exact config_of_readEntry hentry
  | _ =>
    cases h
    exact ⟨_, rfl⟩

theorem config_of_ofLists {allow deny require : Value}
    (h : ofLists allow deny require = .error fault) : ∃ cause, fault = .config cause := by
  unfold ofLists at h
  simp only [bind_eq_error_iff] at h
  obtain h | ⟨allowed, -, h | ⟨denied, -, h | ⟨required, -, h⟩⟩⟩ := h
  · exact config_of_readSetting h
  · exact config_of_readSetting h
  · exact config_of_readSetting h
  · unfold ofFields at h
    split at h
    · cases h
    · cases h
      exact ⟨_, rfl⟩

theorem config_of_ofSettings {v : Value} (h : ofSettings v = .error fault) :
    ∃ cause, fault = .config cause := by
  unfold ofSettings at h
  split at h
  · split at h
    · exact config_of_ofLists h
    · cases h
      exact ⟨_, rfl⟩
  · cases h
    exact ⟨_, rfl⟩

end Faults

structure WellFormed (entries : List (String × Value)) : Prop where
  names : ∀ name ∈ entries.map Prod.fst, name ∈ ["allow", "deny", "require"]
  strings : ∀ name v, entries.lookup name = some v →
    ∃ items, v.entries? = some items ∧ ∀ item ∈ items, ∃ s, item.string? = some s
  pointers : ∀ name v s, entries.lookup name = some v → v.HasEntry s → WellSpelled s
  exclusive : ¬ ((∃ s, (entryValue entries .allow).HasEntry s) ∧
    ∃ s, (entryValue entries .deny).HasEntry s)

section Entries

variable {entries : List (String × Value)}

theorem mem_settingNames_iff (name : String) :
    name ∈ ["allow", "deny", "require"] ↔ ∃ setting : Setting, setting.name = name := by
  constructor
  · intro h
    simp only [List.mem_cons, List.not_mem_nil, or_false] at h
    rcases h with h | h | h
    · exact ⟨.allow, h.symm⟩
    · exact ⟨.deny, h.symm⟩
    · exact ⟨.require, h.symm⟩
  · rintro ⟨setting, rfl⟩
    cases setting <;> simp [Setting.name]

theorem isSettingName_iff (name : String) :
    isSettingName name = true ↔ name ∈ ["allow", "deny", "require"] := by
  rw [mem_settingNames_iff]
  unfold isSettingName
  rw [List.any_eq_true]
  simp only [beq_iff_eq]
  refine exists_congr fun setting => and_iff_right ?_
  cases setting <;> simp

theorem unknownNames_eq_nil_iff :
    unknownNames entries = [] ↔
      ∀ name ∈ entries.map Prod.fst, name ∈ ["allow", "deny", "require"] := by
  unfold unknownNames sortedNames
  rw [List.eq_nil_iff_forall_not_mem]
  simp only [List.mem_mergeSort, List.mem_filter, Bool.not_eq_true', not_and, Bool.not_eq_false,
    isSettingName_iff]

theorem ofSettings_eq_ok_iff {p : Policy} :
    ofSettings (.mapping entries) = .ok p ↔
      (∀ name ∈ entries.map Prod.fst, name ∈ ["allow", "deny", "require"]) ∧
        ofEntries entries = .ok p := by
  rw [← unknownNames_eq_nil_iff]
  unfold ofSettings
  cases hnames : unknownNames entries <;> simp [hnames]

theorem exists_ofEntries_iff :
    (∃ p, ofEntries entries = .ok p) ↔
      (∀ setting, ∃ fields, readSetting setting (entryValue entries setting) = .ok fields) ∧
        ¬ ((∃ s, (entryValue entries .allow).HasEntry s) ∧
          ∃ s, (entryValue entries .deny).HasEntry s) := by
  unfold ofEntries
  simp only [ofLists_eq_ok_iff]
  constructor
  · rintro ⟨p, allowed, denied, required, hallow, hdeny, hrequire, hp⟩
    constructor
    · intro setting
      cases setting with
      | allow => exact ⟨allowed, hallow⟩
      | deny => exact ⟨denied, hdeny⟩
      | require => exact ⟨required, hrequire⟩
    · rw [← fields_ne_nil_iff hallow, ← fields_ne_nil_iff hdeny, not_and_or, not_not, not_not]
      exact (ofFields_eq_ok_iff.mp hp).1
  · rintro ⟨hread, hexclusive⟩
    obtain ⟨allowed, hallow⟩ := hread .allow
    obtain ⟨denied, hdeny⟩ := hread .deny
    obtain ⟨required, hrequire⟩ := hread .require
    rw [← fields_ne_nil_iff hallow, ← fields_ne_nil_iff hdeny, not_and_or, not_not,
      not_not] at hexclusive
    obtain ⟨p, hp⟩ := exists_ofFields_iff.mpr hexclusive
    exact ⟨p, allowed, denied, required, hallow, hdeny, hrequire, hp⟩

theorem WellFormed.exists_readSetting (h : WellFormed entries) (setting : Setting) :
    ∃ fields, readSetting setting (entryValue entries setting) = .ok fields := by
  rw [exists_readSetting_iff]
  unfold entryValue
  cases hv : entries.lookup setting.name with
  | none => exact ⟨[], rfl, by simp⟩
  | some v =>
    obtain ⟨items, hitems, hstrings⟩ := h.strings _ v hv
    refine ⟨items, hitems, fun item hitem => ?_⟩
    obtain ⟨s, hs⟩ := hstrings item hitem
    exact ⟨s, hs, h.pointers _ v s hv ⟨items, hitems, item, hitem, hs⟩⟩

theorem exists_items_of_lookup
    (hnames : ∀ name ∈ entries.map Prod.fst, name ∈ ["allow", "deny", "require"])
    (hread : ∀ setting, ∃ fields, readSetting setting (entryValue entries setting) = .ok fields)
    {name : String} {v : Value} (hv : entries.lookup name = some v) :
    ∃ items, v.entries? = some items ∧
      ∀ item ∈ items, ∃ s, item.string? = some s ∧ WellSpelled s := by
  obtain ⟨before, after, hentries, -⟩ := List.lookup_eq_some_iff.mp hv
  obtain ⟨setting, hsetting⟩ := (mem_settingNames_iff name).mp (hnames name (by simp [hentries]))
  have hvalue : entryValue entries setting = v := by
    unfold entryValue
    rw [hsetting, hv]
    rfl
  rw [← hvalue]
  exact exists_readSetting_iff.mp (hread setting)

theorem exists_ofSettings_iff :
    (∃ p, ofSettings (.mapping entries) = .ok p) ↔ WellFormed entries := by
  simp only [ofSettings_eq_ok_iff, exists_and_left, exists_ofEntries_iff]
  constructor
  · rintro ⟨hnames, hread, hexclusive⟩
    refine ⟨hnames, fun name v hv => ?_, fun name v s hv hentry => ?_, hexclusive⟩
    · obtain ⟨items, hitems, hstrings⟩ := exists_items_of_lookup hnames hread hv
      refine ⟨items, hitems, fun item hitem => ?_⟩
      obtain ⟨s, hs, -⟩ := hstrings item hitem
      exact ⟨s, hs⟩
    · obtain ⟨items, hitems, hstrings⟩ := exists_items_of_lookup hnames hread hv
      obtain ⟨others, hothers, item, hitem, hs⟩ := hentry
      cases hitems.symm.trans hothers
      obtain ⟨other, hother, hspelled⟩ := hstrings item hitem
      cases hs.symm.trans hother
      exact hspelled
  · intro h
    exact ⟨h.names, h.exists_readSetting, h.exclusive⟩

end Entries

def Rejection.fault (field : String) : Rejection → Fault
  | nonallowed => .nonallowed field
  | denied => .denied field

section Verdict

variable (p q : Policy) (field : String)

theorem check_eq_error_iff (reason : Rejection) :
    p.check field = .error (reason.fault field) ↔ p.rejection? field = some reason := by
  unfold check
  cases p.rejection? field with
  | none => simp
  | some other => cases other <;> cases reason <;> simp [Rejection.fault]

variable {p q field}

/-- Two policies agree about a field when they allow it and deny it alike. -/
theorem rejection?_congr
    (hallow : p.allow ≠ [] ∧ field ∉ p.allow ↔ q.allow ≠ [] ∧ field ∉ q.allow)
    (hdeny : field ∈ p.deny ↔ field ∈ q.deny) : p.rejection? field = q.rejection? field := by
  unfold rejection?
  simp only [hallow, hdeny]

end Verdict

section OfSettings

variable {entries : List (String × Value)} {p : Policy}
  (h : ofSettings (.mapping entries) = .ok p)
include h

theorem exists_fields_of_ofSettings :
    ∃ allowed denied, readSetting .allow (entryValue entries .allow) = .ok allowed ∧
      readSetting .deny (entryValue entries .deny) = .ok denied ∧
      readSetting .require (entryValue entries .require) = .ok p.require ∧
      p.allow = allowed.eraseDups ∧ p.deny = denied.eraseDups := by
  obtain ⟨allowed, denied, required, hallow, hdeny, hrequire, hp⟩ :=
    ofLists_eq_ok_iff.mp (ofSettings_eq_ok_iff.mp h).2
  obtain ⟨-, hallowed, hdenied, hrequired⟩ := ofFields_eq_ok_iff.mp hp
  exact ⟨allowed, denied, hallow, hdeny, hrequired ▸ hrequire, hallowed, hdenied⟩

theorem mem_allow_iff (field : String) :
    field ∈ p.allow ↔ Listed (entryValue entries .allow) field := by
  obtain ⟨allowed, -, hallow, -, -, hallowed, -⟩ := exists_fields_of_ofSettings h
  rw [hallowed, List.mem_eraseDups, mem_fields_iff hallow]

theorem mem_deny_iff (field : String) :
    field ∈ p.deny ↔ Listed (entryValue entries .deny) field := by
  obtain ⟨-, denied, -, hdeny, -, -, hdenied⟩ := exists_fields_of_ofSettings h
  rw [hdenied, List.mem_eraseDups, mem_fields_iff hdeny]

theorem allow_ne_nil_iff : p.allow ≠ [] ↔ ∃ s, (entryValue entries .allow).HasEntry s := by
  obtain ⟨allowed, -, hallow, -, -, hallowed, -⟩ := exists_fields_of_ofSettings h
  rw [hallowed, Ne, eraseDups_eq_nil_iff, ← fields_ne_nil_iff hallow]

end OfSettings

/-- Settings make a policy exactly when they are well formed, and are refused as settings otherwise.
The entries decide what the policy says about a field, whatever their order and number, and the
required fields are those that the entries name, one after the other. -/
theorem settings_make_exact_policies :
    (∀ v, (∃ p, ofSettings v = .ok p) ↔ ∃ entries, v = .mapping entries ∧ WellFormed entries) ∧
    (∀ v fault, ofSettings v = .error fault → ∃ cause, fault = .config cause) ∧
    (∀ entries p, ofSettings (.mapping entries) = .ok p →
      let allow := entryValue entries .allow
      let deny := entryValue entries .deny
      (∀ field,
        (p.check field = .error (.nonallowed field) ↔
          (∃ s, allow.HasEntry s) ∧ ¬ Listed allow field) ∧
        (p.check field = .error (.denied field) ↔ Listed deny field) ∧
        ¬ (((∃ s, allow.HasEntry s) ∧ ¬ Listed allow field) ∧ Listed deny field) ∧
        (p.permits field = true ↔ p.check field = .ok ())) ∧
      ∃ names, (entryValue entries .require).Lists names ∧ List.Forall₂ Names names p.require) ∧
    ∀ entries others p q, ofSettings (.mapping entries) = .ok p →
      ofSettings (.mapping others) = .ok q →
      (∀ s, (entryValue entries .allow).HasEntry s ↔ (entryValue others .allow).HasEntry s) →
      (∀ s, (entryValue entries .deny).HasEntry s ↔ (entryValue others .deny).HasEntry s) →
      ∀ field, p.check field = q.check field ∧ p.permits field = q.permits field := by
  refine ⟨fun v => ⟨?_, ?_⟩, fun v fault => config_of_ofSettings, ?_, ?_⟩
  · rintro ⟨p, hp⟩
    cases v with
    | mapping entries => exact ⟨entries, rfl, exists_ofSettings_iff.mp ⟨p, hp⟩⟩
    | _ => cases hp
  · rintro ⟨entries, hv, hentries⟩
    rw [hv]
    exact exists_ofSettings_iff.mpr hentries
  · intro entries p h allow deny
    constructor
    · intro field
      have hallow := p.check_eq_error_iff field .nonallowed
      have hdeny := p.check_eq_error_iff field .denied
      rw [rejection?_eq_nonallowed_iff, allow_ne_nil_iff h, mem_allow_iff h] at hallow
      rw [rejection?_eq_denied_iff, mem_deny_iff h] at hdeny
      refine ⟨hallow, hdeny, ?_, (p.check_eq_ok_iff field).symm⟩
      rintro ⟨hunlisted, hlisted⟩
      cases (hallow.mpr hunlisted).symm.trans (hdeny.mpr hlisted)
    · obtain ⟨-, -, -, -, hrequire, -, -⟩ := exists_fields_of_ofSettings h
      exact exists_lists_of_readSetting hrequire
  · intro entries others p q hp hq hallow hdeny field
    have hsame : p.rejection? field = q.rejection? field := by
      apply rejection?_congr
      · rw [allow_ne_nil_iff hp, allow_ne_nil_iff hq, mem_allow_iff hp, mem_allow_iff hq]
        simp only [Listed, hallow]
      · rw [mem_deny_iff hp, mem_deny_iff hq]
        simp only [Listed, hdeny]
    unfold check permits
    rw [hsame]
    exact ⟨rfl, rfl⟩

/-- Only the first segment of an entry is read, a denied field may be repeated, and a required one
stays repeated; the same entries in another order and collection give the same verdicts. -/
theorem settings_make_exact_policies_repeated_entries :
    let entries := [("deny", Value.tuple [.string "x", .string "/a~1b/~", .string "x"]),
      ("allow", .null), ("require", .list [.string "b", .string "/a/~", .string "b"])]
    let others := [("deny", Value.set [.string "/a~1b/~", .string "x"])]
    let p : Policy := ⟨[], ["x", "a/b"], ["b", "a", "b"], .inl rfl⟩
    let q : Policy := ⟨[], ["a/b", "x"], [], .inl rfl⟩
    ofSettings (.mapping entries) = .ok p ∧ WellFormed entries ∧
      Listed (entryValue entries .deny) "a/b" ∧ p.permits "b" = true ∧
      ofSettings (.mapping others) = .ok q ∧ ∀ field, p.check field = q.check field := by
  intro entries others p q
  have hp : ofSettings (.mapping entries) = .ok p := by
    have hnames : unknownNames entries = [] := List.mergeSort_nil
    rw [ofSettings, hnames]
    rfl
  have hq : ofSettings (.mapping others) = .ok q := by
    have hnames : unknownNames others = [] := List.mergeSort_nil
    rw [ofSettings, hnames]
    rfl
  obtain ⟨hiff, -, hpolicy, hsame⟩ := settings_make_exact_policies
  obtain ⟨_, hentries, hformed⟩ := (hiff (.mapping entries)).mp ⟨p, hp⟩
  cases hentries
  obtain ⟨hcheck, -⟩ := hpolicy entries p hp
  have hdenied : p.check "a/b" = .error (.denied "a/b") := rfl
  have hallowed : p.check "b" = .ok () := rfl
  refine ⟨hp, hformed, (hcheck "a/b").2.1.mp hdenied, (hcheck "b").2.2.2.mpr hallowed, hq, ?_⟩
  intro field
  refine (hsame entries others p q hp hq (fun s => Iff.rfl) (fun s => ?_) field).1
  have hfirst : (entryValue entries .deny).Lists ["x", "/a~1b/~", "x"] :=
    ⟨_, rfl, .cons rfl (.cons rfl (.cons rfl .nil))⟩
  have hsecond : (entryValue others .deny).Lists ["/a~1b/~", "x"] :=
    ⟨_, rfl, .cons rfl (.cons rfl .nil)⟩
  rw [hfirst.hasEntry_iff, hsecond.hasEntry_iff]
  simp only [List.mem_cons, List.not_mem_nil, or_false]
  tauto

end Policy
end FilterQuery
