import FilterQuery.Proofs.Walk

/-!
# The verdict on a filter

A conversion fails exactly with the fault of its first failing check. When a number is too long to
be written, that is the fault, and it stands in the way of the complaint that the check would make.
A policy takes part in the checks of fields only, so it cannot do more than accept or refuse: what
it accepts is the conversion that would be made without it, and what is refused without it is
refused with it.
-/

namespace FilterQuery

namespace Check

def askedField? : Check → Option String
  | admitted t => some t.field
  | _ => none

variable {p : Policy} {cs : List Check}

theorem passes_admitted {t : Target} (h : t.head.isWritable = true) :
    (admitted t).Passes .unrestricted :=
  ⟨h, .inl rfl, List.not_mem_nil⟩

theorem Passes.unrestricted {c : Check} (h : c.Passes p) : c.Passes .unrestricted := by
  cases c with
  | admitted t => exact passes_admitted h.1
  | _ => exact h

/-- Only the admitted fields can make a difference between two policies. -/
theorem Passes.restrict {c : Check} (h : c.Passes .unrestricted)
    (hfield : ∀ field, c.askedField? = some field → p.Admits field) : c.Passes p := by
  cases c with
  | admitted t => exact ⟨h.1, hfield t.field rfl⟩
  | _ => exact h

theorem passes_of_admits (hfree : ∀ c ∈ cs, c.Passes .unrestricted)
    (hfields : ∀ field ∈ cs.filterMap askedField?, p.Admits field) : ∀ c ∈ cs, c.Passes p := by
  intro c hc
  refine (hfree c hc).restrict fun field hfield => hfields field ?_
  exact List.mem_filterMap.mpr ⟨c, hc, hfield⟩

/-- When nothing else is wrong, the first field that is not admitted decides. -/
theorem firstFault_of_refused (hfree : ∀ c ∈ cs, c.Passes .unrestricted) {field : String}
    (h : (cs.filterMap askedField?).find? (fun field => !p.permits field) = some field) :
    FirstFault p cs (p.refusal field) := by
  induction cs with
  | nil => simp at h
  | cons c cs ih =>
    have hc := hfree c (by simp)
    have hrest := ih fun d hd => hfree d (by simp [hd])
    cases asked : c.askedField? with
    | none =>
      rw [List.filterMap_cons_none asked] at h
      exact .later (hc.restrict (by simp [asked])) (hrest h)
    | some other =>
      obtain ⟨t, rfl⟩ : ∃ t, c = .admitted t := by
        cases c <;> simp_all [askedField?]
      obtain rfl : t.field = other := Option.some.inj asked
      rw [List.filterMap_cons_some asked, List.find?_cons] at h
      by_cases admits : p.Admits t.field
      · rw [(p.permits_iff t.field).mpr admits] at h
        exact .later ⟨hc.1, admits⟩ (hrest h)
      · have refused : p.permits t.field = false := by
          rwa [← Bool.not_eq_true, p.permits_iff]
        rw [refused] at h
        obtain rfl : t.field = field := Option.some.inj h
        have hfault : (admitted t).fault p = p.refusal t.field := fault_of_isWritten hc.1 p
        rw [← hfault]
        exact .here fun hpass => admits hpass.2

/-- A policy can at most put the refusal of a field in the place of another fault. -/
theorem FirstFault.restrict {fault : Fault} (h : FirstFault .unrestricted cs fault) :
    FirstFault p cs fault ∨ ∃ field, FirstFault p cs (p.refusal field) := by
  induction h with
  | @here c cs hc =>
    cases c with
    | admitted t =>
      -- without a policy only the writing of the field can fail, and it fails under every policy
      have hlong : ¬ (admitted t).isWritten = true := fun hhead => hc (passes_admitted hhead)
      rw [fault_of_not_isWritten hlong, ← fault_of_not_isWritten hlong p]
      exact .inl (.here fun hpass => hlong hpass.1)
    | _ => exact .inl (.here hc)
  | @later c cs fault hc _ ih =>
    by_cases passes : c.Passes p
    · rcases ih with h | ⟨field, h⟩
      · exact .inl (.later passes h)
      · exact .inr ⟨field, .later passes h⟩
    · cases c with
      | admitted t =>
        have hfault : (admitted t).fault p = p.refusal t.field := fault_of_isWritten hc.1 p
        exact .inr ⟨t.field, hfault ▸ .here passes⟩
      | _ => exact absurd hc passes

end Check

theorem Clause.askedFields_checks (c : Clause) :
    c.checks.filterMap Check.askedField? = c.targets.map Target.field := by
  unfold checks targets
  cases c.subject.target? <;> cases c.object.target? <;> rfl

namespace Filter

mutual

theorem askedFields_content (v : Value) :
    (contentChecks v).filterMap Check.askedField? = (contentTargets v).map Target.field := by
  cases v with
  | filter statements => exact askedFields_statements statements
  | clause subject op object => exact Clause.askedFields_checks ⟨subject, op, object⟩
  | _ => rfl
termination_by structural v

theorem askedFields_statement (v : Value) :
    (statementChecks v).filterMap Check.askedField? = (statementTargets v).map Target.field := by
  cases v with
  | statement content conj => exact askedFields_content content
  | _ => rfl
termination_by structural v

theorem askedFields_statements (vs : List Value) :
    (statementsChecks vs).filterMap Check.askedField? =
      (statementsTargets vs).map Target.field := by
  cases vs with
  | nil => rfl
  | cons v vs =>
    rw [statementsChecks, statementsTargets, List.filterMap_append, List.map_append,
      askedFields_statement v, askedFields_statements vs]
termination_by structural vs

end

theorem find?_eraseDups (wanted : String → Bool) (fields : List String) :
    fields.eraseDups.find? wanted = fields.find? wanted := by
  induction fields using List.reverseRecOn with
  | nil => rfl
  | append_singleton fields field ih =>
    rw [List.eraseDups_append, List.find?_append, List.find?_append, ih]
    by_cases known : field ∈ fields
    · cases hfound : fields.find? wanted with
      | some found => rfl
      | none =>
        have hfield : ¬ wanted field = true := List.find?_eq_none.mp hfound field known
        simp [List.removeAll, known, hfield]
    · simp [List.removeAll, List.eraseDups_cons, known]

theorem checks_unrestricted (f : Filter) :
    f.checks .unrestricted = statementsChecks f.statements :=
  List.append_nil _

theorem convert_ok {f : Filter} {p : Policy} {r : Conversion} (h : f.convert p = .ok r) :
    (∀ c ∈ f.checks p, c.Passes p) ∧
    r.fields = (f.targets.map Target.field).eraseDups ∧
    ∀ p' : Policy, (∀ c ∈ f.checks p', c.Passes p') → f.convert p' = .ok r := by
  obtain ⟨q, hq⟩ := f.convert_performs
  obtain ⟨hok, herror⟩ := hq p
  rcases Check.passes_or_firstFault p (f.checks p) with hpass | ⟨fault, hf⟩
  · obtain rfl : _ = r := Except.ok.inj ((hok hpass).symm.trans h)
    exact ⟨hpass, rfl, fun p' => (hq p').1⟩
  · rw [herror fault hf] at h
    cases h

theorem convert_unrestricted_ok {f : Filter} {r : Conversion}
    (h : f.convert .unrestricted = .ok r) :
    (∀ c ∈ statementsChecks f.statements, c.Passes .unrestricted) ∧
    r.fields = (f.targets.map Target.field).eraseDups ∧
    ∀ p, (∀ c ∈ f.checks p, c.Passes p) → f.convert p = .ok r := by
  rw [← checks_unrestricted]
  exact convert_ok h

section Restricted

variable {f : Filter} {r : Conversion} {p : Policy} {field : String}

theorem convert_of_refused (h : f.convert .unrestricted = .ok r)
    (hfield : r.fields.find? (fun x => !p.permits x) = some field) :
    f.convert p = .error (p.refusal field) := by
  obtain ⟨hfree, hfields, -⟩ := convert_unrestricted_ok h
  rw [hfields, find?_eraseDups, targets, ← askedFields_statements] at hfield
  obtain ⟨q, hq⟩ := f.convert_performs
  have hrefused := Check.firstFault_of_refused hfree hfield
  exact (hq p).2 _ (Check.firstFault_append.mpr (.inl hrefused))

theorem passes_of_permitted (h : f.convert .unrestricted = .ok r)
    (hnone : r.fields.find? (fun x => !p.permits x) = none) :
    ∀ c ∈ statementsChecks f.statements, c.Passes p := by
  obtain ⟨hfree, hfields, -⟩ := convert_unrestricted_ok h
  rw [hfields, find?_eraseDups, targets, ← askedFields_statements] at hnone
  refine Check.passes_of_admits hfree fun field hfield => ?_
  have hpermits := List.find?_eq_none.mp hnone field hfield
  exact (p.permits_iff field).mp (by simpa using hpermits)

theorem convert_of_missing (h : f.convert .unrestricted = .ok r)
    (hnone : r.fields.find? (fun x => !p.permits x) = none)
    (hfield : p.require.find? (fun x => !r.fields.contains x) = some field) :
    f.convert p = .error (.required field) := by
  obtain ⟨-, hfields, -⟩ := convert_unrestricted_ok h
  simp only [hfields, List.contains_eq_mem, List.mem_eraseDups] at hfield
  obtain ⟨q, hq⟩ := f.convert_performs
  refine (hq p).2 _ (Check.firstFault_append.mpr (.inr ⟨passes_of_permitted h hnone, ?_⟩))
  exact firstFault_mentioned.mpr ⟨field, by simpa using hfield, rfl⟩

theorem convert_of_permitted (h : f.convert .unrestricted = .ok r)
    (hnone : r.fields.find? (fun x => !p.permits x) = none)
    (hrequire : p.require.find? (fun x => !r.fields.contains x) = none) :
    f.convert p = .ok r := by
  obtain ⟨-, hfields, hsame⟩ := convert_unrestricted_ok h
  apply hsame
  intro c hc
  rcases List.mem_append.mp hc with hc | hc
  · exact passes_of_permitted h hnone c hc
  · obtain ⟨required, hrequired, rfl⟩ := List.mem_map.mp hc
    have hmem := List.find?_eq_none.mp hrequire required hrequired
    have hmentioned : required ∈ r.fields := by simpa using hmem
    rw [hfields, List.mem_eraseDups] at hmentioned
    exact ⟨rfl, hmentioned⟩

/-- A policy that requires nothing accepts the filter when it admits the fields of all targets. -/
theorem convert_ok_iff_admits (h : f.convert .unrestricted = .ok r) (hrequire : p.require = []) :
    (∃ a, f.convert p = .ok a) ↔ ∀ t ∈ f.targets, p.Admits t.field := by
  obtain ⟨-, hfields, -⟩ := convert_unrestricted_ok h
  have hnone : r.fields.find? (fun x => !p.permits x) = none ↔
      ∀ t ∈ f.targets, p.Admits t.field := by
    simp only [hfields, find?_eraseDups, List.find?_eq_none, List.forall_mem_map, Bool.not_eq_true',
      Bool.not_eq_false, p.permits_iff]
  rw [← hnone]
  constructor
  · rintro ⟨a, ha⟩
    cases hfield : r.fields.find? (fun x => !p.permits x) with
    | none => rfl
    | some field => cases (convert_of_refused h hfield).symm.trans ha
  · intro hpermitted
    exact ⟨r, convert_of_permitted h hpermitted (by rw [hrequire]; rfl)⟩

theorem convert_of_fault {fault : Fault} (h : f.convert .unrestricted = .error fault) :
    f.convert p = .error fault ∨ ∃ field, f.convert p = .error (p.refusal field) := by
  obtain ⟨q, hq⟩ := f.convert_performs
  have hearly : ∀ other, Check.FirstFault p (statementsChecks f.statements) other →
      f.convert p = .error other :=
    fun other hother => (hq p).2 other (Check.firstFault_append.mpr (.inl hother))
  rcases Check.passes_or_firstFault .unrestricted (f.checks .unrestricted) with hpass | ⟨first, hf⟩
  · rw [(hq .unrestricted).1 hpass] at h
    cases h
  · obtain rfl : first = fault := Except.error.inj (((hq .unrestricted).2 first hf).symm.trans h)
    rw [checks_unrestricted] at hf
    rcases hf.restrict with hf | ⟨field, hf⟩
    · exact .inl (hearly first hf)
    · exact .inr ⟨field, hearly _ hf⟩

end Restricted

/-- The conversion succeeds when every check finds what it asks for, and otherwise it fails with the
complaint of the first one that does not: all texts are taken for granted. -/
def FollowsChecks (f : Filter) (p : Policy) : Prop :=
  ((∃ r, f.toValue.convert (.policy p) = .ok r) ↔ ∀ c ∈ f.checks p, c.Holds p) ∧
  ∀ fault, f.toValue.convert (.policy p) = .error fault ↔
    ∃ passed check rest, f.checks p = passed ++ check :: rest ∧ (∀ c ∈ passed, c.Holds p) ∧
      ¬ check.Holds p ∧ fault = check.complaint p

/-- No check is reached whose text cannot be written. -/
def ReachesOnlyWritten (f : Filter) (p : Policy) : Prop :=
  ∀ passed check rest, f.checks p = passed ++ check :: rest → (∀ c ∈ passed, c.Passes p) →
    check.isWritten = true

section Outcome

variable {f : Filter} {p : Policy}

theorem exists_convert_ok_iff : (∃ r, f.convert p = .ok r) ↔ ∀ c ∈ f.checks p, c.Passes p := by
  constructor
  · rintro ⟨r, hr⟩
    exact (convert_ok hr).1
  · intro hpass
    obtain ⟨q, hq⟩ := f.convert_performs
    exact ⟨_, (hq p).1 hpass⟩

theorem convert_error_iff {fault : Fault} :
    f.convert p = .error fault ↔ Check.FirstFault p (f.checks p) fault := by
  obtain ⟨q, hq⟩ := f.convert_performs
  obtain ⟨hok, herror⟩ := hq p
  refine ⟨fun h => ?_, herror fault⟩
  rcases Check.passes_or_firstFault p (f.checks p) with hpass | ⟨first, hfirst⟩
  · cases (hok hpass).symm.trans h
  · cases (herror first hfirst).symm.trans h
    exact hfirst

theorem FollowsChecks.reachesOnlyWritten (h : f.FollowsChecks p) : f.ReachesOnlyWritten p := by
  intro passed check rest hsplit hpassed
  by_contra hlong
  have hfirst : Check.FirstFault p (f.checks p) (check.fault p) :=
    Check.firstFault_iff.mpr ⟨passed, check, rest, hsplit, hpassed, fun hc => hlong hc.1, rfl⟩
  rw [Check.fault_of_not_isWritten hlong] at hfirst
  obtain ⟨-, other, -, -, -, -, hother⟩ := (h.2 _).mp (convert_error_iff.mpr hfirst)
  exact other.complaint_ne_numberTooLong p hother.symm

theorem ReachesOnlyWritten.followsChecks (h : f.ReachesOnlyWritten p) : f.FollowsChecks p := by
  change ((∃ r, f.convert p = .ok r) ↔ _) ∧ ∀ fault, f.convert p = .error fault ↔ _
  rcases Check.passes_or_firstFault p (f.checks p) with hpass | ⟨first, hfirst⟩
  · obtain ⟨r, hr⟩ := exists_convert_ok_iff.mpr hpass
    rw [hr]
    refine ⟨iff_of_true ⟨r, rfl⟩ fun c hc => (hpass c hc).2, fun fault => iff_of_false nofun ?_⟩
    rintro ⟨passed, check, rest, hsplit, -, hcheck, -⟩
    exact hcheck (hpass check (by simp [hsplit])).2
  · obtain ⟨passed, check, rest, hsplit, hpassed, hcheck, rfl⟩ := Check.firstFault_iff.mp hfirst
    have hwritten : check.isWritten = true := h passed check rest hsplit hpassed
    have hholds : ¬ check.Holds p := fun hholds => hcheck ⟨hwritten, hholds⟩
    rw [convert_error_iff.mpr hfirst, Check.fault_of_isWritten hwritten]
    refine ⟨iff_of_false nofun fun hall => hholds (hall check (by simp [hsplit])), fun fault => ?_⟩
    constructor
    · rintro ⟨⟩
      exact ⟨passed, check, rest, hsplit, fun c hc => (hpassed c hc).2, hholds, rfl⟩
    · rintro ⟨passed', check', rest', hsplit', hpassed', hholds', rfl⟩
      have hsame : check = check' := eq_of_first_without (hsplit.symm.trans hsplit')
        (fun c hc => (hpassed c hc).2) hholds hpassed' hholds'
      rw [hsame]

end Outcome

/-- A conversion succeeds when all checks pass, and fails with the fault of the first one that does
not. So the complaints of the checks decide alone exactly when all that is reached can be
written. -/
theorem conversion_follows_checks_iff_written (f : Filter) (p : Policy) :
    ((∃ r, f.toValue.convert (.policy p) = .ok r) ↔ ∀ c ∈ f.checks p, c.Passes p) ∧
    (∀ fault, f.toValue.convert (.policy p) = .error fault ↔
      ∃ passed check rest, f.checks p = passed ++ check :: rest ∧ (∀ c ∈ passed, c.Passes p) ∧
        ¬ check.Passes p ∧ fault = check.fault p) ∧
    (f.FollowsChecks p ↔ f.ReachesOnlyWritten p) := by
  refine ⟨exists_convert_ok_iff, fun fault => ?_, ?_⟩
  · exact convert_error_iff.trans Check.firstFault_iff
  · exact ⟨FollowsChecks.reachesOnlyWritten, ReachesOnlyWritten.followsChecks⟩

/-- What cannot be written is no operator, but the complaint about it cannot be made either. -/
theorem convert_of_long_operator {op : Value} (hlong : ¬ op.isWritable = true) (t : Target)
    {v : Value} (hv : v.target? = none) :
    let f : Filter := ⟨[.statement (.clause t.toValue op v) (.conjunction .and)]⟩
    (∃ passed rest, f.checks .unrestricted = passed ++ .isOperator op :: rest ∧
      (∀ c ∈ passed, c.Holds .unrestricted) ∧ ¬ (Check.isOperator op).Holds .unrestricted) ∧
    f.toValue.convert (.policy .unrestricted) = .error (.badValue .numberTooLong) ∧
    ¬ f.FollowsChecks .unrestricted := by
  intro f
  let before : List Check :=
    [.isStatement (.statement (.clause t.toValue op v) (.conjunction .and)),
      .isConjunction (.conjunction .and), .isClause (.clause t.toValue op v)]
  have hpassed : ∀ c ∈ before, c.Passes .unrestricted := by
    simp only [before, List.forall_mem_cons]
    exact ⟨⟨rfl, _, _, rfl⟩, ⟨rfl, .and, .inl rfl⟩, ⟨rfl, _, _, _, rfl⟩, by simp⟩
  have hsplit : f.checks .unrestricted =
      before ++ .isOperator op :: [.operandFits op v, .admitted t, .legal t] := by
    simp [f, before, checks_unrestricted, statementsChecks, statementChecks, contentChecks,
      Clause.checks, Clause.targetedChecks, hv]
  have hfault := Check.fault_of_not_isWritten (c := .isOperator op) hlong .unrestricted
  refine ⟨⟨before, _, hsplit, fun c hc => (hpassed c hc).2, ?_⟩, ?_, ?_⟩
  · rintro ⟨o, ho⟩
    exact hlong ho.isWritable
  · exact convert_error_iff.mpr (Check.firstFault_iff.mpr
      ⟨before, _, _, hsplit, hpassed, fun h => hlong h.1, hfault.symm⟩)
  · exact fun h => hlong (h.reachesOnlyWritten before _ _ hsplit hpassed)

theorem long_operator_is_not_complained_of :
    let op : Value := .int Value.leastUnwritable
    let f : Filter := ⟨[.statement (.clause (.target (.string "a") []) op (.int 1))
      (.conjunction .and)]⟩
    (∃ passed rest, f.checks .unrestricted = passed ++ .isOperator op :: rest ∧
      (∀ c ∈ passed, c.Holds .unrestricted) ∧ ¬ (Check.isOperator op).Holds .unrestricted) ∧
    f.toValue.convert (.policy .unrestricted) = .error (.badValue .numberTooLong) ∧
    ¬ f.FollowsChecks .unrestricted :=
  convert_of_long_operator Value.not_isWritable_leastUnwritable ⟨.string "a", []⟩ rfl

/-- A policy refuses the first field that it does not permit, then the first field that it requires
in vain, and otherwise leaves the conversion as it is; a filter that has a fault keeps failing. -/
theorem policy_only_accepts_or_refuses (f : Filter) (p : Policy) :
    (∀ r, f.toValue.convert .null = .ok r →
      (∀ field, r.fields.find? (fun x => !p.permits x) = some field →
        ∃ fault, p.check field = .error fault ∧ f.toValue.convert (.policy p) = .error fault) ∧
      (r.fields.find? (fun x => !p.permits x) = none →
        (∀ field, p.require.find? (fun x => !r.fields.contains x) = some field →
          f.toValue.convert (.policy p) = .error (.required field)) ∧
        (p.require.find? (fun x => !r.fields.contains x) = none →
          f.toValue.convert (.policy p) = .ok r))) ∧
    ∀ fault, f.toValue.convert .null = .error fault →
      ∃ fault', f.toValue.convert (.policy p) = .error fault' ∧
        (fault' = fault ∨ ∃ field, fault' = .nonallowed field ∨ fault' = .denied field) := by
  constructor
  · intro r h
    constructor
    · intro field hfield
      have hrefused : ¬ p.Admits field := by
        rw [← p.permits_iff]
        simpa using List.find?_some hfield
      exact ⟨p.refusal field, Policy.check_of_not_admits hrefused, convert_of_refused h hfield⟩
    · intro hnone
      exact ⟨fun field hfield => convert_of_missing h hnone hfield, convert_of_permitted h hnone⟩
  · intro fault h
    rcases convert_of_fault h with h | ⟨field, h⟩
    · exact ⟨fault, h, .inl rfl⟩
    · refine ⟨p.refusal field, h, .inr ⟨field, ?_⟩⟩
      unfold Policy.refusal
      split
      · exact .inr rfl
      · exact .inl rfl

theorem policy_only_accepts_or_refuses_second_field :
    let f : Filter := ⟨[
      .statement (.clause (.target (.string "a") []) (.string "eq") (.int 1)) (.conjunction .and),
      .statement (.clause (.int 2) (.string "lt") (.target (.string "b") [.int 0]))
        (.conjunction .or)]⟩
    let p : Policy := ⟨[], ["b"], ["c"], .inl rfl⟩
    ∃ r, f.toValue.convert .null = .ok r ∧ r.fields.find? (fun x => !p.permits x) = some "b" ∧
      f.toValue.convert (.policy p) = .error (.denied "b") := by
  intro f p
  refine ⟨_, rfl, by decide, ?_⟩
  obtain ⟨fault, hcheck, hconvert⟩ :=
    ((policy_only_accepts_or_refuses f p).1 _ rfl).1 "b" (by decide)
  cases hcheck
  exact hconvert

end Filter
end FilterQuery
