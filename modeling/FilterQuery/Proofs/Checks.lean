import FilterQuery.Filter
import Mathlib.Data.List.Basic
import Mathlib.Data.List.Infix

/-!
# The checks of a conversion

What can be wrong with a filter is laid out here as a list of checks, in the order of the document
and without running anything. A check says when it passes and which fault it gives otherwise. The
checks of a clause stand in an order of their own for each number of targets: with two of them the
fields come before the operator, with one the operator and the operand come before the field.

Some checks look at a text, and some faults show one. A check of this kind fails, with a fault of
its own, when a number is too long for the text to be written.
-/

namespace FilterQuery

namespace Value

/-- The value is the operator itself or its name. -/
def IsOperator (v : Value) (op : Operator) : Prop :=
  v = .operator op ∨ v = .string op.name

/-- The value is the conjunction itself or its name. -/
def IsConjunction (v : Value) (c : Conjunction) : Prop :=
  v = .conjunction c ∨ v = .string c.name

theorem operator?_eq_some_iff {v : Value} {op : Operator} :
    v.operator? = some op ↔ v.IsOperator op := by
  constructor
  · intro h
    cases v with
    | operator o => exact .inl (congrArg _ (Option.some.inj h))
    | string s =>
      have hname := List.find?_some (p := fun o : Operator => o.name = s) h
      exact .inr (congrArg _ (of_decide_eq_true hname).symm)
    | _ => cases h
  · rintro (rfl | rfl)
    · rfl
    · exact operator?_string_name op

theorem conjunction?_eq_some_iff {v : Value} {c : Conjunction} :
    v.conjunction? = some c ↔ v.IsConjunction c := by
  constructor
  · intro h
    cases v with
    | conjunction d => exact .inl (congrArg _ (Option.some.inj h))
    | string s =>
      have hname := List.find?_some (p := fun d : Conjunction => d.name = s) h
      exact .inr (congrArg _ (of_decide_eq_true hname).symm)
    | _ => cases h
  · rintro (rfl | rfl)
    · rfl
    · exact conjunction?_string_name c

theorem IsConjunction.unique {v : Value} {c c' : Conjunction} (h : v.IsConjunction c)
    (h' : v.IsConjunction c') : c = c' := by
  rw [← conjunction?_eq_some_iff] at h h'
  exact Option.some.inj (h.symm.trans h')

theorem IsOperator.unique {v : Value} {op op' : Operator} (h : v.IsOperator op)
    (h' : v.IsOperator op') : op = op' := by
  rw [← operator?_eq_some_iff] at h h'
  exact Option.some.inj (h.symm.trans h')

theorem IsConjunction.isWritable {v : Value} {c : Conjunction} (h : v.IsConjunction c) :
    v.isWritable = true := by
  rcases h with rfl | rfl <;> rfl

theorem IsOperator.isWritable {v : Value} {op : Operator} (h : v.IsOperator op) :
    v.isWritable = true := by
  rcases h with rfl | rfl <;> rfl

theorem requireWritable_of_isWritable {v : Value} (h : v.isWritable = true) :
    v.requireWritable = .ok () :=
  if_pos h

theorem requireWritable_of_not_isWritable {v : Value} (h : ¬ v.isWritable = true) :
    v.requireWritable = .error (.badValue .numberTooLong) :=
  if_neg h

theorem toText_of_isWritable {v : Value} (h : v.isWritable = true) : v.toText = .ok v.text := by
  unfold toText
  rw [requireWritable_of_isWritable h]
  rfl

/-- The least number that has too many digits; it is not to be computed. -/
@[irreducible] def leastUnwritable : Nat := Nat.pow 10 maxDigits

theorem leastUnwritable_pos : 0 < leastUnwritable := by
  have hpow : ∀ k, 0 < Nat.pow 10 k := fun k => Nat.pow_pos (by decide)
  unfold leastUnwritable
  exact hpow maxDigits

theorem lt_length_toDigits {n k : Nat} (hk : 0 < k) (h : Nat.pow 10 k ≤ n) :
    k < (Nat.toDigits 10 n).length := by
  rw [← Nat.not_le, Nat.length_toDigits_le_iff (by decide) hk, Nat.not_lt]
  exact h

theorem not_isWritable_int {n : Int} (h : leastUnwritable ≤ n.natAbs) :
    ¬ (int n).isWritable = true := by
  unfold leastUnwritable at h
  have hlong : maxDigits < (Nat.toDigits 10 n.natAbs).length := lt_length_toDigits (by decide) h
  simpa [isWritable, numbers] using hlong

theorem not_isWritable_leastUnwritable : ¬ (int leastUnwritable).isWritable = true :=
  not_isWritable_int (Int.natAbs_natCast _).ge

theorem numbersOf_eq_flatMap (vs : List Value) : numbersOf vs = vs.flatMap numbers := by
  induction vs with
  | nil => rfl
  | cons v vs ih => rw [numbersOf, ih, List.flatMap_cons]

end Value

theorem Target.isWritable_iff (t : Target) :
    t.toValue.isWritable = true ↔ ∀ v ∈ t.path, v.isWritable = true := by
  have hnumbers : t.toValue.numbers = t.path.flatMap Value.numbers :=
    congrArg (t.head.numbers ++ ·) (Value.numbersOf_eq_flatMap t.tail)
  unfold Value.isWritable
  rw [hnumbers, List.all_flatMap, List.all_eq_true]

theorem Target.isWritable_head {t : Target} (h : t.toValue.isWritable = true) :
    t.head.isWritable = true :=
  t.isWritable_iff.mp h t.head (List.mem_cons_self ..)

theorem Target.not_isWritable_of_segment {t : Target} {v : Value} (h : ¬ v.isWritable = true)
    (hv : v ∈ t.path) : ¬ t.toValue.isWritable = true :=
  fun hwritable => h (t.isWritable_iff.mp hwritable v hv)

/-- The operand has the shape that the operator needs; comparisons take any operand. -/
def Operand.Fits : Operator → Value → Prop
  | .compare _, _ => True
  | .between, v | .outside, v => ∃ lower upper, v = .range lower upper
  | .like, v | .unlike, v => ∃ pattern name, v = .like pattern ∧ pattern.name? = some name
  | .among, v | .notAmong, v => ∃ items, v = .list items ∨ v = .tuple items

/-- No segment has a forbidden character or two hyphens in a row. -/
def Target.Legal (t : Target) : Prop :=
  ∀ s ∈ t.segmentTexts, (∀ c ∈ s.toList, c ∉ forbiddenChars) ∧ ¬ ['-', '-'] <:+: s.toList

def Target.Resolvable (t : Target) : Prop :=
  t.toValue.isWritable = true ∧ t.Legal

/-- An allow list, if there is one, has the field, and the deny list does not. -/
def Policy.Admits (p : Policy) (field : String) : Prop :=
  (p.allow = [] ∨ field ∈ p.allow) ∧ field ∉ p.deny

/-- The fault of a field that the policy does not admit. -/
def Policy.refusal (p : Policy) (field : String) : Fault :=
  if p.allow = [] then .denied field else .nonallowed field

namespace Target

theorem hasDoubleHyphen_iff (cs : List Char) : hasDoubleHyphen cs = true ↔ ['-', '-'] <:+: cs := by
  fun_induction hasDoubleHyphen cs with
  | case1 cs => simpa using (List.prefix_append ['-', '-'] cs).isInfix
  | case2 c cs hyphens ih =>
    rw [ih, List.infix_cons_iff]
    constructor
    · exact .inr
    · rintro (⟨rest, hrest⟩ | h)
      · simp only [List.cons_append, List.nil_append, List.cons.injEq] at hrest
        obtain ⟨rfl, rfl⟩ := hrest
        exact (hyphens rest rfl rfl).elim
      · exact h
  | case3 => simp

theorem isLegal_iff (t : Target) : t.isLegal = true ↔ t.Legal := by
  unfold isLegal Legal
  rw [List.all_eq_true]
  refine forall₂_congr fun s _ => ?_
  rw [isLegalSegment, Bool.and_eq_true, Bool.not_eq_true', Bool.not_eq_true', ← hasDoubleHyphen_iff,
    Bool.not_eq_true]
  simp

end Target

namespace Policy

theorem permits_iff (p : Policy) (field : String) : p.permits field = true ↔ p.Admits field := by
  unfold permits rejection? Admits
  split
  · simp_all
  · split <;> simp_all [or_iff_not_imp_left]

theorem check_of_admits {p : Policy} {field : String} (h : p.Admits field) :
    p.check field = .ok () :=
  (p.check_eq_ok_iff field).mpr ((p.permits_iff field).mpr h)

theorem refusal_ne_badValue (p : Policy) (field : String) (cause : ValueCause) :
    p.refusal field ≠ .badValue cause := by
  unfold refusal
  split <;> simp

theorem check_of_not_admits {p : Policy} {field : String} (h : ¬ p.Admits field) :
    p.check field = .error (p.refusal field) := by
  rw [← permits_iff] at h
  unfold check refusal
  cases hr : p.rejection? field with
  | none => simp [permits, hr] at h
  | some reason =>
    cases reason with
    | nonallowed => simp [((p.rejection?_eq_nonallowed_iff field).mp hr).1]
    | denied =>
      have hdeny := (p.rejection?_eq_denied_iff field).mp hr
      have hallow : p.allow = [] := p.exclusive.resolve_right (List.ne_nil_of_mem hdeny)
      simp [hallow]

end Policy

namespace Operand

theorem fits_inverse (op : Operator) (v : Value) : Fits op.inverse v ↔ Fits op v := by
  cases op with
  | compare c => simp [Fits]
  | _ => rfl

theorem check_of_fits {op : Operator} {v : Value} (h : Fits op v) : check op v = .ok () := by
  cases op with
  | compare c => rfl
  | between | outside =>
    obtain ⟨lower, upper, rfl⟩ := h
    rfl
  | like | unlike =>
    obtain ⟨pattern, name, rfl, hname⟩ := h
    have hpattern : (Value.like pattern).isPattern = true := by
      simp [Value.isPattern, Value.string?, hname]
    simp [check, checkRange, checkPattern, checkMembers, require, Operator.testsRange,
      Operator.testsMembership, hpattern, bind, Except.bind]
  | among | notAmong =>
    obtain ⟨items, rfl | rfl⟩ := h <;> rfl

theorem check_of_not_fits {op : Operator} {v : Value} (h : ¬ Fits op v) :
    check op v = .error (.convert .malformed) := by
  cases op with
  | compare c => exact absurd trivial h
  | between | outside =>
    cases v with
    | range lower upper => exact absurd ⟨lower, upper, rfl⟩ h
    | _ => rfl
  | like | unlike =>
    cases v with
    | like pattern =>
      cases hname : pattern.name? with
      | some name => exact absurd ⟨pattern, name, rfl, hname⟩ h
      | none =>
        have hpattern : (Value.like pattern).isPattern = false := by
          simp [Value.isPattern, Value.string?, hname]
        simp [check, checkRange, checkPattern, require, Operator.testsRange,
          Operator.matchesPattern, hpattern, bind, Except.bind]
    | _ => rfl
  | among | notAmong =>
    cases v with
    | list items => exact absurd ⟨items, .inl rfl⟩ h
    | tuple items => exact absurd ⟨items, .inr rfl⟩ h
    | _ => rfl

end Operand

theorem eq_of_first_without {α : Type} {P : α → Prop} {as as' bs bs' : List α} {a a' : α}
    (h : as ++ a :: bs = as' ++ a' :: bs') (has : ∀ b ∈ as, P b) (ha : ¬ P a)
    (has' : ∀ b ∈ as', P b) (ha' : ¬ P a') : a = a' := by
  induction as generalizing as' with
  | nil =>
    cases as' with
    | nil => exact (List.cons.inj h).1
    | cons b _ => exact absurd ((List.cons.inj h).1 ▸ has' b (by simp)) ha
  | cons b as ih =>
    cases as' with
    | nil => exact absurd ((List.cons.inj h).1 ▸ has b (by simp)) ha'
    | cons b' as' =>
      apply ih (List.cons.inj h).2
      · exact fun c hc => has c (by simp [hc])
      · exact fun c hc => has' c (by simp [hc])

inductive Check where
  | isStatement (v : Value)
  | isConjunction (v : Value)
  | isClause (v : Value)
  | isOperator (v : Value)
  | isComparison (v : Value)
  | operandFits (op v : Value)
  | admitted (t : Target)
  | legal (t : Target)
  | mentioned (field : String) (fields : List String)

namespace Check

/-- What a check asks for. -/
def Holds (p : Policy) : Check → Prop
  | isStatement v => ∃ content conj, v = .statement content conj
  | isConjunction v => ∃ c, v.IsConjunction c
  | isClause v => ∃ subject op object, v = .clause subject op object
  | isOperator v => ∃ op, v.IsOperator op
  | isComparison v => ∃ c, v.IsOperator (.compare c)
  | operandFits op v => ∀ o, op.IsOperator o → Operand.Fits o v
  | admitted t => p.Admits t.field
  | legal t => t.Legal
  | mentioned field fields => field ∈ fields

/-- The fault of a check that finds something else. -/
def complaint (p : Policy) : Check → Fault
  | isStatement _ | isClause _ | isComparison _ | operandFits _ _ => .convert .malformed
  | isConjunction v => .convert (.unknownConjunction v)
  | isOperator v => .convert (.unknownOperator v)
  | admitted t => p.refusal t.field
  | legal t => .invalidTarget t
  | mentioned field _ => .required field

/-- Whether the text that a check looks at, or that its complaint shows, can be written. -/
def isWritten : Check → Bool
  | isConjunction v | isOperator v => v.isWritable
  | admitted t => t.head.isWritable
  | legal t => t.toValue.isWritable
  | _ => true

def Passes (p : Policy) (c : Check) : Prop :=
  c.isWritten = true ∧ c.Holds p

def fault (p : Policy) (c : Check) : Fault :=
  if c.isWritten then c.complaint p else .badValue .numberTooLong

theorem complaint_ne_numberTooLong (p : Policy) (c : Check) :
    c.complaint p ≠ .badValue .numberTooLong := by
  cases c with
  | admitted t => exact p.refusal_ne_badValue t.field .numberTooLong
  | _ => simp [complaint]

theorem fault_of_isWritten {c : Check} (h : c.isWritten = true) (p : Policy) :
    c.fault p = c.complaint p :=
  if_pos h

theorem fault_of_not_isWritten {c : Check} (h : ¬ c.isWritten = true) (p : Policy) :
    c.fault p = .badValue .numberTooLong :=
  if_neg h

/-- The fault is that of the first check that does not pass. -/
inductive FirstFault (p : Policy) : List Check → Fault → Prop
  | here {c cs} : ¬ c.Passes p → FirstFault p (c :: cs) (c.fault p)
  | later {c cs fault} : c.Passes p → FirstFault p cs fault → FirstFault p (c :: cs) fault

variable {p : Policy} {cs ds : List Check} {fault : Fault}

theorem passes_or_firstFault (p : Policy) (cs : List Check) :
    (∀ c ∈ cs, c.Passes p) ∨ ∃ fault, FirstFault p cs fault := by
  induction cs with
  | nil => exact .inl (by simp)
  | cons c cs ih =>
    by_cases hc : c.Passes p
    · rcases ih with hcs | ⟨fault, hcs⟩
      · exact .inl (by simpa [hc] using hcs)
      · exact .inr ⟨fault, .later hc hcs⟩
    · exact .inr ⟨c.fault p, .here hc⟩

theorem firstFault_append :
    FirstFault p (cs ++ ds) fault ↔
      FirstFault p cs fault ∨ ((∀ c ∈ cs, c.Passes p) ∧ FirstFault p ds fault) := by
  induction cs with
  | nil =>
    constructor
    · intro h
      exact .inr ⟨by simp, h⟩
    · rintro (h | ⟨-, h⟩)
      · cases h
      · exact h
  | cons c cs ih =>
    constructor
    · intro h
      cases h with
      | here hc => exact .inl (.here hc)
      | later hc h =>
        rcases ih.mp h with h | ⟨hcs, h⟩
        · exact .inl (.later hc h)
        · exact .inr ⟨by simpa [hc] using hcs, h⟩
    · rintro (h | ⟨hcs, h⟩)
      · cases h with
        | here hc => exact .here hc
        | later hc h => exact .later hc (ih.mpr (.inl h))
      · have hc : c.Passes p := hcs c (by simp)
        exact .later hc (ih.mpr (.inr ⟨fun d hd => hcs d (by simp [hd]), h⟩))

/-- The first failing check splits the list into checks that pass and checks that do not matter. -/
theorem firstFault_iff :
    FirstFault p cs fault ↔
      ∃ passed check rest, cs = passed ++ check :: rest ∧ (∀ c ∈ passed, c.Passes p) ∧
        ¬ check.Passes p ∧ fault = check.fault p := by
  constructor
  · intro h
    induction h with
    | @here c cs hc => exact ⟨[], c, cs, rfl, by simp, hc, rfl⟩
    | @later c cs fault hc _ ih =>
      obtain ⟨passed, check, rest, rfl, hpassed, hcheck, hfault⟩ := ih
      exact ⟨c :: passed, check, rest, rfl, by simpa [hc] using hpassed, hcheck, hfault⟩
  · rintro ⟨passed, check, rest, rfl, hpassed, hcheck, rfl⟩
    exact firstFault_append.mpr (.inr ⟨hpassed, .here hcheck⟩)

end Check

namespace Clause

def targetedChecks (t : Target) (op v : Value) : List Check :=
  [.isOperator op, .operandFits op v, .admitted t, .legal t]

def checks (c : Clause) : List Check :=
  match c.subject.target?, c.object.target? with
  | some subject, some object =>
      [.admitted subject, .legal subject, .admitted object, .legal object,
        .isOperator c.operator, .isComparison c.operator]
  | none, none => [.isOperator c.operator, .isComparison c.operator]
  | some t, none => targetedChecks t c.operator c.object
  | none, some t => targetedChecks t c.operator c.subject

def targets (c : Clause) : List Target :=
  c.subject.target?.toList ++ c.object.target?.toList

end Clause

namespace Filter

mutual

def contentChecks : Value → List Check
  | .filter statements => statementsChecks statements
  | v@(.clause subject op object) => .isClause v :: Clause.checks ⟨subject, op, object⟩
  | v => [.isClause v]
termination_by structural v => v

def statementChecks : Value → List Check
  | v@(.statement content conj) => .isStatement v :: .isConjunction conj :: contentChecks content
  | v => [.isStatement v]
termination_by structural v => v

def statementsChecks : List Value → List Check
  | [] => []
  | v :: vs => statementChecks v ++ statementsChecks vs
termination_by structural vs => vs

end

mutual

def contentTargets : Value → List Target
  | .filter statements => statementsTargets statements
  | .clause subject op object => Clause.targets ⟨subject, op, object⟩
  | _ => []
termination_by structural v => v

def statementTargets : Value → List Target
  | .statement content _ => contentTargets content
  | _ => []
termination_by structural v => v

def statementsTargets : List Value → List Target
  | [] => []
  | v :: vs => statementTargets v ++ statementsTargets vs
termination_by structural vs => vs

end

/-- The targets that stand as an operand of a clause anywhere in the filter, in document order. -/
def targets (f : Filter) : List Target :=
  statementsTargets f.statements

/-- All checks of a conversion; those of the required fields come last. -/
def checks (f : Filter) (p : Policy) : List Check :=
  statementsChecks f.statements ++
    p.require.map fun field => .mentioned field (f.targets.map Target.field)

end Filter
end FilterQuery
