import FilterQuery.Notice

/-!
# Faults

Everything that can go wrong, by cause. A fault of a conversion or of a policy's settings gives a
notice; the others tell of an argument with an unusable value or of an unusable kind.
-/

namespace FilterQuery

inductive Setting where
  | allow
  | deny
  | require
  deriving DecidableEq, Repr

def Setting.name : Setting → String
  | allow => "allow"
  | deny => "deny"
  | require => "require"

inductive ConfigCause where
  | notMapping
  | unknownSettings (names : List String)
  | notList (setting : Setting)
  | notStrings (setting : Setting)
  | badPointer (setting : Setting) (entry : String)
  | allowAndDeny

inductive ConvertCause where
  /-- A part of the wrong kind for its place. -/
  | malformed
  | unknownOperator (given : Value)
  | unknownConjunction (given : Value)

/-- Why a value cannot be used although its kind is right. -/
inductive ValueCause where
  | emptyPath
  | missingSlash (pointer : String)
  | badEscape (segment : String)
  | indexTooLong (digits : Nat)
  /-- A value has to be written and is not writable. -/
  | numberTooLong
  | notOperator (given : Value)
  | notConjunction (given : Value)
  | noOpenGroup
  | emptyGroup
  | openGroups (count : Nat)
  | nothingAdded

/-- Why the kind of a value is wrong. -/
inductive KindCause where
  | notIterable (given : Value)
  /-- A value that can change stands where it has to be looked up. -/
  | canChange (given : Value)
  | notName (given : Value)
  | notFilter
  | notPolicy

inductive Fault where
  | config (cause : ConfigCause)
  | convert (cause : ConvertCause)
  | invalidTarget (target : Target)
  | denied (field : String)
  | nonallowed (field : String)
  | required (field : String)
  | badValue (cause : ValueCause)
  | badKind (cause : KindCause)

def ConfigCause.message : ConfigCause → String
  | notMapping => "Policy settings must be a mapping"
  | unknownSettings names => "Unknown policy settings: " ++ Text.commaSeparated names
  | notList setting => "Setting \"" ++ setting.name ++ "\" must be a list of fields"
  | notStrings setting => "Setting \"" ++ setting.name ++ "\" must contain strings"
  | badPointer setting entry =>
      "Setting \"" ++ setting.name ++ "\" has an invalid pointer: " ++ Text.quote entry
  | allowAndDeny => "Settings cannot have both \"allow\" and \"deny\""

def ConvertCause.message : ConvertCause → String
  | malformed => Notice.Family.convert.defaultMessage
  | unknownOperator given => "Unknown operator: " ++ given.spelling
  | unknownConjunction given => "Unknown conjunction: " ++ given.spelling

def ValueCause.message : ValueCause → String
  | emptyPath => "Target path must contain at least one segment"
  | missingSlash pointer => "JSON pointer must start with '/': " ++ Text.quote pointer
  | badEscape segment => "Invalid escape in JSON pointer segment: " ++ Text.quote segment
  | indexTooLong digits =>
      "Exceeds the limit (4300 digits) for integer string conversion: value has " ++
        toString digits ++ " digits; use sys.set_int_max_str_digits() to increase the limit"
  | numberTooLong =>
      "Exceeds the limit (4300 digits) for integer string conversion; " ++
        "use sys.set_int_max_str_digits() to increase the limit"
  | notOperator given => given.spelling ++ " is not a valid FilterOperator"
  | notConjunction given => given.spelling ++ " is not a valid Conjunction"
  | noOpenGroup => "No open group to close"
  | emptyGroup => "Cannot create an empty group"
  | openGroups count => toString count ++ " group(s) still open; call end_group() before build()"
  | nothingAdded => "No clauses added to builder"

def KindCause.message : KindCause → String
  | notIterable given => "'" ++ given.kind ++ "' object is not iterable"
  | canChange given => "unhashable type: '" ++ given.kind ++ "'"
  | notName given => "can only concatenate str (not \"" ++ given.kind ++ "\") to str"
  | notFilter => "Argument \"filter_\" must be an instance of Filter"
  | notPolicy => "Argument \"policy\" must be an instance of FieldPolicy"

namespace Fault

def notice? : Fault → Option Notice
  | config cause => some (.worded .config (.string cause.message))
  | convert cause => some (.worded .convert (.string cause.message))
  | invalidTarget target => some (.target target)
  | denied field => some (.field .denied (.plain field))
  | nonallowed field => some (.field .nonallowed (.plain field))
  | required field => some (.field .required (.plain field))
  | badValue _ | badKind _ => none

def message (fault : Fault) : String :=
  match fault with
  | badValue cause => cause.message
  | badKind cause => cause.message
  | fault => (fault.notice?.map Notice.text).getD ""

end Fault

/-- The given fault, unless its message would show a value that is not writable. -/
def Fault.showing (v : Value) (fault : Fault) : Fault :=
  if v.isWritable then fault else .badValue .numberTooLong

namespace Value

def requireWritable (v : Value) : Except Fault Unit :=
  if v.isWritable then .ok () else .error (.badValue .numberTooLong)

def toText (v : Value) : Except Fault String := do
  v.requireWritable
  return v.text

end Value

def Target.toPointer (t : Target) : Except Fault String := do
  t.toValue.requireWritable
  return t.pointer

def Notice.ofTarget (t : Target) : Except Fault Notice := do
  t.toValue.requireWritable
  return .target t

/-- The notice of a remark about a field, which has to be named by a string. -/
def Notice.ofField (remark : Notice.Remark) (v : Value) : Except Fault Notice :=
  match v.name? with
  | some name => .ok (.field remark name)
  | none => .error (.badKind (.notName v))

end FilterQuery
