import FilterQuery.Target.Basic

/-!
# Notices

A notice tells a caller why a policy could not be made or a filter not converted. Some notices are
about a target or a field and word themselves; the others carry a message, which is a text as a
rule but may be any value. A notice is reported as a mapping that starts with a code.
-/

namespace FilterQuery
namespace Notice

inductive Family where
  | general
  | config
  | convert
  deriving DecidableEq, Repr

namespace Family

def code : Family → String
  | general => "FilterConversionError"
  | config => "CONFIG_ERROR"
  | convert => "CONVERT_ERROR"

def defaultMessage : Family → String
  | general => "Filter conversion failed."
  | config => "Invalid field policy settings."
  | convert => "Invalid filter.  Unable to convert."

end Family

inductive Remark where
  | denied
  | nonallowed
  | required
  deriving DecidableEq, Repr

namespace Remark

def code : Remark → String
  | denied => "DENIED_FIELD"
  | nonallowed => "NONALLOWED_FIELD"
  | required => "REQUIRED_FIELD"

/-- The words in front of the field's name. -/
def lead : Remark → String
  | denied => "Black listed field encountered: "
  | nonallowed => "Non-white listed field encountered: "
  | required => "Missing required field: "

end Remark
end Notice

inductive Notice where
  | worded (family : Notice.Family) (message : Value)
  | target (t : Target)
  | field (remark : Notice.Remark) (name : Name)

namespace Notice

/-- A notice with the given message, or with the family's own when that is null. -/
def ofMessage (family : Family) : Value → Notice
  | .null => worded family (.string family.defaultMessage)
  | message => worded family message

def message : Notice → Value
  | worded _ message => message
  | target t => .string ("Invalid target encountered: " ++ t.pointer)
  | field remark name => .string (remark.lead ++ name.text)

def text (n : Notice) : String :=
  n.message.text

def report (n : Notice) : Value :=
  .mapping <|
    match n with
    | worded family message => [("error", .string family.code), ("message", message)]
    | target t =>
        [("error", .string "INVALID_TARGET"), ("pointer", .string t.pointer), ("path", .list t.path)]
    | field remark name =>
        [("error", .string remark.code), ("field", name.toValue), ("message", n.message)]

end Notice
end FilterQuery
