import FilterQuery.Fault

/-!
# Policies from settings

A policy is made from a list of entries for each of its three settings. An entry is the name of a
field or a pointer, and a pointer is reduced to its first segment. The first entry that cannot be
read decides the fault.

That the settings are read in the order allow, deny, require, and that allow and deny are held
against each other only when all three have been read, is an assumption: these steps are made by a
validation library that is not part of this development. Settings are mappings whose keys are
strings; a mapping with a key of another kind is left out.
-/

namespace FilterQuery
namespace Policy

/-- The field that an entry stands for, unless its first segment has a bad escape. -/
def entryField? (entry : String) : Option String :=
  match entry.toList with
  | '/' :: cs => (Pointer.unescape? (cs.takeWhile (· ≠ '/'))).map String.ofList
  | _ => some entry

def readEntry (setting : Setting) (v : Value) : Except Fault String :=
  match v.string? with
  | none => .error (.config (.notStrings setting))
  | some entry =>
    match entryField? entry with
    | none => .error (.config (.badPointer setting entry))
    | some field => .ok field

/-- The fields of one setting; a setting that is null has none. -/
def readSetting (setting : Setting) : Value → Except Fault (List String)
  | .null => .ok []
  | .list entries | .tuple entries | .set entries | .sealedSet entries =>
      entries.mapM (readEntry setting)
  | _ => .error (.config (.notList setting))

/-- Allow and deny lists keep the first of repeated fields, the required fields stay as given. -/
def ofFields (allow deny require : List String) : Except Fault Policy :=
  if exclusive : allow.eraseDups = [] ∨ deny.eraseDups = [] then
    .ok ⟨allow.eraseDups, deny.eraseDups, require, exclusive⟩
  else .error (.config .allowAndDeny)

def ofLists (allow deny require : Value) : Except Fault Policy := do
  let allow ← readSetting .allow allow
  let deny ← readSetting .deny deny
  let require ← readSetting .require require
  ofFields allow deny require

/-- The value under a key; a missing key counts as null. -/
def entryValue (entries : List (String × Value)) (setting : Setting) : Value :=
  (entries.lookup setting.name).getD .null

/-- Reads the three settings and passes over everything else. -/
def ofEntries (entries : List (String × Value)) : Except Fault Policy :=
  ofLists (entryValue entries .allow) (entryValue entries .deny) (entryValue entries .require)

def isSettingName (name : String) : Bool :=
  [Setting.allow, .deny, .require].any fun setting => setting.name == name

def sortedNames (names : List String) : List String :=
  names.mergeSort fun a b => a ≤ b

def unknownNames (entries : List (String × Value)) : List String :=
  sortedNames ((entries.map (·.1)).filter fun name => !isSettingName name)

/-- Reads settings from a mapping that has no other keys. -/
def ofSettings : Value → Except Fault Policy
  | .mapping entries =>
    match unknownNames entries with
    | [] => ofEntries entries
    | names => .error (.config (.unknownSettings names))
  | _ => .error (.config .notMapping)

def check (p : Policy) (field : String) : Except Fault Unit :=
  match p.rejection? field with
  | some .nonallowed => .error (.nonallowed field)
  | some .denied => .error (.denied field)
  | none => .ok ()

theorem check_eq_ok_iff (p : Policy) (field : String) :
    p.check field = .ok () ↔ p.permits field = true := by
  unfold check permits
  split <;> simp_all

end Policy
end FilterQuery
