import DeviceClient.FlagSet
import DeviceClient.Identity
import DeviceClient.Representation

namespace DeviceClient

inductive Permission where
  | create | retrieve | update | delete | notify
  deriving DecidableEq

namespace Permission

def position : Permission → Nat
  | create => 0
  | retrieve => 1
  | update => 2
  | delete => 3
  | notify => 4

def name : Permission → String
  | create => "CREATE"
  | retrieve => "RETRIEVE"
  | update => "UPDATE"
  | delete => "DELETE"
  | notify => "NOTIFY"

instance : FlagFamily Permission where
  width := 8
  all := [create, retrieve, update, delete, notify]
  mem_all f := by cases f <;> decide
  position := position
  position_lt f := by cases f <;> decide
  name := name

end Permission

abbrev Permissions := FlagSet Permission

/-- How a client is connected. -/
inductive ConnectionType where
  | anonymousClear | authenticatedEncrypted
  deriving DecidableEq

namespace ConnectionType

def name : ConnectionType → String
  | anonymousClear => "anon-clear"
  | authenticatedEncrypted => "auth-crypt"

def ofName? (name : String) : Option ConnectionType :=
  [anonymousClear, authenticatedEncrypted].find? fun c => c.name == name

end ConnectionType

/-- Those to whom permissions are granted. -/
inductive Subject where
  | device (id : DeviceId)
  | role (role : String) (authority : Option String)
  | connection (type : ConnectionType)
  deriving DecidableEq

/-- The resources that an entry covers: one path, or all of a kind. -/
inductive Target where
  | path (href : String)
  | discoverable
  | nonDiscoverable
  | everything
  deriving DecidableEq

namespace Target

def text : Target → String
  | path href => href
  | discoverable => "+"
  | nonDiscoverable => "-"
  | everything => "*"

/-- The target of a wildcard text. -/
def ofWildcard? (s : String) : Option Target :=
  [discoverable, nonDiscoverable, everything].find? fun t => t.text == s

def representation (t : Target) : Representation :=
  match t with
  | path href => [("href", .text href)]
  | discoverable | nonDiscoverable | everything => [("wc", .text t.text)]

end Target

@[ext] structure AccessEntry where
  subject : Subject
  targets : List Target
  permissions : Permissions
  deriving DecidableEq

namespace AccessEntry

/-- Why an entry cannot be provisioned. -/
inductive Fault where
  | noTarget | emptyRole | emptyAuthority
  deriving DecidableEq

def Fault.message : Fault → String
  | noTarget => "an access control entry must cover at least one resource"
  | emptyRole => "an access control entry role must not be empty"
  | emptyAuthority => "an access control entry role authority must not be empty"

def fault? (a : AccessEntry) : Option Fault :=
  if a.targets.isEmpty then some .noTarget
  else
    match a.subject with
    | .role role authority =>
      if role.isEmpty then some .emptyRole
      else if authority = some "" then some .emptyAuthority
      else none
    | _ => none

/-- The representation of a subject, property by property. -/
def representSubject? : Subject → Option Representation
  | .device id => Representation.insert? [] "uuid" (.text id.text)
  | .role role authority => do
    let r ← Representation.insert? [] "role" (.text role)
    match authority with
    | some authority => r.insert? "authority" (.text authority)
    | none => return r
  | .connection type => Representation.insert? [] "conntype" (.text type.name)

/-- The representation that a device is sent, property by property. -/
def represent? (a : AccessEntry) : Option Representation := do
  let subject ← representSubject? a.subject
  let r ← Representation.insert? [] "subject" (.object subject)
  let r ← r.insert? "resources" (.objects (a.targets.map Target.representation))
  r.insert? "permission" (.int (Int64.ofNat a.permissions.bits.toNat))

end AccessEntry

end DeviceClient
