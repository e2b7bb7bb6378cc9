import DeviceClient.Request

namespace DeviceClient

/-- What a request was sent for. -/
inductive Operation where
  | discovery
  | observe
  | chainStep (method : Method) (index : Nat)
  deriving DecidableEq

/-- Whether the operation goes on after a response, given the sequence number of the response. -/
def Operation.continues (sequence : Option UInt32) : Operation → Bool
  | discovery => true
  | observe => sequence.isSome
  | chainStep _ _ => false

/-- The requests that wait for responses, by token. -/
structure PendingRequests where
  entries : List (Token × Operation)
  /-- The number of the token that was issued last. -/
  issued : UInt64

namespace PendingRequests

def empty : PendingRequests := ⟨[], 0⟩

def find? (p : PendingRequests) (token : Token) : Option Operation := p.entries.lookup token

def contains (p : PendingRequests) (token : Token) : Bool := (p.find? token).isSome

def remove (p : PendingRequests) (token : Token) : PendingRequests :=
  { p with entries := p.entries.filter (·.1 != token) }

/-- Enters an operation under the next token. -/
def register (p : PendingRequests) (operation : Operation) : Token × PendingRequests :=
  let token : Token := ⟨p.issued + 1⟩
  (token, ⟨(token, operation) :: (p.remove token).entries, token.number⟩)

/-- Finds the operation that a response belongs to, and removes it when the response ends it. -/
def correlate (p : PendingRequests) (token : Token) (sequence : Option UInt32) :
    Option Operation × PendingRequests :=
  match p.find? token with
  | none => (none, p)
  | some operation =>
    (some operation, if operation.continues sequence then p else p.remove token)

def clear (p : PendingRequests) : PendingRequests := { p with entries := [] }

def size (p : PendingRequests) : Nat := p.entries.length

end PendingRequests

end DeviceClient
