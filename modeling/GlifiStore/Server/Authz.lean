import GlifiStore.Server.Protocol

/-!
# Authorization

The grants of principals and the check of a request against the grant of its
connection.
-/

namespace GlifiStore.Server

/-- A set of capabilities, one bit each. -/
abbrev Capability := BitVec 8

namespace Capability

def none : Capability := 0
def read : Capability := 1
def write : Capability := 2
def admin : Capability := 4

end Capability

def hasCapability (set needle : Capability) : Bool :=
  set &&& needle = needle

/-- An empty prefix leaves the keys unrestricted. -/
structure AuthzGrant where
  capabilities : Capability := Capability.none
  keyPrefix : Bytes := []
  deriving DecidableEq, Repr

structure AuthzPolicy where
  enabled : Bool
  principals : List (Bytes × AuthzGrant)

def AuthzPolicy.grantFor (policy : AuthzPolicy) (principal : Bytes) : AuthzGrant :=
  if ¬ policy.enabled ∨ principal = [] then {}
  else (policy.principals.lookup principal).getD {}

def requiredCapability (opcode : RequestOpcode) (keyPrefix : Bytes) : Capability :=
  match opcode with
  | .init | .bindWorker | .health | .ready => Capability.none
  | .ping | .get => Capability.read
  -- A principal with a prefix must not observe the whole daemon.
  | .stats => if keyPrefix = [] then Capability.read else Capability.admin
  | .backup => Capability.admin
  | .put | .erase => Capability.write

def opcodeRequiresKeyPrefixCheck : RequestOpcode → Bool
  | .get | .put | .erase => true
  | .init | .ping | .bindWorker | .health | .ready | .stats | .backup => false

def keyMatchesPrefix (keyPrefix key : Bytes) : Bool :=
  if keyPrefix = [] then true
  else if key.length < keyPrefix.length then false
  else key.take keyPrefix.length = keyPrefix

def authorizeOpcode (policy : AuthzPolicy) (granted : Capability) (opcode : RequestOpcode)
    (keyPrefix : Bytes) : Bool :=
  if ¬ policy.enabled then true
  else
    let needed := requiredCapability opcode keyPrefix
    if needed = Capability.none then true else hasCapability granted needed

def authorizeRequest (policy : AuthzPolicy) (granted : Capability) (keyPrefix : Bytes)
    (opcode : RequestOpcode) (key : Bytes) : Bool :=
  if ¬ authorizeOpcode policy granted opcode keyPrefix then false
  else if ¬ policy.enabled ∨ ¬ opcodeRequiresKeyPrefixCheck opcode then true
  else keyMatchesPrefix keyPrefix key

end GlifiStore.Server
