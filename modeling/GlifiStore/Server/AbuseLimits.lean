import GlifiStore.Core.Types

/-!
# Abuse limits

Rates per second of accepted connections, of requests of a connection and of requests and
bytes of a principal. Each rate is charged to a window that begins with the first charge
after the window before it is over; a limit of zero is none.
-/

namespace GlifiStore.Server

structure AbuseLimits where
  maxAcceptsPerSec : Nat := 0
  connectionMaxRequestsPerSec : Nat := 0
  principalMaxRequestsPerSec : Nat := 0
  principalMaxBytesPerSec : Nat := 0
  deriving DecidableEq, Repr

/-- One second, in the nanoseconds of the steady clock. -/
def kWindow : Nat := 1000000000

def kMaxPrincipalEntries : Nat := 4096

/-- A window with the time it began at; one that has not begun has the time 0. -/
structure RateWindow where
  start : Nat := 0
  used : Nat := 0
  deriving DecidableEq, Repr

def RateWindow.ended (window : RateWindow) (now : Nat) : Bool :=
  decide (window.start = 0) || decide (now - window.start ≥ kWindow)

def RateWindow.current (window : RateWindow) (now : Nat) : RateWindow :=
  if window.ended now then ⟨now, 0⟩ else window

def tryConsume (window : RateWindow) (amount limit now : Nat) : Bool × RateWindow :=
  if limit = 0 then (true, window)
  else
    let current := window.current now
    if amount > limit ∨ current.used > limit - amount then (false, current)
    else (true, { current with used := current.used + amount })

structure PrincipalWindow where
  requests : RateWindow := {}
  bytes : RateWindow := {}
  deriving DecidableEq, Repr

structure AbuseController where
  limits : AbuseLimits
  acceptWindow : RateWindow := {}
  principals : AList fun _ : Bytes => PrincipalWindow := ∅
  acceptsRejected : Nat := 0
  connectionRateRejected : Nat := 0
  principalRequestRejected : Nat := 0
  principalBandwidthRejected : Nat := 0

namespace AbuseController

variable (controller : AbuseController) (principal : Bytes)

/-- The entry of a principal, which is made when there is room for it. -/
def entry : Option PrincipalWindow :=
  match controller.principals.lookup principal with
  | some found => some found
  | none =>
    if controller.principals.entries.length ≥ kMaxPrincipalEntries then none else some {}

def setEntry (entry : PrincipalWindow) : AbuseController :=
  { controller with principals := controller.principals.insert principal entry }

def tryAdmitPrincipal (bytes now : Nat) : Bool × AbuseController :=
  if controller.limits.principalMaxRequestsPerSec = 0 ∧
      controller.limits.principalMaxBytesPerSec = 0 then
    (true, controller)
  else if principal = [] then (true, controller)
  else
    match controller.entry principal with
    | none =>
      (false,
        { controller with principalRequestRejected := controller.principalRequestRejected + 1 })
    | some entry =>
      let requests :=
        tryConsume entry.requests 1 controller.limits.principalMaxRequestsPerSec now
      if ¬ requests.1 then
        let refused := controller.setEntry principal { entry with requests := requests.2 }
        (false, { refused with principalRequestRejected := refused.principalRequestRejected + 1 })
      else
        let charged :=
          tryConsume entry.bytes bytes controller.limits.principalMaxBytesPerSec now
        if ¬ charged.1 then
          -- The request is taken back; its count was zero when requests are not limited.
          let refused := controller.setEntry principal
            { requests := { requests.2 with used := requests.2.used - 1 }, bytes := charged.2 }
          (false,
            { refused with
              principalBandwidthRejected := refused.principalBandwidthRejected + 1 })
        else (true, controller.setEntry principal ⟨requests.2, charged.2⟩)

/-- `record_principal_response_bytes`: whether the charge succeeds makes no difference. -/
def recordPrincipalResponseBytes (bytes now : Nat) : AbuseController :=
  if controller.limits.principalMaxBytesPerSec = 0 ∨ principal = [] ∨ bytes = 0 then controller
  else
    match controller.entry principal with
    | none => controller
    | some entry =>
      let charged := tryConsume entry.bytes bytes controller.limits.principalMaxBytesPerSec now
      controller.setEntry principal { entry with bytes := charged.2 }

end AbuseController

end GlifiStore.Server
