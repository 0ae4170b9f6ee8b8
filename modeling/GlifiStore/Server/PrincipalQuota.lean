import GlifiStore.Lib.Runs
import GlifiStore.Server.AbuseLimits

/-!
# The quota of a principal

Requests and responses of a principal are charged to one window. A response that does not
fit is not charged at all, and later requests are admitted as if it had not been. Where
every response fits, a request is admitted only within the limit.
-/

namespace GlifiStore.Server

open Runs

/-- Bytes of an admitted request or of a reported response. -/
structure Charge where
  principal : Bytes
  time : Nat
  bytes : Nat
  deriving DecidableEq, Repr

/-- The controller, with everything that was admitted or reported. -/
structure QuotaState where
  controller : AbuseController
  charges : List Charge := []

inductive QuotaEvent where
  | request (principal : Bytes) (bytes now : Nat)
  | respond (principal : Bytes) (bytes now : Nat)
  deriving DecidableEq, Repr

def QuotaEvent.time : QuotaEvent → Nat
  | .request _ _ now | .respond _ _ now => now

def spentSince (charges : List Charge) (principal : Bytes) (start : Nat) : Nat :=
  ((charges.filter fun charge => charge.principal = principal ∧ start ≤ charge.time).map
    Charge.bytes).sum

namespace QuotaState

variable (state : QuotaState)

def step : QuotaEvent → QuotaState
  | .request principal bytes now =>
    let answer := state.controller.tryAdmitPrincipal principal bytes now
    { controller := answer.2
      charges := if answer.1 then state.charges ++ [⟨principal, now, bytes⟩] else state.charges }
  | .respond principal bytes now =>
    { controller := state.controller.recordPrincipalResponseBytes principal bytes now
      charges := state.charges ++ [⟨principal, now, bytes⟩] }

def bytesWindow (principal : Bytes) (now : Nat) : RateWindow :=
  ((state.controller.entry principal).getD {}).bytes.current now

def requestCount (controller : AbuseController) (principal : Bytes) (now : Nat) : Nat :=
  (((controller.principals.lookup principal).getD {}).requests.current now).used

/-- What a step may do: a request is admitted only within the limit of the second it falls
in, and a request refused for its bytes is not counted. -/
def Lawful : QuotaEvent → Prop
  | .request principal bytes now =>
    let limit := state.controller.limits.principalMaxBytesPerSec
    let answer := state.controller.tryAdmitPrincipal principal bytes now
    let start := (state.bytesWindow principal now).start
    (answer.1 → principal ≠ [] → limit ≠ 0 →
      now < start + kWindow ∧ bytes + spentSince state.charges principal start ≤ limit) ∧
    (state.controller.principalBandwidthRejected < answer.2.principalBandwidthRejected →
      requestCount answer.2 principal now = requestCount state.controller principal now)
  | .respond _ _ _ => True

/-- The clock has begun, and a response fits what is left of its window. -/
def Fits : QuotaEvent → Prop
  | .request _ _ now => now ≠ 0
  | .respond principal bytes now =>
    now ≠ 0 ∧ ∀ entry, principal ≠ [] → state.controller.entry principal = some entry →
      state.controller.limits.principalMaxBytesPerSec ≠ 0 →
        (entry.bytes.current now).used + bytes ≤ state.controller.limits.principalMaxBytesPerSec

end QuotaState

/-! ## Sums of charges -/

variable {charges : List Charge} {principal : Bytes} {clock now : Nat}

section Sums

variable {charge : Charge} {start : Nat}

theorem spentSince_append :
    spentSince (charges ++ [charge]) principal start =
      spentSince charges principal start +
        if charge.principal = principal ∧ start ≤ charge.time then charge.bytes else 0 := by
  unfold spentSince
  rw [List.filter_append, List.map_append, List.sum_append]
  congr 1
  by_cases counted : charge.principal = principal ∧ start ≤ charge.time <;> simp [counted]

theorem spentSince_eq_zero
    (none : ∀ charge ∈ charges, charge.principal = principal → start ≤ charge.time →
      charge.bytes = 0) : spentSince charges principal start = 0 := by
  unfold spentSince
  refine List.sum_eq_zero fun bytes member => ?_
  obtain ⟨charge, counted, rfl⟩ := List.mem_map.mp member
  obtain ⟨inside, conditions⟩ := List.mem_filter.mp counted
  simp only [decide_eq_true_eq] at conditions
  exact none charge inside conditions.1 conditions.2

end Sums

/-! ## Windows -/

section Windows

variable {window : RateWindow} {amount limit : Nat}

theorem current_start_ne_zero (later : now ≠ 0) : (window.current now).start ≠ 0 := by
  unfold RateWindow.current
  split
  · exact later
  · next running =>
    simp only [RateWindow.ended, Bool.or_eq_true, decide_eq_true_eq, not_or] at running
    exact running.1

theorem lt_current_start (window : RateWindow) (now : Nat) :
    now < (window.current now).start + kWindow := by
  have second : 0 < kWindow := by decide
  unfold RateWindow.current
  split
  · exact Nat.lt_add_of_pos_right second
  · next running =>
    simp only [RateWindow.ended, Bool.or_eq_true, decide_eq_true_eq, not_or] at running
    omega

theorem tryConsume_eq (window : RateWindow) (amount now : Nat) (limited : limit ≠ 0) :
    tryConsume window amount limit now =
      if (window.current now).used + amount ≤ limit then
        (true, { window.current now with used := (window.current now).used + amount })
      else (false, window.current now) := by
  unfold tryConsume
  rw [if_neg limited]
  by_cases fits : (window.current now).used + amount ≤ limit
  · rw [if_pos fits, if_neg (by omega)]
  · rw [if_neg fits, if_pos (by omega)]

/-- The window has the bytes of the principal since it began. -/
structure Booked (charges : List Charge) (principal : Bytes) (window : RateWindow) (clock : Nat) :
    Prop where
  began : window.start ≤ clock
  fresh : window.start = 0 → ∀ charge ∈ charges, charge.principal = principal → charge.bytes = 0
  used : window.start ≠ 0 → window.used = spentSince charges principal window.start
  recent : window.start ≠ 0 → ∀ charge ∈ charges, charge.principal = principal →
    charge.bytes ≠ 0 → charge.time < window.start + kWindow

theorem Booked.current (booked : Booked charges principal window clock)
    (past : ∀ charge ∈ charges, charge.time ≤ clock) (later : clock ≤ now) (running : now ≠ 0) :
    Booked charges principal (window.current now) now := by
  have second : 0 < kWindow := by decide
  unfold RateWindow.current
  by_cases ended : window.ended now
  · rw [if_pos ended]
    refine ⟨le_rfl, fun none => absurd none running, fun _ => ?_, fun _ charge member _ _ => ?_⟩
    · -- Every charge is from before the window that is over, or from within it.
      refine (spentSince_eq_zero fun charge member own since => ?_).symm
      by_contra some
      simp only [RateWindow.ended, Bool.or_eq_true, decide_eq_true_eq] at ended
      by_cases begun : window.start = 0
      · exact some (booked.fresh begun charge member own)
      · have recent := booked.recent begun charge member own some
        have elapsed := ended.resolve_left begun
        have since : now ≤ charge.time := since
        omega
    · have := past charge member
      show charge.time < now + kWindow
      omega
  · rw [if_neg ended]
    exact ⟨Nat.le_trans booked.began later, booked.fresh, booked.used, booked.recent⟩

theorem Booked.charge (booked : Booked charges principal window now) (running : window.start ≠ 0)
    (inside : now < window.start + kWindow) :
    Booked (charges ++ [⟨principal, now, amount⟩]) principal
      { window with used := window.used + amount } now where
  began := booked.began
  fresh none := absurd none running
  used _ := by
    show window.used + amount = spentSince _ principal window.start
    rw [spentSince_append, if_pos ⟨rfl, booked.began⟩, booked.used running]
  recent _ := List.forall_mem_append.mpr
    ⟨booked.recent running, List.forall_mem_singleton.mpr fun _ _ => inside⟩

theorem Booked.other (booked : Booked charges principal window clock) {charge : Charge}
    (later : clock ≤ now) (elsewhere : charge.principal = principal → charge.bytes = 0) :
    Booked (charges ++ [charge]) principal window now where
  began := Nat.le_trans booked.began later
  fresh none := List.forall_mem_append.mpr
    ⟨booked.fresh none, List.forall_mem_singleton.mpr elsewhere⟩
  used running := by
    rw [spentSince_append, booked.used running]
    split
    · next counted => rw [elsewhere counted.1, Nat.add_zero]
    · rfl
  recent running := List.forall_mem_append.mpr
    ⟨booked.recent running, List.forall_mem_singleton.mpr fun own some => absurd (elsewhere own) some⟩

theorem Booked.later (booked : Booked charges principal window clock) (later : clock ≤ now) :
    Booked charges principal window now :=
  ⟨Nat.le_trans booked.began later, booked.fresh, booked.used, booked.recent⟩

end Windows

/-! ## Books -/

/-- Every window has the bytes of its principal; a principal without an entry has none, or
never gets one. -/
structure Books (state : QuotaState) (clock : Nat) : Prop where
  past : ∀ charge ∈ state.charges, charge.time ≤ clock
  booked : state.controller.limits.principalMaxBytesPerSec ≠ 0 →
    ∀ principal ≠ [], ∀ entry, state.controller.principals.lookup principal = some entry →
      Booked state.charges principal entry.bytes clock
  absent : state.controller.limits.principalMaxBytesPerSec ≠ 0 →
    ∀ principal ≠ [], state.controller.principals.lookup principal = none →
      kMaxPrincipalEntries ≤ state.controller.principals.entries.length ∨
        ∀ charge ∈ state.charges, charge.principal = principal → charge.bytes = 0
  uncounted : state.controller.limits.principalMaxRequestsPerSec = 0 →
    ∀ principal entry, state.controller.principals.lookup principal = some entry →
      entry.requests.used = 0

theorem books_initial (limits : AbuseLimits) : Books { controller := { limits } } 0 where
  past := by simp
  booked _ _ _ _ found := absurd found (by simp)
  absent _ _ _ _ := .inr (by simp)
  uncounted _ _ _ found := absurd found (by simp)

variable {state : QuotaState} {bytes : Nat} {window : PrincipalWindow}

theorem entry_cases {controller : AbuseController}
    (found : controller.entry principal = some window) :
    controller.principals.lookup principal = some window ∨
      controller.principals.lookup principal = none ∧ window = {} ∧
        controller.principals.entries.length < kMaxPrincipalEntries := by
  unfold AbuseController.entry at found
  split at found
  · next present => exact .inl (present.trans found)
  · next missing =>
    split at found
    · cases found
    · next room => exact .inr ⟨missing, (Option.some.inj found).symm, Nat.lt_of_not_le room⟩

theorem Books.entry (books : Books state clock) (named : principal ≠ [])
    (limited : state.controller.limits.principalMaxBytesPerSec ≠ 0)
    (found : state.controller.entry principal = some window) :
    Booked state.charges principal window.bytes clock := by
  rcases entry_cases found with present | ⟨missing, rfl, room⟩
  · exact books.booked limited principal named window present
  · have none := (books.absent limited principal named missing).resolve_left (by omega)
    exact ⟨Nat.zero_le _, fun _ => none, fun running => absurd rfl running,
      fun running => absurd rfl running⟩

theorem Books.requests (books : Books state clock)
    (unlimited : state.controller.limits.principalMaxRequestsPerSec = 0)
    (found : state.controller.entry principal = some window) : window.requests.used = 0 := by
  rcases entry_cases found with present | ⟨-, rfl, -⟩
  · exact books.uncounted unlimited principal window present
  · rfl

theorem length_entries_insert (principals : AList fun _ : Bytes => PrincipalWindow)
    (principal : Bytes) (window : PrincipalWindow) :
    principals.entries.length ≤ (principals.insert principal window).entries.length := by
  have keys := congrArg List.length (@AList.keys_insert _ _ _ principal window principals)
  simp only [AList.keys, List.keys, List.length_cons, List.length_erase, List.length_map] at keys
  rw [keys]
  split <;> omega

theorem Books.set (books : Books state clock) (later : clock ≤ now) (bytes : Nat)
    {after : QuotaState}
    (limits : after.controller.limits = state.controller.limits)
    (principals : after.controller.principals = state.controller.principals.insert principal window)
    (charges : after.charges = state.charges ∨
      after.charges = state.charges ++ [⟨principal, now, bytes⟩])
    (booked : state.controller.limits.principalMaxBytesPerSec ≠ 0 →
      Booked after.charges principal window.bytes now)
    (uncounted : state.controller.limits.principalMaxRequestsPerSec = 0 →
      window.requests.used = 0) : Books after now := by
  have charged (charge : Charge) (member : charge ∈ after.charges) :
      charge ∈ state.charges ∨ charge = ⟨principal, now, bytes⟩ := by
    rcases charges with same | more
    · exact .inl (same ▸ member)
    · rwa [more, List.mem_append, List.mem_singleton] at member
  refine ⟨fun charge member => ?_, ?_, ?_, ?_⟩
  · rcases charged charge member with old | rfl
    · exact Nat.le_trans (books.past charge old) later
    · exact Nat.le_refl _
  · rw [limits, principals]
    intro limited other named found present
    by_cases own : other = principal
    · subst own
      rw [AList.lookup_insert] at present
      obtain rfl := Option.some.inj present
      exact booked limited
    · rw [AList.lookup_insert_ne own] at present
      have held := books.booked limited other named found present
      rcases charges with same | more
      · rw [same]
        exact held.later later
      · rw [more]
        exact held.other later fun same => absurd same.symm own
  · rw [limits, principals]
    intro limited other named missing
    obtain ⟨own, before⟩ := AList.lookup_insert_eq_none.mp missing
    refine (books.absent limited other named before).imp
      (fun full => Nat.le_trans full (length_entries_insert _ _ _)) fun none charge member same => ?_
    rcases charged charge member with old | rfl
    · exact none charge old same
    · exact absurd same.symm own
  · rw [limits, principals]
    intro unlimited other found present
    by_cases own : other = principal
    · subst own
      rw [AList.lookup_insert] at present
      obtain rfl := Option.some.inj present
      exact uncounted unlimited
    · rw [AList.lookup_insert_ne own] at present
      exact books.uncounted unlimited other found present

theorem lookup_of_entry_none (missing : state.controller.entry principal = none) :
    state.controller.principals.lookup principal = none ∧
      kMaxPrincipalEntries ≤ state.controller.principals.entries.length := by
  unfold AbuseController.entry at missing
  split at missing
  · cases missing
  · next absent =>
    split at missing
    · next full => exact ⟨absent, full⟩
    · cases missing

/-- A call that sets no entry. Its charge is not counted: it has no principal or no bytes,
or its principal never gets an entry. -/
theorem Books.skip (books : Books state clock) (later : clock ≤ now) (principal : Bytes)
    (bytes : Nat) {after : QuotaState}
    (limits : after.controller.limits = state.controller.limits)
    (principals : after.controller.principals = state.controller.principals)
    (charges : after.charges = state.charges ∨
      after.charges = state.charges ++ [⟨principal, now, bytes⟩] ∧
        (state.controller.limits.principalMaxBytesPerSec ≠ 0 → principal ≠ [] → bytes ≠ 0 →
          state.controller.entry principal = none)) : Books after now where
  past := by
    have old (charge : Charge) (member : charge ∈ state.charges) : charge.time ≤ now :=
      Nat.le_trans (books.past charge member) later
    rcases charges with same | ⟨more, -⟩
    · rwa [same]
    · rw [more]
      exact List.forall_mem_append.mpr ⟨old, List.forall_mem_singleton.mpr le_rfl⟩
  booked := by
    rw [limits, principals]
    intro limited other named found present
    have held := books.booked limited other named found present
    rcases charges with same | ⟨more, ignored⟩
    · rw [same]
      exact held.later later
    · rw [more]
      refine held.other later fun own => ?_
      obtain rfl : principal = other := own
      by_contra some
      have missing := (lookup_of_entry_none (ignored limited named some)).1
      rw [present] at missing
      exact absurd missing nofun
  absent := by
    rw [limits, principals]
    intro limited other named missing
    refine (books.absent limited other named missing).elim .inl fun none => ?_
    rcases charges with same | ⟨more, ignored⟩
    · rw [same]
      exact .inr none
    · by_cases silent : principal = other → bytes = 0
      · rw [more]
        exact .inr (List.forall_mem_append.mpr ⟨none, List.forall_mem_singleton.mpr silent⟩)
      · obtain ⟨own, some⟩ := Classical.not_imp.mp silent
        exact .inl (lookup_of_entry_none (ignored limited (own ▸ named) some)).2
  uncounted := by
    rw [limits, principals]
    exact books.uncounted

theorem Books.consume (books : Books state clock) (named : principal ≠ [])
    (limited : state.controller.limits.principalMaxBytesPerSec ≠ 0)
    (found : state.controller.entry principal = some window) (later : clock ≤ now)
    (running : now ≠ 0) {charged : Bool × RateWindow}
    (consumed : tryConsume window.bytes bytes state.controller.limits.principalMaxBytesPerSec now =
      charged) :
    if charged.1 then
      Booked (state.charges ++ [⟨principal, now, bytes⟩]) principal charged.2 now ∧
        bytes + spentSince state.charges principal (window.bytes.current now).start ≤
          state.controller.limits.principalMaxBytesPerSec
    else Booked state.charges principal charged.2 now := by
  have current := (books.entry named limited found).current books.past later running
  have inside := lt_current_start window.bytes now
  have begun : (window.bytes.current now).start ≠ 0 := current_start_ne_zero running
  rw [tryConsume_eq _ _ _ limited] at consumed
  split at consumed
  · next fits =>
    subst consumed
    rw [current.used begun] at fits
    rw [if_pos rfl]
    exact ⟨current.charge begun inside, by omega⟩
  · subst consumed
    exact current

end GlifiStore.Server
