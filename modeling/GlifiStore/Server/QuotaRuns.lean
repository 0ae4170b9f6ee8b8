import GlifiStore.Server.PrincipalQuota

/-!
# Requests within the quota

Every way a request is answered, and every response that fits, keeps the books; so in a run
whose responses fit, a request is admitted only within the limit. A response that does not
fit is forgotten, and the next request goes over it.
-/

namespace GlifiStore.Server

open Runs

/-! ## Steps -/

section Steps

variable {state : QuotaState} {controller : AbuseController} {clock now bytes : Nat}
  {principal : Bytes} {window : PrincipalWindow}

inductive Admission (controller : AbuseController) (principal : Bytes) (bytes now : Nat) :
    Bool × AbuseController → Prop
  | exempt (free : controller.limits.principalMaxBytesPerSec = 0 ∨ principal = []) :
    Admission controller principal bytes now (true, controller)
  | full (missing : controller.entry principal = none) :
    Admission controller principal bytes now
      (false,
        { controller with principalRequestRejected := controller.principalRequestRejected + 1 })
  | requests (window : PrincipalWindow) (named : principal ≠ [])
    (found : controller.entry principal = some window)
    (limited : controller.limits.principalMaxRequestsPerSec ≠ 0) (refused : AbuseController)
    (limits : refused.limits = controller.limits)
    (principals : refused.principals = controller.principals.insert principal
      { window with requests := window.requests.current now })
    (counter : refused.principalBandwidthRejected = controller.principalBandwidthRejected) :
    Admission controller principal bytes now (false, refused)
  | bandwidth (window : PrincipalWindow) (named : principal ≠ [])
    (found : controller.entry principal = some window)
    (requests charged : RateWindow)
    (counted : tryConsume window.requests 1 controller.limits.principalMaxRequestsPerSec now =
      (true, requests))
    (consumed : tryConsume window.bytes bytes controller.limits.principalMaxBytesPerSec now =
      (false, charged)) (refused : AbuseController) (limits : refused.limits = controller.limits)
    (principals : refused.principals = controller.principals.insert principal
      { requests := { requests with used := requests.used - 1 }, bytes := charged }) :
    Admission controller principal bytes now (false, refused)
  | admitted (window : PrincipalWindow) (named : principal ≠ [])
    (found : controller.entry principal = some window)
    (requests charged : RateWindow)
    (counted : tryConsume window.requests 1 controller.limits.principalMaxRequestsPerSec now =
      (true, requests))
    (consumed : tryConsume window.bytes bytes controller.limits.principalMaxBytesPerSec now =
      (true, charged)) :
    Admission controller principal bytes now
      (true, controller.setEntry principal ⟨requests, charged⟩)

theorem tryConsume_unlimited (amount : Nat) (window : RateWindow) :
    tryConsume window amount 0 now = (true, window) := if_pos rfl

theorem tryAdmitPrincipal_admission (controller : AbuseController) (principal : Bytes)
    (bytes now : Nat) :
    Admission controller principal bytes now (controller.tryAdmitPrincipal principal bytes now) := by
  unfold AbuseController.tryAdmitPrincipal
  split
  · next free => exact .exempt (.inl free.2)
  split
  · next anonymous => exact .exempt (.inr anonymous)
  next named =>
  cases found : controller.entry principal with
  | none => exact .full found
  | some window =>
    rcases counted : tryConsume window.requests 1 controller.limits.principalMaxRequestsPerSec now
      with ⟨_ | _, requests⟩
    · have limited : controller.limits.principalMaxRequestsPerSec ≠ 0 := by
        intro unlimited
        rw [unlimited, tryConsume_unlimited] at counted
        exact absurd counted nofun
      obtain rfl : window.requests.current now = requests := by
        rw [tryConsume_eq _ _ _ limited] at counted
        split at counted
        · exact absurd counted nofun
        · exact (Prod.mk.inj counted).2
      simp only [counted, Bool.false_eq_true, not_false_eq_true, if_true]
      exact .requests window named found limited _ rfl rfl rfl
    · rcases consumed : tryConsume window.bytes bytes controller.limits.principalMaxBytesPerSec now
        with ⟨_ | _, charged⟩
      · simp only [counted, consumed, Bool.false_eq_true, not_false_eq_true, not_true_eq_false,
          if_true, if_false]
        exact .bandwidth window named found requests charged counted consumed _ rfl rfl
      · simp only [counted, consumed, not_true_eq_false, if_false]
        exact .admitted window named found requests charged counted consumed

theorem current_current (window : RateWindow) (running : now ≠ 0) :
    (window.current now).current now = window.current now := by
  by_cases ended : window.ended now
  · have fresh : RateWindow.ended ⟨now, 0⟩ now = false := by
      have second : kWindow ≠ 0 := by decide
      simp [RateWindow.ended, running, second]
    simp [RateWindow.current, ended, fresh]
  · simp [RateWindow.current, ended]

theorem current_uncharged (requests window : RateWindow) (limit : Nat) (running : now ≠ 0)
    (uncounted : limit = 0 → window.used = 0)
    (counted : tryConsume window 1 limit now = (true, requests)) :
    RateWindow.current { requests with used := requests.used - 1 } now = window.current now := by
  by_cases unlimited : limit = 0
  · rw [unlimited, tryConsume_unlimited] at counted
    obtain rfl := (Prod.mk.inj counted).2
    rw [uncounted unlimited, Nat.zero_sub, ← uncounted unlimited]
  · rw [tryConsume_eq _ _ _ unlimited] at counted
    split at counted
    · obtain rfl := (Prod.mk.inj counted).2
      rw [Nat.add_sub_cancel]
      exact current_current window running
    · exact absurd counted nofun

theorem requestCount_of_entry (found : controller.entry principal = some window) :
    QuotaState.requestCount controller principal now = (window.requests.current now).used := by
  have cases := entry_cases found
  unfold QuotaState.requestCount
  rcases cases with present | ⟨missing, rfl, -⟩
  · rw [present]
    rfl
  · rw [missing]
    rfl

theorem Books.refuse (books : Books state clock) (later : clock ≤ now) (running : now ≠ 0)
    {refused : AbuseController}
    (admission : Admission state.controller principal bytes now (false, refused)) :
    Books { state with controller := refused } now ∧
      (state.controller.principalBandwidthRejected < refused.principalBandwidthRejected →
        QuotaState.requestCount refused principal now =
          QuotaState.requestCount state.controller principal now) := by
  cases admission with
  | full missing =>
    exact ⟨books.skip later principal bytes rfl rfl (.inl rfl),
      fun more => absurd more (Nat.lt_irrefl _)⟩
  | requests window named found limited _ limits principals counter =>
    refine ⟨books.set later bytes limits principals (.inl rfl) (fun charged => ?_)
      fun unlimited => absurd unlimited limited, fun more => absurd more (by omega)⟩
    exact (books.entry named charged found).later later
  | bandwidth window named found requests charged counted consumed _ limits principals =>
    have count := current_uncharged requests window.requests _ running
      (fun unlimited => books.requests unlimited found) counted
    refine ⟨books.set later bytes limits principals (.inl rfl) (fun limited => ?_)
      fun unlimited => ?_, fun _ => ?_⟩
    · exact books.consume named limited found later running consumed
    · rw [unlimited, tryConsume_unlimited] at counted
      obtain rfl := (Prod.mk.inj counted).2
      show window.requests.used - 1 = 0
      rw [books.requests unlimited found]
    · rw [requestCount_of_entry found, ← count]
      unfold QuotaState.requestCount
      rw [principals, AList.lookup_insert]
      rfl

theorem Books.admitted (books : Books state clock) (later : clock ≤ now) (running : now ≠ 0)
    {after : AbuseController}
    (admission : Admission state.controller principal bytes now (true, after)) :
    Books ⟨after, state.charges ++ [⟨principal, now, bytes⟩]⟩ now ∧
      (principal ≠ [] → state.controller.limits.principalMaxBytesPerSec ≠ 0 →
        now < (state.bytesWindow principal now).start + kWindow ∧
          bytes + spentSince state.charges principal (state.bytesWindow principal now).start ≤
            state.controller.limits.principalMaxBytesPerSec) ∧
      after.principalBandwidthRejected = state.controller.principalBandwidthRejected := by
  cases admission with
  | exempt free =>
    refine ⟨books.skip later _ _ rfl rfl (.inr ⟨rfl, fun limited named => ?_⟩),
      fun named limited => ?_, rfl⟩
    · exact absurd free (not_or.mpr ⟨limited, named⟩)
    · exact absurd free (not_or.mpr ⟨limited, named⟩)
  | admitted window named found requests charged counted consumed =>
    refine ⟨books.set later _ rfl rfl (.inr rfl) (fun limited => ?_) fun unlimited => ?_,
      fun _ limited => ?_, rfl⟩
    · exact (books.consume named limited found later running consumed).1
    · rw [unlimited, tryConsume_unlimited] at counted
      obtain rfl := (Prod.mk.inj counted).2
      have none := books.requests unlimited found
      exact none
    · have within := (books.consume named limited found later running consumed).2
      rw [QuotaState.bytesWindow, found]
      exact ⟨lt_current_start _ _, within⟩

theorem Books.respond (books : Books state clock) (later : clock ≤ now)
    (fits : state.Fits (.respond principal bytes now)) :
    Books (state.step (.respond principal bytes now)) now := by
  obtain ⟨running, room⟩ := fits
  unfold QuotaState.step AbuseController.recordPrincipalResponseBytes
  dsimp only
  split
  · next free =>
    refine books.skip later _ _ rfl rfl (.inr ⟨rfl, fun limited named some => ?_⟩)
    exact absurd free (by simp [limited, named, some])
  next charged =>
  obtain ⟨limited, named, -⟩ : state.controller.limits.principalMaxBytesPerSec ≠ 0 ∧
      principal ≠ [] ∧ bytes ≠ 0 := by simpa using charged
  cases found : state.controller.entry principal with
  | none => exact books.skip later _ _ rfl rfl (.inr ⟨rfl, fun _ _ _ => found⟩)
  | some window =>
    refine books.set later _ rfl rfl (.inr rfl) (fun _ => ?_) fun unlimited => ?_
    swap
    · have none := books.requests unlimited found
      exact none
    have consumed := tryConsume_eq window.bytes bytes now limited
    rw [if_pos (room window named found limited)] at consumed
    have charged := books.consume named limited found later running consumed
    rw [consumed]
    exact charged.1

theorem Books.step (books : Books state clock) {event : QuotaEvent} (later : clock ≤ event.time)
    (fits : state.Fits event) : Books (state.step event) event.time ∧ state.Lawful event := by
  cases event with
  | respond principal bytes now => exact ⟨books.respond later fits, trivial⟩
  | request principal bytes now =>
    have admission := tryAdmitPrincipal_admission state.controller principal bytes now
    rcases answer : state.controller.tryAdmitPrincipal principal bytes now with ⟨_ | _, after⟩
    · rw [answer] at admission
      obtain ⟨kept, count⟩ := books.refuse later fits admission
      simp only [QuotaState.step, QuotaState.Lawful, answer]
      exact ⟨kept, nofun, count⟩
    · rw [answer] at admission
      obtain ⟨kept, within, counter⟩ := books.admitted later fits admission
      simp only [QuotaState.step, QuotaState.Lawful, answer]
      exact ⟨kept, fun _ => within, fun more => absurd more (by omega)⟩

end Steps

/-! ## Runs -/

def Ordered (clock : Nat) : List QuotaEvent → Prop
  | [] => True
  | event :: rest => clock ≤ event.time ∧ Ordered event.time rest

instance decidableOrdered : ∀ clock events, Decidable (Ordered clock events)
  | _, [] => inferInstanceAs (Decidable True)
  | clock, event :: rest =>
    have := decidableOrdered event.time rest
    inferInstanceAs (Decidable (clock ≤ event.time ∧ Ordered event.time rest))

theorem Books.lawful {state : QuotaState} {clock : Nat} (books : Books state clock)
    {events : List QuotaEvent} (ordered : Ordered clock events)
    (fits : Guarded QuotaState.step QuotaState.Fits state events) :
    Guarded QuotaState.step QuotaState.Lawful state events := by
  induction events generalizing state clock with
  | nil => trivial
  | cons event rest ih =>
    obtain ⟨kept, lawful⟩ := books.step ordered.1 fits.1
    exact ⟨lawful, ih kept ordered.2 fits.2⟩

/-- A run in which every response fits its window keeps every principal within its limit,
whatever the limits are. -/
theorem quota_enforced (limits : AbuseLimits) (events : List QuotaEvent)
    (ordered : Ordered 0 events)
    (fits : Guarded QuotaState.step QuotaState.Fits { controller := { limits } } events) :
    Guarded QuotaState.step QuotaState.Lawful { controller := { limits } } events :=
  (books_initial limits).lawful ordered fits

def narrowLimits : AbuseLimits := { principalMaxBytesPerSec := 10 }

/-- Five bytes, a response of four, and a refused request. -/
def fittingRun : List QuotaEvent :=
  [.request [112] 5 7, .respond [112] 4 8, .request [112] 5 9]

theorem fits_fittingRun :
    Guarded QuotaState.step QuotaState.Fits { controller := { limits := narrowLimits } }
      fittingRun := by
  refine ⟨Nat.succ_ne_zero _, ⟨by decide, fun entry _ found _ => ?_⟩, Nat.succ_ne_zero _, trivial⟩
  obtain rfl := Option.some.inj found
  decide +kernel

theorem quota_enforced_refused :
    Guarded QuotaState.step QuotaState.Lawful { controller := { limits := narrowLimits } }
        fittingRun ∧
      (Runs.run QuotaState.step { controller := { limits := narrowLimits } }
        fittingRun).controller.principalBandwidthRejected = 1 :=
  ⟨quota_enforced narrowLimits fittingRun (by decide) fits_fittingRun, by decide +kernel⟩

/-- A response of eight bytes after a request of five is forgotten, and five more are admitted. -/
theorem response_forgotten :
    ¬ Guarded QuotaState.step QuotaState.Lawful { controller := { limits := narrowLimits } }
      [.request [112] 5 7, .respond [112] 8 8, .request [112] 5 9] := by
  rintro ⟨-, -, lawful, -⟩
  have within := lawful.1 (by decide +kernel) (by decide) (by decide +kernel)
  exact absurd within.2 (by decide +kernel)

/-! ## Isolation -/

def QuotaEvent.principal : QuotaEvent → Bytes
  | .request principal _ _ | .respond principal _ _ => principal

namespace QuotaState

/-- What the answers to a principal depend on once it has an entry, and its charges. -/
def view (principal : Bytes) (state : QuotaState) :
    AbuseLimits × Option PrincipalWindow × List Charge :=
  (state.controller.limits, state.controller.principals.lookup principal,
    state.charges.filter (·.principal = principal))

variable {state other : QuotaState} {event : QuotaEvent} {principal : Bytes}

theorem view_step_foreign (foreign : event.principal ≠ principal) :
    (state.step event).view principal = state.view principal := by
  have apart := foreign.symm
  cases event <;> simp only [QuotaEvent.principal, step] at foreign apart ⊢
  case request caller bytes now =>
    have admission := tryAdmitPrincipal_admission state.controller caller bytes now
    generalize state.controller.tryAdmitPrincipal caller bytes now = answer at admission ⊢
    cases admission with
    | exempt | full => simp [view, foreign]
    | requests _ _ _ _ _ limits principals => simp [view, limits, principals, apart]
    | bandwidth _ _ _ _ _ _ _ _ limits principals => simp [view, limits, principals, apart]
    | admitted => simp [view, AbuseController.setEntry, foreign, apart]
  case respond =>
    unfold AbuseController.recordPrincipalResponseBytes
    split
    · simp [view, foreign]
    · split <;> simp [view, AbuseController.setEntry, foreign, apart]

theorem view_step_own (tracked : (state.view event.principal).2.1.isSome)
    (same : state.view event.principal = other.view event.principal) :
    ((state.step event).view event.principal).2.1.isSome ∧
      (state.step event).view event.principal = (other.step event).view event.principal := by
  obtain ⟨window, found⟩ := Option.isSome_iff_exists.mp tracked
  simp only [view, Prod.mk.injEq] at found same ⊢
  obtain ⟨limits, lookup, charges⟩ := same
  rw [found] at lookup
  cases event <;> simp only [QuotaEvent.principal] at found lookup charges ⊢ <;>
    simp only [step, AbuseController.tryAdmitPrincipal,
      AbuseController.recordPrincipalResponseBytes, AbuseController.entry, found, ← lookup,
      limits] <;>
    split_ifs <;> simp [AbuseController.setEntry, limits, found, ← lookup, charges]

/-- Entries are never dropped: once a principal has one, the requests and responses of others
change neither what it is charged nor which of its requests are admitted. -/
theorem principal_isolated (events : List QuotaEvent)
    (tracked : (state.view principal).2.1.isSome)
    (same : state.view principal = other.view principal) :
    (Runs.run step state events).view principal =
      (Runs.run step other (events.filter (·.principal = principal))).view principal := by
  induction events generalizing state other with
  | nil => exact same
  | cons event rest ih =>
    by_cases own : event.principal = principal
    · rw [List.filter_cons_of_pos (by simpa using own)]
      subst own
      obtain ⟨tracked, same⟩ := view_step_own tracked same
      exact ih tracked same
    · have kept : (state.step event).view principal = _ := view_step_foreign own
      rw [List.filter_cons_of_neg (by simpa using own)]
      exact ih (kept ▸ tracked) (kept.trans same)

theorem principal_isolated_narrow :
    let state : QuotaState :=
      { controller := AbuseController.setEntry { limits := narrowLimits } [112] {} }
    (Runs.run step state (.request [113] 9 6 :: fittingRun)).view [112] =
      (Runs.run step state fittingRun).view [112] :=
  principal_isolated (.request [113] 9 6 :: fittingRun) (by decide) rfl

end QuotaState

end GlifiStore.Server
