import GlifiStore.Core.IntegerMath

/-!
# Byte-rate limiter

The schedule of one maintenance job. Each caller sleeps as told before it consumes, so a grant
starts at the schedule base of its request, and the next one starts no sooner than its service
time later.
-/

namespace GlifiStore

def kNanosecondsPerSecond : Nat := 1000000000

structure BoundedByteRateLimiter where
  bytesPerSecond : Nat
  burstBytes : Nat
  nextReadyNs : Nat := 0
deriving DecidableEq, Repr

namespace BoundedByteRateLimiter

structure Decision where
  grantedBytes : Nat := 0
  sleepNs : Nat := 0
deriving DecidableEq, Repr

def recommendedBurstBytes (bytesPerSecond : Nat) : Nat :=
  if bytesPerSecond = 0 then 0
  else
    let kRefillsPerSecond := 100
    let kMaximumBurstBytes := 1024 * 1024
    let quotient := bytesPerSecond / kRefillsPerSecond
    let rounded := quotient + if bytesPerSecond % kRefillsPerSecond ≠ 0 then 1 else 0
    min kMaximumBurstBytes (max 1 rounded)

def make (bytesPerSecond : Nat) : BoundedByteRateLimiter :=
  ⟨bytesPerSecond, recommendedBurstBytes bytesPerSecond, 0⟩

def serviceTimeNs (limiter : BoundedByteRateLimiter) (bytes : Nat) : Option Nat := do
  let wholeSeconds := bytes / limiter.bytesPerSecond
  let remainder := bytes % limiter.bytesPerSecond
  let whole ← fits 64 (wholeSeconds * kNanosecondsPerSecond)
  let tailProduct ← fits 64 (remainder * kNanosecondsPerSecond)
  let result ← fits 64 (whole + tailProduct / limiter.bytesPerSecond)
  if tailProduct % limiter.bytesPerSecond ≠ 0 then fits 64 (result + 1) else return result

def request (limiter : BoundedByteRateLimiter) (requestedBytes nowNs : Nat) :
    Option (Decision × BoundedByteRateLimiter) :=
  if requestedBytes = 0 then some ({}, limiter)
  else if limiter.bytesPerSecond = 0 then some ({ grantedBytes := requestedBytes }, limiter)
  else do
    let granted := min requestedBytes limiter.burstBytes
    let sleepNs := if limiter.nextReadyNs > nowNs then limiter.nextReadyNs - nowNs else 0
    let scheduleBase := max limiter.nextReadyNs nowNs
    let serviceNs ← limiter.serviceTimeNs granted
    let maximum := 2 ^ 64 - 1
    let nextReadyNs :=
      if serviceNs > maximum - scheduleBase then maximum else scheduleBase + serviceNs
    return (⟨granted, sleepNs⟩, { limiter with nextReadyNs })

structure Request where
  bytes : Nat
  nowNs : Nat
  word : nowNs < 2 ^ 64

/-- What a non-empty request got: the time its consumption starts, the bytes, and the time from
which the next grant may start. -/
structure Grant where
  startNs : Nat
  bytes : Nat
  readyNs : Nat
deriving DecidableEq

def serve (limiter : BoundedByteRateLimiter) : List Request → Option (List Grant)
  | [] => some []
  | request :: rest => do
    let (decision, next) ← limiter.request request.bytes request.nowNs
    let later ← next.serve rest
    if request.bytes = 0 then return later
    return ⟨request.nowNs + decision.sleepNs, decision.grantedBytes, next.nextReadyNs⟩ :: later

/-- The time that `bytes` take at the rate, rounded up, whatever its size. -/
def idealServiceNs (limiter : BoundedByteRateLimiter) (bytes : Nat) : Nat :=
  (bytes * kNanosecondsPerSecond + (limiter.bytesPerSecond - 1)) / limiter.bytesPerSecond

/-- When the last of the requests would be served, were times unbounded. -/
def idealReadyNs (limiter : BoundedByteRateLimiter) : List Request → Nat
  | [] => limiter.nextReadyNs
  | request :: rest =>
    if request.bytes = 0 then limiter.idealReadyNs rest
    else idealReadyNs { limiter with
      nextReadyNs := max limiter.nextReadyNs request.nowNs +
        limiter.idealServiceNs (min request.bytes limiter.burstBytes) } rest

theorem nextReadyNs_le_idealReadyNs (requests : List Request) (limiter : BoundedByteRateLimiter) :
    limiter.nextReadyNs ≤ limiter.idealReadyNs requests := by
  induction requests generalizing limiter with
  | nil => exact le_rfl
  | cons request rest ih =>
    rw [idealReadyNs]
    split
    · exact ih limiter
    · exact .trans (Nat.le_add_right_of_le (Nat.le_max_left ..)) (ih { limiter with
        nextReadyNs := max limiter.nextReadyNs request.nowNs + _ })

theorem serviceTimeNs_eq (limiter : BoundedByteRateLimiter) {bytes : Nat}
    (rated : 0 < limiter.bytesPerSecond) (small : bytes ≤ 1024 * 1024) :
    limiter.serviceTimeNs bytes = some (limiter.idealServiceNs bytes) := by
  have product : bytes * kNanosecondsPerSecond < 2 ^ 62 :=
    Nat.lt_of_le_of_lt (Nat.mul_le_mul_right _ small) (by decide)
  obtain ⟨second, named⟩ : ∃ second, kNanosecondsPerSecond = second := ⟨_, rfl⟩
  rw [named] at product
  rw [serviceTimeNs, idealServiceNs, named]
  generalize limiter.bytesPerSecond = rate at *
  have parts : bytes * second = bytes % rate * second + rate * (bytes / rate * second) := by
    nth_rewrite 1 [← Nat.mod_add_div bytes rate]
    ring
  have whole := Nat.mul_le_mul_right second (Nat.div_le_self bytes rate)
  generalize bytes / rate * second = seconds at *
  generalize bytes % rate * second = rest at *
  have restParts := Nat.mod_add_div rest rate
  have quotient := Nat.div_le_self rest rate
  have below := Nat.mod_lt rest rated
  rw [fits_eq (by omega), fits_eq (by omega)]
  simp only [Option.bind_eq_bind, Option.bind_some]
  rw [fits_eq (by omega), Option.bind_some]
  by_cases even : rest % rate = 0
  · refine (if_neg (not_not.mpr even)).trans (congrArg some (Nat.div_eq_of_lt_le ?_ ?_).symm) <;>
      simp only [Nat.mul_comm _ rate, Nat.mul_add] <;> omega
  · refine (if_pos even).trans ((fits_eq (by omega)).trans
      (congrArg some (Nat.div_eq_of_lt_le ?_ ?_).symm)) <;>
      simp only [Nat.mul_comm _ rate, Nat.mul_add] <;> omega

theorem idealServiceNs_covers (limiter : BoundedByteRateLimiter)
    (rated : 0 < limiter.bytesPerSecond) (bytes : Nat) :
    bytes * kNanosecondsPerSecond ≤ limiter.bytesPerSecond * limiter.idealServiceNs bytes := by
  have parts := Nat.mod_add_div
    (bytes * kNanosecondsPerSecond + (limiter.bytesPerSecond - 1)) limiter.bytesPerSecond
  have below := Nat.mod_lt
    (bytes * kNanosecondsPerSecond + (limiter.bytesPerSecond - 1)) rated
  rw [idealServiceNs]
  omega

theorem request_nonempty {limiter : BoundedByteRateLimiter} {requested now : Nat}
    (rated : 0 < limiter.bytesPerSecond) (small : limiter.burstBytes ≤ 1024 * 1024)
    (word : limiter.nextReadyNs < 2 ^ 64) (nonempty : requested ≠ 0) (clock : now < 2 ^ 64) :
    ∃ sleep ready, limiter.request requested now = some
        (⟨min requested limiter.burstBytes, sleep⟩, { limiter with nextReadyNs := ready }) ∧
      now + sleep = max limiter.nextReadyNs now ∧
      ready = min (2 ^ 64 - 1)
        (now + sleep + limiter.idealServiceNs (min requested limiter.burstBytes)) := by
  simp only [request, if_neg nonempty, if_neg (Nat.ne_of_gt rated), Option.bind_eq_bind,
    serviceTimeNs_eq limiter rated ((Nat.min_le_right requested _).trans small),
    Option.bind_some, Option.pure_def]
  generalize limiter.idealServiceNs _ = service
  refine ⟨_, _, rfl, ?_⟩
  split_ifs <;> omega

theorem serve_paced (requests : List Request) (limiter : BoundedByteRateLimiter)
    (rated : 0 < limiter.bytesPerSecond)
    (burst : 1 ≤ limiter.burstBytes ∧ limiter.burstBytes ≤ 1024 * 1024)
    (word : limiter.nextReadyNs < 2 ^ 64) :
    ∃ grants, limiter.serve requests = some grants ∧
      grants.length = requests.countP (·.bytes ≠ 0) ∧
      (∀ grant ∈ grants, (1 ≤ grant.bytes ∧ grant.bytes ≤ limiter.burstBytes) ∧
        limiter.nextReadyNs ≤ grant.startNs) ∧
      grants.Pairwise (fun first second => first.readyNs ≤ second.startNs) ∧
      (limiter.idealReadyNs requests < 2 ^ 64 → ∀ grant ∈ grants,
        grant.readyNs = grant.startNs + limiter.idealServiceNs grant.bytes) := by
  induction requests generalizing limiter with
  | nil => exact ⟨[], rfl, rfl, nofun, .nil, nofun⟩
  | cons request rest ih =>
    by_cases empty : request.bytes = 0
    · simpa [serve, BoundedByteRateLimiter.request, idealReadyNs, empty] using
        ih limiter rated burst word
    · obtain ⟨sleep, ready, requested, start, readied⟩ :=
        request_nonempty rated burst.2 word empty request.word
      have started : limiter.nextReadyNs ≤ request.nowNs + sleep := by omega
      have later : limiter.nextReadyNs ≤ ready ∧ ready < 2 ^ 64 := by omega
      obtain ⟨grants, served, counted, granted, paced, timed⟩ :=
        ih { limiter with nextReadyNs := ready } rated burst later.2
      refine ⟨⟨request.nowNs + sleep, min request.bytes limiter.burstBytes, ready⟩ :: grants,
        by simp [serve, requested, served, empty], by simp [counted, empty],
        List.forall_mem_cons.mpr ⟨⟨?_, started⟩, fun grant member => ?_⟩,
        .cons (fun grant member => (granted grant member).2) paced, fun unsaturated => ?_⟩
      · exact ⟨Nat.le_min.mpr ⟨Nat.pos_of_ne_zero empty, burst.1⟩, Nat.min_le_right ..⟩
      · exact ⟨(granted grant member).1, later.1.trans (granted grant member).2⟩
      · rw [idealReadyNs, if_neg empty, ← start] at unsaturated
        have below := (nextReadyNs_le_idealReadyNs rest _).trans_lt unsaturated
        have reserved : ready = _ := readied.trans (Nat.min_eq_right (Nat.le_sub_one_of_lt below))
        rw [← reserved] at unsaturated
        exact List.forall_mem_cons.mpr ⟨reserved, timed unsaturated⟩

/-- The service times of all grants but the last fit between the first start and the last. -/
theorem window_bound {burst : Nat} (rate first last : Nat) {grants : List Grant}
    (paced : grants.Pairwise fun first second => first.readyNs ≤ second.startNs)
    (sized : ∀ grant ∈ grants, (1 ≤ grant.bytes ∧ grant.bytes ≤ burst) ∧
      grant.bytes * kNanosecondsPerSecond ≤ rate * (grant.readyNs - grant.startNs))
    (inside : ∀ grant ∈ grants, first ≤ grant.startNs ∧ grant.startNs ≤ last) :
    (grants.map (·.bytes)).sum * kNanosecondsPerSecond
      ≤ burst * kNanosecondsPerSecond + rate * (last - first) := by
  induction grants generalizing first with
  | nil => simp
  | cons grant later ih =>
    obtain ⟨after, paced⟩ := List.pairwise_cons.mp paced
    obtain ⟨⟨bounded, served⟩, sized⟩ := List.forall_mem_cons.mp sized
    obtain ⟨within, inside⟩ := List.forall_mem_cons.mp inside
    rcases later with - | ⟨next, later⟩
    · simpa using Nat.le_add_right_of_le (Nat.mul_le_mul_right _ bounded.2)
    · have rest := ih grant.readyNs paced sized
        fun other member => ⟨after other member, (inside other member).2⟩
      have positive : 0 < grant.readyNs - grant.startNs := Nat.pos_of_mul_pos_left
        (Nat.lt_of_lt_of_le (Nat.mul_pos bounded.1 (by decide)) served)
      have room : grant.readyNs - grant.startNs + (last - grant.readyNs) ≤ last - first := by
        have := after next List.mem_cons_self
        have := (inside next List.mem_cons_self).2
        omega
      have spread := Nat.mul_le_mul_left rate room
      rw [Nat.mul_add] at spread
      rw [List.map_cons, List.sum_cons, Nat.add_mul]
      omega

/-- No operation of the schedule leaves its machine word, each non-empty request is granted at
least a byte and at most a burst, and when the requests could be served before the clock ends, the
grants that start within `t` nanoseconds carry at most a burst beyond what the rate allows. -/
theorem limiter_respects_rate (rate : Nat) (rated : 0 < rate) (requests : List Request) :
    ∃ grants, (make rate).serve requests = some grants ∧
      grants.length = requests.countP (·.bytes ≠ 0) ∧
      (∀ grant ∈ grants, 1 ≤ grant.bytes ∧ grant.bytes ≤ (make rate).burstBytes) ∧
      ((make rate).idealReadyNs requests < 2 ^ 64 → ∀ fromNs t,
        ((grants.filter fun grant => fromNs ≤ grant.startNs ∧ grant.startNs ≤ fromNs + t).map
            (·.bytes)).sum
          ≤ (make rate).burstBytes
            + (rate * t + (kNanosecondsPerSecond - 1)) / kNanosecondsPerSecond) := by
  have burst : 1 ≤ (make rate).burstBytes ∧ (make rate).burstBytes ≤ 1024 * 1024 := by
    simp only [make, recommendedBurstBytes, if_neg (Nat.ne_of_gt rated)]
    omega
  obtain ⟨grants, served, counted, granted, paced, timed⟩ :=
    serve_paced requests (make rate) rated burst (Nat.two_pow_pos 64)
  refine ⟨grants, served, counted, fun grant member => (granted grant member).1,
    fun unsaturated fromNs t => ?_⟩
  have bound := window_bound rate fromNs (fromNs + t) (paced.filter _)
    (fun grant member => by
      have member := (List.mem_filter.mp member).1
      rw [timed unsaturated grant member, Nat.add_sub_cancel_left]
      exact ⟨(granted grant member).1, (make rate).idealServiceNs_covers rated _⟩)
    (fun grant member => of_decide_eq_true (List.mem_filter.mp member).2)
  rw [Nat.add_sub_cancel_left] at bound
  simp only [kNanosecondsPerSecond] at bound ⊢
  omega

theorem limiter_respects_rate_twice : ∃ grants,
    (make 1000).serve [⟨25, 0, by decide⟩, ⟨25, 0, by decide⟩] = some grants ∧
      ((grants.filter fun grant => 0 ≤ grant.startNs ∧ grant.startNs ≤ 0 + 10000000).map
        (·.bytes)).sum ≤ 10 + 10 := by
  obtain ⟨grants, served, -, -, bound⟩ :=
    limiter_respects_rate 1000 (by decide) [⟨25, 0, by decide⟩, ⟨25, 0, by decide⟩]
  have same : some grants = some [⟨0, 10, 10000000⟩, ⟨10000000, 10, 20000000⟩] :=
    served.symm.trans (by decide +kernel)
  cases same
  exact ⟨_, served, bound (by decide +kernel) 0 10000000⟩

end BoundedByteRateLimiter

end GlifiStore
