import Torium.Faucet.Go
import Torium.Lib.Netip
import Torium.Lib.TokenBucket

/-!
# The rate limiter

Each client address and each network has a token bucket. A request is admitted if both have a
token, and then takes one from each. Tokens are counted in rational numbers.

A step of the limiter does the same thing to the table of the addresses and to the table of the
networks, so the bound on what is admitted is proved once, for one table.
-/

namespace Torium.Faucet

open Netip Function

def Duration.seconds (d : Duration) : ℚ := d / second

structure Bucket where
  tokens : ℚ
  lastFill : Time
  deriving DecidableEq

def refill (target : Bucket) (now : Time) (capacity : ℚ) (secondsPerToken : Int) : Bucket :=
  let elapsed := Duration.seconds (now.sub target.lastFill)
  if elapsed ≤ 0 then target
  else
    let tokens := target.tokens + elapsed / secondsPerToken
    { tokens := if capacity < tokens then capacity else tokens, lastFill := now }

/-- The settings of a profile that the limiter reads. -/
structure RateProfile where
  perIPBurst : Int
  perIPRefillSeconds : Int
  subnetBurst : Int
  subnetRefillSeconds : Int
  denylistCIDRs : List Prefix
  allowlistCIDRs : List Prefix

/-- The check of these settings when a profile is loaded. -/
def RateProfile.Valid (profile : RateProfile) : Prop :=
  ¬(profile.perIPBurst ≤ 0 ∨ profile.perIPRefillSeconds ≤ 0 ∨ profile.subnetBurst ≤ 0 ∨
    profile.subnetRefillSeconds ≤ 0)

/-- The buckets that there are. -/
abbrev Table (κ : Type) : Type := κ → Option Bucket

structure RateLimiter where
  profile : RateProfile
  ips : Table Addr
  subnets : Table Prefix

def newRateLimiter (profile : RateProfile) : RateLimiter :=
  { profile, ips := fun _ => none, subnets := fun _ => none }

def subnetFor (address : Addr) : Prefix :=
  let bits := if address.is6 && !address.is4In6 then 48 else 24
  (address.range bits).getD (.from address address.bitLen)

/-- The bucket of a key, which is full if there was none, filled up to now. -/
def Table.filled {κ : Type} (table : Table κ) (key : κ) (now : Time) (burst refillSeconds : Int) :
    Bucket :=
  refill ((table key).getD { tokens := burst, lastFill := now }) now burst refillSeconds

def Bucket.take (bucket : Bucket) : Bucket := { bucket with tokens := bucket.tokens - 1 }

def RateProfile.denylisted (profile : RateProfile) (address : Addr) : Bool :=
  profile.denylistCIDRs.any fun range => range.contains address.unmap

def RateProfile.allowlisted (profile : RateProfile) (address : Addr) : Bool :=
  profile.allowlistCIDRs.any fun range => range.contains address.unmap

/-- A reason for the denial of a request, which is empty if the request may proceed. -/
def RateLimiter.admitAt (limiter : RateLimiter) (now : Time) (address : Addr) :
    RateLimiter × GoString :=
  let profile := limiter.profile
  if profile.denylisted address then (limiter, text "source address is denylisted")
  else if profile.allowlisted address then (limiter, text "")
  else
    let address := address.unmap
    let ipBucket := limiter.ips.filled address now profile.perIPBurst profile.perIPRefillSeconds
    let subnet := subnetFor address
    let subnetBucket :=
      limiter.subnets.filled subnet now profile.subnetBurst profile.subnetRefillSeconds
    let store (ip network : Bucket) : RateLimiter :=
      { limiter with
        ips := Function.update limiter.ips address (some ip)
        subnets := Function.update limiter.subnets subnet (some network) }
    if ipBucket.tokens < 1 then
      (store ipBucket subnetBucket, text "source address exceeded its request rate")
    else if subnetBucket.tokens < 1 then
      (store ipBucket subnetBucket, text "source network exceeded its request rate")
    else (store ipBucket.take subnetBucket.take, text "")

/-- A call of the limiter, with what the clock reads when the lock has been taken. -/
structure RateCall where
  address : Addr
  now : Time

def RateLimiter.run (limiter : RateLimiter) : List RateCall → RateLimiter
  | [] => limiter
  | call :: calls => (limiter.admitAt call.now call.address).1.run calls

/-- How many calls of some addresses are admitted. -/
def RateLimiter.admissions (limiter : RateLimiter) (counted : Addr → Bool) : List RateCall → Nat
  | [] => 0
  | call :: calls =>
    let (next, reason) := limiter.admitAt call.now call.address
    (if reason = [] ∧ counted call.address then 1 else 0) + next.admissions counted calls

/-! ## One bucket -/

section Bucket

variable {bucket : Bucket} {now : Time} {burst refillSeconds : Int}

theorem seconds_sub_pos_iff {t u : Time} : 0 < Duration.seconds (t.sub u) ↔ u < t := by
  have second_pos : (0 : ℚ) < second := by norm_num [second]
  have negative : ¬0 < minDuration := by decide
  have positive : 0 < maxDuration := by decide
  rw [Duration.seconds, div_pos_iff_of_pos_right second_pos, Int.cast_pos, Time.sub, lt_max_iff,
    lt_min_iff, or_iff_right negative, and_iff_right positive, sub_pos]

theorem seconds_sub_le {t u : Time} (later : u < t) :
    Duration.seconds (t.sub u) ≤ Duration.seconds t - Duration.seconds u := by
  have second_pos : (0 : ℚ) < second := by norm_num [second]
  have negative : minDuration ≤ 0 := by decide
  have cut : t.sub u ≤ t - u := max_le (negative.trans (sub_pos.mpr later).le) (min_le_right _ _)
  unfold Duration.seconds
  rw [← sub_div, ← Int.cast_sub]
  exact div_le_div_of_nonneg_right (Int.cast_le.mpr cut) second_pos.le

theorem seconds_lt {t u : Time} (later : u < t) : Duration.seconds u < Duration.seconds t :=
  sub_pos.mp ((seconds_sub_pos_iff.mpr later).trans_le (seconds_sub_le later))

/-- Filling does nothing if the clock has not advanced, and otherwise adds at most what the time
since the last filling is worth. -/
theorem refill_cases (bucket : Bucket) (now : Time) (burst : Int) (positive : 0 < refillSeconds) :
    (refill bucket now burst refillSeconds = bucket ∧ now ≤ bucket.lastFill) ∨
      ∃ tokens : ℚ, refill bucket now burst refillSeconds = ⟨tokens, now⟩ ∧
        bucket.lastFill < now ∧ tokens ≤ burst ∧ (bucket.tokens ≤ burst → bucket.tokens ≤ tokens) ∧
        tokens ≤ bucket.tokens +
          (Duration.seconds now - Duration.seconds bucket.lastFill) / refillSeconds := by
  have rate : (0 : ℚ) < refillSeconds := Int.cast_pos.mpr positive
  simp only [refill]
  split_ifs with idle full
  · exact .inl ⟨rfl, not_lt.mp fun later => not_lt.mpr idle (seconds_sub_pos_iff.mpr later)⟩
  all_goals
    rw [not_le] at idle
    have later := seconds_sub_pos_iff.mp idle
    have gained : Duration.seconds (now.sub bucket.lastFill) / refillSeconds ≤
        (Duration.seconds now - Duration.seconds bucket.lastFill) / refillSeconds :=
      div_le_div_of_nonneg_right (seconds_sub_le later) rate.le
    have gain := div_pos idle rate
    refine .inr ⟨_, rfl, later, ?_, ?_, ?_⟩
  · exact le_rfl
  · exact id
  · linarith
  · exact not_lt.mp full
  · intro _
    linarith
  · linarith

/-- A bucket never holds less than nothing or more than its capacity. -/
def Bucket.Sound (bucket : Bucket) (burst : Int) : Prop :=
  0 ≤ bucket.tokens ∧ bucket.tokens ≤ burst

theorem Bucket.Sound.refill (sound : bucket.Sound burst) (positive : 0 < refillSeconds) :
    (refill bucket now burst refillSeconds).Sound burst ∧
      bucket.tokens ≤ (Faucet.refill bucket now burst refillSeconds).tokens := by
  obtain ⟨same, -⟩ | ⟨tokens, same, -, capped, more, -⟩ :=
    refill_cases bucket now burst positive
  · rw [same]
    exact ⟨sound, le_rfl⟩
  · rw [same]
    exact ⟨⟨sound.1.trans (more sound.2), capped⟩, more sound.2⟩

end Bucket

/-! ## One table -/

/-- What a call does to a table: nothing, or filling the bucket of its key, or taking a token
from it as well. -/
inductive Table.Step {κ : Type} [DecidableEq κ] (burst refillSeconds : Int) (key : κ) (now : Time)
    (table : Table κ) : Bool → Table κ → Prop
  | skipped : Step burst refillSeconds key now table false table
  | refused : Step burst refillSeconds key now table false
      (Function.update table key (some (table.filled key now burst refillSeconds)))
  | taken (enough : 1 ≤ (table.filled key now burst refillSeconds).tokens) :
      Step burst refillSeconds key now table true
        (Function.update table key (some (table.filled key now burst refillSeconds).take))

section Table

variable {κ : Type} [DecidableEq κ] {table table' : Table κ} {burst refillSeconds : Int}
  {key other : κ} {now : Time} {took : Bool}

def Table.Sound (table : Table κ) (burst : Int) : Prop :=
  ∀ key bucket, table key = some bucket → bucket.Sound burst

/-- The tokens that a call finds under a key if the time stands still. -/
def Table.tokens (table : Table κ) (key : κ) (burst : Int) : ℚ :=
  (table key).elim (burst : ℚ) Bucket.tokens

theorem Table.Sound.update (sound : table.Sound burst) {bucket : Bucket}
    (filled : bucket.Sound burst) : Table.Sound (update table key (some bucket)) burst := by
  intro other found stored
  by_cases here : other = key
  · subst here
    rw [update_self] at stored
    exact Option.some.inj stored ▸ filled
  · rw [update_of_ne here] at stored
    exact sound other found stored

omit [DecidableEq κ] in
theorem Table.Sound.filled (sound : table.Sound burst) (capacity : 0 ≤ burst)
    (positive : 0 < refillSeconds) (key : κ) (now : Time) :
    (table.filled key now burst refillSeconds).Sound burst ∧
      table.tokens key burst ≤ (table.filled key now burst refillSeconds).tokens := by
  rw [Table.filled, Table.tokens]
  cases stored : table key with
  | none =>
    exact Bucket.Sound.refill ⟨Int.cast_nonneg capacity, le_rfl⟩ positive
  | some bucket => exact (sound key bucket stored).refill positive

theorem Table.Step.sound (step : table.Step burst refillSeconds key now took table')
    (capacity : 0 ≤ burst) (positive : 0 < refillSeconds) (sound : table.Sound burst) :
    table'.Sound burst := by
  have filled := (sound.filled capacity positive key now).1
  cases step with
  | skipped => exact sound
  | refused => exact sound.update filled
  | taken enough =>
    exact sound.update ⟨sub_nonneg.mpr enough, (sub_le_self _ zero_le_one).trans filled.2⟩

/-- A call that is denied takes no tokens. -/
theorem Table.Step.tokens_le (step : table.Step burst refillSeconds key now false table')
    (capacity : 0 ≤ burst) (positive : 0 < refillSeconds) (sound : table.Sound burst) (other : κ) :
    table.tokens other burst ≤ table'.tokens other burst := by
  cases step with
  | skipped => exact le_rfl
  | refused =>
    by_cases here : other = key
    · subst here
      rw [Table.tokens, Table.tokens, update_self]
      exact (sound.filled capacity positive other now).2
    · rw [Table.tokens, Table.tokens, update_of_ne here]

/-- What the bucket of a key has left of a window. -/
def Table.Charged (table : Table κ) (w : TokenBucket.Window ℚ) (key : κ) (count : Nat) : Prop :=
  match table key with
  | none => count = 0
  | some bucket => w.Charged count bucket.tokens (Duration.seconds bucket.lastFill)

omit [DecidableEq κ] in
/-- Filling keeps the account of a window, and moves the last filling into it. -/
theorem Table.Charged.filled {w : TokenBucket.Window ℚ} {count : Nat}
    (charged : table.Charged w key count) (contains : w.Contains (Duration.seconds now))
    (capacity : w.capacity = burst) (interval : w.interval = refillSeconds)
    (positive : 0 < refillSeconds) :
    w.Charged count (table.filled key now burst refillSeconds).tokens
        (Duration.seconds (table.filled key now burst refillSeconds).lastFill) ∧
      w.start ≤ Duration.seconds (table.filled key now burst refillSeconds).lastFill := by
  have rate : 0 < w.interval := interval ▸ Int.cast_pos.mpr positive
  obtain ⟨bucket, opened, before⟩ : ∃ bucket,
      (table key).getD { tokens := burst, lastFill := now } = bucket ∧
        w.Charged count bucket.tokens (Duration.seconds bucket.lastFill) := by
    unfold Table.Charged at charged
    cases stored : table key with
    | none =>
      rw [stored] at charged
      subst charged
      exact ⟨_, rfl, .of_unused rate capacity.ge⟩
    | some bucket =>
      rw [stored] at charged
      exact ⟨bucket, rfl, charged⟩
  rw [Table.filled, opened]
  obtain ⟨same, ahead⟩ | ⟨tokens, same, later, capped, -, gained⟩ :=
    refill_cases bucket now burst positive
  · rw [same]
    refine ⟨before, contains.1.trans ?_⟩
    obtain rfl | ahead := ahead.eq_or_lt
    · exact le_rfl
    · exact (seconds_lt ahead).le
  · rw [same]
    exact ⟨before.fill rate contains (seconds_lt later) (capacity ▸ capped) (interval ▸ gained),
      contains.1⟩

theorem Table.Step.charged {w : TokenBucket.Window ℚ} {count : Nat}
    (step : table.Step burst refillSeconds key now took table')
    (contains : w.Contains (Duration.seconds now)) (capacity : w.capacity = burst)
    (interval : w.interval = refillSeconds) (positive : 0 < refillSeconds)
    (charged : table.Charged w other count) :
    table'.Charged w other (count + if took ∧ key = other then 1 else 0) := by
  have elsewhere (bucket : Bucket) (away : other ≠ key) :
      Table.Charged (update table key (some bucket)) w other count := by
    unfold Table.Charged
    rw [update_of_ne away]
    exact charged
  have here (bucket : Bucket) {count : Nat}
      (account : w.Charged count bucket.tokens (Duration.seconds bucket.lastFill)) :
      Table.Charged (update table key (some bucket)) w key count := by
    unfold Table.Charged
    rw [update_self]
    exact account
  cases step with
  | skipped => simpa using charged
  | refused =>
    simp only [Bool.false_eq_true, false_and, if_false, add_zero]
    by_cases same : other = key
    · subst same
      exact here _ (charged.filled contains capacity interval positive).1
    · exact elsewhere _ same
  | taken enough =>
    by_cases same : other = key
    · subst same
      obtain ⟨account, inside⟩ := charged.filled contains capacity interval positive
      simp only [and_self, if_true]
      exact here _ (account.take inside)
    · simp only [Ne.symm same, and_false, if_false, add_zero]
      exact elsewhere _ same

end Table

/-! ## The limiter -/

/-- One of the two tables of the limiter, with the key that a call has in it. -/
structure View (profile : RateProfile) (κ : Type) [DecidableEq κ] where
  table : RateLimiter → Table κ
  key : Addr → κ
  burst : Int
  refillSeconds : Int
  burst_pos : 0 < burst
  refillSeconds_pos : 0 < refillSeconds
  empty : table (newRateLimiter profile) = fun _ => none
  step : ∀ limiter : RateLimiter, limiter.profile = profile → ∀ now address, ∃ took,
    (table limiter).Step burst refillSeconds (key address) now took
        (table (limiter.admitAt now address).1) ∧
      (took = true ↔ (limiter.admitAt now address).2 = [] ∧ profile.allowlisted address = false)

theorem admit_profile (limiter : RateLimiter) (now : Time) (address : Addr) :
    (limiter.admitAt now address).1.profile = limiter.profile := by
  simp only [RateLimiter.admitAt]
  split_ifs <;> rfl

/-- The limiter only looks at the unmapped address. -/
theorem admit_congr (limiter : RateLimiter) (now : Time) {address other : Addr}
    (same : address.unmap = other.unmap) :
    limiter.admitAt now address = limiter.admitAt now other := by
  unfold RateLimiter.admitAt RateProfile.denylisted RateProfile.allowlisted
  rw [same]

/-- The same happens to both tables. -/
theorem admit_step (limiter : RateLimiter) (now : Time) (address : Addr) : ∃ took,
    limiter.ips.Step limiter.profile.perIPBurst limiter.profile.perIPRefillSeconds address.unmap now
        took (limiter.admitAt now address).1.ips ∧
      limiter.subnets.Step limiter.profile.subnetBurst limiter.profile.subnetRefillSeconds
        (subnetFor address.unmap) now took (limiter.admitAt now address).1.subnets ∧
      (took = true ↔
        (limiter.admitAt now address).2 = [] ∧ limiter.profile.allowlisted address = false) := by
  have refused {reason : GoString} {allowed : Bool} (given : reason ≠ []) :
      false = true ↔ reason = [] ∧ allowed = false :=
    iff_of_false Bool.false_ne_true fun both => given both.1
  simp only [RateLimiter.admitAt]
  split_ifs with denied allowed ip subnet
  · exact ⟨false, .skipped, .skipped, refused (show text _ ≠ [] by decide)⟩
  · exact ⟨false, .skipped, .skipped, by simp [allowed]⟩
  · exact ⟨false, .refused, .refused, refused (show text _ ≠ [] by decide)⟩
  · exact ⟨false, .refused, .refused, refused (show text _ ≠ [] by decide)⟩
  · exact ⟨true, .taken (not_lt.mp ip), .taken (not_lt.mp subnet), by simp [text, allowed]⟩

theorem run_profile (limiter : RateLimiter) (calls : List RateCall) :
    (limiter.run calls).profile = limiter.profile := by
  induction calls generalizing limiter with
  | nil => rfl
  | cons call calls ih =>
    rw [RateLimiter.run, ih]
    exact admit_profile limiter call.now call.address

namespace View

variable {profile : RateProfile} {κ : Type} [DecidableEq κ] (view : View profile κ)

/-- The calls whose tokens come from the bucket of a key. -/
def counts (key : κ) (address : Addr) : Bool :=
  !profile.allowlisted address && decide (view.key address = key)

theorem sound_run (limiter : RateLimiter) (same : limiter.profile = profile)
    (sound : (view.table limiter).Sound view.burst) (calls : List RateCall) :
    (view.table (limiter.run calls)).Sound view.burst := by
  induction calls generalizing limiter with
  | nil => exact sound
  | cons call calls ih =>
    obtain ⟨took, step, -⟩ := view.step limiter same call.now call.address
    refine ih _ ((admit_profile limiter call.now call.address).trans same) ?_
    exact step.sound view.burst_pos.le view.refillSeconds_pos sound

theorem sound_reachable (calls : List RateCall) :
    (view.table ((newRateLimiter profile).run calls)).Sound view.burst := by
  refine view.sound_run _ rfl ?_ calls
  rw [view.empty]
  intro key bucket stored
  cases stored

/-- The window that a stretch of calls lies in, for the buckets of the table. -/
def window (start length : ℚ) : TokenBucket.Window ℚ where
  start := start
  length := length
  capacity := view.burst
  interval := view.refillSeconds

/-- The admissions of a stretch are charged to the bucket. -/
theorem charged_run {start length : ℚ} {key : κ} {stretch : List RateCall}
    (within : ∀ call ∈ stretch, (view.window start length).Contains (Duration.seconds call.now))
    (limiter : RateLimiter) (same : limiter.profile = profile) {count : Nat}
    (charged : (view.table limiter).Charged (view.window start length) key count) :
    (view.table (limiter.run stretch)).Charged (view.window start length) key
      (count + limiter.admissions (view.counts key) stretch) := by
  induction stretch generalizing limiter count with
  | nil => exact charged
  | cons call stretch ih =>
    obtain ⟨inside, within⟩ := List.forall_mem_cons.mp within
    obtain ⟨took, step, admitted⟩ := view.step limiter same call.now call.address
    have next := step.charged inside rfl rfl view.refillSeconds_pos charged
    have charged := ih within _ ((admit_profile limiter call.now call.address).trans same) next
    have this_call : (took = true ∧ view.key call.address = key) ↔
        (limiter.admitAt call.now call.address).2 = [] ∧ view.counts key call.address := by
      rw [admitted, counts, Bool.and_eq_true, Bool.not_eq_true', decide_eq_true_iff, and_assoc]
    rw [RateLimiter.run, RateLimiter.admissions, ← add_assoc]
    simpa only [this_call] using charged

/-- How many calls are admitted while the clock reads times in an interval. -/
theorem admissions_le (calls : List RateCall) {start length : ℚ} (nonneg : 0 ≤ length)
    {stretch : List RateCall}
    (within : ∀ call ∈ stretch, start ≤ Duration.seconds call.now ∧
      Duration.seconds call.now ≤ start + length) (key : κ) :
    (((newRateLimiter profile).run calls).admissions (view.counts key) stretch : ℚ) ≤
      view.burst + length / view.refillSeconds := by
  have rate : (0 : ℚ) < view.refillSeconds := Int.cast_pos.mpr view.refillSeconds_pos
  have same := run_profile (newRateLimiter profile) calls
  have sound := view.sound_reachable calls
  generalize (newRateLimiter profile).run calls = limiter at same sound ⊢
  have start : (view.table limiter).Charged (view.window start length) key 0 := by
    unfold Table.Charged
    cases stored : view.table limiter key with
    | none => rfl
    | some bucket => exact .of_unused rate (sound key bucket stored).2
  have charged := view.charged_run within limiter same start
  have left := view.sound_run limiter same sound stretch
  rw [zero_add] at charged
  unfold Table.Charged at charged
  cases stored : view.table (limiter.run stretch) key with
  | none =>
    rw [stored] at charged
    rw [charged, Nat.cast_zero]
    exact add_nonneg (Int.cast_nonneg view.burst_pos.le) (div_nonneg nonneg rate.le)
  | some bucket =>
    rw [stored] at charged
    exact charged.count_le rate nonneg (left key bucket stored).1

end View

section Views

variable {profile : RateProfile} (valid : profile.Valid)

def ipView : View profile Addr where
  table := RateLimiter.ips
  key := Addr.unmap
  burst := profile.perIPBurst
  refillSeconds := profile.perIPRefillSeconds
  burst_pos := not_le.mp fun low => valid (.inl low)
  refillSeconds_pos := not_le.mp fun low => valid (.inr (.inl low))
  empty := rfl
  step := by
    rintro limiter rfl now address
    obtain ⟨took, step, -, admitted⟩ := admit_step limiter now address
    exact ⟨took, step, admitted⟩

def subnetView : View profile Prefix where
  table := RateLimiter.subnets
  key address := subnetFor address.unmap
  burst := profile.subnetBurst
  refillSeconds := profile.subnetRefillSeconds
  burst_pos := not_le.mp fun low => valid (.inr (.inr (.inl low)))
  refillSeconds_pos := not_le.mp fun low => valid (.inr (.inr (.inr low)))
  empty := rfl
  step := by
    rintro limiter rfl now address
    obtain ⟨took, -, step, admitted⟩ := admit_step limiter now address
    exact ⟨took, step, admitted⟩

end Views

/-- The bound of the limiter, for every stretch of every sequence of calls. -/
theorem rate_limiter_bound (profile : RateProfile) (valid : profile.Valid)
    (calls stretch : List RateCall) (start length : ℚ) (nonneg : 0 ≤ length)
    (within : ∀ call ∈ stretch, start ≤ Duration.seconds call.now ∧
      Duration.seconds call.now ≤ start + length) :
    let limiter := (newRateLimiter profile).run calls
    (∀ address, profile.allowlisted address = false →
      (limiter.admissions (fun other => other.unmap = address.unmap) stretch : ℚ) ≤
        profile.perIPBurst + length / profile.perIPRefillSeconds) ∧
    (∀ subnet, (limiter.admissions (fun other =>
        !profile.allowlisted other && decide (subnetFor other.unmap = subnet)) stretch : ℚ) ≤
      profile.subnetBurst + length / profile.subnetRefillSeconds) ∧
    (∀ now address, (limiter.admitAt now address).2 ≠ [] →
      (∀ key, limiter.ips.tokens key profile.perIPBurst ≤
        (limiter.admitAt now address).1.ips.tokens key profile.perIPBurst) ∧
      ∀ key, limiter.subnets.tokens key profile.subnetBurst ≤
        (limiter.admitAt now address).1.subnets.tokens key profile.subnetBurst) ∧
    ∀ now bits zone, limiter.admitAt now (.mapped bits zone) = limiter.admitAt now (.v4 bits) := by
  intro limiter
  refine ⟨fun address unlisted => ?_, fun subnet => ?_, fun now address denied => ?_,
    fun now bits zone => ?_⟩
  · have bound := (ipView valid).admissions_le calls nonneg within address.unmap
    have counted : (ipView valid).counts address.unmap =
        fun other => decide (other.unmap = address.unmap) := by
      funext other
      rw [View.counts]
      by_cases same : other.unmap = address.unmap
      · have listed : profile.allowlisted other = false := by
          rw [← unlisted, RateProfile.allowlisted, RateProfile.allowlisted, same]
        rw [listed, Bool.not_false, Bool.true_and]
        rfl
      · have away : decide ((ipView valid).key other = address.unmap) = false :=
          decide_eq_false same
        rw [away, Bool.and_false, decide_eq_false same]
    rw [counted] at bound
    exact bound
  · exact (subnetView valid).admissions_le calls nonneg within subnet
  · have same : limiter.profile = profile := run_profile _ calls
    obtain ⟨took, ips, subnets, admitted⟩ := admit_step limiter now address
    obtain rfl : took = false := by
      rw [Bool.eq_false_iff]
      exact fun taken => denied (admitted.mp taken).1
    rw [same] at ips subnets
    exact ⟨ips.tokens_le (ipView valid).burst_pos.le (ipView valid).refillSeconds_pos
        ((ipView valid).sound_reachable calls),
      subnets.tokens_le (subnetView valid).burst_pos.le (subnetView valid).refillSeconds_pos
        ((subnetView valid).sound_reachable calls)⟩
  · exact admit_congr limiter now ((Addr.unmap_mapped bits zone).trans (Addr.unmap_v4 bits).symm)

namespace Demo

def rateProfile : RateProfile where
  perIPBurst := 2
  perIPRefillSeconds := 60
  subnetBurst := 3
  subnetRefillSeconds := 30
  denylistCIDRs := [.from (.v4 0xc0000200) 24]
  allowlistCIDRs := [.from (.v4 0xc6336400) 24]

def client : Addr := .v4 0xcb007107

def minute : Time := 60 * second

/-- Calls of one client within two minutes, one of them after the clock has stepped back. -/
def rateCalls : List RateCall :=
  [⟨client, 0⟩, ⟨.mapped 0xcb007107 [], 0⟩, ⟨client, minute⟩, ⟨client, 0⟩, ⟨client, 2 * minute⟩]

end Demo

/-- Two calls are admitted at once and one more for each minute. -/
theorem rate_limiter_bound_demo :
    ((newRateLimiter Demo.rateProfile).admissions
        (fun other => other.unmap = Demo.client.unmap) Demo.rateCalls) = 4 ∧
      ((((newRateLimiter Demo.rateProfile).run []).admissions
        (fun other => other.unmap = Demo.client.unmap) Demo.rateCalls : ℕ) : ℚ) ≤
          Demo.rateProfile.perIPBurst + 120 / Demo.rateProfile.perIPRefillSeconds := by
  refine ⟨by decide +kernel, ?_⟩
  have valid : Demo.rateProfile.Valid := by
    unfold RateProfile.Valid
    decide
  have within : ∀ call ∈ Demo.rateCalls, (0 : ℚ) ≤ Duration.seconds call.now ∧
      Duration.seconds call.now ≤ 0 + 120 := by
    decide +kernel
  have unlisted : Demo.rateProfile.allowlisted Demo.client = false := by decide
  exact (rate_limiter_bound Demo.rateProfile valid [] Demo.rateCalls 0 120 (by norm_num)
    within).1 Demo.client unlisted

end Torium.Faucet
