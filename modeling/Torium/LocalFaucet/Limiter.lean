import Torium.Evm.Basic
import Torium.Faucet.Go
import Torium.Lib.SlidingWindow

/-!
# The address limiter of the local faucet

The limiter keeps the fundings of each address. A check drops those that are older than the
window, as seen from the reading of the clock it is made with, and then looks at what is left.

The index into the list of what is left is an error if the list is empty, so a check has three
outcomes.
-/

namespace Torium.LocalFaucet

open Evm Faucet SlidingWindow

/-- The enforcement contract of the faucet. Durations fit in 64 bits. -/
structure Policy where
  defaultAmount : Int
  minimumAmount : Int
  maximumAmountPerRequest : Int
  maximumAmountPerWindow : Int
  addressWindow : Duration
  cooldown : Duration
  transactionTimeout : Duration
  maximumBodyBytes : Int
  window_fits : addressWindow ≤ maxDuration

/-- The canonical local policy. -/
def defaultPolicy : Policy where
  defaultAmount := 10000000000000000000
  minimumAmount := 1000000000000000000
  maximumAmountPerRequest := 25000000000000000000
  maximumAmountPerWindow := 100000000000000000000
  addressWindow := 3600 * second
  cooldown := 30 * second
  transactionTimeout := 45 * second
  maximumBodyBytes := 4096
  window_fits := by decide

def Policy.amounts (policy : Policy) : List (GoString × Int) :=
  [(text "default amount", policy.defaultAmount), (text "minimum amount", policy.minimumAmount),
    (text "maximum amount per request", policy.maximumAmountPerRequest),
    (text "maximum amount per window", policy.maximumAmountPerWindow)]

/-- Which of several amounts that are not positive is named depends on the order of a map; here
it is the first one. -/
def Policy.validate (policy : Policy) : Except GoString Unit :=
  match policy.amounts.find? fun amount => amount.2 ≤ 0 with
  | some amount => throw (amount.1 ++ text " must be positive")
  | none => do
      revertIf (policy.defaultAmount < policy.minimumAmount)
        (text "minimum amount exceeds default amount")
      revertIf (policy.maximumAmountPerRequest < policy.defaultAmount)
        (text "default amount exceeds per-request maximum")
      revertIf (policy.maximumAmountPerWindow < policy.maximumAmountPerRequest)
        (text "per-request maximum exceeds per-window maximum")
      revertIf (policy.cooldown ≤ 0 ∨ policy.addressWindow ≤ policy.cooldown)
        (text "address window must exceed a positive cooldown")
      revertIf (policy.transactionTimeout ≤ 0) (text "transaction timeout must be positive")
      revertIf (policy.maximumBodyBytes ≤ 0) (text "maximum body bytes must be positive")

theorem defaultPolicy_validate : defaultPolicy.validate = .ok () := by decide +kernel

/-- The amount of a request. A text with blanks around it has a character that is no digit. -/
def parseAmount (policy : Policy) (value : GoString) : Except GoString Int :=
  if value = [] then pure policy.defaultAmount
  else
    match digitsValue? value with
    | none => throw (text "amountBaseUnits must be an unsigned base-10 integer string")
    | some amount => do
        revertIf ((amount : Int) ≤ 0) (text "amountBaseUnits must be positive")
        revertIf ((amount : Int) < policy.minimumAmount)
          (text "amountBaseUnits is below the local faucet minimum of " ++
            intText policy.minimumAmount)
        revertIf (policy.maximumAmountPerRequest < amount)
          (text "amountBaseUnits exceeds the local faucet per-request maximum of " ++
            intText policy.maximumAmountPerRequest)
        pure (amount : Int)

abbrev FundingRecord : Type := Entry Time Int

abbrev Limiter : Type := Address → List FundingRecord

inductive LimitError where
  | cooldown
  | quota
  deriving DecidableEq

inductive Check where
  | passed
  | denied (retryAfter : Duration) (limitErr : LimitError)
  | indexOutOfRange
  deriving DecidableEq

/-- The check of the amounts of the window. -/
def checkQuota (policy : Policy) (kept : List FundingRecord) (amount : Int) (now : Time) : Check :=
  if policy.maximumAmountPerWindow < total kept + amount then
    match kept.head? with
    | some first => .denied (Time.sub (first.at_ + policy.addressWindow) now) .quota
    | none => .indexOutOfRange
  else .passed

/-- The check of the records that are left. -/
def checkKept (policy : Policy) (kept : List FundingRecord) (amount : Int) (now : Time) : Check :=
  match kept.getLast? with
  | some last =>
    let cooldownEnds := last.at_ + policy.cooldown
    if now < cooldownEnds then .denied (Time.sub cooldownEnds now) .cooldown
    else checkQuota policy kept amount now
  | none => checkQuota policy kept amount now

def checkLocked (limiter : Limiter) (recipient : Address) (amount : Int) (now : Time)
    (policy : Policy) : Limiter × Check :=
  let kept := recent policy.addressWindow now (limiter recipient)
  (Function.update limiter recipient kept, checkKept policy kept amount now)

def recordLocked (limiter : Limiter) (recipient : Address) (amount : Int) (now : Time) : Limiter :=
  Function.update limiter recipient (limiter recipient ++ [{ at_ := now, amount }])

/-- A sum of durations, which wraps around. -/
def int64 (n : Int) : Int := n.bmod (2 ^ 64)

/-- The number of seconds that a denied client is told to wait. -/
def retrySeconds (retryAfter : Duration) : Int :=
  max 1 ((int64 (retryAfter + second - 1)).tdiv second)

/-! ## What the checks of the policy and of the amount give -/

structure Policy.Valid (policy : Policy) : Prop where
  minimum_pos : 0 < policy.minimumAmount
  minimum_le : policy.minimumAmount ≤ policy.defaultAmount
  default_le : policy.defaultAmount ≤ policy.maximumAmountPerRequest
  request_le : policy.maximumAmountPerRequest ≤ policy.maximumAmountPerWindow
  cooldown_pos : 0 < policy.cooldown
  cooldown_lt : policy.cooldown < policy.addressWindow

theorem Policy.valid_of_validate {policy : Policy} (validated : policy.validate = .ok ()) :
    policy.Valid := by
  unfold Policy.validate at validated
  split at validated
  · cases validated
  · rename_i positive
    simp only [bind_eq_ok, revertIf_eq_ok, not_or] at validated
    obtain ⟨-, minimum, -, default, -, request, -, durations, -⟩ := validated
    have each := List.find?_eq_none.mp positive (text "minimum amount", policy.minimumAmount)
      (by simp [Policy.amounts])
    rw [decide_eq_true_iff] at each
    exact ⟨not_le.mp each, not_lt.mp minimum, not_lt.mp default, not_lt.mp request,
      not_le.mp durations.1, not_le.mp durations.2⟩

/-- An accepted amount lies between the minimum and the maximum. -/
theorem parseAmount_bounds {policy : Policy} (valid : policy.Valid) {value : GoString}
    {amount : Int} (parsed : parseAmount policy value = .ok amount) :
    0 < amount ∧ amount ≤ policy.maximumAmountPerRequest := by
  unfold parseAmount at parsed
  split_ifs at parsed with empty
  · obtain rfl := pure_eq_ok.mp parsed
    exact ⟨valid.minimum_pos.trans_le valid.minimum_le, valid.default_le⟩
  · split at parsed
    · cases parsed
    · simp only [bind_eq_ok, revertIf_eq_ok, pure_eq_ok] at parsed
      obtain ⟨-, positive, -, -, -, most, rfl⟩ := parsed
      exact ⟨not_le.mp positive, not_lt.mp most⟩

/-! ## Outcomes of a check -/

section Outcomes

variable {policy : Policy} {kept : List FundingRecord} {amount : Int} {now : Time}

/-- The last record that is left decides whether the amounts are looked at. -/
theorem checkKept_cases (policy : Policy) (kept : List FundingRecord) (amount : Int) (now : Time) :
    (∃ last ∈ kept.getLast?, now < last.at_ + policy.cooldown ∧
      checkKept policy kept amount now =
        .denied (Time.sub (last.at_ + policy.cooldown) now) .cooldown) ∨
    ((∀ last ∈ kept.getLast?, last.at_ + policy.cooldown ≤ now) ∧
      checkKept policy kept amount now = checkQuota policy kept amount now) := by
  unfold checkKept
  split
  · rename_i last final
    dsimp only
    split_ifs with early
    · exact .inl ⟨last, final, early, rfl⟩
    · refine .inr ⟨fun other same => ?_, rfl⟩
      rw [final] at same
      obtain rfl := Option.mem_some_iff.mp same
      exact not_lt.mp early
  · rename_i empty
    refine .inr ⟨fun last final => ?_, rfl⟩
    rw [empty] at final
    cases final

/-- A single request never exceeds the quota on its own, so there is a record to look at. -/
theorem checkQuota_cases (fits : amount ≤ policy.maximumAmountPerWindow) :
    (total kept + amount ≤ policy.maximumAmountPerWindow ∧
      checkQuota policy kept amount now = .passed) ∨
    (policy.maximumAmountPerWindow < total kept + amount ∧ ∃ first ∈ kept.head?,
      checkQuota policy kept amount now =
        .denied (Time.sub (first.at_ + policy.addressWindow) now) .quota) := by
  unfold checkQuota
  split_ifs with exceeded
  · cases kept with
    | nil => exact absurd exceeded (not_lt.mpr (by simpa [total] using fits))
    | cons first rest => exact .inr ⟨exceeded, first, rfl, rfl⟩
  · exact .inl ⟨not_lt.mp exceeded, rfl⟩

theorem checkKept_ne_indexOutOfRange (fits : amount ≤ policy.maximumAmountPerWindow) :
    checkKept policy kept amount now ≠ .indexOutOfRange := by
  obtain ⟨last, -, -, outcome⟩ | ⟨-, outcome⟩ := checkKept_cases policy kept amount now
  · rw [outcome]
    exact nofun
  · rw [outcome]
    obtain ⟨-, outcome⟩ | ⟨-, first, -, outcome⟩ := checkQuota_cases fits
    · rw [outcome]
      exact nofun
    · rw [outcome]
      exact nofun

theorem checkKept_eq_passed (passed : checkKept policy kept amount now = .passed) :
    (∀ last ∈ kept.getLast?, last.at_ + policy.cooldown ≤ now) ∧
      total kept + amount ≤ policy.maximumAmountPerWindow := by
  obtain ⟨last, -, -, outcome⟩ | ⟨ended, outcome⟩ := checkKept_cases policy kept amount now
  · rw [outcome] at passed
    cases passed
  · refine ⟨ended, ?_⟩
    rw [outcome, checkQuota] at passed
    split_ifs at passed with exceeded
    · split at passed <;> cases passed
    · exact not_lt.mp exceeded

end Outcomes

/-! ## The hint of a denial -/

theorem one_le_retrySeconds (retryAfter : Duration) : 1 ≤ retrySeconds retryAfter := le_max_left _ _

/-- The duration rounded up to whole seconds. -/
def roundUp (duration : Duration) : Duration := (duration + second - 1) / second * second

theorem retrySeconds_eq_roundUp {retryAfter : Int} (positive : 0 < retryAfter)
    (fits : retryAfter + second - 1 ≤ maxDuration) :
    retrySeconds retryAfter * second = roundUp retryAfter := by
  simp only [retrySeconds, roundUp, int64, second, maxDuration] at fits ⊢
  rw [Int.bmod_eq_of_le (by omega) (by omega), Int.tdiv_eq_ediv_of_nonneg (by omega)]
  omega

/-- The hint is long enough if the rounding does not overflow. -/
theorem le_retrySeconds {retryAfter : Int} (positive : 0 < retryAfter)
    (fits : retryAfter + second - 1 ≤ maxDuration) :
    retryAfter ≤ retrySeconds retryAfter * second := by
  rw [retrySeconds_eq_roundUp positive fits, roundUp]
  simp only [second]
  omega

end Torium.LocalFaucet
