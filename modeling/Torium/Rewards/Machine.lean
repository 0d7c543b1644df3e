import Torium.Lib.CallStack
import Torium.Rewards.Distributor

/-!
# The distributor under arbitrary callers

Between the two halves of `claim` and `clawback` another account runs, and it
may do anything: call the distributor again, call other accounts that do, force
value in, fail. The machine therefore keeps the stack of open calls. A frame
`other` stands for a call context outside the distributor that may revert as a
whole. A call of the distributor that reverts is a step without effect.

The time changes only between transactions and never goes back.
-/

namespace Torium.Rewards

open Evm CallStack Transition

inductive Frame where
  | claim (epochId : Word) (claim : Claim)
  | clawback (sender : Address) (epochId amount : Word)
  | other

/-- The frames that hold the reentrancy guard. -/
def Frame.guarded : Frame → Bool
  | .claim _ _ | .clawback _ _ _ => true
  | .other => false

abbrev Machine := CallStack.State Frame World

inductive Label where
  | block (timestamp : Word)
  | force (value : Word)
  | setRoles (hasRole : Role → Address → Bool)
  | publishEpoch (sender : Address) (value : Word) (publication : Publication)
  | pause (sender : Address)
  | unpause (sender : Address)
  | claim (epochId : Word) (claim : Claim)
  | clawback (sender : Address) (epochId : Word)
  | enter
  | leave (success : Bool)

/-- A call that returns at once: it takes effect, or it reverts. -/
def Machine.attempt (m : Machine) : Except Error World → Machine
  | .ok w => { m with current := w }
  | .error _ => m

/-- A call that pays out and waits: its frame opens, or it reverts. -/
def Machine.begin (m : Machine) (frame : Frame) : Except Error World → Machine
  | .ok w => ⟨w, ⟨frame, m.current⟩ :: m.stack⟩
  | .error _ => m

/-- The rest of the innermost open call, after the call it made succeeded. -/
def resume (cfg : Config) : Frame → World → Except Error World
  | .claim epochId claim, w => endClaim epochId claim w
  | .clawback sender epochId amount, w => endClawback cfg sender epochId amount w
  | .other, w => pure w

def leave (cfg : Config) (success : Bool) (m : Machine) : Option Machine :=
  match m.stack with
  | [] => none
  | o :: stack =>
    match success, resume cfg o.frame m.current with
    | true, .ok w => some ⟨w, stack⟩
    | _, _ => some ⟨o.saved, stack⟩

def step [Keccak] (cfg : Config) (m : Machine) : Label → Option Machine
  | .block timestamp =>
    if m.stack.isEmpty ∧ m.current.now ≤ timestamp then
      some { m with current := { m.current with now := timestamp } }
    else none
  | .force value =>
    if m.current.balance.toNat + value.toNat < 2 ^ 256 then
      some { m with current := { m.current with
        balance := m.current.balance + value, forced := m.current.forced + value.toNat } }
    else none
  | .setRoles hasRole =>
    some { m with current := { m.current with
      storage := { m.current.storage with hasRole := hasRole } } }
  | .publishEpoch sender value publication =>
    if m.current.balance.toNat + value.toNat < 2 ^ 256 then
      some (m.attempt (publishEpoch cfg sender value publication m.current))
    else none
  | .pause sender => some (m.attempt (pause sender m.current))
  | .unpause sender => some (m.attempt (unpause sender m.current))
  | .claim epochId claim =>
    some (m.begin (.claim epochId claim) (beginClaim cfg epochId claim m.current))
  | .clawback sender epochId =>
    match beginClawback cfg sender epochId m.current with
    | .ok (amount, w) => some (m.begin (.clawback sender epochId amount) (.ok w))
    | .error _ => some m
  | .enter => some (m.begin .other (.ok m.current))
  | .leave success => leave cfg success m

/-- A deployment. Value that was at the address before counts as forced. -/
def Initial (cfg : Config) (m : Machine) : Prop :=
  ∃ d storage balance now, deploy d = .ok (cfg, storage) ∧
    m = { current := { storage := storage, balance := balance, now := now,
                       forced := balance.toNat } }

abbrev Reachable [Keccak] (cfg : Config) : Machine → Prop :=
  Transition.Reachable (step cfg) (Initial cfg)

/-! ## A concrete run

Two leaves of 3 and 5 are published, the first is claimed with a second attempt
from inside its payout, and the rest is clawed back. -/

namespace Demo

def deployment : Deployment where
  self := 0x100
  defaultAdminDelay := 1
  initialAdmin := 1
  initialPublisher := 2
  initialPauser := 3
  initialClawbackOperator := 4
  treasury := 5
  publicationDelay := 10
  clawbackDelay := 10

def cfg : Config where
  self := 0x100
  treasury := 5
  publicationDelay := 10
  clawbackDelay := 10
  treasury_ne_zero := by decide
  publicationDelay_pos := by decide
  clawbackDelay_pos := by decide

def start : Machine where
  current := { storage := { hasRole := fun role account => account == deployment.holder role } }

theorem start_initial : Initial cfg start :=
  ⟨deployment, _, 0, 0, rfl, rfl⟩

def firstLeaf : Bytes32 := 0x6ba4be159e549216fed61b1b0d98f84275f435df0ce22799f70b5c9741af03c9

def secondLeaf : Bytes32 := 0x0ca90c4923ae9a443403b5c6ad13a9ae7f0cc7184c0b956eb6acef8e2b12e8e6

def root : Bytes32 := 0x9a773e1943a59083bd763295708a3542b4f8bc35f06fe1f1c89c6b0668df4304

/-- Keccak-256 on the encodings of the two leaves and of their parent. -/
@[reducible] def keccak : Keccak where
  keccak256 bytes :=
    ([(abiEncode (leafWords 1 0 0xa 3), firstLeaf), (abiEncode (leafWords 1 1 0xb 5), secondLeaf),
      (abiEncode (nodeWords firstLeaf 3 secondLeaf 5), root)].lookup bytes).getD 0

variable [Keccak]

def publication : Publication where
  epochId := 1
  rootHash := keccak256 (abiEncode (nodeWords (leafHash 1 0 0xa 3) 3 (leafHash 1 1 0xb 5) 5))
  rootSum := 8
  claimStart := 10
  claimEnd := 20

def firstClaim : Claim := ⟨0, 0xa, 3, [⟨leafHash 1 1 0xb 5, 5⟩]⟩

def labels : List Label :=
  [.publishEpoch 2 8 publication, .block 10, .claim 1 firstClaim, .claim 1 firstClaim, .force 2,
    .leave true, .block 30, .clawback 4 1, .leave true]

end Demo

end Torium.Rewards
