import Torium.Rewards.Acceptance
import Torium.Sdk.Rewards

/-!
# What the reward-claim preflight predicts

All reads are answered from one reachable state of the distributor. The two implementations of
the proof agree: comparing lower-case texts is comparing words, and the bound of the sums is the
overflow check. The preflight then says that a claim goes through exactly if it does, but for two
checks of `claim` that it leaves out: the account and the amount must not be zero.
-/

namespace Torium.Sdk

open Evm Generator Transition

/-! ## Proofs -/

/-- A node of the contract as the SDK spells a result. -/
def nodeOf (node : Bytes32 × Word) : RewardProofNode :=
  { nodeHash := hashText node.1, sum := node.2.toNat }

/-- A node of a proof, with its hash in any letter case. -/
structure RewardProofNode.Spells (node : RewardProofNode) (word : Rewards.ProofNode) : Prop where
  hash : isHash node.nodeHash
  value : hashValue node.nodeHash = word.nodeHash
  sum : node.sum = word.sum.toNat

theorem textLe_hashText (first second : Bytes32) :
    Hexadecimal.textLe (hashText first) (hashText second) =
      decide (first < second ∨ first = second) := by
  have skip : Hexadecimal.textLe (hashText first) (hashText second) =
      Hexadecimal.textLe (Hexadecimal.numeral 64 first.toNat)
        (Hexadecimal.numeral 64 second.toNat) := rfl
  rw [skip, Hexadecimal.textLe_numeral, Nat.mod_eq_of_lt (show _ < 16 ^ 64 from first.isLt),
    Nat.mod_eq_of_lt (show _ < 16 ^ 64 from second.isLt)]
  refine decide_eq_decide.mpr ?_
  rw [BitVec.lt_def, ← BitVec.toNat_inj]
  exact Nat.le_iff_lt_or_eq

/-- Two computations agree up to their errors if their first steps and their rests do. -/
theorem toOption_bind {ε δ α β γ ρ : Type} {x : Except ε α} {y : Except δ β} {g : β → α}
    (first : x.toOption = y.toOption.map g) {f : α → Except ε γ} {h : β → Except δ ρ} {k : ρ → γ}
    (rest : ∀ b, (f (g b)).toOption = (h b).toOption.map k) :
    (x >>= f).toOption = (y >>= h).toOption.map k := by
  cases y with
  | error e =>
    cases x with
    | error => rfl
    | ok a => cases first
  | ok b =>
    cases x with
    | error => cases first
    | ok a =>
      obtain rfl : a = g b := Option.some.inj first
      exact rest b

/-- The bound on a big integer is the overflow check of the contract. -/
theorem assertToriumUint256_add (first second : Word) :
    (assertToriumUint256 ((first.toNat : Int) + second.toNat)).toOption =
      (orRevert Rewards.Error.arithmeticPanic (checkedAdd first second)).toOption.map
        fun sum => (sum.toNat : Int) := by
  by_cases fits : first.toNat + second.toNat < 2 ^ 256
  · rw [Evm.checkedAdd, if_pos fits, ← Int.natCast_add, assertToriumUint256_natCast fits,
      ← BitVec.toNat_add_of_lt fits]
    rfl
  · have outside : (first.toNat : Int) + second.toNat < 0 ∨
        (UINT256_MAX : Int) < (first.toNat : Int) + second.toNat := by
      simp only [UINT256_MAX]
      omega
    rw [Evm.checkedAdd, if_neg fits, assertToriumUint256, throwIf, revertIf, if_pos outside]
    rfl

section Proofs

variable [Keccak]

theorem hashToriumRewardNode_eq (hash : Bytes32) (sum : Word) {sibling : RewardProofNode}
    {word : Rewards.ProofNode} (spells : sibling.Spells word) :
    (hashToriumRewardNode (nodeOf (hash, sum)) sibling).toOption =
      (Rewards.hashNode hash sum word.nodeHash word.sum).toOption.map nodeOf := by
  have ordered : Hexadecimal.textLe (toLowerCase (hashText hash)) (toLowerCase sibling.nodeHash) =
      decide (hash < word.nodeHash ∨ hash = word.nodeHash) := by
    rw [toLowerCase_hashText, toLowerCase_eq spells.hash, spells.value, textLe_hashText]
  rw [hashToriumRewardNode, nodeOf, spells.sum, assertToriumUint256_natCast sum.isLt, ok_bind,
    assertToriumUint256_natCast word.sum.isLt, ok_bind, Rewards.hashNode]
  refine toOption_bind (assertToriumUint256_add sum word.sum) fun parent => ?_
  rw [ordered, Rewards.nodeWords]
  by_cases smaller : hash < word.nodeHash ∨ hash = word.nodeHash
  · simp only [decide_eq_true smaller, if_true, if_pos smaller, spells.sum,
      encodeBytes32_eq (isHash_hashText hash), hashValue_hashText, ok_bind, encodeUint_toNat,
      encodeBytes32_eq spells.hash, spells.value]
    rfl
  · simp only [decide_eq_false smaller, Bool.false_eq_true, if_false, if_neg smaller, spells.sum,
      encodeBytes32_eq (isHash_hashText hash), hashValue_hashText, ok_bind, encodeUint_toNat,
      encodeBytes32_eq spells.hash, spells.value]
    rfl

/-- Both loops fail at the same places and return the same root. -/
theorem climbProof_eq {proof : List RewardProofNode} {words : List Rewards.ProofNode}
    (spells : List.Forall₂ RewardProofNode.Spells proof words) (proofIndex : Nat)
    (node : Bytes32 × Word) :
    (climbProof proofIndex (nodeOf node) proof).toOption =
      (Rewards.climb proofIndex node.1 node.2 words).toOption.map nodeOf := by
  induction spells generalizing proofIndex node with
  | nil => rfl
  | @cons sibling word rest rest' spelled _ ih =>
    have zero : sibling.nodeHash = zeroHash ∨ sibling.sum = 0 ↔
        word.nodeHash = 0 ∨ word.sum = 0 := by
      rw [eq_zeroHash_iff spelled.hash, spelled.value, spelled.sum,
        ← BitVec.toNat_inj (x := word.sum)]
      simp
    rw [climbProof, Rewards.climb]
    by_cases malformed : word.nodeHash = 0 ∨ word.sum = 0
    · rw [throwIf, revertIf, revertIf, if_pos (zero.mpr malformed), if_pos malformed]
      rfl
    · rw [throwIf, revertIf, revertIf, if_neg (mt zero.mp malformed), if_neg malformed]
      exact toOption_bind (hashToriumRewardNode_eq node.1 node.2 spelled) fun above =>
        ih (proofIndex + 1) above

end Proofs

/-! ## Reads -/

/-- Well-formed parameters for a claim on an epoch. -/
structure RewardClaimParameters.For (format : AddressFormat) (registryEntry : RegistryEntry)
    (cfg : Rewards.Config) (epochId : Word) (claim : Rewards.Claim)
    (parameters : RewardClaimParameters) : Prop where
  deployed : resolveToriumContractDeployment format distributorName registryEntry
    parameters.deployment = .ok (format.checksum cfg.self)
  epochId : parameters.epochId = epochId.toNat
  index : parameters.index = claim.index.toNat
  account : format.parse parameters.account = some claim.account
  amount : parameters.amount = claim.amount.toNat
  proof : List.Forall₂ RewardProofNode.Spells parameters.proof claim.proof

section Reads

variable (format : AddressFormat) (cfg : Rewards.Config) (w : Rewards.World)

theorem read_epochs (epochId : Word) :
    (distributorClient format cfg w).readContract (format.checksum cfg.self)
      (.epochs epochId.toNat) = .ok (decodeEpoch (w.storage.epochs epochId)) := by
  simp only [distributorClient, format.parse_checksum, throwIf, revertIf, ne_eq,
    not_true_eq_false, if_false, ok_bind, encodeUint_toNat]
  rfl

theorem read_isClaimed (epochId index : Word) :
    (distributorClient format cfg w).readContract (format.checksum cfg.self)
      (.isClaimed epochId.toNat index.toNat) =
      .ok (.bool (Rewards.isClaimed w.storage epochId index)) := by
  simp only [distributorClient, format.parse_checksum, throwIf, revertIf, ne_eq,
    not_true_eq_false, if_false, ok_bind, encodeUint_toNat]
  rfl

theorem read_paused :
    (distributorClient format cfg w).readContract (format.checksum cfg.self) .paused =
      .ok (.bool w.storage.paused) := by
  simp only [distributorClient, format.parse_checksum, throwIf, revertIf, ne_eq,
    not_true_eq_false, if_false, ok_bind]
  rfl

/-- The epoch of the SDK for an epoch of the contract. -/
def epochOf (epochId : Int) (epoch : Rewards.Epoch) : RewardEpoch where
  epochId := epochId
  rootHash := hashText epoch.rootHash
  funded := epoch.funded.toNat
  claimStart := epoch.claimStart.toNat
  claimEnd := epoch.claimEnd.toNat
  claimed := epoch.claimed.toNat
  clawed := epoch.clawed.toNat

/-- A decoded epoch passes every check; one that was never published is null. -/
theorem parseRewardEpoch_decodeEpoch (epoch : Rewards.Epoch) (epochId : Int) :
    parseRewardEpoch (decodeEpoch epoch) epochId =
      .ok (if epoch.rootHash = 0 then none else some (epochOf epochId epoch)) := by
  have zero : hashText epoch.rootHash = zeroHash ↔ epoch.rootHash = 0 :=
    hashText_injective.eq_iff
  simp only [parseRewardEpoch, decodeEpoch, List.length_cons, List.length_nil, throwIf, revertIf,
    ne_eq, not_true_eq_false, if_false, ok_bind, Raw.item, List.getD_cons_zero,
    List.getD_cons_succ, parseHashValue_hashText, zero]
  split_ifs with absent
  · rfl
  · simp only [parseUint_toNat _ _ (show 256 ≤ 256 by decide),
      parseUint_toNat _ _ (show 64 ≤ 256 by decide), ok_bind]
    rfl

end Reads

/-! ## The prediction -/

section Prediction

variable [Keccak] {format : AddressFormat} {registryEntry : RegistryEntry} {cfg : Rewards.Config}
  {epochId : Word} {claim : Rewards.Claim} {parameters : RewardClaimParameters}

theorem processToriumRewardProof_eq {proof : List RewardProofNode}
    (spells : List.Forall₂ RewardProofNode.Spells proof claim.proof) :
    (processToriumRewardProof format
        { epochId := epochId.toNat, index := claim.index.toNat
          account := format.checksum claim.account, amount := claim.amount.toNat } proof).toOption =
      (Rewards.processProof epochId claim.index claim.account claim.amount
        claim.proof).toOption.map nodeOf := by
  simp only [processToriumRewardProof, hashToriumRewardLeaf,
    assertToriumUint256_natCast (BitVec.isLt _), ok_bind, encodeUint_toNat,
    getAddress_eq format (format.parse_checksum claim.account), encodeAddress_checksum]
  exact climbProof_eq spells 0 (_, claim.amount)

omit [Keccak] in
theorem epochBlockers_eq_nil {computed : Option RewardProofNode} {now : Int}
    {epoch : RewardEpoch} : epochBlockers computed now (some epoch) = [] ↔
      epoch.claimStart ≤ now ∧ now < epoch.claimEnd ∧
      ∀ root ∈ computed, root.nodeHash = epoch.rootHash ∧ root.sum = epoch.funded := by
  rw [epochBlockers, List.append_eq_nil_iff, List.append_eq_nil_iff, blockIf_eq_nil,
    blockIf_eq_nil, blockIf_eq_nil, Int.not_lt, Int.not_le, and_assoc]
  simp only [not_exists, not_and, not_or, not_not]

omit [Keccak] in
theorem nodeOf_injective : Function.Injective nodeOf := by
  intro first second same
  obtain ⟨hash, sum⟩ := RewardProofNode.mk.inj same
  exact Prod.ext (hashText_injective hash) (BitVec.eq_of_toNat_eq (Int.ofNat_inj.mp sum))

/-- The blockers are empty exactly if the checks of the state pass. -/
theorem blockers_eq_nil {w : Rewards.World} {computed : Option RewardProofNode}
    (computes : computed = (Rewards.processProof epochId claim.index claim.account claim.amount
      claim.proof).toOption.map nodeOf) :
    blockIf (computed = none) RewardClaimBlocker.malformedProof ++
        blockIf (w.storage.paused = true) .distributorPaused ++
        epochBlockers computed w.now.toNat
          (if (w.storage.epochs epochId).rootHash = 0 then none
            else some (epochOf epochId.toNat (w.storage.epochs epochId))) ++
        blockIf (Rewards.isClaimed w.storage epochId claim.index = true) .alreadyClaimed = [] ↔
      Rewards.Eligible w epochId claim := by
  subst computes
  simp only [List.append_eq_nil_iff, blockIf_eq_nil, Bool.not_eq_true]
  constructor
  · rintro ⟨⟨⟨wellFormed, unpaused⟩, epoch⟩, unclaimed⟩
    by_cases published : (w.storage.epochs epochId).rootHash = 0
    · rw [if_pos published] at epoch
      cases epoch
    · rw [if_neg published] at epoch
      obtain ⟨started, unfinished, matching⟩ := epochBlockers_eq_nil.mp epoch
      refine ⟨unpaused, published, Int.ofNat_le.mp started, Int.ofNat_lt.mp unfinished, unclaimed,
        ?_⟩
      cases proved : Rewards.processProof epochId claim.index claim.account claim.amount
          claim.proof with
      | error =>
        rw [proved] at wellFormed
        exact absurd rfl wellFormed
      | ok root =>
        obtain ⟨hash, sum⟩ := matching (nodeOf root) (by rw [proved]; rfl)
        exact congrArg Except.ok (nodeOf_injective (RewardProofNode.mk.injEq .. ▸ ⟨hash, sum⟩))
  · intro eligible
    rw [eligible.proof, if_neg (by exact eligible.published)]
    refine ⟨⟨⟨Option.some_ne_none _, eligible.unpaused⟩, epochBlockers_eq_nil.mpr
      ⟨Int.ofNat_le.mpr eligible.started, Int.ofNat_lt.mpr eligible.unfinished, ?_⟩⟩,
      eligible.unclaimed⟩
    rintro root ⟨⟩
    exact ⟨rfl, rfl⟩

theorem preflightToriumRewardClaim_ok {w : Rewards.World}
    (about : parameters.For format registryEntry cfg epochId claim) :
    ∃ preflight, preflightToriumRewardClaim format registryEntry (distributorClient format cfg w)
        parameters = .ok preflight ∧
      (preflight.canClaim = true ↔ Rewards.Eligible w epochId claim) := by
  rw [preflightToriumRewardClaim, about.deployed, ok_bind, about.epochId, about.index,
    about.amount, assertToriumUint256_natCast epochId.isLt, ok_bind,
    assertToriumUint256_natCast claim.index.isLt, ok_bind, getAddress_eq format about.account,
    ok_bind, assertToriumUint256_natCast claim.amount.isLt, ok_bind]
  simp only [read_epochs, read_isClaimed, read_paused, ok_bind, parseRewardEpoch_decodeEpoch,
    parseBooleanValue, pure_bind]
  rw [show (distributorClient format cfg w).getBlockTimestamp = .bigint w.now.toNat from rfl,
    parseUint_toNat _ _ le_rfl, ok_bind]
  refine ⟨_, rfl, ?_⟩
  rw [List.isEmpty_iff]
  exact blockers_eq_nil (processToriumRewardProof_eq about.proof)

/-- The preflight is right about a claim, whatever the recipient does before it accepts the
payment, exactly if the account and the amount are not zero or the claim reverts anyway. -/
theorem reward_prediction_iff {m : Rewards.Machine} (reached : Rewards.Reachable cfg m)
    (idle : m.stack = []) (about : parameters.For format registryEntry cfg epochId claim)
    (accepts : claim.account ≠ cfg.self)
    (free : CollisionFree
      (Rewards.paidEncodings m.current ++ Rewards.proofEncodings epochId claim)) :
    ∃ preflight, preflightToriumRewardClaim format registryEntry
        (distributorClient format cfg m.current) parameters = .ok preflight ∧
      ((preflight.canClaim = true ↔ Rewards.ClaimSucceeds cfg m epochId claim) ↔
        (claim.account ≠ 0 ∧ claim.amount ≠ 0) ∨ ¬ Rewards.Eligible m.current epochId claim) := by
  obtain ⟨preflight, returned, canClaim⟩ := preflightToriumRewardClaim_ok (w := m.current) about
  refine ⟨preflight, returned, ?_⟩
  rw [canClaim, reached.claimSucceeds_iff idle accepts free]
  tauto

end Prediction

namespace Demo

def distributor : RegistryEntry where
  address := some (format.checksum 0x100)
  status := "deployed"

variable [Keccak]

/-- An epoch whose only leaf has the zero account. -/
def zeroAccount : List Rewards.Label :=
  [.publishEpoch 2 8
    { epochId := 1, rootHash := Rewards.leafHash 1 0 0 8, rootSum := 8, claimStart := 10
      claimEnd := 20 },
    .block 10]

/-- The parameters for a claim, spelled as results of the SDK. -/
def claimParameters (claim : Rewards.Claim) : RewardClaimParameters where
  deployment := none
  epochId := 1
  index := claim.index.toNat
  account := format.checksum claim.account
  amount := claim.amount.toNat
  proof := claim.proof.map fun node => nodeOf (node.nodeHash, node.sum)

end Demo

/-- The preflight allows a claim for the zero account, which the contract refuses. -/
theorem zero_account_allowed :
    letI := Keccak.rolling
    ∃ m, Rewards.Reachable Rewards.Demo.cfg m ∧ m.stack = [] ∧
      ∃ preflight, preflightToriumRewardClaim Demo.format Demo.distributor
          (distributorClient Demo.format Rewards.Demo.cfg m.current)
          (Demo.claimParameters ⟨0, 0, 8, []⟩) = .ok preflight ∧ preflight.canClaim = true ∧
        ¬ Rewards.ClaimSucceeds Rewards.Demo.cfg m 1 ⟨0, 0, 8, []⟩ := by
  let := Keccak.rolling
  obtain ⟨m, run, evaluated⟩ := run_of_execute_any
    (show (execute (Rewards.step Rewards.Demo.cfg) Demo.zeroAccount Rewards.Demo.start).any (
      fun m =>
      m.stack.isEmpty &&
      ((preflightToriumRewardClaim Demo.format Demo.distributor
        (distributorClient Demo.format Rewards.Demo.cfg m.current)
        (Demo.claimParameters ⟨0, 0, 8, []⟩)).toOption.any (·.canClaim) &&
      (Rewards.beginClaim Rewards.Demo.cfg 1 ⟨0, 0, 8, []⟩ m.current).toOption.isNone))
      by decide +kernel)
  simp only [Bool.and_eq_true, List.isEmpty_iff] at evaluated
  obtain ⟨idle, allowed, refused⟩ := evaluated
  obtain ⟨preflight, returned, canClaim⟩ := ok_of_any allowed
  refine ⟨m, ⟨_, _, Rewards.Demo.start_initial, run⟩, idle, preflight, returned, canClaim, ?_⟩
  rintro ⟨w, begun, -⟩
  rw [begun] at refused
  cases refused

theorem reward_prediction_iff_demo :
    letI := Rewards.Demo.keccak
    ∃ m, Rewards.Reachable Rewards.Demo.cfg m ∧
      ∃ preflight, preflightToriumRewardClaim Demo.format Demo.distributor
          (distributorClient Demo.format Rewards.Demo.cfg m.current)
          (Demo.claimParameters Rewards.Demo.firstClaim) = .ok preflight ∧
        (preflight.canClaim = true ↔
          Rewards.ClaimSucceeds Rewards.Demo.cfg m 1 Rewards.Demo.firstClaim) := by
  let := Rewards.Demo.keccak
  obtain ⟨m, run, evaluated⟩ := run_of_execute_any
    (show (execute (Rewards.step Rewards.Demo.cfg) (Rewards.Demo.labels.take 2)
      Rewards.Demo.start).any (fun m => m.stack.isEmpty && decide (CollisionFree
        (Rewards.paidEncodings m.current ++ Rewards.proofEncodings 1 Rewards.Demo.firstClaim)))
      by decide +kernel)
  simp only [Bool.and_eq_true, List.isEmpty_iff, decide_eq_true_eq] at evaluated
  obtain ⟨idle, free⟩ := evaluated
  have reached : Rewards.Reachable Rewards.Demo.cfg m := ⟨_, _, Rewards.Demo.start_initial, run⟩
  have about : (Demo.claimParameters Rewards.Demo.firstClaim).For Demo.format Demo.distributor
      Rewards.Demo.cfg 1 Rewards.Demo.firstClaim :=
    { deployed := by decide +kernel
      epochId := rfl
      index := rfl
      account := Demo.format.parse_checksum _
      amount := rfl
      proof := .cons ⟨isHash_hashText _, hashValue_hashText _, rfl⟩ .nil }
  obtain ⟨preflight, returned, predicts⟩ := reward_prediction_iff reached idle about
    (by decide) free
  exact ⟨m, reached, preflight, returned, predicts.mpr (.inl (by decide))⟩

end Torium.Sdk
