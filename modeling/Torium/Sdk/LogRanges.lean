import Mathlib.Algebra.Order.Floor.Ring
import Mathlib.Data.Int.ConditionallyCompleteOrder
import Mathlib.Data.Int.Interval
import Mathlib.Data.Rat.Floor
import Mathlib.Tactic.Linarith

/-!
# Ranges of a log request

A request for the logs of many blocks is cut into ranges that the node answers. The bounds of
a range are inclusive. The ranges cover the request without gap and overlap, and no cover by
ranges of that span is shorter.
-/

namespace Torium.Sdk

structure ToriumBlockRange where
  fromBlock : Int
  toBlock : Int
  deriving DecidableEq

/-- The number of blocks that a node answers for at once. -/
def logBlockRange : Int := 10000

/-- The loop of `createToriumLogRanges`. -/
def logRangesFrom (toBlock start : Int) : List ToriumBlockRange :=
  if start ≤ toBlock then
    let last := start + logBlockRange - 1
    ⟨start, if last < toBlock then last else toBlock⟩ ::
      logRangesFrom toBlock (start + logBlockRange)
  else []
termination_by (toBlock + 1 - start).toNat
decreasing_by
  rw [logBlockRange]
  omega

def createToriumLogRanges (parameters : ToriumBlockRange) :
    Except String (List ToriumBlockRange) :=
  if parameters.fromBlock < 0 ∨ parameters.toBlock < 0 then
    throw "Torium log ranges must not use negative blocks."
  else if parameters.toBlock < parameters.fromBlock then
    throw "Torium log range end must not precede its start."
  else pure (logRangesFrom parameters.toBlock parameters.fromBlock)

/-! ## Tilings -/

/-- The blocks of a range. -/
noncomputable def ToriumBlockRange.blocks (range : ToriumBlockRange) : Finset Int :=
  Finset.Icc range.fromBlock range.toBlock

/-- The ranges follow each other from the first block to the last one, and each of them holds
some blocks, but not too many. -/
inductive Tiles (span : Int) : Int → Int → List ToriumBlockRange → Prop where
  | nil {first : Int} : Tiles span first (first - 1) []
  | cons {first last next : Int} {ranges : List ToriumBlockRange} :
      first ≤ next → next - first + 1 ≤ span → Tiles span (next + 1) last ranges →
      Tiles span first last (⟨first, next⟩ :: ranges)

namespace Tiles

variable {span first last : Int} {ranges : List ToriumBlockRange}
variable (tiles : Tiles span first last ranges)

include tiles

theorem le : first ≤ last + 1 := by
  induction tiles with
  | nil => omega
  | cons _ _ _ ih => omega

theorem range_mem {range : ToriumBlockRange} (member : range ∈ ranges) :
    first ≤ range.fromBlock ∧ range.fromBlock ≤ range.toBlock ∧
      range.toBlock ≤ last ∧ range.toBlock - range.fromBlock + 1 ≤ span := by
  induction tiles with
  | nil => cases member
  | cons nonempty short rest ih =>
    obtain rfl | later := List.mem_cons.mp member
    · have := rest.le
      exact ⟨le_rfl, nonempty, by dsimp only; omega, short⟩
    · obtain ⟨after, others⟩ := ih later
      exact ⟨by omega, others⟩

/-- No gap: every block is in a range. -/
theorem covers {block : Int} (low : first ≤ block) (high : block ≤ last) :
    ∃ range ∈ ranges, block ∈ range.blocks := by
  induction tiles with
  | nil => omega
  | @cons first last next ranges _ _ _ ih =>
    by_cases here : block ≤ next
    · exact ⟨_, List.mem_cons_self, Finset.mem_Icc.mpr ⟨low, here⟩⟩
    · obtain ⟨range, member, within⟩ := ih (by omega) high
      exact ⟨range, List.mem_cons_of_mem _ member, within⟩

/-- No overlap, and the ranges are in increasing order. -/
theorem increasing :
    ranges.Pairwise fun range later => range.toBlock < later.fromBlock := by
  induction tiles with
  | nil => exact .nil
  | cons _ _ rest ih =>
    refine .cons (fun later member => ?_) ih
    obtain ⟨after, -⟩ := rest.range_mem member
    dsimp only
    omega

/-- Every range starts where the one before it has ended. -/
theorem consecutive :
    ranges.IsChain fun range next => next.fromBlock = range.toBlock + 1 := by
  induction tiles with
  | nil => exact .nil
  | cons _ _ rest ih =>
    cases rest with
    | nil => exact .singleton _
    | cons => exact .cons_cons rfl ih

end Tiles

/-- A cover of some blocks by ranges of a span needs so many ranges. -/
theorem card_le_of_cover {span : Int} (blocks : Finset Int) {ranges : List ToriumBlockRange}
    (short : ∀ range ∈ ranges, range.toBlock - range.fromBlock + 1 ≤ span) (positive : 0 ≤ span)
    (covers : ∀ block ∈ blocks, ∃ range ∈ ranges, block ∈ range.blocks) :
    (blocks.card : Int) ≤ ranges.length * span := by
  induction ranges generalizing blocks with
  | nil =>
    have empty : blocks = ∅ := Finset.eq_empty_of_forall_notMem fun block member => by
      obtain ⟨range, none, -⟩ := covers block member
      cases none
    rw [empty]
    simp
  | cons range ranges ih =>
    have rest := ih (blocks \ range.blocks)
      (fun other member => short other (List.mem_cons_of_mem _ member)) fun block member => by
        obtain ⟨inside, outside⟩ := Finset.mem_sdiff.mp member
        obtain ⟨other, listed, here⟩ := covers block inside
        obtain rfl | listed := List.mem_cons.mp listed
        · exact absurd here outside
        · exact ⟨other, listed, here⟩
    have split : blocks.card ≤ (blocks \ range.blocks).card + range.blocks.card :=
      Finset.card_le_card_sdiff_add_card
    have size : (range.blocks.card : Int) ≤ span := by
      rw [ToriumBlockRange.blocks, Int.card_Icc]
      have := short range List.mem_cons_self
      omega
    rw [List.length_cons, Nat.cast_succ, add_one_mul]
    omega

/-! ## The loop -/

theorem logBlockRange_pos : 0 < logBlockRange := by decide

/-- What the loop returns tiles the blocks that are left. -/
theorem tiles_logRangesFrom {toBlock start : Int} (left : start ≤ toBlock) :
    Tiles logBlockRange start toBlock (logRangesFrom toBlock start) := by
  have positive := logBlockRange_pos
  fun_induction logRangesFrom toBlock start with
  | case1 start _ last ih =>
    by_cases more : last < toBlock
    · rw [if_pos more]
      have rest := ih (by omega)
      rw [show start + logBlockRange = last + 1 by omega] at rest ⊢
      exact .cons (by omega) (by omega) rest
    · rw [if_neg more, logRangesFrom, if_neg (by omega)]
      refine .cons left (by omega) ?_
      have done : Tiles logBlockRange (toBlock + 1) (toBlock + 1 - 1) [] := .nil
      rwa [add_sub_cancel_right] at done
  | case2 start past => exact absurd left past

/-- All ranges but the last one are full. -/
theorem length_logRangesFrom {toBlock start : Int} (left : start ≤ toBlock) :
    ((logRangesFrom toBlock start).length - 1 : Int) * logBlockRange < toBlock - start + 1 := by
  have positive := logBlockRange_pos
  fun_induction logRangesFrom toBlock start with
  | case1 start _ last ih =>
    rw [List.length_cons, Nat.cast_succ, add_sub_cancel_right]
    by_cases more : start + logBlockRange ≤ toBlock
    · have rest := ih more
      rw [sub_one_mul] at rest
      omega
    · rw [logRangesFrom, if_neg more, List.length_nil, Nat.cast_zero, zero_mul]
      omega
  | case2 start past => exact absurd left past

/-- The ranges of a request follow each other in increasing order, cover exactly the blocks of
the request, hold some blocks each and no more than the span, and there are as few of them as
any cover by such ranges has. -/
theorem logRanges_partition {fromBlock toBlock : Int} (low : 0 ≤ fromBlock)
    (ordered : fromBlock ≤ toBlock) :
    ∃ ranges, createToriumLogRanges ⟨fromBlock, toBlock⟩ = .ok ranges ∧
      (∀ range ∈ ranges, range.fromBlock ≤ range.toBlock ∧
        range.toBlock - range.fromBlock + 1 ≤ logBlockRange) ∧
      (ranges.Pairwise fun range later => range.toBlock < later.fromBlock) ∧
      (ranges.IsChain fun range next => next.fromBlock = range.toBlock + 1) ∧
      (∀ block, (∃ range ∈ ranges, block ∈ range.blocks) ↔
        fromBlock ≤ block ∧ block ≤ toBlock) ∧
      (ranges.length : Int) = ⌈((toBlock - fromBlock + 1 : Int) : ℚ) / (logBlockRange : ℚ)⌉ ∧
      ∀ cover : List ToriumBlockRange,
        (∀ range ∈ cover, range.toBlock - range.fromBlock + 1 ≤ logBlockRange) →
        (∀ block, fromBlock ≤ block → block ≤ toBlock → ∃ range ∈ cover, block ∈ range.blocks) →
          ranges.length ≤ cover.length := by
  have positive := logBlockRange_pos
  have tiles := tiles_logRangesFrom ordered
  have full := length_logRangesFrom ordered
  -- A cover needs as many ranges as the blocks fill.
  have needed (cover : List ToriumBlockRange)
      (short : ∀ range ∈ cover, range.toBlock - range.fromBlock + 1 ≤ logBlockRange)
      (covers : ∀ block, fromBlock ≤ block → block ≤ toBlock →
        ∃ range ∈ cover, block ∈ range.blocks) :
      toBlock - fromBlock + 1 ≤ cover.length * logBlockRange := by
    have counted := card_le_of_cover (Finset.Icc fromBlock toBlock) short positive.le
      fun block member => covers block (Finset.mem_Icc.mp member).1 (Finset.mem_Icc.mp member).2
    rw [Int.card_Icc] at counted
    omega
  have enough := needed (logRangesFrom toBlock fromBlock)
    (fun range member => (tiles.range_mem member).2.2.2) fun _ => tiles.covers
  refine ⟨logRangesFrom toBlock fromBlock, ?_, fun range member => ?_, tiles.increasing,
    tiles.consecutive, fun block => ⟨?_, fun ⟨low, high⟩ => tiles.covers low high⟩, ?_, ?_⟩
  · rw [createToriumLogRanges, if_neg (by dsimp only; omega), if_neg (by dsimp only; omega)]
    rfl
  · obtain ⟨-, nonempty, -, short⟩ := tiles.range_mem member
    exact ⟨nonempty, short⟩
  · rintro ⟨range, member, within⟩
    obtain ⟨first, -, last, -⟩ := tiles.range_mem member
    obtain ⟨after, before⟩ := Finset.mem_Icc.mp within
    exact ⟨first.trans after, before.trans last⟩
  · have span : (0 : ℚ) < logBlockRange := by exact_mod_cast positive
    refine (Int.ceil_eq_iff.mpr ⟨?_, ?_⟩).symm
    · rw [lt_div_iff₀ span]
      exact_mod_cast full
    · rw [div_le_iff₀ span]
      exact_mod_cast enough
  · intro cover short covers
    have bound := needed cover short covers
    have less : ((logRangesFrom toBlock fromBlock).length - 1 : Int) < cover.length :=
      lt_of_mul_lt_mul_right (full.trans_le bound) positive.le
    omega

/-- A request that ends with a full range, and one with a block more. -/
theorem logRanges_partition_demo :
    createToriumLogRanges ⟨5, 20004⟩ = .ok [⟨5, 10004⟩, ⟨10005, 20004⟩] ∧
      ∃ ranges, createToriumLogRanges ⟨5, 20005⟩ = .ok ranges ∧
        ∀ block, (∃ range ∈ ranges, block ∈ range.blocks) ↔ 5 ≤ block ∧ block ≤ 20005 := by
  constructor
  · simp [createToriumLogRanges, logRangesFrom, logBlockRange, pure, Except.pure]
  · obtain ⟨ranges, created, -, -, -, covers, -⟩ :=
      logRanges_partition (show (0 : Int) ≤ 5 by decide) (show (5 : Int) ≤ 20005 by decide)
    exact ⟨ranges, created, covers⟩

end Torium.Sdk
