import Torium.Evm.Abi
import Torium.Lib.BitGroups
import Torium.Lib.ShiftRegister
import Torium.Sdk.Values

/-!
# Account addresses in Bech32

An account of 20 bytes is written as 32 letters of five bits each, followed by six letters of a
checksum. Numbers that the code shifts and masks are 32-bit words here, as they are there. The
checksum is a linear shift register that loses no difference of 30 bits, so one wrong letter or
two neighbours in the wrong order are always noticed.
-/

namespace Torium.Sdk

open Generator

/-! ## The functions of the SDK -/

/-- The case mapping of the standard library, which is only known on ASCII text. -/
class CaseMapping where
  lower : Text → Text
  lower_ascii : ∀ text, (∀ c ∈ text, c.toNat < 128) → lower text = toLowerCase text

/-- A number on which bitwise operations act. -/
abbrev Number : Type := BitVec 32

/-- The length of a string in UTF-16 code units. -/
def utf16Length (text : Text) : Nat :=
  (text.map fun c => if c.toNat < 0x10000 then 1 else 2).sum

def bech32Alphabet : Text := "qpzry9x8gf2tvdw0s3jn54khce6mua7l".toList

def bech32Generator : List Number :=
  [0x3b6a57b2, 0x26508e6d, 0x1ea119fa, 0x3d4233dd, 0x2a1462b3]

def indexOf (text : Text) (character : Char) : Number :=
  match text.idxOf? character with
  | some index => BitVec.ofNat 32 index
  | none => -1

def expandBech32Hrp (hrp : Text) : List Number :=
  hrp.map (fun character => BitVec.ofNat 32 character.toNat >>> 5) ++ [0#32] ++
    hrp.map (fun character => BitVec.ofNat 32 character.toNat &&& 31#32)

/-- The body of the loop over the generator: the generators that the bits of `top` select are
added to the checksum. -/
def addGenerators (top checksum : Number) : Number :=
  (List.range bech32Generator.length).foldl (fun checksum index =>
    if (top >>> index) &&& 1#32 ≠ 0#32 then checksum ^^^ bech32Generator.getD index 0#32
    else checksum) checksum

def bech32PolymodStep (checksum value : Number) : Number :=
  let top := checksum >>> 25
  addGenerators top (((checksum &&& 0x1ffffff#32) <<< 5) ^^^ value)

def bech32Polymod (values : List Number) : Number :=
  values.foldl bech32PolymodStep 1#32

def createBech32Checksum (hrp : Text) (words : List Number) : List Number :=
  let polymod :=
    bech32Polymod (expandBech32Hrp hrp ++ words ++ [0#32, 0#32, 0#32, 0#32, 0#32, 0#32]) ^^^ 1#32
  (List.range 6).map fun index => (polymod >>> (5 * (5 - index))) &&& 31#32

def verifyBech32Checksum (hrp : Text) (words : List Number) : Bool :=
  bech32Polymod (expandBech32Hrp hrp ++ words) == 1#32

/-- The variables of `convertBits`. -/
structure Conversion where
  accumulator : Number := 0#32
  bitCount : Nat := 0
  result : List Number := []

def maximumOutput (toBits : Nat) : Number := 1#32 <<< toBits - 1#32

def maximumAccumulator (fromBits toBits : Nat) : Number :=
  1#32 <<< (fromBits + toBits - 1) - 1#32

/-- The inner loop of `convertBits`. Each round removes bits, so their number bounds the rounds. -/
def Conversion.emit (toBits : Nat) : Nat → Conversion → Conversion
  | 0, state => state
  | rounds + 1, state =>
    if toBits ≤ state.bitCount then
      let bitCount := state.bitCount - toBits
      Conversion.emit toBits rounds
        { state with
          bitCount
          result := state.result ++ [state.accumulator >>> bitCount &&& maximumOutput toBits] }
    else state

/-- The body of the outer loop of `convertBits`. -/
def Conversion.take (fromBits toBits : Nat) (state : Conversion) (value : Number) :
    Except String Conversion := do
  throwIf (value.slt 0#32 ∨ value >>> fromBits ≠ 0#32)
    "Torium Bech32 account contains an invalid data word."
  let accumulator :=
    (state.accumulator <<< fromBits ||| value) &&& maximumAccumulator fromBits toBits
  let bitCount := state.bitCount + fromBits
  pure (Conversion.emit toBits bitCount { state with accumulator, bitCount })

def convertBits (values : List Number) (fromBits toBits : Nat) (pad : Bool) :
    Except String (List Number) := do
  let state ← values.foldlM (Conversion.take fromBits toBits) {}
  let rest := state.accumulator <<< (toBits - state.bitCount) &&& maximumOutput toBits
  if pad then
    pure (if 0 < state.bitCount then state.result ++ [rest] else state.result)
  else do
    throwIf (fromBits ≤ state.bitCount ∨ rest ≠ 0#32) "Torium Bech32 account has invalid padding."
    pure state.result

def hrpText : Text := "torium".toList

/-- The part of an address that stands before its words. -/
def addressStart : Text := "torium1".toList

def encodeBech32Account (bytes : List Evm.Byte) : Except String Text := do
  throwIf (bytes.length ≠ 20) "Torium account address must contain exactly 20 bytes."
  let words ← convertBits (bytes.map (·.setWidth 32)) 8 5 true
  let checksum := createBech32Checksum hrpText words
  pure (addressStart ++ (words ++ checksum).filterMap fun word => bech32Alphabet[word.toNat]?)

def decodeBech32Account [CaseMapping] (value : Text) : Except String (List Evm.Byte) := do
  throwIf (utf16Length value ≠ 45 ∨ value ≠ CaseMapping.lower value ∨
      addressStart.isPrefixOf value = false)
    "Torium Bech32 account must use the lowercase torium HRP."
  let payload := value.drop addressStart.length
  throwIf (utf16Length payload < 7) "Torium Bech32 account is incomplete."
  let words := payload.map (indexOf bech32Alphabet)
  throwIf (words.any (·.slt 0#32) ∨ verifyBech32Checksum hrpText words = false)
    "Torium Bech32 account has an invalid checksum or alphabet."
  let converted ← convertBits (words.take (words.length - 6)) 5 8 false
  let bytes := converted.map (·.setWidth 8)
  throwIf (bytes.length ≠ 20) "Torium Bech32 account must decode to exactly 20 bytes."
  pure bytes

/-! ## Conversion between groups of bits -/

section Conversion

open BitGroups

variable {fromBits toBits : Nat} {consumed : List Number} {state : Conversion}

theorem slt_zero_of_lt {value : Number} (small : value.toNat < 2 ^ 31) :
    value.slt 0#32 = false := by
  rw [Bool.eq_false_iff, ne_eq, BitVec.slt_zero_iff_msb_cond, BitVec.msb_eq_decide]
  simpa using small

/-- What holds between two rounds: the bits taken are those of the result and those that wait. -/
structure Conversion.Holds (fromBits toBits : Nat) (consumed : List Number) (state : Conversion) :
    Prop where
  bits : consumed.length * fromBits = state.result.length * toBits + state.bitCount
  fits : Fits toBits state.result
  same : number fromBits consumed =
    number toBits state.result * 2 ^ state.bitCount + state.accumulator.toNat % 2 ^ state.bitCount

theorem Conversion.Holds.emit (narrow : toBits < 32) (positive : 0 < toBits) {rounds : Nat}
    (enough : state.bitCount ≤ rounds) (holds : Conversion.Holds fromBits toBits consumed state) :
    Conversion.Holds fromBits toBits consumed (state.emit toBits rounds) ∧
      (state.emit toBits rounds).bitCount < toBits ∧
      (state.emit toBits rounds).accumulator = state.accumulator := by
  induction rounds generalizing state with
  | zero => exact ⟨holds, by rw [Conversion.emit]; omega, rfl⟩
  | succ rounds ih =>
    rw [Conversion.emit]
    split_ifs with more
    · refine ih (by simp only; omega) ⟨?_, ?_, ?_⟩
      · have := holds.bits
        simp only [List.length_append, List.length_singleton, Nat.add_mul]
        omega
      · refine fits_append.mpr ⟨holds.fits, fits_singleton.mpr ?_⟩
        rw [maximumOutput, toNat_and_lowBits _ narrow]
        exact Nat.mod_lt _ (Nat.two_pow_pos toBits)
      · have bitCount : state.bitCount = state.bitCount - toBits + toBits := by omega
        rw [holds.same, bitCount, mod_shiftOut _ narrow, number_append_singleton, Nat.pow_add,
          Nat.add_sub_cancel, maximumOutput]
        ring
    · exact ⟨holds, by omega, rfl⟩

/-- One value is taken. The register is wide enough for the bits that wait and the new ones. -/
theorem Conversion.Holds.take {value : Number} (positive : 0 < toBits) (positive' : 0 < fromBits)
    (narrow : fromBits + (fromBits + toBits - 1) < 32) (small : value.toNat < 2 ^ fromBits)
    (waiting : state.bitCount < toBits)
    (bounded : state.accumulator.toNat < 2 ^ (fromBits + toBits - 1))
    (holds : Conversion.Holds fromBits toBits consumed state) :
    ∃ after, state.take fromBits toBits value = .ok after ∧
      Conversion.Holds fromBits toBits (consumed ++ [value]) after ∧ after.bitCount < toBits ∧
      after.accumulator.toNat < 2 ^ (fromBits + toBits - 1) := by
  have accepted : ¬ (value.slt 0#32 ∨ value >>> fromBits ≠ 0#32) := by
    have low : value.toNat < 2 ^ 31 := small.trans_le (Nat.pow_le_pow_right (by decide) (by omega))
    rw [not_or, not_not]
    constructor
    · exact Bool.eq_false_iff.mp (slt_zero_of_lt low)
    · apply BitVec.eq_of_toNat_eq
      rw [BitVec.toNat_ushiftRight, Nat.shiftRight_eq_div_pow, Nat.div_eq_of_lt small]
      rfl
  have room : state.accumulator.toNat * 2 ^ fromBits < 2 ^ 32 := by
    calc state.accumulator.toNat * 2 ^ fromBits
        < 2 ^ (fromBits + toBits - 1) * 2 ^ fromBits :=
          Nat.mul_lt_mul_of_pos_right bounded (Nat.two_pow_pos fromBits)
      _ = 2 ^ (fromBits + (fromBits + toBits - 1)) := by rw [← Nat.pow_add, Nat.add_comm]
      _ ≤ 2 ^ 32 := Nat.pow_le_pow_right (by decide) narrow.le
  have taken : Conversion.Holds fromBits toBits (consumed ++ [value])
      { state with
        accumulator :=
          (state.accumulator <<< fromBits ||| value) &&& maximumAccumulator fromBits toBits
        bitCount := state.bitCount + fromBits } := by
    refine ⟨?_, holds.fits, ?_⟩
    · have := holds.bits
      simp only [List.length_append, List.length_singleton, Nat.add_mul]
      omega
    · rw [number_append_singleton, holds.same, maximumAccumulator,
        mod_shiftIn small room (by omega) (by omega), Nat.pow_add]
      ring
  obtain ⟨emitted, waits, kept⟩ := taken.emit (by omega) positive le_rfl
  refine ⟨_, ?_, emitted, waits, ?_⟩
  · rw [Conversion.take, throwIf, Evm.revertIf, if_neg accepted]
    rfl
  · rw [kept, maximumAccumulator, toNat_and_lowBits _ (by omega)]
    exact Nat.mod_lt _ (Nat.two_pow_pos _)

theorem Conversion.run (positive : 0 < toBits) (positive' : 0 < fromBits)
    (narrow : fromBits + (fromBits + toBits - 1) < 32) {values : List Number}
    (fits : Fits fromBits values) :
    ∃ state, values.foldlM (Conversion.take fromBits toBits) {} = .ok state ∧
      Conversion.Holds fromBits toBits values state ∧ state.bitCount < toBits ∧
      state.accumulator.toNat < 2 ^ (fromBits + toBits - 1) := by
  induction values using List.reverseRecOn with
  | nil =>
    refine ⟨{}, rfl, ⟨?_, ?_, rfl⟩, positive, Nat.two_pow_pos _⟩
    · simp
    · intro group member
      cases member
  | append_singleton values value ih =>
    obtain ⟨before, small⟩ := fits_append.mp fits
    obtain ⟨state, ran, holds, waiting, bounded⟩ := ih before
    obtain ⟨after, taken, facts⟩ :=
      holds.take positive positive' narrow (fits_singleton.mp small) waiting bounded
    refine ⟨after, ?_, facts⟩
    rw [List.foldlM_append, ran]
    change (state.take fromBits toBits value >>= fun after => pure after) = _
    rw [taken]
    rfl

/-- When the bits divide evenly, the groups that come out are the number that went in, with or
without padding. -/
theorem convertBits_exact {values : List Number} {count : Nat} (pad : Bool)
    (positive : 0 < toBits) (positive' : 0 < fromBits)
    (narrow : fromBits + (fromBits + toBits - 1) < 32) (fits : Fits fromBits values)
    (even : values.length * fromBits = count * toBits) :
    ∃ groups, convertBits values fromBits toBits pad = .ok groups ∧ groups.length = count ∧
      Fits toBits groups ∧ number toBits groups = number fromBits values := by
  obtain ⟨state, ran, holds, waiting, -⟩ := Conversion.run positive positive' narrow fits
  have divided : state.result.length * toBits + state.bitCount = count * toBits :=
    holds.bits.symm.trans even
  have none : state.bitCount = 0 := by
    have := congrArg (· % toBits) divided
    simpa [Nat.mod_eq_of_lt waiting] using this
  have length : state.result.length = count := by
    rw [none, Nat.add_zero] at divided
    exact Nat.eq_of_mul_eq_mul_right positive divided
  refine ⟨state.result, ?_, length, holds.fits, ?_⟩
  · have rest : state.accumulator <<< toBits &&& maximumOutput toBits = 0#32 := by
      apply BitVec.eq_of_toNat_eq
      rw [maximumOutput, toNat_and_lowBits _ (by omega), BitVec.toNat_shiftLeft, Nat.shiftLeft_eq,
        Nat.mod_mod_of_dvd _ (Nat.pow_dvd_pow 2 (by omega)), Nat.mul_mod_left]
      rfl
    rw [convertBits, ran]
    cases pad with
    | true =>
      change Except.ok (if 0 < state.bitCount then _ else _) = _
      rw [if_neg (by omega)]
    | false =>
      change (throwIf (fromBits ≤ state.bitCount ∨ _ ≠ _) _ >>= fun _ => pure state.result) = _
      rw [throwIf, Evm.revertIf, if_neg]
      · rfl
      · rw [none, Nat.sub_zero, rest]
        simp only [ne_eq, not_true_eq_false, or_false]
        omega
  · rw [holds.same, none, Nat.pow_zero, Nat.mul_one, Nat.mod_one, Nat.add_zero]

end Conversion

/-! ## The checksum -/

variable {words : List Number} {c : Char}

section Checksum

/-- The generator that one bit selects. -/
def tap (top : Number) (index : Nat) (generator : Number) : Number :=
  if top.getLsbD index then generator else 0#32

theorem tap_xor (x y : Number) (index : Nat) (generator : Number) :
    tap (x ^^^ y) index generator = tap x index generator ^^^ tap y index generator := by
  rw [tap, tap, tap, BitVec.getLsbD_xor]
  cases x.getLsbD index <;> cases y.getLsbD index <;> simp

/-- The sum of the generators that the bits select. -/
def taps (top : Number) : Number :=
  tap top 0 0x3b6a57b2 ^^^ (tap top 1 0x26508e6d ^^^ (tap top 2 0x1ea119fa ^^^
    (tap top 3 0x3d4233dd ^^^ tap top 4 0x2a1462b3)))

theorem taps_xor (x y : Number) : taps (x ^^^ y) = taps x ^^^ taps y := by
  simp only [taps, tap_xor]
  ac_rfl

theorem addGenerators_eq (top checksum : Number) :
    addGenerators top checksum = checksum ^^^ taps top := by
  have round (index : Nat) (checksum generator : Number) :
      (if top >>> index &&& 1#32 ≠ 0#32 then checksum ^^^ generator else checksum) =
        checksum ^^^ tap top index generator := by
    have bit : top >>> index &&& 1#32 ≠ 0#32 ↔ top.getLsbD index = true := by
      rw [BitVec.and_one_eq_setWidth_ofBool_getLsbD, BitVec.getLsbD_ushiftRight, Nat.add_zero]
      cases top.getLsbD index <;> decide
    rw [tap]
    simp only [bit]
    split_ifs <;> simp
  rw [addGenerators]
  change List.foldl _ checksum [0, 1, 2, 3, 4] = _
  simp only [List.foldl_cons, List.foldl_nil, round]
  simp only [bech32Generator, List.getD_cons_zero, List.getD_cons_succ, taps, BitVec.xor_assoc]

/-- The register of the checksum. -/
def bech32Register : ShiftRegister 32 where
  next checksum := ((checksum &&& 0x1ffffff#32) <<< 5) ^^^ taps (checksum >>> 25)
  linear x y := by
    have masked : (x ^^^ y) &&& 0x1ffffff#32 = (x &&& 0x1ffffff#32) ^^^ (y &&& 0x1ffffff#32) := by
      ext i
      simp [Bool.and_xor_distrib_right]
    rw [BitVec.ushiftRight_xor_distrib, taps_xor, masked, BitVec.shiftLeft_xor_distrib]
    ac_rfl

theorem bech32Polymod_eq (values : List Number) :
    bech32Polymod values = bech32Register.feed 1#32 values := by
  have step : bech32PolymodStep = fun state word => bech32Register.next state ^^^ word := by
    funext checksum value
    rw [bech32PolymodStep, addGenerators_eq, bech32Register, BitVec.xor_assoc,
      BitVec.xor_comm value, BitVec.xor_assoc]
  rw [bech32Polymod, step, ShiftRegister.feed]

/-- A value of 30 bits. -/
def Short (x : Number) : Prop := x.toNat < 2 ^ 30

instance (x : Number) : Decidable (Short x) := inferInstanceAs (Decidable (x.toNat < 2 ^ 30))

theorem Short.xor {x y : Number} (short : Short x) (short' : Short y) : Short (x ^^^ y) := by
  rw [Short, BitVec.toNat_xor]
  exact Nat.xor_lt_two_pow short short'

theorem Short.of_lt {x : Number} (small : x.toNat < 32) : Short x := small.trans (by decide)

theorem short_taps (top : Number) : Short (taps top) := by
  have short_tap (index : Nat) {generator : Number} (short : Short generator) :
      Short (tap top index generator) := by
    rw [tap]
    split_ifs
    · exact short
    · decide
  exact (short_tap 0 (by decide)).xor ((short_tap 1 (by decide)).xor
    ((short_tap 2 (by decide)).xor ((short_tap 3 (by decide)).xor (short_tap 4 (by decide)))))

theorem toNat_shifted (x : Number) :
    ((x &&& 0x1ffffff#32) <<< 5).toNat = x.toNat % 2 ^ 25 * 2 ^ 5 := by
  have masked : (x &&& 0x1ffffff#32).toNat = x.toNat % 2 ^ 25 := by
    rw [BitVec.toNat_and]
    exact Nat.and_two_pow_sub_one_eq_mod _ 25
  rw [BitVec.toNat_shiftLeft, masked, Nat.shiftLeft_eq]
  omega

theorem short_shifted (x : Number) : Short ((x &&& 0x1ffffff#32) <<< 5) := by
  rw [Short, toNat_shifted]
  omega

theorem short_next (x : Number) : Short (bech32Register.next x) :=
  (short_shifted x).xor (short_taps _)

theorem taps_eq_zero {top : Number} (none : ∀ index < 5, top.getLsbD index = false) :
    taps top = 0#32 := by
  rw [taps, tap, tap, tap, tap, tap, none 0 (by decide), none 1 (by decide), none 2 (by decide),
    none 3 (by decide), none 4 (by decide)]
  rfl

/-- The low bits of the generators are independent. -/
theorem taps_low_eq_zero {top : Number} (zero : taps top &&& 31#32 = 0#32) :
    ∀ index < 5, top.getLsbD index = false := by
  have independent : ∀ a b c d e : Bool,
      ((bif a then 0x3b6a57b2#32 else 0#32) ^^^ ((bif b then 0x26508e6d#32 else 0#32) ^^^
        ((bif c then 0x1ea119fa#32 else 0#32) ^^^ ((bif d then 0x3d4233dd#32 else 0#32) ^^^
          (bif e then 0x2a1462b3#32 else 0#32))))) &&& 31#32 = 0#32 →
      a = false ∧ b = false ∧ c = false ∧ d = false ∧ e = false := by
    decide
  simp only [taps, tap, ← cond_eq_ite] at zero
  obtain ⟨first, second, third, fourth, fifth⟩ := independent _ _ _ _ _ zero
  intro index small
  interval_cases index <;> assumption

/-- The register sends no difference of 30 bits to zero. -/
theorem next_eq_zero {x : Number} (short : Short x) (zero : bech32Register.next x = 0#32) :
    x = 0#32 := by
  have equal : (x &&& 0x1ffffff#32) <<< 5 = taps (x >>> 25) := BitVec.xor_eq_zero_iff.mp zero
  have shifted := toNat_shifted x
  have top : ∀ index < 5, (x >>> 25).getLsbD index = false := by
    refine taps_low_eq_zero (BitVec.eq_of_toNat_eq ?_)
    rw [← equal, BitVec.toNat_and, shifted]
    exact (Nat.and_two_pow_sub_one_eq_mod _ 5).trans (Nat.mul_mod_left _ _)
  have low : x.toNat % 2 ^ 25 = 0 := by
    rw [equal, taps_eq_zero top] at shifted
    exact (Nat.mul_eq_zero.mp shifted.symm).resolve_right (by decide)
  have high : x.toNat / 2 ^ 25 = 0 := by
    apply Nat.eq_of_testBit_eq
    intro index
    rw [Nat.zero_testBit, ← Nat.shiftRight_eq_div_pow, ← BitVec.toNat_ushiftRight]
    by_cases small : index < 5
    · exact top index small
    · apply Nat.testBit_lt_two_pow
      rw [BitVec.toNat_ushiftRight, Nat.shiftRight_eq_div_pow]
      have below : x.toNat / 2 ^ 25 < 2 ^ 5 := Nat.div_lt_of_lt_mul short
      exact below.trans_le (Nat.pow_le_pow_right (by decide) (not_lt.mp small))
  apply BitVec.eq_of_toNat_eq
  have := Nat.div_add_mod x.toNat (2 ^ 25)
  rw [low, high] at this
  exact this.symm

open BitGroups

/-- While its top bits are free, the register takes a word in at the bottom. -/
theorem toNat_next_xor {state word : Number} (free : state.toNat < 2 ^ 25)
    (small : word.toNat < 2 ^ 5) :
    (bech32Register.next state ^^^ word).toNat = state.toNat * 2 ^ 5 + word.toNat := by
  have top : state >>> 25 = 0#32 := by
    apply BitVec.eq_of_toNat_eq
    rw [BitVec.toNat_ushiftRight, Nat.shiftRight_eq_div_pow, Nat.div_eq_of_lt free]
    rfl
  have shifted : (bech32Register.next state).toNat = state.toNat * 2 ^ 5 := by
    change ((state &&& 0x1ffffff#32) <<< 5 ^^^ taps (state >>> 25)).toNat = _
    rw [top, taps_eq_zero (fun _ _ => BitVec.getLsbD_zero), BitVec.xor_zero, toNat_shifted]
    omega
  rw [BitVec.toNat_xor, shifted]
  have quotient := Nat.xor_div_two_pow (a := state.toNat * 2 ^ 5) (b := word.toNat) (n := 5)
  have remainder := Nat.xor_mod_two_pow (a := state.toNat * 2 ^ 5) (b := word.toNat) (n := 5)
  rw [Nat.mul_div_cancel _ (by decide), Nat.div_eq_of_lt small, Nat.xor_zero] at quotient
  rw [Nat.mul_mod_left, Nat.mod_eq_of_lt small, Nat.zero_xor] at remainder
  omega

/-- Six words fill the register, which started from zero. -/
theorem toNat_feed_zero (fits : Fits 5 words) (short : words.length ≤ 6) :
    (bech32Register.feed 0#32 words).toNat = number 5 words := by
  induction words using List.reverseRecOn with
  | nil => rfl
  | append_singleton words word ih =>
    rw [List.length_append, List.length_singleton] at short
    obtain ⟨before, small⟩ := fits_append.mp fits
    have read := ih before (by omega)
    have free : (bech32Register.feed 0#32 words).toNat < 2 ^ 25 := by
      rw [read]
      exact (number_lt (by decide) before).trans_le (Nat.pow_le_pow_right (by decide) (by omega))
    rw [ShiftRegister.feed_append, number_append_singleton, ← read]
    exact toNat_next_xor free (fits_singleton.mp small)

theorem fits_createBech32Checksum (hrp : Text) (words : List Number) :
    Fits 5 (createBech32Checksum hrp words) := by
  intro group member
  obtain ⟨index, -, rfl⟩ := List.mem_map.mp member
  rw [BitVec.toNat_and]
  exact Nat.lt_succ_of_le Nat.and_le_right

/-- The number in the register after the words and room for a checksum. -/
def unchecked (hrp : Text) (words : List Number) : Number :=
  bech32Polymod (expandBech32Hrp hrp ++ words ++ [0#32, 0#32, 0#32, 0#32, 0#32, 0#32])

/-- The words of the checksum are the number in the register, exclusive or one. -/
theorem number_createBech32Checksum (hrp : Text) (words : List Number) :
    number 5 (createBech32Checksum hrp words) = (unchecked hrp words ^^^ 1#32).toNat := by
  have short : Short (unchecked hrp words ^^^ 1#32) := by
    rw [unchecked, bech32Polymod_eq, ShiftRegister.feed_append]
    exact ((short_next _).xor (by decide)).xor (by decide)
  rw [createBech32Checksum, ← unchecked]
  generalize unchecked hrp words ^^^ 1#32 = polymod at short ⊢
  have word (shift : Nat) :
      (polymod >>> shift &&& 31#32).toNat = polymod.toNat / 2 ^ shift % 2 ^ 5 := by
    rw [BitVec.toNat_and, BitVec.toNat_ushiftRight, Nat.shiftRight_eq_div_pow]
    exact Nat.and_two_pow_sub_one_eq_mod _ 5
  change number 5 ([] ++ [polymod >>> 25 &&& 31#32] ++ [polymod >>> 20 &&& 31#32] ++
    [polymod >>> 15 &&& 31#32] ++ [polymod >>> 10 &&& 31#32] ++ [polymod >>> 5 &&& 31#32] ++
    [polymod >>> 0 &&& 31#32]) = _
  simp only [number_append_singleton, number_nil, word]
  rw [Short] at short
  omega

/-- Words are completed by one checksum only. -/
theorem verifyBech32Checksum_iff {hrp : Text} {check : List Number} (fits : Fits 5 check)
    (length : check.length = 6) :
    verifyBech32Checksum hrp (words ++ check) = true ↔ check = createBech32Checksum hrp words := by
  have split : bech32Polymod (expandBech32Hrp hrp ++ (words ++ check)) =
      unchecked hrp words ^^^ bech32Register.feed 0#32 check := by
    rw [unchecked, ← List.append_assoc, bech32Polymod_eq, bech32Polymod_eq,
      ShiftRegister.feed_append, ShiftRegister.feed_eq_xor, length, ← ShiftRegister.feed_append]
    rfl
  rw [verifyBech32Checksum, beq_iff_eq, split]
  have created := number_createBech32Checksum hrp words
  generalize unchecked hrp words = total at created ⊢
  constructor
  · intro one
    have filled : bech32Register.feed 0#32 check = total ^^^ 1#32 := by
      rw [← one, ← BitVec.xor_assoc, BitVec.xor_self, BitVec.zero_xor]
    refine number_injective (by decide) fits (fits_createBech32Checksum hrp words) ?_ ?_
    · rw [length, createBech32Checksum, List.length_map, List.length_range]
    · rw [created, ← filled, toNat_feed_zero fits length.le]
  · intro same
    have filled : bech32Register.feed 0#32 check = total ^^^ 1#32 := by
      apply BitVec.eq_of_toNat_eq
      rw [toNat_feed_zero fits length.le, ← created, same]
    rw [filled, ← BitVec.xor_assoc, BitVec.xor_self, BitVec.zero_xor]

section Detection

variable {hrp : Text} {before after : List Number} {word other : Number}

/-- Words that are verified bring the register to one state. -/
theorem feed_of_verified {others : List Number} (verified : verifyBech32Checksum hrp words)
    (verified' : verifyBech32Checksum hrp others) :
    bech32Register.feed (bech32Register.feed 1#32 (expandBech32Hrp hrp)) others =
      bech32Register.feed (bech32Register.feed 1#32 (expandBech32Hrp hrp)) words := by
  rw [verifyBech32Checksum, beq_iff_eq, bech32Polymod_eq, ShiftRegister.feed_append]
    at verified verified'
  exact verified'.trans verified.symm

theorem verify_substitute (small : word.toNat < 32) (small' : other.toNat < 32)
    (differ : word ≠ other) (verified : verifyBech32Checksum hrp (before ++ word :: after)) :
    ¬ verifyBech32Checksum hrp (before ++ other :: after) := by
  intro verified'
  exact bech32Register.feed_substitute_ne (fun x _ => short_next x) (fun _ => next_eq_zero)
    ((Short.of_lt small).xor (Short.of_lt small')) differ (feed_of_verified verified verified')

theorem verify_swap (small : word.toNat < 32) (small' : other.toNat < 32) (differ : word ≠ other)
    (verified : verifyBech32Checksum hrp (before ++ word :: other :: after)) :
    ¬ verifyBech32Checksum hrp (before ++ other :: word :: after) := by
  have low : (word ^^^ other).toNat < 2 ^ 5 := by
    rw [BitVec.toNat_xor]
    exact Nat.xor_lt_two_pow small small'
  have moves : bech32Register.next (word ^^^ other) ≠ word ^^^ other := by
    intro fixed
    have shifted : (bech32Register.next (word ^^^ other) ^^^ 0#32).toNat =
        (word ^^^ other).toNat * 2 ^ 5 + 0 := toNat_next_xor (low.trans (by decide)) (by decide)
    rw [BitVec.xor_zero, fixed] at shifted
    refine differ (BitVec.xor_eq_zero_iff.mp (BitVec.eq_of_toNat_eq ?_))
    change (word ^^^ other).toNat = 0
    omega
  intro verified'
  exact bech32Register.feed_swap_ne (fun x _ => short_next x) (fun _ => next_eq_zero)
    ((short_next _).xor (Short.of_lt low)) moves (feed_of_verified verified verified')

end Detection

end Checksum

/-! ## Letters -/

section Letters

theorem indexOf_of_mem (member : c ∈ bech32Alphabet) :
    (indexOf bech32Alphabet c).toNat < 32 ∧
      bech32Alphabet[(indexOf bech32Alphabet c).toNat]? = some c := by
  obtain ⟨index, found⟩ := Option.isSome_iff_exists.mp
    (Option.isSome_iff_ne_none.mpr fun none => List.idxOf?_eq_none_iff.mp none member)
  obtain ⟨inside, here, -⟩ := List.idxOf?_eq_some_iff.mp found
  have small : index < 32 := inside
  have value : (indexOf bech32Alphabet c).toNat = index := by
    rw [indexOf, found]
    exact Nat.mod_eq_of_lt (by omega)
  rw [value]
  exact ⟨small, List.getElem?_eq_some_iff.mpr ⟨inside, here⟩⟩

theorem indexOf_of_not_mem (absent : c ∉ bech32Alphabet) :
    (indexOf bech32Alphabet c).slt 0#32 := by
  rw [indexOf, List.idxOf?_eq_none_iff.mpr absent]
  decide

theorem slt_indexOf : (indexOf bech32Alphabet c).slt 0#32 = false ↔ c ∈ bech32Alphabet := by
  constructor
  · intro nonneg
    by_contra absent
    rw [indexOf_of_not_mem absent] at nonneg
    cases nonneg
  · intro member
    exact slt_zero_of_lt ((indexOf_of_mem member).1.trans (by decide))

/-- The words of a payload, and the payload that is written for them. -/
def wordsOf (payload : Text) : List Number := payload.map (indexOf bech32Alphabet)

def lettersOf (words : List Number) : Text :=
  words.filterMap fun word => bech32Alphabet[word.toNat]?

theorem lettersOf_wordsOf {payload : Text} (letters : ∀ c ∈ payload, c ∈ bech32Alphabet) :
    lettersOf (wordsOf payload) = payload := by
  rw [lettersOf, wordsOf, List.filterMap_map]
  refine (List.filterMap_congr fun c member => (indexOf_of_mem (letters c member)).2).trans ?_
  exact List.filterMap_some

theorem fits_wordsOf {payload : Text} (letters : ∀ c ∈ payload, c ∈ bech32Alphabet) :
    BitGroups.Fits 5 (wordsOf payload) := by
  intro word member
  obtain ⟨c, inside, rfl⟩ := List.mem_map.mp member
  exact (indexOf_of_mem (letters c inside)).1

theorem letter_spec : ∀ index < 32, ∃ c, bech32Alphabet[index]? = some c ∧
    (indexOf bech32Alphabet c).toNat = index := by
  have checked : ∀ index < 32, (bech32Alphabet[index]?.any fun c =>
      (indexOf bech32Alphabet c).toNat == index) = true := by
    decide
  intro index small
  obtain ⟨c, letter, back⟩ := (Option.any_eq_true _ _).mp (checked index small)
  exact ⟨c, letter, beq_iff_eq.mp back⟩

theorem letters_lettersOf (words : List Number) : ∀ c ∈ lettersOf words, c ∈ bech32Alphabet := by
  intro c member
  obtain ⟨word, -, letter⟩ := List.mem_filterMap.mp member
  exact List.mem_of_getElem? letter

theorem wordsOf_lettersOf (fits : BitGroups.Fits 5 words) :
    wordsOf (lettersOf words) = words := by
  induction words with
  | nil => rfl
  | cons word words ih =>
    obtain ⟨c, letter, back⟩ := letter_spec word.toNat (fits word List.mem_cons_self)
    have rest := ih fun group member => fits group (List.mem_cons_of_mem _ member)
    simp only [lettersOf, List.filterMap_cons, letter]
    rw [wordsOf, List.map_cons]
    exact congrArg₂ _ (BitVec.eq_of_toNat_eq back) rest

end Letters

/-! ## The codec -/

section Codec

open BitGroups

variable {value payload : Text} {bytes : List Evm.Byte}

/-- The payload of an address: 38 letters whose checksum is right. -/
structure Payload (payload : Text) : Prop where
  length : payload.length = 38
  letters : ∀ c ∈ payload, c ∈ bech32Alphabet
  verified : verifyBech32Checksum hrpText (wordsOf payload)

theorem plain_of_all {text : Text} (member : c ∈ text)
    (checked : text.all fun c => decide (c.toNat < 128) && c.toLower == c) :
    c.toNat < 128 ∧ c.toLower = c := by
  have plain := List.all_eq_true.mp checked c member
  rw [Bool.and_eq_true, decide_eq_true_iff, beq_iff_eq] at plain
  exact plain

theorem utf16Length_eq (letters : ∀ c ∈ value, c.toNat < 128) :
    utf16Length value = value.length := by
  have single : ∀ c ∈ value, (if c.toNat < 0x10000 then 1 else 2) = 1 := by
    intro c member
    have := letters c member
    rw [if_pos (by omega)]
  rw [utf16Length, List.map_congr_left single]
  simp

theorem address_plain (letters : ∀ c ∈ payload, c ∈ bech32Alphabet) :
    ∀ c ∈ addressStart ++ payload, c.toNat < 128 ∧ c.toLower = c := by
  intro c member
  rcases List.mem_append.mp member with start | inside
  · exact plain_of_all start (by decide)
  · exact plain_of_all (letters c inside) (by decide)

theorem fits_bytes (bytes : List Evm.Byte) : Fits 8 (bytes.map (·.setWidth 32) : List Number) := by
  intro group member
  obtain ⟨byte, -, rfl⟩ := List.mem_map.mp member
  rw [BitVec.toNat_setWidth_of_le (by decide)]
  exact byte.isLt

theorem bytes_setWidth (bytes : List Evm.Byte) :
    (bytes.map (·.setWidth 32) : List Number).map (·.setWidth 8) = bytes := by
  rw [List.map_map]
  refine (List.map_congr_left fun byte _ => ?_).trans (List.map_id bytes)
  exact BitVec.setWidth_setWidth_of_le _ (by decide) |>.trans (BitVec.setWidth_eq byte)

theorem groups_setWidth {groups : List Number} (fits : Fits 8 groups) :
    (groups.map (·.setWidth 8) : List Evm.Byte).map (·.setWidth 32) = groups := by
  rw [List.map_map]
  refine (List.map_congr_left fun group member => ?_).trans (List.map_id groups)
  apply BitVec.eq_of_toNat_eq
  change ((group.setWidth 8).setWidth 32).toNat = group.toNat
  rw [BitVec.toNat_setWidth_of_le (by decide), BitVec.toNat_setWidth]
  exact Nat.mod_eq_of_lt (fits group member)

/-- An account is written as the words of its number and their checksum. -/
theorem encodeBech32Account_ok (account : bytes.length = 20) : ∃ words : List Number,
    words.length = 32 ∧ Fits 5 words ∧ number 5 words = number 8 (bytes.map (·.setWidth 32)) ∧
      encodeBech32Account bytes =
        .ok (addressStart ++ lettersOf (words ++ createBech32Checksum hrpText words)) := by
  obtain ⟨words, converted, length, fits, same⟩ := convertBits_exact true (by decide) (by decide)
    (by decide) (fits_bytes bytes) (show _ = 32 * 5 by rw [List.length_map, account])
  refine ⟨words, length, fits, same, ?_⟩
  rw [encodeBech32Account, throwIf, Evm.revertIf, if_neg (not_not.mpr account), converted]
  rfl

theorem payload_lettersOf (length : words.length = 32) (fits : Fits 5 words) :
    Payload (lettersOf (words ++ createBech32Checksum hrpText words)) ∧
      wordsOf (lettersOf (words ++ createBech32Checksum hrpText words)) =
        words ++ createBech32Checksum hrpText words := by
  have checked := fits_createBech32Checksum hrpText words
  have count : (createBech32Checksum hrpText words).length = 6 := by
    rw [createBech32Checksum, List.length_map, List.length_range]
  have back := wordsOf_lettersOf (fits_append.mpr ⟨fits, checked⟩)
  refine ⟨⟨?_, letters_lettersOf _, ?_⟩, back⟩
  · have := congrArg List.length back
    rwa [wordsOf, List.length_map, List.length_append, length, count] at this
  · rw [back]
    exact (verifyBech32Checksum_iff checked count).mpr rfl

section Changed

variable {before after : Text} {d : Char}

theorem indexOf_injective (member : c ∈ bech32Alphabet) (member' : d ∈ bech32Alphabet)
    (differ : c ≠ d) : indexOf bech32Alphabet c ≠ indexOf bech32Alphabet d := by
  intro same
  have letter := (indexOf_of_mem member).2
  rw [same, (indexOf_of_mem member').2] at letter
  exact differ (Option.some.inj letter).symm

/-- Different letters of two payloads stand for different words. -/
theorem Payload.words_ne {other : Text} (valid : Payload payload) (valid' : Payload other)
    (member : c ∈ payload) (member' : d ∈ other) (differ : c ≠ d) :
    (indexOf bech32Alphabet c).toNat < 32 ∧ (indexOf bech32Alphabet d).toNat < 32 ∧
      indexOf bech32Alphabet c ≠ indexOf bech32Alphabet d := by
  have letter := valid.letters c member
  have letter' := valid'.letters d member'
  exact ⟨(indexOf_of_mem letter).1, (indexOf_of_mem letter').1,
    indexOf_injective letter letter' differ⟩

theorem Payload.substitute (valid : Payload (before ++ c :: after)) (differ : c ≠ d) :
    ¬ Payload (before ++ d :: after) := by
  intro valid'
  obtain ⟨small, small', other⟩ :=
    valid.words_ne valid' (c := c) (d := d) (by simp) (by simp) differ
  have verified := valid.verified
  have verified' := valid'.verified
  rw [wordsOf, List.map_append, List.map_cons] at verified verified'
  exact verify_substitute small small' other verified verified'

theorem Payload.swap (valid : Payload (before ++ c :: d :: after)) (differ : c ≠ d) :
    ¬ Payload (before ++ d :: c :: after) := by
  intro valid'
  obtain ⟨small, small', other⟩ :=
    valid.words_ne valid' (c := c) (d := d) (by simp) (by simp) differ
  have verified := valid.verified
  have verified' := valid'.verified
  rw [wordsOf, List.map_append, List.map_cons, List.map_cons] at verified verified'
  exact verify_swap small small' other verified verified'

end Changed

variable [CaseMapping]

theorem decodeBech32Account_ok : decodeBech32Account value = .ok bytes ↔
    ∃ payload, value = addressStart ++ payload ∧ Payload payload ∧ ∃ groups,
      convertBits ((wordsOf payload).take 32) 5 8 false = .ok groups ∧
        groups.map (·.setWidth 8) = bytes ∧ bytes.length = 20 := by
  simp only [decodeBech32Account, throwIf, Evm.bind_eq_ok, Evm.revertIf_eq_ok, exists_const,
    not_or, ne_eq, not_not, Bool.not_eq_false, pure, Except.pure, Except.ok.injEq]
  constructor
  · rintro ⟨⟨length, -, start⟩, -, ⟨known, verified⟩, groups, converted, count, rfl⟩
    obtain ⟨payload, rfl⟩ := List.isPrefixOf_iff_prefix.mp start
    rw [List.drop_left] at known verified converted
    have letters : ∀ c ∈ payload, c ∈ bech32Alphabet := by
      intro c member
      rw [← slt_indexOf, Bool.eq_false_iff]
      exact fun negative => known
        (List.any_eq_true.mpr ⟨_, List.mem_map_of_mem member, negative⟩)
    have count38 : payload.length = 38 := by
      rw [utf16Length_eq fun c member => (address_plain letters c member).1,
        List.length_append] at length
      exact Nat.add_left_cancel (n := 7) length
    rw [List.length_map, count38] at converted
    exact ⟨payload, rfl, ⟨count38, letters, verified⟩, groups, converted, rfl, count⟩
  · rintro ⟨payload, rfl, valid, groups, converted, rfl, count⟩
    have plain := address_plain valid.letters
    rw [List.drop_left]
    refine ⟨⟨?_, ?_, ?_⟩, ?_, ⟨?_, valid.verified⟩, groups, ?_, count, rfl⟩
    · rw [utf16Length_eq fun c member => (plain c member).1, List.length_append, valid.length]
      rfl
    · rw [CaseMapping.lower_ascii _ fun c member => (plain c member).1, toLowerCase]
      have same := List.map_congr_left fun c member => (plain c member).2
      exact (same.trans (List.map_id' _)).symm
    · exact List.isPrefixOf_iff_prefix.mpr (List.prefix_append _ _)
    · rw [utf16Length_eq fun c member => (plain c (List.mem_append_right _ member)).1, valid.length]
      decide
    · intro negative
      obtain ⟨word, member, below⟩ := List.any_eq_true.mp negative
      obtain ⟨c, inside, rfl⟩ := List.mem_map.mp member
      rw [slt_indexOf.mpr (valid.letters c inside)] at below
      cases below
    · rw [List.length_map, valid.length]
      exact converted

/-- What is written is read as the same account. -/
theorem decode_encode (account : bytes.length = 20) :
    ∃ text, encodeBech32Account bytes = .ok text ∧ decodeBech32Account text = .ok bytes := by
  obtain ⟨words, length, fits, same, encoded⟩ := encodeBech32Account_ok account
  obtain ⟨valid, back⟩ := payload_lettersOf length fits
  obtain ⟨groups, converted, count, fits', same'⟩ := convertBits_exact false (by decide) (by decide)
    (by decide) fits (show _ = 20 * 8 by rw [length])
  have groups_eq : groups = bytes.map (·.setWidth 32) :=
    number_injective (by decide) fits' (fits_bytes bytes)
      (by rw [count, List.length_map, account]) (same'.trans same)
  refine ⟨_, encoded, decodeBech32Account_ok.mpr ⟨_, rfl, valid, groups, ?_, ?_, account⟩⟩
  · rw [back, ← length, List.take_left]
    exact converted
  · rw [groups_eq, bytes_setWidth]

/-- What is read is written as the same text. -/
theorem encode_decode (read : decodeBech32Account value = .ok bytes) :
    bytes.length = 20 ∧ encodeBech32Account bytes = .ok value := by
  obtain ⟨payload, rfl, valid, groups, converted, rfl, account⟩ := decodeBech32Account_ok.mp read
  have fits := fits_wordsOf valid.letters
  rw [← List.take_append_drop 32 (wordsOf payload)] at fits
  obtain ⟨taken, dropped⟩ := fits_append.mp fits
  have length : (wordsOf payload).length = 38 := by rw [wordsOf, List.length_map, valid.length]
  have check : (wordsOf payload).drop 32 =
      createBech32Checksum hrpText ((wordsOf payload).take 32) := by
    refine (verifyBech32Checksum_iff dropped (by rw [List.length_drop, length])).mp ?_
    rw [List.take_append_drop]
    exact valid.verified
  obtain ⟨groups', converted', -, fits', same'⟩ := convertBits_exact false (by decide) (by decide)
    (by decide) taken (show _ = 20 * 8 by rw [List.length_take, length]; rfl)
  obtain rfl := Except.ok.inj (converted.symm.trans converted')
  obtain ⟨words, count, fits'', same'', encoded⟩ := encodeBech32Account_ok account
  rw [groups_setWidth fits'] at same''
  have words_eq : words = (wordsOf payload).take 32 :=
    number_injective (by decide) fits'' taken
      (by rw [count, List.length_take, length]; rfl) (same''.trans same')
  refine ⟨account, encoded.trans ?_⟩
  rw [words_eq, ← check, List.take_append_drop, lettersOf_wordsOf valid.letters]

/-- Decoding fails. -/
def Rejected (value : Text) : Prop := ∃ message, decodeBech32Account value = .error message

theorem payload_of_decode (read : decodeBech32Account (addressStart ++ payload) = .ok bytes) :
    Payload payload := by
  obtain ⟨other, same, valid, -⟩ := decodeBech32Account_ok.mp read
  exact List.append_cancel_left same ▸ valid

theorem rejected_of_not_payload (invalid : ¬ Payload payload) :
    Rejected (addressStart ++ payload) := by
  cases read : decodeBech32Account (addressStart ++ payload) with
  | error message => exact ⟨message, read⟩
  | ok bytes => exact absurd (payload_of_decode read) invalid

end Codec

/-- Accounts and their addresses determine each other, and an address with one other letter or
with two different neighbours swapped is no address. -/
theorem bech32_codec [CaseMapping] :
    (∀ bytes : List Evm.Byte, bytes.length = 20 →
      ∃ text, encodeBech32Account bytes = .ok text ∧ decodeBech32Account text = .ok bytes) ∧
    (∀ text bytes, decodeBech32Account text = .ok bytes →
      bytes.length = 20 ∧ encodeBech32Account bytes = .ok text) ∧
    (∀ text other bytes, decodeBech32Account text = .ok bytes →
      decodeBech32Account other = .ok bytes → text = other) ∧
    (∀ (before after : Text) (c d : Char) (bytes : List Evm.Byte), c ≠ d →
      decodeBech32Account (addressStart ++ (before ++ c :: after)) = .ok bytes →
      Rejected (addressStart ++ (before ++ d :: after))) ∧
    ∀ (before after : Text) (c d : Char) (bytes : List Evm.Byte), c ≠ d →
      decodeBech32Account (addressStart ++ (before ++ c :: d :: after)) = .ok bytes →
      Rejected (addressStart ++ (before ++ d :: c :: after)) := by
  refine ⟨fun _ => decode_encode, fun _ _ => encode_decode, ?_, ?_, ?_⟩
  · intro text other bytes read read'
    exact Except.ok.inj ((encode_decode read).2.symm.trans (encode_decode read').2)
  · intro before after c d bytes differ read
    exact rejected_of_not_payload ((payload_of_decode read).substitute differ)
  · intro before after c d bytes differ read
    exact rejected_of_not_payload ((payload_of_decode read).swap differ)

namespace Demo

/-- A case mapping of ASCII letters only. -/
@[reducible] def caseMapping : CaseMapping where
  lower := toLowerCase
  lower_ascii _ _ := rfl

end Demo

/-- The address of the account whose bytes are zero, with its last letter changed. -/
theorem bech32_codec_demo :
    @decodeBech32Account Demo.caseMapping "torium1qqqqqqqqqqqqqqqqqqqqqqqqqqqqqqqqmhxxp0".toList =
      .ok (List.replicate 20 0) ∧
    @Rejected Demo.caseMapping "torium1qqqqqqqqqqqqqqqqqqqqqqqqqqqqqqqqmhxxpp".toList := by
  have read : @decodeBech32Account Demo.caseMapping
      "torium1qqqqqqqqqqqqqqqqqqqqqqqqqqqqqqqqmhxxp0".toList = .ok (List.replicate 20 0) := by
    decide +kernel
  exact ⟨read, (@bech32_codec Demo.caseMapping).2.2.2.1
    "qqqqqqqqqqqqqqqqqqqqqqqqqqqqqqqqmhxxp".toList [] '0' 'p' _ (by decide) read⟩

end Torium.Sdk
