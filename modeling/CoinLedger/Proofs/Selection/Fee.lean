import CoinLedger.Selection.Fee
import Mathlib.Algebra.Order.Ring.Int

/-!
# Rounded fees

A rate that is not negative gives a raw fee that is not negative, and the fee is the multiple of the
unit nearest to it, the upper one of two (`nearestMultiple_roundToUnit`), held between the least fee
and the largest amount (`toInt_feeForInputs`).  No number on the way needs more than 128 signed bits
and no divisor is zero (`wideFee?_eq_some`), and more inputs never cost less
(`feeForInputs_le_feeForInputs`).  So the fee of a transaction is settled by its size alone, as long
as 64 bits hold the size (`fee_nearest_monotone`).
-/

set_option autoImplicit false

namespace CoinLedger.FeeSchedule

/-! ## Sizes -/

variable {schedule : FeeSchedule} {bytes : UInt64} {fewer inputs : Nat} {raw : Int}

/-- A size that 64 bits hold is exact. -/
theorem toNat_txBytes (fits : schedule.size inputs < 2 ^ 64) :
    (schedule.txBytes inputs).toNat = schedule.size inputs := by
  rw [txBytes, UInt64.toNat_add, UInt64.toNat_add, UInt64.toNat_mul, UInt64.toNat_mul,
    UInt64.toNat_ofNat', Nat.mod_mul_mod, ← Nat.add_mod, Nat.mod_add_mod]
  exact Nat.mod_eq_of_lt fits

theorem size_le_size (schedule : FeeSchedule) (fewer_le : fewer ≤ inputs) :
    schedule.size fewer ≤ schedule.size inputs :=
  Nat.add_le_add_right (Nat.add_le_add_right (Nat.mul_le_mul_right _ fewer_le) _) _

theorem sizeFits_of_le (fewer_le : fewer ≤ inputs) (fits : schedule.sizeFits inputs = true) :
    schedule.sizeFits fewer = true := by
  rw [sizeFits, decide_eq_true_eq] at fits ⊢
  exact Nat.lt_of_le_of_lt (size_le_size schedule fewer_le) fits

/-! ## Raw fees -/

theorem unit_pos (schedule : FeeSchedule) : 0 < schedule.unit :=
  Int.lt_of_lt_of_le Int.one_pos (Int.le_max_right _ _)

theorem unit_lt (schedule : FeeSchedule) : schedule.unit < 2 ^ 63 :=
  Int.max_lt.mpr ⟨schedule.feeUnit.toInt_lt, by decide⟩

/-- What a kilobyte divides is a charge that 127 bits hold with room for half a unit. -/
theorem charge_bounds (rate : 0 ≤ schedule.feePerKb) (bytes : UInt64) :
    0 ≤ bytes.toNat * schedule.feePerKb.toInt ∧
      bytes.toNat * schedule.feePerKb.toInt < 2 ^ 127 - 2 ^ 63 := by
  have least : 0 ≤ schedule.feePerKb.toInt := Int64.le_iff_toInt_le.mp rate
  have most : schedule.feePerKb.toInt ≤ 2 ^ 63 - 1 :=
    Int.le_sub_one_of_lt schedule.feePerKb.toInt_lt
  have sized : (bytes.toNat : Int) ≤ 2 ^ 64 - 1 := by
    have below := bytes.toNat_lt
    omega
  refine ⟨Int.mul_nonneg (Int.natCast_nonneg _) least, ?_⟩
  calc bytes.toNat * schedule.feePerKb.toInt
      ≤ (2 ^ 64 - 1) * (2 ^ 63 - 1) := Int.mul_le_mul sized most least (by decide)
    _ < 2 ^ 127 - 2 ^ 63 := by decide

theorem rawFee_eq_ediv (rate : 0 ≤ schedule.feePerKb) (bytes : UInt64) :
    schedule.rawFee bytes =
      bytes.toNat * schedule.feePerKb.toInt / (max schedule.kilobyte.toNat 1 : Nat) :=
  Int.tdiv_eq_ediv_of_nonneg (charge_bounds rate bytes).1

theorem rawFee_nonneg (rate : 0 ≤ schedule.feePerKb) (bytes : UInt64) :
    0 ≤ schedule.rawFee bytes := by
  rw [rawFee_eq_ediv rate]
  exact Int.ediv_nonneg (charge_bounds rate bytes).1 (Int.natCast_nonneg _)

theorem rawFee_le_charge (rate : 0 ≤ schedule.feePerKb) (bytes : UInt64) :
    schedule.rawFee bytes ≤ bytes.toNat * schedule.feePerKb.toInt := by
  rw [rawFee_eq_ediv rate]
  exact Int.ediv_le_self _ (charge_bounds rate bytes).1

theorem rawFee_le_rawFee {smaller : UInt64} (rate : 0 ≤ schedule.feePerKb)
    (smaller_le : smaller.toNat ≤ bytes.toNat) :
    schedule.rawFee smaller ≤ schedule.rawFee bytes := by
  rw [rawFee_eq_ediv rate, rawFee_eq_ediv rate]
  have divisor : 0 < ((max schedule.kilobyte.toNat 1 : Nat) : Int) := by omega
  exact Int.ediv_le_ediv divisor (Int.mul_le_mul_of_nonneg_right (Int.ofNat_le.mpr smaller_le)
    (Int64.le_iff_toInt_le.mp rate))

/-! ## Rounding -/

/-- The multiple of a unit that lies nearest to a raw fee, the upper one of two. -/
structure NearestMultiple (unit raw rounded : Int) : Prop where
  multiple : unit ∣ rounded
  nearest : ∀ other, unit ∣ other → (rounded - raw).natAbs ≤ (other - raw).natAbs
  upper : ∀ other, unit ∣ other → (other - raw).natAbs = (rounded - raw).natAbs → other ≤ rounded

/-- No two multiples are nearest with ties going up. -/
theorem NearestMultiple.unique {unit left right : Int} (first : NearestMultiple unit raw left)
    (second : NearestMultiple unit raw right) : left = right := by
  have near := first.nearest right second.multiple
  have far := second.nearest left first.multiple
  have above := second.upper left first.multiple (Nat.le_antisymm near far)
  have below := first.upper right second.multiple (Nat.le_antisymm far near)
  exact Int.le_antisymm above below

theorem roundToUnit_eq_ediv (schedule : FeeSchedule) (least : 0 ≤ raw) :
    schedule.roundToUnit raw = (raw + schedule.unit / 2) / schedule.unit * schedule.unit := by
  have positive := schedule.unit_pos
  rw [roundToUnit, Int.tdiv_eq_ediv_of_nonneg (Int.le_of_lt positive),
    Int.tdiv_eq_ediv_of_nonneg (by omega)]

/-- The rounded fee reaches no further than half a unit more. -/
theorem roundToUnit_bounds (schedule : FeeSchedule) (least : 0 ≤ raw) :
    0 ≤ schedule.roundToUnit raw ∧ schedule.roundToUnit raw ≤ raw + schedule.unit / 2 ∧
      raw + schedule.unit / 2 < schedule.roundToUnit raw + schedule.unit := by
  have positive := schedule.unit_pos
  have beyond := Int.lt_ediv_add_one_mul_self (raw + schedule.unit / 2) positive
  rw [Int.add_mul, Int.one_mul] at beyond
  rw [roundToUnit_eq_ediv schedule least]
  refine ⟨?_, Int.ediv_mul_le _ (Int.ne_of_gt positive), beyond⟩
  exact Int.mul_nonneg (Int.ediv_nonneg (by omega) (Int.le_of_lt positive)) (Int.le_of_lt positive)

theorem roundToUnit_le_roundToUnit {smaller : Int} (schedule : FeeSchedule) (least : 0 ≤ smaller)
    (smaller_le : smaller ≤ raw) :
    schedule.roundToUnit smaller ≤ schedule.roundToUnit raw := by
  have positive := schedule.unit_pos
  rw [roundToUnit_eq_ediv schedule least,
    roundToUnit_eq_ediv schedule (Int.le_trans least smaller_le)]
  exact Int.mul_le_mul_of_nonneg_right (Int.ediv_le_ediv positive (by omega))
    (Int.le_of_lt positive)

/-- **Half a unit more, cut to a multiple of the unit, is the multiple nearest to the raw fee.** -/
theorem nearestMultiple_roundToUnit (schedule : FeeSchedule) (least : 0 ≤ raw) :
    NearestMultiple schedule.unit raw (schedule.roundToUnit raw) := by
  obtain ⟨-, below, above⟩ := roundToUnit_bounds schedule least
  have multiple : schedule.unit ∣ schedule.roundToUnit raw := Int.dvd_mul_left _ _
  -- Another multiple lies at least one unit away on either side.
  have apart : ∀ other, schedule.unit ∣ other → other = schedule.roundToUnit raw ∨
      other + schedule.unit ≤ schedule.roundToUnit raw ∨
      schedule.roundToUnit raw + schedule.unit ≤ other := by
    intro other divides
    rcases Int.lt_trichotomy other (schedule.roundToUnit raw) with less | same | greater
    · have step := Int.le_of_dvd (by omega) (Int.dvd_sub multiple divides)
      omega
    · exact .inl same
    · have step := Int.le_of_dvd (by omega) (Int.dvd_sub divides multiple)
      omega
  refine ⟨multiple, fun other divides => ?_, fun other divides equal => ?_⟩
  · have cases := apart other divides
    omega
  · have cases := apart other divides
    omega

/-! ## Fees -/

theorem toInt_clampFee {fee : Int} (least : 0 ≤ fee) :
    (clampFee fee).toInt = min fee Int64.maxValue.toInt := by
  have lowest : Int64.minValue.toInt ≤ fee := Int.le_trans (by decide) least
  rw [clampFee]
  split
  next fits =>
    rw [Int64.toInt_ofInt_of_le fits.1 (Int.lt_of_le_of_lt fits.2 (by decide)),
      Int.min_eq_left fits.2]
  next large =>
    rw [Int.min_eq_right]
    omega

/-- The fee is the rounded one between the least fee and the largest amount. -/
theorem toInt_feeForInputs (rate : 0 ≤ schedule.feePerKb) (inputs : Nat) :
    (schedule.feeForInputs inputs).toInt = max schedule.minFee.toInt
      (min (schedule.roundToUnit (schedule.rawFee (schedule.txBytes inputs)))
        Int64.maxValue.toInt) := by
  have least := (roundToUnit_bounds schedule
    (rawFee_nonneg rate (schedule.txBytes inputs))).1
  rw [feeForInputs, ← toInt_clampFee least]
  split
  next less =>
    rw [Int.max_eq_left (Int.le_of_lt (Int64.lt_iff_toInt_lt.mp less))]
  next enough =>
    rw [Int.max_eq_right]
    exact Int.not_lt.mp fun less => enough (Int64.lt_iff_toInt_lt.mpr less)

/-- **More inputs never cost less**, as long as 64 bits hold the size. -/
theorem feeForInputs_le_feeForInputs (rate : 0 ≤ schedule.feePerKb) (fewer_le : fewer ≤ inputs)
    (fits : schedule.size inputs < 2 ^ 64) :
    schedule.feeForInputs fewer ≤ schedule.feeForInputs inputs := by
  have smaller := size_le_size schedule fewer_le
  have bytes_le : (schedule.txBytes fewer).toNat ≤ (schedule.txBytes inputs).toNat := by
    rw [toNat_txBytes fits, toNat_txBytes (Nat.lt_of_le_of_lt smaller fits)]
    exact smaller
  have rounded_le := roundToUnit_le_roundToUnit schedule (rawFee_nonneg rate _)
    (rawFee_le_rawFee rate bytes_le)
  rw [Int64.le_iff_toInt_le, toInt_feeForInputs rate, toInt_feeForInputs rate]
  omega

/-! ## Arithmetic in 128 bits -/

/-- The value, unless it needs more than 128 signed bits. -/
def wide? (value : Int) : Option Int :=
  if -2 ^ 127 ≤ value ∧ value < 2 ^ 127 then some value else none

/-- The quotient rounded toward zero, unless the divisor is zero or the quotient needs more than 128
signed bits. -/
def wideQuotient? (dividend divisor : Int) : Option Int :=
  if divisor = 0 then none else wide? (Int.tdiv dividend divisor)

/-- The fee worked out step by step; `none` when 64 bits do not hold the size, a later value needs
more than 128 signed bits, or a divisor is zero. -/
def wideFee? (schedule : FeeSchedule) (inputs : Nat) : Option Int64 := do
  let bytes ← if schedule.size inputs < 2 ^ 64 then some (schedule.size inputs) else none
  let charge ← wide? (bytes * schedule.feePerKb.toInt)
  let raw ← wideQuotient? charge (max schedule.kilobyte.toNat 1 : Nat)
  let half ← wideQuotient? schedule.unit 2
  let raised ← wide? (raw + half)
  let units ← wideQuotient? raised schedule.unit
  let rounded ← wide? (units * schedule.unit)
  let fee := clampFee rounded
  some (if fee < schedule.minFee then schedule.minFee else fee)

theorem wide?_eq_some {value : Int} (least : 0 ≤ value) (most : value < 2 ^ 127) :
    wide? value = some value :=
  if_pos ⟨Int.le_trans (by decide) least, most⟩

theorem wideQuotient?_eq_some {dividend divisor : Int} (least : 0 ≤ dividend)
    (most : dividend < 2 ^ 127) (positive : 0 < divisor) :
    wideQuotient? dividend divisor = some (Int.tdiv dividend divisor) := by
  have quotient := Int.tdiv_eq_ediv_of_nonneg (b := divisor) least
  rw [wideQuotient?, if_neg (Int.ne_of_gt positive), quotient]
  exact wide?_eq_some (Int.ediv_nonneg least (Int.le_of_lt positive))
    (Int.lt_of_le_of_lt (Int.ediv_le_self _ least) most)

/-- **Every step toward the fee has a value.** -/
theorem wideFee?_eq_some (rate : 0 ≤ schedule.feePerKb) (fits : schedule.size inputs < 2 ^ 64) :
    schedule.wideFee? inputs = some (schedule.feeForInputs inputs) := by
  have positive := schedule.unit_pos
  have limit := schedule.unit_lt
  have charged := charge_bounds rate (schedule.txBytes inputs)
  have raw_le := rawFee_le_charge rate (schedule.txBytes inputs)
  have raw_least := rawFee_nonneg rate (schedule.txBytes inputs)
  have rounded := roundToUnit_bounds schedule raw_least
  have divisor : 0 < ((max schedule.kilobyte.toNat 1 : Nat) : Int) := by omega
  have half : Int.tdiv schedule.unit 2 = schedule.unit / 2 :=
    Int.tdiv_eq_ediv_of_nonneg (Int.le_of_lt positive)
  have charge := wide?_eq_some charged.1 (by omega)
  have quotient : wideQuotient? _ _ = some (schedule.rawFee (schedule.txBytes inputs)) :=
    wideQuotient?_eq_some charged.1 (by omega) divisor
  have halved :=
    wideQuotient?_eq_some (Int.le_of_lt positive) (by omega) (by decide : (0 : Int) < 2)
  have more : 0 ≤ schedule.rawFee (schedule.txBytes inputs) + Int.tdiv schedule.unit 2 ∧
      schedule.rawFee (schedule.txBytes inputs) + Int.tdiv schedule.unit 2 < 2 ^ 127 := by omega
  have raised := wide?_eq_some more.1 more.2
  have units := wideQuotient?_eq_some more.1 more.2 positive
  have total : wide? _ = some (schedule.roundToUnit (schedule.rawFee (schedule.txBytes inputs))) :=
    wide?_eq_some rounded.1 (by omega)
  rw [roundToUnit] at total
  rw [wideFee?, if_pos fits, ← toNat_txBytes fits]
  simp only [Option.bind_eq_bind, Option.bind_some, charge, quotient, halved, raised, units, total]
  rfl

/-- **A rate that is not negative gives a fee without overflow or division by zero.**  It does not
fall when inputs are added, and it is the multiple of the unit nearest to the raw fee, the upper one
of two, held between the least fee and the largest amount. -/
theorem fee_nearest_monotone (rate : 0 ≤ schedule.feePerKb) (fewer_le : fewer ≤ inputs)
    (fits : schedule.size inputs < 2 ^ 64) :
    schedule.wideFee? inputs = some (schedule.feeForInputs inputs) ∧
    schedule.feeForInputs fewer ≤ schedule.feeForInputs inputs ∧
    ∃ rounded, (∀ fee, NearestMultiple (max schedule.feeUnit.toInt 1)
        (schedule.size inputs * schedule.feePerKb.toInt / (max schedule.kilobyte.toNat 1 : Nat))
        fee ↔
        fee = rounded) ∧
      (schedule.feeForInputs inputs).toInt =
        max schedule.minFee.toInt (min rounded Int64.maxValue.toInt) := by
  refine ⟨wideFee?_eq_some rate fits, feeForInputs_le_feeForInputs rate fewer_le fits,
    _, fun fee => ?_, toInt_feeForInputs rate inputs⟩
  have nearest := nearestMultiple_roundToUnit schedule
    (rawFee_nonneg rate (schedule.txBytes inputs))
  rw [rawFee_eq_ediv rate, toNat_txBytes fits] at nearest ⊢
  exact ⟨fun other => other.unique nearest, fun same => same ▸ nearest⟩

/-- A schedule at the limits: one input fills 64 bits, each byte costs the largest amount, and there
is neither a kilobyte nor a least fee. -/
def steepest : FeeSchedule :=
  { inputBytes := UInt64.ofNat (2 ^ 64 - 1), outputs := 0, overheadBytes := 0,
    feePerKb := Int64.maxValue, kilobyte := 0, feeUnit := 7, minFee := -1 }

/-- At the limits the raw fee takes 127 bits, and the fee is the largest amount. -/
theorem fee_nearest_monotone_steepest :
    0 ≤ steepest.feePerKb ∧ 0 ≤ 1 ∧ steepest.size 1 < 2 ^ 64 ∧
    steepest.wideFee? 1 = some Int64.maxValue ∧
    steepest.feeForInputs 0 ≤ steepest.feeForInputs 1 ∧
    ∃ rounded, (∀ fee, NearestMultiple 7 ((2 ^ 64 - 1) * (2 ^ 63 - 1)) fee ↔ fee = rounded) ∧
      (steepest.feeForInputs 1).toInt = max (-1) (min rounded Int64.maxValue.toInt) := by
  have rate : 0 ≤ steepest.feePerKb := by decide
  have fits : steepest.size 1 < 2 ^ 64 := by decide
  have largest : steepest.feeForInputs 1 = Int64.maxValue := by decide
  have settled := fee_nearest_monotone rate (Nat.zero_le 1) fits
  exact ⟨rate, Nat.zero_le 1, fits, largest ▸ settled.1, settled.2⟩

end CoinLedger.FeeSchedule
