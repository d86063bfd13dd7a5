import Mathlib.Algebra.Ring.Int.Defs
import TableCapture.Proofs.Options.Values

/-!
# Integers that options take

An option that is an integer takes a numeral of any length, with a sign or without and with zeros in
front, as long as its number fits a signed word of 64 bits and lies between the bounds of the
option. It takes nothing else: a sign alone, a blank, a digit of another script or a number too
great is an invalid value (`OptionDeclaration.parse_integer_iff`).
-/

namespace TableCapture

/-- A text writes an integer of 64 bits that lies between two bounds. -/
structure IntegerBetween (min max : Int) (text : String) (v : Int) : Prop where
  numeral : Decimal.Numeral text.toList v
  word : -2 ^ 63 ≤ v ∧ v < 2 ^ 63
  bounds : min ≤ v ∧ v ≤ max

namespace OptionDeclaration

variable {o : OptionDeclaration} {min max v : Int} {text : String}

theorem integerBetween_iff : IntegerBetween min max text v ↔
    Decimal.int64? text.toList = some v ∧ min ≤ v ∧ v ≤ max := by
  rw [Decimal.int64?_eq_some_iff, ← Decimal.numeral_iff_writes]
  have hword : (-2 ^ 63 ≤ v ∧ v < 2 ^ 63) ↔ Decimal.minInt64 ≤ v ∧ v ≤ Decimal.maxInt64 := by
    simp only [Decimal.minInt64, Decimal.maxInt64]
    omega
  rw [← hword]
  exact ⟨fun h => ⟨⟨h.numeral, h.word⟩, h.bounds⟩, fun h => ⟨h.1.1, h.1.2, h.2⟩⟩

/-- An option that is an integer is read to the number that its text writes, where that fits. -/
theorem parse_integer_iff (hk : o.kind = .integer min max) (text : String) :
    (∀ v, o.parse text = .ok (.integer v) ↔ IntegerBetween min max text v)
      ∧ (o.parse text = .error (.invalidValue o.key text none)
        ↔ ∀ v, ¬ IntegerBetween min max text v) := by
  have hok : ∀ v, o.parse text = .ok (.integer v) ↔ IntegerBetween min max text v := fun v => by
    rw [parse_integer_eq_ok_iff hk, integerBetween_iff, Decimal.int64?_eq_some_iff]
    simp [and_assoc]
  refine ⟨hok, fun herror v h => ?_, fun hnone => ?_⟩
  · rw [(hok v).2 h] at herror
    cases herror
  · rcases parse_integer_ok_or_error hk with ⟨n, hn⟩ | herror
    · exact absurd ((hok n).1 hn) (hnone n)
    · exact herror

/-- A position that any signed word of 64 bits can be. -/
def anyOffset : OptionDeclaration where
  key := "offset"
  kind := .integer Decimal.minInt64 Decimal.maxInt64

theorem parse_integer_anyOffset :
    anyOffset.kind = .integer Decimal.minInt64 Decimal.maxInt64
      ∧ anyOffset.parse "-0009223372036854775808" = .ok (.integer (-9223372036854775808))
      ∧ anyOffset.parse "9223372036854775808"
        = .error (.invalidValue "offset" "9223372036854775808" none)
      ∧ anyOffset.parse "+" = .error (.invalidValue "offset" "+" none)
      ∧ anyOffset.parse " 7" = .error (.invalidValue "offset" " 7" none)
      ∧ anyOffset.parse "٧" = .error (.invalidValue "offset" "٧" none) := by
  have hkind : anyOffset.kind = .integer Decimal.minInt64 Decimal.maxInt64 := rfl
  have hrefused : ∀ text, Decimal.int64? text.toList = none →
      anyOffset.parse text = .error (.invalidValue "offset" text none) := by
    intro text hnone
    refine (parse_integer_iff hkind text).2.2 fun v hv => ?_
    have hread := (integerBetween_iff.1 hv).1
    rw [hnone] at hread
    cases hread
  exact ⟨hkind, ((parse_integer_iff hkind _).1 _).2 (integerBetween_iff.2 (by decide +kernel)),
    hrefused _ (by decide +kernel), hrefused _ (by decide +kernel), hrefused _ (by decide +kernel),
    hrefused _ (by decide +kernel)⟩

end OptionDeclaration

end TableCapture
