import Colloquy.Json.Numeral
import Colloquy.Proofs.Json.PlainText

/-!
# Written natural numbers

The decimal digits of a natural number, which is written with them (`encode_toString`). The digits
of a number are those of its tenth and one more (`decimal_of_ten_le`), which is also how they are
taken in (`takeWhole_decimal`).
-/

set_option autoImplicit false

namespace Colloquy.Json

/-- The decimal digits of a natural number. -/
def decimal (n : Nat) : Bytes :=
  (Nat.toDigits 10 n).map Char.toUInt8

/-- What stands behind a number does not go on with it. -/
def Ends (rest : Bytes) : Prop :=
  ∀ b ∈ rest.head?, Ascii.isDigit b = false ∧ b ≠ Ascii.point ∧ isExponentMark b = false

/-- The digit of a number below ten. -/
def digit (n : Nat) : UInt8 :=
  UInt8.ofNat (0x30 + n)

/-- A digit as a character, as a byte and as a number; zero is the only one that is written so. -/
theorem digit_spec : ∀ n < 10, (Nat.digitChar n).toUInt8 = digit n ∧
    String.utf8EncodeChar (Nat.digitChar n) = [digit n] ∧ Ascii.isDigit (digit n) = true ∧
    Ascii.digitValue (digit n) = n ∧ (digit n = 0x30 → n = 0) := by
  decide

/-- A number below ten is one digit. -/
theorem decimal_of_lt_ten {n : Nat} (hn : n < 10) : decimal n = [digit n] := by
  unfold decimal
  rw [Nat.toDigits_of_lt_base hn, List.map_singleton, (digit_spec n hn).1]

/-- A number from ten on is the digits of its tenth and one more. -/
theorem decimal_of_ten_le {n : Nat} (hn : 10 ≤ n) :
    decimal n = decimal (n / 10) ++ [digit (n % 10)] := by
  have hdigit := (digit_spec (n % 10) (Nat.mod_lt _ (by decide))).1
  unfold decimal
  rw [Nat.toDigits_of_base_le (by decide) hn, List.map_append, List.map_singleton, hdigit]

/-- A number is written with its decimal digits. -/
theorem encode_toString (n : Nat) : Utf8.encode (toString n) = decimal n := by
  have hdigits (n : Nat) : (Nat.toDigits 10 n).flatMap String.utf8EncodeChar = decimal n := by
    induction n using Nat.strongRecOn with
    | _ n ih =>
      by_cases hn : n < 10
      · rw [decimal_of_lt_ten hn, Nat.toDigits_of_lt_base hn, List.flatMap_singleton,
          (digit_spec n hn).2.1]
      · have hten : 10 ≤ n := Nat.le_of_not_lt hn
        have hless : n / 10 < n := by omega
        rw [decimal_of_ten_le hten, Nat.toDigits_of_base_le (by decide) hten, List.flatMap_append,
          ih _ hless, List.flatMap_singleton, (digit_spec _ (Nat.mod_lt _ (by decide))).2.1]
  rw [Utf8.encode_eq_flatMap, Nat.toString_eq_ofList_toDigits, String.toList_ofList, hdigits]

/-- A number has digits only, and the first of several is not zero. -/
theorem decimal_cons (n : Nat) : ∃ d tail, decimal n = d :: tail ∧ Ascii.isDigit d = true ∧
    (∀ b ∈ tail, Ascii.isDigit b = true) ∧ (d = 0x30 → n = 0 ∧ tail = []) := by
  induction n using Nat.strongRecOn with
  | _ n ih =>
    by_cases hn : n < 10
    · obtain ⟨_, _, hdigit, _, hzero⟩ := digit_spec n hn
      exact ⟨digit n, [], decimal_of_lt_ten hn, hdigit, by simp, fun h => ⟨hzero h, rfl⟩⟩
    · have hten : 10 ≤ n := Nat.le_of_not_lt hn
      have hless : n / 10 < n := by omega
      obtain ⟨_, _, hlast, _⟩ := digit_spec (n % 10) (Nat.mod_lt _ (by decide))
      obtain ⟨d, tail, hdecimal, hdigit, htail, hzero⟩ := ih (n / 10) hless
      refine ⟨d, tail ++ [digit (n % 10)], ?_, hdigit, ?_, ?_⟩
      · rw [decimal_of_ten_le hten, hdecimal, List.cons_append]
      · intro b hb
        rcases List.mem_append.1 hb with hb | hb
        · exact htail b hb
        · rw [List.mem_singleton.1 hb]
          exact hlast
      · intro hd
        have hnone : n / 10 = 0 := (hzero hd).1
        omega

/-- The digits of a number that fits sixty-four bits are taken in as that number. -/
theorem takeWhole_decimal {n : Nat} (hn : n ≤ maxWord) :
    Significand.takeWhole (decimal n) = ⟨n, 0⟩ := by
  induction n using Nat.strongRecOn with
  | _ n ih =>
    by_cases hsmall : n < 10
    · obtain ⟨_, _, _, hvalue, _⟩ := digit_spec n hsmall
      unfold Significand.takeWhole
      rw [decimal_of_lt_ten hsmall, List.foldl_cons, List.foldl_nil, hvalue]
      simp [hn]
    · have hten : 10 ≤ n := Nat.le_of_not_lt hsmall
      have hless : n / 10 < n := by omega
      have hwhole : n / 10 * 10 + n % 10 = n := by omega
      obtain ⟨_, _, _, hvalue, _⟩ := digit_spec (n % 10) (Nat.mod_lt _ (by decide))
      have htenth := ih (n / 10) hless (by omega)
      unfold Significand.takeWhole at htenth ⊢
      rw [decimal_of_ten_le hten, List.foldl_append, htenth, List.foldl_cons, List.foldl_nil,
        hvalue, hwhole]
      simp [hn]

end Colloquy.Json
