import Mathlib.Data.List.Basic
import Mathlib.Tactic.SplitIfs

namespace Estate.Text

/-- The bytes that a text is written in. -/
def bytes (text : String) : List UInt8 := text.toUTF8.data.toList

theorem bytes_eq (text : String) : bytes text = text.toList.flatMap String.utf8EncodeChar := by
  have whole : text.toUTF8 = (text.toList.flatMap String.utf8EncodeChar).toByteArray := by
    rw [String.toUTF8_eq_toByteArray, ← String.utf8Encode_toList]
    rfl
  rw [bytes, whole, List.data_toByteArray]

theorem toNat_lt (c : Char) : c.val.toNat < 1114112 := by
  rcases c.valid with low | ⟨-, high⟩
  · exact Nat.lt_trans low (by decide)
  · exact high

theorem ofNat_lt_iff {n m : Nat} (small : n < 256) (other : m < 256) :
    UInt8.ofNat n < UInt8.ofNat m ↔ n < m := by
  rw [UInt8.lt_iff_toNat_lt, UInt8.toNat_ofNat_of_lt' small, UInt8.toNat_ofNat_of_lt' other]

theorem ofNat_eq_iff {n m : Nat} (small : n < 256) (other : m < 256) :
    UInt8.ofNat n = UInt8.ofNat m ↔ n = m := by
  rw [← UInt8.toNat_inj, UInt8.toNat_ofNat_of_lt' small, UInt8.toNat_ofNat_of_lt' other]

/-- The lesser of two numbers is the lesser at the first of their digits, to the base of 64, where
they differ. -/
theorem digits_lt {n m : Nat} (less : n < m) : n / 262144 < m / 262144 ∨ n / 262144 = m / 262144 ∧
    (n / 4096 % 64 < m / 4096 % 64 ∨ n / 4096 % 64 = m / 4096 % 64 ∧
      (n / 64 % 64 < m / 64 % 64 ∨ n / 64 % 64 = m / 64 % 64 ∧ n % 64 < m % 64)) := by
  have last {n m : Nat} (less : n < m) : n / 64 < m / 64 ∨ n / 64 = m / 64 ∧ n % 64 < m % 64 := by
    omega
  have middle (v : Nat) : v / 64 / 64 = v / 4096 := Nat.div_div_eq_div_mul v 64 64
  have high (v : Nat) : v / 4096 / 64 = v / 262144 := Nat.div_div_eq_div_mul v 4096 64
  rcases last less with second | ⟨same, first⟩
  · rcases last second with third | ⟨same, second⟩
    · rw [middle, middle] at third
      rcases last third with fourth | ⟨same, third⟩
      · rw [high, high] at fourth
        exact .inl fourth
      · rw [high, high] at same
        exact .inr ⟨same, .inl third⟩
    · rw [middle, middle] at same
      exact .inr ⟨by rw [← high, ← high, same], .inr ⟨by rw [same], .inl second⟩⟩
  · have upper : n / 4096 = m / 4096 := by rw [← middle, ← middle, same]
    exact .inr ⟨by rw [← high, ← high, upper], .inr ⟨by rw [upper], .inr ⟨by rw [same], first⟩⟩⟩

/-- What is written of a lesser character comes first, whatever is written after either. -/
theorem encode_lt {a b : Char} (less : a < b) (afterA afterB : List UInt8) :
    String.utf8EncodeChar a ++ afterA < String.utf8EncodeChar b ++ afterB := by
  have less : a.val.toNat < b.val.toNat := less
  have bound : b.val.toNat < 1114112 := toNat_lt b
  unfold String.utf8EncodeChar
  generalize a.val.toNat = n at less
  generalize b.val.toNat = m at less bound
  have digits := digits_lt less
  -- The highest of four digits is never cut short.
  have whole {v : Nat} (bound : v < 1114112) : v / 262144 % 8 = v / 262144 :=
    Nat.mod_eq_of_lt (by omega)
  have wholeN := whole (Nat.lt_trans less bound)
  have wholeM := whole bound
  dsimp only
  -- Each of the two is written in one, two, three or four bytes.
  split_ifs
  all_goals
    simp (disch := omega) only [List.cons_append, List.nil_append, List.cons_lt_cons_iff,
      ofNat_lt_iff, ofNat_eq_iff]
  all_goals omega

theorem encodings_lt {as bs : List Char} (less : as < bs) :
    as.flatMap String.utf8EncodeChar < bs.flatMap String.utf8EncodeChar := by
  induction less with
  | @nil b bs =>
    obtain ⟨first, rest, encoded⟩ := List.exists_cons_of_ne_nil (@String.utf8EncodeChar_ne_nil b)
    rw [List.flatMap_nil, List.flatMap_cons, encoded]
    exact List.nil_lt_cons _ _
  | rel less => exact encode_lt less _ _
  | cons _ ih => exact List.append_left_lt ih

/-- Texts come in the order of their bytes. -/
theorem compare_eq_lt_iff_bytes {a b : String} : compare a b = .lt ↔ bytes a < bytes b := by
  have characters : compare a b = .lt ↔ a.toList < b.toList := by
    show compareOfLessAndEq a b = .lt ↔ _
    rw [compareOfLessAndEq_eq_lt]
    exact Iff.rfl
  rw [characters, bytes_eq, bytes_eq]
  constructor
  · exact encodings_lt
  · intro less
    by_contra otherwise
    rcases List.le_iff_lt_or_eq.mp (List.not_lt.mp otherwise) with greater | same
    · exact List.lt_asymm less (encodings_lt greater)
    · exact List.lt_irrefl _ (same ▸ less)

end Estate.Text
