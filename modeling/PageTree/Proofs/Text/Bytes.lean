import Mathlib.Tactic.SplitIfs
import PageTree.Sql.Value

/-!
Texts by their bytes. A character with the greater code begins with the greater byte, or differs
first in a later one, so the order of texts is that of their bytes.
-/

namespace PageTree.Text

/-- The bytes of a text in UTF-8. -/
def bytes (s : String) : List UInt8 :=
  s.toUTF8.data.toList

theorem bytes_eq_flatMap (s : String) : bytes s = s.toList.flatMap String.utf8EncodeChar := by
  conv => lhs; rw [← String.ofList_toList (s := s)]
  rw [bytes, String.toUTF8_eq_toByteArray, String.toByteArray_ofList, List.utf8Encode,
    List.data_toByteArray]

theorem length_le_length_flatMap (cs : List Char) :
    cs.length ≤ (cs.flatMap String.utf8EncodeChar).length := by
  induction cs with
  | nil => exact Nat.le_refl _
  | cons c cs induction =>
      have one := c.utf8Size_pos
      rw [List.flatMap_cons, List.length_append, String.length_utf8EncodeChar, List.length_cons]
      omega

theorem length_le_utf8ByteSize (s : String) : s.length ≤ s.utf8ByteSize :=
  calc s.length = s.toList.length := String.length_toList.symm
    _ ≤ (bytes s).length := bytes_eq_flatMap s ▸ length_le_length_flatMap s.toList
    _ = s.utf8ByteSize := rfl

theorem bytes_inj {s t : String} : bytes s = bytes t ↔ s = t := by
  rw [bytes, bytes, Array.toList_inj, ← ByteArray.ext_iff, String.toUTF8_eq_toByteArray,
    String.toUTF8_eq_toByteArray, String.toByteArray_inj]

theorem val_lt (c : Char) : c.val.toNat < 1114112 := by
  rcases c.valid with low | high
  · exact Nat.lt_trans low (by decide)
  · exact high.2

theorem ofNat_cons_lt_iff {m n : Nat} (first : m < 256) (second : n < 256) {cs ds : List UInt8} :
    UInt8.ofNat m :: cs < UInt8.ofNat n :: ds ↔ m < n ∨ m = n ∧ cs < ds := by
  rw [List.cons_lt_cons_iff, UInt8.lt_iff_toNat_lt, ← UInt8.toNat_inj, UInt8.toNat_ofNat',
    UInt8.toNat_ofNat', Nat.mod_eq_of_lt first, Nat.mod_eq_of_lt second]

theorem div_lt_or_mod_lt {m n : Nat} (smaller : m < n) (base : Nat) :
    m / base < n / base ∨ m / base = n / base ∧ m % base < n % base := by
  rcases Nat.lt_or_eq_of_le (Nat.div_le_div_right (c := base) (Nat.le_of_succ_le smaller)) with
    less | same
  · exact .inl less
  · have first := Nat.div_add_mod m base
    have second := Nat.div_add_mod n base
    rw [same] at first
    exact .inr ⟨same, by omega⟩

/-- Of two numbers the smaller one has the smaller digit where their digits to the base 64 first
differ. -/
theorem digits_lt {m n : Nat} (smaller : m < n) :
    m / 262144 < n / 262144 ∨ m / 262144 = n / 262144 ∧
      (m / 4096 % 64 < n / 4096 % 64 ∨ m / 4096 % 64 = n / 4096 % 64 ∧
        (m / 64 % 64 < n / 64 % 64 ∨ m / 64 % 64 = n / 64 % 64 ∧ m % 64 < n % 64)) := by
  have higher (n : Nat) : n / 64 / 64 = n / 4096 ∧ n / 4096 / 64 = n / 262144 :=
    ⟨Nat.div_div_eq_div_mul .., Nat.div_div_eq_div_mul ..⟩
  have ofFirst := higher m
  have ofSecond := higher n
  rcases div_lt_or_mod_lt smaller 64 with smaller | last
  · rcases div_lt_or_mod_lt smaller 64 with smaller | third
    · rcases div_lt_or_mod_lt smaller 64 with first | second
      · exact .inl (by omega)
      · exact .inr ⟨by omega, .inl (by omega)⟩
    · exact .inr ⟨by omega, .inr ⟨by omega, .inl (by omega)⟩⟩
  · exact .inr ⟨by omega, .inr ⟨by omega, .inr ⟨by omega, last.2⟩⟩⟩

/-- The bytes of a character decide against those of a greater one, whatever follows them. -/
theorem utf8EncodeChar_lt {c d : Char} (smaller : c < d) (cs ds : List UInt8) :
    String.utf8EncodeChar c ++ cs < String.utf8EncodeChar d ++ ds := by
  have smaller : c.val.toNat < d.val.toNat := smaller
  have first := val_lt c
  have second := val_lt d
  unfold String.utf8EncodeChar
  dsimp only
  generalize c.val.toNat = m at smaller first ⊢
  generalize d.val.toNat = n at smaller second ⊢
  have digits := digits_lt smaller
  have ofFirst : m / 262144 % 8 = m / 262144 := Nat.mod_eq_of_lt (by omega)
  have ofSecond : n / 262144 % 8 = n / 262144 := Nat.mod_eq_of_lt (by omega)
  split_ifs
  all_goals
    simp only [List.cons_append, List.nil_append]
    repeat rw [ofNat_cons_lt_iff (by omega) (by omega)]
    omega

theorem flatMap_utf8EncodeChar_lt {cs ds : List Char} (smaller : cs < ds) :
    cs.flatMap String.utf8EncodeChar < ds.flatMap String.utf8EncodeChar := by
  induction smaller with
  | nil =>
      rename_i d ds
      obtain ⟨byte, rest, encoded⟩ :=
        List.exists_cons_of_ne_nil (String.utf8EncodeChar_ne_nil (c := d))
      rw [List.flatMap_cons, encoded]
      exact .nil
  | rel smaller =>
      rw [List.flatMap_cons, List.flatMap_cons]
      exact utf8EncodeChar_lt smaller _ _
  | cons _ induction =>
      rw [List.flatMap_cons, List.flatMap_cons]
      exact List.append_left_lt induction

/-- Texts compare by their characters as they do by their bytes. -/
theorem bytes_lt_iff {s t : String} : bytes s < bytes t ↔ s < t := by
  rw [bytes_eq_flatMap, bytes_eq_flatMap]
  refine ⟨fun smaller => ?_, flatMap_utf8EncodeChar_lt⟩
  apply Decidable.byContradiction
  intro notSmaller
  rcases List.le_iff_lt_or_eq.1 (List.not_lt.1 notSmaller) with greater | same
  · exact List.lt_asymm smaller (flatMap_utf8EncodeChar_lt greater)
  · rw [same] at smaller
    exact List.lt_irrefl _ smaller

end PageTree.Text
