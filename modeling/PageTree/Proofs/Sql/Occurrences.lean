import PageTree.Proofs.Sql.Patterns

/-!
How often a phrase occurs in a text, from the left and without overlaps. Taking the occurrences away
shortens the text by the length of the phrase for each. Main statement: the count of a phrase is that
of its occurrences when the case of plain letters is left out of account.
-/

namespace PageTree

namespace Text

/-- The occurrences of a phrase; `skip` characters belong to one that was found before. -/
def occurrencesFrom (phrase : List Char) : Nat → List Char → Nat
  | _, [] => 0
  | skip + 1, _ :: cs => occurrencesFrom phrase skip cs
  | 0, c :: cs =>
    if phrase <+: c :: cs then occurrencesFrom phrase (phrase.length - 1) cs + 1
    else occurrencesFrom phrase 0 cs

/-- How often the phrase occurs in the text, from the left and without overlaps; an empty phrase does
not occur. -/
def occurrences (phrase text : List Char) : Nat :=
  if phrase = [] then 0 else occurrencesFrom phrase 0 text

variable {phrase : List Char}

theorem occurrencesFrom_eq_drop (phrase : List Char) (skip : Nat) (text : List Char) :
    occurrencesFrom phrase skip text = occurrencesFrom phrase 0 (text.drop skip) := by
  induction skip generalizing text with
  | zero => rfl
  | succ skip induction =>
      cases text with
      | nil => rfl
      | cons c cs => exact induction cs

@[simp] theorem occurrences_nil (phrase : List Char) : occurrences phrase [] = 0 := by
  rw [occurrences]
  split <;> rfl

theorem occurrences_append (filled : phrase ≠ []) (rest : List Char) :
    occurrences phrase (phrase ++ rest) = occurrences phrase rest + 1 := by
  rw [occurrences, occurrences, if_neg filled, if_neg filled]
  cases phrase with
  | nil => exact absurd rfl filled
  | cons c cs =>
      have here : c :: cs <+: c :: (cs ++ rest) := ⟨rest, rfl⟩
      rw [List.cons_append, occurrencesFrom, if_pos here, occurrencesFrom_eq_drop, List.length_cons,
        Nat.add_sub_cancel, List.drop_left]

theorem occurrences_cons {c : Char} {cs : List Char} (elsewhere : ¬phrase <+: c :: cs) :
    occurrences phrase (c :: cs) = occurrences phrase cs := by
  rw [occurrences, occurrences, occurrencesFrom, if_neg elsewhere]

theorem occurrences_cons_le (phrase : List Char) (c : Char) (cs : List Char) :
    occurrences phrase cs = 0 ∨ 0 < occurrences phrase (c :: cs) := by
  by_cases filled : phrase = []
  · exact .inl (if_pos filled)
  · by_cases here : phrase <+: c :: cs
    · obtain ⟨rest, spelled⟩ := here
      rw [← spelled, occurrences_append filled]
      exact .inr (Nat.succ_pos _)
    · rw [occurrences_cons here]
      exact Nat.eq_zero_or_pos _

/-- The phrases that occur in a text are those inside it. -/
theorem occurrences_pos_iff (filled : phrase ≠ []) {text : List Char} :
    0 < occurrences phrase text ↔ phrase <:+: text := by
  constructor
  · intro occurs
    induction text with
    | nil => simp at occurs
    | cons c cs induction =>
        by_cases here : phrase <+: c :: cs
        · exact here.isInfix
        · rw [occurrences_cons here] at occurs
          exact List.infix_cons (induction occurs)
  · rintro ⟨front, back, rfl⟩
    rw [List.append_assoc]
    induction front with
    | nil =>
        rw [List.nil_append, occurrences_append filled]
        exact Nat.succ_pos _
    | cons c front induction =>
        rw [List.cons_append]
        exact (occurrences_cons_le phrase c _).resolve_left (Nat.ne_of_gt induction)

end Text

namespace Sql

open Text

/-- Removing the occurrences of a phrase shortens a text by its length for each of them. -/
theorem length_removeFrom {phrase : List Char} (filled : phrase ≠ []) {skip : Nat}
    {text : List Char} (within : skip ≤ text.length) :
    (removeFrom phrase skip text).length + phrase.length * occurrencesFrom phrase skip text + skip =
      text.length := by
  induction text generalizing skip with
  | nil => simpa [removeFrom, occurrencesFrom] using within
  | cons c cs induction =>
      rw [List.length_cons] at within ⊢
      cases skip with
      | succ skip =>
          rw [removeFrom, occurrencesFrom, ← Nat.add_assoc, induction (Nat.le_of_succ_le_succ within)]
      | zero =>
          rw [removeFrom, occurrencesFrom]
          by_cases here : phrase <+: c :: cs
          · have long := here.length_le
            have some := List.length_pos_iff.2 filled
            rw [List.length_cons] at long
            have covered : phrase.length - 1 ≤ cs.length := by omega
            have rest := induction covered
            rw [if_pos ( List.isPrefixOf_iff_prefix.2 here), if_pos here, Nat.mul_add, Nat.mul_one]
            omega
          · have rest := induction (Nat.zero_le _)
            rw [if_neg (mt List.isPrefixOf_iff_prefix.1 here), if_neg here, List.length_cons]
            omega

theorem length_removeAll {phrase : List Char} (filled : phrase ≠ []) (text : List Char) :
    (removeAll phrase text).length + phrase.length * occurrences phrase text = text.length := by
  rw [removeAll, occurrences, if_neg (mt List.isEmpty_iff.1 filled), if_neg filled]
  exact length_removeFrom filled (Nat.zero_le _)

theorem occurrences_le (phrase text : List Char) : occurrences phrase text ≤ text.length := by
  by_cases filled : phrase = []
  · rw [occurrences, if_pos filled]
    exact Nat.zero_le _
  · have shortened := length_removeAll filled text
    have each : occurrences phrase text ≤ phrase.length * occurrences phrase text :=
      Nat.le_mul_of_pos_left _ (List.length_pos_iff.2 filled)
    omega

theorem removeFrom_subset (phrase : List Char) (skip : Nat) (text : List Char) :
    ∀ c ∈ removeFrom phrase skip text, c ∈ text := by
  induction text generalizing skip with
  | nil => simp [removeFrom]
  | cons c cs induction =>
      intro d member
      cases skip with
      | succ skip => exact List.mem_cons_of_mem _ (induction skip d member)
      | zero =>
          rw [removeFrom] at member
          split at member
          · exact List.mem_cons_of_mem _ (induction _ d member)
          · rcases List.mem_cons.1 member with rfl | later
            · exact List.mem_cons_self
            · exact List.mem_cons_of_mem _ (induction 0 d later)

theorem toLower_ne_null {c : Char} (noNull : c ≠ '\x00') : c.toLower ≠ '\x00' := by
  unfold Char.toLower
  split
  · next upper =>
    intro same
    have sum := congrArg (fun d : Char => d.val.toNat) same
    rw [ge_iff_le, UInt32.le_iff_toNat_le, UInt32.le_iff_toNat_le] at upper
    simp only [UInt32.toNat_add] at sum
    have first : 'A'.val.toNat = 65 := rfl
    have last : 'Z'.val.toNat = 90 := rfl
    have shift : ('a'.val - 'A'.val).toNat = 32 := rfl
    have null : ('\x00' : Char).val.toNat = 0 := rfl
    omega
  · exact noNull

theorem noNull_lower {cs : List Char} (noNull : '\x00' ∉ cs) : '\x00' ∉ lower cs := by
  intro member
  obtain ⟨c, isChar, null⟩ := List.mem_map.1 member
  exact toLower_ne_null (fun same => noNull (same ▸ isChar)) null

theorem lower_toList_ne_nil {phrase : String} (filled : phrase ≠ "") : lower phrase.toList ≠ [] :=
  fun empty => filled (String.toList_eq_nil_iff.1 (List.map_eq_nil_iff.1 empty))

/-- The count of a phrase is the number of its occurrences in any case of letters. -/
theorem countPhrase?_eq {phrase text : String} (filled : phrase ≠ "")
    (noNull : '\x00' ∉ text.toList) :
    countPhrase? phrase text =
      some ((occurrences (lower phrase.toList) (lower text.toList) : Nat) : Int) := by
  have letters := lower_toList_ne_nil filled
  have length : phrase.length = (lower phrase.toList).length := by
    rw [lower, List.length_map, String.length_toList]
  have positive : phrase.length ≠ 0 := by
    rw [length]
    exact Nat.ne_of_gt (List.length_pos_iff.2 letters)
  have kept : '\x00' ∉ removeAll (lower phrase.toList) (lower text.toList) := by
    rw [removeAll, if_neg (mt List.isEmpty_iff.1 letters)]
    exact fun member => noNull_lower noNull (removeFrom_subset _ _ _ _ member)
  have taken : (text.toList.length : Int) -
      ((removeAll (lower phrase.toList) (lower text.toList)).length : Int) =
        (phrase.length * occurrences (lower phrase.toList) (lower text.toList) : Nat) := by
    have shortened := length_removeAll letters (lower text.toList)
    rw [show (lower text.toList).length = text.toList.length from List.length_map ..,
      ← length] at shortened
    omega
  rw [countPhrase?, if_neg positive, beforeNull_eq_self noNull]
  change some ((_ - ((beforeNull (removeAll (lower _) (lower _))).length : Int)).tdiv _) = _
  rw [beforeNull_eq_self kept, taken, ← Int.ofNat_tdiv,
    Nat.mul_div_cancel_left _ (Nat.pos_of_ne_zero positive)]

end Sql

end PageTree
