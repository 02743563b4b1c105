import Pigs.Utils.Dig62.RoundTrip

/-! The texts on which `de` panics: four bits of an admitted text may be above nine, which no check of
`de` looks at. -/

namespace Pigs.Utils.Dig62

open Pigs.Lib

/-- No four full bits write a number above nine. -/
def DecimalBits (bits : List Nat) : Prop :=
  ∀ k, 4 * k + 4 ≤ bits.length → value 2 ((bits.drop (4 * k)).take 4) ≤ 9

/-- The bits that are left over at the end are below eight. -/
theorem decimal_bits_chunks (bits : List Nat) (binary : ∀ bit ∈ bits, bit < 2) :
    (∀ chunk ∈ chunks 4 bits, value 2 chunk ≤ 9) ↔ DecimalBits bits := by
  constructor
  · intro decimal k full
    exact decimal _ ((mem_chunks 4 (by omega) bits _).mpr ⟨k, by omega, rfl⟩)
  · intro decimal chunk member
    obtain ⟨k, bound, rfl⟩ := (mem_chunks 4 (by omega) bits chunk).mp member
    by_cases full : 4 * k + 4 ≤ bits.length
    · exact decimal k full
    · have within : ∀ bit ∈ (bits.drop (4 * k)).take 4, bit < 2 :=
        fun bit taken => binary bit (List.mem_of_mem_drop (List.mem_of_mem_take taken))
      have short : ((bits.drop (4 * k)).take 4).length ≤ 3 := by
        simp only [List.length_take, List.length_drop]
        omega
      have small := value_lt 2 _ within
      have power : 2 ^ ((bits.drop (4 * k)).take 4).length ≤ 2 ^ 3 :=
        Nat.pow_le_pow_right (by omega) short
      omega

theorem de_empty (num62 : String) (empty : num62.toList = []) :
    de num62 = .error (.sysError "Too short to miss header") := by
  simp only [de, empty]

theorem de_unknown_header (num62 : String) (header : Char) (body : List Char)
    (text : num62.toList = header :: body) (unknown : ∀ pad : Nat, aDic[pad]? ≠ some header) :
    de num62 = .error (.sysError "Illegal alphabet character by header") := by
  have lookup : dicMap aDic header = none := by
    rw [Option.eq_none_iff_forall_ne_some]
    intro pad found
    exact unknown pad ((dic_map_eq_some aDic a_dic_nodup _ _).mp found)
  simp only [de, text, lookup, okOrElse]
  rfl

theorem de_refused (num62 : String) (header : Char) (body : List Char) (pad : Nat)
    (text : num62.toList = header :: body) (known : aDic[pad]? = some header)
    (refused : ¬ ∃ vals, Spells body vals) : ∃ msg, de num62 = .error (.sysError msg) := by
  have lookup := (dic_map_eq_some aDic a_dic_nodup _ _).mpr known
  obtain ⟨msg, stopped⟩ := read_groups_refused body refused []
  refine ⟨msg, ?_⟩
  simp only [de, text, lookup, okOrElse, bind, Except.bind, stopped]

/-- `de` does not panic exactly on the texts outside its grammar and on those whose bits, less the
header's zeroes, are decimal digits four by four. -/
theorem de_never_panics_iff (num62 : String) :
    (∀ msg, de num62 ≠ .error (.panicked msg)) ↔
      ∀ header body (pad : Nat) vals, num62.toList = header :: body → aDic[pad]? = some header →
        Spells body vals → DecimalBits ((vals.flatMap groupBits).drop pad) := by
  constructor
  · intro quiet header body pad vals text known spells
    rw [← decimal_bits_chunks _ (dropped_bits_lt vals pad)]
    by_contra high
    have panics := de_spells num62 header body pad vals text known spells
    rw [if_neg high] at panics
    exact quiet _ panics
  · intro decimal msg panics
    cases text : num62.toList with
    | nil =>
        rw [de_empty num62 text] at panics
        cases panics
    | cons header body =>
        by_cases known : ∃ pad : Nat, aDic[pad]? = some header
        · obtain ⟨pad, known⟩ := known
          by_cases spelt : ∃ vals, Spells body vals
          · obtain ⟨vals, spells⟩ := spelt
            have fine := (decimal_bits_chunks _ (dropped_bits_lt vals pad)).mpr
              (decimal header body pad vals text known spells)
            rw [de_spells num62 header body pad vals text known spells, if_pos fine] at panics
            cases panics
          · obtain ⟨msg, refused⟩ := de_refused num62 header body pad text known spelt
            rw [refused] at panics
            cases panics
        · rw [de_unknown_header num62 header body text (not_exists.mp known)] at panics
          cases panics

/-- One group of value 320 is the bits 101000000, which start with the number ten. -/
theorem de_panics_q6c : ¬ ∀ num62 msg, de num62 ≠ .error (.panicked msg) := by
  intro quiet
  exact quiet "q6c" "Invalid number" (by decide +kernel)

end Pigs.Utils.Dig62
