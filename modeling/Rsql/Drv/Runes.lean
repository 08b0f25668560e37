import Mathlib.Data.List.GetD
import Rsql.Drv.Strings
import Rsql.Msgp.RoundTrip

/-! UTF-8 as the strings functions read it. Decoding what EncodeRune wrote
gives the rune back, and a rune decoded from valid bytes encodes to those
bytes. A string falls into the pieces `range` reads (`chunks`), each a rune's
encoding or one invalid byte, and bytes that do not continue a sequence start
a piece whatever comes before them. On these pieces strings.Map maps rune by
rune and TrimSpace drops the space runes at both ends, so ToLower commutes
with TrimSpace, lowers to a fixed point, and puts no ASCII byte other than a
letter in a string that has none. -/
namespace Rsql.Drv

open Msgp Rsqlib

/-! ### Bytes and runes as numbers -/

theorem byte_lt_iff {a b : UInt8} : a < b ↔ a.toNat < b.toNat := Iff.rfl

theorem Char.toNat_valid (c : Char) : c.toNat < 0xD800 ∨ (0xDFFF < c.toNat ∧ c.toNat < 0x110000) := c.valid

theorem Char.toNat_ofNat_of_valid {n : Nat} (h : n < 0xD800 ∨ (0xDFFF < n ∧ n < 0x110000)) :
    (Char.ofNat n).toNat = n := by
  rw [Char.ofNat, dif_pos h]
  rfl

theorem Char.eq_of_toNat_eq {c d : Char} (h : c.toNat = d.toNat) : c = d :=
  Char.ext (UInt32.toNat.inj h)

/-- A byte that no sequence continues with: ASCII or a first byte. -/
def starts_rune (x : UInt8) : Prop := x.toNat < 0x80 ∨ 0xBF < x.toNat

instance : DecidablePred starts_rune := fun _ => inferInstanceAs (Decidable (_ ∨ _))

/-- The least and the greatest second byte of a sequence starting with `c`. -/
def second_lo (c : Nat) : Nat := if c = 0xE0 then 0xA0 else if c = 0xF0 then 0x90 else 0x80

def second_hi (c : Nat) : Nat := if c = 0xED then 0x9F else if c = 0xF4 then 0x8F else 0xBF

/-- Go's `first` table for a byte from 0x80 on: the lengths and second-byte
ranges of the sequences it starts. -/
theorem utf8_first_cases {c : UInt8} {size : Nat} {lo hi : UInt8} (h : utf8_first c = some (size, lo, hi)) :
    lo.toNat = second_lo c.toNat ∧ hi.toNat = second_hi c.toNat ∧
      (size = 2 ∧ 0xC2 ≤ c.toNat ∧ c.toNat ≤ 0xDF ∨ size = 3 ∧ 0xE0 ≤ c.toNat ∧ c.toNat ≤ 0xEF ∨
        size = 4 ∧ 0xF0 ≤ c.toNat ∧ c.toNat ≤ 0xF4) := by
  have hc : c.toNat < 256 := UInt8.toNat_lt c
  unfold utf8_first at h
  by_cases h1 : c < 0xC2
  · rw [if_pos h1] at h; cases h
  have h1' : 0xC2 ≤ c.toNat := Nat.le_of_not_lt h1
  by_cases h2 : c ≤ 0xDF
  · rw [if_neg h1, if_pos h2] at h; cases h
    have h2' : c.toNat ≤ 0xDF := h2
    refine ⟨?_, ?_, .inl ⟨rfl, h1', h2'⟩⟩ <;> simp only [second_lo, second_hi] <;> split_ifs <;> first | rfl | omega
  have h2' : 0xDF < c.toNat := Nat.lt_of_not_le h2
  by_cases h3 : c = 0xE0
  · rw [if_neg h1, if_neg h2, if_pos h3] at h; cases h; subst h3
    exact ⟨rfl, rfl, .inr (.inl ⟨rfl, by decide, by decide⟩)⟩
  have h3' : c.toNat ≠ 0xE0 := fun e => h3 (UInt8.toNat.inj (by rw [e]; rfl))
  by_cases h4 : c = 0xED
  · rw [if_neg h1, if_neg h2, if_neg h3, if_pos h4] at h; cases h; subst h4
    exact ⟨rfl, rfl, .inr (.inl ⟨rfl, by decide, by decide⟩)⟩
  have h4' : c.toNat ≠ 0xED := fun e => h4 (UInt8.toNat.inj (by rw [e]; rfl))
  by_cases h5 : c ≤ 0xEF
  · rw [if_neg h1, if_neg h2, if_neg h3, if_neg h4, if_pos h5] at h; cases h
    have h5' : c.toNat ≤ 0xEF := h5
    refine ⟨?_, ?_, .inr (.inl ⟨rfl, by omega, h5'⟩)⟩ <;> simp only [second_lo, second_hi] <;> split_ifs <;>
      first | rfl | omega
  have h5' : 0xEF < c.toNat := Nat.lt_of_not_le h5
  rw [if_neg h1, if_neg h2, if_neg h3, if_neg h4, if_neg h5] at h
  by_cases h6 : c = 0xF0
  · rw [if_pos h6] at h; cases h; subst h6
    exact ⟨rfl, rfl, .inr (.inr ⟨rfl, by decide, by decide⟩)⟩
  have h6' : c.toNat ≠ 0xF0 := fun e => h6 (UInt8.toNat.inj (by rw [e]; rfl))
  by_cases h7 : c ≤ 0xF3
  · rw [if_neg h6, if_pos h7] at h; cases h
    have h7' : c.toNat ≤ 0xF3 := h7
    refine ⟨?_, ?_, .inr (.inr ⟨rfl, by omega, by omega⟩)⟩ <;> simp only [second_lo, second_hi] <;> split_ifs <;>
      first | rfl | omega
  by_cases h8 : c = 0xF4
  · rw [if_neg h6, if_neg h7, if_pos h8] at h; cases h; subst h8
    exact ⟨rfl, rfl, .inr (.inr ⟨rfl, by decide, by decide⟩)⟩
  rw [if_neg h6, if_neg h7, if_neg h8] at h
  cases h

theorem is_cont_iff (b : UInt8) : is_cont b = true ↔ 0x80 ≤ b.toNat ∧ b.toNat ≤ 0xBF := by
  simp only [is_cont, Bool.and_eq_true, decide_eq_true_eq]
  exact Iff.rfl

/-- A first byte `c` and the bytes after it that utf8_extra accepts: the
sequence fits in `rest`, its second byte is in `c`'s range, and its other
bytes continue it. -/
theorem utf8_extra_pos {c : UInt8} {rest : Bytes} (h : utf8_extra c rest ≠ 0) :
    ∃ size lo hi, utf8_first c = some (size, lo, hi) ∧ size ≤ rest.length + 1 ∧
      lo.toNat ≤ (rest.getD 0 0).toNat ∧ (rest.getD 0 0).toNat ≤ hi.toNat ∧ utf8_extra c rest = size - 1 ∧
      (3 ≤ size → is_cont (rest.getD 1 0) = true) ∧ (4 ≤ size → is_cont (rest.getD 2 0) = true) := by
  have he : utf8_extra c rest = utf8_extra c rest := rfl
  nth_rewrite 2 [utf8_extra] at he
  by_cases hc : c < 0x80
  · rw [if_pos hc] at he; exact absurd he h
  rw [if_neg hc] at he
  rcases hf : utf8_first c with _ | ⟨size, lo, hi⟩
  · rw [hf] at he; exact absurd he h
  rw [hf] at he
  obtain ⟨-, -, hsize⟩ := utf8_first_cases hf
  dsimp only at he
  by_cases h1 : rest.length + 1 < size
  · rw [if_pos h1] at he; exact absurd he h
  by_cases h2 : rest.getD 0 0 < lo ∨ hi < rest.getD 0 0
  · rw [if_neg h1, if_pos h2] at he; exact absurd he h
  rw [if_neg h1, if_neg h2] at he
  simp only [not_or, byte_lt_iff, Nat.not_lt] at h2
  refine ⟨size, lo, hi, rfl, by omega, h2.1, h2.2, ?_⟩
  rcases hsize with ⟨rfl, -⟩ | ⟨rfl, -⟩ | ⟨rfl, -⟩
  · exact ⟨he, by omega, by omega⟩
  · by_cases h3 : is_cont (rest.getD 1 0) = true
    · simp only [h3, Bool.not_true, Bool.false_eq_true, if_false, if_true] at he
      exact ⟨he, fun _ => h3, by omega⟩
    · simp only [h3, Bool.not_false, if_true, Bool.false_eq_true] at he
      exact absurd he h
  · by_cases h3 : is_cont (rest.getD 1 0) = true
    · by_cases h4 : is_cont (rest.getD 2 0) = true
      · simp only [h3, h4, Bool.not_true, Bool.false_eq_true, if_false] at he
        exact ⟨he, fun _ => h3, fun _ => h4⟩
      · simp only [h3, h4, Bool.not_true, Bool.not_false, Bool.false_eq_true, if_false, if_true] at he
        exact absurd he h
    · simp only [h3, Bool.not_false, if_true, Bool.false_eq_true] at he
      exact absurd he h

theorem utf8_first_some {c : UInt8} (h : 0xC2 ≤ c.toNat ∧ c.toNat ≤ 0xF4) :
    ∃ size lo hi, utf8_first c = some (size, lo, hi) := by
  unfold utf8_first
  rw [if_neg (show ¬ c < 0xC2 from fun h' => absurd (show c.toNat < 0xC2 from h') (by omega))]
  by_cases h2 : c ≤ 0xDF
  · exact ⟨_, _, _, if_pos h2⟩
  rw [if_neg h2]
  by_cases h3 : c = 0xE0
  · exact ⟨_, _, _, if_pos h3⟩
  rw [if_neg h3]
  by_cases h4 : c = 0xED
  · exact ⟨_, _, _, if_pos h4⟩
  rw [if_neg h4]
  by_cases h5 : c ≤ 0xEF
  · exact ⟨_, _, _, if_pos h5⟩
  rw [if_neg h5]
  by_cases h6 : c = 0xF0
  · exact ⟨_, _, _, if_pos h6⟩
  rw [if_neg h6]
  by_cases h7 : c ≤ 0xF3
  · exact ⟨_, _, _, if_pos h7⟩
  have h8 : c = 0xF4 := UInt8.toNat.inj (show c.toNat = 0xF4 by
    have : ¬ c.toNat ≤ 0xF3 := h7
    omega)
  rw [if_neg h7, if_pos h8]
  exact ⟨_, _, _, rfl⟩

/-- utf8_extra reads a whole sequence whose bytes are in range. -/
theorem utf8_extra_of_valid {c : UInt8} {size : Nat} {lo hi : UInt8} (hf : utf8_first c = some (size, lo, hi))
    {rest : Bytes} (hlen : size ≤ rest.length + 1)
    (hb : lo.toNat ≤ (rest.getD 0 0).toNat ∧ (rest.getD 0 0).toNat ≤ hi.toNat)
    (h3 : 3 ≤ size → is_cont (rest.getD 1 0) = true) (h4 : 4 ≤ size → is_cont (rest.getD 2 0) = true) :
    utf8_extra c rest = size - 1 := by
  obtain ⟨-, -, hsize⟩ := utf8_first_cases hf
  unfold utf8_extra
  rw [if_neg (show ¬ c < 0x80 by rw [byte_lt_iff]; show ¬ c.toNat < 128; omega), hf]
  dsimp only
  rw [if_neg (by omega), if_neg (by simp only [byte_lt_iff, not_or]; omega)]
  rcases hsize with ⟨rfl, -⟩ | ⟨rfl, -⟩ | ⟨rfl, -⟩
  · rfl
  · simp only [h3 (by decide), Bool.not_true, Bool.false_eq_true, if_false, if_true]
    rfl
  · simp only [h3 (by decide), h4 (by decide), Bool.not_true, Bool.false_eq_true, if_false, if_true]
    rfl

theorem second_lo_spec (c : Nat) :
    c = 0xE0 ∧ second_lo c = 0xA0 ∨ c = 0xF0 ∧ second_lo c = 0x90 ∨ c ≠ 0xE0 ∧ c ≠ 0xF0 ∧ second_lo c = 0x80 := by
  unfold second_lo; split_ifs <;> omega

theorem second_hi_spec (c : Nat) :
    c = 0xED ∧ second_hi c = 0x9F ∨ c = 0xF4 ∧ second_hi c = 0x8F ∨ c ≠ 0xED ∧ c ≠ 0xF4 ∧ second_hi c = 0xBF := by
  unfold second_hi; split_ifs <;> omega

theorem second_lo_ge (c : Nat) : 0x80 ≤ second_lo c := by
  unfold second_lo; split_ifs <;> decide

theorem second_hi_le (c : Nat) : second_hi c ≤ 0xBF := by
  unfold second_hi; split_ifs <;> decide

theorem toNat_ofNat_of_lt {n : Nat} (h : n < 256) : (UInt8.ofNat n).toNat = n := by
  rw [UInt8.toNat_ofNat_mod, Nat.mod_eq_of_lt h]

theorem ofNat_toNat_byte (b : UInt8) : UInt8.ofNat b.toNat = b :=
  UInt8.toNat.inj (toNat_ofNat_of_lt (UInt8.toNat_lt b))

theorem ofNat_eq_byte {n : Nat} {b : UInt8} (h : n = b.toNat) : UInt8.ofNat n = b := h ▸ ofNat_toNat_byte b

/-! ### The arithmetic of the encodings

The bytes EncodeRune writes for a rune of each range are in the ranges
utf8_extra accepts, and DecodeRune's sum over them gives the rune back; bytes
in those ranges sum to a rune of that range that encodes to them. -/

section Arithmetic

variable {v c b1 b2 b3 : Nat}

theorem encode_two (h : 0x80 ≤ v ∧ v < 0x800) (hc : c = 0xC0 + v / 64) (h1 : b1 = 0x80 + v % 64) :
    (0xC2 ≤ c ∧ c ≤ 0xDF) ∧ (second_lo c ≤ b1 ∧ b1 ≤ second_hi c) ∧ v = c % 32 * 64 + b1 % 64 := by
  have := second_lo_spec c
  have := second_hi_spec c
  omega

theorem decode_two (hc : 0xC2 ≤ c ∧ c ≤ 0xDF) (h1 : second_lo c ≤ b1 ∧ b1 ≤ second_hi c)
    (hv : v = c % 32 * 64 + b1 % 64) : (0x80 ≤ v ∧ v < 0x800) ∧ c = 0xC0 + v / 64 ∧ b1 = 0x80 + v % 64 := by
  have := second_lo_spec c
  have := second_hi_spec c
  omega

theorem encode_three (h : 0x800 ≤ v ∧ v < 0x10000 ∧ (v < 0xD800 ∨ 0xDFFF < v)) (hc : c = 0xE0 + v / 4096)
    (h1 : b1 = 0x80 + v / 64 % 64) (h2 : b2 = 0x80 + v % 64) :
    (0xE0 ≤ c ∧ c ≤ 0xEF) ∧ (second_lo c ≤ b1 ∧ b1 ≤ second_hi c) ∧ (0x80 ≤ b2 ∧ b2 ≤ 0xBF) ∧
      v = c % 16 * 4096 + b1 % 64 * 64 + b2 % 64 := by
  subst hc h1 h2
  have := second_lo_spec (0xE0 + v / 4096)
  have := second_hi_spec (0xE0 + v / 4096)
  omega

theorem decode_three (hc : 0xE0 ≤ c ∧ c ≤ 0xEF) (h1 : second_lo c ≤ b1 ∧ b1 ≤ second_hi c)
    (h2 : 0x80 ≤ b2 ∧ b2 ≤ 0xBF) (hv : v = c % 16 * 4096 + b1 % 64 * 64 + b2 % 64) :
    (0x800 ≤ v ∧ v < 0x10000 ∧ (v < 0xD800 ∨ 0xDFFF < v)) ∧ c = 0xE0 + v / 4096 ∧
      b1 = 0x80 + v / 64 % 64 ∧ b2 = 0x80 + v % 64 := by
  subst hv
  have := second_lo_spec c
  have := second_hi_spec c
  omega

theorem encode_four (h : 0x10000 ≤ v ∧ v < 0x110000) (hc : c = 0xF0 + v / 262144)
    (h1 : b1 = 0x80 + v / 4096 % 64) (h2 : b2 = 0x80 + v / 64 % 64) (h3 : b3 = 0x80 + v % 64) :
    (0xF0 ≤ c ∧ c ≤ 0xF4) ∧ (second_lo c ≤ b1 ∧ b1 ≤ second_hi c) ∧ (0x80 ≤ b2 ∧ b2 ≤ 0xBF) ∧
      (0x80 ≤ b3 ∧ b3 ≤ 0xBF) ∧ v = c % 8 * 262144 + b1 % 64 * 4096 + b2 % 64 * 64 + b3 % 64 := by
  subst hc h1 h2 h3
  have := second_lo_spec (0xF0 + v / 262144)
  have := second_hi_spec (0xF0 + v / 262144)
  omega

theorem decode_four (hc : 0xF0 ≤ c ∧ c ≤ 0xF4) (h1 : second_lo c ≤ b1 ∧ b1 ≤ second_hi c)
    (h2 : 0x80 ≤ b2 ∧ b2 ≤ 0xBF) (h3 : 0x80 ≤ b3 ∧ b3 ≤ 0xBF)
    (hv : v = c % 8 * 262144 + b1 % 64 * 4096 + b2 % 64 * 64 + b3 % 64) :
    (0x10000 ≤ v ∧ v < 0x110000) ∧ c = 0xF0 + v / 262144 ∧ b1 = 0x80 + v / 4096 % 64 ∧
      b2 = 0x80 + v / 64 % 64 ∧ b3 = 0x80 + v % 64 := by
  subst hv
  have := second_lo_spec c
  have := second_hi_spec c
  omega

end Arithmetic

section Sequences

variable {b b1 b2 b3 : UInt8} {t : Bytes}

theorem utf8_extra_two (hc : 0xC2 ≤ b.toNat ∧ b.toNat ≤ 0xDF)
    (h1 : second_lo b.toNat ≤ b1.toNat ∧ b1.toNat ≤ second_hi b.toNat) : utf8_extra b (b1 :: t) = 1 := by
  obtain ⟨size, lo, hi, hf⟩ := utf8_first_some (c := b) (by omega)
  obtain ⟨hlo, hhi, hsize⟩ := utf8_first_cases hf
  rw [utf8_extra_of_valid hf (by simp only [List.length_cons]; omega)
    (by simp only [List.getD_cons_zero]; omega) (fun h => absurd h (by omega)) (fun h => absurd h (by omega))]
  omega

theorem utf8_extra_three (hc : 0xE0 ≤ b.toNat ∧ b.toNat ≤ 0xEF)
    (h1 : second_lo b.toNat ≤ b1.toNat ∧ b1.toNat ≤ second_hi b.toNat) (h2 : 0x80 ≤ b2.toNat ∧ b2.toNat ≤ 0xBF) :
    utf8_extra b (b1 :: b2 :: t) = 2 := by
  obtain ⟨size, lo, hi, hf⟩ := utf8_first_some (c := b) (by omega)
  obtain ⟨hlo, hhi, hsize⟩ := utf8_first_cases hf
  rw [utf8_extra_of_valid hf (by simp only [List.length_cons]; omega) (by simp only [List.getD_cons_zero]; omega)
    (fun _ => by rwa [List.getD_cons_succ, List.getD_cons_zero, is_cont_iff]) (fun h => absurd h (by omega))]
  omega

theorem utf8_extra_four (hc : 0xF0 ≤ b.toNat ∧ b.toNat ≤ 0xF4)
    (h1 : second_lo b.toNat ≤ b1.toNat ∧ b1.toNat ≤ second_hi b.toNat) (h2 : 0x80 ≤ b2.toNat ∧ b2.toNat ≤ 0xBF)
    (h3 : 0x80 ≤ b3.toNat ∧ b3.toNat ≤ 0xBF) : utf8_extra b (b1 :: b2 :: b3 :: t) = 3 := by
  obtain ⟨size, lo, hi, hf⟩ := utf8_first_some (c := b) (by omega)
  obtain ⟨hlo, hhi, hsize⟩ := utf8_first_cases hf
  rw [utf8_extra_of_valid hf (by simp only [List.length_cons]; omega) (by simp only [List.getD_cons_zero]; omega)
    (fun _ => by rwa [List.getD_cons_succ, List.getD_cons_zero, is_cont_iff])
    (fun _ => by rwa [List.getD_cons_succ, List.getD_cons_succ, List.getD_cons_zero, is_cont_iff])]
  omega

end Sequences

section Decode

variable {c : UInt8} {rest : Bytes}

theorem DecodeRune_zero (h : utf8_extra c rest = 0) :
    DecodeRune c rest = if c < 0x80 then Char.ofNat c.toNat else RuneError := by
  rw [DecodeRune, h]

theorem DecodeRune_one (h : utf8_extra c rest = 1) :
    DecodeRune c rest = Char.ofNat (c.toNat % 32 * 64 + (rest.getD 0 0).toNat % 64) := by
  rw [DecodeRune, h]

theorem DecodeRune_two (h : utf8_extra c rest = 2) :
    DecodeRune c rest =
      Char.ofNat (c.toNat % 16 * 4096 + (rest.getD 0 0).toNat % 64 * 64 + (rest.getD 1 0).toNat % 64) := by
  rw [DecodeRune, h]

theorem DecodeRune_three (h : utf8_extra c rest = 3) :
    DecodeRune c rest = Char.ofNat (c.toNat % 8 * 262144 + (rest.getD 0 0).toNat % 64 * 4096 +
      (rest.getD 1 0).toNat % 64 * 64 + (rest.getD 2 0).toNat % 64) := by
  rw [DecodeRune, h]

end Decode

/-- Decoding reads back the rune EncodeRune wrote, whatever follows it. -/
theorem decode_EncodeRune (c : Char) (t : Bytes) :
    ∃ b bs, EncodeRune c = b :: bs ∧ utf8_extra b (bs ++ t) = bs.length ∧ DecodeRune b (bs ++ t) = c := by
  have hv := Char.toNat_valid c
  have back : ∀ n, n = c.toNat → Char.ofNat n = c := fun n hn => hn ▸ Char.ofNat_toNat c
  simp only [EncodeRune]
  generalize c.toNat = r at hv back
  by_cases h1 : r < 0x80
  · have hb := toNat_ofNat_of_lt (show r < 256 by omega)
    have hlt : UInt8.ofNat r < 0x80 := byte_lt_iff.2 (by rw [hb]; exact h1)
    have he : utf8_extra (UInt8.ofNat r) t = 0 := by rw [utf8_extra, if_pos hlt]
    refine ⟨_, [], if_pos h1, he, ?_⟩
    rw [List.nil_append, DecodeRune_zero he, if_pos hlt, hb]
    exact back r rfl
  by_cases h2 : r < 0x800
  · obtain ⟨hc, hb1, hr⟩ := encode_two ⟨Nat.le_of_not_lt h1, h2⟩
      (toNat_ofNat_of_lt (show 0xC0 + r / 64 < 256 by omega)) (toNat_ofNat_of_lt (by omega))
    have he := utf8_extra_two (t := t) hc hb1
    refine ⟨_, [_], by rw [if_neg h1, if_pos h2], he, ?_⟩
    rw [List.singleton_append, DecodeRune_one he, List.getD_cons_zero]
    exact back _ hr.symm
  by_cases h3 : r < 0x10000
  · obtain ⟨hc, hb1, hb2, hr⟩ := encode_three ⟨Nat.le_of_not_lt h2, h3, by omega⟩
      (toNat_ofNat_of_lt (show 0xE0 + r / 4096 < 256 by omega)) (toNat_ofNat_of_lt (by omega))
      (toNat_ofNat_of_lt (by omega))
    have he := utf8_extra_three (t := t) hc hb1 hb2
    refine ⟨_, [_, _], by rw [if_neg h1, if_neg h2, if_pos h3], he, ?_⟩
    rw [List.cons_append, List.singleton_append, DecodeRune_two he, List.getD_cons_zero, List.getD_cons_succ,
      List.getD_cons_zero]
    exact back _ hr.symm
  · obtain ⟨hc, hb1, hb2, hb3, hr⟩ := encode_four ⟨Nat.le_of_not_lt h3, by omega⟩
      (toNat_ofNat_of_lt (show 0xF0 + r / 262144 < 256 by omega)) (toNat_ofNat_of_lt (by omega))
      (toNat_ofNat_of_lt (by omega)) (toNat_ofNat_of_lt (by omega))
    have he := utf8_extra_four (t := t) hc hb1 hb2 hb3
    refine ⟨_, [_, _, _], by rw [if_neg h1, if_neg h2, if_neg h3], he, ?_⟩
    rw [List.cons_append, List.cons_append, List.singleton_append, DecodeRune_three he, List.getD_cons_zero,
      List.getD_cons_succ, List.getD_cons_zero, List.getD_cons_succ, List.getD_cons_succ, List.getD_cons_zero]
    exact back _ hr.symm

/-- A rune decoded from bytes that form a sequence encodes to exactly those
bytes; otherwise the first byte alone was read, as RuneError. -/
theorem EncodeRune_DecodeRune (c : UInt8) (rest : Bytes) :
    (utf8_extra c rest = 0 ∧ 0x80 ≤ c.toNat ∧ DecodeRune c rest = RuneError) ∨
      EncodeRune (DecodeRune c rest) = c :: rest.take (utf8_extra c rest) := by
  by_cases he : utf8_extra c rest = 0
  · rw [DecodeRune_zero he]
    by_cases hlt : c < 0x80
    · have hlt' : c.toNat < 0x80 := hlt
      right
      rw [if_pos hlt, he, List.take_zero, EncodeRune, Char.toNat_ofNat_of_valid (by omega), if_pos hlt',
        ofNat_toNat_byte]
    · exact .inl ⟨he, Nat.le_of_not_lt hlt, if_neg hlt⟩
  right
  obtain ⟨size, lo, hi, hf, hlen, hlo1, hhi1, hex, h3, h4⟩ := utf8_extra_pos he
  obtain ⟨hlo, hhi, hsize⟩ := utf8_first_cases hf
  rw [hlo] at hlo1
  rw [hhi] at hhi1
  rcases hsize with ⟨rfl, hs⟩ | ⟨rfl, hs⟩ | ⟨rfl, hs⟩
  · obtain _ | ⟨b1, t⟩ := rest
    · exact absurd hlen (by simp)
    rw [List.getD_cons_zero] at hlo1 hhi1
    rw [DecodeRune_one hex, hex, List.getD_cons_zero]
    obtain ⟨hr, e0, e1⟩ := decode_two hs ⟨hlo1, hhi1⟩ rfl
    rw [EncodeRune, Char.toNat_ofNat_of_valid (by omega), if_neg (by omega), if_pos hr.2, ← e0, ← e1,
      ofNat_toNat_byte, ofNat_toNat_byte]
    rfl
  · obtain _ | ⟨b1, _ | ⟨b2, t⟩⟩ := rest
    · exact absurd hlen (by simp)
    · exact absurd hlen (by simp)
    rw [List.getD_cons_zero] at hlo1 hhi1
    rw [List.getD_cons_succ, List.getD_cons_zero, is_cont_iff] at h3
    rw [DecodeRune_two hex, hex, List.getD_cons_zero, List.getD_cons_succ, List.getD_cons_zero]
    obtain ⟨hr, e0, e1, e2⟩ := decode_three hs ⟨hlo1, hhi1⟩ (h3 (le_refl _)) rfl
    rw [EncodeRune, Char.toNat_ofNat_of_valid (by omega), if_neg (by omega), if_neg (by omega), if_pos hr.2.1,
      ← e0, ← e1, ← e2, ofNat_toNat_byte, ofNat_toNat_byte, ofNat_toNat_byte]
    rfl
  · obtain _ | ⟨b1, _ | ⟨b2, _ | ⟨b3, t⟩⟩⟩ := rest
    · exact absurd hlen (by simp)
    · exact absurd hlen (by simp)
    · exact absurd hlen (by simp)
    rw [List.getD_cons_zero] at hlo1 hhi1
    rw [List.getD_cons_succ, List.getD_cons_zero, is_cont_iff] at h3
    rw [List.getD_cons_succ, List.getD_cons_succ, List.getD_cons_zero, is_cont_iff] at h4
    rw [DecodeRune_three hex, hex, List.getD_cons_zero, List.getD_cons_succ, List.getD_cons_zero,
      List.getD_cons_succ, List.getD_cons_succ, List.getD_cons_zero]
    obtain ⟨hr, e0, e1, e2, e3⟩ := decode_four hs ⟨hlo1, hhi1⟩ (h3 (by omega)) (h4 (le_refl _)) rfl
    rw [EncodeRune, Char.toNat_ofNat_of_valid (by omega), if_neg (by omega), if_neg (by omega), if_neg (by omega),
      ← e0, ← e1, ← e2, ← e3, ofNat_toNat_byte, ofNat_toNat_byte, ofNat_toNat_byte, ofNat_toNat_byte]
    rfl

/-! ### What utf8_extra reads -/

section Extra

variable {c : UInt8} {rest : Bytes}

theorem utf8_extra_le (c : UInt8) (rest : Bytes) : utf8_extra c rest ≤ rest.length ∧ utf8_extra c rest ≤ 3 := by
  by_cases h : utf8_extra c rest = 0
  · omega
  obtain ⟨size, lo, hi, hf, hlen, -, -, hex, -⟩ := utf8_extra_pos h
  obtain ⟨-, -, hsize⟩ := utf8_first_cases hf
  omega

/-- Every byte a sequence is read on continues it. -/
theorem utf8_extra_cont (h : utf8_extra c rest ≠ 0) {i : Nat} (hi : i < utf8_extra c rest) :
    0x80 ≤ (rest.getD i 0).toNat ∧ (rest.getD i 0).toNat ≤ 0xBF := by
  obtain ⟨size, lo, hi', hf, -, hlo, hhi, hex, h3, h4⟩ := utf8_extra_pos h
  obtain ⟨hlo', hhi', hsize⟩ := utf8_first_cases hf
  have := second_lo_ge c.toNat
  have := second_hi_le c.toNat
  rw [hex] at hi
  match i, hi with
  | 0, _ => omega
  | 1, _ => exact (is_cont_iff _).1 (h3 (by omega))
  | 2, _ => exact (is_cont_iff _).1 (h4 (by omega))
  | _ + 3, _ => omega

/-- utf8_extra reads no byte beyond the sequence. -/
theorem utf8_extra_congr {rest' : Bytes} (h : utf8_extra c rest ≠ 0) (hlen : utf8_extra c rest ≤ rest'.length)
    (hb : ∀ i < utf8_extra c rest, rest'.getD i 0 = rest.getD i 0) : utf8_extra c rest' = utf8_extra c rest := by
  obtain ⟨size, lo, hi, hf, -, hlo, hhi, hex, h3, h4⟩ := utf8_extra_pos h
  obtain ⟨-, -, hsize⟩ := utf8_first_cases hf
  rw [hex] at hlen hb ⊢
  exact utf8_extra_of_valid hf (by omega) (by rw [hb 0 (by omega)]; exact ⟨hlo, hhi⟩)
    (fun h => by rw [hb 1 (by omega)]; exact h3 h) (fun h => by rw [hb 2 (by omega)]; exact h4 h)

theorem DecodeRune_congr {rest' : Bytes} (he : utf8_extra c rest' = utf8_extra c rest)
    (hb : ∀ i < utf8_extra c rest, rest'.getD i 0 = rest.getD i 0) : DecodeRune c rest' = DecodeRune c rest := by
  have := (utf8_extra_le c rest).2
  rcases hk : utf8_extra c rest with _ | _ | _ | _ | k
  · rw [DecodeRune_zero (he.trans hk), DecodeRune_zero hk]
  · rw [DecodeRune_one (he.trans hk), DecodeRune_one hk, hb 0 (by omega)]
  · rw [DecodeRune_two (he.trans hk), DecodeRune_two hk, hb 0 (by omega), hb 1 (by omega)]
  · rw [DecodeRune_three (he.trans hk), DecodeRune_three hk, hb 0 (by omega), hb 1 (by omega), hb 2 (by omega)]
  · omega

variable {t : Bytes} (ht : ∀ x ∈ t.head?, starts_rune x)
include ht

/-- Bytes that start with one no sequence continues with do not change the
sequence read before them. -/
theorem utf8_extra_append : utf8_extra c (rest ++ t) = utf8_extra c rest := by
  have agree : ∀ i < rest.length, (rest ++ t).getD i 0 = rest.getD i 0 := fun i hi => List.getD_append _ _ _ _ hi
  have hle := (utf8_extra_le c rest).1
  by_cases h : utf8_extra c rest = 0
  · rw [h]
    by_contra h'
    have hk : utf8_extra c (rest ++ t) ≤ rest.length := by
      by_contra hk
      have hc := utf8_extra_cont h' (i := rest.length) (by omega)
      rw [List.getD_append_right _ _ _ _ (le_refl _), Nat.sub_self] at hc
      obtain _ | ⟨x, t⟩ := t
      · simp at hc
      · rcases ht x rfl with hx | hx <;> rw [List.getD_cons_zero] at hc <;> omega
    exact h' (h ▸ (utf8_extra_congr h' hk fun i hi => (agree i (by omega)).symm).symm)
  · exact utf8_extra_congr h (by simp only [List.length_append]; omega) fun i hi => agree i (by omega)

theorem DecodeRune_append : DecodeRune c (rest ++ t) = DecodeRune c rest :=
  DecodeRune_congr (utf8_extra_append ht) fun i hi =>
    List.getD_append _ _ _ _ (by have := (utf8_extra_le c rest).1; omega)

end Extra

/-! ### The pieces `range` reads -/

/-- The pieces a range loop over a string reads: a rune's bytes and the rune. -/
def chunks : Bytes → List (Bytes × Char)
  | [] => []
  | c :: rest => (c :: rest.take (utf8_extra c rest), DecodeRune c rest) :: chunks (rest.drop (utf8_extra c rest))
termination_by s => s.length
decreasing_by simp only [List.length_drop, List.length_cons]; omega

theorem chunks_cons (c : UInt8) (rest : Bytes) : chunks (c :: rest) =
    (c :: rest.take (utf8_extra c rest), DecodeRune c rest) :: chunks (rest.drop (utf8_extra c rest)) := by
  rw [chunks]

theorem chunks_flatten (s : Bytes) : ((chunks s).map Prod.fst).flatten = s := by
  induction s using chunks.induct with
  | case1 => rw [chunks]; rfl
  | case2 c rest ih =>
    rw [chunks_cons, List.map_cons, List.flatten_cons, ih, List.cons_append, List.take_append_drop]

theorem mem_of_mem_chunks {s : Bytes} {p : Bytes × Char} (hp : p ∈ chunks s) {x : UInt8} (hx : x ∈ p.1) :
    x ∈ s := by
  rw [← chunks_flatten s]
  exact List.mem_flatten.2 ⟨p.1, List.mem_map_of_mem _ hp, hx⟩

/-- A piece is a rune's encoding, or one byte read as RuneError. -/
theorem chunk_canonical {s : Bytes} {p : Bytes × Char} (hp : p ∈ chunks s) :
    EncodeRune p.2 = p.1 ∨ p.2 = RuneError ∧ ∃ b, p.1 = [b] := by
  induction s using chunks.induct with
  | case1 => rw [chunks] at hp; cases hp
  | case2 c rest ih =>
    rw [chunks_cons, List.mem_cons] at hp
    rcases hp with rfl | hp
    · rcases EncodeRune_DecodeRune c rest with ⟨he, -, hd⟩ | he
      · exact .inr ⟨hd, c, by rw [he, List.take_zero]⟩
      · exact .inl he
    · exact ih hp

/-- Encoded runes are read back as they were written. -/
theorem chunks_EncodeRune_append (c : Char) (t : Bytes) : chunks (EncodeRune c ++ t) = (EncodeRune c, c) :: chunks t := by
  obtain ⟨b, bs, he, hx, hd⟩ := decode_EncodeRune c t
  rw [he, List.cons_append, chunks_cons, hx, hd, List.take_left, List.drop_left]

theorem chunks_append (s : Bytes) {t : Bytes} (ht : ∀ x ∈ t.head?, starts_rune x) :
    chunks (s ++ t) = chunks s ++ chunks t := by
  induction s using chunks.induct with
  | case1 => rw [chunks]; rfl
  | case2 c rest ih =>
    have hle := (utf8_extra_le c rest).1
    rw [List.cons_append, chunks_cons, chunks_cons, utf8_extra_append ht, DecodeRune_append ht,
      List.take_append_of_le_length hle, List.drop_append_of_le_length hle, ih, List.cons_append]

theorem EncodeRune_ne_nil (c : Char) : EncodeRune c ≠ [] := by
  obtain ⟨b, bs, he, -⟩ := decode_EncodeRune c []
  rw [he]
  exact List.cons_ne_nil b bs

theorem chunk_ne_nil {s : Bytes} {p : Bytes × Char} (hp : p ∈ chunks s) : p.1 ≠ [] := by
  rcases chunk_canonical hp with he | ⟨-, b, hb⟩
  · exact he ▸ EncodeRune_ne_nil p.2
  · exact hb ▸ List.cons_ne_nil b []

/-! ### strings.Map -/

theorem Map_eq_chunks (f : Char → Char) (s : Bytes) :
    Map f s = ((chunks s).map fun p => EncodeRune (f p.2)).flatten := by
  induction s using chunks.induct with
  | case1 => rw [Map, chunks]; rfl
  | case2 c rest ih => rw [Map, chunks_cons, List.map_cons, List.flatten_cons, ih]

theorem chunks_Map (f : Char → Char) (s : Bytes) :
    chunks (Map f s) = (chunks s).map fun p => (EncodeRune (f p.2), f p.2) := by
  induction s using chunks.induct with
  | case1 => rw [Map, chunks]; rfl
  | case2 c rest ih => rw [Map, chunks_cons, chunks_EncodeRune_append, ih, List.map_cons]

theorem Map_Map (f g : Char → Char) (s : Bytes) : Map g (Map f s) = Map (g ∘ f) s := by
  rw [Map_eq_chunks g, chunks_Map, List.map_map, Map_eq_chunks]
  rfl

/-! ### TrimSpace on pieces -/

theorem IsSpace_RuneError : IsSpace RuneError = false := by decide

theorem IsSpace_space_chars : ∀ n ∈ space_chars, IsSpace (Char.ofNat n) = true := by decide

theorem space_runes_start : ∀ w ∈ space_runes, ∀ x ∈ w.head?, starts_rune x := by decide

/-- A space rune starting a string is its first piece. -/
theorem space_rune_chunks {w s : Bytes} (hw : w ∈ space_runes) (hp : w <+: s) :
    ∃ r, IsSpace r = true ∧ chunks s = (w, r) :: chunks (s.drop w.length) := by
  rw [space_runes_eq] at hw
  obtain ⟨n, hn, rfl⟩ := List.mem_map.1 hw
  obtain ⟨t, rfl⟩ := hp
  exact ⟨_, IsSpace_space_chars n hn, by rw [chunks_EncodeRune_append, List.drop_left]⟩

/-- The bytes of a space piece are a space rune. -/
theorem space_chunk_mem {s : Bytes} {p : Bytes × Char} (hp : p ∈ chunks s) (hs : IsSpace p.2 = true) :
    p.1 ∈ space_runes := by
  rcases chunk_canonical hp with he | ⟨hr, -⟩
  · rw [← he, space_runes_eq]
    exact List.mem_map.2 ⟨p.2.toNat, List.elem_iff.1 hs, by rw [Char.ofNat_toNat]⟩
  · rw [hr, IsSpace_RuneError] at hs
    cases hs

/-- The left trim drops the space pieces that start the string. -/
theorem chunks_trim_left (s : Bytes) :
    chunks (trim_left space_runes s) = (chunks s).dropWhile fun p => IsSpace p.2 := by
  refine trim_left.induct space_runes
    (motive := fun s => chunks (trim_left space_runes s) = (chunks s).dropWhile fun p => IsSpace p.2)
    (fun s w h ih => ?_) (fun s h => ?_) s
  · dsimp only at ih ⊢
    obtain ⟨hw, hp⟩ := prefix_of_find_rune h
    obtain ⟨r, hr, hc⟩ := space_rune_chunks hw hp
    rw [trim_left_some h, ih, hc, List.dropWhile_cons_of_pos (p := fun p => IsSpace p.2) (a := (w, r)) hr]
  · dsimp only
    rw [trim_left_none h]
    cases hc : chunks s with
    | nil => rfl
    | cons p l =>
      refine (List.dropWhile_cons_of_neg fun hs => ?_).symm
      have hmem : p ∈ chunks s := hc ▸ List.mem_cons_self p l
      have hpre : p.1 <+: s := by
        rw [← chunks_flatten s, hc, List.map_cons, List.flatten_cons]
        exact List.prefix_append _ _
      exact find_rune_none_iff.1 h p.1 (space_chunk_mem hmem hs) (chunk_ne_nil hmem) hpre

/-- The right trim drops the space pieces that end the string. -/
theorem chunks_trim_right (v : Bytes) :
    chunks (trim_left (space_runes.map List.reverse) v).reverse =
      ((chunks v.reverse).reverse.dropWhile fun p => IsSpace p.2).reverse := by
  refine trim_left.induct (space_runes.map List.reverse)
    (motive := fun v => chunks (trim_left (space_runes.map List.reverse) v).reverse =
      ((chunks v.reverse).reverse.dropWhile fun p => IsSpace p.2).reverse)
    (fun v w h ih => ?_) (fun v h => ?_) v
  · dsimp only at ih ⊢
    obtain ⟨hw, v', rfl⟩ := prefix_of_find_rune h
    obtain ⟨w', hw', rfl⟩ := List.mem_map.1 hw
    obtain ⟨r, hr, hc⟩ := space_rune_chunks hw' (List.prefix_refl w')
    rw [List.drop_length, chunks] at hc
    rw [trim_left_some h, ih, List.drop_left, List.reverse_append, List.reverse_reverse,
      chunks_append _ (space_runes_start w' hw'), hc, List.reverse_append, List.reverse_singleton,
      List.singleton_append, List.dropWhile_cons_of_pos (p := fun p => IsSpace p.2) (a := (w', r)) hr]
  · dsimp only
    rw [trim_left_none h]
    suffices hd : ((chunks v.reverse).reverse.dropWhile fun p => IsSpace p.2) = (chunks v.reverse).reverse by
      rw [hd, List.reverse_reverse]
    cases hc : (chunks v.reverse).reverse with
    | nil => rfl
    | cons p l =>
      refine List.dropWhile_cons_of_neg fun hs => ?_
      have hmem : p ∈ chunks v.reverse := List.mem_reverse.1 (hc ▸ List.mem_cons_self p l)
      have hsuf : p.1.reverse <+: v := by
        rw [List.reverse_eq_cons_iff] at hc
        rw [← List.reverse_reverse v, ← chunks_flatten v.reverse, hc, List.map_append, List.flatten_append,
          List.reverse_append, List.map_singleton, List.flatten_singleton]
        exact List.prefix_append _ _
      exact find_rune_none_iff.1 h _ (List.mem_map_of_mem _ (space_chunk_mem hmem hs))
        (by simpa using chunk_ne_nil hmem) hsuf

theorem chunks_TrimSpace (s : Bytes) :
    chunks (TrimSpace s) =
      ((((chunks s).dropWhile fun p => IsSpace p.2).reverse.dropWhile fun p => IsSpace p.2).reverse) := by
  rw [TrimSpace, chunks_trim_right, List.reverse_reverse, chunks_trim_left]

/-- Trimming commutes with a mapping that keeps spaces and non-spaces apart. -/
theorem TrimSpace_Map {f : Char → Char} (hf : ∀ c, IsSpace (f c) = IsSpace c) (s : Bytes) :
    TrimSpace (Map f s) = Map f (TrimSpace s) := by
  have hg : ((fun p : Bytes × Char => IsSpace p.2) ∘ fun p : Bytes × Char => (EncodeRune (f p.2), f p.2)) =
      fun p => IsSpace p.2 := funext fun p => hf p.2
  rw [← chunks_flatten (TrimSpace (Map f s)), chunks_TrimSpace, chunks_Map, List.dropWhile_map, hg,
    ← List.map_reverse, List.dropWhile_map, hg, ← List.map_reverse, List.map_map, Map_eq_chunks,
    chunks_TrimSpace]
  rfl

/-! ### strings.ToLower -/

theorem RuneError_toNat : RuneError.toNat = 0xFFFD := rfl

theorem EncodeRune_of_lt {c : Char} (h : c.toNat < 0x80) : EncodeRune c = [.ofNat c.toNat] := by
  simp only [EncodeRune, if_pos h]

/-- The only ASCII byte in a rune's encoding is the rune itself. -/
theorem EncodeRune_ascii_mem {c : Char} {b : UInt8} (h : b ∈ EncodeRune c) (hb : b.toNat < 0x80) :
    c.toNat = b.toNat := by
  simp only [EncodeRune] at h
  split_ifs at h with h1 h2 h3 <;>
    simp only [List.mem_cons, List.mem_singleton, List.not_mem_nil, or_false] at h
  · rw [h, toNat_ofNat_of_lt (by omega)]
  · rcases h with rfl | rfl <;> rw [toNat_ofNat_of_lt (by omega)] at hb <;> omega
  · rcases h with rfl | rfl | rfl <;> rw [toNat_ofNat_of_lt (by omega)] at hb <;> omega
  · have := Char.toNat_valid c
    rcases h with rfl | rfl | rfl | rfl <;> rw [toNat_ofNat_of_lt (by omega)] at hb <;> omega

/-- unicode.ToLower of an ASCII rune, encoded: the byte lowered as ASCII. -/
theorem EncodeRune_lower_ascii (uc : Casing) {b : UInt8} (hb : b < 0x80) :
    EncodeRune (uc.ToLower (Char.ofNat b.toNat)) = [ascii_lower b] := by
  have hb' : b.toNat < 0x80 := hb
  have hl := uc.ascii (Char.ofNat b.toNat) (by rw [Char.toNat_ofNat_of_valid (by omega)]; exact hb')
  rw [Char.toNat_ofNat_of_valid (by omega)] at hl
  rw [EncodeRune_of_lt (by rw [hl]; split_ifs <;> omega), hl, ascii_lower]
  by_cases hL : 0x41 ≤ b.toNat ∧ b.toNat ≤ 0x5A
  · rw [if_pos hL, if_pos (show 0x41 ≤ b ∧ b ≤ 0x5A from hL)]
    exact congrArg (· :: []) (ofNat_eq_byte (show _ = (b.toNat + 32) % 256 by omega))
  · rw [if_neg hL, if_neg (show ¬ (0x41 ≤ b ∧ b ≤ 0x5A) from hL), ofNat_toNat_byte]

theorem Map_lower_ascii (uc : Casing) : ∀ s : Bytes, s.all (· < 0x80) = true → Map uc.ToLower s = s.map ascii_lower
  | [], _ => by rw [Map]; rfl
  | b :: rest, h => by
    simp only [List.all_cons, Bool.and_eq_true, decide_eq_true_eq] at h
    have he : utf8_extra b rest = 0 := by rw [utf8_extra, if_pos h.1]
    rw [Map, he, DecodeRune_zero he, if_pos h.1, List.drop_zero, EncodeRune_lower_ascii uc h.1,
      Map_lower_ascii uc rest h.2, List.map_cons]
    rfl

/-- The ASCII fast path of strings.ToLower lowers as Map(unicode.ToLower) does. -/
theorem ToLower_eq_Map (uc : Casing) (s : Bytes) : ToLower uc s = Map uc.ToLower s := by
  unfold ToLower
  split_ifs with h
  · exact (Map_lower_ascii uc s h).symm
  · rfl

theorem ToLower_ToLower (uc : Casing) (s : Bytes) : ToLower uc (ToLower uc s) = ToLower uc s := by
  rw [ToLower_eq_Map, ToLower_eq_Map, Map_Map]
  exact congrArg (Map · s) (funext uc.idem)

theorem TrimSpace_ToLower (uc : Casing) (s : Bytes) : TrimSpace (ToLower uc s) = ToLower uc (TrimSpace s) := by
  rw [ToLower_eq_Map, ToLower_eq_Map, TrimSpace_Map uc.space]

/-- Lowering puts no ASCII byte other than a lower-case letter into a string. -/
theorem mem_ToLower (uc : Casing) {s : Bytes} {b : UInt8} (hb : b.toNat < 0x80)
    (hl : ¬ (0x61 ≤ b.toNat ∧ b.toNat ≤ 0x7A)) (h : b ∈ ToLower uc s) : b ∈ s := by
  rw [ToLower_eq_Map, Map_eq_chunks] at h
  obtain ⟨w, hw, hbw⟩ := List.mem_flatten.1 h
  obtain ⟨p, hp, rfl⟩ := List.mem_map.1 hw
  have hr := EncodeRune_ascii_mem hbw hb
  have hfix := uc.into_ascii p.2 (by omega) (by rw [hr]; exact hl)
  rw [hfix] at hr hbw
  rcases chunk_canonical hp with he | ⟨hre, -⟩
  · exact mem_of_mem_chunks hp (he ▸ hbw)
  · rw [hre, RuneError_toNat] at hr
    omega

theorem ToLower_ne_nil (uc : Casing) {s : Bytes} (h : s ≠ []) : ToLower uc s ≠ [] := by
  rw [ToLower_eq_Map]
  obtain _ | ⟨c, rest⟩ := s
  · exact absurd rfl h
  rw [Map]
  exact fun he => EncodeRune_ne_nil _ (List.append_eq_nil.1 he).1

/-! ### A case mapping -/

theorem IsSpace_of_letter {c : Char} (h : 0x41 ≤ c.toNat ∧ c.toNat ≤ 0x7A) : IsSpace c = false := by
  have : c.toNat ∉ space_chars := by simp only [space_chars, List.mem_cons, List.not_mem_nil, or_false]; omega
  simpa [IsSpace] using this

def ascii_tolower (c : Char) : Char := if 0x41 ≤ c.toNat ∧ c.toNat ≤ 0x5A then Char.ofNat (c.toNat + 0x20) else c

theorem ascii_tolower_toNat (c : Char) :
    (ascii_tolower c).toNat = if 0x41 ≤ c.toNat ∧ c.toNat ≤ 0x5A then c.toNat + 0x20 else c.toNat := by
  unfold ascii_tolower
  split_ifs
  · exact Char.toNat_ofNat_of_valid (by omega)
  · rfl

theorem ascii_tolower_of_not {c : Char} (h : ¬ (0x41 ≤ c.toNat ∧ c.toNat ≤ 0x5A)) : ascii_tolower c = c := by
  rw [ascii_tolower, if_neg h]

/-- A case mapping that lowers the ASCII letters only. It has the laws of
unicode.ToLower, so what holds for every Casing holds for it. -/
def ascii_casing : Casing where
  ToLower := ascii_tolower
  ascii c _ := ascii_tolower_toNat c
  idem c := Char.eq_of_toNat_eq (by rw [ascii_tolower_toNat, ascii_tolower_toNat]; split_ifs <;> omega)
  space c := by
    by_cases h : 0x41 ≤ c.toNat ∧ c.toNat ≤ 0x5A
    · have hl := ascii_tolower_toNat c
      rw [if_pos h] at hl
      rw [IsSpace_of_letter (by omega), IsSpace_of_letter (by omega)]
    · rw [ascii_tolower_of_not h]
  into_ascii c _ hl := by
    by_cases h : 0x41 ≤ c.toNat ∧ c.toNat ≤ 0x5A
    · have := ascii_tolower_toNat c
      rw [if_pos h] at this
      omega
    · exact ascii_tolower_of_not h

end Rsql.Drv
