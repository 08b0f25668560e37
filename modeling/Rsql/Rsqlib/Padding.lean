import Rsql.Rsqlib.Decode

/-! CHAR padding. A Varchar field with Fixlen reads its string and pads it
with ASCII spaces until utf8.RuneCount reaches the precision. The value may be
any bytes, invalid UTF-8 included: what RuneCount steps over at a byte depends
on at most the three bytes after it, and an ASCII byte is never one of those it
steps over, so the spaces add one rune each. -/
namespace Rsql.Rsqlib

open Msgp GoM

/-- Every byte of `s` is ASCII. -/
def all_ascii (s : Bytes) : Prop := ∀ b ∈ s, b.toNat < 0x80

theorem utf8_first_spec {c : UInt8} {size : Nat} {lo hi : UInt8} (h : utf8_first c = some (size, lo, hi)) :
    2 ≤ size ∧ size ≤ 4 ∧ 0x80 ≤ lo.toNat := by
  unfold utf8_first at h
  by_cases h1 : c < 0xC2
  · rw [if_pos h1] at h; cases h
  by_cases h2 : c ≤ 0xDF
  · rw [if_neg h1, if_pos h2] at h; cases h; decide
  by_cases h3 : c = 0xE0
  · rw [if_neg h1, if_neg h2, if_pos h3] at h; cases h; decide
  by_cases h4 : c = 0xED
  · rw [if_neg h1, if_neg h2, if_neg h3, if_pos h4] at h; cases h; decide
  by_cases h5 : c ≤ 0xEF
  · rw [if_neg h1, if_neg h2, if_neg h3, if_neg h4, if_pos h5] at h; cases h; decide
  rw [if_neg h1, if_neg h2, if_neg h3, if_neg h4, if_neg h5] at h
  by_cases h6 : c = 0xF0
  · rw [if_pos h6] at h; cases h; decide
  by_cases h7 : c ≤ 0xF3
  · rw [if_neg h6, if_pos h7] at h; cases h; decide
  by_cases h8 : c = 0xF4
  · rw [if_neg h6, if_neg h7, if_pos h8] at h; cases h; decide
  rw [if_neg h6, if_neg h7, if_neg h8] at h
  cases h

theorem is_cont_of_ascii {b : UInt8} (hb : b.toNat < 0x80) : is_cont b = false := by
  simp only [is_cont, Bool.and_eq_false_iff, decide_eq_false_iff_not]
  exact .inl fun h => absurd (UInt8.le_iff_toNat_le.1 h) (show ¬ 128 ≤ b.toNat by omega)

theorem utf8_extra_le (c : UInt8) (rest : Bytes) : utf8_extra c rest ≤ rest.length := by
  unfold utf8_extra
  by_cases hc : c < 0x80
  · rw [if_pos hc]; exact Nat.zero_le _
  rw [if_neg hc]
  rcases hf : utf8_first c with _ | ⟨size, lo, hi⟩
  · exact Nat.zero_le _
  obtain ⟨h2, h4, -⟩ := utf8_first_spec hf
  dsimp only
  repeat' split
  all_goals omega

/-- ASCII bytes after `rest` change nothing RuneCount steps over at `c`. -/
theorem utf8_extra_append {s : Bytes} (hs : all_ascii s) (c : UInt8) (rest : Bytes) :
    utf8_extra c (rest ++ s) = utf8_extra c rest := by
  rcases s with _ | ⟨x, s⟩
  · rw [List.append_nil]
  have hx : x.toNat < 0x80 := hs x (List.mem_cons_self x s)
  unfold utf8_extra
  by_cases hc : c < 0x80
  · rw [if_pos hc, if_pos hc]
  rw [if_neg hc, if_neg hc]
  rcases hf : utf8_first c with _ | ⟨size, lo, hi⟩
  · rfl
  obtain ⟨h2, h4, hlo⟩ := utf8_first_spec hf
  dsimp only
  have lt_lo : x < lo := show x.toNat < lo.toNat by omega
  rcases rest with _ | ⟨a, _ | ⟨b, _ | ⟨d, t⟩⟩⟩ <;>
    simp only [List.nil_append, List.cons_append, List.length_cons, List.length_nil, List.length_append,
      List.getD_cons_zero, List.getD_cons_succ]
  -- fewer than three bytes after `c`: the ASCII byte is the first one read past them
  iterate 3
    rcases (show size = 2 ∨ size = 3 ∨ size = 4 by omega) with rfl | rfl | rfl <;>
      simp [is_cont_of_ascii hx, lt_lo]
  -- three bytes or more: the same bytes are read
  rw [if_neg (show ¬ t.length + (s.length + 1) + 1 + 1 + 1 + 1 < size by omega),
    if_neg (show ¬ t.length + 1 + 1 + 1 + 1 < size by omega)]

theorem RuneCount_ascii {s : Bytes} (hs : all_ascii s) : RuneCount s = s.length := by
  induction s with
  | nil => rw [RuneCount.eq_1, List.length_nil]
  | cons x s ih =>
    have hx : x.toNat < 0x80 := hs x (List.mem_cons_self x s)
    have hextra : utf8_extra x s = 0 := by simp [utf8_extra, show x < 0x80 from hx]
    rw [RuneCount.eq_2, hextra, List.drop_zero, ih fun b hb => hs b (List.mem_cons_of_mem x hb),
      List.length_cons]
    omega

/-- Each ASCII byte after any bytes is one rune more. -/
theorem RuneCount_append_ascii {s : Bytes} (hs : all_ascii s) : ∀ v : Bytes,
    RuneCount (v ++ s) = RuneCount v + s.length
  | [] => by rw [List.nil_append, RuneCount_ascii hs, RuneCount.eq_1, Nat.zero_add]
  | c :: rest => by
    have hle := utf8_extra_le c rest
    rw [List.cons_append, RuneCount.eq_2, RuneCount.eq_2, utf8_extra_append hs,
      List.drop_append_of_le_length hle, RuneCount_append_ascii hs (rest.drop (utf8_extra c rest))]
    omega
termination_by v => v.length
decreasing_by simp only [List.length_drop, List.length_cons]; omega

theorem all_ascii_spaces (n : Nat) : all_ascii (List.replicate n 32) := by
  intro b hb
  rw [List.eq_of_mem_replicate hb]
  decide

/-- The padded value starts with the value read, and has as many runes as the
precision, or as the value when it has more. -/
theorem pad_fixlen_spec (p : UInt16) (v : Bytes) :
    v <+: pad_fixlen p v ∧ RuneCount (pad_fixlen p v) = max p.toNat (RuneCount v) := by
  dsimp only [pad_fixlen]
  split
  · rw [RuneCount_append_ascii (all_ascii_spaces _), List.length_replicate]
    exact ⟨List.prefix_append _ _, by omega⟩
  · exact ⟨List.prefix_refl v, by omega⟩

/-- A Varchar field reads any string, whatever it held before. With Fixlen it
holds the string padded with ASCII spaces up to `Precision` runes, which starts
with the string and has as many runes as the precision or the string, whichever
is more; without Fixlen it holds the string. -/
theorem Varchar_read_value_pads (p : UInt16) (fixlen is_null : Bool) (old v enc : Bytes)
    (accepted : AppendString [] v = some enc) :
    ∃ Val, Decodes (read_value (.Varchar p fixlen is_null old)) enc (.Varchar p fixlen false Val) ∧
      (fixlen = true → Val = (if RuneCount v < p.toNat then v ++ List.replicate (p.toNat - RuneCount v) 32
          else v) ∧ v <+: Val ∧ RuneCount Val = max p.toNat (RuneCount v)) ∧
      (fixlen = false → Val = v) := by
  refine ⟨if fixlen then pad_fixlen p v else v,
    read_value_decodes (.Varchar p fixlen is_null old) (.string v) rfl accepted, fun h => ?_, fun h => ?_⟩
  · subst h
    exact ⟨rfl, pad_fixlen_spec p v⟩
  · simp only [h, Bool.false_eq_true, if_false]

theorem Varchar_read_value_pads_truncated :
    AppendString [] [0xE2] = some [0xa1, 0xE2] ∧
    ∃ Val, Decodes (read_value (.Varchar 3 true true [])) [0xa1, 0xE2] (.Varchar 3 true false Val) ∧
      (true = true → Val = (if RuneCount [0xE2] < (3 : UInt16).toNat then
          [0xE2] ++ List.replicate ((3 : UInt16).toNat - RuneCount [0xE2]) 32 else [0xE2]) ∧
        [0xE2] <+: Val ∧ RuneCount Val = max (3 : UInt16).toNat (RuneCount [0xE2])) ∧
      (true = false → Val = [0xE2]) :=
  ⟨by decide, Varchar_read_value_pads 3 true true [] [0xE2] _ (by decide)⟩

end Rsql.Rsqlib
