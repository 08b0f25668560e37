import Rsql.Msgp.RoundTrip

/-! The narrow readers on an integer of any width. ReadUint8/16/32 and
ReadInt8/16/32 read the whole uint64 or int64 encoding first and check the
range after it, so an out-of-range value fails with an overflow error once its
bytes are consumed, and the stream stays aligned on what follows. -/
namespace Rsql.Msgp

open GoM

variable {α β : Type}

/-- `m` reads exactly `bytes` and fails with `e`, whatever follows them in the
stream and whatever the scratch buffer held. -/
def Fails (m : ReadM α) (bytes : Bytes) (e : Error) : Prop :=
  ∀ rest scratch, ∃ sc, m.run ⟨bytes ++ rest, scratch⟩ = .error e ⟨rest, sc⟩

theorem Fails.throw (e : Error) : Fails (GoM.throw e : ReadM α) [] e :=
  fun _ scratch => ⟨scratch, rfl⟩

theorem Fails.of_eq {m : ReadM α} {b b' : Bytes} {e : Error} (h : Fails m b e) (eq : b = b') :
    Fails m b' e := eq ▸ h

theorem Fails.map {x : ReadM α} {f : α → β} {b : Bytes} {e : Error} (h : Fails x b e) :
    Fails (f <$> x) b e := by
  intro rest scratch
  obtain ⟨sc, hr⟩ := h rest scratch
  exact ⟨sc, by simp [hr]⟩

theorem Decodes.bind_fails {x : ReadM α} {f : α → ReadM β} {b₁ b₂ : Bytes} {a : α} {e : Error}
    (hx : Decodes x b₁ a) (hf : Fails (f a) b₂ e) : Fails (x >>= f) (b₁ ++ b₂) e := by
  intro rest scratch
  obtain ⟨sc, h⟩ := hx (b₂ ++ rest) scratch
  obtain ⟨sc', h'⟩ := hf rest sc
  exact ⟨sc', by rw [List.append_assoc, run_bind_ok h, h']⟩

theorem Fails.bind {x : ReadM α} {f : α → ReadM β} {b : Bytes} {e : Error} (hx : Fails x b e) :
    Fails (x >>= f) b e := fun rest scratch => by
  obtain ⟨sc, h⟩ := hx rest scratch
  exact ⟨sc, run_bind_error h⟩

/-- A prefix byte that is neither a positive fixint nor a uint prefix:
ReadUint8 reads it and fails with a bad prefix error. -/
theorem ReadUint8_bad_prefix {p : UInt8} (hp : 127 < p.toNat) (h8 : p ≠ M_UINT8) (h16 : p ≠ M_UINT16)
    (h32 : p ≠ M_UINT32) (h64 : p ≠ M_UINT64) : Fails ReadUint8 [p] ( Error.bad_prefix "read uint" p) := by
  have hu : Fails ReadUint64 [p] ( Error.bad_prefix "read uint" p) := by
    refine (Decodes.bind_fails (read_prefix_decodes p) ?_).of_eq (List.append_nil _)
    rw [if_neg (by omega), if_neg h8, if_neg h16, if_neg h32, if_neg h64]
    exact Fails.throw _
  exact Fails.map (Fails.bind hu)

/-! ### The range check -/

theorem read_uint_narrow_AppendUint64 (funcname : String) (max : Nat) (v : UInt64) :
    if v.toNat ≤ max then Decodes (read_uint_narrow funcname max) (AppendUint64 [] v) v
    else Fails (read_uint_narrow funcname max) (AppendUint64 [] v) (.overflow funcname v.toNat) := by
  split
  · exact read_uint_narrow_decodes funcname ‹_›
  · refine ((ReadUint64_AppendUint64 v).bind_fails ?_).of_eq (List.append_nil _)
    rw [if_pos (by omega)]
    exact Fails.throw _

theorem read_int_narrow_AppendInt64 (funcname : String) (lo hi : Int) (v : Int64) :
    if lo ≤ v.toInt ∧ v.toInt ≤ hi then Decodes (read_int_narrow funcname lo hi) (AppendInt64 [] v) v
    else Fails (read_int_narrow funcname lo hi) (AppendInt64 [] v) (.overflow funcname v.toInt) := by
  split
  · exact read_int_narrow_decodes funcname ‹_›
  · refine ((ReadInt64_AppendInt64 v).bind_fails ?_).of_eq (List.append_nil _)
    rw [if_pos (by omega)]
    exact Fails.throw _

/-- A narrow reader `g <$> read_uint_narrow` returns a value worth `v` when `g`
keeps every value up to `max`. -/
theorem narrow_uint {γ : Type} (g : UInt64 → γ) (val : γ → Nat) {max : Nat}
    (hg : ∀ v : UInt64, v.toNat ≤ max → val (g v) = v.toNat) (funcname : String) (v : UInt64) :
    if v.toNat ≤ max then ∃ w, val w = v.toNat ∧ Decodes (g <$> read_uint_narrow funcname max) (AppendUint64 [] v) w
    else Fails (g <$> read_uint_narrow funcname max) (AppendUint64 [] v) (.overflow funcname v.toNat) := by
  have h := read_uint_narrow_AppendUint64 funcname max v
  by_cases hv : v.toNat ≤ max
  · rw [if_pos hv] at h ⊢
    exact ⟨g v, hg v hv, h.map rfl⟩
  · rw [if_neg hv] at h ⊢
    exact h.map

theorem narrow_int {γ : Type} (g : Int64 → γ) (val : γ → Int) {lo hi : Int}
    (hg : ∀ v : Int64, lo ≤ v.toInt ∧ v.toInt ≤ hi → val (g v) = v.toInt) (funcname : String) (v : Int64) :
    if lo ≤ v.toInt ∧ v.toInt ≤ hi then
      ∃ w, val w = v.toInt ∧ Decodes (g <$> read_int_narrow funcname lo hi) (AppendInt64 [] v) w
    else Fails (g <$> read_int_narrow funcname lo hi) (AppendInt64 [] v) (.overflow funcname v.toInt) := by
  have h := read_int_narrow_AppendInt64 funcname lo hi v
  by_cases hv : lo ≤ v.toInt ∧ v.toInt ≤ hi
  · rw [if_pos hv] at h ⊢
    exact ⟨g v, hg v hv, h.map rfl⟩
  · rw [if_neg hv] at h ⊢
    exact h.map

/-- Cutting an int64 in the range of intW down to `w` bits keeps the integer. -/
theorem toInt_truncate_of_range (w : Nat) (hw : w = 8 ∨ w = 16 ∨ w = 32) (v : Int64)
    (lo : -(2 ^ (w - 1) : Int) ≤ v.toInt) (hi : v.toInt ≤ 2 ^ (w - 1) - 1) :
    (v.truncate w).toInt = v.toInt := by
  rw [BitVec.truncate_eq_setWidth, BitVec.toInt_eq_toNat_bmod, BitVec.toNat_setWidth]
  rw [BitVec.toInt_eq_toNat_bmod] at lo hi ⊢
  have := v.isLt
  have h64 := bmod_range_emod (v.toNat : Int) (Nat.two_pow_pos 64)
  have hw' := bmod_range_emod ((v.toNat % 2 ^ w : Nat) : Int) (Nat.two_pow_pos w)
  rcases hw with rfl | rfl | rfl <;>
  · simp only [Nat.add_one_sub_one, Nat.reducePow, Nat.cast_ofNat] at *
    omega

theorem toNat_toUInt_of_le {v : UInt64} :
    (v.toNat ≤ MaxUint8 → v.toUInt8.toNat = v.toNat) ∧
    (v.toNat ≤ MaxUint16 → v.toUInt16.toNat = v.toNat) ∧
    (v.toNat ≤ MaxUint32 → v.toUInt32.toNat = v.toNat) := by
  simp only [MaxUint8, MaxUint16, MaxUint32, UInt64.toUInt8, UInt64.toUInt16, UInt64.toUInt32,
    UInt8.toNat_ofNat_mod, UInt16.toNat_ofNat_mod, UInt32.toNat_ofNat_mod]
  refine ⟨fun h => ?_, fun h => ?_, fun h => ?_⟩ <;> omega

/-- The narrow readers on an encoding of any uint64 or int64: the value when
it is in the reader's range, an overflow error naming the reader and the value
read otherwise; in both cases exactly the encoding is consumed. -/
theorem narrow_readers_exact :
    (∀ v : UInt64, if v.toNat ≤ MaxUint8 then
        ∃ w : UInt8, w.toNat = v.toNat ∧ Decodes ReadUint8 (AppendUint64 [] v) w
      else Fails ReadUint8 (AppendUint64 [] v) (.overflow "ReadUint8" v.toNat)) ∧
    (∀ v : UInt64, if v.toNat ≤ MaxUint16 then
        ∃ w : UInt16, w.toNat = v.toNat ∧ Decodes ReadUint16 (AppendUint64 [] v) w
      else Fails ReadUint16 (AppendUint64 [] v) (.overflow "ReadUint16" v.toNat)) ∧
    (∀ v : UInt64, if v.toNat ≤ MaxUint32 then
        ∃ w : UInt32, w.toNat = v.toNat ∧ Decodes ReadUint32 (AppendUint64 [] v) w
      else Fails ReadUint32 (AppendUint64 [] v) (.overflow "ReadUint32" v.toNat)) ∧
    (∀ v : Int64, if MinInt8 ≤ v.toInt ∧ v.toInt ≤ MaxInt8 then
        ∃ w : BitVec 8, w.toInt = v.toInt ∧ Decodes ReadInt8 (AppendInt64 [] v) w
      else Fails ReadInt8 (AppendInt64 [] v) (.overflow "ReadInt8" v.toInt)) ∧
    (∀ v : Int64, if MinInt16 ≤ v.toInt ∧ v.toInt ≤ MaxInt16 then
        ∃ w : BitVec 16, w.toInt = v.toInt ∧ Decodes ReadInt16 (AppendInt64 [] v) w
      else Fails ReadInt16 (AppendInt64 [] v) (.overflow "ReadInt16" v.toInt)) ∧
    (∀ v : Int64, if MinInt32 ≤ v.toInt ∧ v.toInt ≤ MaxInt32 then
        ∃ w : BitVec 32, w.toInt = v.toInt ∧ Decodes ReadInt32 (AppendInt64 [] v) w
      else Fails ReadInt32 (AppendInt64 [] v) (.overflow "ReadInt32" v.toInt)) :=
  ⟨narrow_uint _ _ (fun _ => toNat_toUInt_of_le.1) _,
    narrow_uint _ _ (fun _ => toNat_toUInt_of_le.2.1) _,
    narrow_uint _ _ (fun _ => toNat_toUInt_of_le.2.2) _,
    narrow_int _ _ (fun v h => toInt_truncate_of_range 8 (by decide) v h.1 h.2) _,
    narrow_int _ _ (fun v h => toInt_truncate_of_range 16 (by decide) v h.1 h.2) _,
    narrow_int _ _ (fun v h => toInt_truncate_of_range 32 (by decide) v h.1 h.2) _⟩

end Rsql.Msgp
