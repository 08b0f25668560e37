import Rsql.Msgp.Reader

/-! Every msgp reader inverts its encoder: on `Append*([], v) ++ rest` it
returns `v` and leaves exactly `rest` unread, whatever the scratch buffer
held. The payload lemmas are about `be_bytes` and `be_value`; each reader
then dispatches on the prefix byte its encoder chose. -/
namespace Rsql.Msgp

open GoM

/-! ### Conversions between the unsigned widths -/

@[simp] theorem UInt8.toNat_ofNat_mod (n : Nat) : (UInt8.ofNat n).toNat = n % 256 :=
  BitVec.toNat_ofNat _ _
@[simp] theorem UInt16.toNat_ofNat_mod (n : Nat) : (UInt16.ofNat n).toNat = n % 65536 :=
  BitVec.toNat_ofNat _ _
@[simp] theorem UInt32.toNat_ofNat_mod (n : Nat) : (UInt32.ofNat n).toNat = n % 4294967296 :=
  BitVec.toNat_ofNat _ _
@[simp] theorem UInt64.toNat_ofNat_mod (n : Nat) :
    (UInt64.ofNat n).toNat = n % 18446744073709551616 := BitVec.toNat_ofNat _ _
@[simp] theorem UInt8.toNat_toUInt64 (a : UInt8) : a.toUInt64.toNat = a.toNat := rfl
@[simp] theorem UInt16.toNat_toUInt64 (a : UInt16) : a.toUInt64.toNat = a.toNat := rfl
@[simp] theorem UInt32.toNat_toUInt64 (a : UInt32) : a.toUInt64.toNat = a.toNat := rfl
@[simp] theorem UInt8.toNat_toUInt32 (a : UInt8) : a.toUInt32.toNat = a.toNat := rfl
@[simp] theorem UInt16.toNat_toUInt32 (a : UInt16) : a.toUInt32.toNat = a.toNat := rfl

theorem UInt8.toNat_lt (a : UInt8) : a.toNat < 256 := a.toBitVec.isLt
theorem UInt16.toNat_lt (a : UInt16) : a.toNat < 65536 := a.toBitVec.isLt
theorem UInt32.toNat_lt (a : UInt32) : a.toNat < 4294967296 := a.toBitVec.isLt
theorem UInt64.toNat_lt (a : UInt64) : a.toNat < 18446744073709551616 := a.toBitVec.isLt

/-! ### Big-endian payloads -/

theorem be_value_append (bs : Bytes) (b : UInt8) :
    be_value (bs ++ [b]) = be_value bs * 256 + b.toNat := by
  simp [be_value, List.foldl_append]

@[simp] theorem length_be_bytes (n v : Nat) : (be_bytes n v).length = n := by
  induction n generalizing v with
  | zero => rfl
  | succ n ih => simp [be_bytes, ih]

theorem be_value_be_bytes (n v : Nat) : be_value (be_bytes n v) = v % 256 ^ n := by
  induction n generalizing v with
  | zero => simp [be_bytes, be_value, Nat.mod_one]
  | succ n ih =>
    rw [be_bytes, be_value_append, ih, UInt8.toNat_ofNat_mod, Nat.pow_succ', Nat.mod_mul,
      Nat.mul_comm, Nat.add_comm]

/-! ### Primitive reads on a stream that holds enough bytes -/

@[simp] theorem ReadNBytes_run (bs rest scratch : Bytes) :
    (ReadNBytes bs.length).run ⟨bs ++ rest, scratch⟩ = .ok bs ⟨rest, scratch⟩ := by
  simp [ReadNBytes]

@[simp] theorem read_N_run (bs rest scratch : Bytes) :
    (read_N bs.length).run ⟨bs ++ rest, scratch⟩ = .ok bs ⟨rest, bs⟩ := by
  simp [read_N]

@[simp] theorem read_prefix_run (p : UInt8) (rest scratch : Bytes) :
    read_prefix.run ⟨p :: rest, scratch⟩ = .ok p ⟨rest, [p]⟩ := by
  have h := read_N_run [p] rest scratch
  simp only [List.length_singleton, List.singleton_append] at h
  simp [ read_prefix, h]

@[simp] theorem peek_byte_run (p : UInt8) (rest scratch : Bytes) :
    peek_byte.run ⟨p :: rest, scratch⟩ = .ok p ⟨p :: rest, scratch⟩ := rfl

theorem read_raw_run (n v : Nat) (rest scratch : Bytes) :
    (read_raw n).run ⟨be_bytes n v ++ rest, scratch⟩ = .ok (v % 256 ^ n) ⟨rest, be_bytes n v⟩ := by
  have h := read_N_run (be_bytes n v) rest scratch
  rw [length_be_bytes] at h
  simp [read_raw, h, be_value_be_bytes]

/-! ### Reading exactly an encoding -/

section Decodes

variable {α β : Type}

/-- `m` reads exactly `bytes` and returns `a`, whatever follows them in the
stream and whatever the scratch buffer held. -/
def Decodes (m : ReadM α) (bytes : Bytes) (a : α) : Prop :=
  ∀ rest scratch, ∃ sc, m.run ⟨bytes ++ rest, scratch⟩ = .ok a ⟨rest, sc⟩

theorem Decodes.pure {a b : α} (h : a = b) : Decodes (pure a) [] b :=
  fun rest scratch => ⟨scratch, by simp [h]⟩

theorem Decodes.bind {x : ReadM α} {f : α → ReadM β} {b₁ b₂ : Bytes} {a : α} {c : β}
    (hx : Decodes x b₁ a) (hf : Decodes (f a) b₂ c) : Decodes (x >>= f) (b₁ ++ b₂) c := by
  intro rest scratch
  obtain ⟨sc, h⟩ := hx (b₂ ++ rest) scratch
  obtain ⟨sc', h'⟩ := hf rest sc
  exact ⟨sc', by rw [List.append_assoc, run_bind_ok h, h']⟩

theorem Decodes.map {x : ReadM α} {f : α → β} {b : Bytes} {a : α} {c : β}
    (hx : Decodes x b a) (h : f a = c) : Decodes (f <$> x) b c := by
  intro rest scratch
  obtain ⟨sc, hr⟩ := hx rest scratch
  exact ⟨sc, by simp [hr, h]⟩

theorem Decodes.bind_pure {x : ReadM α} {f : α → β} {b : Bytes} {a : α} {c : β}
    (hx : Decodes x b a) (h : f a = c) : Decodes (x >>= fun y => Pure.pure (f y)) b c := hx.map h

theorem Decodes.modify (f : Reader → Reader) (keeps : ∀ r, HasStream.unread (f r) = HasStream.unread r) :
    Decodes (GoM.modify f keeps) [] () := by
  intro rest scratch
  have h := keeps ⟨rest, scratch⟩
  refine ⟨(f ⟨rest, scratch⟩).scratch, ?_⟩
  simp only [List.nil_append, run_modify]
  congr
  cases hf : f ⟨rest, scratch⟩
  simp_all [HasStream.unread]

theorem Decodes.of_eq {m : ReadM α} {b b' : Bytes} {a : α} (h : Decodes m b a) (e : b = b') :
    Decodes m b' a := e ▸ h

theorem Decodes.bind_nil {x : ReadM α} {f : α → ReadM β} {b : Bytes} {a : α} {c : β}
    (hx : Decodes x b a) (hf : Decodes (f a) [] c) : Decodes (x >>= f) b c :=
  (hx.bind hf).of_eq (List.append_nil b)

theorem read_prefix_decodes (p : UInt8) : Decodes read_prefix [p] p :=
  fun rest scratch => ⟨[p], read_prefix_run p rest scratch⟩

theorem ReadNBytes_decodes (bs : Bytes) : Decodes (ReadNBytes bs.length) bs bs :=
  fun rest scratch => ⟨scratch, ReadNBytes_run bs rest scratch⟩

theorem read_raw_decodes (n v : Nat) : Decodes (read_raw n) (be_bytes n v) (v % 256 ^ n) :=
  fun rest scratch => ⟨_, read_raw_run n v rest scratch⟩

theorem Decodes.assert {c : Bool} (h : c = true) : Decodes (GoM.assert c) [] () :=
  fun rest scratch => ⟨scratch, by simp [h]⟩

theorem Decodes.discard {m : ReadM Unit} {b : Bytes} (h : Decodes m b ()) : Decodes (GoM.discard m) b () := by
  intro rest scratch
  obtain ⟨sc, hr⟩ := h rest scratch
  exact ⟨sc, by simp only [GoM.discard, hr]⟩

/-- The encodings of `xs` one after the other; `none` if one has none. -/
def append_each {γ : Type} (append : γ → Option Bytes) : List γ → Option Bytes
  | [] => some []
  | x :: xs => (append x).bind fun e => (append_each append xs).map (e ++ ·)

theorem append_each_append {γ : Type} {append : γ → Option Bytes} {ys : List γ} :
    ∀ {xs : List γ} {e : Bytes}, append_each append (xs ++ ys) = some e →
      ∃ ex ey, append_each append xs = some ex ∧ append_each append ys = some ey ∧ e = ex ++ ey
  | [], e, he => ⟨[], e, rfl, he, rfl⟩
  | x :: xs, e, he => by
    simp only [List.cons_append, append_each, Option.bind_eq_some, Option.map_eq_some'] at he
    obtain ⟨e₁, hx, es, hes, rfl⟩ := he
    obtain ⟨ex, ey, hxs, hys, rfl⟩ := append_each_append hes
    exact ⟨e₁ ++ ex, ey, by simp [append_each, hx, hxs], hys, (List.append_assoc _ _ _).symm⟩

theorem Decodes.repeat_n {γ : Type} {m : ReadM α} {append : γ → Option Bytes} {f : γ → α}
    (h : ∀ x e, append x = some e → Decodes m e (f x)) :
    ∀ (xs : List γ) {enc : Bytes}, append_each append xs = some enc →
      Decodes (GoM.repeat_n m xs.length) enc (xs.map f)
  | [], enc, he => by
    cases he
    exact Decodes.pure rfl
  | x :: xs, enc, he => by
    simp only [append_each, Option.bind_eq_some, Option.map_eq_some'] at he
    obtain ⟨e, hx, es, hxs, rfl⟩ := he
    exact (h x e hx).bind ((Decodes.repeat_n h xs hxs).bind_pure rfl)

/-- A prefix byte, then what the reader does on it. -/
theorem Decodes.after_prefix {f : UInt8 → ReadM α} {p : UInt8} {b : Bytes} {a : α}
    (h : Decodes (f p) b a) : Decodes ( read_prefix >>= f) (p :: b) a :=
  (read_prefix_decodes p).bind h

end Decodes

@[simp] theorem UInt8.ofNat_mod (v : Nat) : UInt8.ofNat (v % 256) = UInt8.ofNat v :=
  UInt8.toNat.inj (by simp)
@[simp] theorem UInt16.ofNat_mod (v : Nat) : UInt16.ofNat (v % 65536) = UInt16.ofNat v :=
  UInt16.toNat.inj (by simp)
@[simp] theorem UInt32.ofNat_mod (v : Nat) : UInt32.ofNat (v % 4294967296) = UInt32.ofNat v :=
  UInt32.toNat.inj (by simp)
@[simp] theorem UInt64.ofNat_mod (v : Nat) :
    UInt64.ofNat (v % 18446744073709551616) = UInt64.ofNat v := UInt64.toNat.inj (by simp)

theorem read_raw_uint8_decodes (v : Nat) : Decodes read_raw_uint8 (be_bytes 1 v) (UInt8.ofNat v) :=
  (read_raw_decodes 1 v).map (by simp)
theorem read_raw_uint16_decodes (v : Nat) :
    Decodes read_raw_uint16 (be_bytes 2 v) (UInt16.ofNat v) := (read_raw_decodes 2 v).map (by simp)
theorem read_raw_uint32_decodes (v : Nat) :
    Decodes read_raw_uint32 (be_bytes 4 v) (UInt32.ofNat v) := (read_raw_decodes 4 v).map (by simp)
theorem read_raw_uint64_decodes (v : Nat) :
    Decodes read_raw_uint64 (be_bytes 8 v) (UInt64.ofNat v) := (read_raw_decodes 8 v).map (by simp)

theorem ReadUint64_AppendUint64 (v : UInt64) : Decodes ReadUint64 (AppendUint64 [] v) v := by
  have hv := UInt64.toNat_lt v
  unfold AppendUint64
  split_ifs with h1 h2 h3 h4 <;> simp only [List.nil_append] <;> unfold ReadUint64 <;>
    apply Decodes.after_prefix
  · have e : (UInt8.ofNat v.toNat).toNat = v.toNat := by simp; omega
    rw [if_pos (by omega)]
    exact Decodes.pure (UInt64.toNat.inj (by simp [e]))
  all_goals simp +decide only [ite_true, ite_false]
  · refine (read_raw_uint8_decodes _).bind_pure (UInt64.toNat.inj ?_)
    simp [MaxUint8] at *; omega
  · refine (read_raw_uint16_decodes _).bind_pure (UInt64.toNat.inj ?_)
    simp [MaxUint16] at *; omega
  · refine (read_raw_uint32_decodes _).bind_pure (UInt64.toNat.inj ?_)
    simp [MaxUint32] at *; omega
  · have e : UInt64.ofNat v.toNat = v := UInt64.toNat.inj (by simp; omega)
    have h := read_raw_uint64_decodes v.toNat
    rwa [e] at h

/-! ### Signed integers -/

theorem Int64.toInt_cases (val : Int64) :
    ((val.toInt : Int) = val.toNat ∧ val.toNat < 9223372036854775808) ∨
      ((val.toInt : Int) = val.toNat - 18446744073709551616 ∧ 9223372036854775808 ≤ val.toNat) := by
  rw [BitVec.toInt_eq_toNat_cond]
  split <;> simp_all <;> omega

/-- A balanced remainder as omega can use it: its range and its class. -/
theorem bmod_range_emod (x : Int) {m : Nat} (hm : 0 < m) :
    -((m : Int) / 2) ≤ x.bmod m ∧ x.bmod m < ((m : Int) + 1) / 2 ∧ x.bmod m % m = x % m :=
  ⟨Int.le_bmod (by omega), Int.bmod_lt (by omega), Int.bmod_emod⟩

/-- `intW(x)` of the low `w` bits of a value in the range of intW, widened
back to int64, is the value. -/
theorem signExtend_ofNat_toNat (w : Nat) (hw : w = 8 ∨ w = 16 ∨ w = 32 ∨ w = 64) (val : Int64)
    (lo : -(2 ^ (w - 1) : Int) ≤ val.toInt) (hi : val.toInt < 2 ^ (w - 1)) :
    (BitVec.ofNat w val.toNat).signExtend 64 = val := by
  apply BitVec.eq_of_toInt_eq
  rw [BitVec.signExtend, BitVec.toInt_ofInt, BitVec.toInt_ofNat]
  rw [BitVec.toInt_eq_toNat_bmod] at lo hi ⊢
  have := val.isLt
  have h64 := bmod_range_emod (val.toNat : Int) (Nat.two_pow_pos 64)
  have hw' := bmod_range_emod (val.toNat : Int) (Nat.two_pow_pos w)
  have hext := bmod_range_emod ((val.toNat : Int).bmod (2 ^ w)) (Nat.two_pow_pos 64)
  rcases hw with rfl | rfl | rfl | rfl <;>
  · simp only [Nat.add_one_sub_one, Nat.reducePow, Nat.cast_ofNat] at *
    omega

theorem read_raw_int_decodes (n : Nat) (val : Int64) :
    Decodes (read_raw_int n) (be_bytes n val.toNat) (BitVec.ofNat (8 * n) val.toNat) :=
  (read_raw_decodes n val.toNat).map <| BitVec.eq_of_toNat_eq <| by
    simp only [BitVec.toNat_ofNat, Nat.pow_mul, Nat.reducePow, Nat.mod_mod]

/-- A raw big-endian intW widened to int64, for a value in the range of intW. -/
theorem read_raw_int_signExtend_decodes (n : Nat) (hn : n = 1 ∨ n = 2 ∨ n = 4 ∨ n = 8) (val : Int64)
    (lo : -(2 ^ (8 * n - 1) : Int) ≤ val.toInt) (hi : val.toInt < 2 ^ (8 * n - 1)) :
    Decodes (do return (← read_raw_int n).signExtend 64) (be_bytes n val.toNat) val :=
  (read_raw_int_decodes n val).bind_pure (signExtend_ofNat_toNat (8 * n) (by omega) val lo hi)

theorem UInt8.le_iff_toNat_le {a b : UInt8} : a ≤ b ↔ a.toNat ≤ b.toNat := Iff.rfl

theorem ReadInt64_AppendInt64 (val : Int64) : Decodes ReadInt64 (AppendInt64 [] val) val := by
  have hc := Int64.toInt_cases val
  unfold AppendInt64
  simp only [MaxInt16, MaxInt32, MinInt8, MinInt16, MinInt32, List.nil_append]
  split_ifs with h0 h1 h2 h3 h4 h5 h6 h7 <;> unfold ReadInt64 <;> apply Decodes.after_prefix
  · rw [if_pos (by simp; omega)]
    exact Decodes.pure (BitVec.eq_of_toNat_eq (by simp; omega))
  all_goals try simp +decide only [ite_true, ite_false]
  · exact read_raw_int_signExtend_decodes 2 (by decide) val (by omega) (by omega)
  · exact read_raw_int_signExtend_decodes 4 (by decide) val (by omega) (by omega)
  · exact read_raw_int_signExtend_decodes 8 (by decide) val (by omega) (by omega)
  · rw [if_neg (by simp; omega), if_pos (UInt8.le_iff_toNat_le.2 (by simp [M_NEGATIVE_FIXINT_BASE, UInt8.size]; omega))]
    exact Decodes.pure (signExtend_ofNat_toNat 8 (by decide) val (by omega) (by omega))
  · exact read_raw_int_signExtend_decodes 1 (by decide) val (by omega) (by omega)
  · exact read_raw_int_signExtend_decodes 2 (by decide) val (by omega) (by omega)
  · exact read_raw_int_signExtend_decodes 4 (by decide) val (by omega) (by omega)
  · exact read_raw_int_signExtend_decodes 8 (by decide) val (by omega) (by omega)

/-! ### Nil, bool, floats -/

theorem ReadNil_AppendNil : Decodes ReadNil (AppendNil []) () :=
  Decodes.after_prefix (by simp +decide only [ite_true]; exact Decodes.pure rfl)

theorem ReadBool_AppendBool (b : Bool) : Decodes ReadBool (AppendBool [] b) b := by
  cases b <;> exact Decodes.after_prefix (by simp +decide only [ite_true, ite_false]; exact Decodes.pure rfl)

theorem ReadFloat32_AppendFloat32 (f : Float32) : Decodes ReadFloat32 (AppendFloat32 [] f) f := by
  refine Decodes.after_prefix ?_
  simp +decide only [ite_false, ne_eq, not_true]
  exact (read_raw_uint32_decodes _).bind_pure (congrArg _ (UInt32.toNat.inj (by simp [UInt32.toNat_lt])))

theorem ReadFloat64_AppendFloat64 (f : Float64) : Decodes ReadFloat64 (AppendFloat64 [] f) f := by
  refine Decodes.after_prefix ?_
  simp +decide only [ite_false, ne_eq, not_true]
  exact (read_raw_uint64_decodes _).bind_pure (congrArg _ (UInt64.toNat.inj (by simp [UInt64.toNat_lt])))

/-! ### Headers -/

/-- The fix formats put the length in the low bits of the prefix byte. -/
theorem fixstr_bits : ∀ n, n < 32 →
    (M_FIXSTR_BASE ||| UInt8.ofNat n) &&& PREFIX_FIXSTR_MASK = M_FIXSTR_BASE ∧
    (first_bits_5 (M_FIXSTR_BASE ||| UInt8.ofNat n)).toNat = n ∧
    next_type_of (M_FIXSTR_BASE ||| UInt8.ofNat n) = .StrType := by decide

theorem ReadStringHeader_AppendStringHeader (sz : UInt32) :
    Decodes ReadStringHeader (AppendStringHeader [] sz) sz := by
  have hs := UInt32.toNat_lt sz
  unfold AppendStringHeader
  split_ifs with h1 h2 h3 <;> simp only [List.nil_append] <;> unfold ReadStringHeader <;> apply Decodes.after_prefix
  · obtain ⟨hm, hf, -⟩ := fixstr_bits sz.toNat (by omega)
    rw [show sz.toUInt8 = UInt8.ofNat sz.toNat from rfl, if_pos hm]
    exact Decodes.pure (UInt32.toNat.inj (by simpa using hf))
  all_goals simp +decide only [ite_true, ite_false]
  · exact (read_raw_uint8_decodes _).bind_pure (UInt32.toNat.inj (by simp [MaxUint8] at *; omega))
  · exact (read_raw_uint16_decodes _).bind_pure (UInt32.toNat.inj (by simp [MaxUint16] at *; omega))
  · have e : UInt32.ofNat sz.toNat = sz := UInt32.toNat.inj (by simp; omega)
    have h := read_raw_uint32_decodes sz.toNat
    rwa [e] at h

theorem ReadBytesHeader_AppendBytesHeader (sz : UInt32) :
    Decodes ReadBytesHeader (AppendBytesHeader [] sz) sz := by
  have hs := UInt32.toNat_lt sz
  unfold AppendBytesHeader
  split_ifs with h1 h2 <;> simp only [List.nil_append] <;> unfold ReadBytesHeader <;> apply Decodes.after_prefix <;>
    simp +decide only [ite_true, ite_false]
  · exact (read_raw_uint8_decodes _).bind_pure (UInt32.toNat.inj (by simp [MaxUint8] at *; omega))
  · exact (read_raw_uint16_decodes _).bind_pure (UInt32.toNat.inj (by simp [MaxUint16] at *; omega))
  · have e : UInt32.ofNat sz.toNat = sz := UInt32.toNat.inj (by simp; omega)
    have h := read_raw_uint32_decodes sz.toNat
    rwa [e] at h

/-- The container header reader inverts the container header encoder for
every choice of constants that keep the three formats apart. -/
theorem read_container_header_decodes {mask base tag16 tag32 : UInt8} (funcname : String)
    (fix : ∀ n, n < 16 → (base ||| UInt8.ofNat n) &&& mask = base ∧
      (first_bits_4 (base ||| UInt8.ofNat n)).toNat = n)
    (h16 : ¬ tag16 &&& mask = base) (h32 : ¬ tag32 &&& mask = base) (h32' : tag32 ≠ tag16)
    (sz : UInt32) :
    Decodes (read_container_header mask base tag16 tag32 funcname)
      (append_container_header base tag16 tag32 [] sz) sz := by
  have hs := UInt32.toNat_lt sz
  unfold append_container_header
  split_ifs with h1 h2 <;> simp only [List.nil_append] <;> unfold read_container_header <;> apply Decodes.after_prefix
  · obtain ⟨hm, hf⟩ := fix sz.toNat (by omega)
    rw [show sz.toUInt8 = UInt8.ofNat sz.toNat from rfl, if_pos hm]
    exact Decodes.pure (UInt32.toNat.inj (by simpa using hf))
  · rw [if_neg h16, if_pos rfl]
    exact (read_raw_uint16_decodes _).bind_pure (UInt32.toNat.inj (by simp [MaxUint16] at *; omega))
  · rw [if_neg h32, if_neg h32', if_pos rfl]
    have e : UInt32.ofNat sz.toNat = sz := UInt32.toNat.inj (by simp; omega)
    have h := read_raw_uint32_decodes sz.toNat
    rwa [e] at h

theorem ReadArrayHeader_AppendArrayHeader (sz : UInt32) :
    Decodes ReadArrayHeader (AppendArrayHeader [] sz) sz :=
  read_container_header_decodes _ (by decide) (by decide) (by decide) (by decide) sz

theorem ReadMapHeader_AppendMapHeader (sz : UInt32) :
    Decodes ReadMapHeader (AppendMapHeader [] sz) sz :=
  read_container_header_decodes _ (by decide) (by decide) (by decide) (by decide) sz

/-! ### Strings and byte slices -/

theorem ReadStringAsBytes_AppendString {s enc : Bytes} (accepted : AppendString [] s = some enc) :
    Decodes ReadStringAsBytes enc s := by
  simp only [AppendString, Option.ite_none_left_eq_some, Option.some.injEq] at accepted
  obtain ⟨hlen, rfl⟩ := accepted
  have e : (UInt32.ofNat s.length).toNat = s.length := by simp [MaxUint32] at hlen ⊢; omega
  refine (ReadStringHeader_AppendStringHeader _).bind ?_
  rw [e]
  exact ReadNBytes_decodes s

theorem ReadString_AppendString {s enc : Bytes} (accepted : AppendString [] s = some enc) :
    Decodes ReadString enc s := by
  refine ((ReadStringAsBytes_AppendString accepted).bind ?_).of_eq (List.append_nil enc)
  exact (Decodes.modify _ _).bind (Decodes.pure rfl)

theorem ReadBytes_AppendBytes {b enc : Bytes} (accepted : AppendBytes [] b = some enc) :
    Decodes ReadBytes enc b := by
  simp only [AppendBytes, Option.ite_none_left_eq_some, Option.some.injEq] at accepted
  obtain ⟨hlen, rfl⟩ := accepted
  have e : (UInt32.ofNat b.length).toNat = b.length := by simp [MaxUint32] at hlen ⊢; omega
  refine (ReadBytesHeader_AppendBytesHeader _).bind ?_
  rw [e]
  exact ReadNBytes_decodes b

/-! ### Classification of the first byte and ReadSimpleType -/

theorem Decodes.after_next_type {f : MsgpType → ReadM α} {p : UInt8} {b : Bytes} {a : α}
    (h : Decodes (f (next_type_of p)) (p :: b) a) : Decodes (NextType >>= f) (p :: b) a := by
  intro rest scratch
  obtain ⟨sc, hr⟩ := h rest scratch
  exact ⟨sc, by simpa [NextType] using hr⟩

theorem Decodes.after_next_type_of_head {f : MsgpType → ReadM α} {enc b : Bytes} {p : UInt8} {a : α}
    (he : enc = p :: b) (h : Decodes (f (next_type_of p)) enc a) : Decodes (NextType >>= f) enc a := by
  subst he
  exact Decodes.after_next_type h

theorem AppendUint64_cons (v : UInt64) : ∃ p b, AppendUint64 [] v = p :: b ∧
    next_type_of p = if v.toNat ≤ 127 then .IntType else .UintType := by
  unfold AppendUint64
  split_ifs with h1 h2 h3 h4 <;> refine ⟨_, _, rfl, ?_⟩ <;> try decide
  simp [next_type_of]; omega

theorem AppendUint64_small {v : UInt64} (h : v.toNat ≤ 127) :
    AppendUint64 [] v = AppendInt64 [] (BitVec.ofNat 64 v.toNat) := by
  have hv : (BitVec.ofNat 64 v.toNat).toInt = v.toNat := by
    rw [BitVec.toInt_ofNat]; simp [Int.bmod_def]; omega
  have hn : (BitVec.ofNat 64 v.toNat).toNat = v.toNat := by
    rw [BitVec.toNat_ofNat]; exact Nat.mod_eq_of_lt (by omega)
  rw [AppendUint64, if_pos h, AppendInt64, hv, hn, if_pos (by omega), if_pos (by omega)]

theorem AppendInt64_cons (val : Int64) : ∃ p b, AppendInt64 [] val = p :: b ∧
    next_type_of p = .IntType := by
  have hc := Int64.toInt_cases val
  unfold AppendInt64
  split_ifs with h0 h1 h2 h3 h4 h5 h6 h7 <;> refine ⟨_, _, rfl, ?_⟩ <;> try decide
  · simp [next_type_of]; omega
  · rw [next_type_of, if_neg (by simp; omega),
      if_pos (UInt8.le_iff_toNat_le.2 (by simp [M_NEGATIVE_FIXINT_BASE, UInt8.size]; omega))]

theorem AppendStringHeader_cons (sz : UInt32) : ∃ p b, AppendStringHeader [] sz = p :: b ∧
    next_type_of p = .StrType := by
  unfold AppendStringHeader
  split_ifs with h1 h2 h3 <;> refine ⟨_, _, rfl, ?_⟩ <;> try decide
  exact (fixstr_bits sz.toNat (by omega)).2.2

theorem AppendBytesHeader_cons (sz : UInt32) : ∃ p b, AppendBytesHeader [] sz = p :: b ∧
    next_type_of p = .BinType := by
  unfold AppendBytesHeader
  split_ifs <;> exact ⟨_, _, rfl, by decide⟩

/-- What a simple value says, whatever Go type carries it: an integer as a
mathematical integer, a float as its bit pattern. -/
inductive Plain where
  | nil
  | bool (b : Bool)
  | int (z : Int)
  | float32 (f : Float32)
  | float64 (f : Float64)
  | bytes (b : Bytes)
  | string (s : Bytes)
  deriving DecidableEq, Repr

def Simple.plain : Simple → Plain
  | .nil => .nil
  | .string s => .string s
  | .bytes b => .bytes b
  | .bool b => .bool b
  | .uint v => .int v.toNat
  | .uint8 v => .int v.toNat
  | .uint16 v => .int v.toNat
  | .uint32 v => .int v.toNat
  | .uint64 v => .int v.toNat
  | .int8 v => .int v.toInt
  | .int16 v => .int v.toInt
  | .int32 v => .int v.toInt
  | .int64 v => .int v.toInt
  | .int v => .int v.toInt
  | .float32 f => .float32 f
  | .float64 f => .float64 f

def SimpleValue.plain : SimpleValue → Plain
  | .nil => .nil
  | .bool b => .bool b
  | .uint64 v => .int v.toNat
  | .int64 v => .int v.toInt
  | .float32 f => .float32 f
  | .float64 f => .float64 f
  | .bytes b => .bytes b
  | .string s => .string s

theorem ReadSimpleType_AppendUint64 (v : UInt64) :
    ∃ w, Decodes ReadSimpleType (AppendUint64 [] v) w ∧ w.plain = .int v.toNat := by
  obtain ⟨p, b, he, ht⟩ := AppendUint64_cons v
  by_cases h : v.toNat ≤ 127
  · refine ⟨.int64 (BitVec.ofNat 64 v.toNat), ?_, ?_⟩
    · rw [he]
      apply Decodes.after_next_type
      rw [ht, if_pos h, ← he, AppendUint64_small h]
      exact (ReadInt64_AppendInt64 _).map rfl
    · simp only [SimpleValue.plain, BitVec.toInt_ofNat, Plain.int.injEq, Int.bmod_def]
      split <;> omega
  · refine ⟨.uint64 v, ?_, rfl⟩
    rw [he]
    apply Decodes.after_next_type
    rw [ht, if_neg h, ← he]
    exact (ReadUint64_AppendUint64 v).map rfl

theorem ReadSimpleType_AppendInt64 (v : Int64) :
    ∃ w, Decodes ReadSimpleType (AppendInt64 [] v) w ∧ w.plain = .int v.toInt := by
  obtain ⟨p, b, he, ht⟩ := AppendInt64_cons v
  refine ⟨.int64 v, ?_, rfl⟩
  rw [he]
  apply Decodes.after_next_type
  rw [ht, ← he]
  exact (ReadInt64_AppendInt64 v).map rfl

/-- Widening intW to int64 keeps the integer. -/
theorem toInt_signExtend_64 (w : Nat) (hw : w = 8 ∨ w = 16 ∨ w = 32) (x : BitVec w) :
    (x.signExtend 64).toInt = x.toInt := by
  rw [BitVec.signExtend, BitVec.toInt_ofInt, BitVec.toInt_eq_toNat_bmod]
  have := x.isLt
  have h64 := bmod_range_emod ((x.toNat : Int).bmod (2 ^ w)) (Nat.two_pow_pos 64)
  have hw' := bmod_range_emod (x.toNat : Int) (Nat.two_pow_pos w)
  rcases hw with rfl | rfl | rfl <;>
  · simp only [Nat.reducePow, Nat.cast_ofNat] at *
    omega

/-- Scalar msgpack round trip: ReadSimpleType reads back every value
AppendSimpleType accepts, as the same integer, bit pattern, bytes or nil, and
consumes exactly its encoding. -/
theorem ReadSimpleType_AppendSimpleType (v : Simple) (enc : Bytes)
    (accepted : AppendSimpleType [] v = some enc) :
    ∃ w, Decodes ReadSimpleType enc w ∧ w.plain = v.plain := by
  cases v with
  | nil =>
    cases accepted
    exact ⟨.nil, Decodes.after_next_type (ReadNil_AppendNil.bind (Decodes.pure rfl)), rfl⟩
  | string s =>
    obtain ⟨p, b, he, ht⟩ := AppendStringHeader_cons (UInt32.ofNat s.length)
    have hs := accepted
    simp only [AppendSimpleType, AppendString, Option.ite_none_left_eq_some,
      Option.some.injEq, he] at hs
    refine ⟨.string s, Decodes.after_next_type_of_head hs.2.symm ?_, rfl⟩
    rw [ht]
    exact (ReadString_AppendString accepted).map rfl
  | bytes bs =>
    obtain ⟨p, b, he, ht⟩ := AppendBytesHeader_cons (UInt32.ofNat bs.length)
    have hs := accepted
    simp only [AppendSimpleType, AppendBytes, Option.ite_none_left_eq_some,
      Option.some.injEq, he] at hs
    refine ⟨.bytes bs, Decodes.after_next_type_of_head hs.2.symm ?_, rfl⟩
    rw [ht]
    exact (ReadBytes_AppendBytes accepted).map rfl
  | bool b =>
    cases accepted
    refine ⟨.bool b, ?_, rfl⟩
    cases b <;> exact Decodes.after_next_type ((ReadBool_AppendBool _).map rfl)
  | uint v | uint64 v =>
    cases accepted
    exact ReadSimpleType_AppendUint64 v
  | uint8 v | uint16 v | uint32 v =>
    cases accepted
    exact ReadSimpleType_AppendUint64 _
  | int8 v | int16 v | int32 v =>
    cases accepted
    obtain ⟨w, hw, hp⟩ := ReadSimpleType_AppendInt64 (v.signExtend 64)
    exact ⟨w, hw, by rw [hp, toInt_signExtend_64 _ (by decide)]; rfl⟩
  | int64 v | int v =>
    cases accepted
    exact ReadSimpleType_AppendInt64 v
  | float32 f =>
    cases accepted
    exact ⟨.float32 f, Decodes.after_next_type ((ReadFloat32_AppendFloat32 f).map rfl), rfl⟩
  | float64 f =>
    cases accepted
    exact ⟨.float64 f, Decodes.after_next_type ((ReadFloat64_AppendFloat64 f).map rfl), rfl⟩

theorem ReadSimpleType_AppendSimpleType_hi :
    AppendSimpleType [] (.string [104, 105]) = some [0xa2, 104, 105] ∧
    ∃ w, Decodes ReadSimpleType [0xa2, 104, 105] w ∧ w.plain = (Simple.string [104, 105]).plain :=
  ⟨by decide, ReadSimpleType_AppendSimpleType _ _ (by decide)⟩

/-! ### The narrow readers -/

theorem read_uint_narrow_decodes (funcname : String) {max : Nat} {v : UInt64} (hv : v.toNat ≤ max) :
    Decodes (read_uint_narrow funcname max) (AppendUint64 [] v) v := by
  refine ((ReadUint64_AppendUint64 v).bind ?_).of_eq (List.append_nil _)
  rw [if_neg (Nat.not_lt.mpr hv)]
  exact Decodes.pure rfl

theorem ReadUint8_AppendUint8 (v : UInt8) : Decodes ReadUint8 (AppendUint8 [] v) v :=
  (read_uint_narrow_decodes _ (by have := UInt8.toNat_lt v; simp [MaxUint8]; omega)).map
    (UInt8.toNat.inj (by simp [UInt64.toUInt8, Nat.mod_eq_of_lt (UInt8.toNat_lt v)]))

theorem ReadUint16_AppendUint16 (v : UInt16) : Decodes ReadUint16 (AppendUint16 [] v) v :=
  (read_uint_narrow_decodes _ (by have := UInt16.toNat_lt v; simp [MaxUint16]; omega)).map
    (UInt16.toNat.inj (by simp [UInt64.toUInt16, Nat.mod_eq_of_lt (UInt16.toNat_lt v)]))

theorem ReadUint32_AppendUint32 (v : UInt32) : Decodes ReadUint32 (AppendUint32 [] v) v :=
  (read_uint_narrow_decodes _ (by have := UInt32.toNat_lt v; simp [MaxUint32]; omega)).map
    (UInt32.toNat.inj (by simp [UInt64.toUInt32, Nat.mod_eq_of_lt (UInt32.toNat_lt v)]))

theorem read_int_narrow_decodes (funcname : String) {lo hi : Int} {v : Int64}
    (hv : lo ≤ v.toInt ∧ v.toInt ≤ hi) : Decodes (read_int_narrow funcname lo hi) (AppendInt64 [] v) v := by
  refine ((ReadInt64_AppendInt64 v).bind ?_).of_eq (List.append_nil _)
  rw [if_neg (by omega)]
  exact Decodes.pure rfl

/-- Narrowing an intW widened to int64 gives it back. -/
theorem truncate_signExtend_64 (w : Nat) (hw : w = 8 ∨ w = 16 ∨ w = 32) (x : BitVec w) :
    (x.signExtend 64).truncate w = x := by
  have := x.isLt
  apply BitVec.eq_of_toNat_eq
  rcases hw with rfl | rfl | rfl <;>
  · rw [BitVec.truncate_eq_setWidth, BitVec.toNat_setWidth, BitVec.signExtend, BitVec.toNat_ofInt,
      BitVec.toInt_eq_toNat_cond]
    split <;> omega

theorem ReadInt16_AppendInt16 (v : BitVec 16) : Decodes ReadInt16 (AppendInt16 [] v) v := by
  have := v.isLt
  have hv := toInt_signExtend_64 16 (by decide) v
  refine (read_int_narrow_decodes _ ?_).map (truncate_signExtend_64 16 (by decide) v)
  rw [hv, BitVec.toInt_eq_toNat_cond]
  simp only [MinInt16, MaxInt16]
  split <;> omega

theorem ReadInt32_AppendInt32 (v : BitVec 32) : Decodes ReadInt32 (AppendInt32 [] v) v := by
  have := v.isLt
  have hv := toInt_signExtend_64 32 (by decide) v
  refine (read_int_narrow_decodes _ ?_).map (truncate_signExtend_64 32 (by decide) v)
  rw [hv, BitVec.toInt_eq_toNat_cond]
  simp only [MinInt32, MaxInt32]
  split <;> omega

end Rsql.Msgp
