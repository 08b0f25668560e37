import Mathlib.Data.List.Forall2
import Rsql.Msgp.Narrow
import Rsql.Drv.Batch

/-! Batch.Scan into integer destinations (getresult.go). Scan checks the
batch's error, its status and the number of destinations, then goes through the
columns in order: each is read with ColInt64 (or ColInt), checked against the
range of its destination when that type is narrower, and written. The first
column out of range ends the scan with an overflow error; the destinations
before it keep what was written. Go's int and uint are 64 bits wide here, as on
the 64-bit platforms rsql runs on. -/
namespace Rsql.Drv

open Msgp Rsqlib

/-- Batch.ColInt64: the integer column's value as an int64 and whether it is
NULL (the value is then 0). `.error` is the panic of a column that is no
integer, or of an index past the record. -/
def ColInt64 (b : Batch) (i : Nat) : Except String (Int64 × Bool) :=
  match b.record[i]? with
  | none => .error "index out of range"
  | some field =>
    if field.IsNull then .ok (0, true)
    else match field with
      | .Bit _ v | .Tinyint _ v => .ok (BitVec.ofNat 64 v.toNat, false)
      | .Smallint _ v => .ok (v.signExtend 64, false)
      | .Int _ v => .ok (v.signExtend 64, false)
      | .Bigint _ v => .ok (v, false)
      | _ => .error ("record field " ++ toString i ++ " is not an integer datatype.")

/-- Batch.ColInt: int(val64), the same 64 bits. -/
def ColInt (b : Batch) (i : Nat) : Except String (BitVec 64 × Bool) := ColInt64 b i

/-- A destination of Scan, with the value it points to. -/
inductive Dest where
  | int8 (v : BitVec 8)
  | int16 (v : BitVec 16)
  | int32 (v : BitVec 32)
  | int64 (v : Int64)
  | int (v : BitVec 64)
  | uint8 (v : UInt8)
  | uint16 (v : UInt16)
  | uint32 (v : UInt32)
  | uint64 (v : UInt64)
  | uint (v : UInt64)
  /-- A pointer to a type that no case of the type switch names. -/
  | unsupported
  deriving DecidableEq, Repr

/-- The check of a narrow destination: `val < lo || val > hi` is an overflow
of column i, otherwise the converted value is written. -/
def check_range (i : Nat) (typ : String) (lo hi : Int) (val : Int64) (write : Int64 → Dest) :
    Except Error Dest :=
  if val.toInt < lo ∨ val.toInt > hi then .error (.scan_overflow i typ) else .ok (write val)

/-- The check of *uint64 and *uint: only `val < 0` overflows. -/
def check_nonneg (i : Nat) (typ : String) (val : Int64) (write : Int64 → Dest) : Except Error Dest :=
  if val.toInt < 0 then .error (.scan_overflow i typ) else .ok (write val)

/-- One case of Scan's type switch, for column i: the panic of the column
read, or the overflow error, or the destination written. Both *uint64 and
*uint report their overflow as uint64. -/
def scan_one (b : Batch) (i : Nat) : Dest → Except String (Except Error Dest)
  | .int8 _ => (ColInt64 b i).map fun (val, _) =>
    check_range i "int8" MinInt8 MaxInt8 val fun v => .int8 (v.truncate 8)
  | .int16 _ => (ColInt64 b i).map fun (val, _) =>
    check_range i "int16" MinInt16 MaxInt16 val fun v => .int16 (v.truncate 16)
  | .int32 _ => (ColInt64 b i).map fun (val, _) =>
    check_range i "int32" MinInt32 MaxInt32 val fun v => .int32 (v.truncate 32)
  | .int64 _ => (ColInt64 b i).map fun (val, _) => .ok (.int64 val)
  | .int _ => (ColInt b i).map fun (val, _) => .ok (.int val)
  | .uint8 _ => (ColInt64 b i).map fun (val, _) =>
    check_range i "uint8" 0 MaxUint8 val fun v => .uint8 (UInt8.ofNat v.toNat)
  | .uint16 _ => (ColInt64 b i).map fun (val, _) =>
    check_range i "uint16" 0 MaxUint16 val fun v => .uint16 (UInt16.ofNat v.toNat)
  | .uint32 _ => (ColInt64 b i).map fun (val, _) =>
    check_range i "uint32" 0 MaxUint32 val fun v => .uint32 (UInt32.ofNat v.toNat)
  | .uint64 _ => (ColInt64 b i).map fun (val, _) =>
    check_nonneg i "uint64" val fun v => .uint64 (UInt64.ofNat v.toNat)
  | .uint _ => (ColInt64 b i).map fun (val, _) =>
    check_nonneg i "uint64" val fun v => .uint (UInt64.ofNat v.toNat)
  | .unsupported => .ok (.error .scan_dest_not_supported)

/-- Scan's range loop from column i; `done` are the destinations written. -/
def scan_loop (b : Batch) : Nat → List Dest → List Dest → Result (List Dest) Unit
  | _, done, [] => .ok () done
  | i, done, d :: rest =>
    match scan_one b i d with
    | .error msg => .panic msg
    | .ok (.error e) => .error e (done ++ d :: rest)
    | .ok (.ok d') => scan_loop b (i + 1) (done ++ [d']) rest

/-- Batch.Scan(dest...): the error it returns, and the destinations after it. -/
def Scan (b : Batch) (dest : List Dest) : Result (List Dest) Unit :=
  match b.err with
  | some e => .error e dest
  | none =>
    if b.status ≠ sTATUS_RECORD_AVAILABLE then .error .scan_record_not_available dest
    else if dest.length ≠ b.record.length then .error (.scan_dest_count b.record.length) dest
    else scan_loop b 0 [] dest

/-! ### What the columns and destinations mean -/

def is_integer : IField → Bool
  | .Bit .. | .Tinyint .. | .Smallint .. | .Int .. | .Bigint .. => true
  | _ => false

/-- The mathematical value of an integer column, 0 for NULL. -/
def int_value (f : IField) : Int :=
  if f.IsNull then 0
  else match f with
    | .Bit _ v | .Tinyint _ v => v.toNat
    | .Smallint _ v => v.toInt
    | .Int _ v => v.toInt
    | .Bigint _ v => v.toInt
    | _ => 0

/-- The range of the destination's Go type. -/
def Dest.fits : Dest → Int → Prop
  | .int8 _, v => MinInt8 ≤ v ∧ v ≤ MaxInt8
  | .int16 _, v => MinInt16 ≤ v ∧ v ≤ MaxInt16
  | .int32 _, v => MinInt32 ≤ v ∧ v ≤ MaxInt32
  | .int64 _, v | .int _, v => -2 ^ 63 ≤ v ∧ v < 2 ^ 63
  | .uint8 _, v => 0 ≤ v ∧ v ≤ MaxUint8
  | .uint16 _, v => 0 ≤ v ∧ v ≤ MaxUint16
  | .uint32 _, v => 0 ≤ v ∧ v ≤ MaxUint32
  | .uint64 _, v | .uint _, v => 0 ≤ v ∧ v < 2 ^ 64
  | .unsupported, _ => False

/-- The mathematical value a destination holds. -/
def Dest.value : Dest → Option Int
  | .int8 v => some v.toInt
  | .int16 v => some v.toInt
  | .int32 v => some v.toInt
  | .int64 v | .int v => some v.toInt
  | .uint8 v => some v.toNat
  | .uint16 v => some v.toNat
  | .uint32 v => some v.toNat
  | .uint64 v | .uint v => some v.toNat
  | .unsupported => none

def Dest.same_type : Dest → Dest → Prop
  | .int8 _, .int8 _ | .int16 _, .int16 _ | .int32 _, .int32 _ | .int64 _, .int64 _
  | .int _, .int _ | .uint8 _, .uint8 _ | .uint16 _, .uint16 _ | .uint32 _, .uint32 _
  | .uint64 _, .uint64 _ | .uint _, .uint _ => True
  | _, _ => False

/-- The type named by Scan's overflow error for the destination. -/
def Dest.overflow_name : Dest → String
  | .int8 _ => "int8"
  | .int16 _ => "int16"
  | .int32 _ => "int32"
  | .int64 _ => "int64"
  | .int _ => "int"
  | .uint8 _ => "uint8"
  | .uint16 _ => "uint16"
  | .uint32 _ => "uint32"
  | .uint64 _ | .uint _ => "uint64"
  | .unsupported => ""

/-- A column fits its destination when it is NULL or its value is in range. -/
def Fits (f : IField) (d : Dest) : Prop := f.IsNull = false → d.fits (int_value f)

/-! ### The integer conversions -/

theorem toInt_ofNat_of_lt (n : Nat) (h : n < 256) : (BitVec.ofNat 64 n).toInt = n := by
  rw [BitVec.toInt_ofNat]
  have := bmod_range_emod (n : Int) (Nat.two_pow_pos 64)
  simp only [Nat.reducePow, Nat.cast_ofNat] at *
  omega

theorem toInt_bounds (v : Int64) : -2 ^ 63 ≤ v.toInt ∧ v.toInt < 2 ^ 63 := by
  have := Int64.toInt_cases v
  omega

theorem toNat_eq_toInt {v : Int64} (h : 0 ≤ v.toInt) : (v.toNat : Int) = v.toInt := by
  have := Int64.toInt_cases v
  omega

theorem Dest.fits_zero {d : Dest} (hd : d ≠ .unsupported) : d.fits 0 := by
  cases d <;> simp [Dest.fits, MinInt8, MaxInt8, MinInt16, MaxInt16, MinInt32, MaxInt32, MaxUint8,
    MaxUint16, MaxUint32] at hd ⊢

theorem Fits_iff {f : IField} {d : Dest} (hd : d ≠ .unsupported) : Fits f d ↔ d.fits (int_value f) := by
  unfold Fits
  cases hn : f.IsNull
  · simp
  · simp [int_value, hn, Dest.fits_zero hd]

/-- ColInt64 reads an integer column's value exactly. -/
theorem ColInt64_integer {b : Batch} {i : Nat} {f : IField} (hf : b.record[i]? = some f)
    (hint : is_integer f = true) :
    ∃ val null, ColInt64 b i = .ok (val, null) ∧ val.toInt = int_value f := by
  unfold ColInt64 int_value
  rw [hf]
  cases f <;> simp only [is_integer, Bool.false_eq_true] at hint
  case Bit n v | Tinyint n v =>
    cases n
    · exact ⟨_, false, rfl, toInt_ofNat_of_lt _ (UInt8.toNat_lt v)⟩
    · exact ⟨0, true, rfl, rfl⟩
  case Smallint n v =>
    cases n
    · exact ⟨_, false, rfl, toInt_signExtend_64 16 (by decide) v⟩
    · exact ⟨0, true, rfl, rfl⟩
  case Int n v =>
    cases n
    · exact ⟨_, false, rfl, toInt_signExtend_64 32 (by decide) v⟩
    · exact ⟨0, true, rfl, rfl⟩
  case Bigint n v =>
    cases n
    · exact ⟨v, false, rfl, rfl⟩
    · exact ⟨0, true, rfl, rfl⟩

/-! ### One column -/

section Check

variable {i : Nat} {typ : String} {val : Int64} {write : Int64 → Dest}

theorem check_range_fits {lo hi : Int} (h : lo ≤ val.toInt ∧ val.toInt ≤ hi) :
    check_range i typ lo hi val write = .ok (write val) :=
  if_neg (by omega)

theorem check_range_overflow {lo hi : Int} (h : ¬ (lo ≤ val.toInt ∧ val.toInt ≤ hi)) :
    check_range i typ lo hi val write = .error (.scan_overflow i typ) :=
  if_pos (by omega)

theorem check_nonneg_fits (h : 0 ≤ val.toInt) : check_nonneg i typ val write = .ok (write val) :=
  if_neg (by omega)

theorem check_nonneg_overflow (h : ¬ 0 ≤ val.toInt) :
    check_nonneg i typ val write = .error (.scan_overflow i typ) :=
  if_pos (by omega)

end Check

theorem toNat_ofNat_toNat {v : Int64} {m : Nat} (h0 : 0 ≤ v.toInt) (hm : v.toInt < m) :
    ((v.toNat % m : Nat) : Int) = v.toInt := by
  have := toNat_eq_toInt h0
  rw [Nat.mod_eq_of_lt (by omega), this]

/-- What Scan does with one integer value of column i: a destination in whose
range it lies receives it exactly, any other overflows. -/
theorem scan_one_spec {b : Batch} {i : Nat} {val : Int64} {null : Bool} (hc : ColInt64 b i = .ok (val, null))
    {d : Dest} (hd : d ≠ .unsupported) :
    (d.fits val.toInt → ∃ d', scan_one b i d = .ok (.ok d') ∧ d'.value = some val.toInt ∧ d.same_type d') ∧
    (¬ d.fits val.toInt → scan_one b i d = .ok (.error (.scan_overflow i d.overflow_name))) := by
  have hb := toInt_bounds val
  have hmap {f : Int64 × Bool → Except Error Dest} : (ColInt64 b i).map f = .ok (f (val, null)) := by
    rw [hc]; rfl
  cases d with
  | unsupported => exact absurd rfl hd
  | int64 => exact ⟨fun _ => ⟨.int64 val, by rw [scan_one, hmap], rfl, trivial⟩, fun h => absurd hb h⟩
  | int => exact ⟨fun _ => ⟨.int val, by rw [scan_one, ColInt, hmap], rfl, trivial⟩, fun h => absurd hb h⟩
  | int8 | int16 | int32 =>
    refine ⟨fun h => ?_, fun h => by simp only [scan_one, hmap, check_range_overflow h, Dest.overflow_name]⟩
    simp only [scan_one, hmap, check_range_fits h, Except.ok.injEq, exists_eq_left']
    exact ⟨congrArg some (toInt_truncate_of_range _ (by decide) val h.1 h.2), trivial⟩
  | uint8 | uint16 | uint32 =>
    refine ⟨fun h => ?_, fun h => by simp only [scan_one, hmap, check_range_overflow h, Dest.overflow_name]⟩
    simp only [scan_one, hmap, check_range_fits h, Except.ok.injEq, exists_eq_left']
    refine ⟨congrArg some (toNat_ofNat_toNat h.1 ?_), trivial⟩
    simp only [Dest.fits, MaxUint8, MaxUint16, MaxUint32] at h
    omega
  | uint64 | uint =>
    refine ⟨fun h => ?_, fun h => by
      simp only [scan_one, hmap, check_nonneg_overflow fun h0 => h ⟨h0, by omega⟩, Dest.overflow_name]⟩
    simp only [scan_one, hmap, check_nonneg_fits h.1, Except.ok.injEq, exists_eq_left']
    exact ⟨congrArg some (toNat_ofNat_toNat h.1 (by omega)), trivial⟩

/-- An integer column and a destination of an integer type: the destination
receives the column's value when it fits, and the scan overflows otherwise. -/
theorem scan_one_column {b : Batch} {i : Nat} {f : IField} (hf : b.record[i]? = some f)
    (hint : is_integer f = true) {d : Dest} (hd : d ≠ .unsupported) :
    (Fits f d → ∃ d', scan_one b i d = .ok (.ok d') ∧ d'.value = some (int_value f) ∧ d.same_type d') ∧
    (¬ Fits f d → scan_one b i d = .ok (.error (.scan_overflow i d.overflow_name))) := by
  obtain ⟨val, null, hc, hv⟩ := ColInt64_integer hf hint
  rw [Fits_iff hd, ← hv]
  exact scan_one_spec hc hd

/-! ### The loop -/

theorem getElem?_of_drop_eq_cons {α : Type} {l t : List α} {i : Nat} {a : α} (h : l.drop i = a :: t) :
    l[i]? = some a ∧ l.drop (i + 1) = t :=
  ⟨by rw [← Nat.add_zero i, ← List.getElem?_drop, h, List.getElem?_cons_zero], by rw [← List.drop_drop, h]; rfl⟩

section Loop

variable {b : Batch}

/-- From column i on, columns that all fit their destinations are all
written, each with its value. -/
theorem scan_loop_fits {fs : List IField} {ds : List Dest} (hfit : List.Forall₂ Fits fs ds)
    (hint : ∀ f ∈ fs, is_integer f = true) (hdest : ∀ d ∈ ds, d ≠ .unsupported)
    (i : Nat) (done : List Dest) (hdrop : b.record.drop i = fs) :
    ∃ ds', scan_loop b i done ds = .ok () (done ++ ds') ∧
      List.Forall₂ (fun f d' => d'.value = some (int_value f)) fs ds' ∧ List.Forall₂ Dest.same_type ds ds' := by
  induction hfit generalizing i done with
  | nil => exact ⟨[], by rw [scan_loop, List.append_nil], .nil, .nil⟩
  | @cons f d fs ds hfd _ ih =>
    obtain ⟨hf, hrest⟩ := getElem?_of_drop_eq_cons hdrop
    obtain ⟨d', hone, hv, hsame⟩ := (scan_one_column hf (hint f (.head _)) (hdest d (.head _))).1 hfd
    obtain ⟨ds', hrun, hvs, hsames⟩ :=
      ih (fun f hf => hint f (.tail _ hf)) (fun d hd => hdest d (.tail _ hd)) (i + 1) (done ++ [d']) hrest
    refine ⟨d' :: ds', ?_, .cons hv hvs, .cons hsame hsames⟩
    simp only [scan_loop, hone, hrun, List.append_assoc, List.singleton_append]

/-- From column i on, the first column that does not fit ends the loop with
its overflow error. -/
theorem scan_loop_overflow {pre : List IField} {dpre : List Dest} (hpre : List.Forall₂ Fits pre dpre)
    (hint : ∀ f ∈ pre, is_integer f = true) (hdest : ∀ d ∈ dpre, d ≠ .unsupported)
    {f : IField} {d : Dest} (hfi : is_integer f = true) (hd : d ≠ .unsupported) (hmis : ¬ Fits f d)
    {post : List IField} (dpost : List Dest) (i : Nat) (done : List Dest)
    (hdrop : b.record.drop i = pre ++ f :: post) :
    ∃ dest', scan_loop b i done (dpre ++ d :: dpost) =
      .error (.scan_overflow (i + pre.length) d.overflow_name) dest' := by
  induction hpre generalizing i done with
  | nil =>
    obtain ⟨hf, -⟩ := getElem?_of_drop_eq_cons hdrop
    exact ⟨done ++ d :: dpost, by
      simp only [List.nil_append, scan_loop, (scan_one_column hf hfi hd).2 hmis, List.length_nil, Nat.add_zero]⟩
  | @cons f₀ d₀ pre dpre hfd _ ih =>
    obtain ⟨hf, hrest⟩ := getElem?_of_drop_eq_cons hdrop
    obtain ⟨d', hone, -, -⟩ := (scan_one_column hf (hint f₀ (.head _)) (hdest d₀ (.head _))).1 hfd
    obtain ⟨dest', hrun⟩ :=
      ih (fun f hf => hint f (.tail _ hf)) (fun d hd => hdest d (.tail _ hd)) (i + 1) (done ++ [d']) hrest
    refine ⟨dest', ?_⟩
    rw [List.length_cons, Nat.add_comm pre.length, ← Nat.add_assoc, ← hrun]
    simp only [List.cons_append, scan_loop, hone, List.append_eq]

end Loop

/-- Two lists of one length that are not related pairwise have a first pair
that is not related. -/
theorem exists_first_misfit {α β : Type} {R : α → β → Prop} :
    ∀ {l₁ : List α} {l₂ : List β}, l₁.length = l₂.length → ¬ List.Forall₂ R l₁ l₂ →
      ∃ pre a post dpre b dpost, l₁ = pre ++ a :: post ∧ l₂ = dpre ++ b :: dpost ∧
        List.Forall₂ R pre dpre ∧ ¬ R a b
  | [], [], _, h => absurd .nil h
  | a :: l₁, b :: l₂, hl, h => by
    by_cases hab : R a b
    · obtain ⟨pre, a', post, dpre, b', dpost, rfl, rfl, hpre, hmis⟩ :=
        exists_first_misfit (Nat.succ.inj hl) fun h' => h (.cons hab h')
      exact ⟨a :: pre, a', post, b :: dpre, b', dpost, rfl, rfl, .cons hab hpre, hmis⟩
    · exact ⟨[], a, l₁, [], b, l₂, rfl, rfl, .nil, hab⟩

theorem Scan_available {b : Batch} {dest : List Dest} (he : b.err = none)
    (hs : b.status = sTATUS_RECORD_AVAILABLE) (hlen : dest.length = b.record.length) :
    Scan b dest = scan_loop b 0 [] dest := by
  simp [Scan, he, hs, hlen]

/-- Scan of integer columns into integer destinations: it returns nil exactly
when every non-NULL value lies in its destination's range, every destination
then holds its column's value (0 for NULL), and otherwise the error names the
first column that does not fit. -/
theorem Scan_integer_exact (b : Batch) (dest : List Dest) (he : b.err = none)
    (hs : b.status = sTATUS_RECORD_AVAILABLE) (hcols : ∀ f ∈ b.record, is_integer f = true)
    (hdest : ∀ d ∈ dest, d ≠ .unsupported) (hlen : dest.length = b.record.length) :
    ((∃ dest', Scan b dest = .ok () dest') ↔ List.Forall₂ Fits b.record dest) ∧
    (List.Forall₂ Fits b.record dest → ∃ dest', Scan b dest = .ok () dest' ∧
      List.Forall₂ (fun f d' => d'.value = some (int_value f)) b.record dest' ∧
      List.Forall₂ Dest.same_type dest dest') ∧
    ∀ pre f post dpre d dpost, b.record = pre ++ f :: post → dest = dpre ++ d :: dpost →
      List.Forall₂ Fits pre dpre → ¬ Fits f d →
      ∃ dest', Scan b dest = .error (.scan_overflow pre.length d.overflow_name) dest' := by
  rw [Scan_available he hs hlen]
  have fits (h : List.Forall₂ Fits b.record dest) := scan_loop_fits h hcols hdest 0 [] (List.drop_zero _)
  have overflow : ∀ pre f post dpre d dpost, b.record = pre ++ f :: post → dest = dpre ++ d :: dpost →
      List.Forall₂ Fits pre dpre → ¬ Fits f d →
      ∃ dest', scan_loop b 0 [] dest = .error (.scan_overflow pre.length d.overflow_name) dest' := by
    rintro pre f post dpre d dpost hr rfl hpre hmis
    have hin (g) (hg : g ∈ pre ++ f :: post) : is_integer g = true := hcols g (hr ▸ hg)
    simpa using scan_loop_overflow hpre (fun g hg => hin g (List.mem_append_left _ hg))
      (fun e he => hdest e (List.mem_append_left _ he)) (hin f (by simp)) (hdest d (by simp)) hmis
      dpost 0 [] (by rw [List.drop_zero, hr])
  refine ⟨⟨fun ⟨dest', hok⟩ => ?_, fun h => (fits h).imp fun _ h => h.1⟩, fits, overflow⟩
  by_contra hn
  obtain ⟨pre, f, post, dpre, d, dpost, hr, hd, hpre, hmis⟩ := exists_first_misfit hlen.symm hn
  obtain ⟨_, herr⟩ := overflow pre f post dpre d dpost hr hd hpre hmis
  rw [hok] at herr
  cases herr

/-- A current record of a tinyint, a NULL smallint and an int. -/
def sample_record : Batch :=
  { status := sTATUS_RECORD_AVAILABLE, record := [.Tinyint false 200, .Smallint true 0, .Int false (-5)] }

def sample_dest : List Dest := [.uint8 0, .int8 0, .int16 0]

theorem Scan_integer_exact_sample :
    sample_record.err = none ∧ sample_record.status = sTATUS_RECORD_AVAILABLE ∧
    (∀ f ∈ sample_record.record, is_integer f = true) ∧ (∀ d ∈ sample_dest, d ≠ .unsupported) ∧
    sample_dest.length = sample_record.record.length ∧
    ((∃ dest', Scan sample_record sample_dest = .ok () dest') ↔ List.Forall₂ Fits sample_record.record sample_dest) ∧
    (List.Forall₂ Fits sample_record.record sample_dest → ∃ dest', Scan sample_record sample_dest = .ok () dest' ∧
      List.Forall₂ (fun f d' => d'.value = some (int_value f)) sample_record.record dest' ∧
      List.Forall₂ Dest.same_type sample_dest dest') ∧
    ∀ pre f post dpre d dpost, sample_record.record = pre ++ f :: post → sample_dest = dpre ++ d :: dpost →
      List.Forall₂ Fits pre dpre → ¬ Fits f d →
      ∃ dest', Scan sample_record sample_dest = .error (.scan_overflow pre.length d.overflow_name) dest' :=
  ⟨rfl, rfl, by decide, by decide, rfl,
    Scan_integer_exact sample_record sample_dest rfl rfl (by decide) (by decide) rfl⟩

example : Scan { status := sTATUS_RECORD_AVAILABLE, record := [.Tinyint false 127, .Tinyint false 128] }
    [.int8 0, .int8 0] = .error (.scan_overflow 1 "int8") [.int8 127, .int8 0] := rfl

example : Scan { status := sTATUS_RECORD_AVAILABLE, record := [.Int false (-1)] } [.uint 0] =
    .error (.scan_overflow 0 "uint64") [.uint 0] := rfl

end Rsql.Drv
