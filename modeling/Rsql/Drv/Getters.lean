import Rsql.Drv.Scan
import Rsql.Drv.SQLpart

/-! The getters of getresult.go on column i of the current record, and the
String methods of the fields (rsql_read_values.go) that ColString and
ColNumeric call. A getter called on a column of a type it does not take
panics, as does an index past the record: both are `.error` with the panic's
message. How floats and times are printed (strconv.FormatFloat,
time.Time.Format) is the parameter `Formats`; the layouts the String methods
choose are modelled. -/
namespace Rsql.Rsqlib

/-- strconv.FormatFloat(f, 'g', -1, 64) and t.Format(layout). -/
structure Formats where
  FormatFloat : Float64 → Bytes
  Format : GoTime → Bytes → Bytes

def NULL_STRING : Bytes := ascii "<NULL>"

/-- What read_value guarantees of a field and the getters rely on: a BIT
holds 0 or 1. -/
def IField.bit_ok : IField → Bool
  | .Bit _ v => v ≤ 1
  | _ => true

/-- The String method of each field. -/
def IField.String (fmt : Formats) : IField → Bytes
  | .Void _ => NULL_STRING
  | .Boolean n v => if n then NULL_STRING else if v = false then ascii "false" else ascii "true"
  | .Varbinary _ n v =>
    if n then NULL_STRING else ascii "0x" ++ v.flatMap fun x => [Drv.hex_digit (x / 16), Drv.hex_digit (x % 16)]
  | .Varchar _ _ n v => if n then NULL_STRING else v
  | .Bit n v => if n then NULL_STRING else if v = 0 then ascii "0" else ascii "1"
  | .Tinyint n v => if n then NULL_STRING else Drv.FormatInt (BitVec.ofNat 64 v.toNat)
  | .Smallint n v => if n then NULL_STRING else Drv.FormatInt (v.signExtend 64)
  | .Int n v => if n then NULL_STRING else Drv.FormatInt (v.signExtend 64)
  | .Bigint n v => if n then NULL_STRING else Drv.FormatInt v
  | .Money _ _ n v => if n then NULL_STRING else v
  | .Numeric _ _ n v => if n then NULL_STRING else v
  | .Float n v => if n then NULL_STRING else fmt.FormatFloat v
  | .Date n v => if n then NULL_STRING else fmt.Format v (ascii "2006-01-02")
  | .Time n v =>
    if n then NULL_STRING
    else if v.nsec = 0 then fmt.Format v (ascii "15:04:05") else fmt.Format v (ascii "15:04:05.000000000")
  | .Datetime n v =>
    if n then NULL_STRING
    else if v.nsec = 0 then fmt.Format v (ascii "2006-01-02 15:04:05")
    else fmt.Format v (ascii "2006-01-02 15:04:05.000000000")

end Rsql.Rsqlib

namespace Rsql.Drv

open Msgp Rsqlib

/-! ### Datatype -/

def VOID : UInt32 := (1 : UInt32) <<< 0
def VARBINARY : UInt32 := (1 : UInt32) <<< 1
def VARCHAR : UInt32 := (1 : UInt32) <<< 2
def BIT : UInt32 := (1 : UInt32) <<< 3
def TINYINT : UInt32 := (1 : UInt32) <<< 4
def SMALLINT : UInt32 := (1 : UInt32) <<< 5
def INT : UInt32 := (1 : UInt32) <<< 6
def BIGINT : UInt32 := (1 : UInt32) <<< 7
def MONEY : UInt32 := (1 : UInt32) <<< 8
def NUMERIC : UInt32 := (1 : UInt32) <<< 9
def FLOAT : UInt32 := (1 : UInt32) <<< 10
def DATE : UInt32 := (1 : UInt32) <<< 11
def TIME : UInt32 := (1 : UInt32) <<< 12
def DATETIME : UInt32 := (1 : UInt32) <<< 13

/-- The datatypes with their names, in the order of their declaration. -/
def datatype_names : List (UInt32 × String) :=
  [(VOID, "VOID"), (VARBINARY, "VARBINARY"), (VARCHAR, "VARCHAR"), (BIT, "BIT"), (TINYINT, "TINYINT"),
    (SMALLINT, "SMALLINT"), (INT, "INT"), (BIGINT, "BIGINT"), (MONEY, "MONEY"), (NUMERIC, "NUMERIC"),
    (FLOAT, "FLOAT"), (DATE, "DATE"), (TIME, "TIME"), (DATETIME, "DATETIME")]

/-- Datatype.String: the switch on the datatype; any other value panics. -/
def Datatype.String (dt : UInt32) : Except String String :=
  match datatype_names.lookup dt with
  | some name => .ok name
  | none => .error ("unknown datatype " ++ toString dt)

/-- The rsqlib DTYPE of each datatype ColDatatype knows. -/
def dtype_datatypes : List (UInt8 × UInt32) :=
  [(DTYPE_VOID, VOID), (DTYPE_VARBINARY, VARBINARY), (DTYPE_VARCHAR, VARCHAR), (DTYPE_BIT, BIT),
    (DTYPE_TINYINT, TINYINT), (DTYPE_SMALLINT, SMALLINT), (DTYPE_INT, INT), (DTYPE_BIGINT, BIGINT),
    (DTYPE_MONEY, MONEY), (DTYPE_NUMERIC, NUMERIC), (DTYPE_FLOAT, FLOAT), (DTYPE_DATE, DATE),
    (DTYPE_TIME, TIME), (DTYPE_DATETIME, DATETIME)]

/-! ### The getters -/

def ColCount (b : Batch) : Nat := b.record.length

/-- The switch on field.Datatype(): DTYPE_BOOLEAN has no case. -/
def ColDatatype (b : Batch) (i : Nat) : Except String UInt32 :=
  match b.record[i]? with
  | none => .error "index out of range"
  | some field =>
    match dtype_datatypes.lookup field.Datatype with
    | some dt => .ok dt
    | none => .error ("unknown datatype in field " ++ toString i ++ ".")

def ColIsNull (b : Batch) (i : Nat) : Except String Bool :=
  match b.record[i]? with
  | none => .error "index out of range"
  | some field => .ok field.IsNull

/-- strconv.ParseBool; `none` is its syntax error. -/
def ParseBool (str : Bytes) : Option Bool :=
  if str ∈ [ascii "1", ascii "t", ascii "T", ascii "true", ascii "TRUE", ascii "True"] then some true
  else if str ∈ [ascii "0", ascii "f", ascii "F", ascii "false", ascii "FALSE", ascii "False"] then some false
  else none

/-- `f != 0` on a float64: false for +0 and -0 only. -/
def float_ne_zero (f : Float64) : Bool := f.bits &&& 0x7FFFFFFFFFFFFFFF != 0

/-- Batch.ColBool: a VARCHAR is read by ParseBool, false when it fails; a
number is true when it is not 0. -/
def ColBool (b : Batch) (i : Nat) : Except String (Bool × Bool) :=
  match b.record[i]? with
  | none => .error "index out of range"
  | some field =>
    if field.IsNull then .ok (false, true)
    else match field with
      | .Varchar _ _ _ v => .ok ((ParseBool v).getD false, false)
      | .Bit _ v | .Tinyint _ v => .ok (v != 0, false)
      | .Smallint _ v => .ok (v != 0, false)
      | .Int _ v => .ok (v != 0, false)
      | .Bigint _ v => .ok (v != 0, false)
      | .Float _ v => .ok (float_ne_zero v, false)
      | _ => .error ("record field " ++ toString i ++
          " of type VARBINARY, MONEY, NUMERIC, DATE, TIME or DATETIME cannot be converted to bool.")

def ColBinary (b : Batch) (i : Nat) : Except String (Bytes × Bool) :=
  match b.record[i]? with
  | none => .error "index out of range"
  | some field =>
    if field.IsNull then .ok ([], true)
    else match field with
      | .Varbinary _ _ v => .ok (v, false)
      | _ => .error ("record field " ++ toString i ++ " is not a binary datatype.")

/-- Batch.ColString: the text of VARCHAR, MONEY and NUMERIC, field.String()
for any other column. -/
def ColString (fmt : Formats) (b : Batch) (i : Nat) : Except String (Bytes × Bool) :=
  match b.record[i]? with
  | none => .error "index out of range"
  | some field =>
    if field.IsNull then .ok ([], true)
    else match field with
      | .Varchar _ _ _ v | .Money _ _ _ v | .Numeric _ _ _ v => .ok (v, false)
      | _ => .ok (field.String fmt, false)

def ColNumeric (fmt : Formats) (b : Batch) (i : Nat) : Except String (Bytes × Bool) :=
  match b.record[i]? with
  | none => .error "index out of range"
  | some field =>
    if field.IsNull then .ok ([], true)
    else match field with
      | .Bit .. | .Tinyint .. | .Smallint .. | .Int .. | .Bigint .. => .ok (field.String fmt, false)
      | .Money _ _ _ v | .Numeric _ _ _ v => .ok (v, false)
      | _ => .error ("record field " ++ toString i ++ " is not an integer, money or numeric datatype.")

def ColFloat64 (b : Batch) (i : Nat) : Except String (Float64 × Bool) :=
  match b.record[i]? with
  | none => .error "index out of range"
  | some field =>
    if field.IsNull then .ok (⟨0⟩, true)
    else match field with
      | .Float _ v => .ok (v, false)
      | _ => .error ("record field " ++ toString i ++ " is not a float datatype.")

/-- Batch.ColDatetimeUTC; a TIME is on 1900-01-01. -/
def ColDatetimeUTC (b : Batch) (i : Nat) : Except String (GoTime × Bool) :=
  match b.record[i]? with
  | none => .error "index out of range"
  | some field =>
    if field.IsNull then .ok (zero_time, true)
    else match field with
      | .Date _ v | .Time _ v | .Datetime _ v => .ok (v, false)
      | _ => .error ("record field " ++ toString i ++ " is not a date, time or datetime datatype.")

/-- The datatype ColDatatype's switch gives a field: none for BOOLEAN, and
otherwise one Datatype.String names. -/
theorem lookup_Datatype (f : IField) :
    match dtype_datatypes.lookup f.Datatype with
    | some dt => f.Datatype ≠ DTYPE_BOOLEAN ∧ ∃ name, Datatype.String dt = .ok name
    | none => f.Datatype = DTYPE_BOOLEAN := by
  cases f <;> first | rfl | exact ⟨by simp only [IField.Datatype]; decide, _, rfl⟩

/-- ColDatatype panics only past the record and on a BOOLEAN column, which
its switch has no case for; every datatype it returns has a name. -/
theorem ColDatatype_String (b : Batch) (i : Nat) :
    (∀ dt, ColDatatype b i = .ok dt → ∃ name, Datatype.String dt = .ok name) ∧
    ((∃ dt, ColDatatype b i = .ok dt) ↔ ∃ f, b.record[i]? = some f ∧ f.Datatype ≠ DTYPE_BOOLEAN) := by
  unfold ColDatatype
  cases b.record[i]? with
  | none => simp
  | some f =>
    have h := lookup_Datatype f
    cases hl : dtype_datatypes.lookup f.Datatype with
    | none => rw [hl] at h; simp only [hl]; simp [show f.Datatype = DTYPE_BOOLEAN from h]
    | some dt => rw [hl] at h; simp only [hl]; simp [h.1, h.2]

/-! ### The getters against each other -/

/-- ColNumeric returns what ColString returns, on every column it takes. -/
theorem ColNumeric_eq_ColString (fmt : Formats) (b : Batch) (i : Nat) (r : Bytes × Bool)
    (h : ColNumeric fmt b i = .ok r) : ColString fmt b i = .ok r := by
  unfold ColNumeric at h
  unfold ColString
  split at h
  · cases h
  next field _ =>
  split at h
  · rwa [if_pos ‹_›]
  · rw [if_neg ‹_›]
    cases field <;> first | exact h | cases h

theorem signExtend_eq_zero_iff (w : Nat) (hw : w = 8 ∨ w = 16 ∨ w = 32) (v : BitVec w) :
    v.signExtend 64 = 0 ↔ v = 0 := by
  rw [← BitVec.toInt_inj, ← @BitVec.toInt_inj w, toInt_signExtend_64 w hw]
  simp [BitVec.toInt_ofNat]

theorem ofNat_toNat_eq_zero_iff (v : UInt8) : BitVec.ofNat 64 v.toNat = 0 ↔ v = 0 := by
  rw [BitVec.toNat_eq, BitVec.toNat_ofNat, Nat.mod_eq_of_lt (by have := UInt8.toNat_lt v; omega)]
  exact ⟨fun h => UInt8.toNat.inj h, fun h => h ▸ rfl⟩

theorem signExtend_bne_zero (w : Nat) (hw : w = 8 ∨ w = 16 ∨ w = 32) (v : BitVec w) :
    (v.signExtend 64 != 0) = (v != 0) :=
  Bool.eq_iff_iff.mpr (by simp only [bne_iff_ne, ne_eq, signExtend_eq_zero_iff w hw])

theorem ofNat_toNat_bne_zero (v : UInt8) : (BitVec.ofNat 64 v.toNat != 0) = (v != 0) :=
  Bool.eq_iff_iff.mpr (by simp only [bne_iff_ne, ne_eq, ofNat_toNat_eq_zero_iff])

/-- On an integer column ColBool is whether ColInt64's value is not 0. -/
theorem ColBool_integer {b : Batch} {i : Nat} {f : IField} (hf : b.record[i]? = some f)
    (hint : is_integer f = true) : ColBool b i = (ColInt64 b i).map fun (val, null) => (val != 0, null) := by
  simp only [ColBool, ColInt64, hf]
  cases f with
  | Bit n v | Tinyint n v =>
    cases n
    · exact congrArg (fun c => Except.ok (c, false)) (ofNat_toNat_bne_zero v).symm
    · rfl
  | Smallint n v =>
    cases n
    · exact congrArg (fun c => Except.ok (c, false)) (signExtend_bne_zero 16 (by decide) v).symm
    · rfl
  | Int n v =>
    cases n
    · exact congrArg (fun c => Except.ok (c, false)) (signExtend_bne_zero 32 (by decide) v).symm
    · rfl
  | Bigint n v => cases n <;> rfl
  | _ => simp [is_integer] at hint

/-- On an integer column whose BIT holds 0 or 1, ColNumeric is the decimal
form of ColInt64's value. -/
theorem ColNumeric_integer (fmt : Formats) {b : Batch} {i : Nat} {f : IField} (hf : b.record[i]? = some f)
    (hint : is_integer f = true) (hbit : f.bit_ok = true) :
    ColNumeric fmt b i = (ColInt64 b i).map fun (val, null) => (if null then [] else FormatInt val, null) := by
  simp only [ColNumeric, ColInt64, hf]
  cases f with
  | Bit n v =>
    have h01 : v.toNat = 0 ∨ v.toNat = 1 := by
      simp only [IField.bit_ok, decide_eq_true_eq, UInt8.le_iff_toNat_le] at hbit
      exact Nat.le_one_iff_eq_zero_or_eq_one.mp hbit
    rcases h01 with h | h
    · obtain rfl : v = 0 := UInt8.toNat.inj h
      cases n <;> rfl
    · obtain rfl : v = 1 := UInt8.toNat.inj h
      cases n <;> rfl
  | Tinyint n v | Smallint n v | Int n v | Bigint n v => cases n <;> rfl
  | _ => simp [is_integer] at hint

end Rsql.Drv
