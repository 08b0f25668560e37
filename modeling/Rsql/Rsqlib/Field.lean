import Rsql.Msgp.Reader

/-! Rows and fields of package rsqlib (rsql_read_values.go): the column
names and the layout of a recordset, and the values of a record, decoded
from the msgpack stream. A field is one of fifteen variants, each with its
NULL flag; `time.Time` values are instants in UTC. -/
namespace Rsql.Rsqlib

open Msgp

def DTYPE_VOID : UInt8 := 1
def DTYPE_BOOLEAN : UInt8 := 2
def DTYPE_VARBINARY : UInt8 := 4
def DTYPE_VARCHAR : UInt8 := 6
def DTYPE_BIT : UInt8 := 9
def DTYPE_TINYINT : UInt8 := 10
def DTYPE_SMALLINT : UInt8 := 11
def DTYPE_INT : UInt8 := 12
def DTYPE_BIGINT : UInt8 := 13
def DTYPE_MONEY : UInt8 := 15
def DTYPE_NUMERIC : UInt8 := 16
def DTYPE_FLOAT : UInt8 := 17
def DTYPE_DATE : UInt8 := 19
def DTYPE_TIME : UInt8 := 20
def DTYPE_DATETIME : UInt8 := 21

def SECONDS_PER_DAY : Int := 86400
def UNIX_SEC_LOWEST : Int := -62135596800
def UNIX_SEC_1900_01_01 : Int := -2208988800

/-- A time.Time as its instant: Unix seconds and nanoseconds in [0, 10^9). -/
structure GoTime where
  sec : Int
  nsec : Nat
  deriving DecidableEq, Repr

/-- time.Unix(sec, nsec).UTC(); nsec outside [0, 10^9) carries into seconds. -/
def time_Unix (sec nsec : Int) : GoTime :=
  ⟨sec + nsec / 1000000000, (nsec % 1000000000).toNat⟩

/-- time.Time{}: January 1, year 1, 00:00:00 UTC. -/
def zero_time : GoTime := ⟨UNIX_SEC_LOWEST, 0⟩

inductive IField where
  | Void (Is_Null : Bool)
  | Boolean (Is_Null : Bool) (Val : Bool)
  | Varbinary (Precision : UInt16) (Is_Null : Bool) (Val : Bytes)
  | Varchar (Precision : UInt16) (Fixlen : Bool) (Is_Null : Bool) (Val : Bytes)
  | Bit (Is_Null : Bool) (Val : UInt8)
  | Tinyint (Is_Null : Bool) (Val : UInt8)
  | Smallint (Is_Null : Bool) (Val : BitVec 16)
  | Int (Is_Null : Bool) (Val : BitVec 32)
  | Bigint (Is_Null : Bool) (Val : Int64)
  | Money (Precision Scale : UInt16) (Is_Null : Bool) (Val : Bytes)
  | Numeric (Precision Scale : UInt16) (Is_Null : Bool) (Val : Bytes)
  | Float (Is_Null : Bool) (Val : Float64)
  | Date (Is_Null : Bool) (Val : GoTime)
  | Time (Is_Null : Bool) (Val : GoTime)
  | Datetime (Is_Null : Bool) (Val : GoTime)
  deriving DecidableEq, Repr, Inhabited

namespace IField

def Datatype : IField → UInt8
  | Void .. => DTYPE_VOID
  | Boolean .. => DTYPE_BOOLEAN
  | Varbinary .. => DTYPE_VARBINARY
  | Varchar .. => DTYPE_VARCHAR
  | Bit .. => DTYPE_BIT
  | Tinyint .. => DTYPE_TINYINT
  | Smallint .. => DTYPE_SMALLINT
  | Int .. => DTYPE_INT
  | Bigint .. => DTYPE_BIGINT
  | Money .. => DTYPE_MONEY
  | Numeric .. => DTYPE_NUMERIC
  | Float .. => DTYPE_FLOAT
  | Date .. => DTYPE_DATE
  | Time .. => DTYPE_TIME
  | Datetime .. => DTYPE_DATETIME

def IsNull : IField → Bool
  | Void n | Boolean n _ | Varbinary _ n _ | Varchar _ _ n _ | Bit n _ | Tinyint n _
  | Smallint n _ | Int n _ | Bigint n _ | Money _ _ n _ | Numeric _ _ n _ | Float n _
  | Date n _ | Time n _ | Datetime n _ => n

end IField

/-! ### utf8.RuneCount -/

/-- Go's `first` and `acceptRanges` tables for a byte `c ≥ 0x80`: the length
of the sequence it starts and the range of its second byte; `none` when `c`
starts no sequence. -/
def utf8_first (c : UInt8) : Option (Nat × UInt8 × UInt8) :=
  if c < 0xC2 then none
  else if c ≤ 0xDF then some (2, 0x80, 0xBF)
  else if c = 0xE0 then some (3, 0xA0, 0xBF)
  else if c = 0xED then some (3, 0x80, 0x9F)
  else if c ≤ 0xEF then some (3, 0x80, 0xBF)
  else if c = 0xF0 then some (4, 0x90, 0xBF)
  else if c ≤ 0xF3 then some (4, 0x80, 0xBF)
  else if c = 0xF4 then some (4, 0x80, 0x8F)
  else none

/-- A continuation byte, in [locb, hicb]. -/
def is_cont (b : UInt8) : Bool := 0x80 ≤ b && b ≤ 0xBF

/-- The bytes after `c` that RuneCount steps over with it: the rest of a
valid UTF-8 sequence, none for an ASCII or an invalid byte. -/
def utf8_extra (c : UInt8) (rest : Bytes) : Nat :=
  if c < 0x80 then 0
  else match utf8_first c with
    | none => 0
    | some (size, lo, hi) =>
      if rest.length + 1 < size then 0
      else if rest.getD 0 0 < lo ∨ hi < rest.getD 0 0 then 0
      else if size = 2 then 1
      else if !is_cont (rest.getD 1 0) then 0
      else if size = 3 then 2
      else if !is_cont (rest.getD 2 0) then 0
      else 3

/-- utf8.RuneCount: runes in `p`, an invalid byte counting as one. -/
def RuneCount : Bytes → Nat
  | [] => 0
  | c :: rest => 1 + RuneCount (rest.drop (utf8_extra c rest))
termination_by p => p.length
decreasing_by simp only [List.length_drop, List.length_cons]; omega

/-- CHAR columns: ASCII spaces at the tail until the rune count is `precision`. -/
def pad_fixlen (precision : UInt16) (val : Bytes) : Bytes :=
  let rune_count := RuneCount val
  if rune_count < precision.toNat then val ++ List.replicate (precision.toNat - rune_count) 32
  else val

/-! ### Column names and layout -/

def Create_colname_list : ReadM (List Bytes) := do
  let row_size ← ReadArrayHeader
  GoM.repeat_n ReadString row_size.toNat

/-- One column descriptor: an array whose first element is the datatype. -/
def new_field : ReadM IField := do
  let sz ← ReadArrayHeader
  let u ← ReadUint8
  if u = DTYPE_VOID then do GoM.assert (sz = 1); return .Void true
  else if u = DTYPE_BOOLEAN then do GoM.assert (sz = 1); return .Boolean true false
  else if u = DTYPE_VARBINARY then do
    GoM.assert (sz = 2)
    let precision ← ReadUint16
    return .Varbinary precision true []
  else if u = DTYPE_VARCHAR then do
    GoM.assert (sz = 3)
    let precision ← ReadUint16
    let fixlen ← ReadBool
    return .Varchar precision fixlen true []
  else if u = DTYPE_BIT then do GoM.assert (sz = 1); return .Bit true 0
  else if u = DTYPE_TINYINT then do GoM.assert (sz = 1); return .Tinyint true 0
  else if u = DTYPE_SMALLINT then do GoM.assert (sz = 1); return .Smallint true 0
  else if u = DTYPE_INT then do GoM.assert (sz = 1); return .Int true 0
  else if u = DTYPE_BIGINT then do GoM.assert (sz = 1); return .Bigint true 0
  else if u = DTYPE_MONEY then do
    GoM.assert (sz = 3)
    let precision ← ReadUint16
    let scale ← ReadUint16
    return .Money precision scale true []
  else if u = DTYPE_NUMERIC then do
    GoM.assert (sz = 3)
    let precision ← ReadUint16
    let scale ← ReadUint16
    return .Numeric precision scale true []
  else if u = DTYPE_FLOAT then do GoM.assert (sz = 1); return .Float true ⟨0⟩
  else if u = DTYPE_DATE then do GoM.assert (sz = 1); return .Date true zero_time
  else if u = DTYPE_TIME then do GoM.assert (sz = 1); return .Time true zero_time
  else if u = DTYPE_DATETIME then do GoM.assert (sz = 1); return .Datetime true zero_time
  else GoM.throw .unknown_datatype

def Create_row : ReadM (List IField) := do
  let row_size ← ReadArrayHeader
  GoM.repeat_n new_field row_size.toNat

/-! ### Values -/

/-- The read_value methods but Void's: a nil makes the field NULL (`null`),
anything else is read by `read`. ReadNil's error is dropped: the code tests
the stale `err` of NextType instead. -/
def read_nullable (null : IField) (read : ReadM IField) : ReadM IField := do
  let objtype ← NextType
  if objtype = .NilType then do
    GoM.discard ReadNil
    return null
  else read

def read_value : IField → ReadM IField
  | .Void _ => do
    let objtype ← NextType
    GoM.assert (objtype = .NilType)
    GoM.discard ReadNil
    return .Void true
  | .Boolean .. => read_nullable (.Boolean true false) do
    return .Boolean false (← ReadBool)
  | .Varbinary p .. => read_nullable (.Varbinary p true []) do
    return .Varbinary p false (← ReadBytes)
  | .Varchar p fixlen .. => read_nullable (.Varchar p fixlen true []) do
    let val ← ReadStringAsBytes
    return .Varchar p fixlen false (if fixlen then pad_fixlen p val else val)
  | .Bit .. => read_nullable (.Bit true 0) do
    let val ← ReadUint8
    GoM.assert (val ≤ 1)
    return .Bit false val
  | .Tinyint .. => read_nullable (.Tinyint true 0) do
    return .Tinyint false (← ReadUint8)
  | .Smallint .. => read_nullable (.Smallint true 0) do
    return .Smallint false (← ReadInt16)
  | .Int .. => read_nullable (.Int true 0) do
    return .Int false (← ReadInt32)
  | .Bigint .. => read_nullable (.Bigint true 0) do
    return .Bigint false (← ReadInt64)
  | .Money p s .. => read_nullable (.Money p s true []) do
    return .Money p s false (← ReadStringAsBytes)
  | .Numeric p s .. => read_nullable (.Numeric p s true []) do
    return .Numeric p s false (← ReadStringAsBytes)
  | .Float .. => read_nullable (.Float true ⟨0⟩) do
    return .Float false (← ReadFloat64)
  | .Date .. => read_nullable (.Date true zero_time) do
    let delta_days ← ReadUint32
    return .Date false (time_Unix (UNIX_SEC_LOWEST + delta_days.toNat * SECONDS_PER_DAY) 0)
  | .Time .. => read_nullable (.Time true zero_time) do
    let sz ← ReadArrayHeader
    GoM.assert (sz = 2)
    let delta_seconds ← ReadUint32
    let delta_ns ← ReadUint32
    return .Time false (time_Unix (UNIX_SEC_1900_01_01 + delta_seconds.toNat) delta_ns.toNat)
  | .Datetime .. => read_nullable (.Datetime true zero_time) do
    let sz ← ReadArrayHeader
    GoM.assert (sz = 3)
    let delta_days ← ReadUint32
    let delta_seconds ← ReadUint32
    let delta_ns ← ReadUint32
    return .Datetime false (time_Unix (UNIX_SEC_LOWEST + delta_days.toNat * SECONDS_PER_DAY +
      delta_seconds.toNat) delta_ns.toNat)

/-- A row being filled and the reader it is filled from. The row holds its
fields by pointer, so a failed fill keeps the fields filled before it. -/
structure Filling where
  mr : Reader
  row : List IField

instance : HasStream Filling := ⟨fun f => f.mr.input⟩

def on_reader {α : Type} (m : ReadM α) : GoM Filling α :=
  GoM.lift Filling.mr (fun r f => { f with mr := r }) (fun _ => rfl) (fun _ _ => rfl) m

/-- The range loop of Fill_row_with_values over the fields after `done`. -/
def fill_fields (done : List IField) : List IField → GoM Filling Unit
  | [] => pure ()
  | field :: todo => do
    let field' ← on_reader (read_value field)
    GoM.modify (fun f => { f with row := done ++ field' :: todo }) fun _ => rfl
    fill_fields (done ++ [field']) todo

def Fill_row_with_values : GoM Filling Unit := do
  let row_size ← on_reader ReadArrayHeader
  let f ← GoM.get
  GoM.assert (f.row.length = row_size.toNat)
  fill_fields [] f.row

end Rsql.Rsqlib
