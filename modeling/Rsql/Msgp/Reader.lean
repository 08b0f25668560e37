import Rsql.Msgp.Encode

/-! The msgpack decoder of package msgp (msgp_reader.go). A `Reader` is the
bytes its bufio.Reader will still deliver and its scratch buffer; reading
past the end of the stream is io.EOF. Every read is a `ReadM`, so none of
them gives back bytes it consumed. -/
namespace Rsql.Msgp

structure Reader where
  /-- The bytes the underlying bufio.Reader has not delivered yet. -/
  input : Bytes
  scratch : Bytes
  deriving DecidableEq, Repr

instance : HasStream Reader := ⟨Reader.input⟩

abbrev ReadM := GoM Reader

/-- msgp.Type, the classes NextType sorts a prefix byte into. -/
inductive MsgpType where
  | InvalidType
  | BinType
  | StrType
  | NilType
  | BoolType
  | UintType
  | IntType
  | Float32Type
  | Float64Type
  | ArrayType
  | MapType
  deriving DecidableEq, Repr

/-- The big-endian value of a byte slice: `uint64(b[0])<<56 | ... | uint64(b[7])`. -/
def be_value (bs : Bytes) : Nat := bs.foldl (fun acc b => acc * 256 + b.toNat) 0

/-- Reads exactly `n` bytes (io.ReadFull). A short stream is consumed whole and
gives io.EOF when it was empty, io.ErrUnexpectedEOF otherwise. The destination
buffer only decides where the bytes are stored, so it is not modelled. -/
def ReadNBytes (n : Nat) : ReadM Bytes where
  run r := if n ≤ r.input.length then .ok (r.input.take n) { r with input := r.input.drop n }
    else .error (if r.input = [] then .eof else .unexpected_eof) { r with input := [] }
  within r := by
    dsimp only
    split <;> simp [Result.Within, HasStream.unread]

def read_N (n : Nat) : ReadM Bytes := do
  let buff ← ReadNBytes n
  GoM.modify (fun r => { r with scratch := buff }) fun _ => rfl
  return buff

def peek_byte : ReadM UInt8 where
  run r := match r.input with
    | [] => .error .eof r
    | b :: _ => .ok b r
  within r := by
    dsimp only
    split <;> exact le_refl _

def read_prefix : ReadM UInt8 := do
  let buff ← read_N 1
  return buff.headD 0

/-- read_raw_uint8/16/32/64: the big-endian value of the next `n` bytes. -/
def read_raw (n : Nat) : ReadM Nat := do
  let buff ← read_N n
  return be_value buff

def read_raw_uint8 : ReadM UInt8 := UInt8.ofNat <$> read_raw 1
def read_raw_uint16 : ReadM UInt16 := UInt16.ofNat <$> read_raw 2
def read_raw_uint32 : ReadM UInt32 := UInt32.ofNat <$> read_raw 4
def read_raw_uint64 : ReadM UInt64 := UInt64.ofNat <$> read_raw 8

/-- read_raw_int8/16/32/64: `intN(val_N)` keeps the bits of the unsigned read. -/
def read_raw_int (w : Nat) : ReadM (BitVec (8 * w)) := BitVec.ofNat (8 * w) <$> read_raw w

def first_bits_4 (b : UInt8) : UInt8 := b &&& 0x0f
def first_bits_5 (b : UInt8) : UInt8 := b &&& 0x1f

def ReadNil : ReadM Unit := do
  let p ← read_prefix
  if p = M_NIL then return () else GoM.throw ( Error.bad_prefix "read nil" p)

def ReadBool : ReadM Bool := do
  let p ← read_prefix
  if p = M_FALSE then return false
  else if p = M_TRUE then return true
  else GoM.throw ( Error.bad_prefix "read bool" p)

def ReadUint64 : ReadM UInt64 := do
  let p ← read_prefix
  if p.toNat ≤ 127 then return p.toUInt64
  else if p = M_UINT8 then return (← read_raw_uint8).toUInt64
  else if p = M_UINT16 then return (← read_raw_uint16).toUInt64
  else if p = M_UINT32 then return (← read_raw_uint32).toUInt64
  else if p = M_UINT64 then read_raw_uint64
  else GoM.throw ( Error.bad_prefix "read uint" p)

/-- ReadUint8/16/32: ReadUint64, then the overflow check against `max`. -/
def read_uint_narrow (funcname : String) (max : Nat) : ReadM UInt64 := do
  let v ← ReadUint64
  if max < v.toNat then GoM.throw (.overflow funcname v.toNat) else return v

def ReadUint8 : ReadM UInt8 := UInt64.toUInt8 <$> read_uint_narrow "ReadUint8" MaxUint8
def ReadUint16 : ReadM UInt16 := UInt64.toUInt16 <$> read_uint_narrow "ReadUint16" MaxUint16
def ReadUint32 : ReadM UInt32 := UInt64.toUInt32 <$> read_uint_narrow "ReadUint32" MaxUint32

theorem ReadNBytes_consumes {n : Nat} (hn : 0 < n) : (ReadNBytes n).Consumes := by
  intro r a r' h
  simp only [ReadNBytes] at h
  split at h
  · cases h
    simp only [HasStream.unread, List.length_drop]
    omega
  · cases h

theorem read_prefix_consumes : read_prefix.Consumes :=
  ((ReadNBytes_consumes Nat.one_pos).bind _).bind _

theorem ReadUint8_consumes : ReadUint8.Consumes :=
  ((read_prefix_consumes.bind _).bind _).map _

def ReadInt64 : ReadM Int64 := do
  let p ← read_prefix
  if p.toNat ≤ 127 then return BitVec.ofNat 64 p.toNat
  else if M_NEGATIVE_FIXINT_BASE ≤ p then return p.toBitVec.signExtend 64
  else if p = M_INT8 then return (← read_raw_int 1).signExtend 64
  else if p = M_INT16 then return (← read_raw_int 2).signExtend 64
  else if p = M_INT32 then return (← read_raw_int 4).signExtend 64
  else if p = M_INT64 then return (← read_raw_int 8).signExtend 64
  else GoM.throw ( Error.bad_prefix "read int" p)

/-- ReadInt8/16/32: ReadInt64, then the overflow check against `[lo, hi]`. -/
def read_int_narrow (funcname : String) (lo hi : Int) : ReadM Int64 := do
  let v ← ReadInt64
  if v.toInt < lo ∨ hi < v.toInt then GoM.throw (.overflow funcname v.toInt) else return v

def ReadInt8 : ReadM (BitVec 8) := BitVec.truncate 8 <$> read_int_narrow "ReadInt8" MinInt8 MaxInt8
def ReadInt16 : ReadM (BitVec 16) :=
  BitVec.truncate 16 <$> read_int_narrow "ReadInt16" MinInt16 MaxInt16
def ReadInt32 : ReadM (BitVec 32) :=
  BitVec.truncate 32 <$> read_int_narrow "ReadInt32" MinInt32 MaxInt32

def ReadFloat32 : ReadM Float32 := do
  let p ← read_prefix
  if p ≠ M_FLOAT32 then GoM.throw ( Error.bad_prefix "read float32" p)
  else return ⟨← read_raw_uint32⟩

def ReadFloat64 : ReadM Float64 := do
  let p ← read_prefix
  if p ≠ M_FLOAT64 then GoM.throw ( Error.bad_prefix "read float64" p)
  else return ⟨← read_raw_uint64⟩

def ReadStringHeader : ReadM UInt32 := do
  let p ← read_prefix
  if p &&& PREFIX_FIXSTR_MASK = M_FIXSTR_BASE then return (first_bits_5 p).toUInt32
  else if p = M_STR8 then return (← read_raw_uint8).toUInt32
  else if p = M_STR16 then return (← read_raw_uint16).toUInt32
  else if p = M_STR32 then read_raw_uint32
  else GoM.throw ( Error.bad_prefix "read string" p)

def ReadBytesHeader : ReadM UInt32 := do
  let p ← read_prefix
  if p = M_BIN8 then return (← read_raw_uint8).toUInt32
  else if p = M_BIN16 then return (← read_raw_uint16).toUInt32
  else if p = M_BIN32 then read_raw_uint32
  else GoM.throw ( Error.bad_prefix "read bin" p)

/-- ReadArrayHeader and ReadMapHeader: the fix format in the low 4 bits, then
a 16 and a 32 bit size. -/
def read_container_header (mask base tag16 tag32 : UInt8) (funcname : String) : ReadM UInt32 := do
  let p ← read_prefix
  if p &&& mask = base then return (first_bits_4 p).toUInt32
  else if p = tag16 then return (← read_raw_uint16).toUInt32
  else if p = tag32 then read_raw_uint32
  else GoM.throw ( Error.bad_prefix funcname p)

def ReadArrayHeader : ReadM UInt32 :=
  read_container_header PREFIX_FIXARRAY_MASK M_FIXARRAY_BASE M_ARRAY16 M_ARRAY32 "read array"

def ReadMapHeader : ReadM UInt32 :=
  read_container_header PREFIX_FIXMAP_MASK M_FIXMAP_BASE M_MAP16 M_MAP32 "read map"

def ReadStringAsBytes : ReadM Bytes := do
  let sz ← ReadStringHeader
  ReadNBytes sz.toNat

/-- The string is read into the scratch buffer, then copied out. -/
def ReadString : ReadM Bytes := do
  let buff ← ReadStringAsBytes
  GoM.modify (fun r => { r with scratch := buff }) fun _ => rfl
  return buff

def ReadBytes : ReadM Bytes := do
  let sz ← ReadBytesHeader
  ReadNBytes sz.toNat

/-- The classification of NextType, on the peeked prefix byte. -/
def next_type_of (p : UInt8) : MsgpType :=
  if p.toNat ≤ 127 then .IntType
  else if M_NEGATIVE_FIXINT_BASE ≤ p then .IntType
  else if p &&& PREFIX_FIXSTR_MASK = M_FIXSTR_BASE then .StrType
  else if p &&& PREFIX_FIXARRAY_MASK = M_FIXARRAY_BASE then .ArrayType
  else if p &&& PREFIX_FIXMAP_MASK = M_FIXMAP_BASE then .MapType
  else if p = M_NIL then .NilType
  else if p = M_FALSE ∨ p = M_TRUE then .BoolType
  else if p = M_BIN8 ∨ p = M_BIN16 ∨ p = M_BIN32 then .BinType
  else if p = M_FLOAT32 then .Float32Type
  else if p = M_FLOAT64 then .Float64Type
  else if p = M_UINT8 ∨ p = M_UINT16 ∨ p = M_UINT32 ∨ p = M_UINT64 then .UintType
  else if p = M_INT8 ∨ p = M_INT16 ∨ p = M_INT32 ∨ p = M_INT64 then .IntType
  else if p = M_STR8 ∨ p = M_STR16 ∨ p = M_STR32 then .StrType
  else if p = M_ARRAY16 ∨ p = M_ARRAY32 then .ArrayType
  else if p = M_MAP16 ∨ p = M_MAP32 then .MapType
  else .InvalidType

def NextType : ReadM MsgpType := do
  let p ← peek_byte
  return next_type_of p

/-- The dynamic types ReadSimpleType returns. -/
inductive SimpleValue where
  | nil
  | bool (b : Bool)
  | uint64 (v : UInt64)
  | int64 (v : Int64)
  | float32 (f : Float32)
  | float64 (f : Float64)
  | bytes (b : Bytes)
  | string (s : Bytes)
  deriving DecidableEq, Repr

def ReadSimpleType : ReadM SimpleValue := do
  match ← NextType with
  | .NilType => do ReadNil; return .nil
  | .BoolType => .bool <$> ReadBool
  | .UintType => .uint64 <$> ReadUint64
  | .IntType => .int64 <$> ReadInt64
  | .Float32Type => .float32 <$> ReadFloat32
  | .Float64Type => .float64 <$> ReadFloat64
  | .BinType => .bytes <$> ReadBytes
  | .StrType => .string <$> ReadString
  | _ => GoM.throw .type_not_supported

end Rsql.Msgp
