import Rsql.Go

/-! The msgpack encoder of package msgp: append-style functions over byte
slices. Multi-byte payloads are big-endian (`be_bytes`). Go's float32 and
float64 values travel as their IEEE bit patterns, so they are modelled by
those patterns. The encoders that panic on oversized input return `none`. -/
namespace Rsql.Msgp

def M_NIL : UInt8 := 0xc0
def M_FALSE : UInt8 := 0xc2
def M_TRUE : UInt8 := 0xc3
def M_UINT8 : UInt8 := 0xcc
def M_UINT16 : UInt8 := 0xcd
def M_UINT32 : UInt8 := 0xce
def M_UINT64 : UInt8 := 0xcf
def M_INT8 : UInt8 := 0xd0
def M_INT16 : UInt8 := 0xd1
def M_INT32 : UInt8 := 0xd2
def M_INT64 : UInt8 := 0xd3
def M_FLOAT32 : UInt8 := 0xca
def M_FLOAT64 : UInt8 := 0xcb
def M_FIXSTR_BASE : UInt8 := 0xa0
def M_STR8 : UInt8 := 0xd9
def M_STR16 : UInt8 := 0xda
def M_STR32 : UInt8 := 0xdb
def M_BIN8 : UInt8 := 0xc4
def M_BIN16 : UInt8 := 0xc5
def M_BIN32 : UInt8 := 0xc6
def M_FIXARRAY_BASE : UInt8 := 0x90
def M_ARRAY16 : UInt8 := 0xdc
def M_ARRAY32 : UInt8 := 0xdd
def M_FIXMAP_BASE : UInt8 := 0x80
def M_MAP16 : UInt8 := 0xde
def M_MAP32 : UInt8 := 0xdf
def M_NEGATIVE_FIXINT_BASE : UInt8 := 0xe0

def PREFIX_FIXSTR_MASK : UInt8 := 0xe0
def PREFIX_FIXARRAY_MASK : UInt8 := 0xf0
def PREFIX_FIXMAP_MASK : UInt8 := 0xf0

def MaxUint8 : Nat := 255
def MaxUint16 : Nat := 65535
def MaxUint32 : Nat := 4294967295
def MinInt8 : Int := -128
def MaxInt8 : Int := 127
def MinInt16 : Int := -32768
def MaxInt16 : Int := 32767
def MinInt32 : Int := -2147483648
def MaxInt32 : Int := 2147483647

/-- Go's float32, as the bit pattern math.Float32bits gives. -/
structure Float32 where
  bits : UInt32
  deriving DecidableEq, Repr

/-- Go's float64, as the bit pattern math.Float64bits gives. -/
structure Float64 where
  bits : UInt64
  deriving DecidableEq, Repr

/-- The `n` low-order bytes of `v`, most significant first:
`uint8(v>>(8*(n-1))), ..., uint8(v>>8), uint8(v)`. -/
def be_bytes : Nat → Nat → Bytes
  | 0, _ => []
  | n + 1, v => be_bytes n (v / 256) ++ [UInt8.ofNat v]

def AppendNil (dest : Bytes) : Bytes := dest ++ [M_NIL]

def AppendBool (dest : Bytes) (val : Bool) : Bytes :=
  dest ++ [if val then M_TRUE else M_FALSE]

def AppendUint64 (dest : Bytes) (val : UInt64) : Bytes :=
  if val.toNat ≤ 127 then dest ++ [UInt8.ofNat val.toNat]
  else if val.toNat ≤ MaxUint8 then dest ++ M_UINT8 :: be_bytes 1 val.toNat
  else if val.toNat ≤ MaxUint16 then dest ++ M_UINT16 :: be_bytes 2 val.toNat
  else if val.toNat ≤ MaxUint32 then dest ++ M_UINT32 :: be_bytes 4 val.toNat
  else dest ++ M_UINT64 :: be_bytes 8 val.toNat

def AppendUint8 (dest : Bytes) (val : UInt8) : Bytes := AppendUint64 dest val.toUInt64

def AppendUint16 (dest : Bytes) (val : UInt16) : Bytes := AppendUint64 dest val.toUInt64

def AppendUint32 (dest : Bytes) (val : UInt32) : Bytes := AppendUint64 dest val.toUInt64

/-- The byte slices are those of the two's complement pattern `val.toNat`:
`uint8(val>>k)` drops the sign bits the arithmetic shift brings in. -/
def AppendInt64 (dest : Bytes) (val : Int64) : Bytes :=
  if 0 ≤ val.toInt then
    if val.toInt ≤ 127 then dest ++ [UInt8.ofNat val.toNat]
    else if val.toInt ≤ MaxInt16 then dest ++ M_INT16 :: be_bytes 2 val.toNat
    else if val.toInt ≤ MaxInt32 then dest ++ M_INT32 :: be_bytes 4 val.toNat
    else dest ++ M_INT64 :: be_bytes 8 val.toNat
  else
    if -32 ≤ val.toInt then dest ++ [UInt8.ofNat val.toNat]
    else if MinInt8 ≤ val.toInt then dest ++ M_INT8 :: be_bytes 1 val.toNat
    else if MinInt16 ≤ val.toInt then dest ++ M_INT16 :: be_bytes 2 val.toNat
    else if MinInt32 ≤ val.toInt then dest ++ M_INT32 :: be_bytes 4 val.toNat
    else dest ++ M_INT64 :: be_bytes 8 val.toNat

def AppendInt8 (dest : Bytes) (val : BitVec 8) : Bytes := AppendInt64 dest (val.signExtend 64)

def AppendInt16 (dest : Bytes) (val : BitVec 16) : Bytes := AppendInt64 dest (val.signExtend 64)

def AppendInt32 (dest : Bytes) (val : BitVec 32) : Bytes := AppendInt64 dest (val.signExtend 64)

def AppendFloat32 (dest : Bytes) (f : Float32) : Bytes :=
  dest ++ M_FLOAT32 :: be_bytes 4 f.bits.toNat

def AppendFloat64 (dest : Bytes) (f : Float64) : Bytes :=
  dest ++ M_FLOAT64 :: be_bytes 8 f.bits.toNat

def AppendStringHeader (dest : Bytes) (sz : UInt32) : Bytes :=
  if sz.toNat ≤ 31 then dest ++ [M_FIXSTR_BASE ||| sz.toUInt8]
  else if sz.toNat ≤ MaxUint8 then dest ++ M_STR8 :: be_bytes 1 sz.toNat
  else if sz.toNat ≤ MaxUint16 then dest ++ M_STR16 :: be_bytes 2 sz.toNat
  else dest ++ M_STR32 :: be_bytes 4 sz.toNat

def AppendBytesHeader (dest : Bytes) (sz : UInt32) : Bytes :=
  if sz.toNat ≤ MaxUint8 then dest ++ M_BIN8 :: be_bytes 1 sz.toNat
  else if sz.toNat ≤ MaxUint16 then dest ++ M_BIN16 :: be_bytes 2 sz.toNat
  else dest ++ M_BIN32 :: be_bytes 4 sz.toNat

/-- AppendArrayHeader and AppendMapHeader: a fix format for sizes up to 15,
then a 16 and a 32 bit size. -/
def append_container_header (base tag16 tag32 : UInt8) (dest : Bytes) (sz : UInt32) : Bytes :=
  if sz.toNat ≤ 15 then dest ++ [base ||| sz.toUInt8]
  else if sz.toNat ≤ MaxUint16 then dest ++ tag16 :: be_bytes 2 sz.toNat
  else dest ++ tag32 :: be_bytes 4 sz.toNat

def AppendArrayHeader (dest : Bytes) (sz : UInt32) : Bytes :=
  append_container_header M_FIXARRAY_BASE M_ARRAY16 M_ARRAY32 dest sz

def AppendMapHeader (dest : Bytes) (sz : UInt32) : Bytes :=
  append_container_header M_FIXMAP_BASE M_MAP16 M_MAP32 dest sz

/-- Panics ("msgp: string too long") when `len(s) > MaxUint32`. -/
def AppendString (dest : Bytes) (s : Bytes) : Option Bytes :=
  if MaxUint32 < s.length then none
  else some (AppendStringHeader dest (UInt32.ofNat s.length) ++ s)

/-- The same bytes as `AppendString`: a Go string and a byte slice hold the same bytes. -/
def AppendStringFromBytes (dest : Bytes) (s : Bytes) : Option Bytes := AppendString dest s

/-- Panics ("msgp: byte slice too long") when `len(bts) > MaxUint32`. -/
def AppendBytes (dest : Bytes) (bts : Bytes) : Option Bytes :=
  if MaxUint32 < bts.length then none
  else some (AppendBytesHeader dest (UInt32.ofNat bts.length) ++ bts)

/-- The dynamic types AppendSimpleType accepts, in the order of its type
switch; a nil interface is `nil`. Go's uint and int are 64 bits wide. -/
inductive Simple where
  | nil
  | string (s : Bytes)
  | bytes (b : Bytes)
  | bool (b : Bool)
  | uint (v : UInt64)
  | uint8 (v : UInt8)
  | uint16 (v : UInt16)
  | uint32 (v : UInt32)
  | uint64 (v : UInt64)
  | int8 (v : BitVec 8)
  | int16 (v : BitVec 16)
  | int32 (v : BitVec 32)
  | int64 (v : Int64)
  | int (v : Int64)
  | float32 (f : Float32)
  | float64 (f : Float64)
  deriving DecidableEq, Repr

def AppendSimpleType (dest : Bytes) : Simple → Option Bytes
  | .nil => some (AppendNil dest)
  | .string s => AppendString dest s
  | .bytes b => AppendBytes dest b
  | .bool b => some (AppendBool dest b)
  | .uint v => some (AppendUint64 dest v)
  | .uint8 v => some (AppendUint8 dest v)
  | .uint16 v => some (AppendUint16 dest v)
  | .uint32 v => some (AppendUint32 dest v)
  | .uint64 v => some (AppendUint64 dest v)
  | .int8 v => some (AppendInt8 dest v)
  | .int16 v => some (AppendInt16 dest v)
  | .int32 v => some (AppendInt32 dest v)
  | .int64 v => some (AppendInt64 dest v)
  | .int v => some (AppendInt64 dest v)
  | .float32 f => some (AppendFloat32 dest f)
  | .float64 f => some (AppendFloat64 dest f)

/-- Appends each pair with `append` after the header; Go's map iteration
order is the order of `entries`. Panics when there are more than MaxUint32. -/
def AppendPairs {α β : Type} (append : Bytes → α × β → Option Bytes)
    (dest : Bytes) (entries : List (α × β)) : Option Bytes :=
  if MaxUint32 < entries.length then none
  else entries.foldlM append (AppendMapHeader dest (UInt32.ofNat entries.length))

def AppendMapStrStr (dest : Bytes) (m : List (Bytes × Bytes)) : Option Bytes :=
  AppendPairs (fun d kv => AppendString d kv.1 >>= fun d => AppendString d kv.2) dest m

def AppendMapStrSimpleType (dest : Bytes) (m : List (Bytes × Simple)) : Option Bytes :=
  AppendPairs (fun d kv => AppendString d kv.1 >>= fun d => AppendSimpleType d kv.2) dest m

/-- Panics ("msgp: args count must be even") on an odd number of arguments. -/
def AppendMapStrStrFromList (dest : Bytes) (args : List Bytes) : Option Bytes :=
  if args.length % 2 ≠ 0 then none
  else AppendMapStrStr dest ((List.range (args.length / 2)).map
    fun i => (args.getD (2 * i) [], args.getD (2 * i + 1) []))

end Rsql.Msgp
