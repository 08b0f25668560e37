import Rsql.Msgp.Encode

/-! The msgpack Writer of package msgp. Each write method encodes one value
into the staging buffer and hands it to the underlying bufio.Writer; the
first error that writer returns dooms the Writer for good. The bufio.Writer
itself is the environment: `Net` says how it answers each call, by the
call's number. -/
namespace Rsql.Msgp

/-- A call msgp.Writer makes on its bufio.Writer. -/
inductive BwCall where
  | write (bytes : Bytes)
  | flush
  deriving DecidableEq, Repr

structure Writer where
  staging : Bytes
  /-- If not nil, a Write() has failed. -/
  doomed : Option Error
  /-- The calls made on the underlying bufio.Writer, oldest first. -/
  calls : List BwCall
  deriving DecidableEq, Repr

/-- The underlying writer's answer to each call: `net k` is the error the
k-th call on it returns, `none` when it succeeds. -/
abbrev Net := Nat → Option Error

def NewWriter : Writer := ⟨[], none, []⟩

/-- `bw.Write(bytes)`: an error dooms the Writer. -/
def bw_write (net : Net) (mw : Writer) (bytes : Bytes) : Writer :=
  let mw' := { mw with calls := mw.calls ++ [.write bytes] }
  match net mw.calls.length with
  | some e => { mw' with doomed := some e }
  | none => mw'

/-- The Write* methods: nothing once doomed, else `append` encodes into the
staging buffer (`mw.staging[:0]`) and the buffer goes to `bw.Write`. An
encoder panic is `none`. -/
def write_with (append : Bytes → Option Bytes) (net : Net) (mw : Writer) : Option Writer :=
  if mw.doomed.isSome then some mw
  else (append []).map fun st => bw_write net { mw with staging := st } st

def WriteNil (net : Net) (mw : Writer) : Option Writer :=
  write_with (fun d => some (AppendNil d)) net mw
def WriteBool (net : Net) (mw : Writer) (val : Bool) : Option Writer :=
  write_with (fun d => some (AppendBool d val)) net mw
def WriteUint8 (net : Net) (mw : Writer) (val : UInt8) : Option Writer :=
  write_with (fun d => some (AppendUint8 d val)) net mw
def WriteUint16 (net : Net) (mw : Writer) (val : UInt16) : Option Writer :=
  write_with (fun d => some (AppendUint16 d val)) net mw
def WriteUint32 (net : Net) (mw : Writer) (val : UInt32) : Option Writer :=
  write_with (fun d => some (AppendUint32 d val)) net mw
def WriteUint64 (net : Net) (mw : Writer) (val : UInt64) : Option Writer :=
  write_with (fun d => some (AppendUint64 d val)) net mw
def WriteInt8 (net : Net) (mw : Writer) (val : BitVec 8) : Option Writer :=
  write_with (fun d => some (AppendInt8 d val)) net mw
def WriteInt16 (net : Net) (mw : Writer) (val : BitVec 16) : Option Writer :=
  write_with (fun d => some (AppendInt16 d val)) net mw
def WriteInt32 (net : Net) (mw : Writer) (val : BitVec 32) : Option Writer :=
  write_with (fun d => some (AppendInt32 d val)) net mw
def WriteInt64 (net : Net) (mw : Writer) (val : Int64) : Option Writer :=
  write_with (fun d => some (AppendInt64 d val)) net mw
def WriteFloat32 (net : Net) (mw : Writer) (val : Float32) : Option Writer :=
  write_with (fun d => some (AppendFloat32 d val)) net mw
def WriteFloat64 (net : Net) (mw : Writer) (val : Float64) : Option Writer :=
  write_with (fun d => some (AppendFloat64 d val)) net mw
def WriteString (net : Net) (mw : Writer) (val : Bytes) : Option Writer :=
  write_with (fun d => AppendString d val) net mw
def WriteStringFromBytes (net : Net) (mw : Writer) (val : Bytes) : Option Writer :=
  write_with (fun d => AppendStringFromBytes d val) net mw
def WriteBytes (net : Net) (mw : Writer) (val : Bytes) : Option Writer :=
  write_with (fun d => AppendBytes d val) net mw
def WriteStringHeader (net : Net) (mw : Writer) (sz : UInt32) : Option Writer :=
  write_with (fun d => some (AppendStringHeader d sz)) net mw
def WriteBytesHeader (net : Net) (mw : Writer) (sz : UInt32) : Option Writer :=
  write_with (fun d => some (AppendBytesHeader d sz)) net mw
def WriteArrayHeader (net : Net) (mw : Writer) (sz : UInt32) : Option Writer :=
  write_with (fun d => some (AppendArrayHeader d sz)) net mw
def WriteMapHeader (net : Net) (mw : Writer) (sz : UInt32) : Option Writer :=
  write_with (fun d => some (AppendMapHeader d sz)) net mw
def WriteSimpleType (net : Net) (mw : Writer) (i : Simple) : Option Writer :=
  write_with (fun d => AppendSimpleType d i) net mw
def WriteMapStrStr (net : Net) (mw : Writer) (arg : List (Bytes × Bytes)) : Option Writer :=
  write_with (fun d => AppendMapStrStr d arg) net mw
def WriteMapStrSimpleType (net : Net) (mw : Writer) (arg : List (Bytes × Simple)) :
    Option Writer :=
  write_with (fun d => AppendMapStrSimpleType d arg) net mw
def WriteMapStrStrFromList (net : Net) (mw : Writer) (args : List Bytes) : Option Writer :=
  write_with (fun d => AppendMapStrStrFromList d args) net mw

/-- Writes the staging buffer as it is, unless doomed. -/
def WriteStaging (net : Net) (mw : Writer) : Writer :=
  if mw.doomed.isSome then mw else bw_write net mw mw.staging

def SetStaging (mw : Writer) (staging_buff : Bytes) : Writer := { mw with staging := staging_buff }

/-- Returns the error of the first failed write or flush, if any. -/
def Flush (net : Net) (mw : Writer) : Option Error × Writer :=
  match mw.doomed with
  | some e => (some e, mw)
  | none =>
    let mw' := { mw with calls := mw.calls ++ [.flush] }
    match net mw.calls.length with
    | some e => (some e, { mw' with doomed := some e })
    | none => (none, mw')

/-- Writer.Error. -/
def error (mw : Writer) : Option Error := mw.doomed

/-- The methods of a Writer, with their arguments. -/
inductive Op where
  | WriteNil
  | WriteBool (val : Bool)
  | WriteUint8 (val : UInt8)
  | WriteUint16 (val : UInt16)
  | WriteUint32 (val : UInt32)
  | WriteUint64 (val : UInt64)
  | WriteInt8 (val : BitVec 8)
  | WriteInt16 (val : BitVec 16)
  | WriteInt32 (val : BitVec 32)
  | WriteInt64 (val : Int64)
  | WriteFloat32 (val : Float32)
  | WriteFloat64 (val : Float64)
  | WriteString (val : Bytes)
  | WriteStringFromBytes (val : Bytes)
  | WriteBytes (val : Bytes)
  | WriteStringHeader (sz : UInt32)
  | WriteBytesHeader (sz : UInt32)
  | WriteArrayHeader (sz : UInt32)
  | WriteMapHeader (sz : UInt32)
  | WriteSimpleType (i : Simple)
  | WriteMapStrStr (arg : List (Bytes × Bytes))
  | WriteMapStrSimpleType (arg : List (Bytes × Simple))
  | WriteMapStrStrFromList (args : List Bytes)
  | WriteStaging
  | SetStaging (staging_buff : Bytes)
  | Flush
  | Error

/-- One method call: the Writer after it and what it returned (the write
methods return nothing); `none` when it panics. -/
def exec (net : Net) (mw : Writer) : Op → Option (Writer × Option Error)
  | .WriteNil => (WriteNil net mw).map (·, none)
  | .WriteBool v => (WriteBool net mw v).map (·, none)
  | .WriteUint8 v => (WriteUint8 net mw v).map (·, none)
  | .WriteUint16 v => (WriteUint16 net mw v).map (·, none)
  | .WriteUint32 v => (WriteUint32 net mw v).map (·, none)
  | .WriteUint64 v => (WriteUint64 net mw v).map (·, none)
  | .WriteInt8 v => (WriteInt8 net mw v).map (·, none)
  | .WriteInt16 v => (WriteInt16 net mw v).map (·, none)
  | .WriteInt32 v => (WriteInt32 net mw v).map (·, none)
  | .WriteInt64 v => (WriteInt64 net mw v).map (·, none)
  | .WriteFloat32 v => (WriteFloat32 net mw v).map (·, none)
  | .WriteFloat64 v => (WriteFloat64 net mw v).map (·, none)
  | .WriteString v => (WriteString net mw v).map (·, none)
  | .WriteStringFromBytes v => (WriteStringFromBytes net mw v).map (·, none)
  | .WriteBytes v => (WriteBytes net mw v).map (·, none)
  | .WriteStringHeader sz => (WriteStringHeader net mw sz).map (·, none)
  | .WriteBytesHeader sz => (WriteBytesHeader net mw sz).map (·, none)
  | .WriteArrayHeader sz => (WriteArrayHeader net mw sz).map (·, none)
  | .WriteMapHeader sz => (WriteMapHeader net mw sz).map (·, none)
  | .WriteSimpleType i => (WriteSimpleType net mw i).map (·, none)
  | .WriteMapStrStr arg => (WriteMapStrStr net mw arg).map (·, none)
  | .WriteMapStrSimpleType arg => (WriteMapStrSimpleType net mw arg).map (·, none)
  | .WriteMapStrStrFromList args => (WriteMapStrStrFromList net mw args).map (·, none)
  | .WriteStaging => some (WriteStaging net mw, none)
  | .SetStaging b => some (SetStaging mw b, none)
  | .Flush => some ((Flush net mw).2, (Flush net mw).1)
  | .Error => some (mw, error mw)

/-- Calls in order; the final Writer and what each call returned, `none`
when a call panics. -/
def run (net : Net) : Writer → List Op → Option (Writer × List (Option Error))
  | mw, [] => some (mw, [])
  | mw, op :: ops => do
    let (mw₁, r) ← exec net mw op
    let (mw₂, rs) ← run net mw₁ ops
    return (mw₂, r :: rs)

end Rsql.Msgp
