import Rsql.Rsqlib.Field
import Rsql.Msgp.Writer

/-! The session of package rsqlib: the connection's msgpack reader and
writer, and the primitives the batch engine calls on them. -/
namespace Rsql.Rsqlib

open Msgp

def BATCH_TEXT_SIZE_MAX : Nat := 100000

def RESTYP_LOGIN_FAILED : UInt8 := 0
def RESTYP_LOGIN_SUCCESS : UInt8 := 1
def RESTYP_RECORD_LAYOUT : UInt8 := 3
def RESTYP_RECORD : UInt8 := 4
def RESTYP_RECORD_FINISHED : UInt8 := 5
def RESTYP_EXECUTION_FINISHED : UInt8 := 7
def RESTYP_PRINT : UInt8 := 10
def RESTYP_MESSAGE : UInt8 := 11
def RESTYP_ERROR : UInt8 := 12
def RESTYP_BATCH_END : UInt8 := 14

def REQTYP_AUTH : UInt8 := 20
def REQTYP_BATCH : UInt8 := 21
def REQTYP_KEEPALIVE : UInt8 := 30

structure Session where
  mr : Reader
  mw : Writer
  /-- How the network answers the writes and flushes of `mw`. -/
  net : Net

instance : HasStream Session := ⟨fun s => s.mr.input⟩

/-- The fields of an error record; a key absent from the record leaves its
zero value. -/
structure Error_info where
  src_file : Bytes := []
  src_line_no : Int64 := 0
  src_funcname : Bytes := []
  src_backtrace : Bytes := []
  category : Bytes := []
  message : Bytes := []
  severity : Bytes := []
  state : Int64 := 0
  text : Bytes := []
  line_no : Int64 := 0
  line_pos : Int64 := 0
  deriving DecidableEq, Repr

/-- The bytes of an ASCII string literal. -/
def ascii (s : String) : Bytes := s.toList.map fun c => c.toNat.toUInt8

/-- The switch on the key of one map entry: a known key reads its value into
its field; an unknown key reads nothing. -/
def read_error_entry (key : Bytes) (e : Error_info) : ReadM Error_info :=
  if key = ascii "src_file" then do return { e with src_file := ← ReadString }
  else if key = ascii "src_line_no" then do return { e with src_line_no := ← ReadInt64 }
  else if key = ascii "src_funcname" then do return { e with src_funcname := ← ReadString }
  else if key = ascii "src_backtrace" then do return { e with src_backtrace := ← ReadString }
  else if key = ascii "category" then do return { e with category := ← ReadString }
  else if key = ascii "message" then do return { e with message := ← ReadString }
  else if key = ascii "severity" then do return { e with severity := ← ReadString }
  else if key = ascii "state" then do return { e with state := ← ReadInt64 }
  else if key = ascii "text" then do return { e with text := ← ReadString }
  else if key = ascii "line_no" then do return { e with line_no := ← ReadInt64 }
  else if key = ascii "line_pos" then do return { e with line_pos := ← ReadInt64 }
  else return e

/-- The loop over the remaining `n` entries of the error map. -/
def read_error_entries : Nat → Error_info → ReadM Error_info
  | 0, e => pure e
  | n + 1, e => do
    let key ← ReadString
    let e ← read_error_entry key e
    read_error_entries n e

def Read_Error_info : ReadM Error_info := do
  let errobj_size ← ReadMapHeader
  read_error_entries errobj_size.toNat {}

def Read_response_type : ReadM UInt8 := ReadUint8

def Read_string : ReadM Bytes := ReadString

def Read_int64 : ReadM Int64 := ReadInt64

def Read_batch_end_RC : ReadM Int64 := ReadInt64

/-- Writes the request tag and the text, then flushes; the Writer's first
failure is the error. `none` when the encoder panics on a text longer than
MaxUint32. -/
def Send_batch (session : Session) (batch_text : Bytes) : Option (Option Error × Session) := do
  let mw ← WriteUint8 session.net session.mw REQTYP_BATCH
  let mw ← WriteStringFromBytes session.net mw batch_text
  let (err, mw) := Flush session.net mw
  let session := { session with mw := mw }
  match err with
  | some e => some (some (if BATCH_TEXT_SIZE_MAX < batch_text.length then .batch_too_large else e), session)
  | none => some (none, session)

/-- Send_batch only writes: the reader is the one it was given. -/
theorem Send_batch_mr {session session' : Session} {batch_text : Bytes} {err : Option Error}
    (hs : Send_batch session batch_text = some (err, session')) : session'.mr = session.mr := by
  simp only [Send_batch, Option.bind_eq_bind, Option.bind_eq_some] at hs
  obtain ⟨_, _, _, _, hs⟩ := hs
  split at hs <;> cases hs <;> rfl

/-- On a network that never fails, Send_batch of a text the encoder accepts
succeeds and leaves the writer healthy. -/
theorem Send_batch_reliable (session : Session) (batch_text : Bytes) (hnet : ∀ n, session.net n = none)
    (hd : session.mw.doomed = none) (hlen : batch_text.length ≤ MaxUint32) :
    ∃ session', Send_batch session batch_text = some (none, session') ∧ session'.mr = session.mr ∧
      session'.net = session.net ∧ session'.mw.doomed = none := by
  have hs : AppendStringFromBytes [] batch_text =
      some (AppendStringHeader [] (UInt32.ofNat batch_text.length) ++ batch_text) := by
    simp [AppendStringFromBytes, AppendString, Nat.not_lt.mpr hlen]
  simp [Send_batch, WriteUint8, WriteStringFromBytes, write_with, Flush, bw_write, hd, hnet, hs]

end Rsql.Rsqlib
