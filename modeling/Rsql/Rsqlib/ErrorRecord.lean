import Rsql.Msgp.Maps
import Rsql.Rsqlib.Session

/-! Error records as Read_Error_info reads them. The switch on the key has no
default case, so the value of an unknown key is left in the stream. -/
namespace Rsql.Rsqlib

open Msgp GoM

theorem read_error_entry_unknown (e : Error_info) :
    read_error_entry (ascii "x") e = pure e := rfl

/-- An entry under an unknown key: Read_Error_info reads the header and the
key, and stops before the key's value. -/
theorem Read_Error_info_leaves_unknown_value (rest scratch : Bytes) :
    AppendMapStrSimpleType [] [(ascii "x", .nil)] = some [0x81, 0xa1, 0x78, 0xc0] ∧
    ∃ sc, Read_Error_info.run ⟨[0x81, 0xa1, 0x78, 0xc0] ++ rest, scratch⟩ = .ok {} ⟨0xc0 :: rest, sc⟩ := by
  have hkey : Decodes ReadString [0xa1, 0x78] (ascii "x") := ReadString_AppendString (by decide)
  have hread : Decodes Read_Error_info [0x81, 0xa1, 0x78] {} :=
    (ReadMapHeader_AppendMapHeader 1).bind (hkey.bind_nil ((read_error_entry_unknown {}).symm ▸
      (Decodes.pure rfl).bind_nil (Decodes.pure rfl)))
  rw [show [0x81, 0xa1, 0x78, 0xc0] ++ rest = [0x81, 0xa1, 0x78] ++ 0xc0 :: rest from rfl]
  exact ⟨by decide, hread (0xc0 :: rest) scratch⟩

/-! ### Records under the known keys -/

/-- An entry of an error record under one of the eleven keys the switch of
Read_Error_info knows, with its value: a string, or an int64 for the line
numbers and the state. -/
inductive ErrorEntry where
  | src_file (v : Bytes)
  | src_line_no (v : Int64)
  | src_funcname (v : Bytes)
  | src_backtrace (v : Bytes)
  | category (v : Bytes)
  | message (v : Bytes)
  | severity (v : Bytes)
  | state (v : Int64)
  | text (v : Bytes)
  | line_no (v : Int64)
  | line_pos (v : Int64)

namespace ErrorEntry

def key : ErrorEntry → Bytes
  | .src_file _ => ascii "src_file"
  | .src_line_no _ => ascii "src_line_no"
  | .src_funcname _ => ascii "src_funcname"
  | .src_backtrace _ => ascii "src_backtrace"
  | .category _ => ascii "category"
  | .message _ => ascii "message"
  | .severity _ => ascii "severity"
  | .state _ => ascii "state"
  | .text _ => ascii "text"
  | .line_no _ => ascii "line_no"
  | .line_pos _ => ascii "line_pos"

def value : ErrorEntry → Simple
  | .src_file v | .src_funcname v | .src_backtrace v | .category v | .message v | .severity v | .text v => .string v
  | .src_line_no v | .state v | .line_no v | .line_pos v => .int64 v

/-- The record with the entry's field set to its value. -/
def set (info : Error_info) : ErrorEntry → Error_info
  | .src_file v => { info with src_file := v }
  | .src_line_no v => { info with src_line_no := v }
  | .src_funcname v => { info with src_funcname := v }
  | .src_backtrace v => { info with src_backtrace := v }
  | .category v => { info with category := v }
  | .message v => { info with message := v }
  | .severity v => { info with severity := v }
  | .state v => { info with state := v }
  | .text v => { info with text := v }
  | .line_no v => { info with line_no := v }
  | .line_pos v => { info with line_pos := v }

end ErrorEntry

/-- The switch reads the value of a known key into its field. -/
theorem read_error_entry_decodes (info : Error_info) :
    ∀ (e : ErrorEntry) {enc : Bytes}, AppendSimpleType [] e.value = some enc →
      Decodes (read_error_entry e.key info) enc (ErrorEntry.set info e)
  | .src_file _, _, h | .src_funcname _, _, h | .src_backtrace _, _, h | .category _, _, h
  | .message _, _, h | .severity _, _, h | .text _, _, h => (ReadString_AppendString h).bind_pure rfl
  | .src_line_no v, _, h | .state v, _, h | .line_no v, _, h | .line_pos v, _, h => by
    cases h
    exact (ReadInt64_AppendInt64 v).bind_pure rfl

/-- The entry loop over the known entries `es`, then `n` more entries. -/
theorem read_error_entries_then {n : Nat} {enc' : Bytes} {r : Error_info} :
    ∀ (es : List ErrorEntry) (info : Error_info) {enc : Bytes},
      append_each (entry_piece AppendSimpleType) (es.map fun e => (e.key, e.value)) = some enc →
      Decodes (read_error_entries n (es.foldl ErrorEntry.set info)) enc' r →
        Decodes (read_error_entries (es.length + n) info) (enc ++ enc') r
  | [], info, _, h, hn => by
    cases h
    simpa using hn
  | e :: es, info, _, h, hn => by
    simp only [List.map_cons, append_each, entry_piece, Option.bind_eq_bind, Option.bind_eq_some,
      Option.map_eq_some'] at h
    obtain ⟨_, ⟨ek, hk, ev, hv, rfl⟩, body, hbody, rfl⟩ := h
    rw [List.length_cons, Nat.add_right_comm, List.append_assoc, List.append_assoc]
    exact (ReadString_AppendString hk).bind
      ((read_error_entry_decodes info e hv).bind (read_error_entries_then es _ hbody hn))

theorem AppendMapStrSimpleType_inv {m : List (Bytes × Simple)} {enc : Bytes}
    (accepted : AppendMapStrSimpleType [] m = some enc) :
    ∃ body, m.length ≤ MaxUint32 ∧ append_each (entry_piece AppendSimpleType) m = some body ∧
      enc = AppendMapHeader [] (UInt32.ofNat m.length) ++ body := by
  rw [AppendMapStrSimpleType, AppendPairs_eq (entry_dest AppendSimpleType_dest)] at accepted
  simp only [Option.ite_none_left_eq_some, Option.map_eq_some'] at accepted
  obtain ⟨hlen, body, hbody, rfl⟩ := accepted
  exact ⟨body, Nat.le_of_not_lt hlen, hbody, rfl⟩

/-- The header of a map of `n` entries, then what the entry loop reads. -/
theorem Read_Error_info_header {n : Nat} {enc : Bytes} {r : Error_info} (hn : n ≤ MaxUint32)
    (h : Decodes (read_error_entries n {}) enc r) :
    Decodes Read_Error_info (AppendMapHeader [] (UInt32.ofNat n) ++ enc) r := by
  have e : (UInt32.ofNat n).toNat = n := by simp [MaxUint32] at hn ⊢; omega
  refine (ReadMapHeader_AppendMapHeader _).bind ?_
  rw [e]
  exact h

theorem read_error_entry_of_unknown {key : Bytes} (hkey : ∀ e : ErrorEntry, e.key ≠ key)
    (info : Error_info) : read_error_entry key info = pure info := by
  have k : ∀ e : ErrorEntry, key ≠ e.key := fun e => (hkey e).symm
  rw [read_error_entry, if_neg (show key ≠ ascii "src_file" from k (.src_file [])),
    if_neg (show key ≠ ascii "src_line_no" from k (.src_line_no 0)),
    if_neg (show key ≠ ascii "src_funcname" from k (.src_funcname [])),
    if_neg (show key ≠ ascii "src_backtrace" from k (.src_backtrace [])),
    if_neg (show key ≠ ascii "category" from k (.category [])), if_neg (show key ≠ ascii "message" from k (.message [])),
    if_neg (show key ≠ ascii "severity" from k (.severity [])), if_neg (show key ≠ ascii "state" from k (.state 0)),
    if_neg (show key ≠ ascii "text" from k (.text [])), if_neg (show key ≠ ascii "line_no" from k (.line_no 0)),
    if_neg (show key ≠ ascii "line_pos" from k (.line_pos 0))]

/-- A record whose last entry is under a key the switch does not know:
Read_Error_info reads the entries before it and that key, and returns
without reading its value. -/
theorem Read_Error_info_unknown_last (es : List ErrorEntry) {key : Bytes}
    (hkey : ∀ e : ErrorEntry, e.key ≠ key) {v : Simple} {enc ev : Bytes} (hv : AppendSimpleType [] v = some ev)
    (accepted : AppendMapStrSimpleType [] (es.map (fun e => (e.key, e.value)) ++ [(key, v)]) = some enc) :
    ∃ pre, enc = pre ++ ev ∧ Decodes Read_Error_info pre (es.foldl ErrorEntry.set {}) := by
  obtain ⟨body, hlen, hbody, rfl⟩ := AppendMapStrSimpleType_inv accepted
  obtain ⟨ees, eu, hes, hu, rfl⟩ := append_each_append hbody
  simp only [append_each, entry_piece, Option.bind_eq_bind, Option.bind_eq_some, Option.map_eq_some', hv,
    Option.some.injEq] at hu
  obtain ⟨_, ⟨ek, hk, _, rfl, rfl⟩, _, rfl, rfl⟩ := hu
  have hlast : Decodes (read_error_entries 1 (es.foldl ErrorEntry.set {})) ek (es.foldl ErrorEntry.set {}) :=
    (ReadString_AppendString hk).bind_nil (by
      rw [read_error_entry_of_unknown hkey]
      exact (Decodes.pure rfl).bind_nil (Decodes.pure rfl))
  rw [List.length_append, List.length_map, List.length_singleton] at hlen ⊢
  exact ⟨_, by simp, Read_Error_info_header hlen (read_error_entries_then es {} hes hlast)⟩

/-- Read_Error_info reads back every error record written under known keys. -/
theorem Read_Error_info_known_keys (es : List ErrorEntry) (enc : Bytes)
    (accepted : AppendMapStrSimpleType [] (es.map fun e => (e.key, e.value)) = some enc) :
    Decodes Read_Error_info enc (es.foldl ErrorEntry.set {}) := by
  obtain ⟨body, hlen, hbody, rfl⟩ := AppendMapStrSimpleType_inv accepted
  have hes := read_error_entries_then (n := 0) es {} hbody (Decodes.pure rfl)
  rw [Nat.add_zero, List.append_nil] at hes
  rw [List.length_map] at hlen ⊢
  exact Read_Error_info_header hlen hes

/-- A record with the state twice: the second value wins. -/
theorem Read_Error_info_known_keys_state :
    AppendMapStrSimpleType [] ([ErrorEntry.state 1, .state 2].map fun e => (e.key, e.value)) =
      some ([0x82, 0xa5] ++ ascii "state" ++ [1, 0xa5] ++ ascii "state" ++ [2]) ∧
    Decodes Read_Error_info ([0x82, 0xa5] ++ ascii "state" ++ [1, 0xa5] ++ ascii "state" ++ [2]) { state := 2 } :=
  ⟨by decide, Read_Error_info_known_keys [.state 1, .state 2] _ (by decide)⟩

end Rsql.Rsqlib
