import Mathlib.Data.List.Infix
import Rsql.Rsqlib.Field

/-! The functions of Go's strings, unicode and unicode/utf8 that package drv
calls. Go's case tables are not modelled: `Casing` is unicode.ToLower with the
properties the code relies on. -/
namespace Rsql.Drv

open Rsqlib (utf8_extra)

/-! ### unicode/utf8 -/

/-- utf8.RuneError, U+FFFD. -/
def RuneError : Char := Char.ofNat 0xFFFD

/-- utf8.EncodeRune of a Unicode scalar value. -/
def EncodeRune (c : Char) : Bytes :=
  let r := c.toNat
  if r < 0x80 then [.ofNat r]
  else if r < 0x800 then [.ofNat (0xC0 + r / 64), .ofNat (0x80 + r % 64)]
  else if r < 0x10000 then [.ofNat (0xE0 + r / 4096), .ofNat (0x80 + r / 64 % 64), .ofNat (0x80 + r % 64)]
  else [.ofNat (0xF0 + r / 262144), .ofNat (0x80 + r / 4096 % 64), .ofNat (0x80 + r / 64 % 64),
    .ofNat (0x80 + r % 64)]

/-- The rune utf8.DecodeRune reads at `c :: rest`; it spans
`utf8_extra c rest` bytes of `rest`. -/
def DecodeRune (c : UInt8) (rest : Bytes) : Char :=
  match utf8_extra c rest with
  | 0 => if c < 0x80 then Char.ofNat c.toNat else RuneError
  | 1 => Char.ofNat (c.toNat % 32 * 64 + (rest.getD 0 0).toNat % 64)
  | 2 => Char.ofNat (c.toNat % 16 * 4096 + (rest.getD 0 0).toNat % 64 * 64 + (rest.getD 1 0).toNat % 64)
  | _ => Char.ofNat (c.toNat % 8 * 262144 + (rest.getD 0 0).toNat % 64 * 4096 +
      (rest.getD 1 0).toNat % 64 * 64 + (rest.getD 2 0).toNat % 64)

/-! ### unicode -/

/-- The runes unicode.IsSpace accepts. -/
def space_chars : List Nat :=
  [0x09, 0x0A, 0x0B, 0x0C, 0x0D, 0x20, 0x85, 0xA0, 0x1680, 0x2000, 0x2001, 0x2002, 0x2003, 0x2004, 0x2005,
    0x2006, 0x2007, 0x2008, 0x2009, 0x200A, 0x2028, 0x2029, 0x202F, 0x205F, 0x3000]

def IsSpace (c : Char) : Bool := space_chars.contains c.toNat

/-- unicode.ToLower, with what the code relies on of Go's case tables. -/
structure Casing where
  ToLower : Char → Char
  ascii : ∀ c : Char, c.toNat < 0x80 →
    (ToLower c).toNat = if 0x41 ≤ c.toNat ∧ c.toNat ≤ 0x5A then c.toNat + 0x20 else c.toNat
  idem : ∀ c, ToLower (ToLower c) = ToLower c
  space : ∀ c, IsSpace (ToLower c) = IsSpace c
  into_ascii : ∀ c, (ToLower c).toNat < 0x80 → ¬ (0x61 ≤ (ToLower c).toNat ∧ (ToLower c).toNat ≤ 0x7A) →
    ToLower c = c

/-! ### strings -/

/-- strings.Map(mapping, s): every rune `range` reads, mapped and encoded. -/
def Map (mapping : Char → Char) : Bytes → Bytes
  | [] => []
  | c :: rest => EncodeRune (mapping (DecodeRune c rest)) ++ Map mapping (rest.drop (utf8_extra c rest))
termination_by s => s.length
decreasing_by simp only [List.length_drop, List.length_cons]; omega

/-- An ASCII letter in lower case, any other byte kept. -/
def ascii_lower (b : UInt8) : UInt8 := if 0x41 ≤ b ∧ b ≤ 0x5A then b + 0x20 else b

/-- strings.ToLower: byte by byte on an ASCII string, else Map(unicode.ToLower, s). -/
def ToLower (uc : Casing) (s : Bytes) : Bytes :=
  if s.all (· < 0x80) then s.map ascii_lower else Map uc.ToLower s

theorem ToLower_of_ascii (uc : Casing) {s : Bytes} (h : s.all (· < 0x80) = true) : ToLower uc s = s.map ascii_lower :=
  if_pos h

/-- The UTF-8 encodings of the runes unicode.IsSpace accepts. -/
def space_runes : List Bytes :=
  [[0x09], [0x0A], [0x0B], [0x0C], [0x0D], [0x20], [0xC2, 0x85], [0xC2, 0xA0], [0xE1, 0x9A, 0x80],
    [0xE2, 0x80, 0x80], [0xE2, 0x80, 0x81], [0xE2, 0x80, 0x82], [0xE2, 0x80, 0x83],
    [0xE2, 0x80, 0x84], [0xE2, 0x80, 0x85], [0xE2, 0x80, 0x86], [0xE2, 0x80, 0x87],
    [0xE2, 0x80, 0x88], [0xE2, 0x80, 0x89], [0xE2, 0x80, 0x8A], [0xE2, 0x80, 0xA8],
    [0xE2, 0x80, 0xA9], [0xE2, 0x80, 0xAF], [0xE2, 0x81, 0x9F], [0xE3, 0x80, 0x80]]

theorem space_runes_eq : space_runes = space_chars.map fun n => EncodeRune (Char.ofNat n) := by decide

theorem length_drop_lt {w s : Bytes} (hw : (!w.isEmpty && w.isPrefixOf s) = true) :
    (s.drop w.length).length < s.length := by
  simp only [Bool.and_eq_true, Bool.not_eq_true', List.isEmpty_eq_false_iff_exists_mem] at hw
  obtain ⟨⟨x, hx⟩, hp⟩ := hw
  have hpos : 0 < w.length := List.length_pos_of_mem hx
  have hpre : w <+: s := List.isPrefixOf_iff_prefix.1 hp
  have hle := hpre.length_le
  rw [List.length_drop]
  omega

/-- Drops encodings of `runes` off the front of `s` while one starts it. -/
def trim_left (runes : List Bytes) (s : Bytes) : Bytes :=
  match h : runes.find? (fun w => !w.isEmpty && w.isPrefixOf s) with
  | some w => trim_left runes (s.drop w.length)
  | none => s
termination_by s.length
decreasing_by
  have hw := List.find?_some h
  exact length_drop_lt hw

theorem trim_left_some {runes : List Bytes} {s w : Bytes}
    (h : runes.find? (fun w => !w.isEmpty && w.isPrefixOf s) = some w) :
    trim_left runes s = trim_left runes (s.drop w.length) := by
  rw [trim_left]
  split <;> simp_all

theorem trim_left_none {runes : List Bytes} {s : Bytes}
    (h : runes.find? (fun w => !w.isEmpty && w.isPrefixOf s) = none) : trim_left runes s = s := by
  rw [trim_left]
  split <;> simp_all

theorem find_rune_none_iff {runes : List Bytes} {s : Bytes} :
    runes.find? (fun w => !w.isEmpty && w.isPrefixOf s) = none ↔ ∀ w ∈ runes, w ≠ [] → ¬ w <+: s := by
  simp [List.isPrefixOf_iff_prefix, List.isEmpty_iff]

theorem prefix_of_find_rune {runes : List Bytes} {s w : Bytes}
    (h : runes.find? (fun w => !w.isEmpty && w.isPrefixOf s) = some w) : w ∈ runes ∧ w <+: s := by
  have hw := List.find?_some h
  simp only [Bool.and_eq_true, List.isPrefixOf_iff_prefix] at hw
  exact ⟨List.mem_of_find?_eq_some h, hw.2⟩

/-- strings.TrimSpace: the space runes at both ends removed. -/
def TrimSpace (s : Bytes) : Bytes :=
  (trim_left (space_runes.map List.reverse) (trim_left space_runes s).reverse).reverse

/-- strings.Replace(s, old, new, -1) for a one-byte old string. -/
def Replace (s : Bytes) (old : UInt8) (new : Bytes) : Bytes :=
  s.flatMap fun b => if b = old then new else [b]

end Rsql.Drv
