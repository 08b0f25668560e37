import Rsql.Drv.Cursor
import Rsql.Drv.Getters

/-! What a caller reads with the getters of the values the server sent. -/
namespace Rsql.Rsqlib

/-- The integer a value stands for in an integer column; 0 for nil. -/
def Value.int : Value → Int
  | .uint8 v => v.toNat
  | .int16 v => v.toInt
  | .int32 v => v.toInt
  | .int64 v => v.toInt
  | _ => 0

/-- The text a value stands for in a VARCHAR, MONEY or NUMERIC column, a
CHAR padded to its precision; empty for nil. -/
def Value.text : Column → Value → Bytes
  | .Varchar p f, .string s => if f then pad_fixlen p s else s
  | .Money .., .string s | .Numeric .., .string s => s
  | _, _ => []

def Column.is_integer : Column → Bool
  | .Bit | .Tinyint | .Smallint | .Int | .Bigint => true
  | _ => false

def Column.is_text : Column → Bool
  | .Varchar .. | .Money .. | .Numeric .. => true
  | _ => false

end Rsql.Rsqlib

namespace Rsql.Drv

open Msgp Rsqlib

theorem ColInt64_null {b : Batch} {i : Nat} {f : IField} {val : Int64} {null : Bool} (hf : b.record[i]? = some f)
    (h : ColInt64 b i = .ok (val, null)) : null = f.IsNull := by
  simp only [ColInt64, hf] at h
  by_cases hn : f.IsNull = true
  · rw [if_pos hn] at h; cases h; exact hn.symm
  · rw [if_neg hn] at h
    cases f <;> cases h <;> simp_all

theorem int_value_filled {c : Column} {v : Value} (hfit : v.fits c = true) : int_value (c.filled v) = v.int := by
  cases c <;> cases v <;> first | rfl | cases hfit

/-! ### One field -/

section Field

variable {b : Batch} {i : Nat} {c : Column} {v : Value} (hfit : v.fits c = true)
  (hf : b.record[i]? = some (c.filled v))
include hfit hf

theorem ColIsNull_filled : ColIsNull b i = .ok (decide (v = .nil)) := by
  rw [ColIsNull, hf]
  exact congrArg Except.ok (Column.filled_IsNull hfit)

theorem ColInt64_filled (hc : c.is_integer = true) :
    ∃ val, ColInt64 b i = .ok (val, decide (v = .nil)) ∧ val.toInt = v.int := by
  obtain ⟨val, null, h, hval⟩ := ColInt64_integer hf (by cases c <;> cases v <;> first | rfl | cases hc)
  rw [ColInt64_null hf h, Column.filled_IsNull hfit] at h
  exact ⟨val, h, hval.trans (int_value_filled hfit)⟩

theorem ColString_filled (fmt : Formats) (hc : c.is_text = true) :
    ColString fmt b i = .ok (Value.text c v, decide (v = .nil)) := by
  rw [ColString, hf]
  cases c <;> cases v <;> first | rfl | exact (Bool.false_ne_true hc).elim | exact (Bool.false_ne_true hfit).elim

end Field

/-! ### The rows the cursor shows -/

theorem Forall₂.getElem? {α β : Type} {R : α → β → Prop} :
    ∀ {l₁ : List α} {l₂ : List β}, List.Forall₂ R l₁ l₂ → ∀ {i : Nat} {a : α} {b : β},
      l₁[i]? = some a → l₂[i]? = some b → R a b
  | _, _, .nil, _, _, _, h, _ => by cases h
  | _, _, .cons hab _, 0, _, _, ha, hb => by
    rw [List.getElem?_cons_zero, Option.some.injEq] at ha hb
    exact ha ▸ hb ▸ hab
  | _, _, .cons _ hl, i + 1, _, _, ha, hb => by
    rw [List.getElem?_cons_succ] at ha hb
    exact Forall₂.getElem? hl ha hb

theorem mem_rows_seen {cols : List Column} {record : List IField} {count : Int64} :
    ∀ {i : Nat} {rows : List Row}, Seen.row record count ∈ rows_seen cols i rows →
      ∃ r ∈ rows, record = List.zipWith Column.filled cols r.vals
  | _, [], h => by cases h
  | i, r :: rs, h => by
    rcases List.mem_cons.1 h with h | h
    · cases h; exact ⟨r, List.mem_cons_self r rs, rfl⟩
    · obtain ⟨r', hr', hrec⟩ := mem_rows_seen h
      exact ⟨r', List.mem_cons_of_mem r hr', hrec⟩

theorem mem_sets_seen {record : List IField} {count : Int64} :
    ∀ {sets : List Recordset}, Seen.row record count ∈ sets_seen sets →
      ∃ R ∈ sets, ∃ r ∈ R.rows, record = List.zipWith Column.filled R.cols r.vals
  | [], h => by cases h
  | R :: more, h => by
    rcases List.mem_append.1 h with h | h
    · exact ⟨R, List.mem_cons_self R more, mem_rows_seen h⟩
    · rcases List.mem_cons.1 h with h | h
      · cases h
      · obtain ⟨R', hR', hrow⟩ := mem_sets_seen h
        exact ⟨R', List.mem_cons_of_mem R hR', hrow⟩

/-- Over a well-formed response, each row a Next call shows reads back with
the getters as the values the server sent. -/
theorem sets_seen_read_back (fmt : Formats) (B : Response) (conn : Connection) (text enc rest : Bytes)
    (session' : Session) (hclean : conn.isDirty = false)
    (hsend : Send_batch conn.session text = some (none, session'))
    (henc : B.encode = some enc) (hin : conn.session.mr.input = enc ++ rest) :
    ∃ b c, Query conn text = some ⟨some b, none, c⟩ ∧ ∀ n < (sets_seen B.sets).length, ∃ h,
      Nexts (n + 1) ⟨b, c⟩ = some ((sets_seen B.sets).take (n + 1), h) ∧
      ∀ record count, (sets_seen B.sets)[n]? = some (.row record count) →
        h.b.record = record ∧ ∃ R ∈ B.sets, ∃ r ∈ R.rows, ColCount h.b = R.cols.length ∧
          ∀ i c v, R.cols[i]? = some c → r.vals[i]? = some v →
            ColIsNull h.b i = .ok (decide (v = .nil)) ∧
            (c.is_integer = true → ∃ val, ColInt64 h.b i = .ok (val, decide (v = .nil)) ∧ val.toInt = v.int) ∧
            (c.is_text = true → ColString fmt h.b i = .ok (Value.text c v, decide (v = .nil))) := by
  obtain ⟨em, fin, hem, hfin, rfl⟩ := Response.encode_eq henc
  obtain ⟨b, c, hq, -, h₁, -, hrun, -⟩ := Query_Nexts_sets (finish_ending hfin rest (exec_after B.infos 0))
    conn text session' hclean hsend hem (by rw [hin, List.append_assoc]) rfl
  refine ⟨b, c, hq, fun n hn => ?_⟩
  obtain ⟨v, h, hnexts, hseen⟩ := Nexts_take hrun hn
  refine ⟨h, hnexts, fun record count hrow => ?_⟩
  have hof : Seen.of v h.b = .row record count := Option.some.inj (hseen.symm.trans hrow)
  have hb : h.b.record = record := by
    cases v
    · cases hof
    · exact (Seen.row.inj hof).1
  obtain ⟨R, hR, r, hr, rfl⟩ := mem_sets_seen (List.getElem?_mem hrow)
  have hfits := R.fit r hr
  refine ⟨hb, R, hR, r, hr, by rw [ColCount, hb, List.length_zipWith, hfits.length_eq, min_self], ?_⟩
  intro i c v hc hv
  have hfit := Forall₂.getElem? hfits hc hv
  have hf : h.b.record[i]? = some (c.filled v) := by rw [hb, List.getElem?_zipWith, hc, hv]
  exact ⟨ColIsNull_filled hfit hf, ColInt64_filled hfit hf, ColString_filled hfit hf fmt⟩

def five_response : Response := ⟨[five_set], [], none, 0⟩

theorem sets_seen_read_back_five :
    ∃ b c, Query (.fresh (five_stream ++ [14, 0])) [] = some ⟨some b, none, c⟩ ∧
      ∀ n < (sets_seen five_response.sets).length, ∃ h,
      Nexts (n + 1) ⟨b, c⟩ = some ((sets_seen five_response.sets).take (n + 1), h) ∧
      ∀ record count, (sets_seen five_response.sets)[n]? = some (.row record count) →
        h.b.record = record ∧ ∃ R ∈ five_response.sets, ∃ r ∈ R.rows, ColCount h.b = R.cols.length ∧
          ∀ i c v, R.cols[i]? = some c → r.vals[i]? = some v →
            ColIsNull h.b i = .ok (decide (v = .nil)) ∧
            (c.is_integer = true → ∃ val, ColInt64 h.b i = .ok (val, decide (v = .nil)) ∧ val.toInt = v.int) ∧
            (c.is_text = true →
              ColString ⟨fun _ => [], fun _ _ => []⟩ h.b i = .ok (Value.text c v, decide (v = .nil))) :=
  sets_seen_read_back ⟨fun _ => [], fun _ _ => []⟩ five_response _ [] _ [] _ rfl rfl rfl rfl

end Rsql.Drv
