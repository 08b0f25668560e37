import Rsql.Drv.Template
import Rsql.Rsqlib.Field

/-! SQLtext, which joins parts. SQLtext.Text returns the first part's error,
or the parts' texts joined, each followed by a newline when Addln added it; on
parts NewSQLpart made, whatever Bind calls followed, it never panics. -/
namespace Rsql.Drv

open Msgp Rsqlib

/-- The fields of a float64 bit pattern: the exponent is all ones exactly for
the infinities and the NaNs, the fraction telling them apart. BindFloat64 on a
part without error keeps the error the checks give, or binds the printed float. -/
theorem BindFloat64_classifies (uc : Casing) (pr : Printers) (part : SQLpart) (param : Bytes) (f : Float64)
    (hpart : part.err = none) :
    BindFloat64 uc pr part param f =
      if f.bits.toNat / 2 ^ 52 % 2 ^ 11 = 2047 then
        { part with err := some (if f.bits.toNat % 2 ^ 52 = 0 then .float_infinite param else .float_nan param) }
      else setParam uc part param (pr.FormatFloat f) := by
  simp only [BindFloat64, bind_with, hpart, Option.isSome_none, Bool.false_eq_true, if_false, float_literal,
    math.IsInf, math.IsNaN, beq_iff_eq, decide_eq_true_eq]
  split_ifs <;> first | rfl | omega

/-- The part NewSQLpart makes of "a{{x}}". -/
def one_slot_part : SQLpart := ⟨[some [0x61], none], [([0x78], [1])], none⟩

/-- A part NewSQLpart made, after any Bind calls. -/
def Built (uc : Casing) (pr : Printers) (part : SQLpart) : Prop :=
  ∃ (text : Bytes) (delims : List Bytes) (p0 : SQLpart) (calls : List Bind),
    NewSQLpart uc text delims = .ok p0 ∧ part = calls.foldl (fun p c => c.run uc pr p) p0

/-! ### SQLtext -/

/-- A SQLtext: its parts and, for each, whether Addln added it. Add and Addln
append to both lists, so they have the same length. -/
structure SQLtext where
  parts : List SQLpart
  linefeed : List Bool
  same_length : parts.length = linefeed.length

def NewSQLtext : SQLtext := ⟨[], [], rfl⟩

def SQLtext.Addln (sqltext : SQLtext) (part : SQLpart) : SQLtext :=
  ⟨sqltext.parts ++ [part], sqltext.linefeed ++ [true], by simp [sqltext.same_length]⟩

def SQLtext.Add (sqltext : SQLtext) (part : SQLpart) : SQLtext :=
  ⟨sqltext.parts ++ [part], sqltext.linefeed ++ [false], by simp [sqltext.same_length]⟩

def SQLtext.PartCount (sqltext : SQLtext) : Nat := sqltext.parts.length

/-- Part(i); an index past the parts panics. -/
def SQLtext.Part (sqltext : SQLtext) (i : Nat) : Except String SQLpart :=
  match sqltext.parts[i]? with
  | none => .error "index out of range"
  | some part => .ok part

/-- Text's loop over the parts from index i. -/
def text_parts (linefeed : List Bool) : Nat → List SQLpart → Bytes → Result Unit Bytes
  | _, [], buff => .ok buff ()
  | i, part :: parts, buff =>
    match part.err with
    | some err => .error err ()
    | none =>
      match part.Text with
      | .error err _ => .error err ()
      | .panic msg => .panic msg
      | .ok partText _ =>
        let buff := buff ++ partText
        match linefeed[i]? with
        | none => .panic "index out of range"
        | some lf => text_parts linefeed (i + 1) parts (if lf then buff ++ [0x0A] else buff)

def SQLtext.Text (sqltext : SQLtext) : Result Unit Bytes := text_parts sqltext.linefeed 0 sqltext.parts []

/-- A part's text in the joined text. -/
def line (partText : Bytes) (lf : Bool) : Bytes := if lf then partText ++ [0x0A] else partText

theorem err_of_Text_ok {part : SQLpart} {t : Bytes} (h : part.Text = .ok t ()) : part.err = none := by
  cases he : part.err <;> simp_all [SQLpart.Text]

theorem text_parts_cons_ok {lfs : List Bool} {i : Nat} {part : SQLpart} {t : Bytes} {lf : Bool}
    (hp : part.Text = .ok t ()) (hi : lfs[i]? = some lf) (ps : List SQLpart) (buff : Bytes) :
    text_parts lfs i (part :: ps) buff = text_parts lfs (i + 1) ps (buff ++ line t lf) := by
  cases lf <;> simp [text_parts, err_of_Text_ok hp, hp, hi, line]

/-- A part whose Text fails ends the loop with its result. -/
theorem text_parts_cons_fail {lfs : List Bool} {i : Nat} {part : SQLpart} (hp : ∀ t, part.Text ≠ .ok t ())
    (ps : List SQLpart) (buff : Bytes) : text_parts lfs i (part :: ps) buff = part.Text := by
  cases he : part.err with
  | some e => simp [text_parts, he, SQLpart.Text]
  | none =>
    cases ht : part.Text with
    | ok t u => exact absurd ht (hp t)
    | error e u => simp [text_parts, he, ht]
    | panic m => simp [text_parts, he, ht]

theorem text_parts_ok {lfs : List Bool} {ps : List SQLpart} {ts : List Bytes}
    (h : List.Forall₂ (fun part t => part.Text = .ok t ()) ps ts) :
    ∀ (i : Nat) (buff : Bytes), i + ps.length = lfs.length →
      text_parts lfs i ps buff = .ok (buff ++ (List.zipWith line ts (lfs.drop i)).flatten) () := by
  induction h with
  | nil => intro i buff _; simp [text_parts]
  | @cons part t ps ts hp _ ih =>
    intro i buff hlen
    have hi : i < lfs.length := by simp only [List.length_cons] at hlen; omega
    rw [text_parts_cons_ok hp (List.getElem?_eq_getElem hi), ih (i + 1) _ (by simp only [List.length_cons] at hlen; omega),
      List.drop_eq_getElem_cons hi, List.zipWith_cons_cons, List.flatten_cons, List.append_assoc]

/-- The parts before the first failing one are each appended, and the loop
ends with that part's result. -/
theorem text_parts_fail {lfs : List Bool} {part : SQLpart} (hp : ∀ t, part.Text ≠ .ok t ()) (post : List SQLpart) :
    ∀ (pre : List SQLpart) (i : Nat) (buff : Bytes), (∀ q ∈ pre, ∃ t, q.Text = .ok t ()) →
      i + pre.length ≤ lfs.length → text_parts lfs i (pre ++ part :: post) buff = part.Text
  | [], _, buff, _, _ => text_parts_cons_fail hp post buff
  | q :: pre, i, buff, hpre, hlen => by
    obtain ⟨t, hq⟩ := hpre q (List.mem_cons_self q pre)
    have hi : i < lfs.length := by simp only [List.length_cons] at hlen; omega
    rw [List.cons_append, text_parts_cons_ok hq (List.getElem?_eq_getElem hi)]
    exact text_parts_fail hp post pre (i + 1) _ (fun q' hq' => hpre q' (List.mem_cons_of_mem q hq'))
      (by simp only [List.length_cons] at hlen; omega)

/-- Either every part's Text succeeds, or some first one does not. -/
theorem first_failure : ∀ ps : List SQLpart,
    (∃ ts, List.Forall₂ (fun part t => part.Text = .ok t ()) ps ts) ∨
      ∃ pre part post, ps = pre ++ part :: post ∧ (∀ q ∈ pre, ∃ t, q.Text = .ok t ()) ∧ ∀ t, part.Text ≠ .ok t ()
  | [] => .inl ⟨[], .nil⟩
  | p :: ps => by
    by_cases hp : ∃ t, p.Text = .ok t ()
    · obtain ⟨t, ht⟩ := hp
      rcases first_failure ps with ⟨ts, hts⟩ | ⟨pre, part, post, rfl, hpre, hpart⟩
      · exact .inl ⟨t :: ts, .cons ht hts⟩
      · refine .inr ⟨p :: pre, part, post, rfl, ?_, hpart⟩
        rintro q (_ | ⟨_, hq⟩)
        exacts [⟨t, ht⟩, hpre q hq]
    · exact .inr ⟨[], p, ps, rfl, nofun, fun t ht => hp ⟨t, ht⟩⟩

theorem length_pre_lt {sqltext : SQLtext} {pre post : List SQLpart} {part : SQLpart}
    (h : sqltext.parts = pre ++ part :: post) : pre.length ≤ sqltext.linefeed.length := by
  have hl := congrArg List.length h
  simp only [List.length_append, List.length_cons, sqltext.same_length] at hl
  omega

theorem SQLtext.Text_of_all_ok {sqltext : SQLtext} {ts : List Bytes}
    (h : List.Forall₂ (fun part t => part.Text = .ok t ()) sqltext.parts ts) :
    sqltext.Text = .ok (List.zipWith line ts sqltext.linefeed).flatten () := by
  simpa using text_parts_ok h 0 [] (by simp [sqltext.same_length])

theorem SQLtext.Text_of_first_failure {sqltext : SQLtext} {pre post : List SQLpart} {part : SQLpart}
    (h : sqltext.parts = pre ++ part :: post) (hpre : ∀ q ∈ pre, ∃ t, q.Text = .ok t ())
    (hp : ∀ t, part.Text ≠ .ok t ()) : sqltext.Text = part.Text := by
  rw [SQLtext.Text, h]
  exact text_parts_fail hp post pre 0 [] hpre (by simpa using length_pre_lt h)

/-- Text returns the parts' texts joined, each followed by a newline when
Addln added it; or, when some part's Text fails, what the first such part's
Text returns: its error, or its panic. The error check before part.Text() is
the one Text makes itself, and linefeed[i] never panics. -/
theorem SQLtext.Text_spec (sqltext : SQLtext) :
    (∀ s, sqltext.Text = .ok s () ↔ ∃ ts, List.Forall₂ (fun part t => part.Text = .ok t ()) sqltext.parts ts ∧
      s = (List.zipWith line ts sqltext.linefeed).flatten) ∧
    ∀ r, (∀ t, r ≠ .ok t ()) → (sqltext.Text = r ↔ ∃ pre part post, sqltext.parts = pre ++ part :: post ∧
      (∀ q ∈ pre, ∃ t, q.Text = .ok t ()) ∧ part.Text = r) := by
  refine ⟨fun s => ⟨fun hs => ?_, fun ⟨ts, hts, hs⟩ => hs ▸ SQLtext.Text_of_all_ok hts⟩,
    fun r hr => ⟨fun hs => ?_, ?_⟩⟩
  · rcases first_failure sqltext.parts with ⟨ts, hts⟩ | ⟨pre, part, post, h, hpre, hp⟩
    · exact ⟨ts, hts, by rw [SQLtext.Text_of_all_ok hts] at hs; cases hs; rfl⟩
    · exact absurd ((SQLtext.Text_of_first_failure h hpre hp).symm.trans hs) (hp s)
  · rcases first_failure sqltext.parts with ⟨ts, hts⟩ | ⟨pre, part, post, h, hpre, hp⟩
    · exact absurd ((SQLtext.Text_of_all_ok hts).symm.trans hs).symm (hr _)
    · exact ⟨pre, part, post, h, hpre, (SQLtext.Text_of_first_failure h hpre hp).symm.trans hs⟩
  · rintro ⟨pre, part, post, h, hpre, rfl⟩
    exact SQLtext.Text_of_first_failure h hpre hr

example : ((NewSQLtext.Addln ⟨[some [0x61]], [], none⟩).Add ⟨[some [0x62]], [], none⟩).Text =
    .ok [0x61, 0x0A, 0x62] () := rfl

/-! ### Parts made by NewSQLpart -/

theorem NewSQLpart_two_delims {uc : Casing} {text : Bytes} {delims : List Bytes} {p0 : SQLpart}
    (h : NewSQLpart uc text delims = .ok p0) : ∃ L R, NewSQLpart uc text [L, R] = .ok p0 := by
  match delims, h with
  | [], h => exact ⟨_, _, h⟩
  | [L, R], h => exact ⟨L, R, h⟩
  | [_], h | _ :: _ :: _ :: _, h => cases h

/-- Any Bind calls keep a part following its items. -/
theorem Bind.foldl_follows (uc : Casing) (pr : Printers) {its : List Item} {names : List Bytes}
    (hnames : ∀ k, k ∈ names ↔ positions its k ≠ []) :
    ∀ (calls : List Bind) (p : SQLpart) (s : Except Error (Bytes → Option Bytes)),
      p.Follows its s → ∃ s', (calls.foldl (fun p c => c.run uc pr p) p).Follows its s'
  | [], _, s, h => ⟨s, h⟩
  | c :: calls, p, s, h => by
    rw [List.foldl_cons, Bind.run_eq]
    exact Bind.foldl_follows uc pr hnames calls _ _ (bind_with_follows hnames h c.param (c.val pr))

/-- The Text of a built part is its template's rendering or an error: it
never panics. -/
theorem Built.Text {uc : Casing} {pr : Printers} {part : SQLpart} (h : Built uc pr part) :
    ∃ r, part.Text = of_except r := by
  obtain ⟨text, delims, p0, calls, hnew, rfl⟩ := h
  obtain ⟨L, R, hnew⟩ := NewSQLpart_two_delims hnew
  obtain ⟨f0, segs, -, -, he, hf, hm⟩ := NewSQLpart_split hnew
  have hnames : ∀ k, k ∈ segs.map (fun s => key uc s.1) ↔ positions (items uc f0 segs) k ≠ [] :=
    fun k => (positions_items_ne_nil uc f0 segs k).symm
  obtain ⟨s, hs⟩ := Bind.foldl_follows uc pr hnames calls p0 (.ok fun _ => none) ⟨he, hf, hm⟩
  exact ⟨_, Text_follows hs⟩

/-- On a SQLtext whose parts NewSQLpart made, whatever Bind calls followed,
Text never panics. -/
theorem SQLtext.Text_no_panic (uc : Casing) (pr : Printers) (sqltext : SQLtext)
    (h : ∀ part ∈ sqltext.parts, Built uc pr part)
    (msg : String) : sqltext.Text ≠ .panic msg := by
  rcases first_failure sqltext.parts with ⟨ts, hts⟩ | ⟨pre, part, post, hparts, hpre, hp⟩
  · rw [SQLtext.Text_of_all_ok hts]; nofun
  · obtain ⟨r, hr⟩ := (h part (by simp [hparts])).Text
    rw [SQLtext.Text_of_first_failure hparts hpre hp, hr]
    cases r <;> nofun

section

attribute [local semireducible] scan trim_left

theorem SQLtext.Text_no_panic_float :
    (∀ part ∈ (NewSQLtext.Addln (BindFloat64 ascii_casing one_printers one_slot_part [0x58]
      ⟨0x3FF0000000000000⟩)).parts, Built ascii_casing one_printers part) ∧
    ∀ msg, (NewSQLtext.Addln (BindFloat64 ascii_casing one_printers one_slot_part [0x58]
      ⟨0x3FF0000000000000⟩)).Text ≠ .panic msg :=
  have h : ∀ part ∈ (NewSQLtext.Addln (BindFloat64 ascii_casing one_printers one_slot_part [0x58]
      ⟨0x3FF0000000000000⟩)).parts, Built ascii_casing one_printers part := by
    intro part hpart
    simp only [NewSQLtext, SQLtext.Addln, List.nil_append, List.mem_singleton] at hpart
    exact ⟨[0x61, 0x7B, 0x7B, 0x78, 0x7D, 0x7D], [], one_slot_part, [.float64 [0x58] ⟨0x3FF0000000000000⟩], rfl,
      hpart⟩
  ⟨h, SQLtext.Text_no_panic ascii_casing one_printers _ h⟩
end

end Rsql.Drv
