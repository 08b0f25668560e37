import Rsql.Drv.Template

/-! The literals BindStr and BindNumstr write, read by a T-SQL lexer and
compared with the decimal number literals. -/
namespace Rsql.Drv

/-! ### String literals -/

/-- A T-SQL string literal after its opening quote: two quotes stand for one
quote and a lone quote closes the literal. The string read and the text after
the literal, or `none` when no quote closes it. -/
def lex_body : Bytes → Option (Bytes × Bytes)
  | [] => none
  | b :: rest =>
    if b = 0x27 then
      match rest with
      | c :: rest' => if c = 0x27 then (lex_body rest').map fun r => (0x27 :: r.1, r.2) else some ([], rest)
      | [] => some ([], [])
    else (lex_body rest).map fun r => (b :: r.1, r.2)

/-- A quote opens a T-SQL string literal. -/
def lex_literal : Bytes → Option (Bytes × Bytes)
  | b :: rest => if b = 0x27 then lex_body rest else none
  | [] => none

theorem lex_body_cons_of_ne {b : UInt8} (hb : b ≠ 0x27) (rest : Bytes) :
    lex_body (b :: rest) = (lex_body rest).map fun r => (b :: r.1, r.2) := by
  cases rest <;> simp [lex_body, hb]

/-- The doubled quotes and the closing quote read back as the string, and the
lexer stops right after the closing quote. -/
theorem lex_body_Replace (r : Bytes) (hr : r.head? ≠ some 0x27) :
    ∀ s : Bytes, lex_body (Replace s 0x27 [0x27, 0x27] ++ 0x27 :: r) = some (s, r)
  | [] => by
    cases r with
    | nil => rfl
    | cons c r =>
      have hc : c ≠ 0x27 := fun h => hr (by rw [h]; rfl)
      simp [Replace, lex_body, hc]
  | b :: s => by
    have ih := lex_body_Replace r hr s
    by_cases hb : b = 0x27
    · subst hb
      simp only [Replace, List.flatMap_cons, if_pos rfl] at ih ⊢
      simp [lex_body, ih]
    · simp only [Replace, List.flatMap_cons, if_neg hb] at ih ⊢
      simp only [List.cons_append, List.nil_append, List.singleton_append]
      rw [lex_body_cons_of_ne hb, ih]
      rfl

/-- A quote after the closing quote is read with it as an escaped quote: the
lexer goes on into the text after them. -/
theorem lex_body_Replace_quote (r : Bytes) : ∀ s : Bytes,
    lex_body (Replace s 0x27 [0x27, 0x27] ++ 0x27 :: 0x27 :: r) = (lex_body r).map fun x => (s ++ 0x27 :: x.1, x.2)
  | [] => by simp [Replace, lex_body]
  | b :: s => by
    have ih := lex_body_Replace_quote r s
    by_cases hb : b = 0x27
    · subst hb
      simp only [Replace, List.flatMap_cons, if_pos rfl] at ih ⊢
      simp [lex_body, ih, Option.map_map, Function.comp_def]
    · simp only [Replace, List.flatMap_cons, if_neg hb] at ih ⊢
      simp only [List.cons_append, List.nil_append, List.singleton_append]
      rw [lex_body_cons_of_ne hb, ih, Option.map_map]
      rfl

/-- The literal BindStr binds for `s` lexes back as `s` unless a quote
follows it. -/
theorem BindStr_literal_lexes (uc : Casing) (param s : Bytes) :
    ∃ lit, (∀ part, BindStr uc part param s = bind_with uc part param (.ok lit)) ∧
      (∀ r : Bytes, r.head? ≠ some 0x27 → lex_literal (lit ++ r) = some (s, r)) ∧
      ∀ r : Bytes, lex_literal (lit ++ 0x27 :: r) = (lex_body r).map fun x => (s ++ 0x27 :: x.1, x.2) := by
  refine ⟨[0x27] ++ Replace s 0x27 [0x27, 0x27] ++ [0x27], fun _ => rfl, fun r hr => ?_, fun r => ?_⟩ <;>
    simp only [List.singleton_append, List.append_assoc, List.cons_append, lex_literal, if_pos rfl]
  · exact lex_body_Replace r hr s
  · exact lex_body_Replace_quote r s

theorem BindStr_literal_lexes_quote :
    ([0x20] : Bytes).head? ≠ some 0x27 ∧
    ∃ lit, (∀ part, BindStr ascii_casing part [0x78] [0x27] = bind_with ascii_casing part [0x78] (.ok lit)) ∧
      lex_literal (lit ++ [0x20]) = some ([0x27], [0x20]) ∧
      lex_literal (lit ++ [0x27, 0x27, 0x20]) = some ([0x27, 0x27], [0x20]) := by
  obtain ⟨lit, hbind, hstop, hquote⟩ := BindStr_literal_lexes ascii_casing [0x78] [0x27]
  exact ⟨by decide, lit, hbind, hstop [0x20] (by decide), by rw [hquote]; rfl⟩

/-- For the empty string BindStr binds two quotes; a quote after them makes
the lexer read an escaped quote and find no closing one. -/
theorem BindStr_literal_quote_after :
    (∀ uc part param, BindStr uc part param [] = bind_with uc part param (.ok [0x27, 0x27])) ∧
      lex_literal ([0x27, 0x27] ++ [0x27]) = none :=
  ⟨fun _ _ _ => rfl, rfl⟩

/-! ### Number strings -/

/-- Every byte is an ASCII digit. -/
def digits (d : Bytes) : Prop := ∀ b ∈ d, 0x30 ≤ b ∧ b ≤ 0x39

/-- [+-]? -/
def sign_part (s : Bytes) : Prop := s = [] ∨ s = [0x2B] ∨ s = [0x2D]

/-- D+(.D*)? or .D+ -/
def mantissa_part (m : Bytes) : Prop :=
  (m ≠ [] ∧ digits m) ∨ (∃ d f, m = d ++ 0x2E :: f ∧ d ≠ [] ∧ digits d ∧ digits f) ∨
    (∃ f, m = 0x2E :: f ∧ f ≠ [] ∧ digits f)

/-- ([eE][+-]?D+)? -/
def exponent_part (x : Bytes) : Prop :=
  x = [] ∨ ∃ e sg d, x = e :: (sg ++ d) ∧ (e = 0x65 ∨ e = 0x45) ∧ sign_part sg ∧ d ≠ [] ∧ digits d

/-- A decimal number literal [+-]?(D+(.D*)?|.D+)([eE][+-]?D+)?, D an ASCII
digit. -/
def DecimalLiteral (s : Bytes) : Prop :=
  ∃ sg m x, s = sg ++ m ++ x ∧ sign_part sg ∧ mantissa_part m ∧ exponent_part x

theorem exists_digit_of_ne_nil {d : Bytes} (hne : d ≠ []) (hd : digits d) : ∃ b ∈ d, 0x30 ≤ b ∧ b ≤ 0x39 := by
  obtain ⟨b, hb⟩ := List.exists_mem_of_ne_nil d hne
  exact ⟨b, hb, hd b hb⟩

/-- Every decimal number literal holds a digit. -/
theorem DecimalLiteral.exists_digit {s : Bytes} (h : DecimalLiteral s) : ∃ b ∈ s, 0x30 ≤ b ∧ b ≤ 0x39 := by
  obtain ⟨sg, m, x, rfl, -, hm, -⟩ := h
  have hm' : ∃ b ∈ m, 0x30 ≤ b ∧ b ≤ 0x39 := by
    rcases hm with ⟨hne, hd⟩ | ⟨d, f, rfl, hne, hd, -⟩ | ⟨f, rfl, hne, hf⟩
    · exact exists_digit_of_ne_nil hne hd
    · obtain ⟨b, hb, hbd⟩ := exists_digit_of_ne_nil hne hd
      exact ⟨b, List.mem_append_left _ hb, hbd⟩
    · obtain ⟨b, hb, hbd⟩ := exists_digit_of_ne_nil hne hf
      exact ⟨b, List.mem_cons_of_mem _ hb, hbd⟩
  obtain ⟨b, hb, hbd⟩ := hm'
  exact ⟨b, List.mem_append_left _ (List.mem_append_right _ hb), hbd⟩

/-- BindNumstr on a part without an error whose map knows the name: the
loop's error, or the trimmed string in every slot of the name. -/
theorem BindNumstr_of_known {uc : Casing} {part : SQLpart} {param : Bytes} {targets : List Nat}
    (he : part.err = none) (known : part.placeholderMap.lookup (ToLower uc param) = some targets) (numstr : Bytes) :
    BindNumstr uc part param numstr =
      match numstr_loop param (TrimSpace numstr) (-1) (-1) 0 (TrimSpace numstr) with
      | some e => { part with err := some e }
      | none => { part with
          textFragments := targets.foldl (fun fs pos => fs.set pos (some (TrimSpace numstr))) part.textFragments } := by
  cases hl : numstr_loop param (TrimSpace numstr) (-1) (-1) 0 (TrimSpace numstr) <;>
    simp [BindNumstr, bind_with, numstr_literal, he, hl, setParam, known]

theorem TrimSpace_e : TrimSpace [0x65] = [0x65] := by
  have h1 : trim_left space_runes [0x65] = [0x65] := trim_left_none (by decide)
  have h2 : trim_left (space_runes.map List.reverse) [0x65] = [0x65] := trim_left_none (by decide)
  rw [TrimSpace, h1, List.reverse_singleton, h2, List.reverse_singleton]

/-- BindNumstr binds "e", which is no decimal number literal. -/
theorem BindNumstr_binds_e (uc : Casing) (part : SQLpart) (param : Bytes) (targets : List Nat)
    (he : part.err = none) (known : part.placeholderMap.lookup (ToLower uc param) = some targets) :
    BindNumstr uc part param [0x65] =
      { part with textFragments := targets.foldl (fun fs pos => fs.set pos (some [0x65])) part.textFragments } ∧
    ¬ DecimalLiteral [0x65] := by
  refine ⟨?_, fun h => ?_⟩
  · rw [BindNumstr_of_known he known, TrimSpace_e]
    rfl
  · obtain ⟨b, hb, hd⟩ := h.exists_digit
    rw [List.mem_singleton] at hb
    subst hb
    exact absurd hd (by decide)

theorem BindNumstr_binds_e_one_slot :
    (⟨[none], [([0x78], [0])], none⟩ : SQLpart).err = none ∧
    PlaceholderMap.lookup [([0x78], [0])] (ToLower ascii_casing [0x78]) = some [0] ∧
    BindNumstr ascii_casing ⟨[none], [([0x78], [0])], none⟩ [0x78] [0x65] = ⟨[some [0x65]], [([0x78], [0])], none⟩ ∧
    ¬ DecimalLiteral [0x65] :=
  ⟨rfl, by decide, BindNumstr_binds_e ascii_casing ⟨[none], [([0x78], [0])], none⟩ [0x78] [0] rfl (by decide)⟩

/-! ### Every decimal literal is accepted -/

section Accepts

variable {param numstr : Bytes}

theorem numstr_loop_digits {dp ep : Int} : ∀ {d : Bytes}, digits d → ∀ (i : Nat) (rest : Bytes),
    numstr_loop param numstr dp ep i (d ++ rest) = numstr_loop param numstr dp ep (i + d.length) rest
  | [], _, i, rest => rfl
  | b :: d, hd, i, rest => by
    rw [List.cons_append, numstr_loop, if_pos (hd b (List.mem_cons_self b d)),
      numstr_loop_digits (fun x hx => hd x (List.mem_cons_of_mem b hx)), List.length_cons, Nat.add_assoc,
      Nat.add_comm 1]

theorem numstr_loop_sign {sg : Bytes} (hsg : sign_part sg) (dp ep : Int) (rest : Bytes) :
    numstr_loop param numstr dp ep 0 (sg ++ rest) = numstr_loop param numstr dp ep sg.length rest := by
  rcases hsg with rfl | rfl | rfl <;> simp [numstr_loop]

/-- The mantissa moves the loop past it, the dot position set or not. -/
theorem numstr_loop_mantissa {m : Bytes} (hm : mantissa_part m) (ep : Int) (i : Nat) (rest : Bytes) :
    ∃ dp, numstr_loop param numstr (-1) ep i (m ++ rest) = numstr_loop param numstr dp ep (i + m.length) rest := by
  rcases hm with ⟨-, hd⟩ | ⟨d, f, rfl, -, hd, hf⟩ | ⟨f, rfl, -, hf⟩
  · exact ⟨-1, numstr_loop_digits hd i rest⟩
  · refine ⟨(i + d.length : Nat), ?_⟩
    rw [List.append_assoc, numstr_loop_digits hd, List.cons_append, numstr_loop, if_neg (by decide),
      if_neg (by decide), if_neg (by decide), if_pos rfl, if_neg (by decide), numstr_loop_digits hf]
    simp only [List.length_append, List.length_cons]
    congr 1
    omega
  · refine ⟨(i : Nat), ?_⟩
    rw [List.cons_append, numstr_loop, if_neg (by decide), if_neg (by decide), if_neg (by decide), if_pos rfl,
      if_neg (by decide), numstr_loop_digits hf, List.length_cons]
    congr 1
    omega

theorem numstr_loop_exponent {x : Bytes} (hx : exponent_part x) (dp : Int) (i : Nat) :
    numstr_loop param numstr dp (-1) i x = none := by
  rcases hx with rfl | ⟨e, sg, d, rfl, he, hsg, -, hd⟩
  · rfl
  have hexp : numstr_loop param numstr dp (-1) i (e :: (sg ++ d)) =
      numstr_loop param numstr dp i (i + 1) (sg ++ d) := by
    rcases he with rfl | rfl <;> simp [numstr_loop]
  rw [hexp]
  have hsign : numstr_loop param numstr dp i (i + 1) (sg ++ d) =
      numstr_loop param numstr dp i (i + 1 + sg.length) d := by
    rcases hsg with rfl | rfl | rfl <;> simp [numstr_loop]
  rw [hsign, ← List.append_nil d, numstr_loop_digits hd]
  rfl

/-- BindNumstr binds every decimal number literal. -/
theorem BindNumstr_accepts_decimal (uc : Casing) (part : SQLpart) (param numstr : Bytes) (targets : List Nat)
    (he : part.err = none) (known : part.placeholderMap.lookup (ToLower uc param) = some targets)
    (hd : DecimalLiteral (TrimSpace numstr)) :
    BindNumstr uc part param numstr =
      { part with textFragments := targets.foldl (fun fs pos => fs.set pos (some (TrimSpace numstr))) part.textFragments } := by
  have hloop : numstr_loop param (TrimSpace numstr) (-1) (-1) 0 (TrimSpace numstr) = none := by
    obtain ⟨sg, m, x, hs, hsg, hm, hx⟩ := hd
    conv => lhs; rw [hs]
    rw [List.append_assoc, numstr_loop_sign hsg]
    obtain ⟨dp, hdp⟩ := numstr_loop_mantissa hm (-1) sg.length x
    rw [hdp]
    exact numstr_loop_exponent hx dp _
  rw [BindNumstr_of_known he known, hloop]

theorem TrimSpace_number : TrimSpace [0x2D, 0x31, 0x2E, 0x35, 0x65, 0x33] = [0x2D, 0x31, 0x2E, 0x35, 0x65, 0x33] := by
  have h1 : trim_left space_runes [0x2D, 0x31, 0x2E, 0x35, 0x65, 0x33] = [0x2D, 0x31, 0x2E, 0x35, 0x65, 0x33] :=
    trim_left_none (by decide)
  have h2 : trim_left (space_runes.map List.reverse) [0x33, 0x65, 0x35, 0x2E, 0x31, 0x2D] =
      [0x33, 0x65, 0x35, 0x2E, 0x31, 0x2D] := trim_left_none (by decide)
  rw [TrimSpace, h1]
  exact congrArg List.reverse h2

/-- "-1.5e3" is bound as it is. -/
theorem BindNumstr_accepts_decimal_one_slot :
    (⟨[none], [([0x78], [0])], none⟩ : SQLpart).err = none ∧
    PlaceholderMap.lookup [([0x78], [0])] (ToLower ascii_casing [0x78]) = some [0] ∧
    DecimalLiteral (TrimSpace [0x2D, 0x31, 0x2E, 0x35, 0x65, 0x33]) ∧
    BindNumstr ascii_casing ⟨[none], [([0x78], [0])], none⟩ [0x78] [0x2D, 0x31, 0x2E, 0x35, 0x65, 0x33] =
      { (⟨[none], [([0x78], [0])], none⟩ : SQLpart) with
        textFragments := [0].foldl (fun fs pos => fs.set pos (some (TrimSpace [0x2D, 0x31, 0x2E, 0x35, 0x65, 0x33])))
          [none] } :=
  have hd : DecimalLiteral (TrimSpace [0x2D, 0x31, 0x2E, 0x35, 0x65, 0x33]) := by
    rw [TrimSpace_number]
    exact ⟨[0x2D], [0x31, 0x2E, 0x35], [0x65, 0x33], rfl, .inr (.inr rfl),
      .inr (.inl ⟨[0x31], [0x35], rfl, by decide, by unfold digits; decide, by unfold digits; decide⟩),
      .inr ⟨0x65, [], [0x33], rfl, .inl rfl, .inl rfl, by decide, by unfold digits; decide⟩⟩
  ⟨rfl, by decide, hd,
    BindNumstr_accepts_decimal ascii_casing ⟨[none], [([0x78], [0])], none⟩ [0x78] _ [0] rfl (by decide) hd⟩

end Accepts

end Rsql.Drv
