import Mathlib.Data.List.Nodup
import Mathlib.Logic.Function.Basic
import Rsql.Drv.Runes
import Rsql.Drv.SQLpart

/-! What a SQLpart is. A text NewSQLpart accepts is made of text fragments and
placeholders: f0, then for each placeholder the opening delimiter, its name,
the terminating delimiter and the fragment after it; no delimiter starts inside
a fragment or a name, and no name holds a newline. The part's fragments are
those fragments (the empty ones left out) with a slot for each placeholder, and
its map gives each name lower(trim(n)) the positions of its slots. After any
Bind calls, Text returns the first failed call's error, or the first
placeholder no call filled, or the fragments with each slot holding the last
literal bound to its name. -/
namespace Rsql.Drv

/-! ### The placeholder map -/

namespace PlaceholderMap

theorem lookup_push (m : PlaceholderMap) (k k' : Bytes) (pos : Nat) :
    (m.push k pos).lookup k' = if k = k' then some ((m.lookup k).getD [] ++ [pos]) else m.lookup k' := by
  induction m with
  | nil => by_cases h : k = k' <;> simp [push, lookup, h]
  | cons e m ih =>
    obtain ⟨k'', ts⟩ := e
    by_cases h1 : k'' = k <;> by_cases h2 : k'' = k' <;> by_cases h3 : k = k' <;> simp_all [push, lookup]

theorem keys_push (m : PlaceholderMap) (k : Bytes) (pos : Nat) :
    (m.push k pos).map Prod.fst = if k ∈ m.map Prod.fst then m.map Prod.fst else m.map Prod.fst ++ [k] := by
  induction m with
  | nil => rfl
  | cons e m ih =>
    obtain ⟨k', ts⟩ := e
    by_cases h : k' = k
    · simp [push, h]
    · by_cases hk : k ∈ m.map Prod.fst <;> simp_all [push, Ne.symm h]

theorem nodup_push {m : PlaceholderMap} (hm : (m.map Prod.fst).Nodup) (k : Bytes) (pos : Nat) :
    ((m.push k pos).map Prod.fst).Nodup := by
  rw [keys_push]
  split
  · exact hm
  · exact List.nodup_append.2 ⟨hm, List.nodup_singleton k, List.disjoint_singleton.2 ‹_›⟩

theorem lookup_of_mem {m : PlaceholderMap} (hm : (m.map Prod.fst).Nodup) {e : Bytes × List Nat}
    (he : e ∈ m) : m.lookup e.1 = some e.2 := by
  induction m with
  | nil => cases he
  | cons e' m ih =>
    rw [List.map_cons, List.nodup_cons] at hm
    rcases List.mem_cons.1 he with rfl | he
    · simp [lookup]
    · have hne : e'.1 ≠ e.1 := fun h => hm.1 (h ▸ List.mem_map_of_mem Prod.fst he)
      simp only [lookup, hne, if_false, ih hm.2 he]

theorem mem_of_lookup {m : PlaceholderMap} {k : Bytes} {ts : List Nat} (h : m.lookup k = some ts) :
    (k, ts) ∈ m := by
  induction m with
  | nil => cases h
  | cons e m ih =>
    obtain ⟨k', ts'⟩ := e
    simp only [lookup] at h
    split at h
    · cases h; subst k'; exact List.mem_cons_self _ _
    · exact List.mem_cons_of_mem _ (ih h)

end PlaceholderMap

/-- Text finds the one name whose positions hold `q`. -/
theorem find_name_eq {m : PlaceholderMap} (hm : (m.map Prod.fst).Nodup) {q : Nat} {k : Bytes}
    {ts : List Nat} (hk : m.lookup k = some ts) (hq : q ∈ ts)
    (huniq : ∀ k' ts', m.lookup k' = some ts' → q ∈ ts' → k' = k) : find_name m q = some k := by
  unfold find_name
  cases hf : m.find? (fun e => e.2.contains q) with
  | none =>
    have := List.find?_eq_none.1 hf (k, ts) (PlaceholderMap.mem_of_lookup hk)
    simp [hq] at this
  | some e =>
    have hc : q ∈ e.2 := by simpa using List.find?_some hf
    exact congrArg some (huniq e.1 e.2 (PlaceholderMap.lookup_of_mem hm (List.mem_of_find?_eq_some hf)) hc)

/-! ### Fragments and slots -/

/-- What a part is made of: text fragments and placeholders. -/
inductive Item where
  | text (f : Bytes)
  | placeholder (name : Bytes)
  deriving DecidableEq, Repr

/-- The name a placeholder written `n` is bound under: lower(trim(n)). -/
def key (uc : Casing) (n : Bytes) : Bytes := ToLower uc (TrimSpace n)

/-- A text fragment, left out when it is empty. -/
def text_item (f : Bytes) : List Item := if f = [] then [] else [.text f]

/-- The items of f0 followed by placeholders named `s.1`, each followed by
the fragment `s.2`. -/
def items (uc : Casing) (f0 : Bytes) (segs : List (Bytes × Bytes)) : List Item :=
  text_item f0 ++ segs.flatMap fun s => .placeholder (key uc s.1) :: text_item s.2

/-- The fragment at an item: its text, or what `env` binds to its name. -/
def Item.slot (env : Bytes → Option Bytes) : Item → Option Bytes
  | .text f => some f
  | .placeholder k => env k

/-- The positions of the placeholders named `k`, in order. -/
def positions (its : List Item) (k : Bytes) : List Nat :=
  (List.range its.length).filter fun q => its[q]? = some (.placeholder k)

theorem mem_positions {its : List Item} {k : Bytes} {q : Nat} :
    q ∈ positions its k ↔ its[q]? = some (.placeholder k) := by
  simp only [positions, List.mem_filter, List.mem_range, decide_eq_true_eq, and_iff_right_iff_imp]
  intro h
  exact (List.getElem?_eq_some_iff.1 h).1

theorem positions_append (its : List Item) (it : Item) (k : Bytes) :
    positions (its ++ [it]) k = positions its k ++ if it = .placeholder k then [its.length] else [] := by
  unfold positions
  rw [List.length_append, List.length_singleton, List.range_succ, List.filter_append]
  congr 1
  · exact List.filter_congr fun q hq => by rw [List.getElem?_append_left (List.mem_range.1 hq)]
  · by_cases h : it = .placeholder k <;> simp [h]

/-- The map NewSQLpart builds for `its`: each name with the positions of its
slots, and no name twice. -/
def Maps (its : List Item) (m : PlaceholderMap) : Prop :=
  (m.map Prod.fst).Nodup ∧ ∀ k, m.lookup k = if positions its k = [] then none else some (positions its k)

theorem Maps.nil : Maps [] [] :=
  ⟨List.nodup_nil, fun k => by simp [positions, PlaceholderMap.lookup]⟩

theorem Maps.text {its : List Item} {m : PlaceholderMap} (h : Maps its m) (f : Bytes) :
    Maps (its ++ [.text f]) m :=
  ⟨h.1, fun k => by simp [positions_append, h.2 k]⟩

theorem Maps.text_item {its : List Item} {m : PlaceholderMap} (h : Maps its m) (f : Bytes) :
    Maps (its ++ text_item f) m := by
  unfold Drv.text_item
  split
  · rwa [List.append_nil]
  · exact h.text f

theorem Maps.push {its : List Item} {m : PlaceholderMap} (h : Maps its m) (k : Bytes) :
    Maps (its ++ [.placeholder k]) (m.push k its.length) := by
  refine ⟨PlaceholderMap.nodup_push h.1 k _, fun k' => ?_⟩
  have hget : (m.lookup k).getD [] = positions its k := by rw [h.2]; split <;> simp_all
  rw [PlaceholderMap.lookup_push, hget, positions_append]
  by_cases hk : k = k'
  · subst hk; simp
  · simp [hk, h.2 k']

/-- The name Text reports at a slot is the slot's name. -/
theorem Maps.find_name {its : List Item} {m : PlaceholderMap} (h : Maps its m) {q : Nat} {k : Bytes}
    (hq : its[q]? = some (.placeholder k)) : find_name m q = some k := by
  have hmem : q ∈ positions its k := mem_positions.2 hq
  have hne : positions its k ≠ [] := List.ne_nil_of_mem hmem
  refine find_name_eq h.1 (by rw [h.2, if_neg hne]) hmem fun k' ts' hk' hq' => ?_
  rw [h.2] at hk'
  split at hk'
  · cases hk'
  · cases hk'
    rw [mem_positions, hq] at hq'
    cases hq'
    rfl

/-! ### The split NewSQLpart reads -/

section Split

variable (L R : Bytes)

/-- The text of the placeholders and fragments after f0. -/
def joined (segs : List (Bytes × Bytes)) : Bytes := (segs.map fun s => L ++ s.1 ++ R ++ s.2).flatten

/-- Some occurrence of `x` starts inside `f`, which `c` follows in the text. -/
def starts_inside (x f c : Bytes) : Prop := ∃ j < f.length, x <+: f.drop j ++ c

/-- No delimiter starts inside `f`. -/
def clean (f c : Bytes) : Prop := ¬ starts_inside L f c ∧ ¬ starts_inside R f c

/-- The names and the fragments after them: no delimiter starts inside them,
and no name holds a newline. -/
def segs_clean : List (Bytes × Bytes) → Prop
  | [] => True
  | (n, f) :: segs =>
    clean L R n (R ++ f ++ joined L R segs) ∧ 0x0A ∉ n ∧ clean L R f (joined L R segs) ∧ segs_clean segs

/-- The split of a text into f0 and placeholders with their fragments. -/
def Split (f0 : Bytes) (segs : List (Bytes × Bytes)) : Prop := clean L R f0 (joined L R segs) ∧ segs_clean L R segs

theorem joined_cons (n f : Bytes) (segs : List (Bytes × Bytes)) :
    joined L R ((n, f) :: segs) = L ++ n ++ R ++ f ++ joined L R segs := by
  simp [joined]

theorem clean_nil (c : Bytes) : clean L R [] c := ⟨nofun, nofun⟩

variable {L R}

theorem starts_inside_cons {x c : Bytes} {b : UInt8} {f : Bytes} :
    starts_inside x (b :: f) c ↔ x <+: b :: (f ++ c) ∨ starts_inside x f c := by
  constructor
  · rintro ⟨j, hj, h⟩
    cases j with
    | zero => exact .inl h
    | succ j => exact .inr ⟨j, by simpa using hj, h⟩
  · rintro (h | ⟨j, hj, h⟩)
    · exact ⟨0, by simp, h⟩
    · exact ⟨j + 1, by simpa using hj, h⟩

theorem clean.cons {b : UInt8} {f c : Bytes} (hL : ¬ L <+: b :: (f ++ c)) (hR : ¬ R <+: b :: (f ++ c))
    (h : clean L R f c) : clean L R (b :: f) c :=
  ⟨by rw [starts_inside_cons]; exact not_or.2 ⟨hL, h.1⟩, by rw [starts_inside_cons]; exact not_or.2 ⟨hR, h.2⟩⟩

end Split

/-! ### The loop -/

/-- The scanner has written the fragments and the map of `its`. -/
def Scanner.Refines (sc : Scanner) (its : List Item) : Prop :=
  sc.textFragments = its.map (Item.slot fun _ => none) ∧ Maps its sc.placeholderMap

/-- With the fragment it is reading, the scanner has written those of `its`. -/
def Scanner.Flushes (sc : Scanner) (its : List Item) : Prop :=
  sc.fragments_with_piece = its.map (Item.slot fun _ => none) ∧ Maps its sc.placeholderMap

namespace Scanner

variable {sc : Scanner} {its : List Item}

theorem Refines.start : Scanner.start.Refines [] := ⟨rfl, Maps.nil⟩

theorem Refines.flushes (h : sc.Refines its) : sc.Flushes (its ++ text_item sc.piece) := by
  refine ⟨?_, h.2.text_item _⟩
  unfold fragments_with_piece Drv.text_item
  split <;> simp [h.1, Item.slot]

theorem Refines.open_placeholder (h : sc.Refines its) :
    sc.open_placeholder.Refines (its ++ text_item sc.piece) :=
  h.flushes

theorem Refines.close_placeholder (h : sc.Refines its) (name : Bytes) :
    (sc.close_placeholder name).Refines (its ++ [.placeholder name]) := by
  have hlen : sc.textFragments.length = its.length := by rw [h.1, List.length_map]
  refine ⟨by simp [Scanner.close_placeholder, h.1, Item.slot], ?_⟩
  show Maps _ (sc.placeholderMap.push name sc.textFragments.length)
  rw [hlen]
  exact h.2.push name

theorem Refines.next_byte (h : sc.Refines its) (b : UInt8) : (sc.next_byte b).Refines its := h

end Scanner

section Loop

variable (uc : Casing) (d : Delims)

/-- What a run of the loop from `sc` over `rest` has read when it ends in
StateText at `sc'`. From StateText: a fragment, then placeholders with the
fragments after them. From StatePlaceholder: the rest of a name and the
terminating delimiter first. -/
def Scanned (sc : Scanner) (rest : Bytes) (sc' : Scanner) : Prop :=
  match sc.state with
  | .StateText =>
    ∃ f0 segs, rest = f0 ++ joined d.delimLeft d.delimRight segs ∧ Split d.delimLeft d.delimRight f0 segs ∧
      ∀ its, sc.Refines its → sc'.Flushes (its ++ items uc (sc.piece ++ f0) segs)
  | .StatePlaceholder =>
    ∃ n f0 segs, rest = n ++ d.delimRight ++ f0 ++ joined d.delimLeft d.delimRight segs ∧
      clean d.delimLeft d.delimRight n (d.delimRight ++ f0 ++ joined d.delimLeft d.delimRight segs) ∧
      0x0A ∉ n ∧ Split d.delimLeft d.delimRight f0 segs ∧
      ∀ its, sc.Refines its → sc'.Flushes (its ++ .placeholder (key uc (sc.piece ++ n)) :: items uc f0 segs)

variable {uc d} {sc sc' : Scanner} {rest : Bytes}

theorem scanned_text (hs : sc.state = .StateText) : Scanned uc d sc rest sc' ↔
    ∃ f0 segs, rest = f0 ++ joined d.delimLeft d.delimRight segs ∧ Split d.delimLeft d.delimRight f0 segs ∧
      ∀ its, sc.Refines its → sc'.Flushes (its ++ items uc (sc.piece ++ f0) segs) := by
  simp only [Scanned, hs]

theorem scanned_placeholder (hs : sc.state = .StatePlaceholder) : Scanned uc d sc rest sc' ↔
    ∃ n f0 segs, rest = n ++ d.delimRight ++ f0 ++ joined d.delimLeft d.delimRight segs ∧
      clean d.delimLeft d.delimRight n (d.delimRight ++ f0 ++ joined d.delimLeft d.delimRight segs) ∧
      0x0A ∉ n ∧ Split d.delimLeft d.delimRight f0 segs ∧
      ∀ its, sc.Refines its → sc'.Flushes (its ++ .placeholder (key uc (sc.piece ++ n)) :: items uc f0 segs) := by
  simp only [Scanned, hs]

theorem eq_append_drop_length {x s : Bytes} (h : x <+: s) : s = x ++ s.drop x.length := by
  obtain ⟨t, rfl⟩ := h
  rw [List.drop_left]

/-- Every run of the loop that ends in StateText reads a split. -/
theorem scan_scanned :
    ∀ sc rest sc', scan uc d sc rest = .ok sc' → sc'.state = .StateText → Scanned uc d sc rest sc' := by
  refine scan.induct uc d (motive := fun sc rest => ∀ sc', scan uc d sc rest = .ok sc' → sc'.state = .StateText →
    Scanned uc d sc rest sc') ?_ ?_ ?_ ?_ ?_ ?_ ?_ ?_
  · -- the end of the text
    intro sc sc' h hs
    rw [scan] at h
    cases h
    rw [scanned_text hs]
    exact ⟨[], [], rfl, ⟨clean_nil _ _ _, trivial⟩, fun its h => by simpa [items] using h.flushes⟩
  · intro sc b bs hL hs sc' h _
    rw [scan, if_pos hL, if_pos hs] at h
    cases h
  · -- an opening delimiter
    intro sc b bs hL hs ih sc' h hs'
    rw [scan, if_pos hL, if_neg hs] at h
    obtain ⟨n, f0, segs, hrest, hn, hnl, hsplit, hflush⟩ := (scanned_placeholder rfl).1 (ih sc' h hs')
    rw [scanned_text (not_not.1 hs)]
    refine ⟨[], (n, f0) :: segs, ?_, ⟨clean_nil _ _ _, hn, hnl, hsplit⟩, fun its h => ?_⟩
    · rw [eq_append_drop_length hL, hrest, joined_cons]
      simp only [List.nil_append, List.append_assoc]
    · simpa [items, List.append_assoc, Scanner.open_placeholder] using hflush _ h.open_placeholder
  · intro sc b bs hL hR hs sc' h _
    rw [scan, if_neg hL, if_pos hR, if_pos hs] at h
    cases h
  · intro sc b bs hL hR hs hname sc' h _
    rw [scan, if_neg hL, if_pos hR, if_neg hs, if_pos hname] at h
    cases h
  · -- a terminating delimiter
    intro sc b bs hL hR hs hname ih sc' h hs'
    rw [scan, if_neg hL, if_pos hR, if_neg hs, if_neg hname] at h
    obtain ⟨f0, segs, hrest, hsplit, hflush⟩ := (scanned_text rfl).1 (ih sc' h hs')
    rw [scanned_placeholder (not_not.1 hs)]
    refine ⟨[], f0, segs, ?_, clean_nil _ _ _, List.not_mem_nil _, hsplit, fun its h => ?_⟩
    · rw [eq_append_drop_length hR, hrest]
      simp only [List.nil_append, List.append_assoc]
    · have := hflush _ (h.close_placeholder _)
      simpa [items, List.append_assoc, Scanner.close_placeholder, TrimSpace_ToLower, key] using this
  · intro sc b bs hL hR hnl sc' h _
    rw [scan, if_neg hL, if_neg hR, if_pos hnl] at h
    cases h
  · -- any other byte
    intro sc b bs hL hR hnl ih sc' h hs'
    rw [scan, if_neg hL, if_neg hR, if_neg hnl] at h
    have ih := ih sc' h hs'
    cases hst : sc.state with
    | StateText =>
      obtain ⟨f0, segs, rfl, hsplit, hflush⟩ :=
        (scanned_text (show (sc.next_byte b).state = .StateText from hst)).1 ih
      rw [scanned_text hst]
      refine ⟨b :: f0, segs, rfl, ⟨clean.cons hL hR hsplit.1, hsplit.2⟩, fun its h => ?_⟩
      simpa [Scanner.next_byte] using hflush its (h.next_byte b)
    | StatePlaceholder =>
      obtain ⟨n, f0, segs, rfl, hn, hnl', hsplit, hflush⟩ :=
        (scanned_placeholder (show (sc.next_byte b).state = .StatePlaceholder from hst)).1 ih
      rw [scanned_placeholder hst]
      have hb : b ≠ 0x0A := fun hb => hnl ⟨hb, hst⟩
      refine ⟨b :: n, f0, segs, rfl, clean.cons ?_ ?_ hn, ?_, hsplit, fun its h => ?_⟩
      · simpa [List.append_assoc] using hL
      · simpa [List.append_assoc] using hR
      · simp [hb.symm, hnl']
      · simpa [Scanner.next_byte] using hflush its (h.next_byte b)

end Loop

theorem new_sqlpart_scan {uc : Casing} {text L R : Bytes} {part : SQLpart} (h : new_sqlpart uc text L R = .ok part) :
    ∃ d : Delims, d.delimLeft = L ∧ d.delimRight = R ∧ ∃ sc', scan uc d .start text = .ok sc' ∧
      sc'.state = .StateText ∧ part = ⟨sc'.fragments_with_piece, sc'.placeholderMap, none⟩ := by
  unfold new_sqlpart at h
  split_ifs at h with hl hr hlr
  split at h
  · cases h
  · rename_i sc' hsc
    split at h
    · cases h
    · exact ⟨_, rfl, rfl, sc', hsc, not_not.1 ‹_›, (Except.ok.inj h).symm⟩

/-- A text NewSQLpart accepts is split into fragments and placeholders, and
the part holds the split's slots and map. -/
theorem NewSQLpart_split {uc : Casing} {t L R : Bytes} {part : SQLpart} (accepted : NewSQLpart uc t [L, R] = .ok part) :
    ∃ f0 segs, t = f0 ++ joined L R segs ∧ Split L R f0 segs ∧ part.err = none ∧
      part.textFragments = (items uc f0 segs).map (Item.slot fun _ => none) ∧
      Maps (items uc f0 segs) part.placeholderMap := by
  obtain ⟨d, rfl, rfl, sc', hscan, hs, rfl⟩ := new_sqlpart_scan accepted
  obtain ⟨f0, segs, ht, hsplit, hflush⟩ := (scanned_text rfl).1 (scan_scanned .start t sc' hscan hs)
  have hparts := hflush [] Scanner.Refines.start
  simp only [List.nil_append, Scanner.start] at hparts
  exact ⟨f0, segs, ht, hsplit, rfl, hparts.1, hparts.2⟩

/-! ### Bind calls -/

/-- The part holds the fragments of `its` with the literals `env` binds, and
the map of `its`. -/
def SQLpart.Holds (part : SQLpart) (its : List Item) (env : Bytes → Option Bytes) : Prop :=
  part.textFragments = its.map (Item.slot env) ∧ Maps its part.placeholderMap

theorem getElem?_foldl_set {α : Type} (a : α) : ∀ (ps : List Nat) (fs : List α) (q : Nat),
    (ps.foldl (fun fs pos => fs.set pos a) fs)[q]? = if q ∈ ps ∧ q < fs.length then some a else fs[q]?
  | [], fs, q => by simp
  | p :: ps, fs, q => by
    rw [List.foldl_cons, getElem?_foldl_set a ps, List.length_set, List.getElem?_set]
    rcases eq_or_ne p q with rfl | hp
    · by_cases hl : p < fs.length <;> simp_all [List.getElem?_eq_none]
    · have hp' : q ≠ p := Ne.symm hp
      by_cases hq : q ∈ ps <;> simp_all

/-- setParam puts the literal in exactly the slots of the name. -/
theorem fill_positions (its : List Item) (env : Bytes → Option Bytes) (k v : Bytes) :
    (positions its k).foldl (fun fs pos => fs.set pos (some v)) (its.map (Item.slot env)) =
      its.map (Item.slot (Function.update env k (some v))) := by
  apply List.ext_getElem?
  intro q
  rw [getElem?_foldl_set, List.length_map, List.getElem?_map, List.getElem?_map]
  simp only [mem_positions]
  cases hq : its[q]? with
  | none => simp
  | some it =>
    have hlt : q < its.length := (List.getElem?_eq_some_iff.1 hq).1
    by_cases hit : it = .placeholder k
    · subst hit
      simp [hlt, Item.slot]
    · simp only [Option.some.injEq, hit, false_and, if_false, Option.map_some']
      cases it with
      | text f => rfl
      | placeholder k' => exact (Function.update_noteq (fun h => hit (congrArg Item.placeholder h)) _ _).symm

theorem setParam_holds {uc : Casing} {part : SQLpart} {its : List Item} {env : Bytes → Option Bytes}
    (h : part.Holds its env) (he : part.err = none) (param v : Bytes) :
    setParam uc part param v =
      if positions its (ToLower uc param) = [] then { part with err := some (.param_not_known (ToLower uc param)) }
      else { part with textFragments := its.map (Item.slot (Function.update env (ToLower uc param) (some v))) } := by
  have hl := h.2.2 (ToLower uc param)
  by_cases hk : positions its (ToLower uc param) = []
  · rw [if_pos hk] at hl
    simp [setParam, he, hl, hk]
  · rw [if_neg hk] at hl
    simp only [setParam, he, Option.isSome_none, Bool.false_eq_true, if_false, hl, if_neg hk]
    rw [h.1, fill_positions]

/-- What Bind calls do to a template whose placeholder names are `names`:
the first failure's error, or the last literal bound to each name. -/
def bind_spec (uc : Casing) (pr : Printers) (names : List Bytes) :
    Except Error (Bytes → Option Bytes) → Bind → Except Error (Bytes → Option Bytes)
  | .error e, _ => .error e
  | .ok env, c =>
    match c.val pr with
    | .error e => .error e
    | .ok v =>
      if ToLower uc c.param ∈ names then .ok (Function.update env (ToLower uc c.param) (some v))
      else .error (.param_not_known (ToLower uc c.param))

/-- bind_spec for a call given by its parameter name and the literal or error
its method computes. -/
def bind_step (uc : Casing) (names : List Bytes) (s : Except Error (Bytes → Option Bytes)) (param : Bytes)
    (val : Except Error Bytes) : Except Error (Bytes → Option Bytes) :=
  match s, val with
  | .error e, _ => .error e
  | .ok _, .error e => .error e
  | .ok env, .ok v =>
    if ToLower uc param ∈ names then .ok (Function.update env (ToLower uc param) (some v))
    else .error (.param_not_known (ToLower uc param))

theorem bind_spec_eq (uc : Casing) (pr : Printers) (names : List Bytes) (s : Except Error (Bytes → Option Bytes))
    (c : Bind) : bind_spec uc pr names s c = bind_step uc names s c.param (c.val pr) := by
  cases s with
  | error e => rfl
  | ok env => simp only [bind_spec, bind_step]; cases c.val pr <;> rfl

/-- The part after calls that `s` reads. -/
def SQLpart.Follows (part : SQLpart) (its : List Item) : Except Error (Bytes → Option Bytes) → Prop
  | .error e => part.err = some e ∧ Maps its part.placeholderMap
  | .ok env => part.err = none ∧ part.Holds its env

section Binds

variable {uc : Casing} {its : List Item} {names : List Bytes} (hnames : ∀ k, k ∈ names ↔ positions its k ≠ [])
include hnames

theorem bind_with_follows {part : SQLpart} {s : Except Error (Bytes → Option Bytes)}
    (h : part.Follows its s) (param : Bytes) (val : Except Error Bytes) :
    (bind_with uc part param val).Follows its (bind_step uc names s param val) := by
  cases s with
  | error e =>
    obtain ⟨he, hm⟩ := h
    simp only [bind_with, he, Option.isSome_some, if_true, bind_step]
    exact ⟨he, hm⟩
  | ok env =>
    obtain ⟨he, hh⟩ := h
    cases val with
    | error e => simp only [bind_with, he, bind_step]; exact ⟨rfl, hh.2⟩
    | ok v =>
      have hbind : bind_with uc part param (.ok v) = setParam uc part param v := by simp [bind_with, he]
      rw [hbind, setParam_holds hh he]
      by_cases hk : positions its (ToLower uc param) = []
      · have hout : ToLower uc param ∉ names := fun hin => (hnames _).1 hin hk
        simp only [bind_step, if_neg hout, if_pos hk]
        exact ⟨rfl, hh.2⟩
      · have hin : ToLower uc param ∈ names := (hnames _).2 hk
        simp only [bind_step, if_pos hin, if_neg hk]
        exact ⟨he, rfl, hh.2⟩

theorem binds_follow (pr : Printers) :
    ∀ (calls : List Bind) (part : SQLpart) (s : Except Error (Bytes → Option Bytes)), part.Follows its s →
      (calls.foldl (fun p c => c.run uc pr p) part).Follows its (calls.foldl (bind_spec uc pr names) s)
  | [], _, _, h => h
  | c :: calls, part, s, h => by
    rw [List.foldl_cons, List.foldl_cons, Bind.run_eq, bind_spec_eq]
    exact binds_follow pr calls _ _ (bind_with_follows hnames h c.param (c.val pr))

end Binds

/-! ### Text -/

/-- The text of `its` with each slot holding what `env` binds to its name;
the first slot with nothing names the error. -/
def render (env : Bytes → Option Bytes) : List Item → Except Error Bytes
  | [] => .ok []
  | .text f :: its => (render env its).map (f ++ ·)
  | .placeholder k :: its =>
    match env k with
    | none => .error (.placeholder_not_filled k)
    | some v => (render env its).map (v ++ ·)

def of_except : Except Error Bytes → Result Unit Bytes
  | .ok b => .ok b ()
  | .error e => .error e ()

theorem map_map_append (x : Except Error Bytes) (a b : Bytes) :
    (x.map (b ++ ·)).map (a ++ ·) = x.map ((a ++ b) ++ ·) := by
  cases x <;> simp [Except.map]

theorem text_loop_render {its : List Item} {m : PlaceholderMap} (hm : Maps its m) (env : Bytes → Option Bytes) :
    ∀ (pre rest : List Item) (buff : Bytes), its = pre ++ rest →
      text_loop m pre.length (rest.map (Item.slot env)) buff = of_except ((render env rest).map (buff ++ ·))
  | pre, [], buff, _ => by simp [text_loop, render, of_except, Except.map]
  | pre, .text f :: rest, buff, h => by
    have ih := text_loop_render hm env (pre ++ [.text f]) rest (buff ++ f) (by simp [h])
    rw [List.length_append, List.length_singleton] at ih
    rw [List.map_cons, Item.slot, text_loop, ih, render, map_map_append]
  | pre, .placeholder k :: rest, buff, h => by
    cases hk : env k with
    | none =>
      have hq : its[pre.length]? = some (.placeholder k) := by
        rw [h, List.getElem?_append_right (le_refl _), Nat.sub_self, List.getElem?_cons_zero]
      simp [text_loop, Item.slot, hk, hm.find_name hq, render, of_except, Except.map]
    | some v =>
      have ih := text_loop_render hm env (pre ++ [.placeholder k]) rest (buff ++ v) (by simp [h])
      rw [List.length_append, List.length_singleton] at ih
      rw [List.map_cons, Item.slot, hk, text_loop, ih, render, hk]
      simp only [map_map_append]

/-- Text after calls read as `s`. -/
def text_of (its : List Item) : Except Error (Bytes → Option Bytes) → Except Error Bytes
  | .error e => .error e
  | .ok env => render env its

theorem Text_follows {part : SQLpart} {its : List Item} {s : Except Error (Bytes → Option Bytes)}
    (h : part.Follows its s) : part.Text = of_except (text_of its s) := by
  cases s with
  | error e => simp [SQLpart.Text, h.1, of_except, text_of]
  | ok env =>
    obtain ⟨he, hf, hm⟩ : part.err = none ∧ part.Holds its env := h
    have hnil : (render env its).map ([] ++ ·) = render env its := by cases render env its <;> rfl
    rw [SQLpart.Text, he, hf, text_of, ← hnil]
    exact text_loop_render hm env [] its [] rfl

/-! ### Templates -/

/-- Text after `calls` on the template of f0 and `segs`: the first failed
call's error; else the first placeholder no call filled; else f0 and the
fragments, each placeholder replaced by the last literal bound to its name. -/
def template_text (uc : Casing) (pr : Printers) (f0 : Bytes) (segs : List (Bytes × Bytes)) (calls : List Bind) :
    Except Error Bytes :=
  match calls.foldl (bind_spec uc pr (segs.map fun s => key uc s.1)) (.ok fun _ => none) with
  | .error e => .error e
  | .ok env =>
    match segs.find? fun s => env (key uc s.1) = none with
    | some s => .error (.placeholder_not_filled (key uc s.1))
    | none => .ok (f0 ++ (segs.map fun s => (env (key uc s.1)).getD [] ++ s.2).flatten)

theorem render_text_item (env : Bytes → Option Bytes) (f : Bytes) (its : List Item) :
    render env (text_item f ++ its) = (render env its).map (f ++ ·) := by
  unfold text_item
  split
  · subst f
    rw [List.nil_append]
    cases render env its <;> rfl
  · rfl

theorem render_items (uc : Casing) (env : Bytes → Option Bytes) (f0 : Bytes) (segs : List (Bytes × Bytes)) :
    render env (items uc f0 segs) =
      match segs.find? fun s => env (key uc s.1) = none with
      | some s => .error (.placeholder_not_filled (key uc s.1))
      | none => .ok (f0 ++ (segs.map fun s => (env (key uc s.1)).getD [] ++ s.2).flatten) := by
  induction segs generalizing f0 with
  | nil =>
    show render env (text_item f0 ++ []) = _
    rw [render_text_item]
    rfl
  | cons s segs ih =>
    have hcons : items uc f0 (s :: segs) = text_item f0 ++ .placeholder (key uc s.1) :: items uc s.2 segs := by
      simp [items]
    rw [hcons, render_text_item, render]
    cases hk : env (key uc s.1) with
    | none => simp [hk, Except.map]
    | some v =>
      simp only [hk, ih, List.find?_cons, reduceCtorEq, decide_False, Option.getD_some, List.map_cons,
        List.flatten_cons]
      cases List.find? (fun s => decide (env (key uc s.1) = none)) segs <;> simp [Except.map, List.append_assoc]

theorem placeholder_not_mem_text_item (k f : Bytes) : Item.placeholder k ∉ text_item f := by
  unfold text_item
  split <;> simp

theorem positions_items_ne_nil (uc : Casing) (f0 : Bytes) (segs : List (Bytes × Bytes)) (k : Bytes) :
    positions (items uc f0 segs) k ≠ [] ↔ k ∈ segs.map fun s => key uc s.1 := by
  rw [show positions (items uc f0 segs) k ≠ [] ↔ ∃ q, q ∈ positions (items uc f0 segs) k from
    ⟨List.exists_mem_of_ne_nil _, fun ⟨_, hq⟩ => List.ne_nil_of_mem hq⟩]
  simp only [mem_positions, ← List.mem_iff_getElem?, items, List.mem_append, List.mem_flatMap,
    List.mem_cons, placeholder_not_mem_text_item, false_or, or_false, Item.placeholder.injEq, List.mem_map]
  exact exists_congr fun s => and_congr_right fun _ => eq_comm

/-- NewSQLpart on a text and delimiters it accepts, then any Bind calls, then
Text: the text is a fragment f0 and placeholders with the fragments after
them, free of delimiters and with names free of newlines; the part's slots and
map are those of the split; Text gives template_text, and the first failed
call's error stays in part.err. -/
theorem NewSQLpart_template (uc : Casing) (pr : Printers) (t L R : Bytes) (part : SQLpart)
    (accepted : NewSQLpart uc t [L, R] = .ok part) :
    ∃ f0 segs, t = f0 ++ joined L R segs ∧ Split L R f0 segs ∧
      part.textFragments = (items uc f0 segs).map (Item.slot fun _ => none) ∧
      (∀ k, part.placeholderMap.lookup k =
        if positions (items uc f0 segs) k = [] then none else some (positions (items uc f0 segs) k)) ∧
      ∀ calls : List Bind,
        (calls.foldl (fun p c => c.run uc pr p) part).Text = of_except (template_text uc pr f0 segs calls) ∧
        ∀ e, calls.foldl (bind_spec uc pr (segs.map fun s => key uc s.1)) (.ok fun _ => none) = .error e →
          (calls.foldl (fun p c => c.run uc pr p) part).err = some e := by
  obtain ⟨f0, segs, ht, hsplit, he, hf, hm⟩ := NewSQLpart_split accepted
  have hnames : ∀ k, k ∈ segs.map (fun s => key uc s.1) ↔ positions (items uc f0 segs) k ≠ [] :=
    fun k => (positions_items_ne_nil uc f0 segs k).symm
  refine ⟨f0, segs, ht, hsplit, hf, hm.2, fun calls => ?_⟩
  have h0 : part.Follows (items uc f0 segs) (.ok fun _ => none) := show _ ∧ _ from ⟨he, hf, hm⟩
  have hfollow : (calls.foldl (fun p c => c.run uc pr p) part).Follows _ _ := binds_follow hnames pr calls part _ h0
  refine ⟨?_, fun e herr => by rw [herr] at hfollow; exact hfollow.1⟩
  rw [Text_follows hfollow, template_text]
  generalize calls.foldl (bind_spec _ _ _) _ = s
  cases s with
  | error e => rfl
  | ok env => rw [text_of, render_items uc]

section

attribute [local semireducible] scan trim_left

theorem NewSQLpart_template_one_name :
    NewSQLpart ascii_casing [0x61, 0x7B, 0x7B, 0x58, 0x7D, 0x7D] [[0x7B, 0x7B], [0x7D, 0x7D]] =
      .ok ⟨[some [0x61], none], [([0x78], [1])], none⟩ ∧
    ∃ f0 segs, [0x61, 0x7B, 0x7B, 0x58, 0x7D, 0x7D] = f0 ++ joined [0x7B, 0x7B] [0x7D, 0x7D] segs ∧
      Split [0x7B, 0x7B] [0x7D, 0x7D] f0 segs ∧
      [some [0x61], none] = (items ascii_casing f0 segs).map (Item.slot fun _ => none) ∧
      (∀ k, PlaceholderMap.lookup [([0x78], [1])] k =
        if positions (items ascii_casing f0 segs) k = [] then none
        else some (positions (items ascii_casing f0 segs) k)) ∧
      ∀ calls : List Bind,
        (calls.foldl (fun p c => c.run ascii_casing one_printers p)
          (⟨[some [0x61], none], [([0x78], [1])], none⟩ : SQLpart)).Text =
          of_except (template_text ascii_casing one_printers f0 segs calls) ∧
        ∀ e, calls.foldl (bind_spec ascii_casing one_printers (segs.map fun s => key ascii_casing s.1))
            (.ok fun _ => none) = .error e →
          (calls.foldl (fun p c => c.run ascii_casing one_printers p)
            (⟨[some [0x61], none], [([0x78], [1])], none⟩ : SQLpart)).err = some e := by
  have accepted : NewSQLpart ascii_casing [0x61, 0x7B, 0x7B, 0x58, 0x7D, 0x7D] [[0x7B, 0x7B], [0x7D, 0x7D]] =
      .ok ⟨[some [0x61], none], [([0x78], [1])], none⟩ := rfl
  exact ⟨accepted, NewSQLpart_template _ _ _ _ _ _ accepted⟩
end

end Rsql.Drv
