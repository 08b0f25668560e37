import Mathlib.Data.List.Basic
import Rsql.Drv.Batch
import Rsql.Drv.Template
import Rsql.Rsqlib.Connect

/-! The connection string of NewConnection: "attr=val" items separated by
semicolons, read by splitConnString. unicode.ToLower is the parameter `uc`. -/
namespace Rsql.Drv

open Msgp Rsqlib

/-- strings.Split(s, sep) for a one-byte separator: the pieces between the
separators, Count(s, sep) + 1 of them. -/
def strings.Split (s : Bytes) (sep : UInt8) : List Bytes := s.splitOn sep

/-- strings.Contains(s, substr) for a one-byte substr. -/
def strings.Contains (s : Bytes) (b : UInt8) : Bool := s.contains b

structure connStringAttributes where
  serverAddr : Bytes := []
  login : Bytes := []
  password : Bytes := []
  database : Bytes := []
  deriving DecidableEq, Repr

/-- The switch on the attribute of a well-formed item. -/
def set_attribute (uc : Casing) (attributes : connStringAttributes) (attr val : Bytes) :
    Except Error connStringAttributes :=
  if attr = ascii "server" then
    .ok { attributes with serverAddr := if strings.Contains val 0x3A = false then val ++ ascii ":7777" else val }
  else if attr = ascii "login" then .ok { attributes with login := ToLower uc val }
  else if attr = ascii "password" then .ok { attributes with password := val }
  else if attr = ascii "database" then .ok { attributes with database := ToLower uc val }
  else .error (.conn_string_not_supported attr)

/-- The body of splitConnString's loop, for one item. -/
def split_item (uc : Casing) (attributes : connStringAttributes) (item : Bytes) : Except Error connStringAttributes :=
  if TrimSpace item = [] then .ok attributes
  else
    let parts := strings.Split item 0x3D
    if parts.length ≠ 2 then .error .conn_string_not_pairs
    else
      let attr := ToLower uc (TrimSpace (parts.getD 0 []))
      if attr = [] then .error .conn_string_empty_attribute
      else
        let val := TrimSpace (parts.getD 1 [])
        if val = [] then .error (.conn_string_empty_value attr)
        else set_attribute uc attributes attr val

def splitConnString (uc : Casing) (s : Bytes) : Except Error connStringAttributes :=
  (strings.Split s 0x3B).foldlM (split_item uc) {}

/-- KEEPALIVE_INTERVAL, in seconds. -/
def KEEPALIVE_INTERVAL : Nat := 20

/-- NewConnection, with the attributes the Connection keeps. -/
def NewConnection (uc : Casing) (env : Env) (connectionString : Bytes) :
    Option (Except Error (connStringAttributes × Connection)) :=
  if strings.Contains connectionString 0x3D = false then some (.error .conn_string_not_pairs)
  else match splitConnString uc connectionString with
    | .error err => some (.error err)
    | .ok attributes =>
      (Connect env attributes.serverAddr attributes.login attributes.password attributes.database {}).map
        fun
        | .error _ => .error .connection_login_failed
        | .ok session => .ok (attributes, ⟨session, false⟩)

/-! ### What splitConnString accepts and returns -/

/-- The attribute and value of an item with exactly one '=': the trimmed
pieces around it, the attribute in lower case. -/
def item_pair (uc : Casing) (item : Bytes) : Option (Bytes × Bytes) :=
  match strings.Split item 0x3D with
  | [attr, val] => some (ToLower uc (TrimSpace attr), TrimSpace val)
  | _ => none

/-- The attribute names the switch knows. -/
def known_attributes : List Bytes := [ascii "server", ascii "login", ascii "password", ascii "database"]

/-- Why splitConnString rejects an item, if it does. -/
def item_error (uc : Casing) (item : Bytes) : Option Error :=
  if TrimSpace item = [] then none
  else match item_pair uc item with
    | none => some .conn_string_not_pairs
    | some (attr, val) =>
      if attr = [] then some .conn_string_empty_attribute
      else if val = [] then some (.conn_string_empty_value attr)
      else if attr ∈ known_attributes then none
      else some (.conn_string_not_supported attr)

/-- The attribute and value each non-blank item names, in order. -/
def conn_pairs (uc : Casing) (items : List Bytes) : List (Bytes × Bytes) :=
  items.filterMap fun item => if TrimSpace item = [] then none else item_pair uc item

/-- The value of the last pair that names `attr`. -/
def last_value (ps : List (Bytes × Bytes)) (attr : Bytes) : Option Bytes :=
  (ps.reverse.find? (·.1 = attr)).map (·.2)

/-- The attributes a list of valid pairs names. -/
def attributes_of (uc : Casing) (ps : List (Bytes × Bytes)) : connStringAttributes where
  serverAddr := ((last_value ps (ascii "server")).map fun v =>
    if strings.Contains v 0x3A = false then v ++ ascii ":7777" else v).getD []
  login := ((last_value ps (ascii "login")).map (ToLower uc)).getD []
  password := (last_value ps (ascii "password")).getD []
  database := ((last_value ps (ascii "database")).map (ToLower uc)).getD []

/-- The attributes after a valid pair: `set_attribute`'s result. -/
def assign (uc : Casing) (attributes : connStringAttributes) (p : Bytes × Bytes) : connStringAttributes :=
  match set_attribute uc attributes p.1 p.2 with
  | .ok a => a
  | .error _ => attributes

variable {uc : Casing}

theorem set_attribute_known {attributes : connStringAttributes} {attr : Bytes} (val : Bytes)
    (h : attr ∈ known_attributes) : set_attribute uc attributes attr val = .ok (assign uc attributes (attr, val)) := by
  simp only [known_attributes, List.mem_cons, List.mem_singleton, List.not_mem_nil, or_false] at h
  rcases h with rfl | rfl | rfl | rfl <;> simp +decide [set_attribute, assign]

theorem set_attribute_unknown {attributes : connStringAttributes} {attr : Bytes} (val : Bytes)
    (h : attr ∉ known_attributes) : set_attribute uc attributes attr val = .error (.conn_string_not_supported attr) := by
  simp only [known_attributes, List.mem_cons, List.mem_singleton, List.not_mem_nil, or_false, not_or] at h
  simp [set_attribute, h.1, h.2.1, h.2.2.1, h.2.2.2]

/-- One item: rejected with `item_error`, or assigned its pair. -/
theorem split_item_eq (attributes : connStringAttributes) (item : Bytes) :
    split_item uc attributes item = match item_error uc item with
      | some err => .error err
      | none => .ok (((if TrimSpace item = [] then none else item_pair uc item).map (assign uc attributes ·)).getD
          attributes) := by
  unfold split_item item_error
  by_cases hb : TrimSpace item = []
  · simp [hb]
  · simp only [hb, if_false, item_pair]
    rcases hs : strings.Split item 0x3D with _ | ⟨a, _ | ⟨v, _ | ⟨c, rest⟩⟩⟩
    · rfl
    · rfl
    · simp only [List.length_cons, List.length_nil, List.getD_cons_zero, List.getD_cons_succ,
        ne_eq, not_true_eq_false, if_false]
      by_cases ha : ToLower uc (TrimSpace a) = []
      · simp [ha]
      by_cases hv : TrimSpace v = []
      · simp [ha, hv]
      by_cases hk : ToLower uc (TrimSpace a) ∈ known_attributes
      · simp [ha, hv, hk, set_attribute_known _ hk]
      · simp [ha, hv, hk, set_attribute_unknown _ hk]
    · simp

theorem foldlM_split_item (items : List Bytes) (attributes : connStringAttributes) :
    items.foldlM (split_item uc) attributes = match items.findSome? (item_error uc) with
      | some err => .error err
      | none => .ok ((conn_pairs uc items).foldl (assign uc) attributes) := by
  induction items generalizing attributes with
  | nil => rfl
  | cons item items ih =>
    rw [List.foldlM_cons, split_item_eq, List.findSome?_cons]
    cases h : item_error uc item with
    | some err => rfl
    | none =>
      show items.foldlM (split_item uc) _ = _
      rw [ih]
      by_cases hb : TrimSpace item = []
      · simp [conn_pairs, hb]
      · cases hp : item_pair uc item <;> simp [conn_pairs, hb, hp]

/-- What an assignment does to each field. -/
theorem assign_fields (attributes : connStringAttributes) (p : Bytes × Bytes) :
    assign uc attributes p = {
      serverAddr := if p.1 = ascii "server" then
        (if strings.Contains p.2 0x3A = false then p.2 ++ ascii ":7777" else p.2) else attributes.serverAddr
      login := if p.1 = ascii "login" then ToLower uc p.2 else attributes.login
      password := if p.1 = ascii "password" then p.2 else attributes.password
      database := if p.1 = ascii "database" then ToLower uc p.2 else attributes.database } := by
  unfold assign set_attribute
  by_cases h1 : p.1 = ascii "server"
  · simp +decide [h1]
  by_cases h2 : p.1 = ascii "login"
  · simp +decide [h2]
  by_cases h3 : p.1 = ascii "password"
  · simp +decide [h3]
  by_cases h4 : p.1 = ascii "database"
  · simp +decide [h4]
  · simp [h1, h2, h3, h4]

theorem last_value_cons (p : Bytes × Bytes) (ps : List (Bytes × Bytes)) (attr : Bytes) :
    last_value (p :: ps) attr = (last_value ps attr).or (if p.1 = attr then some p.2 else none) := by
  unfold last_value
  rw [List.reverse_cons, List.find?_append]
  cases ps.reverse.find? (·.1 = attr) <;> by_cases h : p.1 = attr <;> simp [h]

theorem getD_map_or {α β : Type} (o : Option α) (c : Prop) [Decidable c] (x : α) (f : α → β) (d : β) :
    ((o.or (if c then some x else none)).map f).getD d = (o.map f).getD (if c then f x else d) := by
  cases o <;> by_cases c <;> simp [*]

/-- Assigning pairs in order leaves each attribute with the value of the
last pair that names it. -/
theorem foldl_assign (ps : List (Bytes × Bytes)) (attributes : connStringAttributes) :
    ps.foldl (assign uc) attributes = {
      serverAddr := ((last_value ps (ascii "server")).map fun v =>
        if strings.Contains v 0x3A = false then v ++ ascii ":7777" else v).getD attributes.serverAddr
      login := ((last_value ps (ascii "login")).map (ToLower uc)).getD attributes.login
      password := ((last_value ps (ascii "password")).map id).getD attributes.password
      database := ((last_value ps (ascii "database")).map (ToLower uc)).getD attributes.database } := by
  induction ps generalizing attributes with
  | nil => rfl
  | cons p ps ih =>
    rw [List.foldl_cons, ih, assign_fields]
    simp only [last_value_cons, getD_map_or, id]

/-- splitConnString fails at the first bad item, and otherwise returns the
attributes of the last items naming them. -/
theorem splitConnString_eq (s : Bytes) :
    splitConnString uc s = match (strings.Split s 0x3B).findSome? (item_error uc) with
      | some err => .error err
      | none => .ok (attributes_of uc (conn_pairs uc (strings.Split s 0x3B))) := by
  rw [splitConnString, foldlM_split_item]
  cases (strings.Split s 0x3B).findSome? (item_error uc) with
  | some err => rfl
  | none => simp only [foldl_assign, attributes_of, Option.map_id, id]

/-- splitConnString accepts exactly the strings with no rejected item. -/
theorem splitConnString_spec (uc : Casing) (s : Bytes) :
    (∀ a, splitConnString uc s = .ok a ↔ (∀ item ∈ strings.Split s 0x3B, item_error uc item = none) ∧
      a = attributes_of uc (conn_pairs uc (strings.Split s 0x3B))) ∧
    (∀ err, splitConnString uc s = .error err ↔ ∃ pre item post, strings.Split s 0x3B = pre ++ item :: post ∧
      (∀ x ∈ pre, item_error uc x = none) ∧ item_error uc item = some err) := by
  rw [splitConnString_eq]
  cases h : (strings.Split s 0x3B).findSome? (item_error uc) with
  | none =>
    have hall := List.findSome?_eq_none_iff.mp h
    refine ⟨fun a => ⟨fun he => ⟨hall, by cases he; rfl⟩, fun ⟨_, ha⟩ => ha ▸ rfl⟩, fun err => ⟨nofun, ?_⟩⟩
    rintro ⟨pre, item, post, hs, -, he⟩
    rw [hall item (hs ▸ List.mem_append_right pre (List.mem_cons_self item post))] at he
    cases he
  | some e =>
    obtain ⟨pre, item, post, hs, he, hpre⟩ := List.findSome?_eq_some_iff.mp h
    refine ⟨fun a => ⟨nofun, fun ⟨hall, _⟩ => ?_⟩, fun err => ⟨fun herr => ?_, fun ⟨pre', item', post', hs', hpre', he'⟩ => ?_⟩⟩
    · rw [List.findSome?_eq_none_iff.mpr hall] at h
      cases h
    · cases herr
      exact ⟨pre, item, post, hs, hpre, he⟩
    · rw [List.findSome?_eq_some_iff.mpr ⟨pre', item', post', hs', he', hpre'⟩] at h
      cases h
      rfl

/-! ### What the attributes can hold -/

/-- A piece of strings.Split holds no separator, and only bytes of the
string split. -/
theorem mem_Split (sep : UInt8) : ∀ (s : Bytes) {p : Bytes}, p ∈ strings.Split s sep →
    sep ∉ p ∧ ∀ b ∈ p, b ∈ s
  | [], p, hp => by
    simp only [strings.Split, List.splitOn_nil, List.mem_singleton] at hp
    simp [hp]
  | y :: ys, p, hp => by
    have ih := @mem_Split sep ys
    unfold strings.Split List.splitOn at hp ih
    rw [List.splitOnP_cons] at hp
    by_cases hy : y = sep
    · simp only [hy, beq_self_eq_true, if_true, List.mem_cons] at hp
      rcases hp with rfl | hp
      · simp
      · exact ⟨(ih hp).1, fun b hb => List.mem_cons_of_mem _ ((ih hp).2 b hb)⟩
    · simp only [beq_iff_eq, hy, if_false] at hp
      rcases hl : ys.splitOnP (· == sep) with _ | ⟨q, qs⟩
      · exact absurd hl (List.splitOnP_ne_nil _ _)
      rw [hl, List.modifyHead_cons, List.mem_cons] at hp
      rcases hp with rfl | hp
      · have hq := ih (hl ▸ List.mem_cons_self q qs)
        refine ⟨by simp [Ne.symm hy, hq.1], fun b hb => ?_⟩
        rcases List.mem_cons.mp hb with rfl | hb
        · exact List.mem_cons_self _ _
        · exact List.mem_cons_of_mem _ (hq.2 b hb)
      · have hq := ih (hl ▸ List.mem_cons_of_mem q hp)
        exact ⟨hq.1, fun b hb => List.mem_cons_of_mem _ (hq.2 b hb)⟩

theorem trim_left_suffix (runes : List Bytes) (s : Bytes) : trim_left runes s <:+ s := by
  refine trim_left.induct runes (motive := fun s => trim_left runes s <:+ s) (fun s w h ih => ?_)
    (fun s h => ?_) s
  · dsimp only at ih ⊢
    rw [trim_left_some h]
    exact ih.trans (List.drop_suffix _ _)
  · dsimp only
    rw [trim_left_none h]

theorem trim_left_eq_self_iff {runes : List Bytes} {s : Bytes} :
    trim_left runes s = s ↔ runes.find? (fun w => !w.isEmpty && w.isPrefixOf s) = none := by
  refine ⟨fun he => ?_, trim_left_none⟩
  cases h : runes.find? (fun w => !w.isEmpty && w.isPrefixOf s) with
  | none => rfl
  | some w =>
    have hl := (trim_left_suffix runes (s.drop w.length)).length_le
    rw [← trim_left_some h, he] at hl
    have hw := List.find?_some h
    exact absurd hl (not_le.mpr (length_drop_lt hw))

theorem trim_left_idem (runes : List Bytes) (s : Bytes) :
    trim_left runes (trim_left runes s) = trim_left runes s := by
  refine trim_left.induct runes (motive := fun s => trim_left runes (trim_left runes s) = trim_left runes s)
    (fun s w h ih => ?_) (fun s h => ?_) s
  · dsimp only at ih ⊢
    rw [trim_left_some h, ih]
  · dsimp only
    rw [trim_left_none h, trim_left_none h]

/-- A prefix of a string trim_left leaves alone is left alone too. -/
theorem trim_left_prefix_self {runes : List Bytes} {p t : Bytes} (ht : trim_left runes t = t) (hp : p <+: t) :
    trim_left runes p = p := by
  rw [trim_left_eq_self_iff, find_rune_none_iff] at ht ⊢
  exact fun w hw hne hwp => ht w hw hne (hwp.trans hp)

/-- Appending a byte no rune holds, and anything after it, to a string
trim_left leaves alone gives one it leaves alone. -/
theorem trim_left_append {runes : List Bytes} {v : Bytes} {b : UInt8} (hv : trim_left runes v = v)
    (hb : ∀ w ∈ runes, b ∉ w) (y : Bytes) : trim_left runes (v ++ b :: y) = v ++ b :: y := by
  rw [trim_left_eq_self_iff, find_rune_none_iff] at hv ⊢
  intro w hw hne hp
  rcases List.prefix_or_prefix_of_prefix hp (List.prefix_append v (b :: y)) with h | ⟨t, rfl⟩
  · exact hv w hw hne h
  · rcases t with _ | ⟨c, t⟩
    · exact hv _ hw hne (by simp)
    · obtain ⟨rfl, -⟩ := List.cons_prefix_cons.mp ((List.prefix_append_right_inj v).mp hp)
      exact hb _ hw (by simp)

theorem trim_left_nil (runes : List Bytes) : trim_left runes [] = [] :=
  List.eq_nil_of_suffix_nil (trim_left_suffix runes [])

/-- A byte that no rune holds is never trimmed. -/
theorem mem_trim_left_of_not_mem {runes : List Bytes} {b : UInt8} (hb : ∀ w ∈ runes, b ∉ w) (s : Bytes) :
    b ∈ s → b ∈ trim_left runes s := by
  refine trim_left.induct runes (motive := fun s => b ∈ s → b ∈ trim_left runes s) (fun s w h ih => ?_)
    (fun s h => ?_) s
  · dsimp only at ih ⊢
    intro hs
    obtain ⟨hw, t, rfl⟩ := prefix_of_find_rune h
    rw [trim_left_some h]
    exact ih (by simpa [hb w hw] using hs)
  · dsimp only
    rw [trim_left_none h]
    exact id

theorem mem_trim_left (runes : List Bytes) (s : Bytes) : ∀ b ∈ trim_left runes s, b ∈ s :=
  fun _ hb => (trim_left_suffix runes s).subset hb

theorem mem_TrimSpace {s : Bytes} {b : UInt8} (hb : b ∈ TrimSpace s) : b ∈ s := by
  unfold TrimSpace at hb
  exact mem_trim_left _ _ b (List.mem_reverse.mp (mem_trim_left _ _ b (List.mem_reverse.mp hb)))

/-- TrimSpace keeps every byte that is in no space rune. -/
theorem mem_TrimSpace_of_not_space {s : Bytes} {b : UInt8} (hb : ∀ w ∈ space_runes, b ∉ w) (hs : b ∈ s) :
    b ∈ TrimSpace s := by
  have hb' : ∀ w ∈ space_runes.map List.reverse, b ∉ w := fun w hw hbw => by
    obtain ⟨w', hw', rfl⟩ := List.mem_map.mp hw
    exact hb w' hw' (List.mem_reverse.mp hbw)
  exact List.mem_reverse.mpr (mem_trim_left_of_not_mem hb' _
    (List.mem_reverse.mpr (mem_trim_left_of_not_mem hb _ hs)))

theorem TrimSpace_eq_self_iff {v : Bytes} :
    TrimSpace v = v ↔
      trim_left space_runes v = v ∧ trim_left (space_runes.map List.reverse) v.reverse = v.reverse := by
  refine ⟨fun h => ?_, fun ⟨h₁, h₂⟩ => by rw [TrimSpace, h₁, h₂, List.reverse_reverse]⟩
  have h₁ := trim_left_suffix space_runes v
  have h₂ := trim_left_suffix (space_runes.map List.reverse) (trim_left space_runes v).reverse
  have hl := congrArg List.length h
  unfold TrimSpace at h hl
  simp only [List.length_reverse] at hl h₂
  have ht : trim_left space_runes v = v := h₁.eq_of_length (by have := h₁.length_le; have := h₂.length_le; simp at *; omega)
  rw [ht] at h
  exact ⟨ht, by rw [← List.reverse_eq_iff.mpr h.symm]⟩

/-- TrimSpace trims all there is to trim at once. -/
theorem TrimSpace_TrimSpace (s : Bytes) : TrimSpace (TrimSpace s) = TrimSpace s := by
  have hp : TrimSpace s <+: trim_left space_runes s := by
    rw [TrimSpace, ← List.reverse_suffix, List.reverse_reverse]
    exact trim_left_suffix _ _
  refine TrimSpace_eq_self_iff.mpr ⟨trim_left_prefix_self (trim_left_idem _ _) hp, ?_⟩
  rw [TrimSpace, List.reverse_reverse, trim_left_idem]

/-! ### What splitConnString returns -/

/-- A value as splitConnString keeps it: not empty, without white space at
either end, and without ';' or '='. -/
def clean_value (v : Bytes) : Prop := v ≠ [] ∧ TrimSpace v = v ∧ 0x3B ∉ v ∧ 0x3D ∉ v

/-- A value is trimmed when no space rune starts it and none ends it. -/
theorem clean_value_iff (v : Bytes) : clean_value v ↔ v ≠ [] ∧
    space_runes.find? (fun w => !w.isEmpty && w.isPrefixOf v) = none ∧
    (space_runes.map List.reverse).find? (fun w => !w.isEmpty && w.isPrefixOf v.reverse) = none ∧
    0x3B ∉ v ∧ 0x3D ∉ v := by
  simp only [clean_value, TrimSpace_eq_self_iff, trim_left_eq_self_iff, and_assoc]

instance : DecidablePred clean_value := fun v => decidable_of_iff _ (clean_value_iff v).symm

/-- The attributes splitConnString can return: each empty or clean, the
address with a port, login and database in lower case. -/
structure connStringAttributes.normal (uc : Casing) (a : connStringAttributes) : Prop where
  serverAddr : a.serverAddr = [] ∨ clean_value a.serverAddr ∧ strings.Contains a.serverAddr 0x3A = true
  login : a.login = [] ∨ clean_value a.login ∧ ToLower uc a.login = a.login
  password : a.password = [] ∨ clean_value a.password
  database : a.database = [] ∨ clean_value a.database ∧ ToLower uc a.database = a.database

theorem clean_value_ToLower (uc : Casing) {v : Bytes} (hv : clean_value v) : clean_value (ToLower uc v) := by
  obtain ⟨hne, ht, h1, h2⟩ := hv
  exact ⟨ToLower_ne_nil uc hne, by rw [TrimSpace_ToLower, ht],
    fun h => h1 (mem_ToLower uc (by decide) (by decide) h), fun h => h2 (mem_ToLower uc (by decide) (by decide) h)⟩

theorem ascii_port : ascii ":7777" = [0x3A, 0x37, 0x37, 0x37, 0x37] := rfl

/-- The default port keeps a value clean. -/
theorem clean_value_port {v : Bytes} (hv : clean_value v) : clean_value (v ++ ascii ":7777") := by
  obtain ⟨-, ht, h1, h2⟩ := hv
  obtain ⟨hl, -⟩ := TrimSpace_eq_self_iff.mp ht
  have hr : (v ++ ascii ":7777").reverse = [] ++ 0x37 :: ([0x37, 0x37, 0x37, 0x3A] ++ v.reverse) := by
    simp [ascii_port]
  refine ⟨by simp [ascii_port], TrimSpace_eq_self_iff.mpr ⟨trim_left_append hl (by decide) _, ?_⟩,
    by simp [ascii_port, h1], by simp [ascii_port, h2]⟩
  rw [hr]
  exact trim_left_append (trim_left_nil _) (by decide) _

theorem item_pair_eq {item a v : Bytes} (h : item_pair uc item = some (a, v)) :
    ∃ attr val, strings.Split item 0x3D = [attr, val] ∧ a = ToLower uc (TrimSpace attr) ∧ v = TrimSpace val := by
  unfold item_pair at h
  split at h
  · next attr val hs =>
    cases h
    exact ⟨attr, val, hs, rfl, rfl⟩
  · cases h

/-- Each pair of the items splitConnString accepts has a clean value. -/
theorem conn_pairs_clean {items : List Bytes} (hsep : ∀ item ∈ items, 0x3B ∉ item)
    (hok : ∀ item ∈ items, item_error uc item = none) : ∀ p ∈ conn_pairs uc items, clean_value p.2 := by
  rintro ⟨a, v⟩ hp
  simp only [conn_pairs, List.mem_filterMap] at hp
  obtain ⟨item, hi, hp⟩ := hp
  split at hp
  · cases hp
  next hb =>
  have he := hok item hi
  simp only [item_error, hb, if_false, hp] at he
  obtain ⟨attr, val, hs, -, rfl⟩ := item_pair_eq hp
  obtain ⟨h1, h2⟩ := mem_Split 0x3D item (hs ▸ List.mem_cons_of_mem _ (List.mem_singleton_self val))
  exact ⟨fun h => (by rw [show TrimSpace val = [] from h] at he; split at he <;> cases he), TrimSpace_TrimSpace val, fun h => hsep item hi (h2 _ (mem_TrimSpace h)),
    fun h => h1 (mem_TrimSpace h)⟩

theorem last_value_mem {ps : List (Bytes × Bytes)} {attr v : Bytes} (h : last_value ps attr = some v) :
    ∃ p ∈ ps, p.2 = v := by
  obtain ⟨p, hp, rfl⟩ := Option.map_eq_some'.mp h
  exact ⟨p, List.mem_reverse.mp (List.mem_of_find?_eq_some hp), rfl⟩

/-- The attributes of pairs with clean values are in normal form. -/
theorem attributes_of_normal {ps : List (Bytes × Bytes)} (hps : ∀ p ∈ ps, clean_value p.2) :
    (attributes_of uc ps).normal uc := by
  have hv : ∀ attr, ∀ v ∈ last_value ps attr, clean_value v := fun attr v hv => by
    obtain ⟨p, hp, rfl⟩ := last_value_mem hv
    exact hps p hp
  have hget : ∀ (o : Option Bytes) (f : Bytes → Bytes) (Q : Bytes → Prop), (∀ v ∈ o, clean_value (f v) ∧ Q (f v)) →
      (o.map f).getD [] = [] ∨ clean_value ((o.map f).getD []) ∧ Q ((o.map f).getD []) := by
    rintro (_ | v) f Q hf
    · exact .inl rfl
    · exact .inr (hf v rfl)
  have hlow := fun attr v (h : v ∈ last_value ps attr) => And.intro (clean_value_ToLower uc (hv attr v h)) (ToLower_ToLower uc v)
  refine ⟨hget _ _ (fun w => strings.Contains w 0x3A = true) fun v h => ?_,
    hget _ _ (fun w => ToLower uc w = w) (hlow _), ?_, hget _ _ (fun w => ToLower uc w = w) (hlow _)⟩
  · split
    · exact ⟨clean_value_port (hv _ v h), by simp [strings.Contains, ascii_port]⟩
    · next hc => exact ⟨hv _ v h, by simpa using hc⟩
  · simpa using hget _ id (fun _ => True) fun v h => ⟨hv _ v h, trivial⟩

/-! ### Printing attributes back -/

/-- The item "attr=val". -/
def conn_item (attr val : Bytes) : Bytes := attr ++ 0x3D :: val

/-- The connection string "server=..;login=..;password=..;database=.." of
attributes. -/
def conn_string (a : connStringAttributes) : Bytes :=
  [0x3B].intercalate [conn_item (ascii "server") a.serverAddr, conn_item (ascii "login") a.login,
    conn_item (ascii "password") a.password, conn_item (ascii "database") a.database]

/-- An item with a known attribute and a clean value reads back as its pair. -/
theorem conn_item_clean (uc : Casing) {attr v : Bytes} (hattr : attr ∈ known_attributes) (hv : clean_value v) :
    0x3B ∉ conn_item attr v ∧ item_error uc (conn_item attr v) = none ∧
      (if TrimSpace (conn_item attr v) = [] then none else item_pair uc (conn_item attr v)) = some (attr, v) := by
  obtain ⟨hne, ht, h1, h2⟩ := hv
  have hname : TrimSpace attr = attr ∧ ToLower uc attr = attr ∧ attr ≠ [] ∧ 0x3B ∉ attr ∧ 0x3D ∉ attr := by
    simp only [known_attributes, List.mem_cons, List.mem_singleton, List.not_mem_nil, or_false] at hattr
    rcases hattr with rfl | rfl | rfl | rfl <;>
      exact ⟨TrimSpace_eq_self_iff.mpr ⟨trim_left_none (by decide), trim_left_none (by decide)⟩,
        by rw [ToLower_of_ascii uc (by decide)]; decide, by decide, by decide, by decide⟩
  have hsplit : strings.Split (conn_item attr v) 0x3D = [attr, v] := by
    have := List.splitOn_intercalate [attr, v] (0x3D : UInt8) (by simp [hname.2.2.2.2, h2]) (by simp)
    simpa [List.intercalate, conn_item] using this
  have heq : (0x3D : UInt8) ∈ conn_item attr v := by simp [conn_item]
  have hitem : TrimSpace (conn_item attr v) ≠ [] := List.ne_nil_of_mem (mem_TrimSpace_of_not_space (by decide) heq)
  have hpair : item_pair uc (conn_item attr v) = some (attr, v) := by
    simp [item_pair, hsplit, hname.1, hname.2.1, ht]
  refine ⟨by simp [conn_item, hname.2.2.2.1, h1], ?_, by simp [hitem, hpair]⟩
  simp [item_error, hitem, hpair, hname.2.2.1, hne, hattr]

/-- The items of a connection string printed from clean values are accepted,
each naming its attribute. -/
theorem conn_string_items (uc : Casing) {a : connStringAttributes} (hs : clean_value a.serverAddr) (hl : clean_value a.login)
    (hp : clean_value a.password) (hd : clean_value a.database) :
    (∀ item ∈ strings.Split (conn_string a) 0x3B, item_error uc item = none) ∧
      conn_pairs uc (strings.Split (conn_string a) 0x3B) = [(ascii "server", a.serverAddr), (ascii "login", a.login),
        (ascii "password", a.password), (ascii "database", a.database)] := by
  have h₁ := @conn_item_clean uc (ascii "server") _ (by decide) hs
  have h₂ := @conn_item_clean uc (ascii "login") _ (by decide) hl
  have h₃ := @conn_item_clean uc (ascii "password") _ (by decide) hp
  have h₄ := @conn_item_clean uc (ascii "database") _ (by decide) hd
  have hsplit := List.splitOn_intercalate
    [conn_item (ascii "server") a.serverAddr, conn_item (ascii "login") a.login,
      conn_item (ascii "password") a.password, conn_item (ascii "database") a.database] (0x3B : UInt8)
    (by simp [h₁.1, h₂.1, h₃.1, h₄.1]) (by simp)
  rw [strings.Split, conn_string, hsplit]
  refine ⟨by simp [h₁.2.1, h₂.2.1, h₃.2.1, h₄.2.1], ?_⟩
  simp only [conn_pairs, List.filterMap_cons, List.filterMap_nil, h₁.2.2, h₂.2.2, h₃.2.2, h₄.2.2]

/-- Attributes in normal form, all four given. -/
def sample_attributes : connStringAttributes := ⟨ascii "db1:7777", ascii "sa", ascii "pw", ascii "db"⟩

theorem sample_attributes_normal : sample_attributes.normal ascii_casing :=
  ⟨.inr ⟨by decide, by decide⟩, .inr ⟨by decide, by decide⟩, .inr (by decide), .inr ⟨by decide, by decide⟩⟩

theorem splitConnString_sample :
    splitConnString ascii_casing (conn_string sample_attributes) = .ok sample_attributes := by
  have hitems := conn_string_items ascii_casing (a := sample_attributes) (by decide) (by decide) (by decide) (by decide)
  rw [splitConnString_eq, List.findSome?_eq_none_iff.mpr hitems.1, hitems.2]
  rfl

/-- What splitConnString returns is in normal form, so no password holding
';' or '=', or white space at either end, can be given. -/
theorem splitConnString_normal (uc : Casing) (s : Bytes) (a : connStringAttributes)
    (h : splitConnString uc s = .ok a) : a.normal uc := by
  rw [splitConnString_eq] at h
  split at h
  · cases h
  next hnone =>
  cases h
  exact attributes_of_normal (conn_pairs_clean (fun item hi => (mem_Split 0x3B s hi).1)
    (List.findSome?_eq_none_iff.mp hnone))

theorem splitConnString_normal_sample :
    splitConnString ascii_casing (conn_string sample_attributes) = .ok sample_attributes ∧
      sample_attributes.normal ascii_casing :=
  ⟨splitConnString_sample, splitConnString_normal _ _ _ splitConnString_sample⟩

/-- Attributes in normal form, all four given, print to a connection string
that splits back to them. -/
theorem splitConnString_conn_string (uc : Casing) (a : connStringAttributes) (ha : a.normal uc)
    (hne : a.serverAddr ≠ [] ∧ a.login ≠ [] ∧ a.password ≠ [] ∧ a.database ≠ []) :
    splitConnString uc (conn_string a) = .ok a := by
  obtain ⟨hs, hsc⟩ := ha.serverAddr.resolve_left hne.1
  obtain ⟨hl, hll⟩ := ha.login.resolve_left hne.2.1
  obtain ⟨hd, hdl⟩ := ha.database.resolve_left hne.2.2.2
  obtain ⟨hok, hpairs⟩ := conn_string_items uc hs hl (ha.password.resolve_left hne.2.2.1) hd
  rw [splitConnString_eq, List.findSome?_eq_none_iff.mpr hok, hpairs]
  obtain ⟨serverAddr, login, password, database⟩ := a
  simp only at hsc hll hdl
  simp +decide [attributes_of, last_value, hsc, hll, hdl]

theorem splitConnString_conn_string_sample :
    sample_attributes.normal ascii_casing ∧
      (sample_attributes.serverAddr ≠ [] ∧ sample_attributes.login ≠ [] ∧ sample_attributes.password ≠ [] ∧
        sample_attributes.database ≠ []) ∧
      splitConnString ascii_casing (conn_string sample_attributes) = .ok sample_attributes :=
  ⟨sample_attributes_normal, by decide,
    splitConnString_conn_string ascii_casing sample_attributes sample_attributes_normal (by decide)⟩

/-! ### Without '=' -/

/-- Without an '=', an item is blank or has no pair. -/
theorem item_error_of_no_equals {item : Bytes} (h : 0x3D ∉ item) :
    item_error uc item = if TrimSpace item = [] then none else some .conn_string_not_pairs := by
  have hs : strings.Split item 0x3D = [item] :=
    List.splitOnP_eq_single _ _ fun x hx hb => h (by rwa [← eq_of_beq hb])
  unfold item_error item_pair
  rw [hs]

/-- NewConnection's check for an '=' only matters when every item is blank. -/
theorem splitConnString_without_equals (uc : Casing) (s : Bytes) (hs : 0x3D ∉ s) :
    splitConnString uc s =
      if ∀ item ∈ strings.Split s 0x3B, TrimSpace item = [] then .ok {} else .error .conn_string_not_pairs := by
  have hitem : ∀ item ∈ strings.Split s 0x3B,
      item_error uc item = if TrimSpace item = [] then none else some .conn_string_not_pairs :=
    fun item hi => item_error_of_no_equals fun h => hs ((mem_Split 0x3B s hi).2 _ h)
  rw [splitConnString_eq]
  split_ifs with hblank
  · have hnone : (strings.Split s 0x3B).findSome? (item_error uc) = none :=
      List.findSome?_eq_none_iff.mpr fun item hi => by rw [hitem item hi, if_pos (hblank item hi)]
    have hpairs : conn_pairs uc (strings.Split s 0x3B) = [] :=
      List.filterMap_eq_nil_iff.mpr fun item hi => if_pos (hblank item hi)
    rw [hnone, hpairs]
    rfl
  · obtain ⟨item, hi, hb⟩ := not_forall₂.mp hblank
    have hne : (strings.Split s 0x3B).findSome? (item_error uc) ≠ none := fun h => by
      simpa [hitem item hi, hb] using List.findSome?_eq_none_iff.mp h item hi
    obtain ⟨e, he⟩ := Option.ne_none_iff_exists'.mp hne
    obtain ⟨x, hx, hfx⟩ := List.exists_of_findSome?_eq_some he
    rw [hitem x hx] at hfx
    split at hfx
    · cases hfx
    · cases hfx
      rw [he]

theorem splitConnString_without_equals_blank :
    0x3D ∉ ascii " ; " ∧ splitConnString ascii_casing (ascii " ; ") =
      if ∀ item ∈ strings.Split (ascii " ; ") 0x3B, TrimSpace item = [] then .ok {} else .error .conn_string_not_pairs :=
  ⟨by decide, splitConnString_without_equals ascii_casing (ascii " ; ") (by decide)⟩

/-! ### NewConnection -/

/-- A connection NewConnection returns was made from its connection string. -/
theorem NewConnection_sends_auth (uc : Casing) (env : Env) (hperm : ∀ m, (env.order m).Perm m) (s : Bytes)
    (a : connStringAttributes) (conn : Connection) (h : NewConnection uc env s = some (.ok (a, conn))) :
    splitConnString uc s = .ok a ∧ env.dial a.serverAddr = none ∧ conn.isDirty = false ∧
      conn.session.mw.doomed = none ∧
      ∃ ws, Decodes read_auth (written conn.session.mw.calls) (REQTYP_AUTH, ws) ∧
        (ws.map fun kw => (kw.1, kw.2.plain)).Perm
          [(ascii "login_name", .string a.login), (ascii "password", .string a.password),
            (ascii "database", .string a.database)] := by
  unfold NewConnection at h
  split at h
  · cases h
  split at h
  · cases h
  next a' hsplit =>
  obtain ⟨r, hc, hr⟩ := Option.map_eq_some'.mp h
  cases r with
  | error => cases hr
  | ok session =>
    cases hr
    obtain ⟨hdial, -, -, hd, enc, henc, hcalls⟩ := Connect_ok hc
    refine ⟨hsplit, hdial, rfl, hd, ?_⟩
    rw [hcalls]
    simpa [auth_message, Simple.plain] using auth_request_decodes (hperm _) (auth_message_is_auth _ _ _ _) henc

theorem NewConnection_sends_auth_sample :
    NewConnection ascii_casing accepting_env (conn_string sample_attributes) =
        some (.ok (sample_attributes, ⟨accepted_session, false⟩)) ∧
      splitConnString ascii_casing (conn_string sample_attributes) = .ok sample_attributes ∧
      accepting_env.dial sample_attributes.serverAddr = none ∧ (⟨accepted_session, false⟩ : Connection).isDirty = false ∧
      accepted_session.mw.doomed = none ∧
      ∃ ws, Decodes read_auth (written accepted_session.mw.calls) (REQTYP_AUTH, ws) ∧
        (ws.map fun kw => (kw.1, kw.2.plain)).Perm
          [(ascii "login_name", .string sample_attributes.login), (ascii "password", .string sample_attributes.password),
            (ascii "database", .string sample_attributes.database)] := by
  have h : NewConnection ascii_casing accepting_env (conn_string sample_attributes) =
      some (.ok (sample_attributes, ⟨accepted_session, false⟩)) := by
    rw [NewConnection, if_neg (by decide), splitConnString_sample]
    rfl
  exact ⟨h, NewConnection_sends_auth ascii_casing accepting_env (fun _ => .refl _) _ _ _ h⟩

end Rsql.Drv
