import Mathlib.Data.List.Forall2
import Rsql.Msgp.RoundTrip

/-! Containers. The array and map headers read back the size written, and a
map written by AppendMapStrStr, AppendMapStrSimpleType or
AppendMapStrStrFromList reads back, through its header and then as many keys
each followed by its value, as the entries in the order the writer laid them
out: Go's iteration order for a map, the argument order for a list. -/
namespace Rsql.Msgp

open GoM

/-! ### Every encoder appends to its destination -/

theorem AppendUint64_dest (dest : Bytes) (v : UInt64) : AppendUint64 dest v = dest ++ AppendUint64 [] v := by
  simp only [AppendUint64, List.nil_append, apply_ite (dest ++ ·)]

theorem AppendInt64_dest (dest : Bytes) (v : Int64) : AppendInt64 dest v = dest ++ AppendInt64 [] v := by
  simp only [AppendInt64, List.nil_append, apply_ite (dest ++ ·)]

theorem AppendStringHeader_dest (dest : Bytes) (sz : UInt32) :
    AppendStringHeader dest sz = dest ++ AppendStringHeader [] sz := by
  simp only [AppendStringHeader, List.nil_append, apply_ite (dest ++ ·)]

theorem AppendBytesHeader_dest (dest : Bytes) (sz : UInt32) :
    AppendBytesHeader dest sz = dest ++ AppendBytesHeader [] sz := by
  simp only [AppendBytesHeader, List.nil_append, apply_ite (dest ++ ·)]

theorem AppendMapHeader_dest (dest : Bytes) (sz : UInt32) :
    AppendMapHeader dest sz = dest ++ AppendMapHeader [] sz := by
  simp only [AppendMapHeader, append_container_header, List.nil_append, apply_ite (dest ++ ·)]

theorem AppendString_dest (dest s : Bytes) : AppendString dest s = (AppendString [] s).map (dest ++ ·) := by
  unfold AppendString; split <;> simp [AppendStringHeader_dest dest]

theorem AppendBytes_dest (dest b : Bytes) : AppendBytes dest b = (AppendBytes [] b).map (dest ++ ·) := by
  unfold AppendBytes; split <;> simp [AppendBytesHeader_dest dest]

theorem AppendSimpleType_dest (dest : Bytes) (v : Simple) :
    AppendSimpleType dest v = (AppendSimpleType [] v).map (dest ++ ·) := by
  cases v <;> simp only [AppendSimpleType, AppendString_dest dest, AppendBytes_dest dest, Option.map_some',
    AppendUint8, AppendUint16, AppendUint32, AppendUint64_dest dest, AppendInt8, AppendInt16, AppendInt32,
    AppendInt64_dest dest] <;> rfl

/-! ### Writing and reading the entries -/

/-- The fold of a writer that appends one piece per entry appends the
pieces one after the other. -/
theorem foldlM_append_each {γ : Type} {append : Bytes → γ → Option Bytes} {piece : γ → Option Bytes}
    (h : ∀ d x, append d x = (piece x).map (d ++ ·)) (xs : List γ) (d : Bytes) :
    xs.foldlM append d = (append_each piece xs).map (d ++ ·) := by
  induction xs generalizing d with
  | nil => simp [append_each]
  | cons x xs ih =>
    simp only [List.foldlM_cons, h, append_each]
    cases piece x <;> simp [ih, Option.map_map, Function.comp_def]

theorem AppendPairs_eq {α β : Type} {append : Bytes → α × β → Option Bytes} {piece : α × β → Option Bytes}
    (h : ∀ d x, append d x = (piece x).map (d ++ ·)) (m : List (α × β)) :
    AppendPairs append [] m = if MaxUint32 < m.length then none
      else (append_each piece m).map (AppendMapHeader [] (UInt32.ofNat m.length) ++ ·) := by
  rw [AppendPairs, foldlM_append_each h]

/-- A key then its value, the way the map writers lay out an entry. -/
def entry_piece {β : Type} (append_val : Bytes → β → Option Bytes) (kv : Bytes × β) : Option Bytes :=
  AppendString [] kv.1 >>= fun ek => (append_val [] kv.2).map (ek ++ ·)

theorem entry_dest {β : Type} {append_val : Bytes → β → Option Bytes}
    (hv : ∀ d v, append_val d v = (append_val [] v).map (d ++ ·)) (d : Bytes) (kv : Bytes × β) :
    (AppendString d kv.1 >>= fun d => append_val d kv.2) = (entry_piece append_val kv).map (d ++ ·) := by
  rw [entry_piece, AppendString_dest]
  cases AppendString [] kv.1 with
  | none => rfl
  | some ek =>
    simp only [Option.map_some', Option.bind_eq_bind, Option.some_bind]
    rw [hv]
    cases append_val [] kv.2 <;> simp

/-- A map read the way its writers lay it out: the header, then that many
keys, each followed by its value. -/
def read_map {β : Type} (read_val : ReadM β) : ReadM (List (Bytes × β)) := do
  let n ← ReadMapHeader
  GoM.repeat_n (do let k ← ReadString; let v ← read_val; return (k, v)) n.toNat

theorem Decodes.repeat_n_rel {α γ : Type} {m : ReadM α} {append : γ → Option Bytes} {R : γ → α → Prop}
    (h : ∀ x e, append x = some e → ∃ a, Decodes m e a ∧ R x a) :
    ∀ (xs : List γ) {enc : Bytes}, append_each append xs = some enc →
      ∃ as, Decodes (GoM.repeat_n m xs.length) enc as ∧ List.Forall₂ R xs as
  | [], enc, he => by
    cases he
    exact ⟨[], Decodes.pure rfl, .nil⟩
  | x :: xs, enc, he => by
    simp only [append_each, Option.bind_eq_some, Option.map_eq_some'] at he
    obtain ⟨e, hx, es, hxs, rfl⟩ := he
    obtain ⟨a, ha, hr⟩ := h x e hx
    obtain ⟨as, has, hrs⟩ := Decodes.repeat_n_rel h xs hxs
    exact ⟨a :: as, ha.bind (has.bind_pure rfl), .cons hr hrs⟩

/-- Each entry of a map reads back as its key and a value related to its own,
whenever every value written alone reads back so. -/
theorem read_map_decodes {β γ : Type} {read_val : ReadM γ} {append_val : Bytes → β → Option Bytes}
    {R : β → γ → Prop} (hd : ∀ d v, append_val d v = (append_val [] v).map (d ++ ·))
    (hv : ∀ v e, append_val [] v = some e → ∃ w, Decodes read_val e w ∧ R v w)
    {m : List (Bytes × β)} {enc : Bytes}
    (accepted : AppendPairs (fun d kv => AppendString d kv.1 >>= fun d => append_val d kv.2) [] m = some enc) :
    ∃ ws, Decodes (read_map read_val) enc ws ∧ List.Forall₂ (fun kv kw => kv.1 = kw.1 ∧ R kv.2 kw.2) m ws := by
  rw [AppendPairs_eq (entry_dest hd)] at accepted
  simp only [Option.ite_none_left_eq_some, Option.map_eq_some'] at accepted
  obtain ⟨hlen, body, hbody, rfl⟩ := accepted
  have e : (UInt32.ofNat m.length).toNat = m.length := by simp [MaxUint32] at hlen ⊢; omega
  have hentry : ∀ kv ekv, entry_piece append_val kv = some ekv →
      ∃ kw, Decodes (do let k ← ReadString; let v ← read_val; return (k, v)) ekv kw ∧
        kv.1 = kw.1 ∧ R kv.2 kw.2 := by
    intro kv ekv he
    simp only [entry_piece, Option.bind_eq_bind, Option.bind_eq_some, Option.map_eq_some'] at he
    obtain ⟨ek, hk, ev, hev, rfl⟩ := he
    obtain ⟨w, hw, hr⟩ := hv kv.2 ev hev
    exact ⟨(kv.1, w), (ReadString_AppendString hk).bind (hw.bind_pure rfl), rfl, hr⟩
  obtain ⟨ws, hws, hr⟩ := Decodes.repeat_n_rel hentry m hbody
  refine ⟨ws, (ReadMapHeader_AppendMapHeader _).bind ?_, hr⟩
  rw [e]
  exact hws

/-! ### The argument list of AppendMapStrStrFromList -/

/-- Arguments taken two by two, a key then its value. -/
def adjacent_pairs : List Bytes → List (Bytes × Bytes)
  | k :: v :: rest => (k, v) :: adjacent_pairs rest
  | _ => []

theorem adjacent_pairs_eq : ∀ args : List Bytes, args.length % 2 = 0 →
    (List.range (args.length / 2)).map (fun i => (args.getD (2 * i) [], args.getD (2 * i + 1) [])) =
      adjacent_pairs args
  | [], _ => rfl
  | [_], h => by simp at h
  | k :: v :: rest, h => by
    have hr : rest.length % 2 = 0 := by simp only [List.length_cons] at h; omega
    rw [adjacent_pairs, ← adjacent_pairs_eq rest hr]
    simp only [List.length_cons, show (rest.length + 1 + 1) / 2 = rest.length / 2 + 1 by omega,
      List.range_succ_eq_map, List.map_cons, List.map_map]
    refine congrArg _ (List.map_congr_left fun i _ => ?_)
    simp [Nat.mul_add, List.getD]

theorem AppendMapStrStrFromList_eq {args : List Bytes} (h : args.length % 2 = 0) :
    AppendMapStrStrFromList [] args = AppendMapStrStr [] (adjacent_pairs args) := by
  rw [AppendMapStrStrFromList, if_neg (by omega), adjacent_pairs_eq args h]

theorem map_eq_of_forall₂ {α β γ : Type} {f : α → γ} {g : β → γ} :
    ∀ {xs : List α} {ys : List β}, List.Forall₂ (fun x y => f x = g y) xs ys → xs.map f = ys.map g
  | _, _, .nil => rfl
  | _, _, .cons h t => by rw [List.map_cons, List.map_cons, h, map_eq_of_forall₂ t]

/-- Container headers and the three map writers read back: a header gives the
size written for every size, and a map gives its entries, each once, in the
order they were written, leaving the rest of the stream. -/
theorem maps_round_trip :
    (∀ n : UInt32, Decodes ReadArrayHeader (AppendArrayHeader [] n) n ∧
      Decodes ReadMapHeader (AppendMapHeader [] n) n) ∧
    (∀ (m : List (Bytes × Simple)) (enc : Bytes), AppendMapStrSimpleType [] m = some enc →
      ∃ ws, Decodes (read_map ReadSimpleType) enc ws ∧
        ws.map (fun kw => (kw.1, kw.2.plain)) = m.map (fun kv => (kv.1, kv.2.plain))) ∧
    (∀ (m : List (Bytes × Bytes)) (enc : Bytes), AppendMapStrStr [] m = some enc →
      Decodes (read_map ReadString) enc m) ∧
    (∀ (args : List Bytes) (enc : Bytes), AppendMapStrStrFromList [] args = some enc →
      Decodes (read_map ReadString) enc (adjacent_pairs args)) := by
  have hstr : ∀ {m : List (Bytes × Bytes)} {enc : Bytes}, AppendMapStrStr [] m = some enc →
      Decodes (read_map ReadString) enc m := by
    intro m enc accepted
    obtain ⟨ws, hws, hr⟩ := read_map_decodes (R := Eq) AppendString_dest
      (fun v e he => ⟨v, ReadString_AppendString he, rfl⟩) accepted
    have e : m.map id = ws.map id := map_eq_of_forall₂ (hr.imp fun _ _ h => Prod.ext h.1 h.2)
    rw [List.map_id, List.map_id] at e
    exact e ▸ hws
  refine ⟨fun n => ⟨ReadArrayHeader_AppendArrayHeader n, ReadMapHeader_AppendMapHeader n⟩,
    fun m enc accepted => ?_, fun m enc => hstr, fun args enc accepted => ?_⟩
  · obtain ⟨ws, hws, hr⟩ := read_map_decodes (R := fun v w => w.plain = v.plain) AppendSimpleType_dest
      (fun v e he => ReadSimpleType_AppendSimpleType v e he) accepted
    exact ⟨ws, hws, (map_eq_of_forall₂ (hr.imp fun _ _ h => by rw [h.1, h.2])).symm⟩
  · have h : args.length % 2 = 0 := by
      by_contra h
      simp [AppendMapStrStrFromList, h] at accepted
    exact hstr ((AppendMapStrStrFromList_eq h) ▸ accepted)

theorem maps_round_trip_one_entry :
    Decodes ReadArrayHeader (AppendArrayHeader [] 1) 1 ∧ Decodes ReadMapHeader (AppendMapHeader [] 1) 1 ∧
    AppendMapStrSimpleType [] [([107], .int64 5)] = some [0x81, 0xa1, 107, 5] ∧
      (∃ ws, Decodes (read_map ReadSimpleType) [0x81, 0xa1, 107, 5] ws ∧
        ws.map (fun kw => (kw.1, kw.2.plain)) = [([107], (Simple.int64 5).plain)]) ∧
    AppendMapStrStr [] [([107], [118])] = some [0x81, 0xa1, 107, 0xa1, 118] ∧
      Decodes (read_map ReadString) [0x81, 0xa1, 107, 0xa1, 118] [([107], [118])] ∧
    AppendMapStrStrFromList [] [[107], [118]] = some [0x81, 0xa1, 107, 0xa1, 118] ∧
      Decodes (read_map ReadString) [0x81, 0xa1, 107, 0xa1, 118] [([107], [118])] :=
  ⟨(maps_round_trip.1 1).1, (maps_round_trip.1 1).2, by decide,
    maps_round_trip.2.1 [([107], .int64 5)] _ (by decide), by decide,
    maps_round_trip.2.2.1 [([107], [118])] _ (by decide), by decide,
    maps_round_trip.2.2.2 [[107], [118]] _ (by decide)⟩

end Rsql.Msgp
