import Rsql.Msgp.Doomed
import Rsql.Msgp.Maps
import Rsql.Rsqlib.Session

/-! Connect: the login handshake of a session. What the network does, and
the order of Go's map iteration, is the environment `Env`. -/
namespace Rsql.Rsqlib

open Msgp

structure Options where
  /-- show AST tree -/
  Showtree : Bool := false
  /-- no constant folding, for debugging -/
  No_cf : Bool := false
  /-- don't run the batches -/
  No_exec : Bool := false
  deriving DecidableEq, Repr

/-- What the calls Connect makes on the network return. -/
structure Env where
  dial : Bytes → Option Error
  net : Net
  mr : Reader
  order : List (Bytes × Simple) → List (Bytes × Simple)

/-- The auth map, in the order Connect sets its entries; an option's entry is
there only when the option is set. -/
def auth_message (login_name password database : Bytes) (opt : Options) : List (Bytes × Simple) :=
  [(ascii "login_name", .string login_name), (ascii "password", .string password),
    (ascii "database", .string database)] ++
  (if opt.Showtree then [(ascii "opt_showtree", .bool opt.Showtree)] else []) ++
  (if opt.No_cf then [(ascii "opt_no_cf", .bool opt.No_cf)] else []) ++
  (if opt.No_exec then [(ascii "opt_no_exec", .bool opt.No_exec)] else [])

/-- Connect; `none` when an encoder panics. -/
def Connect (env : Env) (remote_server login_name password database : Bytes) (opt : Options) :
    Option (Except Error Session) :=
  match env.dial remote_server with
  | some err => some (.error err)
  | none => do
    let mw ← WriteUint8 env.net NewWriter REQTYP_AUTH
    let mw ← WriteMapStrSimpleType env.net mw (env.order (auth_message login_name password database opt))
    match Flush env.net mw with
    | (some err, _) => some (.error err)
    | (none, mw) =>
      match ReadUint8.run env.mr with
      | .ok u mr =>
        some (if u ≠ RESTYP_LOGIN_SUCCESS then .error .login_failed else .ok ⟨mr, mw, env.net⟩)
      | .error err _ => some (.error err)
      | .panic _ => none

theorem issued_handshake (staging : Bytes) (entries : List (Bytes × Simple)) :
    issued staging [.WriteUint8 REQTYP_AUTH, .WriteMapStrSimpleType entries, .Flush] =
      (AppendMapStrSimpleType [] entries).map fun enc =>
        [.write (AppendUint8 [] REQTYP_AUTH), .write enc, .flush] := by
  cases h : AppendMapStrSimpleType [] entries <;> simp [issued, issue, Op.append, h]

/-- The Writer calls of a handshake whose flush succeeds: the request type,
the auth map, then the flush, each accepted by the network. -/
theorem handshake_calls {net : Net} {entries : List (Bytes × Simple)} {mw mw' : Writer}
    (h₁ : WriteUint8 net NewWriter REQTYP_AUTH = some mw) (h₂ : WriteMapStrSimpleType net mw entries = some mw')
    (h₃ : (Flush net mw').1 = none) :
    ∃ enc, AppendMapStrSimpleType [] entries = some enc ∧ (Flush net mw').2.doomed = none ∧
      (Flush net mw').2.calls = [.write (AppendUint8 [] REQTYP_AUTH), .write enc, .flush] := by
  have hr : Msgp.run net NewWriter [.WriteUint8 REQTYP_AUTH, .WriteMapStrSimpleType entries, .Flush] =
      some ((Flush net mw').2, [none, none, (Flush net mw').1]) := by
    simp [Msgp.run, exec, h₁, h₂]
  have hd : (Flush net mw').2.doomed = none :=
    (exec_returns_doomed (.inl rfl) (show exec net mw' .Flush = _ from rfl)).symm.trans h₃
  refine (run_healthy rfl hr).elim (fun ⟨_, calls, hi, hc, _⟩ => ?_) fun ⟨e, _, _, _, _, _, _, _, _, _, _, he⟩ =>
    absurd (hd.symm.trans he) (by simp)
  rw [issued_handshake] at hi
  obtain ⟨enc, henc, rfl⟩ := Option.map_eq_some'.mp hi
  exact ⟨enc, henc, hd, hc⟩

/-! ### The auth map reads back -/

/-- The dynamic types of the auth map's values: strings and bools. -/
def is_auth : Simple → Bool
  | .string _ | .bool _ => true
  | _ => false

/-- The value writer the auth map needs: AppendSimpleType on strings and bools. -/
def append_auth (d : Bytes) (v : Simple) : Option Bytes := if is_auth v then AppendSimpleType d v else none

theorem auth_message_is_auth (login_name password database : Bytes) (opt : Options) :
    ∀ kv ∈ auth_message login_name password database opt, is_auth kv.2 := by
  intro kv hkv
  simp only [auth_message, List.mem_append, List.mem_cons, List.mem_singleton, List.not_mem_nil,
    or_false] at hkv
  rcases hkv with (((rfl | rfl | rfl) | h) | h) | h
  any_goals rfl
  all_goals split at h <;> simp_all [is_auth]

theorem foldlM_congr_mem {α β : Type} {f g : β → α → Option β} :
    ∀ (l : List α) (b : β), (∀ x ∈ l, ∀ b, f b x = g b x) → l.foldlM f b = l.foldlM g b
  | [], _, _ => rfl
  | x :: l, b, h => by
    rw [List.foldlM_cons, List.foldlM_cons, h x (List.mem_cons_self _ _)]
    exact congrArg _ (funext fun b' => foldlM_congr_mem l b' fun y hy => h y (List.mem_cons_of_mem _ hy))

theorem AppendMapStrSimpleType_auth {m : List (Bytes × Simple)} (hm : ∀ kv ∈ m, is_auth kv.2) :
    AppendMapStrSimpleType [] m =
      AppendPairs (fun d kv => AppendString d kv.1 >>= fun d => append_auth d kv.2) [] m := by
  unfold AppendMapStrSimpleType AppendPairs
  split
  · rfl
  · refine foldlM_congr_mem m _ fun kv hkv d => ?_
    simp [append_auth, hm kv hkv]

theorem append_auth_dest (d : Bytes) (v : Simple) : append_auth d v = (append_auth [] v).map (d ++ ·) := by
  unfold append_auth
  split
  · exact AppendSimpleType_dest d v
  · rfl

/-- A string or a bool the auth map holds reads back as itself. -/
theorem ReadSimpleType_append_auth {v : Simple} {e : Bytes} (he : append_auth [] v = some e) :
    ∃ w, Decodes ReadSimpleType e w ∧ w.plain = v.plain := by
  unfold append_auth at he
  split at he
  · next hv =>
    cases v with
    | string s =>
      obtain ⟨p, b, hp, ht⟩ := AppendStringHeader_cons (UInt32.ofNat s.length)
      have hs := he
      simp only [AppendSimpleType, AppendString, Option.ite_none_left_eq_some, Option.some.injEq, hp] at hs
      refine ⟨.string s, Decodes.after_next_type_of_head hs.2.symm ?_, rfl⟩
      rw [ht]
      exact (ReadString_AppendString he).map rfl
    | bool b =>
      cases he
      refine ⟨.bool b, ?_, rfl⟩
      cases b <;> exact Decodes.after_next_type ((ReadBool_AppendBool _).map rfl)
    | _ => simp [is_auth] at hv
  · cases he

/-- How the server reads an auth request: the request type, then the map. -/
def read_auth : ReadM (UInt8 × List (Bytes × SimpleValue)) := do
  let reqtyp ← ReadUint8
  let m ← read_map ReadSimpleType
  return (reqtyp, m)

/-- What a successful Connect did: it dialled, its handshake's writes and
flush went through, and the server answered RESTYP_LOGIN_SUCCESS. -/
theorem Connect_ok {env : Env} {remote_server login_name password database : Bytes} {opt : Options}
    {session : Session} (h : Connect env remote_server login_name password database opt = some (.ok session)) :
    env.dial remote_server = none ∧ ReadUint8.run env.mr = .ok RESTYP_LOGIN_SUCCESS session.mr ∧
      session.net = env.net ∧ session.mw.doomed = none ∧
      ∃ enc, AppendMapStrSimpleType [] (env.order (auth_message login_name password database opt)) = some enc ∧
        session.mw.calls = [.write (AppendUint8 [] REQTYP_AUTH), .write enc, .flush] := by
  unfold Connect at h
  split at h
  · cases h
  next hdial =>
  simp only [Option.bind_eq_bind, Option.bind_eq_some] at h
  obtain ⟨mw, h₁, mw', h₂, h⟩ := h
  split at h
  · cases h
  next err mw'' hfl =>
  split at h
  · next u mr hr =>
    split at h
    · cases h
    next hu =>
    cases h
    obtain ⟨enc, henc, hd, hc⟩ := handshake_calls h₁ h₂ (by rw [hfl])
    rw [hfl] at hd hc
    exact ⟨hdial, by rw [hr, not_not.mp hu], rfl, hd, enc, henc, hc⟩
  · cases h
  · cases h

/-- The bytes of an auth request read back as REQTYP_AUTH and the map's
entries, in the order they were encoded. -/
theorem auth_request_decodes {order : List (Bytes × Simple) → List (Bytes × Simple)} {m : List (Bytes × Simple)}
    (hperm : (order m).Perm m) (hauth : ∀ kv ∈ m, is_auth kv.2) {enc : Bytes}
    (henc : AppendMapStrSimpleType [] (order m) = some enc) :
    ∃ ws, Decodes read_auth (written [.write (AppendUint8 [] REQTYP_AUTH), .write enc, .flush]) (REQTYP_AUTH, ws) ∧
      (ws.map fun kw => (kw.1, kw.2.plain)).Perm (m.map fun kv => (kv.1, kv.2.plain)) := by
  have hauth' := fun kv (hkv : kv ∈ order m) => hauth kv (hperm.mem_iff.mp hkv)
  obtain ⟨ws, hws, hr₂⟩ := read_map_decodes (R := fun v w => w.plain = v.plain) append_auth_dest
    (fun _ _ he => ReadSimpleType_append_auth he) ((AppendMapStrSimpleType_auth hauth') ▸ henc)
  refine ⟨ws, ((ReadUint8_AppendUint8 REQTYP_AUTH).bind (hws.bind_pure rfl)).of_eq (by simp [written]), ?_⟩
  have hmap : (order m).map (fun kv => (kv.1, kv.2.plain)) = ws.map fun kw => (kw.1, kw.2.plain) :=
    map_eq_of_forall₂ (hr₂.imp fun _ _ h => by rw [h.1, h.2])
  exact hmap ▸ hperm.map _

/-- A session Connect returns has sent exactly the auth request. -/
theorem Connect_sends_auth (env : Env) (hperm : ∀ m, (env.order m).Perm m)
    (remote_server login_name password database : Bytes) (opt : Options) (session : Session)
    (h : Connect env remote_server login_name password database opt = some (.ok session)) :
    env.dial remote_server = none ∧ session.net = env.net ∧ session.mw.doomed = none ∧
      ReadUint8.run env.mr = .ok RESTYP_LOGIN_SUCCESS session.mr ∧
      ∃ ws, Decodes read_auth (written session.mw.calls) (REQTYP_AUTH, ws) ∧
        (ws.map fun kw => (kw.1, kw.2.plain)).Perm
          ((auth_message login_name password database opt).map fun kv => (kv.1, kv.2.plain)) := by
  obtain ⟨hdial, hr, hnet, hd, enc, henc, hc⟩ := Connect_ok h
  exact ⟨hdial, hnet, hd, hr, hc ▸ auth_request_decodes (hperm _) (auth_message_is_auth _ _ _ _) henc⟩

/-- A server that accepts every write and the login. -/
def accepting_env : Env := ⟨fun _ => none, fun _ => none, ⟨[RESTYP_LOGIN_SUCCESS], []⟩, id⟩

/-- The auth map of login "sa", password "pw" and database "db", encoded. -/
def sample_auth : Bytes :=
  [0x83, 0xaa] ++ ascii "login_name" ++ [0xa2] ++ ascii "sa" ++ [0xa8] ++ ascii "password" ++ [0xa2] ++
    ascii "pw" ++ [0xa8] ++ ascii "database" ++ [0xa2] ++ ascii "db"

/-- The session of that login on `accepting_env`. -/
def accepted_session : Session :=
  ⟨⟨[], [RESTYP_LOGIN_SUCCESS]⟩, ⟨sample_auth, none, [.write [REQTYP_AUTH], .write sample_auth, .flush]⟩,
    fun _ => none⟩

theorem Connect_sends_auth_accepted :
    Connect accepting_env (ascii "db1:7777") (ascii "sa") (ascii "pw") (ascii "db") {} =
        some (.ok accepted_session) ∧
      accepting_env.dial (ascii "db1:7777") = none ∧ accepted_session.net = accepting_env.net ∧
      accepted_session.mw.doomed = none ∧ ReadUint8.run accepting_env.mr = .ok RESTYP_LOGIN_SUCCESS accepted_session.mr ∧
      ∃ ws, Decodes read_auth (written accepted_session.mw.calls) (REQTYP_AUTH, ws) ∧
        (ws.map fun kw => (kw.1, kw.2.plain)).Perm
          ((auth_message (ascii "sa") (ascii "pw") (ascii "db") {}).map fun kv => (kv.1, kv.2.plain)) :=
  ⟨rfl, Connect_sends_auth accepting_env (fun _ => .refl _) (ascii "db1:7777") (ascii "sa") (ascii "pw")
    (ascii "db") {} accepted_session rfl⟩

end Rsql.Rsqlib
