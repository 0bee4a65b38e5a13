import L4lb.Startup

/-!
# `L4lb.Flows` — the session table over runs of the balancer

`L4lb.Balancer` models one call of `process_packet` and runs of packets and control-plane calls.
This module follows the session table along such runs. Every result has the same shape: a step
lemma for `handle_loadbalance` (a `lookup`, then `update_stats` or a `create` on the packet's own
tuple), lifted to `process_packet` (which leaves the table alone except through
`handle_loadbalance`, `processPacket_sessions`), and by induction to every run (`run`), where a
control-plane call changes the registry and never the table.

## Contents
- **Balancing picks only live servers** (`selectServer_runOps`): over every run of registry calls
  from the empty manager, `select_server` returns only `UP` servers, each the record
  `get_server` returns for its id.
- **Only flows to the VIP get sessions** (`run_sessions`): over every run, each session is stored
  under its own client tuple, a TCP or UDP flow to the VIP; and unless a server is removed, it
  names a registered server.
- **Sessions are never dropped** (`run_keeps_sessions`): over every run, a flow that has a session
  keeps one; nothing calls `SessionManager::remove` or `cleanup`.
- **A flow sticks to its server** (`run_sticky`): over every run in which the forwarder takes
  every packet and server `s` is not removed, a flow whose session names `s` keeps naming it.
  `handle_loadbalance` asks `get_server`, not `is_available()`, so `set_status(s, DOWN)` does not
  move the flows of `s`; only a failed forward or the removal of `s` re-selects.
- **After start-up, every flow to the VIP is bound to a configured backend** (`init_binds`):
  started from the configuration file on the fresh registry, after any packets, a TCP or UDP
  packet to the VIP leaves its flow with a session on a configured backend
  (`processPacket_balanced`, `handleLoadbalance_bound`).
- **A session outlives its last packet by the timeout** (`handleLoadbalance_cleanup`): a
  `cleanup()` that runs no later than `timeout_sec` seconds after a packet of a flow, on a clock
  that does not go back, keeps the flow's session.
-/

namespace L4lb

open ProtocolParser

/-! ## Only flows to the VIP get sessions -/

namespace SessionTable

/-- `R` holds of each entry's key, client tuple and server id. -/
def Binds (R : FiveTuple → FiveTuple → UInt32 → Prop) (t : SessionTable) : Prop :=
  ∀ e ∈ t.entries, R e.1 e.2.clientTuple e.2.realServerId

variable {R : FiveTuple → FiveTuple → UInt32 → Prop} {t : SessionTable}

theorem Binds.modify {k : FiveTuple} {f : Session → Session}
    (hf : ∀ s, (f s).clientTuple = s.clientTuple ∧ (f s).realServerId = s.realServerId)
    (ht : t.Binds R) : (t.modify k f).Binds R := by
  intro e he
  obtain ⟨e₀, he₀, rfl⟩ := List.mem_map.mp he
  split_ifs with hk
  · rw [(hf e₀.2).1, (hf e₀.2).2]
    exact ht e₀ he₀
  · exact ht e₀ he₀

theorem Binds.assign {k : FiveTuple} {s : Session} (hs : R k s.clientTuple s.realServerId)
    (ht : t.Binds R) : (t.assign k s).Binds R := by
  unfold SessionTable.assign
  split_ifs
  · intro e he
    obtain ⟨e₀, he₀, rfl⟩ := List.mem_map.mp he
    split_ifs with hk
    · exact hk ▸ hs
    · exact ht e₀ he₀
  · intro e he
    rcases List.mem_append.mp he with he | he
    · exact ht e he
    · rw [List.mem_singleton.mp he]
      exact hs

end SessionTable

/-- Every session is stored under its own client tuple, a TCP or UDP flow to `vip`. -/
def FlowsToVip (vip : IPv4Addr) (t : SessionTable) : Prop :=
  t.Binds fun k c _ => c = k ∧ k.dstIp = vip ∧ (k.protocol = 6 ∨ k.protocol = 17)

/-- Every session names a server of the registry. -/
def ServersRegistered (reg : RealServerManager) (t : SessionTable) : Prop :=
  t.Binds fun _ _ id => (reg.servers id).isSome

/-- Every record of the registry is stored under its own id. -/
def RealServerManager.IdsMatch (reg : RealServerManager) : Prop :=
  ∀ id rs, reg.servers id = some rs → rs.id = id

/-- `handle_loadbalance` keeps a relation between keys, client tuples and servers that holds of
    the sessions `create` would store for the server `select_server` picks. -/
theorem handleLoadbalance_binds {R : FiveTuple → FiveTuple → UInt32 → Prop} (lb : LbState)
    (t : TupleObject) (len : UInt64) (f₁ f₂ : Bool) (n₁ n₂ : UInt64)
    (hR : lb.sessions.sessions.Binds R)
    (hnew : ∀ rs, lb.registry.selectServer t = some rs → R t.tuple t.tuple rs.id) :
    (handleLoadbalance lb t len f₁ f₂ n₁ n₂).1.sessions.sessions.Binds R := by
  have hl : (lb.sessions.lookup t.tuple n₁).1.sessions.Binds R := by
    unfold SessionManager.lookup
    split
    · exact hR.modify fun _ => ⟨rfl, rfl⟩
    · exact hR
  rcases handleLoadbalance_cases lb t len f₁ f₂ n₁ n₂ with ⟨hs, -⟩ | hr
  · rw [hs]
    exact hl.modify fun _ => ⟨rfl, rfl⟩
  · rw [hr]
    obtain ⟨-, ⟨hs, -⟩ | ⟨rs, hrs, hs, -⟩⟩ :=
      LbState.newFlow_cases lb (lb.sessions.lookup t.tuple n₁).1 t f₂ n₂
    · rw [hs]
      exact hl
    · rw [hs]
      exact hl.assign (hnew rs hrs)

namespace Balancer

theorem handleArp_sessions (h : Handlers) (b : Balancer) (f : List UInt8) :
    (b.handleArp h f).1.lb.sessions = b.lb.sessions := by
  unfold handleArp
  split_ifs
  · rfl
  · split <;> rfl

theorem handleIcmp_sessions (h : Handlers) (b : Balancer) (f : List UInt8) (meta : PacketMeta) :
    (b.handleIcmp h f meta).1.lb.sessions = b.lb.sessions := by
  unfold handleIcmp
  dsimp only
  split <;> rfl

/-- An IPv4 frame keeps a relation between keys, client tuples and servers when it holds of every
    TCP or UDP flow to the VIP with the server `select_server` picks for it. -/
theorem handleIpv4_binds {R : FiveTuple → FiveTuple → UInt32 → Prop} (h : Handlers)
    (b : Balancer) (f : List UInt8) (a : Answers) (hip : etherType f = etherTypeIPv4)
    (hR : b.lb.sessions.sessions.Binds R)
    (hnew : ∀ (t : FiveTuple) pad rs, t.dstIp = b.localIp → (t.protocol = 6 ∨ t.protocol = 17) →
      b.lb.registry.selectServer ⟨t, pad⟩ = some rs → R t t rs.id) :
    (b.handleIpv4 h f a).1.lb.sessions.sessions.Binds R := by
  unfold handleIpv4
  rcases hp : parse (frameBytes f) f.length.toUInt64 {} with ⟨_ | _, meta⟩
  · exact hR
  obtain ⟨hl3, -, hpr, -⟩ := @parse_fields _ _ {} hip (by rw [hp])
  rw [hp] at hl3 hpr
  simp only [Bool.not_true, Bool.false_eq_true, if_false]
  have hbal : ∀ b' : Balancer, b'.lb = b.lb → (meta.ipProtocol = 6 ∨ meta.ipProtocol = 17) →
      meta.dstIp = b.localIp → (b'.balance f meta a).1.lb.sessions.sessions.Binds R := by
    intro b' hlb hpro hdst
    rw [← hlb] at hR hnew
    exact handleLoadbalance_binds _ _ _ _ _ _ _ hR fun rs hrs => hnew _ _ rs hdst hpro hrs
  split_ifs with h₁ h₂ h₃ h₄
  · rw [handleIcmp_sessions]
    exact hR
  · exact hR
  · exact hbal _ rfl (.inl (hpr.trans (hl3 ▸ h₃))) (not_not.mp h₂)
  · exact hbal _ rfl (.inr (hpr.trans (hl3 ▸ h₄))) (not_not.mp h₂)
  · exact hR

/-- A packet keeps such a relation. -/
theorem processPacket_binds {R : FiveTuple → FiveTuple → UInt32 → Prop} (h : Handlers)
    (b : Balancer) (f : List UInt8) (a : Answers) (hR : b.lb.sessions.sessions.Binds R)
    (hnew : ∀ (t : FiveTuple) pad rs, t.dstIp = b.localIp → (t.protocol = 6 ∨ t.protocol = 17) →
      b.lb.registry.selectServer ⟨t, pad⟩ = some rs → R t t rs.id) :
    (b.processPacket h f a).1.lb.sessions.sessions.Binds R := by
  unfold processPacket
  split_ifs with _ _ _ hip
  · exact hR
  · exact hR
  · rw [handleArp_sessions]
    exact hR
  · exact handleIpv4_binds h b.countRx f a hip hR hnew
  · exact hR

end Balancer

namespace RealServerManager

theorem selectServer_registered {reg : RealServerManager} (hids : reg.IdsMatch) {t : TupleObject}
    {rs : RealServer} (h : reg.selectServer t = some rs) : reg.servers rs.id = some rs := by
  unfold selectServer at h
  rcases hg : reg.hashRing.getServer t with _ | id <;> rw [hg] at h
  · cases h
  rcases hs : reg.servers id with _ | r <;> simp only [hs] at h
  · cases h
  split_ifs at h
  cases h
  rw [hids id rs hs]
  exact hs

theorem idsMatch_apply {reg : RealServerManager} (hids : reg.IdsMatch) (op : RegistryOp) :
    (op.apply reg).IdsMatch := by
  intro id r hr
  cases op with
  | addServer rs =>
    by_cases h : id = rs.id
    · subst h
      simp only [RegistryOp.apply, addServer, Function.update_same, Option.some.injEq] at hr
      rw [hr]
    · simp only [RegistryOp.apply, addServer, Function.update_noteq h] at hr
      exact hids id r hr
  | removeServer v =>
    by_cases h : id = v
    · subst h
      simp [RegistryOp.apply, removeServer] at hr
    · simp only [RegistryOp.apply, removeServer, Function.update_noteq h] at hr
      exact hids id r hr
  | setStatus v st =>
    rw [RegistryOp.apply, setStatus_servers] at hr
    obtain ⟨r₀, hr₀, rfl⟩ := Option.map_eq_some'.mp hr
    split_ifs <;> exact hids id r₀ hr₀

/-- Only `remove_server(id)` unregisters `id`. -/
theorem isSome_apply {reg : RealServerManager} (op : RegistryOp) {id : UInt32}
    (hop : op ≠ .removeServer id) (h : (reg.servers id).isSome) :
    ((op.apply reg).servers id).isSome := by
  cases op with
  | addServer rs =>
    by_cases hid : id = rs.id
    · subst hid
      simp [RegistryOp.apply, addServer]
    · simpa only [RegistryOp.apply, addServer, Function.update_noteq hid] using h
  | removeServer v =>
    have hv : id ≠ v := fun he => hop (he ▸ rfl)
    simpa only [RegistryOp.apply, removeServer, Function.update_noteq hv] using h
  | setStatus v st => simpa [RegistryOp.apply, setStatus_servers] using h

theorem idsMatch_runOps {reg : RealServerManager} (hids : reg.IdsMatch) :
    ∀ ops : List RegistryOp, (runOps reg ops).IdsMatch
  | [] => hids
  | op :: ops => idsMatch_runOps (idsMatch_apply hids op) ops

theorem selectServer_up {reg : RealServerManager} {t : TupleObject} {rs : RealServer}
    (h : reg.selectServer t = some rs) : rs.status = .up := by
  unfold selectServer at h
  split at h
  · cases h
  split at h
  · split_ifs at h with ha
    cases h
    simpa [RealServer.isAvailable] using ha
  · cases h

/-- **Balancing picks only live servers.** Over every run of `add_server`, `remove_server` and
    `set_status` calls from the empty manager, a server `select_server` returns is `UP`, and it is
    the record `get_server` returns for its id. -/
theorem selectServer_runOps (ops : List RegistryOp) (t : TupleObject) {rs : RealServer}
    (h : (runOps new ops).selectServer t = some rs) :
    (runOps new ops).getServer rs.id = some rs ∧ rs.status = .up :=
  ⟨selectServer_registered (idsMatch_runOps (fun _ _ h => by cases h) ops) h, selectServer_up h⟩

/-- One server added: a flow is sent to it. -/
theorem selectServer_runOps_one :
    let ops := [RegistryOp.addServer { id := 1, weight := 1, status := .up }]
    let t : TupleObject := ⟨⟨0x01020304, 0x05060708, 80, 8080, 6⟩, (0, 0, 0)⟩
    (runOps new ops).selectServer t = some { id := 1, weight := 1, status := .up } ∧
      (runOps new ops).getServer 1 = some { id := 1, weight := 1, status := .up } ∧
      ServerStatus.up = .up := by
  intro ops t
  have h : (runOps new ops).selectServer t = some { id := 1, weight := 1, status := .up } := by
    decide
  exact ⟨h, selectServer_runOps ops t h⟩

end RealServerManager

/-- The input is a `remove_server` call. -/
def Input.removesServer : Input → Bool
  | .control (.removeServer _) => true
  | _ => false

namespace Balancer

theorem run_flowsToVip (h : Handlers) (b : Balancer) (ins : List Input)
    (hflows : FlowsToVip b.localIp b.lb.sessions.sessions) :
    FlowsToVip b.localIp (b.run h ins).1.lb.sessions.sessions := by
  induction ins generalizing b with
  | nil => exact hflows
  | cons i ins ih =>
    cases i with
    | packet f a =>
      have hk := processPacket_keeps h b f a
      have := ih _ (hk.localIp ▸ processPacket_binds h b f a hflows
        fun _ _ _ hd hp _ => ⟨rfl, hd, hp⟩)
      rwa [hk.localIp] at this
    | control op => exact ih _ hflows

theorem run_serversRegistered (h : Handlers) (b : Balancer) (ins : List Input)
    (hids : b.lb.registry.IdsMatch) (hreg : ServersRegistered b.lb.registry b.lb.sessions.sessions)
    (hrm : ins.all (fun i => !i.removesServer) = true) :
    ServersRegistered (b.run h ins).1.lb.registry (b.run h ins).1.lb.sessions.sessions := by
  induction ins generalizing b with
  | nil => exact hreg
  | cons i ins ih =>
    simp only [List.all_cons, Bool.and_eq_true, Bool.not_eq_true'] at hrm
    cases i with
    | packet f a =>
      have hk := processPacket_keeps h b f a
      refine ih _ (hk.registry ▸ hids) ?_ hrm.2
      rw [hk.registry]
      exact processPacket_binds h b f a hreg fun _ _ _ _ _ hs =>
        by rw [RealServerManager.selectServer_registered hids hs]; rfl
    | control op =>
      refine ih _ (RealServerManager.idsMatch_apply hids op) (fun e he => ?_) hrm.2
      refine RealServerManager.isSome_apply op (fun hv => ?_) (hreg e he)
      subst hv
      simp [Input.removesServer] at hrm

/-- **Only flows to the VIP get sessions.** Over every run of packets and control-plane calls,
    from a state where it holds, every session is stored under its own client tuple, a TCP or UDP
    flow to the VIP; and if no server is removed during the run, every session names a
    registered server. -/
theorem run_sessions (h : Handlers) (b : Balancer) (ins : List Input)
    (hflows : FlowsToVip b.localIp b.lb.sessions.sessions) (hids : b.lb.registry.IdsMatch)
    (hreg : ServersRegistered b.lb.registry b.lb.sessions.sessions) :
    FlowsToVip b.localIp (b.run h ins).1.lb.sessions.sessions ∧
      (ins.all (fun i => !i.removesServer) = true →
        ServersRegistered (b.run h ins).1.lb.registry (b.run h ins).1.lb.sessions.sessions) :=
  ⟨run_flowsToVip h b ins hflows, run_serversRegistered h b ins hids hreg⟩

theorem run_sessions_fresh :
    let h : Handlers := ⟨28, fun f _ _ => (false, f), fun icmp => (true, icmp)⟩
    let b : Balancer := ⟨true, 0x0100000A, .zero, ⟨.new, .new, {}⟩, {}⟩
    let ins : List Input :=
      [.control (.addServer { id := 1, weight := 1, status := .up }),
        .packet [] ⟨true, true, [], (0, 0, 0), 1, 2⟩]
    FlowsToVip b.localIp b.lb.sessions.sessions ∧ b.lb.registry.IdsMatch ∧
      ServersRegistered b.lb.registry b.lb.sessions.sessions ∧
      (FlowsToVip b.localIp (b.run h ins).1.lb.sessions.sessions ∧
        (ins.all (fun i => !i.removesServer) = true →
          ServersRegistered (b.run h ins).1.lb.registry (b.run h ins).1.lb.sessions.sessions)) :=
  ⟨(fun _ he => nomatch he), (fun _ _ he => nomatch he), (fun _ he => nomatch he),
    run_sessions _ _ _ (fun _ he => nomatch he) (fun _ _ he => nomatch he) (fun _ he => nomatch he)⟩

end Balancer

/-! ## Sessions are never dropped -/

/-- The flows that have a session in the table. -/
def SessionTable.keys (t : SessionTable) : List FiveTuple := t.entries.map Prod.fst

theorem SessionTable.keys_modify (t : SessionTable) (k : FiveTuple) (f : Session → Session) :
    (t.modify k f).keys = t.keys :=
  map_fst_modify _ _ _

theorem SessionTable.mem_keys_assign {t : SessionTable} {k k' : FiveTuple} (s : Session)
    (h : k' ∈ t.keys) : k' ∈ (t.assign k s).keys := by
  unfold SessionTable.assign
  split_ifs
  · rwa [SessionTable.keys_modify]
  · show k' ∈ (t.entries ++ [(k, s)]).map Prod.fst
    rw [List.map_append]
    exact List.mem_append_left _ h

theorem handleLoadbalance_keys (lb : LbState) (t : TupleObject) (len : UInt64) (f₁ f₂ : Bool)
    (n₁ n₂ : UInt64) {k : FiveTuple} (hk : k ∈ lb.sessions.sessions.keys) :
    k ∈ (handleLoadbalance lb t len f₁ f₂ n₁ n₂).1.sessions.sessions.keys := by
  have hl : k ∈ (lb.sessions.lookup t.tuple n₁).1.sessions.keys := by
    unfold SessionManager.lookup
    split
    · exact (SessionTable.keys_modify _ _ _).symm ▸ hk
    · exact hk
  rcases handleLoadbalance_cases lb t len f₁ f₂ n₁ n₂ with ⟨hs, -⟩ | hr
  · rw [hs]
    exact (SessionTable.keys_modify _ _ _).symm ▸ hl
  · rw [hr]
    obtain ⟨-, ⟨hs, -⟩ | ⟨rs, -, hs, -⟩⟩ :=
      LbState.newFlow_cases lb (lb.sessions.lookup t.tuple n₁).1 t f₂ n₂
    · rw [hs]
      exact hl
    · rw [hs]
      exact SessionTable.mem_keys_assign _ hl

namespace Balancer

/-- A packet leaves the sessions alone, or they are what `handle_loadbalance` makes of them for
    some flow. -/
theorem processPacket_sessions (h : Handlers) (b : Balancer) (f : List UInt8) (a : Answers) :
    (b.processPacket h f a).1.lb.sessions = b.lb.sessions ∨
      ∃ lb t len, lb.sessions = b.lb.sessions ∧ lb.registry = b.lb.registry ∧
        (b.processPacket h f a).1.lb.sessions =
          (handleLoadbalance lb t len a.forward₁ a.forward₂ a.now₁ a.now₂).1.sessions := by
  unfold processPacket
  split_ifs
  · exact .inl rfl
  · exact .inl rfl
  · exact .inl (handleArp_sessions h _ f)
  · unfold handleIpv4
    rcases parse (frameBytes f) f.length.toUInt64 {} with ⟨_ | _, meta⟩
    · exact .inl rfl
    simp only [Bool.not_true, Bool.false_eq_true, if_false]
    split_ifs
    · exact .inl (handleIcmp_sessions h _ f meta)
    · exact .inl rfl
    · exact .inr ⟨b.countRx.countTcp.lb, ⟨meta.toFiveTuple, a.padding⟩, _, rfl, rfl, rfl⟩
    · exact .inr ⟨b.countRx.countUdp.lb, ⟨meta.toFiveTuple, a.padding⟩, _, rfl, rfl, rfl⟩
    · exact .inl rfl
  · exact .inl rfl

/-- **Sessions are never dropped.** Over every run of packets and control-plane calls, every
    flow that has a session before the run still has one after it: the packet path only looks
    sessions up, touches and creates them, and nothing in the repository calls
    `SessionManager::remove` or `cleanup`, so the session timeout `init` sets never takes
    effect. -/
theorem run_keeps_sessions (h : Handlers) (b : Balancer) (ins : List Input) {k : FiveTuple}
    (hk : k ∈ b.lb.sessions.sessions.keys) : k ∈ (b.run h ins).1.lb.sessions.sessions.keys := by
  induction ins generalizing b with
  | nil => exact hk
  | cons i ins ih =>
    cases i with
    | packet f a =>
      refine ih _ ?_
      rcases processPacket_sessions h b f a with hs | ⟨lb, t, len, hlb, -, hs⟩ <;> rw [hs]
      exacts [hk, handleLoadbalance_keys _ _ _ _ _ _ _ (hlb ▸ hk)]
    | control op => exact ih _ hk

/-- A flow with a session keeps it across the removal of its server and a packet. -/
theorem run_keeps_sessions_flow :
    let h : Handlers := ⟨28, fun f _ _ => (false, f), fun icmp => (true, icmp)⟩
    let t : FiveTuple := ⟨0x04030201, 0x0100000A, 80, 80, 6⟩
    let b : Balancer := ⟨true, 0x0100000A, .zero,
      ⟨{ SessionManager.new with sessions := SessionTable.empty.assign t ⟨t, 1, 0, 0, 0, 0⟩ },
        .new, {}⟩, {}⟩
    let ins : List Input :=
      [.control (.removeServer 1), .packet [] ⟨true, true, [], (0, 0, 0), 1, 2⟩]
    t ∈ b.lb.sessions.sessions.keys ∧ t ∈ (b.run h ins).1.lb.sessions.sessions.keys :=
  ⟨by decide, run_keeps_sessions _ _ _ (by decide)⟩

end Balancer


/-! ## A flow sticks to its server -/

namespace SessionTable

/-- The server the session of flow `k` names. -/
def serverOf (t : SessionTable) (k : FiveTuple) : Option UInt32 :=
  (t.find k).map Session.realServerId

theorem find?_map_modify (l : List (FiveTuple × Session)) (k k' : FiveTuple)
    (f : Session → Session) :
    ((l.map fun e => if e.1 = k then (e.1, f e.2) else e).find? fun e => e.1 = k').map Prod.snd =
      ((l.find? fun e => e.1 = k').map Prod.snd).map fun s => if k' = k then f s else s := by
  induction l with
  | nil => rfl
  | cons e l ih =>
    obtain ⟨a, s⟩ := e
    by_cases ha : a = k'
    · subst ha
      by_cases hk : a = k <;> simp [hk]
    · have hne : decide (a = k') = false := decide_eq_false ha
      by_cases hk : a = k
      · subst hk
        simp only [List.map_cons, List.find?_cons, if_true, hne, ih]
      · simp only [List.map_cons, List.find?_cons, hk, if_false, hne, ih]

/-- `modify k f` rewrites the session of `k` by `f` and no other. -/
theorem find_modify (t : SessionTable) (k k' : FiveTuple) (f : Session → Session) :
    (t.modify k f).find k' = (t.find k').map fun s => if k' = k then f s else s :=
  find?_map_modify t.entries k k' f

theorem serverOf_modify (t : SessionTable) (k k' : FiveTuple) (f : Session → Session)
    (hf : ∀ s, (f s).realServerId = s.realServerId) : (t.modify k f).serverOf k' = t.serverOf k' := by
  unfold serverOf
  rw [find_modify, Option.map_map]
  congr 1
  funext s
  show (if k' = k then f s else s).realServerId = s.realServerId
  split_ifs
  exacts [hf s, rfl]

theorem find_assign_self (t : SessionTable) (k : FiveTuple) (s : Session) :
    (t.assign k s).find k = some s := by
  unfold assign
  split_ifs with hk
  · obtain ⟨e, he, rfl⟩ := List.mem_map.mp hk
    have hfind : (t.entries.find? fun e' => e'.1 = e.1).isSome :=
      List.find?_isSome.mpr ⟨e, he, by simp⟩
    obtain ⟨x, hx⟩ := Option.isSome_iff_exists.mp hfind
    rw [find_modify]
    simp [find, hx]
  · have hnone : t.entries.find? (fun e => e.1 = k) = none :=
      List.find?_eq_none.mpr fun e he hek => hk (List.mem_map.mpr ⟨e, he, of_decide_eq_true hek⟩)
    simp [find, List.find?_append, hnone]

theorem serverOf_assign_self (t : SessionTable) (k : FiveTuple) (s : Session) :
    (t.assign k s).serverOf k = some s.realServerId := by
  rw [serverOf, find_assign_self]
  rfl

theorem serverOf_assign_ne (t : SessionTable) {k k' : FiveTuple} (s : Session) (h : k' ≠ k) :
    (t.assign k s).serverOf k' = t.serverOf k' := by
  unfold serverOf assign
  split_ifs
  · rw [find_modify]
    simp [h]
  · simp [find, List.find?_append, Ne.symm h]

end SessionTable

namespace SessionManager

variable (m : SessionManager) (k k' : FiveTuple) (now : UInt64)

/-- What `lookup` returns is the stored session, touched. -/
theorem lookup_snd : (m.lookup k now).2 = (m.sessions.find k).map (·.touch now) := by
  unfold lookup
  split <;> simp_all

theorem find_lookup : (m.lookup k now).1.sessions.find k = (m.sessions.find k).map (·.touch now) := by
  unfold lookup
  split <;> simp_all [SessionTable.find_modify]

theorem serverOf_lookup : (m.lookup k now).1.sessions.serverOf k' = m.sessions.serverOf k' := by
  unfold lookup
  split
  · exact SessionTable.serverOf_modify _ _ _ _ fun _ => rfl
  · rfl

theorem serverOf_updateStats (bytes : UInt64) :
    (m.updateStats k bytes now).sessions.serverOf k' = m.sessions.serverOf k' :=
  SessionTable.serverOf_modify _ _ _ _ fun _ => rfl

theorem serverOf_create_self (id : UInt32) : (m.create k id now).sessions.serverOf k = some id :=
  SessionTable.serverOf_assign_self _ _ _

theorem serverOf_create_ne (id : UInt32) {k k' : FiveTuple} (h : k' ≠ k) :
    (m.create k id now).sessions.serverOf k' = m.sessions.serverOf k' :=
  SessionTable.serverOf_assign_ne _ _ h

end SessionManager

/-- A new flow's packet binds the flow to the server `select_server` picks. -/
theorem LbState.newFlow_serverOf_self (lb : LbState) (sm : SessionManager) (t : TupleObject)
    (fwd : Bool) (now : UInt64) {rs : RealServer} (hrs : lb.registry.selectServer t = some rs) :
    (lb.newFlow sm t fwd now).1.sessions.sessions.serverOf t.tuple = some rs.id := by
  unfold LbState.newFlow
  rw [hrs]
  dsimp only
  split <;> exact SessionManager.serverOf_create_self ..

/-- A new flow's packet leaves the other flows' servers alone. -/
theorem LbState.newFlow_serverOf_ne (lb : LbState) (sm : SessionManager) (t : TupleObject)
    (fwd : Bool) (now : UInt64) {k : FiveTuple} (hk : k ≠ t.tuple) :
    (lb.newFlow sm t fwd now).1.sessions.sessions.serverOf k = sm.sessions.serverOf k := by
  obtain ⟨-, ⟨hs, -⟩ | ⟨rs, -, hs, -⟩⟩ := LbState.newFlow_cases lb sm t fwd now <;> rw [hs]
  exact SessionManager.serverOf_create_ne _ _ _ hk

/-- A packet of a flow whose session names a registered server, when the forwarder takes it:
    `lookup`, then `update_stats`. -/
theorem handleLoadbalance_known (lb : LbState) (t : TupleObject) (len : UInt64) (f₂ : Bool)
    (n₁ n₂ : UInt64) {sess : Session} (hfind : lb.sessions.sessions.find t.tuple = some sess)
    (hs : (lb.registry.getServer sess.realServerId).isSome) :
    (handleLoadbalance lb t len true f₂ n₁ n₂).1.sessions =
      (lb.sessions.lookup t.tuple n₁).1.updateStats t.tuple len n₂ := by
  obtain ⟨rs, hrs⟩ := Option.isSome_iff_exists.mp hs
  unfold handleLoadbalance
  simp only [SessionManager.lookup, hfind, Option.some_bind, Session.touch, hrs, if_true]

/-- While its server is registered and the forwarder takes the packet, every flow keeps the
    server its session names. -/
theorem handleLoadbalance_serverOf (lb : LbState) (t : TupleObject) (len : UInt64) (f₂ : Bool)
    (n₁ n₂ : UInt64) {k : FiveTuple} {s : UInt32} (hk : lb.sessions.sessions.serverOf k = some s)
    (hs : (lb.registry.getServer s).isSome) :
    (handleLoadbalance lb t len true f₂ n₁ n₂).1.sessions.sessions.serverOf k = some s := by
  have hl := (SessionManager.serverOf_lookup lb.sessions t.tuple k n₁).trans hk
  by_cases hkt : k = t.tuple
  · subst hkt
    obtain ⟨sess, hfind, rfl⟩ := Option.map_eq_some'.mp hk
    rw [handleLoadbalance_known lb t len f₂ n₁ n₂ hfind hs, SessionManager.serverOf_updateStats]
    exact hl
  · rcases handleLoadbalance_cases lb t len true f₂ n₁ n₂ with ⟨hsess, -⟩ | hr
    · rw [hsess, SessionManager.serverOf_updateStats]
      exact hl
    · rw [hr, LbState.newFlow_serverOf_ne _ _ _ _ _ hkt]
      exact hl

/-- A packet binds its own flow to a server that satisfies `P`, when every registered server and
    the server `select_server` picks for it do: a known flow whose server is registered and whose
    forward succeeds keeps its server, and every other packet takes the selected one. -/
theorem handleLoadbalance_bound (P : UInt32 → Prop) (lb : LbState) (t : TupleObject) (len : UInt64)
    (f₁ f₂ : Bool) (n₁ n₂ : UInt64) (hreg : ∀ id, (lb.registry.getServer id).isSome → P id)
    (hsel : ∃ rs, lb.registry.selectServer t = some rs ∧ P rs.id) :
    ∃ id, P id ∧ (handleLoadbalance lb t len f₁ f₂ n₁ n₂).1.sessions.sessions.serverOf t.tuple =
      some id := by
  obtain ⟨rs, hrs, hP⟩ := hsel
  have hnew : ∀ sm, ∃ id, P id ∧ (lb.newFlow sm t f₂ n₂).1.sessions.sessions.serverOf t.tuple =
      some id := fun sm => ⟨rs.id, hP, LbState.newFlow_serverOf_self lb sm t f₂ n₂ hrs⟩
  unfold handleLoadbalance
  dsimp only
  split
  · next r hr =>
    split
    · rw [SessionManager.lookup_snd] at hr
      obtain ⟨_, hs, hg⟩ := Option.bind_eq_some.mp hr
      obtain ⟨sess, hfind, rfl⟩ := Option.map_eq_some'.mp hs
      refine ⟨sess.realServerId, hreg _ (Option.isSome_iff_exists.mpr ⟨r, hg⟩), ?_⟩
      rw [SessionManager.serverOf_updateStats, SessionManager.serverOf_lookup]
      simp [SessionTable.serverOf, hfind]
    · exact hnew _
  · exact hnew _

/-- The input leaves the flows of server `s` on it: a packet the forwarder takes, or a
    control-plane call other than `remove_server(s)`. -/
def Input.keepsServer (s : UInt32) : Input → Bool
  | .packet _ a => a.forward₁
  | .control (.removeServer id) => id != s
  | .control _ => true

namespace Balancer

theorem processPacket_serverOf (h : Handlers) (b : Balancer) (f : List UInt8) (a : Answers)
    {k : FiveTuple} {s : UInt32} (hk : b.lb.sessions.sessions.serverOf k = some s)
    (hs : (b.lb.registry.getServer s).isSome) (hf : a.forward₁ = true) :
    (b.processPacket h f a).1.lb.sessions.sessions.serverOf k = some s := by
  rcases processPacket_sessions h b f a with hsess | ⟨lb, t, len, hlb, hreg, hsess⟩ <;> rw [hsess]
  · exact hk
  · rw [hf]
    exact handleLoadbalance_serverOf lb t len _ _ _ (hlb ▸ hk) (hreg ▸ hs)

/-- **A flow sticks to its server.** Over every run in which the forwarder takes every packet
    and server `s` is not removed, a flow whose session names `s`, a registered server, still
    names it after the run. `set_status` is among the calls allowed: `handle_loadbalance` checks
    `get_server` and not `is_available()`, so the flows of a server marked `DOWN` stay on it. -/
theorem run_sticky (h : Handlers) (b : Balancer) (ins : List Input) {k : FiveTuple} {s : UInt32}
    (hk : b.lb.sessions.sessions.serverOf k = some s) (hs : (b.lb.registry.getServer s).isSome)
    (hins : ins.all (Input.keepsServer s) = true) :
    (b.run h ins).1.lb.sessions.sessions.serverOf k = some s := by
  induction ins generalizing b with
  | nil => exact hk
  | cons i ins ih =>
    simp only [List.all_cons, Bool.and_eq_true] at hins
    cases i with
    | packet f a =>
      exact ih _ (processPacket_serverOf h b f a hk hs hins.1)
        ((processPacket_keeps h b f a).registry ▸ hs) hins.2
    | control op =>
      refine ih _ hk (RealServerManager.isSome_apply op (fun hop => ?_) hs) hins.2
      subst hop
      simp [Input.keepsServer] at hins

/-- Server 1 is marked `DOWN`, then a packet of a flow it serves is forwarded: the flow stays on
    server 1. -/
theorem run_sticky_down :
    let h : Handlers := ⟨28, fun f _ _ => (false, f), fun icmp => (true, icmp)⟩
    let t : FiveTuple := ⟨0x0100000A, 0x0200000A, 0x5000, 0x901F, 6⟩
    let b : Balancer := ⟨true, 0x0200000A, .zero,
      ⟨{ SessionManager.new with sessions := SessionTable.empty.assign t ⟨t, 1, 0, 0, 0, 0⟩ },
        RealServerManager.new.addServer { id := 1, weight := 1, status := .up }, {}⟩, {}⟩
    let frame : List UInt8 := [0, 0, 0, 0, 0, 1, 0, 0, 0, 0, 0, 2, 0x08, 0x00,
      0x45, 0, 0, 40, 0, 0, 0, 0, 64, 6, 0, 0, 10, 0, 0, 1, 10, 0, 0, 2,
      0, 80, 0x1F, 0x90, 0, 0, 0, 0, 0, 0, 0, 0, 0x50, 0x02, 0xFF, 0xFF, 0, 0, 0, 0]
    let ins : List Input :=
      [.control (.setStatus 1 .down), .packet frame ⟨true, true, frame, (0, 0, 0), 1, 2⟩]
    b.lb.sessions.sessions.serverOf t = some 1 ∧ (b.lb.registry.getServer 1).isSome ∧
      ins.all (Input.keepsServer 1) = true ∧
      (b.run h ins).1.lb.sessions.sessions.serverOf t = some 1 :=
  ⟨by decide, by decide, by decide, run_sticky _ _ _ (by decide) (by decide) (by decide)⟩

/-! ## After start-up, every flow to the VIP is bound to a configured backend -/

/-- A TCP or UDP frame to the VIP reaches `handle_loadbalance`, for the tuple `parse` reads. -/
theorem processPacket_balanced (h : Handlers) (b : Balancer) (f : List UInt8) (a : Answers)
    (hrun : b.running = true) (hlen : f.length < 2 ^ 64) (hip : etherType f = etherTypeIPv4)
    (hfit : ethHeaderSize + 20 ≤ f.length) (hpro : f.getD 23 0 = 6 ∨ f.getD 23 0 = 17)
    (hdst : load32 (frameBytes f) 30 = b.localIp) :
    ∃ lb : LbState, lb.sessions = b.lb.sessions ∧ lb.registry = b.lb.registry ∧
      (b.processPacket h f a).1.lb = (handleLoadbalance lb
        ⟨(parse (frameBytes f) f.length.toUInt64 {}).2.toFiveTuple, a.padding⟩ f.length.toUInt64
        a.forward₁ a.forward₂ a.now₁ a.now₂).1 := by
  have hip' : be16 (frameBytes f) 12 = etherTypeIPv4 := hip
  have hlenN : f.length.toUInt64.toNat = f.length := Nat.mod_eq_of_lt hlen
  have hok := parse_accepts {} hip' (by rw [hlenN]; exact hfit)
  obtain ⟨hl3, -, -, hd⟩ := parse_fields hip' hok
  rcases hp : parse (frameBytes f) f.length.toUInt64 {} with ⟨ok, meta⟩
  rw [hp] at hok hl3 hd
  obtain rfl : ok = true := hok
  have h14 : ¬ f.length < ethHeaderSize := by unfold ethHeaderSize at hfit ⊢; omega
  have harp : etherTypeIPv4 ≠ etherTypeArp := by decide
  have hdst' : meta.dstIp = b.countRx.localIp := hd.trans hdst
  have hproto : frameBytes f (meta.l3Offset.toNat + 9) = f.getD 23 0 := by rw [hl3]; rfl
  unfold processPacket handleIpv4
  simp only [hrun, Bool.not_true, Bool.false_eq_true, if_false, h14, hip, harp, if_true, hp,
    hproto, hdst', ne_eq, not_true_eq_false]
  have h61 : (6 : UInt8) ≠ 1 := by decide
  have h171 : (17 : UInt8) ≠ 1 := by decide
  have h176 : (17 : UInt8) ≠ 6 := by decide
  rcases hpro with hpr | hpr
  · simp only [hpr, h61, false_and, if_false, if_true]
    exact ⟨b.countRx.countTcp.lb, rfl, rfl, rfl⟩
  · simp only [hpr, h171, h176, false_and, if_false, if_true]
    exact ⟨b.countRx.countUdp.lb, rfl, rfl, rfl⟩

/-- A TCP or UDP packet to the VIP binds its flow to a server that satisfies `P`, when every
    registered server and every server `select_server` picks do. -/
theorem processPacket_bound (P : UInt32 → Prop) (h : Handlers) (b : Balancer) (f : List UInt8)
    (a : Answers) (hrun : b.running = true) (hlen : f.length < 2 ^ 64)
    (hip : etherType f = etherTypeIPv4) (hfit : ethHeaderSize + 20 ≤ f.length)
    (hpro : f.getD 23 0 = 6 ∨ f.getD 23 0 = 17) (hdst : load32 (frameBytes f) 30 = b.localIp)
    (hreg : ∀ id, (b.lb.registry.getServer id).isSome → P id)
    (hsel : ∀ t, ∃ rs, b.lb.registry.selectServer t = some rs ∧ P rs.id) :
    ∃ id, P id ∧ (b.processPacket h f a).1.lb.sessions.sessions.serverOf
      (parse (frameBytes f) f.length.toUInt64 {}).2.toFiveTuple = some id := by
  obtain ⟨lb, hs, hr, heq⟩ := processPacket_balanced h b f a hrun hlen hip hfit hpro hdst
  rw [heq]
  rw [← hr] at hreg hsel
  exact handleLoadbalance_bound P lb _ _ _ _ _ _ hreg (hsel _)

/-- A run of packets leaves `running_`, the VIP, its MAC and the registry alone. -/
theorem run_keeps (h : Handlers) (b : Balancer) (ins : List Input)
    (hins : ins.all Input.isPacket = true) : Keeps b (b.run h ins).1 := by
  induction ins generalizing b with
  | nil => exact ⟨rfl, rfl, rfl, rfl⟩
  | cons i ins ih =>
    simp only [List.all_cons, Bool.and_eq_true] at hins
    cases i with
    | packet f a => exact (processPacket_keeps h b f a).trans (ih _ hins.2)
    | control op => exact absurd hins.1 (by simp [Input.isPacket])

end Balancer

namespace Startup

open Config

/-- **After start-up, every flow to the VIP is bound to a configured backend.** Start the
    balancer on the fresh registry from the configuration file of settings with at least one
    backend, and let any packets through. Then a TCP or UDP packet to the VIP leaves its flow (the
    tuple `parse` reads) with a session on one of the configured backends: a new flow gets the
    backend `select_server` picks, a known flow keeps its backend, and a flow whose session names
    an id that is not registered, left from before start-up, is moved to a configured one. -/
theorem init_binds (junk : Nat → UInt16 × UInt32) (st : Startup) (s : Settings)
    (hfresh : st.balancer.lb.registry = RealServerManager.new) (hne : s.servers ≠ [])
    (h : Handlers) (ins : List Input) (hins : ins.all Input.isPacket = true) (f : List UInt8)
    (a : Answers) (hlen : f.length < 2 ^ 64) (hip : etherType f = etherTypeIPv4)
    (hfit : ethHeaderSize + 20 ≤ f.length) (hpro : f.getD 23 0 = 6 ∨ f.getD 23 0 = 17)
    (hdst : load32 (frameBytes f) 30 = s.vip) :
    let b := ((init junk st (some s.render)).2.balancer.run h ins).1
    ∃ j < s.servers.length, (b.processPacket h f a).1.lb.sessions.sessions.serverOf
      (parse (frameBytes f) f.length.toUInt64 {}).2.toFiveTuple = some (j + 1).toUInt32 := by
  intro b
  have hinit := init_render_eq junk st s
  have hk := Balancer.run_keeps h (init junk st (some s.render)).2.balancer ins hins
  have hb : b.lb.registry = s.registry := by rw [hk.registry, hinit, hfresh]; rfl
  have hrun : b.running = true := by rw [hk.running, hinit]
  have hvip : b.localIp = s.vip := by rw [hk.localIp, hinit]
  have hreg : ∀ id, (b.lb.registry.getServer id).isSome → ∃ j < s.servers.length,
      id = (j + 1).toUInt32 := by
    intro id hid
    by_contra hno
    push_neg at hno
    rw [RealServerManager.getServer, hb, Settings.registry, RealServerManager.runOps_configOps_of_ne
      0 _ _ fun j hj => by simpa using hno j (by simpa using hj)] at hid
    exact absurd hid (by simp [RealServerManager.new])
  obtain ⟨id, ⟨j, hj, rfl⟩, hb⟩ := Balancer.processPacket_bound _ h b f a hrun hlen hip hfit
    hpro (hdst.trans hvip.symm) hreg fun t => by
      obtain ⟨j, hj, hsel⟩ := selectServer_registry s hne t
      exact ⟨_, hb ▸ hsel, j, hj, rfl⟩
  exact ⟨j, hj, hb⟩

/-- One backend behind the VIP `10.0.0.2`: after start-up, the SYN of `10.0.0.1:80 → 10.0.0.2:8080`
    is bound to it. -/
theorem init_binds_syn :
    let s : Settings := ⟨.nat, 0x0200000A, .zero, [8080], 0, 300, 150,
      [⟨0x0300000A, 8080, 100, .zero, by decide⟩], by decide, by decide, by decide⟩
    let st : Startup := ⟨⟨[], []⟩, ⟨false, 0, .zero, ⟨.new, .new, {}⟩, {}⟩, none⟩
    let h : Handlers := ⟨28, fun f _ _ => (false, f), fun icmp => (true, icmp)⟩
    let f : List UInt8 := [0, 0, 0, 0, 0, 1, 0, 0, 0, 0, 0, 2, 0x08, 0x00,
      0x45, 0, 0, 40, 0, 0, 0, 0, 64, 6, 0, 0, 10, 0, 0, 1, 10, 0, 0, 2,
      0, 80, 0x1F, 0x90, 0, 0, 0, 0, 0, 0, 0, 0, 0x50, 0x02, 0xFF, 0xFF, 0, 0, 0, 0]
    let a : Answers := ⟨true, true, f, (0, 0, 0), 1, 2⟩
    st.balancer.lb.registry = RealServerManager.new ∧ s.servers ≠ [] ∧
      ([] : List Input).all Input.isPacket = true ∧ f.length < 2 ^ 64 ∧
      etherType f = etherTypeIPv4 ∧ ethHeaderSize + 20 ≤ f.length ∧
      (f.getD 23 0 = 6 ∨ f.getD 23 0 = 17) ∧ load32 (frameBytes f) 30 = s.vip ∧
      let b := ((init (fun _ => (0, 0)) st (some s.render)).2.balancer.run h []).1
      ∃ j < s.servers.length, (b.processPacket h f a).1.lb.sessions.sessions.serverOf
        (parse (frameBytes f) f.length.toUInt64 {}).2.toFiveTuple = some (j + 1).toUInt32 :=
  ⟨rfl, List.cons_ne_nil _ _, rfl, by decide, by decide, by decide, .inl rfl, by decide,
    init_binds _ _ _ rfl (List.cons_ne_nil _ _) _ [] rfl _ _ (by decide) (by decide) (by decide)
      (.inl rfl) (by decide)⟩

end Startup

/-! ## A session outlives its last packet by the timeout -/

/-- The packet's own flow: its session, if it has one after `handle_loadbalance`, was touched at
    one of the call's two clock readings, and the timeout is unchanged. -/
theorem handleLoadbalance_touched (lb : LbState) (t : TupleObject) (len : UInt64) (f₁ f₂ : Bool)
    (n₁ n₂ : UInt64) :
    let sm := (handleLoadbalance lb t len f₁ f₂ n₁ n₂).1.sessions
    sm.timeoutSec = lb.sessions.timeoutSec ∧
      ∀ s, sm.sessions.find t.tuple = some s → s.lastActive = n₁ ∨ s.lastActive = n₂ := by
  have hl := SessionManager.find_lookup lb.sessions t.tuple n₁
  have hT : (lb.sessions.lookup t.tuple n₁).1.timeoutSec = lb.sessions.timeoutSec := by
    unfold SessionManager.lookup
    split <;> rfl
  rcases handleLoadbalance_cases lb t len f₁ f₂ n₁ n₂ with ⟨hsess, -⟩ | hr
  · refine ⟨hsess ▸ hT, fun s hs => .inr ?_⟩
    simp only [hsess, SessionManager.updateStats, SessionTable.find_modify, ↓reduceIte,
      Option.map_map, Option.map_eq_some'] at hs
    obtain ⟨_, -, rfl⟩ := hs
    rfl
  · rw [hr]
    obtain ⟨-, ⟨hsess, -⟩ | ⟨rs, -, hsess, -⟩⟩ := LbState.newFlow_cases lb _ t f₂ n₂ <;> rw [hsess]
    · refine ⟨hT, fun s hs => .inl ?_⟩
      obtain ⟨_, -, rfl⟩ := Option.map_eq_some'.mp (hl ▸ hs)
      rfl
    · refine ⟨hT, fun s hs => .inr ?_⟩
      cases (SessionTable.find_assign_self _ _ _).symm.trans hs
      rfl

/-- **A session outlives its last packet by the timeout.** After `handle_loadbalance` balances a
    packet at clock readings `n₁ ≤ n₂`, a `cleanup()` whose readings all lie between `n₂` and
    `timeout_sec` seconds after `n₁` keeps the session of the packet's flow as it is. -/
theorem handleLoadbalance_cleanup (lb : LbState) (t : TupleObject) (len : UInt64) (f₁ f₂ : Bool)
    (n₁ n₂ : UInt64) (now : Nat → UInt64) (hn : n₁ ≤ n₂)
    (hnow : ∀ i, n₂ ≤ now i ∧ (now i).toNat ≤ n₁.toNat + lb.sessions.timeoutSec.toNat * 1000000000)
    {s : Session} (hs : (handleLoadbalance lb t len f₁ f₂ n₁ n₂).1.sessions.sessions.find t.tuple = some s) :
    ((handleLoadbalance lb t len f₁ f₂ n₁ n₂).1.sessions.cleanup now).1.sessions.find t.tuple =
      some s := by
  set m := (handleLoadbalance lb t len f₁ f₂ n₁ n₂).1.sessions
  obtain ⟨hT, hlast⟩ := handleLoadbalance_touched lb t len f₁ f₂ n₁ n₂
  have hfresh : ∀ i, s.isExpired (now i) m.timeoutSec.toUInt64 = false := by
    intro i
    have h₁₂ : n₁.toNat ≤ n₂.toNat := hn
    have h₂ : n₂.toNat ≤ (now i).toNat := (hnow i).1
    have h₃ := (hnow i).2
    rw [hT]
    rcases hlast s hs with h | h <;>
      exact Session.isExpired_eq_false (show s.lastActive.toNat ≤ (now i).toNat by rw [h]; omega)
        (by rw [h]; omega)
  calc (m.cleanup now).1.sessions.find t.tuple
      = (m.sessions.find t.tuple).filter (fun s => !s.isExpired
          (now (0 + m.sessions.entries.findIdx fun e => e.1 = t.tuple)) m.timeoutSec.toUInt64) :=
        SessionManager.find_sweep m.timeoutSec now t.tuple 0 _ m.sessions.nodup
    _ = some s := by simp only [hs, Option.filter_some, hfresh, Bool.not_false, if_true]

/-- A known flow forwarded at readings 5 and 6 keeps its session through a cleanup at 7. -/
theorem handleLoadbalance_cleanup_known :
    let k : FiveTuple := ⟨0x0100000A, 0x0200000A, 0x5000, 0x901F, 6⟩
    let lb : LbState := ⟨SessionManager.new.create k 1 0,
      RealServerManager.new.addServer { id := 1, weight := 1, status := .up }, {}⟩
    let r := handleLoadbalance lb ⟨k, (0, 0, 0)⟩ 60 true true 5 6
    r.1.sessions.sessions.find k = some ⟨k, 1, 0, 6, 1, 60⟩ ∧
      (r.1.sessions.cleanup fun _ => 7).1.sessions.find k = some ⟨k, 1, 0, 6, 1, 60⟩ := by
  intro k lb r
  have hs : r.1.sessions.sessions.find k = some ⟨k, 1, 0, 6, 1, 60⟩ := by decide
  exact ⟨hs, handleLoadbalance_cleanup lb _ 60 true true 5 6 (fun _ => 7) (by decide)
    (fun _ => show 6 ≤ 7 ∧ 7 ≤ 5 + 300 * 1000000000 by decide) hs⟩

end L4lb
