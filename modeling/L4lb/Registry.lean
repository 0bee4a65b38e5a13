import L4lb.Ring

/-!
# `L4lb.Registry` — `RealServerManager`: the backend table and its hash ring

`servers_` (an `unordered_map<uint32_t, RealServer>`) is a partial function from id to record;
`hash_ring_` is a `ConsistentHashRing` built with 150 virtual nodes. `add_server` writes both,
`remove_server` erases both, `set_status` touches the record only, and `select_server` looks the
tuple up on the ring and rejects a server that is not `UP`.

## Contents
- The registry operations, a control-plane call `RegistryOp`, and runs `runOps`.
- **Padding reaches routing** (`selectServer_depends_on_padding`): two `FiveTuple` objects equal
  under `operator==` but with different padding bytes hash differently and are routed to
  different servers.
- **A re-add keeps the old replicas** (`addServer_readd_keeps_replicas`): `add_server` of a
  registered id with a lower weight leaves the replicas of the higher one on the ring, so the
  ring is not a function of the current `(id, weight)` pairs.
- **Ring/registry coherence for fresh adds** (`registry_ring_coherent`): no ring entry names an
  unregistered id (`entriesRegistered_runOps`); and over a run that re-adds no registered id,
  if the replica positions do not collide, each registered server owns exactly the positions of
  its current weight's replicas. A `std::map` collision
  (`murmur("46277#0") = murmur("136981#0")`) shows why the last hypothesis is needed.
- **Membership changes move only the flows they must** (`selectServer_membership`): the ring's
  minimal disruption (`L4lb.Ring`) seen through `select_server`: `add_server(rs)` gives a flow
  its old server or `rs`, and `remove_server(b)` and `set_status(b, _)` change only the flows
  whose ring owner is `b`.
-/

namespace L4lb

open ConsistentHashRing

/-- `RealServerManager`: `servers_` and the embedded `hash_ring_`. -/
structure RealServerManager where
  servers : UInt32 → Option RealServer
  hashRing : ConsistentHashRing

namespace RealServerManager

/-- The private constructor: no servers, `hash_ring_(150)`. -/
def new : RealServerManager := ⟨fun _ => none, ConsistentHashRing.new 150⟩

/-- `add_server(rs)`: `servers_[rs.id] = rs; hash_ring_.add_node(rs.id, rs.weight)`. -/
def addServer (m : RealServerManager) (rs : RealServer) : RealServerManager :=
  ⟨Function.update m.servers rs.id (some rs), m.hashRing.addNode rs.id rs.weight⟩

/-- `remove_server(id)`: `servers_.erase(id); hash_ring_.remove_node(id)`. -/
def removeServer (m : RealServerManager) (id : UInt32) : RealServerManager :=
  ⟨Function.update m.servers id none, m.hashRing.removeNode id⟩

/-- `set_status(id, status)`: update the record in place when present; the ring is untouched. -/
def setStatus (m : RealServerManager) (id : UInt32) (status : ServerStatus) : RealServerManager :=
  match m.servers id with
  | some rs => { m with servers := Function.update m.servers id (some { rs with status }) }
  | none => m

/-- `select_server(tuple)`: ring lookup, then the record if it exists and `is_available()`. -/
def selectServer (m : RealServerManager) (tuple : TupleObject) : Option RealServer :=
  match m.hashRing.getServer tuple with
  | none => none
  | some serverId =>
    match m.servers serverId with
    | some rs => if rs.isAvailable then some rs else none
    | none => none

/-- `get_server(id)`. -/
def getServer (m : RealServerManager) (id : UInt32) : Option RealServer := m.servers id

@[simp] theorem setStatus_hashRing (m : RealServerManager) (id : UInt32) (st : ServerStatus) :
    (m.setStatus id st).hashRing = m.hashRing := by
  unfold setStatus; split <;> rfl

/-- `set_status` rewrites the status of record `id` and nothing else. -/
theorem setStatus_servers (m : RealServerManager) (id : UInt32) (st : ServerStatus) (v : UInt32) :
    (m.setStatus id st).servers v =
      (m.servers v).map fun rs => if v = id then { rs with status := st } else rs := by
  unfold setStatus
  split
  · rename_i r hr
    by_cases h : v = id
    · subst h; simp [hr]
    · simp [Function.update_noteq h, h]
  · rename_i hr
    by_cases h : v = id
    · subst h; simp [hr]
    · simp [h]

/-- **A re-add keeps the old replicas.** `add_server` of an id already registered (as a reload
    of the configuration through `load_from_config` does) writes the replicas of the new weight
    but never erases those of the old one: `add_node` only inserts, and only `remove_server`
    clears an id's entries. After `add_server(1, weight 2)` and `add_server(1, weight 1)` the
    registry holds the same record as after `add_server(1, weight 1)` alone, yet server 1 owns 3
    ring entries where its weight is due `max(1, 150·1/100) = 1`, which the single add gives. -/
theorem addServer_readd_keeps_replicas :
    let reload : RealServerManager :=
      (new.addServer { id := 1, weight := 2, status := .up }).addServer
        { id := 1, weight := 1, status := .up }
    let fresh : RealServerManager := new.addServer { id := 1, weight := 1, status := .up }
    reload.servers = fresh.servers ∧ (replicas 150 1).toNat = 1 ∧
      reload.hashRing.nodeCount = 3 ∧ fresh.hashRing.nodeCount = 1 :=
  ⟨Function.update_idem _ _ _, by decide⟩

end RealServerManager

/-! ## Runs of control-plane calls -/

/-- One control-plane call on the registry. -/
inductive RegistryOp
  | addServer (rs : RealServer)
  | removeServer (id : UInt32)
  | setStatus (id : UInt32) (status : ServerStatus)

namespace RegistryOp

/-- Perform the call. -/
def apply (m : RealServerManager) : RegistryOp → RealServerManager
  | .addServer rs => m.addServer rs
  | .removeServer id => m.removeServer id
  | .setStatus id status => m.setStatus id status

/-- The virtual-node keys `(id, i)` the call writes to the ring. -/
def keys : RegistryOp → List (UInt32 × Nat)
  | .addServer rs => (List.range (replicas 150 rs.weight).toNat).map fun i => (rs.id, i)
  | _ => []

end RegistryOp

/-- Perform a sequence of calls. -/
def runOps (m : RealServerManager) (ops : List RegistryOp) : RealServerManager :=
  ops.foldl RegistryOp.apply m

/-- Every virtual-node key a run writes. -/
def opKeys (ops : List RegistryOp) : List (UInt32 × Nat) := ops.flatMap RegistryOp.keys

/-- The call is not an `add_server` of an id already registered in `m`. -/
def RegistryOp.fresh (m : RealServerManager) : RegistryOp → Bool
  | .addServer rs => (m.servers rs.id).isNone
  | _ => true

/-- No `add_server` of the run names an id that is registered when it runs. -/
def addsFresh : RealServerManager → List RegistryOp → Bool
  | _, [] => true
  | m, op :: ops => op.fresh m && addsFresh (op.apply m) ops

/-- MurmurHash3 separates the given virtual-node keys. -/
def CollisionFree (keys : List (UInt32 × Nat)) : Prop :=
  ∀ p ∈ keys, ∀ q ∈ keys, replicaPos p.1 p.2 = replicaPos q.1 q.2 → p = q

instance (keys : List (UInt32 × Nat)) : Decidable (CollisionFree keys) := by
  unfold CollisionFree; infer_instance

/-! ## Padding reaches routing -/

/-- **`hash_tuple` reads the padding.** The flow `1.2.3.4 → 5.6.7.8`, ports 80 → 8080, TCP
    (members stored as the constructor stores them), once with padding `00 00 00` and once with
    `05 00 00`: `operator==` holds, the hashes differ, and a registry with servers 1 and 2 (weight
    1, `UP`) routes the two objects to different servers. -/
theorem selectServer_depends_on_padding :
    let t : FiveTuple := ⟨0x01020304, 0x05060708, 80, 8080, 6⟩
    let m := (RealServerManager.new.addServer { id := 1, weight := 1, status := .up }).addServer
      { id := 2, weight := 1, status := .up }
    t.beq t = true ∧
    MurmurHash3.hashTuple ⟨t, (0, 0, 0)⟩ = 0x4d5fa943 ∧
    MurmurHash3.hashTuple ⟨t, (5, 0, 0)⟩ = 0xa5f85efd ∧
    m.hashRing.getServer ⟨t, (0, 0, 0)⟩ = some 2 ∧ m.hashRing.getServer ⟨t, (5, 0, 0)⟩ = some 1 ∧
    (m.selectServer ⟨t, (0, 0, 0)⟩).map RealServer.id = some 2 ∧
    (m.selectServer ⟨t, (5, 0, 0)⟩).map RealServer.id = some 1 := by
  decide

/-! ## Ring/registry coherence for fresh adds -/

section Coherence

open RealServerManager

variable {K : List (UInt32 × Nat)} {m : RealServerManager} {rs : RealServer} {id : UInt32}

/-- The ring mirrors the registry: its entries are the replica positions `0 … n - 1` of each
    registered id, `n` the replica count of the record's weight, and those keys lie in `K`. -/
structure Coherent (K : List (UInt32 × Nat)) (m : RealServerManager) : Prop where
  virtualNodes : m.hashRing.virtualNodes = 150
  mem_ring : ∀ k v, (k, v) ∈ m.hashRing.ring ↔
    ∃ rs, m.servers v = some rs ∧ ∃ i < (replicas 150 rs.weight).toNat, k = replicaPos v i
  keys : ∀ v rs, m.servers v = some rs → ∀ i < (replicas 150 rs.weight).toNat, (v, i) ∈ K

theorem coherent_new : Coherent K RealServerManager.new where
  virtualNodes := rfl
  mem_ring k v := by simp [RealServerManager.new, ConsistentHashRing.new]
  keys _ _ h := nomatch h

/-- An `add_server` of an unregistered id whose keys are among the collision-free `K`. -/
theorem coherent_addServer (hK : CollisionFree K) (hfresh : m.servers rs.id = none)
    (hop : ∀ i < (replicas 150 rs.weight).toNat, (rs.id, i) ∈ K) (hc : Coherent K m) :
    Coherent K (m.addServer rs) where
  virtualNodes := hc.virtualNodes
  mem_ring k v := by
    simp only [addServer, addNode, hc.virtualNodes]
    rw [mem_insertReplicas _ _ m.hashRing.ascending, hc.mem_ring]
    by_cases hv : v = rs.id
    · subst hv
      simp [hfresh]
    · simp only [Function.update_noteq hv, hv, false_and, false_or]
      refine ⟨And.left, fun h => ⟨h, fun j hj he => hv ?_⟩⟩
      obtain ⟨r, hr, i, hi, rfl⟩ := h
      exact congrArg Prod.fst (hK _ (hc.keys v r hr i hi) _ (hop j hj) he)
  keys v r hr i hi := by
    by_cases hv : v = rs.id
    · subst hv
      simp only [addServer, Function.update_same, Option.some.injEq] at hr
      subst hr
      exact hop i hi
    · simp only [addServer, Function.update_noteq hv] at hr
      exact hc.keys v r hr i hi

theorem coherent_removeServer (hc : Coherent K m) : Coherent K (m.removeServer id) where
  virtualNodes := hc.virtualNodes
  mem_ring k v := by
    simp only [removeServer, removeNode, List.mem_filter, bne_iff_ne, ne_eq]
    by_cases hv : v = id
    · subst hv; simp
    · simp only [Function.update_noteq hv, hv, not_false_eq_true, and_true]
      exact hc.mem_ring k v
  keys v r hr := by
    by_cases hv : v = id
    · subst hv; simp [removeServer] at hr
    · simp only [removeServer, Function.update_noteq hv] at hr
      exact hc.keys v r hr

theorem coherent_setStatus (st : ServerStatus) (hc : Coherent K m) :
    Coherent K (m.setStatus id st) where
  virtualNodes := by rw [setStatus_hashRing]; exact hc.virtualNodes
  mem_ring k v := by
    rw [setStatus_hashRing, hc.mem_ring, setStatus_servers]
    constructor
    · rintro ⟨r, hr, h⟩
      exact ⟨_, by rw [hr]; rfl, by split_ifs <;> exact h⟩
    · rintro ⟨r', hr', h⟩
      obtain ⟨r, hr, rfl⟩ := Option.map_eq_some'.mp hr'
      exact ⟨r, hr, by split_ifs at h <;> exact h⟩
  keys v r' hr' := by
    rw [setStatus_servers] at hr'
    obtain ⟨r, hr, rfl⟩ := Option.map_eq_some'.mp hr'
    split_ifs <;> exact hc.keys v r hr

/-- One call that adds no registered id keeps the ring coherent with the registry, as long as
    the keys it writes are among the collision-free keys `K`. -/
theorem coherent_step (op : RegistryOp) (hK : CollisionFree K) (hop : ∀ p ∈ op.keys, p ∈ K)
    (hf : op.fresh m = true) (hc : Coherent K m) : Coherent K (op.apply m) := by
  cases op with
  | addServer rs =>
    exact coherent_addServer hK (Option.isNone_iff_eq_none.mp hf)
      (fun i hi => hop _ (by simp [RegistryOp.keys, hi])) hc
  | removeServer id => exact coherent_removeServer hc
  | setStatus id st => exact coherent_setStatus st hc

theorem coherent_runOps (hK : CollisionFree K) :
    ∀ (ops : List RegistryOp) (m : RealServerManager), (∀ p ∈ opKeys ops, p ∈ K) →
      addsFresh m ops = true → Coherent K m → Coherent K (runOps m ops)
  | [], _, _, _, hc => hc
  | op :: ops, _, hops, hf, hc => by
    simp only [addsFresh, Bool.and_eq_true] at hf
    exact coherent_runOps hK ops _ (fun p hp => hops p (by simp [opKeys] at hp ⊢; exact .inr hp))
      hf.2 (coherent_step op hK (fun p hp => hops p (by simp [opKeys]; exact .inl hp)) hf.1 hc)

/-- Every ring entry names a registered id. -/
def EntriesRegistered (m : RealServerManager) : Prop :=
  ∀ k v, (k, v) ∈ m.hashRing.ring → (m.servers v).isSome

theorem entriesRegistered_step (op : RegistryOp) (hm : EntriesRegistered m) :
    EntriesRegistered (op.apply m) := by
  intro k v hkv
  cases op with
  | addServer rs =>
    simp only [RegistryOp.apply, addServer, addNode] at hkv ⊢
    rcases (mem_insertReplicas _ _ m.hashRing.ascending).mp hkv with ⟨rfl, -⟩ | ⟨hold, -⟩
    · simp
    · by_cases h : v = rs.id
      · subst h; simp
      · rw [Function.update_noteq h]; exact hm k v hold
  | removeServer id =>
    simp only [RegistryOp.apply, removeServer, removeNode, List.mem_filter, bne_iff_ne] at hkv ⊢
    rw [Function.update_noteq hkv.2]
    exact hm k v hkv.1
  | setStatus id st =>
    simp only [RegistryOp.apply, setStatus_hashRing] at hkv
    simpa [RegistryOp.apply, setStatus_servers] using hm k v hkv

/-- No ring entry names an unregistered id, over every run, re-adds included. -/
theorem entriesRegistered_runOps :
    ∀ (ops : List RegistryOp) (m : RealServerManager), EntriesRegistered m →
      EntriesRegistered (runOps m ops)
  | [], _, hm => hm
  | op :: ops, _, hm => entriesRegistered_runOps ops _ (entriesRegistered_step op hm)

end Coherence

/-- **Ring/registry coherence for fresh adds.** After a run of `add_server`, `remove_server` and
    `set_status` from the empty manager in which no `add_server` names an id already registered,
    if MurmurHash3 separates the run's virtual-node keys, the ring's entries are exactly the
    positions `murmur(id#i)` of the registered ids for `i` below the replica count of the id's
    current weight: the ring is a function of the current `(id, weight)` pairs. -/
theorem registry_ring_coherent (ops : List RegistryOp) (hK : CollisionFree (opKeys ops))
    (hf : addsFresh RealServerManager.new ops = true) :
    ∀ k v, (k, v) ∈ (runOps RealServerManager.new ops).hashRing.ring ↔
      ∃ rs, (runOps RealServerManager.new ops).servers v = some rs ∧
        ∃ i < (replicas 150 rs.weight).toNat, k = replicaPos v i :=
  (coherent_runOps hK ops _ (fun _ h => h) hf coherent_new).mem_ring

/-- Two servers of weight 1 whose single replica positions differ: server 1 owns its position. -/
theorem registry_ring_coherent_twoServers :
    let ops : List RegistryOp := [.addServer { id := 1, weight := 1, status := .up },
      .addServer { id := 2, weight := 1, status := .up }]
    CollisionFree (opKeys ops) ∧ addsFresh RealServerManager.new ops = true ∧
      ((replicaPos 1 0, 1) ∈ (runOps RealServerManager.new ops).hashRing.ring ↔
        ∃ rs, (runOps RealServerManager.new ops).servers 1 = some rs ∧
          ∃ i < (replicas 150 rs.weight).toNat, replicaPos 1 0 = replicaPos 1 i) :=
  ⟨by decide, by decide, registry_ring_coherent _ (by decide) (by decide) _ _⟩

/-- Why the keys must not collide: `murmur("46277#0") = murmur("136981#0")`, so after adding
    server 46277 and then 136981 (weight 1, one replica each) the shared position names 136981
    only, and the ring is not the set of the registered servers' replica positions. -/
example :
    let m := runOps .new [.addServer { id := 46277, weight := 1, status := .up },
      .addServer { id := 136981, weight := 1, status := .up }]
    ¬ ∀ k v, (k, v) ∈ m.hashRing.ring ↔
      ∃ rs, m.servers v = some rs ∧ ∃ i < (replicas 150 rs.weight).toNat, k = replicaPos v i := by
  intro m h
  have hmem := (h (replicaPos 46277 0) 46277).mpr ⟨_, rfl, 0, by decide, rfl⟩
  revert hmem
  decide

/-! ## Membership changes move only the flows they must -/

namespace ConsistentHashRing

/-- After `add_node(b, w)` a lookup returns its old answer or `b`. -/
theorem getServer_addNode (r : ConsistentHashRing) (t : TupleObject) (b w : UInt32) :
    (r.addNode b w).getServer t = r.getServer t ∨ (r.addNode b w).getServer t = some b := by
  simp only [getServer_eq, addNode]
  exact successor_insertReplicas b _ r.ascending

/-- After `remove_node(b)` a lookup returns its old answer, unless that answer was `b`. -/
theorem getServer_removeNode (r : ConsistentHashRing) (t : TupleObject) (b : UInt32) :
    (r.removeNode b).getServer t = r.getServer t ∨ r.getServer t = some b := by
  simp only [getServer_eq, removeNode]
  rcases hs : successor r.ring (MurmurHash3.hashTuple t) with _ | e
  · rw [successor_eq_none_iff.mp hs]
    exact .inl rfl
  · by_cases he : e.2 = b
    · exact .inr (by rw [Option.map_some', he])
    · rw [successor_filter_of_pos _ r.ascending hs (by simpa using he)]
      exact .inl rfl

end ConsistentHashRing

namespace RealServerManager

/-- `add_server(rs)` leaves the server a flow gets, or gives it `rs`. -/
theorem selectServer_addServer (m : RealServerManager) (rs : RealServer) (t : TupleObject) :
    (m.addServer rs).selectServer t = m.selectServer t ∨
      (m.addServer rs).selectServer t = if rs.isAvailable then some rs else none := by
  have hs : ∀ x, (m.addServer rs).servers x = if x = rs.id then some rs else m.servers x :=
    fun x => Function.update_apply _ _ _ _
  unfold selectServer
  rcases ConsistentHashRing.getServer_addNode m.hashRing t rs.id rs.weight with h | h <;>
    simp only [addServer] at h ⊢ <;> rw [h]
  · rcases m.hashRing.getServer t with _ | x
    · exact .inl rfl
    · by_cases hx : x = rs.id
      · subst hx
        exact .inr (by simp)
      · exact .inl (by simp [hx])
  · exact .inr (by simp)

/-- `remove_server(b)` leaves the server a flow gets unless the flow's ring owner is `b`. -/
theorem selectServer_removeServer (m : RealServerManager) (b : UInt32) (t : TupleObject) :
    (m.removeServer b).selectServer t = m.selectServer t ∨ m.hashRing.getServer t = some b := by
  unfold selectServer
  rcases ConsistentHashRing.getServer_removeNode m.hashRing t b with h | h
  · simp only [removeServer] at h ⊢
    rw [h]
    rcases hg : m.hashRing.getServer t with _ | x
    · exact .inl rfl
    · by_cases hx : x = b
      · exact .inr (hx ▸ rfl)
      · exact .inl (by simp [Function.update_noteq hx])
  · exact .inr h

/-- `set_status(id, _)` leaves the server a flow gets unless the flow's ring owner is `id`. -/
theorem selectServer_setStatus (m : RealServerManager) (id : UInt32) (st : ServerStatus)
    (t : TupleObject) :
    (m.setStatus id st).selectServer t = m.selectServer t ∨ m.hashRing.getServer t = some id := by
  unfold selectServer
  rw [setStatus_hashRing]
  rcases hg : m.hashRing.getServer t with _ | x
  · exact .inl rfl
  · by_cases hx : x = id
    · exact .inr (hx ▸ rfl)
    · exact .inl (by simp [setStatus_servers, hx])

/-- **Membership changes move only the flows they must.** After `add_server(rs)`,
    `select_server` gives a flow the server it gave before, or `rs` (no server, when `rs` is not
    `UP`). After `remove_server(b)` or `set_status(b, st)`, every flow whose ring owner is not
    `b` gets the server it got before. -/
theorem selectServer_membership (m : RealServerManager) (t : TupleObject) (rs : RealServer)
    (b : UInt32) (st : ServerStatus) :
    ((m.addServer rs).selectServer t = m.selectServer t ∨
      (m.addServer rs).selectServer t = if rs.isAvailable then some rs else none) ∧
    (m.hashRing.getServer t ≠ some b →
      (m.removeServer b).selectServer t = m.selectServer t ∧
        (m.setStatus b st).selectServer t = m.selectServer t) :=
  ⟨selectServer_addServer m rs t, fun h => ⟨(selectServer_removeServer m b t).resolve_right h,
    (selectServer_setStatus m b st t).resolve_right h⟩⟩

end RealServerManager
end L4lb
