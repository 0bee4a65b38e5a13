import L4lb.Murmur

/-!
# `L4lb.Ring` — `ConsistentHashRing` and its clockwise lookup

`ring_` is a `std::map<uint32_t, uint32_t>` from hash position to server id. It is modelled as
its in-order entry list, which `Ascending` keeps strictly increasing in the key (the structure
carries that proof, so no unsorted ring can be built). On it:

* `mapInsert` is `ring_[k] = v` (insert, or overwrite the value of an existing key);
* `lowerBound` is `ring_.lower_bound(h)`, and `successor` adds `get_server`'s wrap to `begin()`.

## Contents
- **The hash circle.** The clockwise distance from `h` to a key `k` is the wrapping difference
  `k - h`; `FirstClockwise m h e` says `e` minimises it over `m`.
- **Lookup = first clockwise.** `successor_eq_some_iff`: on an ascending map, lower-bound-with-wrap
  returns exactly the first entry clockwise from `h`.
- **Membership changes.** `successor_mapInsert` (an insert either wins the lookup or leaves it
  alone) and `successor_filter_of_pos` (erasing entries other than the winner leaves it alone).
- **`get_server` is consistent hashing** (`getServer_firstClockwise`): it names the server of the
  first ring point clockwise from the tuple's hash, and fails exactly on an empty ring.
- **The replica count wraps** (`replicas_toNat`, `addNode_replicas_wrap`): `add_node` computes
  `virtual_nodes_ * weight` in 32 bits, so a large weight yields a handful of replicas.
- **Minimal disruption** (`getServer_add_remove`): after `add_node b` a lookup returns its old
  server or `b`; after `remove_node b` it is unchanged unless it was `b`, and then it moves to the
  first surviving entry clockwise.
-/

namespace L4lb

/-! ## 32-bit arithmetic on the hash circle -/

theorem u32_le_iff {a b : UInt32} : a ≤ b ↔ a.toNat ≤ b.toNat := by
  simp [UInt32.le_def, BitVec.le_def, UInt32.toNat]

theorem u32_lt_iff {a b : UInt32} : a < b ↔ a.toNat < b.toNat := by
  simp [UInt32.lt_def, BitVec.lt_def, UInt32.toNat]

theorem u32_eq_iff {a b : UInt32} : a = b ↔ a.toNat = b.toNat := ⟨congrArg _, UInt32.toNat.inj⟩

theorem u32_toNat_lt (a : UInt32) : a.toNat < 2 ^ 32 := a.toNat_lt_size

/-- The clockwise distance from `h` to `k`, as a natural number. -/
theorem toNat_sub_cw (k h : UInt32) :
    (k - h).toNat = if h.toNat ≤ k.toNat then k.toNat - h.toNat else k.toNat + 2 ^ 32 - h.toNat := by
  have hk := u32_toNat_lt k
  have hh := u32_toNat_lt h
  have hsub : (k - h).toNat = (2 ^ 32 - h.toNat + k.toNat) % 2 ^ 32 := by
    simp [UInt32.sub_def, UInt32.toNat, BitVec.toNat_sub]
  rw [hsub]
  split <;> omega

/-- Rewrites a goal about keys and clockwise distances into linear arithmetic on `toNat`. -/
theorem cw_le_iff (a b h : UInt32) :
    a - h ≤ b - h ↔
      (if h.toNat ≤ a.toNat then a.toNat - h.toNat else a.toNat + 2 ^ 32 - h.toNat) ≤
        (if h.toNat ≤ b.toNat then b.toNat - h.toNat else b.toNat + 2 ^ 32 - h.toNat) := by
  rw [u32_le_iff, toNat_sub_cw, toNat_sub_cw]

theorem cw_eq (a b h : UInt32) (hab : a - h = b - h) : a = b := by
  have ha := u32_toNat_lt a
  have hb := u32_toNat_lt b
  have hh := u32_toNat_lt h
  rw [u32_eq_iff, toNat_sub_cw, toNat_sub_cw] at hab
  rw [u32_eq_iff]
  split at hab <;> split at hab <;> omega

/-! ## `std::map<uint32_t, uint32_t>` -/

/-- A map entry: hash position and server id. -/
abbrev Entry := UInt32 × UInt32

/-- Keys strictly increasing along the list: the iteration order of a `std::map`. -/
def Ascending (m : List Entry) : Prop := m.Pairwise fun a b => a.1 < b.1

/-- `ring_[k] = v`: overwrite the entry with key `k`, or insert one at its place in key order. -/
def mapInsert (k v : UInt32) : List Entry → List Entry
  | [] => [(k, v)]
  | e :: rest =>
      if k < e.1 then (k, v) :: e :: rest
      else if k = e.1 then (k, v) :: rest
      else e :: mapInsert k v rest

/-- `ring_.lower_bound(h)`: the first entry whose key is at least `h`. -/
def lowerBound (m : List Entry) (h : UInt32) : Option Entry := m.find? fun e => h ≤ e.1

/-- `lower_bound`, wrapping to `begin()` when it hits `end()`, as `get_server` does. -/
def successor (m : List Entry) (h : UInt32) : Option Entry :=
  match lowerBound m h with
  | some e => some e
  | none => m.head?

/-- `e` is the first entry of `m` met going clockwise from position `h` (past `2^32 - 1` the
    circle continues at `0`). -/
def FirstClockwise (m : List Entry) (h : UInt32) (e : Entry) : Prop :=
  e ∈ m ∧ ∀ e' ∈ m, e.1 - h ≤ e'.1 - h

variable {m : List Entry} {e e' : Entry} {h k v : UInt32}

theorem ascending_cons : Ascending (e :: m) ↔ (∀ e' ∈ m, e.1 < e'.1) ∧ Ascending m :=
  List.pairwise_cons

/-- Keys identify entries in a `std::map`. -/
theorem Ascending.key_inj (hm : Ascending m) (he : e ∈ m) (he' : e' ∈ m) (hk : e.1 = e'.1) :
    e = e' := by
  induction m with
  | nil => simp at he
  | cons a rest ih =>
    obtain ⟨ha, hrest⟩ := ascending_cons.mp hm
    rcases List.mem_cons.mp he with rfl | hr <;> rcases List.mem_cons.mp he' with rfl | hr'
    · rfl
    · exact absurd (hk ▸ ha e' hr') (UInt32.lt_irrefl _)
    · exact absurd (hk ▸ ha e hr) (UInt32.lt_irrefl _)
    · exact ih hrest hr hr'

theorem mem_mapInsert (hm : Ascending m) : e ∈ mapInsert k v m ↔ e = (k, v) ∨ (e ∈ m ∧ e.1 ≠ k) := by
  induction m with
  | nil => simp [mapInsert]
  | cons a rest ih =>
    obtain ⟨ha, hrest⟩ := ascending_cons.mp hm
    have hlt : ∀ x ∈ rest, a.1 < x.1 := ha
    simp only [u32_lt_iff] at hlt
    unfold mapInsert
    split_ifs with h1 h2
    · simp only [List.mem_cons, u32_lt_iff] at h1 ⊢
      constructor
      · rintro (rfl | rfl | hx)
        · exact .inl rfl
        · exact .inr ⟨.inl rfl, fun h => by rw [u32_eq_iff] at h; omega⟩
        · exact .inr ⟨.inr hx, fun h => by have := hlt _ hx; rw [u32_eq_iff] at h; omega⟩
      · rintro (rfl | ⟨rfl | hx, -⟩) <;> simp [*]
    · simp only [List.mem_cons]
      constructor
      · rintro (rfl | hx)
        · exact .inl rfl
        · exact .inr ⟨.inr hx, fun h => by
            have := hlt _ hx; rw [u32_eq_iff] at h h2; omega⟩
      · rintro (rfl | ⟨rfl | hx, hne⟩)
        · exact .inl rfl
        · exact absurd h2.symm hne
        · exact .inr hx
    · simp only [List.mem_cons, ih hrest]
      constructor
      · rintro (rfl | rfl | ⟨hx, hne⟩)
        · exact .inr ⟨.inl rfl, fun h => h2 h.symm⟩
        · exact .inl rfl
        · exact .inr ⟨.inr hx, hne⟩
      · rintro (rfl | ⟨rfl | hx, hne⟩)
        · exact .inr (.inl rfl)
        · exact .inl rfl
        · exact .inr (.inr ⟨hx, hne⟩)

theorem ascending_mapInsert (hm : Ascending m) : Ascending (mapInsert k v m) := by
  induction m with
  | nil => simp [mapInsert, Ascending]
  | cons a rest ih =>
    obtain ⟨ha, hrest⟩ := ascending_cons.mp hm
    unfold mapInsert
    split_ifs with h1 h2
    · refine ascending_cons.mpr ⟨?_, hm⟩
      rintro x (_ | ⟨_, hx⟩)
      · exact h1
      · exact UInt32.lt_trans h1 (ha x hx)
    · refine ascending_cons.mpr ⟨fun x hx => h2 ▸ ha x hx, hrest⟩
    · refine ascending_cons.mpr ⟨fun x hx => ?_, ih hrest⟩
      rcases (mem_mapInsert hrest).mp hx with rfl | ⟨hx, -⟩
      · have : ¬ k ≤ a.1 := fun hle => by
          rw [u32_le_iff] at hle; rw [u32_lt_iff] at h1; rw [u32_eq_iff] at h2; omega
        simpa using this
      · exact ha x hx

theorem ascending_filter (p : Entry → Bool) (hm : Ascending m) : Ascending (m.filter p) :=
  List.Pairwise.filter p hm

/-! ## Lookup is the first entry clockwise -/

theorem lowerBound_some (hm : Ascending m) (hl : lowerBound m h = some e) :
    e ∈ m ∧ h ≤ e.1 ∧ ∀ e' ∈ m, h ≤ e'.1 → e.1 ≤ e'.1 := by
  induction m with
  | nil => simp [lowerBound] at hl
  | cons a rest ih =>
    obtain ⟨ha, hrest⟩ := ascending_cons.mp hm
    by_cases hha : h ≤ a.1
    · have hae : a = e := by simpa [lowerBound, hha] using hl
      subst hae
      refine ⟨List.mem_cons_self _ _, hha, fun e' he' _ => ?_⟩
      rcases List.mem_cons.mp he' with rfl | he'
      · exact UInt32.le_refl _
      · have := ha e' he'
        rw [u32_lt_iff] at this; rw [u32_le_iff]; omega
    · have hl' : lowerBound rest h = some e := by simpa [lowerBound, hha] using hl
      obtain ⟨he, hhe, hmin⟩ := ih hrest hl'
      refine ⟨List.mem_cons_of_mem _ he, hhe, fun e' he' hh' => ?_⟩
      rcases List.mem_cons.mp he' with rfl | he'
      · exact absurd hh' hha
      · exact hmin e' he' hh'

theorem lowerBound_none (hl : lowerBound m h = none) : ∀ e ∈ m, e.1 < h := by
  intro e he
  have := List.find?_eq_none.mp hl e he
  simpa using this

theorem head_le (hm : Ascending m) (hd : m.head? = some e) : ∀ e' ∈ m, e.1 ≤ e'.1 := by
  cases m with
  | nil => simp at hd
  | cons a rest =>
    obtain rfl : a = e := by simpa using hd
    intro e' he'
    rcases List.mem_cons.mp he' with rfl | he'
    · exact UInt32.le_refl _
    · have := (ascending_cons.mp hm).1 e' he'
      rw [u32_lt_iff] at this; rw [u32_le_iff]; omega

/-- What `get_server` returns is the first entry clockwise: either the lower bound (every key
    below `h` lies further clockwise, past the wrap) or, with no key `≥ h`, the smallest key. -/
theorem firstClockwise_of_successor (hm : Ascending m) (hs : successor m h = some e) :
    FirstClockwise m h e := by
  unfold successor at hs
  split at hs
  · rename_i e₀ hl
    cases hs
    obtain ⟨he, hhe, hmin⟩ := lowerBound_some hm hl
    refine ⟨he, fun e' he' => ?_⟩
    rw [cw_le_iff]
    have := u32_toNat_lt e.1
    have := u32_toNat_lt e'.1
    by_cases hh' : h ≤ e'.1
    · have := hmin e' he' hh'
      rw [u32_le_iff] at *; split_ifs; omega
    · rw [u32_le_iff] at *; split_ifs; omega
  · rename_i hl
    have hbelow := lowerBound_none hl
    refine ⟨List.mem_of_mem_head? hs, fun e' he' => ?_⟩
    have h1 := hbelow e (List.mem_of_mem_head? hs)
    have h2 := hbelow e' he'
    have h3 := head_le hm hs e' he'
    rw [cw_le_iff]
    rw [u32_lt_iff] at h1 h2; rw [u32_le_iff] at h3
    split_ifs <;> omega

theorem successor_isSome (he : e ∈ m) : ∃ e₀, successor m h = some e₀ := by
  unfold successor
  split
  · exact ⟨_, rfl⟩
  · cases m with
    | nil => simp at he
    | cons a _ => exact ⟨a, rfl⟩

/-- **Lookup = first entry clockwise.** On an ascending map, `get_server`'s lower bound with
    wrap-around returns `e` exactly when `e` is the first entry clockwise from `h`. -/
theorem successor_eq_some_iff (hm : Ascending m) : successor m h = some e ↔ FirstClockwise m h e := by
  refine ⟨firstClockwise_of_successor hm, fun ⟨he, hmin⟩ => ?_⟩
  obtain ⟨e₀, hs⟩ := successor_isSome (h := h) he
  obtain ⟨he₀, hmin₀⟩ := firstClockwise_of_successor hm hs
  have hle := hmin₀ e he
  have hge := hmin e₀ he₀
  rw [u32_le_iff] at hle hge
  have hkey : e₀.1 = e.1 := cw_eq _ _ h (by rw [u32_eq_iff]; omega)
  rw [hs, hm.key_inj he₀ he hkey]

theorem successor_eq_none_iff : successor m h = none ↔ m = [] := by
  constructor
  · intro hs
    cases m with
    | nil => rfl
    | cons a rest => obtain ⟨_, h'⟩ := successor_isSome (h := h) (List.mem_cons_self a rest); simp_all
  · rintro rfl; rfl

/-- **An insert wins the lookup or changes nothing.** After `ring_[k] = v`, the first entry
    clockwise is the new entry or the one that was first before. -/
theorem successor_mapInsert (hm : Ascending m) :
    successor (mapInsert k v m) h = some (k, v) ∨ successor (mapInsert k v m) h = successor m h := by
  have hm' := ascending_mapInsert (k := k) (v := v) hm
  obtain ⟨e₁, hs₁⟩ := successor_isSome (m := mapInsert k v m) (h := h)
    ((mem_mapInsert hm).mpr (.inl rfl))
  obtain ⟨he₁, hmin₁⟩ := (successor_eq_some_iff hm').mp hs₁
  rcases (mem_mapInsert hm).mp he₁ with rfl | ⟨he₁m, hk₁⟩
  · exact .inl hs₁
  · right
    rw [hs₁, eq_comm, successor_eq_some_iff hm]
    refine ⟨he₁m, fun e' he' => ?_⟩
    by_cases hk' : e'.1 = k
    · exact hk' ▸ hmin₁ (k, v) ((mem_mapInsert hm).mpr (.inl rfl))
    · exact hmin₁ e' ((mem_mapInsert hm).mpr (.inr ⟨he', hk'⟩))

/-- **Erasing losers keeps the winner.** Filtering a map leaves the lookup alone when the first
    entry clockwise survives the filter. -/
theorem successor_filter_of_pos (p : Entry → Bool) (hm : Ascending m)
    (hs : successor m h = some e) (hp : p e = true) : successor (m.filter p) h = some e := by
  obtain ⟨he, hmin⟩ := (successor_eq_some_iff hm).mp hs
  rw [successor_eq_some_iff (ascending_filter p hm)]
  exact ⟨List.mem_filter.mpr ⟨he, hp⟩, fun e' he' => hmin e' (List.mem_filter.mp he').1⟩

/-! ## `ConsistentHashRing` -/

/-- `ConsistentHashRing`: the virtual-node base `virtual_nodes_` and the position map `ring_`,
    whose entries are ascending by construction. -/
structure ConsistentHashRing where
  virtualNodes : UInt32
  ring : List Entry
  ascending : Ascending ring

namespace ConsistentHashRing

/-- `ConsistentHashRing(uint32_t virtual_nodes = 150)`: an empty ring. -/
def new (virtualNodes : UInt32 := 150) : ConsistentHashRing := ⟨virtualNodes, [], .nil⟩

/-- `add_node`'s replica count: `(virtual_nodes_ * weight) / 100` in `uint32_t`, raised to 1. -/
def replicas (virtualNodes weight : UInt32) : UInt32 :=
  let r := virtualNodes * weight / 100
  if r < 1 then 1 else r

/-- The replica count is `max 1 ⌊((V · w) mod 2^32) / 100⌋`: the product wraps in 32 bits. -/
theorem replicas_toNat (V w : UInt32) :
    (replicas V w).toNat = max 1 (V.toNat * w.toNat % 2 ^ 32 / 100) := by
  have h : (V * w / 100).toNat = V.toNat * w.toNat % 2 ^ 32 / 100 := by
    rw [UInt32.toNat_div, UInt32.mul_def]
    exact congrArg (· / 100) (BitVec.toNat_mul _ _)
  have one : (1 : UInt32).toNat = 1 := rfl
  unfold replicas
  dsimp only
  split_ifs with h1 <;> rw [u32_lt_iff, h, one] at h1
  · rw [one]
    omega
  · rw [h]
    omega

/-- `add_node`'s loop for `i = 0 … n-1`, in order: `ring_[hash(key(i))] = server_id`. -/
def insertReplicas (serverId : UInt32) : Nat → List Entry → List Entry
  | 0, m => m
  | n + 1, m => mapInsert (replicaPos serverId n) serverId (insertReplicas serverId n m)

theorem ascending_insertReplicas (serverId : UInt32) (n : Nat) (hm : Ascending m) :
    Ascending (insertReplicas serverId n m) := by
  induction n with
  | zero => exact hm
  | succ n ih => exact ascending_mapInsert ih

/-- After `add_node`'s loop, an entry is one of the new replicas, or an old entry that no
    replica position overwrote. -/
theorem mem_insertReplicas (s : UInt32) (n : Nat) (hm : Ascending m) :
    (k, v) ∈ insertReplicas s n m ↔
      (v = s ∧ ∃ i < n, k = replicaPos s i) ∨ ((k, v) ∈ m ∧ ∀ i < n, k ≠ replicaPos s i) := by
  induction n with
  | zero => simp [insertReplicas]
  | succ n ih =>
    rw [insertReplicas, mem_mapInsert (ascending_insertReplicas s n hm), ih]
    by_cases hk : k = replicaPos s n
    · subst hk
      constructor
      · rintro (h | ⟨-, hne⟩)
        · exact .inl ⟨(Prod.mk.inj h).2, n, n.lt_succ_self, rfl⟩
        · exact absurd rfl hne
      · rintro (⟨rfl, -⟩ | ⟨-, hne⟩)
        · exact .inl rfl
        · exact absurd rfl (hne n n.lt_succ_self)
    · have hpair : (k, v) ≠ (replicaPos s n, s) := fun h => hk (Prod.mk.inj h).1
      constructor
      · rintro (h | ⟨⟨rfl, i, hi, rfl⟩ | ⟨hmem, hne⟩, -⟩)
        · exact absurd h hpair
        · exact .inl ⟨rfl, i, Nat.lt_succ_of_lt hi, rfl⟩
        · refine .inr ⟨hmem, fun i hi => ?_⟩
          rcases Nat.lt_succ_iff_lt_or_eq.mp hi with hi | rfl
          · exact hne i hi
          · exact hk
      · rintro (⟨rfl, i, hi, rfl⟩ | ⟨hmem, hne⟩)
        · rcases Nat.lt_succ_iff_lt_or_eq.mp hi with hi | rfl
          · exact .inr ⟨.inl ⟨rfl, i, hi, rfl⟩, hk⟩
          · exact absurd rfl hk
        · exact .inr ⟨.inr ⟨hmem, fun i hi => hne i (Nat.lt_succ_of_lt hi)⟩, hk⟩

/-- `add_node(server_id, weight)`. -/
def addNode (r : ConsistentHashRing) (serverId : UInt32) (weight : UInt32 := 100) :
    ConsistentHashRing :=
  { r with
    ring := insertReplicas serverId (replicas r.virtualNodes weight).toNat r.ring
    ascending := ascending_insertReplicas _ _ r.ascending }

/-- **The replica count wraps.** With the default base of 150 virtual nodes and weight
    28633116 (a configured weight `stoi` accepts), `150 · 28633116 = 4294967400` wraps to 104 in
    `uint32_t`, so `add_node` runs its loop once and writes only `1#0`, where
    `⌊150 · 28633116 / 100⌋ = 42949674` replicas were due. -/
theorem addNode_replicas_wrap :
    replicas 150 28633116 = 1 ∧ 150 * 28633116 / 100 = 42949674 ∧
      ((ConsistentHashRing.new 150).addNode 1 28633116).ring = [(replicaPos 1 0, 1)] := by
  decide

/-- `remove_node(server_id)`: the iterator loop erases exactly the entries naming `server_id`. -/
def removeNode (r : ConsistentHashRing) (serverId : UInt32) : ConsistentHashRing :=
  { r with
    ring := r.ring.filter fun e => e.2 != serverId
    ascending := ascending_filter _ r.ascending }

/-- `get_server(tuple, server_id)`; `none` is the `false` return. -/
def getServer (r : ConsistentHashRing) (tuple : TupleObject) : Option UInt32 :=
  if r.ring.isEmpty then none
  else (successor r.ring (MurmurHash3.hashTuple tuple)).map Prod.snd

/-- `node_count()`. -/
def nodeCount (r : ConsistentHashRing) : Nat := r.ring.length

/-- `clear()`. -/
def clear (r : ConsistentHashRing) : ConsistentHashRing := { r with ring := [], ascending := .nil }

/-- The `empty()` guard of `get_server` is subsumed by the wrap to `begin()`. -/
theorem getServer_eq (r : ConsistentHashRing) (t : TupleObject) :
    r.getServer t = (successor r.ring (MurmurHash3.hashTuple t)).map Prod.snd := by
  unfold getServer
  split
  · rename_i h0
    rw [List.isEmpty_iff.mp h0]; rfl
  · rfl

/-- **`get_server` is consistent hashing.** On every ring, `get_server(tuple)` names the server of
    the first ring point clockwise from the tuple's hash, and fails exactly on an empty ring. -/
theorem getServer_firstClockwise (r : ConsistentHashRing) (t : TupleObject) (id : UInt32) :
    (r.getServer t = some id ↔ ∃ p, FirstClockwise r.ring (MurmurHash3.hashTuple t) (p, id)) ∧
      (r.getServer t = none ↔ r.ring = []) := by
  rw [getServer_eq, Option.map_eq_none', successor_eq_none_iff]
  refine ⟨⟨fun h => ?_, fun ⟨p, hp⟩ => ?_⟩, Iff.rfl⟩
  · obtain ⟨e, he, rfl⟩ := Option.map_eq_some'.mp h
    exact ⟨e.1, (successor_eq_some_iff r.ascending).mp he⟩
  · rw [(successor_eq_some_iff r.ascending).mpr hp]
    rfl

/-- Every replica inserted by one `add_node` names the added server, so a lookup after it sees
    its old owner or that server. -/
theorem successor_insertReplicas (b : UInt32) (n : Nat) (hm : Ascending m) :
    (successor (insertReplicas b n m) h).map Prod.snd = (successor m h).map Prod.snd ∨
      (successor (insertReplicas b n m) h).map Prod.snd = some b := by
  induction n with
  | zero => exact .inl rfl
  | succ n ih =>
    rcases successor_mapInsert (k := replicaPos b n) (v := b) (h := h)
      (ascending_insertReplicas b n hm) with hs | hs
    · exact .inr (by simp [insertReplicas, hs])
    · simpa [insertReplicas, hs] using ih

/-- **Minimal disruption under membership change.** Let `x` be the server a lookup of `t`
    returns. (i) After `add_node(b, w)`, the lookup returns `x` or `b`. (ii) After
    `remove_node(b)` with `x ≠ b`, it still returns `x`. (iii) After `remove_node(b)` with
    `x = b`, it fails iff every entry was `b`'s, and otherwise returns the owner of the first
    entry clockwise from `hash_tuple(t)` that is not `b`'s. -/
theorem getServer_add_remove (r : ConsistentHashRing) (t : TupleObject) (b w x : UInt32)
    (hx : r.getServer t = some x) :
    ((r.addNode b w).getServer t = some x ∨ (r.addNode b w).getServer t = some b) ∧
    (x ≠ b → (r.removeNode b).getServer t = some x) ∧
    (x = b →
      ((r.removeNode b).getServer t = none ↔ ∀ e ∈ r.ring, e.2 = b) ∧
      ∀ y, (r.removeNode b).getServer t = some y ↔
        ∃ e ∈ r.ring, e.2 = y ∧ e.2 ≠ b ∧
          ∀ e' ∈ r.ring, e'.2 ≠ b →
            e.1 - MurmurHash3.hashTuple t ≤ e'.1 - MurmurHash3.hashTuple t) := by
  rw [getServer_eq] at hx
  obtain ⟨e, hs, rfl⟩ := Option.map_eq_some'.mp hx
  refine ⟨?_, fun hxb => ?_, fun _ => ⟨?_, fun y => ?_⟩⟩
  · simp only [getServer_eq, addNode]
    rw [← hx]
    exact successor_insertReplicas b _ r.ascending
  · rw [getServer_eq, removeNode, successor_filter_of_pos _ r.ascending hs (by simpa using hxb)]
    rfl
  · simp [getServer_eq, removeNode, successor_eq_none_iff, List.filter_eq_nil_iff]
  · simp only [getServer_eq, removeNode, Option.map_eq_some',
      successor_eq_some_iff (ascending_filter _ r.ascending), FirstClockwise, List.mem_filter,
      bne_iff_ne, ne_eq]
    constructor
    · rintro ⟨e, ⟨⟨he, hb⟩, hmin⟩, rfl⟩
      exact ⟨e, he, rfl, hb, fun e' he' hb' => hmin e' ⟨he', hb'⟩⟩
    · rintro ⟨e, he, rfl, hb, hmin⟩
      exact ⟨e, ⟨⟨he, hb⟩, fun e' he' => hmin e' he'.1 he'.2⟩, rfl⟩

/-- A one-server ring routes the sample tuple to server 1; adding server 2 sends it to 1 or 2. -/
theorem getServer_add_remove_oneServer :
    ((new.addNode 1 1).getServer ⟨⟨0x01020304, 0x05060708, 80, 8080, 6⟩, (0, 0, 0)⟩ = some 1) ∧
    (((new.addNode 1 1).addNode 2 1).getServer ⟨⟨0x01020304, 0x05060708, 80, 8080, 6⟩, (0, 0, 0)⟩ =
        some 1 ∨
      ((new.addNode 1 1).addNode 2 1).getServer ⟨⟨0x01020304, 0x05060708, 80, 8080, 6⟩, (0, 0, 0)⟩ =
        some 2) :=
  ⟨by decide, (getServer_add_remove _ _ 2 1 1 (by decide)).1⟩

end ConsistentHashRing

end L4lb
