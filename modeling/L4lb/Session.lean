import L4lb.Registry

/-!
# `L4lb.Session` — `SessionManager` and the session path of `handle_loadbalance`

`sessions_` is an `unordered_map<FiveTuple, Session, FiveTupleHash>`; its key equality is
`operator==`, so entries are keyed by the five fields. It is modelled as its entry list with each
key once (`SessionTable`, which carries that proof). The steady clock is an input: every call that
reads `now()` takes the reading as a parameter, and `cleanup` takes one reading per entry it visits.

`handleLoadbalance` is the part of `LoadBalancer::handle_loadbalance` that drives the two
singletons: session lookup, the server check and forward of an existing flow, and otherwise
selection, `create` and forward. The NAT and DR forwarders are not in the repository, so the
answers of the two `forward` calls are parameters.

## Contents
- The table operations (`find`, `modify`, `assign` = `operator[]`, `erase`) and the manager's
  `lookup`, `create`, `updateStats`, `remove`, `cleanup`, with what each does to the number of
  entries (`size_assign`, `size_erase`, `sweep_length`).
- **`cleanup()` erases exactly the expired sessions** (`cleanup_find`): a session survives
  exactly when it is not expired at the clock reading of its visit.
- **`active_sessions` counts the entries plus the re-creations** (`active_runCalls`): over every
  run of calls (`SessionCall`), the counter moves with the number of entries, except that each
  `create` on a tuple that already has a session counts one more (`active_apply`).
- **Re-creating a session overcounts** (`handleLoadbalance_recreate_overcounts`): two packets of
  one flow whose forwards fail make `handle_loadbalance` call `create` twice on the same tuple,
  leaving `active_sessions = 2` with one entry.
-/

namespace L4lb

/-- `Session`. `server_tuple` is written by no modelled function and is left out. -/
structure Session where
  clientTuple : FiveTuple
  realServerId : UInt32
  createTime : UInt64
  lastActive : UInt64
  packets : UInt64
  bytes : UInt64
deriving DecidableEq, Repr

namespace Session

/-- `is_expired(timeout_sec)` at clock reading `now`: `(now - last_active) > timeout_sec * 10^9`
    in unsigned 64-bit arithmetic. -/
def isExpired (s : Session) (now timeoutSec : UInt64) : Bool :=
  now - s.lastActive > timeoutSec * 1000000000

/-- `touch()` at clock reading `now`. -/
def touch (s : Session) (now : UInt64) : Session := { s with lastActive := now }

/-- A session is not expired at a reading no earlier than its last activity and at most
    `timeoutSec` seconds after it (`timeout_sec * 10^9` does not wrap in 64 bits). -/
theorem isExpired_eq_false {s : Session} {now : UInt64} {timeoutSec : UInt32}
    (h₁ : s.lastActive ≤ now) (h₂ : now.toNat ≤ s.lastActive.toNat + timeoutSec.toNat * 1000000000) :
    s.isExpired now timeoutSec.toUInt64 = false := by
  have hT : (timeoutSec.toUInt64 * 1000000000).toNat = timeoutSec.toNat * 1000000000 := by
    have := timeoutSec.toNat_lt_size
    rw [UInt64.toNat_mul, UInt32.toUInt64_toNat]
    show timeoutSec.toNat * 1000000000 % UInt64.size = _
    exact Nat.mod_eq_of_lt (by unfold UInt32.size at this; unfold UInt64.size; omega)
  have hsub := UInt64.toNat_sub_of_le _ _ h₁
  have h₁' : s.lastActive.toNat ≤ now.toNat := h₁
  simp only [isExpired, decide_eq_false_iff_not]
  show ¬ (timeoutSec.toUInt64 * 1000000000).toNat < (now - s.lastActive).toNat
  omega

end Session

/-- The entries of `sessions_`, each key once. -/
structure SessionTable where
  entries : List (FiveTuple × Session)
  nodup : (entries.map Prod.fst).Nodup

namespace SessionTable

/-- The empty map. -/
def empty : SessionTable := ⟨[], .nil⟩

/-- `size()`. -/
def size (t : SessionTable) : Nat := t.entries.length

/-- `find(k)`: the session stored under `k`. -/
def find (t : SessionTable) (k : FiveTuple) : Option Session :=
  (t.entries.find? fun e => e.1 = k).map Prod.snd

theorem map_fst_modify (l : List (FiveTuple × Session)) (k : FiveTuple) (f : Session → Session) :
    (l.map fun e => if e.1 = k then (e.1, f e.2) else e).map Prod.fst = l.map Prod.fst := by
  induction l with
  | nil => rfl
  | cons e l ih => simp only [List.map_cons, ih]; split_ifs <;> rfl

/-- `it->second` rewritten in place by `f` for key `k` (nothing happens when `k` is absent). -/
def modify (t : SessionTable) (k : FiveTuple) (f : Session → Session) : SessionTable :=
  ⟨t.entries.map fun e => if e.1 = k then (e.1, f e.2) else e, by
    rw [map_fst_modify]; exact t.nodup⟩

/-- `sessions_[k] = s`: overwrite the entry of `k`, or insert one. -/
def assign (t : SessionTable) (k : FiveTuple) (s : Session) : SessionTable :=
  if hk : k ∈ t.entries.map Prod.fst then t.modify k fun _ => s
  else ⟨t.entries ++ [(k, s)], by
    rw [List.map_append, List.nodup_append]
    exact ⟨t.nodup, List.nodup_singleton _, List.disjoint_singleton.mpr hk⟩⟩

/-- `sessions_.erase(k)`: the map without `k`, and the number of entries erased. -/
def erase (t : SessionTable) (k : FiveTuple) : SessionTable × Nat :=
  (⟨t.entries.filter (fun e => e.1 ≠ k), t.nodup.sublist ((List.filter_sublist _).map _)⟩,
    if k ∈ t.entries.map Prod.fst then 1 else 0)

theorem size_modify (t : SessionTable) (k : FiveTuple) (f : Session → Session) :
    (t.modify k f).size = t.size :=
  List.length_map _ _

theorem size_assign (t : SessionTable) (k : FiveTuple) (s : Session) :
    (t.assign k s).size = t.size + if k ∈ t.entries.map Prod.fst then 0 else 1 := by
  unfold assign
  split_ifs
  · exact size_modify ..
  · simp [size]

/-- Filtering a key out of a list with distinct keys drops one entry if the key is present. -/
theorem length_filter_ne {l : List (FiveTuple × Session)} (hl : (l.map Prod.fst).Nodup)
    (k : FiveTuple) :
    (l.filter fun e => e.1 ≠ k).length + (if k ∈ l.map Prod.fst then 1 else 0) = l.length := by
  induction l with
  | nil => simp
  | cons e l ih =>
    rw [List.map_cons, List.nodup_cons] at hl
    have ih := ih hl.2
    simp only [ne_eq] at ih
    by_cases he : e.1 = k
    · subst he
      rw [if_neg hl.1] at ih
      simp only [List.filter_cons, ne_eq, not_true_eq_false, decide_False, Bool.false_eq_true,
        if_false, List.map_cons, List.mem_cons, true_or, if_true, List.length_cons]
      omega
    · simp only [List.filter_cons, ne_eq, he, not_false_eq_true, decide_True, if_true,
        List.length_cons, List.map_cons, List.mem_cons, Ne.symm he, false_or]
      omega

theorem size_erase (t : SessionTable) (k : FiveTuple) : (t.erase k).1.size + (t.erase k).2 = t.size :=
  length_filter_ne t.nodup k

end SessionTable

/-- `SessionManager`: the table, `timeout_sec_` and `stats_`. -/
structure SessionManager where
  sessions : SessionTable
  timeoutSec : UInt32
  stats : Statistics

namespace SessionManager

/-- The private constructor: an empty table, a 300 s timeout, zero counters. -/
def new : SessionManager := ⟨.empty, 300, {}⟩

/-- `set_timeout(seconds)`. -/
def setTimeout (m : SessionManager) (seconds : UInt32) : SessionManager :=
  { m with timeoutSec := seconds }

/-- `lookup(tuple, session)` at clock reading `now`: touch the entry and return a copy. -/
def lookup (m : SessionManager) (tuple : FiveTuple) (now : UInt64) :
    SessionManager × Option Session :=
  match m.sessions.find tuple with
  | some s => ({ m with sessions := m.sessions.modify tuple (·.touch now) }, some (s.touch now))
  | none => (m, none)

/-- `create(client_tuple, server_id)` at clock reading `now`: store a fresh session under the
    tuple and count it in `total_sessions` and `active_sessions`. -/
def create (m : SessionManager) (clientTuple : FiveTuple) (serverId : UInt32) (now : UInt64) :
    SessionManager :=
  let session : Session :=
    { clientTuple, realServerId := serverId, createTime := now, lastActive := now, packets := 0,
      bytes := 0 }
  { m with
    sessions := m.sessions.assign clientTuple session
    stats := { m.stats with
      totalSessions := m.stats.totalSessions + 1
      activeSessions := m.stats.activeSessions + 1 } }

/-- `update_stats(tuple, bytes)` at clock reading `now`. -/
def updateStats (m : SessionManager) (tuple : FiveTuple) (bytes now : UInt64) : SessionManager :=
  { m with
    sessions := m.sessions.modify tuple fun s =>
      { s.touch now with packets := s.packets + 1, bytes := s.bytes + bytes } }

/-- `remove(tuple)`: erase, and decrement `active_sessions` only when an entry was erased. -/
def remove (m : SessionManager) (tuple : FiveTuple) : SessionManager :=
  let (t, n) := m.sessions.erase tuple
  { m with
    sessions := t
    stats := if n > 0 then { m.stats with activeSessions := m.stats.activeSessions - 1 }
      else m.stats }

/-- `cleanup()`'s loop from the `i`-th visited entry on: erase each expired entry (its
    `is_expired` reads the clock as `now i`) and count the erasures. -/
def sweep (timeoutSec : UInt32) (now : Nat → UInt64) :
    Nat → List (FiveTuple × Session) → List (FiveTuple × Session) × Nat
  | _, [] => ([], 0)
  | i, e :: rest =>
    let (kept, removed) := sweep timeoutSec now (i + 1) rest
    if e.2.isExpired (now i) timeoutSec.toUInt64 then (kept, removed + 1) else (e :: kept, removed)

theorem sweep_sublist (timeoutSec : UInt32) (now : Nat → UInt64) :
    ∀ (i : Nat) (l : List (FiveTuple × Session)), (sweep timeoutSec now i l).1.Sublist l
  | _, [] => .slnil
  | i, e :: rest => by
    have ih := sweep_sublist timeoutSec now (i + 1) rest
    simp only [sweep]
    split_ifs
    · exact ih.cons e
    · exact ih.cons₂ e

theorem sweep_length (timeoutSec : UInt32) (now : Nat → UInt64) :
    ∀ (i : Nat) (l : List (FiveTuple × Session)),
      (sweep timeoutSec now i l).1.length + (sweep timeoutSec now i l).2 = l.length
  | _, [] => rfl
  | i, e :: rest => by
    have ih := sweep_length timeoutSec now (i + 1) rest
    simp only [sweep]
    split_ifs
    · simp only [List.length_cons]
      omega
    · simp only [List.length_cons]
      omega

/-- `cleanup()` with the clock reading `now i` at the `i`-th visited entry: erase expired
    sessions, decrementing `active_sessions` once per erasure; returns the number erased. -/
def cleanup (m : SessionManager) (now : Nat → UInt64) : SessionManager × Nat :=
  let r := sweep m.timeoutSec now 0 m.sessions.entries
  ({ m with
      sessions := ⟨r.1, m.sessions.nodup.sublist ((sweep_sublist _ _ _ _).map _)⟩
      stats := { m.stats with activeSessions := m.stats.activeSessions - r.2.toUInt64 } },
    r.2)

/-- `sweep` keeps the entry of `k` exactly when it is not expired at the reading of its visit,
    the `findIdx`-th from `i`. -/
theorem find_sweep (timeoutSec : UInt32) (now : Nat → UInt64) (k : FiveTuple) :
    ∀ (i : Nat) (l : List (FiveTuple × Session)), (l.map Prod.fst).Nodup →
      ((sweep timeoutSec now i l).1.find? fun e => e.1 = k).map Prod.snd =
        ((l.find? fun e => e.1 = k).map Prod.snd).filter fun s =>
          !s.isExpired (now (i + l.findIdx fun e => e.1 = k)) timeoutSec.toUInt64
  | _, [], _ => rfl
  | i, e :: rest, hl => by
    rw [List.map_cons, List.nodup_cons] at hl
    have ih := find_sweep timeoutSec now k (i + 1) rest hl.2
    by_cases he : e.1 = k
    · subst he
      have hnone : ((sweep timeoutSec now (i + 1) rest).1.find? fun e' => e'.1 = e.1) = none :=
        List.find?_eq_none.mpr fun e' he' hk => hl.1 (List.mem_map.mpr
          ⟨e', (sweep_sublist _ _ _ _).subset he', of_decide_eq_true hk⟩)
      simp only [sweep, List.findIdx_cons, List.find?_cons, decide_True, cond_true, add_zero]
      split_ifs with hx <;> simp [hnone, hx, Option.filter_some]
    · simp only [sweep, List.findIdx_cons, List.find?_cons, he, decide_False, cond_false]
      rw [← Nat.add_assoc, Nat.add_right_comm, ← ih]
      split_ifs <;> simp [he]

/-- **`cleanup()` erases exactly the expired sessions.** For every table and every clock, the
    session of `k` survives exactly when it is not expired at the reading of its visit (entries
    are visited in table order), and the number returned is the number of entries erased. -/
theorem cleanup_find (m : SessionManager) (now : Nat → UInt64) (k : FiveTuple) :
    (m.cleanup now).1.sessions.find k = (m.sessions.find k).filter (fun s =>
        !s.isExpired (now (m.sessions.entries.findIdx fun e => e.1 = k)) m.timeoutSec.toUInt64) ∧
      (m.cleanup now).1.sessions.size + (m.cleanup now).2 = m.sessions.size :=
  ⟨by simpa only [Nat.zero_add] using find_sweep m.timeoutSec now k 0 _ m.sessions.nodup,
    sweep_length _ _ _ _⟩

end SessionManager

/-! ## `active_sessions` over runs of calls -/

/-- A call on the `SessionManager` singleton, with the clock readings it takes. -/
inductive SessionCall
  | lookup (tuple : FiveTuple) (now : UInt64)
  | create (clientTuple : FiveTuple) (serverId : UInt32) (now : UInt64)
  | updateStats (tuple : FiveTuple) (bytes now : UInt64)
  | remove (tuple : FiveTuple)
  | cleanup (now : Nat → UInt64)
  | setTimeout (seconds : UInt32)

namespace SessionCall

/-- The manager after the call. -/
def apply (m : SessionManager) : SessionCall → SessionManager
  | .lookup t now => (m.lookup t now).1
  | .create t serverId now => m.create t serverId now
  | .updateStats t bytes now => m.updateStats t bytes now
  | .remove t => m.remove t
  | .cleanup now => (m.cleanup now).1
  | .setTimeout seconds => m.setTimeout seconds

/-- The call is a `create` on a tuple that already has a session. -/
def recreates (m : SessionManager) : SessionCall → Bool
  | .create t _ _ => decide (t ∈ m.sessions.entries.map Prod.fst)
  | _ => false

end SessionCall

namespace SessionManager

/-- The manager after a run of calls. -/
def runCalls (m : SessionManager) (calls : List SessionCall) : SessionManager :=
  calls.foldl SessionCall.apply m

/-- How many calls of the run are `create`s on a tuple that already has a session. -/
def recreations : SessionManager → List SessionCall → Nat
  | _, [] => 0
  | m, c :: cs => (if c.recreates m then 1 else 0) + recreations (c.apply m) cs

/-- Erasing `r` entries and subtracting `r` from the counter keeps its surplus over the entries. -/
theorem active_sub (m : SessionManager) {k n r : Nat}
    (hm : m.stats.activeSessions = (m.sessions.size + k).toUInt64) (h : n + r = m.sessions.size) :
    m.stats.activeSessions - r.toUInt64 = (n + k).toUInt64 := by
  rw [hm, ← h, show n + r + k = n + k + r by omega]
  exact toUInt64_add_sub _ _

/-- Each call moves `active_sessions` with the number of entries, except a `create` on a tuple
    that has a session, which counts one more. -/
theorem active_apply (m : SessionManager) (c : SessionCall) (k : Nat)
    (hm : m.stats.activeSessions = (m.sessions.size + k).toUInt64) :
    (c.apply m).stats.activeSessions =
      ((c.apply m).sessions.size + (k + if c.recreates m then 1 else 0)).toUInt64 := by
  cases c with
  | lookup t now =>
    simp only [SessionCall.apply, SessionCall.recreates, lookup]
    split <;> simpa [SessionTable.size_modify] using hm
  | create t serverId now =>
    simp only [SessionCall.apply, SessionCall.recreates, create, SessionTable.size_assign, hm,
      ← toUInt64_succ]
    by_cases h : t ∈ m.sessions.entries.map Prod.fst <;> simp [h] <;> exact congrArg _ (by omega)
  | updateStats t bytes now =>
    simpa [SessionCall.apply, updateStats, SessionTable.size_modify] using hm
  | remove t =>
    have h := SessionTable.size_erase m.sessions t
    by_cases hk : t ∈ m.sessions.entries.map Prod.fst
    · simp [remove, SessionTable.erase, hk, SessionCall.apply, SessionCall.recreates] at h ⊢
      exact active_sub m hm h
    · simp [remove, SessionTable.erase, hk, SessionCall.apply, SessionCall.recreates] at h ⊢
      rw [h]
      exact hm
  | cleanup now => exact active_sub m hm (sweep_length m.timeoutSec now 0 m.sessions.entries)
  | setTimeout seconds => simpa [SessionCall.apply, setTimeout] using hm

/-- **`active_sessions` counts the entries plus the re-creations.** Over every run of calls on a
    manager whose `active_sessions` exceeds its number of entries by `k` (`new` has `k = 0`),
    `active_sessions` ends equal to the number of entries plus `k` plus the number of `create`
    calls on a tuple that already had a session, modulo 2^64. -/
theorem active_runCalls (m : SessionManager) (calls : List SessionCall) (k : Nat)
    (hm : m.stats.activeSessions = (m.sessions.size + k).toUInt64) :
    (m.runCalls calls).stats.activeSessions =
      ((m.runCalls calls).sessions.size + k + m.recreations calls).toUInt64 := by
  induction calls generalizing m k with
  | nil => simpa [runCalls, recreations] using hm
  | cons c cs ih =>
    have h := ih (c.apply m) _ (active_apply m c k hm)
    simp only [runCalls, List.foldl_cons, recreations] at h ⊢
    rw [h]
    exact congrArg _ (by omega)

/-- From `new`, one flow created twice and then removed: no entry, one re-creation. -/
theorem active_runCalls_recreate :
    let t : FiveTuple := ⟨0x01020304, 0x05060708, 80, 8080, 6⟩
    let calls := [SessionCall.create t 1 1, .create t 1 2, .remove t]
    SessionManager.new.stats.activeSessions = (SessionManager.new.sessions.size + 0).toUInt64 ∧
      (SessionManager.new.runCalls calls).stats.activeSessions =
        ((SessionManager.new.runCalls calls).sessions.size + 0 +
          SessionManager.new.recreations calls).toUInt64 :=
  ⟨rfl, active_runCalls _ _ 0 rfl⟩

end SessionManager

/-! ## The packet path -/

/-- What `LoadBalancer::handle_loadbalance` reads and writes: the session and server singletons
    and the balancer's own `stats_`. -/
structure LbState where
  sessions : SessionManager
  registry : RealServerManager
  stats : Statistics

/-- Steps 2–4 of `handle_loadbalance` (a new flow): select, `create`, forward. -/
def LbState.newFlow (lb : LbState) (sm : SessionManager) (tuple : TupleObject) (forward : Bool)
    (now : UInt64) : LbState × Bool :=
  match lb.registry.selectServer tuple with
  | none => ({ lb with sessions := sm, stats := { lb.stats with
      droppedPackets := lb.stats.droppedPackets + 1 } }, false)
  | some rs =>
    let sm := sm.create tuple.tuple rs.id now
    if forward then
      ({ lb with sessions := sm, stats := { lb.stats with
          forwardedPackets := lb.stats.forwardedPackets + 1
          natTranslations := lb.stats.natTranslations + 1
          txPackets := lb.stats.txPackets + 1 } }, true)
    else
      ({ lb with sessions := sm, stats := { lb.stats with
          droppedPackets := lb.stats.droppedPackets + 1 } }, false)

/-- `handle_loadbalance(eth, data, len, meta, mbuf)`. `tuple` is `meta.to_five_tuple()` as an
    object (its padding is whatever the stack held); `forward₁` and `forward₂` are the answers of
    the forward of an existing flow and of a new one; `now₁` is the clock reading of `lookup`,
    `now₂` that of `update_stats` or `create`. -/
def handleLoadbalance (lb : LbState) (tuple : TupleObject) (len : UInt64) (forward₁ forward₂ : Bool)
    (now₁ now₂ : UInt64) : LbState × Bool :=
  let (sm, found) := lb.sessions.lookup tuple.tuple now₁
  match found.bind fun session => lb.registry.getServer session.realServerId with
  | some _ =>
    if forward₁ then
      ({ lb with sessions := sm.updateStats tuple.tuple len now₂, stats := { lb.stats with
          forwardedPackets := lb.stats.forwardedPackets + 1
          txPackets := lb.stats.txPackets + 1 } }, true)
    else lb.newFlow sm tuple forward₂ now₂
  | none => lb.newFlow sm tuple forward₂ now₂

/-- **A flow's session is created twice.** One `UP` server; the first packet of a flow creates
    its session but its forward fails; the second packet finds the session and its server, its
    forward fails again, so `handle_loadbalance` selects the server anew and calls `create` on
    the tuple that already has a session. The table holds one entry and `active_sessions` is 2. -/
theorem handleLoadbalance_recreate_overcounts :
    let t : TupleObject := ⟨⟨0x01020304, 0x05060708, 80, 8080, 6⟩, (0, 0, 0)⟩
    let lb₀ : LbState :=
      ⟨.new, RealServerManager.new.addServer { id := 1, weight := 1, status := .up }, {}⟩
    let lb₁ := (handleLoadbalance lb₀ t 60 false false 1 2).1
    let lb₂ := (handleLoadbalance lb₁ t 60 false false 3 4).1
    lb₁.sessions.sessions.size = 1 ∧ lb₁.sessions.stats.activeSessions = 1 ∧
    lb₂.sessions.sessions.size = 1 ∧ lb₂.sessions.stats.activeSessions = 2 := by
  decide

end L4lb
