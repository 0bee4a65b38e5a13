import L4lb.Registry

/-!
# `L4lb.Proxy` — the event loop of the TCP proxy (`main.cpp`)

`ff_loop` hands each `epoll_event` of a batch to `handle_event`, so a run of the proxy is a list
of events, each with the answers the network stack gives to the calls its handling makes
(`Stack`: `ff_accept`, `ff_socket`, `ff_connect`, one `ff_read` and the `ff_write`s). The state is
the proxy's globals with the stack's descriptor state (`World`): `g_connections` maps an fd to a
`Connection*`, an address into `heap`, which holds the objects not deleted yet. A lookup that
lands on a deleted object is undefined behaviour and stops the run (`Fault`). The registry and
the VIP are read-only here.

## Contents
- `handleAccept`, `closeConnection`, `writeLoop`, `forwardData`, `handleEvent`, `runEvents`.
- **Without fd 0 there is no use after free** (`runEvents_wf`): the invariant `Wf` (every
  `g_connections` entry names a live object holding the fd; live objects hold positive fds;
  `active_sessions` counts them) holds initially (`wf_init`) and across every event whose
  `ff_accept` and `ff_socket` answers are not fd 0, so such a run never faults. Each handler has
  its step lemma (`handleAccept_wf`, `closeConnection_wf`, `dispatch_wf`, `handleEvent_wf`).
- **fd 0 outlives its connection** (`closeConnection_keeps_fd_zero`): `handle_accept` accepts any
  fd `≥ 0` but `close_connection` erases only fds `> 0`, so a connection on fd 0 leaves its key
  mapped to the deleted object, and the next event on fd 0 uses it.
- **What `forward_data` relays** (`forwardData_relays`): a prefix of the bytes read, all of them
  when every write takes bytes.
- **Unwritten bytes are dropped** (`forwardData_drops_unwritten`): after a short write and
  `EAGAIN`, the rest of the buffer is discarded and later bytes are relayed after the gap.
- **Bytes stay within their connection** (`handleEvent_sent`): an event writes only to the other
  end of the live connection its descriptor belongs to, and only bytes just read from it
  (`RelayOn`, one step lemma per handler).
- **No descriptor leaks** (`runEvents_noLeak`): over every run, an open descriptor was open at
  the start or is mapped in `g_connections` (`NoLeak`, one step lemma per handler).
-/

namespace L4lb

namespace Proxy

/-- `struct Connection`. The two 4096-byte buffers and their lengths are set empty at creation
    and never read; they are left out. -/
structure Connection where
  clientFd : Int
  backendFd : Int
  serverId : UInt32
  clientConnected : Bool
  backendConnected : Bool
deriving DecidableEq, Repr

/-- An `epoll_event`: `data.fd` and the `EPOLLIN`, `EPOLLOUT`, `EPOLLERR`, `EPOLLHUP` bits. -/
structure EpollEvent where
  fd : Int
  epollin : Bool := false
  epollout : Bool := false
  epollerr : Bool := false
  epollhup : Bool := false
deriving DecidableEq, Repr

/-- An answer of `ff_read(fd, buf, 8192)`. -/
inductive ReadResult
  /-- `n > 0` bytes were read. -/
  | data (bytes : List UInt8)
  /-- `n == 0`: the peer closed. -/
  | eof
  /-- `n < 0` with `EAGAIN` or `EWOULDBLOCK`. -/
  | again
  /-- `n < 0` with another `errno`. -/
  | error
deriving DecidableEq, Repr

/-- An answer of `ff_write`. -/
inductive WriteResult
  /-- `n` bytes were taken. -/
  | wrote (n : Nat)
  /-- `-1` with `EAGAIN` or `EWOULDBLOCK`. -/
  | again
  /-- `-1` with another `errno`. -/
  | error
deriving DecidableEq, Repr

/-- The stack's answers to the calls one `handle_event` makes; a call that is not made ignores
    its answer, and writes beyond `writes` take every byte offered. `connectOk` is `ff_connect`
    returning `0` or failing with `EINPROGRESS`. -/
structure Stack where
  acceptFd : Int := -1
  peerIp : IPv4Addr := 0
  peerPort : Port := 0
  padding : UInt8 × UInt8 × UInt8 := (0, 0, 0)
  socketFd : Int := -1
  connectOk : Bool := true
  read : ReadResult := .again
  writes : List WriteResult := []

/-- The proxy's globals and the stack's descriptor state. `received` and `sent` are the bytes the
    proxy has read from and written to each fd. -/
structure World where
  listenFd : Int
  vip : IPv4Addr
  registry : RealServerManager
  connections : Int → Option Nat
  heap : Nat → Option Connection
  nextAddr : Nat
  isOpen : Int → Bool
  registered : Int → Bool
  stats : Statistics
  received : Int → List UInt8
  sent : Int → List UInt8

/-- Undefined behaviour the loop reaches. -/
inductive Fault
  /-- `handle_event` found `fd` mapped to the deleted `Connection` at `addr` and used it. -/
  | useAfterFree (fd : Int) (addr : Nat)
deriving DecidableEq, Repr

namespace World

/-- After `main`'s setup: listening on `listenFd`, which alone is registered with epoll; the
    descriptors in `isOpen` are open. -/
def init (listenFd : Int) (vip : IPv4Addr) (registry : RealServerManager) (isOpen : Int → Bool) :
    World :=
  { listenFd, vip, registry, isOpen
    connections := fun _ => none
    heap := fun _ => none
    nextAddr := 0
    registered := fun fd => fd == listenFd
    stats := {}
    received := fun _ => []
    sent := fun _ => [] }

/-- `ff_close(fd)`. -/
def close (w : World) (fd : Int) : World := { w with isOpen := Function.update w.isOpen fd false }

/-- A descriptor the stack has just handed out. -/
def opened (w : World) (fd : Int) : World := { w with isOpen := Function.update w.isOpen fd true }

/-- `ff_epoll_ctl(g_epfd, EPOLL_CTL_DEL, fd)`, `ff_close(fd)` and `g_connections.erase(fd)`. -/
def dropFd (w : World) (fd : Int) : World :=
  { w.close fd with
    registered := Function.update w.registered fd false
    connections := Function.update w.connections fd none }

end World

/-- `htons(8080)` on a little-endian host. -/
def dstPort : Port := 0x901F

/-- `handle_accept(listen_fd)`: accept, build the tuple object (its padding is whatever the stack
    frame held), select a server, open a nonblocking socket and connect it, then register both
    fds and count the session. -/
def handleAccept (w : World) (o : Stack) : World :=
  if o.acceptFd < 0 then w
  else
    let clientFd := o.acceptFd
    let w := w.opened clientFd
    let tuple : TupleObject := ⟨⟨o.peerIp, w.vip, o.peerPort, dstPort, 6⟩, o.padding⟩
    match w.registry.selectServer tuple with
    | none => w.close clientFd
    | some rs =>
      if o.socketFd < 0 then w.close clientFd
      else
        let backendFd := o.socketFd
        let w := w.opened backendFd
        if o.connectOk = false then (w.close backendFd).close clientFd
        else
          let addr := w.nextAddr
          { w with
            heap := Function.update w.heap addr (some ⟨clientFd, backendFd, rs.id, true, false⟩)
            nextAddr := addr + 1
            connections := Function.update (Function.update w.connections clientFd (some addr))
              backendFd (some addr)
            registered := Function.update (Function.update w.registered clientFd true) backendFd true
            stats := { w.stats with
              activeSessions := w.stats.activeSessions + 1
              totalSessions := w.stats.totalSessions + 1 } }

/-- `close_connection(conn)` for the object at `addr`: each fd that is positive leaves epoll, is
    closed and erased; the object is deleted and `active_sessions` decremented. -/
def closeConnection (w : World) (addr : Nat) (conn : Connection) : World :=
  let w := if conn.clientFd > 0 then w.dropFd conn.clientFd else w
  let w := if conn.backendFd > 0 then w.dropFd conn.backendFd else w
  { w with
    heap := Function.update w.heap addr none
    stats := { w.stats with activeSessions := w.stats.activeSessions - 1 } }

/-- The write loop of `forward_data` over the bytes read: the bytes that reach `to_fd`, and
    `false` when a write failed with an error other than `EAGAIN`. On `EAGAIN` the loop breaks and
    the rest of the buffer is dropped. -/
def writeLoop : List WriteResult → List UInt8 → List UInt8 × Bool
  | _, [] => ([], true)
  | [], rest => (rest, true)
  | .wrote m :: ws, rest =>
    let r := writeLoop ws (rest.drop m)
    (rest.take m ++ r.1, r.2)
  | .again :: _, _ => ([], true)
  | .error :: _, _ => ([], false)

/-- `forward_data(conn, from_fd, to_fd, from_closed)`: the world, the return value, and
    `from_closed`. -/
def forwardData (w : World) (conn : Connection) (fromFd toFd : Int) (o : Stack) :
    World × Bool × Bool :=
  match o.read with
  | .again => (w, true, false)
  | .error => (w, false, false)
  | .eof => (w, true, true)
  | .data bytes =>
    let r := writeLoop o.writes bytes
    let w := { w with
      received := Function.update w.received fromFd (w.received fromFd ++ bytes)
      sent := Function.update w.sent toFd (w.sent toFd ++ r.1) }
    if r.2 then
      (if fromFd = conn.clientFd then
        { w with stats := { w.stats with
          rxPackets := w.stats.rxPackets + 1
          forwardedPackets := w.stats.forwardedPackets + 1 } }
      else { w with stats := { w.stats with txPackets := w.stats.txPackets + 1 } }, true, false)
    else (w, false, false)

/-- The `EPOLLIN` part of `handle_event` for the connection at `addr`: the world, and whether
    `handle_event` returned. -/
def handleInput (w : World) (ev : EpollEvent) (o : Stack) (addr : Nat) (conn : Connection) :
    World × Bool :=
  if ev.fd = conn.clientFd then
    if conn.backendConnected then
      let r := forwardData w conn conn.clientFd conn.backendFd o
      if r.2.1 = false ∨ r.2.2 = true then (closeConnection r.1 addr conn, true) else (r.1, false)
    else (w, false)
  else if ev.fd = conn.backendFd then
    let r := forwardData w conn conn.backendFd conn.clientFd o
    if r.2.1 then (r.1, false) else (closeConnection r.1 addr conn, true)
  else (w, false)

/-- The end of `handle_event` for the live `Connection` at `addr`, once a pending connect is
    settled: forward input, then close on a client `EPOLLHUP` unless the input part returned. -/
def inputThenHangup (w : World) (ev : EpollEvent) (o : Stack) (addr : Nat) (conn : Connection) :
    World :=
  let r := if ev.epollin then handleInput w ev o addr conn else (w, false)
  if r.2 then r.1
  else if ev.epollhup ∧ ev.fd ≠ conn.backendFd then closeConnection r.1 addr conn
  else r.1

/-- `handle_event(ev)` once the lookup found the live `Connection` at `addr`: `EPOLLERR` closes;
    a backend still connecting waits for `EPOLLOUT`, which marks it connected; then
    `inputThenHangup`. -/
def dispatch (w : World) (ev : EpollEvent) (o : Stack) (addr : Nat) (conn : Connection) : World :=
  if ev.epollerr then closeConnection w addr conn
  else if ev.fd = conn.backendFd ∧ conn.backendConnected = false ∧ ev.epollout = false then w
  else
    let conn := if ev.fd = conn.backendFd ∧ conn.backendConnected = false then
      { conn with backendConnected := true } else conn
    inputThenHangup { w with heap := Function.update w.heap addr (some conn) } ev o addr conn

/-- `handle_event(ev)`: the listening socket accepts, an fd without an entry is ignored, and an
    entry's `Connection*` is used, which is undefined behaviour once the object is deleted. -/
def handleEvent (w : World) (ev : EpollEvent) (o : Stack) : Except Fault World :=
  if ev.fd = w.listenFd then .ok (handleAccept w o)
  else
    match w.connections ev.fd with
    | none => .ok w
    | some addr =>
      match w.heap addr with
      | none => .error (.useAfterFree ev.fd addr)
      | some conn => .ok (dispatch w ev o addr conn)

/-- The loop over a run of events, each with the stack's answers; it stops at a fault. -/
def runEvents (w : World) : List (EpollEvent × Stack) → Except Fault World
  | [] => .ok w
  | (ev, o) :: rest => (handleEvent w ev o).bind fun w' => runEvents w' rest

/-- The fault a run stopped at. -/
def faultOf : Except Fault World → Option Fault
  | .error f => some f
  | .ok _ => none

/-! ## The invariant of the loop -/

/-- The live objects below `n` in `heap`. -/
def liveCount (heap : Nat → Option Connection) (n : Nat) : Nat :=
  (List.range n).countP fun a => (heap a).isSome

theorem liveCount_congr {h h' : Nat → Option Connection} {n : Nat}
    (e : ∀ a < n, (h a).isSome = (h' a).isSome) : liveCount h n = liveCount h' n :=
  List.countP_congr fun a ha => by rw [e a (List.mem_range.mp ha)]

theorem liveCount_succ (h : Nat → Option Connection) (n : Nat) :
    liveCount h (n + 1) = liveCount h n + if (h n).isSome then 1 else 0 := by
  simp only [liveCount, List.range_succ, List.countP_append, List.countP_singleton]

/-- Objects at or above `n` do not count. -/
theorem liveCount_update_of_le (h : Nat → Option Connection) (v : Option Connection) {a n : Nat}
    (hn : n ≤ a) : liveCount (Function.update h a v) n = liveCount h n :=
  liveCount_congr fun b hb => by rw [Function.update_noteq (by omega)]

/-- Deleting a live object below `n` lowers the count by one. -/
theorem liveCount_erase {h : Nat → Option Connection} {a n : Nat} (han : a < n)
    (ha : (h a).isSome) : liveCount (Function.update h a none) n + 1 = liveCount h n := by
  induction n with
  | zero => omega
  | succ n ih =>
    rw [liveCount_succ, liveCount_succ]
    rcases Nat.lt_succ_iff_lt_or_eq.mp han with hlt | rfl
    · rw [Function.update_noteq (by omega)]
      have := ih hlt
      omega
    · rw [Function.update_same, liveCount_update_of_le _ _ le_rfl]
      simp [ha]

/-- Replacing a live object keeps the count. -/
theorem liveCount_replace {h : Nat → Option Connection} {a : Nat} (c : Connection)
    (ha : (h a).isSome) (n : Nat) : liveCount (Function.update h a (some c)) n = liveCount h n :=
  liveCount_congr fun b _ => by
    by_cases hb : b = a
    · subst hb
      simp [ha]
    · rw [Function.update_noteq hb]

/-- What every state of a run satisfies while the stack never hands out fd 0: an entry of
    `g_connections` names a live object that holds the fd, live objects hold positive fds and sit
    below `nextAddr`, and `active_sessions` counts them. -/
structure Wf (w : World) : Prop where
  mapped : ∀ fd a, w.connections fd = some a →
    ∃ c, w.heap a = some c ∧ (fd = c.clientFd ∨ fd = c.backendFd)
  pos : ∀ a c, w.heap a = some c → 0 < c.clientFd ∧ 0 < c.backendFd
  fresh : ∀ a, w.nextAddr ≤ a → w.heap a = none
  active : w.stats.activeSessions = (liveCount w.heap w.nextAddr).toUInt64

theorem wf_init (listenFd : Int) (vip : IPv4Addr) (registry : RealServerManager)
    (isOpen : Int → Bool) : Wf (World.init listenFd vip registry isOpen) where
  mapped _ _ h := nomatch h
  pos _ _ h := nomatch h
  fresh _ _ := rfl
  active := rfl

section Invariant

variable {w w' : World} {a : Nat} {c : Connection}

theorem Wf.lt_nextAddr (hw : Wf w) (ha : w.heap a = some c) : a < w.nextAddr :=
  Nat.lt_of_not_le fun hle => by simp [hw.fresh a hle] at ha

/-- A step that changes only descriptors, byte logs and other counters keeps the invariant. -/
theorem Wf.congr (hw : Wf w) (hc : w'.connections = w.connections) (hh : w'.heap = w.heap)
    (hn : w'.nextAddr = w.nextAddr) (hs : w'.stats.activeSessions = w.stats.activeSessions) :
    Wf w' :=
  ⟨by rw [hc, hh]; exact hw.mapped, by rw [hh]; exact hw.pos, by rw [hh, hn]; exact hw.fresh,
    by rw [hs, hh, hn]; exact hw.active⟩

/-- Writing back a live object with the same fds keeps the invariant. -/
theorem Wf.replace (hw : Wf w) (ha : w.heap a = some c) (c' : Connection)
    (hfd : c'.clientFd = c.clientFd ∧ c'.backendFd = c.backendFd) :
    Wf { w with heap := Function.update w.heap a (some c') } := by
  have hsome : (w.heap a).isSome := by simp [ha]
  refine ⟨fun fd b hb => ?_, fun b d hb => ?_, fun b hb => ?_, ?_⟩ <;> dsimp only at *
  · obtain ⟨d, hd, hfd'⟩ := hw.mapped fd b hb
    by_cases hba : b = a
    · subst hba
      rw [ha] at hd
      cases hd
      exact ⟨c', Function.update_same .., by rw [hfd.1, hfd.2]; exact hfd'⟩
    · exact ⟨d, by rw [Function.update_noteq hba]; exact hd, hfd'⟩
  · by_cases hba : b = a
    · subst hba
      simp only [Function.update_same, Option.some.injEq] at hb
      subst hb
      rw [hfd.1, hfd.2]
      exact hw.pos b c ha
    · rw [Function.update_noteq hba] at hb
      exact hw.pos b d hb
  · rw [Function.update_noteq (by have := hw.lt_nextAddr ha; omega)]
    exact hw.fresh b hb
  · rw [liveCount_replace c' hsome]
    exact hw.active

/-- What `handle_accept` can do: leave the table, the objects and the counters as they were, with
    every descriptor it opened closed again, or open both descriptors it was handed and store a
    new object at `nextAddr` under them. -/
theorem handleAccept_cases (w : World) (o : Stack) :
    let w' := handleAccept w o
    (w'.connections = w.connections ∧ w'.heap = w.heap ∧ w'.nextAddr = w.nextAddr ∧
        w'.stats = w.stats ∧ ∀ fd, w'.isOpen fd = true → w.isOpen fd = true) ∨
      (0 ≤ o.acceptFd ∧ 0 ≤ o.socketFd ∧ ∃ serverId,
        w'.connections = Function.update (Function.update w.connections o.acceptFd
          (some w.nextAddr)) o.socketFd (some w.nextAddr) ∧
        w'.heap = Function.update w.heap w.nextAddr
          (some ⟨o.acceptFd, o.socketFd, serverId, true, false⟩) ∧
        w'.nextAddr = w.nextAddr + 1 ∧ w'.stats.activeSessions = w.stats.activeSessions + 1 ∧
        w'.isOpen = Function.update (Function.update w.isOpen o.acceptFd true) o.socketFd true) := by
  unfold handleAccept
  dsimp only [World.close, World.opened]
  by_cases h₁ : o.acceptFd < 0
  · rw [if_pos h₁]
    exact .inl ⟨rfl, rfl, rfl, rfl, fun _ => id⟩
  rw [if_neg h₁]
  split
  on_goal 2 => split_ifs with h₂ h₃
  on_goal 4 => exact .inr ⟨by omega, by omega, _, rfl, rfl, rfl, rfl, rfl⟩
  -- the three failure paths close every descriptor they opened
  all_goals
    refine .inl ⟨rfl, rfl, rfl, rfl, fun fd hfd => ?_⟩
    simp only [Function.update_apply] at hfd
    split_ifs at hfd
    exact hfd

theorem handleAccept_wf {o : Stack} (hw : Wf w) (h₁ : o.acceptFd ≠ 0) (h₂ : o.socketFd ≠ 0) :
    Wf (handleAccept w o) := by
  rcases handleAccept_cases w o with ⟨hc, hh, hn, hs, -⟩ | ⟨ha, hs, sid, hc, hh, hn, hact, -⟩
  · exact hw.congr hc hh hn (by rw [hs])
  generalize handleAccept w o = w' at hc hh hn hact
  have old : ∀ b, (w.heap b).isSome → b ≠ w.nextAddr := fun b hb hbn =>
    by rw [hw.fresh b (by omega)] at hb; exact Bool.false_ne_true hb
  refine ⟨fun fd b hb => ?_, fun b d hb => ?_, fun b hb => ?_, ?_⟩
  · rw [hc] at hb
    rw [hh]
    by_cases hfs : fd = o.socketFd
    · rw [hfs, Function.update_same, Option.some.injEq] at hb
      subst hfs hb
      exact ⟨_, Function.update_same .., .inr rfl⟩
    rw [Function.update_noteq hfs] at hb
    by_cases hfa : fd = o.acceptFd
    · rw [hfa, Function.update_same, Option.some.injEq] at hb
      subst hfa hb
      exact ⟨_, Function.update_same .., .inl rfl⟩
    rw [Function.update_noteq hfa] at hb
    obtain ⟨d, hd, hfd⟩ := hw.mapped fd b hb
    exact ⟨d, by rw [Function.update_noteq (old b (by simp [hd]))]; exact hd, hfd⟩
  · rw [hh] at hb
    by_cases hbn : b = w.nextAddr
    · subst hbn
      simp only [Function.update_same, Option.some.injEq] at hb
      subst hb
      show 0 < o.acceptFd ∧ 0 < o.socketFd
      omega
    · rw [Function.update_noteq hbn] at hb
      exact hw.pos b d hb
  · rw [hn] at hb
    rw [hh, Function.update_noteq (by omega)]
    exact hw.fresh b (by omega)
  · rw [hact, hw.active, hn, hh, liveCount_succ, Function.update_same,
      liveCount_update_of_le _ _ le_rfl]
    exact (toUInt64_succ _).symm

/-- `close_connection` on an object whose fds are positive erases both from `g_connections`,
    deletes the object and decrements `active_sessions`. -/
theorem closeConnection_spec (w : World) (a : Nat) (c : Connection)
    (hc : 0 < c.clientFd ∧ 0 < c.backendFd) :
    let w' := closeConnection w a c
    w'.connections = Function.update (Function.update w.connections c.clientFd none)
        c.backendFd none ∧
      w'.heap = Function.update w.heap a none ∧ w'.nextAddr = w.nextAddr ∧
      w'.stats.activeSessions = w.stats.activeSessions - 1 := by
  simp only [closeConnection, if_pos hc.1, if_pos hc.2]
  exact ⟨rfl, rfl, rfl, rfl⟩

theorem closeConnection_wf (hw : Wf w) (ha : w.heap a = some c) : Wf (closeConnection w a c) := by
  obtain ⟨hc, hh, hn, hs⟩ := closeConnection_spec w a c (hw.pos a c ha)
  generalize closeConnection w a c = w' at hc hh hn hs
  have han := hw.lt_nextAddr ha
  refine ⟨fun fd b hb => ?_, fun b d hb => ?_, fun b hb => ?_, ?_⟩
  · rw [hc] at hb
    by_cases h₁ : fd = c.backendFd
    · rw [h₁, Function.update_same] at hb
      cases hb
    by_cases h₂ : fd = c.clientFd
    · rw [Function.update_noteq h₁, h₂, Function.update_same] at hb
      cases hb
    rw [Function.update_noteq h₁, Function.update_noteq h₂] at hb
    obtain ⟨d, hd, hfd⟩ := hw.mapped fd b hb
    have hba : b ≠ a := by
      rintro rfl
      rw [ha, Option.some.injEq] at hd
      subst hd
      exact hfd.elim h₂ h₁
    exact ⟨d, by rw [hh, Function.update_noteq hba]; exact hd, hfd⟩
  · rw [hh] at hb
    by_cases hba : b = a
    · rw [hba, Function.update_same] at hb
      cases hb
    · rw [Function.update_noteq hba] at hb
      exact hw.pos b d hb
  · rw [hn] at hb
    rw [hh]
    by_cases hba : b = a
    · rw [hba, Function.update_same]
    · rw [Function.update_noteq hba]
      exact hw.fresh b hb
  · rw [hs, hw.active, hh, hn, ← liveCount_erase han (by simp [ha])]
    exact toUInt64_add_sub _ 1

/-- `forward_data` touches only the byte logs and the packet counters. -/
theorem forwardData_frame (w : World) (conn : Connection) (fromFd toFd : Int) (o : Stack) :
    let w' := (forwardData w conn fromFd toFd o).1
    w'.connections = w.connections ∧ w'.heap = w.heap ∧ w'.nextAddr = w.nextAddr ∧
      w'.stats.activeSessions = w.stats.activeSessions := by
  unfold forwardData
  dsimp only
  split
  all_goals (try split_ifs) <;> exact ⟨rfl, rfl, rfl, rfl⟩

/-- The `EPOLLIN` part keeps the invariant, and when it does not close the connection the object
    stays where it was. -/
theorem handleInput_wf {ev : EpollEvent} {o : Stack} (hw : Wf w) (ha : w.heap a = some c) :
    Wf (handleInput w ev o a c).1 ∧
      ((handleInput w ev o a c).2 = false → (handleInput w ev o a c).1.heap a = some c) := by
  have fwd : ∀ f t, Wf (forwardData w c f t o).1 ∧ (forwardData w c f t o).1.heap a = some c :=
    fun f t => by
      obtain ⟨hc, hh, hn, hs⟩ := forwardData_frame w c f t o
      exact ⟨hw.congr hc hh hn hs, by rw [hh]; exact ha⟩
  unfold handleInput
  dsimp only
  split_ifs
  all_goals first
    | exact ⟨closeConnection_wf (fwd _ _).1 (fwd _ _).2, nofun⟩
    | exact ⟨(fwd _ _).1, fun _ => (fwd _ _).2⟩
    | exact ⟨hw, fun _ => ha⟩

theorem inputThenHangup_wf {ev : EpollEvent} {o : Stack} (hw : Wf w) (ha : w.heap a = some c) :
    Wf (inputThenHangup w ev o a c) := by
  have hr : Wf (if ev.epollin then handleInput w ev o a c else (w, false)).1 ∧
      ((if ev.epollin then handleInput w ev o a c else (w, false)).2 = false →
        (if ev.epollin then handleInput w ev o a c else (w, false)).1.heap a = some c) := by
    split_ifs
    · exact handleInput_wf hw ha
    · exact ⟨hw, fun _ => ha⟩
  unfold inputThenHangup
  dsimp only
  generalize (if ev.epollin then handleInput w ev o a c else (w, false)) = r at hr ⊢
  split_ifs with h₁
  · exact hr.1
  · exact closeConnection_wf hr.1 (hr.2 (by simpa using h₁))
  · exact hr.1

theorem dispatch_wf {ev : EpollEvent} {o : Stack} (hw : Wf w) (ha : w.heap a = some c) :
    Wf (dispatch w ev o a c) := by
  unfold dispatch
  by_cases herr : ev.epollerr = true
  · rw [if_pos herr]
    exact closeConnection_wf hw ha
  rw [if_neg herr]
  by_cases hwait : ev.fd = c.backendFd ∧ c.backendConnected = false ∧ ev.epollout = false
  · rw [if_pos hwait]
    exact hw
  rw [if_neg hwait]
  exact inputThenHangup_wf (hw.replace ha _ (by split_ifs <;> exact ⟨rfl, rfl⟩))
    (Function.update_same ..)

/-- **Step.** From a state satisfying the invariant, an event whose `ff_accept` and `ff_socket`
    answers are not fd 0 is handled without fault, into a state satisfying it. -/
theorem handleEvent_wf (ev : EpollEvent) {o : Stack} (hw : Wf w) (h₁ : o.acceptFd ≠ 0)
    (h₂ : o.socketFd ≠ 0) : ∃ w', handleEvent w ev o = .ok w' ∧ Wf w' := by
  unfold handleEvent
  split_ifs
  · exact ⟨_, rfl, handleAccept_wf hw h₁ h₂⟩
  split
  · exact ⟨_, rfl, hw⟩
  next a ha =>
    obtain ⟨c, hc, -⟩ := hw.mapped _ _ ha
    simp only [hc]
    exact ⟨_, rfl, dispatch_wf hw hc⟩

/-- **Without fd 0 there is no use after free.** From any state satisfying the invariant (the
    state `main` sets up does, `wf_init`), a run of the loop in which the stack never hands out
    fd 0 from `ff_accept` or `ff_socket` handles every event without fault and ends in a state
    satisfying it: each `g_connections` entry names a live object holding the fd, and
    `active_sessions` is the number of live connections. -/
theorem runEvents_wf (hw : Wf w) (evs : List (EpollEvent × Stack))
    (h : ∀ e ∈ evs, e.2.acceptFd ≠ 0 ∧ e.2.socketFd ≠ 0) :
    ∃ w', runEvents w evs = .ok w' ∧ Wf w' := by
  induction evs generalizing w with
  | nil => exact ⟨w, rfl, hw⟩
  | cons e evs ih =>
    obtain ⟨ev, o⟩ := e
    obtain ⟨w₁, he, hw₁⟩ := handleEvent_wf ev hw (h _ (.head _)).1 (h _ (.head _)).2
    obtain ⟨w₂, hr, hw₂⟩ := ih hw₁ fun e he' => h e (.tail _ he')
    refine ⟨w₂, ?_, hw₂⟩
    show (handleEvent w ev o).bind _ = _
    rw [he]
    exact hr

/-- The loop `main` starts accepts a client on fd 4 and closes it on a hang-up, without fault. -/
theorem runEvents_wf_acceptHangup :
    let w₀ := World.init 3 0x0A000001
      (RealServerManager.new.addServer { id := 1, weight := 1, status := .up }) (· == 3)
    let evs : List (EpollEvent × Stack) :=
      [({ fd := 3, epollin := true }, { acceptFd := 4, socketFd := 5 }),
        ({ fd := 4, epollhup := true }, {})]
    Wf w₀ ∧ (∀ e ∈ evs, e.2.acceptFd ≠ 0 ∧ e.2.socketFd ≠ 0) ∧
      ∃ w', runEvents w₀ evs = .ok w' ∧ Wf w' :=
  ⟨wf_init _ _ _ _, by decide, runEvents_wf (wf_init _ _ _ _) _ (by decide)⟩

end Invariant

/-- **fd 0 outlives its connection.** Listening on fd 3 with one `UP` server: the stack accepts
    a client on fd 0 and gives the backend socket fd 5; an `EPOLLERR` on fd 0 closes the
    connection, but `close_connection` skips fd 0, so `g_connections[0]` still holds the deleted
    object, fd 0 stays open and registered, and `active_sessions` is 0. The next `EPOLLIN` on
    fd 0 dispatches to the deleted object. -/
theorem closeConnection_keeps_fd_zero :
    let w₀ : World := World.init 3 0x0A000001
      (RealServerManager.new.addServer { id := 1, weight := 1, status := .up }) (· == 3)
    let accept : EpollEvent × Stack :=
      ({ fd := 3, epollin := true }, { acceptFd := 0, peerIp := 0x0100007F, socketFd := 5 })
    let err : EpollEvent × Stack := ({ fd := 0, epollerr := true }, {})
    let input : EpollEvent × Stack := ({ fd := 0, epollin := true }, {})
    (runEvents w₀ [accept, err]).toOption.map (fun w =>
        (w.connections 0, w.heap 0, w.registered 0, w.isOpen 0, w.stats.activeSessions)) =
      some (some 0, none, true, true, 0) ∧
    faultOf (runEvents w₀ [accept, err, input]) = some (.useAfterFree 0 0) := by
  decide

/-! ## What `forward_data` relays -/

/-- The bytes the write loop delivers are a prefix of the bytes read. -/
theorem writeLoop_prefix : ∀ (ws : List WriteResult) (bytes : List UInt8),
    (writeLoop ws bytes).1 <+: bytes
  | _, [] => by simp [writeLoop]
  | [], _ :: _ => by simp [writeLoop]
  | .wrote m :: ws, b :: bs => by
    have ih := writeLoop_prefix ws ((b :: bs).drop m)
    simp only [writeLoop]
    simpa only [List.take_append_drop] using
      (List.prefix_append_right_inj ((b :: bs).take m)).mpr ih
  | .again :: _, _ :: _ => by simp [writeLoop]
  | .error :: _, _ :: _ => by simp [writeLoop]

/-- When every write takes bytes, the write loop delivers all of them and succeeds. -/
theorem writeLoop_complete : ∀ (ws : List WriteResult) (bytes : List UInt8),
    (∀ r ∈ ws, ∃ n, r = .wrote n) → writeLoop ws bytes = (bytes, true)
  | _, [], _ => by simp [writeLoop]
  | [], _ :: _, _ => rfl
  | .wrote m :: ws, b :: bs, h => by
    simp only [writeLoop, writeLoop_complete ws _ fun r hr => h r (.tail _ hr),
      List.take_append_drop]
  | .again :: _, _ :: _, h => nomatch h _ (.head _)
  | .error :: _, _ :: _, h => nomatch h _ (.head _)

/-- **What `forward_data` relays.** On a read of `bytes` from `from_fd`, the bytes written to
    `to_fd` are a prefix of them, and all of them when no write answers `EAGAIN` or an error; no
    other fd's log changes. -/
theorem forwardData_relays (w : World) (conn : Connection) (fromFd toFd : Int) (o : Stack)
    (bytes : List UInt8) (hr : o.read = .data bytes) :
    let w' := (forwardData w conn fromFd toFd o).1
    w'.received fromFd = w.received fromFd ++ bytes ∧
      (∀ fd, fd ≠ fromFd → w'.received fd = w.received fd) ∧
      (∀ fd, fd ≠ toFd → w'.sent fd = w.sent fd) ∧
      ∃ p, p <+: bytes ∧ w'.sent toFd = w.sent toFd ++ p ∧
        ((∀ r ∈ o.writes, ∃ n, r = .wrote n) → p = bytes) := by
  have key : ∀ w' : World, w'.received = Function.update w.received fromFd
      (w.received fromFd ++ bytes) → w'.sent = Function.update w.sent toFd
      (w.sent toFd ++ (writeLoop o.writes bytes).1) →
      w'.received fromFd = w.received fromFd ++ bytes ∧
      (∀ fd, fd ≠ fromFd → w'.received fd = w.received fd) ∧
      (∀ fd, fd ≠ toFd → w'.sent fd = w.sent fd) ∧
      ∃ p, p <+: bytes ∧ w'.sent toFd = w.sent toFd ++ p ∧
        ((∀ r ∈ o.writes, ∃ n, r = .wrote n) → p = bytes) := by
    intro w' hrecv hsent
    refine ⟨by rw [hrecv, Function.update_same], fun fd h => by rw [hrecv,
      Function.update_noteq h], fun fd h => by rw [hsent, Function.update_noteq h],
      _, writeLoop_prefix _ _, by rw [hsent, Function.update_same], fun h => ?_⟩
    rw [writeLoop_complete _ _ h]
  unfold forwardData
  rw [hr]
  dsimp only
  split_ifs <;> exact key _ rfl rfl

/-- `PING` read from fd 4, of which fd 5 takes two bytes before `EAGAIN`. -/
theorem forwardData_relays_ping :
    let w := World.init 3 0x0A000001 RealServerManager.new (· == 3)
    let o : Stack := { read := .data [80, 73, 78, 71], writes := [.wrote 2, .again] }
    let w' := (forwardData w ⟨4, 5, 1, true, true⟩ 4 5 o).1
    o.read = .data [80, 73, 78, 71] ∧ w'.received 4 = w.received 4 ++ [80, 73, 78, 71] ∧
      (∀ fd, fd ≠ 4 → w'.received fd = w.received fd) ∧
      (∀ fd, fd ≠ 5 → w'.sent fd = w.sent fd) ∧
      ∃ p, p <+: [80, 73, 78, 71] ∧ w'.sent 5 = w.sent 5 ++ p ∧
        ((∀ r ∈ o.writes, ∃ n, r = .wrote n) → p = [80, 73, 78, 71]) :=
  ⟨rfl, forwardData_relays _ _ _ _ _ _ rfl⟩

/-- **Unwritten bytes are dropped.** A client on fd 4 relayed to a backend on fd 5: the client
    sends `PING`, the backend socket takes two bytes and then answers `EAGAIN`; `forward_data`
    breaks out of its loop and returns `true`, discarding `NG`. The connection stays up and the
    next byte `X` is relayed: the backend has received `PIX` of the client's `PINGX`. -/
theorem forwardData_drops_unwritten :
    let w₀ : World := World.init 3 0x0A000001
      (RealServerManager.new.addServer { id := 1, weight := 1, status := .up }) (· == 3)
    let accept : EpollEvent × Stack :=
      ({ fd := 3, epollin := true }, { acceptFd := 4, peerIp := 0x0100007F, socketFd := 5 })
    let connected : EpollEvent × Stack := ({ fd := 5, epollout := true }, {})
    let ping : EpollEvent × Stack :=
      ({ fd := 4, epollin := true }, { read := .data [80, 73, 78, 71], writes := [.wrote 2, .again] })
    let more : EpollEvent × Stack := ({ fd := 4, epollin := true }, { read := .data [88] })
    (runEvents w₀ [accept, connected, ping, more]).toOption.map (fun w =>
        (w.received 4, w.sent 5, (w.connections 4).isSome)) =
      some ([80, 73, 78, 71, 88], [80, 73, 88], true) := by
  decide

/-! ## What the loop only reads -/

/-- `w'` has the listening socket, the VIP and the registry of `w`: `handle_event` only reads
    them. -/
structure SameSetup (w w' : World) : Prop where
  listenFd : w'.listenFd = w.listenFd
  vip : w'.vip = w.vip
  registry : w'.registry = w.registry

section Setup

variable {w : World} {ev : EpollEvent} {o : Stack} {a : Nat} {c : Connection}

theorem SameSetup.trans {w₁ w₂ w₃ : World} (h₁ : SameSetup w₁ w₂) (h₂ : SameSetup w₂ w₃) :
    SameSetup w₁ w₃ :=
  ⟨h₂.listenFd.trans h₁.listenFd, h₂.vip.trans h₁.vip, h₂.registry.trans h₁.registry⟩

end Setup

/-! ## Bytes stay within their connection -/

/-- From `w` to `w'`, the bytes written changed at most by one relay over `c` of a read from
    `fd`: a prefix of the bytes read, appended to the other end of `c`. -/
def RelayOn (c : Connection) (fd : Int) (o : Stack) (w w' : World) : Prop :=
  w'.sent = w.sent ∨ ∃ toFd bytes, (fd = c.clientFd ∧ toFd = c.backendFd ∨
    fd = c.backendFd ∧ toFd = c.clientFd) ∧ o.read = .data bytes ∧
      w'.sent = Function.update w.sent toFd (w.sent toFd ++ (writeLoop o.writes bytes).1)

section Relay

variable {w : World} {ev : EpollEvent} {o : Stack} {a : Nat} {c : Connection}

theorem RelayOn.sent_eq {w₁ w₂ : World} (h : RelayOn c ev.fd o w w₁) (he : w₂.sent = w₁.sent) :
    RelayOn c ev.fd o w w₂ := by
  unfold RelayOn at h ⊢
  rwa [he]

theorem closeConnection_sent : (closeConnection w a c).sent = w.sent := by
  unfold closeConnection
  split_ifs <;> rfl

theorem handleAccept_sent : (handleAccept w o).sent = w.sent := by
  unfold handleAccept
  dsimp only
  split
  · rfl
  · split
    · rfl
    · split_ifs <;> rfl

theorem forwardData_sent (fromFd toFd : Int) :
    (forwardData w c fromFd toFd o).1.sent = w.sent ∨ ∃ bytes, o.read = .data bytes ∧
      (forwardData w c fromFd toFd o).1.sent =
        Function.update w.sent toFd (w.sent toFd ++ (writeLoop o.writes bytes).1) := by
  unfold forwardData
  split
  · exact .inl rfl
  · exact .inl rfl
  · exact .inl rfl
  · next bytes hr => exact .inr ⟨bytes, hr, by dsimp only; split_ifs <;> rfl⟩

theorem handleInput_relay : RelayOn c ev.fd o w (handleInput w ev o a c).1 := by
  have fwd : ∀ {fromFd toFd}, (ev.fd = c.clientFd ∧ toFd = c.backendFd ∨
      ev.fd = c.backendFd ∧ toFd = c.clientFd) → RelayOn c ev.fd o w (forwardData w c fromFd toFd o).1 :=
    fun hfd => (forwardData_sent _ _).imp_right fun ⟨bytes, hr, hs⟩ => ⟨_, bytes, hfd, hr, hs⟩
  unfold handleInput
  dsimp only
  split_ifs with h₁ _ _ h₂ h₃
  · exact (fwd (.inl ⟨h₁, rfl⟩)).sent_eq closeConnection_sent
  · exact fwd (.inl ⟨h₁, rfl⟩)
  · exact .inl rfl
  · exact fwd (.inr ⟨h₂, rfl⟩)
  · exact (fwd (.inr ⟨h₂, rfl⟩)).sent_eq closeConnection_sent
  · exact .inl rfl

theorem inputThenHangup_relay : RelayOn c ev.fd o w (inputThenHangup w ev o a c) := by
  have hr : RelayOn c ev.fd o w (if ev.epollin then handleInput w ev o a c else (w, false)).1 := by
    split_ifs
    exacts [handleInput_relay, .inl rfl]
  unfold inputThenHangup
  dsimp only
  generalize (if ev.epollin then handleInput w ev o a c else (w, false)) = r at hr ⊢
  split_ifs
  exacts [hr, hr.sent_eq closeConnection_sent, hr]

theorem dispatch_relay : RelayOn c ev.fd o w (dispatch w ev o a c) := by
  unfold dispatch
  dsimp only
  split_ifs
  · exact .inl closeConnection_sent
  · exact .inl rfl
  · exact inputThenHangup_relay (w := { w with heap := _ })
  · exact inputThenHangup_relay (w := { w with heap := _ })

/-- **Bytes stay within their connection.** When `handle_event` handles an event, a descriptor
    whose written bytes change is the other end of the live connection the event's descriptor
    belongs to, and what it gets is a prefix of the bytes just read from that descriptor, all of
    them when every write takes bytes. Accepts, errors, hang-ups and closes write nothing. -/
theorem handleEvent_sent {w' : World} (h : handleEvent w ev o = .ok w') {fd : Int}
    (hfd : w'.sent fd ≠ w.sent fd) :
    ∃ a c bytes, w.connections ev.fd = some a ∧ w.heap a = some c ∧ o.read = .data bytes ∧
      (ev.fd = c.clientFd ∧ fd = c.backendFd ∨ ev.fd = c.backendFd ∧ fd = c.clientFd) ∧
      ∃ p, p <+: bytes ∧ w'.sent fd = w.sent fd ++ p ∧
        ((∀ r ∈ o.writes, ∃ n, r = .wrote n) → p = bytes) := by
  unfold handleEvent at h
  split_ifs at h
  · cases h
    exact absurd (congrFun handleAccept_sent fd) hfd
  split at h
  · cases h
    exact absurd rfl hfd
  next a ha =>
    split at h
    · cases h
    next c hc =>
      cases h
      rcases dispatch_relay (w := w) (a := a) with hs | ⟨toFd, bytes, hends, hr, hs⟩
      · exact absurd (congrFun hs fd) hfd
      by_cases hto : fd = toFd
      · subst hto
        refine ⟨a, c, bytes, ha, hc, hr, hends, _, writeLoop_prefix o.writes bytes, ?_, fun hw => ?_⟩
        · rw [hs, Function.update_same]
        · exact congrArg Prod.fst (writeLoop_complete _ _ hw)
      · rw [hs, Function.update_noteq hto] at hfd
        exact absurd rfl hfd

/-- A live connection between client fd 4 and backend fd 5: `PING` read from fd 4 reaches fd 5
    as `PI` before `EAGAIN`. -/
theorem handleEvent_sent_ping :
    let conn : Connection := ⟨4, 5, 1, true, true⟩
    let w : World := { World.init 3 0x0A000001 RealServerManager.new (· == 3) with
      connections := fun fd => if fd = 4 ∨ fd = 5 then some 0 else none
      heap := fun a => if a = 0 then some conn else none
      nextAddr := 1 }
    let ev : EpollEvent := { fd := 4, epollin := true }
    let o : Stack := { read := .data [80, 73, 78, 71], writes := [.wrote 2, .again] }
    let w' := dispatch w ev o 0 conn
    handleEvent w ev o = .ok w' ∧ w'.sent 5 ≠ w.sent 5 ∧
      ∃ a c bytes, w.connections ev.fd = some a ∧ w.heap a = some c ∧ o.read = .data bytes ∧
        (ev.fd = c.clientFd ∧ 5 = c.backendFd ∨ ev.fd = c.backendFd ∧ 5 = c.clientFd) ∧
        ∃ p, p <+: bytes ∧ w'.sent 5 = w.sent 5 ++ p ∧
          ((∀ r ∈ o.writes, ∃ n, r = .wrote n) → p = bytes) := by
  intro conn w ev o w'
  have h : handleEvent w ev o = .ok w' := rfl
  have hfd : w'.sent 5 ≠ w.sent 5 := by decide
  exact ⟨h, hfd, handleEvent_sent h hfd⟩

end Relay

/-! ## No descriptor leaks -/

/-- Every open descriptor was open when the loop started (`base`) or is mapped in
    `g_connections`. -/
def NoLeak (base : Int → Bool) (w : World) : Prop :=
  ∀ fd, w.isOpen fd = true → base fd = true ∨ (w.connections fd).isSome

section Leak

variable {base : Int → Bool} {w : World} {ev : EpollEvent} {o : Stack} {a : Nat} {c : Connection}

/-- A step keeps it when each descriptor it leaves open was open before with its entry unchanged,
    or is mapped. -/
theorem NoLeak.mono {w' : World} (h : NoLeak base w)
    (ho : ∀ fd, w'.isOpen fd = true →
      (w.isOpen fd = true ∧ w'.connections fd = w.connections fd) ∨ (w'.connections fd).isSome) :
    NoLeak base w' := by
  intro fd hfd
  rcases ho fd hfd with ⟨hw, hc⟩ | hs
  · rw [hc]
    exact h fd hw
  · exact .inr hs

theorem NoLeak.congr {w' : World} (h : NoLeak base w) (ho : w'.isOpen = w.isOpen)
    (hc : w'.connections = w.connections) : NoLeak base w' :=
  h.mono fun fd hfd => .inl ⟨ho ▸ hfd, congrFun hc fd⟩

theorem NoLeak.dropFd (h : NoLeak base w) (fd : Int) : NoLeak base (w.dropFd fd) :=
  h.mono fun fd' hfd' => by
    by_cases he : fd' = fd
    · subst he
      simp [World.dropFd, World.close] at hfd'
    · simp only [World.dropFd, World.close, Function.update_noteq he] at hfd'
      exact .inl ⟨hfd', Function.update_noteq he _ _⟩

theorem closeConnection_noLeak (h : NoLeak base w) : NoLeak base (closeConnection w a c) := by
  unfold closeConnection
  split_ifs
  · exact ((h.dropFd _).dropFd _).congr rfl rfl
  · exact (h.dropFd _).congr rfl rfl
  · exact (h.dropFd _).congr rfl rfl
  · exact h.congr rfl rfl

theorem handleAccept_noLeak (h : NoLeak base w) : NoLeak base (handleAccept w o) := by
  rcases handleAccept_cases w o with ⟨hc, -, -, -, ho⟩ | ⟨-, -, -, hc, -, -, -, ho⟩
  · exact h.mono fun fd hfd => .inl ⟨ho fd hfd, congrFun hc fd⟩
  refine h.mono fun fd hfd => ?_
  rw [hc]
  rw [ho] at hfd
  by_cases hb : fd = o.socketFd
  · subst hb
    exact .inr (by simp only [Function.update_same, Option.isSome_some])
  by_cases ha : fd = o.acceptFd
  · subst ha
    exact .inr (by simp only [Function.update_noteq hb, Function.update_same, Option.isSome_some])
  · simp only [Function.update_noteq ha, Function.update_noteq hb] at hfd
    exact .inl ⟨hfd, by simp only [Function.update_noteq ha, Function.update_noteq hb]⟩

theorem forwardData_noLeak (h : NoLeak base w) (fromFd toFd : Int) :
    NoLeak base (forwardData w c fromFd toFd o).1 := by
  unfold forwardData
  dsimp only
  split
  all_goals (try split_ifs) <;> exact h.congr rfl rfl

theorem handleInput_noLeak (h : NoLeak base w) : NoLeak base (handleInput w ev o a c).1 := by
  unfold handleInput
  dsimp only
  split_ifs
  all_goals first
    | exact h
    | exact forwardData_noLeak h _ _
    | exact closeConnection_noLeak (forwardData_noLeak h _ _)

theorem inputThenHangup_noLeak (h : NoLeak base w) : NoLeak base (inputThenHangup w ev o a c) := by
  have hr : NoLeak base (if ev.epollin then handleInput w ev o a c else (w, false)).1 := by
    split_ifs
    exacts [handleInput_noLeak h, h]
  unfold inputThenHangup
  dsimp only
  generalize (if ev.epollin then handleInput w ev o a c else (w, false)) = r at hr ⊢
  split_ifs
  exacts [hr, closeConnection_noLeak hr, hr]

theorem dispatch_noLeak (h : NoLeak base w) : NoLeak base (dispatch w ev o a c) := by
  unfold dispatch
  dsimp only
  split_ifs
  · exact closeConnection_noLeak h
  · exact h
  all_goals exact inputThenHangup_noLeak (h.congr rfl rfl)

theorem handleEvent_noLeak {w' : World} (h : NoLeak base w) (he : handleEvent w ev o = .ok w') :
    NoLeak base w' := by
  unfold handleEvent at he
  split_ifs at he
  · cases he
    exact handleAccept_noLeak h
  · split at he
    · cases he
      exact h
    · split at he
      · cases he
      · cases he
        exact dispatch_noLeak h

theorem runEvents_noLeak_of : ∀ {w w' : World} (evs : List (EpollEvent × Stack)),
    NoLeak base w → runEvents w evs = .ok w' → NoLeak base w'
  | _, _, [], h, he => by cases he; exact h
  | w, _, (ev, o) :: evs, h, he => by
    cases h₁ : handleEvent w ev o with
    | error f => rw [runEvents, h₁] at he; cases he
    | ok w₁ =>
      simp only [runEvents, h₁] at he
      exact runEvents_noLeak_of evs (handleEvent_noLeak h h₁) he

end Leak

/-- **No descriptor leaks.** Over every run of the loop from the state `main` sets up, every open
    descriptor was open at the start or is mapped in `g_connections`: a failed accept closes the
    descriptors it was handed, and `close_connection` closes every descriptor it unmaps (fd 0,
    which it neither closes nor unmaps, stays mapped). -/
theorem runEvents_noLeak (listenFd : Int) (vip : IPv4Addr) (registry : RealServerManager)
    (isOpen : Int → Bool) (evs : List (EpollEvent × Stack)) {w : World}
    (h : runEvents (World.init listenFd vip registry isOpen) evs = .ok w) :
    ∀ fd, w.isOpen fd = true → isOpen fd = true ∨ (w.connections fd).isSome :=
  runEvents_noLeak_of evs (fun _ hfd => .inl hfd) h

/-- With no server registered, the client accepted on fd 7 is closed again. -/
theorem runEvents_noLeak_refused :
    let w₀ := World.init 3 0x0A000001 RealServerManager.new (· == 3)
    let o : Stack := { acceptFd := 7, socketFd := 8 }
    runEvents w₀ [({ fd := 3, epollin := true }, o)] = .ok (handleAccept w₀ o) ∧
      ∀ fd, (handleAccept w₀ o).isOpen fd = true →
        (fd == 3) = true ∨ ((handleAccept w₀ o).connections fd).isSome :=
  have h : runEvents (World.init 3 0x0A000001 RealServerManager.new (· == 3))
      [({ fd := 3, epollin := true }, { acceptFd := 7, socketFd := 8 })] =
      .ok (handleAccept (World.init 3 0x0A000001 RealServerManager.new (· == 3))
        { acceptFd := 7, socketFd := 8 }) := rfl
  ⟨h, runEvents_noLeak _ _ _ _ _ h⟩

end Proxy

end L4lb
