import L4lb.Session
import L4lb.Protocol
import L4lb.Checksum

/-!
# `L4lb.Balancer` — `LoadBalancer::process_packet` and the paths it dispatches to

`process_packet` is the data plane of the layer-4 balancer: it counts the frame, and hands ARP
frames to `handle_arp`, IPv4 frames to `handle_ipv4`, and drops the rest. `handle_ipv4` parses
the frame, answers pings to the VIP (`handle_icmp`: the echo handler rewrites the ICMP message,
then the addresses are swapped and the IP header checksum recomputed), ignores traffic for
other addresses, and balances TCP and UDP flows to the VIP (`handle_loadbalance`, modelled in
`L4lb.Session` as `handleLoadbalance`).

The frame is the list of its `len` bytes, edited in place and returned with the result. Code the
header calls that the repository does not contain (`protocol/arp.h`, `protocol/icmp.h`, the NAT
and DR forwarders) is a parameter: `Handlers` for the ARP and echo handlers, `Answers` for what
the forwarder and the stack answer while one packet is balanced. The parser reads the frame on a
little-endian host (`L4lb.Protocol`), and so does the checksum update here.

## Contents
- The model: `processPacket`, `handleArp`, `handleIpv4`, `handleIcmp`, `balance`, and runs of
  packets and control-plane calls (`run`).
- **The counters add up** (`run_counters`): over every run of a running balancer, the counters
  move by a tally (`Tally`) in which `rx` is the number of packets, `tx` the number of calls that
  returned `true`, and `tx + dropped ≤ rx`, `forwarded ≤ tx ≤ forwarded + arp + icmp`,
  `forwarded ≤ tcp + udp`, `nat ≤ forwarded`, `arp + icmp + tcp + udp ≤ rx` (`Tally.Sound`).
- **Ping replies are well formed** (`processPacket_echoReply`): when `process_packet` answers an
  echo request to the VIP, the frame it leaves has its MAC and IP addresses exchanged, every other
  header byte unchanged, the handler's ICMP bytes after the header, and an IPv4 header checksum
  that verifies (`EchoReply`).

What runs of the balancer do to the session table is `L4lb.Flows`.
-/

namespace L4lb

open ProtocolParser

/-- `PacketMeta::to_five_tuple()`. -/
def PacketMeta.toFiveTuple (m : PacketMeta) : FiveTuple :=
  ⟨m.srcIp, m.dstIp, m.srcPort, m.dstPort, m.ipProtocol⟩

/-- The per-protocol counters of `LoadBalancer::stats_`; its other counters are the
    `Statistics` of the balancer's `LbState`. -/
structure ProtocolStats where
  arpPackets : UInt64 := 0
  icmpPackets : UInt64 := 0
  tcpPackets : UInt64 := 0
  udpPackets : UInt64 := 0
deriving DecidableEq, Repr

/-- The code `loadbalancer.h` calls that the repository does not contain (`protocol/arp.h`,
    `protocol/icmp.h`). Each handler works on the frame in place. -/
structure Handlers where
  /-- `sizeof(ArpHeader)`. -/
  arpHeaderSize : Nat
  /-- `ArpHandler::handle(eth, arp, local_ip, local_mac)`: whether a reply is to be sent, and the
      frame after the call. -/
  arp : List UInt8 → IPv4Addr → MacAddr → Bool × List UInt8
  /-- `IcmpHandler::handle_echo_request(icmp, icmp_len)` on the bytes from `l4_offset` on:
      whether it answered, and those bytes after the call. -/
  echoRequest : List UInt8 → Bool × List UInt8

/-- What the rest of the system answers while `handle_loadbalance` runs for one packet: the two
    `forwarder_->forward` calls and the frame they leave (`forward/nat_forwarder.h` and
    `forward/dr_forwarder.h` are not in the repository), the padding of the `FiveTuple` that
    `meta.to_five_tuple()` builds on the stack, and the clock readings of the session calls. -/
structure Answers where
  forward₁ : Bool
  forward₂ : Bool
  forwardedFrame : List UInt8
  padding : UInt8 × UInt8 × UInt8
  now₁ : UInt64
  now₂ : UInt64

/-- `LoadBalancer`: `running_`, `local_ip_`, `local_mac_`, the session and server singletons
    with the counters `handle_loadbalance` updates (`lb`), and the per-protocol counters.
    `forwarder_` is outside the repository; its answers come with each packet. -/
structure Balancer where
  running : Bool
  localIp : IPv4Addr
  localMac : MacAddr
  lb : LbState
  protocolStats : ProtocolStats

namespace Balancer

/-- `stop()`. -/
def stop (b : Balancer) : Balancer := { b with running := false }

/-- The counters `get_stats()` returns. -/
def counters (b : Balancer) : Statistics × ProtocolStats := (b.lb.stats, b.protocolStats)

/-- `++stats_.rx_packets`. -/
def countRx (b : Balancer) : Balancer :=
  { b with lb := { b.lb with stats := { b.lb.stats with rxPackets := b.lb.stats.rxPackets + 1 } } }

/-- `++stats_.tx_packets`. -/
def countTx (b : Balancer) : Balancer :=
  { b with lb := { b.lb with stats := { b.lb.stats with txPackets := b.lb.stats.txPackets + 1 } } }

/-- `++stats_.dropped_packets`. -/
def countDropped (b : Balancer) : Balancer :=
  { b with lb := { b.lb with stats :=
      { b.lb.stats with droppedPackets := b.lb.stats.droppedPackets + 1 } } }

/-- `++stats_.arp_packets`. -/
def countArp (b : Balancer) : Balancer :=
  { b with protocolStats := { b.protocolStats with arpPackets := b.protocolStats.arpPackets + 1 } }

/-- `++stats_.icmp_packets`. -/
def countIcmp (b : Balancer) : Balancer :=
  { b with protocolStats := { b.protocolStats with icmpPackets := b.protocolStats.icmpPackets + 1 } }

/-- `++stats_.tcp_packets`. -/
def countTcp (b : Balancer) : Balancer :=
  { b with protocolStats := { b.protocolStats with tcpPackets := b.protocolStats.tcpPackets + 1 } }

/-- `++stats_.udp_packets`. -/
def countUdp (b : Balancer) : Balancer :=
  { b with protocolStats := { b.protocolStats with udpPackets := b.protocolStats.udpPackets + 1 } }

end Balancer

/-! ## The frame -/

/-- The frame's bytes as the parser reads them. -/
def frameBytes (frame : List UInt8) : Nat → UInt8 := fun i => frame.getD i 0

/-- `EthernetHeader::get_ether_type()`. -/
def etherType (frame : List UInt8) : UInt16 := be16 (frameBytes frame) 12

/-- `EtherType::ARP`. -/
def etherTypeArp : UInt16 := 0x0806

/-- `EthernetHeader::swap_mac()`: exchange the destination and source addresses. -/
def swapMac (frame : List UInt8) : List UInt8 :=
  (frame.drop 6).take 6 ++ frame.take 6 ++ frame.drop 12

/-- `IPv4Header::swap_ip()` on the header at offset `l3`: exchange `src_ip` and `dst_ip`. -/
def swapIp (l3 : Nat) (frame : List UInt8) : List UInt8 :=
  frame.take (l3 + 12) ++ (frame.drop (l3 + 16)).take 4 ++ (frame.drop (l3 + 12)).take 4 ++
    frame.drop (l3 + 20)

/-- `IpChecksum::update(ip)` on the header at offset `l3`. -/
def updateChecksum (l3 : Nat) (frame : List UInt8) : List UInt8 :=
  frame.take l3 ++ IpChecksum.update .little (frame.drop l3)

/-! ## The packet path -/

namespace Balancer

/-- `handle_arp(eth, data, len)`. -/
def handleArp (h : Handlers) (b : Balancer) (frame : List UInt8) : Balancer × Bool × List UInt8 :=
  if frame.length < ethHeaderSize + h.arpHeaderSize then (b, false, frame)
  else
    match h.arp frame b.localIp b.localMac with
    | (true, frame) => (b.countArp.countTx, true, frame)
    | (false, frame) => (b.countArp, false, frame)

/-- `handle_icmp(eth, ip, data, len, meta)`: when the echo handler answers, swap the addresses,
    recompute the IP header checksum, and send. -/
def handleIcmp (h : Handlers) (b : Balancer) (frame : List UInt8) (meta : PacketMeta) :
    Balancer × Bool × List UInt8 :=
  let l4 := meta.l4Offset.toNat
  let l3 := meta.l3Offset.toNat
  match h.echoRequest (frame.drop l4) with
  | (true, icmp) =>
    (b.countIcmp.countTx, true, updateChecksum l3 (swapIp l3 (swapMac (frame.take l4 ++ icmp))))
  | (false, icmp) => (b.countIcmp, false, frame.take l4 ++ icmp)

/-- `handle_loadbalance(eth, data, len, meta, mbuf)`: `handleLoadbalance` on the singletons and
    `stats_` for `meta.to_five_tuple()`. -/
def balance (b : Balancer) (frame : List UInt8) (meta : PacketMeta) (a : Answers) :
    Balancer × Bool × List UInt8 :=
  let r := handleLoadbalance b.lb ⟨meta.toFiveTuple, a.padding⟩ frame.length.toUInt64 a.forward₁
    a.forward₂ a.now₁ a.now₂
  ({ b with lb := r.1 }, r.2, a.forwardedFrame)

/-- `handle_ipv4(eth, data, len, mbuf)`. `ip->protocol` is the byte at `l3_offset + 9`. The
    `PacketMeta` on the stack starts uninitialised; for a frame `parse` accepts, it writes every
    field read here, so the model starts it at zero. -/
def handleIpv4 (h : Handlers) (b : Balancer) (frame : List UInt8) (a : Answers) :
    Balancer × Bool × List UInt8 :=
  let (ok, meta) := parse (frameBytes frame) frame.length.toUInt64 {}
  if !ok then (b.countDropped, false, frame)
  else
    let protocol := frameBytes frame (meta.l3Offset.toNat + 9)
    if protocol = 1 ∧ meta.dstIp = b.localIp then handleIcmp h b frame meta
    else if meta.dstIp ≠ b.localIp then (b, false, frame)
    else if protocol = 6 then b.countTcp.balance frame meta a
    else if protocol = 17 then b.countUdp.balance frame meta a
    else (b, false, frame)

/-- `process_packet(mbuf, data, len)` on the `len` bytes of `data`: the balancer after it, what it
    returns, and the frame after it. -/
def processPacket (h : Handlers) (b : Balancer) (frame : List UInt8) (a : Answers) :
    Balancer × Bool × List UInt8 :=
  if !b.running then (b, false, frame)
  else
    let b := b.countRx
    if frame.length < ethHeaderSize then (b.countDropped, false, frame)
    else if etherType frame = etherTypeArp then b.handleArp h frame
    else if etherType frame = etherTypeIPv4 then b.handleIpv4 h frame a
    else (b.countDropped, false, frame)

end Balancer

/-- An input of the balancer: a frame with the answers it gets, or a control-plane call on the
    server registry. -/
inductive Input
  | packet (frame : List UInt8) (a : Answers)
  | control (op : RegistryOp)

namespace Balancer

/-- The balancer after a run of inputs, and what each `process_packet` call returned. -/
def run (h : Handlers) : Balancer → List Input → Balancer × List Bool
  | b, [] => (b, [])
  | b, .packet frame a :: ins =>
    let r := b.processPacket h frame a
    let rest := run h r.1 ins
    (rest.1, r.2.1 :: rest.2)
  | b, .control op :: ins => run h { b with lb := { b.lb with registry := op.apply b.lb.registry } } ins

end Balancer

/-! ## Tallies of counters -/

/-- How much a run added to each counter that `process_packet` touches. -/
structure Tally where
  rx : Nat := 0
  tx : Nat := 0
  dropped : Nat := 0
  forwarded : Nat := 0
  nat : Nat := 0
  arp : Nat := 0
  icmp : Nat := 0
  tcp : Nat := 0
  udp : Nat := 0
deriving DecidableEq, Repr

namespace Tally

/-- Field-wise sum. -/
@[simps]
def add (d e : Tally) : Tally :=
  ⟨d.rx + e.rx, d.tx + e.tx, d.dropped + e.dropped, d.forwarded + e.forwarded, d.nat + e.nat,
    d.arp + e.arp, d.icmp + e.icmp, d.tcp + e.tcp, d.udp + e.udp⟩

instance : Add Tally := ⟨add⟩

theorem add_def (d e : Tally) : d + e = d.add e := rfl

/-- The relations between the counts that every packet keeps. -/
structure Sound (d : Tally) : Prop where
  tx_add_dropped : d.tx + d.dropped ≤ d.rx
  classified : d.arp + d.icmp + d.tcp + d.udp ≤ d.rx
  forwarded_le_tx : d.forwarded ≤ d.tx
  tx_le : d.tx ≤ d.forwarded + d.arp + d.icmp
  forwarded_le : d.forwarded ≤ d.tcp + d.udp
  nat_le : d.nat ≤ d.forwarded

instance (d : Tally) : Decidable d.Sound :=
  decidable_of_iff (d.tx + d.dropped ≤ d.rx ∧ d.arp + d.icmp + d.tcp + d.udp ≤ d.rx ∧
      d.forwarded ≤ d.tx ∧ d.tx ≤ d.forwarded + d.arp + d.icmp ∧ d.forwarded ≤ d.tcp + d.udp ∧
      d.nat ≤ d.forwarded)
    ⟨fun ⟨h1, h2, h3, h4, h5, h6⟩ => ⟨h1, h2, h3, h4, h5, h6⟩,
      fun ⟨h1, h2, h3, h4, h5, h6⟩ => ⟨h1, h2, h3, h4, h5, h6⟩⟩

theorem Sound.add {d e : Tally} (hd : d.Sound) (he : e.Sound) : (d + e).Sound := by
  obtain ⟨d1, d2, d3, d4, d5, d6⟩ := hd
  obtain ⟨e1, e2, e3, e4, e5, e6⟩ := he
  constructor <;> simp only [add_def, add_rx, add_tx, add_dropped, add_forwarded, add_nat, add_arp,
    add_icmp, add_tcp, add_udp] <;> omega

/-- The `Statistics` counters with the tally added, modulo 2^64. -/
def addStats (d : Tally) (s : Statistics) : Statistics :=
  { s with
    rxPackets := s.rxPackets + d.rx.toUInt64
    txPackets := s.txPackets + d.tx.toUInt64
    droppedPackets := s.droppedPackets + d.dropped.toUInt64
    forwardedPackets := s.forwardedPackets + d.forwarded.toUInt64
    natTranslations := s.natTranslations + d.nat.toUInt64 }

/-- The per-protocol counters with the tally added, modulo 2^64. -/
def addProtocol (d : Tally) (p : ProtocolStats) : ProtocolStats :=
  ⟨p.arpPackets + d.arp.toUInt64, p.icmpPackets + d.icmp.toUInt64, p.tcpPackets + d.tcp.toUInt64,
    p.udpPackets + d.udp.toUInt64⟩

/-- All the counters `process_packet` touches, with the tally added. -/
def addTo (d : Tally) (c : Statistics × ProtocolStats) : Statistics × ProtocolStats :=
  (d.addStats c.1, d.addProtocol c.2)

theorem toUInt64_add (a b : Nat) : (a + b).toUInt64 = a.toUInt64 + b.toUInt64 := by
  apply UInt64.toNat.inj
  simp only [UInt64.add_def, Nat.toUInt64, UInt64.ofNat, UInt64.toNat, BitVec.toNat_add,
    BitVec.toNat_ofNat, UInt64.toBitVec_ofNat]
  omega

theorem addTo_addTo (d e : Tally) (c : Statistics × ProtocolStats) :
    e.addTo (d.addTo c) = (d + e).addTo c := by
  simp only [addTo, addStats, addProtocol, add_def, add_rx, add_tx, add_dropped, add_forwarded,
    add_nat, add_arp, add_icmp, add_tcp, add_udp, toUInt64_add, add_assoc]

@[simp] theorem toUInt64_zero : (0 : Nat).toUInt64 = 0 := rfl

@[simp] theorem toUInt64_one : (1 : Nat).toUInt64 = 1 := rfl

end Tally

/-! ## What `handle_loadbalance` can do -/

/-- A new flow: no server (nothing but a drop), or a session for the server `select_server`
    chose, forwarded or dropped. -/
theorem LbState.newFlow_cases (lb : LbState) (sm : SessionManager) (t : TupleObject) (fwd : Bool)
    (now : UInt64) :
    let r := lb.newFlow sm t fwd now
    r.1.registry = lb.registry ∧
      ((r.1.sessions = sm ∧ r.1.stats = Tally.addStats { dropped := 1 } lb.stats ∧ r.2 = false) ∨
        ∃ rs, lb.registry.selectServer t = some rs ∧ r.1.sessions = sm.create t.tuple rs.id now ∧
          ((r.1.stats = Tally.addStats { forwarded := 1, nat := 1, tx := 1 } lb.stats ∧ r.2 = true) ∨
            (r.1.stats = Tally.addStats { dropped := 1 } lb.stats ∧ r.2 = false))) := by
  unfold LbState.newFlow
  split
  · exact ⟨rfl, .inl ⟨rfl, by simp [Tally.addStats], rfl⟩⟩
  · next rs hrs =>
    refine ⟨by split <;> rfl, .inr ⟨rs, hrs, by split <;> rfl, ?_⟩⟩
    split
    · exact .inl ⟨by simp [Tally.addStats], rfl⟩
    · exact .inr ⟨by simp [Tally.addStats], rfl⟩

/-- **What `handle_loadbalance` can do.** Leave the registry alone, and after the `lookup`:
    forward a known flow (`update_stats`), or handle the packet as a new flow. -/
theorem handleLoadbalance_cases (lb : LbState) (t : TupleObject) (len : UInt64) (f₁ f₂ : Bool)
    (n₁ n₂ : UInt64) :
    let r := handleLoadbalance lb t len f₁ f₂ n₁ n₂
    let sm := (lb.sessions.lookup t.tuple n₁).1
    (r.1.sessions = sm.updateStats t.tuple len n₂ ∧ r.1.registry = lb.registry ∧
        r.1.stats = Tally.addStats { forwarded := 1, tx := 1 } lb.stats ∧ r.2 = true) ∨
      r = lb.newFlow sm t f₂ n₂ := by
  unfold handleLoadbalance
  dsimp only
  split
  · split
    · exact .inl ⟨rfl, rfl, by simp [Tally.addStats], rfl⟩
    · exact .inr rfl
  · exact .inr rfl

/-! ## The counters add up -/

namespace Tally

@[simp] theorem addTo_zero (c : Statistics × ProtocolStats) : Tally.addTo {} c = c := by
  simp [addTo, addStats, addProtocol]

end Tally

namespace Balancer

theorem counters_countRx (b : Balancer) : b.countRx.counters = Tally.addTo { rx := 1 } b.counters := by
  simp [counters, countRx, Tally.addTo, Tally.addStats, Tally.addProtocol]

theorem counters_countTx (b : Balancer) : b.countTx.counters = Tally.addTo { tx := 1 } b.counters := by
  simp [counters, countTx, Tally.addTo, Tally.addStats, Tally.addProtocol]

theorem counters_countDropped (b : Balancer) :
    b.countDropped.counters = Tally.addTo { dropped := 1 } b.counters := by
  simp [counters, countDropped, Tally.addTo, Tally.addStats, Tally.addProtocol]

theorem counters_countArp (b : Balancer) : b.countArp.counters = Tally.addTo { arp := 1 } b.counters := by
  simp [counters, countArp, Tally.addTo, Tally.addStats, Tally.addProtocol]

theorem counters_countIcmp (b : Balancer) :
    b.countIcmp.counters = Tally.addTo { icmp := 1 } b.counters := by
  simp [counters, countIcmp, Tally.addTo, Tally.addStats, Tally.addProtocol]

theorem counters_countTcp (b : Balancer) : b.countTcp.counters = Tally.addTo { tcp := 1 } b.counters := by
  simp [counters, countTcp, Tally.addTo, Tally.addStats, Tally.addProtocol]

theorem counters_countUdp (b : Balancer) : b.countUdp.counters = Tally.addTo { udp := 1 } b.counters := by
  simp [counters, countUdp, Tally.addTo, Tally.addStats, Tally.addProtocol]

/-- After `++rx_packets`, a path of `process_packet` added the tally `d`: `rx` is not counted
    again, `tx` counts the return value, and with the packet the counts are sound. -/
def PathTally (b : Balancer) (r : Balancer × Bool × List UInt8) : Prop :=
  ∃ d : Tally, ({ rx := 1 } + d).Sound ∧ d.rx = 0 ∧ d.tx = (if r.2.1 then 1 else 0) ∧
    r.1.counters = d.addTo b.counters

theorem handleArp_tally (h : Handlers) (b : Balancer) (frame : List UInt8) :
    b.PathTally (b.handleArp h frame) := by
  unfold handleArp
  split_ifs
  · exact ⟨{}, by decide, rfl, rfl, (Tally.addTo_zero _).symm⟩
  · split
    · exact ⟨{ arp := 1, tx := 1 }, by decide, rfl, rfl,
        by rw [counters_countTx, counters_countArp, Tally.addTo_addTo]; rfl⟩
    · exact ⟨{ arp := 1 }, by decide, rfl, rfl, counters_countArp b⟩

theorem handleIcmp_tally (h : Handlers) (b : Balancer) (frame : List UInt8) (meta : PacketMeta) :
    b.PathTally (b.handleIcmp h frame meta) := by
  unfold handleIcmp
  dsimp only
  split
  · exact ⟨{ icmp := 1, tx := 1 }, by decide, rfl, rfl,
      by rw [counters_countTx, counters_countIcmp, Tally.addTo_addTo]; rfl⟩
  · exact ⟨{ icmp := 1 }, by decide, rfl, rfl, counters_countIcmp b⟩

/-- Counters whose `Statistics` part moved by `d` and whose per-protocol part stayed. -/
theorem counters_eq_addTo {b b' : Balancer} {d : Tally} (hs : b'.lb.stats = d.addStats b.lb.stats)
    (hp : b'.protocolStats = b.protocolStats) (h0 : d.arp = 0 ∧ d.icmp = 0 ∧ d.tcp = 0 ∧ d.udp = 0) :
    b'.counters = d.addTo b.counters := by
  obtain ⟨h1, h2, h3, h4⟩ := h0
  simp [counters, Tally.addTo, Tally.addProtocol, hs, hp, h1, h2, h3, h4]

/-- `handle_loadbalance` forwards (`forwarded`, `tx`, and `nat` for a new flow) or drops. -/
theorem handleLoadbalance_stats (lb : LbState) (t : TupleObject) (len : UInt64) (f₁ f₂ : Bool)
    (n₁ n₂ : UInt64) :
    ∃ d ∈ [{ forwarded := 1, tx := 1 }, { forwarded := 1, nat := 1, tx := 1 }, { dropped := 1 }],
      (handleLoadbalance lb t len f₁ f₂ n₁ n₂).1.stats = Tally.addStats d lb.stats ∧
        d.tx = if (handleLoadbalance lb t len f₁ f₂ n₁ n₂).2 then 1 else 0 := by
  rcases handleLoadbalance_cases lb t len f₁ f₂ n₁ n₂ with ⟨-, -, hs, hr⟩ | hr
  · exact ⟨_, .head _, hs, by rw [hr]; rfl⟩
  · rw [hr]
    obtain ⟨-, ⟨-, hs, hf⟩ | ⟨-, -, -, ⟨hs, hf⟩ | ⟨hs, hf⟩⟩⟩ :=
      LbState.newFlow_cases lb (lb.sessions.lookup t.tuple n₁).1 t f₂ n₂
    · exact ⟨_, by decide, hs, by rw [hf]; rfl⟩
    · exact ⟨_, by decide, hs, by rw [hf]; rfl⟩
    · exact ⟨_, by decide, hs, by rw [hf]; rfl⟩

theorem balance_tally (b : Balancer) (frame : List UInt8) (meta : PacketMeta) (a : Answers) :
    ∃ d ∈ [{ forwarded := 1, tx := 1 }, { forwarded := 1, nat := 1, tx := 1 }, { dropped := 1 }],
      (b.balance frame meta a).1.counters = Tally.addTo d b.counters ∧
        d.tx = if (b.balance frame meta a).2.1 then 1 else 0 := by
  obtain ⟨d, hd, hs, htx⟩ := handleLoadbalance_stats b.lb ⟨meta.toFiveTuple, a.padding⟩
    frame.length.toUInt64 a.forward₁ a.forward₂ a.now₁ a.now₂
  refine ⟨d, hd, counters_eq_addTo hs rfl ?_, htx⟩
  simp only [List.mem_cons, List.mem_singleton, List.not_mem_nil, or_false] at hd
  rcases hd with rfl | rfl | rfl <;> decide

/-- A balanced packet after `++tcp_packets` or `++udp_packets`. -/
theorem balance_pathTally {b b' : Balancer} (frame : List UInt8) (meta : PacketMeta) (a : Answers)
    (e : Tally) (he : e ∈ [{ tcp := 1 }, { udp := 1 }]) (hb : b'.counters = e.addTo b.counters) :
    b.PathTally (b'.balance frame meta a) := by
  obtain ⟨d, hd, hc, htx⟩ := balance_tally b' frame meta a
  refine ⟨e + d, ?_, ?_, ?_, by rw [hc, hb, Tally.addTo_addTo]⟩ <;>
    simp only [List.mem_cons, List.mem_singleton, List.not_mem_nil, or_false] at he hd <;>
    rcases he with rfl | rfl <;> rcases hd with rfl | rfl | rfl <;> first | decide | exact htx

theorem handleIpv4_tally (h : Handlers) (b : Balancer) (frame : List UInt8) (a : Answers) :
    b.PathTally (b.handleIpv4 h frame a) := by
  unfold handleIpv4
  rcases parse (frameBytes frame) frame.length.toUInt64 {} with ⟨_ | _, meta⟩
  · exact ⟨{ dropped := 1 }, by decide, rfl, rfl, counters_countDropped b⟩
  · simp only [Bool.not_true, Bool.false_eq_true, if_false]
    split_ifs
    · exact handleIcmp_tally h b frame meta
    · exact ⟨{}, by decide, rfl, rfl, (Tally.addTo_zero _).symm⟩
    · exact balance_pathTally frame meta a { tcp := 1 } (by decide) (counters_countTcp b)
    · exact balance_pathTally frame meta a { udp := 1 } (by decide) (counters_countUdp b)
    · exact ⟨{}, by decide, rfl, rfl, (Tally.addTo_zero _).symm⟩

/-- One packet on a running balancer: `rx` counts it, `tx` counts a `true` return, and the counts
    it adds are sound. -/
theorem processPacket_tally (h : Handlers) (b : Balancer) (frame : List UInt8) (a : Answers)
    (hrun : b.running = true) :
    ∃ d : Tally, d.Sound ∧ d.rx = 1 ∧ d.tx = (if (b.processPacket h frame a).2.1 then 1 else 0) ∧
      (b.processPacket h frame a).1.counters = d.addTo b.counters := by
  have lift : ∀ r, b.countRx.PathTally r → ∃ d : Tally, d.Sound ∧ d.rx = 1 ∧
      d.tx = (if r.2.1 then 1 else 0) ∧ r.1.counters = d.addTo b.counters := by
    rintro r ⟨d, hs, hrx, htx, hc⟩
    refine ⟨{ rx := 1 } + d, hs, ?_, ?_, by rw [hc, counters_countRx, Tally.addTo_addTo]⟩ <;>
      simp [Tally.add_def, hrx, htx]
  refine lift _ ?_
  unfold processPacket
  simp only [hrun, Bool.not_true, Bool.false_eq_true, if_false]
  split_ifs
  · exact ⟨{ dropped := 1 }, by decide, rfl, rfl, counters_countDropped _⟩
  · exact handleArp_tally h _ frame
  · exact handleIpv4_tally h _ frame a
  · exact ⟨{ dropped := 1 }, by decide, rfl, rfl, counters_countDropped _⟩

theorem handleLoadbalance_registry (lb : LbState) (t : TupleObject) (len : UInt64) (f₁ f₂ : Bool)
    (n₁ n₂ : UInt64) : (handleLoadbalance lb t len f₁ f₂ n₁ n₂).1.registry = lb.registry := by
  rcases handleLoadbalance_cases lb t len f₁ f₂ n₁ n₂ with ⟨-, h, -⟩ | hr
  · exact h
  · rw [hr]
    exact (LbState.newFlow_cases ..).1

/-- What a packet leaves alone: `running_`, `local_ip_`, `local_mac_` and the registry. -/
structure Keeps (b b' : Balancer) : Prop where
  running : b'.running = b.running
  localIp : b'.localIp = b.localIp
  localMac : b'.localMac = b.localMac
  registry : b'.lb.registry = b.lb.registry

theorem Keeps.trans {b₁ b₂ b₃ : Balancer} (h₁ : Keeps b₁ b₂) (h₂ : Keeps b₂ b₃) : Keeps b₁ b₃ :=
  ⟨h₂.running.trans h₁.running, h₂.localIp.trans h₁.localIp, h₂.localMac.trans h₁.localMac,
    h₂.registry.trans h₁.registry⟩

theorem balance_keeps (b : Balancer) (frame : List UInt8) (meta : PacketMeta) (a : Answers) :
    Keeps b (b.balance frame meta a).1 :=
  ⟨rfl, rfl, rfl, handleLoadbalance_registry ..⟩

theorem handleIpv4_keeps (h : Handlers) (b : Balancer) (frame : List UInt8) (a : Answers) :
    Keeps b (b.handleIpv4 h frame a).1 := by
  unfold handleIpv4 handleIcmp
  rcases parse (frameBytes frame) frame.length.toUInt64 {} with ⟨_ | _, meta⟩
  · exact ⟨rfl, rfl, rfl, rfl⟩
  · simp only [Bool.not_true, Bool.false_eq_true, if_false]
    split_ifs
    · split <;> exact ⟨rfl, rfl, rfl, rfl⟩
    · exact ⟨rfl, rfl, rfl, rfl⟩
    · exact Keeps.trans (show Keeps b b.countTcp from ⟨rfl, rfl, rfl, rfl⟩) (balance_keeps ..)
    · exact Keeps.trans (show Keeps b b.countUdp from ⟨rfl, rfl, rfl, rfl⟩) (balance_keeps ..)
    · exact ⟨rfl, rfl, rfl, rfl⟩

theorem processPacket_keeps (h : Handlers) (b : Balancer) (frame : List UInt8) (a : Answers) :
    Keeps b (b.processPacket h frame a).1 := by
  unfold processPacket handleArp
  split_ifs
  all_goals first
    | exact ⟨rfl, rfl, rfl, rfl⟩
    | exact Keeps.trans (show Keeps b b.countRx from ⟨rfl, rfl, rfl, rfl⟩) (handleIpv4_keeps ..)
    | (dsimp only; split <;> exact ⟨rfl, rfl, rfl, rfl⟩)

end Balancer

/-- The input is a packet. -/
def Input.isPacket : Input → Bool
  | .packet .. => true
  | .control _ => false

namespace Balancer

/-- **The counters add up.** Over every run of packets and control-plane calls on a running
    balancer, the counters of `stats_` move (modulo 2^64) by a tally `d` with `d.rx` the number of
    packets, `d.tx` the number of `process_packet` calls that returned `true`, and the relations
    of `Tally.Sound` between the counts. -/
theorem run_counters (h : Handlers) (b : Balancer) (ins : List Input) (hrun : b.running = true) :
    ∃ d : Tally, d.Sound ∧ d.rx = (ins.filter Input.isPacket).length ∧
      d.tx = (b.run h ins).2.count true ∧ (b.run h ins).1.counters = d.addTo b.counters := by
  induction ins generalizing b with
  | nil => exact ⟨{}, by decide, rfl, rfl, (Tally.addTo_zero _).symm⟩
  | cons i ins ih =>
    cases i with
    | packet frame a =>
      obtain ⟨d, hd, hrx, htx, hc⟩ := processPacket_tally h b frame a hrun
      obtain ⟨e, he, herx, hetx, hec⟩ := ih _ ((processPacket_keeps h b frame a).running.trans hrun)
      refine ⟨d + e, hd.add he, ?_, ?_, by rw [run, hec, hc, Tally.addTo_addTo]⟩
      · simp only [Tally.add_def, Tally.add_rx, hrx, herx, List.filter_cons, Input.isPacket,
          if_true, List.length_cons]
        omega
      · simp only [run, Tally.add_def, Tally.add_tx, htx, hetx, List.count_cons]
        split <;> simp_all [Nat.add_comm]
    | control op =>
      obtain ⟨e, he, herx, hetx, hec⟩ :=
        ih { b with lb := { b.lb with registry := op.apply b.lb.registry } } hrun
      exact ⟨e, he, by simpa [Input.isPacket] using herx, hetx, hec⟩

theorem run_counters_oneServer :
    let h : Handlers := ⟨28, fun f _ _ => (false, f), fun icmp => (true, icmp)⟩
    let b : Balancer := ⟨true, 0x0100000A, .zero, ⟨.new, .new, {}⟩, {}⟩
    let ins : List Input :=
      [.control (.addServer { id := 1, weight := 1, status := .up }),
        .packet [] ⟨true, true, [], (0, 0, 0), 1, 2⟩]
    b.running = true ∧ ∃ d : Tally, d.Sound ∧ d.rx = (ins.filter Input.isPacket).length ∧
      d.tx = (b.run h ins).2.count true ∧ (b.run h ins).1.counters = d.addTo b.counters :=
  ⟨rfl, run_counters _ _ _ rfl⟩

end Balancer

/-! ## What `parse` stores for an IPv4 frame -/

theorem readTransport_fields (pkt : Nat → UInt8) (len : UInt64) (m : PacketMeta) :
    (readTransport pkt len m).l3Offset = m.l3Offset ∧ (readTransport pkt len m).l4Offset = m.l4Offset ∧
      (readTransport pkt len m).ipProtocol = m.ipProtocol ∧ (readTransport pkt len m).dstIp = m.dstIp := by
  unfold readTransport
  dsimp only
  split_ifs <;> exact ⟨rfl, rfl, rfl, rfl⟩

/-- An IPv4 frame of at least 34 bytes is accepted. -/
theorem parse_accepts {pkt : Nat → UInt8} {len : UInt64} (m : PacketMeta)
    (hip : be16 pkt 12 = etherTypeIPv4) (hlen : ethHeaderSize + 20 ≤ len.toNat) :
    (parse pkt len m).1 = true := by
  have h14 : ¬ len.toNat < ethHeaderSize := by unfold ethHeaderSize at *; omega
  have h34 : ¬ len.toNat < (readEthernet pkt m).l3Offset.toNat + 20 := by
    show ¬ len.toNat < 14 + 20
    unfold ethHeaderSize at hlen
    omega
  simp only [parse, h14, h34, if_false]
  rw [if_neg (by simpa [readEthernet] using hip)]

/-- The fields of an accepted IPv4 frame that the packet path reads: the header offsets, the
    protocol byte and the destination address. -/
theorem parse_fields {pkt : Nat → UInt8} {len : UInt64} {m : PacketMeta}
    (hip : be16 pkt 12 = etherTypeIPv4) (hok : (parse pkt len m).1 = true) :
    (parse pkt len m).2.l3Offset.toNat = ethHeaderSize ∧
      (parse pkt len m).2.l4Offset.toNat = ethHeaderSize + ipHeaderLen pkt ∧
      (parse pkt len m).2.ipProtocol = pkt (ethHeaderSize + 9) ∧
      (parse pkt len m).2.dstIp = load32 pkt (ethHeaderSize + 16) := by
  have hE : (readEthernet pkt m).etherType = etherTypeIPv4 := hip
  unfold parse at hok ⊢
  by_cases h1 : len.toNat < ethHeaderSize
  · simp [h1] at hok
  by_cases h3 : len.toNat < (readEthernet pkt m).l3Offset.toNat + 20
  · simp [h1, hE, h3] at hok
  simp only [h1, hE, h3, ne_eq, not_true_eq_false, if_false]
  obtain ⟨h3, h4, hp, hd⟩ := readTransport_fields pkt len (readIPv4 pkt len (readEthernet pkt m))
  refine ⟨h3 ▸ rfl, h4 ▸ toNat_add_nibble _ _ (show 14 + 60 < 2 ^ 16 by decide), hp ▸ rfl, hd ▸ rfl⟩

/-! ## Ping replies are well formed -/

/-- The reply to the echo request `frame` whose IP header is `hl` bytes long, when the echo
    handler wrote the ICMP bytes `icmp`: the request with its MAC addresses and its IP addresses
    exchanged, the other header bytes as they were, the handler's bytes after the IP header, and
    an IP header whose checksum verifies. -/
structure EchoReply (frame icmp reply : List UInt8) (hl : Nat) : Prop where
  length : reply.length = ethHeaderSize + hl + icmp.length
  macs : ∀ i < 6, reply.getD i 0 = frame.getD (i + 6) 0 ∧ reply.getD (i + 6) 0 = frame.getD i 0
  ips : ∀ i < 4,
    reply.getD (26 + i) 0 = frame.getD (30 + i) 0 ∧ reply.getD (30 + i) 0 = frame.getD (26 + i) 0
  header : ∀ i, 12 ≤ i → i < ethHeaderSize + hl → i ≠ 24 → i ≠ 25 → (i < 26 ∨ 34 ≤ i) →
    reply.getD i 0 = frame.getD i 0
  payload : ∀ i, reply.getD (ethHeaderSize + hl + i) 0 = icmp.getD i 0
  checksum : IpChecksum.calculate .little ((reply.drop ethHeaderSize).take hl) = 0

theorem length_swapMac (F : List UInt8) (hF : 12 ≤ F.length) : (swapMac F).length = F.length := by
  simp only [swapMac, List.length_append, List.length_take, List.length_drop]
  omega

theorem getD_swapMac (F : List UInt8) (hF : 12 ≤ F.length) (i : Nat) :
    (swapMac F).getD i 0 = F.getD (if i < 6 then i + 6 else if i < 12 then i - 6 else i) 0 := by
  simp only [swapMac, List.getD_eq_getElem?_getD, List.getElem?_append, List.getElem?_take,
    List.getElem?_drop, List.length_append, List.length_take, List.length_drop]
  split_ifs <;> first | omega | (congr 2; omega)

theorem length_swapIp (l3 : Nat) (F : List UInt8) (hF : l3 + 20 ≤ F.length) :
    (swapIp l3 F).length = F.length := by
  simp only [swapIp, List.length_append, List.length_take, List.length_drop]
  omega

theorem getD_swapIp (l3 : Nat) (F : List UInt8) (hF : l3 + 20 ≤ F.length) (i : Nat) :
    (swapIp l3 F).getD i 0 = F.getD (if l3 + 12 ≤ i ∧ i < l3 + 16 then i + 4
      else if l3 + 16 ≤ i ∧ i < l3 + 20 then i - 4 else i) 0 := by
  simp only [swapIp, List.getD_eq_getElem?_getD, List.getElem?_append, List.getElem?_take,
    List.getElem?_drop, List.length_append, List.length_take, List.length_drop]
  split_ifs <;> first | omega | (congr 2 <;> omega)

theorem getD_setWord (o : ByteOrder) (l : List UInt8) (off : Nat) (v : UInt16) {j : Nat}
    (h₁ : j ≠ off) (h₂ : j ≠ off + 1) : (IpChecksum.setWord o l off v).getD j 0 = l.getD j 0 := by
  simp only [IpChecksum.setWord, List.getD_eq_getElem?_getD, List.getElem?_set, if_neg (Ne.symm h₁),
    if_neg (Ne.symm h₂)]

theorem length_updateChecksum (l3 : Nat) (F : List UInt8) (hF : l3 ≤ F.length) :
    (updateChecksum l3 F).length = F.length := by
  simp only [updateChecksum, IpChecksum.update, List.length_append, List.length_take,
    IpChecksum.length_setWord, List.length_drop]
  omega

/-- `update` rewrites only the checksum field of the header. -/
theorem getD_updateChecksum (l3 : Nat) (F : List UInt8) (hF : l3 ≤ F.length) {i : Nat}
    (h₁ : i ≠ l3 + 10) (h₂ : i ≠ l3 + 11) : (updateChecksum l3 F).getD i 0 = F.getD i 0 := by
  unfold updateChecksum
  by_cases hi : i < l3
  · rw [List.getD_append _ _ _ _ (by simp; omega), List.getD_eq_getElem?_getD,
      List.getElem?_take_of_lt hi, ← List.getD_eq_getElem?_getD]
  · rw [List.getD_append_right _ _ _ _ (by simp; omega), IpChecksum.update,
      getD_setWord _ _ _ _ (by simp [IpChecksum.checksumOffset]; omega)
        (by simp [IpChecksum.checksumOffset]; omega),
      getD_setWord _ _ _ _ (by simp [IpChecksum.checksumOffset]; omega)
        (by simp [IpChecksum.checksumOffset]; omega),
      List.getD_eq_getElem?_getD, List.getElem?_drop, ← List.getD_eq_getElem?_getD]
    congr 1
    simp only [List.length_take]
    omega

theorem headerLen_eq_getD (l : List UInt8) : IpChecksum.headerLen l = (l.getD 0 0 &&& 0x0F).toNat * 4 := by
  cases l <;> rfl

/-- The reply `handle_icmp` builds from a request with an `hl`-byte IP header and the handler's
    ICMP bytes `icmp`: swap the MACs, swap the IPs, recompute the checksum. -/
theorem echoReply_build (f icmp : List UInt8) (hl : Nat) (hhl : 20 ≤ hl)
    (hfit : ethHeaderSize + hl ≤ f.length) (hhdr : (f.getD 14 0 &&& 0x0F).toNat * 4 = hl) :
    EchoReply f icmp
      (updateChecksum 14 (swapIp 14 (swapMac (f.take (ethHeaderSize + hl) ++ icmp)))) hl := by
  unfold ethHeaderSize at hfit ⊢
  set F := f.take (14 + hl) ++ icmp
  set X := swapIp 14 (swapMac F)
  have hF : F.length = 14 + hl + icmp.length := by simp only [F, List.length_append, List.length_take]; omega
  have hFi : ∀ i < 14 + hl, F.getD i 0 = f.getD i 0 := fun i hi => by
    rw [List.getD_append _ _ _ _ (by simp; omega), List.getD_eq_getElem?_getD,
      List.getElem?_take_of_lt hi, ← List.getD_eq_getElem?_getD]
  have hFp : ∀ j, F.getD (14 + hl + j) 0 = icmp.getD j 0 := fun j => by
    rw [List.getD_append_right _ _ _ _ (by simp)]
    congr 1
    simp only [List.length_take]
    omega
  have hM : (swapMac F).length = F.length := length_swapMac F (by omega)
  have hX : X.length = F.length := (length_swapIp 14 _ (by omega)).trans hM
  have hXi : ∀ i, X.getD i 0 = F.getD (if i < 6 then i + 6 else if i < 12 then i - 6
      else if 26 ≤ i ∧ i < 30 then i + 4 else if 30 ≤ i ∧ i < 34 then i - 4 else i) 0 := by
    intro i
    rw [getD_swapIp _ _ (by omega), getD_swapMac _ (by omega)]
    split_ifs <;> first | rfl | omega
  have hR : ∀ i, i ≠ 24 → i ≠ 25 → (updateChecksum 14 X).getD i 0 = X.getD i 0 :=
    fun i h₁ h₂ => getD_updateChecksum 14 X (by omega) h₁ h₂
  refine ⟨?length, ?macs, ?ips, ?header, ?payload, ?checksum⟩
  case length => rw [length_updateChecksum _ _ (by omega), hX, hF]; rfl
  case macs =>
    intro i hi
    simp (disch := omega) only [hR, hXi, if_pos, if_neg, hFi, Nat.add_sub_cancel, and_self]
  case ips =>
    intro i hi
    simp (disch := omega) only [hR, hXi, if_pos, if_neg, hFi]
    exact ⟨congrArg (f.getD · 0) (by omega), congrArg (f.getD · 0) (by omega)⟩
  case header =>
    intro i h₁ h₂ h₃ h₄ h₅
    unfold ethHeaderSize at h₂
    simp (disch := omega) only [hR, hXi, if_neg, hFi]
  case payload =>
    intro j
    show (updateChecksum 14 X).getD (14 + hl + j) 0 = _
    simp (disch := omega) only [hR, hXi, if_neg, hFp]
  case checksum =>
    have hd : (updateChecksum 14 X).drop 14 = IpChecksum.update .little (X.drop 14) := by
      rw [updateChecksum, List.drop_left' (by simp; omega)]
    have hh : IpChecksum.headerLen (X.drop 14) = hl := by
      rw [headerLen_eq_getD, List.getD_eq_getElem?_getD, List.getElem?_drop, ← List.getD_eq_getElem?_getD,
        hXi, if_neg (by omega), if_neg (by omega), if_neg (by omega), if_neg (by omega), hFi _ (by omega)]
      exact hhdr
    show IpChecksum.calculate .little (((updateChecksum 14 X).drop 14).take hl) = 0
    rw [hd, ← hh]
    exact IpChecksum.calculate_update .little _ (by rw [hh]; unfold IpChecksum.checksumOffset; omega)
      (by rw [hh, List.length_drop]; omega)

namespace Balancer

/-- **Ping replies are well formed.** Given an IPv4 frame whose IP header (of at least 20 bytes)
    fits in it, with protocol ICMP and the VIP as destination, a running balancer whose echo
    handler answers returns `true`, and the frame it leaves is the `EchoReply` to the request: the
    MAC and IP addresses exchanged, the other header bytes unchanged, the handler's ICMP bytes after
    the header, and an IP header checksum that verifies. -/
theorem processPacket_echoReply (h : Handlers) (b : Balancer) (f : List UInt8) (a : Answers)
    (hrun : b.running = true) (hlen : f.length < 2 ^ 64) (hip : etherType f = etherTypeIPv4)
    (hhl : 20 ≤ ipHeaderLen (frameBytes f))
    (hfit : ethHeaderSize + ipHeaderLen (frameBytes f) ≤ f.length) (hicmp : f.getD 23 0 = 1)
    (hdst : load32 (frameBytes f) 30 = b.localIp)
    (hecho : (h.echoRequest (f.drop (ethHeaderSize + ipHeaderLen (frameBytes f)))).1 = true) :
    (b.processPacket h f a).2.1 = true ∧
      EchoReply f (h.echoRequest (f.drop (ethHeaderSize + ipHeaderLen (frameBytes f)))).2
        (b.processPacket h f a).2.2 (ipHeaderLen (frameBytes f)) := by
  set hl := ipHeaderLen (frameBytes f)
  rcases he : h.echoRequest (f.drop (ethHeaderSize + hl)) with ⟨echo, icmp⟩
  obtain rfl : echo = true := by rw [he] at hecho; exact hecho
  have hip' : be16 (frameBytes f) 12 = etherTypeIPv4 := hip
  have hlenN : f.length.toUInt64.toNat = f.length := Nat.mod_eq_of_lt hlen
  have hok := parse_accepts {} hip' (by rw [hlenN]; omega)
  obtain ⟨hl3, hl4, -, hd⟩ := parse_fields hip' hok
  rcases hp : parse (frameBytes f) f.length.toUInt64 {} with ⟨ok, meta⟩
  rw [hp] at hok hl3 hl4 hd
  obtain rfl : ok = true := hok
  have hpath : b.processPacket h f a = (b.countRx.countIcmp.countTx, true,
      updateChecksum 14 (swapIp 14 (swapMac (f.take (ethHeaderSize + hl) ++ icmp)))) := by
    have h14 : ¬ f.length < ethHeaderSize := by omega
    have harp : etherTypeIPv4 ≠ etherTypeArp := by decide
    have hicmp' : frameBytes f (ethHeaderSize + 9) = 1 := hicmp
    have hdst' : meta.dstIp = b.countRx.localIp := hd.trans hdst
    unfold processPacket handleIpv4 handleIcmp
    simp only [hrun, Bool.not_true, Bool.false_eq_true, if_false, h14, hip, harp, if_true, hp,
      hl3, hl4, hicmp', hdst', and_self, he]
    rfl
  rw [hpath]
  exact ⟨rfl, echoReply_build f icmp hl hhl hfit rfl⟩

/-- A ping of `10.0.0.1` from `10.0.0.2`, answered by a handler that turns the echo request into
    an echo reply. -/
theorem processPacket_echoReply_ping :
    let h : Handlers := ⟨28, fun f _ _ => (false, f), fun icmp => (true, 0 :: icmp.tail)⟩
    let b : Balancer := ⟨true, 0x0100000A, .zero, ⟨.new, .new, {}⟩, {}⟩
    let f : List UInt8 := [2, 0, 0, 0, 0, 1, 2, 0, 0, 0, 0, 2, 0x08, 0x00,
      0x45, 0, 0, 28, 0, 0, 0, 0, 64, 1, 0, 0, 10, 0, 0, 2, 10, 0, 0, 1,
      8, 0, 0xF7, 0xFF, 0, 0, 0, 0]
    let a : Answers := ⟨false, false, [], (0, 0, 0), 0, 0⟩
    b.running = true ∧ f.length < 2 ^ 64 ∧ etherType f = etherTypeIPv4 ∧
      20 ≤ ipHeaderLen (frameBytes f) ∧ ethHeaderSize + ipHeaderLen (frameBytes f) ≤ f.length ∧
      f.getD 23 0 = 1 ∧ load32 (frameBytes f) 30 = b.localIp ∧
      (h.echoRequest (f.drop (ethHeaderSize + ipHeaderLen (frameBytes f)))).1 = true ∧
      ((b.processPacket h f a).2.1 = true ∧
        EchoReply f (h.echoRequest (f.drop (ethHeaderSize + ipHeaderLen (frameBytes f)))).2
          (b.processPacket h f a).2.2 (ipHeaderLen (frameBytes f))) :=
  ⟨rfl, by decide, by decide, by decide, by decide, rfl, by decide, rfl,
    processPacket_echoReply _ _ _ _ rfl (by decide) (by decide) (by decide) (by decide) rfl
      (by decide) rfl⟩

end Balancer

end L4lb
