import Mathlib

/-!
# `L4lb.Types` — the shared data model of `common/types.h`

The records every component passes around: the flow identity `FiveTuple` (and the 16-byte object
a `FiveTuple` is in memory, which `MurmurHash3::hash_tuple` hashes byte for byte), MAC addresses,
backend status, and the statistics counters the session table and the proxy maintain.

Widths follow the source: addresses are `UInt32`, ports `UInt16`, counters `UInt64` (so `--` on a
zero counter wraps, as it does in C++); `toUInt64_succ` and `toUInt64_add_sub` relate such a counter
to the count it keeps. Only the fields some modelled function reads or writes are kept; the
per-protocol packet counts of `Statistics`, which only `LoadBalancer` updates, are its
`ProtocolStats` (`L4lb.Balancer`).
-/

namespace L4lb

/-- `IPv4Addr` (`uint32_t`, network byte order). -/
abbrev IPv4Addr := UInt32

/-- `Port` (`uint16_t`, network byte order). -/
abbrev Port := UInt16

/-- `MacAddr` (`std::array<uint8_t, 6>`): exactly six octets. -/
structure MacAddr where
  octets : List UInt8
  length_eq : octets.length = 6
deriving DecidableEq, Repr

/-- The value-initialised `MacAddr{}`: all six octets zero. -/
def MacAddr.zero : MacAddr := ⟨[0, 0, 0, 0, 0, 0], rfl⟩

/-- `FiveTuple`: the flow identity, five members in declaration order. -/
structure FiveTuple where
  srcIp : IPv4Addr
  dstIp : IPv4Addr
  srcPort : Port
  dstPort : Port
  protocol : UInt8
deriving DecidableEq, Repr

namespace FiveTuple

/-- `FiveTuple::operator==`: member-wise comparison of the five fields. -/
def beq (a b : FiveTuple) : Bool :=
  a.srcIp == b.srcIp && a.dstIp == b.dstIp && a.srcPort == b.srcPort &&
    a.dstPort == b.dstPort && a.protocol == b.protocol

/-- `operator==` is exactly equality of the modelled record. -/
theorem beq_iff {a b : FiveTuple} : a.beq b = true ↔ a = b := by
  cases a; cases b
  simp [beq, and_assoc]

end FiveTuple

/-- Little-endian bytes of a `uint16_t` (x86-64 object representation). -/
def le16Bytes (v : UInt16) : List UInt8 := [v.toUInt8, (v >>> 8).toUInt8]

/-- Little-endian bytes of a `uint32_t` (x86-64 object representation). -/
def le32Bytes (v : UInt32) : List UInt8 :=
  [v.toUInt8, (v >>> 8).toUInt8, (v >>> 16).toUInt8, (v >>> 24).toUInt8]

/-- A `FiveTuple` object as it lies in memory on x86-64: the five members at offsets 0, 4, 8, 10
    and 12, then three bytes of tail padding (`sizeof(FiveTuple) = 16`, alignment 4). Neither
    constructor writes the padding, so it holds whatever the storage held before. -/
structure TupleObject where
  tuple : FiveTuple
  padding : UInt8 × UInt8 × UInt8
deriving DecidableEq, Repr

/-- The 16 bytes of the object representation, in address order. -/
def TupleObject.bytes (o : TupleObject) : List UInt8 :=
  le32Bytes o.tuple.srcIp ++ le32Bytes o.tuple.dstIp ++ le16Bytes o.tuple.srcPort ++
    le16Bytes o.tuple.dstPort ++ [o.tuple.protocol, o.padding.1, o.padding.2.1, o.padding.2.2]

theorem TupleObject.bytes_length (o : TupleObject) : o.bytes.length = 16 := rfl

/-- `ForwardMode`. -/
inductive ForwardMode
  | nat
  | dr
deriving DecidableEq, Repr

/-- `ServerStatus`. -/
inductive ServerStatus
  | up
  | down
  | checking
deriving DecidableEq, Repr

/-- `RealServer`: a backend record. Its connection and byte counters are read by no modelled
    function and are left out; the defaults are those of the default constructor. -/
structure RealServer where
  id : UInt32 := 0
  ip : IPv4Addr := 0
  port : Port := 0
  mac : MacAddr := MacAddr.zero
  weight : UInt32 := 100
  status : ServerStatus := .checking
deriving DecidableEq, Repr

/-- `RealServer::is_available()`. -/
def RealServer.isAvailable (rs : RealServer) : Bool := rs.status == .up

/-- The counters of `Statistics` that the session table, the packet path and the proxy loop
    update (the per-protocol packet counts are `ProtocolStats` in `L4lb.Balancer`). -/
structure Statistics where
  rxPackets : UInt64 := 0
  txPackets : UInt64 := 0
  droppedPackets : UInt64 := 0
  forwardedPackets : UInt64 := 0
  natTranslations : UInt64 := 0
  activeSessions : UInt64 := 0
  totalSessions : UInt64 := 0
deriving DecidableEq, Repr

/-! ## Counts kept in `uint64_t` counters -/

/-- Incrementing a counter that holds a count gives the next count. -/
theorem toUInt64_succ (n : Nat) : (n + 1).toUInt64 = n.toUInt64 + 1 := by
  apply UInt64.toNat.inj
  simp only [UInt64.add_def, Nat.toUInt64, UInt64.ofNat, UInt64.toNat, BitVec.toNat_add,
    BitVec.toNat_ofNat, UInt64.toBitVec_ofNat]
  omega

/-- Subtracting `b` from a counter that holds `a + b` leaves `a`, also across wrap-around. -/
theorem toUInt64_add_sub (a b : Nat) : (a + b).toUInt64 - b.toUInt64 = a.toUInt64 := by
  apply UInt64.toNat.inj
  simp only [UInt64.sub_def, Nat.toUInt64, UInt64.ofNat, UInt64.toNat, BitVec.toNat_sub,
    BitVec.toNat_ofNat]
  omega

end L4lb
