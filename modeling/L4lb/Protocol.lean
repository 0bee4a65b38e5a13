import L4lb.Types

/-!
# `L4lb.Protocol` — `ProtocolParser::parse`

The frame is the byte at each offset (`pkt`), of which the first `len` are the frame; `len` is a
`size_t`. `parse` fills the `PacketMeta` it is given field by field, so the fields it does not
reach keep their old values, and returns whether it accepted the frame. The header fields are
read as `ip.h` and `ethernet.h` declare them: `ether_type` through `ntohs`, addresses and ports
as stored (a little-endian load of network-order bytes), the lengths from the IHL and data-offset
nibbles. Offsets and lengths are stored into `uint16_t` fields.

## Contents
- `parse`, with the header lengths it reads (`ipHeaderLen`, `tcpHeaderLen`).
- **Declared headers can leave the frame** (`parse_headers_past_frame`): `parse` never compares
  the IHL or the TCP data offset with `len`, so a 34-byte frame with IHL 15 is accepted with
  `l4_offset = 74`, and a 54-byte TCP frame with data offset 15 with `payload_offset = 94`.
- **What `parse` guarantees** (`parse_offsets_ordered`): for frames shorter than 65536 bytes (the
  fields are `uint16_t`), the offsets are ordered and `payload_len` is
  `total_len - payload_offset` modulo `2^16`, without wrap-around when the declared headers fit
  in the frame (`HeadersFit`).
- **`parse` never reads past the frame** (`parseChecked_eq_parse`): `parseChecked` takes every
  byte through the bounds-checked `byteAt?`, and for every frame it returns `parse`'s result.
-/

namespace L4lb

/-- `PacketMeta`. -/
structure PacketMeta where
  srcMac : MacAddr := .zero
  dstMac : MacAddr := .zero
  etherType : UInt16 := 0
  srcIp : IPv4Addr := 0
  dstIp : IPv4Addr := 0
  ipProtocol : UInt8 := 0
  ipTtl : UInt8 := 0
  srcPort : Port := 0
  dstPort : Port := 0
  l2Offset : UInt16 := 0
  l3Offset : UInt16 := 0
  l4Offset : UInt16 := 0
  payloadOffset : UInt16 := 0
  totalLen : UInt16 := 0
  payloadLen : UInt16 := 0
deriving DecidableEq, Repr

namespace ProtocolParser

/-- A `uint16_t` field at offset `i` read through `ntohs`. -/
def be16 (pkt : Nat → UInt8) (i : Nat) : UInt16 := (pkt i).toUInt16 <<< 8 ||| (pkt (i + 1)).toUInt16

/-- A `uint16_t` field at offset `i` loaded as stored, on a little-endian host. -/
def load16 (pkt : Nat → UInt8) (i : Nat) : UInt16 := (pkt i).toUInt16 ||| (pkt (i + 1)).toUInt16 <<< 8

/-- A `uint32_t` field at offset `i` loaded as stored, on a little-endian host. -/
def load32 (pkt : Nat → UInt8) (i : Nat) : UInt32 :=
  (pkt i).toUInt32 ||| (pkt (i + 1)).toUInt32 <<< 8 ||| (pkt (i + 2)).toUInt32 <<< 16 |||
    (pkt (i + 3)).toUInt32 <<< 24

/-- The six bytes of a MAC address at offset `i`. -/
def mac (pkt : Nat → UInt8) (i : Nat) : MacAddr := ⟨(List.range 6).map fun j => pkt (i + j), by simp⟩

/-- `Ethernet::HEADER_SIZE`. -/
def ethHeaderSize : Nat := 14

/-- `EtherType::IPv4`. -/
def etherTypeIPv4 : UInt16 := 0x0800

/-- The Ethernet part of `parse`: both MACs, the EtherType, and the first two offsets. -/
def readEthernet (pkt : Nat → UInt8) (meta : PacketMeta) : PacketMeta :=
  { meta with
    dstMac := mac pkt 0, srcMac := mac pkt 6, etherType := be16 pkt 12
    l2Offset := 0, l3Offset := ethHeaderSize.toUInt16 }

/-- The IPv4 part of `parse`, for the header at `l3_offset`: addresses, protocol, TTL,
    `l4_offset = l3_offset + IHL·4` and `total_len = len`. -/
def readIPv4 (pkt : Nat → UInt8) (len : UInt64) (meta : PacketMeta) : PacketMeta :=
  let l3 := meta.l3Offset.toNat
  { meta with
    srcIp := load32 pkt (l3 + 12), dstIp := load32 pkt (l3 + 16)
    ipProtocol := pkt (l3 + 9), ipTtl := pkt (l3 + 8)
    l4Offset := meta.l3Offset + (pkt l3 &&& 0x0F).toUInt16 * 4
    totalLen := len.toUInt16 }

/-- The transport part of `parse`, for the header at `l4_offset`: TCP and UDP headers that fit
    their fixed size give the ports and the payload offset; otherwise the ports are 0 and the
    payload starts at `l4_offset`. -/
def readTransport (pkt : Nat → UInt8) (len : UInt64) (meta : PacketMeta) : PacketMeta :=
  let l4 := meta.l4Offset.toNat
  if meta.ipProtocol = 6 ∧ len.toNat ≥ l4 + 20 then
    { meta with
      srcPort := load16 pkt l4, dstPort := load16 pkt (l4 + 2)
      payloadOffset := meta.l4Offset + ((pkt (l4 + 12) >>> 4) &&& 0x0F).toUInt16 * 4 }
  else if meta.ipProtocol = 17 ∧ len.toNat ≥ l4 + 8 then
    { meta with
      srcPort := load16 pkt l4, dstPort := load16 pkt (l4 + 2)
      payloadOffset := meta.l4Offset + 8 }
  else { meta with srcPort := 0, dstPort := 0, payloadOffset := meta.l4Offset }

/-- `ProtocolParser::parse(pkt, len, meta)`: the return value and `meta` afterwards. -/
def parse (pkt : Nat → UInt8) (len : UInt64) (meta : PacketMeta) : Bool × PacketMeta :=
  if len.toNat < ethHeaderSize then (false, meta)
  else
    let meta := readEthernet pkt meta
    if meta.etherType ≠ etherTypeIPv4 then (true, meta)
    else if len.toNat < meta.l3Offset.toNat + 20 then (false, meta)
    else
      let meta := readTransport pkt len (readIPv4 pkt len meta)
      (true, { meta with payloadLen := (len - meta.payloadOffset.toNat.toUInt64).toUInt16 })

/-- **Declared headers can leave the frame.** `parse` checks only the fixed 20 bytes of the IP
    header and the fixed 20 bytes of a TCP header, never the lengths they declare. A 34-byte IPv4
    frame whose IHL is 15 (a 60-byte IP header) is accepted with `l4_offset = 74` past
    `total_len = 34`; a 54-byte TCP frame whose data offset is 15 (a 60-byte TCP header) is
    accepted with `payload_offset = 94` past `total_len = 54`; in both `payload_len` wraps to
    65496. -/
theorem parse_headers_past_frame :
    let r : Bool × PacketMeta := parse (fun i =>
      [0, 0, 0, 0, 0, 1, 0, 0, 0, 0, 0, 2, 0x08, 0x00, 0x4F, 0, 0, 34, 0, 0, 0, 0, 64, 1, 0, 0,
        10, 0, 0, 1, 10, 0, 0, 2].getD i 0) 34 {}
    let q : Bool × PacketMeta := parse (fun i =>
      [0, 0, 0, 0, 0, 1, 0, 0, 0, 0, 0, 2, 0x08, 0x00,
        0x45, 0, 0, 40, 0, 0, 0, 0, 64, 6, 0, 0, 10, 0, 0, 1, 10, 0, 0, 2,
        0, 80, 0x1F, 0x90, 0, 0, 0, 0, 0, 0, 0, 0, 0xF0, 0x02, 0xFF, 0xFF, 0, 0, 0, 0].getD i 0) 54 {}
    r.1 = true ∧ r.2.etherType = etherTypeIPv4 ∧ r.2.totalLen = 34 ∧ r.2.l4Offset = 74 ∧
      r.2.payloadOffset = 74 ∧ r.2.payloadLen = 65496 ∧
      q.1 = true ∧ q.2.etherType = etherTypeIPv4 ∧ q.2.totalLen = 54 ∧ q.2.l4Offset = 34 ∧
      q.2.payloadOffset = 94 ∧ q.2.payloadLen = 65496 := by
  decide

/-! ## The offsets of an accepted IPv4 frame -/

/-- The IP header length `IHL · 4` the frame declares. -/
def ipHeaderLen (pkt : Nat → UInt8) : Nat := (pkt ethHeaderSize &&& 0x0F).toNat * 4

/-- The TCP header length `data offset · 4` declared by a TCP header at offset `l4`. -/
def tcpHeaderLen (pkt : Nat → UInt8) (l4 : Nat) : Nat := ((pkt (l4 + 12) >>> 4) &&& 0x0F).toNat * 4

/-- The headers the frame declares fit in its `len` bytes: the IP header, and the TCP header
    whenever `parse` reads one. -/
def HeadersFit (pkt : Nat → UInt8) (len : Nat) : Prop :=
  ethHeaderSize + ipHeaderLen pkt ≤ len ∧
    (pkt (ethHeaderSize + 9) = 6 → ethHeaderSize + ipHeaderLen pkt + 20 ≤ len →
      ethHeaderSize + ipHeaderLen pkt + tcpHeaderLen pkt (ethHeaderSize + ipHeaderLen pkt) ≤ len)

theorem ipHeaderLen_le (pkt : Nat → UInt8) : ipHeaderLen pkt ≤ 60 := by
  have : (pkt ethHeaderSize &&& 0x0F).toNat ≤ 15 := by
    rw [UInt8.and_toNat]
    exact Nat.and_le_right
  unfold ipHeaderLen
  omega

/-- A header length read from a nibble, added to an offset, does not wrap. -/
theorem toNat_add_nibble (a : UInt16) (c : UInt8) (ha : a.toNat + 60 < 2 ^ 16) :
    (a + (c &&& 0x0F).toUInt16 * 4).toNat = a.toNat + (c &&& 0x0F).toNat * 4 := by
  have hc : (c &&& 0x0F).toNat ≤ 15 := by
    rw [UInt8.and_toNat]
    exact Nat.and_le_right
  simp only [UInt16.add_def, UInt16.mul_def, UInt16.toNat, BitVec.toNat_add, BitVec.toNat_mul,
    UInt8.toUInt16, Nat.toUInt16, UInt16.ofNat, BitVec.toNat_ofNat, BitVec.toNat_ofFin,
    UInt16.toBitVec_ofNat] at *
  omega

theorem toNat_add_eight (a : UInt16) (ha : a.toNat + 8 < 2 ^ 16) : (a + 8).toNat = a.toNat + 8 := by
  simp only [UInt16.add_def, UInt16.toNat, BitVec.toNat_add, UInt16.toBitVec_ofNat,
    BitVec.toNat_ofNat] at *
  omega

theorem toNat_toUInt16 (len : UInt64) (h : len.toNat < 2 ^ 16) : len.toUInt16.toNat = len.toNat := by
  simp only [UInt64.toUInt16, Nat.toUInt16, UInt16.ofNat, UInt16.toNat, BitVec.toNat_ofNat]
  exact Nat.mod_eq_of_lt h

/-- `len - payload_offset` computed in `size_t` and stored in a `uint16_t` is the `uint16_t`
    difference. -/
theorem toUInt16_sub (len : UInt64) (po : UInt16) :
    (len - po.toNat.toUInt64).toUInt16 = len.toUInt16 - po := by
  apply UInt16.toNat.inj
  have := po.toNat_lt_size
  have := len.toNat_lt_size
  simp only [UInt16.sub_def, UInt64.sub_def, UInt16.toNat, UInt64.toNat, BitVec.toNat_sub,
    UInt64.toUInt16, Nat.toUInt16, Nat.toUInt64, UInt16.ofNat, UInt64.ofNat, BitVec.toNat_ofNat,
    BitVec.toNat_ofFin, UInt16.size, UInt64.size] at *
  omega

/-- An accepted IPv4 frame went through all three parts of `parse`. -/
theorem parse_of_ipv4 {pkt : Nat → UInt8} {len : UInt64} {meta : PacketMeta}
    (hok : (parse pkt len meta).1 = true) (hip : (parse pkt len meta).2.etherType = etherTypeIPv4) :
    ethHeaderSize + 20 ≤ len.toNat ∧
      (parse pkt len meta).2 =
        let t := readTransport pkt len (readIPv4 pkt len (readEthernet pkt meta))
        { t with payloadLen := (len - t.payloadOffset.toNat.toUInt64).toUInt16 } := by
  have hl3 : (readEthernet pkt meta).l3Offset.toNat + 20 = ethHeaderSize + 20 := rfl
  by_cases h1 : len.toNat < ethHeaderSize
  · simp [parse, h1] at hok
  by_cases h2 : (readEthernet pkt meta).etherType = etherTypeIPv4
  · by_cases h3 : len.toNat < (readEthernet pkt meta).l3Offset.toNat + 20
    · simp [parse, h1, h2, h3] at hok
    · refine ⟨hl3 ▸ Nat.le_of_not_lt h3, ?_⟩
      simp only [parse, h1, h2, h3, ne_eq, not_true_eq_false, if_false]
  · simp [parse, h1, h2] at hip

/-- `readTransport` only sets the ports and the payload offset: the TCP header's end when a TCP
    header of at least 20 bytes fits, 8 bytes on when a UDP header fits, else `l4_offset`. -/
theorem readTransport_spec (pkt : Nat → UInt8) (len : UInt64) (m : PacketMeta)
    (hm : m.l4Offset.toNat + 60 < 2 ^ 16) :
    let t := readTransport pkt len m
    t.etherType = m.etherType ∧ t.l2Offset = m.l2Offset ∧ t.l3Offset = m.l3Offset ∧
      t.l4Offset = m.l4Offset ∧ t.totalLen = m.totalLen ∧
      ((m.ipProtocol = 6 ∧ m.l4Offset.toNat + 20 ≤ len.toNat ∧
          t.payloadOffset.toNat = m.l4Offset.toNat + tcpHeaderLen pkt m.l4Offset.toNat) ∨
        (m.l4Offset.toNat + 8 ≤ len.toNat ∧ t.payloadOffset.toNat = m.l4Offset.toNat + 8) ∨
        t.payloadOffset.toNat = m.l4Offset.toNat) := by
  simp only [readTransport]
  split_ifs with h1 h2
  · exact ⟨rfl, rfl, rfl, rfl, rfl, .inl ⟨h1.1, h1.2, toNat_add_nibble _ _ hm⟩⟩
  · exact ⟨rfl, rfl, rfl, rfl, rfl, .inr (.inl ⟨h2.2, toNat_add_eight _ (by omega)⟩)⟩
  · exact ⟨rfl, rfl, rfl, rfl, rfl, .inr (.inr rfl)⟩

/-- **What `parse` guarantees.** For every frame shorter than 65536 bytes that `parse` accepts
    with EtherType IPv4: `total_len = len`, `l2_offset = 0`, `l3_offset = 14`,
    `l4_offset = 14 + IHL·4`, `payload_offset ≥ l4_offset`, and `payload_len` is
    `total_len - payload_offset` in `uint16_t`; when the declared headers fit in the frame, the
    payload offset lies inside it and the difference does not wrap. -/
theorem parse_offsets_ordered (pkt : Nat → UInt8) (len : UInt64) (meta : PacketMeta)
    (hlen : len.toNat < 2 ^ 16) (hok : (parse pkt len meta).1 = true)
    (hip : (parse pkt len meta).2.etherType = etherTypeIPv4) :
    let m := (parse pkt len meta).2
    m.totalLen.toNat = len.toNat ∧ m.l2Offset = 0 ∧ m.l3Offset.toNat = ethHeaderSize ∧
      m.l4Offset.toNat = ethHeaderSize + ipHeaderLen pkt ∧ m.l4Offset.toNat ≤ m.payloadOffset.toNat ∧
      m.payloadLen = m.totalLen - m.payloadOffset ∧
      (HeadersFit pkt len.toNat → m.payloadOffset.toNat ≤ m.totalLen.toNat ∧
        m.payloadLen.toNat = m.totalLen.toNat - m.payloadOffset.toNat) := by
  obtain ⟨-, heq⟩ := parse_of_ipv4 hok hip
  rw [heq]
  set i := readIPv4 pkt len (readEthernet pkt meta)
  have hi4 : i.l4Offset.toNat = ethHeaderSize + ipHeaderLen pkt :=
    toNat_add_nibble (readEthernet pkt meta).l3Offset (pkt ethHeaderSize) (by show 14 + 60 < 2 ^ 16; decide)
  have hiT : i.totalLen.toNat = len.toNat := toNat_toUInt16 len hlen
  obtain ⟨-, h2, h3, h4, hT, hpo⟩ := readTransport_spec pkt len i
    (by rw [hi4, ethHeaderSize]; have := ipHeaderLen_le pkt; omega)
  rw [hi4] at hpo
  dsimp only
  rw [toUInt16_sub, h2, h3, h4, hT, hi4, hiT]
  refine ⟨rfl, rfl, rfl, rfl, by omega, rfl, fun ⟨hip1, htcp⟩ => ?_⟩
  have hle : (readTransport pkt len i).payloadOffset.toNat ≤ len.toNat := by
    rcases hpo with ⟨hp, h20, hpo⟩ | ⟨_, hpo⟩ | hpo
    · exact hpo ▸ htcp hp h20
    · omega
    · omega
  refine ⟨hle, ?_⟩
  rw [UInt16.toNat_sub_of_le _ _
    (by show (readTransport pkt len i).payloadOffset.toNat ≤ i.totalLen.toNat; omega)]
  exact congrArg (· - _) hiT

theorem parse_offsets_ordered_tcpFrame :
    let pkt : Nat → UInt8 := fun i =>
      [0, 0, 0, 0, 0, 1, 0, 0, 0, 0, 0, 2, 0x08, 0x00,
        0x45, 0, 0, 40, 0, 0, 0, 0, 64, 6, 0, 0, 10, 0, 0, 1, 10, 0, 0, 2,
        0, 80, 0x1F, 0x90, 0, 0, 0, 0, 0, 0, 0, 0, 0x50, 0x02, 0xFF, 0xFF, 0, 0, 0, 0].getD i 0
    (54 : UInt64).toNat < 2 ^ 16 ∧ (parse pkt 54 {}).1 = true ∧
      (parse pkt 54 {}).2.etherType = etherTypeIPv4 ∧
      let m := (parse pkt 54 {}).2
      m.totalLen.toNat = (54 : UInt64).toNat ∧ m.l2Offset = 0 ∧ m.l3Offset.toNat = ethHeaderSize ∧
        m.l4Offset.toNat = ethHeaderSize + ipHeaderLen pkt ∧
        m.l4Offset.toNat ≤ m.payloadOffset.toNat ∧ m.payloadLen = m.totalLen - m.payloadOffset ∧
        (HeadersFit pkt (54 : UInt64).toNat → m.payloadOffset.toNat ≤ m.totalLen.toNat ∧
          m.payloadLen.toNat = m.totalLen.toNat - m.payloadOffset.toNat) :=
  ⟨by decide, by decide, by decide, parse_offsets_ordered _ _ _ (by decide) (by decide) (by decide)⟩

/-- The bound on `len` is needed: `total_len` is a `uint16_t`, so a 65550-byte frame is accepted
    with `total_len = 14`. -/
example :
    let long : Nat → UInt8 := fun i => [0, 0, 0, 0, 0, 1, 0, 0, 0, 0, 0, 2, 0x08, 0x00, 0x45].getD i 0
    (parse long 65550 {}).1 = true ∧ (parse long 65550 {}).2.totalLen = 14 := by
  decide

/-! ## Every read is inside the frame -/

/-- The byte at offset `i` of a frame of `len` bytes, or `none` past its end. -/
def byteAt? (pkt : Nat → UInt8) (len : UInt64) (i : Nat) : Option UInt8 :=
  if i < len.toNat then some (pkt i) else none

/-- `be16` with bounds-checked reads. -/
def be16? (pkt : Nat → UInt8) (len : UInt64) (i : Nat) : Option UInt16 := do
  let b₀ ← byteAt? pkt len i
  let b₁ ← byteAt? pkt len (i + 1)
  pure (b₀.toUInt16 <<< 8 ||| b₁.toUInt16)

/-- `load16` with bounds-checked reads. -/
def load16? (pkt : Nat → UInt8) (len : UInt64) (i : Nat) : Option UInt16 := do
  let b₀ ← byteAt? pkt len i
  let b₁ ← byteAt? pkt len (i + 1)
  pure (b₀.toUInt16 ||| b₁.toUInt16 <<< 8)

/-- `load32` with bounds-checked reads. -/
def load32? (pkt : Nat → UInt8) (len : UInt64) (i : Nat) : Option UInt32 := do
  let b₀ ← byteAt? pkt len i
  let b₁ ← byteAt? pkt len (i + 1)
  let b₂ ← byteAt? pkt len (i + 2)
  let b₃ ← byteAt? pkt len (i + 3)
  pure (b₀.toUInt32 ||| b₁.toUInt32 <<< 8 ||| b₂.toUInt32 <<< 16 ||| b₃.toUInt32 <<< 24)

/-- `mac` with bounds-checked reads. -/
def mac? (pkt : Nat → UInt8) (len : UInt64) (i : Nat) : Option MacAddr := do
  let b₀ ← byteAt? pkt len i
  let b₁ ← byteAt? pkt len (i + 1)
  let b₂ ← byteAt? pkt len (i + 2)
  let b₃ ← byteAt? pkt len (i + 3)
  let b₄ ← byteAt? pkt len (i + 4)
  let b₅ ← byteAt? pkt len (i + 5)
  pure ⟨[b₀, b₁, b₂, b₃, b₄, b₅], rfl⟩

/-- `readEthernet` with bounds-checked reads. -/
def readEthernet? (pkt : Nat → UInt8) (len : UInt64) (meta : PacketMeta) : Option PacketMeta := do
  let dstMac ← mac? pkt len 0
  let srcMac ← mac? pkt len 6
  let etherType ← be16? pkt len 12
  pure { meta with dstMac, srcMac, etherType, l2Offset := 0, l3Offset := ethHeaderSize.toUInt16 }

/-- `readIPv4` with bounds-checked reads, the IHL read from the header's first byte. -/
def readIPv4? (pkt : Nat → UInt8) (len : UInt64) (meta : PacketMeta) : Option PacketMeta := do
  let l3 := meta.l3Offset.toNat
  let srcIp ← load32? pkt len (l3 + 12)
  let dstIp ← load32? pkt len (l3 + 16)
  let ipProtocol ← byteAt? pkt len (l3 + 9)
  let ipTtl ← byteAt? pkt len (l3 + 8)
  let versionIhl ← byteAt? pkt len l3
  pure { meta with
    srcIp, dstIp, ipProtocol, ipTtl
    l4Offset := meta.l3Offset + (versionIhl &&& 0x0F).toUInt16 * 4
    totalLen := len.toUInt16 }

/-- `readTransport` with bounds-checked reads. -/
def readTransport? (pkt : Nat → UInt8) (len : UInt64) (meta : PacketMeta) : Option PacketMeta :=
  let l4 := meta.l4Offset.toNat
  if meta.ipProtocol = 6 ∧ len.toNat ≥ l4 + 20 then do
    let srcPort ← load16? pkt len l4
    let dstPort ← load16? pkt len (l4 + 2)
    let dataOffset ← byteAt? pkt len (l4 + 12)
    pure { meta with
      srcPort, dstPort
      payloadOffset := meta.l4Offset + ((dataOffset >>> 4) &&& 0x0F).toUInt16 * 4 }
  else if meta.ipProtocol = 17 ∧ len.toNat ≥ l4 + 8 then do
    let srcPort ← load16? pkt len l4
    let dstPort ← load16? pkt len (l4 + 2)
    pure { meta with srcPort, dstPort, payloadOffset := meta.l4Offset + 8 }
  else pure { meta with srcPort := 0, dstPort := 0, payloadOffset := meta.l4Offset }

/-- `parse` with every byte it reads taken through `byteAt?`: the same steps in the same order,
    `none` as soon as a read falls past the frame. -/
def parseChecked (pkt : Nat → UInt8) (len : UInt64) (meta : PacketMeta) :
    Option (Bool × PacketMeta) :=
  if len.toNat < ethHeaderSize then some (false, meta)
  else do
    let meta ← readEthernet? pkt len meta
    if meta.etherType ≠ etherTypeIPv4 then pure (true, meta)
    else if len.toNat < meta.l3Offset.toNat + 20 then pure (false, meta)
    else
      let meta ← readIPv4? pkt len meta
      let meta ← readTransport? pkt len meta
      pure (true, { meta with payloadLen := (len - meta.payloadOffset.toNat.toUInt64).toUInt16 })

section Reads

variable {pkt : Nat → UInt8} {len : UInt64} {i : Nat}

theorem byteAt?_of_lt (h : i < len.toNat) : byteAt? pkt len i = some (pkt i) := if_pos h

theorem be16?_of_le (h : i + 2 ≤ len.toNat) : be16? pkt len i = some (be16 pkt i) := by
  simp only [be16?, byteAt?_of_lt (show i < len.toNat by omega),
    byteAt?_of_lt (show i + 1 < len.toNat by omega)]
  rfl

theorem load16?_of_le (h : i + 2 ≤ len.toNat) : load16? pkt len i = some (load16 pkt i) := by
  simp only [load16?, byteAt?_of_lt (show i < len.toNat by omega),
    byteAt?_of_lt (show i + 1 < len.toNat by omega)]
  rfl

theorem load32?_of_le (h : i + 4 ≤ len.toNat) : load32? pkt len i = some (load32 pkt i) := by
  simp only [load32?, byteAt?_of_lt (show i < len.toNat by omega),
    byteAt?_of_lt (show i + 1 < len.toNat by omega), byteAt?_of_lt (show i + 2 < len.toNat by omega),
    byteAt?_of_lt (show i + 3 < len.toNat by omega)]
  rfl

theorem mac?_of_le (h : i + 6 ≤ len.toNat) : mac? pkt len i = some (mac pkt i) := by
  simp only [mac?, byteAt?_of_lt (show i < len.toNat by omega),
    byteAt?_of_lt (show i + 1 < len.toNat by omega), byteAt?_of_lt (show i + 2 < len.toNat by omega),
    byteAt?_of_lt (show i + 3 < len.toNat by omega), byteAt?_of_lt (show i + 4 < len.toNat by omega),
    byteAt?_of_lt (show i + 5 < len.toNat by omega)]
  rfl

theorem readEthernet?_of_le (meta : PacketMeta) (h : ethHeaderSize ≤ len.toNat) :
    readEthernet? pkt len meta = some (readEthernet pkt meta) := by
  unfold ethHeaderSize at h
  simp only [readEthernet?, mac?_of_le (show 0 + 6 ≤ len.toNat by omega),
    mac?_of_le (show 6 + 6 ≤ len.toNat by omega), be16?_of_le (show 12 + 2 ≤ len.toNat by omega)]
  rfl

theorem readIPv4?_of_le (meta : PacketMeta) (h : meta.l3Offset.toNat + 20 ≤ len.toNat) :
    readIPv4? pkt len meta = some (readIPv4 pkt len meta) := by
  simp only [readIPv4?, load32?_of_le (show meta.l3Offset.toNat + 12 + 4 ≤ len.toNat by omega),
    load32?_of_le (show meta.l3Offset.toNat + 16 + 4 ≤ len.toNat by omega),
    byteAt?_of_lt (show meta.l3Offset.toNat + 9 < len.toNat by omega),
    byteAt?_of_lt (show meta.l3Offset.toNat + 8 < len.toNat by omega),
    byteAt?_of_lt (show meta.l3Offset.toNat < len.toNat by omega)]
  rfl

/-- The transport reads are guarded by the header sizes they read, so they never fail. -/
theorem readTransport?_eq (meta : PacketMeta) :
    readTransport? pkt len meta = some (readTransport pkt len meta) := by
  unfold readTransport? readTransport
  dsimp only
  split_ifs with h₁ h₂
  · simp only [load16?_of_le (show meta.l4Offset.toNat + 2 ≤ len.toNat by omega),
      load16?_of_le (show meta.l4Offset.toNat + 2 + 2 ≤ len.toNat by omega),
      byteAt?_of_lt (show meta.l4Offset.toNat + 12 < len.toNat by omega)]
    rfl
  · simp only [load16?_of_le (show meta.l4Offset.toNat + 2 ≤ len.toNat by omega),
      load16?_of_le (show meta.l4Offset.toNat + 2 + 2 ≤ len.toNat by omega)]
    rfl
  · rfl

end Reads

/-- **`parse` never reads past the frame.** For every buffer, length and `PacketMeta`, the
    bounds-checked `parse` never takes its out-of-bounds branch and agrees with `parse`: every byte
    `parse` reads lies below `len`. -/
theorem parseChecked_eq_parse (pkt : Nat → UInt8) (len : UInt64) (meta : PacketMeta) :
    parseChecked pkt len meta = some (parse pkt len meta) := by
  unfold parseChecked parse
  by_cases h₁ : len.toNat < ethHeaderSize
  · simp only [if_pos h₁]
  rw [if_neg h₁, if_neg h₁, readEthernet?_of_le meta (Nat.le_of_not_lt h₁), Option.bind_eq_bind,
    Option.some_bind]
  dsimp only
  split_ifs with h₂ h₃
  · rfl
  · rfl
  · rw [readIPv4?_of_le _ (Nat.le_of_not_lt h₃), Option.some_bind, readTransport?_eq,
      Option.some_bind]
    rfl

end ProtocolParser

end L4lb
