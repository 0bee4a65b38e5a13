import L4lb.Types

/-!
# `L4lb.Murmur` — `MurmurHash3` (32-bit) as the balancer computes it

`MurmurHash3::hash` over a byte string, read as the source does on x86-64: the body consumes
4-byte blocks as little-endian `uint32_t` (the `reinterpret_cast` load), the tail `switch` folds
the last 1–3 bytes, and the finaliser xors in `len` (truncated to 32 bits) before `fmix32`.

Two callers fix what is hashed:
* `hashTuple` hashes the whole 16-byte `FiveTuple` object, padding included
  (`hash(&tuple, sizeof(tuple))`);
* `replicaKey` is the virtual-node key `std::to_string(id) + "#" + std::to_string(i)`.
-/

namespace L4lb

namespace MurmurHash3

/-- Block multiplier `c1`. -/
def c1 : UInt32 := 0xcc9e2d51

/-- Block multiplier `c2`. -/
def c2 : UInt32 := 0x1b873593

/-- `rotl32`. The callers rotate by 13 and 15, so both shift counts are below 32. -/
def rotl32 (x r : UInt32) : UInt32 := (x <<< r) ||| (x >>> (32 - r))

/-- `fmix32`, the avalanche finaliser. -/
def fmix32 (h : UInt32) : UInt32 :=
  let h := h ^^^ (h >>> 16)
  let h := h * 0x85ebca6b
  let h := h ^^^ (h >>> 13)
  let h := h * 0xc2b2ae35
  h ^^^ (h >>> 16)

/-- `k1 *= c1; k1 = rotl32(k1, 15); k1 *= c2`, shared by the body and the tail. -/
def scramble (k1 : UInt32) : UInt32 := rotl32 (k1 * c1) 15 * c2

/-- One body round: fold the block `k1` into the running hash `h1`. -/
def mixBlock (h1 k1 : UInt32) : UInt32 := rotl32 (h1 ^^^ scramble k1) 13 * 5 + 0xe6546b64

/-- A block loaded through `const uint32_t*` on a little-endian host. -/
def le32 (b0 b1 b2 b3 : UInt8) : UInt32 :=
  b0.toUInt32 ||| (b1.toUInt32 <<< 8) ||| (b2.toUInt32 <<< 16) ||| (b3.toUInt32 <<< 24)

/-- The body loop over the `len / 4` whole blocks; returns the hash and the unread tail. -/
def body (h1 : UInt32) : List UInt8 → UInt32 × List UInt8
  | b0 :: b1 :: b2 :: b3 :: rest => body (mixBlock h1 (le32 b0 b1 b2 b3)) rest
  | rest => (h1, rest)

/-- The tail `switch (len & 3)` with its fall-through cases. -/
def tail (h1 : UInt32) : List UInt8 → UInt32
  | [t0] => h1 ^^^ scramble t0.toUInt32
  | [t0, t1] => h1 ^^^ scramble (t0.toUInt32 ^^^ (t1.toUInt32 <<< 8))
  | [t0, t1, t2] =>
      h1 ^^^ scramble (t0.toUInt32 ^^^ (t1.toUInt32 <<< 8) ^^^ (t2.toUInt32 <<< 16))
  | _ => h1

/-- `MurmurHash3::hash(key, len, seed)`. -/
def hash (data : List UInt8) (seed : UInt32 := 0) : UInt32 :=
  let (h1, rest) := body seed data
  fmix32 (tail h1 rest ^^^ data.length.toUInt32)

/-- `MurmurHash3::hash_tuple`: the hash of the tuple object's 16 bytes, padding included. -/
def hashTuple (o : TupleObject) : UInt32 := hash o.bytes

end MurmurHash3

/-- `std::to_string` of an unsigned value, as ASCII bytes. -/
def decimal (n : Nat) : List UInt8 := (Nat.toDigits 10 n).map fun c => c.toNat.toUInt8

/-- The virtual-node key `std::to_string(server_id) + "#" + std::to_string(i)`. -/
def replicaKey (serverId : UInt32) (i : Nat) : List UInt8 :=
  decimal serverId.toNat ++ [35] ++ decimal i

/-- The ring position of virtual node `i` of `serverId`. -/
def replicaPos (serverId : UInt32) (i : Nat) : UInt32 := MurmurHash3.hash (replicaKey serverId i)

end L4lb
