import L4lb.Types

/-!
# `L4lb.Checksum` — `IpChecksum` of `protocol/ip.h`

`IpChecksum::calculate` reads its buffer as `uint16_t` words in host byte order, adds them into a
`uint32_t`, adds an odd trailing byte as it stands, folds the carries back into the low 16 bits
and complements. `update` zeroes a header's checksum field and stores there `calculate` of the
`ihl * 4` header bytes; `incremental_update` adjusts a stored checksum for one changed word
without rereading the buffer.

The host byte order is a parameter (`ByteOrder`): it decides which `uint16_t` two bytes in memory
are, and which two bytes a stored `uint16_t` becomes. A buffer is the list of its `len` bytes.

Every statement goes through one arithmetic description of the code. The word loop adds up
`loopSum` (without wrap-around for buffers of at most `0xFFFF` bytes), and the carry loop turns a
sum `s` into `foldNat s`: `0` for `0`, and otherwise the number in `[1, 0xFFFF]` congruent to `s`
modulo `0xFFFF`. Replacing a word changes `loopSum` by the difference of the two words
(`loopSum_setWord`).

## Contents
- **`calculate` is the Internet checksum on a little-endian host**
  (`calculate_eq_internetChecksum`): for every buffer of at most `0xFFFF` bytes, and on a
  big-endian host for every even-length one, it is the complement of the one's-complement sum of
  the words (`internetChecksum`).
- **Not for an odd length on a big-endian host** (`calculate_big_odd_byte`): the trailing byte is
  added as the low half of a word, where the zero padding makes it the high half.
- **`update` makes the header verify** (`calculate_update`): on either host, after `update`,
  `calculate` over the header returns `0`.
- **`incremental_update` agrees with recomputation up to the sign of zero**
  (`incrementalUpdate_eq_calculate`): it returns `calculate` of the changed buffer unless every
  byte of that buffer is zero; then it returns `0x0000` where `calculate` returns `0xFFFF`
  (`incrementalUpdate_zero_buffer`).
-/

namespace L4lb

/-- The host's byte order. -/
inductive ByteOrder
  | little
  | big
deriving DecidableEq, Repr

namespace IpChecksum

/-- The `uint16_t` that the bytes `a b` (in address order) are on a host of byte order `o`. -/
def hostWord : ByteOrder → UInt8 → UInt8 → UInt16
  | .little, a, b => a.toUInt16 + b.toUInt16 * 256
  | .big, a, b => a.toUInt16 * 256 + b.toUInt16

/-- The bytes (in address order) that storing the `uint16_t` `v` writes on a host of order `o`. -/
def hostBytes : ByteOrder → UInt16 → UInt8 × UInt8
  | .little, v => (v.toUInt8, (v / 256).toUInt8)
  | .big, v => ((v / 256).toUInt8, v.toUInt8)

theorem toNat_hostWord_little (a b : UInt8) :
    (hostWord .little a b).toNat = a.toNat + 256 * b.toNat := by
  have ha : a.toNat < 2 ^ 8 := a.toNat_lt_size
  have hb : b.toNat < 2 ^ 8 := b.toNat_lt_size
  show (a.toNat + b.toNat * 256 % 2 ^ 16) % 2 ^ 16 = _
  omega

theorem toNat_hostWord_big (a b : UInt8) :
    (hostWord .big a b).toNat = 256 * a.toNat + b.toNat := by
  have ha : a.toNat < 2 ^ 8 := a.toNat_lt_size
  have hb : b.toNat < 2 ^ 8 := b.toNat_lt_size
  show (a.toNat * 256 % 2 ^ 16 + b.toNat) % 2 ^ 16 = _
  omega

/-- A stored `uint16_t` reads back as itself. -/
theorem hostWord_hostBytes (o : ByteOrder) (v : UInt16) :
    hostWord o (hostBytes o v).1 (hostBytes o v).2 = v := by
  have hv : v.toNat < 2 ^ 16 := v.toNat_lt_size
  apply UInt16.toNat.inj
  cases o
  · rw [toNat_hostWord_little]
    show v.toNat % 2 ^ 8 + 256 * (v.toNat / 256 % 2 ^ 8) = v.toNat
    omega
  · rw [toNat_hostWord_big]
    show 256 * (v.toNat / 256 % 2 ^ 8) + v.toNat % 2 ^ 8 = v.toNat
    omega

theorem hostWord_eq_zero {o : ByteOrder} {a b : UInt8} :
    (hostWord o a b).toNat = 0 ↔ a = 0 ∧ b = 0 := by
  have key : (hostWord o a b).toNat = 0 ↔ a.toNat = 0 ∧ b.toNat = 0 := by
    cases o
    · rw [toNat_hostWord_little]; omega
    · rw [toNat_hostWord_big]; omega
  rw [key, ← UInt8.toNat_zero]
  exact and_congr ⟨UInt8.toNat.inj, congrArg _⟩ ⟨UInt8.toNat.inj, congrArg _⟩

/-! ## `IpChecksum` -/

/-- The first loop of `calculate` and the odd byte after it: `sum += *ptr++` while two bytes
    remain, then `sum += *reinterpret_cast<const uint8_t*>(ptr)`, in a `uint32_t`. -/
def sumWords (o : ByteOrder) : UInt32 → List UInt8 → UInt32
  | sum, a :: b :: rest => sumWords o (sum + (hostWord o a b).toUInt32) rest
  | sum, [a] => sum + a.toUInt32
  | sum, [] => sum

/-- One pass of the carry loop: `sum = (sum & 0xFFFF) + (sum >> 16)`. -/
def carry (sum : UInt32) : UInt32 := (sum &&& (0xFFFF : UInt32)) + (sum >>> 16)

/-- `while (sum >> 16) sum = (sum & 0xFFFF) + (sum >> 16);`, for at most `n` passes. -/
def carryLoop : Nat → UInt32 → UInt32
  | 0, sum => sum
  | n + 1, sum => if sum >>> 16 = 0 then sum else carryLoop n (carry sum)

/-- The carry loop of `calculate` and `incremental_update`. Two passes bring every `uint32_t`
    below `2^16` (the first leaves at most `0x1FFFE`; `fold_toNat` gives the result, at most
    `0xFFFF`), where the source loop stops as well. -/
def fold (sum : UInt32) : UInt32 := carryLoop 2 sum

/-- `IpChecksum::calculate(data, len)` on a host of byte order `o`; `data` is the `len` bytes. -/
def calculate (o : ByteOrder) (data : List UInt8) : UInt16 :=
  (~~~(fold (sumWords o 0 data))).toUInt16

/-- The `uint16_t` at byte offset `off` of a buffer. -/
def wordAt (o : ByteOrder) (data : List UInt8) (off : Nat) : UInt16 :=
  hostWord o (data.getD off 0) (data.getD (off + 1) 0)

/-- The buffer after storing the `uint16_t` `v` at byte offset `off`. -/
def setWord (o : ByteOrder) (data : List UInt8) (off : Nat) (v : UInt16) : List UInt8 :=
  (data.set off (hostBytes o v).1).set (off + 1) (hostBytes o v).2

/-- The byte offset of `IPv4Header::checksum`. -/
def checksumOffset : Nat := 10

/-- `IPv4Header::get_header_len()`: `(version_ihl & 0x0F) * 4`. -/
def headerLen : List UInt8 → Nat
  | v :: _ => (v &&& 0x0F).toNat * 4
  | [] => 0

/-- `IpChecksum::update(ip)` on the bytes from the start of the header: `ip->checksum = 0`, then
    `ip->checksum = calculate(ip, ip->get_header_len())`. -/
def update (o : ByteOrder) (hdr : List UInt8) : List UInt8 :=
  let zeroed := setWord o hdr checksumOffset 0
  setWord o zeroed checksumOffset (calculate o (zeroed.take (headerLen zeroed)))

/-- `IpChecksum::incremental_update(old_sum, old_val, new_val)`. On the `int` that `~old_sum`
    is, `& 0xFFFF` keeps the 16-bit complement; the sum (below `3 * 0xFFFF`) is stored in a
    `uint32_t`, and `~sum` is returned as a `uint16_t`. -/
def incrementalUpdate (oldSum oldVal newVal : UInt16) : UInt16 :=
  (~~~(fold ((~~~oldSum).toUInt32 + (~~~oldVal).toUInt32 + newVal.toUInt32))).toUInt16

/-! ## The Internet checksum -/

/-- One's-complement addition of 16-bit words: add, and add the carry out of bit 15 back in. -/
def onesAdd (a b : UInt16) : UInt16 :=
  if a.toNat + b.toNat < 2 ^ 16 then a + b else a + b + 1

/-- The buffer as 16-bit words in host order, an odd trailing byte padded with a zero byte. -/
def words (o : ByteOrder) : List UInt8 → List UInt16
  | a :: b :: rest => hostWord o a b :: words o rest
  | [a] => [hostWord o a 0]
  | [] => []

/-- The Internet checksum: the complement of the one's-complement sum of the words. -/
def internetChecksum (o : ByteOrder) (data : List UInt8) : UInt16 :=
  ~~~((words o data).foldl onesAdd 0)

/-! ## Arithmetic of the carry fold -/

/-- What folding the carries of `s` leaves: `0` for `0`, otherwise the number in `[1, 0xFFFF]`
    congruent to `s` modulo `0xFFFF`. -/
def foldNat (s : Nat) : Nat := if s = 0 then 0 else (s - 1) % 0xFFFF + 1

theorem foldNat_le (s : Nat) : foldNat s ≤ 0xFFFF := by
  unfold foldNat; split_ifs <;> omega

theorem foldNat_of_le {s : Nat} (h : s ≤ 0xFFFF) : foldNat s = s := by
  unfold foldNat; split_ifs <;> omega

theorem foldNat_add_foldNat (a b : Nat) : foldNat (foldNat a + b) = foldNat (a + b) := by
  unfold foldNat; split_ifs <;> omega

/-- Adding a sum's complement gives the one's-complement zero `0xFFFF`. -/
theorem foldNat_complement (S : Nat) : foldNat (S + (0xFFFF - foldNat S)) = 0xFFFF := by
  rcases Nat.eq_zero_or_pos S with rfl | hS
  · rfl
  · unfold foldNat; split_ifs <;> omega

/-- Subtracting the word `m` from a folded sum and adding `v`, in one's complement: the fold of
    `S - m + v`, except that a zero result comes out as `0xFFFF`. -/
theorem foldNat_adjust {S m v : Nat} (hm : m ≤ S) (hm' : m ≤ 0xFFFF) :
    foldNat (foldNat S + (0xFFFF - m) + v) =
      if S - m + v = 0 then 0xFFFF else foldNat (S - m + v) := by
  unfold foldNat; split_ifs <;> omega

theorem carry_toNat (s : UInt32) : (carry s).toNat = s.toNat % 2 ^ 16 + s.toNat / 2 ^ 16 := by
  have : s.toNat < 2 ^ 32 := s.toNat_lt_size
  show ((s.toNat &&& 2 ^ 16 - 1) + s.toNat >>> 16) % 2 ^ 32 = _
  rw [Nat.and_pow_two_sub_one_eq_mod, Nat.shiftRight_eq_div_pow]
  omega

theorem shiftRight_eq_zero (s : UInt32) : s >>> 16 = 0 ↔ s.toNat < 2 ^ 16 := by
  have h : (s >>> 16).toNat = s.toNat / 2 ^ 16 := Nat.shiftRight_eq_div_pow _ _
  rw [← Nat.div_eq_zero_iff (by decide), ← h]
  exact ⟨congrArg UInt32.toNat, fun h0 => UInt32.toNat.inj (h0.trans UInt32.toNat_zero.symm)⟩

theorem fold_toNat (s : UInt32) : (fold s).toNat = foldNat s.toNat := by
  have hs : s.toNat < 2 ^ 32 := s.toNat_lt_size
  have h1 := carry_toNat s
  have h2 := carry_toNat (carry s)
  simp only [fold, carryLoop, shiftRight_eq_zero, foldNat]
  split_ifs <;> omega

theorem not_toUInt16 (x : UInt32) (h : x.toNat ≤ 0xFFFF) :
    (~~~x).toUInt16.toNat = 0xFFFF - x.toNat := by
  have h' : (~~~x).toNat = 2 ^ 32 - 1 - x.toNat := BitVec.toNat_not
  show (~~~x).toNat % 2 ^ 16 = _
  omega

theorem not16_toNat (x : UInt16) : (~~~x).toNat = 0xFFFF - x.toNat := BitVec.toNat_not

/-! ## The word loop -/

/-- What the word loop adds up, over `Nat`: each host-order word, then an odd byte as it stands. -/
def loopSum (o : ByteOrder) : List UInt8 → Nat
  | a :: b :: rest => (hostWord o a b).toNat + loopSum o rest
  | [a] => a.toNat
  | [] => 0

theorem sumWords_toNat (o : ByteOrder) (sum : UInt32) (data : List UInt8) :
    (sumWords o sum data).toNat = (sum.toNat + loopSum o data) % 2 ^ 32 := by
  induction sum, data using sumWords.induct o with
  | case1 sum a b rest ih =>
    rw [sumWords, loopSum, ih]
    show ((sum.toNat + (hostWord o a b).toNat) % 2 ^ 32 + loopSum o rest) % 2 ^ 32 = _
    omega
  | case2 sum a => rfl
  | case3 sum =>
    have : sum.toNat < 2 ^ 32 := sum.toNat_lt_size
    show sum.toNat = (sum.toNat + 0) % 2 ^ 32
    omega

theorem loopSum_le (o : ByteOrder) (data : List UInt8) : loopSum o data ≤ 0xFFFF * data.length := by
  induction data using loopSum.induct o with
  | case1 a b rest ih =>
    have : (hostWord o a b).toNat < 2 ^ 16 := (hostWord o a b).toNat_lt_size
    simp only [loopSum, List.length_cons]
    omega
  | case2 a =>
    have : a.toNat < 2 ^ 8 := a.toNat_lt_size
    simp only [loopSum, List.length_singleton]
    omega
  | case3 => simp [loopSum]

/-- For at most `0xFFFF` bytes the `uint32_t` sum does not wrap, and `calculate` is the complement
    of the folded `loopSum`. -/
theorem calculate_toNat (o : ByteOrder) (data : List UInt8) (h : data.length ≤ 0xFFFF) :
    (calculate o data).toNat = 0xFFFF - foldNat (loopSum o data) := by
  have hsum : (sumWords o 0 data).toNat = loopSum o data := by
    have := loopSum_le o data
    have : 0xFFFF * data.length ≤ 0xFFFF * 0xFFFF := Nat.mul_le_mul_left _ h
    rw [sumWords_toNat]
    show (0 + loopSum o data) % 2 ^ 32 = _
    omega
  unfold calculate
  rw [not_toUInt16 _ (by rw [fold_toNat]; exact foldNat_le _), fold_toNat, hsum]

@[simp] theorem length_setWord (o : ByteOrder) (l : List UInt8) (off : Nat) (v : UInt16) :
    (setWord o l off v).length = l.length := by
  simp [setWord]

theorem take_setWord (o : ByteOrder) (l : List UInt8) (off n : Nat) (v : UInt16) :
    (setWord o l off v).take n = setWord o (l.take n) off v := by
  simp only [setWord, List.set_take]

theorem wordAt_setWord (o : ByteOrder) (l : List UInt8) (off : Nat) (v : UInt16)
    (h : off + 1 < l.length) : wordAt o (setWord o l off v) off = v := by
  simp [wordAt, setWord, List.getElem?_set, h, Nat.lt_of_succ_lt h, hostWord_hostBytes]

/-- Storing `v` over the word `m` at an even offset changes the sum by `v - m`. -/
theorem loopSum_setWord (o : ByteOrder) (l : List UInt8) (off : Nat) (v : UInt16)
    (hoff : off % 2 = 0) (h : off + 1 < l.length) :
    loopSum o (setWord o l off v) + (wordAt o l off).toNat = loopSum o l + v.toNat := by
  induction l using loopSum.induct o generalizing off with
  | case1 a b rest ih =>
    obtain _ | _ | k := off
    · show (hostWord o (hostBytes o v).1 (hostBytes o v).2).toNat + loopSum o rest +
          (hostWord o a b).toNat = (hostWord o a b).toNat + loopSum o rest + v.toNat
      rw [hostWord_hostBytes]
      omega
    · simp at hoff
    · have := ih k (by omega) (by simp only [List.length_cons] at h; omega)
      show (hostWord o a b).toNat + loopSum o (setWord o rest k v) + (wordAt o rest k).toNat =
        (hostWord o a b).toNat + loopSum o rest + v.toNat
      omega
  | case2 a => simp at h
  | case3 => simp at h

theorem loopSum_eq_zero (o : ByteOrder) (l : List UInt8) : loopSum o l = 0 ↔ ∀ x ∈ l, x = 0 := by
  induction l using loopSum.induct o with
  | case1 a b rest ih =>
    simp only [loopSum, Nat.add_eq_zero_iff, hostWord_eq_zero, ih, List.mem_cons,
      forall_eq_or_imp, and_assoc]
  | case2 a =>
    simp only [loopSum, List.mem_singleton, forall_eq, ← UInt8.toNat_zero]
    exact ⟨UInt8.toNat.inj, congrArg _⟩
  | case3 => simp [loopSum]

/-! ## `calculate` against the Internet checksum -/

theorem onesAdd_toNat (a b : UInt16) : (onesAdd a b).toNat = foldNat (a.toNat + b.toNat) := by
  have ha : a.toNat < 2 ^ 16 := a.toNat_lt_size
  have hb : b.toNat < 2 ^ 16 := b.toNat_lt_size
  have h1 : (a + b).toNat = (a.toNat + b.toNat) % 2 ^ 16 := rfl
  have h2 : (a + b + 1).toNat = ((a.toNat + b.toNat) % 2 ^ 16 + 1) % 2 ^ 16 := rfl
  unfold onesAdd foldNat
  split_ifs <;> simp only [h1, h2] <;> omega

theorem foldl_onesAdd (a : UInt16) (ws : List UInt16) :
    (ws.foldl onesAdd a).toNat = foldNat (a.toNat + (ws.map UInt16.toNat).sum) := by
  induction ws generalizing a with
  | nil => exact (foldNat_of_le (Nat.le_of_lt_succ a.toNat_lt_size)).symm
  | cons w ws ih =>
    rw [List.foldl_cons, ih, onesAdd_toNat, foldNat_add_foldNat, List.map_cons, List.sum_cons,
      Nat.add_assoc]

theorem internetChecksum_toNat (o : ByteOrder) (data : List UInt8) :
    (internetChecksum o data).toNat = 0xFFFF - foldNat ((words o data).map UInt16.toNat).sum := by
  rw [internetChecksum, not16_toNat, foldl_onesAdd, UInt16.toNat_zero, Nat.zero_add]

/-- The words sum to what the loop adds up, except for an odd byte on a big-endian host. -/
theorem words_sum (o : ByteOrder) (data : List UInt8) (h : o = .little ∨ data.length % 2 = 0) :
    ((words o data).map UInt16.toNat).sum = loopSum o data := by
  induction data using loopSum.induct o with
  | case1 a b rest ih =>
    have h' : o = .little ∨ rest.length % 2 = 0 :=
      h.imp_right fun h => by simp only [List.length_cons] at h; omega
    simp only [words, loopSum, List.map_cons, List.sum_cons, ih h']
  | case2 a =>
    rcases h with rfl | h
    · simp [words, loopSum, toNat_hostWord_little]
    · simp at h
  | case3 => rfl

theorem calculate_eq_internetChecksum (o : ByteOrder) (data : List UInt8)
    (hlen : data.length ≤ 0xFFFF) (h : o = .little ∨ data.length % 2 = 0) :
    calculate o data = internetChecksum o data :=
  UInt16.toNat.inj (by rw [calculate_toNat o data hlen, internetChecksum_toNat, words_sum o data h])

/-- Three bytes on a little-endian host: the odd byte is the low half of the last word. -/
theorem calculate_eq_internetChecksum_threeBytes :
    let data : List UInt8 := [0x45, 0x00, 0x1C]
    data.length ≤ 0xFFFF ∧ (ByteOrder.little = .little ∨ data.length % 2 = 0) ∧
      calculate .little data = internetChecksum .little data :=
  ⟨by decide, .inl rfl, calculate_eq_internetChecksum .little _ (by decide) (.inl rfl)⟩

theorem calculate_big_odd_byte :
    calculate .big [0x01] = 0xFFFE ∧ internetChecksum .big [0x01] = 0xFEFF := by
  decide

/-! ## `update` -/

/-- Storing a buffer's checksum into a zero word of it makes the buffer's checksum `0`. -/
theorem calculate_setWord_calculate (o : ByteOrder) (l : List UInt8) (off : Nat)
    (hlen : l.length ≤ 0xFFFF) (hoff : off % 2 = 0) (h : off + 1 < l.length)
    (hz : wordAt o l off = 0) : calculate o (setWord o l off (calculate o l)) = 0 := by
  have hS := loopSum_setWord o l off (calculate o l) hoff h
  rw [hz, calculate_toNat o l hlen] at hS
  apply UInt16.toNat.inj
  rw [calculate_toNat _ _ (by rwa [length_setWord]), UInt16.toNat_zero,
    show loopSum o (setWord o l off (calculate o l)) = loopSum o l + (0xFFFF - foldNat (loopSum o l))
      by simpa using hS, foldNat_complement]

theorem headerLen_setWord (o : ByteOrder) (l : List UInt8) (v : UInt16) :
    headerLen (setWord o l checksumOffset v) = headerLen l := by
  cases l <;> rfl

theorem headerLen_le (l : List UInt8) : headerLen l ≤ 60 := by
  cases l with
  | nil => decide
  | cons v _ =>
    have : (v &&& 0x0F).toNat ≤ 15 := by
      rw [UInt8.and_toNat]
      exact Nat.le_of_lt_succ (Nat.and_lt_two_pow _ (by decide : 15 < 2 ^ 4))
    show (v &&& 0x0F).toNat * 4 ≤ 60
    omega

/-- After `update`, the header's checksum verifies, on either host. -/
theorem calculate_update (o : ByteOrder) (hdr : List UInt8)
    (hcov : checksumOffset + 2 ≤ headerLen hdr) (hlen : headerLen hdr ≤ hdr.length) :
    calculate o ((update o hdr).take (headerLen hdr)) = 0 := by
  have hn := headerLen_le hdr
  have htake : (hdr.take (headerLen hdr)).length = headerLen hdr := by simp; omega
  dsimp only [update]
  rw [headerLen_setWord, take_setWord, take_setWord]
  exact calculate_setWord_calculate o _ _ (by simp; omega) rfl (by simp [htake]; omega)
    (wordAt_setWord o _ _ 0 (by rw [htake]; exact hcov))

/-! ## `incremental_update` -/

theorem incrementalUpdate_toNat (oldSum oldVal newVal : UInt16) :
    (incrementalUpdate oldSum oldVal newVal).toNat =
      0xFFFF - foldNat ((0xFFFF - oldSum.toNat) + (0xFFFF - oldVal.toNat) + newVal.toNat) := by
  have hsum : ((~~~oldSum).toUInt32 + (~~~oldVal).toUInt32 + newVal.toUInt32).toNat =
      (0xFFFF - oldSum.toNat) + (0xFFFF - oldVal.toNat) + newVal.toNat := by
    have : newVal.toNat < 2 ^ 16 := newVal.toNat_lt_size
    show (((~~~oldSum).toNat + (~~~oldVal).toNat) % 2 ^ 32 + newVal.toNat) % 2 ^ 32 = _
    rw [not16_toNat, not16_toNat]
    omega
  unfold incrementalUpdate
  rw [not_toUInt16 _ (by rw [fold_toNat]; exact foldNat_le _), fold_toNat, hsum]

theorem incrementalUpdate_zero_buffer :
    incrementalUpdate (calculate .little [0, 0]) (wordAt .little [0, 0] 0) 0 = 0x0000 ∧
      calculate .little (setWord .little [0, 0] 0 0) = 0xFFFF := by
  decide

theorem incrementalUpdate_eq_calculate (o : ByteOrder) (b : List UInt8) (off : Nat) (v : UInt16)
    (hlen : b.length ≤ 0xFFFF) (heven : b.length % 2 = 0) (hoff : off % 2 = 0)
    (hlt : off < b.length) :
    ((∃ x ∈ setWord o b off v, x ≠ 0) →
        incrementalUpdate (calculate o b) (wordAt o b off) v = calculate o (setWord o b off v)) ∧
      ((∀ x ∈ setWord o b off v, x = 0) →
        incrementalUpdate (calculate o b) (wordAt o b off) v = 0x0000 ∧
          calculate o (setWord o b off v) = 0xFFFF) := by
  have hw : off + 1 < b.length := by omega
  have hm : (wordAt o b off).toNat ≤ loopSum o b := by
    have := loopSum_setWord o b off 0 hoff hw
    rw [UInt16.toNat_zero] at this
    omega
  have hb' : loopSum o (setWord o b off v) = loopSum o b - (wordAt o b off).toNat + v.toNat := by
    have := loopSum_setWord o b off v hoff hw
    omega
  have hinc := incrementalUpdate_toNat (calculate o b) (wordAt o b off) v
  rw [calculate_toNat o b hlen, Nat.sub_sub_self (foldNat_le _),
    foldNat_adjust hm (Nat.le_of_lt_succ (wordAt o b off).toNat_lt_size)] at hinc
  have hcalc := calculate_toNat o (setWord o b off v) (by rwa [length_setWord])
  have hz := loopSum_eq_zero o (setWord o b off v)
  rw [hb'] at hcalc hz
  constructor
  · rintro ⟨x, hx, hne⟩
    have hne0 : loopSum o b - (wordAt o b off).toNat + v.toNat ≠ 0 := fun h0 => hne (hz.mp h0 x hx)
    exact UInt16.toNat.inj (by rw [hinc, hcalc, if_neg hne0])
  · intro hall
    have h0 := hz.mpr hall
    rw [if_pos h0] at hinc
    rw [h0] at hcalc
    exact ⟨UInt16.toNat.inj hinc, UInt16.toNat.inj hcalc⟩

/-- Decrementing the TTL of a 20-byte header (the word `ttl, protocol` at offset 8). -/
theorem incrementalUpdate_eq_calculate_ttl :
    let b : List UInt8 := [0x45, 0x00, 0x00, 0x3c, 0x1c, 0x46, 0x40, 0x00, 0x40, 0x06,
      0x00, 0x00, 0xac, 0x10, 0x0a, 0x63, 0xac, 0x10, 0x0a, 0x0c]
    b.length ≤ 0xFFFF ∧ b.length % 2 = 0 ∧ 8 % 2 = 0 ∧ 8 < b.length ∧
      incrementalUpdate (calculate .little b) (wordAt .little b 8) (hostWord .little 0x3f 0x06) =
        calculate .little (setWord .little b 8 (hostWord .little 0x3f 0x06)) :=
  ⟨by decide, by decide, rfl, by decide,
    (incrementalUpdate_eq_calculate .little _ 8 _ (by decide) (by decide) rfl (by decide)).1
      ⟨0x45, by decide, by decide⟩⟩

end IpChecksum

end L4lb
