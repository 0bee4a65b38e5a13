import L4lb.Types
import L4lb.Text

/-!
# `L4lb.Address` — the address text codecs of `common/types.h`

`ip_from_string` reads four `%u` fields separated by `.` with `sscanf` and packs them as
`(d << 24) | (c << 16) | (b << 8) | a`, the first field in the lowest byte (network order on a
little-endian host); `ip_to_string` prints the four bytes from the lowest. `mac_from_string`
reads six `%x` fields separated by `:` and keeps the low byte of each; `mac_to_string` prints the
octets as `%02X`. A text that does not convert in full gives `0` or the zero MAC.

## Contents
- **The codecs are mutual inverses** (`ipFromString_ipToString`, `macFromString_macToString`).
- **A nonzero result was read from fields** (`ipFromString_ne_zero`, `macFromString_ne_zero`): the
  text begins with four (six) fields that `sscanf` converts (`Libc.ScanField`), and the result is
  assembled from their values; when the values fit a byte, printing the result spells them.
- **Fields need not fit a byte** (`ipFromString_wide_field`): `256.0.0.0` is read as `256`, which
  prints as `0.1.0.0`, and `100:0:0:0:0:1` as the MAC `00:00:00:00:00:01`.
- `addressCodecs_spec` collects the four results above.
-/

namespace L4lb

open Libc

/-- `ip_from_string(ip_str)`: `sscanf(ip_str.c_str(), "%u.%u.%u.%u", &a, &b, &c, &d)`; `0` unless
    all four convert, and otherwise `(d << 24) | (c << 16) | (b << 8) | a`. -/
def ipFromString (s : List Char) : IPv4Addr :=
  match scanList false '.' 3 (cStr s) with
  | some [a, b, c, d] => (d <<< 24) ||| (c <<< 16) ||| (b <<< 8) ||| a
  | _ => 0

/-- `ip_to_string(ip)`: `"%u.%u.%u.%u"` of `ip & 0xFF`, `(ip >> 8) & 0xFF`, `(ip >> 16) & 0xFF`
    and `(ip >> 24) & 0xFF`. -/
def ipToString (ip : IPv4Addr) : List Char :=
  List.intercalate ['.']
    ([ip &&& 0xFF, (ip >>> 8) &&& 0xFF, (ip >>> 16) &&& 0xFF, (ip >>> 24) &&& 0xFF].map
      fun v => decimal v.toNat)

/-- `mac_from_string(mac_str)`: `sscanf` with `"%x:%x:%x:%x:%x:%x"` into `unsigned int`s, each
    stored by `static_cast<uint8_t>`; the zero MAC unless all six convert. -/
def macFromString (s : List Char) : MacAddr :=
  match scanList true ':' 5 (cStr s) with
  | some [a, b, c, d, e, f] => ⟨[a, b, c, d, e, f].map UInt32.toUInt8, rfl⟩
  | _ => .zero

/-- `mac_to_string(mac)`: `"%02X:%02X:%02X:%02X:%02X:%02X"` of the six octets. -/
def macToString (m : MacAddr) : List Char := List.intercalate [':'] (m.octets.map hexByte)

/-! ## Bytes of a `uint32_t` -/

theorem toNat_and_ff (x : UInt32) : (x &&& 0xFF).toNat = x.toNat % 2 ^ 8 := by
  rw [UInt32.and_toNat]
  exact Nat.and_pow_two_sub_one_eq_mod _ 8

theorem toNat_shiftRight (x k : UInt32) (hk : k.toNat < 32) :
    (x >>> k).toNat = x.toNat / 2 ^ k.toNat := by
  show x.toNat >>> (k.toNat % 32) = _
  rw [Nat.mod_eq_of_lt hk, Nat.shiftRight_eq_div_pow]

theorem toNat_shiftLeft (x k : UInt32) (hk : k.toNat < 32) :
    (x <<< k).toNat = x.toNat * 2 ^ k.toNat % 2 ^ 32 := by
  show x.toNat <<< (k.toNat % 32) % 2 ^ 32 = _
  rw [Nat.mod_eq_of_lt hk, Nat.shiftLeft_eq]

/-- Four bytes shifted into place do not overlap, so or-ing them adds them. -/
theorem or_bytes {a b c d : Nat} (ha : a < 2 ^ 8) (hb : b < 2 ^ 8) (hc : c < 2 ^ 8) :
    d * 2 ^ 24 ||| c * 2 ^ 16 ||| b * 2 ^ 8 ||| a = 2 ^ 24 * d + (2 ^ 16 * c + (2 ^ 8 * b + a)) := by
  have h1 : 2 ^ 8 * b + a < 2 ^ 16 := by omega
  have h2 : 2 ^ 16 * c + (2 ^ 8 * b + a) < 2 ^ 24 := by omega
  rw [Nat.mul_add_lt_is_or h2, Nat.mul_add_lt_is_or h1, Nat.mul_add_lt_is_or ha]
  simp only [Nat.or_assoc, Nat.mul_comm]

/-- The value `ip_from_string` assembles from four fields that fit a byte. -/
theorem toNat_assemble {a b c d : UInt32} (ha : a.toNat < 2 ^ 8) (hb : b.toNat < 2 ^ 8)
    (hc : c.toNat < 2 ^ 8) (hd : d.toNat < 2 ^ 8) :
    ((d <<< 24) ||| (c <<< 16) ||| (b <<< 8) ||| a).toNat =
      2 ^ 24 * d.toNat + (2 ^ 16 * c.toNat + (2 ^ 8 * b.toNat + a.toNat)) := by
  have hd' : (d <<< 24).toNat = d.toNat * 2 ^ 24 % 2 ^ 32 := toNat_shiftLeft d 24 (by decide)
  have hc' : (c <<< 16).toNat = c.toNat * 2 ^ 16 % 2 ^ 32 := toNat_shiftLeft c 16 (by decide)
  have hb' : (b <<< 8).toNat = b.toNat * 2 ^ 8 % 2 ^ 32 := toNat_shiftLeft b 8 (by decide)
  show (((d <<< 24).toNat ||| (c <<< 16).toNat) ||| (b <<< 8).toNat) ||| a.toNat = _
  rw [hd', hc', hb', Nat.mod_eq_of_lt (by omega), Nat.mod_eq_of_lt (by omega),
    Nat.mod_eq_of_lt (by omega), or_bytes ha hb hc]

/-- The bytes `ip_to_string` prints are those of the assembled value. -/
theorem bytes_assemble {a b c d : UInt32} (ha : a.toNat < 2 ^ 8) (hb : b.toNat < 2 ^ 8)
    (hc : c.toNat < 2 ^ 8) (hd : d.toNat < 2 ^ 8) :
    let x := (d <<< 24) ||| (c <<< 16) ||| (b <<< 8) ||| a
    x &&& 0xFF = a ∧ (x >>> 8) &&& 0xFF = b ∧ (x >>> 16) &&& 0xFF = c ∧ (x >>> 24) &&& 0xFF = d := by
  intro x
  have hx : x.toNat = 2 ^ 24 * d.toNat + (2 ^ 16 * c.toNat + (2 ^ 8 * b.toNat + a.toNat)) :=
    toNat_assemble ha hb hc hd
  have h8 : (x >>> 8).toNat = x.toNat / 2 ^ 8 := toNat_shiftRight x 8 (by decide)
  have h16 : (x >>> 16).toNat = x.toNat / 2 ^ 16 := toNat_shiftRight x 16 (by decide)
  have h24 : (x >>> 24).toNat = x.toNat / 2 ^ 24 := toNat_shiftRight x 24 (by decide)
  refine ⟨UInt32.toNat.inj ?_, UInt32.toNat.inj ?_, UInt32.toNat.inj ?_, UInt32.toNat.inj ?_⟩
  · rw [toNat_and_ff]; omega
  · rw [toNat_and_ff, h8]; omega
  · rw [toNat_and_ff, h16]; omega
  · rw [toNat_and_ff, h24]; omega

/-- A `uint32_t` printed with `%u` scans back as itself. -/
theorem toUnsigned_toNat (v : UInt32) : toUnsigned false v.toNat = v := by
  have hv : v.toNat < 2 ^ 32 := v.toNat_lt_size
  unfold toUnsigned
  rw [if_neg (by omega)]
  exact UInt32.toNat.inj (Nat.mod_eq_of_lt hv)

/-- The bytes of a `uint32_t`, shifted back into place, are the value. -/
theorem assemble_bytes (x : UInt32) :
    (((x >>> 24) &&& 0xFF) <<< 24) ||| (((x >>> 16) &&& 0xFF) <<< 16) |||
      (((x >>> 8) &&& 0xFF) <<< 8) ||| (x &&& 0xFF) = x := by
  have hx : x.toNat < 2 ^ 32 := x.toNat_lt_size
  have h8 : (x >>> 8).toNat = x.toNat / 2 ^ 8 := toNat_shiftRight x 8 (by decide)
  have h16 : (x >>> 16).toNat = x.toNat / 2 ^ 16 := toNat_shiftRight x 16 (by decide)
  have h24 : (x >>> 24).toNat = x.toNat / 2 ^ 24 := toNat_shiftRight x 24 (by decide)
  apply UInt32.toNat.inj
  rw [toNat_assemble] <;> simp only [toNat_and_ff, h8, h16, h24] <;> omega

/-- The octet `static_cast<uint8_t>` keeps of a field printed from that octet. -/
theorem toUnsigned_toNat_toUInt8 (o : UInt8) : (toUnsigned false o.toNat).toUInt8 = o := by
  have ho : o.toNat < 2 ^ 8 := o.toNat_lt_size
  unfold toUnsigned
  rw [if_neg (by omega), if_neg Bool.false_ne_true]
  exact UInt8.toNat.inj (show o.toNat % 2 ^ 32 % 2 ^ 8 = o.toNat by omega)

/-! ## Round trips -/

/-- **`ip_from_string` inverts `ip_to_string`.** -/
theorem ipFromString_ipToString (x : IPv4Addr) : ipFromString (ipToString x) = x := by
  have hdig : ∀ g ∈ [x &&& 0xFF, (x >>> 8) &&& 0xFF, (x >>> 16) &&& 0xFF, (x >>> 24) &&& 0xFF].map
      (fun v => decimal v.toNat), g ≠ [] ∧ ∀ c ∈ g, isDigitOf false c := by
    simp only [List.mem_map]
    rintro g ⟨v, -, rfl⟩
    exact ⟨(decimal_spec _).1, (decimal_spec _).2.1⟩
  have hscan := scanList_printed (show Stops false ['.'] from fun c hc => by cases hc; decide)
    (by decide) _ _ hdig
  simp only [List.map, List.length_cons, List.length_nil, (decimal_spec _).2.2,
    toUnsigned_toNat] at hscan
  simp only [ipFromString, ipToString, List.map, hscan]
  exact assemble_bytes x

/-- **`mac_from_string` inverts `mac_to_string`.** -/
theorem macFromString_macToString (m : MacAddr) : macFromString (macToString m) = m := by
  obtain ⟨l, hl⟩ := m
  obtain ⟨a, b, c, d, e, f, rfl⟩ : ∃ a b c d e f, l = [a, b, c, d, e, f] := by
    match l, hl with
    | [a, b, c, d, e, f], _ => exact ⟨a, b, c, d, e, f, rfl⟩
  have hdig : ∀ g ∈ [a, b, c, d, e, f].map hexByte, g ≠ [] ∧ ∀ c ∈ g, isDigitOf true c := by
    simp only [List.mem_map]
    rintro g ⟨v, -, rfl⟩
    exact ⟨by simp [hexByte], (hexByte_spec _).1⟩
  have hscan := scanList_printed (show Stops true [':'] from fun c hc => by cases hc; decide)
    (by decide) _ _ hdig
  simp only [List.map, List.length_cons, List.length_nil, (hexByte_spec _).2] at hscan
  simp only [macFromString, macToString, List.map, hscan, toUnsigned_toNat_toUInt8]

/-! ## What a nonzero result was read from -/

/-- **A nonzero `ip_from_string` was read from four fields.** The text begins with four `%u`
    fields separated by `.`; the result is assembled from their values, and when each value fits
    a byte, `ip_to_string` of the result spells those four values. -/
theorem ipFromString_ne_zero (s : List Char) (h : ipFromString s ≠ 0) :
    ∃ fs rest a b c d, cStr s = List.intercalate ['.'] fs ++ rest ∧
      List.Forall₂ (ScanField false) fs [a, b, c, d] ∧
      ipFromString s = (d <<< 24) ||| (c <<< 16) ||| (b <<< 8) ||| a ∧
      (a.toNat < 2 ^ 8 → b.toNat < 2 ^ 8 → c.toNat < 2 ^ 8 → d.toNat < 2 ^ 8 →
        ipToString (ipFromString s) = List.intercalate ['.'] ([a, b, c, d].map fun v => decimal v.toNat)) := by
  cases hm : scanList false '.' 3 (cStr s) with
  | none => simp [ipFromString, hm] at h
  | some vs =>
    obtain ⟨fs, rest, hlen, hs, hfs⟩ := scanList_spec hm
    have hvs : vs.length = 4 := hfs.length_eq ▸ hlen
    match vs, hvs, hm, hfs with
    | [a, b, c, d], _, hm, hfs =>
      have hip : ipFromString s = (d <<< 24) ||| (c <<< 16) ||| (b <<< 8) ||| a := by
        simp [ipFromString, hm]
      refine ⟨fs, rest, a, b, c, d, hs, hfs, hip, fun ha hb hc hd => ?_⟩
      obtain ⟨h1, h2, h3, h4⟩ := bytes_assemble ha hb hc hd
      rw [hip, ipToString, h1, h2, h3, h4]

/-- **A non-zero `mac_from_string` was read from six fields.** The text begins with six `%x`
    fields separated by `:`, and the octets are the low bytes of their values: the values
    themselves when each fits a byte. -/
theorem macFromString_ne_zero (s : List Char) (h : macFromString s ≠ .zero) :
    ∃ fs rest vs, cStr s = List.intercalate [':'] fs ++ rest ∧ List.Forall₂ (ScanField true) fs vs ∧
      (macFromString s).octets = vs.map UInt32.toUInt8 ∧
      ((∀ v ∈ vs, v.toNat < 2 ^ 8) → (macFromString s).octets.map UInt8.toNat = vs.map UInt32.toNat) := by
  cases hm : scanList true ':' 5 (cStr s) with
  | none => simp [macFromString, hm] at h
  | some vs =>
    obtain ⟨fs, rest, hlen, hs, hfs⟩ := scanList_spec hm
    have hvs : vs.length = 6 := hfs.length_eq ▸ hlen
    match vs, hvs, hm, hfs with
    | [a, b, c, d, e, f], _, hm, hfs =>
      have hmac : (macFromString s).octets = [a, b, c, d, e, f].map UInt32.toUInt8 := by
        simp [macFromString, hm]
      refine ⟨fs, rest, _, hs, hfs, hmac, fun hv => ?_⟩
      rw [hmac, List.map_map]
      exact List.map_congr_left fun v hv' =>
        show v.toNat % 2 ^ 8 = v.toNat from Nat.mod_eq_of_lt (hv v hv')

/-- `256.0.0.0` is read as `256`, which `ip_to_string` prints as `0.1.0.0`; `100:0:0:0:0:1` is
    read as the MAC `00:00:00:00:00:01`. -/
theorem ipFromString_wide_field :
    ipFromString "256.0.0.0".toList = 256 ∧
      ipToString (ipFromString "256.0.0.0".toList) = "0.1.0.0".toList ∧
      (macFromString "100:0:0:0:0:1".toList).octets = [0, 0, 0, 0, 0, 1] := by
  decide

/-- The codecs invert each other, and a nonzero result was read from well-formed fields. -/
theorem addressCodecs_spec :
    (∀ x, ipFromString (ipToString x) = x) ∧ (∀ m, macFromString (macToString m) = m) ∧
    (∀ s, ipFromString s ≠ 0 →
      ∃ fs rest a b c d, cStr s = List.intercalate ['.'] fs ++ rest ∧
        List.Forall₂ (ScanField false) fs [a, b, c, d] ∧
        ipFromString s = (d <<< 24) ||| (c <<< 16) ||| (b <<< 8) ||| a ∧
        (a.toNat < 2 ^ 8 → b.toNat < 2 ^ 8 → c.toNat < 2 ^ 8 → d.toNat < 2 ^ 8 →
          ipToString (ipFromString s) = List.intercalate ['.'] ([a, b, c, d].map fun v => decimal v.toNat))) ∧
    (∀ s, macFromString s ≠ .zero →
      ∃ fs rest vs, cStr s = List.intercalate [':'] fs ++ rest ∧ List.Forall₂ (ScanField true) fs vs ∧
        (macFromString s).octets = vs.map UInt32.toUInt8 ∧
        ((∀ v ∈ vs, v.toNat < 2 ^ 8) →
          (macFromString s).octets.map UInt8.toNat = vs.map UInt32.toNat)) :=
  ⟨ipFromString_ipToString, macFromString_macToString, ipFromString_ne_zero, macFromString_ne_zero⟩

/-- A VIP and a MAC as a configuration writes them are read from fields. -/
theorem addressCodecs_spec_vip :
    ipFromString "10.0.0.1".toList ≠ 0 ∧ macFromString "00:0C:29:3E:38:92".toList ≠ .zero ∧
      (∃ fs rest a b c d, cStr "10.0.0.1".toList = List.intercalate ['.'] fs ++ rest ∧
        List.Forall₂ (ScanField false) fs [a, b, c, d]) ∧
      (∃ fs rest vs, cStr "00:0C:29:3E:38:92".toList = List.intercalate [':'] fs ++ rest ∧
        List.Forall₂ (ScanField true) fs vs) :=
  have hip : ipFromString "10.0.0.1".toList ≠ 0 := by decide
  have hmac : macFromString "00:0C:29:3E:38:92".toList ≠ .zero := by decide
  let ⟨fs, rest, a, b, c, d, h1, h2, _⟩ := addressCodecs_spec.2.2.1 _ hip
  let ⟨fs', rest', vs, h1', h2', _⟩ := addressCodecs_spec.2.2.2 _ hmac
  ⟨hip, hmac, ⟨fs, rest, a, b, c, d, h1, h2⟩, ⟨fs', rest', vs, h1', h2'⟩⟩

end L4lb
