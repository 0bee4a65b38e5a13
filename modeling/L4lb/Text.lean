import Mathlib

/-!
# `L4lb.Text` — the C library's number text

The conversions between numbers and text that `types.h` and `config.h` call: glibc's `sscanf`
with `%u` and `%x`, `std::stoi` (`strtol` in base 10), and `snprintf` with `%u` and `%02X`; with
them `isspace` in the C locale, the `const char*` view of a `std::string` (which ends at the
first NUL), and the pieces that repeated `std::getline` calls cut a text into.

A text is the list of its characters. A `sscanf` conversion skips white space, reads an optional
sign, for `%x` an optional `0x` (whose `0` is read as a digit), and then the longest run of
digits; `strtoul` turns sign and digits into an `unsigned long`, negating modulo `2^64` and
giving `ULONG_MAX` past the range, and the conversion stores it into an `unsigned int`.

## Contents
- The scanner (`scanNum`, `scanList`) and the printers (`decimal`, `hexByte`).
- **Printed digits scan back** (`scanList_intercalate`, `scanList_printed`): fields of digits
  joined by a separator that is not a digit are read back as their values.
- **What a successful scan has read** (`scanList_spec`): text that `scanList` accepts begins with
  fields of the `%u` or `%x` grammar (`ScanField`) joined by the separator, and the values are
  theirs.
-/

namespace L4lb

namespace Libc

/-- `isspace` in the C locale. -/
def isSpace (c : Char) : Bool :=
  c == ' ' || c == '\t' || c == '\n' || c == '\x0b' || c == '\x0c' || c == '\r'

/-- The characters of `s.c_str()` that a C function reads: those before the first NUL. -/
def cStr (s : List Char) : List Char := s.takeWhile (· != '\x00')

/-- A digit of a `%x` conversion (`hex`) or of a decimal one. -/
def isDigitOf (hex : Bool) (c : Char) : Bool :=
  c.isDigit || hex && ('a' ≤ c && c ≤ 'f' || 'A' ≤ c && c ≤ 'F')

/-- The value of a digit. -/
def digitValue (c : Char) : Nat :=
  if c.isDigit then c.toNat - 48 else if 'a' ≤ c then c.toNat - 87 else c.toNat - 55

/-- The base of a conversion. -/
def base (hex : Bool) : Nat := if hex then 16 else 10

/-- The number a run of digits spells. -/
def digitsValue (hex : Bool) (ds : List Char) : Nat :=
  ds.foldl (fun n c => base hex * n + digitValue c) 0

/-- The optional sign: whether it is `-`, and the text after it. -/
def scanSign : List Char → Bool × List Char
  | '-' :: t => (true, t)
  | '+' :: t => (false, t)
  | t => (false, t)

/-- The text after a `0x` or `0X`, if it starts with one. -/
def hexPrefix? : List Char → Option (List Char)
  | '0' :: 'x' :: u => some u
  | '0' :: 'X' :: u => some u
  | _ => none

/-- The digits of a conversion and the text after them. After `0x`, `%x` reads the `0` as a
    digit and skips the `x`. -/
def scanDigits (hex : Bool) (t : List Char) : List Char × List Char :=
  match if hex then hexPrefix? t else none with
  | some u => ('0' :: u.takeWhile (isDigitOf hex), u.dropWhile (isDigitOf hex))
  | none => (t.takeWhile (isDigitOf hex), t.dropWhile (isDigitOf hex))

/-- `strtoul` of a sign and a magnitude, stored into an `unsigned int`. -/
def toUnsigned (neg : Bool) (n : Nat) : UInt32 :=
  if 2 ^ 64 ≤ n then (2 ^ 64 - 1 : Nat).toUInt32
  else if neg then (2 ^ 64 - n : Nat).toUInt32 else n.toUInt32

/-- One `%u` (`hex = false`) or `%x` conversion of glibc's `sscanf`: the value and the text after
    it, or `none` for a matching failure. -/
def scanNum (hex : Bool) (s : List Char) : Option (UInt32 × List Char) :=
  let (neg, t) := scanSign (s.dropWhile isSpace)
  let (ds, rest) := scanDigits hex t
  if ds = [] then none else some (toUnsigned neg (digitsValue hex ds), rest)

/-- `sscanf` with a format of `n + 1` conversions separated by the character `sep`: the values,
    when all `n + 1` conversions succeed. A separator in the format matches only itself. -/
def scanList (hex : Bool) (sep : Char) : Nat → List Char → Option (List UInt32)
  | 0, s => (scanNum hex s).map fun r => [r.1]
  | n + 1, s => do
    let (v, rest) ← scanNum hex s
    match rest with
    | c :: rest' => if c = sep then (v :: ·) <$> scanList hex sep n rest' else none
    | [] => none

/-- `%u` of `snprintf`: the decimal digits of `n`. -/
def decimal (n : Nat) : List Char := Nat.toDigits 10 n

/-- An upper-case hexadecimal digit. -/
def hexChar (d : Nat) : Char := if d < 10 then Char.ofNat (48 + d) else Char.ofNat (55 + d)

/-- `%02X` of `snprintf` on a byte: two upper-case hexadecimal digits. -/
def hexByte (b : UInt8) : List Char := [hexChar (b.toNat / 16), hexChar (b.toNat % 16)]

/-- The exceptions `std::stoi` throws. -/
inductive StoiError
  | invalidArgument
  | outOfRange
deriving DecidableEq, Repr

/-- `std::stoi(str)`: `strtol(str.c_str(), &end, 10)`; `std::invalid_argument` when no digit is
    read, `std::out_of_range` when the value is not an `int`. -/
def stoi (s : List Char) : Except StoiError Int :=
  let (neg, t) := scanSign ((cStr s).dropWhile isSpace)
  let ds := t.takeWhile (isDigitOf false)
  if ds = [] then .error .invalidArgument
  else
    let v : Int := if neg then -(digitsValue false ds : Int) else digitsValue false ds
    if v < -2 ^ 31 ∨ 2 ^ 31 ≤ v then .error .outOfRange else .ok v

/-- `static_cast<uint16_t>` of an `int`. -/
def toU16 (v : Int) : UInt16 := (v % 2 ^ 16).toNat.toUInt16

/-- `static_cast<uint32_t>` of an `int`. -/
def toU32 (v : Int) : UInt32 := (v % 2 ^ 32).toNat.toUInt32

/-- The pieces that repeated `std::getline(in, piece, sep)` calls return: the text cut at each
    `sep`, where a last piece that is empty is not returned (the call that would return it
    extracts nothing and fails). -/
def getlines (sep : Char) (s : List Char) : List (List Char) :=
  let pieces := s.splitOn sep
  if pieces.getLast? = some [] then pieces.dropLast else pieces

/-! ## Printed digits -/

theorem digitsValue_append_singleton (hex : Bool) (ds : List Char) (c : Char) :
    digitsValue hex (ds ++ [c]) = base hex * digitsValue hex ds + digitValue c := by
  simp [digitsValue, List.foldl_append]

theorem digitChar_ten : ∀ d < 10, isDigitOf false (Nat.digitChar d) ∧ digitValue (Nat.digitChar d) = d := by
  decide

theorem toDigitsCore_ten (fuel n : Nat) (ds : List Char) (h : n < fuel) :
    ∃ e, Nat.toDigitsCore 10 fuel n ds = e ++ ds ∧ e ≠ [] ∧ (∀ c ∈ e, isDigitOf false c) ∧
      digitsValue false e = n := by
  induction fuel generalizing n ds with
  | zero => omega
  | succ f ih =>
    have hd := digitChar_ten (n % 10) (Nat.mod_lt _ (by decide))
    unfold Nat.toDigitsCore
    dsimp only
    split_ifs with h0
    · refine ⟨[Nat.digitChar (n % 10)], rfl, by simp, by simpa using hd.1, ?_⟩
      simp only [digitsValue, List.foldl, hd.2]
      omega
    · obtain ⟨e, he, hne, hall, hv⟩ := ih (n / 10) (Nat.digitChar (n % 10) :: ds) (by omega)
      refine ⟨e ++ [Nat.digitChar (n % 10)], by simp [he], by simp, ?_, ?_⟩
      · simpa [or_imp, forall_and] using ⟨hall, hd.1⟩
      · rw [digitsValue_append_singleton, hv, hd.2]
        show 10 * (n / 10) + n % 10 = n
        omega

theorem decimal_spec (n : Nat) :
    decimal n ≠ [] ∧ (∀ c ∈ decimal n, isDigitOf false c) ∧ digitsValue false (decimal n) = n := by
  obtain ⟨e, he, hne, hall, hv⟩ := toDigitsCore_ten (n + 1) n [] (Nat.lt_succ_self n)
  rw [List.append_nil] at he
  unfold decimal Nat.toDigits
  rw [he]
  exact ⟨hne, hall, hv⟩

theorem hexChar_spec : ∀ d < 16, isDigitOf true (hexChar d) ∧ digitValue (hexChar d) = d := by
  decide

theorem hexByte_spec (b : UInt8) :
    (∀ c ∈ hexByte b, isDigitOf true c) ∧ digitsValue true (hexByte b) = b.toNat := by
  have hb : b.toNat < 2 ^ 8 := b.toNat_lt_size
  have hi := hexChar_spec (b.toNat / 16) (by omega)
  have lo := hexChar_spec (b.toNat % 16) (by omega)
  refine ⟨by simp [hexByte, hi.1, lo.1], ?_⟩
  simp only [hexByte, digitsValue, List.foldl, hi.2, lo.2]
  show 16 * (16 * 0 + b.toNat / 16) + b.toNat % 16 = b.toNat
  omega

/-! ## Scanning printed digits -/

theorem isSpace_of_isDigitOf {hex : Bool} {c : Char} (h : isDigitOf hex c) : isSpace c = false := by
  cases hs : isSpace c
  · rfl
  · simp only [isSpace, Bool.or_eq_true, beq_iff_eq] at hs
    rcases hs with (((((rfl | rfl) | rfl) | rfl) | rfl) | rfl) <;> cases hex <;> revert h <;> decide

theorem scanSign_of_isDigitOf {hex : Bool} {c : Char} {t : List Char} (h : isDigitOf hex c) :
    scanSign (c :: t) = (false, c :: t) := by
  have h1 : c ≠ '-' := by rintro rfl; cases hex <;> revert h <;> decide
  have h2 : c ≠ '+' := by rintro rfl; cases hex <;> revert h <;> decide
  unfold scanSign
  split <;> simp_all

theorem hexPrefix?_eq_some {t u : List Char} (h : hexPrefix? t = some u) :
    t = ['0', 'x'] ++ u ∨ t = ['0', 'X'] ++ u := by
  unfold hexPrefix? at h
  split at h <;> simp_all

/-- What may follow a field that the scanner reads whole: no further digit, and no `x` that
    would turn a `0` into a prefix. -/
def Stops (hex : Bool) (rest : List Char) : Prop :=
  ∀ c ∈ rest.head?, isDigitOf hex c = false ∧ c ≠ 'x' ∧ c ≠ 'X'

theorem scanDigits_of_digits {hex : Bool} {ds rest : List Char} (hds : ∀ c ∈ ds, isDigitOf hex c)
    (hrest : Stops hex rest) : scanDigits hex (ds ++ rest) = (ds, rest) := by
  have hnone : (if hex then hexPrefix? (ds ++ rest) else none) = none := by
    cases hex with
    | false => rfl
    | true =>
      cases hp : hexPrefix? (ds ++ rest) with
      | none => rfl
      | some u =>
        exfalso
        have h := hexPrefix?_eq_some hp
        rcases ds with _ | ⟨d, _ | ⟨e, t⟩⟩
        · rcases h with h | h <;> rw [List.nil_append] at h <;> subst h <;>
            exact absurd (hrest '0' rfl).1 (by decide)
        · simp only [List.singleton_append, List.cons_append, List.cons.injEq] at h
          rcases h with ⟨-, rfl⟩ | ⟨-, rfl⟩
          exacts [(hrest _ rfl).2.1 rfl, (hrest _ rfl).2.2 rfl]
        · have he : isDigitOf true e := hds e (by simp)
          simp only [List.cons_append, List.cons.injEq] at h
          rcases h with ⟨-, rfl, -⟩ | ⟨-, rfl, -⟩ <;> exact absurd he (by decide)
  have htake : rest.takeWhile (isDigitOf hex) = [] := by
    cases rest with
    | nil => rfl
    | cons c r => exact List.takeWhile_cons_of_neg (by simp [(hrest c rfl).1])
  have hdrop : rest.dropWhile (isDigitOf hex) = rest := by
    cases rest with
    | nil => rfl
    | cons c r => exact List.dropWhile_cons_of_neg (by simp [(hrest c rfl).1])
  unfold scanDigits
  rw [hnone]
  simp [List.takeWhile_append_of_pos hds, List.dropWhile_append_of_pos hds, htake, hdrop]

theorem scanNum_digits {hex : Bool} {ds rest : List Char} (hne : ds ≠ [])
    (hds : ∀ c ∈ ds, isDigitOf hex c) (hrest : Stops hex rest) :
    scanNum hex (ds ++ rest) = some (toUnsigned false (digitsValue hex ds), rest) := by
  obtain ⟨d, ds', rfl⟩ := List.exists_cons_of_ne_nil hne
  have hd := hds d (List.mem_cons_self _ _)
  have h1 : (d :: ds' ++ rest).dropWhile isSpace = d :: ds' ++ rest :=
    List.dropWhile_cons_of_neg (by simp [isSpace_of_isDigitOf hd])
  have h2 : scanSign (d :: ds' ++ rest) = (false, d :: ds' ++ rest) := scanSign_of_isDigitOf hd
  simp only [scanNum, h1, h2, scanDigits_of_digits hds hrest]
  simp

theorem intercalate_cons_cons (sep : Char) (f g : List Char) (fs : List (List Char)) :
    List.intercalate [sep] (f :: g :: fs) = f ++ sep :: List.intercalate [sep] (g :: fs) := by
  simp [List.intercalate, List.intersperse]

theorem mem_intercalate {sep c : Char} {fs : List (List Char)}
    (h : c ∈ List.intercalate [sep] fs) : c = sep ∨ ∃ f ∈ fs, c ∈ f := by
  match fs, h with
  | [f], h => exact .inr ⟨f, List.mem_singleton_self f, by simpa [List.intercalate] using h⟩
  | f :: g :: fs, h =>
    rw [intercalate_cons_cons, List.mem_append, List.mem_cons] at h
    rcases h with h | rfl | h
    · exact .inr ⟨f, List.mem_cons_self f _, h⟩
    · exact .inl rfl
    · rcases mem_intercalate h with rfl | ⟨f', hf', h'⟩
      · exact .inl rfl
      · exact .inr ⟨f', List.mem_cons_of_mem f hf', h'⟩

/-- Digits and a separator other than NUL pass whole through `c_str()`. -/
theorem cStr_intercalate {hex : Bool} {sep : Char} (hsep : sep ≠ '\x00') (fs : List (List Char))
    (hf : ∀ f ∈ fs, ∀ c ∈ f, isDigitOf hex c) :
    cStr (List.intercalate [sep] fs) = List.intercalate [sep] fs := by
  refine List.takeWhile_eq_self_iff.mpr fun c hc => ?_
  rcases mem_intercalate hc with rfl | ⟨f, hf', hc'⟩
  · simpa using hsep
  · have hd := hf f hf' c hc'
    simp only [bne_iff_ne, ne_eq]
    rintro rfl
    cases hex <;> revert hd <;> decide

/-- Fields of digits joined by a separator that no field can absorb scan back to their values. -/
theorem scanList_intercalate {hex : Bool} {sep : Char} (hsep : Stops hex [sep]) (f : List Char)
    (fs : List (List Char)) (rest : List Char)
    (hf : ∀ g ∈ f :: fs, g ≠ [] ∧ ∀ c ∈ g, isDigitOf hex c) (hrest : Stops hex rest) :
    scanList hex sep fs.length (List.intercalate [sep] (f :: fs) ++ rest) =
      some ((f :: fs).map fun g => toUnsigned false (digitsValue hex g)) := by
  induction fs generalizing f with
  | nil =>
    have h := hf f (List.mem_singleton_self f)
    simp [scanList, List.intercalate, scanNum_digits h.1 h.2 hrest]
  | cons g fs ih =>
    have h := hf f (List.mem_cons_self f _)
    have hs : Stops hex (sep :: (List.intercalate [sep] (g :: fs) ++ rest)) := hsep
    rw [intercalate_cons_cons, List.append_assoc, List.cons_append, List.length_cons]
    simp [scanList, scanNum_digits h.1 h.2 hs, ih g (fun g' hg' => hf g' (List.mem_cons_of_mem f hg'))]

/-- Printed fields joined by a separator other than NUL scan back through `c_str()`. -/
theorem scanList_printed {hex : Bool} {sep : Char} (hsep : Stops hex [sep]) (hnul : sep ≠ '\x00')
    (f : List Char) (fs : List (List Char)) (hf : ∀ g ∈ f :: fs, g ≠ [] ∧ ∀ c ∈ g, isDigitOf hex c) :
    scanList hex sep fs.length (cStr (List.intercalate [sep] (f :: fs))) =
      some ((f :: fs).map fun g => toUnsigned false (digitsValue hex g)) := by
  rw [cStr_intercalate hnul _ fun g hg => (hf g hg).2, ← List.append_nil (List.intercalate _ _)]
  exact scanList_intercalate hsep f fs [] hf fun _ hc => by cases hc

/-! ## What a successful scan has read -/

/-- The text `f` of one `%u` (`hex = false`) or `%x` field, converting to `v`: white space, an
    optional sign, for `%x` an optional `0x` or `0X`, and digits; there is at least one digit
    unless the prefix stands there (its `0` is then the number). -/
def ScanField (hex : Bool) (f : List Char) (v : UInt32) : Prop :=
  ∃ w sg p ds, f = w ++ sg ++ p ++ ds ∧ (∀ c ∈ w, isSpace c) ∧
    (sg = [] ∨ sg = ['+'] ∨ sg = ['-']) ∧
    (p = [] ∧ ds ≠ [] ∨ hex ∧ (p = ['0', 'x'] ∨ p = ['0', 'X'])) ∧
    (∀ c ∈ ds, isDigitOf hex c) ∧ v = toUnsigned (sg = ['-']) (digitsValue hex ds)

theorem scanSign_spec (t : List Char) :
    ∃ sg, t = sg ++ (scanSign t).2 ∧ (sg = [] ∨ sg = ['+'] ∨ sg = ['-']) ∧
      (scanSign t).1 = decide (sg = ['-']) := by
  unfold scanSign
  split
  · exact ⟨['-'], rfl, by simp, rfl⟩
  · exact ⟨['+'], rfl, by simp, by simp⟩
  · exact ⟨[], rfl, by simp, by simp⟩

theorem digitsValue_cons_zero (hex : Bool) (ds : List Char) :
    digitsValue hex ('0' :: ds) = digitsValue hex ds := rfl

theorem scanDigits_spec (hex : Bool) (t : List Char) (h : (scanDigits hex t).1 ≠ []) :
    ∃ p ds, t = p ++ ds ++ (scanDigits hex t).2 ∧
      (p = [] ∧ ds ≠ [] ∨ hex ∧ (p = ['0', 'x'] ∨ p = ['0', 'X'])) ∧
      (∀ c ∈ ds, isDigitOf hex c) ∧ digitsValue hex (scanDigits hex t).1 = digitsValue hex ds := by
  unfold scanDigits at h ⊢
  rcases hm : (if hex then hexPrefix? t else none) with _ | u <;> simp only [hm] at h ⊢
  · exact ⟨[], _, by simp, .inl ⟨rfl, h⟩, fun c hc => List.mem_takeWhile_imp hc, rfl⟩
  · have hx : hex = true := by cases hex <;> simp_all
    subst hx
    have ht := hexPrefix?_eq_some (by simpa using hm)
    refine ⟨t.take 2, u.takeWhile (isDigitOf true), ?_, .inr ⟨rfl, ?_⟩,
      fun c hc => List.mem_takeWhile_imp hc, digitsValue_cons_zero _ _⟩
    · rcases ht with rfl | rfl <;> simp
    · rcases ht with rfl | rfl <;> simp

theorem scanNum_spec {hex : Bool} {s : List Char} {v : UInt32} {rest : List Char}
    (h : scanNum hex s = some (v, rest)) : ∃ f, s = f ++ rest ∧ ScanField hex f v := by
  obtain ⟨sg, hsg, hsg', hneg⟩ := scanSign_spec (s.dropWhile isSpace)
  rcases hS : scanSign (s.dropWhile isSpace) with ⟨neg, t⟩
  rcases hD : scanDigits hex t with ⟨ds₀, rest₀⟩
  simp only [scanNum, hS, hD] at h
  split_ifs at h with hds
  obtain ⟨rfl, rfl⟩ := Option.some.inj h |> Prod.mk.inj
  obtain ⟨p, ds, ht, hp, hdig, hval⟩ := scanDigits_spec hex t (by rw [hD]; exact hds)
  rw [hS] at hsg hneg
  rw [hD] at ht hval
  refine ⟨s.takeWhile isSpace ++ sg ++ p ++ ds, ?_, s.takeWhile isSpace, sg, p, ds, rfl,
    fun c hc => List.mem_takeWhile_imp hc, hsg', hp, hdig, ?_⟩
  · conv_lhs => rw [← List.takeWhile_append_dropWhile isSpace s, hsg, ht]
    simp
  · rw [← hval, ← hneg]

example : scanNum false " +12.5".toList = some (12, ".5".toList) := by decide
example : scanNum true "0x1F:".toList = some (31, ":".toList) := by decide
example : scanNum false "-1".toList = some (0xFFFFFFFF, []) := by decide

/-- A scan of `n + 2` fields is a conversion, the separator, and a scan of `n + 1` fields. -/
theorem scanList_succ_eq_some {hex : Bool} {sep : Char} {n : Nat} {s : List Char}
    {vs : List UInt32} (h : scanList hex sep (n + 1) s = some vs) :
    ∃ v rest vs', scanNum hex s = some (v, sep :: rest) ∧ scanList hex sep n rest = some vs' ∧
      vs = v :: vs' := by
  simp only [scanList, Option.bind_eq_bind, Option.bind_eq_some] at h
  obtain ⟨⟨v, _ | ⟨c, rest⟩⟩, hs, h⟩ := h
  · cases h
  · dsimp only at h
    split_ifs at h with hc
    subst hc
    obtain ⟨vs', hl, rfl⟩ := Option.map_eq_some'.mp h
    exact ⟨v, rest, vs', hs, hl, rfl⟩

theorem scanList_spec {hex : Bool} {sep : Char} {n : Nat} {s : List Char} {vs : List UInt32}
    (h : scanList hex sep n s = some vs) :
    ∃ fs rest, fs.length = n + 1 ∧ s = List.intercalate [sep] fs ++ rest ∧
      List.Forall₂ (ScanField hex) fs vs := by
  induction n generalizing s vs with
  | zero =>
    obtain ⟨⟨v, rest⟩, hs, rfl⟩ := Option.map_eq_some'.mp h
    obtain ⟨f, rfl, hf⟩ := scanNum_spec hs
    exact ⟨[f], rest, rfl, by simp [List.intercalate], .cons hf .nil⟩
  | succ n ih =>
    obtain ⟨v, rest, vs', hs, hl, rfl⟩ := scanList_succ_eq_some h
    obtain ⟨f, rfl, hf⟩ := scanNum_spec hs
    obtain ⟨fs, rest', hlen, rfl, hfs⟩ := ih hl
    obtain ⟨g, gs, rfl⟩ := List.exists_cons_of_length_eq_add_one hlen
    exact ⟨f :: g :: gs, rest', by simp [hlen], by rw [intercalate_cons_cons]; simp, .cons hf hfs⟩

end Libc

end L4lb
