import L4lb.Address

/-!
# `L4lb.Config` — `Config::load` and the accessors of `common/config.h`

`load` reads the file line by line (`std::getline`), trims each line, skips empty and comment
lines, switches section on `[name]`, and stores `key = value` as `config_map_[section.key]`; then
`parse_real_servers` rebuilds `real_servers_` from `realserver.count` and the lines
`realserver.server<i>`, each `ip:port:weight:mac` cut at `:`.

The model takes the file's text (`none` when the file does not open, and `load` returns
`false`) and the singleton's state before the call, and returns what `load` returns together
with the state after it. `std::stoi` in `parse_real_servers` is not guarded, so its exception
leaves `load`; and at `realserver.count = INT_MAX` the loop's `++i` overflows after the last
server, which is undefined (compiled code loops for ever). The model returns either as an
`Abort`, with the state as it stands at that point. `RealServerConfig rs;` leaves `port` and `weight` uninitialised; what they
hold is an argument (`junk`).

The accessors read `config_map_` only: `get_forward_mode`, `get_vip`, `get_vip_mac`,
`get_listen_ports`, `get_gateway`, `get_session_timeout` and `get_virtual_nodes` are `get` and
`get_int` at their own section, key and default, followed by the conversion each applies.

## Contents
- **Keys are never dropped** (`loadMap_keeps`): every key bound before `load` is bound after it,
  so a key of an earlier file is still read.
- **An exception comes from a port or a weight** (`load_error`): when `load` throws, some server
  line has a port or weight part on which `std::stoi` throws.
- **Three full parts fix the server** (`load_junk`): when every server line has at least three
  parts, the result does not depend on the uninitialised fields.
- **`load` is not a total function of the text** (`load_not_total`): a non-numeric port throws
  out of `load`, a line with one part keeps the uninitialised port and weight, and a second
  `load` still sees the servers of the first file.
-/

namespace L4lb

open Libc

/-- `RealServerConfig`. -/
structure RealServerConfig where
  ip : List Char
  port : UInt16
  weight : UInt32
  mac : List Char
deriving DecidableEq, Repr

/-- `config_map_`: one value per key (an `std::unordered_map`, so only lookups matter). -/
abbrev ConfigMap := List (List Char × List Char)

/-- The state of the `Config` singleton: `config_map_` and `real_servers_`. -/
structure Config where
  configMap : ConfigMap
  realServers : List RealServerConfig
deriving DecidableEq, Repr

namespace Config

/-- `config_map_[key] = value`. -/
def assign (m : ConfigMap) (key value : List Char) : ConfigMap :=
  (key, value) :: m.filter (·.1 != key)

/-- `Config::get(section, key, default_val)`: the value under `section + "." + key`. -/
def get (m : ConfigMap) (sec key default : List Char) : List Char :=
  (m.lookup (sec ++ '.' :: key)).getD default

/-- `Config::get_int`: `std::stoi` of the value, or the default when the value is empty or
    `std::stoi` throws. -/
def getInt (m : ConfigMap) (sec key : List Char) (default : Int) : Int :=
  let val := get m sec key []
  if val = [] then default
  else match stoi val with
    | .ok v => v
    | .error _ => default

/-- `Config::trim`: the text without its leading and trailing white space. -/
def trim (s : List Char) : List Char :=
  ((s.dropWhile isSpace).reverse.dropWhile isSpace).reverse

/-- One pass of the loop in `load`, on `config_map_` and `current_section`. -/
def loadLine (st : ConfigMap × List Char) (raw : List Char) : ConfigMap × List Char :=
  let (m, sec) := st
  let line := trim raw
  match line with
  | [] => (m, sec)
  | c :: rest =>
    if c = '#' ∨ c = ';' then (m, sec)
    else if c = '[' then
      if ']' ∈ rest then (m, trim (rest.takeWhile (· != ']'))) else (m, sec)
    else if '=' ∈ line then
      let key := trim (line.takeWhile (· != '='))
      let value := trim ((line.dropWhile (· != '=')).drop 1)
      (assign m (if sec = [] then key else sec ++ '.' :: key) value, sec)
    else (m, sec)

/-- `config_map_` after the line loop of `load`, which starts with no section. -/
def loadMap (m : ConfigMap) (text : List Char) : ConfigMap :=
  ((getlines '\n' text).foldl loadLine (m, [])).1

/-- The `:`-separated parts of a server line, trimmed. -/
def serverParts (value : List Char) : List (List Char) := (getlines ':' value).map trim

/-- One server line of `parse_real_servers`: `rs` starts with empty strings and the indeterminate
    `port` and `weight` (`junk`), and each field whose part is present is set from it. -/
def parseServer (junk : UInt16 × UInt32) (value : List Char) :
    Except StoiError RealServerConfig :=
  let parts := serverParts value
  let part (i : Nat) : List Char := parts.getD i []
  (if 2 ≤ parts.length then toU16 <$> stoi (part 1) else pure junk.1) >>= fun port =>
  (if 3 ≤ parts.length then toU32 <$> stoi (part 2) else pure junk.2) >>= fun weight =>
  let mac := if 6 ≤ parts.length then
      part 3 ++ ':' :: part 4 ++ ':' :: part 5 ++
        (if 9 ≤ parts.length then ':' :: part 6 ++ ':' :: part 7 ++ ':' :: part 8 else [])
    else []
  pure { ip := if 1 ≤ parts.length then part 0 else [], port, weight, mac }

/-- The loop of `parse_real_servers` over the ids `ids`, pushing onto `acc`; `junk i` is what
    the fields of server `i` hold before they are set. A `std::stoi` exception ends it. -/
def serverLoop (junk : Nat → UInt16 × UInt32) (m : ConfigMap) :
    List Nat → List RealServerConfig → Except StoiError Unit × List RealServerConfig
  | [], acc => (.ok (), acc)
  | i :: ids, acc =>
    let value := get m "realserver".toList ("server".toList ++ decimal i) []
    if value = [] then serverLoop junk m ids acc
    else match parseServer (junk i) value with
      | .ok rs => serverLoop junk m ids (acc ++ [rs])
      | .error e => (.error e, acc)

/-- How `load` ends without returning: an exception out of `std::stoi`, or the undefined
    behaviour of the `++i` in `parse_real_servers` overflowing once server `INT_MAX` has been read
    (`count = INT_MAX`; compiled code then loops for ever). -/
inductive Abort
  | thrown (e : StoiError)
  | countOverflow
deriving DecidableEq, Repr

/-- `INT_MAX`. -/
def intMax : Int := 2 ^ 31 - 1

/-- `parse_real_servers()`: `real_servers_.clear()`, then `for (int i = 1; i <= count; ++i)`
    over servers `1 … count`; at `count = INT_MAX` the last `++i` overflows. -/
def parseRealServers (junk : Nat → UInt16 × UInt32) (m : ConfigMap) :
    Except Abort Unit × List RealServerConfig :=
  let count := getInt m "realserver".toList "count".toList 0
  match serverLoop junk m ((List.range count.toNat).map (· + 1)) [] with
  | (.error e, servers) => (.error (.thrown e), servers)
  | (.ok (), servers) => (if count = intMax then .error .countOverflow else .ok (), servers)

/-- `Config::load(filename)` from the state `c`, on the file's text, or on `none` when the file
    does not open: what it returns, or how it ends without returning, and the state after it. -/
def load (junk : Nat → UInt16 × UInt32) (c : Config) : Option (List Char) → Except Abort Bool × Config
  | none => (.ok false, c)
  | some text =>
    let m := loadMap c.configMap text
    let (r, servers) := parseRealServers junk m
    (r.map fun _ => true, ⟨m, servers⟩)

/-! ## The accessors -/

/-- `Config::to_lower`: `std::tolower` of every character, in the C locale. -/
def toLower (s : List Char) : List Char := s.map Char.toLower

/-- `Config::get_forward_mode()`: `DR` when `global.mode` (default `nat`) is `dr` in any case. -/
def getForwardMode (m : ConfigMap) : ForwardMode :=
  if toLower (get m "global".toList "mode".toList "nat".toList) = "dr".toList then .dr else .nat

/-- `Config::get_vip()`. -/
def getVip (m : ConfigMap) : IPv4Addr :=
  ipFromString (get m "vip".toList "ip".toList "0.0.0.0".toList)

/-- `Config::get_vip_mac()`. -/
def getVipMac (m : ConfigMap) : MacAddr :=
  macFromString (get m "vip".toList "mac".toList "00:00:00:00:00:00".toList)

/-- `Config::get_session_timeout()`: `static_cast<uint32_t>` of `get_int`. -/
def getSessionTimeout (m : ConfigMap) : UInt32 :=
  toU32 (getInt m "global".toList "session_timeout".toList 300)

theorem lookup_filter_ne (m : ConfigMap) {k key : List Char} (h : key ≠ k) :
    (m.filter (·.1 != k)).lookup key = m.lookup key := by
  induction m with
  | nil => rfl
  | cons e m ih =>
    obtain ⟨a, b⟩ := e
    by_cases ha : a = k
    · subst ha
      rw [List.filter_cons_of_neg (by simp), ih, List.lookup_cons, beq_false_of_ne h]
    · rw [List.filter_cons_of_pos (by simpa using ha), List.lookup_cons, List.lookup_cons, ih]

theorem lookup_assign_isSome {m : ConfigMap} {k v key : List Char} (h : (m.lookup key).isSome) :
    ((assign m k v).lookup key).isSome := by
  by_cases hk : key = k
  · subst hk
    simp [assign]
  · simpa only [assign, List.lookup_cons, beq_false_of_ne hk, lookup_filter_ne m hk] using h

theorem loadLine_keeps {st : ConfigMap × List Char} {key : List Char} (raw : List Char)
    (h : (st.1.lookup key).isSome) : ((loadLine st raw).1.lookup key).isSome := by
  obtain ⟨m, sec⟩ := st
  unfold loadLine
  dsimp only
  split
  · exact h
  · split_ifs
    all_goals first | exact h | exact lookup_assign_isSome h

theorem foldl_loadLine_keeps (lines : List (List Char)) (st : ConfigMap × List Char)
    {key : List Char} (h : (st.1.lookup key).isSome) :
    ((lines.foldl loadLine st).1.lookup key).isSome := by
  induction lines generalizing st with
  | nil => exact h
  | cons raw lines ih => exact ih _ (loadLine_keeps raw h)

/-- **Keys are never dropped.** Every key bound before `load` is bound after its line loop. -/
theorem loadMap_keeps (m : ConfigMap) (text : List Char) {key : List Char}
    (h : (m.lookup key).isSome) : ((loadMap m text).lookup key).isSome :=
  foldl_loadLine_keeps _ (m, []) h

/-- The VIP of an earlier file survives a file that sets only the mode. -/
theorem loadMap_keeps_vip :
    let m : ConfigMap := [("vip.ip".toList, "10.0.0.1".toList)]
    (m.lookup "vip.ip".toList).isSome ∧
      ((loadMap m "[global]\nmode = dr\n".toList).lookup "vip.ip".toList).isSome :=
  ⟨rfl, loadMap_keeps _ _ rfl⟩

/-! ## Where an exception comes from -/

theorem bind_eq_error {ε α β : Type} {x : Except ε α} {f : α → Except ε β} {e : ε} :
    x >>= f = .error e ↔ x = .error e ∨ ∃ a, x = .ok a ∧ f a = .error e := by
  cases x <;> simp [bind, Except.bind]

theorem map_eq_error {ε α β : Type} {x : Except ε α} {f : α → β} {e : ε} :
    f <$> x = .error e ↔ x = .error e := by
  cases x <;> simp [Functor.map, Except.map]

/-- A server line throws only from `std::stoi` on its port or its weight part. -/
theorem parseServer_error {junk : UInt16 × UInt32} {v : List Char} {e : StoiError}
    (h : parseServer junk v = .error e) :
    (2 ≤ (serverParts v).length ∧ stoi ((serverParts v).getD 1 []) = .error e) ∨
      (3 ≤ (serverParts v).length ∧ stoi ((serverParts v).getD 2 []) = .error e) := by
  unfold parseServer at h
  rcases bind_eq_error.mp h with h1 | ⟨_, -, h1⟩
  · split_ifs at h1 with h2
    · exact .inl ⟨h2, map_eq_error.mp h1⟩
    · cases h1
  · rcases bind_eq_error.mp h1 with h1 | ⟨_, -, h1⟩
    · split_ifs at h1 with h3
      · exact .inr ⟨h3, map_eq_error.mp h1⟩
      · cases h1
    · cases h1

theorem serverLoop_error {junk : Nat → UInt16 × UInt32} {m : ConfigMap} {ids : List Nat}
    {acc : List RealServerConfig} {e : StoiError} (h : (serverLoop junk m ids acc).1 = .error e) :
    ∃ i ∈ ids, get m "realserver".toList ("server".toList ++ decimal i) [] ≠ [] ∧
      parseServer (junk i) (get m "realserver".toList ("server".toList ++ decimal i) []) = .error e := by
  induction ids generalizing acc with
  | nil => cases h
  | cons i ids ih =>
    unfold serverLoop at h
    dsimp only at h
    split_ifs at h with hv
    · obtain ⟨i', hi', h'⟩ := ih h
      exact ⟨i', List.mem_cons_of_mem i hi', h'⟩
    · split at h
      · obtain ⟨i', hi', h'⟩ := ih h
        exact ⟨i', List.mem_cons_of_mem i hi', h'⟩
      · cases h
        exact ⟨i, List.mem_cons_self i ids, hv, by assumption⟩

/-- An exception out of `parse_real_servers` is one out of its loop. -/
theorem parseRealServers_thrown {junk : Nat → UInt16 × UInt32} {m : ConfigMap} {e : StoiError}
    (h : (parseRealServers junk m).1 = .error (.thrown e)) :
    (serverLoop junk m ((List.range (getInt m "realserver".toList "count".toList 0).toNat).map
      (· + 1)) []).1 = .error e := by
  unfold parseRealServers at h
  rcases hl : serverLoop junk m _ [] with ⟨_ | _, _⟩ <;> simp only [hl] at h ⊢
  · cases h
    rfl
  · split_ifs at h
    cases h

/-- **An exception comes from a port or a weight.** When `load` throws, some server line
    `server<i>` is non-empty and `std::stoi` throws that exception on its port or weight part. -/
theorem load_error {junk : Nat → UInt16 × UInt32} {c : Config} {text : List Char} {e : StoiError}
    (h : (load junk c (some text)).1 = .error (.thrown e)) :
    ∃ i ≥ 1, let v := get (loadMap c.configMap text) "realserver".toList ("server".toList ++ decimal i) []
      v ≠ [] ∧ ((2 ≤ (serverParts v).length ∧ stoi ((serverParts v).getD 1 []) = .error e) ∨
        (3 ≤ (serverParts v).length ∧ stoi ((serverParts v).getD 2 []) = .error e)) := by
  have hp := map_eq_error.mp (show (parseRealServers junk _).1.map _ = _ from h)
  obtain ⟨i, hi, hv, hp⟩ := serverLoop_error (parseRealServers_thrown hp)
  obtain ⟨k, -, rfl⟩ := List.mem_map.mp hi
  exact ⟨k + 1, Nat.le_add_left 1 k, hv, parseServer_error hp⟩

/-- A non-numeric port part throws from `server1`. -/
theorem load_error_port :
    let text := "[realserver]\ncount = 1\nserver1 = 10.0.0.1:abc\n".toList
    (load (fun _ => (0, 0)) ⟨[], []⟩ (some text)).1 = .error (.thrown .invalidArgument) ∧
      ∃ i ≥ 1, let v := get (loadMap [] text) "realserver".toList ("server".toList ++ decimal i) []
        v ≠ [] ∧ ((2 ≤ (serverParts v).length ∧
            stoi ((serverParts v).getD 1 []) = .error .invalidArgument) ∨
          (3 ≤ (serverParts v).length ∧ stoi ((serverParts v).getD 2 []) = .error .invalidArgument)) := by
  intro text
  have h : (load (fun _ => (0, 0)) ⟨[], []⟩ (some text)).1 = .error (.thrown .invalidArgument) := rfl
  exact ⟨h, load_error h⟩

/-! ## Three full parts fix the server -/

theorem parseServer_junk (j₁ j₂ : UInt16 × UInt32) {v : List Char}
    (h : 3 ≤ (serverParts v).length) : parseServer j₁ v = parseServer j₂ v := by
  simp only [parseServer, if_pos h, if_pos (Nat.le_of_succ_le h)]

theorem serverLoop_junk (j₁ j₂ : Nat → UInt16 × UInt32) (m : ConfigMap) (ids : List Nat)
    (acc : List RealServerConfig)
    (h : ∀ i ∈ ids, get m "realserver".toList ("server".toList ++ decimal i) [] ≠ [] →
      3 ≤ (serverParts (get m "realserver".toList ("server".toList ++ decimal i) [])).length) :
    serverLoop j₁ m ids acc = serverLoop j₂ m ids acc := by
  induction ids generalizing acc with
  | nil => rfl
  | cons i ids ih =>
    have ih' := fun acc => ih acc fun i' hi' => h i' (List.mem_cons_of_mem i hi')
    simp only [serverLoop]
    split_ifs with hv
    · exact ih' acc
    · rw [parseServer_junk (j₁ i) (j₂ i) (h i (List.mem_cons_self i ids) hv)]
      split
      · exact ih' _
      · rfl

/-- **Three full parts fix the server.** When every non-empty server line has a port and a weight
    part, what `load` does not depend on the uninitialised fields. -/
theorem load_junk (j₁ j₂ : Nat → UInt16 × UInt32) (c : Config) (text : List Char)
    (h : ∀ i, let v := get (loadMap c.configMap text) "realserver".toList ("server".toList ++ decimal i) []
      v ≠ [] → 3 ≤ (serverParts v).length) :
    load j₁ c (some text) = load j₂ c (some text) := by
  simp only [load, parseRealServers, serverLoop_junk j₁ j₂ _ _ [] fun i _ => h i]

/-- A file whose one server line has all three parts loads the same whatever the fields held. -/
theorem load_junk_fullLine :
    let text := "[realserver]\ncount = 1\nserver1 = 10.0.0.1:80:1\n".toList
    (∀ i, let v := get (loadMap [] text) "realserver".toList ("server".toList ++ decimal i) []
      v ≠ [] → 3 ≤ (serverParts v).length) ∧
      load (fun _ => (0, 0)) ⟨[], []⟩ (some text) = load (fun _ => (8080, 7)) ⟨[], []⟩ (some text) := by
  intro text
  have hm : loadMap [] text = [("realserver.server1".toList, "10.0.0.1:80:1".toList),
      ("realserver.count".toList, "1".toList)] := by
    decide
  have h : ∀ i, let v := get (loadMap [] text) "realserver".toList ("server".toList ++ decimal i) []
      v ≠ [] → 3 ≤ (serverParts v).length := by
    intro i
    dsimp only
    rw [hm]
    intro hv
    have hc : ("realserver".toList ++ '.' :: ("server".toList ++ decimal i) ==
        "realserver.count".toList) = false := by simp
    simp only [get, List.lookup, hc] at hv ⊢
    generalize ("realserver".toList ++ '.' :: ("server".toList ++ decimal i) ==
      "realserver.server1".toList) = b at hv ⊢
    cases b
    · exact absurd rfl hv
    · decide
  exact ⟨h, load_junk _ _ _ _ h⟩

/-- A non-numeric port throws out of `load`; a server line without port and weight keeps what
    the uninitialised fields held; and after a first file, loading an empty one still yields its
    server. -/
theorem load_not_total :
    let fresh : Config := ⟨[], []⟩
    let j₀ : Nat → UInt16 × UInt32 := fun _ => (0, 0)
    let j₁ : Nat → UInt16 × UInt32 := fun _ => (8080, 7)
    let ipOnly := "[realserver]\ncount = 1\nserver1 = 10.0.0.1\n".toList
    (load j₀ fresh (some "[realserver]\ncount = 1\nserver1 = 10.0.0.1:abc\n".toList)).1 =
        .error (.thrown .invalidArgument) ∧
      (load j₀ fresh (some ipOnly)).2 ≠ (load j₁ fresh (some ipOnly)).2 ∧
      (load j₀ (load j₀ fresh (some "[realserver]\ncount = 1\nserver1 = 10.0.0.1:80:1\n".toList)).2
          (some [])).2.realServers ≠ (load j₀ fresh (some [])).2.realServers :=
  ⟨rfl, by decide, by decide⟩

end Config


end L4lb
