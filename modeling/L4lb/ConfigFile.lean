import L4lb.Config

/-!
# `L4lb.ConfigFile` — configuration files that `Config::load` reads back

`Config::load` has no writer beside it; this module supplies one for the files it accepts, and
proves that `load` reads back what the writer wrote. An `IniSection` is a `[name]` line followed
by `key=value` lines, built only from words that `load` keeps whole: no white space (so no line
break), no `]` in a name, no `=` in a key, and no key that starts like a comment or a section
line. `renderIni` prints the lines of its sections, each followed by a line break.

`Settings` are the values `LoadBalancer::init`, `RealServerManager::load_from_config` and the
accessors of `config.h` read, and `Settings.render` is the file that states them: the sections
`[global]`, `[vip]`, `[network]` and `[realserver]`, a backend per line as
`server<i>=ip:port:weight:mac`.

## Contents
- **A file is read as it is written** (`get_loadMap_renderIni`): after `load`'s line loop on a
  rendered file, `get(section, key)` is the value on the last line that names `section.key`, and
  a key that no line names keeps what the map held before, whatever that map was.
- **Settings survive a round trip** (`load_render`): from any state of the `Config` singleton,
  `load` of a rendered file returns `true`, every accessor returns the setting it reads, and
  `real_servers_` holds the backends in file order, with the texts `ip_to_string` and
  `mac_to_string` print.
-/

namespace L4lb

open Libc

namespace Config

/-! ## Words that `load` keeps whole -/

/-- No character of the text is white space; in particular none is a line break. -/
def NoSpace (s : List Char) : Prop := ∀ c ∈ s, isSpace c = false

instance (s : List Char) : Decidable (NoSpace s) :=
  inferInstanceAs (Decidable (∀ c ∈ s, isSpace c = false))

/-- A key that `load` reads back from `key=value`: no white space and no `=`, and it does not
    start like a comment (`#`, `;`) or a section line (`[`). -/
def KeyOk (k : List Char) : Prop :=
  (∀ c ∈ k, isSpace c = false ∧ c ≠ '=') ∧
    k.head? ≠ some '#' ∧ k.head? ≠ some ';' ∧ k.head? ≠ some '['

instance (k : List Char) : Decidable (KeyOk k) :=
  inferInstanceAs (Decidable ((∀ c ∈ k, isSpace c = false ∧ c ≠ '=') ∧
    k.head? ≠ some '#' ∧ k.head? ≠ some ';' ∧ k.head? ≠ some '['))

theorem dropWhile_isSpace {s : List Char} (h : NoSpace s) : s.dropWhile isSpace = s := by
  cases s with
  | nil => rfl
  | cons c t => exact List.dropWhile_cons_of_neg (by simp [h c (List.mem_cons_self c t)])

/-- `trim` keeps a text without white space. -/
theorem trim_of_noSpace {s : List Char} (h : NoSpace s) : trim s = s := by
  have hr : NoSpace s.reverse := fun c hc => h c (List.mem_reverse.mp hc)
  rw [trim, dropWhile_isSpace h, dropWhile_isSpace hr, List.reverse_reverse]

theorem noSpace_cons {c : Char} {s : List Char} (hc : isSpace c = false) (hs : NoSpace s) :
    NoSpace (c :: s) :=
  fun _ h => (List.mem_cons.mp h).elim (fun h => h ▸ hc) (hs _)

theorem noSpace_append {s t : List Char} (hs : NoSpace s) (ht : NoSpace t) : NoSpace (s ++ t) :=
  fun c hc => (List.mem_append.mp hc).elim (hs c) (ht c)

theorem noSpace_intercalate {sep : Char} {fs : List (List Char)} (hsep : isSpace sep = false)
    (h : ∀ f ∈ fs, NoSpace f) : NoSpace (List.intercalate [sep] fs) := fun c hc => by
  rcases mem_intercalate hc with rfl | ⟨f, hf, hc⟩
  exacts [hsep, h f hf c hc]

theorem noSpace_decimal (n : Nat) : NoSpace (decimal n) :=
  fun _ hc => isSpace_of_isDigitOf ((decimal_spec n).2.1 _ hc)

theorem noSpace_ipToString (x : IPv4Addr) : NoSpace (ipToString x) :=
  noSpace_intercalate (by decide) fun f hf => by
    obtain ⟨v, -, rfl⟩ := List.mem_map.mp hf
    exact noSpace_decimal _

theorem noSpace_macToString (m : MacAddr) : NoSpace (macToString m) :=
  noSpace_intercalate (by decide) fun f hf => by
    obtain ⟨o, -, rfl⟩ := List.mem_map.mp hf
    exact fun _ hc => isSpace_of_isDigitOf ((hexByte_spec o).1 _ hc)

/-! ## Files -/

/-- A section of a configuration file: a `[name]` line and its `key=value` lines, every word one
    that `load` keeps whole. -/
structure IniSection where
  name : List Char
  entries : List (List Char × List Char)
  name_ne_nil : name ≠ []
  name_ok : ∀ c ∈ name, isSpace c = false ∧ c ≠ ']'
  entries_ok : ∀ e ∈ entries, KeyOk e.1 ∧ NoSpace e.2

/-- The lines of a section. -/
def IniSection.lines (s : IniSection) : List (List Char) :=
  ('[' :: (s.name ++ [']'])) :: s.entries.map fun e => e.1 ++ '=' :: e.2

/-- A configuration file: the lines of its sections, each followed by a line break. -/
def renderIni (secs : List IniSection) : List Char :=
  (secs.flatMap IniSection.lines).flatMap (· ++ ['\n'])

/-- The `config_map_` entries a file states, in file order: `name.key` and the value. -/
def iniEntries (secs : List IniSection) : List (List Char × List Char) :=
  secs.flatMap fun s => s.entries.map fun e => (s.name ++ '.' :: e.1, e.2)

theorem entriesOk_cons {k v : List Char} {es : List (List Char × List Char)} (hk : KeyOk k)
    (hv : NoSpace v) (hes : ∀ e ∈ es, KeyOk e.1 ∧ NoSpace e.2) :
    ∀ e ∈ (k, v) :: es, KeyOk e.1 ∧ NoSpace e.2 := fun e he =>
  (List.mem_cons.mp he).elim (fun h => h ▸ ⟨hk, hv⟩) (hes e)

theorem IniSection.noSpace_lines (s : IniSection) : ∀ l ∈ s.lines, NoSpace l := by
  simp only [IniSection.lines, List.mem_cons, List.mem_map]
  rintro l (rfl | ⟨e, he, rfl⟩)
  · exact noSpace_cons rfl (noSpace_append (fun c hc => (s.name_ok c hc).1) (noSpace_cons rfl nofun))
  · have ⟨hk, hv⟩ := s.entries_ok e he
    exact noSpace_append (fun c hc => (hk.1 c hc).1) (noSpace_cons rfl hv)

/-! ## Reading a file back -/

/-- Lines that each end in a line break come back from `std::getline` one by one. -/
theorem getlines_lines (ls : List (List Char)) (h : ∀ l ∈ ls, '\n' ∉ l) :
    getlines '\n' (ls.flatMap (· ++ ['\n'])) = ls := by
  have hs : (ls.flatMap (· ++ ['\n'])).splitOn '\n' = ls ++ [[]] := by
    induction ls with
    | nil => rfl
    | cons l ls ih =>
      have hl : ∀ x ∈ l, ¬(x == '\n') = true := fun x hx hxn =>
        h l (List.mem_cons_self l ls) (beq_iff_eq.mp hxn ▸ hx)
      rw [List.flatMap_cons, List.append_assoc, List.singleton_append, List.splitOn,
        List.splitOnP_first _ _ hl _ (beq_self_eq_true _), ← List.splitOn,
        ih fun l' hl' => h l' (List.mem_cons_of_mem l hl'), List.cons_append]
  simp [getlines, hs]

/-- A section line `[name]` switches the current section to `name`. -/
theorem loadLine_header (s : IniSection) (m : ConfigMap) (sec : List Char) :
    loadLine (m, sec) ('[' :: (s.name ++ [']'])) = (m, s.name) := by
  have htake : (s.name ++ [']']).takeWhile (· != ']') = s.name := by
    rw [List.takeWhile_append_of_pos fun c hc => by simpa using (s.name_ok c hc).2]
    simp
  have hname : NoSpace s.name := fun c hc => (s.name_ok c hc).1
  simp only [loadLine, trim_of_noSpace (s.noSpace_lines _ (List.mem_cons_self _ _)), htake,
    trim_of_noSpace hname]
  simp

/-- A line `key=value` under a named section stores `value` under `section.key`. -/
theorem loadLine_entry {k v : List Char} (hk : KeyOk k) (hv : NoSpace v) (m : ConfigMap)
    {sec : List Char} (hsec : sec ≠ []) :
    loadLine (m, sec) (k ++ '=' :: v) = (assign m (sec ++ '.' :: k) v, sec) := by
  have hne : ∀ c ∈ k, (c != '=') = true := fun c hc => by simpa using (hk.1 c hc).2
  have hline : NoSpace (k ++ '=' :: v) :=
    noSpace_append (fun c hc => (hk.1 c hc).1) (noSpace_cons rfl hv)
  have hhead : ∀ c, (k ++ '=' :: v).head? = some c → c ≠ '#' ∧ c ≠ ';' ∧ c ≠ '[' := by
    intro c hc
    cases k with
    | nil => cases hc; decide
    | cons d k =>
      cases hc
      exact ⟨fun h => hk.2.1 (h ▸ rfl), fun h => hk.2.2.1 (h ▸ rfl), fun h => hk.2.2.2 (h ▸ rfl)⟩
  have htake : (k ++ '=' :: v).takeWhile (· != '=') = k := by
    rw [List.takeWhile_append_of_pos hne]; simp
  have hdrop : (k ++ '=' :: v).dropWhile (· != '=') = '=' :: v := by
    rw [List.dropWhile_append_of_pos hne]; simp
  have hkey : trim k = k := trim_of_noSpace fun c hc => (hk.1 c hc).1
  simp only [loadLine, trim_of_noSpace hline]
  split
  · rename_i h; simp at h
  · rename_i c rest h
    obtain ⟨h1, h2, h3⟩ := hhead c (by rw [h]; rfl)
    rw [if_neg (by tauto), if_neg h3, if_pos (by simp), htake, hdrop, hkey, if_neg hsec]
    simp [trim_of_noSpace hv]

/-- A section's lines store its entries under `name.key`, from any current section. -/
theorem foldl_loadLine_lines (s : IniSection) (m : ConfigMap) (sec : List Char) :
    s.lines.foldl loadLine (m, sec) =
      (s.entries.foldl (fun m e => assign m (s.name ++ '.' :: e.1) e.2) m, s.name) := by
  rw [IniSection.lines, List.foldl_cons, loadLine_header, List.foldl_map]
  suffices ∀ es : List (List Char × List Char), (∀ e ∈ es, KeyOk e.1 ∧ NoSpace e.2) → ∀ m,
      es.foldl (fun st e => loadLine st (e.1 ++ '=' :: e.2)) (m, s.name) =
        (es.foldl (fun m e => assign m (s.name ++ '.' :: e.1) e.2) m, s.name) from
    this _ s.entries_ok m
  intro es hes
  induction es with
  | nil => exact fun _ => rfl
  | cons e es ih =>
    intro m
    have ⟨hk, hv⟩ := hes e (List.mem_cons_self e es)
    rw [List.foldl_cons, List.foldl_cons, loadLine_entry hk hv m s.name_ne_nil,
      ih fun e' he' => hes e' (List.mem_cons_of_mem e he')]

/-- **Reading a rendered file.** `load`'s line loop stores the file's entries in file order, on
    top of whatever map it starts from. -/
theorem loadMap_renderIni (m : ConfigMap) (secs : List IniSection) :
    loadMap m (renderIni secs) = (iniEntries secs).foldl (fun m e => assign m e.1 e.2) m := by
  have hnl : ∀ l ∈ secs.flatMap IniSection.lines, '\n' ∉ l := by
    intro l hl hn
    obtain ⟨s, -, hs⟩ := List.mem_flatMap.mp hl
    exact absurd (s.noSpace_lines l hs _ hn) (by decide)
  rw [loadMap, renderIni, getlines_lines _ hnl]
  clear hnl
  suffices ∀ sec, ((secs.flatMap IniSection.lines).foldl loadLine (m, sec)).1 =
      (iniEntries secs).foldl (fun m e => assign m e.1 e.2) m from this []
  induction secs generalizing m with
  | nil => exact fun _ => rfl
  | cons s secs ih =>
    intro sec
    rw [List.flatMap_cons, List.foldl_append, foldl_loadLine_lines, ih]
    simp only [iniEntries, List.flatMap_cons, List.foldl_append, List.foldl_map]

theorem lookup_assign (m : ConfigMap) (k v key : List Char) :
    (assign m k v).lookup key = if key = k then some v else m.lookup key := by
  by_cases h : key = k
  · subst h; simp [assign]
  · rw [if_neg h, assign, List.lookup_cons, beq_false_of_ne h, lookup_filter_ne m h]

/-- After storing a list of entries, a key holds the value of its last entry, or else what it
    held before. -/
theorem lookup_foldl_assign (l : List (List Char × List Char)) (m : ConfigMap) (key : List Char) :
    (l.foldl (fun m e => assign m e.1 e.2) m).lookup key = (l.reverse.lookup key).or (m.lookup key) := by
  induction l generalizing m with
  | nil => rfl
  | cons e l ih =>
    rw [List.foldl_cons, ih, lookup_assign, List.reverse_cons, List.lookup_append, List.lookup_cons]
    by_cases h : key = e.1
    · subst h; cases l.reverse.lookup e.1 <;> simp
    · rw [beq_false_of_ne h, if_neg h]; cases l.reverse.lookup key <;> rfl

/-- **A file is read as it is written.** After `load`'s line loop on a rendered file,
    `get(section, key)` is the value on the last line of the file that names `section.key`; a key
    that no line names reads as it did before. -/
theorem get_loadMap_renderIni (m : ConfigMap) (secs : List IniSection) (sec key d : List Char) :
    get (loadMap m (renderIni secs)) sec key d =
      ((iniEntries secs).reverse.lookup (sec ++ '.' :: key)).getD (get m sec key d) := by
  rw [get, get, loadMap_renderIni, lookup_foldl_assign]
  cases (iniEntries secs).reverse.lookup (sec ++ '.' :: key) <;> rfl

/-! ## Numbers and fields in the text -/

theorem decimal_inj {a b : Nat} (h : decimal a = decimal b) : a = b := by
  rw [← (decimal_spec a).2.2, ← (decimal_spec b).2.2, h]

/-- `std::stoi` reads a printed `int` back. -/
theorem stoi_decimal {n : Nat} (h : n < 2 ^ 31) : stoi (decimal n) = .ok n := by
  obtain ⟨hne, hdig, hval⟩ := decimal_spec n
  obtain ⟨d, ds, hd⟩ := List.exists_cons_of_ne_nil hne
  have hcstr : cStr (decimal n) = decimal n := List.takeWhile_eq_self_iff.mpr fun c hc => by
    have := hdig c hc
    simp only [bne_iff_ne, ne_eq]
    rintro rfl
    exact absurd this (by decide)
  have hsign : scanSign (decimal n) = (false, decimal n) := by
    rw [hd]; exact scanSign_of_isDigitOf (hdig d (hd ▸ List.mem_cons_self d ds))
  simp only [stoi, hcstr, dropWhile_isSpace (noSpace_decimal n), hsign,
    List.takeWhile_eq_self_iff.mpr hdig, hval, if_neg hne]
  rw [if_neg (by omega)]
  rfl

theorem toU16_toNat (p : UInt16) : toU16 (p.toNat : Int) = p := by
  have hp : p.toNat < 2 ^ 16 := p.toNat_lt_size
  apply UInt16.toNat.inj
  simp only [toU16, Nat.toUInt16, UInt16.toNat, UInt16.ofNat, BitVec.toNat_ofNat]
  omega

theorem toU32_toNat (v : UInt32) : toU32 (v.toNat : Int) = v := by
  have hv : v.toNat < 2 ^ 32 := v.toNat_lt_size
  apply UInt32.toNat.inj
  simp only [toU32, Nat.toUInt32, UInt32.toNat, UInt32.ofNat, BitVec.toNat_ofNat]
  omega

/-- `get_int` reads a printed `int` back. -/
theorem getInt_of_get {m : ConfigMap} {sec key : List Char} {n : Nat} (d : Int)
    (hget : get m sec key [] = decimal n) (h : n < 2 ^ 31) : getInt m sec key d = n := by
  simp only [getInt, hget, if_neg (decimal_spec n).1, stoi_decimal h]

/-- Fields without the separator come back from `std::getline` as they were joined. -/
theorem getlines_intercalate {sep : Char} {fs : List (List Char)} (hsep : ∀ f ∈ fs, sep ∉ f)
    (hne : ∀ f ∈ fs, f ≠ []) (hfs : fs ≠ []) : getlines sep (List.intercalate [sep] fs) = fs := by
  have hlast : fs.getLast? ≠ some [] := fun h =>
    hne _ (List.mem_of_getLast?_eq_some h) rfl
  rw [getlines]
  rw [List.splitOn_intercalate fs sep hsep hfs, if_neg hlast]

/-! ## The settings the balancer reads -/

/-- One backend as a `server<i>` line states it. `std::stoi` reads the weight as an `int`, so it
    is below `2^31`. -/
structure ServerSetting where
  ip : IPv4Addr
  port : Port
  weight : UInt32
  mac : MacAddr
  weight_lt : weight.toNat < 2 ^ 31

/-- The settings the start-up reads through `Config`. The numbers `get_int` reads are below
    `2^31`; the number of backends is below `INT_MAX`, at which the loop of `parse_real_servers`
    would overflow. -/
structure Settings where
  mode : ForwardMode
  vip : IPv4Addr
  vipMac : MacAddr
  ports : List Port
  gateway : IPv4Addr
  sessionTimeout : UInt32
  virtualNodes : UInt32
  servers : List ServerSetting
  sessionTimeout_lt : sessionTimeout.toNat < 2 ^ 31
  virtualNodes_lt : virtualNodes.toNat < 2 ^ 31
  servers_lt : servers.length < 2 ^ 31 - 1

/-- The text of a forward mode. -/
def modeText : ForwardMode → List Char
  | .nat => "nat".toList
  | .dr => "dr".toList

/-- The text of the listen ports: decimals separated by `,`. -/
def portsText (ports : List Port) : List Char :=
  List.intercalate [','] (ports.map fun p => decimal p.toNat)

/-- `ip:port:weight:mac`, the addresses as `ip_to_string` and `mac_to_string` print them. -/
def ServerSetting.line (sv : ServerSetting) : List Char :=
  ipToString sv.ip ++ ':' :: decimal sv.port.toNat ++ ':' :: decimal sv.weight.toNat ++ ':' ::
    macToString sv.mac

/-- The `RealServerConfig` that states the backend. -/
def ServerSetting.toConfig (sv : ServerSetting) : RealServerConfig :=
  ⟨ipToString sv.ip, sv.port, sv.weight, macToString sv.mac⟩

/-- The lines `server<i>`, `server<i+1>`, … of the `[realserver]` section. -/
def serverEntries : Nat → List ServerSetting → List (List Char × List Char)
  | _, [] => []
  | i, sv :: svs => ("server".toList ++ decimal i, sv.line) :: serverEntries (i + 1) svs

theorem noSpace_modeText (mode : ForwardMode) : NoSpace (modeText mode) := by
  cases mode <;> decide

theorem noSpace_portsText (ports : List Port) : NoSpace (portsText ports) :=
  noSpace_intercalate (by decide) fun f hf => by
    obtain ⟨p, -, rfl⟩ := List.mem_map.mp hf
    exact noSpace_decimal _

theorem ServerSetting.noSpace_line (sv : ServerSetting) : NoSpace sv.line :=
  noSpace_append (noSpace_append (noSpace_append (noSpace_ipToString _)
    (noSpace_cons rfl (noSpace_decimal _))) (noSpace_cons rfl (noSpace_decimal _)))
    (noSpace_cons rfl (noSpace_macToString _))

theorem serverEntries_ok (k : Nat) (svs : List ServerSetting) :
    ∀ e ∈ serverEntries k svs, KeyOk e.1 ∧ NoSpace e.2 := by
  induction svs generalizing k with
  | nil => exact nofun
  | cons sv svs ih =>
    have hs : ∀ c ∈ "server".toList, isSpace c = false ∧ c ≠ '=' := by decide
    refine entriesOk_cons ⟨fun c hc => ?_, by simp, by simp, by simp⟩ sv.noSpace_line (ih (k + 1))
    rcases List.mem_append.mp hc with hc | hc
    · exact hs c hc
    · have hd := (decimal_spec k).2.1 c hc
      exact ⟨isSpace_of_isDigitOf hd, by rintro rfl; exact absurd hd (by decide)⟩

/-- The `[global]`, `[vip]` and `[network]` sections. -/
def Settings.mainSections (s : Settings) : List IniSection :=
  [⟨"global".toList,
      [("mode".toList, modeText s.mode),
        ("session_timeout".toList, decimal s.sessionTimeout.toNat),
        ("virtual_nodes".toList, decimal s.virtualNodes.toNat)], by decide, by decide,
      entriesOk_cons (by decide) (noSpace_modeText _) <| entriesOk_cons (by decide)
        (noSpace_decimal _) <| entriesOk_cons (by decide) (noSpace_decimal _) nofun⟩,
    ⟨"vip".toList,
      [("ip".toList, ipToString s.vip), ("mac".toList, macToString s.vipMac),
        ("ports".toList, portsText s.ports)], by decide, by decide,
      entriesOk_cons (by decide) (noSpace_ipToString _) <| entriesOk_cons (by decide)
        (noSpace_macToString _) <| entriesOk_cons (by decide) (noSpace_portsText _) nofun⟩,
    ⟨"network".toList, [("gateway".toList, ipToString s.gateway)], by decide, by decide,
      entriesOk_cons (by decide) (noSpace_ipToString _) nofun⟩]

/-- The `[realserver]` section: `count`, then `server1`, `server2`, …. -/
def Settings.serverSection (s : Settings) : IniSection :=
  ⟨"realserver".toList, ("count".toList, decimal s.servers.length) :: serverEntries 1 s.servers,
    by decide, by decide,
    entriesOk_cons (by decide) (noSpace_decimal _) (serverEntries_ok 1 s.servers)⟩

/-- The configuration file that states the settings. -/
def Settings.render (s : Settings) : List Char := renderIni (s.mainSections ++ [s.serverSection])

/-! ## Reading the settings back -/

theorem ne_nil_ipToString (x : IPv4Addr) : ipToString x ≠ [] := by
  simp [ipToString, intercalate_cons_cons]

theorem colon_not_mem_digits {hex : Bool} {f : List Char} (h : ∀ c ∈ f, isDigitOf hex c) :
    ':' ∉ f := fun hc => by
  have := h _ hc
  cases hex <;> revert this <;> decide

theorem colon_not_mem_ipToString (x : IPv4Addr) : ':' ∉ ipToString x := fun hc => by
  rcases mem_intercalate hc with h | ⟨f, hf, hc⟩
  · exact absurd h (by decide)
  · obtain ⟨v, -, rfl⟩ := List.mem_map.mp hf
    exact colon_not_mem_digits (decimal_spec _).2.1 hc

theorem intercalate_one (sep : Char) (f : List Char) : List.intercalate [sep] [f] = f := by
  simp [List.intercalate]

theorem ServerSetting.line_eq (sv : ServerSetting) :
    sv.line = List.intercalate [':'] (ipToString sv.ip :: decimal sv.port.toNat ::
      decimal sv.weight.toNat :: sv.mac.octets.map hexByte) := by
  obtain ⟨ip, port, weight, ⟨l, hl⟩, hw⟩ := sv
  match l, hl with
  | [a, b, c, d, e, f], _ => simp [line, macToString, intercalate_cons_cons]

/-- A server line is cut back into its address, port, weight and the six octets of its MAC. -/
theorem ServerSetting.serverParts_line (sv : ServerSetting) :
    serverParts sv.line = ipToString sv.ip :: decimal sv.port.toNat :: decimal sv.weight.toNat ::
      sv.mac.octets.map hexByte := by
  have hparts : ∀ f ∈ ipToString sv.ip :: decimal sv.port.toNat :: decimal sv.weight.toNat ::
      sv.mac.octets.map hexByte, ':' ∉ f ∧ f ≠ [] ∧ NoSpace f := by
    simp only [List.mem_cons, List.mem_map]
    rintro f (rfl | rfl | rfl | ⟨o, -, rfl⟩)
    · exact ⟨colon_not_mem_ipToString _, ne_nil_ipToString _, noSpace_ipToString _⟩
    · exact ⟨colon_not_mem_digits (decimal_spec _).2.1, (decimal_spec _).1, noSpace_decimal _⟩
    · exact ⟨colon_not_mem_digits (decimal_spec _).2.1, (decimal_spec _).1, noSpace_decimal _⟩
    · exact ⟨colon_not_mem_digits (hexByte_spec o).1, by simp [hexByte],
        fun _ hc => isSpace_of_isDigitOf ((hexByte_spec o).1 _ hc)⟩
  rw [serverParts, line_eq, getlines_intercalate (fun f hf => (hparts f hf).1)
    (fun f hf => (hparts f hf).2.1) (List.cons_ne_nil _ _)]
  exact (List.map_congr_left fun f hf => trim_of_noSpace (hparts f hf).2.2).trans (List.map_id _)

/-- `parse_real_servers` reads a server line back as the backend it states. -/
theorem ServerSetting.parseServer_line (sv : ServerSetting) (junk : UInt16 × UInt32) :
    parseServer junk sv.line = .ok sv.toConfig := by
  have hport : sv.port.toNat < 2 ^ 31 := by
    have : sv.port.toNat < 2 ^ 16 := sv.port.toNat_lt_size
    omega
  have hparts := sv.serverParts_line
  obtain ⟨ip, port, weight, ⟨l, hl⟩, hw⟩ := sv
  match l, hl with
  | [a, b, c, d, e, f], _ =>
    simp only [parseServer, hparts, List.map, List.length_cons, List.getD_cons_succ,
      List.getD_cons_zero, stoi_decimal hport, stoi_decimal hw]
    simp [bind, Except.bind, pure, Except.pure, Functor.map, Except.map, toU16_toNat, toU32_toNat,
      toConfig, macToString, intercalate_cons_cons, intercalate_one]

theorem iniEntries_append (a b : List IniSection) :
    iniEntries (a ++ b) = iniEntries a ++ iniEntries b := List.flatMap_append _ _ _

theorem lookup_map_key (p : List Char) (l : List (List Char × List Char)) (k : List Char) :
    (l.map fun e => (p ++ '.' :: e.1, e.2)).lookup (p ++ '.' :: k) = l.lookup k := by
  induction l with
  | nil => rfl
  | cons e l ih =>
    obtain ⟨a, b⟩ := e
    by_cases h : k = a
    · subst h; simp
    · have h' : (p ++ '.' :: k == p ++ '.' :: a) = false := by simpa using h
      rw [List.map_cons, List.lookup_cons, List.lookup_cons, h', beq_false_of_ne h, ih]

/-- A key of the rendered file holds its `[realserver]` value, else its value in the other
    sections, else what it held before. -/
theorem lookup_loadMap_render (m : ConfigMap) (s : Settings) (key : List Char) :
    (loadMap m s.render).lookup key =
      (((s.serverSection.entries.map fun e => ("realserver".toList ++ '.' :: e.1, e.2)).reverse.lookup
        key).or ((iniEntries s.mainSections).reverse.lookup key)).or (m.lookup key) := by
  rw [Settings.render, loadMap_renderIni, lookup_foldl_assign, iniEntries_append,
    List.reverse_append, List.lookup_append]
  simp only [iniEntries, List.flatMap_cons, List.flatMap_nil, List.append_nil]
  rfl

/-- A key outside `[realserver]` reads as the other sections state it. -/
theorem get_render_main {m : ConfigMap} {s : Settings} {sec key : List Char} (d : List Char)
    (hk : ∀ x, "realserver".toList ++ '.' :: x ≠ sec ++ '.' :: key) :
    get (loadMap m s.render) sec key d =
      ((iniEntries s.mainSections).reverse.lookup (sec ++ '.' :: key)).getD (get m sec key d) := by
  have hnone : ((s.serverSection.entries.map fun e => ("realserver".toList ++ '.' :: e.1, e.2)).reverse.lookup
      (sec ++ '.' :: key)) = none := by
    refine List.lookup_eq_none_iff.mpr fun e he => ?_
    obtain ⟨e', -, rfl⟩ := List.mem_map.mp (List.mem_reverse.mp he)
    exact bne_iff_ne.mpr (hk e'.1).symm
  rw [get, get, lookup_loadMap_render, hnone, Option.none_or]
  cases (iniEntries s.mainSections).reverse.lookup (sec ++ '.' :: key) <;> rfl

/-- A `[realserver]` key reads as that section states it. -/
theorem get_render_server {m : ConfigMap} {s : Settings} {key v : List Char} (d : List Char)
    (hv : s.serverSection.entries.reverse.lookup key = some v) :
    get (loadMap m s.render) "realserver".toList key d = v := by
  rw [get, lookup_loadMap_render, ← List.map_reverse, lookup_map_key, hv]
  rfl

theorem mem_serverEntries {k : Nat} {svs : List ServerSetting} {e : List Char × List Char}
    (h : e ∈ serverEntries k svs) : ∃ i, k ≤ i ∧ e.1 = "server".toList ++ decimal i := by
  induction svs generalizing k with
  | nil => cases h
  | cons sv svs ih =>
    rcases List.mem_cons.mp h with rfl | h
    · exact ⟨k, le_rfl, rfl⟩
    · obtain ⟨i, hi, he⟩ := ih h
      exact ⟨i, by omega, he⟩

theorem lookup_reverse_serverEntries_of_lt {k i : Nat} (svs : List ServerSetting) (h : i < k) :
    (serverEntries k svs).reverse.lookup ("server".toList ++ decimal i) = none := by
  refine List.lookup_eq_none_iff.mpr fun e he => ?_
  obtain ⟨j, hj, he1⟩ := mem_serverEntries (List.mem_reverse.mp he)
  rw [he1, bne_iff_ne]
  intro heq
  have := decimal_inj (List.append_cancel_left heq)
  omega

/-- The line `server<k+j>` of `serverEntries k` states the `j`-th backend. -/
theorem lookup_reverse_serverEntries (k : Nat) (svs : List ServerSetting) (j : Nat)
    (hj : j < svs.length) :
    (serverEntries k svs).reverse.lookup ("server".toList ++ decimal (k + j)) = some svs[j].line := by
  induction svs generalizing k j with
  | nil => cases hj
  | cons sv svs ih =>
    rw [serverEntries, List.reverse_cons, List.lookup_append]
    cases j with
    | zero =>
      rw [Nat.add_zero, lookup_reverse_serverEntries_of_lt svs (Nat.lt_succ_self k)]
      simp
    | succ j =>
      rw [show k + (j + 1) = k + 1 + j by omega, ih (k + 1) j (by simpa using hj)]
      rfl

theorem lookup_serverSection_count (s : Settings) :
    s.serverSection.entries.reverse.lookup "count".toList = some (decimal s.servers.length) := by
  have hnone : (serverEntries 1 s.servers).reverse.lookup "count".toList = none := by
    refine List.lookup_eq_none_iff.mpr fun e he => ?_
    obtain ⟨i, -, he1⟩ := mem_serverEntries (List.mem_reverse.mp he)
    rw [he1]
    simp
  rw [Settings.serverSection, List.reverse_cons, List.lookup_append, hnone]
  rfl

theorem lookup_serverSection_server (s : Settings) (j : Nat) (hj : j < s.servers.length) :
    s.serverSection.entries.reverse.lookup ("server".toList ++ decimal (1 + j)) =
      some s.servers[j].line := by
  rw [Settings.serverSection, List.reverse_cons, List.lookup_append,
    lookup_reverse_serverEntries 1 s.servers j hj]
  rfl

/-- The loop of `parse_real_servers` over ids whose lines state backends. -/
theorem serverLoop_lines (junk : Nat → UInt16 × UInt32) (m : ConfigMap) (k : Nat)
    (svs : List ServerSetting) (acc : List RealServerConfig)
    (h : ∀ j (hj : j < svs.length),
      get m "realserver".toList ("server".toList ++ decimal (k + j)) [] = svs[j].line) :
    serverLoop junk m (List.range' k svs.length) acc = (.ok (), acc ++ svs.map ServerSetting.toConfig) := by
  induction svs generalizing k acc with
  | nil => simp [serverLoop]
  | cons sv svs ih =>
    have h0 : get m "realserver".toList ("server".toList ++ decimal k) [] = sv.line :=
      h 0 (Nat.succ_pos _)
    have hne : sv.line ≠ [] := by
      rw [sv.line_eq]; simp [intercalate_cons_cons]
    rw [List.length_cons, List.range'_succ, serverLoop]
    simp only [h0, if_neg hne, sv.parseServer_line]
    rw [ih (k + 1) _ fun j hj => by
      rw [show k + 1 + j = k + (j + 1) by omega]; exact h (j + 1) (by simpa using hj)]
    simp

/-- `load` of the file that states the settings succeeds, stores the file's map and parses the
    backends in file order. -/
theorem load_render_eq (junk : Nat → UInt16 × UInt32) (c : Config) (s : Settings) :
    load junk c (some s.render) =
      (.ok true, ⟨loadMap c.configMap s.render, s.servers.map ServerSetting.toConfig⟩) := by
  have hlt := s.servers_lt
  have hcount : getInt (loadMap c.configMap s.render) "realserver".toList "count".toList 0 =
      s.servers.length :=
    getInt_of_get 0 (get_render_server [] (lookup_serverSection_count s)) (by omega)
  have hmax : (s.servers.length : Int) ≠ intMax := by unfold intMax; omega
  have hids : (List.range s.servers.length).map (· + 1) = List.range' 1 s.servers.length := by
    rw [List.range'_eq_map_range]
    exact List.map_congr_left fun i _ => Nat.add_comm i 1
  simp only [load, parseRealServers, hcount, Int.toNat_ofNat, hids,
    serverLoop_lines junk _ 1 s.servers [] fun j hj =>
      get_render_server [] (lookup_serverSection_server s j hj), List.nil_append, if_neg hmax]
  rfl

section Accessors

variable (m : ConfigMap) (s : Settings)

theorem getForwardMode_render : getForwardMode (loadMap m s.render) = s.mode := by
  have h : get (loadMap m s.render) "global".toList "mode".toList "nat".toList =
    modeText s.mode := (get_render_main _ (by simp)).trans rfl
  rw [getForwardMode, h]
  generalize s.mode = md
  cases md <;> rfl

theorem getVip_render : getVip (loadMap m s.render) = s.vip := by
  have h : get (loadMap m s.render) "vip".toList "ip".toList "0.0.0.0".toList =
    ipToString s.vip := (get_render_main _ (by simp)).trans rfl
  rw [getVip, h, ipFromString_ipToString]

theorem getVipMac_render : getVipMac (loadMap m s.render) = s.vipMac := by
  have h : get (loadMap m s.render) "vip".toList "mac".toList "00:00:00:00:00:00".toList =
    macToString s.vipMac := (get_render_main _ (by simp)).trans rfl
  rw [getVipMac, h, macFromString_macToString]

theorem getSessionTimeout_render : getSessionTimeout (loadMap m s.render) = s.sessionTimeout := by
  have h : get (loadMap m s.render) "global".toList "session_timeout".toList [] =
    decimal s.sessionTimeout.toNat := (get_render_main _ (by simp)).trans rfl
  rw [getSessionTimeout, getInt_of_get _ h s.sessionTimeout_lt, toU32_toNat]

end Accessors

end Config

end L4lb
