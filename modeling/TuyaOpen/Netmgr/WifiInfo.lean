import TuyaOpen.Kv.Serialize
import TuyaOpen.Kv.Store

/-!
# The credentials of Wi-Fi

`netconn_wifi.c` keeps the SSID and the password of the access point in a record of two buffers. The
result of a provisioning is copied over the start of the buffers, printed as a JSON text and stored
under a key; after a reboot the text is read from the store and parsed.

The copy has no NUL behind it: the bytes of an earlier result that was longer stay in the buffer.
The text is printed with `%s`, which escapes nothing.

cJSON is a JSON parser on bytes, and whether it refuses control characters that are not escaped is a
parameter. The store is that of `tal_kv.c`, and the flash does not fail.
-/

namespace TuyaOpen.Netmgr

open TuyaOpen.Kv

/-! ### The functions -/

/-- `WIFI_SSID_LEN`. -/
def wifiSsidLen : Nat := 32

/-- `WIFI_PASSWD_LEN`. -/
def wifiPasswdLen : Nat := 64

/-- `netconn_wifi_info_t`. -/
structure WifiInfo where
  ssid : Bytes
  pswd : Bytes

def WifiInfo.zero : WifiInfo where
  ssid := List.replicate (wifiSsidLen + 1) 0
  pswd := List.replicate (wifiPasswdLen + 1) 0

/-- `netcfg_info_t`: the first `s_len` bytes of `ssid` and the first `p_len` bytes of `passwd`. -/
structure NetcfgInfo where
  ssid : Bytes
  passwd : Bytes
  length_ssid_le : ssid.length ≤ wifiSsidLen
  length_passwd_le : passwd.length ≤ wifiPasswdLen
  zero_notMem_ssid : 0 ∉ ssid
  zero_notMem_passwd : 0 ∉ passwd

/-- The key `netinfo`. -/
def netinfoKey : Bytes := asciiBytes ['n', 'e', 't', 'i', 'n', 'f', 'o']

def netinfoMembers (ssid pswd : Bytes) : Bytes :=
  0x22 :: ([0x73] ++ 0x22 :: 0x3a :: 0x22 :: (ssid ++ 0x22 :: 0x2c ::
    0x22 :: ([0x70] ++ 0x22 :: 0x3a :: 0x22 :: (pswd ++ [0x22, 0x7d]))))

/-- The text that is stored: an object with the members `s` and `p`. -/
def netinfoText (ssid pswd : Bytes) : Bytes := 0x7b :: netinfoMembers ssid pswd

/-- `__netconn_wifi_info_set`: a fault when the text and its NUL leave the buffer of 128 bytes. -/
def netconnWifiInfoSet (env : KvEnv) (store : KvStore) (info : WifiInfo) (call : SetCall) :
    Option (OperateRet × KvStore) :=
  let netinfo := netinfoText (cString info.ssid) (cString info.pswd)
  if 128 < netinfo.length + 1 then none else talKvSet env store netinfoKey netinfo call

/-- `valuestring`: a null pointer when the item is not a string. -/
def valuestring : Json → Option Bytes
  | .string s => some s
  | _ => none

/-- `strcpy`. -/
def strcpy (mem src : Bytes) : Option Bytes := memcpy mem 0 (cString src ++ [0])

/-- The part of `__netconn_wifi_info_get` behind `cJSON_Parse`. -/
def netinfoRestore (json : Json) (info : WifiInfo) : Option (OperateRet × WifiInfo) :=
  match getObjectItem json [0x73], getObjectItem json [0x70] with
  | some s, some p =>
    (valuestring s).bind fun s =>
      (strcpy info.ssid s).bind fun ssid =>
        (valuestring p).bind fun p =>
          (strcpy info.pswd p).map fun pswd => (oprtOk, ⟨ssid, pswd⟩)
  | _, _ => some (oprtCjsonParseErr, info)

/-- `__netconn_wifi_info_get`: `tal_kv_get` has put a NUL behind the value. -/
def netconnWifiInfoGet (strict : Bool) (env : KvEnv) (store : KvStore) (info : WifiInfo)
    (call : GetCall) : Option (OperateRet × WifiInfo) :=
  match talKvGet env store netinfoKey call with
  | none => none
  | some ((rt, netinfo), _) =>
    if rt ≠ oprtOk then some (rt, info)
    else
      match Json.parse strict (cString (netinfo.getD [] ++ [0])) with
      | none => some (oprtCjsonParseErr, info)
      | some json => netinfoRestore json info

structure WifiCreds where
  info : WifiInfo
  store : KvStore

/-- `__netconn_wifi_netcfg_finish`, up to the connection that it asks for. -/
def netconnWifiNetcfgFinish (env : KvEnv) (c : WifiCreds) (info : NetcfgInfo) : Option WifiCreds :=
  (memcpy c.info.ssid 0 info.ssid).bind fun ssid =>
    (memcpy c.info.pswd 0 info.passwd).bind fun pswd =>
      (netconnWifiInfoSet env c.store ⟨ssid, pswd⟩ SetCall.fine).map fun r =>
        ⟨⟨ssid, pswd⟩, r.2⟩

def netcfgFinishes (env : KvEnv) (c : WifiCreds) (infos : List NetcfgInfo) : Option WifiCreds :=
  infos.foldlM (netconnWifiNetcfgFinish env) c

def WifiInfo.Has (r : WifiInfo) (info : NetcfgInfo) : Prop :=
  cString r.ssid = info.ssid ∧ cString r.pswd = info.passwd

/-- After the last of several provisionings its credentials are those in use, no write has left its
buffer, and after a reboot they are restored. -/
def Survives (strict : Bool) (env : KvEnv) (store : KvStore) (earlier : List NetcfgInfo)
    (last : NetcfgInfo) : Prop :=
  ∃ c, netcfgFinishes env ⟨WifiInfo.zero, store⟩ (earlier ++ [last]) = some c ∧ c.info.Has last ∧
    ∃ rt r, netconnWifiInfoGet strict env c.store WifiInfo.zero GetCall.fine = some (rt, r) ∧
      r.Has last

/-! ### The buffers -/

def copies (mem : Bytes) (datas : List Bytes) : Bytes :=
  datas.foldl (fun mem data => data ++ mem.drop data.length) mem

variable {n : Nat} {mem data : Bytes} {datas : List Bytes}

theorem memcpy_zero (h : data.length ≤ mem.length) :
    memcpy mem 0 data = some (data ++ mem.drop data.length) := by
  rw [memcpy_of_le (by omega), List.take_zero, List.nil_append, Nat.zero_add]

theorem length_copy (hmem : mem.length = n) (h : data.length ≤ n) :
    (data ++ mem.drop data.length).length = n := by
  rw [List.length_append, List.length_drop]
  omega

theorem getD_copy_eq_zero_iff (hdata : 0 ∉ data) (i : Nat) :
    (data ++ mem.drop data.length).getD i 0 = 0 ↔ mem.getD i 0 = 0 ∧ data.length ≤ i := by
  by_cases hi : i < data.length
  · rw [List.getD_append _ _ _ _ hi, List.getD_eq_getElem _ _ hi]
    refine iff_of_false (fun hzero => hdata ?_) (by omega)
    exact hzero ▸ List.getElem_mem hi
  · rw [List.getD_append_right _ _ _ _ (by omega)]
    simp only [List.getD_eq_getElem?_getD, List.getElem?_drop]
    rw [Nat.add_sub_cancel' (by omega)]
    simp [Nat.not_lt.1 hi]

theorem getD_copies_eq_zero_iff (h : ∀ data ∈ datas, 0 ∉ data) (i : Nat) :
    (copies mem datas).getD i 0 = 0 ↔ mem.getD i 0 = 0 ∧ ∀ data ∈ datas, data.length ≤ i := by
  induction datas generalizing mem with
  | nil => simp [copies]
  | cons data datas ih =>
    obtain ⟨hdata, h⟩ := List.forall_mem_cons.1 h
    rw [copies, List.foldl_cons]
    refine (ih h).trans ?_
    rw [getD_copy_eq_zero_iff hdata, List.forall_mem_cons, and_assoc]

theorem cString_copy_eq_iff (hdata : 0 ∉ data) :
    cString (data ++ mem.drop data.length) = data ↔ mem.getD data.length 0 = 0 := by
  rw [Json.cString_append_of_notMem hdata, List.append_right_eq_self, ← headD_eq_zero_iff]
  simp [List.headD_eq_head?_getD, List.head?_drop, List.getD_eq_getElem?_getD]

/-! ### The text -/

section Text

variable {strict : Bool} {fuel : Nat} {ssid pswd : Bytes}

theorem length_netinfoText (ssid pswd : Bytes) :
    (netinfoText ssid pswd).length = ssid.length + pswd.length + 15 := by
  simp [netinfoText, netinfoMembers]
  omega

theorem zero_notMem_netinfoText (hssid : 0 ∉ ssid) (hpswd : 0 ∉ pswd) :
    0 ∉ netinfoText ssid pswd := by
  simp [netinfoText, netinfoMembers, hssid, hpswd]

theorem plain_s : ∀ b ∈ ([0x73] : Bytes), Json.Plain strict b := by
  cases strict <;> simp [Json.Plain]

theorem plain_p : ∀ b ∈ ([0x70] : Bytes), Json.Plain strict b := by
  cases strict <;> simp [Json.Plain]

theorem parse_netinfoText (ssid pswd : Bytes) :
    Json.parse strict (netinfoText ssid pswd) =
      (Json.parseMembers strict (ssid.length + pswd.length + 15)
        (netinfoMembers ssid pswd)).map fun r => .object r.1 := by
  rw [Json.parse, length_netinfoText, netinfoText, netinfoMembers, Json.parseValue_members,
    Option.map_map]
  rfl

theorem parseChars_brace (fuel : Nat) (r : Bytes × Bytes)
    (h : Json.parseChars strict fuel [0x7d] = some r) : r.1 = [0x2c] := by
  match fuel, h with
  | 0, h => cases h
  | 1, h => cases strict <;> cases h
  | fuel + 2, h => cases strict <;> cases h

theorem parse_netinfoText_plain (hssid : ∀ b ∈ ssid, Json.Plain strict b)
    (hpswd : ∀ b ∈ pswd, Json.Plain strict b) :
    Json.parse strict (netinfoText ssid pswd) =
      some (.object [([0x73], .string ssid), ([0x70], .string pswd)]) := by
  rw [parse_netinfoText, netinfoMembers, Json.parseMembers_string plain_s hssid,
    Json.skipWs_cons (by decide), Json.expect_cons_of_ne (by decide), Json.expect_cons_self]
  dsimp only
  rw [Option.bind_some, Json.parseMembers_string plain_p hpswd]
  rfl

theorem exists_of_parse_ssid (hssid : ¬∀ b ∈ ssid, Json.Plain strict b) {json : Json}
    (h : Json.parse strict (netinfoText ssid pswd) = some json) :
    ∃ d more, json = .object (([0x73], .string d) :: more) ∧ cString d ≠ ssid := by
  rw [parse_netinfoText, netinfoMembers, Option.map_eq_some_iff] at h
  obtain ⟨r, hr, rfl⟩ := h
  obtain ⟨d, more, hmembers, hne⟩ :=
    Json.exists_of_parseMembers_ne plain_s hssid (Json.parseChars_after _) hr
  exact ⟨d, more, by rw [hmembers], hne⟩

theorem exists_of_parse_pswd (hssid : ∀ b ∈ ssid, Json.Plain strict b)
    (hpswd : ¬∀ b ∈ pswd, Json.Plain strict b) {json : Json}
    (h : Json.parse strict (netinfoText ssid pswd) = some json) :
    ∃ d more, json = .object (([0x73], .string ssid) :: ([0x70], .string d) :: more) ∧
      cString d ≠ pswd := by
  rw [parse_netinfoText, netinfoMembers, Json.parseMembers_string plain_s hssid,
    Json.skipWs_cons (by decide), Json.expect_cons_of_ne (by decide), Json.expect_cons_self] at h
  dsimp only at h
  rw [Option.bind_some, Option.map_map, Option.map_eq_some_iff] at h
  obtain ⟨r, hr, rfl⟩ := h
  obtain ⟨d, more, hmembers, hne⟩ :=
    Json.exists_of_parseMembers_ne plain_p hpswd parseChars_brace hr
  refine ⟨d, more, ?_, hne⟩
  rw [Function.comp_apply, hmembers]

end Text

/-! ### Restoring -/

section Restore

variable {strict : Bool} {json : Json} {info r : WifiInfo} {rt : OperateRet} {d : Bytes}

theorem cString_of_strcpy {src mem' : Bytes} (h : strcpy mem src = some mem') :
    cString mem' = cString src := by
  rw [strcpy, memcpy] at h
  split_ifs at h
  obtain rfl := Option.some.inj h
  rw [List.take_zero, List.nil_append, List.append_assoc]
  exact cString_append_zero (zero_notMem_cString src) _

theorem exists_strcpy_eq (h : d.length < mem.length) : ∃ mem', strcpy mem d = some mem' := by
  have hle : (cString d).length ≤ d.length := (List.takeWhile_sublist _).length_le
  refine ⟨_, memcpy_of_le ?_⟩
  rw [List.length_append, List.length_singleton]
  omega

theorem netinfoRestore_cases (h : netinfoRestore json info = some (rt, r)) :
    r = info ∨ ∃ s p, getObjectItem json [0x73] = some (.string s) ∧
      getObjectItem json [0x70] = some (.string p) ∧ cString r.ssid = cString s ∧
      cString r.pswd = cString p := by
  rw [netinfoRestore] at h
  split at h
  next js jp hs hp =>
    simp only [Option.bind_eq_some_iff, Option.map_eq_some_iff] at h
    obtain ⟨s, hjs, ssid, hssid, p, hjp, pswd, hpswd, heq⟩ := h
    obtain ⟨-, rfl⟩ := Prod.mk.inj heq
    have hstring {j : Json} {v : Bytes} (hj : valuestring j = some v) : j = .string v := by
      cases j <;> cases hj
      rfl
    refine Or.inr ⟨s, p, ?_, ?_, cString_of_strcpy hssid, cString_of_strcpy hpswd⟩
    · rw [hs, hstring hjs]
    · rw [hp, hstring hjp]
  next => exact Or.inl (congrArg Prod.snd (Option.some.inj h)).symm

theorem cString_zero_ssid : cString WifiInfo.zero.ssid = [] := rfl

theorem cString_zero_pswd : cString WifiInfo.zero.pswd = [] := rfl

theorem getObjectItem_cons {k : Bytes} (hk : cString k = k) (v : Json)
    (more : List (Bytes × Json)) :
    getObjectItem (.object ((k, v) :: more)) k = some v := by
  simp [getObjectItem, hk]

theorem plain_of_restore {ssid pswd : Bytes} (hssid : cString r.ssid = ssid)
    (hpswd : cString r.pswd = pswd)
    (h : Json.parse strict (netinfoText ssid pswd) = some json)
    (hr : netinfoRestore json WifiInfo.zero = some (rt, r)) :
    (∀ b ∈ ssid, Json.Plain strict b) ∧ ∀ b ∈ pswd, Json.Plain strict b := by
  have hnil {bs : Bytes} (hbs : bs = []) : ∀ b ∈ bs, Json.Plain strict b := by
    rw [hbs]
    exact fun _ h => absurd h List.not_mem_nil
  rcases netinfoRestore_cases hr with rfl | ⟨s, p, hs, hp, hrs, hrp⟩
  · exact ⟨hnil (hssid.symm.trans cString_zero_ssid), hnil (hpswd.symm.trans cString_zero_pswd)⟩
  have hplain : ∀ b ∈ ssid, Json.Plain strict b := by
    by_contra hnot
    obtain ⟨d, more, rfl, hne⟩ := exists_of_parse_ssid hnot h
    rw [getObjectItem_cons rfl, Option.some.injEq, Json.string.injEq] at hs
    exact hne (by rw [hs, ← hrs, hssid])
  refine ⟨hplain, ?_⟩
  by_contra hnot
  obtain ⟨d, more, rfl, hne⟩ := exists_of_parse_pswd hplain hnot h
  have hd : getObjectItem (.object (([0x73], .string ssid) :: ([0x70], .string d) :: more)) [0x70] =
      some (.string d) := rfl
  rw [hd, Option.some.injEq, Json.string.injEq] at hp
  exact hne (by rw [hp, ← hrp, hpswd])

theorem exists_restore_plain {ssid pswd : Bytes} (hssid : 0 ∉ ssid) (hpswd : 0 ∉ pswd)
    (hslen : ssid.length ≤ wifiSsidLen) (hplen : pswd.length ≤ wifiPasswdLen) :
    ∃ r, netinfoRestore (.object [([0x73], .string ssid), ([0x70], .string pswd)])
        WifiInfo.zero = some (oprtOk, r) ∧ cString r.ssid = ssid ∧ cString r.pswd = pswd := by
  obtain ⟨ssid', hs⟩ := @exists_strcpy_eq WifiInfo.zero.ssid ssid
    (by rw [WifiInfo.zero, List.length_replicate]; omega)
  obtain ⟨pswd', hp⟩ := @exists_strcpy_eq WifiInfo.zero.pswd pswd
    (by rw [WifiInfo.zero, List.length_replicate]; omega)
  have hrestore : netinfoRestore (.object [([0x73], .string ssid), ([0x70], .string pswd)])
      WifiInfo.zero = some (oprtOk, ⟨ssid', pswd'⟩) := by
    show (strcpy WifiInfo.zero.ssid ssid).bind (fun s =>
      (strcpy WifiInfo.zero.pswd pswd).map fun p => (oprtOk, (⟨s, p⟩ : WifiInfo))) = _
    rw [hs, hp]
    rfl
  refine ⟨_, hrestore, ?_, ?_⟩
  · rw [cString_of_strcpy hs, cString_of_notMem hssid]
  · rw [cString_of_strcpy hp, cString_of_notMem hpswd]

end Restore

/-! ### Provisionings -/

section Finish

variable {strict : Bool} {env : KvEnv} {c : WifiCreds} {info : NetcfgInfo}

/-- The buffers have their sizes and end with a NUL, and the store can be used. -/
structure WifiCreds.Valid (c : WifiCreds) : Prop where
  length_ssid : c.info.ssid.length = wifiSsidLen + 1
  length_pswd : c.info.pswd.length = wifiPasswdLen + 1
  ssid_last : c.info.ssid.getD wifiSsidLen 0 = 0
  pswd_last : c.info.pswd.getD wifiPasswdLen 0 = 0
  dangling : c.store.dangling = false

theorem length_cString_le_of_getD (hlen : mem.length = n + 1) (h : mem.getD n 0 = 0) :
    (cString mem).length ≤ n := by
  have hmem : 0 ∈ mem := by
    rw [List.getD_eq_getElem _ _ (by omega)] at h
    exact h ▸ List.getElem_mem _
  have := length_cString_lt hmem
  omega

theorem exists_netconnWifiInfoSet_eq {store : KvStore} {r : WifiInfo}
    (hs : store.dangling = false) (hssid : (cString r.ssid).length ≤ wifiSsidLen)
    (hpswd : (cString r.pswd).length ≤ wifiPasswdLen) :
    ∃ rt store', netconnWifiInfoSet env store r SetCall.fine = some (rt, store') ∧
      store'.dangling = false ∧
      store'.value env netinfoKey = some (netinfoText (cString r.ssid) (cString r.pswd)) := by
  have hlen := length_netinfoText (cString r.ssid) (cString r.pswd)
  rw [wifiSsidLen] at hssid
  rw [wifiPasswdLen] at hpswd
  have hne : netinfoText (cString r.ssid) (cString r.pswd) ≠ [] := List.cons_ne_nil _ _
  have hwrites : SetCall.fine.Writes (netinfoText (cString r.ssid) (cString r.pswd)) := by
    refine ⟨?_, rfl⟩
    rw [hlen, lfsFileMax]
    omega
  obtain ⟨store', hset, hspec⟩ :=
    @exists_talKvSet_eq_ok env store netinfoKey _ hs SetCall.fine hne rfl ⟨rfl, rfl⟩ hwrites rfl
  refine ⟨oprtOk, store', ?_, hspec.dangling.trans hs, hspec.ok rfl⟩
  rw [netconnWifiInfoSet, if_neg (by omega)]
  exact hset

/-- **One provisioning.** No write leaves its buffer, and the store has the text of the record. -/
theorem exists_netcfgFinish_eq (h : c.Valid) (info : NetcfgInfo) :
    ∃ c', netconnWifiNetcfgFinish env c info = some c' ∧ c'.Valid ∧
      c'.info.ssid = info.ssid ++ c.info.ssid.drop info.ssid.length ∧
      c'.info.pswd = info.passwd ++ c.info.pswd.drop info.passwd.length ∧
      c'.store.value env netinfoKey =
        some (netinfoText (cString c'.info.ssid) (cString c'.info.pswd)) := by
  have hs := h.length_ssid
  have hp := h.length_pswd
  have hsle := info.length_ssid_le
  have hple := info.length_passwd_le
  -- the last bytes are not reached
  have hslast := (getD_copy_eq_zero_iff info.zero_notMem_ssid _).2 ⟨h.ssid_last, hsle⟩
  have hplast := (getD_copy_eq_zero_iff info.zero_notMem_passwd _).2 ⟨h.pswd_last, hple⟩
  have hslen := length_copy hs (hsle.trans (Nat.le_succ _))
  have hplen := length_copy hp (hple.trans (Nat.le_succ _))
  obtain ⟨rt, store', hset, hdangling, hvalue⟩ := @exists_netconnWifiInfoSet_eq env c.store
    ⟨info.ssid ++ c.info.ssid.drop info.ssid.length,
      info.passwd ++ c.info.pswd.drop info.passwd.length⟩ h.dangling
    (length_cString_le_of_getD hslen hslast) (length_cString_le_of_getD hplen hplast)
  refine ⟨⟨_, store'⟩, ?_, ⟨hslen, hplen, hslast, hplast, hdangling⟩, rfl, rfl, hvalue⟩
  rw [netconnWifiNetcfgFinish, memcpy_zero (by omega), Option.bind_some, memcpy_zero (by omega),
    Option.bind_some, hset, Option.map_some]

/-- **Provisionings.** No write leaves its buffer. -/
theorem exists_netcfgFinishes_eq (h : c.Valid) (infos : List NetcfgInfo) :
    ∃ c', netcfgFinishes env c infos = some c' ∧ c'.Valid ∧
      c'.info.ssid = copies c.info.ssid (infos.map NetcfgInfo.ssid) ∧
      c'.info.pswd = copies c.info.pswd (infos.map NetcfgInfo.passwd) := by
  induction infos generalizing c with
  | nil => exact ⟨c, rfl, h, rfl, rfl⟩
  | cons info infos ih =>
    obtain ⟨c₁, hc₁, hvalid, hssid, hpswd, -⟩ := @exists_netcfgFinish_eq env c h info
    obtain ⟨c₂, hc₂, hvalid₂, hssid₂, hpswd₂⟩ := ih hvalid
    refine ⟨c₂, ?_, hvalid₂, ?_, ?_⟩
    · rw [netcfgFinishes, List.foldlM_cons, hc₁]
      exact hc₂
    · rw [hssid₂, hssid]
      rfl
    · rw [hpswd₂, hpswd]
      rfl

theorem cString_eq_iff_noLonger {N : Nat} (data : NetcfgInfo → Bytes) (h : ∀ info, 0 ∉ data info)
    {earlier : List NetcfgInfo} {last : NetcfgInfo} :
    cString (data last ++
        (copies (List.replicate N 0) (earlier.map data)).drop (data last).length) = data last ↔
      ∀ info ∈ earlier, (data info).length ≤ (data last).length := by
  rw [cString_copy_eq_iff (h last), getD_copies_eq_zero_iff]
  · simp
  · intro bs hbs
    obtain ⟨info, -, rfl⟩ := List.mem_map.1 hbs
    exact h info

theorem valid_zero {store : KvStore} (hs : store.dangling = false) :
    WifiCreds.Valid ⟨WifiInfo.zero, store⟩ :=
  ⟨rfl, rfl, rfl, rfl, hs⟩

theorem restores_iff_plain {store : KvStore} (hs : store.dangling = false)
    (hvalue : store.value env netinfoKey = some (netinfoText info.ssid info.passwd)) :
    (∃ rt r, netconnWifiInfoGet strict env store WifiInfo.zero GetCall.fine = some (rt, r) ∧
        r.Has info) ↔
      (∀ b ∈ info.ssid, Json.Plain strict b) ∧ ∀ b ∈ info.passwd, Json.Plain strict b := by
  have hzero := zero_notMem_netinfoText info.zero_notMem_ssid info.zero_notMem_passwd
  obtain ⟨r, hget, hfine, -⟩ :=
    @exists_talKvGet_eq env store netinfoKey hs GetCall.fine fun _ _ => rfl
  obtain ⟨hr, hok⟩ := hfine ⟨rfl, rfl, rfl, rfl, rfl⟩
  rw [hvalue] at hr hok
  have hinfo : netconnWifiInfoGet strict env store WifiInfo.zero GetCall.fine =
      match Json.parse strict (netinfoText info.ssid info.passwd) with
      | none => some (oprtCjsonParseErr, WifiInfo.zero)
      | some json => netinfoRestore json WifiInfo.zero := by
    rw [netconnWifiInfoGet, hget]
    dsimp only
    rw [if_neg (not_not.2 (hok.2 rfl)), hr, Option.getD_some, cString_append_zero hzero]
  rw [hinfo]
  constructor
  · rintro ⟨rt, r, hrestore, hssid, hpswd⟩
    cases hparse : Json.parse strict (netinfoText info.ssid info.passwd) with
    | none =>
      rw [hparse] at hrestore
      obtain rfl := congrArg Prod.snd (Option.some.inj hrestore)
      rw [← hssid, ← hpswd, cString_zero_ssid, cString_zero_pswd]
      exact ⟨fun _ h => absurd h List.not_mem_nil, fun _ h => absurd h List.not_mem_nil⟩
    | some json =>
      rw [hparse] at hrestore
      exact plain_of_restore hssid hpswd hparse hrestore
  · rintro ⟨hssid, hpswd⟩
    rw [parse_netinfoText_plain hssid hpswd]
    obtain ⟨r, hrestore, hhas⟩ := exists_restore_plain info.zero_notMem_ssid
      info.zero_notMem_passwd info.length_ssid_le info.length_passwd_le
    exact ⟨oprtOk, r, hrestore, hhas⟩

def NoLonger (earlier : List NetcfgInfo) (last : NetcfgInfo) : Prop :=
  ∀ info ∈ earlier,
    info.ssid.length ≤ last.ssid.length ∧ info.passwd.length ≤ last.passwd.length

/-- After several provisionings from a record of zeros, the store has the text of the record, and
the credentials are those of the last result exactly when no earlier one is longer. -/
theorem exists_netcfgFinishes_last (env : KvEnv) {store : KvStore} (hs : store.dangling = false)
    (earlier : List NetcfgInfo) (last : NetcfgInfo) :
    ∃ c, netcfgFinishes env ⟨WifiInfo.zero, store⟩ (earlier ++ [last]) = some c ∧ c.Valid ∧
      c.store.value env netinfoKey =
        some (netinfoText (cString c.info.ssid) (cString c.info.pswd)) ∧
      (c.info.Has last ↔ NoLonger earlier last) := by
  obtain ⟨c₁, hc₁, hvalid, hssid, hpswd⟩ :=
    @exists_netcfgFinishes_eq env _ (valid_zero hs) earlier
  obtain ⟨c₂, hc₂, hvalid₂, hssid₂, hpswd₂, hvalue⟩ := @exists_netcfgFinish_eq env c₁ hvalid last
  refine ⟨c₂, ?_, hvalid₂, hvalue, ?_⟩
  · rw [netcfgFinishes, List.foldlM_append]
    rw [netcfgFinishes] at hc₁
    simp [hc₁, hc₂]
  · rw [WifiInfo.Has, hssid₂, hpswd₂, hssid, hpswd, NoLonger, forall₂_and]
    exact and_congr (cString_eq_iff_noLonger NetcfgInfo.ssid fun info => info.zero_notMem_ssid)
      (cString_eq_iff_noLonger NetcfgInfo.passwd fun info => info.zero_notMem_passwd)

theorem Survives.noLonger {store : KvStore} (hs : store.dangling = false)
    {earlier : List NetcfgInfo} {last : NetcfgInfo} (h : Survives strict env store earlier last) :
    NoLonger earlier last := by
  obtain ⟨c, hc, -, -, hhas⟩ := exists_netcfgFinishes_last env hs earlier last
  obtain ⟨c', hc', hlast, -⟩ := h
  obtain rfl : c = c' := Option.some.inj (hc.symm.trans hc')
  exact hhas.1 hlast

/-- **Credentials.** For every sequence of provisionings, the credentials of the last one are those
in use and those that are restored after a reboot exactly when no earlier result is longer and the
credentials can be printed without escapes. -/
theorem survives_iff (strict : Bool) (env : KvEnv) {store : KvStore} (hs : store.dangling = false)
    (earlier : List NetcfgInfo) (last : NetcfgInfo) :
    Survives strict env store earlier last ↔
      NoLonger earlier last ∧ (∀ b ∈ last.ssid, Json.Plain strict b) ∧
        ∀ b ∈ last.passwd, Json.Plain strict b := by
  obtain ⟨c, hc, hvalid, hvalue, hhas⟩ := exists_netcfgFinishes_last env hs earlier last
  constructor
  · intro h
    refine ⟨h.noLonger hs, ?_⟩
    obtain ⟨c', hc', hlast, hrestore⟩ := h
    obtain rfl : c = c' := Option.some.inj (hc.symm.trans hc')
    rw [hlast.1, hlast.2] at hvalue
    exact (restores_iff_plain hvalid.dangling hvalue).1 hrestore
  · rintro ⟨hlonger, hplain⟩
    have hlast := hhas.2 hlonger
    rw [hlast.1, hlast.2] at hvalue
    exact ⟨c, hc, hlast, (restores_iff_plain hvalid.dangling hvalue).2 hplain⟩

def sampleInfo (ssid passwd : List Char)
    (h : (asciiBytes ssid).length ≤ wifiSsidLen ∧ (asciiBytes passwd).length ≤ wifiPasswdLen ∧
      0 ∉ asciiBytes ssid ∧ 0 ∉ asciiBytes passwd) : NetcfgInfo where
  ssid := asciiBytes ssid
  passwd := asciiBytes passwd
  length_ssid_le := h.1
  length_passwd_le := h.2.1
  zero_notMem_ssid := h.2.2.1
  zero_notMem_passwd := h.2.2.2

/-- A network with a longer name than the one before. -/
theorem survives_iff_longer :
    noFiles.dangling = false ∧
      Survives true plainEnv noFiles [sampleInfo ['a'] ['x'] (by decide)]
        (sampleInfo ['h', 'o', 'm', 'e'] ['1', '2', '3'] (by decide)) := by
  refine ⟨rfl, (survives_iff true plainEnv rfl _ _).2 ⟨?_, ?_, ?_⟩⟩
  · exact List.forall_mem_singleton.2 (by decide)
  · simp [sampleInfo, asciiBytes, Json.Plain]
  · simp [sampleInfo, asciiBytes, Json.Plain]

/-- A network with a shorter name than the one before: the rest of the old name stays. -/
theorem not_survives_shorter :
    ¬Survives true plainEnv noFiles [sampleInfo ['h', 'o', 'm', 'e'] ['1', '2', '3'] (by decide)]
      (sampleInfo ['a', 'p'] ['1', '2', '3'] (by decide)) := by
  intro h
  have hlonger := List.forall_mem_singleton.1 (h.noLonger rfl)
  exact absurd hlonger.1 (by decide)

end Finish

end TuyaOpen.Netmgr
