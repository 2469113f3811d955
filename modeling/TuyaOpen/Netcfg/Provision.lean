import TuyaOpen.Basic.CharArray
import TuyaOpen.Basic.Transition
import TuyaOpen.Common.CJson
import TuyaOpen.Common.OperateRet
import Mathlib.Logic.Function.Basic

/-!
# Provisioning requests

A request that gives the device the name and the password of a network, and a token, comes over a
network of the device's own (`ap_cfg_cmd_patse` of `ap_netcfg.c`) or over Bluetooth
(`__handle_net_cfg` of `ble_netcfg.c`). Each of the two has a `netcfg_info_t`, into which it copies
the strings with `strncpy`, and sets the lengths to those of the strings of the request.

Over its own network the device leaves the last byte of an array alone, and the old password and
token in their arrays if the request has none. Over Bluetooth it lets a string fill the whole array.

A field that ought to be a string and is none is read through a NULL pointer.
-/

namespace TuyaOpen.Netcfg

/-! ### The functions -/

/-- `WIFI_SSID_LEN`. -/
def wifiSsidLen : Nat := 32

/-- `WIFI_PASSWD_LEN`. -/
def wifiPasswdLen : Nat := 64

/-- `WL_TOKEN_LEN`. -/
def wlTokenLen : Nat := 16

/-- `netcfg_info_t`. -/
structure NetcfgInfo where
  ssid : CharArray (wifiSsidLen + 1)
  sLen : UInt8
  passwd : CharArray (wifiPasswdLen + 1)
  pLen : UInt8
  token : CharArray (wlTokenLen + 1)
  tLen : UInt8
  deriving DecidableEq

def NetcfgInfo.zero : NetcfgInfo := ⟨.zero _, 0, .zero _, 0, .zero _, 0⟩

/-- `strlen`, reduced to the type of a length. -/
def len8 (s : Bytes) : UInt8 := UInt8.ofNat s.length

def given (s : Bytes) : Option Bytes := if s = [] then none else some s

/-- A field that is read if it is there: a fault, or the string if it is not empty. -/
def optionalField (root : CJson) (name : List Char) : Option (Option Bytes) :=
  match root.getObjectItem name with
  | none => some none
  | some item => item.valuestring.map fun s => given (cString s)

/-- The part of `ap_cfg_cmd_patse` that copies the strings. -/
def apCopy (info : NetcfgInfo) (ssid : Bytes) (passwd token : Option Bytes) : NetcfgInfo :=
  let info :=
    { info with ssid := info.ssid.strncpy ssid wifiSsidLen (Nat.le_succ _), sLen := len8 ssid }
  let info :=
    match passwd with
    | none => { info with pLen := 0 }
    | some passwd =>
      { info with
        passwd := info.passwd.strncpy passwd wifiPasswdLen (Nat.le_succ _)
        pLen := len8 passwd }
  match token with
  | none => info
  | some token =>
    { info with token := info.token.strncpy token wlTokenLen (Nat.le_succ _), tLen := len8 token }

/-- `ap_cfg_cmd_patse` with what `cJSON_Parse` gives: a fault, or the status and the structure. What
becomes of the field `reg` has no influence on them. -/
def apCfgCmdPatse (info : NetcfgInfo) (root : Option CJson) : Option (OperateRet × NetcfgInfo) :=
  match root with
  | none => some (oprtCjsonGetErr, info)
  | some root =>
    match root.getObjectItem ['s', 's', 'i', 'd'] with
    | none => some (oprtCjsonGetErr, info)
    | some item =>
      item.valuestring.bind fun ssid =>
        if (cString ssid).length = 0 then some (oprtCjsonGetErr, info)
        else
          (optionalField root ['t', 'o', 'k', 'e', 'n']).bind fun token =>
          (optionalField root ['p', 'a', 's', 's', 'w', 'd']).map fun passwd =>
            (oprtOk, apCopy info (cString ssid) passwd token)

/-- The part of `__handle_net_cfg` that copies the strings. -/
def bleCopy (info : NetcfgInfo) (ssid passwd token : Bytes) : NetcfgInfo where
  ssid := info.ssid.strncpy ssid (wifiSsidLen + 1) le_rfl
  sLen := len8 ssid
  passwd := info.passwd.strncpy passwd (wifiPasswdLen + 1) le_rfl
  pLen := len8 passwd
  token := info.token.strncpy token (wlTokenLen + 1) le_rfl
  tLen := len8 token

/-- `__handle_net_cfg` with what `cJSON_Parse` gives: a fault, or the result that is sent and the
structure. -/
def handleNetCfg (info : NetcfgInfo) (json : Option CJson) : Option (UInt8 × NetcfgInfo) :=
  match json with
  | none => some (UInt8.ofInt oprtCjsonParseErr, info)
  | some json =>
    match json.getObjectItem ['s', 's', 'i', 'd'],
      json.getObjectItem ['t', 'o', 'k', 'e', 'n'] with
    | some ssid, some token =>
      match (json.getObjectItem ['p', 'w', 'd']).bind CJson.valuestring with
      | none => some (UInt8.ofInt oprtCjsonGetErr, info)
      | some passwd =>
        ssid.valuestring.bind fun ssid => token.valuestring.map fun token =>
          (0, bleCopy info (cString ssid) (cString passwd) (cString token))
    | _, _ => some (UInt8.ofInt oprtCjsonGetErr, info)

/-! ### Runs -/

inductive Transport
  | ap
  | ble
  deriving DecidableEq

def handle (info : NetcfgInfo) (root : Option CJson) : Transport → Option (Bool × NetcfgInfo)
  | .ap => (apCfgCmdPatse info root).map fun r => (decide (r.1 = oprtOk), r.2)
  | .ble => (handleNetCfg info root).map fun r => (decide (r.1 = 0), r.2)

/-- What happens: `ap_netcfg_init` or `ble_netcfg_init`, or a request, as `cJSON_Parse` reads it. -/
inductive ProvEvent
  | init (t : Transport)
  | request (t : Transport) (root : Option CJson)

abbrev ProvState := Option (Transport → NetcfgInfo)

def provInit : ProvState := some fun _ => NetcfgInfo.zero

def provStep : ProvState → ProvEvent → ProvState
  | none, _ => none
  | some w, .init t => some (Function.update w t NetcfgInfo.zero)
  | some w, .request t root => (handle (w t) root t).map fun r => Function.update w t r.2

/-! ### What a request asks for -/

def Transport.passwdName : Transport → List Char
  | .ap => ['p', 'a', 's', 's', 'w', 'd']
  | .ble => ['p', 'w', 'd']

def fieldText (root : CJson) (name : List Char) : Bytes :=
  (((root.getObjectItem name).bind CJson.valuestring).map cString).getD []

structure ProvStrings where
  ssid : Bytes
  passwd : Bytes
  token : Bytes

def requested (t : Transport) (root : CJson) : ProvStrings where
  ssid := fieldText root ['s', 's', 'i', 'd']
  passwd := fieldText root t.passwdName
  token := fieldText root ['t', 'o', 'k', 'e', 'n']

/-- The structure holds the strings, and their lengths. -/
structure TakenOver (info : NetcfgInfo) (r : ProvStrings) : Prop where
  ssid : info.ssid.Holds r.ssid
  sLen : info.sLen.toNat = r.ssid.length
  passwd : info.passwd.Holds r.passwd
  pLen : info.pLen.toNat = r.passwd.length
  token : info.token.Holds r.token
  tLen : info.tLen.toNat = r.token.length

structure ProvStrings.Fit (r : ProvStrings) : Prop where
  ssid : r.ssid.length ≤ wifiSsidLen
  passwd : r.passwd.length ≤ wifiPasswdLen
  token : r.token.length ≤ wlTokenLen

/-- What is to hold after a request that is accepted: it is one whose strings fit, and they have
been taken over. -/
def ExactRequest (info : NetcfgInfo) (t : Transport) (root : Option CJson) : Prop :=
  ∀ info', handle info root t = some (true, info') →
    ∃ root', root = some root' ∧ (requested t root').Fit ∧ TakenOver info' (requested t root')

def Exact : ProvState → ProvEvent → Prop
  | some w, .request t root => ExactRequest (w t) t root
  | _, _ => True

/-! ### The condition -/

def Complete (root : CJson) : Transport → Prop
  | .ap =>
    (∃ item s, root.getObjectItem ['s', 's', 'i', 'd'] = some item ∧ item.valuestring = some s ∧
      cString s ≠ []) ∧
    (∀ item, root.getObjectItem ['t', 'o', 'k', 'e', 'n'] = some item →
      item.valuestring.isSome = true) ∧
    (∀ item, root.getObjectItem ['p', 'a', 's', 's', 'w', 'd'] = some item →
      item.valuestring.isSome = true)
  | .ble =>
    ∀ name ∈ [['s', 's', 'i', 'd'], ['t', 'o', 'k', 'e', 'n'], ['p', 'w', 'd']],
      ((root.getObjectItem name).bind CJson.valuestring).isSome = true

/-- Over its own network the device must not have a password or a token from before if the request
has none. -/
def NoLeftover (info : NetcfgInfo) (r : ProvStrings) : Transport → Prop
  | .ap =>
    (r.passwd = [] → info.passwd.Holds []) ∧
    (r.token = [] → info.token.Holds [] ∧ info.tLen = 0)
  | .ble => True

/-- The condition on an event: a request with all its fields has strings that fit, and there is
nothing left from before in the place of those it has not. -/
def RequestCond : ProvState → ProvEvent → Prop
  | some w, .request t root =>
    ∀ root', root = some root' → Complete root' t →
      (requested t root').Fit ∧ NoLeftover (w t) (requested t root') t
  | _, _ => True

/-! ### One field -/

section Field

variable {k : Nat} {s : Bytes}

theorem toNat_len8 (h : s.length < 256) : (len8 s).toNat = s.length := by
  rw [len8, UInt8.toNat_ofNat', Nat.mod_eq_of_lt h]

theorem zero_notMem_fieldText (root : CJson) (name : List Char) : 0 ∉ fieldText root name := by
  rw [fieldText]
  cases (root.getObjectItem name).bind CJson.valuestring with
  | none => exact List.not_mem_nil
  | some s => exact zero_notMem_cString s

theorem fieldText_of_some {root : CJson} {name : List Char}
    (h : (root.getObjectItem name).bind CJson.valuestring = some s) :
    fieldText root name = cString s := by
  rw [fieldText, h]
  rfl

theorem optionalField_eq {root : CJson} {name : List Char}
    (h : ∀ item, root.getObjectItem name = some item → item.valuestring.isSome = true) :
    optionalField root name = some (given (fieldText root name)) := by
  rw [optionalField, fieldText]
  cases hitem : root.getObjectItem name with
  | none => rfl
  | some item =>
    obtain ⟨s, hs⟩ := Option.isSome_iff_exists.mp (h item hitem)
    dsimp only
    rw [Option.bind_some, hs]
    rfl

theorem valuestring_of_optionalField {root : CJson} {name : List Char} {o : Option Bytes}
    (h : optionalField root name = some o) :
    ∀ item, root.getObjectItem name = some item → item.valuestring.isSome = true := by
  intro item hitem
  rw [optionalField, hitem] at h
  obtain ⟨s, hs, -⟩ := Option.map_eq_some_iff.mp h
  rw [hs]
  rfl

theorem copied_iff {a : CharArray (k + 1)} (hk : k < 256) (hlast : a.mem.drop k = [0])
    (hs : 0 ∉ s) :
    ((a.strncpy s k (Nat.le_succ k)).Holds s ∧ (len8 s).toNat = s.length) ↔ s.length ≤ k := by
  rw [CharArray.holds_strncpy_init_iff a hlast hs]
  exact and_iff_left_of_imp fun h => toNat_len8 (Nat.lt_of_le_of_lt h hk)

theorem copied_whole_iff {a : CharArray (k + 1)} (hk : k < 256) (hs : 0 ∉ s) :
    ((a.strncpy s (k + 1) le_rfl).Holds s ∧ (len8 s).toNat = s.length) ↔ s.length ≤ k := by
  rw [CharArray.holds_strncpy_iff a hs, Nat.lt_succ_iff]
  exact and_iff_left_of_imp fun h => toNat_len8 (Nat.lt_of_le_of_lt h hk)

end Field

/-! ### The structure -/

section Copy

variable {info : NetcfgInfo} {r : ProvStrings}

/-- The last bytes of the arrays are terminators. -/
structure NetcfgInfo.LastZero (info : NetcfgInfo) : Prop where
  ssid : info.ssid.mem.drop wifiSsidLen = [0]
  passwd : info.passwd.mem.drop wifiPasswdLen = [0]
  token : info.token.mem.drop wlTokenLen = [0]

structure ProvStrings.NoZero (r : ProvStrings) : Prop where
  ssid : 0 ∉ r.ssid
  passwd : 0 ∉ r.passwd
  token : 0 ∉ r.token

theorem noZero_requested (t : Transport) (root : CJson) : (requested t root).NoZero :=
  ⟨zero_notMem_fieldText _ _, zero_notMem_fieldText _ _, zero_notMem_fieldText _ _⟩

theorem takenOver_iff :
    TakenOver info r ↔ (info.ssid.Holds r.ssid ∧ info.sLen.toNat = r.ssid.length) ∧
      (info.passwd.Holds r.passwd ∧ info.pLen.toNat = r.passwd.length) ∧
      (info.token.Holds r.token ∧ info.tLen.toNat = r.token.length) :=
  ⟨fun h => ⟨⟨h.ssid, h.sLen⟩, ⟨h.passwd, h.pLen⟩, ⟨h.token, h.tLen⟩⟩,
    fun h => ⟨h.1.1, h.1.2, h.2.1.1, h.2.1.2, h.2.2.1, h.2.2.2⟩⟩

theorem fit_iff :
    r.Fit ↔ r.ssid.length ≤ wifiSsidLen ∧ r.passwd.length ≤ wifiPasswdLen ∧
      r.token.length ≤ wlTokenLen :=
  ⟨fun h => ⟨h.ssid, h.passwd, h.token⟩, fun h => ⟨h.1, h.2.1, h.2.2⟩⟩

theorem takenOver_bleCopy_iff (hr : r.NoZero) :
    TakenOver (bleCopy info r.ssid r.passwd r.token) r ↔ r.Fit := by
  rw [takenOver_iff, fit_iff]
  exact and_congr (copied_whole_iff (by decide) hr.ssid)
    (and_congr (copied_whole_iff (by decide) hr.passwd) (copied_whole_iff (by decide) hr.token))

theorem apCopy_passwd_iff (hlast : info.LastZero) (hr : r.NoZero) :
    ((apCopy info r.ssid (given r.passwd) (given r.token)).passwd.Holds r.passwd ∧
      (apCopy info r.ssid (given r.passwd) (given r.token)).pLen.toNat = r.passwd.length) ↔
    r.passwd.length ≤ wifiPasswdLen ∧ (r.passwd = [] → info.passwd.Holds []) := by
  have hfield (token : Option Bytes) : ∀ passwd,
      (apCopy info r.ssid passwd token).passwd = (match passwd with
        | none => info.passwd
        | some passwd => info.passwd.strncpy passwd wifiPasswdLen (Nat.le_succ _)) ∧
      (apCopy info r.ssid passwd token).pLen = (match passwd with
        | none => 0
        | some passwd => len8 passwd) := by
    intro passwd
    cases passwd <;> cases token <;> exact ⟨rfl, rfl⟩
  rw [(hfield _ _).1, (hfield _ _).2]
  by_cases hnil : r.passwd = []
  · rw [hnil, given, if_pos rfl]
    exact ⟨fun h => ⟨Nat.zero_le _, fun _ => h.1⟩, fun h => ⟨h.2 rfl, rfl⟩⟩
  · rw [given, if_neg hnil]
    exact (copied_iff (by decide) hlast.passwd hr.passwd).trans
      (and_iff_left fun h => absurd h hnil).symm

theorem apCopy_token_iff (hlast : info.LastZero) (hr : r.NoZero) :
    ((apCopy info r.ssid (given r.passwd) (given r.token)).token.Holds r.token ∧
      (apCopy info r.ssid (given r.passwd) (given r.token)).tLen.toNat = r.token.length) ↔
    r.token.length ≤ wlTokenLen ∧ (r.token = [] → info.token.Holds [] ∧ info.tLen = 0) := by
  have hfield (passwd : Option Bytes) : ∀ token,
      (apCopy info r.ssid passwd token).token = (match token with
        | none => info.token
        | some token => info.token.strncpy token wlTokenLen (Nat.le_succ _)) ∧
      (apCopy info r.ssid passwd token).tLen = (match token with
        | none => info.tLen
        | some token => len8 token) := by
    intro token
    cases passwd <;> cases token <;> exact ⟨rfl, rfl⟩
  rw [(hfield _ _).1, (hfield _ _).2]
  by_cases hnil : r.token = []
  · rw [hnil, given, if_pos rfl]
    refine ⟨fun h => ⟨Nat.zero_le _, fun _ => ⟨h.1, UInt8.toNat_inj.mp h.2⟩⟩, fun h => ?_⟩
    obtain ⟨hold, hlen⟩ := h.2 rfl
    exact ⟨hold, by rw [hlen]; rfl⟩
  · rw [given, if_neg hnil]
    exact (copied_iff (by decide) hlast.token hr.token).trans
      (and_iff_left fun h => absurd h hnil).symm

/-- The strings that are copied over the device's own network are taken over just when they fit and
nothing is left from before in the place of those that are not given. -/
theorem takenOver_apCopy_iff (hlast : info.LastZero) (hr : r.NoZero) :
    TakenOver (apCopy info r.ssid (given r.passwd) (given r.token)) r ↔
      r.Fit ∧ NoLeftover info r .ap := by
  have hssid : ((apCopy info r.ssid (given r.passwd) (given r.token)).ssid.Holds r.ssid ∧
      (apCopy info r.ssid (given r.passwd) (given r.token)).sLen.toNat = r.ssid.length) ↔
      r.ssid.length ≤ wifiSsidLen := by
    refine Iff.trans ?_ (copied_iff (a := info.ssid) (by decide) hlast.ssid hr.ssid)
    cases given r.passwd <;> cases given r.token <;> exact Iff.rfl
  rw [takenOver_iff, hssid, apCopy_passwd_iff hlast hr, apCopy_token_iff hlast hr, fit_iff,
    NoLeftover]
  constructor
  · rintro ⟨hs, ⟨hp, hp'⟩, ht, ht'⟩
    exact ⟨⟨hs, hp, ht⟩, hp', ht'⟩
  · rintro ⟨⟨hs, hp, ht⟩, hp', ht'⟩
    exact ⟨hs, ⟨hp, hp'⟩, ht, ht'⟩

theorem NetcfgInfo.LastZero.apCopy (hlast : info.LastZero) (ssid : Bytes)
    (passwd token : Option Bytes) : (apCopy info ssid passwd token).LastZero := by
  have hssid : (info.ssid.strncpy ssid wifiSsidLen (Nat.le_succ _)).mem.drop wifiSsidLen = [0] :=
    (CharArray.drop_strncpy _ _ _).trans hlast.ssid
  constructor
  · cases passwd <;> cases token <;> exact hssid
  · cases passwd with
    | none => cases token <;> exact hlast.passwd
    | some passwd =>
      have hpasswd := (CharArray.drop_strncpy info.passwd passwd (Nat.le_succ _)).trans hlast.passwd
      cases token <;> exact hpasswd
  · cases token with
    | none => cases passwd <;> exact hlast.token
    | some token =>
      have htoken := (CharArray.drop_strncpy info.token token (Nat.le_succ _)).trans hlast.token
      cases passwd <;> exact htoken

end Copy

/-! ### One request -/

section Request

variable {info info' : NetcfgInfo} {root : Option CJson}

theorem apCfgCmdPatse_ok_iff :
    apCfgCmdPatse info root = some (oprtOk, info') ↔
      ∃ root', root = some root' ∧ Complete root' .ap ∧
        info' = apCopy info (requested .ap root').ssid (given (requested .ap root').passwd)
          (given (requested .ap root').token) := by
  have herr (h : some (oprtCjsonGetErr, info) = some (oprtOk, info')) : False := by
    have hcode : oprtCjsonGetErr = oprtOk := congrArg Prod.fst (Option.some.inj h)
    exact absurd hcode (by decide)
  constructor
  · intro h
    cases root with
    | none => exact (herr h).elim
    | some root =>
      rw [apCfgCmdPatse] at h
      cases hitem : root.getObjectItem ['s', 's', 'i', 'd'] with
      | none =>
        rw [hitem] at h
        exact (herr h).elim
      | some item =>
        rw [hitem] at h
        obtain ⟨ssid, hssid, h⟩ := Option.bind_eq_some_iff.mp h
        split_ifs at h with hempty
        · exact (herr h).elim
        obtain ⟨token, htoken, h⟩ := Option.bind_eq_some_iff.mp h
        obtain ⟨passwd, hpasswd, h⟩ := Option.map_eq_some_iff.mp h
        have hcomplete : Complete root .ap :=
          ⟨⟨item, ssid, hitem, hssid, fun hnil => hempty (by rw [hnil]; rfl)⟩,
            valuestring_of_optionalField htoken, valuestring_of_optionalField hpasswd⟩
        have htext : fieldText root ['s', 's', 'i', 'd'] = cString ssid :=
          fieldText_of_some (by rw [hitem, Option.bind_some, hssid])
        refine ⟨root, rfl, hcomplete, ?_⟩
        rw [optionalField_eq hcomplete.2.1] at htoken
        rw [optionalField_eq hcomplete.2.2] at hpasswd
        rw [← (Prod.mk.inj h).2, ← Option.some.inj htoken, ← Option.some.inj hpasswd, ← htext]
        rfl
  · rintro ⟨root', rfl, ⟨⟨item, ssid, hitem, hssid, hne⟩, htoken, hpasswd⟩, rfl⟩
    have htext : fieldText root' ['s', 's', 'i', 'd'] = cString ssid :=
      fieldText_of_some (by rw [hitem, Option.bind_some, hssid])
    rw [apCfgCmdPatse, hitem]
    dsimp only
    rw [hssid, Option.bind_some, if_neg (fun h => hne (List.eq_nil_of_length_eq_zero h)),
      optionalField_eq htoken, Option.bind_some, optionalField_eq hpasswd, ← htext]
    rfl

theorem handleNetCfg_ok_iff :
    handleNetCfg info root = some (0, info') ↔
      ∃ root', root = some root' ∧ Complete root' .ble ∧
        info' = bleCopy info (requested .ble root').ssid (requested .ble root').passwd
          (requested .ble root').token := by
  have herr {rt : OperateRet} (hrt : UInt8.ofInt rt ≠ 0)
      (h : some (UInt8.ofInt rt, info) = some (0, info')) : False :=
    absurd (congrArg Prod.fst (Option.some.inj h)) hrt
  constructor
  · intro h
    cases root with
    | none => exact (herr (by decide) h).elim
    | some root =>
      rw [handleNetCfg] at h
      split at h
      · next ssid token hssid htoken =>
        cases hpasswd : (root.getObjectItem ['p', 'w', 'd']).bind CJson.valuestring with
        | none =>
          rw [hpasswd] at h
          exact (herr (by decide) h).elim
        | some passwd =>
          rw [hpasswd] at h
          obtain ⟨s, hs, h⟩ := Option.bind_eq_some_iff.mp h
          obtain ⟨t, ht, h⟩ := Option.map_eq_some_iff.mp h
          have hs : (root.getObjectItem ['s', 's', 'i', 'd']).bind CJson.valuestring = some s := by
            rw [hssid, Option.bind_some, hs]
          have ht : (root.getObjectItem ['t', 'o', 'k', 'e', 'n']).bind CJson.valuestring =
              some t := by
            rw [htoken, Option.bind_some, ht]
          have hp : (requested .ble root).passwd = cString passwd := fieldText_of_some hpasswd
          refine ⟨root, rfl, ?_, ?_⟩
          · simp [Complete, hs, ht, hpasswd]
          · rw [← (Prod.mk.inj h).2, hp, ← fieldText_of_some hs, ← fieldText_of_some ht]
            rfl
      · exact (herr (by decide) h).elim
  · rintro ⟨root', rfl, hcomplete, rfl⟩
    obtain ⟨s, hs⟩ := Option.isSome_iff_exists.mp (hcomplete ['s', 's', 'i', 'd'] (by simp))
    obtain ⟨t, ht⟩ := Option.isSome_iff_exists.mp (hcomplete ['t', 'o', 'k', 'e', 'n'] (by simp))
    obtain ⟨p, hp⟩ := Option.isSome_iff_exists.mp (hcomplete ['p', 'w', 'd'] (by simp))
    have hpasswd : (requested .ble root').passwd = cString p := fieldText_of_some hp
    obtain ⟨ssid, hssid, hssid'⟩ := Option.bind_eq_some_iff.mp hs
    obtain ⟨token, htoken, htoken'⟩ := Option.bind_eq_some_iff.mp ht
    rw [handleNetCfg, hssid, htoken, hp]
    dsimp only
    rw [hssid', Option.bind_some, htoken', Option.map_some, hpasswd, ← fieldText_of_some hs,
      ← fieldText_of_some ht]
    rfl

def copyOver (info : NetcfgInfo) (r : ProvStrings) : Transport → NetcfgInfo
  | .ap => apCopy info r.ssid (given r.passwd) (given r.token)
  | .ble => bleCopy info r.ssid r.passwd r.token

theorem handle_true_iff (t : Transport) :
    handle info root t = some (true, info') ↔
      ∃ root', root = some root' ∧ Complete root' t ∧
        info' = copyOver info (requested t root') t := by
  cases t with
  | ap =>
    refine Iff.trans ?_ apCfgCmdPatse_ok_iff
    rw [handle, Option.map_eq_some_iff]
    constructor
    · rintro ⟨⟨rt, info₁⟩, h, heq⟩
      obtain ⟨hrt, rfl⟩ := Prod.mk.inj heq
      have hok : rt = oprtOk := of_decide_eq_true hrt
      rw [h, hok]
    · exact fun h => ⟨_, h, rfl⟩
  | ble =>
    refine Iff.trans ?_ handleNetCfg_ok_iff
    rw [handle, Option.map_eq_some_iff]
    constructor
    · rintro ⟨⟨result, info₁⟩, h, heq⟩
      obtain ⟨hresult, rfl⟩ := Prod.mk.inj heq
      have hok : result = 0 := of_decide_eq_true hresult
      rw [h, hok]
    · exact fun h => ⟨_, h, rfl⟩

theorem exists_of_apCfgCmdPatse {rt : OperateRet} (h : apCfgCmdPatse info root = some (rt, info')) :
    info' = info ∨ ∃ ssid passwd token, info' = apCopy info ssid passwd token := by
  cases root with
  | none => exact .inl (Prod.mk.inj (Option.some.inj h)).2.symm
  | some root =>
    rw [apCfgCmdPatse] at h
    cases hitem : root.getObjectItem ['s', 's', 'i', 'd'] with
    | none =>
      rw [hitem] at h
      exact .inl (Prod.mk.inj (Option.some.inj h)).2.symm
    | some item =>
      rw [hitem] at h
      obtain ⟨ssid, -, h⟩ := Option.bind_eq_some_iff.mp h
      split_ifs at h
      · exact .inl (Prod.mk.inj (Option.some.inj h)).2.symm
      · obtain ⟨token, -, h⟩ := Option.bind_eq_some_iff.mp h
        obtain ⟨passwd, -, h⟩ := Option.map_eq_some_iff.mp h
        exact .inr ⟨_, passwd, token, (Prod.mk.inj h).2.symm⟩

theorem NetcfgInfo.LastZero.handle (hlast : info.LastZero) {accepted : Bool}
    (h : handle info root .ap = some (accepted, info')) : info'.LastZero := by
  obtain ⟨⟨rt, info₁⟩, hap, heq⟩ := Option.map_eq_some_iff.mp h
  obtain ⟨-, rfl⟩ := Prod.mk.inj heq
  rcases exists_of_apCfgCmdPatse hap with hsame | ⟨ssid, passwd, token, hcopy⟩
  · exact hsame ▸ hlast
  · exact hcopy ▸ hlast.apCopy ssid passwd token

/-- **A request.** What is taken over is the request, just when its strings fit and nothing is left
from before in the place of those it has not. -/
theorem exactRequest_iff (t : Transport) (hlast : t = .ap → info.LastZero) :
    ExactRequest info t root ↔
      ∀ root', root = some root' → Complete root' t →
        (requested t root').Fit ∧ NoLeftover info (requested t root') t := by
  have hcopy (root' : CJson) :
      TakenOver (copyOver info (requested t root') t) (requested t root') ↔
        (requested t root').Fit ∧ NoLeftover info (requested t root') t := by
    cases t with
    | ap => exact takenOver_apCopy_iff (hlast rfl) (noZero_requested .ap root')
    | ble =>
      exact (takenOver_bleCopy_iff (noZero_requested .ble root')).trans
        (and_iff_left trivial).symm
  constructor
  · rintro hexact root' rfl hcomplete
    obtain ⟨root₁, heq, -, htaken⟩ :=
      hexact _ ((handle_true_iff t).mpr ⟨root', rfl, hcomplete, rfl⟩)
    rw [← Option.some.inj heq] at htaken
    exact (hcopy root').mp htaken
  · rintro hcond info' hhandle
    obtain ⟨root', rfl, hcomplete, rfl⟩ := (handle_true_iff t).mp hhandle
    have h := hcond root' rfl hcomplete
    exact ⟨root', rfl, h.1, (hcopy root').mpr h⟩

end Request

/-! ### All requests -/

/-- In the structure of the device's own network the last bytes of the arrays are terminators. -/
def LastZeros (w : ProvState) : Prop := ∀ infos, w = some infos → (infos .ap).LastZero

theorem lastZero_zero : NetcfgInfo.zero.LastZero := ⟨by decide, by decide, by decide⟩

theorem lastZeros_init : LastZeros provInit := by
  rintro infos h
  rw [← Option.some.inj h]
  exact lastZero_zero

theorem LastZeros.provStep {w : ProvState} (h : LastZeros w) (ev : ProvEvent) :
    LastZeros (provStep w ev) := by
  cases w with
  | none => exact fun _ h => by cases h
  | some infos =>
    have hlast := h infos rfl
    intro infos' hstep
    cases ev with
    | init t =>
      obtain rfl := Option.some.inj hstep
      cases t with
      | ap => exact lastZero_zero
      | ble => exact hlast
    | request t root =>
      obtain ⟨r, hr, rfl⟩ := Option.map_eq_some_iff.mp hstep
      cases t with
      | ap => exact hlast.handle hr
      | ble => exact hlast

theorem exact_iff {w : ProvState} (h : LastZeros w) (ev : ProvEvent) :
    Exact w ev ↔ RequestCond w ev := by
  cases w with
  | none => exact Iff.rfl
  | some infos =>
    cases ev with
    | init t => exact Iff.rfl
    | request t root =>
      refine exactRequest_iff t ?_
      rintro rfl
      exact h infos rfl

/-- **Provisioning.** In every run of requests over both transports every request that is accepted
is taken over exactly, and fits, if and only if every complete request has strings that fit, and
over the device's own network leaves out no string of which there is one from before. -/
theorem guarded_exact_iff (evs : List ProvEvent) :
    Guarded provStep Exact provInit evs ↔ Guarded provStep RequestCond provInit evs :=
  guarded_iff_of_invariant (fun _ ev h => exact_iff h ev) (fun _ ev h _ => h.provStep ev)
    lastZeros_init

def apRequest (members : List (List Char × List Char)) : ProvEvent :=
  .request .ap (some (.object (members.map fun m => (asciiBytes m.1, .string (asciiBytes m.2)))))

/-- A request for an open network after one for a protected network: the old password and token
stay. -/
theorem not_guarded_exact :
    ¬ Guarded provStep Exact provInit
      [apRequest [(['s', 's', 'i', 'd'], ['h', 'o', 'm', 'e']),
          (['p', 'a', 's', 's', 'w', 'd'], ['k', 'e', 'y']), (['t', 'o', 'k', 'e', 'n'], ['t'])],
        apRequest [(['s', 's', 'i', 'd'], ['o', 'p', 'e', 'n'])]] := by
  rintro ⟨-, hsecond, -⟩
  obtain ⟨root', hroot, -, htaken⟩ := hsecond _ (by rfl)
  rw [← Option.some.inj hroot] at htaken
  exact absurd htaken.tLen (by decide)

end TuyaOpen.Netcfg
