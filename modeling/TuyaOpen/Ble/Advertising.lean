import TuyaOpen.Ble.Response
import TuyaOpen.Ota.Firmware

/-!
# Advertising

`ble_adv_set` of `ble_mgr.c`. Advertising data and the answer to a scan are sequences of AD
structures,

  length + type + data,

where the length counts the type and the data. The lengths of the fixed structures are literals. The
last structure of the answer is for the name of the device, which is copied to the place of its
length and type before these two are written: its first two characters are lost, and the structure
ends with bytes that have been there before.
-/

namespace TuyaOpen.Ble

/-! ### AD structures -/

/-- An AD structure. Its length has one byte. -/
structure AdStructure where
  type : UInt8
  data : Bytes
  length_data_lt : data.length + 1 < 256

def AdStructure.bytes (ad : AdStructure) : Bytes :=
  UInt8.ofNat (ad.data.length + 1) :: ad.type :: ad.data

def adBytes (ads : List AdStructure) : Bytes := ads.flatMap AdStructure.bytes

/-! ### Constants -/

/-- `BLE_ADV_DATA_LEN`. -/
def bleAdvDataLen : Nat := 31

/-- `BLE_SCAN_RSP_DATA_LEN`. -/
def bleScanRspDataLen : Nat := 31

/-- `BLE_ID_LEN`, which is also `MAX_LENGTH_PRODUCT_ID`. -/
def bleIdLen : Nat := 16

/-- `TUYA_BLE_NAME_LEN`. -/
def tuyaBleNameLen : Nat := 5

/-- `TUYA_BLE_SECURE_CONNECTION_WITH_AUTH_KEY`. -/
def tuyaBleSecureConnectionWithAuthKey : UInt8 := 0x00

/-- `TUYA_BLE_DEVICE_COMMUNICATION_ABILITY`: Bluetooth and Wi-Fi of both bands. -/
def tuyaBleDeviceCommunicationAbility : UInt16 := 0x0000 ||| 0x0004 ||| 0x0008

/-- `ADV_FLAG_BOND`. -/
def advFlagBond : UInt8 := 0x80

/-- `ADV_FLAG_UUID_COMP`. -/
def advFlagUuidComp : UInt8 := 0x01

/-! ### The function -/

/-- `char device_name[TUYA_BLE_NAME_LEN + 1]`, with a text in it. -/
structure BleDeviceName where
  mem : Bytes
  length_mem : mem.length = tuyaBleNameLen + 1
  zero_mem : 0 ∈ mem

/-- What does not change while the service runs: the name, the identifier of the device, whether it
is compressed, and the first `BLE_ID_LEN` bytes of the product key. -/
structure BleAdvCfg where
  deviceName : BleDeviceName
  id : Bytes
  isIdComp : Bool
  productkey : Bytes
  length_id : id.length = bleIdLen
  length_productkey : productkey.length = bleIdLen

/-- What a call finds: `*is_bound`, the status of the network, the secret key, and whether
`tuya_ble_adv_id_encrypt` gets memory. -/
structure BleAdvCall where
  isBound : Bool
  linkDown : Bool
  secKey : Bytes
  malloc : Bool

/-- The part of `tuya_ble_mgr_t` that is written. -/
structure BleAdvData where
  advLen : Nat
  advData : Bytes
  rspLen : Nat
  rspData : Bytes

/-- The data after `memset`. -/
def BleAdvData.init : BleAdvData :=
  ⟨0, List.replicate bleAdvDataLen 0, 0, List.replicate bleScanRspDataLen 0⟩

/-- `BITMASK`. -/
def bitmask (bit : UInt16) : UInt16 := 1 <<< bit

/-- `frame_ctrl`. -/
def advFrameCtrl (call : BleAdvCall) : UInt16 :=
  bitmask 2 ||| bitmask 3 ||| bitmask 8 ||| (if call.linkDown then bitmask 9 else 0) |||
    (if call.isBound then bitmask 11 else 0) ||| bitmask 14

/-- `*flag`. -/
def advFlag (cfg : BleAdvCfg) (call : BleAdvCall) : UInt8 :=
  let flag : UInt8 := if cfg.isIdComp then 0x00 ||| advFlagUuidComp else 0x00
  if call.isBound then flag ||| advFlagBond else flag &&& ~~~advFlagBond

/-- `tuya_ble_adv_id_encrypt`: the bytes that it writes, or none when there is no memory. Only the
first block of the encrypted text is taken. -/
def tuyaBleAdvIdEncrypt (env : BleEnv) (malloc : Bool) (key inBuf : Bytes) : Option Bytes :=
  if 41 < inBuf.length * 2 + 1 ∨ malloc = false then none
  else
    let aesBuf := bleAddPkcs (Ota.hex2str inBuf ++ [0])
    some (env.aes128.enc (env.md5 key) (aesBuf.take 16))

/-- `tuya_ble_rsp_id_encrypt`: the bytes that it writes. -/
def tuyaBleRspIdEncrypt (env : BleEnv) (key inBuf : Bytes) : Bytes :=
  (cbcEncrypt env.aes128 (env.md5 key) (inBuf.length / 16) (env.md5 key) inBuf).1

/-- The identifier in the advertising data: the encrypted one of the device, or the product key. -/
def advId (env : BleEnv) (cfg : BleAdvCfg) (call : BleAdvCall) : Option Bytes :=
  if call.isBound then tuyaBleAdvIdEncrypt env call.malloc call.secKey cfg.id
  else some cfg.productkey

/-- `adv_data` after its fixed bytes, and after the identifier. -/
def writeAdvData (env : BleEnv) (cfg : BleAdvCfg) (call : BleAdvCall) (advData : Bytes) :
    Option Bytes :=
  match memcpys advData
      [(0, [0x02, 0x01, 0x06]), (3, [0x03, 0x02, 0x50, 0xFD]),
        (7, [UInt8.ofNat (3 + 2 + 2 + bleIdLen), 0x16, 0x50, 0xFD]),
        (11, [(advFrameCtrl call >>> 8).toUInt8, (advFrameCtrl call).toUInt8, 0x00,
          UInt8.ofNat bleIdLen])] with
  | none => none
  | some advData =>
    match advId env cfg call with
    | none => some advData
    | some id => memcpy advData 15 id

/-- `rsp_data` after its fixed bytes and the encrypted identifier; the key is made of the end of
`adv_data`. -/
def writeRspData (env : BleEnv) (cfg : BleAdvCfg) (call : BleAdvCall) (advData rspData : Bytes) :
    Option Bytes :=
  match readSpan advData 11 (bleIdLen + 4) with
  | none => none
  | some keyIn =>
    memcpys rspData
      [(0, [0x17, 0xFF, 0xD0, 0x07, tuyaBleSecureConnectionWithAuthKey,
          (tuyaBleDeviceCommunicationAbility >>> 8).toUInt8,
          tuyaBleDeviceCommunicationAbility.toUInt8]),
        (7, [advFlag cfg call]), (8, tuyaBleRspIdEncrypt env keyIn cfg.id)]

/-- `device_name_len`. -/
def deviceNameLen (cfg : BleAdvCfg) : Nat :=
  let len := (UInt8.ofNat (cString cfg.deviceName.mem).length).toNat
  if tuyaBleNameLen < len then tuyaBleNameLen else len

/-- The name in `rsp_data`: it is copied first, and then length and type are written. -/
def writeName (cfg : BleAdvCfg) (rspData : Bytes) : Option Bytes :=
  match readSpan cfg.deviceName.mem 0 (deviceNameLen cfg) with
  | none => none
  | some name =>
    match memcpy rspData 24 name with
    | none => none
    | some rspData => memcpys rspData [(24, [UInt8.ofNat (deviceNameLen cfg + 1)]), (25, [0x09])]

/-- `ble_adv_set`. There is no result when a buffer is left. -/
def bleAdvSet (env : BleEnv) (cfg : BleAdvCfg) (data : BleAdvData) (call : BleAdvCall) :
    Option BleAdvData := do
  let advData ← writeAdvData env cfg call data.advData
  let rspData ← writeRspData env cfg call advData data.rspData
  let rspData ← writeName cfg rspData
  return ⟨15 + bleIdLen, advData, 8 + bleIdLen + 2 + deviceNameLen cfg, rspData⟩

/-- The data fit their buffers and are sequences of AD structures, the last of which has the name in
the answer to a scan. -/
def Advertised (cfg : BleAdvCfg) (data : BleAdvData) : Prop :=
  data.advLen ≤ bleAdvDataLen ∧ data.rspLen ≤ bleScanRspDataLen ∧
    (∃ ads, data.advData.take data.advLen = adBytes ads) ∧
      ∃ ads ad, data.rspData.take data.rspLen = adBytes (ads ++ [ad]) ∧ ad.type = 0x09 ∧
        ad.data = (cString cfg.deviceName.mem).take tuyaBleNameLen

/-- The service has been started and has called `ble_adv_set` any number of times; the next call
advertises the name. -/
def Advertises (env : BleEnv) (cfg : BleAdvCfg) (calls : List BleAdvCall) (call : BleAdvCall) :
    Prop :=
  ∃ data data', calls.foldlM (bleAdvSet env cfg) .init = some data ∧
    bleAdvSet env cfg data call = some data' ∧ Advertised cfg data'

/-! ### What is written -/

section Written

variable {env : BleEnv} {cfg : BleAdvCfg} {call : BleAdvCall} {data : BleAdvData}
  {advData rspData : Bytes}

def BleAdvCfg.name (cfg : BleAdvCfg) : Bytes := cString cfg.deviceName.mem

theorem name_prefix_deviceName (cfg : BleAdvCfg) : cfg.name <+: cfg.deviceName.mem :=
  List.takeWhile_prefix _

theorem length_name_le (cfg : BleAdvCfg) : cfg.name.length ≤ tuyaBleNameLen := by
  have hpre := name_prefix_deviceName cfg
  have hlt : cfg.name.length < cfg.deviceName.mem.length := by
    refine Nat.lt_of_le_of_ne hpre.length_le fun heq => ?_
    have hzero := cfg.deviceName.zero_mem
    rw [← hpre.eq_of_length heq] at hzero
    exact zero_notMem_cString _ hzero
  rw [cfg.deviceName.length_mem] at hlt
  omega

theorem deviceNameLen_eq (cfg : BleAdvCfg) : deviceNameLen cfg = cfg.name.length := by
  have hle := length_name_le cfg
  rw [tuyaBleNameLen] at hle
  have hbyte : (UInt8.ofNat cfg.name.length).toNat = cfg.name.length := by
    rw [UInt8.toNat_ofNat', Nat.mod_eq_of_lt (by omega)]
  rw [deviceNameLen, ← BleAdvCfg.name, hbyte, if_neg (by rw [tuyaBleNameLen]; omega)]

theorem length_advId {id : Bytes} (h : advId env cfg call = some id) : id.length = bleIdLen := by
  have hhex : (bleAddPkcs (Ota.hex2str cfg.id ++ [0])).length = 48 := by
    have hid : (Ota.hex2str cfg.id).length = 32 := by
      simp [Ota.hex2str, List.length_flatMap, cfg.length_id, bleIdLen]
    rw [length_bleAddPkcs, List.length_append, hid]
    rfl
  rw [advId] at h
  split_ifs at h
  · rw [tuyaBleAdvIdEncrypt] at h
    split_ifs at h
    rw [← Option.some.inj h]
    exact env.aes128.length_enc _ _ (by rw [List.length_take, hhex]; rfl)
  · rw [← Option.some.inj h]
    exact cfg.length_productkey

def advHead (call : BleAdvCall) : Bytes :=
  [0x02, 0x01, 0x06, 0x03, 0x02, 0x50, 0xFD, UInt8.ofNat (3 + 2 + 2 + bleIdLen), 0x16, 0x50, 0xFD,
    (advFrameCtrl call >>> 8).toUInt8, (advFrameCtrl call).toUInt8, 0x00, UInt8.ofNat bleIdLen]

def rspHead (cfg : BleAdvCfg) (call : BleAdvCall) : Bytes :=
  [0x17, 0xFF, 0xD0, 0x07, tuyaBleSecureConnectionWithAuthKey,
    (tuyaBleDeviceCommunicationAbility >>> 8).toUInt8, tuyaBleDeviceCommunicationAbility.toUInt8,
    advFlag cfg call]

theorem writeAdvData_eq (h : advData.length = bleAdvDataLen) :
    ∃ id : Bytes, id.length = bleIdLen ∧
      writeAdvData env cfg call advData = some (advHead call ++ id) := by
  rw [bleAdvDataLen] at h
  obtain ⟨pre, mid, rest, rfl, hpre, hmid⟩ := exists_append_of_le advData 0 15 (by omega)
  have hnil : pre = [] := List.eq_nil_of_length_eq_zero hpre
  have hrest : rest.length = 16 := by
    simp only [List.length_append] at h
    omega
  have hwrites : Consecutive 0
      [(0, [0x02, 0x01, 0x06]), (3, [0x03, 0x02, 0x50, 0xFD]),
        (7, [UInt8.ofNat (3 + 2 + 2 + bleIdLen), 0x16, 0x50, 0xFD]),
        (11, [(advFrameCtrl call >>> 8).toUInt8, (advFrameCtrl call).toUInt8, 0x00,
          UInt8.ofNat bleIdLen])] := ⟨rfl, rfl, rfl, rfl, trivial⟩
  have hfixed := memcpys_eq_of_append pre mid rest rfl hpre hwrites hmid
  rw [writeAdvData, hfixed, hnil]
  dsimp only
  cases hid : advId env cfg call with
  | none => exact ⟨rest, hrest, rfl⟩
  | some id =>
    have hlen := length_advId hid
    have hcopy : memcpy (advHead call ++ rest) 15 id = some (advHead call ++ (id ++ [])) :=
      memcpy_eq_of_append (advHead call) rest [] (by rw [List.append_nil]) rfl
        (hrest.trans hlen.symm)
    rw [List.append_nil] at hcopy
    exact ⟨id, hlen, hcopy⟩

theorem writeRspData_eq (hadv : advData.length = bleAdvDataLen)
    (h : rspData.length = bleScanRspDataLen) :
    ∃ id : Bytes, id.length = bleIdLen ∧
      writeRspData env cfg call advData rspData =
        some (rspHead cfg call ++ (id ++ rspData.drop 24)) := by
  rw [bleAdvDataLen] at hadv
  rw [bleScanRspDataLen] at h
  rw [writeRspData, readSpan_of_le (by rw [bleIdLen]; omega)]
  set keyIn := slice advData 11 (bleIdLen + 4)
  have hid : (tuyaBleRspIdEncrypt env keyIn cfg.id).length = bleIdLen := by
    have hlen := (@length_cbcEncrypt 16 env.aes128 (env.md5 keyIn) 1 (env.md5 keyIn) cfg.id
      (env.length_md5 _) cfg.length_id).1
    rw [tuyaBleRspIdEncrypt, cfg.length_id]
    exact hlen
  refine ⟨_, hid, ?_⟩
  have hsplit : rspData = [] ++ (rspData.take 24 ++ rspData.drop 24) := by
    rw [List.nil_append, List.take_append_drop]
  have hfixed := @memcpys_eq_of_append UInt8 rspData 0
    [(0, [0x17, 0xFF, 0xD0, 0x07, tuyaBleSecureConnectionWithAuthKey,
        (tuyaBleDeviceCommunicationAbility >>> 8).toUInt8,
        tuyaBleDeviceCommunicationAbility.toUInt8]),
      (7, [advFlag cfg call]), (8, tuyaBleRspIdEncrypt env keyIn cfg.id)]
    [] _ _ hsplit rfl ⟨rfl, rfl, rfl, trivial⟩ (by simp [hid, h, bleIdLen])
  dsimp only
  rw [hfixed]
  simp [rspHead]

theorem writeName_eq {head rest : Bytes} (hhead : head.length = 24) (hrest : rest.length = 7) :
    writeName cfg (head ++ rest) = some (head ++
      (UInt8.ofNat (cfg.name.length + 1) :: 0x09 ::
        (cfg.name ++ rest.drop cfg.name.length).drop 2)) := by
  have hle := length_name_le cfg
  rw [tuyaBleNameLen] at hle
  have hmem : cfg.deviceName.mem.take cfg.name.length = cfg.name :=
    (List.prefix_iff_eq_take.mp (name_prefix_deviceName cfg)).symm
  have hspan : readSpan cfg.deviceName.mem 0 cfg.name.length = some cfg.name := by
    rw [readSpan_of_le (by rw [cfg.deviceName.length_mem, tuyaBleNameLen]; omega), slice_zero, hmem]
  have hcopy : memcpy (head ++ rest) 24 cfg.name =
      some (head ++ (cfg.name ++ rest.drop cfg.name.length)) :=
    memcpy_eq_of_append head (rest.take cfg.name.length) _
      (by rw [List.take_append_drop]) hhead (by rw [List.length_take]; omega)
  have hover : head ++ (cfg.name ++ rest.drop cfg.name.length) =
      head ++ ((cfg.name ++ rest.drop cfg.name.length).take 2 ++
        (cfg.name ++ rest.drop cfg.name.length).drop 2) := by
    rw [List.take_append_drop]
  have htwo : ((cfg.name ++ rest.drop cfg.name.length).take 2).length = 2 := by
    simp only [List.length_take, List.length_append, List.length_drop, hrest]
    omega
  have hwrite := @memcpys_eq_of_append UInt8 _ 24
    [(24, [UInt8.ofNat (cfg.name.length + 1)]), (25, [0x09])] head _ _ hover hhead
    ⟨rfl, rfl, trivial⟩ htwo
  rw [writeName, deviceNameLen_eq, hspan]
  dsimp only
  rw [hcopy]
  exact hwrite

/-- **What is written.** -/
theorem bleAdvSet_eq (hadv : data.advData.length = bleAdvDataLen)
    (hrsp : data.rspData.length = bleScanRspDataLen) :
    ∃ advId rspId : Bytes, advId.length = bleIdLen ∧ rspId.length = bleIdLen ∧
      bleAdvSet env cfg data call = some
        { advLen := bleAdvDataLen
          advData := advHead call ++ advId
          rspLen := 26 + cfg.name.length
          rspData := rspHead cfg call ++ rspId ++
            (UInt8.ofNat (cfg.name.length + 1) :: 0x09 ::
              (cfg.name ++ data.rspData.drop (24 + cfg.name.length)).drop 2) } := by
  obtain ⟨advId, hadvId, hwriteAdv⟩ := @writeAdvData_eq env cfg call _ hadv
  have hadv' : (advHead call ++ advId).length = bleAdvDataLen := by
    rw [List.length_append, hadvId]
    rfl
  obtain ⟨rspId, hrspId, hwriteRsp⟩ := @writeRspData_eq env cfg call _ _ hadv' hrsp
  have hhead : (rspHead cfg call ++ rspId).length = 24 := by
    rw [List.length_append, hrspId]
    rfl
  rw [bleScanRspDataLen] at hrsp
  have hname := @writeName_eq cfg _ (data.rspData.drop 24) hhead (by rw [List.length_drop, hrsp])
  rw [List.drop_drop] at hname
  refine ⟨advId, rspId, hadvId, hrspId, ?_⟩
  rw [bleAdvSet, hwriteAdv, Option.bind_eq_bind, Option.bind_some, hwriteRsp, Option.bind_some,
    ← List.append_assoc, hname, Option.bind_some, deviceNameLen_eq]
  rfl

end Written

/-! ### A run -/

section Run

variable {env : BleEnv} {cfg : BleAdvCfg} {call : BleAdvCall} {data data' : BleAdvData}

/-- What holds between calls: the buffers have their sizes, and the byte that the last character of
the name belongs to has never been written. -/
structure Unnamed (cfg : BleAdvCfg) (data : BleAdvData) : Prop where
  length_advData : data.advData.length = bleAdvDataLen
  length_rspData : data.rspData.length = bleScanRspDataLen
  rspData_getElem? : cfg.name ≠ [] → data.rspData[25 + cfg.name.length]? = some 0

theorem unnamed_init (cfg : BleAdvCfg) : Unnamed cfg .init where
  length_advData := List.length_replicate
  length_rspData := List.length_replicate
  rspData_getElem? _ := by
    have hle := length_name_le cfg
    rw [tuyaBleNameLen] at hle
    exact List.getElem?_replicate_of_lt (by rw [bleScanRspDataLen]; omega)

/-- **One call** stays inside its buffers and writes sequences of AD structures. -/
theorem Unnamed.bleAdvSet (env : BleEnv) (call : BleAdvCall) (h : Unnamed cfg data) :
    ∃ data', Ble.bleAdvSet env cfg data call = some data' ∧ Unnamed cfg data' ∧
      data'.advLen ≤ bleAdvDataLen ∧ data'.rspLen = 26 + cfg.name.length ∧
      (∃ ads, data'.advData.take data'.advLen = adBytes ads) ∧
      ∃ ads ad, data'.rspData.take data'.rspLen = adBytes (ads ++ [ad]) ∧ ad.type = 0x09 ∧
        ad.data.length = cfg.name.length := by
  obtain ⟨advId, rspId, hadvId, hrspId, hset⟩ :=
    @bleAdvSet_eq env cfg call data h.length_advData h.length_rspData
  have hle := length_name_le cfg
  rw [tuyaBleNameLen] at hle
  rw [bleIdLen] at hadvId hrspId
  have hrsp := h.length_rspData
  rw [bleScanRspDataLen] at hrsp
  set rest := (cfg.name ++ data.rspData.drop (24 + cfg.name.length)).drop 2 with hrest
  have hlen : rest.length = 5 := by
    simp only [hrest, List.length_drop, List.length_append, hrsp]
    omega
  have hhead : (rspHead cfg call ++ rspId).length = 24 := by
    rw [List.length_append, hrspId]
    rfl
  refine ⟨_, hset, ⟨?_, ?_, fun hne => ?_⟩, Nat.le_refl _, rfl, ?_, ?_⟩
  · rw [List.length_append, hadvId]
    rfl
  · rw [List.length_append, hhead, List.length_cons, List.length_cons, hlen]
    rfl
  · have hpos : 0 < cfg.name.length := List.length_pos_of_ne_nil hne
    rw [← h.rspData_getElem? hne, List.getElem?_append_right (by rw [hhead]; omega), hhead,
      show 25 + cfg.name.length - 24 = cfg.name.length - 1 + 1 + 1 by omega,
      List.getElem?_cons_succ, List.getElem?_cons_succ, hrest, List.getElem?_drop,
      List.getElem?_append_right (by omega), List.getElem?_drop]
    congr 1
    omega
  · refine ⟨[⟨0x01, [0x06], by decide⟩, ⟨0x02, [0x50, 0xFD], by decide⟩,
      ⟨0x16, 0x50 :: 0xFD :: (advFrameCtrl call >>> 8).toUInt8 :: (advFrameCtrl call).toUInt8 ::
        0x00 :: UInt8.ofNat bleIdLen :: advId, by simp [hadvId]⟩], ?_⟩
    rw [List.take_of_length_le (by rw [List.length_append, hadvId]; exact Nat.le_refl 31)]
    simp [adBytes, AdStructure.bytes, advHead, hadvId, bleIdLen]
  · refine ⟨[⟨0xFF, (rspHead cfg call).drop 2 ++ rspId, by simp [hrspId, rspHead]⟩],
      ⟨0x09, rest.take cfg.name.length, by rw [List.length_take]; omega⟩, ?_, rfl, ?_⟩
    · have htake : (rest.take cfg.name.length).length = cfg.name.length := by
        rw [List.length_take]
        omega
      rw [show 26 + cfg.name.length = 24 + (cfg.name.length + 1 + 1) by omega, ← hhead,
        List.take_length_add_append, List.take_succ_cons, List.take_succ_cons]
      simp [adBytes, AdStructure.bytes, rspHead, hrspId, htake]
    · dsimp only
      rw [List.length_take]
      omega

theorem unnamed_foldlM (env : BleEnv) (cfg : BleAdvCfg) (calls : List BleAdvCall) :
    ∃ data, calls.foldlM (bleAdvSet env cfg) .init = some data ∧ Unnamed cfg data := by
  induction calls using List.reverseRecOn with
  | nil => exact ⟨_, rfl, unnamed_init cfg⟩
  | append_singleton calls call ih =>
    obtain ⟨data, hdata, hinv⟩ := ih
    obtain ⟨data', hdata', hinv', -⟩ := hinv.bleAdvSet env call
    refine ⟨data', ?_, hinv'⟩
    rw [List.foldlM_append, hdata, Option.bind_eq_bind, Option.bind_some, List.foldlM_cons, hdata']
    rfl

theorem Unnamed.name_eq_nil (h : Unnamed cfg data) (hlen : data.rspLen = 26 + cfg.name.length)
    (had : Advertised cfg data) : cfg.name = [] := by
  by_contra hne
  obtain ⟨-, -, -, ads, ad, hads, -, hname⟩ := had
  have hle := length_name_le cfg
  have hfull : ad.data = cfg.name := hname.trans (List.take_of_length_le hle)
  have hlast : cfg.name.getLast? = some 0 := by
    have heq := congrArg List.getLast? hads
    rw [hlen, List.getLast?_take, if_neg (by omega),
      show 26 + cfg.name.length - 1 = 25 + cfg.name.length by omega, h.rspData_getElem? hne,
      Option.some_or, adBytes, List.flatMap_append, List.flatMap_singleton, AdStructure.bytes,
      hfull, List.getLast?_append_of_ne_nil _ (List.cons_ne_nil _ _), List.getLast?_cons_cons,
      List.getLast?_cons_of_ne_nil hne] at heq
    exact heq.symm
  exact zero_notMem_cString _ (List.mem_of_getLast? hlast)

/-- **The name is advertised only if it is empty.** -/
theorem advertises_iff (env : BleEnv) (cfg : BleAdvCfg) (calls : List BleAdvCall)
    (call : BleAdvCall) :
    Advertises env cfg calls call ↔ cString cfg.deviceName.mem = [] := by
  obtain ⟨data, hdata, hinv⟩ := unnamed_foldlM env cfg calls
  obtain ⟨data', hset, hinv', hadvLen, hrspLen, hads, ads, ad, hrsp, htype, hlen⟩ :=
    hinv.bleAdvSet env call
  constructor
  · rintro ⟨d, d', hd, hd', had⟩
    obtain rfl := Option.some.inj (hdata.symm.trans hd)
    obtain rfl := Option.some.inj (hset.symm.trans hd')
    exact hinv'.name_eq_nil hrspLen had
  · intro hnil
    have hzero : cfg.name.length = 0 := congrArg List.length hnil
    refine ⟨data, data', hdata, hset, hadvLen, ?_, hads, ads, ad, hrsp, htype, ?_⟩
    · rw [hrspLen, hzero, bleScanRspDataLen]
      omega
    · rw [hnil, List.take_nil]
      exact List.eq_nil_of_length_eq_zero (hlen.trans hzero)

end Run

/-- A device with the name `TYBLE`. -/
def tybleCfg : BleAdvCfg where
  deviceName := ⟨asciiBytes ['T', 'Y', 'B', 'L', 'E'] ++ [0], rfl, by decide +kernel⟩
  id := List.replicate bleIdLen 0x31
  isIdComp := false
  productkey := List.replicate bleIdLen 0x32
  length_id := List.length_replicate
  length_productkey := List.length_replicate

def unboundCall : BleAdvCall := ⟨false, true, List.replicate 16 0, true⟩

theorem not_advertises_tyble : ¬Advertises sampleEnv tybleCfg [] unboundCall := by
  rintro ⟨data, data', hdata, hset, had⟩
  obtain rfl := Option.some.inj hdata
  obtain ⟨d, hd, hinv, -, hlen, -⟩ := (unnamed_init tybleCfg).bleAdvSet sampleEnv unboundCall
  obtain rfl := Option.some.inj (hd.symm.trans hset)
  exact absurd (hinv.name_eq_nil hlen had) (by decide +kernel)

example : (bleAdvSet sampleEnv tybleCfg .init unboundCall).map (fun data => data.rspData.drop 24) =
    some ([6, 0x09] ++ asciiBytes ['B', 'L', 'E'] ++ [0, 0]) := by decide +kernel

end TuyaOpen.Ble
