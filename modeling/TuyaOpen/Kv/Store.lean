import TuyaOpen.Basic.Transition
import TuyaOpen.Security.Symmetry
import Mathlib.Logic.Function.Basic

/-!
# The key-value store

`tal_kv_set`, `tal_kv_get` and `tal_kv_del` of `tal_kv.c`: a value is padded, encrypted and written
into a file whose path is the key.

The file system is littlefs. A file that is opened with `LFS_O_TRUNC` is empty for its user, and
what is on the medium changes when the file is closed. What the calls of littlefs return is part of
an event, and so is whether a close writes out the file. An open file is a record on the stack of
its user, and littlefs keeps a pointer to it until it is closed: after a function has returned
without closing its file there is no file system any more.

A second system is a map from keys to values that follows the calls and their results.
-/

namespace TuyaOpen.Kv

open TuyaOpen.Security

/-! ### Files -/

inductive LfsError
  | io
  | corrupt
  | noent
  | exist
  | notdir
  | isdir
  | notempty
  | badf
  | fbig
  | inval
  | nospc
  | nomem
  | noattr
  | nametoolong

def LfsError.code : LfsError → OperateRet
  | io => -5
  | corrupt => -84
  | noent => -2
  | exist => -17
  | notdir => -20
  | isdir => -21
  | notempty => -39
  | badf => -9
  | fbig => -27
  | inval => -22
  | nospc => -28
  | nomem => -12
  | noattr => -61
  | nametoolong => -36

/-- `LFS_FILE_MAX`. -/
def lfsFileMax : Nat := 2147483647

abbrev LfsContents := { data : Bytes // data.length ≤ lfsFileMax }

def LfsContents.empty : LfsContents := ⟨[], Nat.zero_le _⟩

theorem length_take_le_lfsFileMax {data : Bytes} (h : data.length ≤ lfsFileMax) (n : Nat) :
    (data.take n).length ≤ lfsFileMax :=
  (List.length_take_le' n data).trans h

/-- `lfs_file_write` to an empty file: what it returns, and the contents for its user. It may fail
when some bytes have been taken. -/
def lfsFileWrite (data : Bytes) (error : Option (LfsError × Nat)) : OperateRet × LfsContents :=
  if h : data.length ≤ lfsFileMax then
    match error with
    | none => (data.length, ⟨data, h⟩)
    | some (e, n) => (e.code, ⟨data.take n, length_take_le_lfsFileMax h n⟩)
  else (LfsError.fbig.code, LfsContents.empty)

/-- The files on the medium, and whether littlefs has a pointer to a record that is gone. -/
structure KvStore where
  files : Bytes → Option LfsContents
  dangling : Bool

def KvStore.put (s : KvStore) (name : Bytes) (contents : Option LfsContents) : KvStore :=
  { s with files := Function.update s.files name contents }

/-- The store after `LFS_O_CREAT`. -/
def KvStore.create (s : KvStore) (name : Bytes) : KvStore :=
  match s.files name with
  | some _ => s
  | none => s.put name (some LfsContents.empty)

/-- The store after `lfs_file_close`, which may write out the file. -/
def KvStore.close (s : KvStore) (name : Bytes) (contents : LfsContents) (commit : Bool) : KvStore :=
  if commit then s.put name (some contents) else s

/-! ### The functions -/

/-- The cipher, what `tal_kv_init` has put into `lfs_kv_cfg`, and the name of the file to which a
path leads. -/
structure KvEnv where
  aes128 : BlockCipher 16
  key : Bytes
  seed : Bytes
  length_seed : seed.length = 16
  path : Bytes → Bytes

/-- What happens in a call of `tal_kv_set`. -/
structure SetCall where
  openError : Option LfsError
  /-- The file is made by an open that then fails. -/
  created : Bool
  encode : CryptCall
  writeError : Option (LfsError × Nat)
  /-- The close writes out the file. -/
  commit : Bool

/-- What happens in a call of `tal_kv_get`. -/
structure GetCall where
  openError : Option LfsError
  malloc : Bool
  readError : Option LfsError
  decode : CryptCall

abbrev KvResult := OperateRet × Option Bytes

/-- `tal_kv_set`. -/
def talKvSet (env : KvEnv) (s : KvStore) (key value : Bytes) (call : SetCall) :
    Option (OperateRet × KvStore) :=
  if value = [] then some (oprtInvalidParm, s)
  else if s.dangling then none
  else
    match call.openError with
    | some e => some (e.code, if call.created then s.create (env.path key) else s)
    | none =>
      let s := s.create (env.path key)
      match talAes128CbcEncode env.aes128 env.key env.seed value call.encode with
      | none => none
      | some (.error e) => some (e, s.close (env.path key) LfsContents.empty call.commit)
      | some (.ok ecData) =>
        let w := lfsFileWrite ecData call.writeError
        let s := s.close (env.path key) w.2 call.commit
        -- `int` is compared with `uint32_t`
        if w.1 % 4294967296 ≠ u32 ecData.length then some (oprtKvsWrFail, s) else some (oprtOk, s)

/-- `tal_kv_get` after it has read the file. -/
def kvDecode (env : KvEnv) (ecData : Bytes) (call : CryptCall) : Option KvResult :=
  match talAes128CbcDecode env.aes128 env.key env.seed ecData call with
  | none => none
  | some (.error _) => some (oprtBufferNotEnough, none)
  | some (.ok decData) =>
    let decLen := (talAesGetActualLength (some decData) ecData.length % 4294967296).toNat
    if ecData.length < decLen then some (oprtBufferNotEnough, none)
    else some (oprtOk, some (decData.take decLen))

/-- `tal_kv_get`. -/
def talKvGet (env : KvEnv) (s : KvStore) (key : Bytes) (call : GetCall) :
    Option (KvResult × KvStore) :=
  if s.dangling then none
  else
    match call.openError with
    | some e => some ((e.code, none), s)
    | none =>
      match s.files (env.path key) with
      | none => some ((LfsError.noent.code, none), s)
      | some contents =>
        -- the file is not closed
        if call.malloc = false then some ((oprtMallocFailed, none), { s with dangling := true })
        else if call.readError.isSome ∨ contents.1 = [] then some ((oprtKvsRdFail, none), s)
        else
          match kvDecode env contents.1 call.decode with
          | none => none
          | some r => some (r, s)

/-- `tal_kv_del`. -/
def talKvDel (env : KvEnv) (s : KvStore) (key : Bytes) (removeError : Option LfsError) :
    Option (OperateRet × KvStore) :=
  if s.dangling then none
  else
    match removeError with
    | some _ => some (oprtComError, s)
    | none =>
      match s.files (env.path key) with
      | none => some (oprtComError, s)
      | some _ => some (oprtOk, s.put (env.path key) none)

inductive KvEvent
  | set (key value : Bytes) (call : SetCall)
  | get (key : Bytes) (call : GetCall)
  | del (key : Bytes) (removeError : Option LfsError)

def KvEvent.key : KvEvent → Bytes
  | set key _ _ => key
  | get key _ => key
  | del key _ => key

def kvStep (env : KvEnv) (s : KvStore) : KvEvent → Option (KvResult × KvStore)
  | .set key value call => (talKvSet env s key value call).map fun r => ((r.1, none), r.2)
  | .get key call => talKvGet env s key call
  | .del key removeError => (talKvDel env s key removeError).map fun r => ((r.1, none), r.2)

def kvNext (env : KvEnv) (s : KvStore) (ev : KvEvent) : KvStore :=
  match kvStep env s ev with
  | none => s
  | some (_, s) => s

/-! ### The map -/

/-- The map after a call with its result: calls that fail leave it as it is. -/
def mapObserve (m : Bytes → Option Bytes) (ev : KvEvent) (r : KvResult) : Bytes → Option Bytes :=
  if r.1 = oprtOk then
    match ev with
    | .set key value _ => Function.update m key (some value)
    | .get _ _ => m
    | .del key _ => Function.update m key none
  else m

/-- Nothing fails in a call of `tal_kv_get`. -/
def GetCall.Fine (call : GetCall) : Prop :=
  call.openError = none ∧ call.malloc = true ∧ call.readError = none ∧
    call.decode.malloc = true ∧ call.decode.create = oprtOk

/-- The result of a call is right: a get in which nothing fails returns the value of the key, and an
error when there is none. A get in which something fails returns an error. -/
def MapRight (m : Bytes → Option Bytes) (ev : KvEvent) (r : KvResult) : Prop :=
  match ev with
  | .get key call =>
    (call.Fine → ∀ value, m key = some value → r = (oprtOk, some value)) ∧
      (call.Fine → m key = none → r.1 ≠ oprtOk) ∧ (¬call.Fine → r.1 ≠ oprtOk)
  | _ => True

/-! ### The condition -/

/-- The value that is read from the contents of a file when nothing fails. -/
def kvValue (env : KvEnv) (contents : LfsContents) : Option Bytes :=
  if contents.1 = [] then none
  else
    match kvDecode env contents.1 CryptCall.fine with
    | none => none
    | some r => r.2

def KvStore.value (env : KvEnv) (s : KvStore) (key : Bytes) : Option Bytes :=
  (s.files (env.path key)).bind (kvValue env)

/-- The value can be encoded in a call of `tal_kv_set`. -/
def SetCall.Encodes (call : SetCall) : Prop :=
  call.encode.malloc = true ∧ call.encode.create = oprtOk

instance (call : SetCall) : Decidable call.Encodes := inferInstanceAs (Decidable (_ ∧ _))

/-- The encoded value can be written in a call of `tal_kv_set`. -/
def SetCall.Writes (call : SetCall) (value : Bytes) : Prop :=
  (value.length / 16 + 1) * 16 ≤ lfsFileMax ∧ call.writeError = none

/-- The condition on a call. When a set has opened its file, the value leaves room for its padding;
the close writes out the file exactly if the value has been written; and if the value cannot be
encoded, the close writes out the file only if the key has no value. When a get has opened its file,
its buffer can be allocated. -/
def KvCond (env : KvEnv) (s : KvStore) : KvEvent → Prop
  | .set key value call =>
    value ≠ [] → call.openError = none → value.length < 4294967280 ∧
      if call.Encodes then (call.commit = true ↔ call.Writes value)
      else call.commit = true → s.value env key = none
  | .get key call =>
    call.openError = none → (s.files (env.path key)).isSome → call.malloc = true
  | .del _ _ => True

/-! ### Reading back -/

section Decode

variable {env : KvEnv}

theorem lt_of_le_lfsFileMax {n : Nat} (h : n ≤ lfsFileMax) : n < 4294967295 :=
  h.trans_lt (by decide)

theorem exists_kvDecode_eq (env : KvEnv) (contents : LfsContents) (hne : contents.1 ≠ []) :
    ∃ r, kvDecode env contents.1 CryptCall.fine = some r ∧ (r.1 = oprtOk ↔ r.2.isSome) := by
  rw [kvDecode, talAes128CbcDecode_eq _ _ hne (lt_of_le_lfsFileMax contents.2)]
  cases hraw : talAes128CbcDecodeRaw env.aes128 env.key env.seed contents.1 oprtOk with
  | error e =>
    refine ⟨(oprtBufferNotEnough, none), ?_, iff_of_false oprtBufferNotEnough_ne_ok (by simp)⟩
    rw [CryptCall.fine, if_neg (by decide), hraw]
  | ok decData =>
    rw [CryptCall.fine, if_neg (by decide), hraw]
    dsimp only
    split_ifs with hlen
    · exact ⟨_, rfl, iff_of_false oprtBufferNotEnough_ne_ok (by simp)⟩
    · exact ⟨_, rfl, iff_of_true rfl rfl⟩

theorem kvDecode_of_not_fine (contents : LfsContents) (hne : contents.1 ≠ []) {call : CryptCall}
    (hcall : ¬(call.malloc = true ∧ call.create = oprtOk)) :
    kvDecode env contents.1 call = some (oprtBufferNotEnough, none) := by
  rw [kvDecode, talAes128CbcDecode_eq _ _ hne (lt_of_le_lfsFileMax contents.2)]
  by_cases hmalloc : call.malloc = false
  · rw [if_pos hmalloc]
  · have hcreate : call.create ≠ oprtOk := fun h => hcall ⟨Bool.not_eq_false _ ▸ hmalloc, h⟩
    rw [if_neg hmalloc, talAes128CbcDecodeRaw, if_pos hcreate]

theorem kvValue_empty : kvValue env LfsContents.empty = none := if_pos rfl

theorem exists_kvDecode_call (env : KvEnv) (contents : LfsContents) (hne : contents.1 ≠ [])
    (call : CryptCall) :
    ∃ r, kvDecode env contents.1 call = some r ∧
      (call.malloc = true ∧ call.create = oprtOk →
        r.2 = kvValue env contents ∧ (r.1 = oprtOk ↔ (kvValue env contents).isSome)) ∧
      (¬(call.malloc = true ∧ call.create = oprtOk) → r.1 ≠ oprtOk) := by
  by_cases hcall : call.malloc = true ∧ call.create = oprtOk
  · obtain ⟨r, hr, hiff⟩ := exists_kvDecode_eq env contents hne
    have hfine : call = CryptCall.fine := by
      cases call
      rw [CryptCall.fine, CryptCall.mk.injEq]
      exact hcall
    have hvalue : kvValue env contents = r.2 := by rw [kvValue, if_neg hne, hr]
    rw [hfine, hr, hvalue]
    exact ⟨r, rfl, fun _ => ⟨rfl, hiff⟩, fun h => absurd ⟨rfl, rfl⟩ h⟩
  · rw [kvDecode_of_not_fine contents hne hcall]
    exact ⟨_, rfl, fun h => absurd h hcall, fun _ => oprtBufferNotEnough_ne_ok⟩

/-- **Round trip.** What is written is read back. -/
theorem kvValue_encrypted {value : Bytes} (hne : value ≠ [])
    (hlen : (encrypted env.aes128 env.key env.seed value).length ≤ lfsFileMax) :
    kvValue env ⟨encrypted env.aes128 env.key env.seed value, hlen⟩ = some value := by
  have hlength := length_encrypted env.aes128 env.key env.length_seed value
  have hne' : encrypted env.aes128 env.key env.seed value ≠ [] := by
    intro h
    rw [h, List.length_nil] at hlength
    omega
  have hmax := lt_of_le_lfsFileMax hlen
  have hmod : ((value.length : ℤ) % 4294967296).toNat = value.length := by omega
  rw [kvValue, if_neg hne', kvDecode, talAes128CbcDecode_eq _ _ hne' hmax, CryptCall.fine,
    if_neg (by decide), talAes128CbcDecodeRaw_encrypted _ _ env.length_seed]
  dsimp only
  rw [hlength, talAesGetActualLength_padded hne, hmod, if_neg (by omega), List.take_left]

end Decode

/-! ### The store after a call -/

section Store

variable {env : KvEnv} {s : KvStore} {key value : Bytes}

theorem dangling_create (s : KvStore) (name : Bytes) : (s.create name).dangling = s.dangling := by
  rw [KvStore.create]
  split
  · rfl
  · rfl

theorem dangling_close (s : KvStore) (name : Bytes) (contents : LfsContents) (commit : Bool) :
    (s.close name contents commit).dangling = s.dangling := by
  rw [KvStore.close]
  split_ifs
  · rfl
  · rfl

theorem value_put_self (s : KvStore) (key : Bytes) (contents : Option LfsContents) :
    (s.put (env.path key) contents).value env key = contents.bind (kvValue env) := by
  show Option.bind (Function.update s.files (env.path key) contents (env.path key)) _ = _
  rw [Function.update_self]

theorem value_put_of_ne {name : Bytes} (hne : env.path key ≠ name)
    (contents : Option LfsContents) : (s.put name contents).value env key = s.value env key := by
  show Option.bind (Function.update s.files name contents (env.path key)) _ = _
  rw [Function.update_of_ne hne]
  rfl

theorem value_create (s : KvStore) (name key : Bytes) :
    (s.create name).value env key = s.value env key := by
  rw [KvStore.create]
  split
  · rfl
  · next hname =>
    by_cases hkey : env.path key = name
    · subst hkey
      rw [value_put_self, KvStore.value, hname]
      exact kvValue_empty
    · exact value_put_of_ne hkey _

theorem value_close_self (s : KvStore) (key : Bytes) (contents : LfsContents) (commit : Bool) :
    (s.close (env.path key) contents commit).value env key =
      if commit = true then kvValue env contents else s.value env key := by
  rw [KvStore.close]
  split_ifs
  · exact value_put_self s key _
  · rfl

theorem value_close_of_ne {key' : Bytes} (hne : env.path key' ≠ env.path key)
    (contents : LfsContents) (commit : Bool) :
    (s.close (env.path key) contents commit).value env key' = s.value env key' := by
  rw [KvStore.close]
  split_ifs
  · exact value_put_of_ne hne _
  · rfl

/-- What a set does to the store: a set that succeeds has put the value, one that fails has changed
no value, and other files are as they were. -/
structure SetSpec (env : KvEnv) (s : KvStore) (key value : Bytes) (rt : OperateRet)
    (s' : KvStore) : Prop where
  dangling : s'.dangling = s.dangling
  ok : rt = oprtOk → s'.value env key = some value
  error : rt ≠ oprtOk → s'.value env key = s.value env key
  other : ∀ key', env.path key' ≠ env.path key → s'.value env key' = s.value env key'

theorem SetSpec.of_error {rt : OperateRet} {contents : LfsContents} {commit : Bool}
    (hrt : rt ≠ oprtOk) (h : commit = true → kvValue env contents = s.value env key) :
    SetSpec env s key value rt
      ((s.create (env.path key)).close (env.path key) contents commit) where
  dangling := by rw [dangling_close, dangling_create]
  ok heq := absurd heq hrt
  error _ := by
    rw [value_close_self, value_create]
    split_ifs with hcommit
    · exact h hcommit
    · rfl
  other key' hne := by rw [value_close_of_ne hne, value_create]

theorem SetSpec.of_ok {contents : LfsContents} (h : kvValue env contents = some value) :
    SetSpec env s key value oprtOk
      ((s.create (env.path key)).close (env.path key) contents true) where
  dangling := by rw [dangling_close, dangling_create]
  ok _ := by rw [value_close_self, if_pos rfl, h]
  error heq := absurd rfl heq
  other key' hne := by rw [value_close_of_ne hne, value_create]

theorem LfsError.code_ne_ok (e : LfsError) : e.code ≠ oprtOk := by
  cases e
  all_goals decide

theorem LfsError.code_emod_ne (e : LfsError) (k : Nat) :
    e.code % 4294967296 ≠ u32 (k * 16) := by
  have hcode : e.code % 4294967296 % 16 ≠ 0 := by
    cases e
    all_goals decide
  have hblocks : u32 (k * 16) % 16 = 0 := by
    rw [u32]
    omega
  intro heq
  rw [heq] at hcode
  exact hcode (by exact_mod_cast hblocks)

/-! ### Sets -/

theorem lfsFileWrite_ok_iff {data : Bytes} {k : Nat} (hdata : data.length = k * 16)
    (error : Option (LfsError × Nat)) :
    (lfsFileWrite data error).1 % 4294967296 = u32 data.length ↔
      data.length ≤ lfsFileMax ∧ error = none := by
  rw [lfsFileWrite]
  split_ifs with hmax
  · cases error with
    | none =>
      have hlt := lt_of_le_lfsFileMax hmax
      have hmod : (data.length : ℤ) % 4294967296 = data.length := by omega
      refine iff_of_true ?_ ⟨hmax, rfl⟩
      rw [u32_of_lt (by omega)]
      exact hmod
    | some e =>
      refine iff_of_false ?_ fun h => by cases h.2
      rw [hdata]
      exact e.1.code_emod_ne k
  · refine iff_of_false ?_ fun h => hmax h.1
    rw [hdata]
    exact LfsError.fbig.code_emod_ne k

theorem lfsFileWrite_none {data : Bytes} (h : data.length ≤ lfsFileMax) :
    (lfsFileWrite data none).2 = ⟨data, h⟩ := by
  rw [lfsFileWrite, dif_pos h]

theorem encode_of_encodes {call : SetCall} (h : call.Encodes) (hvalue : value ≠ [])
    (hlen : value.length < 4294967280) :
    talAes128CbcEncode env.aes128 env.key env.seed value call.encode =
      some (.ok (encrypted env.aes128 env.key env.seed value)) := by
  rw [talAes128CbcEncode_eq _ _ hvalue hlen, h.1, if_neg Bool.true_eq_false_eq_False,
    if_neg (not_not.2 h.2)]

theorem exists_encode_eq_error (env : KvEnv) {call : SetCall} (h : ¬call.Encodes)
    (hvalue : value ≠ []) (hlen : value.length < 4294967280) :
    ∃ e ≠ oprtOk, talAes128CbcEncode env.aes128 env.key env.seed value call.encode =
      some (.error e) := by
  rw [talAes128CbcEncode_eq _ _ hvalue hlen]
  by_cases hmalloc : call.encode.malloc = false
  · exact ⟨_, oprtMallocFailed_ne_ok, by rw [if_pos hmalloc]⟩
  · have hcreate : call.encode.create ≠ oprtOk :=
      fun heq => h ⟨Bool.not_eq_false _ ▸ hmalloc, heq⟩
    exact ⟨_, hcreate, by rw [if_neg hmalloc, if_pos hcreate]⟩

theorem exists_write_eq {call : SetCall} (hvalue : value ≠ [])
    (hcond : call.commit = true ↔ call.Writes value) :
    ∃ rt s',
      (if (lfsFileWrite (encrypted env.aes128 env.key env.seed value) call.writeError).1 %
            4294967296 ≠ u32 (encrypted env.aes128 env.key env.seed value).length then
          some (oprtKvsWrFail, (s.create (env.path key)).close (env.path key)
            (lfsFileWrite (encrypted env.aes128 env.key env.seed value) call.writeError).2
            call.commit)
        else
          some (oprtOk, (s.create (env.path key)).close (env.path key)
            (lfsFileWrite (encrypted env.aes128 env.key env.seed value) call.writeError).2
            call.commit)) = some (rt, s') ∧ SetSpec env s key value rt s' := by
  have hlength := length_encrypted env.aes128 env.key env.length_seed value
  have hiff := lfsFileWrite_ok_iff hlength call.writeError
  rw [hlength] at hiff
  by_cases hwrites : call.Writes value
  · have hmax : (encrypted env.aes128 env.key env.seed value).length ≤ lfsFileMax := by
      rw [hlength]
      exact hwrites.1
    rw [hlength, if_neg (not_not.2 (hiff.2 hwrites)), hcond.2 hwrites, hwrites.2,
      lfsFileWrite_none hmax]
    exact ⟨_, _, rfl, SetSpec.of_ok (kvValue_encrypted hvalue hmax)⟩
  · rw [hlength, if_pos fun h => hwrites (hiff.1 h)]
    refine ⟨_, _, rfl, SetSpec.of_error oprtKvsWrFail_ne_ok fun hcommit => ?_⟩
    exact absurd (hcond.1 hcommit) hwrites

theorem exists_talKvSet_eq (hs : s.dangling = false) {call : SetCall}
    (hcond : KvCond env s (.set key value call)) :
    ∃ rt s', talKvSet env s key value call = some (rt, s') ∧ SetSpec env s key value rt s' := by
  have hsame {rt : OperateRet} (hrt : rt ≠ oprtOk) : SetSpec env s key value rt s :=
    ⟨rfl, fun h => absurd h hrt, fun _ => rfl, fun _ _ => rfl⟩
  rw [talKvSet]
  by_cases hvalue : value = []
  · rw [if_pos hvalue]
    exact ⟨_, _, rfl, hsame (by decide)⟩
  rw [if_neg hvalue, hs, if_neg Bool.false_ne_true]
  cases hopen : call.openError with
  | some e =>
    refine ⟨_, _, rfl, ?_⟩
    split_ifs
    · refine ⟨dangling_create s _, fun h => absurd h e.code_ne_ok, fun _ => value_create s _ _, ?_⟩
      exact fun _ _ => value_create s _ _
    · exact hsame e.code_ne_ok
  | none =>
    obtain ⟨hlen, hcond⟩ := hcond hvalue hopen
    dsimp only
    by_cases hencodes : call.Encodes
    · rw [if_pos hencodes] at hcond
      rw [encode_of_encodes hencodes hvalue hlen]
      exact exists_write_eq hvalue hcond
    · rw [if_neg hencodes] at hcond
      obtain ⟨e, he, hencode⟩ := exists_encode_eq_error env hencodes hvalue hlen
      rw [hencode]
      refine ⟨_, _, rfl, SetSpec.of_error he fun hcommit => ?_⟩
      rw [kvValue_empty, hcond hcommit]

theorem exists_talKvSet_eq_ok (hs : s.dangling = false) {call : SetCall} (hvalue : value ≠ [])
    (hopen : call.openError = none) (hencodes : call.Encodes) (hwrites : call.Writes value)
    (hcommit : call.commit = true) :
    ∃ s', talKvSet env s key value call = some (oprtOk, s') ∧
      SetSpec env s key value oprtOk s' := by
  have hlength := length_encrypted env.aes128 env.key env.length_seed value
  have hmax : (encrypted env.aes128 env.key env.seed value).length ≤ lfsFileMax := by
    rw [hlength]
    exact hwrites.1
  have hlen : value.length < 4294967280 := by
    have := lt_of_le_lfsFileMax hwrites.1
    omega
  have hwrite := (lfsFileWrite_ok_iff hlength call.writeError).2 ⟨hmax, hwrites.2⟩
  refine ⟨_, ?_, SetSpec.of_ok (kvValue_encrypted hvalue hmax)⟩
  rw [talKvSet, if_neg hvalue, hs, if_neg Bool.false_ne_true, hopen]
  dsimp only
  rw [encode_of_encodes hencodes hvalue hlen]
  dsimp only
  rw [if_neg (not_not.2 hwrite), hwrites.2, lfsFileWrite_none hmax, hcommit]

/-! ### Gets -/

theorem exists_talKvGet_eq (hs : s.dangling = false) {call : GetCall}
    (hcond : KvCond env s (.get key call)) :
    ∃ r, talKvGet env s key call = some (r, s) ∧
      (call.Fine → r.2 = s.value env key ∧ (r.1 = oprtOk ↔ (s.value env key).isSome)) ∧
      (¬call.Fine → r.1 ≠ oprtOk) := by
  rw [talKvGet, hs, if_neg Bool.false_ne_true]
  cases hopen : call.openError with
  | some e =>
    have hfine : ¬call.Fine := fun h => by cases hopen.symm.trans h.1
    exact ⟨_, rfl, fun h => absurd h hfine, fun _ => e.code_ne_ok⟩
  | none =>
    have hvalue : s.value env key = (s.files (env.path key)).bind (kvValue env) := rfl
    dsimp only
    cases hfile : s.files (env.path key) with
    | none =>
      rw [hfile] at hvalue
      rw [hvalue]
      refine ⟨_, rfl, fun _ => ⟨rfl, iff_of_false (LfsError.noent.code_ne_ok) (by simp)⟩, ?_⟩
      exact fun _ => LfsError.noent.code_ne_ok
    | some contents =>
      have hmalloc : call.malloc = true := hcond hopen (by rw [hfile]; rfl)
      rw [hfile] at hvalue
      rw [hvalue, hmalloc]
      dsimp only
      rw [if_neg (by decide)]
      by_cases hread : call.readError.isSome ∨ contents.1 = []
      · rw [if_pos hread]
        refine ⟨_, rfl, fun hfine => ?_, fun _ => oprtKvsRdFail_ne_ok⟩
        have hnil : contents.1 = [] := by
          rcases hread with hread | hnil
          · rw [hfine.2.2.1] at hread
            cases hread
          · exact hnil
        have hnone : kvValue env contents = none := if_pos hnil
        rw [Option.bind_some, hnone]
        exact ⟨rfl, iff_of_false oprtKvsRdFail_ne_ok (by simp)⟩
      · rw [if_neg hread, Option.bind_some]
        obtain ⟨hread, hne⟩ := not_or.1 hread
        obtain ⟨r, hr, hfine, herror⟩ := exists_kvDecode_call env contents hne call.decode
        rw [hr]
        refine ⟨r, rfl, fun h => hfine h.2.2.2, fun h => herror fun hdecode => h ?_⟩
        exact ⟨hopen, hmalloc, Option.not_isSome_iff_eq_none.1 hread, hdecode⟩

/-! ### Dels -/

theorem exists_talKvDel_eq (hs : s.dangling = false) (env : KvEnv) (key : Bytes)
    (removeError : Option LfsError) :
    ∃ rt s', talKvDel env s key removeError = some (rt, s') ∧ s'.dangling = false ∧
      (rt = oprtOk → s'.value env key = none) ∧
      (rt ≠ oprtOk → s'.value env key = s.value env key) ∧
      ∀ key', env.path key' ≠ env.path key → s'.value env key' = s.value env key' := by
  unfold talKvDel
  rw [hs, if_neg Bool.false_ne_true]
  cases removeError with
  | some e =>
    exact ⟨_, _, rfl, hs, fun h => absurd h oprtComError_ne_ok, fun _ => rfl, fun _ _ => rfl⟩
  | none =>
    dsimp only
    cases hfile : s.files (env.path key) with
    | none =>
      exact ⟨_, _, rfl, hs, fun h => absurd h oprtComError_ne_ok, fun _ => rfl, fun _ _ => rfl⟩
    | some contents =>
      refine ⟨_, _, rfl, hs, fun _ => value_put_self s key none, fun h => absurd rfl h, ?_⟩
      exact fun key' hne => value_put_of_ne hne none

end Store

/-! ### Runs -/

section Runs

variable {env : KvEnv} {s : KvStore} {m : Bytes → Option Bytes} {keys : List Bytes}

/-- The store has the values of a map, for some keys. -/
structure HasMap (env : KvEnv) (keys : List Bytes) (s : KvStore) (m : Bytes → Option Bytes) :
    Prop where
  dangling : s.dangling = false
  value : ∀ key ∈ keys, s.value env key = m key

def DistinctFiles (env : KvEnv) (keys : List Bytes) : Prop :=
  ∀ key ∈ keys, ∀ key' ∈ keys, env.path key = env.path key' → key = key'

theorem HasMap.update (h : HasMap env keys s m) (hkeys : DistinctFiles env keys) {key : Bytes}
    (hkey : key ∈ keys) {s' : KvStore} {v : Option Bytes} (hdangling : s'.dangling = false)
    (hself : s'.value env key = v)
    (hother : ∀ key', env.path key' ≠ env.path key → s'.value env key' = s.value env key') :
    HasMap env keys s' (Function.update m key v) := by
  refine ⟨hdangling, fun key' hkey' => ?_⟩
  by_cases heq : key' = key
  · rw [heq, Function.update_self, hself]
  · rw [Function.update_of_ne heq, hother key' fun hpath => heq (hkeys _ hkey' _ hkey hpath)]
    exact h.value key' hkey'

theorem HasMap.congr (h : HasMap env keys s m) (hkeys : DistinctFiles env keys) {key : Bytes}
    (hkey : key ∈ keys) {s' : KvStore} (hdangling : s'.dangling = false)
    (hself : s'.value env key = s.value env key)
    (hother : ∀ key', env.path key' ≠ env.path key → s'.value env key' = s.value env key') :
    HasMap env keys s' m := by
  have hm := h.update hkeys hkey hdangling (hself.trans (h.value key hkey)) hother
  rwa [Function.update_eq_self] at hm

theorem HasMap.step (h : HasMap env keys s m) (hkeys : DistinctFiles env keys) (ev : KvEvent)
    (hkey : ev.key ∈ keys) (hcond : KvCond env s ev) :
    ∃ r, kvStep env s ev = some (r, kvNext env s ev) ∧ MapRight m ev r ∧
      HasMap env keys (kvNext env s ev) (mapObserve m ev r) := by
  cases ev with
  | set key value call =>
    obtain ⟨rt, s', hset, hspec⟩ := exists_talKvSet_eq h.dangling hcond
    have hstep : kvStep env s (.set key value call) = some ((rt, none), s') := by
      rw [kvStep, hset, Option.map_some]
    have hdangling := hspec.dangling.trans h.dangling
    rw [kvNext, hstep]
    refine ⟨_, rfl, trivial, ?_⟩
    rw [mapObserve]
    split_ifs with hrt
    · exact h.update hkeys hkey hdangling (hspec.ok hrt) hspec.other
    · exact h.congr hkeys hkey hdangling (hspec.error hrt) hspec.other
  | get key call =>
    obtain ⟨r, hget, hfine, herror⟩ := exists_talKvGet_eq h.dangling hcond
    have hstep : kvStep env s (.get key call) = some (r, s) := hget
    have hvalue := h.value key hkey
    rw [hvalue] at hfine
    rw [kvNext, hstep]
    refine ⟨_, rfl, ⟨fun hcall value hm => ?_, fun hcall hm => ?_, herror⟩, ?_⟩
    · obtain ⟨h2, h1⟩ := hfine hcall
      rw [hm] at h1 h2
      exact Prod.ext (h1.2 rfl) h2
    · obtain ⟨-, h1⟩ := hfine hcall
      rw [hm] at h1
      exact fun heq => by cases h1.1 heq
    · rw [mapObserve]
      split_ifs
      · exact h
      · exact h
  | del key removeError =>
    obtain ⟨rt, s', hdel, hdangling, hok, herror, hother⟩ :=
      exists_talKvDel_eq h.dangling env key removeError
    have hstep : kvStep env s (.del key removeError) = some ((rt, none), s') := by
      rw [kvStep, hdel, Option.map_some]
    rw [kvNext, hstep]
    refine ⟨_, rfl, trivial, ?_⟩
    rw [mapObserve]
    split_ifs with hrt
    · exact h.update hkeys hkey hdangling (hok hrt) hother
    · exact h.congr hkeys hkey hdangling (herror hrt) hother

/-- In every run whose keys lead to distinct files and whose calls meet the condition, from every
store, there is no fault, and every get returns what a map returns that follows the calls. -/
theorem observed_of_run (env : KvEnv) (s : KvStore) (hs : s.dangling = false)
    (evs : List KvEvent) (hkeys : DistinctFiles env (evs.map KvEvent.key))
    (hcond : Guarded (kvNext env) (KvCond env) s evs) :
    Observed (kvStep env) MapRight mapObserve s (fun key => s.value env key) evs := by
  have hmem : ∀ ev ∈ evs, ev.key ∈ evs.map KvEvent.key := fun _ h => List.mem_map_of_mem h
  have hmap : HasMap env (evs.map KvEvent.key) s fun key => s.value env key :=
    ⟨hs, fun _ _ => rfl⟩
  exact Observed.of_guarded (fun _ _ ev h hev => h.step hkeys ev hev.1 hev.2) hmap
    (hcond.and_of_forall_mem hmem)

end Runs

/-! ### Two runs -/

def plainEnv : KvEnv where
  aes128 := BlockCipher.trivial 16
  key := List.replicate 16 0x6b
  seed := List.replicate 16 0x73
  length_seed := List.length_replicate
  path := id

def noFiles : KvStore := ⟨fun _ => none, false⟩

def SetCall.fine : SetCall := ⟨none, false, CryptCall.fine, none, true⟩

def GetCall.fine : GetCall := ⟨none, true, none, CryptCall.fine⟩

/-- Two keys, a set that fails at its write, and a del. -/
theorem observed_of_run_two_keys :
    let evs : List KvEvent :=
      [.set [0x61] [1, 2] .fine, .set [0x62] [3] .fine,
        .set [0x61] [4] { SetCall.fine with writeError := some (.nospc, 3), commit := false },
        .get [0x61] .fine, .del [0x62] none, .get [0x62] .fine]
    Guarded (kvNext plainEnv) (KvCond plainEnv) noFiles evs ∧
      Observed (kvStep plainEnv) MapRight mapObserve noFiles
        (fun key => noFiles.value plainEnv key) evs := by
  intro evs
  have hkeys : DistinctFiles plainEnv (evs.map KvEvent.key) := fun _ _ _ _ h => h
  have hcond : Guarded (kvNext plainEnv) (KvCond plainEnv) noFiles evs := by
    refine ⟨?_, ?_, ?_, ?_, ?_, ?_, ?_⟩
    · exact fun _ _ => ⟨by decide, iff_of_true rfl ⟨by decide, rfl⟩⟩
    · exact fun _ _ => ⟨by decide, iff_of_true rfl ⟨by decide, rfl⟩⟩
    · exact fun _ _ => ⟨by decide, iff_of_false (by decide) fun h => by cases h.2⟩
    · exact fun _ _ => rfl
    · trivial
    · exact fun _ _ => rfl
    · trivial
  exact ⟨hcond, observed_of_run plainEnv noFiles rfl evs hkeys hcond⟩

/-- A value is set, the next set of its key finds no memory for the encoding, and a get then returns
an error. -/
theorem not_observed_of_encode :
    ¬Observed (kvStep plainEnv) MapRight mapObserve noFiles (fun key => noFiles.value plainEnv key)
      [.set [0x61] [1] .fine,
        .set [0x61] [2] { SetCall.fine with encode := ⟨false, oprtOk⟩ },
        .get [0x61] .fine] := by
  rintro ⟨r₁, s₁, h₁, -, r₂, s₂, h₂, -, r₃, s₃, h₃, hright, -⟩
  have hrun : (outputs? (kvStep plainEnv) noFiles
      [.set [0x61] [1] .fine, .set [0x61] [2] { SetCall.fine with encode := ⟨false, oprtOk⟩ },
        .get [0x61] .fine]).map Prod.fst =
      some [(oprtOk, none), (oprtMallocFailed, none), (oprtKvsRdFail, none)] := by
    decide +kernel
  rw [outputs?, h₁] at hrun
  dsimp only at hrun
  rw [outputs?, h₂] at hrun
  dsimp only at hrun
  rw [outputs?, h₃] at hrun
  obtain ⟨rfl, rfl, rfl⟩ : r₁ = (oprtOk, none) ∧ r₂ = (oprtMallocFailed, none) ∧
      r₃ = (oprtKvsRdFail, none) := by
    simpa [outputs?] using hrun
  have hget := hright.1 ⟨rfl, rfl, rfl, rfl, rfl⟩ [1] (by decide +kernel)
  exact absurd hget (by decide)

end TuyaOpen.Kv
