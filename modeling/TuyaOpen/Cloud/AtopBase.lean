import TuyaOpen.Basic.Cipher
import TuyaOpen.Basic.Text
import TuyaOpen.Common.OperateRet
import TuyaOpen.Utilities.Base64

/-!
# Answers of the cloud

`atop_base_request` of `atop_base.c` sends an encrypted request and reads the answer. The member
`result` of the answer is a nonce, a ciphertext and a tag in base64. When any part of the decoding
fails, the answer itself is read as a plain text.

The parser of JSON texts is not part of the repository, and is a parameter: any function from texts
to items. `cJSON_GetObjectItem` compares names without regard to case. The cipher is a parameter,
too. A result is none when a pointer that is `NULL` is followed, or when memory is read or written
outside of a buffer.
-/

namespace TuyaOpen.Cloud

open TuyaOpen.Utilities

/-! ### JSON items -/

inductive CJsonType
  | true
  | other
  deriving DecidableEq

/-- `cJSON`, with the names of the children. -/
inductive CJson
  | mk (type : CJsonType) (valuestring : Option Bytes) (valueint : ℤ)
      (child : List (Option Bytes × CJson))

namespace CJson

def type : CJson → CJsonType
  | mk type _ _ _ => type

def valuestring : CJson → Option Bytes
  | mk _ valuestring _ _ => valuestring

def valueint : CJson → ℤ
  | mk _ _ valueint _ => valueint

def child : CJson → List (Option Bytes × CJson)
  | mk _ _ _ child => child

end CJson

/-- `tolower`. -/
def toLower (b : UInt8) : UInt8 := if 65 ≤ b.toNat ∧ b.toNat ≤ 90 then b + 32 else b

/-- `strcasecmp` finds two strings equal. -/
def strcasecmp (s s' : Bytes) : Bool := s.map toLower = s'.map toLower

/-- `cJSON_GetObjectItem`: the first child with the name. -/
def CJson.getObjectItem (item : CJson) (name : Bytes) : Option CJson :=
  (item.child.find? fun c => c.1.any (strcasecmp name)).map Prod.snd

/-- The name `result`. -/
def resultName : Bytes := [0x72, 0x65, 0x73, 0x75, 0x6c, 0x74]

/-- The name `success`. -/
def successName : Bytes := [0x73, 0x75, 0x63, 0x63, 0x65, 0x73, 0x73]

/-- The name `t`. -/
def tName : Bytes := [0x74]

/-- The name `errorCode`. -/
def errorCodeName : Bytes := [0x65, 0x72, 0x72, 0x6f, 0x72, 0x43, 0x6f, 0x64, 0x65]

/-- The code `GATEWAY_NOT_EXISTS`. -/
def gatewayNotExists : Bytes :=
  [0x47, 0x41, 0x54, 0x45, 0x57, 0x41, 0x59, 0x5f, 0x4e, 0x4f, 0x54, 0x5f, 0x45, 0x58, 0x49, 0x53,
    0x54, 0x53]

/-! ### Decoding -/

/-- `MBEDTLS_ERR_BASE64_BUFFER_TOO_SMALL`. -/
def base64BufferTooSmall : OperateRet := -0x2a

/-- `MBEDTLS_ERR_BASE64_INVALID_CHARACTER`. -/
def base64InvalidCharacter : OperateRet := -0x2c

/-- `mbedtls_base64_decode` with what it returns. The destination may be `NULL`. -/
def mbedtlsBase64DecodeRet (dst : Option Nat) (src : Bytes) : Except OperateRet Bytes :=
  match decodeCheck false 0 0 src with
  | none => .error base64InvalidCharacter
  | some (n, equals) =>
    if n = 0 then .ok []
    else
      match dst with
      | none => .error base64BufferTooSmall
      | some dlen =>
        if dlen < 6 * (n / 8) + (6 * (n % 8) + 7) / 8 - equals then .error base64BufferTooSmall
        else .ok (decodeWrite 0 0 0 src)

theorem cString_of_cText_memcpy {n : Nat} {src buffer text : Bytes}
    (hbuffer : memcpy (List.replicate n 0) 0 src = some buffer) (h : cText buffer = some text) :
    text = cString src := by
  have hle : 0 + src.length ≤ (List.replicate n (0 : UInt8)).length := by
    by_contra hlt
    rw [memcpy_eq_none (Nat.not_le.1 hlt)] at hbuffer
    cases hbuffer
  rw [memcpy_of_le hle, List.take_zero, List.nil_append] at hbuffer
  obtain rfl := Option.some.inj hbuffer
  rw [cString_of_cText h, cString, cString, List.takeWhile_append]
  split_ifs with hall
  · have hpre := List.takeWhile_prefix (l := src) fun x : UInt8 => decide (x ≠ 0)
    rw [List.drop_replicate, List.takeWhile_replicate, if_neg (by decide), List.append_nil,
      hpre.eq_of_length hall]
  · rfl

/-- `AES_GCM128_NONCE_LEN`. -/
def aesGcm128NonceLen : Nat := 12

/-- `AES_GCM128_TAG_LEN`. -/
def aesGcm128TagLen : Nat := 16

/-- `OPRT_LINK_CORE_HTTP_CLIENT_SEND_ERROR`. -/
def oprtLinkCoreHttpClientSendError : OperateRet := -0x1e09

/-- `OPRT_LINK_CORE_HTTP_GW_NOT_EXIST`. -/
def oprtLinkCoreHttpGwNotExist : OperateRet := -0x1e0b

/-- `atop_base_response_t`, without `user_data` and `raw_data`. -/
structure AtopResponse where
  success : Bool
  result : Option CJson
  t : ℤ

/-- What the steps of a request return, and what the server answers. -/
structure AtopExchange where
  pathAlloc : Bool
  urlParamsEncode : OperateRet
  bodyAlloc : Bool
  requestDataEncode : OperateRet
  /-- `http_client_request` returns `HTTP_CLIENT_SUCCESS`. -/
  sent : Bool
  /-- The memory of `body`, or `NULL`. -/
  body : Option Bytes
  bodyLength : Nat
  resultAlloc : Bool
  /-- The buffer for the base64 text is allocated. -/
  b64Alloc : Bool

section Request

variable (A : Aead OperateRet aesGcm128TagLen) (parse : Bytes → Option CJson)

/-- `atop_response_result_decrpyt`. The length of the ciphertext wraps when there is no room for a
nonce and a tag, and the copy of the ciphertext leaves the buffer. -/
def atopResponseResultDecrpyt (key input : Bytes) : Option (Except OperateRet Bytes) :=
  if input.length = 0 then some (.error oprtInvalidParm)
  else if input.length < aesGcm128NonceLen + aesGcm128TagLen then none
  else
    some (A.decrypt key (input.take aesGcm128NonceLen) []
      (slice input aesGcm128NonceLen (input.length - aesGcm128NonceLen - aesGcm128TagLen))
      (input.drop (input.length - aesGcm128TagLen)))

/-- The text that is parsed. `cJSON_Parse` of `NULL` is `NULL`. -/
def parseBody (body : Option Bytes) : Option (Option CJson) :=
  match body with
  | none => some none
  | some mem => (cText mem).map parse

/-- `atop_response_data_decode`. -/
def atopResponseDataDecode (key : Bytes) (io : AtopExchange) : Option (Except OperateRet Bytes) :=
  (parseBody parse io.body).bind fun root =>
    match root with
    | none => some (.error oprtCjsonParseErr)
    | some root =>
      match root.getObjectItem resultName with
      | none => some (.error oprtCjsonGetErr)
      | some item =>
        item.valuestring.bind fun value =>
          match mbedtlsBase64DecodeRet
              (if io.b64Alloc then some (u32 (value.length * 3) / 4) else none) value with
          | .error rt => some (.error rt)
          | .ok b64buffer => atopResponseResultDecrpyt A key b64buffer

/-- `atop_response_result_parse_cjson`. -/
def atopResponseResultParseCjson (input : Option Bytes) (response : AtopResponse) :
    Option (OperateRet × AtopResponse) :=
  match input with
  | none => some (oprtInvalidParm, response)
  | some mem =>
    (cText mem).bind fun text =>
      match parse text with
      | none => some (oprtCjsonParseErr, response)
      | some root =>
        match root.getObjectItem successName with
        | none => some (oprtCjsonGetErr, response)
        | some success =>
          -- the time is taken over before `success` is looked at
          let t := ((root.getObjectItem tName).map CJson.valueint).getD response.t
          if success.type = .true then
            some (oprtOk, ⟨true, root.getObjectItem resultName, t⟩)
          else
            match root.getObjectItem errorCodeName with
            | none => some (oprtComError, ⟨false, none, t⟩)
            | some code =>
              code.valuestring.map fun errorCode =>
                (if strcasecmp errorCode gatewayNotExists then oprtLinkCoreHttpGwNotExist
                  else oprtOk, ⟨false, none, t⟩)

/-- The end of `atop_base_request`: what has been decoded is parsed, in a buffer of zeros that is as
long as the body, or else the body. -/
def atopParse (key : Bytes) (io : AtopExchange) (response : AtopResponse) :
    Option (OperateRet × AtopResponse) :=
  (atopResponseDataDecode A parse key io).bind fun decoded =>
    match decoded with
    | .ok plain =>
      (memcpy (List.replicate io.bodyLength 0) 0 plain).bind fun buffer =>
        atopResponseResultParseCjson parse (some buffer) response
    | .error _ => atopResponseResultParseCjson parse io.body response

/-- `atop_base_request`. -/
def atopBaseRequest (key : Bytes) (io : AtopExchange) (response : AtopResponse) :
    Option (OperateRet × AtopResponse) :=
  if io.pathAlloc = false then some (oprtMallocFailed, response)
  else if io.urlParamsEncode ≠ oprtOk then some (io.urlParamsEncode, response)
  else if io.bodyAlloc = false then some (oprtMallocFailed, response)
  else if io.requestDataEncode ≠ oprtOk then some (io.requestDataEncode, response)
  else if io.sent = false then some (oprtLinkCoreHttpClientSendError, response)
  else if io.resultAlloc = false then some (oprtMallocFailed, response)
  else atopParse A parse key io response

/-! ### Successful responses -/

/-- The body decrypts to a plain text: its member `result` is a nonce, a ciphertext and a tag in
base64, and the tag verifies under the key. -/
def Verified (key : Bytes) (body : Option Bytes) (plain : Bytes) : Prop :=
  ∃ mem text root item value, body = some mem ∧ cText mem = some text ∧ parse text = some root ∧
    root.getObjectItem resultName = some item ∧ item.valuestring = some value ∧
    ∃ dst nonce ct tag, mbedtlsBase64DecodeRet dst value = .ok (nonce ++ ct ++ tag) ∧
      nonce.length = aesGcm128NonceLen ∧ tag.length = aesGcm128TagLen ∧
      A.decrypt key nonce [] ct tag = .ok plain

/-- The parts of a successful response come from a text. A text without a time leaves the time as
it was. -/
def Taken (text : Bytes) (response response' : AtopResponse) : Prop :=
  ∃ root success, parse text = some root ∧ root.getObjectItem successName = some success ∧
    success.type = .true ∧ response'.result = root.getObjectItem resultName ∧
    response'.t = ((root.getObjectItem tName).map CJson.valueint).getD response.t

variable {A parse}

theorem decrypt_of_decrpyt {key input plain : Bytes}
    (h : atopResponseResultDecrpyt A key input = some (.ok plain)) :
    ∃ nonce ct tag, input = nonce ++ ct ++ tag ∧ nonce.length = aesGcm128NonceLen ∧
      tag.length = aesGcm128TagLen ∧ A.decrypt key nonce [] ct tag = .ok plain := by
  rw [atopResponseResultDecrpyt] at h
  split_ifs at h with hzero hshort
  · simp at h
  · rw [Nat.not_lt] at hshort
    refine ⟨_, _, _, ?_, ?_, ?_, Option.some.inj h⟩
    · have hrest := List.take_append_drop (input.length - aesGcm128NonceLen - aesGcm128TagLen)
        (input.drop aesGcm128NonceLen)
      have hsum : aesGcm128NonceLen + (input.length - aesGcm128NonceLen - aesGcm128TagLen) =
          input.length - aesGcm128TagLen := by omega
      rw [List.drop_drop, hsum] at hrest
      rw [slice, List.append_assoc, hrest, List.take_append_drop]
    · rw [List.length_take]
      omega
    · rw [List.length_drop]
      omega

theorem verified_of_decode {key plain : Bytes} {io : AtopExchange}
    (h : atopResponseDataDecode A parse key io = some (.ok plain)) :
    Verified A parse key io.body plain := by
  rw [atopResponseDataDecode] at h
  obtain ⟨root, hroot, h⟩ := Option.bind_eq_some_iff.1 h
  cases hbody : io.body with
  | none =>
    rw [hbody, parseBody] at hroot
    obtain rfl := Option.some.inj hroot
    simp at h
  | some mem =>
    rw [hbody, parseBody] at hroot
    obtain ⟨text, htext, rfl⟩ := Option.map_eq_some_iff.1 hroot
    cases hparse : parse text with
    | none => simp [hparse] at h
    | some root =>
      rw [hparse] at h
      dsimp only at h
      cases hitem : root.getObjectItem resultName with
      | none => simp [hitem] at h
      | some item =>
        rw [hitem] at h
        obtain ⟨value, hvalue, h⟩ := Option.bind_eq_some_iff.1 h
        split at h
        · simp at h
        · next b64buffer hbase64 =>
          obtain ⟨nonce, ct, tag, rfl, hnonce, htag, hdecrypt⟩ := decrypt_of_decrpyt h
          exact ⟨mem, text, root, item, value, rfl, htext, hparse, hitem, hvalue, _, nonce, ct, tag,
            hbase64, hnonce, htag, hdecrypt⟩

/-- **Step lemma.** A successful response is taken from the text that is parsed. -/
theorem taken_of_parseCjson {input : Option Bytes} {response response' : AtopResponse}
    (h : atopResponseResultParseCjson parse input response = some (oprtOk, response'))
    (hsuccess : response'.success = true) :
    ∃ mem text, input = some mem ∧ cText mem = some text ∧
      Taken parse text response response' := by
  cases input with
  | none =>
    obtain ⟨hrt, -⟩ := Prod.mk.inj (Option.some.inj h)
    exact absurd hrt (by decide)
  | some mem =>
    rw [atopResponseResultParseCjson] at h
    obtain ⟨text, htext, h⟩ := Option.bind_eq_some_iff.1 h
    refine ⟨mem, text, rfl, htext, ?_⟩
    cases hparse : parse text with
    | none =>
      rw [hparse] at h
      obtain ⟨hrt, -⟩ := Prod.mk.inj (Option.some.inj h)
      exact absurd hrt (by decide)
    | some root =>
      rw [hparse] at h
      dsimp only at h
      cases hname : root.getObjectItem successName with
      | none =>
        rw [hname] at h
        obtain ⟨hrt, -⟩ := Prod.mk.inj (Option.some.inj h)
        exact absurd hrt (by decide)
      | some success =>
        rw [hname] at h
        dsimp only at h
        by_cases htype : success.type = .true
        · rw [if_pos htype] at h
          obtain ⟨-, rfl⟩ := Prod.mk.inj (Option.some.inj h)
          exact ⟨root, success, hparse, hname, htype, rfl, rfl⟩
        · -- every other response says that the request has failed
          rw [if_neg htype] at h
          cases hcode : root.getObjectItem errorCodeName with
          | none =>
            rw [hcode] at h
            obtain ⟨hrt, -⟩ := Prod.mk.inj (Option.some.inj h)
            exact absurd hrt (by decide)
          | some code =>
            rw [hcode] at h
            obtain ⟨errorCode, -, h⟩ := Option.map_eq_some_iff.1 h
            obtain ⟨-, rfl⟩ := Prod.mk.inj h
            exact absurd hsuccess (by simp)

/-- **Answers of the cloud.** For every cipher, parser, key, answer and outcome of the steps, the
parts of a successful response come from what the answer decrypts to, with a tag that verifies, or,
if the answer has not been decoded, from the answer itself, read as a plain text. -/
theorem taken_of_success (A : Aead OperateRet aesGcm128TagLen) (parse : Bytes → Option CJson)
    (key : Bytes) (io : AtopExchange) (response response' : AtopResponse)
    (h : atopBaseRequest A parse key io response = some (oprtOk, response'))
    (hsuccess : response'.success = true) :
    (∃ plain, atopResponseDataDecode A parse key io = some (.ok plain) ∧
      Verified A parse key io.body plain ∧ Taken parse (cString plain) response response') ∨
    ((∃ rt, atopResponseDataDecode A parse key io = some (.error rt)) ∧
      ∃ mem, io.body = some mem ∧ Taken parse (cString mem) response response') := by
  have hparse : atopParse A parse key io response = some (oprtOk, response') := by
    rw [atopBaseRequest] at h
    split_ifs at h with h₁ h₂ h₃ h₄ h₅ h₆
    · exact absurd (Prod.mk.inj (Option.some.inj h)).1 (by decide)
    · exact absurd (Prod.mk.inj (Option.some.inj h)).1 h₂
    · exact absurd (Prod.mk.inj (Option.some.inj h)).1 (by decide)
    · exact absurd (Prod.mk.inj (Option.some.inj h)).1 h₄
    · exact absurd (Prod.mk.inj (Option.some.inj h)).1 (by decide)
    · exact absurd (Prod.mk.inj (Option.some.inj h)).1 (by decide)
    · exact h
  rw [atopParse] at hparse
  obtain ⟨decoded, hdecoded, hparse⟩ := Option.bind_eq_some_iff.1 hparse
  cases decoded with
  | ok plain =>
    obtain ⟨buffer, hbuffer, hparse⟩ := Option.bind_eq_some_iff.1 hparse
    obtain ⟨mem, text, hmem, htext, htaken⟩ := taken_of_parseCjson hparse hsuccess
    obtain rfl := Option.some.inj hmem
    refine Or.inl ⟨plain, hdecoded, verified_of_decode hdecoded, ?_⟩
    rwa [← cString_of_cText_memcpy hbuffer htext]
  | error rt =>
    obtain ⟨mem, text, hmem, htext, htaken⟩ := taken_of_parseCjson hparse hsuccess
    refine Or.inr ⟨⟨rt, hdecoded⟩, mem, hmem, ?_⟩
    rwa [← cString_of_cText htext]

end Request

/-! ### An exchange -/

/-- The key of the exchange, `0123456789abcdef`. -/
def exampleKey : Bytes :=
  [48, 49, 50, 51, 52, 53, 54, 55, 56, 57, 97, 98, 99, 100, 101, 102]

/-- The text `{"success":true,"t":1}` of a plain answer. -/
def exampleText : Bytes :=
  [123, 34, 115, 117, 99, 99, 101, 115, 115, 34, 58, 116, 114, 117, 101, 44, 34, 116, 34, 58, 49,
    125]

/-- What the answer encrypts the text to, with the nonce `abcdefghijkl`. -/
def exampleEntry : Aead.Entry where
  key := exampleKey
  nonce := [97, 98, 99, 100, 101, 102, 103, 104, 105, 106, 107, 108]
  ad := []
  data := exampleText
  ct :=
    [158, 240, 15, 192, 48, 198, 60, 214, 42, 18, 142, 78, 132, 75, 186, 37, 40, 97, 206, 221, 9,
    134]
  tag := [170, 105, 224, 97, 14, 254, 185, 4, 239, 69, 26, 72, 1, 214, 201, 61]

def exampleAead : Aead OperateRet aesGcm128TagLen :=
  .ofEntries oprtComError [exampleEntry] (by decide) (by decide)

def exampleResult : Bytes :=
  [89, 87, 74, 106, 90, 71, 86, 109, 90, 50, 104, 112, 97, 109, 116, 115, 110, 118, 65, 80, 119,
    68, 68, 71, 80, 78, 89, 113, 69, 111, 53, 79, 104, 69, 117, 54, 74, 83, 104, 104, 122, 116,
    48, 74, 104, 113, 112, 112, 52, 71, 69, 79, 47, 114, 107, 69, 55, 48, 85, 97, 83, 65, 72, 87,
    121, 84, 48, 61]

/-- The encrypted answer, an object with the member `result`. -/
def exampleBody : Bytes :=
  [123, 34, 114, 101, 115, 117, 108, 116, 34, 58, 34] ++ exampleResult ++ [34, 125]

def exampleParse (text : Bytes) : Option CJson :=
  if text = exampleText then
    some (.mk .other none 0
      [(some successName, .mk .true none 1 []), (some tName, .mk .other none 1 [])])
  else if text = exampleBody then
    some (.mk .other none 0 [(some resultName, .mk .other (some exampleResult) 0 [])])
  else none

def exampleExchange (body : Bytes) : AtopExchange where
  pathAlloc := true
  urlParamsEncode := oprtOk
  bodyAlloc := true
  requestDataEncode := oprtOk
  sent := true
  body := some (body ++ [0])
  bodyLength := body.length
  resultAlloc := true
  b64Alloc := true

theorem atopBaseRequest_exampleBody :
    atopBaseRequest exampleAead exampleParse exampleKey (exampleExchange exampleBody)
      ⟨false, none, 0⟩ = some (oprtOk, ⟨true, none, 1⟩) := by
  with_unfolding_all rfl

theorem taken_of_success_exampleBody :
    (∃ plain, atopResponseDataDecode exampleAead exampleParse exampleKey
        (exampleExchange exampleBody) = some (.ok plain) ∧
      Verified exampleAead exampleParse exampleKey (exampleExchange exampleBody).body plain ∧
      Taken exampleParse (cString plain) ⟨false, none, 0⟩ ⟨true, none, 1⟩) ∨
    ((∃ rt, atopResponseDataDecode exampleAead exampleParse exampleKey
        (exampleExchange exampleBody) = some (.error rt)) ∧
      ∃ mem, (exampleExchange exampleBody).body = some mem ∧
        Taken exampleParse (cString mem) ⟨false, none, 0⟩ ⟨true, none, 1⟩) :=
  taken_of_success exampleAead exampleParse exampleKey (exampleExchange exampleBody)
    ⟨false, none, 0⟩ ⟨true, none, 1⟩ atopBaseRequest_exampleBody rfl

/-- The plain answer is successful although nothing has been decrypted. -/
theorem not_verified_exampleText :
    atopBaseRequest exampleAead exampleParse exampleKey (exampleExchange exampleText)
        ⟨false, none, 0⟩ = some (oprtOk, ⟨true, none, 1⟩) ∧
      ¬∃ plain, Verified exampleAead exampleParse exampleKey
        (exampleExchange exampleText).body plain := by
  refine ⟨rfl, ?_⟩
  rintro ⟨plain, mem, text, root, item, value, hmem, htext, hroot, hitem, -⟩
  obtain rfl := Option.some.inj hmem
  have heq : text = exampleText := cString_of_cText htext
  rw [heq, exampleParse, if_pos rfl] at hroot
  obtain rfl := Option.some.inj hroot
  cases hitem

end TuyaOpen.Cloud
