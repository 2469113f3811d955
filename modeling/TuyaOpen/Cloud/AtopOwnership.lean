import TuyaOpen.Basic.Blocks
import TuyaOpen.Cloud.AtopBase

/-!
# Who owns the items of an answer

`atop_base.c` parses an answer up to twice and hands the member `result` out in the response. Here
the items of a text are a heap block, and so is a member that has been detached; what has been
allocated is to be freed once.

The parser is a parameter, as in the model of the request; no string that it finds is longer than
its text. Whether a conversion `%s` prints `NULL` or follows it is a parameter, too.

## Main results

* `atopParse_of_ownParse`: without its blocks a request is the one of the model.
* `exists_ownDataDecode_eq`, `exists_ownResultParseCjson_eq`: decoding and parsing without a fault.
* `requestSafe_iff_requestCond`: the answers that a request handles safely.
-/

namespace TuyaOpen.Cloud

open TuyaOpen.Utilities

/-! ### Answers -/

inductive AtopFault
  /-- A text is read beyond its memory. -/
  | unterminated
  /-- The string of an item that has none is followed. -/
  | absentString
  /-- The length of a ciphertext is negative, or has wrapped. -/
  | cipherLength
  /-- The result or its terminator is outside of its buffer. -/
  | resultBuffer
  deriving DecidableEq

/-- `cJSON_Parse`. -/
structure CJsonParser where
  parse : Bytes → Option CJson
  length_valuestring_le : ∀ {text root name item value}, parse text = some root →
    CJson.getObjectItem root name = some item → item.valuestring = some value →
      value.length ≤ text.length

/-- The body of `http_client_response_t`, with the byte that is allocated behind it. -/
structure HttpAnswer where
  body : Option Bytes
  bodyLength : Nat
  length_body : ∀ mem, body = some mem → mem.length = bodyLength + 1
  /-- The buffer for the base64 text is allocated. -/
  b64Alloc : Bool

def HttpAnswer.exchange (answer : HttpAnswer) : AtopExchange where
  pathAlloc := true
  urlParamsEncode := oprtOk
  bodyAlloc := true
  requestDataEncode := oprtOk
  sent := true
  body := answer.body
  bodyLength := answer.bodyLength
  resultAlloc := true
  b64Alloc := answer.b64Alloc

/-- `atop_base_response_t`, with the block of `result`. -/
structure OwnResponse where
  success : Bool
  result : Option (Nat × CJson)
  t : ℤ

def OwnResponse.toResponse (response : OwnResponse) : AtopResponse :=
  ⟨response.success, response.result.map Prod.snd, response.t⟩

/-- The response that `atop_base_request` is given. -/
def OwnResponse.zero : OwnResponse := ⟨false, none, 0⟩

/-- The name `errorMsg`. -/
def errorMsgName : Bytes := [0x65, 0x72, 0x72, 0x6f, 0x72, 0x4d, 0x73, 0x67]

/-! ### The request -/

section Functions

variable (A : Aead OperateRet aesGcm128TagLen) (P : CJsonParser) (printsNull : Bool)

/-- An argument of a conversion `%s`. -/
def logString (s : Option Bytes) : Except AtopFault Unit :=
  if s = none ∧ printsNull = false then .error .absentString else .ok ()

/-- The member `errorMsg` is printed if there is one. -/
def logErrorMsg (root : CJson) : Except AtopFault Unit :=
  match root.getObjectItem errorMsgName with
  | none => .ok ()
  | some errorMsg => logString printsNull errorMsg.valuestring

/-- `mbedtls_base64_decode` to a buffer of `value_length * 3 / 4` bytes. -/
def b64Decode (b64Alloc : Bool) (value : Bytes) : Except OperateRet Bytes :=
  mbedtlsBase64DecodeRet (if b64Alloc then some (u32 (value.length * 3) / 4) else none) value

/-- `atop_response_result_decrpyt`, with the size of the buffer for the output: the cipher writes
there before it verifies the tag. The length is passed as an `int`. -/
def ownResultDecrpyt (key input : Bytes) (outputSize : Nat) :
    Except AtopFault (Except OperateRet Bytes) :=
  if 2147483648 ≤ input.length then .error .cipherLength
  else
    match atopResponseResultDecrpyt A key input with
    | none => .error .cipherLength
    | some r =>
      if outputSize < input.length - aesGcm128NonceLen - aesGcm128TagLen then .error .resultBuffer
      else .ok r

/-- `atop_response_data_decode`. The items of the body are the next block. -/
def ownDataDecode (key : Bytes) (answer : HttpAnswer) (heap : Blocks) :
    Except AtopFault (Except OperateRet Bytes × Blocks) :=
  match answer.body with
  | none => .ok (.error oprtCjsonParseErr, heap)
  | some mem =>
    match cText mem with
    | none => .error .unterminated
    | some text =>
      match P.parse text with
      | none => .ok (.error oprtCjsonParseErr, heap)
      | some root =>
        match root.getObjectItem resultName with
        | none => .ok (.error oprtCjsonGetErr, heap.alloc)
        | some item =>
          match item.valuestring with
          | none => .error .absentString
          | some value =>
            match b64Decode answer.b64Alloc value with
            | .error rt => .ok (.error rt, heap.alloc.free heap.next)
            | .ok b64buffer =>
              match ownResultDecrpyt A key b64buffer answer.bodyLength with
              | .error f => .error f
              | .ok r => .ok (r, heap.alloc.free heap.next)

/-- `atop_response_result_parse_cjson`. The items are the next block; `result` becomes a block when
it is detached from them. -/
def ownResultParseCjson (input : Option Bytes) (ilen : Nat) (response : OwnResponse)
    (heap : Blocks) : Except AtopFault (OperateRet × OwnResponse × Blocks) :=
  match input with
  | none => .ok (oprtInvalidParm, response, heap)
  | some mem =>
    if mem.length ≤ ilen then .error .resultBuffer
    else
      match cText mem with
      | none => .error .unterminated
      | some text =>
        match P.parse text with
        | none => .ok (oprtCjsonParseErr, response, heap)
        | some root =>
          match root.getObjectItem successName with
          | none => .ok (oprtCjsonGetErr, response, heap.alloc.free heap.next)
          | some success =>
            let t := ((root.getObjectItem tName).map CJson.valueint).getD response.t
            if success.type = .true then
              match root.getObjectItem resultName with
              | none => .ok (oprtOk, ⟨true, none, t⟩, heap.alloc.free heap.next)
              | some item =>
                .ok (oprtOk, ⟨true, some (heap.alloc.next, item), t⟩,
                  heap.alloc.alloc.free heap.next)
            else
              match logErrorMsg printsNull root with
              | .error f => .error f
              | .ok _ =>
                match root.getObjectItem errorCodeName with
                | none => .ok (oprtComError, ⟨false, none, t⟩, heap.alloc.free heap.next)
                | some code =>
                  match code.valuestring with
                  | none => .error .absentString
                  | some errorCode =>
                    .ok (if strcasecmp errorCode gatewayNotExists then oprtLinkCoreHttpGwNotExist
                      else oprtOk, ⟨false, none, t⟩, heap.alloc.free heap.next)

/-- The end of `atop_base_request`. -/
def ownParse (key : Bytes) (answer : HttpAnswer) (response : OwnResponse) (heap : Blocks) :
    Except AtopFault (OperateRet × OwnResponse × Blocks) :=
  match ownDataDecode A P key answer heap with
  | .error f => .error f
  | .ok (.ok plain, heap) =>
    match memcpy (List.replicate answer.bodyLength 0) 0 plain with
    | none => .error .resultBuffer
    | some buffer => ownResultParseCjson P printsNull (some buffer) plain.length response heap
  | .ok (.error _, heap) =>
    ownResultParseCjson P printsNull answer.body answer.bodyLength response heap

end Functions

/-! ### Without the blocks -/

section Model

variable {A : Aead OperateRet aesGcm128TagLen} {P : CJsonParser} {printsNull : Bool} {key : Bytes}
  {answer : HttpAnswer} {heap heap' : Blocks} {response response' : OwnResponse} {rt : OperateRet}

theorem atopResponseResultDecrpyt_of_own {input : Bytes} {outputSize : Nat}
    {r : Except OperateRet Bytes} (h : ownResultDecrpyt A key input outputSize = .ok r) :
    atopResponseResultDecrpyt A key input = some r := by
  rw [ownResultDecrpyt] at h
  by_cases hint : 2147483648 ≤ input.length
  · rw [if_pos hint] at h
    cases h
  rw [if_neg hint] at h
  cases hdecrypt : atopResponseResultDecrpyt A key input with
  | none =>
    rw [hdecrypt] at h
    cases h
  | some r' =>
    rw [hdecrypt] at h
    dsimp only at h
    split_ifs at h with hsize
    rw [Except.ok.inj h]

theorem atopResponseDataDecode_of_own {r : Except OperateRet Bytes}
    (h : ownDataDecode A P key answer heap = .ok (r, heap')) :
    atopResponseDataDecode A P.parse key answer.exchange = some r := by
  rw [ownDataDecode] at h
  rw [atopResponseDataDecode, HttpAnswer.exchange]
  dsimp only
  cases hbody : answer.body with
  | none =>
    rw [hbody] at h
    obtain ⟨rfl, -⟩ := Prod.mk.inj (Except.ok.inj h)
    rfl
  | some mem =>
    rw [hbody] at h
    rw [parseBody]
    dsimp only at h ⊢
    cases htext : cText mem with
    | none =>
      rw [htext] at h
      cases h
    | some text =>
      rw [htext] at h
      rw [Option.map_some, Option.bind_some]
      dsimp only at h
      cases hroot : P.parse text with
      | none =>
        rw [hroot] at h
        obtain ⟨rfl, -⟩ := Prod.mk.inj (Except.ok.inj h)
        rfl
      | some root =>
        rw [hroot] at h
        dsimp only at h ⊢
        cases hitem : root.getObjectItem resultName with
        | none =>
          rw [hitem] at h
          obtain ⟨rfl, -⟩ := Prod.mk.inj (Except.ok.inj h)
          rfl
        | some item =>
          rw [hitem] at h
          dsimp only at h ⊢
          cases hvalue : item.valuestring with
          | none =>
            rw [hvalue] at h
            cases h
          | some value =>
            rw [hvalue] at h
            rw [Option.bind_some]
            dsimp only at h
            rw [b64Decode] at h
            cases hdecode : mbedtlsBase64DecodeRet
                (if answer.b64Alloc then some (u32 (value.length * 3) / 4) else none) value with
            | error rt =>
              rw [hdecode] at h
              obtain ⟨rfl, -⟩ := Prod.mk.inj (Except.ok.inj h)
              rfl
            | ok b64buffer =>
              rw [hdecode] at h
              dsimp only at h ⊢
              cases hown : ownResultDecrpyt A key b64buffer answer.bodyLength with
              | error f =>
                rw [hown] at h
                cases h
              | ok r' =>
                rw [hown] at h
                obtain ⟨rfl, -⟩ := Prod.mk.inj (Except.ok.inj h)
                exact atopResponseResultDecrpyt_of_own hown

theorem some_toResponse_of_ok {rt₁ : OperateRet} {response₁ : OwnResponse} {heap₁ : Blocks}
    (h : (Except.ok (rt₁, response₁, heap₁) : Except AtopFault _) = .ok (rt, response', heap')) :
    some (rt₁, response₁.toResponse) = some (rt, response'.toResponse) := by
  obtain ⟨rfl, hrest⟩ := Prod.mk.inj (Except.ok.inj h)
  obtain ⟨rfl, -⟩ := Prod.mk.inj hrest
  rfl

theorem atopResponseResultParseCjson_of_own {input : Option Bytes} {ilen : Nat}
    (h : ownResultParseCjson P printsNull input ilen response heap = .ok (rt, response', heap')) :
    atopResponseResultParseCjson P.parse input response.toResponse =
      some (rt, response'.toResponse) := by
  cases input with
  | none =>
    exact some_toResponse_of_ok h
  | some mem =>
    rw [ownResultParseCjson] at h
    rw [atopResponseResultParseCjson]
    dsimp only at h ⊢
    split_ifs at h with hilen
    cases htext : cText mem with
    | none =>
      rw [htext] at h
      cases h
    | some text =>
      rw [htext] at h
      rw [Option.bind_some]
      dsimp only at h
      cases hroot : P.parse text with
      | none =>
        rw [hroot] at h
        exact some_toResponse_of_ok h
      | some root =>
        rw [hroot] at h
        dsimp only at h ⊢
        cases hsuccess : root.getObjectItem successName with
        | none =>
          rw [hsuccess] at h
          exact some_toResponse_of_ok h
        | some success =>
          rw [hsuccess] at h
          dsimp only at h ⊢
          by_cases htrue : success.type = .true
          · rw [if_pos htrue] at h ⊢
            cases hresult : root.getObjectItem resultName with
            | none =>
              rw [hresult] at h
              exact some_toResponse_of_ok h
            | some item =>
              rw [hresult] at h
              exact some_toResponse_of_ok h
          · rw [if_neg htrue] at h ⊢
            cases hmsg : logErrorMsg printsNull root with
            | error f =>
              rw [hmsg] at h
              cases h
            | ok u =>
              rw [hmsg] at h
              dsimp only at h
              cases hcode : root.getObjectItem errorCodeName with
              | none =>
                rw [hcode] at h
                exact some_toResponse_of_ok h
              | some code =>
                rw [hcode] at h
                dsimp only at h ⊢
                cases hstring : code.valuestring with
                | none =>
                  rw [hstring] at h
                  cases h
                | some errorCode =>
                  rw [hstring] at h
                  exact some_toResponse_of_ok h

/-- **The model of the request.** Without the blocks a request without a fault is the one of the
model. -/
theorem atopParse_of_ownParse
    (h : ownParse A P printsNull key answer response heap = .ok (rt, response', heap')) :
    atopParse A P.parse key answer.exchange response.toResponse =
      some (rt, response'.toResponse) := by
  rw [ownParse] at h
  rw [atopParse]
  cases hdecode : ownDataDecode A P key answer heap with
  | error f =>
    rw [hdecode] at h
    cases h
  | ok r =>
    obtain ⟨r, heap₁⟩ := r
    rw [hdecode] at h
    rw [atopResponseDataDecode_of_own hdecode, Option.bind_some]
    cases r with
    | ok plain =>
      dsimp only at h ⊢
      cases hcopy : memcpy (List.replicate answer.bodyLength 0) 0 plain with
      | none =>
        rw [hcopy] at h
        cases h
      | some buffer =>
        rw [hcopy] at h
        rw [HttpAnswer.exchange]
        dsimp only
        rw [hcopy, Option.bind_some]
        exact atopResponseResultParseCjson_of_own h
    | error rt => exact atopResponseResultParseCjson_of_own h

end Model

/-! ### What should be true -/

section Safety

variable (A : Aead OperateRet aesGcm128TagLen) (P : CJsonParser) (printsNull : Bool)
  (key : Bytes) (answer : HttpAnswer) (heap : Blocks)

/-- The request has no fault, and the items that it has parsed are freed once, except the result of
the response. -/
def RequestSafe : Prop :=
  ∃ rt response heap', ownParse A P printsNull key answer .zero heap =
    .ok (rt, response, heap') ∧ heap.Settles (response.result.map Prod.fst) heap'

/-! ### The condition -/

def plainText (text : Bytes) : Option Bytes :=
  (P.parse text).bind fun root =>
    (root.getObjectItem resultName).bind fun item =>
      item.valuestring.bind fun value =>
        match b64Decode answer.b64Alloc value with
        | .error _ => none
        | .ok b64buffer =>
          match atopResponseResultDecrpyt A key b64buffer with
          | some (.ok plain) => some plain
          | _ => none

/-- The text that is read: what the answer decrypts to, or else the answer. -/
def answerText (text : Bytes) : Bytes :=
  match plainText A P key answer text with
  | none => text
  | some plain => cString plain

def successResult (text : Bytes) : Option CJson :=
  (P.parse text).bind fun root =>
    (root.getObjectItem successName).bind fun success =>
      if success.type = .true then root.getObjectItem resultName else none

/-- An answer that can be parsed has a string `result`. If this is the base64 text of any bytes,
they are long enough for a nonce and a tag. -/
def DecodeCond (text : Bytes) : Prop :=
  ∀ root, P.parse text = some root →
    ∃ item value, root.getObjectItem resultName = some item ∧ item.valuestring = some value ∧
      ∀ b64buffer, b64Decode answer.b64Alloc value = .ok b64buffer → b64buffer ≠ [] →
        aesGcm128NonceLen + aesGcm128TagLen ≤ b64buffer.length

/-- In an answer without success the members `errorMsg` and `errorCode` are strings. -/
def ErrorCond (text : Bytes) : Prop :=
  ∀ root success, P.parse text = some root → root.getObjectItem successName = some success →
    success.type ≠ .true →
      (∀ errorMsg, root.getObjectItem errorMsgName = some errorMsg →
        errorMsg.valuestring = none → printsNull = true) ∧
      ∀ errorCode, root.getObjectItem errorCodeName = some errorCode →
        errorCode.valuestring ≠ none

/-- The answers that a request handles safely: the body ends within its memory, can be decoded, and
the text that is read has its errors as strings. -/
def RequestCond : Prop :=
  ∀ mem, answer.body = some mem → 0 ∈ mem ∧ DecodeCond P answer (cString mem) ∧
    ErrorCond P printsNull (answerText A P key answer (cString mem))

def answerResult : Option CJson :=
  answer.body.bind fun mem => successResult P (answerText A P key answer (cString mem))

end Safety

/-! ### Decoding -/

section Decoding

variable {A : Aead OperateRet aesGcm128TagLen} {P : CJsonParser} {key : Bytes}
  {answer : HttpAnswer} {heap heap' : Blocks}

theorem length_le_of_b64Decode {b64Alloc : Bool} {value b64buffer : Bytes}
    (h : b64Decode b64Alloc value = .ok b64buffer) :
    4 * b64buffer.length ≤ 3 * value.length ∧ b64buffer.length < 2147483648 := by
  rw [b64Decode, mbedtlsBase64DecodeRet] at h
  cases hcheck : decodeCheck false 0 0 value with
  | none =>
    rw [hcheck] at h
    cases h
  | some r =>
    obtain ⟨n, equals⟩ := r
    rw [hcheck] at h
    dsimp only at h
    by_cases hn : n = 0
    · rw [if_pos hn] at h
      obtain rfl := Except.ok.inj h
      simp
    rw [if_neg hn] at h
    cases b64Alloc with
    | false => cases h
    | true =>
      rw [if_pos rfl] at h
      dsimp only at h
      by_cases hshort : u32 (value.length * 3) / 4 < 6 * (n / 8) + (6 * (n % 8) + 7) / 8 - equals
      · rw [if_pos hshort] at h
        cases h
      · rw [if_neg hshort] at h
        obtain rfl := Except.ok.inj h
        have hlen := length_decodeWrite_le hcheck
        have hu32 := u32_le (value.length * 3)
        have hlt := u32_lt (value.length * 3)
        omega

theorem ownResultDecrpyt_eq_ok {input : Bytes} {outputSize : Nat}
    (hlong : input ≠ [] → aesGcm128NonceLen + aesGcm128TagLen ≤ input.length)
    (hint : input.length < 2147483648) (hsize : input.length ≤ outputSize) :
    ∃ r, atopResponseResultDecrpyt A key input = some r ∧
      ownResultDecrpyt A key input outputSize = .ok r := by
  rw [ownResultDecrpyt, if_neg (Nat.not_le.2 hint)]
  by_cases hnil : input = []
  · rw [atopResponseResultDecrpyt, if_pos (by rw [hnil]; rfl)]
    exact ⟨_, rfl, if_neg (by omega)⟩
  · have hpos := List.length_pos_iff.2 hnil
    rw [atopResponseResultDecrpyt, if_neg (by omega), if_neg (Nat.not_lt.2 (hlong hnil))]
    exact ⟨_, rfl, if_neg (by omega)⟩

theorem le_length_of_ownResultDecrpyt {input : Bytes} {outputSize : Nat}
    {r : Except OperateRet Bytes} (h : ownResultDecrpyt A key input outputSize = .ok r)
    (hne : input ≠ []) : aesGcm128NonceLen + aesGcm128TagLen ≤ input.length := by
  by_contra hshort
  have hpos := List.length_pos_iff.2 hne
  rw [ownResultDecrpyt, atopResponseResultDecrpyt, if_neg (by omega : ¬input.length = 0),
    if_pos (Nat.not_le.1 hshort)] at h
  split_ifs at h

theorem length_of_decrpyt {input plain : Bytes}
    (h : atopResponseResultDecrpyt A key input = some (.ok plain)) :
    plain.length + (aesGcm128NonceLen + aesGcm128TagLen) = input.length := by
  obtain ⟨nonce, ct, tag, rfl, hnonce, htag, hdecrypt⟩ := decrypt_of_decrpyt h
  have hlen := A.length_decrypt hdecrypt
  simp only [List.length_append]
  omega

/-- **Decoding.** An answer that meets the condition is decoded without a fault, and its items are
freed. -/
theorem exists_ownDataDecode_eq {mem : Bytes} (hbody : answer.body = some mem) (hzero : 0 ∈ mem)
    (hcond : DecodeCond P answer (cString mem)) (heap : Blocks) :
    ∃ r heap', ownDataDecode A P key answer heap = .ok (r, heap') ∧ heap.Settles none heap' ∧
      (∀ plain, r = .ok plain → plainText A P key answer (cString mem) = some plain ∧
        plain.length < answer.bodyLength) ∧
      ∀ rt, r = .error rt → plainText A P key answer (cString mem) = none := by
  have htext : cText mem = some (cString mem) := cText_eq_some_iff.2 ⟨hzero, rfl⟩
  rw [ownDataDecode, hbody]
  dsimp only
  rw [htext, plainText]
  dsimp only
  cases hroot : P.parse (cString mem) with
  | none =>
    exact ⟨_, heap, rfl, heap.settles_refl, fun plain h => (by cases h), fun rt _ => rfl⟩
  | some root =>
    obtain ⟨item, value, hitem, hvalue, hlong⟩ := hcond root hroot
    rw [Option.bind_some, hitem, Option.bind_some, hvalue, Option.bind_some]
    dsimp only
    rw [hitem]
    dsimp only
    rw [hvalue]
    dsimp only
    have hfreed : heap.Settles none (heap.alloc.free heap.next) := heap.settles_alloc.free
    cases hdecode : b64Decode answer.b64Alloc value with
    | error rt =>
      exact ⟨_, _, rfl, hfreed, fun plain h => (by cases h), fun rt _ => rfl⟩
    | ok b64buffer =>
      obtain ⟨hlen, hint⟩ := length_le_of_b64Decode hdecode
      have hle := P.length_valuestring_le hroot hitem hvalue
      have hmem := answer.length_body mem hbody
      have hshort := length_cString_lt hzero
      obtain ⟨r, hr, hown⟩ := @ownResultDecrpyt_eq_ok A key b64buffer answer.bodyLength
        (hlong b64buffer hdecode) hint (by omega)
      dsimp only
      rw [hown, hr]
      refine ⟨r, _, rfl, hfreed, fun plain h => ?_, fun rt h => ?_⟩
      · subst h
        have hplain := length_of_decrpyt hr
        have hnonce : 0 < aesGcm128NonceLen := by decide
        exact ⟨rfl, by omega⟩
      · subst h
        rfl

theorem cond_of_ownDataDecode {mem : Bytes} {r : Except OperateRet Bytes}
    (hbody : answer.body = some mem) (h : ownDataDecode A P key answer heap = .ok (r, heap')) :
    0 ∈ mem ∧ (DecodeCond P answer (cString mem) ∨
      heap' = heap.alloc ∧ ∃ rt, r = .error rt) := by
  rw [ownDataDecode, hbody] at h
  dsimp only at h
  cases htext : cText mem with
  | none =>
    rw [htext] at h
    cases h
  | some text =>
    obtain ⟨hzero, rfl⟩ := cText_eq_some_iff.1 htext
    refine ⟨hzero, ?_⟩
    rw [htext] at h
    dsimp only at h
    cases hroot : P.parse (cString mem) with
    | none => exact Or.inl fun root h => by rw [hroot] at h; cases h
    | some root =>
      rw [hroot] at h
      dsimp only at h
      cases hitem : root.getObjectItem resultName with
      | none =>
        rw [hitem] at h
        obtain ⟨rfl, rfl⟩ := Prod.mk.inj (Except.ok.inj h)
        exact Or.inr ⟨rfl, _, rfl⟩
      | some item =>
        rw [hitem] at h
        dsimp only at h
        cases hvalue : item.valuestring with
        | none =>
          rw [hvalue] at h
          cases h
        | some value =>
          rw [hvalue] at h
          dsimp only at h
          refine Or.inl fun root' hroot' => ?_
          obtain rfl := Option.some.inj (hroot.symm.trans hroot')
          refine ⟨item, value, hitem, hvalue, fun b64buffer hdecode hne => ?_⟩
          rw [hdecode] at h
          dsimp only at h
          cases hown : ownResultDecrpyt A key b64buffer answer.bodyLength with
          | error f =>
            rw [hown] at h
            cases h
          | ok r => exact le_length_of_ownResultDecrpyt hown hne

end Decoding

/-! ### Parsing -/

section Parsing

variable {P : CJsonParser} {printsNull : Bool} {input : Option Bytes} {mem : Bytes} {ilen : Nat}
  {heap heap' : Blocks} {rt : OperateRet} {response : OwnResponse}

theorem logString_eq_ok_iff {s : Option Bytes} :
    logString printsNull s = .ok () ↔ (s = none → printsNull = true) := by
  rw [logString]
  split_ifs with h
  · simp [h.1, h.2]
  · simpa using fun hs => by simpa using fun hn => h ⟨hs, hn⟩

theorem logErrorMsg_eq_ok_iff {root : CJson} :
    logErrorMsg printsNull root = .ok () ↔ ∀ errorMsg,
      root.getObjectItem errorMsgName = some errorMsg → errorMsg.valuestring = none →
        printsNull = true := by
  rw [logErrorMsg]
  cases hmsg : root.getObjectItem errorMsgName with
  | none => simp
  | some errorMsg => simp [logString_eq_ok_iff]

/-- What parsing a text gives, when it has no fault: the items are freed, the result is detached. -/
structure Parsed (P : CJsonParser) (text : Bytes) (heap : Blocks) (rt : OperateRet)
    (response : OwnResponse) (heap' : Blocks) : Prop where
  settles : heap.Settles (response.result.map Prod.fst) heap'
  result : response.result.map Prod.snd = successResult P text
  success : ∀ r, response.result = some r → rt = oprtOk ∧ response.success = true

theorem Parsed.of_none {text : Bytes} (hresult : successResult P text = none) (rt : OperateRet)
    (success : Bool) (t : ℤ) (heap : Blocks) :
    Parsed P text heap rt ⟨success, none, t⟩ (heap.alloc.free heap.next) :=
  ⟨heap.settles_alloc.free, hresult.symm, fun r h => by cases h⟩

/-- **Parsing.** A text is parsed without a fault exactly if its errors are strings. -/
theorem exists_ownResultParseCjson_eq (hzero : 0 ∈ mem) (hilen : ilen < mem.length)
    (hcond : ErrorCond P printsNull (cString mem)) (heap : Blocks) :
    ∃ rt response heap', ownResultParseCjson P printsNull (some mem) ilen .zero heap =
      .ok (rt, response, heap') ∧ Parsed P (cString mem) heap rt response heap' := by
  have htext : cText mem = some (cString mem) := cText_eq_some_iff.2 ⟨hzero, rfl⟩
  rw [ownResultParseCjson]
  dsimp only
  rw [if_neg (Nat.not_le.2 hilen), htext]
  dsimp only
  cases hroot : P.parse (cString mem) with
  | none =>
    exact ⟨_, _, _, rfl, heap.settles_refl, by rw [successResult, hroot]; rfl,
      fun r h => (by cases h)⟩
  | some root =>
    dsimp only
    cases hsuccess : root.getObjectItem successName with
    | none =>
      refine ⟨_, _, _, rfl, Parsed.of_none ?_ _ _ _ _⟩
      rw [successResult, hroot, Option.bind_some, hsuccess]
      rfl
    | some success =>
      have hresult : successResult P (cString mem) =
          if success.type = .true then root.getObjectItem resultName else none := by
        rw [successResult, hroot, Option.bind_some, hsuccess, Option.bind_some]
      dsimp only
      by_cases htrue : success.type = .true
      · rw [if_pos htrue] at hresult ⊢
        cases hitem : root.getObjectItem resultName with
        | none => exact ⟨_, _, _, rfl, Parsed.of_none (hresult.trans hitem) _ _ _ _⟩
        | some item =>
          exact ⟨_, _, _, rfl, heap.settles_alloc_alloc, (hresult.trans hitem).symm,
            fun r _ => ⟨rfl, rfl⟩⟩
      · obtain ⟨hmsg, hcode⟩ := hcond root success hroot hsuccess htrue
        rw [if_neg htrue] at hresult ⊢
        rw [logErrorMsg_eq_ok_iff.2 hmsg]
        dsimp only
        cases hcodeItem : root.getObjectItem errorCodeName with
        | none => exact ⟨_, _, _, rfl, Parsed.of_none hresult _ _ _ _⟩
        | some code =>
          obtain ⟨errorCode, hstring⟩ := Option.ne_none_iff_exists'.1 (hcode code hcodeItem)
          dsimp only
          rw [hstring]
          exact ⟨_, _, _, rfl, Parsed.of_none hresult _ _ _ _⟩

theorem errorCond_of_ownResultParseCjson {r : OperateRet × OwnResponse × Blocks}
    (h : ownResultParseCjson P printsNull (some mem) ilen response heap = .ok r) :
    0 ∈ mem ∧ ilen < mem.length ∧ ErrorCond P printsNull (cString mem) := by
  rw [ownResultParseCjson] at h
  dsimp only at h
  by_cases hilen : mem.length ≤ ilen
  · rw [if_pos hilen] at h
    cases h
  rw [if_neg hilen] at h
  cases htext : cText mem with
  | none =>
    rw [htext] at h
    cases h
  | some text =>
    obtain ⟨hzero, rfl⟩ := cText_eq_some_iff.1 htext
    refine ⟨hzero, Nat.not_le.1 hilen, fun root success hroot hsuccess htrue => ?_⟩
    rw [htext] at h
    dsimp only at h
    rw [hroot] at h
    dsimp only at h
    rw [hsuccess] at h
    dsimp only at h
    rw [if_neg htrue] at h
    cases hmsg : logErrorMsg printsNull root with
    | error f =>
      rw [hmsg] at h
      cases h
    | ok u =>
      refine ⟨logErrorMsg_eq_ok_iff.1 hmsg, fun code hcode hstring => ?_⟩
      rw [hmsg] at h
      dsimp only at h
      rw [hcode] at h
      dsimp only at h
      rw [hstring] at h
      cases h

end Parsing

/-! ### Requests -/

section Requests

variable {A : Aead OperateRet aesGcm128TagLen} {P : CJsonParser} {printsNull : Bool} {key : Bytes}
  {answer : HttpAnswer} {heap heap' : Blocks} {rt : OperateRet} {response : OwnResponse}

theorem exists_memcpy_replicate {n : Nat} {plain : Bytes} (hlt : plain.length < n) :
    ∃ buffer, memcpy (List.replicate n 0) 0 plain = some buffer ∧ 0 ∈ buffer ∧
      buffer.length = n ∧ cString buffer = cString plain := by
  have hcopy := @memcpy_of_le _ (List.replicate n 0) plain 0
    (by rw [List.length_replicate]; omega)
  have hzero : (0 : UInt8) ∈ (List.replicate n 0).take 0 ++ plain ++
      (List.replicate n 0).drop (0 + plain.length) := by
    refine List.mem_append_right _ ?_
    rw [List.drop_replicate, Nat.zero_add]
    exact List.mem_replicate.2 ⟨by omega, rfl⟩
  refine ⟨_, hcopy, hzero, ?_, ?_⟩
  · rw [length_of_memcpy hcopy, List.length_replicate]
  · exact cString_of_cText_memcpy hcopy (cText_eq_some_iff.2 ⟨hzero, rfl⟩)

theorem answerText_of_some {text plain : Bytes} (h : plainText A P key answer text = some plain) :
    answerText A P key answer text = cString plain := by rw [answerText, h]

theorem answerText_of_none {text : Bytes} (h : plainText A P key answer text = none) :
    answerText A P key answer text = text := by rw [answerText, h]

theorem answerResult_eq {mem : Bytes} (hbody : answer.body = some mem) :
    answerResult A P key answer =
      successResult P (answerText A P key answer (cString mem)) := by
  rw [answerResult, hbody, Option.bind_some]

/-- **Requests.** An answer that meets the condition is handled safely. -/
theorem exists_ownParse_eq (hcond : RequestCond A P printsNull key answer) (heap : Blocks) :
    ∃ rt response heap', ownParse A P printsNull key answer .zero heap =
        .ok (rt, response, heap') ∧ heap.Settles (response.result.map Prod.fst) heap' ∧
      response.result.map Prod.snd = answerResult A P key answer ∧
      ∀ r, response.result = some r → rt = oprtOk ∧ response.success = true := by
  cases hbody : answer.body with
  | none =>
    refine ⟨oprtInvalidParm, .zero, heap, ?_, heap.settles_refl, ?_, fun r h => by cases h⟩
    · rw [ownParse, ownDataDecode, hbody]
      rfl
    · rw [answerResult, hbody]
      rfl
  | some mem =>
    obtain ⟨hzero, hdecode, herror⟩ := hcond mem hbody
    obtain ⟨r, heap₁, hown, hsettles, hplain, hnone⟩ :=
      exists_ownDataDecode_eq hbody hzero hdecode heap
    rw [ownParse, hown, answerResult_eq hbody]
    cases r with
    | ok plain =>
      obtain ⟨hplain, hlt⟩ := hplain plain rfl
      obtain ⟨buffer, hcopy, hzero', hlen, htext⟩ := exists_memcpy_replicate hlt
      rw [answerText_of_some hplain, ← htext] at herror ⊢
      obtain ⟨rt, response, heap₂, hparse, hparsed⟩ :=
        exists_ownResultParseCjson_eq hzero' (hlt.trans_eq hlen.symm) herror heap₁
      dsimp only
      rw [hcopy]
      exact ⟨rt, response, heap₂, hparse, hsettles.trans hparsed.settles, hparsed.result,
        hparsed.success⟩
    | error rt =>
      have hmem := answer.length_body mem hbody
      rw [answerText_of_none (hnone rt rfl)] at herror ⊢
      obtain ⟨rt, response, heap₂, hparse, hparsed⟩ :=
        exists_ownResultParseCjson_eq hzero (by omega : answer.bodyLength < mem.length) herror heap₁
      dsimp only
      rw [hbody]
      exact ⟨rt, response, heap₂, hparse, hsettles.trans hparsed.settles, hparsed.result,
        hparsed.success⟩

theorem requestCond_or_of_ownParse
    (h : ownParse A P printsNull key answer .zero heap = .ok (rt, response, heap')) :
    RequestCond A P printsNull key answer ∨
      heap.alloc.Settles (response.result.map Prod.fst) heap' ∧
        ∀ r, response.result = some r → rt = oprtOk ∧ response.success = true := by
  cases hbody : answer.body with
  | none => exact Or.inl fun mem hmem => by rw [hbody] at hmem; cases hmem
  | some mem =>
    rw [ownParse] at h
    cases hown : ownDataDecode A P key answer heap with
    | error f =>
      rw [hown] at h
      cases h
    | ok r =>
      obtain ⟨r, heap₁⟩ := r
      obtain ⟨hzero, hdecode | ⟨rfl, rt, rfl⟩⟩ := cond_of_ownDataDecode hbody hown
      · refine Or.inl fun mem' hmem' => ?_
        obtain rfl := Option.some.inj (hbody.symm.trans hmem')
        refine ⟨hzero, hdecode, ?_⟩
        obtain ⟨r', heap₁', hown', -, hplain, hnone⟩ :=
          exists_ownDataDecode_eq hbody hzero hdecode heap
        obtain ⟨rfl, rfl⟩ := Prod.mk.inj (Except.ok.inj (hown.symm.trans hown'))
        rw [hown] at h
        cases r with
        | ok plain =>
          obtain ⟨hplain, hlt⟩ := hplain plain rfl
          obtain ⟨buffer, hcopy, -, -, htext⟩ := exists_memcpy_replicate hlt
          dsimp only at h
          rw [hcopy] at h
          rw [answerText_of_some hplain, ← htext]
          exact (errorCond_of_ownResultParseCjson h).2.2
        | error rt =>
          dsimp only at h
          rw [hbody] at h
          rw [answerText_of_none (hnone rt rfl)]
          exact (errorCond_of_ownResultParseCjson h).2.2
      · -- the items of the body are left
        rw [hown] at h
        dsimp only at h
        rw [hbody] at h
        obtain ⟨-, hilen, herror⟩ := errorCond_of_ownResultParseCjson h
        obtain ⟨rt, response, heap₂, hparse, hparsed⟩ :=
          exists_ownResultParseCjson_eq hzero hilen herror heap.alloc
        have heq := Except.ok.inj (h.symm.trans hparse)
        simp only [Prod.mk.injEq] at heq
        obtain ⟨rfl, rfl, rfl⟩ := heq
        exact Or.inr ⟨hparsed.settles, hparsed.success⟩

theorem requestSafe_iff_requestCond (heap : Blocks) :
    RequestSafe A P printsNull key answer heap ↔ RequestCond A P printsNull key answer := by
  constructor
  · rintro ⟨rt, response, heap', hparse, hsettles⟩
    rcases requestCond_or_of_ownParse hparse with hcond | ⟨hleft, -⟩
    · exact hcond
    · exact absurd hsettles (hleft.not_settles_alloc hleft.keep_ne)
  · intro hcond
    obtain ⟨rt, response, heap', hparse, hsettles, -⟩ := exists_ownParse_eq hcond heap
    exact ⟨rt, response, heap', hparse, hsettles⟩

end Requests

end TuyaOpen.Cloud
