import TuyaOpen.Cloud.AtopOwnership

/-!
# Activation responses

`client_activate_process` of `tuya_iot.c` sends a request, lets `activate_response_parse` take the
schema out of the result and store both, and frees the response with `atop_base_response_free`. A
result without a schema is freed by both.
-/

namespace TuyaOpen.Cloud

/-- The name `schema`. -/
def schemaName : Bytes := [0x73, 0x63, 0x68, 0x65, 0x6d, 0x61]

/-- The name `schemaId`. -/
def schemaIdName : Bytes := [0x73, 0x63, 0x68, 0x65, 0x6d, 0x61, 0x49, 0x64]

/-! ### The activation -/

section Functions

variable (A : Aead OperateRet aesGcm128TagLen) (P : CJsonParser) (printsNull : Bool)

structure ActivateIo where
  storageNamespace : Bytes
  /-- `tal_kv_set` of the schema, and of the activation data, with arguments that it takes. -/
  schemaSet : OperateRet
  dataSet : OperateRet
  /-- `cJSON_PrintUnformatted`. -/
  resultString : Option Bytes

/-- `tal_kv_set`, which prints its key before it looks at it. -/
def talKvSet (key : Option Bytes) (value : Bytes) (set : OperateRet) :
    Except AtopFault OperateRet :=
  match logString printsNull key with
  | .error f => .error f
  | .ok _ => .ok (if key = none ∨ value = [] then oprtInvalidParm else set)

/-- `activate_response_parse`. The schema is the next block. -/
def activateResponseParse (io : ActivateIo) (response : OwnResponse) (heap : Blocks) :
    Except AtopFault (OperateRet × Blocks) :=
  match response.success, response.result with
  | true, some (resultRoot, item) =>
    match item.getObjectItem schemaName, item.getObjectItem schemaIdName with
    | some schemaObj, some schemaId =>
      match schemaObj.valuestring with
      | none => .error .absentString
      | some schema =>
        match talKvSet printsNull schemaId.valuestring schema io.schemaSet with
        | .error f => .error f
        | .ok ret =>
          if ret ≠ oprtOk then .ok (oprtKvsWrFail, heap.alloc.free heap.next)
          else
            match io.resultString with
            | none => .error .absentString
            | some resultString =>
              match talKvSet printsNull (some io.storageNamespace) resultString io.dataSet with
              | .error f => .error f
              | .ok ret =>
                .ok (if ret ≠ oprtOk then oprtKvsWrFail else oprtOk, heap.alloc.free heap.next)
    | _, _ => .ok (oprtCjsonGetErr, heap.free resultRoot)
  | _, _ => .ok (oprtInvalidParm, heap)

/-- `atop_base_response_free`. -/
def atopBaseResponseFree (response : OwnResponse) (heap : Blocks) : Blocks :=
  if response.success then heap.freeOpt (response.result.map Prod.fst) else heap

/-- `client_activate_process`, from the result of the request on. -/
def activateEnd (io : ActivateIo) (rt : OperateRet) (response : OwnResponse) (heap : Blocks) :
    Except AtopFault (OperateRet × Blocks) :=
  if rt ≠ oprtOk then .ok (rt, heap)
  else
    match activateResponseParse printsNull io response heap with
    | .error f => .error f
    | .ok (rt, heap) => .ok (rt, atopBaseResponseFree response heap)

/-- `client_activate_process`, from the answer on. -/
def clientActivateProcess (key : Bytes) (answer : HttpAnswer) (io : ActivateIo) (heap : Blocks) :
    Except AtopFault (OperateRet × Blocks) :=
  match ownParse A P printsNull key answer .zero heap with
  | .error f => .error f
  | .ok (rt, response, heap) => activateEnd printsNull io rt response heap

end Functions

/-! ### What should be true -/

section Safety

variable (A : Aead OperateRet aesGcm128TagLen) (P : CJsonParser) (printsNull : Bool)
  (key : Bytes) (answer : HttpAnswer) (io : ActivateIo) (heap : Blocks)

def ActivateSafe : Prop :=
  ∃ rt heap', clientActivateProcess A P printsNull key answer io heap = .ok (rt, heap') ∧
    heap.Settles none heap'

/-- A result has the members `schema` and `schemaId`, the first is a string, and so is the other one
unless `NULL` can be printed. What is left can be printed once the schema has been stored. -/
def SchemaCond (result : CJson) : Prop :=
  ∃ schemaObj schemaId schema, result.getObjectItem schemaName = some schemaObj ∧
    result.getObjectItem schemaIdName = some schemaId ∧ schemaObj.valuestring = some schema ∧
    (schemaId.valuestring = none → printsNull = true) ∧
    (schemaId.valuestring ≠ none → schema ≠ [] → io.schemaSet = oprtOk → io.resultString ≠ none)

def ActivateCond : Prop :=
  RequestCond A P printsNull key answer ∧
    ∀ result, answerResult A P key answer = some result → SchemaCond printsNull io result

end Safety

/-! ### How an activation ends -/

section Activations

variable {A : Aead OperateRet aesGcm128TagLen} {P : CJsonParser} {printsNull : Bool} {key : Bytes}
  {answer : HttpAnswer} {io : ActivateIo} {heap heap₁ heap' : Blocks} {rt : OperateRet}
  {response : OwnResponse} {block : Nat} {item : CJson}

theorem talKvSet_eq_ok {key value : Bytes} {set : OperateRet} :
    talKvSet printsNull (some key) value set =
      .ok (if value = [] then oprtInvalidParm else set) := by
  rw [talKvSet, logString_eq_ok_iff.2 fun h => by cases h]
  simp

theorem exists_activateResponseParse_eq (hsuccess : response.success = true)
    (hresult : response.result = some (block, item)) (hcond : SchemaCond printsNull io item)
    (heap : Blocks) :
    ∃ rt, activateResponseParse printsNull io response heap =
      .ok (rt, heap.alloc.free heap.next) := by
  obtain ⟨schemaObj, schemaId, schema, hobj, hid, hschema, hlog, hprint⟩ := hcond
  rw [activateResponseParse, hsuccess, hresult]
  dsimp only
  rw [hobj, hid]
  dsimp only
  rw [hschema]
  dsimp only
  cases hkey : schemaId.valuestring with
  | none =>
    rw [talKvSet, logString_eq_ok_iff.2 fun _ => hlog hkey]
    dsimp only
    rw [if_pos (Or.inl rfl), if_pos (by decide)]
    exact ⟨_, rfl⟩
  | some id =>
    rw [talKvSet_eq_ok]
    dsimp only
    by_cases hset : (if schema = [] then oprtInvalidParm else io.schemaSet) = oprtOk
    · have hne : schema ≠ [] := by
        rintro rfl
        rw [if_pos rfl] at hset
        exact absurd hset (by decide)
      rw [if_neg hne] at hset
      obtain ⟨resultString, hstring⟩ := Option.ne_none_iff_exists'.1
        (hprint (by rw [hkey]; exact Option.some_ne_none id) hne hset)
      rw [if_neg hne, hset, if_neg (not_not_intro rfl), hstring]
      dsimp only
      rw [talKvSet_eq_ok]
      exact ⟨_, rfl⟩
    · rw [if_pos hset]
      exact ⟨_, rfl⟩

theorem schemaCond_or_of_activateResponseParse (hsuccess : response.success = true)
    (hresult : response.result = some (block, item))
    (h : activateResponseParse printsNull io response heap = .ok (rt, heap')) :
    SchemaCond printsNull io item ∨ heap' = heap.free block := by
  rw [activateResponseParse, hsuccess, hresult] at h
  dsimp only at h
  cases hobj : item.getObjectItem schemaName with
  | none =>
    rw [hobj] at h
    exact Or.inr (Prod.mk.inj (Except.ok.inj h)).2.symm
  | some schemaObj =>
    cases hid : item.getObjectItem schemaIdName with
    | none =>
      rw [hobj, hid] at h
      exact Or.inr (Prod.mk.inj (Except.ok.inj h)).2.symm
    | some schemaId =>
      rw [hobj, hid] at h
      dsimp only at h
      cases hschema : schemaObj.valuestring with
      | none =>
        rw [hschema] at h
        cases h
      | some schema =>
        rw [hschema] at h
        dsimp only at h
        refine Or.inl ⟨schemaObj, schemaId, schema, hobj, hid, hschema, fun hkey => ?_,
          fun hkey hne hset hstring => ?_⟩
        · cases hlog : logString printsNull schemaId.valuestring with
          | error f =>
            rw [talKvSet, hlog] at h
            cases h
          | ok u => exact logString_eq_ok_iff.1 hlog hkey
        · obtain ⟨id, hid'⟩ := Option.ne_none_iff_exists'.1 hkey
          rw [hid', talKvSet_eq_ok] at h
          dsimp only at h
          rw [if_neg hne, hset, if_neg (not_not_intro rfl), hstring] at h
          cases h

theorem atopBaseResponseFree_eq (hsuccess : response.success = true)
    (hresult : response.result = some (block, item)) (heap : Blocks) :
    atopBaseResponseFree response heap = heap.free block := by
  rw [atopBaseResponseFree, hsuccess, hresult]
  rfl

theorem activateResponseParse_of_none (hresult : response.result = none) :
    activateResponseParse printsNull io response heap = .ok (oprtInvalidParm, heap) ∧
      atopBaseResponseFree response heap = heap := by
  rw [activateResponseParse, atopBaseResponseFree, hresult]
  cases response.success with
  | false => exact ⟨rfl, rfl⟩
  | true => exact ⟨rfl, rfl⟩

theorem exists_activateEnd_eq {rt₁ : OperateRet}
    (hsettles : heap.Settles (response.result.map Prod.fst) heap₁)
    (hsuccess : ∀ r, response.result = some r → rt₁ = oprtOk ∧ response.success = true)
    (hschema : ∀ r, response.result = some r → SchemaCond printsNull io r.2) :
    ∃ rt heap', activateEnd printsNull io rt₁ response heap₁ = .ok (rt, heap') ∧
      heap.Settles none heap' := by
  rw [activateEnd]
  cases hresult : response.result with
  | none =>
    rw [hresult] at hsettles
    obtain ⟨hactivate, hfree⟩ := @activateResponseParse_of_none printsNull io heap₁ response hresult
    by_cases hrt : rt₁ = oprtOk
    · rw [if_neg (not_not_intro hrt), hactivate]
      dsimp only
      rw [hfree]
      exact ⟨_, _, rfl, hsettles⟩
    · rw [if_pos hrt]
      exact ⟨_, _, rfl, hsettles⟩
  | some r =>
    obtain ⟨block, item⟩ := r
    obtain ⟨hrt, hsuccess⟩ := hsuccess _ hresult
    obtain ⟨rt, hactivate⟩ :=
      exists_activateResponseParse_eq hsuccess hresult (hschema _ hresult) heap₁
    rw [hresult] at hsettles
    rw [if_neg (not_not_intro hrt), hactivate]
    dsimp only
    rw [atopBaseResponseFree_eq hsuccess hresult]
    exact ⟨_, _, rfl, (hsettles.trans_none heap₁.settles_alloc.free).free⟩

/-- How an activation without a fault ends: the blocks are settled and the result has its schema, or
the result is freed twice. -/
theorem activateEnd_cases {rt₁ : OperateRet}
    (hsettles : heap.Settles (response.result.map Prod.fst) heap₁)
    (hsuccess : ∀ r, response.result = some r → rt₁ = oprtOk ∧ response.success = true)
    (h : activateEnd printsNull io rt₁ response heap₁ = .ok (rt, heap')) :
    (heap.Settles none heap' ∧
      ∀ r, response.result = some r → SchemaCond printsNull io r.2) ∨
    ∃ block, heap' = (heap₁.free block).free block := by
  by_cases hschema : ∀ r, response.result = some r → SchemaCond printsNull io r.2
  · obtain ⟨rt', heap₂, hend, hsettled⟩ := exists_activateEnd_eq hsettles hsuccess hschema
    obtain ⟨-, rfl⟩ := Prod.mk.inj (Except.ok.inj (h.symm.trans hend))
    exact Or.inl ⟨hsettled, hschema⟩
  · push Not at hschema
    obtain ⟨⟨block, item⟩, hresult, hschema⟩ := hschema
    obtain ⟨hrt, hsuccess⟩ := hsuccess _ hresult
    rw [activateEnd, if_neg (not_not_intro hrt)] at h
    cases hactivate : activateResponseParse printsNull io response heap₁ with
    | error f =>
      rw [hactivate] at h
      cases h
    | ok r =>
      obtain ⟨rt', heap₂⟩ := r
      rw [hactivate] at h
      obtain ⟨-, rfl⟩ := Prod.mk.inj (Except.ok.inj h)
      rw [atopBaseResponseFree_eq hsuccess hresult]
      rcases schemaCond_or_of_activateResponseParse hsuccess hresult hactivate with hcond | rfl
      · exact absurd hcond hschema
      · exact Or.inr ⟨block, rfl⟩

/-- **Answers.** For every cipher, parser, key and answer, the request is safe exactly if the answer
meets the condition, and so is the activation. -/
theorem requestSafe_iff_and_activateSafe_iff (A : Aead OperateRet aesGcm128TagLen)
    (P : CJsonParser) (printsNull : Bool) (key : Bytes) (answer : HttpAnswer) (io : ActivateIo)
    (heap : Blocks) :
    (RequestSafe A P printsNull key answer heap ↔ RequestCond A P printsNull key answer) ∧
    (ActivateSafe A P printsNull key answer io heap ↔
      ActivateCond A P printsNull key answer io) := by
  refine ⟨requestSafe_iff_requestCond heap, ?_, ?_⟩
  · rintro ⟨rt, heap', hprocess, hsettled⟩
    rw [clientActivateProcess] at hprocess
    cases hparse : ownParse A P printsNull key answer .zero heap with
    | error f =>
      rw [hparse] at hprocess
      cases hprocess
    | ok r =>
      obtain ⟨rt₁, response, heap₁⟩ := r
      rw [hparse] at hprocess
      have hend : activateEnd printsNull io rt₁ response heap₁ = .ok (rt, heap') := hprocess
      rcases requestCond_or_of_ownParse hparse with hrequest | ⟨hleft, hsuccess⟩
      · refine ⟨hrequest, fun result hresult => ?_⟩
        obtain ⟨rt₂, response₂, heap₂, hparse₂, hsettles, hanswer, hsuccess⟩ :=
          exists_ownParse_eq hrequest heap
        have heq := Except.ok.inj (hparse.symm.trans hparse₂)
        simp only [Prod.mk.injEq] at heq
        obtain ⟨rfl, rfl, rfl⟩ := heq
        rcases activateEnd_cases hsettles hsuccess hend with ⟨-, hschema⟩ | ⟨block, rfl⟩
        · obtain ⟨r, hr, rfl⟩ := Option.map_eq_some_iff.1 (hanswer.trans hresult)
          exact hschema r hr
        · exact absurd hsettled (Blocks.not_settles_free_free hsettles.length_freed_le block none)
      · -- the items of the body are never freed
        rcases activateEnd_cases hleft hsuccess hend with ⟨hsettles, -⟩ | ⟨block, rfl⟩
        · exact absurd hsettled (hsettles.not_settles_alloc hsettles.keep_ne)
        · have hle : heap.freed.length ≤ heap₁.freed.length := hleft.length_freed_le
          exact absurd hsettled (Blocks.not_settles_free_free hle block none)
  · rintro ⟨hrequest, hschema⟩
    obtain ⟨rt₁, response, heap₁, hparse, hsettles, hresult, hsuccess⟩ :=
      exists_ownParse_eq hrequest heap
    have hresults : ∀ r, response.result = some r → SchemaCond printsNull io r.2 :=
      fun r hr => hschema r.2 (hresult.symm.trans (congrArg (Option.map Prod.snd) hr))
    obtain ⟨rt, heap', hend, hsettled⟩ := exists_activateEnd_eq hsettles hsuccess hresults
    rw [ActivateSafe, clientActivateProcess, hparse]
    exact ⟨rt, heap', hend, hsettled⟩

end Activations

/-! ### A short result -/

/-- The text `{"result":"QUFB"}`. -/
def shortText : Bytes :=
  [123, 34, 114, 101, 115, 117, 108, 116, 34, 58, 34, 81, 85, 70, 66, 34, 125]

/-- The item `"QUFB"`, the base64 text of three bytes. -/
def shortItem : CJson := .mk .other (some [81, 85, 70, 66]) 0 []

def shortParser : CJsonParser where
  parse text :=
    if text = shortText then some (.mk .other none 0 [(some resultName, shortItem)]) else none
  length_valuestring_le {text root name item value} hroot hitem hvalue := by
    split_ifs at hroot with htext
    obtain rfl := Option.some.inj hroot
    have hshort : item = shortItem := by
      rw [CJson.getObjectItem, CJson.child, List.find?_singleton] at hitem
      split_ifs at hitem
      · exact (Option.some.inj hitem).symm
      · cases hitem
    rw [hshort] at hvalue
    obtain rfl := Option.some.inj hvalue
    rw [htext]
    decide

def shortAnswer : HttpAnswer where
  body := some (shortText ++ [0])
  bodyLength := shortText.length
  length_body mem hmem := by
    rw [← Option.some.inj hmem]
    rfl
  b64Alloc := true

/-- Three bytes are too short for a nonce and a tag: the length of the ciphertext is -25. -/
theorem not_requestSafe_shortAnswer :
    ownParse exampleAead shortParser true exampleKey shortAnswer .zero .empty =
        .error .cipherLength ∧
      ¬RequestSafe exampleAead shortParser true exampleKey shortAnswer .empty := by
  have hown : ownParse exampleAead shortParser true exampleKey shortAnswer .zero .empty =
      .error .cipherLength := by
    with_unfolding_all rfl
  refine ⟨hown, ?_⟩
  rintro ⟨rt, response, heap', hparse, -⟩
  rw [hown] at hparse
  cases hparse

end TuyaOpen.Cloud
