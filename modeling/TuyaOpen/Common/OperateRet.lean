import Mathlib.Data.Int.Notation

/-!
# Return codes

The codes of `src/common/include/tuya_error_code.h` that the modelled functions return or
compare with. A function of the source that succeeds returns `OPRT_OK`; several functions also
return the number of bytes they have handled, so a return value is any integer.
-/

namespace TuyaOpen

/-- `OPERATE_RET`. -/
abbrev OperateRet := ℤ

/-- `OPRT_OK`. -/
def oprtOk : OperateRet := 0

/-- `OPRT_COM_ERROR`. -/
def oprtComError : OperateRet := -1

theorem oprtComError_ne_ok : oprtComError ≠ oprtOk := by decide

/-- `OPRT_INVALID_PARM`. -/
def oprtInvalidParm : OperateRet := -2

/-- `OPRT_MALLOC_FAILED`. -/
def oprtMallocFailed : OperateRet := -3

theorem oprtMallocFailed_ne_ok : oprtMallocFailed ≠ oprtOk := by decide

/-- `OPRT_NOT_SUPPORTED`. -/
def oprtNotSupported : OperateRet := -4

/-- `OPRT_NOT_FOUND`. -/
def oprtNotFound : OperateRet := -6

/-- `OPRT_CR_CJSON_ERR`. -/
def oprtCrCjsonErr : OperateRet := -7

/-- `OPRT_CJSON_PARSE_ERR`. -/
def oprtCjsonParseErr : OperateRet := -8

/-- `OPRT_CJSON_GET_ERR`. -/
def oprtCjsonGetErr : OperateRet := -9

theorem oprtCjsonGetErr_ne_ok : oprtCjsonGetErr ≠ oprtOk := by decide

/-- `OPRT_CR_MUTEX_ERR`. -/
def oprtCrMutexErr : OperateRet := -10

/-- `OPRT_RECV_ERR`. -/
def oprtRecvErr : OperateRet := -15

/-- `OPRT_KVS_WR_FAIL`. -/
def oprtKvsWrFail : OperateRet := -17

theorem oprtKvsWrFail_ne_ok : oprtKvsWrFail ≠ oprtOk := by decide

/-- `OPRT_KVS_RD_FAIL`. -/
def oprtKvsRdFail : OperateRet := -18

theorem oprtKvsRdFail_ne_ok : oprtKvsRdFail ≠ oprtOk := by decide

/-- `OPRT_TIMEOUT`. -/
def oprtTimeout : OperateRet := -20

/-- `OPRT_RESOURCE_NOT_READY`. -/
def oprtResourceNotReady : OperateRet := -23

/-- `OPRT_EXCEED_UPPER_LIMIT`. -/
def oprtExceedUpperLimit : OperateRet := -24

theorem oprtExceedUpperLimit_ne_ok : oprtExceedUpperLimit ≠ oprtOk := by decide

/-- `OPRT_BUFFER_NOT_ENOUGH`. -/
def oprtBufferNotEnough : OperateRet := -31

theorem oprtBufferNotEnough_ne_ok : oprtBufferNotEnough ≠ oprtOk := by decide

/-- `OPRT_VERSION_FMT_ERR`. -/
def oprtVersionFmtErr : OperateRet := -36

/-- `OPRT_SVC_DP_ID_NOT_FOUND`. -/
def oprtSvcDpIdNotFound : OperateRet := -3585

/-- `OPRT_SVC_DP_TP_NOT_MATCH`. -/
def oprtSvcDpTpNotMatch : OperateRet := -3586

/-- `OPRT_SVC_DP_TYPE_PROP_ILLEGAL`. -/
def oprtSvcDpTypePropIllegal : OperateRet := -3588

/-- `OPRT_SVC_LAN_SOCKET_FAULT`. -/
def oprtSvcLanSocketFault : OperateRet := -5376

/-- `OPRT_SVC_LAN_SEND_ERR`. -/
def oprtSvcLanSendErr : OperateRet := -5377

/-- `OPRT_BASE_EVENT_INVALID_EVENT_NAME`. -/
def oprtBaseEventInvalidEventName : OperateRet := -3840

/-- `OPRT_BASE_EVENT_INVALID_EVENT_DESC`. -/
def oprtBaseEventInvalidEventDesc : OperateRet := -3841

/-- `OPRT_SVC_BT_API_TRSMITR_CONTINUE`. -/
def oprtSvcBtApiTrsmitrContinue : OperateRet := -7936

/-- `OPRT_SVC_BT_API_TRSMITR_ERROR`. -/
def oprtSvcBtApiTrsmitrError : OperateRet := -7937

/-- `OPRT_SVC_DEVOS_SCMA_INVALID`. -/
def oprtSvcDevosScmaInvalid : OperateRet := -7169

/-- `OPRT_SVC_DEVOS_DEV_DP_CNT_INVALID`. -/
def oprtSvcDevosDevDpCntInvalid : OperateRet := -7170

/-- `OPRT_OS_ADAPTER_SEM_POST_FAILED`. -/
def oprtOsAdapterSemPostFailed : OperateRet := -26114

abbrev FailCode := { rt : OperateRet // rt ≠ oprtOk }

theorem exists_of_bind_eq_ok {ε α β : Type} {x : Except ε α} {f : α → Except ε β} {b : β}
    (h : (x >>= f) = .ok b) : ∃ a, x = .ok a ∧ f a = .ok b := by
  cases x with
  | error e => cases h
  | ok a => exact ⟨a, rfl, h⟩

end TuyaOpen
