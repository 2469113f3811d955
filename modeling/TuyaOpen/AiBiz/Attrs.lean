import TuyaOpen.AiBiz.Session
import TuyaOpen.AiProtocol.UserAttrs

/-!
# Attributes of AI packets

The functions of `tuya_ai_biz.c` that read the attributes in front of the payload of a received
packet. There is one for each type of packet; all of them go through the attributes with
`tuya_ai_get_attr_value` and put the values that they know into a record. The loop need not end, as
the offset has 32 bits.

A value is read as the member of the union that the attribute should have, whatever its payload
type says. An integer that is read as a pointer leads to memory that may not be read, and the low
bits of a pointer are shown as 0.
-/

namespace TuyaOpen.AiBiz

open AiProtocol

/-! ### Types of packets -/

/-- `AI_PT_SESSION_CLOSE`. -/
def aiPtSessionClose : Nat := 8

/-- `AI_PT_VIDEO`. -/
def aiPtVideo : Nat := 30

/-- `AI_PT_AUDIO`. -/
def aiPtAudio : Nat := 31

/-- `AI_PT_IMAGE`. -/
def aiPtImage : Nat := 32

/-- `AI_PT_FILE`. -/
def aiPtFile : Nat := 33

/-- `AI_PT_TEXT`. -/
def aiPtText : Nat := 34

/-- `AI_PT_EVENT`. -/
def aiPtEvent : Nat := 35

theorem oprtInvalidParm_ne_ok : oprtInvalidParm ≠ oprtOk := by decide

/-- The code `OPRT_INVALID_PARM` that a parser returns. -/
def attrInvalidParm : AttrStop := .err ⟨oprtInvalidParm, oprtInvalidParm_ne_ok⟩

/-! ### Values -/

/-- `attr.value.u8`. -/
def attrU8 (a : AiAttribute) : Nat := a.scalar.toNat % 256

/-- `attr.value.u16`. -/
def attrU16 (a : AiAttribute) : Nat := a.scalar.toNat % 65536

/-- `attr.value.u32`. -/
def attrU32 (a : AiAttribute) : Nat := a.scalar.toNat % 4294967296

/-- `attr.value.u64`. -/
def attrU64 (a : AiAttribute) : Nat := a.scalar.toNat

/-- `attr.value.str` and `attr.value.bytes`: the memory from there on, and none for `NULL`. -/
def attrPtr (a : AiAttribute) : Option Bytes :=
  if a.payloadType = 5 ∨ a.payloadType = 6 then some a.mem
  else if a.scalar = 0 then none
  else some []

/-! ### Records -/

/-- `AI_ATTR_OPTION_T`. -/
structure AiAttrOption where
  userLen : Nat
  userData : Option Bytes
  sessionIdList : Option Bytes
  deriving DecidableEq

/-- `AI_VIDEO_ATTR_T`. -/
structure AiVideoAttr where
  codecType : Nat
  sampleRate : Nat
  width : Nat
  height : Nat
  fps : Nat
  option : AiAttrOption
  deriving DecidableEq

/-- `AI_AUDIO_ATTR_T`. -/
structure AiAudioAttr where
  codecType : Nat
  sampleRate : Nat
  channels : Nat
  bitDepth : Nat
  option : AiAttrOption
  deriving DecidableEq

/-- `AI_IMAGE_ATTR_T`. -/
structure AiImageAttr where
  format : Nat
  width : Nat
  height : Nat
  option : AiAttrOption
  deriving DecidableEq

/-- `AI_FILE_ATTR_T`. -/
structure AiFileAttr where
  format : Nat
  fileName : Bytes
  option : AiAttrOption
  deriving DecidableEq

/-- `AI_TEXT_ATTR_T`. -/
structure AiTextAttr where
  sessionIdList : Option Bytes
  deriving DecidableEq

/-- `AI_EVENT_ATTR_T`. -/
structure AiEventAttr where
  sessionId : Option Bytes
  eventId : Option Bytes
  endTs : Nat
  userLen : Nat
  userData : Option Bytes
  deriving DecidableEq

/-- `AI_SESSION_CLOSE_ATTR_T`. -/
structure AiSessionCloseAttr where
  id : Option Bytes
  code : Nat
  deriving DecidableEq

/-- `AI_BIZ_ATTR_VALUE_T`. -/
inductive AiBizAttrValue
  | zero
  | video (v : AiVideoAttr)
  | audio (v : AiAudioAttr)
  | image (v : AiImageAttr)
  | file (v : AiFileAttr)
  | text (v : AiTextAttr)
  | event (v : AiEventAttr)
  | close (v : AiSessionCloseAttr)
  deriving DecidableEq

/-- The option after `memset`. -/
def AiAttrOption.zero : AiAttrOption := ⟨0, none, none⟩

/-- The option after an attribute that the type of packet does not have. An unknown attribute is
skipped. -/
def AiAttrOption.set (o : AiAttrOption) (a : AiAttribute) : AiAttrOption :=
  if a.type = 111 then { o with userData := attrPtr a, userLen := a.length.toNat }
  else if a.type = 112 then { o with sessionIdList := attrPtr a }
  else o

/-! ### Parsing -/

/-- The loop of the parsers, in at most `fuel` rounds: `set` puts an attribute into the record. -/
def parseBizAttrLoop {α : Type} (set : α → AiAttribute → Except AttrStop α) (deBuf : Bytes)
    (attrLen : Nat) : Nat → Nat → α → Option (Except AttrStop α)
  | 0, _, _ => none
  | fuel + 1, offset, out =>
    if offset < attrLen then
      match tuyaAiGetAttrValue deBuf offset with
      | .error stop => some (.error stop)
      | .ok (attr, offset) =>
        match set out attr with
        | .error stop => some (.error stop)
        | .ok out => parseBizAttrLoop set deBuf attrLen fuel offset out
    else some (.ok out)

/-- `__ai_parse_video_attr`. -/
def aiParseVideoAttr (fuel : Nat) (deBuf : Bytes) (attrLen : Nat) :
    Option (Except AttrStop AiVideoAttr) :=
  parseBizAttrLoop (fun v a => .ok
      (if a.type = 71 then { v with codecType := attrU16 a }
      else if a.type = 72 then { v with sampleRate := attrU32 a }
      else if a.type = 73 then { v with width := attrU16 a }
      else if a.type = 74 then { v with height := attrU16 a }
      else if a.type = 75 then { v with fps := attrU16 a }
      else { v with option := v.option.set a }))
    deBuf attrLen fuel 0 ⟨0, 0, 0, 0, 0, .zero⟩

/-- `__ai_parse_audio_attr`. -/
def aiParseAudioAttr (fuel : Nat) (deBuf : Bytes) (attrLen : Nat) :
    Option (Except AttrStop AiAudioAttr) :=
  parseBizAttrLoop (fun v a => .ok
      (if a.type = 81 then { v with codecType := attrU16 a }
      else if a.type = 82 then { v with sampleRate := attrU32 a }
      else if a.type = 83 then { v with channels := attrU16 a }
      else if a.type = 84 then { v with bitDepth := attrU16 a }
      else { v with option := v.option.set a }))
    deBuf attrLen fuel 0 ⟨0, 0, 0, 0, .zero⟩

/-- `__ai_parse_image_attr`. -/
def aiParseImageAttr (fuel : Nat) (deBuf : Bytes) (attrLen : Nat) :
    Option (Except AttrStop AiImageAttr) :=
  parseBizAttrLoop (fun v a => .ok
      (if a.type = 91 then { v with format := attrU8 a }
      else if a.type = 92 then { v with width := attrU16 a }
      else if a.type = 93 then { v with height := attrU16 a }
      else { v with option := v.option.set a }))
    deBuf attrLen fuel 0 ⟨0, 0, 0, .zero⟩

/-- `sizeof(file->base.file_name)`. -/
def fileNameSize : Nat := 128

/-- A file name goes to the front of `file_name`. -/
def setFileName (v : AiFileAttr) (a : AiAttribute) : Except AttrStop AiFileAttr :=
  if fileNameSize < a.length.toNat then .error attrInvalidParm
  else
    match readSpan ((attrPtr a).getD []) 0 a.length.toNat with
    | none => .error (.fault .read)
    | some name => .ok { v with fileName := name ++ v.fileName.drop name.length }

/-- `__ai_parse_file_attr`. -/
def aiParseFileAttr (fuel : Nat) (deBuf : Bytes) (attrLen : Nat) :
    Option (Except AttrStop AiFileAttr) :=
  (parseBizAttrLoop (fun v a =>
      if a.type = 101 then .ok { v with format := attrU8 a }
      else if a.type = 102 then setFileName v a
      else .ok { v with option := v.option.set a })
    deBuf attrLen fuel 0 ⟨0, List.replicate fileNameSize 0, .zero⟩).map fun r => do
      let v ← r
      if v.fileName.headD 0 = 0 then .error attrInvalidParm else .ok v

/-- `__ai_parse_text_attr`. -/
def aiParseTextAttr (fuel : Nat) (deBuf : Bytes) (attrLen : Nat) :
    Option (Except AttrStop AiTextAttr) :=
  parseBizAttrLoop (fun v a => .ok
      (if a.type = 112 then { v with sessionIdList := attrPtr a } else v))
    deBuf attrLen fuel 0 ⟨none⟩

/-- `__ai_parse_event_attr`. -/
def aiParseEventAttr (fuel : Nat) (deBuf : Bytes) (attrLen : Nat) :
    Option (Except AttrStop AiEventAttr) :=
  (parseBizAttrLoop (fun v a => .ok
      (if a.type = 43 then { v with sessionId := attrPtr a }
      else if a.type = 61 then { v with eventId := attrPtr a }
      else if a.type = 111 then { v with userData := attrPtr a, userLen := a.length.toNat }
      else if a.type = 62 then { v with endTs := attrU64 a }
      else v))
    deBuf attrLen fuel 0 ⟨none, none, 0, 0, none⟩).map fun r => do
      let v ← r
      if v.eventId = none ∨ v.sessionId = none then .error attrInvalidParm else .ok v

/-- `__ai_parse_session_close_attr`. -/
def aiParseSessionCloseAttr (fuel : Nat) (deBuf : Bytes) (attrLen : Nat) :
    Option (Except AttrStop AiSessionCloseAttr) :=
  (parseBizAttrLoop (fun v a => .ok
      (if a.type = 43 then { v with id := attrPtr a }
      else if a.type = 51 then { v with code := attrU16 a }
      else v))
    deBuf attrLen fuel 0 ⟨none, 0⟩).map fun r => do
      let v ← r
      if v.id = none then .error attrInvalidParm else .ok v

/-- `__ai_parse_biz_attr`. -/
def aiParseBizAttr (fuel type : Nat) (attrBuf : Bytes) (attrLen : Nat) :
    Option (Except AttrStop AiBizAttrValue) :=
  if type = aiPtVideo then (aiParseVideoAttr fuel attrBuf attrLen).map fun r => r.map .video
  else if type = aiPtAudio then (aiParseAudioAttr fuel attrBuf attrLen).map fun r => r.map .audio
  else if type = aiPtImage then (aiParseImageAttr fuel attrBuf attrLen).map fun r => r.map .image
  else if type = aiPtFile then (aiParseFileAttr fuel attrBuf attrLen).map fun r => r.map .file
  else if type = aiPtText then (aiParseTextAttr fuel attrBuf attrLen).map fun r => r.map .text
  else if type = aiPtEvent then (aiParseEventAttr fuel attrBuf attrLen).map fun r => r.map .event
  else if type = aiPtSessionClose then
    (aiParseSessionCloseAttr fuel attrBuf attrLen).map fun r => r.map .close
  else some (.error attrInvalidParm)

end TuyaOpen.AiBiz
