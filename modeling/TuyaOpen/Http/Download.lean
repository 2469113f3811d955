import TuyaOpen.Basic.Bytes
import TuyaOpen.Basic.Transition
import Mathlib.Data.List.Chain
import Mathlib.Data.List.ReduceOption

/-!
# Downloading a file

`http_file_download` of `http_download.c` asks a server for the bytes of a file from a position on
and hands them to a handler as they come in. The handler may leave some of the last bytes, which are
moved to the front of the buffer and are handed out again in front of the next ones. When the
connection is lost, the next request starts behind the bytes that have been received.

What the network and the handler do in a round of the loop is an input. The server answers with the
bytes of the file from the position of the request on. `size_t` has 32 bits, as on the devices, and
the size of the file is a `size_t`.

Two sums can go wrong. The buffer has `range_length + 1` bytes, which is none at all for the largest
`range_length`. The positions of a request are turned into `int32_t`, and for the largest size of a
file the end of the range is read as `-1`, which makes the request one for the last bytes of the
file.
-/

namespace TuyaOpen.Http

/-! ### Requests -/

/-- The conversion of a `uint32_t` to `int32_t`. -/
def toInt32 (n : Nat) : ℤ := if u32 n < 2147483648 then u32 n else (u32 n : ℤ) - 4294967296

inductive RangeHeader
  /-- From a position on. -/
  | start (pos : Nat)
  /-- The last bytes of the file. -/
  | last (n : Nat)
  deriving DecidableEq

/-- `HTTPClient_AddRangeHeader`: none when the parameters are refused. The server does not look at
the end of a range. -/
def addRangeHeader (rangeStart rangeEnd : ℤ) : Option RangeHeader :=
  if rangeEnd < -1 then none
  else if rangeStart < 0 ∧ rangeEnd ≠ -1 then none
  else if rangeEnd ≠ -1 ∧ rangeEnd < rangeStart then none
  else if rangeStart = -2147483648 then none
  else if rangeStart < 0 then some (.last (-rangeStart).toNat)
  else some (.start rangeStart.toNat)

def answer (file : Bytes) : RangeHeader → Bytes
  | .start pos => file.drop pos
  | .last n => file.drop (file.length - n)

/-! ### The loop -/

/-- `http_download_state_t`, the states that are used. -/
inductive DlState
  | networkConnect
  | networkReconnect
  | filesizeGet
  | rangeRequest
  | dateGet
  | complete
  deriving DecidableEq

/-- `http_download_event_t` of a `DL_EVENT_ON_DATA`. -/
structure DataEvent where
  offset : Nat
  data : Bytes
  /-- `remain_len` when the handler has returned. -/
  remainLen : Nat
  deriving DecidableEq

inductive DlEvent
  | onFilesize (fileSize : Nat)
  | onData (event : DataEvent)
  | finish
  deriving DecidableEq

/-- `http_download_t`, with what is left of the body of the response on the connection. -/
structure Download where
  rangeLength : Nat
  handler : Bool
  fileSize : Nat
  receivedSize : Nat
  remainLen : Nat
  state : DlState
  buffer : Bytes
  body : Bytes
  isCompleted : Bool

/-- `http_download_config_t`. -/
structure DlConfig where
  rangeLength : Nat
  fileSize : Nat
  handler : Bool

/-- `RANGE_REQUEST_LENGTH_DEFAULT`. -/
def rangeRequestLengthDefault : Nat := 8 * 1024

def DlConfig.length (config : DlConfig) : Nat :=
  if config.rangeLength = 0 then rangeRequestLengthDefault else config.rangeLength

def DlConfig.bufferSize (config : DlConfig) : Nat := u32 (config.length + 1)

def Download.init (config : DlConfig) (buffer : Bytes) : Download where
  rangeLength := config.length
  handler := config.handler
  fileSize := config.fileSize
  receivedSize := 0
  remainLen := 0
  state := .networkConnect
  buffer := buffer
  body := []
  isCompleted := false

/-- What the network and the handler do in a round of the loop. -/
structure DlInput where
  /-- `tuya_transporter_connect` succeeds. -/
  connect : Bool
  /-- `http_download_filesize_get` succeeds. -/
  filesize : Bool
  /-- The request of a range succeeds. -/
  request : Bool
  /-- What `HTTPClient_Recv` returns. -/
  readSize : ℤ
  /-- What the handler leaves in `remain_len`. -/
  remainLen : Nat

/-- The call of the handler for data, and the move of the bytes that it leaves: none when the event
or the move leaves the buffer. -/
def onData (s : Download) (readSize : Nat) (left : Nat) : Option (Option DlEvent × Download) :=
  if s.handler = false then some (none, s)
  else
    let dataLen := u32 (readSize + s.remainLen)
    let offset := u32Sub s.receivedSize s.remainLen
    (readSpan s.buffer 0 dataLen).bind fun data =>
      (if left = 0 then some s.buffer
        else (readSpan s.buffer (u32Sub dataLen left) left).bind fun kept =>
          memcpy s.buffer 0 kept).map fun buffer =>
        (some (.onData ⟨offset, data, left⟩),
          { s with
            buffer := buffer
            remainLen := left
            receivedSize := u32 (s.receivedSize + readSize) })

/-- `DL_STATE_DATE_GET`: none when a write leaves the buffer. -/
def dateGet (s : Download) (input : DlInput) : Option (Option DlEvent × Download) :=
  if input.readSize ≤ 0 then some (none, { s with state := .networkReconnect })
  else
    let readSize := input.readSize.toNat
    (memcpy s.buffer s.remainLen (s.body.take readSize)).bind fun buffer =>
      (onData { s with buffer := buffer, body := s.body.drop readSize } readSize
          input.remainLen).map fun r =>
        (r.1, if r.2.fileSize ≤ r.2.receivedSize then { r.2 with state := .complete } else r.2)

/-- One round of the loop: the event, and the state after it. A loop that is done does nothing. -/
def downloadStep (file : Bytes) (s : Download) (input : DlInput) :
    Option (Option DlEvent × Download) :=
  if s.isCompleted then some (none, s)
  else
    match s.state with
    | .networkConnect =>
      some (none, { s with state := if input.connect then .filesizeGet else .networkReconnect })
    | .filesizeGet =>
      if s.fileSize = 0 ∧ input.filesize = false then
        some (none, { s with state := .networkReconnect })
      else
        let fileSize := if s.fileSize = 0 then file.length else s.fileSize
        some (if s.handler then some (.onFilesize fileSize) else none,
          { s with fileSize := fileSize, state := .rangeRequest })
    | .rangeRequest =>
      match addRangeHeader (toInt32 s.receivedSize) (toInt32 s.fileSize) with
      | none => some (none, { s with state := .networkReconnect })
      | some header =>
        if input.request = false then some (none, { s with state := .networkReconnect })
        else dateGet { s with body := answer file header, state := .dateGet } input
    | .dateGet => dateGet s input
    | .networkReconnect => some (none, { s with state := .networkConnect, body := [] })
    | .complete =>
      some (if s.handler then some .finish else none, { s with isCompleted := true })

def downloadNext (file : Bytes) (s : Download) (input : DlInput) : Download :=
  match downloadStep file s input with
  | none => s
  | some r => r.2

/-! ### Runs -/

def Download.bodyOf (file : Bytes) (s : Download) : Bytes :=
  match s.state with
  | .rangeRequest =>
    ((addRangeHeader (toInt32 s.receivedSize) (toInt32 s.fileSize)).map (answer file)).getD []
  | _ => s.body

/-- `HTTPClient_Recv` returns at most the number of bytes that are asked for and that are there, and
the handler leaves at most what it was given. -/
def Permitted (file : Bytes) (s : Download) (input : DlInput) : Prop :=
  input.readSize.toNat ≤ u32Sub s.rangeLength s.remainLen ∧
    input.readSize.toNat ≤ (s.bodyOf file).length ∧
    input.remainLen ≤ input.readSize.toNat + s.remainLen

/-- A request is one for the bytes from the position on: the end of the range is not read as `-1`
with a start that is read as negative. -/
def Clear (s : Download) : Prop :=
  ¬(s.state = .rangeRequest ∧ s.fileSize = 4294967295 ∧ 2147483648 < s.receivedSize)

def Cond (file : Bytes) (s : Download) (input : DlInput) : Prop :=
  Permitted file s input ∧ Clear s

instance instDecidablePermitted (file : Bytes) (s : Download) (input : DlInput) :
    Decidable (Permitted file s input) :=
  inferInstanceAs (Decidable (_ ∧ _ ∧ _))

instance instDecidableCond (file : Bytes) (s : Download) (input : DlInput) :
    Decidable (Cond file s input) :=
  inferInstanceAs (Decidable (_ ∧ ¬(_ ∧ _ ∧ _)))

def dataEvents (evs : List DlEvent) : List DataEvent :=
  evs.filterMap fun ev =>
    match ev with
    | .onData event => some event
    | _ => none

def DataEvent.Covers (event : DataEvent) (i : Nat) : Prop :=
  event.offset ≤ i ∧ i < event.offset + event.data.length

/-- The file is presented exactly: every event carries the bytes of the file at its offset, the next
event starts where the handler has left off, and the end comes only after every byte. -/
structure Exact (file : Bytes) (evs : List DlEvent) : Prop where
  data : ∀ event ∈ dataEvents evs, event.offset + event.data.length ≤ file.length ∧
    event.data = slice file event.offset event.data.length
  next : (dataEvents evs).IsChain fun event event' =>
    event'.offset = event.offset + event.data.length - event.remainLen
  finish : ∀ before, before ++ [.finish] <+: evs →
    ∀ i < file.length, ∃ event ∈ dataEvents before, event.Covers i

/-- Events that deliver the bytes of a file from a position on, each from where the handler has left
off, and the position where it has left off after them. -/
inductive Delivers (file : Bytes) : Nat → List DataEvent → Nat → Prop
  | nil (pos : Nat) : Delivers file pos [] pos
  | cons {event : DataEvent} {events : List DataEvent} {pos' : Nat} :
      event.offset + event.data.length ≤ file.length →
      event.data = slice file event.offset event.data.length →
      event.remainLen ≤ event.data.length →
      Delivers file (event.offset + event.data.length - event.remainLen) events pos' →
      Delivers file event.offset (event :: events) pos'

theorem Delivers.concat {file : Bytes} {pos pos' : Nat} {events : List DataEvent}
    (h : Delivers file pos events pos') {event : DataEvent} (hoffset : event.offset = pos')
    (hle : event.offset + event.data.length ≤ file.length)
    (hdata : event.data = slice file event.offset event.data.length)
    (hremain : event.remainLen ≤ event.data.length) :
    Delivers file pos (events ++ [event])
      (event.offset + event.data.length - event.remainLen) := by
  induction h with
  | nil pos =>
    subst hoffset
    exact .cons hle hdata hremain (.nil _)
  | cons hle' hdata' hremain' _ ih => exact .cons hle' hdata' hremain' (ih hoffset)

/-! ### The position -/

section Position

variable {file : Bytes} {s : Download} {input : DlInput}

theorem answer_eq_drop {header : RangeHeader} {received size : Nat} (hle : received ≤ size)
    (hsize : size < 4294967296) (hclear : ¬(size = 4294967295 ∧ 2147483648 < received))
    (h : addRangeHeader (toInt32 received) (toInt32 size) = some header) :
    answer file header = file.drop received := by
  have hreceived : u32 received = received := u32_of_lt (by omega)
  have hsize' : u32 size = size := u32_of_lt hsize
  by_cases hsmall : received < 2147483648
  · have hpos : ¬((received : ℤ) < 0) := by omega
    have hmin : (received : ℤ) ≠ -2147483648 := by omega
    rw [toInt32, hreceived, if_pos hsmall, addRangeHeader, if_neg hmin, if_neg hpos] at h
    split_ifs at h
    obtain rfl := Option.some.inj h
    rw [answer, Int.toNat_natCast]
  · -- the end of the range is negative too, so that it is -1 and the start is refused
    have hend : toInt32 size = (size : ℤ) - 4294967296 := by
      rw [toInt32, hsize', if_neg (by omega)]
    rw [toInt32, hreceived, if_neg hsmall, hend, addRangeHeader] at h
    by_cases hmax : size = 4294967295
    · rw [if_neg (by omega), if_neg (by omega), if_neg (by omega), if_pos (by omega)] at h
      cases h
    · rw [if_pos (by omega)] at h
      cases h

/-- The position, the buffer and the connection are in step. -/
structure InStep (file : Bytes) (s : Download) : Prop where
  length_buffer : s.buffer.length = s.rangeLength + 1
  rangeLength_lt : s.rangeLength < 4294967295
  remainLen_le : s.remainLen ≤ s.rangeLength
  remainLen_le_receivedSize : s.remainLen ≤ s.receivedSize
  receivedSize_le : s.receivedSize ≤ file.length
  kept : s.buffer.take s.remainLen = slice file (s.receivedSize - s.remainLen) s.remainLen
  body : s.state = .dateGet → s.handler = true → s.body = file.drop s.receivedSize
  fileSize : s.fileSize = 0 ∨ s.fileSize = file.length
  known : s.state = .rangeRequest ∨ s.state = .dateGet ∨ s.state = .complete →
    s.fileSize = file.length
  complete : s.state = .complete → s.handler = true → s.receivedSize = file.length

theorem exists_onData_eq {readSize left : Nat} (hhandler : s.handler = true)
    (hfile : file.length < 4294967296) (hbuffer : s.buffer.length = s.rangeLength + 1)
    (hrange : s.rangeLength < 4294967295) (hremain : s.remainLen ≤ s.receivedSize)
    (hreceived : s.receivedSize + readSize ≤ file.length)
    (hread : readSize + s.remainLen ≤ s.rangeLength) (hleft : left ≤ readSize + s.remainLen)
    (hdata : s.buffer.take (s.remainLen + readSize) =
      slice file (s.receivedSize - s.remainLen) (s.remainLen + readSize)) :
    ∃ buffer,
      onData s readSize left = some
        (some (.onData ⟨s.receivedSize - s.remainLen,
            slice file (s.receivedSize - s.remainLen) (s.remainLen + readSize), left⟩),
          { s with
            buffer := buffer
            remainLen := left
            receivedSize := s.receivedSize + readSize }) ∧
      buffer.length = s.buffer.length ∧
      buffer.take left = slice file (s.receivedSize + readSize - left) left := by
  have hlen : u32 (readSize + s.remainLen) = s.remainLen + readSize := by
    rw [u32_of_lt (by omega), Nat.add_comm]
  have hoffset : u32Sub s.receivedSize s.remainLen = s.receivedSize - s.remainLen :=
    u32Sub_of_le (by omega) hremain
  have hspan : readSpan s.buffer 0 (s.remainLen + readSize) =
      some (slice file (s.receivedSize - s.remainLen) (s.remainLen + readSize)) := by
    rw [readSpan_of_le (by omega), slice_zero, hdata]
  have hreceived' : u32 (s.receivedSize + readSize) = s.receivedSize + readSize :=
    u32_of_lt (by omega)
  rw [onData, if_neg (by simp [hhandler])]
  dsimp only
  rw [hlen, hoffset, hspan, Option.bind_some, hreceived']
  by_cases hzero : left = 0
  · subst hzero
    refine ⟨s.buffer, ?_, rfl, ?_⟩
    · rw [if_pos rfl, Option.map_some]
    · rw [slice, List.take_zero, List.take_zero]
  · have hsub : u32Sub (s.remainLen + readSize) left = s.remainLen + readSize - left :=
      u32Sub_of_le (by omega) (by omega)
    have hkept : slice s.buffer (s.remainLen + readSize - left) left =
        slice file (s.receivedSize + readSize - left) left := by
      have hslice := @slice_slice _ s.buffer 0 (s.remainLen + readSize)
        (s.remainLen + readSize - left) left (by omega)
      rw [slice_zero, hdata, slice_slice (by omega), Nat.zero_add] at hslice
      rw [← hslice]
      congr 1
      omega
    have hlength : (slice file (s.receivedSize + readSize - left) left).length = left :=
      length_slice (by omega)
    refine ⟨slice file (s.receivedSize + readSize - left) left ++ s.buffer.drop left, ?_, ?_, ?_⟩
    · rw [if_neg hzero, hsub, readSpan_of_le (by omega), Option.bind_some, hkept,
        memcpy_of_le (by omega), hlength, List.take_zero, List.nil_append, Nat.zero_add,
        Option.map_some]
    · rw [List.length_append, hlength, List.length_drop]
      omega
    · rw [List.take_left' hlength]

/-- The events of a round, and the positions before and after it. -/
inductive Presents (file : Bytes) (s s' : Download) : Option DlEvent → Prop
  /-- Nothing that is about data. -/
  | none : s'.receivedSize = s.receivedSize → s'.remainLen = s.remainLen →
      Presents file s s' none
  | filesize (n : Nat) : s'.receivedSize = s.receivedSize → s'.remainLen = s.remainLen →
      Presents file s s' (some (.onFilesize n))
  /-- The bytes from the ones that the handler has left on. -/
  | data (n left : Nat) : s.remainLen ≤ s.receivedSize → s.receivedSize + n ≤ file.length →
      left ≤ s.remainLen + n → s'.receivedSize = s.receivedSize + n → s'.remainLen = left →
      Presents file s s' (some (.onData ⟨s.receivedSize - s.remainLen,
        slice file (s.receivedSize - s.remainLen) (s.remainLen + n), left⟩))
  /-- The end, after the whole file. -/
  | finish : s.receivedSize = file.length → s'.receivedSize = s.receivedSize →
      s'.remainLen = s.remainLen → Presents file s s' (some .finish)

/-- The state when `n` bytes have come in behind those that the handler has left. -/
def Download.fill (s : Download) (n : Nat) : Download :=
  { s with
    buffer := s.buffer.take s.remainLen ++ s.body.take n ++ s.buffer.drop (s.remainLen + n)
    body := s.body.drop n }

/-- The state after the handler: a download that has the whole file is complete. -/
def Download.settle (s : Download) : Download :=
  if s.fileSize ≤ s.receivedSize then { s with state := .complete } else s

@[simp] theorem Download.receivedSize_settle (s : Download) :
    s.settle.receivedSize = s.receivedSize := by
  rw [settle]
  split <;> rfl

@[simp] theorem Download.remainLen_settle (s : Download) : s.settle.remainLen = s.remainLen := by
  rw [settle]
  split <;> rfl

theorem InStep.settle (h : InStep file s) (hsize : s.fileSize = file.length) :
    InStep file s.settle := by
  have hreceived := h.receivedSize_le
  rw [Download.settle]
  split
  · exact { h with
      body := by simp
      known := fun _ => hsize
      complete := fun _ _ => by dsimp only; omega }
  · exact h

theorem dateGet_of_pos (hpos : ¬input.readSize ≤ 0) (hbuffer : s.buffer.length = s.rangeLength + 1)
    (hread : s.remainLen + input.readSize.toNat ≤ s.rangeLength)
    (hbody : input.readSize.toNat ≤ s.body.length) :
    dateGet s input = (onData (s.fill input.readSize.toNat) input.readSize.toNat
      input.remainLen).map fun r => (r.1, r.2.settle) := by
  have htake : (s.body.take input.readSize.toNat).length = input.readSize.toNat :=
    List.length_take_of_le hbody
  rw [dateGet, if_neg hpos]
  dsimp only
  rw [memcpy_of_le (by omega), Option.bind_some, htake, Download.fill]
  rfl

theorem InStep.take_fill (h : InStep file s) {n : Nat} (hbody : s.body = file.drop s.receivedSize)
    (hn : n ≤ s.body.length) :
    (s.fill n).buffer.take (s.remainLen + n) =
      slice file (s.receivedSize - s.remainLen) (s.remainLen + n) := by
  have hlength := h.length_buffer
  have hremain := h.remainLen_le
  have hkeptLen : (s.buffer.take s.remainLen).length = s.remainLen :=
    List.length_take_of_le (by omega)
  have htake : (s.body.take n).length = n := List.length_take_of_le hn
  rw [Download.fill, List.take_left' (by rw [List.length_append, hkeptLen, htake]), h.kept, hbody,
    slice_add, Nat.sub_add_cancel h.remainLen_le_receivedSize]
  rfl

theorem InStep.length_fill (h : InStep file s) {n : Nat} (hread : s.remainLen + n ≤ s.rangeLength)
    (hn : n ≤ s.body.length) : (s.fill n).buffer.length = s.rangeLength + 1 := by
  have hlength := h.length_buffer
  have htake : (s.body.take n).length = n := List.length_take_of_le hn
  rw [Download.fill]
  simp only [List.length_append, List.length_take, htake, List.length_drop]
  omega

theorem InStep.onData_fill (h : InStep file s) (hstate : s.state = .dateGet)
    (hhandler : s.handler = true) (hfile : file.length < 4294967296) {n left : Nat}
    (hread : s.remainLen + n ≤ s.rangeLength) (hn : n ≤ s.body.length)
    (hleft : left ≤ n + s.remainLen) :
    ∃ o s', onData (s.fill n) n left = some (o, s') ∧ InStep file s'.settle ∧
      Presents file s s'.settle o := by
  have hrange := h.rangeLength_lt
  have hle := h.remainLen_le_receivedSize
  have hreceived := h.receivedSize_le
  have hsize := h.known (Or.inr (Or.inl hstate))
  have hbody := h.body hstate hhandler
  have hbodyLen : n ≤ file.length - s.receivedSize := by
    rwa [hbody, List.length_drop] at hn
  obtain ⟨buffer, honData, hbuffer, hkept⟩ :=
    @exists_onData_eq file (s.fill n) n left hhandler hfile (h.length_fill hread hn) hrange hle
      (by dsimp only [Download.fill]; omega) (by dsimp only [Download.fill]; omega) hleft
      (h.take_fill hbody hn)
  rw [h.length_fill hread hn] at hbuffer
  dsimp only [Download.fill] at hkept
  refine ⟨_, _, honData, InStep.settle ?_ hsize, ?_⟩
  · exact
      { length_buffer := hbuffer
        rangeLength_lt := hrange
        remainLen_le := by dsimp only [Download.fill]; omega
        remainLen_le_receivedSize := by dsimp only [Download.fill]; omega
        receivedSize_le := by dsimp only [Download.fill]; omega
        kept := hkept
        body := fun _ _ => by
          dsimp only [Download.fill]
          rw [hbody, List.drop_drop]
        fileSize := h.fileSize
        known := fun _ => hsize
        complete := fun hcomplete _ => by
          dsimp only [Download.fill] at hcomplete
          rw [hstate] at hcomplete
          cases hcomplete }
  · exact .data n left hle (by omega) (by omega) (Download.receivedSize_settle _)
      (Download.remainLen_settle _)

theorem InStep.quiet_fill (h : InStep file s) (hstate : s.state = .dateGet)
    (hhandler : s.handler = false) {n : Nat} (hread : s.remainLen + n ≤ s.rangeLength)
    (hn : n ≤ s.body.length) : InStep file (s.fill n).settle := by
  have hlength := h.length_buffer
  have hremain := h.remainLen_le
  have hnot : ¬s.handler = true := by
    rw [hhandler]
    exact Bool.false_ne_true
  have hkeptLen : (s.buffer.take s.remainLen).length = s.remainLen :=
    List.length_take_of_le (by omega)
  refine InStep.settle ?_ (h.known (Or.inr (Or.inl hstate)))
  exact { h with
    length_buffer := h.length_fill hread hn
    kept := by
      dsimp only [Download.fill]
      rw [List.append_assoc, List.take_left' hkeptLen]
      exact h.kept
    body := fun _ htrue => absurd htrue hnot
    complete := fun _ htrue => absurd htrue hnot }

theorem InStep.dateGet (h : InStep file s) (hstate : s.state = .dateGet)
    (hfile : file.length < 4294967296)
    (hread : input.readSize.toNat ≤ u32Sub s.rangeLength s.remainLen)
    (hbody : input.readSize.toNat ≤ s.body.length)
    (hleft : input.remainLen ≤ input.readSize.toNat + s.remainLen) :
    ∃ o s', dateGet s input = some (o, s') ∧ InStep file s' ∧ Presents file s s' o := by
  have hrange := h.rangeLength_lt
  have hremain := h.remainLen_le
  rw [u32Sub_of_le (by omega) hremain] at hread
  by_cases hpos : input.readSize ≤ 0
  · rw [Http.dateGet, if_pos hpos]
    refine ⟨_, _, rfl, { h with body := ?_, known := ?_, complete := ?_ }, .none rfl rfl⟩
    all_goals simp
  have hfits : s.remainLen + input.readSize.toNat ≤ s.rangeLength := by omega
  rw [dateGet_of_pos hpos h.length_buffer hfits hbody]
  cases hhandler : s.handler with
  | true =>
    obtain ⟨o, s', honData, hinv, hpresents⟩ :=
      h.onData_fill hstate hhandler hfile hfits hbody hleft
    rw [honData, Option.map_some]
    exact ⟨o, s'.settle, rfl, hinv, hpresents⟩
  | false =>
    have hquiet : onData (s.fill input.readSize.toNat) input.readSize.toNat input.remainLen =
        some (none, s.fill input.readSize.toNat) := if_pos hhandler
    rw [hquiet, Option.map_some]
    exact ⟨none, _, rfl, h.quiet_fill hstate hhandler hfits hbody,
      .none (Download.receivedSize_settle _) (Download.remainLen_settle _)⟩

theorem InStep.goto (h : InStep file s) {state : DlState} (hrange : state ≠ .rangeRequest)
    (hget : state ≠ .dateGet) (hcomplete : state ≠ .complete) (body : Bytes) :
    InStep file { s with state := state, body := body } :=
  { h with
    body := fun heq => absurd heq hget
    known := by
      rintro (heq | heq | heq)
      · exact absurd heq hrange
      · exact absurd heq hget
      · exact absurd heq hcomplete
    complete := fun heq => absurd heq hcomplete }

theorem InStep.toRange (h : InStep file s) {n : Nat} (hn : n = file.length) :
    InStep file { s with fileSize := n, state := .rangeRequest } :=
  { h with
    body := by simp
    fileSize := Or.inr hn
    known := fun _ => hn
    complete := by simp }

theorem InStep.filesizeGet (h : InStep file s) :
    InStep file { s with
      fileSize := if s.fileSize = 0 then file.length else s.fileSize, state := .rangeRequest } := by
  refine h.toRange ?_
  split_ifs with hzero
  · rfl
  · exact h.fileSize.resolve_left hzero

theorem Presents.congr {t s' : Download} {o : Option DlEvent} (h : Presents file s s' o)
    (hreceived : t.receivedSize = s.receivedSize) (hremain : t.remainLen = s.remainLen) :
    Presents file t s' o := by
  cases h with
  | none h₁ h₂ => exact .none (h₁.trans hreceived.symm) (h₂.trans hremain.symm)
  | filesize n h₁ h₂ => exact .filesize n (h₁.trans hreceived.symm) (h₂.trans hremain.symm)
  | data n left h₁ h₂ h₃ h₄ h₅ =>
    rw [← hreceived] at h₁ h₂ h₄ ⊢
    rw [← hremain] at h₁ h₃ ⊢
    exact .data n left h₁ h₂ h₃ h₄ h₅
  | finish h₁ h₂ h₃ =>
    exact .finish (hreceived.trans h₁) (h₂.trans hreceived.symm) (h₃.trans hremain.symm)

theorem InStep.rangeRequest (h : InStep file s) (hstate : s.state = .rangeRequest)
    (hfile : file.length < 4294967296) (hclear : Clear s) {header : RangeHeader}
    (hheader : addRangeHeader (toInt32 s.receivedSize) (toInt32 s.fileSize) = some header)
    (hread : input.readSize.toNat ≤ u32Sub s.rangeLength s.remainLen)
    (hbody : input.readSize.toNat ≤ (answer file header).length)
    (hleft : input.remainLen ≤ input.readSize.toNat + s.remainLen) :
    ∃ o s', Http.dateGet { s with body := answer file header, state := .dateGet } input =
      some (o, s') ∧ InStep file s' ∧ Presents file s s' o := by
  have hsize := h.known (Or.inl hstate)
  have hanswer : answer file header = file.drop s.receivedSize :=
    answer_eq_drop (hsize ▸ h.receivedSize_le) (hsize ▸ hfile)
      (fun hbad => hclear ⟨hstate, hbad⟩) hheader
  have hnew : InStep file { s with body := answer file header, state := .dateGet } :=
    { h with
      body := fun _ _ => hanswer
      known := fun _ => hsize
      complete := by simp }
  obtain ⟨o, s', heq, hinv, hpresents⟩ := hnew.dateGet rfl hfile hread hbody hleft
  exact ⟨o, s', heq, hinv, hpresents.congr rfl rfl⟩

/-- **A round.** No write leaves the buffer, and the position, the buffer and the connection stay in
step. -/
theorem InStep.step (h : InStep file s) (hfile : file.length < 4294967296)
    (hcond : Cond file s input) :
    ∃ o, downloadStep file s input = some (o, downloadNext file s input) ∧
      InStep file (downloadNext file s input) ∧ Presents file s (downloadNext file s input) o := by
  suffices hstep : ∃ o s', downloadStep file s input = some (o, s') ∧ InStep file s' ∧
      Presents file s s' o by
    obtain ⟨o, s', heq, hinv, hpresents⟩ := hstep
    rw [downloadNext, heq]
    exact ⟨o, rfl, hinv, hpresents⟩
  obtain ⟨⟨hread, hbody, hleft⟩, hclear⟩ := hcond
  have hreconnect : InStep file { s with state := .networkReconnect } :=
    h.goto (by decide) (by decide) (by decide) s.body
  rw [downloadStep]
  by_cases hcompleted : s.isCompleted = true
  · rw [if_pos hcompleted]
    exact ⟨_, _, rfl, h, .none rfl rfl⟩
  rw [if_neg hcompleted]
  cases hstate : s.state with
  | networkConnect =>
    refine ⟨_, _, rfl, ?_, .none rfl rfl⟩
    split_ifs
    · exact h.goto (by decide) (by decide) (by decide) s.body
    · exact hreconnect
  | networkReconnect =>
    exact ⟨_, _, rfl, h.goto (by decide) (by decide) (by decide) [], .none rfl rfl⟩
  | filesizeGet =>
    dsimp only
    by_cases hfail : s.fileSize = 0 ∧ input.filesize = false
    · rw [if_pos hfail]
      exact ⟨_, _, rfl, hreconnect, .none rfl rfl⟩
    · rw [if_neg hfail]
      refine ⟨_, _, rfl, h.filesizeGet, ?_⟩
      by_cases hhandler : s.handler = true
      · rw [if_pos hhandler]
        exact .filesize _ rfl rfl
      · rw [if_neg hhandler]
        exact .none rfl rfl
  | rangeRequest =>
    dsimp only
    cases hheader : addRangeHeader (toInt32 s.receivedSize) (toInt32 s.fileSize) with
    | none => exact ⟨_, _, rfl, hreconnect, .none rfl rfl⟩
    | some header =>
      dsimp only
      by_cases hrequest : input.request = false
      · rw [if_pos hrequest]
        exact ⟨_, _, rfl, hreconnect, .none rfl rfl⟩
      · rw [if_neg hrequest]
        rw [Download.bodyOf, hstate] at hbody
        dsimp only at hbody
        rw [hheader] at hbody
        exact h.rangeRequest hstate hfile hclear hheader hread hbody hleft
  | dateGet =>
    rw [Download.bodyOf, hstate] at hbody
    exact h.dateGet hstate hfile hread hbody hleft
  | complete =>
    refine ⟨_, _, rfl, { h with body := by simp, known := ?_, complete := ?_ }, ?_⟩
    · exact fun _ => h.known (Or.inr (Or.inr hstate))
    · exact fun _ => h.complete hstate
    · by_cases hhandler : s.handler = true
      · rw [if_pos hhandler]
        exact .finish (h.complete hstate hhandler) rfl rfl
      · rw [if_neg hhandler]
        exact .none rfl rfl

end Position

/-! ### The events -/

section Events

variable {file : Bytes} {s s' : Download} {evs : List DlEvent} {o : Option DlEvent}

structure Presented (file : Bytes) (s : Download) (evs : List DlEvent) : Prop
    extends Exact file evs where
  /-- The next event starts where the handler has left off. -/
  last : ∀ event, (dataEvents evs).getLast? = some event →
    s.receivedSize - s.remainLen = event.offset + event.data.length - event.remainLen
  covered : ∀ i < s.receivedSize, ∃ event ∈ dataEvents evs, event.Covers i
  delivers : Delivers file 0 (dataEvents evs) (s.receivedSize - s.remainLen)

theorem dataEvents_append_of_ne {ev : DlEvent} (h : ∀ event, ev ≠ .onData event) :
    dataEvents (evs ++ [ev]) = dataEvents evs := by
  cases ev with
  | onData event => exact absurd rfl (h event)
  | onFilesize n => simp [dataEvents]
  | finish => simp [dataEvents]

theorem dataEvents_append_onData (evs : List DlEvent) (event : DataEvent) :
    dataEvents (evs ++ [.onData event]) = dataEvents evs ++ [event] := by
  simp [dataEvents]

theorem Exact.finish_append (h : Exact file evs) {ev : DlEvent} (hne : ev ≠ .finish)
    {before : List DlEvent} (hbefore : before ++ [.finish] <+: evs ++ [ev]) :
    ∀ i < file.length, ∃ event ∈ dataEvents before, event.Covers i := by
  rcases List.prefix_concat_iff.1 hbefore with heq | hpre
  · exact absurd (List.append_inj_right' heq rfl) (by simpa using hne.symm)
  · exact h.finish before hpre

theorem Presented.append_of_eq (h : Presented file s evs) {ev : DlEvent}
    (hdata : dataEvents (evs ++ [ev]) = dataEvents evs)
    (hreceived : s'.receivedSize = s.receivedSize) (hremain : s'.remainLen = s.remainLen)
    (hfinish : ∀ before, before ++ [.finish] <+: evs ++ [ev] →
      ∀ i < file.length, ∃ event ∈ dataEvents before, event.Covers i) :
    Presented file s' (evs ++ [ev]) := by
  refine ⟨⟨?_, ?_, hfinish⟩, ?_, ?_, ?_⟩
  · rw [hdata]
    exact h.data
  · rw [hdata]
    exact h.next
  · rw [hdata, hreceived, hremain]
    exact h.last
  · rw [hdata, hreceived]
    exact h.covered
  · rw [hdata, hreceived, hremain]
    exact h.delivers

theorem Presented.append_onData (h : Presented file s evs) {n left : Nat}
    (hle : s.remainLen ≤ s.receivedSize) (hfile : s.receivedSize + n ≤ file.length)
    (hleft : left ≤ s.remainLen + n) (hreceived : s'.receivedSize = s.receivedSize + n)
    (hremain : s'.remainLen = left) :
    Presented file s' (evs ++ [.onData ⟨s.receivedSize - s.remainLen,
      slice file (s.receivedSize - s.remainLen) (s.remainLen + n), left⟩]) := by
  have hlength : (slice file (s.receivedSize - s.remainLen) (s.remainLen + n)).length =
      s.remainLen + n := length_slice (by omega)
  refine ⟨⟨?_, ?_, fun before => h.finish_append (by simp)⟩, ?_, ?_, ?_⟩
  · rw [dataEvents_append_onData]
    intro event hevent
    rcases List.mem_append.1 hevent with hevent | hevent
    · exact h.data event hevent
    · rw [List.mem_singleton.1 hevent, hlength]
      exact ⟨by dsimp only; omega, rfl⟩
  · rw [dataEvents_append_onData, List.isChain_append]
    refine ⟨h.next, List.isChain_singleton _, fun event hevent event' hevent' => ?_⟩
    obtain rfl : _ = event' := by simpa using hevent'
    exact h.last event hevent
  · rw [dataEvents_append_onData]
    intro event hevent
    obtain rfl : _ = event := by simpa using hevent
    dsimp only
    rw [hreceived, hremain, hlength]
    omega
  · rw [dataEvents_append_onData, hreceived]
    intro i hi
    by_cases hold : i < s.receivedSize
    · obtain ⟨event, hevent, hcovers⟩ := h.covered i hold
      exact ⟨event, List.mem_append_left _ hevent, hcovers⟩
    · refine ⟨_, List.mem_append_right _ List.mem_cons_self, ?_⟩
      rw [DataEvent.Covers]
      dsimp only
      rw [hlength]
      omega
  · have hpos : s'.receivedSize - s'.remainLen =
        s.receivedSize - s.remainLen + (s.remainLen + n) - left := by omega
    have hconcat := @Delivers.concat file 0 _ _ h.delivers ⟨s.receivedSize - s.remainLen,
      slice file (s.receivedSize - s.remainLen) (s.remainLen + n), left⟩ rfl
      (by dsimp only; rw [hlength]; omega) (by dsimp only; rw [hlength])
      (by dsimp only; rw [hlength]; omega)
    dsimp only at hconcat
    rw [hlength] at hconcat
    rw [dataEvents_append_onData, hpos]
    exact hconcat

theorem Presented.append (h : Presented file s evs) (hpresents : Presents file s s' o) :
    Presented file s' (evs ++ o.toList) := by
  cases hpresents with
  | none hreceived hremain =>
    rw [Option.toList_none, List.append_nil]
    exact { h with last := by rw [hreceived, hremain]; exact h.last
                   covered := by rw [hreceived]; exact h.covered
                   delivers := by rw [hreceived, hremain]; exact h.delivers }
  | filesize n hreceived hremain =>
    exact h.append_of_eq (dataEvents_append_of_ne (by simp)) hreceived hremain
      fun before => h.finish_append (by simp)
  | data n left hle hfile hleft hreceived hremain =>
    exact h.append_onData hle hfile hleft hreceived hremain
  | finish hall hreceived hremain =>
    refine h.append_of_eq (dataEvents_append_of_ne (by simp)) hreceived hremain
      fun before hbefore => ?_
    rcases List.prefix_concat_iff.1 hbefore with heq | hpre
    · rw [List.append_inj_left' heq rfl, ← hall]
      exact h.covered
    · exact h.finish before hpre

end Events

theorem exists_presented_of_run (file : Bytes) (hfile : file.length < 4294967296)
    (config : DlConfig) (hsize : config.fileSize = 0 ∨ config.fileSize = file.length)
    (hrange : config.rangeLength < 4294967295) (buffer : Bytes)
    (hbuffer : buffer.length = config.bufferSize) (inputs : List DlInput)
    (h : Guarded (downloadNext file) (Cond file) (Download.init config buffer) inputs) :
    ∃ os s, outputs? (downloadStep file) (Download.init config buffer) inputs = some (os, s) ∧
      InStep file s ∧ Presented file s os.reduceOption := by
  have hlength : config.length < 4294967295 := by
    rw [DlConfig.length, rangeRequestLengthDefault]
    split_ifs <;> omega
  have hinit : InStep file (Download.init config buffer) :=
    { length_buffer := by
        rw [DlConfig.bufferSize, u32_of_lt (by omega)] at hbuffer
        exact hbuffer
      rangeLength_lt := hlength
      remainLen_le := Nat.zero_le _
      remainLen_le_receivedSize := le_rfl
      receivedSize_le := Nat.zero_le _
      kept := rfl
      body := by simp [Download.init]
      fileSize := hsize
      known := by simp [Download.init]
      complete := by simp [Download.init] }
  have hpresented : Presented file (Download.init config buffer) (List.reduceOption []) :=
    { data := fun _ hevent => absurd hevent List.not_mem_nil
      next := List.isChain_nil
      finish := fun before hbefore => by simp at hbefore
      last := fun _ hlast => by cases hlast
      covered := fun _ hi => absurd hi (Nat.not_lt_zero _)
      delivers := .nil 0 }
  exact @exists_outputs?_of_invariant Download DlInput (Option DlEvent)
    (downloadStep file) (downloadNext file) (Cond file)
    (fun s os => InStep file s ∧ Presented file s os.reduceOption)
    (fun s os input hinv hcond => by
      obtain ⟨o, hstep, hin, hpresents⟩ := hinv.1.step hfile hcond
      refine ⟨o, hstep, hin, ?_⟩
      rw [← List.concat_eq_append, List.reduceOption_concat]
      exact hinv.2.append hpresents)
    (Download.init config buffer) [] ⟨hinit, hpresented⟩ inputs h

/-- **Download.** For every file, every length of the ranges but the largest and every run of the
loop, no write leaves the buffer and the file is presented exactly. -/
theorem exact_of_run (file : Bytes) (hfile : file.length < 4294967296) (config : DlConfig)
    (hsize : config.fileSize = 0 ∨ config.fileSize = file.length)
    (hrange : config.rangeLength < 4294967295) (buffer : Bytes)
    (hbuffer : buffer.length = config.bufferSize) (inputs : List DlInput)
    (h : Guarded (downloadNext file) (Cond file) (Download.init config buffer) inputs) :
    ∃ os s, outputs? (downloadStep file) (Download.init config buffer) inputs = some (os, s) ∧
      Exact file os.reduceOption := by
  obtain ⟨os, s, hos, -, hpresented⟩ :=
    exists_presented_of_run file hfile config hsize hrange buffer hbuffer inputs h
  exact ⟨os, s, hos, hpresented.toExact⟩

def DlInput.fine (readSize : ℤ) (remainLen : Nat) : DlInput where
  connect := true
  filesize := true
  request := true
  readSize := readSize
  remainLen := remainLen

/-- Five rounds for a file of three bytes in ranges of two. The handler leaves one byte of the first
two. -/
def threeBytes : List DlInput := [.fine 0 0, .fine 0 0, .fine 2 1, .fine 1 0, .fine 0 0]

theorem exact_of_run_threeBytes :
    Guarded (downloadNext [1, 2, 3]) (Cond [1, 2, 3]) (Download.init ⟨2, 0, true⟩ [0, 0, 0])
        threeBytes ∧
      ∃ os s, outputs? (downloadStep [1, 2, 3]) (Download.init ⟨2, 0, true⟩ [0, 0, 0])
          threeBytes = some (os, s) ∧
        Exact [1, 2, 3] os.reduceOption := by
  have h : Guarded (downloadNext [1, 2, 3]) (Cond [1, 2, 3])
      (Download.init ⟨2, 0, true⟩ [0, 0, 0]) threeBytes := by decide +kernel
  exact ⟨h, exact_of_run [1, 2, 3] (by decide) ⟨2, 0, true⟩ (Or.inl rfl) (by decide) [0, 0, 0]
    (by decide +kernel) _ h⟩

/-- The largest length of a range: the buffer has no bytes, and the first byte is written behind
it. -/
theorem fault_of_largest :
    ([] : Bytes).length = DlConfig.bufferSize ⟨4294967295, 1, true⟩ ∧
      Guarded (downloadNext [7]) (Permitted [7]) (Download.init ⟨4294967295, 1, true⟩ [])
        [.fine 0 0, .fine 0 0, .fine 1 0] ∧
      (outputs? (downloadStep [7]) (Download.init ⟨4294967295, 1, true⟩ [])
        [.fine 0 0, .fine 0 0, .fine 1 0]).isNone = true := by
  refine ⟨?_, ?_, ?_⟩
  all_goals decide +kernel

end TuyaOpen.Http
