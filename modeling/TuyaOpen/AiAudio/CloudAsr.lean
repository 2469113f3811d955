import TuyaOpen.Basic.Bytes
import TuyaOpen.Basic.Transition

/-!
# Uploads for speech recognition

`ai_audio_cloud_asr.c`: callers post messages to a queue of eight entries and raise or lower the
flag `is_uploading` at once, and a task fetches the messages, changes the state and uploads audio
data through `ai_audio_agent.c`. The callers hold a mutex, the task does not. Every access to the
flag, the state and the queue is a step of its own.

What the agent calls return, whether a message is posted, and how much audio data there is, are
inputs. `is_force_interrupt` is false in every message but the one for the idle state.
-/

namespace TuyaOpen.AiAudio

/-! ### The upload -/

/-- `AI_CLOUD_ASR_STATE_E`. -/
inductive AsrState
  | idle
  | upload
  | waitAsr
  deriving DecidableEq

/-- `AI_CLOUD_ASR_MSG_T`. -/
inductive AsrMsg
  | enterIdle (isForceInterrupt : Bool)
  | updateVad
  | start
  | uploading
  | stop
  deriving DecidableEq

/-- `AI_STREAM_*`. -/
inductive StreamFlag
  | start
  | ing
  | end_
  deriving DecidableEq

/-- Where `__ai_audio_cloud_asr_task` is. -/
inductive AsrTask
  /-- It is about to fetch a message. -/
  | fetch
  /-- There has been none, and it is about to look at `is_uploading`. -/
  | timedOut
  | handle (msg : AsrMsg)
  /-- `AI_CLOUD_ASR_EVT_ENTER_IDLE`: the state, and the message that is posted. -/
  | enterIdle
  | postVad
  | updateVad
  /-- `AI_CLOUD_ASR_EVT_START`: the call of the agent, the state, and the message that is posted. -/
  | startAgent
  | started
  | postUploading
  | startFailed
  /-- `AI_CLOUD_ASR_EVT_UPLOADING`: the look at `is_uploading`, and the call of the agent. -/
  | uploading
  | send
  /-- `AI_CLOUD_ASR_EVT_STOP`: the look at `is_uploading`, the loop with the size that is left, the
  call of the agent, the state and the flag. -/
  | stop
  | stopLoop (inputDataSize : Nat)
  | stopSend (inputDataSize uploadLen : Nat)
  | uploadStop
  | stopState
  | stopFlag
  deriving DecidableEq

/-- A call that holds the mutex, and what it is about to do. -/
inductive AsrCall
  | none
  | startPost
  | startFlag
  | stopPost
  | idlePost (isForceInterrupt : Bool)
  | idleFlag
  | waitPost
  deriving DecidableEq

/-- `AI_AUDIO_CLOUD_ASR_T`, with `is_audio_upload_first_frame` of the agent. -/
structure CloudAsr where
  isUploading : Bool
  state : AsrState
  queue : List AsrMsg
  task : AsrTask
  call : AsrCall
  firstFrame : Bool
  deriving DecidableEq

/-- `ai_audio_cloud_asr_init`. -/
def CloudAsr.init : CloudAsr := ⟨false, .idle, [], .fetch, .none, false⟩

inductive AsrRequest
  | start
  | stop
  | stopWait
  | setIdle (isForce : Bool)
  deriving DecidableEq

structure AsrInput where
  /-- `ai_audio_agent_upload_start` succeeds. -/
  agent : Bool
  /-- A message can be posted. -/
  post : Bool
  /-- There are enough data for an upload. -/
  enough : Bool
  inputDataSize : Nat
  uploadLen : Nat
  deriving DecidableEq

inductive AgentCall
  | uploadStart
  /-- `ai_audio_agent_upload_data`, with the flag that is sent. -/
  | uploadData (flag : StreamFlag)
  /-- `ai_audio_agent_upload_stop`, with the flag that is sent. -/
  | uploadStop (flag : StreamFlag)
  | chatInterrupt
  deriving DecidableEq

def CloudAsr.canPost (s : CloudAsr) (post : Bool) : Bool := post && s.queue.length < 8

/-- `tal_queue_post`. -/
def CloudAsr.post (s : CloudAsr) (msg : AsrMsg) (post : Bool) : CloudAsr :=
  if s.canPost post then { s with queue := s.queue ++ [msg] } else s

/-- A call, up to the point where it has looked at the flag or the state. -/
def asrCall (s : CloudAsr) (request : AsrRequest) : CloudAsr :=
  if s.call ≠ .none then s
  else
    match request with
    | .start => if s.isUploading then s else { s with call := .startPost }
    | .stop => if s.isUploading then { s with call := .stopPost } else s
    | .stopWait => if s.state = .waitAsr then { s with call := .waitPost } else s
    | .setIdle isForce => { s with call := .idlePost (isForce || s.state ≠ .idle) }

def asrCallStep (s : CloudAsr) (post : Bool) : CloudAsr :=
  match s.call with
  | .none => s
  | .startPost => { s.post .start post with call := .startFlag }
  | .startFlag => { s with isUploading := true, call := .none }
  | .stopPost => { s.post .stop post with call := .none }
  | .idlePost isForceInterrupt =>
    { s.post (.enterIdle isForceInterrupt) post with call := .idleFlag }
  | .idleFlag => { s with isUploading := false, call := .none }
  | .waitPost => { s.post (.enterIdle false) post with call := .none }

/-- `__ai_audio_wait_cloud_asr_tm_cb`. -/
def asrTimeout (s : CloudAsr) (post : Bool) : CloudAsr :=
  if s.call ≠ .none then s else s.post (.enterIdle false) post

def AsrMsg.case : AsrMsg → AsrTask
  | .enterIdle _ => .enterIdle
  | .updateVad => .updateVad
  | .start => .startAgent
  | .uploading => .uploading
  | .stop => .stop

def AsrMsg.isForceInterrupt : AsrMsg → Bool
  | .enterIdle isForceInterrupt => isForceInterrupt
  | _ => false

/-- The flag of `ai_audio_agent_upload_data`, with or without data. -/
def CloudAsr.streamFlag (s : CloudAsr) (data : Bool) : StreamFlag :=
  if s.firstFrame then .start else if data then .ing else .end_

/-- A frame has been sent. Only the frame for the end sets `is_audio_upload_first_frame` again. -/
def CloudAsr.sent (s : CloudAsr) (data : Bool) : CloudAsr :=
  { s with firstFrame := s.streamFlag data = .end_ }

/-- A step of the task: what it calls in the agent, and the state after it. -/
def taskStep (s : CloudAsr) (input : AsrInput) : Option AgentCall × CloudAsr :=
  match s.task with
  | .fetch =>
    match s.queue with
    | [] => (none, { s with task := .timedOut })
    | msg :: queue => (none, { s with queue := queue, task := .handle msg })
  | .timedOut =>
    (none, { s with task := .handle (if s.isUploading then .uploading else .updateVad) })
  | .handle msg =>
    (if msg.isForceInterrupt then some .chatInterrupt else none, { s with task := msg.case })
  | .enterIdle => (none, { s with state := .idle, task := .postVad })
  | .postVad => (none, { s.post .updateVad input.post with task := .fetch })
  | .updateVad => (none, { s with task := .fetch })
  | .startAgent =>
    if input.agent then (some .uploadStart, { s with firstFrame := true, task := .started })
    else (none, { s with task := .startFailed })
  | .started => (none, { s with state := .upload, task := .postUploading })
  | .postUploading => (none, { s.post .uploading input.post with task := .fetch })
  | .startFailed => (none, { s.post (.enterIdle false) input.post with task := .fetch })
  | .uploading =>
    (none, { s with task := if s.isUploading && input.enough then .send else .fetch })
  | .send => (some (.uploadData (s.streamFlag true)), { s.sent true with task := .fetch })
  | .stop =>
    (none, { s with task := if s.isUploading then .stopLoop input.inputDataSize else .fetch })
  | .stopLoop inputDataSize =>
    (none,
      { s with
        task :=
          if inputDataSize = 0 ∨ s.isUploading = false ∨ input.uploadLen = 0 then .uploadStop
          else .stopSend inputDataSize input.uploadLen })
  | .stopSend inputDataSize uploadLen =>
    (some (.uploadData (s.streamFlag true)),
      { s.sent true with
        task :=
          if inputDataSize ≤ uploadLen then .uploadStop
          else .stopLoop (inputDataSize - uploadLen) })
  | .uploadStop =>
    (some (.uploadStop (s.streamFlag false)), { s.sent false with task := .stopState })
  | .stopState => (none, { s with state := .waitAsr, task := .stopFlag })
  | .stopFlag => (none, { s with isUploading := false, task := .fetch })

/-! ### Uploads -/

structure Upload where
  /-- It has not been stopped or interrupted. -/
  isOpen : Bool
  /-- The flags of the frames that it has sent. -/
  flags : List StreamFlag
  deriving DecidableEq

def Upload.after (u : Upload) : Option AgentCall → Upload
  | none => u
  | some .uploadStart => ⟨true, []⟩
  | some (.uploadData flag) => { u with flags := u.flags ++ [flag] }
  | some (.uploadStop flag) => ⟨false, u.flags ++ [flag]⟩
  | some .chatInterrupt => { u with isOpen := false }

structure AsrRun where
  asr : CloudAsr
  upload : Upload
  deriving DecidableEq

def AsrRun.init : AsrRun := ⟨.init, ⟨false, []⟩⟩

inductive AsrEvent
  | request (request : AsrRequest)
  | callStep (post : Bool)
  | timeout (post : Bool)
  | task (input : AsrInput)
  deriving DecidableEq

def asrStep (s : CloudAsr) : AsrEvent → Option AgentCall × CloudAsr
  | .request request => (none, asrCall s request)
  | .callStep post => (none, asrCallStep s post)
  | .timeout post => (none, asrTimeout s post)
  | .task input => taskStep s input

def asrNext (s : AsrRun) (ev : AsrEvent) : AsrRun :=
  ⟨(asrStep s.asr ev).2, s.upload.after (asrStep s.asr ev).1⟩

def Whole (flags : List StreamFlag) : Prop :=
  ∃ n, flags = .start :: (List.replicate n StreamFlag.ing ++ [StreamFlag.end_])

def Begun (flags : List StreamFlag) : Prop := ∃ flags', Whole flags' ∧ flags <+: flags'

/-- Frames belong to an upload that is open, an upload that is stopped is whole and one that is
interrupted has begun. -/
def CallRight (u : Upload) : Option AgentCall → Prop
  | some (.uploadData flag) => u.isOpen = true ∧ Begun (u.flags ++ [flag])
  | some (.uploadStop flag) => u.isOpen = true ∧ Whole (u.flags ++ [flag])
  | some .chatInterrupt => u.isOpen = true → Begun u.flags
  | _ => True

def CloudAsr.Quiet (s : CloudAsr) : Prop := s.queue = [] ∧ s.task = .fetch ∧ s.call = .none

/-- Uploads are well bracketed in a step, and after it the flag agrees with the state when all is
quiet. -/
def Bracketed (s : AsrRun) (ev : AsrEvent) : Prop :=
  CallRight s.upload (asrStep s.asr ev).1 ∧
    ((asrNext s ev).asr.Quiet →
      ((asrNext s ev).asr.isUploading = true ↔ (asrNext s ev).asr.state = .upload))

/-! ### The condition -/

def AsrTask.inHand : AsrTask → List AsrMsg
  | .timedOut => [.uploading]
  | .handle msg => [msg]
  | .enterIdle => [.enterIdle false]
  | .updateVad => [.updateVad]
  | .startAgent => [.start]
  | .started => [.start]
  | .uploading => [.uploading]
  | .stop => [.stop]
  | _ => []

/-- The task is in the case for `AI_CLOUD_ASR_EVT_STOP`, behind its look at the flag. -/
def AsrTask.stopping : AsrTask → Bool
  | .stopLoop _ => true
  | .stopSend _ _ => true
  | .uploadStop => true
  | .stopState => true
  | .stopFlag => true
  | _ => false

def CloudAsr.pending (s : CloudAsr) : List AsrMsg := s.task.inHand ++ s.queue

def AsrMsg.isIdle : AsrMsg → Bool
  | .enterIdle _ => true
  | _ => false

def AsrMsg.looks : AsrMsg → Bool
  | .uploading => true
  | .stop => true
  | _ => false

/-- `is_uploading` is raised, or a call that has posted a start is about to raise it. -/
def CloudAsr.Raised (s : CloudAsr) : Prop := s.isUploading = true ∨ s.call = .startFlag

instance instDecidableRaised (s : CloudAsr) : Decidable s.Raised :=
  inferInstanceAs (Decidable (_ ∨ _))

/-- A message for the idle state is posted only when the flag is not raised. -/
def IdlePost (s : CloudAsr) (post : Bool) : Prop := s.canPost post = true → ¬s.Raised

/-- The task looks at the flag. While a call for the idle state is about to lower it, the message of
the call is still in the queue. -/
def Look (s : CloudAsr) : Prop :=
  s.call = .idleFlag → s.isUploading = true → s.queue.any AsrMsg.isIdle = true

instance instDecidableIdlePost (s : CloudAsr) (post : Bool) : Decidable (IdlePost s post) :=
  inferInstanceAs (Decidable (_ → ¬_))

instance instDecidableLook (s : CloudAsr) : Decidable (Look s) :=
  inferInstanceAs (Decidable (_ → _ → _))

/-- The condition on a step of a call: a start is posted when the task has nothing to do that looks
at the flag, and the messages of a start and for the idle state can be posted. -/
def callOrderly (s : CloudAsr) (post : Bool) : AsrCall → Prop
  | .startPost => s.canPost post = true ∧ s.task.stopping = false ∧
    s.pending.any AsrMsg.looks = false
  | .idlePost _ => s.canPost post = true
  | .waitPost => IdlePost s post
  | _ => True

/-- The condition on a step of the task: `ai_audio_agent_upload_start` fails only when the flag is
not raised, and an upload is stopped only when it has sent a frame. -/
def taskOrderly (s : CloudAsr) (input : AsrInput) : AsrTask → Prop
  | .timedOut => Look s
  | .uploading => Look s
  | .stop => Look s
  | .startAgent => input.agent = false → ¬s.Raised
  | .startFailed => IdlePost s input.post
  | .uploadStop => s.firstFrame = false
  | _ => True

def Orderly (s : AsrRun) : AsrEvent → Prop
  | .request _ => True
  | .callStep post => callOrderly s.asr post s.asr.call
  | .timeout post => s.asr.call = .none → IdlePost s.asr post
  | .task input => taskOrderly s.asr input s.asr.task

instance instDecidableCallOrderly (s : CloudAsr) (post : Bool) :
    ∀ call, Decidable (callOrderly s post call)
  | .startPost => inferInstanceAs (Decidable (_ ∧ _ ∧ _))
  | .idlePost _ => inferInstanceAs (Decidable (_ = _))
  | .waitPost => inferInstanceAs (Decidable (IdlePost _ _))
  | .none => isTrue trivial
  | .startFlag => isTrue trivial
  | .stopPost => isTrue trivial
  | .idleFlag => isTrue trivial

instance instDecidableTaskOrderly (s : CloudAsr) (input : AsrInput) :
    ∀ task, Decidable (taskOrderly s input task)
  | .timedOut => inferInstanceAs (Decidable (Look _))
  | .uploading => inferInstanceAs (Decidable (Look _))
  | .stop => inferInstanceAs (Decidable (Look _))
  | .startAgent => inferInstanceAs (Decidable (_ → ¬_))
  | .startFailed => inferInstanceAs (Decidable (IdlePost _ _))
  | .uploadStop => inferInstanceAs (Decidable (_ = _))
  | .fetch => isTrue trivial
  | .handle _ => isTrue trivial
  | .enterIdle => isTrue trivial
  | .postVad => isTrue trivial
  | .updateVad => isTrue trivial
  | .started => isTrue trivial
  | .postUploading => isTrue trivial
  | .send => isTrue trivial
  | .stopLoop _ => isTrue trivial
  | .stopSend _ _ => isTrue trivial
  | .stopState => isTrue trivial
  | .stopFlag => isTrue trivial

instance instDecidableOrderly (s : AsrRun) (ev : AsrEvent) : Decidable (Orderly s ev) :=
  match ev with
  | .request _ => isTrue trivial
  | .callStep _ => inferInstanceAs (Decidable (callOrderly _ _ _))
  | .timeout _ => inferInstanceAs (Decidable (_ → IdlePost _ _))
  | .task _ => inferInstanceAs (Decidable (taskOrderly _ _ _))

/-! ### What is pending -/

/-- Whether the state will be the one for an upload when the messages have taken effect. -/
def settles : Bool → List AsrMsg → Bool
  | b, [] => b
  | _, .enterIdle _ :: msgs => settles false msgs
  | b, .updateVad :: msgs => settles b msgs
  | _, .start :: msgs => settles true msgs
  | b, .uploading :: msgs => settles b msgs
  | b, .stop :: msgs => settles b msgs

/-- Whenever the task looks at a flag that is raised, an upload is open, also when there are no more
messages. After a stop the flag is lowered. -/
def Ready : Bool → List AsrMsg → Prop
  | o, [] => o = true
  | o, .enterIdle isForceInterrupt :: msgs => Ready (o && !isForceInterrupt) msgs
  | o, .updateVad :: msgs => Ready o msgs
  | _, .start :: msgs => Ready true msgs
  | o, .uploading :: msgs => o = true ∧ Ready o msgs
  | o, .stop :: msgs => o = true ∧ settles false msgs = false

def ReadyToIdle : Bool → List AsrMsg → Prop
  | _, [] => True
  | o, .enterIdle isForceInterrupt :: msgs =>
    msgs.any AsrMsg.isIdle = true → ReadyToIdle (o && !isForceInterrupt) msgs
  | o, .updateVad :: msgs => msgs.any AsrMsg.isIdle = true → ReadyToIdle o msgs
  | _, .start :: msgs => msgs.any AsrMsg.isIdle = true → ReadyToIdle true msgs
  | o, .uploading :: msgs => msgs.any AsrMsg.isIdle = true → o = true ∧ ReadyToIdle o msgs
  | o, .stop :: msgs => msgs.any AsrMsg.isIdle = true → o = true

section Pending

variable {b o : Bool} {msgs : List AsrMsg}

theorem settles_append (b : Bool) (msgs msgs' : List AsrMsg) :
    settles b (msgs ++ msgs') = settles (settles b msgs) msgs' := by
  induction msgs generalizing b with
  | nil => rfl
  | cons msg msgs ih => cases msg <;> exact ih _

theorem settles_mono (h : settles true msgs = false) (b : Bool) : settles b msgs = false := by
  induction msgs generalizing b with
  | nil => cases h
  | cons msg msgs ih => cases msg <;> first | exact h | exact ih h b

theorem Ready.append_look {msg : AsrMsg} (hmsg : msg = .updateVad ∨ msg.looks = true)
    (h : Ready o msgs) : Ready o (msgs ++ [msg]) := by
  have hsettles (b : Bool) : settles b [msg] = b := by
    rcases hmsg with rfl | hmsg
    · rfl
    · cases msg <;> first | rfl | cases hmsg
  induction msgs generalizing o with
  | nil =>
    rcases hmsg with rfl | hmsg
    · exact h
    · cases msg with
      | uploading => exact ⟨h, h⟩
      | stop => exact ⟨h, rfl⟩
      | enterIdle _ => cases hmsg
      | updateVad => cases hmsg
      | start => cases hmsg
  | cons head msgs ih =>
    cases head with
    | enterIdle _ => exact ih h
    | updateVad => exact ih h
    | start => exact ih h
    | uploading => exact ⟨h.1, ih h.2⟩
    | stop => exact ⟨h.1, ((settles_append false msgs [msg]).trans (hsettles _)).trans h.2⟩

theorem ready_append_start (h : msgs.any AsrMsg.looks = false) (o : Bool) :
    Ready o (msgs ++ [AsrMsg.start]) := by
  induction msgs generalizing o with
  | nil => rfl
  | cons msg msgs ih =>
    rw [List.any_cons, Bool.or_eq_false_iff] at h
    cases msg with
    | enterIdle _ => exact ih h.2 _
    | updateVad => exact ih h.2 _
    | start => exact ih h.2 _
    | uploading => cases h.1
    | stop => cases h.1

theorem readyToIdle_of_any (h : msgs.any AsrMsg.isIdle = false) (o : Bool) :
    ReadyToIdle o msgs := by
  cases msgs with
  | nil => trivial
  | cons msg msgs =>
    rw [List.any_cons, Bool.or_eq_false_iff] at h
    cases msg <;> exact fun htrue => absurd (htrue.symm.trans h.2) (by decide)

theorem Ready.append_idle (h : Ready o msgs) (isForceInterrupt : Bool) :
    ReadyToIdle o (msgs ++ [AsrMsg.enterIdle isForceInterrupt]) := by
  induction msgs generalizing o with
  | nil => exact fun htrue => by cases htrue
  | cons msg msgs ih =>
    cases msg with
    | enterIdle _ => exact fun _ => ih h
    | updateVad => exact fun _ => ih h
    | start => exact fun _ => ih h
    | uploading => exact fun _ => ⟨h.1, ih h.2⟩
    | stop => exact fun _ => h.1

theorem ReadyToIdle.append {msg : AsrMsg} (hmsg : msg.isIdle = false) (h : ReadyToIdle o msgs) :
    ReadyToIdle o (msgs ++ [msg]) := by
  have hany (msgs : List AsrMsg) :
      (msgs ++ [msg]).any AsrMsg.isIdle = msgs.any AsrMsg.isIdle := by simp [hmsg]
  induction msgs generalizing o with
  | nil => exact readyToIdle_of_any (by simp [hmsg]) o
  | cons head msgs ih =>
    cases head with
    | enterIdle _ => exact fun htrue => ih (h (hany msgs ▸ htrue))
    | updateVad => exact fun htrue => ih (h (hany msgs ▸ htrue))
    | start => exact fun htrue => ih (h (hany msgs ▸ htrue))
    | uploading => exact fun htrue => ⟨(h (hany msgs ▸ htrue)).1, ih (h (hany msgs ▸ htrue)).2⟩
    | stop => exact fun htrue => h (hany msgs ▸ htrue)

end Pending

/-! ### The invariant -/

/-- The flag, with the call that is about to raise or lower it taken as done. -/
def CloudAsr.wants (s : CloudAsr) : Bool :=
  match s.call with
  | .startFlag => true
  | .idleFlag => false
  | _ => s.isUploading

def AsrTask.uses : AsrTask → Bool
  | .started => true
  | .send => true
  | .stopLoop _ => true
  | .stopSend _ _ => true
  | .uploadStop => true
  | _ => false

def Frames (firstFrame : Bool) (flags : List StreamFlag) : Prop :=
  (firstFrame = true ∧ flags = []) ∨
    (firstFrame = false ∧ ∃ n, flags = .start :: List.replicate n StreamFlag.ing)

structure Steady (s : CloudAsr) (u : Upload) : Prop where
  settled : s.task.stopping = false →
    s.wants = settles (decide (s.state = .upload)) s.pending
  ready : s.task.stopping = false → s.wants = true → Ready u.isOpen s.pending
  lowering : s.task.stopping = false → s.call = .idleFlag → s.isUploading = true →
    ReadyToIdle u.isOpen s.pending
  stopping : s.task.stopping = true → settles false s.pending = false ∧ s.call ≠ .startFlag
  starting : s.call = .startPost ∨ s.call = .startFlag → s.isUploading = false
  noStop : s.call = .startFlag → .stop ∉ s.pending
  opened : s.task.uses = true → u.isOpen = true
  waiting : s.task = .stopFlag → s.state = .waitAsr
  frames : u.isOpen = true → Frames s.firstFrame u.flags

section Steady

variable {s s' : CloudAsr} {u u' : Upload}

theorem wants_of_not_raised (h : ¬s.Raised) : s.wants = false := by
  obtain ⟨hflag, hcall⟩ := not_or.1 h
  rw [CloudAsr.wants]
  cases hc : s.call <;> simp_all

theorem pending_of_stopping (h : s.task.stopping = true) : s.pending = s.queue := by
  rw [CloudAsr.pending]
  cases htask : s.task <;> simp_all [AsrTask.stopping, AsrTask.inHand]

theorem Steady.post_look (h : Steady s u) {msg : AsrMsg}
    (hmsg : msg = .updateVad ∨ msg.looks = true)
    (hstop : msg = .stop → s.call ≠ .startFlag) (post : Bool) : Steady (s.post msg post) u := by
  rw [CloudAsr.post]
  split_ifs
  · have hpending : ({ s with queue := s.queue ++ [msg] } : CloudAsr).pending =
        s.pending ++ [msg] := (List.append_assoc _ _ _).symm
    have hsettles (b : Bool) : settles b [msg] = b := by
      rcases hmsg with rfl | hmsg
      · rfl
      · cases msg <;> first | rfl | cases hmsg
    have hidle : msg.isIdle = false := by
      rcases hmsg with rfl | hmsg
      · rfl
      · cases msg <;> first | rfl | cases hmsg
    refine ⟨fun htask => ?_, fun htask hwants => ?_, fun htask hcall hflag => ?_, fun htask => ?_,
      h.starting, fun hcall => ?_, h.opened, h.waiting, h.frames⟩
    · rw [hpending, settles_append, hsettles]
      exact h.settled htask
    · rw [hpending]
      exact (h.ready htask hwants).append_look hmsg
    · rw [hpending]
      exact (h.lowering htask hcall hflag).append hidle
    · rw [hpending, settles_append, hsettles]
      exact h.stopping htask
    · rw [hpending, List.mem_append, not_or]
      refine ⟨h.noStop hcall, fun hmem => ?_⟩
      exact hstop (List.mem_singleton.1 hmem).symm hcall
  · exact h

theorem Steady.post_idle (h : Steady s u) {post : Bool} (hpost : IdlePost s post) :
    Steady (s.post (.enterIdle false) post) u := by
  rw [CloudAsr.post]
  split_ifs with hcan
  · have hpending : ({ s with queue := s.queue ++ [AsrMsg.enterIdle false] } : CloudAsr).pending =
        s.pending ++ [AsrMsg.enterIdle false] := (List.append_assoc _ _ _).symm
    have hraised := hpost hcan
    have hwants := wants_of_not_raised hraised
    refine ⟨fun htask => ?_, fun htask hwants' => ?_, fun htask hcall hflag => ?_, fun htask => ?_,
      h.starting, fun hcall => ?_, h.opened, h.waiting, h.frames⟩
    · rw [hpending, settles_append]
      exact hwants
    · exact absurd (hwants.symm.trans hwants') (by decide)
    · exact absurd (Or.inl hflag) hraised
    · rw [hpending, settles_append]
      exact ⟨rfl, (h.stopping htask).2⟩
    · exact absurd (Or.inr hcall) hraised
  · exact h

theorem Steady.move (h : Steady s u) (hstopping : s.task.stopping = false)
    (hflag : s'.isUploading = s.isUploading) (hcall : s'.call = s.call)
    (hsettled : settles (decide (s.state = .upload)) s.pending =
      settles (decide (s'.state = .upload)) s'.pending)
    (hready : s.wants = true → Ready u.isOpen s.pending → Ready u'.isOpen s'.pending)
    (hlowering : s.call = .idleFlag → s.isUploading = true → ReadyToIdle u.isOpen s.pending →
      ReadyToIdle u'.isOpen s'.pending)
    (hnoStop : .stop ∈ s'.pending → .stop ∈ s.pending) (hstopping' : s'.task.stopping = false)
    (hopened : s'.task.uses = true → u'.isOpen = true)
    (hframes : u'.isOpen = true → Frames s'.firstFrame u'.flags) : Steady s' u' := by
  have hwants : s'.wants = s.wants := by rw [CloudAsr.wants, CloudAsr.wants, hcall, hflag]
  refine ⟨fun _ => ?_, fun _ hwants' => ?_, fun _ hcall' hflag' => ?_, fun htask => ?_,
    fun hcall' => ?_, fun hcall' => ?_, hopened, fun htask => ?_, hframes⟩
  · rw [hwants, ← hsettled]
    exact h.settled hstopping
  · rw [hwants] at hwants'
    exact hready hwants' (h.ready hstopping hwants')
  · rw [hcall] at hcall'
    rw [hflag] at hflag'
    exact hlowering hcall' hflag' (h.lowering hstopping hcall' hflag')
  · rw [hstopping'] at htask
    cases htask
  · rw [hflag]
    rw [hcall] at hcall'
    exact h.starting hcall'
  · rw [hcall] at hcall'
    exact fun hmem => h.noStop hcall' (hnoStop hmem)
  · rw [htask] at hstopping'
    cases hstopping'

theorem Steady.stay (h : Steady s u) (hstopping : s.task.stopping = true)
    (hcall : s'.call = s.call) (hflag : s'.isUploading = s.isUploading)
    (hqueue : s'.queue = s.queue) (hstopping' : s'.task.stopping = true)
    (hopened : s'.task.uses = true → u'.isOpen = true)
    (hwaiting : s'.task = .stopFlag → s'.state = .waitAsr)
    (hframes : u'.isOpen = true → Frames s'.firstFrame u'.flags) : Steady s' u' := by
  have hpending : s'.pending = s.pending := by
    rw [pending_of_stopping hstopping', pending_of_stopping hstopping, hqueue]
  refine ⟨fun htask => ?_, fun htask => ?_, fun htask => ?_, fun _ => ?_, fun hcall' => ?_,
    fun hcall' => ?_, hopened, hwaiting, hframes⟩
  · rw [hstopping'] at htask
    cases htask
  · rw [hstopping'] at htask
    cases htask
  · rw [hstopping'] at htask
    cases htask
  · rw [hpending, hcall]
    exact h.stopping hstopping
  · rw [hcall] at hcall'
    rw [hflag]
    exact h.starting hcall'
  · rw [hcall] at hcall'
    exact absurd hcall' (h.stopping hstopping).2

/-! ### Calls -/

theorem Steady.of_call (h : Steady s u) {call : AsrCall}
    (hwants : ({ s with call := call } : CloudAsr).wants = s.wants)
    (hcall : call ≠ .startFlag ∧ call ≠ .idleFlag)
    (hstart : call = .startPost → s.isUploading = false) :
    Steady { s with call := call } u where
  settled htask := hwants.trans (h.settled htask)
  ready htask hwants' := h.ready htask (hwants ▸ hwants')
  lowering _ hcall' := absurd hcall' hcall.2
  stopping htask := ⟨(h.stopping htask).1, hcall.1⟩
  starting hcall' := hcall'.elim hstart fun hflag => absurd hflag hcall.1
  noStop hcall' := absurd hcall' hcall.1
  opened := h.opened
  waiting := h.waiting
  frames := h.frames

theorem Steady.request (h : Steady s u) (request : AsrRequest) : Steady (asrCall s request) u := by
  unfold asrCall
  by_cases hcall : s.call = .none
  · have hwants : s.wants = s.isUploading := by rw [CloudAsr.wants, hcall]
    rw [if_neg (by simp [hcall])]
    cases request with
    | start =>
      dsimp only
      split_ifs with hflag
      · exact h
      · exact h.of_call hwants.symm (by simp) fun _ => by simpa using hflag
    | stop =>
      dsimp only
      split_ifs
      · exact h.of_call hwants.symm (by simp) (by simp)
      · exact h
    | stopWait =>
      dsimp only
      split_ifs
      · exact h.of_call hwants.symm (by simp) (by simp)
      · exact h
    | setIdle isForce => exact h.of_call hwants.symm (by simp) (by simp)
  · rw [if_pos hcall]
    exact h

theorem post_of_canPost {post : Bool} (hcan : s.canPost post = true) (msg : AsrMsg) :
    s.post msg post = { s with queue := s.queue ++ [msg] } := if_pos hcan

theorem post_call (s : CloudAsr) (msg : AsrMsg) (post : Bool) :
    (s.post msg post).call = s.call := by
  rw [CloudAsr.post]
  split_ifs <;> rfl

theorem Steady.startPost (h : Steady s u) (hcall : s.call = .startPost)
    (hstopping : s.task.stopping = false) (hlooks : s.pending.any AsrMsg.looks = false) :
    Steady { s with queue := s.queue ++ [AsrMsg.start], call := .startFlag } u := by
  have hpending :
      ({ s with queue := s.queue ++ [AsrMsg.start], call := .startFlag } : CloudAsr).pending =
      s.pending ++ [AsrMsg.start] := (List.append_assoc _ _ _).symm
  have hflag := h.starting (Or.inl hcall)
  refine ⟨fun _ => ?_, fun _ _ => ?_, fun _ hcall' => (by cases hcall'), fun htask => ?_,
    fun _ => hflag, fun _ hmem => ?_, h.opened, h.waiting, h.frames⟩
  · rw [hpending, settles_append]
    rfl
  · rw [hpending]
    exact ready_append_start hlooks _
  · rw [hstopping] at htask
    cases htask
  · rw [hpending, List.mem_append] at hmem
    rcases hmem with hmem | hmem
    · exact absurd (List.any_eq_false.1 hlooks _ hmem) (by decide)
    · simp at hmem

theorem Steady.idlePost (h : Steady s u) {isForceInterrupt : Bool}
    (hcall : s.call = .idlePost isForceInterrupt) :
    Steady
      { s with queue := s.queue ++ [AsrMsg.enterIdle isForceInterrupt], call := .idleFlag } u := by
  have hpending :
      ({ s with queue := s.queue ++ [AsrMsg.enterIdle isForceInterrupt], call := .idleFlag } :
        CloudAsr).pending = s.pending ++ [AsrMsg.enterIdle isForceInterrupt] :=
    (List.append_assoc _ _ _).symm
  have hwants : s.wants = s.isUploading := by rw [CloudAsr.wants, hcall]
  refine ⟨fun _ => ?_, fun _ hwants' => (by cases hwants'), fun htask _ hflag => ?_,
    fun htask => ?_, fun hcall' => (by simp at hcall'), fun hcall' => (by cases hcall'), h.opened,
    h.waiting, h.frames⟩
  · rw [hpending, settles_append]
    rfl
  · rw [hpending]
    exact (h.ready htask (hwants.trans hflag)).append_idle isForceInterrupt
  · rw [hpending, settles_append]
    exact ⟨rfl, by simp⟩

/-- **Step lemma.** A call goes on. -/
theorem Steady.callStep (h : Steady s u) {post : Bool} (hcond : callOrderly s post s.call) :
    Steady (asrCallStep s post) u := by
  rw [asrCallStep]
  cases hcall : s.call with
  | none => exact h
  | startPost =>
    rw [hcall] at hcond
    obtain ⟨hcan, hstopping, hlooks⟩ := hcond
    rw [post_of_canPost hcan]
    exact h.startPost hcall hstopping hlooks
  | startFlag =>
    have hwants : s.wants = true := by rw [CloudAsr.wants, hcall]
    exact
      { settled := fun htask => hwants.symm.trans (h.settled htask)
        ready := fun htask _ => h.ready htask hwants
        lowering := fun _ hcall' => by cases hcall'
        stopping := fun htask => absurd hcall (h.stopping htask).2
        starting := fun hcall' => by simp at hcall'
        noStop := fun hcall' => by cases hcall'
        opened := h.opened
        waiting := h.waiting
        frames := h.frames }
  | stopPost =>
    have hpost := h.post_look (Or.inr rfl) (fun _ => by simp [hcall] : AsrMsg.stop = .stop → _) post
    refine hpost.of_call ?_ (by simp) (by simp)
    rw [CloudAsr.wants, CloudAsr.wants, post_call, hcall]
  | idlePost isForceInterrupt =>
    rw [hcall] at hcond
    dsimp only
    rw [post_of_canPost hcond]
    exact h.idlePost hcall
  | idleFlag =>
    have hwants : s.wants = false := by rw [CloudAsr.wants, hcall]
    exact
      { settled := fun htask => hwants.symm.trans (h.settled htask)
        ready := fun _ hwants' => by cases hwants'
        lowering := fun _ hcall' => by cases hcall'
        stopping := fun htask => ⟨(h.stopping htask).1, by simp⟩
        starting := fun hcall' => by simp at hcall'
        noStop := fun hcall' => by cases hcall'
        opened := h.opened
        waiting := h.waiting
        frames := h.frames }
  | waitPost =>
    rw [hcall] at hcond
    refine (h.post_idle hcond).of_call ?_ (by simp) (by simp)
    rw [CloudAsr.wants, CloudAsr.wants, post_call, hcall]

theorem Steady.timeout (h : Steady s u) {post : Bool}
    (hcond : s.call = .none → IdlePost s post) : Steady (asrTimeout s post) u := by
  rw [asrTimeout]
  by_cases hcall : s.call = .none
  · rw [if_neg (by simp [hcall])]
    exact h.post_idle (hcond hcall)
  · rw [if_pos hcall]
    exact h

/-! ### The task -/

theorem Frames.sent {firstFrame : Bool} {flags : List StreamFlag} (h : Frames firstFrame flags)
    {flag : StreamFlag} (hflag : flag = if firstFrame then .start else .ing) :
    Frames (decide (flag = .end_)) (flags ++ [flag]) := by
  subst hflag
  rcases h with ⟨rfl, rfl⟩ | ⟨rfl, n, rfl⟩
  · exact Or.inr ⟨rfl, 0, rfl⟩
  · refine Or.inr ⟨rfl, n + 1, ?_⟩
    rw [if_neg (by decide), List.cons_append, List.replicate_succ']

theorem Frames.begun {firstFrame : Bool} {flags : List StreamFlag} (h : Frames firstFrame flags) :
    Begun flags := by
  rcases h with ⟨-, rfl⟩ | ⟨-, n, rfl⟩
  · exact ⟨_, ⟨0, rfl⟩, List.nil_prefix⟩
  · exact ⟨_, ⟨n, rfl⟩, [.end_], List.cons_append⟩

theorem Frames.whole {firstFrame : Bool} {flags : List StreamFlag} (h : Frames firstFrame flags)
    (hfirst : firstFrame = false) : Whole (flags ++ [StreamFlag.end_]) := by
  rcases h with ⟨htrue, -⟩ | ⟨-, n, rfl⟩
  · rw [htrue] at hfirst
    cases hfirst
  · exact ⟨n, List.cons_append⟩

theorem Steady.isOpen_of_look (h : Steady s u) (hstopping : s.task.stopping = false)
    {msg : AsrMsg} (hmsg : msg.looks = true) (hhand : s.task.inHand = [msg]) (hlook : Look s)
    (hflag : s.isUploading = true) : u.isOpen = true := by
  have hpending : s.pending = msg :: s.queue := by rw [CloudAsr.pending, hhand]; rfl
  by_cases hcall : s.call = .idleFlag
  · have hidle := hlook hcall hflag
    have hready := h.lowering hstopping hcall hflag
    rw [hpending] at hready
    cases msg with
    | uploading => exact (hready hidle).1
    | stop => exact hready hidle
    | enterIdle _ => cases hmsg
    | updateVad => cases hmsg
    | start => cases hmsg
  · have hwants : s.wants = true := by
      rw [CloudAsr.wants]
      cases hc : s.call <;> simp_all
    have hready := h.ready hstopping hwants
    rw [hpending] at hready
    cases msg with
    | uploading => exact hready.1
    | stop => exact hready.1
    | enterIdle _ => cases hmsg
    | updateVad => cases hmsg
    | start => cases hmsg

theorem Steady.fetch (h : Steady s u) (hstopping : s.task.stopping = false)
    (hhand : s.task.inHand = [] ∨ s.task.inHand = [.updateVad] ∨ s.task.inHand = [.uploading])
    {task : AsrTask} (hnil : task.inHand = []) (hstopping' : task.stopping = false)
    (hopened : task.uses = true → u.isOpen = true) :
    Steady { s with task := task } u := by
  have hpending' : ({ s with task := task } : CloudAsr).pending = s.queue := by
    rw [CloudAsr.pending]
    dsimp only
    rw [hnil, List.nil_append]
  have hpending : s.pending = s.task.inHand ++ s.queue := rfl
  refine h.move hstopping rfl rfl ?_ (fun _ hready => ?_) (fun _ _ hready => ?_) (fun hmem => ?_)
    hstopping' hopened h.frames
  · rw [hpending', hpending]
    rcases hhand with hhand | hhand | hhand <;> rw [hhand] <;> rfl
  · rw [hpending] at hready
    rw [hpending']
    rcases hhand with hhand | hhand | hhand <;> rw [hhand] at hready
    · exact hready
    · exact hready
    · exact hready.2
  · rw [hpending] at hready
    rw [hpending']
    by_cases hany : s.queue.any AsrMsg.isIdle = true
    · rcases hhand with hhand | hhand | hhand <;> rw [hhand] at hready
      · exact hready
      · exact hready hany
      · exact (hready hany).2
    · exact readyToIdle_of_any (by simpa using hany) _
  · rw [hpending'] at hmem
    exact List.mem_append_right _ hmem

def Goes (s : CloudAsr) (u : Upload) (input : AsrInput) : Prop :=
  CallRight u (taskStep s input).1 ∧
    Steady (taskStep s input).2 (u.after (taskStep s input).1)

variable {input : AsrInput}

theorem Steady.goes_fetch (h : Steady s u) (htask : s.task = .fetch) : Goes s u input := by
  have hstopping : s.task.stopping = false := by rw [htask]; rfl
  have hpending : s.pending = s.queue := by rw [CloudAsr.pending, htask]; rfl
  rw [Goes, taskStep, htask]
  cases hqueue : s.queue with
  | nil =>
    rw [hqueue] at hpending
    refine ⟨trivial, h.move hstopping rfl rfl ?_ (fun _ hready => ?_) (fun _ _ _ => ?_) ?_ rfl
      (fun huses => by cases huses) h.frames⟩
    · rw [hpending]
      simp [CloudAsr.pending, AsrTask.inHand, settles]
    · rw [hpending] at hready
      simpa [CloudAsr.pending, AsrTask.inHand, Upload.after, Ready] using hready
    · exact readyToIdle_of_any (by simp [CloudAsr.pending, AsrTask.inHand, AsrMsg.isIdle]) _
    · simp [CloudAsr.pending, AsrTask.inHand]
  | cons msg queue =>
    rw [hqueue] at hpending
    have hsame : ({ s with queue := queue, task := .handle msg } : CloudAsr).pending =
        s.pending := by rw [hpending]; rfl
    exact ⟨trivial, h.move hstopping rfl rfl (by rw [hsame])
      (fun _ hready => by rw [hsame]; exact hready) (fun _ _ hready => by rw [hsame]; exact hready)
      (by rw [hsame]; exact id) rfl (fun huses => by cases huses) h.frames⟩

theorem Steady.goes_timedOut (h : Steady s u) (htask : s.task = .timedOut) : Goes s u input := by
  have hstopping : s.task.stopping = false := by rw [htask]; rfl
  have hpending : s.pending = .uploading :: s.queue := by rw [CloudAsr.pending, htask]; rfl
  rw [Goes, taskStep, htask]
  refine ⟨trivial, ?_⟩
  dsimp only [Upload.after]
  by_cases hflag : s.isUploading = true
  · rw [if_pos hflag]
    have hsame : ({ s with task := .handle .uploading } : CloudAsr).pending = s.pending := by
      rw [hpending]
      rfl
    exact h.move hstopping rfl rfl (by rw [hsame]) (fun _ hready => by rw [hsame]; exact hready)
      (fun _ _ hready => by rw [hsame]; exact hready) (by rw [hsame]; exact id) rfl
      (fun huses => by cases huses) h.frames
  · rw [if_neg hflag]
    refine h.move hstopping rfl rfl ?_ (fun _ hready => ?_) (fun _ hflag' => absurd hflag' hflag) ?_
      rfl (fun huses => by cases huses) h.frames
    · rw [hpending]
      rfl
    · rw [hpending] at hready
      exact hready.2
    · rw [hpending]
      simp [CloudAsr.pending, AsrTask.inHand]

theorem Steady.goes_handle (h : Steady s u) {msg : AsrMsg} (htask : s.task = .handle msg) :
    Goes s u input := by
  have hstopping : s.task.stopping = false := by rw [htask]; rfl
  have hpending : s.pending = msg :: s.queue := by rw [CloudAsr.pending, htask]; rfl
  rw [Goes, taskStep, htask]
  dsimp only
  cases msg with
  | enterIdle isForceInterrupt =>
    have hopen : (u.after (if (AsrMsg.enterIdle isForceInterrupt).isForceInterrupt then
        some .chatInterrupt else none)).isOpen = (u.isOpen && !isForceInterrupt) := by
      cases isForceInterrupt <;> simp [AsrMsg.isForceInterrupt, Upload.after]
    have hpending' : ({ s with task := .enterIdle } : CloudAsr).pending =
        .enterIdle false :: s.queue := rfl
    refine ⟨?_, h.move hstopping rfl rfl ?_ (fun _ hready => ?_) (fun _ _ hready => ?_) ?_ rfl
      (fun huses => by cases huses) fun hopen' => ?_⟩
    · cases isForceInterrupt with
      | false => trivial
      | true => exact fun hopen => (h.frames hopen).begun
    · rw [hpending]
      rfl
    · rw [hpending] at hready
      rw [hopen]
      change Ready _ s.queue
      rw [Bool.not_false, Bool.and_true]
      exact hready
    · rw [hpending] at hready
      rw [hopen]
      intro hany
      rw [Bool.not_false, Bool.and_true]
      exact hready hany
    · rw [hpending]
      simp [CloudAsr.pending, AsrTask.inHand, AsrMsg.case]
    · rw [hopen, Bool.and_eq_true, Bool.not_eq_true'] at hopen'
      obtain ⟨hopen', rfl⟩ := hopen'
      exact h.frames hopen'
  | updateVad | start | uploading | stop =>
    refine ⟨trivial, h.move hstopping rfl rfl ?_ (fun _ hready => ?_) (fun _ _ hready => ?_) ?_ rfl
      (fun huses => by cases huses) h.frames⟩
    · rw [hpending]
      rfl
    · rw [hpending] at hready
      exact hready
    · rw [hpending] at hready
      exact hready
    · rw [hpending]
      exact id

theorem Steady.goes_enterIdle (h : Steady s u) (htask : s.task = .enterIdle) : Goes s u input := by
  have hstopping : s.task.stopping = false := by rw [htask]; rfl
  have hpending : s.pending = .enterIdle false :: s.queue := by rw [CloudAsr.pending, htask]; rfl
  rw [Goes, taskStep, htask]
  refine ⟨trivial, h.move hstopping rfl rfl ?_ (fun _ hready => ?_) (fun _ _ hready => ?_) ?_ rfl
    (fun huses => by cases huses) h.frames⟩
  · rw [hpending]
    rfl
  · rw [hpending, Ready, Bool.not_false, Bool.and_true] at hready
    exact hready
  · change ReadyToIdle u.isOpen s.queue
    rw [hpending, ReadyToIdle, Bool.not_false, Bool.and_true] at hready
    by_cases hany : s.queue.any AsrMsg.isIdle = true
    · exact hready hany
    · exact readyToIdle_of_any (by simpa using hany) _
  · rw [hpending]
    exact List.mem_cons_of_mem _

theorem Steady.post_fetch {msg : AsrMsg} {post : Bool} (h : Steady (s.post msg post) u)
    (hstopping : s.task.stopping = false) (hhand : s.task.inHand = []) :
    Steady { s.post msg post with task := .fetch } u := by
  have htask : (s.post msg post).task = s.task := by
    rw [CloudAsr.post]
    split_ifs <;> rfl
  exact h.fetch (by rw [htask]; exact hstopping) (Or.inl (by rw [htask]; exact hhand)) rfl rfl
    (fun huses => by cases huses)

theorem Steady.goes_startAgent (h : Steady s u) (htask : s.task = .startAgent)
    (hcond : input.agent = false → ¬s.Raised) : Goes s u input := by
  have hstopping : s.task.stopping = false := by rw [htask]; rfl
  have hpending : s.pending = .start :: s.queue := by rw [CloudAsr.pending, htask]; rfl
  rw [Goes, taskStep, htask]
  dsimp only
  by_cases hagent : input.agent = true
  · rw [if_pos hagent]
    refine ⟨trivial, h.move hstopping rfl rfl ?_ (fun _ hready => ?_) (fun _ _ hready => ?_) ?_ rfl
      (fun _ => rfl) fun _ => Or.inl ⟨rfl, rfl⟩⟩
    · rw [hpending]
      rfl
    · rw [hpending] at hready
      exact hready
    · rw [hpending] at hready
      exact hready
    · rw [hpending]
      exact id
  · rw [if_neg hagent]
    have hraised := hcond (by simpa using hagent)
    have hwants := wants_of_not_raised hraised
    have hsettled := h.settled hstopping
    rw [hwants, hpending] at hsettled
    exact ⟨trivial,
      { settled := fun _ => hwants.trans (settles_mono hsettled.symm _).symm
        ready := fun _ hwants' => absurd (hwants.symm.trans hwants') (by decide)
        lowering := fun _ _ hflag => absurd (Or.inl hflag) hraised
        stopping := fun hstopping' => by cases hstopping'
        starting := h.starting
        noStop := fun hcall => absurd (Or.inr hcall) hraised
        opened := fun huses => by cases huses
        waiting := fun hflag => by cases hflag
        frames := h.frames }⟩

theorem Steady.goes_started (h : Steady s u) (htask : s.task = .started) : Goes s u input := by
  have hstopping : s.task.stopping = false := by rw [htask]; rfl
  have hpending : s.pending = .start :: s.queue := by rw [CloudAsr.pending, htask]; rfl
  have hopen : u.isOpen = true := h.opened (by rw [htask]; rfl)
  rw [Goes, taskStep, htask]
  refine ⟨trivial, h.move hstopping rfl rfl ?_ (fun _ hready => ?_) (fun _ _ hready => ?_) ?_ rfl
    (fun huses => by cases huses) h.frames⟩
  · rw [hpending]
    rfl
  · change Ready u.isOpen s.queue
    rw [hpending] at hready
    rw [hopen]
    exact hready
  · change ReadyToIdle u.isOpen s.queue
    rw [hpending] at hready
    rw [hopen]
    by_cases hany : s.queue.any AsrMsg.isIdle = true
    · exact hready hany
    · exact readyToIdle_of_any (by simpa using hany) _
  · rw [hpending]
    exact List.mem_cons_of_mem _

theorem Steady.callRight_data (h : Steady s u) (hopen : u.isOpen = true) :
    CallRight u (some (.uploadData (s.streamFlag true))) ∧
      Frames (s.sent true).firstFrame (u.flags ++ [s.streamFlag true]) := by
  have hframes : Frames (s.sent true).firstFrame (u.flags ++ [s.streamFlag true]) :=
    (h.frames hopen).sent rfl
  exact ⟨⟨hopen, hframes.begun⟩, hframes⟩

theorem Steady.goes_stop (h : Steady s u) (htask : s.task = .stop) (hlook : Look s) :
    Goes s u input := by
  have hstopping : s.task.stopping = false := by rw [htask]; rfl
  have hpending : s.pending = .stop :: s.queue := by rw [CloudAsr.pending, htask]; rfl
  rw [Goes, taskStep, htask]
  refine ⟨trivial, ?_⟩
  dsimp only [Upload.after]
  by_cases hflag : s.isUploading = true
  · have hopen := h.isOpen_of_look hstopping (rfl : AsrMsg.stop.looks = true)
      (by rw [htask]; rfl) hlook hflag
    have hcall : s.call ≠ .startFlag := by
      intro hcall
      exact absurd (h.starting (Or.inr hcall)) (by simp [hflag])
    have hsettles : settles false s.queue = false := by
      by_cases hidle : s.call = .idleFlag
      · have hsettled := h.settled hstopping
        rw [CloudAsr.wants, hidle, hpending] at hsettled
        dsimp only at hsettled
        rw [settles] at hsettled
        cases hstate : decide (s.state = .upload) with
        | false =>
          rw [hstate] at hsettled
          exact hsettled.symm
        | true =>
          rw [hstate] at hsettled
          exact settles_mono hsettled.symm false
      · have hwants : s.wants = true := by
          rw [CloudAsr.wants]
          cases hc : s.call <;> simp_all
        have hready := h.ready hstopping hwants
        rw [hpending] at hready
        exact hready.2
    rw [if_pos hflag]
    exact
      { settled := fun hstopping' => by cases hstopping'
        ready := fun hstopping' => by cases hstopping'
        lowering := fun hstopping' => by cases hstopping'
        stopping := fun _ => ⟨hsettles, hcall⟩
        starting := h.starting
        noStop := fun hcall' => absurd hcall' hcall
        opened := fun _ => hopen
        waiting := fun hflag' => by cases hflag'
        frames := h.frames }
  · rw [if_neg hflag]
    refine h.move hstopping rfl rfl ?_ (fun hwants _ => ?_) (fun _ hflag' => absurd hflag' hflag) ?_
      rfl (fun huses => by cases huses) h.frames
    · rw [hpending]
      rfl
    · -- the flag is about to be raised, and there is no stop before it
      have hcall : s.call = .startFlag := by
        rw [CloudAsr.wants] at hwants
        cases hc : s.call <;> simp_all
      refine absurd ?_ (h.noStop hcall)
      rw [hpending]
      exact List.mem_cons_self
    · rw [hpending]
      exact List.mem_cons_of_mem _

theorem Steady.goes_stopping (h : Steady s u) (hstopping : s.task.stopping = true)
    (hcond : taskOrderly s input s.task) : Goes s u input := by
  have hpending := pending_of_stopping hstopping
  rw [Goes, taskStep]
  cases htask : s.task with
  | stopLoop inputDataSize =>
    have hopen := h.opened (by rw [htask]; rfl)
    refine ⟨trivial, h.stay hstopping rfl rfl rfl ?_ (fun _ => hopen) (fun hflag => ?_) h.frames⟩
    · dsimp only
      split_ifs <;> rfl
    · dsimp only at hflag
      split_ifs at hflag
  | stopSend inputDataSize uploadLen =>
    have hopen := h.opened (by rw [htask]; rfl)
    obtain ⟨hright, hframes⟩ := h.callRight_data hopen
    refine ⟨hright, h.stay hstopping rfl rfl rfl ?_ (fun _ => hopen) (fun hflag => ?_)
      fun _ => hframes⟩
    · dsimp only
      split_ifs <;> rfl
    · dsimp only at hflag
      split_ifs at hflag
  | uploadStop =>
    rw [htask] at hcond
    have hopen := h.opened (by rw [htask]; rfl)
    have hflag : s.streamFlag false = .end_ := by
      rw [CloudAsr.streamFlag, hcond]
      rfl
    refine ⟨⟨hopen, ?_⟩, h.stay hstopping rfl rfl rfl rfl (fun huses => by cases huses)
      (fun hflag => by cases hflag) (fun hopen' => by cases hopen')⟩
    rw [hflag]
    exact (h.frames hopen).whole hcond
  | stopState =>
    exact ⟨trivial, h.stay hstopping rfl rfl rfl rfl (fun huses => by cases huses) (fun _ => rfl)
      h.frames⟩
  | stopFlag =>
    obtain ⟨hsettles, hcall⟩ := h.stopping hstopping
    have hstate : decide (s.state = .upload) = false := by
      rw [h.waiting htask]
      rfl
    have hwants : ({ s with isUploading := false, task := .fetch } : CloudAsr).wants = false := by
      rw [CloudAsr.wants]
      dsimp only
      cases hc : s.call <;> simp_all
    rw [hpending] at hsettles
    refine ⟨trivial,
      { settled := fun _ => ?_
        ready := fun _ hwants' => absurd (hwants.symm.trans hwants') (by decide)
        lowering := fun _ _ hflag => by cases hflag
        stopping := fun hstopping' => by cases hstopping'
        starting := fun _ => rfl
        noStop := fun hcall' => absurd hcall' hcall
        opened := fun huses => by cases huses
        waiting := fun hflag => by cases hflag
        frames := h.frames }⟩
    rw [hwants]
    dsimp only
    rw [hstate]
    exact hsettles.symm
  | _ =>
    rw [htask] at hstopping
    cases hstopping

/-- **Step lemma.** A step of the task. -/
theorem Steady.goes (h : Steady s u) (hcond : taskOrderly s input s.task) : Goes s u input := by
  cases htask : s.task with
  | fetch => exact h.goes_fetch htask
  | timedOut => exact h.goes_timedOut htask
  | handle msg => exact h.goes_handle htask
  | enterIdle => exact h.goes_enterIdle htask
  | postVad =>
    rw [Goes, taskStep, htask]
    exact ⟨trivial, (h.post_look (Or.inl rfl) (by simp) input.post).post_fetch
      (by rw [htask]; rfl) (by rw [htask]; rfl)⟩
  | updateVad =>
    rw [Goes, taskStep, htask]
    exact ⟨trivial, h.fetch (by rw [htask]; rfl) (Or.inr (Or.inl (by rw [htask]; rfl))) rfl rfl
      fun huses => by cases huses⟩
  | startAgent =>
    rw [htask] at hcond
    exact h.goes_startAgent htask hcond
  | started => exact h.goes_started htask
  | postUploading =>
    rw [Goes, taskStep, htask]
    exact ⟨trivial, (h.post_look (Or.inr rfl) (by simp) input.post).post_fetch
      (by rw [htask]; rfl) (by rw [htask]; rfl)⟩
  | startFailed =>
    rw [htask] at hcond
    rw [Goes, taskStep, htask]
    exact ⟨trivial, (h.post_idle hcond).post_fetch (by rw [htask]; rfl) (by rw [htask]; rfl)⟩
  | uploading =>
    rw [htask] at hcond
    have hhand : s.task.inHand = [.uploading] := by rw [htask]; rfl
    have hstopping : s.task.stopping = false := by rw [htask]; rfl
    rw [Goes, taskStep, htask]
    refine ⟨trivial, h.fetch hstopping (Or.inr (Or.inr hhand)) ?_ ?_ fun huses => ?_⟩
    · split_ifs <;> rfl
    · split_ifs <;> rfl
    · by_cases hsend : (s.isUploading && input.enough) = true
      · rw [Bool.and_eq_true] at hsend
        exact h.isOpen_of_look hstopping rfl hhand hcond hsend.1
      · rw [if_neg hsend] at huses
        cases huses
  | send =>
    have hopen := h.opened (by rw [htask]; rfl)
    obtain ⟨hright, hframes⟩ := h.callRight_data hopen
    have hhand : s.task.inHand = [] := by rw [htask]; rfl
    have hpending : s.pending = s.queue := by rw [CloudAsr.pending, hhand]; rfl
    rw [Goes, taskStep, htask]
    refine ⟨hright, h.move (by rw [htask]; rfl) rfl rfl ?_ (fun _ hready => ?_)
      (fun _ _ hready => ?_) ?_ rfl (fun huses => by cases huses) fun _ => hframes⟩
    · rw [hpending]
      rfl
    · rw [hpending] at hready
      exact hready
    · rw [hpending] at hready
      exact hready
    · rw [hpending]
      exact id
  | stop =>
    rw [htask] at hcond
    exact h.goes_stop htask hcond
  | stopLoop _ => exact h.goes_stopping (by rw [htask]; rfl) hcond
  | stopSend _ _ => exact h.goes_stopping (by rw [htask]; rfl) hcond
  | uploadStop => exact h.goes_stopping (by rw [htask]; rfl) hcond
  | stopState => exact h.goes_stopping (by rw [htask]; rfl) hcond
  | stopFlag => exact h.goes_stopping (by rw [htask]; rfl) hcond

theorem Steady.agrees (h : Steady s u) (hquiet : s.Quiet) :
    s.isUploading = true ↔ s.state = .upload := by
  obtain ⟨hqueue, htask, hcall⟩ := hquiet
  have hsettled := h.settled (by rw [htask]; rfl)
  rw [CloudAsr.wants, hcall, CloudAsr.pending, htask, hqueue] at hsettled
  dsimp only at hsettled
  rw [hsettled]
  exact decide_eq_true_iff

end Steady

/-- **One step.** A step that meets the condition is bracketed and keeps the invariant. -/
theorem Steady.step {s : AsrRun} (h : Steady s.asr s.upload) {ev : AsrEvent}
    (hcond : Orderly s ev) :
    Bracketed s ev ∧ Steady (asrNext s ev).asr (asrNext s ev).upload := by
  have hgoes : CallRight s.upload (asrStep s.asr ev).1 ∧
      Steady (asrNext s ev).asr (asrNext s ev).upload := by
    cases ev with
    | request request => exact ⟨trivial, h.request request⟩
    | callStep post => exact ⟨trivial, h.callStep hcond⟩
    | timeout post => exact ⟨trivial, h.timeout hcond⟩
    | task input => exact h.goes hcond
  exact ⟨⟨hgoes.1, hgoes.2.agrees⟩, hgoes.2⟩

/-- A step of the task in which everything succeeds and there are 4 units of data. -/
def AsrEvent.fine : AsrEvent := .task ⟨true, true, true, 4, 3⟩

end TuyaOpen.AiAudio
