import TuyaOpen.Ota.Firmware

/-!
# The events of a download

`http_file_download` sends `DL_EVENT_START` before its loop, the events of the rounds, and
`DL_EVENT_FAULT` when the loop has given up. A round in which nothing has been received for
`HTTP_DOWNLOAD_TIMEOUT` seconds is the last one. `file_download_event_cb` starts an upgrade at
`DL_EVENT_ON_FILESIZE`.

What the server has may be another file in every round, and the clock may read anything. After a
connection has been lost the loop goes through `DL_STATE_FILESIZE_GET` again, and sends
`DL_EVENT_ON_FILESIZE` again, in the middle of the data.
-/

namespace TuyaOpen.Ota

open TuyaOpen.Http

/-! ### The loop -/

/-- `HTTP_DOWNLOAD_TIMEOUT`. -/
def httpDownloadTimeout : Nat := 180

inductive LoopStatus
  | running
  | ended
  /-- A write has left the buffer. -/
  | faulted
  deriving DecidableEq

/-- The loop of `http_file_download`, with the events that it has sent. -/
structure DlLoop where
  download : Download
  /-- `download_time`. -/
  downloadTime : Nat
  status : LoopStatus
  events : List OtaEvent

structure DlRound where
  /-- The file that the server has. -/
  file : Bytes
  input : DlInput
  /-- The clock when data have come in. -/
  readTime : Nat
  /-- The clock at the end of the round. -/
  endTime : Nat

def DlLoop.start (config : DlConfig) (buffer : Bytes) (time : Nat) : DlLoop where
  download := .init config buffer
  downloadTime := time
  status := .running
  events := if config.handler then [.start] else []

/-- The event with the `file_size` that the handler finds in it. -/
def toOtaEvent (fileSize : Nat) : DlEvent → OtaEvent
  | .onFilesize n => .onFilesize n
  | .onData event => .onData event fileSize
  | .finish => .finish

/-- Data come in in a round, and `download_time` is set. -/
def receives (s : Download) (input : DlInput) : Bool :=
  0 < input.readSize &&
    match s.state with
    | .rangeRequest =>
      (addRangeHeader (toInt32 s.receivedSize) (toInt32 s.fileSize)).isSome && input.request
    | .dateGet => true
    | _ => false

/-- The end of a round: the loop goes on, or it is left. Then the connection is closed, and
`DL_EVENT_FAULT` is sent when the download is not complete. -/
def loopEnd (download : Download) (downloadTime endTime : Nat) (events : List OtaEvent) : DlLoop :=
  if u32Sub endTime downloadTime < httpDownloadTimeout ∧ download.isCompleted = false then
    ⟨download, downloadTime, .running, events⟩
  else
    ⟨download, downloadTime, .ended,
      events ++ if download.isCompleted = false ∧ download.handler then [.fault] else []⟩

def loopStep (loop : DlLoop) (round : DlRound) : DlLoop :=
  if loop.status ≠ .running then loop
  else
    match downloadStep round.file loop.download round.input with
    | none => { loop with status := .faulted }
    | some (o, download) =>
      loopEnd download
        (if receives loop.download round.input then round.readTime else loop.downloadTime)
        round.endTime (loop.events ++ (o.map (toOtaEvent download.fileSize)).toList)

/-! ### The order of the events -/

def opening (sizes : List Nat) (data : List (DataEvent × Nat)) : List OtaEvent :=
  .start :: (sizes.map .onFilesize ++ data.map fun d => .onData d.1 d.2)

def Word (evs : List OtaEvent) : Prop :=
  ∃ sizes data last, sizes.length ≤ 1 ∧ (sizes = [] → data = []) ∧
    (last = .finish ∨ last = .fault) ∧ evs = opening sizes data ++ [last]

def OtaEvent.isFilesize : OtaEvent → Bool
  | .onFilesize _ => true
  | _ => false

def OtaCall.isStart : OtaCall → Bool
  | .startNotify _ => true
  | .eventCb id => id = .start
  | _ => false

/-- The events so far are the first ones of a word, all of them when the loop has ended, and the
handler starts an upgrade once. -/
structure Follows (loop : DlLoop) : Prop where
  so_far : ∃ evs, Word evs ∧ loop.events <+: evs
  whole : loop.status = .ended → Word loop.events
  once : ∀ (H : Hashes) (ota : OtaCtx), (otaRun H ota loop.events).1.countP OtaCall.isStart ≤ 1
  started : ∀ (H : Hashes) (ota : OtaCtx), ota.channel = 0 ∨ ota.eventCb = true →
    ∀ event fileSize, .onData event fileSize ∈ loop.events →
      (otaRun H ota loop.events).1.countP OtaCall.isStart = 1

/-- `DL_STATE_FILESIZE_GET` is left with a size. -/
def gives (s : Download) (input : DlInput) : Bool :=
  s.state = .filesizeGet && (s.fileSize ≠ 0 || input.filesize)

/-- The loop does not get through `DL_STATE_FILESIZE_GET` when a size has been sent. -/
def NotAgain (loop : DlLoop) (round : DlRound) : Prop :=
  ¬(loop.status = .running ∧ loop.events.any OtaEvent.isFilesize = true ∧
    gives loop.download round.input = true)

instance instDecidableNotAgain (loop : DlLoop) (round : DlRound) :
    Decidable (NotAgain loop round) :=
  inferInstanceAs (Decidable ¬(_ ∧ _ ∧ _))

/-! ### Starts -/

section Starts

variable {H : Hashes} {ota : OtaCtx} {evs : List OtaEvent}

theorem later_fileDownloadEventCb (H : Hashes) (ota : OtaCtx) (ev : OtaEvent) :
    ota.Later (fileDownloadEventCb H ota ev).2 := by
  cases ev with
  | start => exact ⟨rfl, rfl, rfl, rfl⟩
  | onFilesize n => exact (@continues_of_middle H (.onFilesize n) ota trivial).later
  | onData event n => exact (@continues_of_middle H (.onData event n) ota trivial).later
  | finish =>
    rw [fileDownloadEventCb]
    split_ifs
    all_goals exact ⟨rfl, rfl, rfl, rfl⟩
  | fault => exact ⟨rfl, rfl, rfl, rfl⟩

theorem countP_fileDownloadEventCb (H : Hashes) (ota : OtaCtx) (ev : OtaEvent) :
    (fileDownloadEventCb H ota ev).1.countP OtaCall.isStart =
      if (ota.channel = 0 ∨ ota.eventCb = true) ∧ ev.isFilesize = true then 1 else 0 := by
  cases ev with
  | start => simp [fileDownloadEventCb, OtaEvent.isFilesize, OtaCall.isStart]
  | onFilesize n =>
    rw [fileDownloadEventCb]
    split_ifs <;> simp_all [OtaEvent.isFilesize, OtaCall.isStart]
  | onData event n =>
    simp only [fileDownloadEventCb, OtaCtx.process, OtaCtx.progress, OtaEvent.isFilesize]
    split_ifs <;> simp_all [OtaCall.isStart]
  | finish =>
    rw [fileDownloadEventCb]
    split_ifs <;> simp_all [OtaEvent.isFilesize, OtaCall.isStart]
  | fault =>
    rw [fileDownloadEventCb]
    split_ifs <;> simp_all [OtaEvent.isFilesize, OtaCall.isStart]

theorem countP_otaRun (H : Hashes) (ota : OtaCtx) (evs : List OtaEvent) :
    (otaRun H ota evs).1.countP OtaCall.isStart =
      if ota.channel = 0 ∨ ota.eventCb = true then evs.countP OtaEvent.isFilesize else 0 := by
  induction evs generalizing ota with
  | nil => simp [otaRun]
  | cons ev evs ih =>
    have hlater := later_fileDownloadEventCb H ota ev
    rw [otaRun]
    dsimp only
    rw [List.countP_append, countP_fileDownloadEventCb, ih, hlater.channel, hlater.eventCb,
      List.countP_cons]
    split_ifs <;> grind

end Starts

/-! ### Rounds -/

section Rounds

variable {file : Bytes} {s s' : Download} {input : DlInput} {o : Option DlEvent}

inductive Round (s s' : Download) (input : DlInput) : Option DlEvent → Prop
  /-- Nothing is sent, and the connection is to be made or has been made. -/
  | none : gives s input = false → s'.isCompleted = false →
      s'.state ∉ [.rangeRequest, .dateGet, .complete] → Round s s' input none
  | filesize (n : Nat) : gives s input = true → s'.isCompleted = false →
      Round s s' input (some (.onFilesize n))
  | data (event : DataEvent) : s.state ∈ [.rangeRequest, .dateGet, .complete] →
      gives s input = false → s'.isCompleted = false → Round s s' input (some (.onData event))
  | finish : s.state ∈ [.rangeRequest, .dateGet, .complete] → gives s input = false →
      s'.isCompleted = true → Round s s' input (some .finish)

theorem round_dateGet (hhandler : s.handler = true) (hcompleted : s.isCompleted = false)
    (hstate : s.state = .dateGet) (h : dateGet s input = some (o, s')) :
    s'.handler = true ∧ Round s s' input o := by
  have hgives : gives s input = false := by simp [gives, hstate]
  rw [Http.dateGet] at h
  split_ifs at h with hread
  · obtain ⟨rfl, rfl⟩ := Prod.mk.inj (Option.some.inj h)
    exact ⟨hhandler, .none hgives hcompleted (by simp)⟩
  · obtain ⟨buffer, -, h⟩ := Option.bind_eq_some_iff.1 h
    obtain ⟨⟨o', s''⟩, hdata, h⟩ := Option.map_eq_some_iff.1 h
    rw [onData, if_neg (by simp [hhandler])] at hdata
    obtain ⟨data, -, hdata⟩ := Option.bind_eq_some_iff.1 hdata
    obtain ⟨buffer', -, hdata⟩ := Option.map_eq_some_iff.1 hdata
    obtain ⟨rfl, rfl⟩ := Prod.mk.inj hdata
    obtain ⟨rfl, rfl⟩ := Prod.mk.inj h
    refine ⟨by split_ifs <;> exact hhandler, .data _ (by simp [hstate]) hgives ?_⟩
    split_ifs <;> exact hcompleted

/-- **Inversion.** A round of a loop that goes on, with a handler. -/
theorem downloadStep_cases (hhandler : s.handler = true) (hcompleted : s.isCompleted = false)
    (h : downloadStep file s input = some (o, s')) : s'.handler = true ∧ Round s s' input o := by
  rw [downloadStep, if_neg (by simp [hcompleted])] at h
  cases hstate : s.state with
  | networkConnect =>
    rw [hstate] at h
    obtain ⟨rfl, rfl⟩ := Prod.mk.inj (Option.some.inj h)
    refine ⟨hhandler, .none (by simp [gives, hstate]) hcompleted ?_⟩
    dsimp only
    split_ifs <;> simp
  | networkReconnect =>
    rw [hstate] at h
    obtain ⟨rfl, rfl⟩ := Prod.mk.inj (Option.some.inj h)
    exact ⟨hhandler, .none (by simp [gives, hstate]) hcompleted (by simp)⟩
  | filesizeGet =>
    rw [hstate] at h
    dsimp only at h
    by_cases hfail : s.fileSize = 0 ∧ input.filesize = false
    · rw [if_pos hfail] at h
      obtain ⟨rfl, rfl⟩ := Prod.mk.inj (Option.some.inj h)
      exact ⟨hhandler, .none (by simp [gives, hfail]) hcompleted (by simp)⟩
    · rw [if_neg hfail, if_pos hhandler] at h
      obtain ⟨rfl, rfl⟩ := Prod.mk.inj (Option.some.inj h)
      refine ⟨hhandler, .filesize _ ?_ hcompleted⟩
      rw [not_and_or, Bool.not_eq_false] at hfail
      simpa [gives, hstate] using hfail
  | rangeRequest =>
    have hgives : gives s input = false := by simp [gives, hstate]
    rw [hstate] at h
    dsimp only at h
    cases hheader : addRangeHeader (toInt32 s.receivedSize) (toInt32 s.fileSize) with
    | none =>
      rw [hheader] at h
      obtain ⟨rfl, rfl⟩ := Prod.mk.inj (Option.some.inj h)
      exact ⟨hhandler, .none hgives hcompleted (by simp)⟩
    | some header =>
      rw [hheader] at h
      dsimp only at h
      split_ifs at h with hrequest
      · obtain ⟨rfl, rfl⟩ := Prod.mk.inj (Option.some.inj h)
        exact ⟨hhandler, .none hgives hcompleted (by simp)⟩
      · -- the case falls through to the next one
        obtain ⟨hhandler', hround⟩ := @round_dateGet
          { s with body := answer file header, state := .dateGet } s' input o hhandler hcompleted
          rfl h
        refine ⟨hhandler', ?_⟩
        cases hround with
        | none _ h₁ h₂ => exact .none hgives h₁ h₂
        | filesize n h₁ _ => simp [gives] at h₁
        | data event _ _ h₁ => exact .data event (by simp [hstate]) hgives h₁
        | finish _ _ h₁ => exact .finish (by simp [hstate]) hgives h₁
  | dateGet =>
    rw [hstate] at h
    exact round_dateGet hhandler hcompleted hstate h
  | complete =>
    rw [hstate] at h
    dsimp only at h
    rw [if_pos hhandler] at h
    obtain ⟨rfl, rfl⟩ := Prod.mk.inj (Option.some.inj h)
    exact ⟨hhandler, .finish (by simp [hstate]) (by simp [gives, hstate]) rfl⟩

end Rounds

/-! ### Runs -/

section Runs

variable {loop : DlLoop} {round : DlRound} {sizes : List Nat} {data : List (DataEvent × Nat)}
  {evs evs' : List OtaEvent}

theorem countP_opening (sizes : List Nat) (data : List (DataEvent × Nat)) :
    (opening sizes data).countP OtaEvent.isFilesize = sizes.length := by
  have hsizes : (sizes.map OtaEvent.onFilesize).countP OtaEvent.isFilesize = sizes.length := by
    rw [List.countP_map, List.countP_eq_length]
    exact fun _ _ => rfl
  have hdata : (data.map fun d => OtaEvent.onData d.1 d.2).countP OtaEvent.isFilesize = 0 := by
    rw [List.countP_map, List.countP_eq_zero]
    exact fun _ _ => by simp [OtaEvent.isFilesize]
  rw [opening, List.countP_cons_of_neg (by simp [OtaEvent.isFilesize]), List.countP_append, hsizes,
    hdata, Nat.add_zero]

theorem Word.countP_le (h : Word evs) : evs.countP OtaEvent.isFilesize ≤ 1 := by
  obtain ⟨sizes, data, last, hsizes, -, hlast, rfl⟩ := h
  rw [List.countP_append, countP_opening]
  rcases hlast with rfl | rfl
  all_goals simpa [OtaEvent.isFilesize] using hsizes

theorem Word.one_le_countP (h : Word evs) (hpre : evs' <+: evs) {event : DataEvent} {n : Nat}
    (hmem : .onData event n ∈ evs') : 1 ≤ evs'.countP OtaEvent.isFilesize := by
  obtain ⟨sizes, data, last, -, hdata, hlast, rfl⟩ := h
  cases sizes with
  | nil =>
    -- a word without a size has no data
    rw [hdata rfl] at hpre
    have hword := hpre.subset hmem
    rcases hlast with rfl | rfl
    all_goals simp [opening] at hword
  | cons size sizes =>
    match evs', hpre, hmem with
    | [_], hpre, hmem =>
      obtain ⟨rfl, -⟩ := List.cons_prefix_cons.1 hpre
      simp at hmem
    | _ :: ev :: evs', hpre, _ =>
      obtain ⟨-, hpre⟩ := List.cons_prefix_cons.1 hpre
      obtain ⟨rfl, -⟩ := List.cons_prefix_cons.1 hpre
      rw [Nat.one_le_iff_ne_zero, ← Nat.pos_iff_ne_zero, List.countP_pos_iff]
      exact ⟨_, List.mem_cons_of_mem _ List.mem_cons_self, rfl⟩

theorem follows_of_prefix (h : Word evs) (hpre : loop.events <+: evs)
    (hended : loop.status = .ended → Word loop.events) : Follows loop where
  so_far := ⟨evs, h, hpre⟩
  whole := hended
  once H ota := by
    have hle := hpre.sublist.countP_le (p := OtaEvent.isFilesize)
    have hone := h.countP_le
    rw [countP_otaRun]
    split_ifs
    · omega
    · exact Nat.zero_le 1
  started H ota hchannel event n hmem := by
    have hle := hpre.sublist.countP_le (p := OtaEvent.isFilesize)
    have hone := h.countP_le
    have hpos := h.one_le_countP hpre hmem
    rw [countP_otaRun, if_pos hchannel]
    omega

/-- The invariant of the loop: while it runs, a size has been sent once it asks for data. -/
structure Ordered (loop : DlLoop) : Prop where
  handler : loop.download.handler = true
  running : loop.status = .running → loop.download.isCompleted = false ∧
    ∃ sizes data, sizes.length ≤ 1 ∧
      (sizes = [] → data = [] ∧ loop.download.state ∉ [.rangeRequest, .dateGet, .complete]) ∧
      loop.events = opening sizes data
  follows : Follows loop

theorem opening_append_data (sizes : List Nat) (data : List (DataEvent × Nat)) (event : DataEvent)
    (n : Nat) :
    opening sizes data ++ [.onData event n] = opening sizes (data ++ [(event, n)]) := by
  simp [opening]

theorem follows_of_opening (hsizes : sizes.length ≤ 1) (hdata : sizes = [] → data = [])
    (hevents : loop.events = opening sizes data) (hstatus : loop.status ≠ .ended) :
    Follows loop :=
  follows_of_prefix ⟨sizes, data, .fault, hsizes, hdata, Or.inr rfl, rfl⟩
    (hevents ▸ List.prefix_append _ _) fun h => absurd h hstatus

theorem follows_of_ended {last : OtaEvent} (hsizes : sizes.length ≤ 1)
    (hdata : sizes = [] → data = []) (hlast : last = .finish ∨ last = .fault)
    (hevents : loop.events = opening sizes data ++ [last]) : Follows loop :=
  have hword : Word loop.events := ⟨sizes, data, last, hsizes, hdata, hlast, hevents⟩
  follows_of_prefix hword List.prefix_rfl fun _ => hword

theorem loopStep_of_some {o : Option DlEvent} {download : Download}
    (hstatus : loop.status = .running)
    (hstep : downloadStep round.file loop.download round.input = some (o, download)) :
    loopStep loop round = loopEnd download
      (if receives loop.download round.input then round.readTime else loop.downloadTime)
      round.endTime (loop.events ++ (o.map (toOtaEvent download.fileSize)).toList) := by
  rw [loopStep, if_neg (by simp [hstatus]), hstep]

theorem loopEnd_of_isCompleted {download : Download} (downloadTime endTime : Nat)
    (events : List OtaEvent) (hcompleted : download.isCompleted = true) :
    loopEnd download downloadTime endTime events = ⟨download, downloadTime, .ended, events⟩ := by
  rw [loopEnd, if_neg (by simp [hcompleted]), if_neg (by simp [hcompleted]), List.append_nil]

theorem ordered_loopEnd {download : Download} (downloadTime endTime : Nat)
    (hhandler : download.handler = true) (hcompleted : download.isCompleted = false)
    (hsizes : sizes.length ≤ 1)
    (hdata : sizes = [] →
      data = [] ∧ download.state ∉ [.rangeRequest, .dateGet, .complete]) :
    Ordered (loopEnd download downloadTime endTime (opening sizes data)) := by
  rw [loopEnd]
  split_ifs with hgo hfault
  · exact ⟨hhandler, fun _ => ⟨hcompleted, sizes, data, hsizes, hdata, rfl⟩,
      follows_of_opening hsizes (fun h => (hdata h).1) rfl (by simp)⟩
  · exact ⟨hhandler, by simp, follows_of_ended hsizes (fun h => (hdata h).1) (Or.inr rfl) rfl⟩
  · exact absurd ⟨hcompleted, hhandler⟩ hfault

/-- **Step lemma.** A round that does not send a size again keeps the order. -/
theorem Ordered.step (h : Ordered loop) (hcond : NotAgain loop round) :
    Ordered (loopStep loop round) := by
  by_cases hstatus : loop.status = .running
  · obtain ⟨hcompleted, sizes, data, hsizes, hdata, hevents⟩ := h.running hstatus
    cases hstep : downloadStep round.file loop.download round.input with
    | none =>
      rw [loopStep, if_neg (by simp [hstatus]), hstep]
      exact ⟨h.handler, by simp,
        follows_of_opening hsizes (fun hnil => (hdata hnil).1) hevents (by simp)⟩
    | some r =>
      obtain ⟨o, download⟩ := r
      obtain ⟨hhandler, hround⟩ := downloadStep_cases h.handler hcompleted hstep
      rw [loopStep_of_some hstatus hstep, hevents]
      cases hround with
      | none _ hcompleted' hstate =>
        rw [Option.map_none, Option.toList_none, List.append_nil]
        exact ordered_loopEnd _ _ hhandler hcompleted' hsizes
          fun hnil => ⟨(hdata hnil).1, hstate⟩
      | filesize n hgives hcompleted' =>
        have hnil : sizes = [] := by
          cases sizes with
          | nil => rfl
          | cons size sizes =>
            exact absurd ⟨hstatus, by simp [hevents, opening, OtaEvent.isFilesize], hgives⟩ hcond
        obtain ⟨rfl, -⟩ := hdata hnil
        subst hnil
        exact @ordered_loopEnd [n] [] _ _ _ hhandler hcompleted' le_rfl (by simp)
      | data event hstate _ hcompleted' =>
        rw [Option.map_some, Option.toList_some, toOtaEvent, opening_append_data]
        exact ordered_loopEnd _ _ hhandler hcompleted' hsizes
          fun hnil => absurd hstate (hdata hnil).2
      | finish hstate _ hcompleted' =>
        rw [loopEnd_of_isCompleted _ _ _ hcompleted']
        exact ⟨hhandler, by simp,
          follows_of_ended hsizes (fun hnil => (hdata hnil).1) (Or.inl rfl) rfl⟩
  · rw [loopStep, if_pos hstatus]
    exact h

end Runs

end TuyaOpen.Ota
