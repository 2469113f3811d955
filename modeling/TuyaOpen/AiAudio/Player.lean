import TuyaOpen.Utilities.RingBuffer

/-!
# The audio player

`ai_audio_player.c`: data are written to a ring buffer, and a task takes them out and hands them to
a decoder. Every function holds the mutex of the player, so that what it does between two points
where the mutex is free is one step. `ai_audio_player_data_write` gives the mutex up while the ring
buffer is full, and `ai_audio_player_stop` while there is a write.

The ring buffer is the queue that it implements. The decoder is an input: whether it finds samples,
and how many bytes it consumes. The timer that ends a session without data may go off at any time.

The flag for the end of the stream and the bytes in the ring buffer are not cleared when a session
is started, and a write that waits goes on in the next session. The comparison of two names holds
whenever the first one is `NULL`.
-/

namespace TuyaOpen.AiAudio

open TuyaOpen.Utilities

/-! ### The player -/

/-- `AI_AUDIO_PLAYER_STATE_E`. -/
inductive PlayerStat
  | idle
  | start
  | play
  | finish
  | pause
  deriving DecidableEq

def PlayerStat.accepts : PlayerStat → Bool
  | .start => true
  | .play => true
  | _ => false

/-- A call of `ai_audio_player_data_write` that waits. -/
structure Writer where
  /-- What has not been written yet. -/
  data : Bytes
  isEof : Bool
  deriving DecidableEq

/-- `APP_PLAYER_T`, with the calls that wait. -/
structure Player where
  isPlaying : Bool
  isWriting : Bool
  stat : PlayerStat
  id : Option Bytes
  /-- The bytes in `rb_hdl`. -/
  ring : Bytes
  isEof : Bool
  /-- `mp3_dec` has been allocated. -/
  mp3Dec : Bool
  /-- The bytes at `mp3_raw_head`. -/
  raw : Bytes
  writers : List Writer
  /-- The number of calls of `ai_audio_player_stop` that wait. -/
  stops : Nat
  deriving DecidableEq

/-- `ai_audio_player_init`. -/
def Player.init : Player := ⟨false, false, .idle, none, [], false, false, [], [], 0⟩

/-- The number of bytes that the ring buffer can hold, one less than `MP3_STREAM_BUFF_MAX_LEN`. -/
def ringCap : Nat := 1024 * 64 * 2 - 1

/-- `MAINBUF_SIZE`. -/
def mainbufSize : Nat := 1940

inductive PlayerEvent
  /-- `ai_audio_player_start`, and whether the copy of the name is allocated. -/
  | start (id : Option Bytes) (alloc : Bool)
  /-- `ai_audio_player_data_write`. -/
  | dataWrite (id : Option Bytes) (data : Bytes) (isEof : Bool)
  /-- A write goes on after it has waited. -/
  | resume (i : Nat)
  /-- `ai_audio_player_stop`. -/
  | stop
  /-- A stop goes on after it has waited. -/
  | stopResume
  /-- A pass of the task: whether the decoder is allocated when it is needed, and whether it finds
  samples and how many bytes it consumes. -/
  | pass (alloc : Bool) (samples : Bool) (frameBytes : Nat)
  /-- `__app_playing_tm_cb`. -/
  | timeout
  deriving DecidableEq

structure PlayerOut where
  /-- A session begins. -/
  began : Bool
  /-- The bytes that are taken from the ring buffer. -/
  taken : Bytes
  /-- The bytes that the decoder is given. -/
  decoded : Option Bytes
  /-- The session ends with its stream. -/
  ended : Bool

def PlayerOut.none : PlayerOut := ⟨false, [], Option.none, false⟩

/-- `__app_player_compare_id`, which looks at the first name twice. -/
def comparesId (id₁ id₂ : Option Bytes) : Bool :=
  match id₁, id₂ with
  | none, _ => true
  | some s, some s' => s = s'
  | some _, none => false

/-- `ai_audio_player_start`. -/
def playerStart (s : Player) (id : Option Bytes) (alloc : Bool) : Player :=
  { s with
    id := if alloc then id else none
    isPlaying := true
    stat := .start }

/-- The loop of `ai_audio_player_data_write` to the point where it waits, or to its end. -/
def writeLoop (s : Player) (w : Writer) : Player :=
  if s.stat.accepts = false then { s with isWriting := false, isEof := w.isEof }
  else
    let r := fifoStep ringCap s.ring (.write w.data)
    let rest := w.data.drop r.1.1
    if rest = [] then { s with ring := r.2, isWriting := false, isEof := w.isEof }
    else
      { s with
        ring := r.2
        isWriting := true
        writers := s.writers ++ [⟨rest, w.isEof⟩] }

/-- `ai_audio_player_data_write`, up to the first point where it waits. -/
def dataWrite (s : Player) (id : Option Bytes) (data : Bytes) (isEof : Bool) : Player :=
  if s.stat.accepts = false then s
  else if comparesId id s.id = false then s
  else if data = [] then { s with isEof := isEof }
  else writeLoop s ⟨data, isEof⟩

/-- The end of `ai_audio_player_stop`, where it waits as long as there is a write. -/
def stopLoop (s : Player) : Player :=
  if s.isWriting then { s with stops := s.stops + 1 }
  else { s with ring := [], isPlaying := false, stat := .idle }

/-- `ai_audio_player_stop`. -/
def playerStop (s : Player) : Player :=
  if s.isPlaying = false then s else stopLoop { s with stat := .pause, id := none }

/-- `__ai_audio_player_mp3_playing` fills its buffer from the ring buffer. -/
def Player.read (s : Player) : (Nat × Bytes) × Bytes :=
  fifoStep ringCap s.ring (.read (mainbufSize - s.raw.length))

def Player.taken (s : Player) : Bytes := s.read.1.2

/-- `__ai_audio_player_mp3_playing`: what the decoder is given, and the state after it. It is none
when the decoder consumes more than it was given. -/
def mp3Playing (s : Player) (samples : Bool) (frameBytes : Nat) :
    Option (Option Bytes × Player) :=
  if s.mp3Dec = false ∨ (s.ring = [] ∧ s.raw = []) then some (none, s)
  else
    let raw := s.raw ++ s.taken
    let ring := s.read.2
    if samples = false then some (some raw, { s with ring := ring, raw := [] })
    else if raw.length < frameBytes then none
    else some (some raw, { s with ring := ring, raw := raw.drop frameBytes })

/-- `AI_AUDIO_PLAYER_STAT_PLAY`: the session ends when there is nothing left and the end of the
stream has been written. -/
def passPlay (s : Player) (samples : Bool) (frameBytes : Nat) : Option (PlayerOut × Player) :=
  (mp3Playing s samples frameBytes).map fun r =>
    let ended := r.2.ring = [] ∧ r.2.raw = [] ∧ r.2.isEof = true
    (⟨false, if r.1.isSome then s.taken else [], r.1, ended⟩,
      if ended then { r.2 with stat := .finish } else r.2)

/-- A pass of `__ai_audio_player_task`. -/
def pass (s : Player) (alloc samples : Bool) (frameBytes : Nat) : Option (PlayerOut × Player) :=
  match s.stat with
  | .idle => some (.none, { s with isEof := false })
  | .start =>
    if s.mp3Dec || alloc then some (.none, { s with mp3Dec := true, raw := [], stat := .play })
    else some (.none, { s with stat := .idle })
  | .play => passPlay s samples frameBytes
  | .finish => some (.none, { s with isPlaying := false, stat := .idle, isEof := false })
  | .pause => some (.none, s)

def playerStep (s : Player) : PlayerEvent → Option (PlayerOut × Player)
  | .start id alloc =>
    if s.isPlaying then some (.none, s)
    else some ({ PlayerOut.none with began := true }, playerStart s id alloc)
  | .dataWrite id data isEof => some (.none, dataWrite s id data isEof)
  | .resume i =>
    match s.writers[i]? with
    | none => some (.none, s)
    | some w => some (.none, writeLoop { s with writers := s.writers.eraseIdx i } w)
  | .stop => some (.none, playerStop s)
  | .stopResume =>
    if s.stops = 0 then some (.none, s) else some (.none, stopLoop { s with stops := s.stops - 1 })
  | .pass alloc samples frameBytes => pass s alloc samples frameBytes
  | .timeout => some (.none, { s with stat := .finish })

/-! ### Sessions -/

/-- What has happened since the last start. -/
structure Session where
  /-- The name that was given to the start. -/
  id : Option Bytes
  /-- The calls of `ai_audio_player_data_write` with the same name. -/
  calls : List (Bytes × Bool)
  /-- The bytes that the decoder has got. -/
  handed : Bytes

def dataOf (calls : List (Bytes × Bool)) : Bytes := (calls.map Prod.fst).flatten

def Session.observe (t : Session) (ev : PlayerEvent) (o : PlayerOut) : Session :=
  match ev with
  | .start id _ => if o.began then ⟨id, [], []⟩ else t
  | .dataWrite id data isEof =>
    if id = t.id then { t with calls := t.calls ++ [(data, isEof)] } else t
  | _ => { t with handed := t.handed ++ o.taken }

structure Playing where
  player : Player
  session : Session

def sessionStep (s : Playing) (ev : PlayerEvent) : Playing :=
  match playerStep s.player ev with
  | none => s
  | some (o, player) => ⟨player, s.session.observe ev o⟩

def Playing.init : Playing := ⟨.init, ⟨none, [], []⟩⟩

/-- The stream has been written to its end, and these bytes are all of it. -/
def Complete (calls : List (Bytes × Bool)) (bytes : Bytes) : Prop :=
  ∃ before data after, calls = before ++ (data, true) :: after ∧
    dataOf (before ++ [(data, true)]) <+: bytes

/-- The bytes that the decoder has got are the first ones of the session, it is given the last ones
of them, and the session ends with its stream only after all bytes to the end of the stream. -/
def Unmixed (s : Playing) (ev : PlayerEvent) : Prop :=
  ∃ o player, playerStep s.player ev = some (o, player) ∧
    s.session.handed ++ o.taken <+: dataOf s.session.calls ∧
    (∀ bytes, o.decoded = some bytes → bytes <:+ s.session.handed ++ o.taken) ∧
    (o.ended = true → Complete s.session.calls (s.session.handed ++ o.taken))

/-- The condition on a step. A session is started when nothing is left of another one. Data are
accepted only under the name of the session, and when no other write waits. The decoder consumes at
most what it is given. -/
def Separate (s : Playing) : PlayerEvent → Prop
  | .start _ _ => s.player.isPlaying = false →
    s.player.ring = [] ∧ s.player.isEof = false ∧ s.player.writers = []
  | .dataWrite id _ _ => s.player.stat.accepts = true → comparesId id s.player.id = true →
    id = s.session.id ∧ s.player.writers = []
  | .pass _ _ frameBytes => s.player.stat = .play →
    frameBytes ≤ (s.player.raw ++ s.player.taken).length
  | _ => True

instance instDecidableSeparate (s : Playing) (ev : PlayerEvent) : Decidable (Separate s ev) :=
  match ev with
  | .start _ _ => inferInstanceAs (Decidable (_ → _ ∧ _ ∧ _))
  | .dataWrite _ _ _ => inferInstanceAs (Decidable (_ → _ → _ ∧ _))
  | .pass _ _ _ => inferInstanceAs (Decidable (_ → _))
  | .resume _ => isTrue trivial
  | .stop => isTrue trivial
  | .stopResume => isTrue trivial
  | .timeout => isTrue trivial

/-! ### Keeping sessions apart -/

section Apart

variable {s : Playing}

/-- The bytes that have been written and those that wait are the bytes of the session. -/
structure Fed (p : Player) (t : Session) : Prop where
  id : p.id = t.id
  bytes : t.handed ++ p.ring ++ (p.writers.map Writer.data).flatten = dataOf t.calls
  complete : p.isEof = true → Complete t.calls (t.handed ++ p.ring)
  /-- The call that waits is the last one. -/
  writers : p.writers = [] ∨ ∃ w before data, p.writers = [w] ∧
    t.calls = before ++ [(data, w.isEof)]

/-- The copy of the name has not been allocated, and the session gets no data. -/
structure Starved (p : Player) (t : Session) : Prop where
  id : p.id = none
  id_ne : t.id ≠ none
  handed : t.handed = []
  ring : p.ring = []
  writers : p.writers = []
  isEof : p.isEof = false

structure Apart (p : Player) (t : Session) : Prop where
  handed : t.handed <+: dataOf t.calls
  live : p.stat.accepts = true → Fed p t ∨ Starved p t
  raw : p.stat = .play → p.raw <:+ t.handed

theorem dataOf_append (calls calls' : List (Bytes × Bool)) :
    dataOf (calls ++ calls') = dataOf calls ++ dataOf calls' := by
  rw [dataOf, List.map_append, List.flatten_append]
  rfl

theorem dataOf_singleton (data : Bytes) (isEof : Bool) : dataOf [(data, isEof)] = data := by
  simp [dataOf]

theorem Complete.mono {calls calls' : List (Bytes × Bool)} {bytes bytes' : Bytes}
    (h : Complete calls bytes) (hcalls : calls <+: calls') (hbytes : bytes <+: bytes') :
    Complete calls' bytes' := by
  obtain ⟨before, data, after, rfl, hpre⟩ := h
  obtain ⟨rest, rfl⟩ := hcalls
  exact ⟨before, data, after ++ rest, by simp, hpre.trans hbytes⟩

theorem complete_last {before : List (Bytes × Bool)} {data bytes : Bytes}
    (h : bytes = dataOf (before ++ [(data, true)])) :
    Complete (before ++ [(data, true)]) bytes :=
  ⟨before, data, [], rfl, h ▸ List.prefix_rfl⟩

theorem Apart.over {p : Player} {t : Session} (h : t.handed <+: dataOf t.calls)
    (hstat : p.stat.accepts = false) : Apart p t where
  handed := h
  live hlive := by simp [hstat] at hlive
  raw hplay := by simp [hplay, PlayerStat.accepts] at hstat

theorem comparesId_self (id : Option Bytes) : comparesId id id = true := by
  cases id with
  | none => rfl
  | some s => simp [comparesId]

theorem writeLoop_stat (p : Player) (w : Writer) : (writeLoop p w).stat = p.stat := by
  rw [writeLoop]
  split_ifs
  · rfl
  · dsimp only
    split_ifs <;> rfl

theorem writeLoop_raw (p : Player) (w : Writer) : (writeLoop p w).raw = p.raw := by
  rw [writeLoop]
  split_ifs
  · rfl
  · dsimp only
    split_ifs <;> rfl

/-- **A write.** The bytes of the last call enter the ring buffer in their order. -/
theorem fed_writeLoop {p : Player} {t : Session} {w : Writer} {before : List (Bytes × Bool)}
    {data : Bytes} (hstat : p.stat.accepts = true) (hwriters : p.writers = []) (hid : p.id = t.id)
    (hcalls : t.calls = before ++ [(data, w.isEof)])
    (hbytes : t.handed ++ p.ring ++ w.data = dataOf t.calls)
    (hcomplete : p.isEof = true → Complete t.calls (t.handed ++ p.ring)) :
    Fed (writeLoop p w) t := by
  rw [writeLoop, if_neg (by simp [hstat])]
  dsimp only [fifoStep]
  generalize min (ringCap - p.ring.length) w.data.length = n
  have hsplit : t.handed ++ (p.ring ++ w.data.take n) ++ w.data.drop n = dataOf t.calls := by
    rw [← hbytes, List.append_assoc, List.append_assoc, List.append_assoc, List.take_append_drop]
  split_ifs with hrest
  · rw [hrest, List.append_nil] at hsplit
    refine ⟨hid, by simp [hwriters, hsplit], fun heof => ?_, Or.inl hwriters⟩
    dsimp only at heof ⊢
    rw [heof] at hcalls
    rw [hsplit, hcalls]
    exact complete_last rfl
  · refine ⟨hid, by simp [hwriters, ← hsplit], fun heof => ?_,
      Or.inr ⟨⟨w.data.drop n, w.isEof⟩, before, data, ?_, hcalls⟩⟩
    · exact (hcomplete heof).mono List.prefix_rfl ⟨w.data.take n, List.append_assoc _ _ _⟩
    · simp [hwriters]

/-- **Step lemma.** A write under the name of the session. -/
theorem Apart.dataWrite {p : Player} {t : Session} (h : Apart p t) (id : Option Bytes)
    (data : Bytes) (isEof : Bool)
    (hcond : p.stat.accepts = true → comparesId id p.id = true → id = t.id ∧ p.writers = []) :
    Apart (dataWrite p id data isEof)
      (if id = t.id then { t with calls := t.calls ++ [(data, isEof)] } else t) := by
  have hhanded : (if id = t.id then { t with calls := t.calls ++ [(data, isEof)] } else t).handed =
      t.handed := by split_ifs <;> rfl
  have hpre :
      (if id = t.id then { t with calls := t.calls ++ [(data, isEof)] } else t).handed <+:
        dataOf (if id = t.id then { t with calls := t.calls ++ [(data, isEof)] } else t).calls := by
    rw [hhanded]
    split_ifs
    · rw [dataOf_append]
      exact h.handed.trans (List.prefix_append _ _)
    · exact h.handed
  rw [AiAudio.dataWrite]
  by_cases hstat : p.stat.accepts = true
  · rw [if_neg (by simp [hstat])]
    by_cases hid : comparesId id p.id = true
    · -- the data are accepted
      rw [if_neg (by simp [hid])]
      obtain ⟨rfl, hwriters⟩ := hcond hstat hid
      rw [if_pos rfl] at hpre ⊢
      have hfed : Fed p t := by
        refine (h.live hstat).resolve_right fun hstarved => ?_
        rw [hstarved.id] at hid
        cases hname : t.id with
        | none => exact hstarved.id_ne hname
        | some name => simp [hname, comparesId] at hid
      have hbytes : t.handed ++ p.ring ++ data = dataOf (t.calls ++ [(data, isEof)]) := by
        rw [dataOf_append, dataOf_singleton, ← hfed.bytes, hwriters]
        simp
      have hcomplete (heof : p.isEof = true) :
          Complete (t.calls ++ [(data, isEof)]) (t.handed ++ p.ring) :=
        (hfed.complete heof).mono (List.prefix_append _ _) List.prefix_rfl
      split_ifs with hdata
      · refine ⟨hpre, fun _ => Or.inl ⟨hfed.id, ?_, fun heof => ?_, Or.inl hwriters⟩, h.raw⟩
        · simpa [hwriters, hdata] using hbytes
        · dsimp only at heof ⊢
          subst hdata heof
          rw [List.append_nil] at hbytes
          exact complete_last hbytes
      · refine ⟨hpre, fun _ => Or.inl ?_, fun hplay => ?_⟩
        · exact @fed_writeLoop p { t with calls := t.calls ++ [(data, isEof)] } ⟨data, isEof⟩
            t.calls data hstat hwriters hfed.id rfl hbytes hcomplete
        · rw [writeLoop_raw]
          rw [writeLoop_stat] at hplay
          exact h.raw hplay
    · rw [if_pos (by simpa using hid)]
      refine ⟨hpre, fun _ => ?_, fun hplay => by rw [hhanded]; exact h.raw hplay⟩
      rcases h.live hstat with hfed | hstarved
      · have hne : id ≠ t.id := by
          rintro rfl
          exact hid (hfed.id ▸ comparesId_self _)
        rw [if_neg hne]
        exact Or.inl hfed
      · refine Or.inr ⟨hstarved.id, ?_, hhanded.trans hstarved.handed, hstarved.ring,
          hstarved.writers, hstarved.isEof⟩
        split_ifs
        · exact hstarved.id_ne
        · exact hstarved.id_ne
  · rw [if_pos (by simpa using hstat)]
    exact .over hpre (by simpa using hstat)

/-- **Step lemma.** A write goes on. -/
theorem Apart.resume {p : Player} {t : Session} (h : Apart p t) {i : Nat} {w : Writer}
    (hw : p.writers[i]? = some w) :
    Apart (writeLoop { p with writers := p.writers.eraseIdx i } w) t := by
  by_cases hstat : p.stat.accepts = true
  · refine ⟨h.handed, fun _ => Or.inl ?_, fun hplay => ?_⟩
    · rcases h.live hstat with hfed | hstarved
      · rcases hfed.writers with hnil | ⟨w', before, data, hone, hcalls⟩
        · rw [hnil] at hw
          simp at hw
        · rw [hone] at hw
          obtain ⟨rfl, rfl⟩ : i = 0 ∧ w' = w := by
            cases i with
            | zero => exact ⟨rfl, Option.some.inj hw⟩
            | succ i => simp at hw
          refine fed_writeLoop hstat (by simp [hone]) hfed.id hcalls ?_ hfed.complete
          rw [← hfed.bytes, hone]
          simp
      · rw [hstarved.writers] at hw
        simp at hw
    · rw [writeLoop_raw]
      rw [writeLoop_stat] at hplay
      exact h.raw hplay
  · exact .over h.handed (by rw [writeLoop_stat]; simpa using hstat)

/-- What `__ai_audio_player_mp3_playing` leaves alone, and what it does with the bytes. -/
structure Plays (p p' : Player) (decoded : Option Bytes) (taken : Bytes) : Prop where
  stat : p'.stat = p.stat
  id : p'.id = p.id
  writers : p'.writers = p.writers
  isEof : p'.isEof = p.isEof
  ring : p.ring = taken ++ p'.ring
  input : ∀ bytes, decoded = some bytes → bytes = p.raw ++ taken
  raw : p'.raw <:+ p.raw ++ taken

theorem taken_append_read (p : Player) : p.taken ++ p.read.2 = p.ring := List.take_append_drop _ _

theorem exists_mp3Playing {p : Player} {samples : Bool} {frameBytes : Nat}
    (h : frameBytes ≤ (p.raw ++ p.taken).length) :
    ∃ decoded p', mp3Playing p samples frameBytes = some (decoded, p') ∧
      Plays p p' decoded (if decoded.isSome then p.taken else []) := by
  rw [mp3Playing]
  by_cases hempty : p.mp3Dec = false ∨ (p.ring = [] ∧ p.raw = [])
  · rw [if_pos hempty]
    exact ⟨none, p, rfl, rfl, rfl, rfl, rfl, rfl, by simp, by simp⟩
  · rw [if_neg hempty]
    dsimp only
    by_cases hsamples : samples = false
    · rw [if_pos hsamples]
      exact ⟨_, _, rfl, rfl, rfl, rfl, rfl, (taken_append_read p).symm, by simp,
        List.nil_suffix⟩
    · rw [if_neg hsamples, if_neg (Nat.not_lt.2 h)]
      exact ⟨_, _, rfl, rfl, rfl, rfl, rfl, (taken_append_read p).symm, by simp,
        List.drop_suffix _ _⟩

theorem Plays.fed {p p' : Player} {t : Session} {decoded : Option Bytes} {taken : Bytes}
    (h : Plays p p' decoded taken) (hfed : Fed p t) :
    Fed p' { t with handed := t.handed ++ taken } := by
  have hsame : t.handed ++ taken ++ p'.ring = t.handed ++ p.ring := by
    rw [h.ring, List.append_assoc]
  refine ⟨h.id.trans hfed.id, ?_, fun heof => ?_, by rw [h.writers]; exact hfed.writers⟩
  · dsimp only
    rw [hsame, h.writers]
    exact hfed.bytes
  · dsimp only
    rw [hsame]
    exact hfed.complete (h.isEof ▸ heof)

theorem Plays.starved {p p' : Player} {t : Session} {decoded : Option Bytes} {taken : Bytes}
    (h : Plays p p' decoded taken) (hstarved : Starved p t) :
    Starved p' { t with handed := t.handed ++ taken } := by
  obtain ⟨htaken, hring⟩ : taken = [] ∧ p'.ring = [] := by
    rw [← List.append_eq_nil_iff, ← h.ring]
    exact hstarved.ring
  exact ⟨h.id.trans hstarved.id, hstarved.id_ne, by simp [htaken, hstarved.handed], hring,
    h.writers.trans hstarved.writers, h.isEof.trans hstarved.isEof⟩

theorem handed_of_live {p : Player} {t : Session} (h : Fed p t ∨ Starved p t) :
    t.handed <+: dataOf t.calls := by
  rcases h with hfed | hstarved
  · rw [← hfed.bytes, List.append_assoc]
    exact List.prefix_append _ _
  · rw [hstarved.handed]
    exact List.nil_prefix

/-- **Step lemma.** A pass in which a session plays. -/
theorem Apart.passPlay {p : Player} {t : Session} (h : Apart p t) (hstat : p.stat = .play)
    {samples : Bool} {frameBytes : Nat} (hframe : frameBytes ≤ (p.raw ++ p.taken).length) :
    ∃ o p', passPlay p samples frameBytes = some (o, p') ∧
      (∀ bytes, o.decoded = some bytes → bytes <:+ t.handed ++ o.taken) ∧
      (o.ended = true → Complete t.calls (t.handed ++ o.taken)) ∧
      Apart p' { t with handed := t.handed ++ o.taken } := by
  obtain ⟨decoded, p', hplaying, hplays⟩ := @exists_mp3Playing p samples frameBytes hframe
  rw [AiAudio.passPlay, hplaying]
  refine ⟨_, _, rfl, ?_⟩
  dsimp only
  generalize (if decoded.isSome then p.taken else []) = taken at hplays
  have hlive : Fed p' { t with handed := t.handed ++ taken } ∨
      Starved p' { t with handed := t.handed ++ taken } :=
    (h.live (by rw [hstat]; rfl)).imp hplays.fed hplays.starved
  have hsuffix {bytes : Bytes} (hbytes : bytes <:+ p.raw ++ taken) :
      bytes <:+ t.handed ++ taken := by
    obtain ⟨rest, hrest⟩ := h.raw hstat
    refine hbytes.trans ⟨rest, ?_⟩
    rw [← List.append_assoc, hrest]
  refine ⟨fun bytes hbytes => hsuffix ?_, fun hended => ?_, ?_⟩
  · rw [hplays.input bytes hbytes]
  · obtain ⟨hring, -, heof⟩ := of_decide_eq_true hended
    rcases hlive with hfed | hstarved
    · have hcomplete := hfed.complete heof
      rwa [hring, List.append_nil] at hcomplete
    · rw [hstarved.isEof] at heof
      cases heof
  · split_ifs
    · exact .over (handed_of_live hlive) rfl
    · exact ⟨handed_of_live hlive, fun _ => hlive, fun _ => hsuffix hplays.raw⟩

theorem apart_playerStart (p : Player) (id : Option Bytes) (alloc : Bool) (hring : p.ring = [])
    (heof : p.isEof = false) (hwriters : p.writers = []) :
    Apart (playerStart p id alloc) ⟨id, [], []⟩ := by
  refine ⟨List.nil_prefix, fun _ => ?_, fun hplay => by cases hplay⟩
  by_cases hid : (if alloc then id else none) = id
  · exact Or.inl ⟨hid, by simp [playerStart, hring, hwriters, dataOf],
      fun htrue => by simp [playerStart, heof] at htrue, Or.inl hwriters⟩
  · have halloc : alloc = false := by
      by_contra htrue
      exact hid (if_pos (by simpa using htrue))
    subst halloc
    exact Or.inr ⟨rfl, fun hnone => hid hnone.symm, rfl, hring, hwriters, heof⟩

theorem Apart.of_eq {p p' : Player} {t : Session} (h : Apart p t) (hstat : p'.stat = p.stat)
    (hid : p'.id = p.id) (hring : p'.ring = p.ring) (heof : p'.isEof = p.isEof)
    (hraw : p'.raw = p.raw) (hwriters : p'.writers = p.writers) : Apart p' t := by
  refine ⟨h.handed, fun hlive => ?_, fun hplay => ?_⟩
  · rw [hstat] at hlive
    refine (h.live hlive).imp (fun hfed => ⟨?_, ?_, ?_, ?_⟩)
      fun hstarved => ⟨?_, ?_, ?_, ?_, ?_, ?_⟩
    · rw [hid]; exact hfed.id
    · rw [hring, hwriters]; exact hfed.bytes
    · rw [hring, heof]; exact hfed.complete
    · rw [hwriters]; exact hfed.writers
    · rw [hid]; exact hstarved.id
    · exact hstarved.id_ne
    · exact hstarved.handed
    · rw [hring]; exact hstarved.ring
    · rw [hwriters]; exact hstarved.writers
    · rw [heof]; exact hstarved.isEof
  · rw [hraw]
    rw [hstat] at hplay
    exact h.raw hplay

theorem Apart.stopLoop {p : Player} {t : Session} (h : Apart p t) : Apart (stopLoop p) t := by
  rw [AiAudio.stopLoop]
  split_ifs
  · exact h.of_eq rfl rfl rfl rfl rfl rfl
  · exact .over h.handed rfl

theorem Apart.playerStop {p : Player} {t : Session} (h : Apart p t) : Apart (playerStop p) t := by
  rw [AiAudio.playerStop]
  split_ifs
  · exact h
  · exact .stopLoop (.over h.handed rfl)

/-- **Step lemma.** A pass. -/
theorem Apart.pass {p : Player} {t : Session} (h : Apart p t) (alloc samples : Bool)
    {frameBytes : Nat} (hframe : p.stat = .play → frameBytes ≤ (p.raw ++ p.taken).length) :
    ∃ o p', pass p alloc samples frameBytes = some (o, p') ∧
      (∀ bytes, o.decoded = some bytes → bytes <:+ t.handed ++ o.taken) ∧
      (o.ended = true → Complete t.calls (t.handed ++ o.taken)) ∧
      Apart p' { t with handed := t.handed ++ o.taken } := by
  have hnil : ({ t with handed := t.handed ++ [] } : Session) = t := by rw [List.append_nil]
  have hnone {p' : Player} (h' : Apart p' t) :
      (∀ bytes, PlayerOut.none.decoded = some bytes → bytes <:+ t.handed ++ []) ∧
      (PlayerOut.none.ended = true → Complete t.calls (t.handed ++ [])) ∧
      Apart p' { t with handed := t.handed ++ [] } :=
    ⟨fun _ hbytes => by simp [PlayerOut.none] at hbytes,
      fun hended => by simp [PlayerOut.none] at hended, hnil.symm ▸ h'⟩
  rw [AiAudio.pass]
  cases hstat : p.stat with
  | idle => exact ⟨_, _, rfl, hnone (.over h.handed rfl)⟩
  | start =>
    dsimp only
    split_ifs
    · refine ⟨_, _, rfl, hnone ⟨h.handed, fun _ => ?_, fun _ => List.nil_suffix⟩⟩
      refine (h.live (by rw [hstat]; rfl)).imp (fun hfed => ?_) fun hstarved => ?_
      · exact ⟨hfed.id, hfed.bytes, hfed.complete, hfed.writers⟩
      · exact ⟨hstarved.id, hstarved.id_ne, hstarved.handed, hstarved.ring, hstarved.writers,
          hstarved.isEof⟩
    · exact ⟨_, _, rfl, hnone (.over h.handed rfl)⟩
  | play => exact h.passPlay hstat (hframe hstat)
  | finish => exact ⟨_, _, rfl, hnone (.over h.handed rfl)⟩
  | pause => exact ⟨_, _, rfl, hnone h⟩

theorem Apart.unmixed_none (h : Apart s.player s.session) {ev : PlayerEvent} {player : Player}
    (hstep : playerStep s.player ev = some (.none, player)) : Unmixed s ev := by
  refine ⟨_, _, hstep, ?_, fun _ hbytes => ?_, fun hended => ?_⟩
  · rw [PlayerOut.none, List.append_nil]
    exact h.handed
  · simp [PlayerOut.none] at hbytes
  · simp [PlayerOut.none] at hended

theorem sessionStep_of_some {ev : PlayerEvent} {o : PlayerOut} {player : Player}
    (hstep : playerStep s.player ev = some (o, player)) :
    sessionStep s ev = ⟨player, s.session.observe ev o⟩ := by
  rw [sessionStep, hstep]

theorem Apart.quiet (h : Apart s.player s.session) {ev : PlayerEvent} {player : Player}
    (hstep : playerStep s.player ev = some (.none, player))
    (hobserve : s.session.observe ev .none = s.session) (h' : Apart player s.session) :
    Unmixed s ev ∧ Apart (sessionStep s ev).player (sessionStep s ev).session := by
  rw [sessionStep_of_some hstep, hobserve]
  exact ⟨h.unmixed_none hstep, h'⟩

/-- **One step.** A step that meets the condition does not mix sessions, and keeps them apart. -/
theorem Apart.step (h : Apart s.player s.session) {ev : PlayerEvent} (hcond : Separate s ev) :
    Unmixed s ev ∧ Apart (sessionStep s ev).player (sessionStep s ev).session := by
  have hsame : ({ s.session with handed := s.session.handed ++ [] } : Session) = s.session := by
    rw [List.append_nil]
  cases ev with
  | start id alloc =>
    by_cases hplaying : s.player.isPlaying = true
    · exact h.quiet (if_pos hplaying) rfl h
    · have hstep : playerStep s.player (.start id alloc) =
          some ({ PlayerOut.none with began := true }, playerStart s.player id alloc) :=
        if_neg hplaying
      obtain ⟨hring, heof, hwriters⟩ := hcond (by simpa using hplaying)
      rw [sessionStep_of_some hstep]
      refine ⟨⟨_, _, hstep, ?_, ?_, ?_⟩, apart_playerStart _ id alloc hring heof hwriters⟩
      · simpa [PlayerOut.none] using h.handed
      · simp [PlayerOut.none]
      · simp [PlayerOut.none]
  | dataWrite id data isEof =>
    have hstep : playerStep s.player (.dataWrite id data isEof) =
      some (.none, AiAudio.dataWrite s.player id data isEof) := rfl
    rw [sessionStep_of_some hstep]
    exact ⟨h.unmixed_none hstep, h.dataWrite id data isEof hcond⟩
  | resume i =>
    cases hw : s.player.writers[i]? with
    | none => exact h.quiet (by rw [playerStep, hw]) hsame h
    | some w => exact h.quiet (by rw [playerStep, hw]) hsame (h.resume hw)
  | stop => exact h.quiet rfl hsame h.playerStop
  | stopResume =>
    by_cases hstops : s.player.stops = 0
    · exact h.quiet (if_pos hstops) hsame h
    · have h' : Apart { s.player with stops := s.player.stops - 1 } s.session :=
        h.of_eq rfl rfl rfl rfl rfl rfl
      exact h.quiet (if_neg hstops) hsame h'.stopLoop
  | pass alloc samples frameBytes =>
    obtain ⟨o, p', hpass, hdecoded, hended, happart⟩ := h.pass alloc samples hcond
    have hstep : playerStep s.player (.pass alloc samples frameBytes) = some (o, p') := hpass
    rw [sessionStep_of_some hstep]
    exact ⟨⟨o, p', hstep, happart.handed, hdecoded, hended⟩, happart⟩
  | timeout => exact h.quiet rfl hsame (.over h.handed rfl)

end Apart

/-- **Audio sessions.** In every interleaving of starts, writes, stops, passes and timeouts whose
steps meet the condition, the decoder gets the first bytes of what has been written under the name
of its session, and a session ends with its stream only after all bytes to the end of the stream. -/
theorem unmixed_of_separate (evs : List PlayerEvent)
    (h : Guarded sessionStep Separate .init evs) : Guarded sessionStep Unmixed .init evs :=
  @Guarded.of_invariant Playing PlayerEvent sessionStep Separate Unmixed
    (fun s => Apart s.player s.session) (fun _ _ hinv hcond => (hinv.step hcond).1)
    (fun _ _ hinv hcond => (hinv.step hcond).2) _ _ (.over List.nil_prefix rfl) h

/-- Two sessions after each other, the second one after a pass of the idle player. -/
def twoSessions : List PlayerEvent :=
  [.start (some [97]) true, .dataWrite (some [97]) [1, 2] true, .pass true true 0,
    .pass true true 2, .pass true true 0, .start none true, .dataWrite none [3] false,
    .pass true true 0, .pass true true 1, .stop]

theorem unmixed_of_separate_twoSessions : Guarded sessionStep Unmixed .init twoSessions :=
  unmixed_of_separate twoSessions (by decide +kernel)

/-- The first session is stopped after the end of its stream has been written, and the second one is
started before the task has passed: it ends before anything has been written to it. -/
def stoppedSession : List PlayerEvent :=
  [.start (some [97]) true, .dataWrite (some [97]) [1] true, .stop, .start (some [98]) true,
    .pass true true 0]

/-- The bytes that are written without a name reach the decoder in a session with a name. -/
def namelessWrite : List PlayerEvent :=
  [.start (some [97]) true, .pass true true 0, .dataWrite none [1] false]

theorem not_unmixed_stoppedSession :
    ¬Unmixed (stoppedSession.foldl sessionStep .init) (.pass true true 0) ∧
      ¬Unmixed (namelessWrite.foldl sessionStep .init) (.pass true true 1) := by
  constructor
  · rintro ⟨o, player, hstep, -, -, hended⟩
    have hpass : playerStep (stoppedSession.foldl sessionStep .init).player (.pass true true 0) =
        some (⟨false, [], none, true⟩,
          ⟨true, false, .finish, some [98], [], true, true, [], [], 0⟩) := rfl
    obtain ⟨rfl, -⟩ := Prod.mk.inj (Option.some.inj (hpass.symm.trans hstep))
    obtain ⟨before, data, after, hcalls, -⟩ := hended rfl
    have hnil : (stoppedSession.foldl sessionStep .init).session.calls = [] := rfl
    rw [hnil] at hcalls
    simp at hcalls
  · rintro ⟨o, player, hstep, hpre, -, -⟩
    have hpass : playerStep (namelessWrite.foldl sessionStep .init).player (.pass true true 1) =
        some (⟨false, [1], some [1], false⟩,
          ⟨true, false, .play, some [97], [], false, true, [], [], 0⟩) := rfl
    obtain ⟨rfl, -⟩ := Prod.mk.inj (Option.some.inj (hpass.symm.trans hstep))
    exact absurd hpre (by decide)

end TuyaOpen.AiAudio
