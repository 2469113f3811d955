import TuyaOpen.Lan.Receive

/-!
# What moves the clock and the sequence number of a session

A frame head moves the sequence number before the frame has been decrypted, and a heartbeat moves
the time without being decrypted. Nothing else moves the time but a frame whose tag has been
verified under the key of the session.
-/

namespace TuyaOpen.Lan

open Protocol

def sessionKey (env : LanEnv) (session : LanSession) (type : UInt32) : Bytes :=
  if isHandshake type then env.localkey.take sessionkeyLen else session.secretKey

def Verified (env : LanEnv) (link : LanLink) (head : LanHead) (frame : Bytes) : Prop :=
  ∃ f, lpv35FrameParse env.gcm env.malloc (sessionKey env link.session head.type) frame =
    .ok (oprtOk, some f)

/-- A heartbeat on a session with a key, which is answered before it is decrypted. -/
def IsHeartbeat (link : LanLink) (head : LanHead) : Prop :=
  head.type = frmTpHb ∧ hasSecretKey link.session = true

/-! ### One act -/

section Act

variable {env : LanEnv} {link : LanLink}

theorem lanSessionTimeUpdate_fields (fdNum : Nat) (s : LanSession) (time : UInt32) :
    (lanSessionTimeUpdate fdNum s time).active = s.active ∧
      (lanSessionTimeUpdate fdNum s time).sequenceIn = s.sequenceIn := by
  rw [lanSessionTimeUpdate]
  split_ifs <;> exact ⟨rfl, rfl⟩

theorem lanDecode_spec (env : LanEnv) (link : LanLink) (key : Bytes) (head : LanHead) (frame : Bytes) :
    (lanDecode env link key head frame).1.session.active = link.session.active ∧
      (lanDecode env link key head frame).1.session.sequenceIn = link.session.sequenceIn ∧
      ((lanDecode env link key head frame).1.session.time = link.session.time ∨
        head.type = frmTpHb ∨
        ∃ f, lpv35FrameParse env.gcm env.malloc key frame = .ok (oprtOk, some f)) := by
  rw [lanDecode]
  dsimp only
  by_cases hhb : head.type = frmTpHb
  · rw [if_pos hhb]
    have hsend := sameClock_lanSend env (env.tick head.sequence).fate link.fdNum link.session
      frmTpHb 0 []
    have htime := lanSessionTimeUpdate_fields link.fdNum
      (lanSend env (env.tick head.sequence).fate link.fdNum link.session frmTpHb 0 []).2.1
      (env.tick head.sequence).now
    exact ⟨htime.1.trans hsend.active, htime.2.trans hsend.sequenceIn, Or.inr (Or.inl hhb)⟩
  rw [if_neg hhb]
  split
  · next rt f hparse =>
    obtain ⟨rfl, -, -⟩ := of_lpv35FrameParse_some hparse
    have htime := lanSessionTimeUpdate_fields link.fdNum link.session (env.tick head.sequence).now
    have hprocess := sameClock_lanProtocolProcess env (env.tick head.sequence) link.fdNum
      (lanSessionTimeUpdate link.fdNum link.session (env.tick head.sequence).now) f
    exact ⟨hprocess.active.trans htime.1, hprocess.sequenceIn.trans htime.2,
      Or.inr (Or.inr ⟨f, hparse⟩)⟩
  · exact ⟨rfl, rfl, Or.inl rfl⟩

/-- While the session stays open, a complete frame does not move the sequence number, and moves the
time only when it is verified or a heartbeat. -/
theorem lanFrame_spec {head : LanHead} {frame : Bytes}
    (hactive : (lanFrame env link head frame).1.session.active = true) :
    link.session.active = true ∧
      (lanFrame env link head frame).1.session.sequenceIn = link.session.sequenceIn ∧
      ((lanFrame env link head frame).1.session.time = link.session.time ∨
        Verified env link head frame ∨ IsHeartbeat link head) := by
  rw [lanFrame] at hactive ⊢
  dsimp only at hactive ⊢
  have hkeep : ∀ l : LanLink, l.close.session.active = true →
      l.session.active = true ∧ l.close.session.sequenceIn = l.session.sequenceIn ∧
        l.close.session.time = l.session.time := by
    intro l h
    have hsame := close_session_of_active h
    rw [hsame] at h ⊢
    exact ⟨h, rfl, rfl⟩
  by_cases hact : env.isActivated = false
  · rw [if_pos hact] at hactive ⊢
    obtain ⟨h1, h2, h3⟩ := hkeep _ hactive
    exact ⟨h1, h2, Or.inl h3⟩
  rw [if_neg hact] at hactive ⊢
  by_cases hshake : isHandshake head.type
  · rw [if_pos hshake] at hactive ⊢
    by_cases hkey : hasSecretKey link.session = true
    · rw [if_pos hkey] at hactive ⊢
      obtain ⟨h1, h2, h3⟩ := hkeep _ hactive
      exact ⟨h1, h2, Or.inl h3⟩
    · rw [if_neg hkey] at hactive ⊢
      obtain ⟨h1, h2, h3⟩ := lanDecode_spec env
        { link with allowNoSessionKeyNum := allowNoKeyNum } (env.localkey.take sessionkeyLen) head frame
      refine ⟨h1 ▸ hactive, h2, h3.imp_right ?_⟩
      rintro (hhb | ⟨f, hf⟩)
      · rw [hhb] at hshake
        exact absurd hshake (by decide)
      · exact Or.inl ⟨f, by rw [sessionKey, if_pos hshake]; exact hf⟩
  rw [if_neg hshake] at hactive ⊢
  by_cases hkey : hasSecretKey link.session = true
  · rw [if_pos hkey] at hactive ⊢
    obtain ⟨h1, h2, h3⟩ := lanDecode_spec env link link.session.secretKey head frame
    refine ⟨h1 ▸ hactive, h2, h3.imp_right ?_⟩
    rintro (hhb | ⟨f, hf⟩)
    · exact Or.inr ⟨hhb, hkey⟩
    · exact Or.inl ⟨f, by rw [sessionKey, if_neg hshake]; exact hf⟩
  rw [if_neg hkey] at hactive ⊢
  split_ifs at hactive ⊢
  · exact ⟨hactive, rfl, Or.inl rfl⟩
  · obtain ⟨h1, h2, h3⟩ := hkeep _ hactive
    exact ⟨h1, h2, Or.inl h3⟩

theorem lanSequence_spec {head : LanHead}
    (hactive : (lanSequence env link head).session.active = true) :
    link.session.active = true ∧ (lanSequence env link head).session.time = link.session.time ∧
      ((lanSequence env link head).session.sequenceIn = link.session.sequenceIn ∨
        link.session.sequenceIn < head.sequence) := by
  rw [lanSequence] at hactive ⊢
  by_cases hle : head.sequence ≤ link.session.sequenceIn
  · rw [if_pos hle] at hactive ⊢
    split_ifs at hactive ⊢
    · have hsame := close_session_of_active hactive
      rw [hsame] at hactive ⊢
      exact ⟨hactive, rfl, Or.inl rfl⟩
    · exact ⟨hactive, rfl, Or.inl rfl⟩
  · rw [if_neg hle] at hactive ⊢
    exact ⟨hactive, rfl, Or.inr (UInt32.not_le.mp hle)⟩

theorem lanAct_spec {a : LanAct} (hactive : (lanAct env link a).1.session.active = true) :
    link.session.active = true ∧
      ((lanAct env link a).1.session.time = link.session.time ∨
        ∃ head frame, a = .frame head frame ∧
          (Verified env link head frame ∨ IsHeartbeat link head)) ∧
      ((lanAct env link a).1.session.sequenceIn = link.session.sequenceIn ∨
        ∃ head, a = .sequence head ∧ link.session.sequenceIn < head.sequence) := by
  cases a with
  | sequence head =>
    obtain ⟨h1, h2, h3⟩ := lanSequence_spec hactive
    exact ⟨h1, Or.inl h2, h3.imp_right fun h => ⟨head, rfl, h⟩⟩
  | frame head frame =>
    obtain ⟨h1, h2, h3⟩ := lanFrame_spec hactive
    exact ⟨h1, h3.imp_right fun h => ⟨head, frame, rfl, h⟩, Or.inl h2⟩
  | recvErr =>
    have h := sameClock_lanSessionFaultSet link.fdNum link.session
    exact ⟨h.active.symm.trans hactive, Or.inl h.time, Or.inl h.sequenceIn⟩

end Act

/-! ### Runs -/

section Run

variable {env : LanEnv} {link : LanLink} {acts : List LanAct}

end Run

def rejectingEnv : LanEnv where
  gcm := Aead.ofEntries ⟨oprtComError, oprtComError_ne_ok⟩ [] (by decide) (by decide)
  mac := Mac.ofEntries ⟨oprtComError, oprtComError_ne_ok⟩ [] (by decide)
  malloc _ := true
  localkey := List.replicate 16 0x61
  isActivated := true
  sequenceErrThreshold := 0
  describe _ := []
  queryStat _ := (0, [])
  tick _ :=
    { now := 5, randB := List.replicate randLen 0x30, fate := .sent, length_randB := rfl }

def keyedRecv : LanRecv where
  out :=
    { link :=
        { session :=
            { newSession 7 1 0 with sequenceIn := 1, secretKey := List.replicate sessionkeyLen 1 }
          fdNum := 1
          allowNoSessionKeyNum := allowNoKeyNum }
      acts := []
      handled := [] }
  mode := .idle
  pending := []

end TuyaOpen.Lan
