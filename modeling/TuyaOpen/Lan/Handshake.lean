import TuyaOpen.Lan.Authentic

/-!
# Key agreement of a LAN session

A session is treated as keyed when the first byte of its session key is not zero. Beside the
session, a run keeps what has really happened: the random string that was issued in answer to a
frame of type 3, and whether a frame of type 5 with the right code of that string has been
processed. The two agree as long as the derived session keys do not start with a zero byte and no
frame of type 5 is accepted before a frame of type 3.

## Main results

* `treatedAsKeyed_of_guarded`: in a run whose steps all meet the condition, the session is treated
  as keyed exactly from the handshake on.
* `exists_not_treatedAsKeyed`: a handshake whose session key starts with a zero byte.
* `exists_keyRun`: what the receiver does is a run of such events.
-/

namespace TuyaOpen.Lan

open Protocol

/-! ### Runs -/

/-- What happens to an open session: bytes are received, the state of the device is reported, other
frames are sent, it is marked as faulty, or closed. -/
inductive KeyEvent
  | act (a : LanAct)
  | report (fate : SendFate) (out : Bytes)
  | send (fate : SendFate) (frType retCode : UInt32) (data : Bytes)
  | fault
  | close

/-- A session with the history of its handshake: the random string that has been issued, and
whether the key has been agreed on. -/
structure KeyState where
  link : LanLink
  issued : Option Bytes
  agreed : Bool

def keyLink (env : LanEnv) (link : LanLink) : KeyEvent → LanLink
  | .act a => (lanAct env link a).1
  | .report fate out => { link with session := (lanDpReport env fate link.fdNum link.session out).1 }
  | .send fate frType retCode data =>
    { link with session := (lanSend env fate link.fdNum link.session frType retCode data).2.1 }
  | .fault => { link with session := lanSessionFaultSet link.fdNum link.session }
  | .close => link.close

def isMac (env : LanEnv) (data code : Bytes) : Bool :=
  match env.mac.mac (cString env.localkey) data with
  | .ok c => c = code
  | .error _ => false

def nextIssued (env : LanEnv) (s : KeyState) (sequence : UInt32) (f : Lpv35Frame) : Option Bytes :=
  if f.type = frmSecurityType3 ∧ randLen ≤ f.data.length then some (env.tick sequence).randB
  else s.issued

def nextAgreed (env : LanEnv) (s : KeyState) (f : Lpv35Frame) : Bool :=
  s.agreed || (decide (f.type = frmSecurityType5 ∧ hmacLen ≤ f.data.length) &&
    match s.issued with
    | none => false
    | some randB => isMac env randB (f.data.take hmacLen))

/-- The history of the handshake after an event, with the session that the event leaves. -/
def keyHistory (env : LanEnv) (s : KeyState) (link : LanLink) : KeyEvent → KeyState
  | .act (.frame head frame) =>
    match (lanAct env s.link (.frame head frame)).2 with
    | some (.process f) =>
      { link := link
        issued := nextIssued env s head.sequence f
        agreed := nextAgreed env s f }
    | _ => { s with link := link }
  | _ => { s with link := link }

def keyStep (env : LanEnv) (s : KeyState) (ev : KeyEvent) : KeyState :=
  if (keyLink env s.link ev).session.active = false then
    { link := keyLink env s.link ev, issued := none, agreed := false }
  else keyHistory env s (keyLink env s.link ev) ev

def KeyEvent.Framed : KeyEvent → Prop
  | .act a => Lan.Framed a
  | _ => True

def keyInit (fd : Int) (now sequenceOut : UInt32) (fdNum allowNoSessionKeyNum : Nat) : KeyState where
  link :=
    { session := newSession fd now sequenceOut
      fdNum := fdNum
      allowNoSessionKeyNum := allowNoSessionKeyNum }
  issued := none
  agreed := false

/-! ### The property and the condition -/

/-- The session is treated as keyed when the key has been agreed on, and only then: frames are sent
under the session key, the state is reported, and frames that do not belong to the handshake are
handed on, when their tag is right under the session key; before, they are not handed on. -/
structure TreatedAsKeyed (env : LanEnv) (s : KeyState) : Prop where
  sendKey : lanSendKey env s.link.session =
    if s.agreed then s.link.session.secretKey else env.localkey.take sessionkeyLen
  report : ∀ fate out, lanDpReport env fate s.link.fdNum s.link.session out =
    if s.agreed = true ∧ s.link.session.fault = false then
      (lanSend env fate s.link.fdNum s.link.session frmTpStatReport 0 out).2
    else (s.link.session, none)
  accept : s.agreed = true → env.isActivated = true → ∀ head frame, ¬isHandshake head.type →
    Verified env s.link head frame → (lanAct env s.link (.frame head frame)).2 ≠ none
  reject : s.agreed = false → ∀ head frame, ¬isHandshake head.type →
    (lanAct env s.link (.frame head frame)).2 = none

/-- The session key that is derived from the random strings of the session does not start with a
zero byte. -/
def derivesKey (env : LanEnv) (session : LanSession) : Bool :=
  match env.gcm.encrypt (env.localkey.take sessionkeyLen)
      (session.randA.take lpv35FrameNonceSize) [] (xorBytes session.randA session.randB) with
  | .ok (ct, _) => ct.headD 0 ≠ 0
  | .error _ => false

/-- A frame of type 5 whose code is accepted comes after a frame of type 3, and the session key that
is derived then does not start with a zero byte. -/
def AgreesProperly (env : LanEnv) (s : KeyState) (f : Lpv35Frame) : Prop :=
  f.type = frmSecurityType5 → hmacLen ≤ f.data.length →
    sha256Mac env s.link.session.randB s.link.session.hmac = f.data.take hmacLen →
    s.issued.isSome = true ∧ isMac env s.link.session.randB (f.data.take hmacLen) = true ∧
      derivesKey env s.link.session = true

def KeyCond (env : LanEnv) (s : KeyState) : KeyEvent → Prop
  | .act (.frame head frame) =>
    match (lanAct env s.link (.frame head frame)).2 with
    | some (.process f) => AgreesProperly env s f
    | _ => True
  | _ => True

theorem keyCond_of_process {env : LanEnv} {s : KeyState} {head : LanHead} {frame : Bytes}
    {f : Lpv35Frame} (h : (lanAct env s.link (.frame head frame)).2 = some (.process f))
    (hf : AgreesProperly env s f) : KeyCond env s (.act (.frame head frame)) := by
  rw [KeyCond, h]
  exact hf

/-! ### What leaves the key alone -/

/-- The fields of a session that the handshake is about. -/
structure SameKeys (s s' : LanSession) : Prop where
  randA : s'.randA = s.randA
  randB : s'.randB = s.randB
  secretKey : s'.secretKey = s.secretKey

theorem SameKeys.refl (s : LanSession) : SameKeys s s := ⟨rfl, rfl, rfl⟩

theorem SameKeys.trans {s s' s'' : LanSession} (h : SameKeys s s') (h' : SameKeys s' s'') :
    SameKeys s s'' :=
  ⟨h'.randA.trans h.randA, h'.randB.trans h.randB, h'.secretKey.trans h.secretKey⟩

theorem SameKeys.hasSecretKey {s s' : LanSession} (h : SameKeys s s') :
    hasSecretKey s' = hasSecretKey s := by
  rw [Lan.hasSecretKey, Lan.hasSecretKey, h.secretKey]

theorem sameKeys_lanSessionFaultSet (fdNum : Nat) (s : LanSession) :
    SameKeys s (lanSessionFaultSet fdNum s) := by
  rw [lanSessionFaultSet]
  split_ifs <;> exact ⟨rfl, rfl, rfl⟩

theorem sameKeys_lanSessionTimeUpdate (fdNum : Nat) (s : LanSession) (time : UInt32) :
    SameKeys s (lanSessionTimeUpdate fdNum s time) := by
  rw [lanSessionTimeUpdate]
  split_ifs <;> exact ⟨rfl, rfl, rfl⟩

theorem sameKeys_lanSend (env : LanEnv) (fate : SendFate) (fdNum : Nat) (s : LanSession)
    (frType retCode : UInt32) (data : Bytes) :
    SameKeys s (lanSend env fate fdNum s frType retCode data).2.1 := by
  rw [lanSend]
  dsimp only
  split_ifs
  · exact SameKeys.refl s
  · exact SameKeys.refl s
  · exact SameKeys.refl s
  · cases fate with
    | noPlaintext => exact SameKeys.refl s
    | noBuffer => exact ⟨rfl, rfl, rfl⟩
    | noSerialize => exact ⟨rfl, rfl, rfl⟩
    | failed =>
      refine SameKeys.trans ?_ (sameKeys_lanSessionFaultSet fdNum _)
      exact ⟨rfl, rfl, rfl⟩
    | sent => exact ⟨rfl, rfl, rfl⟩

theorem sameKeys_lanDpReport (env : LanEnv) (fate : SendFate) (fdNum : Nat) (s : LanSession)
    (out : Bytes) : SameKeys s (lanDpReport env fate fdNum s out).1 := by
  rw [lanDpReport]
  split_ifs
  · exact sameKeys_lanSend env fate fdNum s _ _ _
  · exact SameKeys.refl s

theorem sameKeys_lanProtocolProcess (env : LanEnv) (tick : LanTick) (fdNum : Nat)
    (s : LanSession) {f : Lpv35Frame} (h3 : f.type ≠ frmSecurityType3)
    (h5 : f.type ≠ frmSecurityType5) :
    SameKeys s (lanProtocolProcess env tick fdNum s f).1 := by
  rw [lanProtocolProcess]
  dsimp only
  rw [if_neg h3, if_neg h5]
  split_ifs
  · exact sameKeys_lanSend env tick.fate fdNum s _ _ _
  · exact sameKeys_lanSend env tick.fate fdNum s _ _ _
  · exact SameKeys.refl s

theorem processType3_keys (env : LanEnv) (tick : LanTick) (fdNum : Nat) (s : LanSession)
    (out : Bytes) :
    (processType3 env tick fdNum s out).1.secretKey = s.secretKey ∧
      (processType3 env tick fdNum s out).1.randB =
        if randLen ≤ out.length then tick.randB else s.randB := by
  rw [processType3]
  dsimp only
  by_cases hlen : out.length < randLen
  · rw [if_pos hlen, if_neg (Nat.not_le.mpr hlen)]
    exact ⟨rfl, rfl⟩
  rw [if_neg hlen, if_pos (Nat.not_lt.mp hlen)]
  split_ifs
  · have hsend := sameKeys_lanSend env tick.fate fdNum
      { s with
        randA := out.take randLen
        hmac := sha256Mac env (out.take randLen) s.hmac
        randB := tick.randB } frmSecurityType4 0
      (tick.randB ++ sha256Mac env (out.take randLen) s.hmac)
    exact ⟨hsend.secretKey, hsend.randB⟩
  · exact ⟨rfl, rfl⟩

theorem processType5_randB (env : LanEnv) (fdNum : Nat) (s : LanSession) (out : Bytes) :
    (processType5 env fdNum s out).randB = s.randB := by
  rw [processType5]
  dsimp only
  split_ifs
  · rfl
  · exact (sameKeys_lanSessionFaultSet fdNum _).randB
  · split
    · exact (sameKeys_lanSessionFaultSet fdNum _).randB
    · rfl

theorem processType5_of_ne (env : LanEnv) (fdNum : Nat) (s : LanSession) {out : Bytes}
    (h : out.length < hmacLen ∨ sha256Mac env s.randB s.hmac ≠ out.take hmacLen) :
    (processType5 env fdNum s out).secretKey = s.secretKey := by
  rw [processType5]
  dsimp only
  by_cases hlen : out.length < hmacLen
  · rw [if_pos hlen]
  · rw [if_neg hlen, if_pos (h.resolve_left hlen)]
    exact (sameKeys_lanSessionFaultSet fdNum _).secretKey

theorem processType5_of_eq (env : LanEnv) (fdNum : Nat) (s : LanSession) {out ct tag : Bytes}
    (hlen : hmacLen ≤ out.length) (hmac : sha256Mac env s.randB s.hmac = out.take hmacLen)
    (henc : env.gcm.encrypt (env.localkey.take sessionkeyLen)
      (s.randA.take lpv35FrameNonceSize) [] (xorBytes s.randA s.randB) = .ok (ct, tag)) :
    (processType5 env fdNum s out).secretKey = ct := by
  rw [processType5]
  dsimp only
  rw [if_neg (Nat.not_lt.mpr hlen), if_neg (not_not.mpr hmac), henc]

/-! ### The frames that are handed on -/

section Handed

variable {env : LanEnv} {link : LanLink} {head : LanHead} {frame : Bytes}

theorem lanDecode_cases (env : LanEnv) (link : LanLink) (key : Bytes) (head : LanHead)
    (frame : Bytes) :
    ((lanDecode env link key head frame).2 = none ∧
        (lanDecode env link key head frame).1 = link) ∨
      (∃ sequence, (lanDecode env link key head frame).2 = some (.heartbeat sequence) ∧
        SameKeys link.session (lanDecode env link key head frame).1.session) ∨
      ∃ f, (lanDecode env link key head frame).2 = some (.process f) ∧
        lpv35FrameParse env.gcm env.malloc key frame = .ok (oprtOk, some f) ∧
        (lanDecode env link key head frame).1.session =
          (lanProtocolProcess env (env.tick head.sequence) link.fdNum
            (lanSessionTimeUpdate link.fdNum link.session (env.tick head.sequence).now) f).1 := by
  rw [lanDecode]
  dsimp only
  by_cases hhb : head.type = frmTpHb
  · rw [if_pos hhb]
    refine Or.inr (Or.inl ⟨head.sequence, rfl, ?_⟩)
    exact (sameKeys_lanSend env _ link.fdNum link.session _ _ _).trans
      (sameKeys_lanSessionTimeUpdate link.fdNum _ _)
  rw [if_neg hhb]
  split
  · next rt f hparse =>
    obtain ⟨rfl, -, -⟩ := of_lpv35FrameParse_some hparse
    exact Or.inr (Or.inr ⟨f, rfl, hparse, rfl⟩)
  · exact Or.inl ⟨rfl, rfl⟩

/-- What the receiver does with a complete frame, as long as the session stays open. A frame that is
processed belongs to the handshake just when the session has no key. -/
theorem lanFrame_cases (hactive : (lanFrame env link head frame).1.session.active = true) :
    ((∀ f, (lanFrame env link head frame).2 ≠ some (.process f)) ∧
        SameKeys link.session (lanFrame env link head frame).1.session) ∨
      ∃ f, (lanFrame env link head frame).2 = some (.process f) ∧
        lpv35FrameParse env.gcm env.malloc (sessionKey env link.session head.type) frame =
          .ok (oprtOk, some f) ∧
        (isHandshake head.type ↔ hasSecretKey link.session = false) ∧
        (lanFrame env link head frame).1.session =
          (lanProtocolProcess env (env.tick head.sequence) link.fdNum
            (lanSessionTimeUpdate link.fdNum link.session (env.tick head.sequence).now) f).1 := by
  rw [lanFrame] at hactive ⊢
  dsimp only at hactive ⊢
  have hclose : ∀ l : LanLink, l.close.session.active = true → SameKeys l.session l.close.session :=
    fun l h => by rw [close_session_of_active h]; exact SameKeys.refl _
  have hno : ∀ f, (none : Option LanHandled) ≠ some (.process f) := fun f h => by cases h
  have hheartbeat : ∀ sequence f, some (LanHandled.heartbeat sequence) ≠ some (.process f) :=
    fun sequence f h => by cases h
  by_cases hact : env.isActivated = false
  · rw [if_pos hact] at hactive ⊢
    exact Or.inl ⟨hno, hclose _ hactive⟩
  rw [if_neg hact] at hactive ⊢
  by_cases hshake : isHandshake head.type
  · rw [if_pos hshake] at hactive ⊢
    by_cases hkey : hasSecretKey link.session = true
    · rw [if_pos hkey] at hactive ⊢
      exact Or.inl ⟨hno, hclose { link with allowNoSessionKeyNum := _ } hactive⟩
    rw [if_neg hkey] at hactive ⊢
    rcases lanDecode_cases env { link with allowNoSessionKeyNum := allowNoKeyNum }
        (env.localkey.take sessionkeyLen) head frame with ⟨hnone, hlink⟩ | ⟨sequence, hhb, hkeys⟩ |
        ⟨f, hf, hparse, hsession⟩
    · refine Or.inl ⟨by rw [hnone]; exact hno, ?_⟩
      rw [hlink]
      exact SameKeys.refl _
    · exact Or.inl ⟨by rw [hhb]; exact hheartbeat sequence, hkeys⟩
    · refine Or.inr ⟨f, hf, ?_, ?_, hsession⟩
      · rw [sessionKey, if_pos hshake]
        exact hparse
      · exact iff_of_true hshake (Bool.not_eq_true _ ▸ hkey)
  rw [if_neg hshake] at hactive ⊢
  by_cases hkey : hasSecretKey link.session = true
  · rw [if_pos hkey] at hactive ⊢
    rcases lanDecode_cases env link link.session.secretKey head frame with
      ⟨hnone, hlink⟩ | ⟨sequence, hhb, hkeys⟩ | ⟨f, hf, hparse, hsession⟩
    · refine Or.inl ⟨by rw [hnone]; exact hno, ?_⟩
      rw [hlink]
      exact SameKeys.refl _
    · exact Or.inl ⟨by rw [hhb]; exact hheartbeat sequence, hkeys⟩
    · refine Or.inr ⟨f, hf, ?_, ?_, hsession⟩
      · rw [sessionKey, if_neg hshake]
        exact hparse
      · exact iff_of_false hshake (by rw [hkey]; exact fun h => Bool.noConfusion h)
  rw [if_neg hkey] at hactive ⊢
  split_ifs at hactive ⊢
  · exact Or.inl ⟨hno, SameKeys.refl _⟩
  · exact Or.inl ⟨hno, hclose _ hactive⟩

theorem lanFrame_of_not_hasSecretKey (hkey : hasSecretKey link.session = false)
    (hshake : ¬isHandshake head.type) : (lanFrame env link head frame).2 = none := by
  rw [lanFrame]
  dsimp only
  rw [if_neg hshake, hkey]
  split_ifs <;> first | rfl | contradiction

theorem lanFrame_of_hasSecretKey (hkey : hasSecretKey link.session = true)
    (hact : env.isActivated = true) (hshake : ¬isHandshake head.type)
    (hverified : Verified env link head frame) : (lanFrame env link head frame).2 ≠ none := by
  obtain ⟨f, hf⟩ := hverified
  rw [sessionKey, if_neg hshake] at hf
  rw [lanFrame]
  dsimp only
  rw [if_neg (by rw [hact]; exact fun h => Bool.noConfusion h), if_neg hshake, if_pos hkey,
    lanDecode]
  dsimp only
  rw [hf]
  split_ifs
  · exact Option.some_ne_none _
  · exact Option.some_ne_none _

end Handed

/-! ### The invariant -/

/-- While the session is open, its key is there just when it has been agreed on, and the random
string that has been issued is the one it holds. -/
def KeyInv (s : KeyState) : Prop :=
  s.link.session.active = true →
    hasSecretKey s.link.session = s.agreed ∧ ∀ b, s.issued = some b → s.link.session.randB = b

section Step

variable {env : LanEnv} {s : KeyState}

theorem KeyInv.treatedAsKeyed (h : KeyInv s) (hactive : s.link.session.active = true) :
    TreatedAsKeyed env s := by
  obtain ⟨hkey, -⟩ := h hactive
  refine ⟨?_, ?_, ?_, ?_⟩
  · rw [lanSendKey, hkey]
  · intro fate out
    rw [lanDpReport, hkey, hactive]
    by_cases hcond : s.agreed = true ∧ s.link.session.fault = false
    · rw [if_pos hcond, if_pos ⟨rfl, hcond.2, hcond.1⟩]
    · rw [if_neg hcond, if_neg fun hc => hcond ⟨hc.2.2, hc.2.1⟩]
  · intro hagreed hact head frame hshake hverified
    exact lanFrame_of_hasSecretKey (hkey.trans hagreed) hact hshake hverified
  · intro hagreed head frame hshake
    exact lanFrame_of_not_hasSecretKey (hkey.trans hagreed) hshake

theorem active_of_keyLink {ev : KeyEvent} (h : (keyLink env s.link ev).session.active = true) :
    s.link.session.active = true := by
  cases ev with
  | act a => exact (lanAct_spec h).1
  | report fate out =>
    rw [keyLink, lanDpReport] at h
    dsimp only at h
    split_ifs at h
    · exact (sameClock_lanSend env fate s.link.fdNum s.link.session _ _ _).active.symm.trans h
    · exact h
  | send fate frType retCode data =>
    exact (sameClock_lanSend env fate s.link.fdNum s.link.session _ _ _).active.symm.trans h
  | fault =>
    exact (sameClock_lanSessionFaultSet s.link.fdNum s.link.session).active.symm.trans h
  | close =>
    have hsame : s.link.close.session = s.link.session := close_session_of_active h
    rw [keyLink, hsame] at h
    exact h

theorem KeyInv.of_sameKeys (h : KeyInv s) (hactive : s.link.session.active = true)
    {link : LanLink} (hkeys : SameKeys s.link.session link.session) :
    KeyInv { s with link := link } := by
  intro _
  obtain ⟨hkey, hissued⟩ := h hactive
  exact ⟨hkeys.hasSecretKey.trans hkey, fun b hb => hkeys.randB.trans (hissued b hb)⟩

theorem lanSessionTimeUpdate_hmac (fdNum : Nat) (t : LanSession) (time : UInt32) :
    (lanSessionTimeUpdate fdNum t time).hmac = t.hmac := by
  rw [lanSessionTimeUpdate]
  split_ifs <;> rfl

theorem KeyInv.of_type3 (h : KeyInv s) (hactive : s.link.session.active = true) {link : LanLink}
    {sequence now : UInt32} {f : Lpv35Frame} (htype : f.type = frmSecurityType3)
    (hsession : link.session = (lanProtocolProcess env (env.tick sequence) s.link.fdNum
      (lanSessionTimeUpdate s.link.fdNum s.link.session now) f).1) :
    KeyInv { link := link, issued := nextIssued env s sequence f, agreed := nextAgreed env s f } := by
  intro _
  obtain ⟨hkey, hissued⟩ := h hactive
  have htime := sameKeys_lanSessionTimeUpdate s.link.fdNum s.link.session now
  have hprocess : link.session = (processType3 env (env.tick sequence) s.link.fdNum
      (lanSessionTimeUpdate s.link.fdNum s.link.session now) f.data).1 := by
    rw [hsession, lanProtocolProcess, htype, if_neg (by decide), if_pos rfl]
  obtain ⟨hsecret, hrandB⟩ := processType3_keys env (env.tick sequence) s.link.fdNum
    (lanSessionTimeUpdate s.link.fdNum s.link.session now) f.data
  have hagreed : nextAgreed env s f = s.agreed := by
    have h5 : ¬(f.type = frmSecurityType5 ∧ hmacLen ≤ f.data.length) := by
      rw [htype]
      exact fun hc => absurd hc.1 (by decide)
    rw [nextAgreed, decide_eq_false h5, Bool.false_and, Bool.or_false]
  refine ⟨?_, ?_⟩
  · rw [hagreed, ← hkey, hasSecretKey, hasSecretKey, hprocess, hsecret, htime.secretKey]
  · intro b hb
    rw [hprocess, hrandB]
    by_cases hlen : randLen ≤ f.data.length
    · rw [nextIssued, if_pos ⟨htype, hlen⟩] at hb
      rw [if_pos hlen]
      exact Option.some.inj hb
    · rw [nextIssued, if_neg fun hc => hlen hc.2] at hb
      rw [if_neg hlen, htime.randB]
      exact hissued b hb

theorem KeyInv.of_type5 (h : KeyInv s) (hactive : s.link.session.active = true) {link : LanLink}
    {sequence now : UInt32} {f : Lpv35Frame} (htype : f.type = frmSecurityType5)
    (hnokey : hasSecretKey s.link.session = false) (hcond : AgreesProperly env s f)
    (hsession : link.session = (lanProtocolProcess env (env.tick sequence) s.link.fdNum
      (lanSessionTimeUpdate s.link.fdNum s.link.session now) f).1) :
    KeyInv { link := link, issued := nextIssued env s sequence f, agreed := nextAgreed env s f } := by
  intro _
  obtain ⟨hkey, hissued⟩ := h hactive
  have htime := sameKeys_lanSessionTimeUpdate s.link.fdNum s.link.session now
  have hmac := lanSessionTimeUpdate_hmac s.link.fdNum s.link.session now
  set t := lanSessionTimeUpdate s.link.fdNum s.link.session now with ht
  have hprocess : link.session = processType5 env s.link.fdNum t f.data := by
    rw [hsession, lanProtocolProcess, htype, if_neg (by decide), if_neg (by decide), if_pos rfl]
  have hnot : s.agreed = false := hkey.symm.trans hnokey
  refine ⟨?_, ?_⟩
  · by_cases hlen : hmacLen ≤ f.data.length
    · by_cases hcode : sha256Mac env s.link.session.randB s.link.session.hmac =
          f.data.take hmacLen
      · obtain ⟨hsome, hismac, henc⟩ := hcond htype hlen hcode
        obtain ⟨b, hb⟩ := Option.isSome_iff_exists.mp hsome
        have hagreed : nextAgreed env s f = true := by
          rw [nextAgreed, decide_eq_true ⟨htype, hlen⟩, hb, Bool.true_and]
          dsimp only
          rw [← hissued b hb, hismac, Bool.or_true]
        rw [hagreed, hprocess]
        rw [derivesKey] at henc
        split at henc
        · next ct tag hct =>
          rw [hasSecretKey, processType5_of_eq env s.link.fdNum t hlen
            (by rw [htime.randB, hmac]; exact hcode)
            (by rw [htime.randA, htime.randB]; exact hct)]
          exact henc
        · cases henc
      · have hagreed : nextAgreed env s f = false := by
          rw [nextAgreed, hnot, decide_eq_true ⟨htype, hlen⟩, Bool.false_or, Bool.true_and]
          split
          · rfl
          · next b hb =>
            -- The right code of the issued string would have been accepted.
            rw [← hissued b hb]
            refine Bool.eq_false_iff.mpr fun hismac => hcode ?_
            cases hc : env.mac.mac (cString env.localkey) s.link.session.randB with
            | ok c =>
              rw [isMac, hc] at hismac
              rw [sha256Mac, hc]
              exact of_decide_eq_true hismac
            | error e =>
              rw [isMac, hc] at hismac
              cases hismac
        rw [hagreed, ← hnokey, hasSecretKey, hasSecretKey, hprocess,
          processType5_of_ne env s.link.fdNum t
            (Or.inr (by rw [htime.randB, hmac]; exact hcode)), htime.secretKey]
    · have hagreed : nextAgreed env s f = false := by
        rw [nextAgreed, hnot, decide_eq_false fun hc => hlen hc.2, Bool.false_and,
          Bool.or_false]
      rw [hagreed, ← hnokey, hasSecretKey, hasSecretKey, hprocess,
        processType5_of_ne env s.link.fdNum t (Or.inl (Nat.not_le.mp hlen)), htime.secretKey]
  · intro b hb
    rw [nextIssued, if_neg (by rw [htype]; exact fun hc => absurd hc.1 (by decide))] at hb
    rw [hprocess, processType5_randB, htime.randB]
    exact hissued b hb

theorem KeyInv.of_other (h : KeyInv s) (hactive : s.link.session.active = true) {link : LanLink}
    {sequence now : UInt32} {f : Lpv35Frame} (h3 : f.type ≠ frmSecurityType3)
    (h5 : f.type ≠ frmSecurityType5)
    (hsession : link.session = (lanProtocolProcess env (env.tick sequence) s.link.fdNum
      (lanSessionTimeUpdate s.link.fdNum s.link.session now) f).1) :
    KeyInv { link := link, issued := nextIssued env s sequence f, agreed := nextAgreed env s f } := by
  have hkeys : SameKeys s.link.session link.session := by
    rw [hsession]
    exact (sameKeys_lanSessionTimeUpdate s.link.fdNum s.link.session now).trans
      (sameKeys_lanProtocolProcess env _ _ _ h3 h5)
  have hissued : nextIssued env s sequence f = s.issued := if_neg fun hc => h3 hc.1
  have hagreed : nextAgreed env s f = s.agreed := by
    rw [nextAgreed, decide_eq_false fun hc => h5 hc.1, Bool.false_and, Bool.or_false]
  rw [hissued, hagreed]
  exact h.of_sameKeys hactive hkeys

theorem KeyInv.frame (h : KeyInv s) {head : LanHead} {frame : Bytes}
    (hframed : Framed (.frame head frame)) (hcond : KeyCond env s (.act (.frame head frame)))
    (hopen : (lanFrame env s.link head frame).1.session.active = true) :
    KeyInv (keyStep env s (.act (.frame head frame))) := by
  have hactive := (lanFrame_spec hopen).1
  have hclosed : ¬(keyLink env s.link (.act (.frame head frame))).session.active = false := by
    rw [Bool.not_eq_false]
    exact hopen
  rw [keyStep, if_neg hclosed]
  rw [keyHistory]
  rcases lanFrame_cases hopen with ⟨hno, hkeys⟩ | ⟨f, hf, hparse, hshake, hsession⟩
  · split
    · next f hf => exact absurd hf (hno f)
    · exact h.of_sameKeys hactive hkeys
  have hact : (lanAct env s.link (.frame head frame)).2 = some (.process f) := hf
  rw [KeyCond, hact] at hcond
  rw [hact]
  obtain ⟨-, hlen, htype⟩ := of_lpv35FrameParse_some hparse
  have hhead : f.type = head.type := by
    rw [htype, hframed hlen]
    rfl
  by_cases h3 : f.type = frmSecurityType3
  · exact h.of_type3 hactive h3 hsession
  by_cases h5 : f.type = frmSecurityType5
  · refine h.of_type5 hactive h5 (hshake.mp ?_) hcond hsession
    rw [← hhead]
    exact Or.inr (Or.inr h5)
  · exact h.of_other hactive h3 h5 hsession

theorem KeyInv.step (h : KeyInv s) {ev : KeyEvent} (hframed : ev.Framed)
    (hcond : KeyCond env s ev) : KeyInv (keyStep env s ev) := by
  by_cases hclosed : (keyLink env s.link ev).session.active = false
  · rw [keyStep, if_pos hclosed]
    intro hactive
    rw [hclosed] at hactive
    cases hactive
  have hopen : (keyLink env s.link ev).session.active = true := Bool.not_eq_false _ ▸ hclosed
  have hactive := active_of_keyLink hopen
  have hother : SameKeys s.link.session (keyLink env s.link ev).session →
      KeyInv { s with link := keyLink env s.link ev } := fun hkeys => h.of_sameKeys hactive hkeys
  cases ev with
  | act a =>
    cases a with
    | frame head frame => exact h.frame hframed hcond hopen
    | sequence head =>
      rw [keyStep, if_neg hclosed]
      refine hother ?_
      have hopen' : (lanSequence env s.link head).session.active = true := hopen
      change SameKeys s.link.session (lanSequence env s.link head).session
      rw [lanSequence] at hopen' ⊢
      split_ifs at hopen' ⊢
      · rw [close_session_of_active hopen']
        exact SameKeys.refl _
      · exact SameKeys.refl _
      · exact ⟨rfl, rfl, rfl⟩
    | recvErr =>
      rw [keyStep, if_neg hclosed]
      exact hother (sameKeys_lanSessionFaultSet _ _)
  | report fate out =>
    rw [keyStep, if_neg hclosed]
    exact hother (sameKeys_lanDpReport env fate s.link.fdNum s.link.session out)
  | send fate frType retCode data =>
    rw [keyStep, if_neg hclosed]
    exact hother (sameKeys_lanSend env fate s.link.fdNum s.link.session frType retCode data)
  | fault =>
    rw [keyStep, if_neg hclosed]
    exact hother (sameKeys_lanSessionFaultSet _ _)
  | close =>
    rw [keyStep, if_neg hclosed]
    refine hother ?_
    rw [keyLink, close_session_of_active hopen]
    exact SameKeys.refl _

end Step

theorem keyStep_link (env : LanEnv) (s : KeyState) (ev : KeyEvent) :
    (keyStep env s ev).link = keyLink env s.link ev := by
  rw [keyStep]
  split_ifs
  · rfl
  · cases ev with
    | act a =>
      cases a with
      | frame head frame =>
        rw [keyHistory]
        split <;> rfl
      | sequence head => rfl
      | recvErr => rfl
    | report fate out => rfl
    | send fate frType retCode data => rfl
    | fault => rfl
    | close => rfl

theorem exists_keyRun (env : LanEnv) (s : KeyState) (st : LanRecv) (hlink : st.out.link = s.link)
    (hmode : st.mode.HasHead) (chunks : List Bytes) :
    ∃ evs : List KeyEvent, (∀ ev ∈ evs, ev.Framed) ∧
      (evs.foldl (keyStep env) s).link = (chunks.foldl (lanRecvStep env) st).out.link := by
  obtain ⟨new, ⟨-, hnew⟩, hframed⟩ := extends_foldl env st chunks
  have hrun (acts : List LanAct) (s : KeyState) :
      ((acts.map KeyEvent.act).foldl (keyStep env) s).link = runActs env s.link acts := by
    induction acts generalizing s with
    | nil => rfl
    | cons a acts ih =>
      rw [List.map_cons, List.foldl_cons, ih, keyStep_link]
      rfl
  refine ⟨new.map KeyEvent.act, ?_, ?_⟩
  · intro ev hev
    obtain ⟨a, ha, rfl⟩ := List.mem_map.mp hev
    exact hframed hmode a ha
  · rw [hnew, hrun, hlink]

/-- **Key agreement.** In a run of a session whose steps all meet the condition, the session is
treated as keyed, as long as it is open, exactly when a frame of type 5 with the right code of the
random string issued in answer to a frame of type 3 has been processed. -/
theorem treatedAsKeyed_of_guarded (env : LanEnv) (fd : Int) (now sequenceOut : UInt32)
    (fdNum allowNoSessionKeyNum : Nat) {evs : List KeyEvent}
    (hrun : Guarded (keyStep env) (fun s ev => ev.Framed ∧ KeyCond env s ev)
      (keyInit fd now sequenceOut fdNum allowNoSessionKeyNum) evs)
    (hactive : (evs.foldl (keyStep env)
      (keyInit fd now sequenceOut fdNum allowNoSessionKeyNum)).link.session.active = true) :
    TreatedAsKeyed env (evs.foldl (keyStep env)
      (keyInit fd now sequenceOut fdNum allowNoSessionKeyNum)) := by
  have hinit : KeyInv (keyInit fd now sequenceOut fdNum allowNoSessionKeyNum) :=
    fun _ => ⟨rfl, fun b hb => by cases hb⟩
  exact (hrun.invariant (fun _ _ h hcond => h.step hcond.1 hcond.2) hinit).treatedAsKeyed hactive

/-! ### Two handshakes -/

/-- The values of AES-GCM and of the message authentication code in a handshake under the local key
of sixteen letters a: a frame of type 3 with `randA`, a frame of type 5, and the session key. -/
structure HandshakeValues where
  randA : Bytes
  ct3 : Bytes
  tag3 : Bytes
  macA : Bytes
  sessionKey : Bytes
  sessionTag : Bytes

def sampleLocalkey : Bytes := List.replicate 16 0x61

def sampleRandB : Bytes := List.replicate 16 0x30

def sampleMacB : Bytes :=
  [0x5a, 0xa8, 0xf1, 0xd9, 0x09, 0x99, 0x67, 0x17, 0x01, 0xa6, 0xbd, 0x5e, 0x09, 0x58, 0x36, 0x81,
   0x8a, 0x22, 0xb9, 0xd0, 0xe3, 0xa3, 0x56, 0xcb, 0x75, 0x42, 0x03, 0xc6, 0x06, 0xe1, 0x1b, 0x78]

def HandshakeValues.frame3 (v : HandshakeValues) : Lpv35Frame :=
  { sequence := 1, type := frmSecurityType3, data := v.randA }

def sampleFrame5 : Lpv35Frame :=
  { sequence := 2, type := frmSecurityType5, data := sampleMacB }

def sampleCt5 : Bytes :=
  [0xc0, 0x1a, 0xa6, 0xea, 0x3e, 0x3c, 0x73, 0x6f, 0xa3, 0x79, 0xe0, 0xd4, 0x91, 0xac, 0x3b, 0xd1,
   0x5e, 0x84, 0xad, 0x9c, 0x31, 0xec, 0x49, 0xa2, 0x99, 0xb8, 0x41, 0x6b, 0xfc, 0x86, 0x90, 0x52]

def sampleTag5 : Bytes :=
  [0x14, 0x32, 0xbc, 0xf8, 0xc3, 0xcc, 0x71, 0x26, 0xc4, 0x7f, 0x39, 0xfe, 0x1e, 0x43, 0xb1, 0x05]

def HandshakeValues.entries (v : HandshakeValues) : List Aead.Entry :=
  [{ key := sampleLocalkey
     nonce := List.replicate 12 7
     ad := lpv35AdditionalData v.frame3
     data := v.randA
     ct := v.ct3
     tag := v.tag3 },
   { key := sampleLocalkey
     nonce := List.replicate 12 8
     ad := lpv35AdditionalData sampleFrame5
     data := sampleMacB
     ct := sampleCt5
     tag := sampleTag5 },
   { key := sampleLocalkey
     nonce := v.randA.take 12
     ad := []
     data := xorBytes v.randA sampleRandB
     ct := v.sessionKey
     tag := v.sessionTag }]

def HandshakeValues.env (v : HandshakeValues)
    (hlen : ∀ w ∈ v.entries, w.ct.length = w.data.length ∧ w.tag.length = lpv35FrameTagSize)
    (hdec : ∀ w ∈ v.entries, (Aead.Entry.findCt v.entries w.key w.nonce w.ad w.ct w.tag).map
      (·.data) = some w.data)
    (hmac : ∀ w ∈ [(sampleLocalkey, v.randA, v.macA), (sampleLocalkey, sampleRandB, sampleMacB)],
      w.2.2.length = hmacLen) : LanEnv where
  gcm := Aead.ofEntries ⟨oprtComError, oprtComError_ne_ok⟩ v.entries hlen hdec
  mac := Mac.ofEntries ⟨oprtComError, oprtComError_ne_ok⟩
    [(sampleLocalkey, v.randA, v.macA), (sampleLocalkey, sampleRandB, sampleMacB)] hmac
  malloc _ := true
  localkey := sampleLocalkey
  isActivated := true
  sequenceErrThreshold := 0
  describe _ := []
  queryStat _ := (0, [])
  tick _ := { now := 5, randB := sampleRandB, fate := .sent, length_randB := rfl }

def HandshakeValues.run (v : HandshakeValues) : List KeyEvent :=
  let b3 := lpv35FrameBytes v.frame3 (List.replicate 12 7) v.ct3 v.tag3
  let b5 := lpv35FrameBytes sampleFrame5 (List.replicate 12 8) sampleCt5 sampleTag5
  [.act (.sequence (lanHead b3)), .act (.frame (lanHead b3) b3),
    .act (.sequence (lanHead b5)), .act (.frame (lanHead b5) b5)]

def goodValues : HandshakeValues where
  randA := 0 :: 0 :: List.replicate 14 1
  ct3 :=
    [0xfc, 0x2e, 0x18, 0x9d, 0x4c, 0x0f, 0x10, 0x11, 0x5a, 0xab, 0x66, 0xbb, 0x56, 0x5d, 0x50, 0x5c]
  tag3 :=
    [0x98, 0x2d, 0xf6, 0x63, 0xf3, 0x3f, 0x85, 0xe0, 0x82, 0xd7, 0x4a, 0xdc, 0xce, 0x3e, 0x8f, 0x2b]
  macA :=
    [0x76, 0x4f, 0xfc, 0x58, 0xee, 0x27, 0x20, 0x49, 0x11, 0xb7, 0x92, 0x9f, 0x3f, 0x0b, 0x50,
     0xe9, 0x6b, 0x28, 0x94, 0x52, 0xae, 0xb5, 0xc7, 0xa6, 0x86, 0x46, 0xc4, 0xe5, 0xa9, 0xd8,
     0x09, 0x96]
  sessionKey :=
    [0x8c, 0x19, 0x54, 0xf1, 0xfc, 0xc7, 0x27, 0x7a, 0xcb, 0x65, 0x1b, 0x96, 0x2e, 0x4b, 0x49, 0x1c]
  sessionTag :=
    [0xee, 0xac, 0x60, 0xe3, 0xc0, 0x20, 0x73, 0x4e, 0xdb, 0x80, 0x6f, 0x04, 0x08, 0x51, 0xe0, 0xa4]

def goodEnv : LanEnv :=
  goodValues.env (by decide +kernel) (by decide +kernel) (by decide +kernel)

theorem treatedAsKeyed_goodValues :
    TreatedAsKeyed goodEnv (goodValues.run.foldl (keyStep goodEnv) (keyInit 7 1 0 1 3)) := by
  refine treatedAsKeyed_of_guarded goodEnv 7 1 0 1 3 ?_ (by decide +kernel)
  refine ⟨⟨trivial, trivial⟩, ⟨fun _ => rfl, ?_⟩, ⟨trivial, trivial⟩, ⟨fun _ => rfl, ?_⟩, trivial⟩
  · refine keyCond_of_process (f := goodValues.frame3) (by decide +kernel) ?_
    exact fun htype => absurd htype (by decide +kernel)
  · refine keyCond_of_process (f := sampleFrame5) (by decide +kernel) ?_
    exact fun _ _ _ => ⟨by decide +kernel, by decide +kernel, by decide +kernel⟩

def zeroValues : HandshakeValues where
  randA := 0x8e :: 0 :: List.replicate 14 1
  ct3 :=
    [0x72, 0x2e, 0x18, 0x9d, 0x4c, 0x0f, 0x10, 0x11, 0x5a, 0xab, 0x66, 0xbb, 0x56, 0x5d, 0x50, 0x5c]
  tag3 :=
    [0xc9, 0xb7, 0x96, 0x64, 0x70, 0x8f, 0xb5, 0xea, 0x25, 0x5e, 0xe8, 0x7f, 0x00, 0xa2, 0x9d, 0xd1]
  macA :=
    [0x50, 0x51, 0x73, 0xdc, 0x69, 0xdc, 0x3b, 0x98, 0xb2, 0x1c, 0xbe, 0x65, 0x78, 0x81, 0x5e,
     0x25, 0xdc, 0x43, 0xba, 0xb6, 0xce, 0x93, 0x0b, 0x1c, 0x13, 0x6e, 0xbf, 0x69, 0xe3, 0x9b,
     0x54, 0xe4]
  sessionKey :=
    [0x00, 0x39, 0x5a, 0x49, 0x45, 0x56, 0xba, 0x53, 0x33, 0x44, 0x91, 0x1d, 0xc9, 0x3d, 0x3d, 0x7c]
  sessionTag :=
    [0xe0, 0xa8, 0xb5, 0x70, 0xad, 0x27, 0x02, 0x75, 0xa2, 0x88, 0xdb, 0xf0, 0x1c, 0x93, 0x29, 0x75]

def zeroEnv : LanEnv :=
  zeroValues.env (by decide +kernel) (by decide +kernel) (by decide +kernel)

/-- After a handshake whose session key starts with a zero byte the session is open and the key has
been agreed on, and the session is not treated as keyed: it still sends under the local key. -/
theorem exists_not_treatedAsKeyed :
    ∃ (env : LanEnv) (evs : List KeyEvent), (∀ ev ∈ evs, ev.Framed) ∧
      (evs.foldl (keyStep env) (keyInit 7 1 0 1 3)).link.session.active = true ∧
      (evs.foldl (keyStep env) (keyInit 7 1 0 1 3)).agreed = true ∧
      ¬TreatedAsKeyed env (evs.foldl (keyStep env) (keyInit 7 1 0 1 3)) := by
  refine ⟨zeroEnv, zeroValues.run, ?_, by decide +kernel, by decide +kernel, fun h => ?_⟩
  · intro ev hev
    simp only [HandshakeValues.run, List.mem_cons, List.not_mem_nil, or_false] at hev
    rcases hev with rfl | rfl | rfl | rfl
    · exact trivial
    · exact fun _ => rfl
    · exact trivial
    · exact fun _ => rfl
  · exact absurd h.sendKey (by decide +kernel)

end TuyaOpen.Lan
