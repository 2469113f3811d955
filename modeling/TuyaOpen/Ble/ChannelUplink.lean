import TuyaOpen.Ble.Channel

/-!
# Responses in the transparent channel

A response is cut into subpackets that are sent one by one, each when the app asks for it. The
sender puts the number of a subpacket into one byte, while a subpacket is read with a number of
seven bits a byte. From number 128 on the two are different.

## Main results

* `uplink_spec`: what has been sent after any requests.
* `readSubpacket_subpack`, `length_readSubpacket_lt`: a subpacket up to number 127, and the one of
  number 128.
* `uplinkDecodable_iff`: the responses that are decodable.
-/

namespace TuyaOpen.Ble

/-! ### Runs -/

/-- A response that `ble_channle_ack` gets, with the two bytes in front of its data. -/
structure Response where
  type : UInt16
  data : Bytes
  length_data_lt : data.length < 4294967296

def Response.body (resp : Response) : Bytes := resp.data.drop 2

/-- A request of the app for the next subpacket. -/
structure ContinueAck where
  malloc : ChannelMalloc
  req : BlePacket
  isUplink : IsUplink req.type
  status_eq : ∃ f₀ f₁ rest, req.data = f₀ :: f₁ :: 1 :: rest

/-- The subpackets that are sent at a list of requests, and the static data afterwards. -/
def continueAcks (ch : BleChannel) :
    List ContinueAck → Except ChannelFault (List BleSend × BleChannel)
  | [] => .ok ([], ch)
  | ack :: acks =>
    match bleSessionChannelProcess ack.malloc ch ack.req with
    | .error f => .error f
    | .ok (out, ch) => (continueAcks ch acks).map fun r => (out.sent ++ r.1, r.2)

def sendThen (ch : BleChannel) (acks : List ContinueAck) :
    Except ChannelFault (List BleSend × ChannelMgr) →
      Except ChannelFault (List BleSend × BleChannel)
  | .error f => .error f
  | .ok (sent, mgr) => (continueAcks { ch with mgr := mgr } acks).map fun r => (sent ++ r.1, r.2)

/-- The subpackets of a response: the first one is sent without a request. -/
def uplink (ch : BleChannel) (malloc : ChannelMalloc) (resp : Response)
    (acks : List ContinueAck) : Except ChannelFault (List BleSend × BleChannel) :=
  sendThen ch acks (bleChannleAck malloc resp.type resp.data)

def mallocCount (acks : List ContinueAck) : Nat :=
  (acks.filter fun ack => ack.malloc.pkgBuff).length

/-- After any requests the subpackets sent so far are read as numbers 0, 1, 2 and so on and as the
data of the response up to `subpack_sent`; and this is all data after as many requests as there are
bytes, if there is memory for the subpackets. -/
def UplinkDecodable (ch : BleChannel) (resp : Response) : Prop :=
  ∀ malloc acks, ∃ sent ch' read, uplink ch malloc resp acks = .ok (sent, ch') ∧
    (sent.map BleSend.data).mapM readSubpacket = some read ∧
    read.map Prod.fst = List.range read.length ∧
    (read.map Prod.snd).flatten = resp.body.take ch'.mgr.subpackSent ∧
    (resp.body.length ≤ mallocCount acks → ch'.mgr.subpackSent = resp.body.length)

/-! ### The subpackets of a response -/

/-- The data in front of subpacket `k` of a response of `len` bytes. -/
def subpackOffset (len : Nat) : Nat → Nat
  | 0 => 0
  | k + 1 => subpackOffset len k + pkgDataLen k (subpackOffset len k) len

/-- The data of subpacket `k`. -/
def subpackData (body : Bytes) (k : Nat) : Bytes :=
  slice body (subpackOffset body.length k) (pkgDataLen k (subpackOffset body.length k) body.length)

/-- Subpacket `k`. -/
def subpack (body : Bytes) (k : Nat) : Bytes := subpackHead k body.length ++ subpackData body k

section Subpack

variable {len k : Nat} {body : Bytes}

theorem length_subpackHead (k len : Nat) :
    (subpackHead k len).length =
      3 + if k = 0 then (Varint.encode 4 len).length + 1 else 0 := by
  unfold subpackHead
  split_ifs
  · simp only [List.length_cons, List.length_append, List.length_nil]
    omega
  · rfl

theorem length_subpackHead_le (k len : Nat) : (subpackHead k len).length ≤ 8 := by
  have h := Varint.length_encode_le 4 len
  rw [length_subpackHead]
  split_ifs <;> omega

theorem pkgDataLen_eq (k sent len : Nat) :
    pkgDataLen k sent len = min (len - sent) (960 - (subpackHead k len).length) := by
  show (if len - sent < 960 - (subpackHead k len).length then len - sent
    else 960 - (subpackHead k len).length) = _
  split_ifs <;> omega

theorem subpackOffset_le (len k : Nat) : subpackOffset len k ≤ len := by
  induction k with
  | zero => exact Nat.zero_le len
  | succ k ih =>
    rw [subpackOffset, pkgDataLen_eq]
    omega

theorem subpackOffset_succ (len k : Nat) :
    subpackOffset len (k + 1) = min len (956 - (Varint.encode 4 len).length + 957 * k) := by
  have henc := Varint.length_encode_le 4 len
  induction k with
  | zero =>
    rw [subpackOffset, pkgDataLen_eq, length_subpackHead, subpackOffset, if_pos rfl]
    omega
  | succ k ih =>
    rw [subpackOffset, pkgDataLen_eq, length_subpackHead, ih, if_neg (Nat.succ_ne_zero k)]
    omega

theorem subpackOffset_mono {j : Nat} (h : j ≤ k) : subpackOffset len j ≤ subpackOffset len k := by
  induction h with
  | refl => exact Nat.le_refl _
  | step _ ih => exact ih.trans (by rw [subpackOffset]; exact Nat.le_add_right _ _)

theorem length_subpackData (body : Bytes) (k : Nat) :
    (subpackData body k).length = pkgDataLen k (subpackOffset body.length k) body.length := by
  have h := subpackOffset_le body.length (k + 1)
  rw [subpackOffset] at h
  exact length_slice h

theorem flatten_subpackData (body : Bytes) (n : Nat) :
    ((List.range n).map (subpackData body)).flatten =
      body.take (subpackOffset body.length n) := by
  induction n with
  | zero => rfl
  | succ n ih =>
    rw [List.range_succ, List.map_append, List.flatten_append, ih, subpackOffset, List.take_add]
    simp [subpackData, slice]

/-! ### Reading -/

theorem readSubpacket_first (hlen : body.length < 128 ^ 4) :
    readSubpacket (subpack body 0) = some (0, subpackData body 0) := by
  have hdecode := Varint.decode_encode hlen
    (UInt8.ofNat (tuyaBleProtocolVersionHign * 16) :: subpackData body 0)
  have hbytes : subpack body 0 = 0 :: 3 :: 0 :: (Varint.encode 4 body.length ++
      (UInt8.ofNat (tuyaBleProtocolVersionHign * 16) :: subpackData body 0)) := by
    simp [subpack, subpackHead, subpackData]
  simp only [hbytes, readSubpacket, extractPacketLen, hdecode]
  rfl

theorem subpack_of_pos (hk : k ≠ 0) :
    subpack body k = 0 :: 3 :: UInt8.ofNat k :: subpackData body k := by
  simp [subpack, subpackHead, subpackData, hk]

theorem readSubpacket_later (hk : k ≠ 0) (hlt : k < 128) :
    readSubpacket (subpack body k) = some (k, subpackData body k) := by
  have hbyte : (UInt8.ofNat k).toNat = k := by
    rw [UInt8.toNat_ofNat']
    omega
  have hne : UInt8.ofNat k ≠ 0 := by
    intro h
    rw [h] at hbyte
    exact hk hbyte.symm
  have hflag : ¬(3 : UInt8) &&& 2 = 0 := by decide
  rw [subpack_of_pos hk, readSubpacket, if_neg hflag, if_neg hne, extractPacketLen, Varint.decode,
    hbyte, if_pos hlt]

theorem length_readSubpacket_lt {r : Nat × Bytes}
    (h : readSubpacket (subpack body 128) = some r) :
    r.2.length < (subpackData body 128).length := by
  have hflag : ¬(3 : UInt8) &&& 2 = 0 := by decide
  have hne : UInt8.ofNat 128 ≠ 0 := by decide
  have htop : ¬(UInt8.ofNat 128).toNat < 128 := by decide
  rw [subpack_of_pos (by decide), readSubpacket, if_neg hflag, if_neg hne, extractPacketLen,
    Varint.decode, if_neg htop] at h
  cases hd : Varint.decode 3 (subpackData body 128) with
  | none =>
    rw [hd] at h
    cases h
  | some p =>
    rw [hd] at h
    rw [← Option.some.inj h]
    exact Varint.length_lt_of_decode hd

theorem mapM_readSubpacket (hlen : body.length < 128 ^ 4) {n : Nat} (hn : n ≤ 128) :
    ((List.range n).map (subpack body)).mapM readSubpacket =
      some ((List.range n).map fun k => (k, subpackData body k)) := by
  induction n with
  | zero => rfl
  | succ n ih =>
    have hread : readSubpacket (subpack body n) = some (n, subpackData body n) := by
      by_cases hzero : n = 0
      · rw [hzero]
        exact readSubpacket_first hlen
      · exact readSubpacket_later hzero (by omega)
    rw [List.range_succ, List.map_append, List.mapM_append, ih (by omega), List.map_append]
    simp [hread]

end Subpack

/-! ### What is sent -/

/-- `k` subpackets of the response have been sent. -/
structure SubpackSending (resp : Response) (k : Nat) (mgr : ChannelMgr) : Prop where
  rspData_eq : mgr.rspData = some resp.data
  subpackNo_eq : mgr.subpackNo = k
  subpackSent_eq : mgr.subpackSent = subpackOffset resp.body.length k
  subpackLen_eq : mgr.subpackLen = resp.body.length
  le_offset : k ≤ subpackOffset resp.body.length k

section Run

variable {resp : Response} {mgr : ChannelMgr} {ch : BleChannel} {k : Nat}

theorem responseToAppBySubpack_spec (hlen : 2 ≤ resp.data.length) (h : SubpackSending resp k mgr)
    (malloc : ChannelMalloc) (type : UInt16) :
    if malloc.pkgBuff ∧ subpackOffset resp.body.length k < resp.body.length then
      ∃ mgr', responseToAppBySubpack malloc mgr type =
        .ok ([⟨type, 0, subpack resp.body k⟩], mgr') ∧ SubpackSending resp (k + 1) mgr'
    else responseToAppBySubpack malloc mgr type = .ok ([], mgr) := by
  have hbody : resp.body.length + 2 = resp.data.length := by
    rw [Response.body, List.length_drop]
    omega
  have hlt := resp.length_data_lt
  rw [responseToAppBySubpack, h.rspData_eq, h.subpackSent_eq, h.subpackLen_eq, h.subpackNo_eq]
  dsimp only
  by_cases hmalloc : malloc.pkgBuff
  · rw [if_neg (not_not.mpr hmalloc)]
    by_cases hleft : subpackOffset resp.body.length k < resp.body.length
    · have hnext := subpackOffset_le resp.body.length (k + 1)
      have hpos := length_subpackHead_le k resp.body.length
      have hdata := pkgDataLen_eq k (subpackOffset resp.body.length k) resp.body.length
      have hoff : subpackOffset resp.body.length (k + 1) = subpackOffset resp.body.length k +
          pkgDataLen k (subpackOffset resp.body.length k) resp.body.length := rfl
      have hk := h.le_offset
      have hread : readSpan resp.data (2 + subpackOffset resp.body.length k)
          (pkgDataLen k (subpackOffset resp.body.length k) resp.body.length) =
          some (subpackData resp.body k) := by
        rw [readSpan_of_le (by omega), subpackData, slice, slice, Response.body, List.drop_drop]
      rw [if_pos hleft, if_pos ⟨hmalloc, hleft⟩, hread]
      refine ⟨_, rfl, rfl, ?_, ?_, rfl, ?_⟩
      · exact u32_of_lt (by omega)
      · rw [hoff]
        exact u32_of_lt (by omega)
      · omega
    · rw [if_neg hleft, if_neg fun hc => hleft hc.2]
  · rw [if_pos hmalloc, if_neg fun hc => hmalloc hc.1]

/-- `n` subpackets are sent at up to `total` calls of which `ok` find memory. They are less than
`ok` only if nothing is left. -/
structure SubpackProgress (resp : Response) (k n total ok : Nat) : Prop where
  le_total : n ≤ total
  offset_lt : ∀ j < n, subpackOffset resp.body.length (k + j) < resp.body.length
  complete : ok ≤ n ∨ subpackOffset resp.body.length (k + n) = resp.body.length

/-- A run that starts when `k` subpackets have been sent. -/
def RunFrom (resp : Response) (k total ok : Nat)
    (r : Except ChannelFault (List BleSend × BleChannel)) : Prop :=
  ∃ n sent ch', r = .ok (sent, ch') ∧ SubpackSending resp (k + n) ch'.mgr ∧
    sent.map BleSend.data = (List.range' k n).map (subpack resp.body) ∧
      SubpackProgress resp k n total ok

theorem runFrom_sendThen (hlen : 2 ≤ resp.data.length) (h : SubpackSending resp k mgr)
    (malloc : ChannelMalloc) (type : UInt16) {acks : List ContinueAck}
    (ih : ∀ k (ch : BleChannel), SubpackSending resp k ch.mgr →
      RunFrom resp k acks.length (mallocCount acks) (continueAcks ch acks)) :
    RunFrom resp k (acks.length + 1) ((if malloc.pkgBuff then 1 else 0) + mallocCount acks)
      (sendThen ch acks (responseToAppBySubpack malloc mgr type)) := by
  have hresp := responseToAppBySubpack_spec hlen h malloc type
  split_ifs at hresp with hc
  · obtain ⟨mgr', hsent, hmgr⟩ := hresp
    obtain ⟨n, sent, ch', hrun, hch', hmap, hle, hlt, hcomplete⟩ :=
      ih (k + 1) { ch with mgr := mgr' } hmgr
    refine ⟨n + 1, ⟨type, 0, subpack resp.body k⟩ :: sent, ch', ?_, ?_, ?_, Nat.succ_le_succ hle,
      fun j hj => ?_, ?_⟩
    · rw [hsent, sendThen, hrun]
      rfl
    · rwa [Nat.add_right_comm, Nat.add_assoc] at hch'
    · rw [List.map_cons, hmap, List.range'_succ, List.map_cons]
    · cases j with
      | zero => exact hc.2
      | succ j =>
        have hj' := hlt j (Nat.lt_of_succ_lt_succ hj)
        rwa [Nat.add_right_comm, Nat.add_assoc] at hj'
    · rw [if_pos hc.1, ← Nat.add_assoc, Nat.add_right_comm]
      exact hcomplete.imp (fun hok => by omega) id
  · obtain ⟨n, sent, ch', hrun, hch', hmap, hle, hlt, hcomplete⟩ := ih k { ch with mgr := mgr } h
    refine ⟨n, sent, ch', ?_, hch', hmap, Nat.le_succ_of_le hle, hlt, ?_⟩
    · rw [hresp, sendThen, hrun]
      rfl
    · by_cases hmalloc : malloc.pkgBuff
      · have hall : subpackOffset resp.body.length k = resp.body.length :=
          Nat.le_antisymm (subpackOffset_le _ _) (Nat.not_lt.mp fun hlt => hc ⟨hmalloc, hlt⟩)
        have hmono := @subpackOffset_mono resp.body.length (k + n) k (Nat.le_add_right k n)
        exact .inr (Nat.le_antisymm (subpackOffset_le _ _) (hall.symm.trans_le hmono))
      · rw [if_neg hmalloc, Nat.zero_add]
        exact hcomplete

theorem runFrom_continueAcks (hlen : 2 ≤ resp.data.length) (acks : List ContinueAck) (k : Nat)
    (ch : BleChannel) (h : SubpackSending resp k ch.mgr) :
    RunFrom resp k acks.length (mallocCount acks) (continueAcks ch acks) := by
  induction acks generalizing k ch with
  | nil => exact ⟨0, [], ch, rfl, h, rfl, Nat.le_refl 0, nofun, .inl (Nat.le_refl 0)⟩
  | cons ack acks ih =>
    obtain ⟨f₀, f₁, rest, hstatus⟩ := ack.status_eq
    have hstep : continueAcks ch (ack :: acks) =
        sendThen ch acks (responseToAppBySubpack ack.malloc ch.mgr ack.req.type) := by
      rw [continueAcks, bleSessionChannelProcess,
        if_neg (not_isDownlink_of_isUplink ack.isUplink), if_pos ack.isUplink, uplinkProcess,
        hstatus]
      cases responseToAppBySubpack ack.malloc ch.mgr ack.req.type <;> rfl
    have hcount : mallocCount (ack :: acks) =
        (if ack.malloc.pkgBuff then 1 else 0) + mallocCount acks := by
      rw [mallocCount, List.filter_cons]
      split_ifs
      · exact Nat.add_comm _ 1
      · exact (Nat.zero_add _).symm
    rw [hstep, hcount]
    exact runFrom_sendThen hlen h ack.malloc ack.req.type ih

/-- **What has been sent** after any requests: subpackets from number 0 on. -/
theorem uplink_spec (hlen : 2 ≤ resp.data.length) (ch : BleChannel) (malloc : ChannelMalloc)
    (acks : List ContinueAck) :
    RunFrom resp 0 (acks.length + 1) ((if malloc.pkgBuff then 1 else 0) + mallocCount acks)
      (uplink ch malloc resp acks) := by
  have hbody : resp.body.length = resp.data.length - 2 := List.length_drop
  have hinit : SubpackSending resp 0 ⟨some resp.data, 0, 0, u32Sub resp.data.length 2⟩ :=
    ⟨rfl, rfl, rfl, (u32Sub_of_le resp.length_data_lt hlen).trans hbody.symm, Nat.le_refl 0⟩
  exact runFrom_sendThen hlen hinit malloc resp.type (runFrom_continueAcks hlen acks)

end Run

/-! ### UplinkDecodable responses -/

section Decodable

variable {resp : Response} {n : Nat}

theorem subpackOffset_of_le {len : Nat} (h : len ≤ 122492) : subpackOffset len 128 = len := by
  have henc := Varint.length_encode_mono 4 h
  have hmax : (Varint.encode 4 122492).length = 3 := rfl
  rw [subpackOffset_succ]
  omega

theorem subpackOffset_of_lt {len : Nat} (h : 122492 < len) : subpackOffset len 128 < len := by
  have henc := Varint.length_encode_mono 4 (Nat.succ_le_of_lt h)
  have hmin : (Varint.encode 4 (Nat.succ 122492)).length = 3 := rfl
  rw [subpackOffset_succ]
  omega

theorem uplinkDecodable_of_le (ch : BleChannel) (hlen : 2 ≤ resp.data.length)
    (hmax : resp.body.length ≤ 122492) : UplinkDecodable ch resp := by
  intro malloc acks
  obtain ⟨n, sent, ch', hrun, hch', hmap, -, hlt, hcomplete⟩ := uplink_spec hlen ch malloc acks
  rw [Nat.zero_add] at hch' hcomplete
  have hn : n ≤ 128 := by
    by_contra hn
    have hleft := hlt 128 (Nat.lt_of_not_le hn)
    rw [Nat.zero_add, subpackOffset_of_le hmax] at hleft
    exact Nat.lt_irrefl _ hleft
  have hread := mapM_readSubpacket (Nat.lt_of_le_of_lt hmax (by decide)) hn
  rw [← List.range_eq_range'] at hmap
  refine ⟨sent, ch', _, hrun, hmap ▸ hread, ?_, ?_, fun hmany => ?_⟩
  · rw [List.map_map, List.length_map, List.length_range]
    exact List.map_id _
  · rw [List.map_map, hch'.subpackSent_eq]
    exact flatten_subpackData resp.body n
  · rw [hch'.subpackSent_eq]
    have hle := hch'.le_offset
    have hbound := subpackOffset_le resp.body.length n
    rcases hcomplete with hok | hall
    · omega
    · exact hall

def sampleAck : ContinueAck where
  malloc := ⟨true, true, true⟩
  req := ⟨1, frmUplinkTransparentReq, [0, 0, 1], 0, by decide⟩
  isUplink := .inl rfl
  status_eq := ⟨0, 0, [], rfl⟩

/-- If something is left behind subpacket `n`, then `n + 1` subpackets have been sent after `n`
requests, and their data is the first part of the response. -/
theorem exists_read (ch : BleChannel) (hlen : 2 ≤ resp.data.length) (h : UplinkDecodable ch resp)
    (hleft : subpackOffset resp.body.length n < resp.body.length) :
    ∃ read : List (Nat × Bytes),
      ((List.range (n + 1)).map (subpack resp.body)).mapM readSubpacket = some read ∧
        (read.map Prod.snd).flatten =
          resp.body.take (subpackOffset resp.body.length (n + 1)) := by
  obtain ⟨m, sent, ch', hrun, hch', hmap, hle, -, hcomplete⟩ :=
    uplink_spec hlen ch ⟨true, true, true⟩ (List.replicate n sampleAck)
  obtain ⟨sent', ch'', read, hrun', hread, -, hdata, -⟩ :=
    h ⟨true, true, true⟩ (List.replicate n sampleAck)
  rw [hrun] at hrun'
  obtain ⟨rfl, rfl⟩ := Prod.mk.inj (Except.ok.inj hrun')
  have hm : m = n + 1 := by
    have hcount : mallocCount (List.replicate n sampleAck) = n := by
      rw [mallocCount, List.filter_replicate_of_pos rfl, List.length_replicate]
    rw [List.length_replicate] at hle
    rw [hcount, if_pos rfl, Nat.zero_add] at hcomplete
    rcases hcomplete with hok | hall
    · omega
    · by_contra hne
      have hmono := @subpackOffset_mono resp.body.length n m (by omega)
      omega
  rw [← List.range_eq_range', hm] at hmap
  rw [Nat.zero_add] at hch'
  refine ⟨read, hmap ▸ hread, ?_⟩
  rw [hdata, hch'.subpackSent_eq, hm]

theorem not_uplinkDecodable_of_lt (ch : BleChannel) (hlen : 2 ≤ resp.data.length)
    (hmin : 122492 < resp.body.length) : ¬UplinkDecodable ch resp := by
  intro h
  have hleft := subpackOffset_of_lt hmin
  have hleft' : subpackOffset resp.body.length 127 < resp.body.length :=
    Nat.lt_of_le_of_lt (subpackOffset_mono (by decide)) hleft
  obtain ⟨read, hread, hdata⟩ := exists_read ch hlen h hleft'
  obtain ⟨read', hread', hdata'⟩ := exists_read ch hlen h hleft
  rw [List.range_succ, List.map_append, List.mapM_append, hread] at hread'
  cases hlast : readSubpacket (subpack resp.body 128) with
  | none => simp [hlast] at hread'
  | some r =>
    have hshort := length_readSubpacket_lt hlast
    have hcat : read' = read ++ [r] := by simpa [hlast] using hread'.symm
    have hbound := subpackOffset_le resp.body.length 129
    have hnext : subpackOffset resp.body.length 129 =
        subpackOffset resp.body.length 128 + (subpackData resp.body 128).length := by
      rw [length_subpackData]
      rfl
    have hlengths := congrArg List.length hdata'
    rw [hcat, List.map_append, List.flatten_append, List.length_append, hdata, List.length_take,
      List.length_take] at hlengths
    simp at hlengths
    omega

theorem not_uplinkDecodable_of_short (ch : BleChannel) (hlen : resp.data.length < 2) :
    ¬UplinkDecodable ch resp := by
  intro h
  obtain ⟨sent, ch', read, hrun, -⟩ := h ⟨true, true, true⟩ []
  have hsub : u32Sub resp.data.length 2 = resp.data.length + 4294967296 - 2 :=
    u32Sub_of_lt (by decide) hlen
  have hpos : 0 < pkgDataLen 0 0 (u32Sub resp.data.length 2) := by
    have hhead := length_subpackHead_le 0 (u32Sub resp.data.length 2)
    rw [pkgDataLen_eq]
    omega
  have hfault : bleChannleAck ⟨true, true, true⟩ resp.type resp.data = .error .rspData := by
    have hread : readSpan resp.data (2 + 0) (pkgDataLen 0 0 (u32Sub resp.data.length 2)) = none :=
      readSpan_eq_none (by omega)
    rw [bleChannleAck, responseToAppBySubpack]
    dsimp only
    rw [if_neg (by decide), if_pos (by omega), hread]
  rw [uplink, hfault] at hrun
  cases hrun

/-- **The responses that are decodable** have the two bytes in front of the data and at most 122492
bytes of data, which go into 128 subpackets. -/
theorem uplinkDecodable_iff (ch : BleChannel) (resp : Response) :
    UplinkDecodable ch resp ↔ 2 ≤ resp.data.length ∧ resp.data.length ≤ 122494 := by
  have hbody : resp.body.length = resp.data.length - 2 := List.length_drop
  constructor
  · intro h
    have hlen : 2 ≤ resp.data.length :=
      Nat.not_lt.mp fun hlt => not_uplinkDecodable_of_short ch hlt h
    refine ⟨hlen, Nat.not_lt.mp fun hlt => ?_⟩
    exact not_uplinkDecodable_of_lt ch hlen (by omega) h
  · rintro ⟨hlen, hmax⟩
    exact uplinkDecodable_of_le ch hlen (by omega)

/-- A response with 122493 bytes of data has a subpacket 128. -/
theorem not_uplinkDecodable_long : ¬∀ ch resp, UplinkDecodable ch resp := by
  intro h
  have hlen : (List.replicate 122495 (0 : UInt8)).length = 122495 := List.length_replicate
  refine @not_uplinkDecodable_of_lt ⟨frmUplinkTransparentReq, List.replicate 122495 0, by
    rw [hlen]; decide⟩ .init ?_ ?_ (h _ _)
  · exact (by decide : 2 ≤ 122495).trans_eq hlen.symm
  · rw [Response.body, List.length_drop, hlen]
    decide

end Decodable

end TuyaOpen.Ble
