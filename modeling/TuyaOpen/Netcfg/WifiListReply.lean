import TuyaOpen.Netcfg.WifiList

/-!
# The list of access points as a JSON text

The texts that `ap_ext_cmd_parse` prints for `get_wifi_list` are read as JSON texts. A name with a
quote, a backslash or a control character is read as another name, or the text is not read at all.

## Main results

* `parseText_replyText`: a reply with plain names is read as the list.
* `plain_of_parseText`: no other reply is read as a list of the same access points.
* `replyOk_iff`: when the reply is what it ought to be.
-/

namespace TuyaOpen.Netcfg

def PlainNames (aps : List ApIf) : Prop := ∀ ap ∈ aps, ∀ c ∈ ap.ssid, Json.Plain true c

/-! ### An access point -/

section Ap

variable {fuel : Nat} {rest : Bytes}

theorem endsNumber_comma (bs : Bytes) : Json.EndsNumber (0x2c :: bs) := by
  rintro b ⟨⟩
  decide

theorem endsNumber_brace (bs : Bytes) : Json.EndsNumber (0x7d :: bs) := by
  rintro b ⟨⟩
  decide

def apTail (ap : ApIf) : Bytes :=
  0x2c :: nameText ['r', 's', 's', 'i'] ++ Json.intText ap.rssi.toInt ++ 0x2c ::
    nameText ['s', 'e', 'c'] ++ Json.intText ap.security.toNat ++ [0x7d]

theorem apText_append (ap : ApIf) (rest : Bytes) :
    apText ap ++ rest =
      0x7b :: 0x22 :: (asciiBytes ['s', 's', 'i', 'd'] ++ 0x22 :: 0x3a :: 0x22 ::
        (ap.ssid ++ 0x22 :: (apTail ap ++ rest))) := by
  simp only [apText, apTail, nameText, List.append_assoc, List.cons_append, List.nil_append]

theorem apTail_append (ap : ApIf) (rest : Bytes) :
    apTail ap ++ rest =
      0x2c :: 0x22 :: (asciiBytes ['r', 's', 's', 'i'] ++ 0x22 :: 0x3a ::
        (Json.intText ap.rssi.toInt ++ 0x2c :: 0x22 :: (asciiBytes ['s', 'e', 'c'] ++
          0x22 :: 0x3a :: (Json.intText ap.security.toNat ++ 0x7d :: rest)))) := by
  simp only [apTail, nameText, List.append_assoc, List.cons_append, List.nil_append]

theorem parseValue_apText {ap : ApIf} (h : ∀ c ∈ ap.ssid, Json.Plain true c) (rest : Bytes) :
    Json.parseValue true (fuel + 5) (apText ap ++ rest) = some (apJson ap, rest) := by
  rw [apText_append, Json.parseValue_members,
    Json.parseMembers_string (Json.plain_of_all (by decide)) h,
    apTail_append, Json.skipWs_cons (by decide), Json.expect_cons_of_ne (by decide),
    Json.expect_cons_self]
  dsimp only
  rw [Option.bind_some,
    Json.parseMembers_intText (Json.plain_of_all (by decide)) _ (endsNumber_comma _),
    Json.skipWs_cons (by decide), Json.expect_cons_of_ne (by decide), Json.expect_cons_self]
  dsimp only
  rw [Option.bind_some,
    Json.parseMembers_intText (Json.plain_of_all (by decide)) _ (endsNumber_brace _),
    Json.skipWs_cons (by decide), Json.expect_cons_self]
  rfl

theorem plain_of_parseValue_apText {ap : ApIf} {v : Json × Bytes}
    (h : Json.parseValue true fuel (apText ap ++ rest) = some v) (hv : v.1 = apJson ap) :
    ∀ c ∈ ap.ssid, Json.Plain true c := by
  by_contra hplain
  cases fuel with
  | zero => cases h
  | succ fuel =>
    rw [apText_append, Json.parseValue_members, Option.map_eq_some_iff] at h
    obtain ⟨r, hr, rfl⟩ := h
    rw [apTail_append] at hr
    obtain ⟨d, more, hd, hne⟩ :=
      Json.exists_of_parseMembers_ne (Json.plain_of_all (by decide)) hplain
        (Json.parseChars_after _) hr
    rw [hd, apJson, Json.object.injEq] at hv
    have hssid : d = ap.ssid := Json.string.inj (Prod.mk.inj (List.cons.inj hv).1).2
    rw [hssid] at hne
    exact hne (cString_of_notMem ap.zero_notMem)

end Ap

/-! ### The list -/

section Items

variable {fuel : Nat} {rest : Bytes} {ap : ApIf} {aps aps' all : List ApIf}

theorem apsText_singleton_append (ap : ApIf) (rest : Bytes) :
    apsText [ap] ++ rest = apText ap ++ rest := by
  rw [apsText, List.flatMap_nil, List.append_nil]

theorem apsText_cons_append (ap ap' : ApIf) (aps : List ApIf) (rest : Bytes) :
    apsText (ap :: ap' :: aps) ++ rest = apText ap ++ 0x2c :: (apsText (ap' :: aps) ++ rest) := by
  simp only [apsText, List.flatMap_cons, List.append_assoc, List.cons_append]

theorem exists_apsText_append_eq (ap : ApIf) (aps : List ApIf) (rest : Bytes) :
    ∃ bs, apsText (ap :: aps) ++ rest = 0x7b :: bs := by
  cases aps with
  | nil => exact ⟨_, by rw [apsText_singleton_append, apText_append]⟩
  | cons ap' aps => exact ⟨_, by rw [apsText_cons_append, apText_append]⟩

theorem parseItems_apsText (h : PlainNames (ap :: aps)) (hfuel : aps.length + 6 ≤ fuel) :
    Json.parseItems true fuel (apsText (ap :: aps) ++ 0x5d :: rest) =
      some ((ap :: aps).map apJson, rest) := by
  obtain ⟨fuel, rfl⟩ := Nat.exists_eq_add_of_le' hfuel
  induction aps generalizing ap fuel with
  | nil =>
    rw [apsText_singleton_append]
    exact Json.parseItems_last (parseValue_apText (h ap List.mem_cons_self) _)
  | cons ap' aps ih =>
    obtain ⟨hap, haps⟩ := List.forall_mem_cons.mp h
    have hnext :
        Json.parseItems true (fuel + (aps.length + 6)) (apsText (ap' :: aps) ++ 0x5d :: rest) =
          some ((ap' :: aps).map apJson, rest) := ih haps fuel (by omega)
    have hsplit : fuel + ((ap' :: aps).length + 6) = fuel + aps.length + 1 + 5 + 1 := by
      rw [List.length_cons]
      omega
    rw [apsText_cons_append, hsplit, Json.parseItems_next (parseValue_apText hap _)]
    rw [show fuel + aps.length + 1 + 5 = fuel + (aps.length + 6) by omega, hnext]
    rfl

theorem exists_of_map_apJson_eq {v : Json} {more : List Json} (hr : v :: more = aps'.map apJson)
    (haps : ap :: aps <+: all) (haps' : aps' <+: all) :
    v = apJson ap ∧ ∃ aps₁ all₁, more = aps₁.map apJson ∧ aps <+: all₁ ∧ aps₁ <+: all₁ := by
  cases aps' with
  | nil => cases hr
  | cons ap₁ aps₁ =>
    cases all with
    | nil => exact absurd haps.length_le (Nat.not_succ_le_zero _)
    | cons ap₂ all₁ =>
      rw [List.cons_prefix_cons] at haps haps'
      obtain ⟨rfl, haps⟩ := haps
      obtain ⟨rfl, haps'⟩ := haps'
      obtain ⟨hv, hmore⟩ := List.cons.inj hr
      exact ⟨hv, aps₁, all₁, hmore, haps, haps'⟩

theorem plain_of_parseItems {r : List Json × Bytes} (hfuel : aps.length + 6 ≤ fuel)
    (h : Json.parseItems true fuel (apsText (ap :: aps) ++ 0x5d :: rest) = some r)
    (hr : r.1 = aps'.map apJson) (haps : ap :: aps <+: all) (haps' : aps' <+: all) :
    PlainNames (ap :: aps) := by
  obtain ⟨fuel, rfl⟩ := Nat.exists_eq_add_of_le' hfuel
  induction aps generalizing ap aps' all r with
  | nil =>
    rw [apsText_singleton_append] at h
    obtain ⟨v, more, hv, hmore⟩ := Json.exists_of_parseItems h
    rw [hmore] at hr
    have hap := plain_of_parseValue_apText hv (exists_of_map_apJson_eq hr haps haps').1
    exact List.forall_mem_cons.mpr ⟨hap, fun _ hmem => absurd hmem List.not_mem_nil⟩
  | cons ap' aps ih =>
    have hsplit : fuel + ((ap' :: aps).length + 6) = fuel + aps.length + 1 + 5 + 1 := by
      rw [List.length_cons]
      omega
    rw [apsText_cons_append, hsplit] at h
    obtain ⟨v, more, hv, hmore⟩ := Json.exists_of_parseItems h
    rw [hmore] at hr
    obtain ⟨hhead, aps₁, all₁, htail, haps, haps'⟩ := exists_of_map_apJson_eq hr haps haps'
    have hap := plain_of_parseValue_apText hv hhead
    rw [Json.parseItems_next (parseValue_apText hap _), Option.map_eq_some_iff] at h
    obtain ⟨r', hr', rfl⟩ := h
    rw [show fuel + aps.length + 1 + 5 = fuel + (aps.length + 6) by omega] at hr'
    refine List.forall_mem_cons.mpr ⟨hap, ih ?_ haps haps' (by omega) hr'⟩
    rw [← htail]
    exact (List.cons.inj hmore).2

/-- **The list.** Access points with plain names are read as they are. -/
theorem parseValue_apsText (h : PlainNames aps) (hfuel : aps.length + 6 ≤ fuel) :
    Json.parseValue true fuel (0x5b :: (apsText aps ++ 0x5d :: rest)) =
      some (.array (aps.map apJson), rest) := by
  obtain ⟨fuel, rfl⟩ := Nat.exists_eq_succ_of_ne_zero (Nat.ne_of_gt (Nat.lt_of_lt_of_le (by omega)
    hfuel))
  cases aps with
  | nil => exact Json.parseValue_array_nil
  | cons ap aps =>
    rw [List.length_cons] at hfuel
    obtain ⟨bs, hbs⟩ := exists_apsText_append_eq ap aps (0x5d :: rest)
    rw [hbs, Json.parseValue_items (by decide) (by decide), ← hbs,
      parseItems_apsText h (by omega)]
    rfl

theorem plain_of_parseValue_apsText {v : Json × Bytes} (hfuel : aps.length + 6 ≤ fuel)
    (h : Json.parseValue true fuel (0x5b :: (apsText aps ++ 0x5d :: rest)) = some v)
    (hv : v.1 = .array (aps'.map apJson)) (haps : aps <+: all) (haps' : aps' <+: all) :
    PlainNames aps := by
  obtain ⟨fuel, rfl⟩ := Nat.exists_eq_succ_of_ne_zero (Nat.ne_of_gt (Nat.lt_of_lt_of_le (by omega)
    hfuel))
  cases aps with
  | nil => exact fun _ hmem => absurd hmem List.not_mem_nil
  | cons ap aps =>
    rw [List.length_cons] at hfuel
    obtain ⟨bs, hbs⟩ := exists_apsText_append_eq ap aps (0x5d :: rest)
    rw [hbs, Json.parseValue_items (by decide) (by decide), ← hbs, Option.map_eq_some_iff] at h
    obtain ⟨r, hr, rfl⟩ := h
    exact plain_of_parseItems (by omega) hr (Json.array.inj hv) haps haps'

end Items

/-! ### The reply -/

section Reply

variable {aps aps' all : List ApIf}

theorem replyText_eq (aps : List ApIf) :
    replyText aps = 0x7b :: 0x22 :: (asciiBytes ['r', 'e', 'q', 'T', 'y', 'p', 'e'] ++
      0x22 :: 0x3a :: 0x22 ::
        (asciiBytes ['w', 'i', 'f', 'i', '_', 'l', 'i', 's', 't', '_', 'r', 'p', 't'] ++
          0x22 :: 0x2c :: 0x22 :: (asciiBytes ['d', 'a', 't', 'a'] ++ 0x22 :: 0x3a ::
            0x7b :: 0x22 :: (asciiBytes ['w', 'i', 'f', 'i', '_', 'l', 'i', 's', 't'] ++
              0x22 :: 0x3a :: 0x5b :: (apsText aps ++ [0x5d, 0x7d, 0x7d]))))) := by
  simp only [replyText, replyHead, openList, listHead, nameText, List.append_assoc,
    List.cons_append, List.nil_append]

theorem length_le_length_apsText (aps : List ApIf) : aps.length ≤ (apsText aps).length := by
  have hap (ap : ApIf) : 1 ≤ (apText ap).length := Nat.succ_le_succ (Nat.zero_le _)
  cases aps with
  | nil => exact Nat.zero_le _
  | cons ap aps =>
    have hrest : aps.length ≤ (aps.flatMap fun ap => 0x2c :: apText ap).length := by
      induction aps with
      | nil => exact Nat.zero_le _
      | cons ap aps ih =>
        rw [List.flatMap_cons, List.length_append, List.length_cons, List.length_cons]
        omega
    rw [apsText, List.length_append, List.length_cons]
    have hone := hap ap
    omega

theorem exists_fuel (aps : List ApIf) :
    ∃ fuel, (replyText aps).length + 1 = fuel + 5 ∧ aps.length + 6 ≤ fuel := by
  have hlen := length_le_length_apsText aps
  have hreply : (replyText aps).length = (apsText aps).length + 51 := by
    rw [replyText_eq]
    simp [asciiBytes]
  refine ⟨(apsText aps).length + 47, ?_, ?_⟩
  all_goals omega

/-- **The reply is JSON.** -/
theorem parseText_replyText (h : PlainNames aps) :
    Json.parseText true (replyText aps) = some (replyJson aps) := by
  obtain ⟨fuel, hlen, hfuel⟩ := exists_fuel aps
  rw [Json.parseText, hlen, replyText_eq, Json.parseValue_members,
    Json.parseMembers_string (Json.plain_of_all (by decide)) (Json.plain_of_all (by decide)),
    Json.skipWs_cons (by decide), Json.expect_cons_of_ne (by decide), Json.expect_cons_self]
  dsimp only
  rw [Option.bind_some, Json.parseMembers_name (Json.plain_of_all (by decide)),
    Json.parseValue_members, Json.parseMembers_name (Json.plain_of_all (by decide)),
    parseValue_apsText h hfuel]
  rfl

theorem plain_of_parseText (h : Json.parseText true (replyText aps) = some (replyJson aps'))
    (haps : aps <+: all) (haps' : aps' <+: all) : PlainNames aps := by
  obtain ⟨fuel, hlen, hfuel⟩ := exists_fuel aps
  rw [Json.parseText, hlen, replyText_eq, Json.parseValue_members, Option.bind_eq_some_iff] at h
  obtain ⟨r, hr, h⟩ := h
  obtain ⟨r₁, hr₁, rfl⟩ := Option.map_eq_some_iff.mp hr
  split_ifs at h
  rw [Json.parseMembers_string (Json.plain_of_all (by decide)) (Json.plain_of_all (by decide)),
    Json.skipWs_cons (by decide), Json.expect_cons_of_ne (by decide), Json.expect_cons_self] at hr₁
  dsimp only at hr₁
  rw [Option.bind_some, Option.map_eq_some_iff] at hr₁
  obtain ⟨r₂, hr₂, rfl⟩ := hr₁
  have hmembers := (List.cons.inj (Json.object.inj (Option.some.inj h))).2
  obtain ⟨v, more, hv, hr₂⟩ := Json.exists_of_parseMembers_name (Json.plain_of_all (by decide)) hr₂
  rw [hr₂] at hmembers
  have hdata := (Prod.mk.inj (List.cons.inj hmembers).1).2
  rw [Json.parseValue_members] at hv
  obtain ⟨r₃, hr₃, rfl⟩ := Option.map_eq_some_iff.mp hv
  obtain ⟨v, more, hv, hr₃⟩ := Json.exists_of_parseMembers_name (Json.plain_of_all (by decide)) hr₃
  dsimp only at hdata
  rw [hr₃] at hdata
  have hlist := (Prod.mk.inj (List.cons.inj (Json.object.inj hdata)).1).2
  exact plain_of_parseValue_apsText hfuel hv hlist haps haps'

theorem apJson_injective : Function.Injective apJson := by
  rintro ⟨ssid, rssi, security, _, _⟩ ⟨ssid', rssi', security', _, _⟩ h
  simp only [apJson, Json.object.injEq, List.cons.injEq, Prod.mk.injEq, Json.string.injEq,
    Json.number.injEq, Nat.cast_inj, true_and, and_true] at h
  obtain ⟨rfl, hrssi, hsecurity⟩ := h
  obtain rfl := Int8.toInt_inj.mp hrssi
  obtain rfl := UInt8.toNat_inj.mp hsecurity
  rfl

theorem replyJson_injective : Function.Injective replyJson := by
  intro aps aps' h
  simp only [replyJson, Json.object.injEq, List.cons.injEq, Prod.mk.injEq, Json.array.injEq,
    true_and, and_true] at h
  exact List.map_injective_iff.mpr apJson_injective h

end Reply

/-! ### When the reply is what it ought to be -/

section Cond

variable {scan : ScanResult} {cnt : Int32}

theorem named_isPrefix (scan : ScanResult) (n : Nat) :
    named scan n <+: named scan scan.2.length := by
  rw [named, named]
  split_ifs
  · exact List.prefix_rfl
  · rw [List.take_length]
    exact (List.take_prefix n scan.2).filter _

theorem replyText_fits_iff (aps : List ApIf) :
    (replyText aps).length + 1 ≤ bufferSize ↔ (openList aps).length + 4 ≤ listSize := by
  have hhead : replyHead.length = 34 := rfl
  have hlist : listSize = 4094 := rfl
  have hbuffer : bufferSize = 4128 := rfl
  rw [replyText, List.length_append, List.length_append, List.length_append, hhead, hlist,
    hbuffer, List.length_cons, List.length_cons, List.length_nil]
  omega

theorem forall_listed_iff {P : List ApIf → ApIf → Prop} :
    (∀ pre ap, pre ++ [ap] <+: lookedAt scan cnt → ¬ SpaceOut pre → P pre ap) ↔
      ∀ pre ap, pre ++ [ap] <+: listed scan cnt → P pre ap := by
  refine forall_congr' fun pre => forall_congr' fun ap => ?_
  rw [listed, prefix_fill_iff spaceOut_mono, and_imp]

theorem fits_iff (aps : List ApIf) :
    (∀ pre ap, pre ++ [ap] <+: aps → (openList (pre ++ [ap])).length + 4 ≤ listSize) ↔
      (openList aps).length + 4 ≤ listSize := by
  constructor
  · intro h
    rcases List.eq_nil_or_concat aps with rfl | ⟨pre, ap, rfl⟩
    · decide
    · rw [List.concat_eq_append] at h ⊢
      exact h pre ap List.prefix_rfl
  · intro h pre ap hpre
    have hle := (openList_isPrefix hpre).length_le
    omega

theorem plainNames_iff (aps : List ApIf) :
    (∀ pre ap, pre ++ [ap] <+: aps → ∀ c ∈ ap.ssid, Json.Plain true c) ↔ PlainNames aps := by
  constructor
  · intro h ap hap
    obtain ⟨pre, post, rfl⟩ := List.append_of_mem hap
    exact h pre ap ⟨post, by rw [List.append_assoc, List.singleton_append]⟩
  · intro h pre ap hpre
    exact h ap (hpre.mem (List.mem_append_right _ List.mem_cons_self))

theorem count_iff :
    (lookedAt scan cnt = wanted scan cnt ∨
      (SpaceOut (lookedAt scan cnt) ∧ SpaceOut (wanted scan cnt))) ↔
      listed scan cnt <+: wanted scan cnt ∧
        (listed scan cnt = wanted scan cnt ∨ SpaceOut (listed scan cnt)) := by
  have hfill := fill_eq_or_full SpaceOut (lookedAt scan cnt)
  constructor
  · rintro (heq | ⟨hlooked, hwanted⟩)
    · rw [listed, ← heq]
      exact ⟨fill_isPrefix SpaceOut _, hfill⟩
    · refine ⟨fill_prefix_of_full (named_isPrefix scan _) (named_isPrefix scan _) hwanted, .inr ?_⟩
      rcases hfill with hall | hfull
      · rwa [listed, hall]
      · exact hfull
  · rintro ⟨hpre, hall⟩
    by_cases hfull : SpaceOut (listed scan cnt)
    · exact .inr ⟨spaceOut_mono _ _ (fill_isPrefix SpaceOut _) hfull, spaceOut_mono _ _ hpre hfull⟩
    · exact .inl ((hfill.resolve_right hfull).symm.trans (hall.resolve_right hfull))

theorem replyCond_iff : ReplyCond scan cnt ↔
    (openList (listed scan cnt)).length + 4 ≤ listSize ∧ PlainNames (listed scan cnt) ∧
      listed scan cnt <+: wanted scan cnt ∧
        (listed scan cnt = wanted scan cnt ∨ SpaceOut (listed scan cnt)) := by
  rw [← fits_iff, ← plainNames_iff, ← count_iff, ← forall_listed_iff, ← forall_listed_iff]
  exact ⟨fun h => ⟨h.fits, h.plain, h.count⟩, fun h => ⟨h.1, h.2.1, h.2.2⟩⟩

/-- **The reply.** It stays in its buffer and is the JSON text of the list exactly under the
condition on the scan. -/
theorem replyOk_iff (scan : ScanResult) (cnt : Int32) : ReplyOk scan cnt ↔ ReplyCond scan cnt := by
  rw [replyCond_iff, ← replyText_fits_iff]
  constructor
  · intro h
    obtain ⟨text, aps, htext, hparse, hpre, hall⟩ :=
      h (List.replicate bufferSize 0) List.length_replicate
    rw [wifiListReply_eq List.length_replicate] at htext
    split_ifs at htext with hfits
    obtain rfl := Option.some.inj htext
    have hplain : PlainNames (listed scan cnt) :=
      plain_of_parseText hparse ((fill_isPrefix SpaceOut _).trans (named_isPrefix scan _))
        (hpre.trans (named_isPrefix scan _))
    rw [parseText_replyText hplain] at hparse
    obtain rfl := replyJson_injective (Option.some.inj hparse)
    exact ⟨hfits, hplain, hpre, hall⟩
  · rintro ⟨hfits, hplain, hpre, hall⟩ mem hmem
    refine ⟨_, listed scan cnt, ?_, parseText_replyText hplain, hpre, hall⟩
    rw [wifiListReply_eq hmem, if_pos hfits]

/-- An access point with a name of `n` letters and the longest numbers. -/
def farAp (n : Nat) (h : n ≤ 32) : ApIf where
  ssid := List.replicate n 0x61
  rssi := -128
  security := 255
  zero_notMem h := absurd (List.eq_of_mem_replicate h) (by decide)
  length_le := by rw [List.length_replicate]; exact h

/-- Sixty-two access points. Before the last one exactly 64 bytes are free. -/
def farScan : ScanResult :=
  (oprtOk, List.replicate 60 (farAp 32 le_rfl) ++ [farAp 23 (by decide), farAp 32 le_rfl])

/-- The closing brackets of this reply are printed behind the end of the buffer. -/
theorem not_replyOk : ¬ ReplyOk farScan 62 := by
  intro h
  obtain ⟨text, aps, htext, -⟩ := h (List.replicate bufferSize 0) List.length_replicate
  have hlong : ¬ (openList (listed farScan 62)).length + 4 ≤ listSize := by decide +kernel
  rw [wifiListReply_eq List.length_replicate, if_neg fun hfits =>
    hlong ((replyText_fits_iff _).mp hfits)] at htext
  cases htext

end Cond

end TuyaOpen.Netcfg
