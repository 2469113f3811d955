import TuyaOpen.Basic.Text

/-!
# Base64

`tuya_base64_encode` and `tuya_base64_decode` of `mix_method.c`, with the functions of mbedTLS that
they call. The decoder goes through the text twice: the first pass checks it and counts the digits,
the second one writes the bytes.
-/

namespace TuyaOpen.Utilities

/-! ### Digits -/

/-- `mbedtls_ct_base64_enc_char`. -/
def encChar (value : Nat) : UInt8 :=
  if value ≤ 25 then UInt8.ofNat (65 + value)
  else if value ≤ 51 then UInt8.ofNat (97 + value - 26)
  else if value ≤ 61 then UInt8.ofNat (48 + value - 52)
  else if value = 62 then 0x2b
  else if value = 63 then 0x2f
  else 0

/-- `mbedtls_ct_base64_dec_value`. -/
def decValue (c : UInt8) : Option Nat :=
  if 65 ≤ c.toNat ∧ c.toNat ≤ 90 then some (c.toNat - 65)
  else if 97 ≤ c.toNat ∧ c.toNat ≤ 122 then some (c.toNat - 97 + 26)
  else if 48 ≤ c.toNat ∧ c.toNat ≤ 57 then some (c.toNat - 48 + 52)
  else if c = 0x2b then some 62
  else if c = 0x2f then some 63
  else none

/-! ### The functions -/

def encGroup (a b c : UInt8) : Bytes :=
  [encChar (a.toNat / 4 % 64), encChar ((a.toNat % 4 * 16 + b.toNat / 16) % 64),
    encChar ((b.toNat % 16 * 4 + c.toNat / 64) % 64), encChar (c.toNat % 64)]

/-- The text that `mbedtls_base64_encode` writes. -/
def mbedtlsBase64Encode : Bytes → Bytes
  | [] => []
  | [a] => (encGroup a 0 0).take 2 ++ [0x3d, 0x3d]
  | [a, b] => (encGroup a b 0).take 3 ++ [0x3d]
  | a :: b :: c :: rest => encGroup a b c ++ mbedtlsBase64Encode rest

/-- The first pass of `mbedtls_base64_decode`: the number of digits, and of `=` among them. A text
with a character in a wrong place is refused. -/
def decodeCheck (spacesPresent : Bool) (equals n : Nat) : Bytes → Option (Nat × Nat)
  | [] => some (n, equals)
  | c :: src =>
    if c = 0x20 then decodeCheck true equals n src
    else if (c = 0x0d ∧ src.head? = some 0x0a) ∨ c = 0x0a then decodeCheck false equals n src
    else if spacesPresent ∨ 127 < c.toNat then none
    else if c = 0x3d then
      if 2 < equals + 1 then none else decodeCheck false (equals + 1) (n + 1) src
    else if equals ≠ 0 ∨ decValue c = none then none
    else decodeCheck false equals (n + 1) src

def decGroup (x equals : Nat) : Bytes :=
  UInt8.ofNat (x / 65536) :: if equals ≤ 1 then
    UInt8.ofNat (x / 256) :: if equals = 0 then [UInt8.ofNat x] else []
  else []

/-- The second pass of `mbedtls_base64_decode`: the bytes that it writes. -/
def decodeWrite (x accumulatedDigits equals : Nat) : Bytes → Bytes
  | [] => []
  | c :: src =>
    if c = 0x0d ∨ c = 0x0a ∨ c = 0x20 then decodeWrite x accumulatedDigits equals src
    else
      let x := (x * 64 + (decValue c).getD 0) % 4294967296
      let equals := if c = 0x3d then equals + 1 else equals
      if accumulatedDigits + 1 = 4 then decGroup x equals ++ decodeWrite x 0 equals src
      else decodeWrite x (accumulatedDigits + 1) equals src

/-- `mbedtls_base64_decode` with a destination of `dlen` bytes: what it writes. -/
def mbedtlsBase64Decode (dlen : Nat) (src : Bytes) : Bytes :=
  match decodeCheck false 0 0 src with
  | none => []
  | some (n, equals) =>
    if n = 0 ∨ dlen < 6 * (n / 8) + (6 * (n % 8) + 7) / 8 - equals then []
    else decodeWrite 0 0 0 src

/-- The text that `tuya_base64_encode` writes: the length it gives is enough. -/
def tuyaBase64Encode (bindata : Bytes) : Bytes := mbedtlsBase64Encode bindata

/-- The bytes that `tuya_base64_decode` writes. -/
def tuyaBase64Decode (base64 : Bytes) : Bytes := mbedtlsBase64Decode base64.length base64

/-! ### Round trip -/

theorem encChar_spec : ∀ v < 64, decValue (encChar v) = some v ∧ encChar v ≠ 0x20 ∧
    encChar v ≠ 0x0d ∧ encChar v ≠ 0x0a ∧ encChar v ≠ 0x3d ∧ (encChar v).toNat ≤ 127 := by
  decide

theorem decodeCheck_encChar {v : Nat} (hv : v < 64) (n : Nat) (src : Bytes) :
    decodeCheck false 0 n (encChar v :: src) = decodeCheck false 0 (n + 1) src := by
  obtain ⟨hdec, hsp, hcr, hlf, heq, hle⟩ := encChar_spec v hv
  rw [decodeCheck, if_neg hsp, if_neg (fun h => h.elim (fun h => hcr h.1) hlf),
    if_neg (fun h => h.elim (fun h => by cases h) (Nat.not_lt.2 hle)), if_neg heq, hdec,
    if_neg (fun h => h.elim (fun h => h rfl) (fun h => by cases h))]

theorem decodeCheck_equals {equals : Nat} (h : equals < 2) (n : Nat) (src : Bytes) :
    decodeCheck false equals n (0x3d :: src) = decodeCheck false (equals + 1) (n + 1) src := by
  rw [decodeCheck, if_neg (by decide),
    if_neg (fun h => h.elim (fun h => absurd h.1 (by decide)) (by decide)),
    if_neg (by decide), if_pos rfl, if_neg (by omega)]

theorem decodeWrite_encChar {v : Nat} (hv : v < 64) (x acc equals : Nat) (src : Bytes) :
    decodeWrite x acc equals (encChar v :: src) =
      let x := (x * 64 + v) % 4294967296
      if acc + 1 = 4 then decGroup x equals ++ decodeWrite x 0 equals src
      else decodeWrite x (acc + 1) equals src := by
  obtain ⟨hdec, hsp, hcr, hlf, heq, -⟩ := encChar_spec v hv
  rw [decodeWrite, if_neg (not_or.2 ⟨hcr, not_or.2 ⟨hlf, hsp⟩⟩), hdec, if_neg heq]
  rfl

theorem decodeWrite_equals (x acc equals : Nat) (src : Bytes) :
    decodeWrite x acc equals (0x3d :: src) =
      let x := (x * 64) % 4294967296
      if acc + 1 = 4 then decGroup x (equals + 1) ++ decodeWrite x 0 (equals + 1) src
      else decodeWrite x (acc + 1) (equals + 1) src := by
  rw [decodeWrite, if_neg (by decide), if_pos rfl]
  rfl

section Groups

variable (a b c : UInt8) (x : Nat)

def accumulate (x d₁ d₂ d₃ d₄ : Nat) : Nat :=
  ((((x * 64 + d₁) % 4294967296 * 64 + d₂) % 4294967296 * 64 + d₃) % 4294967296 * 64 + d₄) %
    4294967296

theorem accumulate_mod (x d₁ d₂ d₃ d₄ : Nat) :
    accumulate x d₁ d₂ d₃ d₄ % 16777216 =
      (((d₁ * 64 + d₂) * 64 + d₃) * 64 + d₄) % 16777216 := by
  rw [accumulate]
  omega

theorem ofNat_eq_of_mod {n : Nat} {b : UInt8} (h : n % 256 = b.toNat) : UInt8.ofNat n = b := by
  apply UInt8.toNat_inj.1
  rw [UInt8.toNat_ofNat']
  exact h

theorem decGroup_encGroup (equals : Nat) :
    decGroup (accumulate x (a.toNat / 4 % 64) ((a.toNat % 4 * 16 + b.toNat / 16) % 64)
        ((b.toNat % 16 * 4 + c.toNat / 64) % 64) (c.toNat % 64)) equals =
      a :: if equals ≤ 1 then b :: if equals = 0 then [c] else [] else [] := by
  have ha := a.toNat_lt
  have hb := b.toNat_lt
  have hc := c.toNat_lt
  have hmod := accumulate_mod x (a.toNat / 4 % 64) ((a.toNat % 4 * 16 + b.toNat / 16) % 64)
    ((b.toNat % 16 * 4 + c.toNat / 64) % 64) (c.toNat % 64)
  set y := accumulate x (a.toNat / 4 % 64) ((a.toNat % 4 * 16 + b.toNat / 16) % 64)
    ((b.toNat % 16 * 4 + c.toNat / 64) % 64) (c.toNat % 64)
  have hy : y % 16777216 = a.toNat * 65536 + b.toNat * 256 + c.toNat := by
    rw [hmod]
    omega
  rw [decGroup, ofNat_eq_of_mod (show y / 65536 % 256 = a.toNat by omega),
    ofNat_eq_of_mod (show y / 256 % 256 = b.toNat by omega),
    ofNat_eq_of_mod (show y % 256 = c.toNat by omega)]

theorem decodeWrite_four {d₁ d₂ d₃ d₄ : Nat} (h₁ : d₁ < 64) (h₂ : d₂ < 64) (h₃ : d₃ < 64)
    (h₄ : d₄ < 64) (rest : Bytes) :
    decodeWrite x 0 0 (encChar d₁ :: encChar d₂ :: encChar d₃ :: encChar d₄ :: rest) =
      decGroup (accumulate x d₁ d₂ d₃ d₄) 0 ++
        decodeWrite (accumulate x d₁ d₂ d₃ d₄) 0 0 rest := by
  rw [decodeWrite_encChar h₁, if_neg (by decide), decodeWrite_encChar h₂, if_neg (by decide),
    decodeWrite_encChar h₃, if_neg (by decide), decodeWrite_encChar h₄, if_pos rfl]
  rfl

theorem decodeWrite_three {d₁ d₂ d₃ : Nat} (h₁ : d₁ < 64) (h₂ : d₂ < 64) (h₃ : d₃ < 64) :
    decodeWrite x 0 0 [encChar d₁, encChar d₂, encChar d₃, 0x3d] =
      decGroup (accumulate x d₁ d₂ d₃ 0) 1 := by
  rw [decodeWrite_encChar h₁, if_neg (by decide), decodeWrite_encChar h₂, if_neg (by decide),
    decodeWrite_encChar h₃, if_neg (by decide), decodeWrite_equals, if_pos rfl, decodeWrite,
    List.append_nil]
  rfl

theorem decodeWrite_two {d₁ d₂ : Nat} (h₁ : d₁ < 64) (h₂ : d₂ < 64) :
    decodeWrite x 0 0 [encChar d₁, encChar d₂, 0x3d, 0x3d] =
      decGroup (accumulate x d₁ d₂ 0 0) 2 := by
  rw [decodeWrite_encChar h₁, if_neg (by decide), decodeWrite_encChar h₂, if_neg (by decide),
    decodeWrite_equals, if_neg (by decide), decodeWrite_equals, if_pos rfl, decodeWrite,
    List.append_nil]
  rfl

end Groups

theorem mod_lt_64 (n : Nat) : n % 64 < 64 := Nat.mod_lt n (by decide)

theorem decodeWrite_encode (x : Nat) (bindata : Bytes) :
    decodeWrite x 0 0 (mbedtlsBase64Encode bindata) = bindata := by
  induction bindata using mbedtlsBase64Encode.induct generalizing x with
  | case1 => rfl
  | case2 a =>
    show decodeWrite x 0 0 [encChar _, encChar _, 0x3d, 0x3d] = _
    rw [decodeWrite_two x (mod_lt_64 _) (mod_lt_64 _)]
    exact decGroup_encGroup a 0 0 x 2
  | case3 a b =>
    show decodeWrite x 0 0 [encChar _, encChar _, encChar _, 0x3d] = _
    rw [decodeWrite_three x (mod_lt_64 _) (mod_lt_64 _)
      (mod_lt_64 _)]
    exact decGroup_encGroup a b 0 x 1
  | case4 a b c rest ih =>
    show decodeWrite x 0 0 (encChar _ :: encChar _ :: encChar _ :: encChar _ ::
      mbedtlsBase64Encode rest) = _
    rw [decodeWrite_four x (mod_lt_64 _) (mod_lt_64 _)
      (mod_lt_64 _) (mod_lt_64 _), ih, decGroup_encGroup a b c x 0]
    rfl

theorem decodeCheck_encode (n : Nat) (bindata : Bytes) :
    ∃ equals, decodeCheck false 0 n (mbedtlsBase64Encode bindata) =
      some (n + (mbedtlsBase64Encode bindata).length, equals) := by
  induction bindata using mbedtlsBase64Encode.induct generalizing n with
  | case1 => exact ⟨0, rfl⟩
  | case2 a =>
    refine ⟨2, ?_⟩
    show decodeCheck false 0 n [encChar _, encChar _, 0x3d, 0x3d] = _
    rw [decodeCheck_encChar (mod_lt_64 _), decodeCheck_encChar (mod_lt_64 _),
      decodeCheck_equals (by decide), decodeCheck_equals (by decide)]
    rfl
  | case3 a b =>
    refine ⟨1, ?_⟩
    show decodeCheck false 0 n [encChar _, encChar _, encChar _, 0x3d] = _
    rw [decodeCheck_encChar (mod_lt_64 _), decodeCheck_encChar (mod_lt_64 _),
      decodeCheck_encChar (mod_lt_64 _), decodeCheck_equals (by decide)]
    rfl
  | case4 a b c rest ih =>
    obtain ⟨equals, hequals⟩ := ih (n + 4)
    refine ⟨equals, ?_⟩
    show decodeCheck false 0 n (encChar _ :: encChar _ :: encChar _ :: encChar _ ::
      mbedtlsBase64Encode rest) = _
    rw [decodeCheck_encChar (mod_lt_64 _), decodeCheck_encChar (mod_lt_64 _),
      decodeCheck_encChar (mod_lt_64 _), decodeCheck_encChar (mod_lt_64 _),
      hequals, mbedtlsBase64Encode, List.length_append, Nat.add_assoc]
    rfl

theorem length_encode (bindata : Bytes) :
    (mbedtlsBase64Encode bindata).length =
      bindata.length / 3 * 4 + if bindata.length % 3 = 0 then 0 else 4 := by
  induction bindata using mbedtlsBase64Encode.induct with
  | case1 => rfl
  | case2 a => simp [mbedtlsBase64Encode, encGroup]
  | case3 a b => simp [mbedtlsBase64Encode, encGroup]
  | case4 a b c rest ih =>
    have hdiv : (rest.length + 1 + 1 + 1) / 3 = rest.length / 3 + 1 := by omega
    have hmod : (rest.length + 1 + 1 + 1) % 3 = rest.length % 3 := by omega
    rw [mbedtlsBase64Encode, List.length_append, ih, List.length_cons, List.length_cons,
      List.length_cons, hdiv, hmod, Nat.succ_mul, ← Nat.add_assoc, Nat.add_comm _ (_ * 4)]
    rfl

theorem mem_encode {bindata : Bytes} :
    ∀ ch ∈ mbedtlsBase64Encode bindata, 43 ≤ ch.toNat ∧ ch ≠ 0x5c := by
  have hchar : ∀ v < 64, 43 ≤ (encChar v).toNat ∧ encChar v ≠ 0x5c := by decide
  have hgroup (a b c : UInt8) : ∀ ch ∈ encGroup a b c, 43 ≤ ch.toNat ∧ ch ≠ 0x5c := by
    intro ch hch
    simp only [encGroup, List.mem_cons, List.not_mem_nil, or_false] at hch
    rcases hch with rfl | rfl | rfl | rfl
    all_goals exact hchar _ (mod_lt_64 _)
  have hequals : ∀ ch ∈ [(0x3d : UInt8), 0x3d], 43 ≤ ch.toNat ∧ ch ≠ 0x5c :=
    List.forall_mem_cons.2 ⟨by decide, List.forall_mem_singleton.2 (by decide)⟩
  induction bindata using mbedtlsBase64Encode.induct with
  | case1 => exact fun _ h => by cases h
  | case2 a =>
    intro ch hch
    rcases List.mem_append.1 hch with hch | hch
    · exact hgroup a 0 0 ch (List.mem_of_mem_take hch)
    · exact hequals ch hch
  | case3 a b =>
    intro ch hch
    rcases List.mem_append.1 hch with hch | hch
    · exact hgroup a b 0 ch (List.mem_of_mem_take hch)
    · exact hequals ch (List.mem_cons_of_mem _ hch)
  | case4 a b c rest ih =>
    intro ch hch
    rcases List.mem_append.1 hch with hch | hch
    · exact hgroup a b c ch hch
    · exact ih ch hch

/-! ### The length of what is decoded -/

/-- How many bytes have been written when `n` characters have been read, `equals` of them `=`. -/
def writtenLength (n equals : Nat) : Nat :=
  3 * (n / 4) - if n % 4 = 0 then equals else if n % 4 = 1 then equals - 1 else 0

theorem length_decGroup {equals : Nat} (h : equals ≤ 2) (x : Nat) :
    (decGroup x equals).length = 3 - equals := by
  rw [decGroup]
  split_ifs <;> simp only [List.length_cons, List.length_nil] <;> omega

theorem writtenLength_succ {n equals equals' : Nat} (h : equals' ≤ 2)
    (hequals : equals' = equals + 1 ∨ equals' = equals ∧ equals = 0) :
    writtenLength (n + 1) equals' =
      writtenLength n equals + if n % 4 + 1 = 4 then 3 - equals' else 0 := by
  simp only [writtenLength]
  split_ifs <;> omega

theorem length_decodeWrite {src : Bytes} :
    ∀ {spacesPresent : Bool} {equals n n' equals' : Nat} (x : Nat), equals ≤ 2 →
      decodeCheck spacesPresent equals n src = some (n', equals') →
      equals' ≤ 2 ∧
        writtenLength n equals + (decodeWrite x (n % 4) equals src).length =
          writtenLength n' equals' := by
  induction src with
  | nil =>
    intro spacesPresent equals n n' equals' x hle h
    obtain ⟨rfl, rfl⟩ := Prod.mk.inj (Option.some.inj h)
    exact ⟨hle, rfl⟩
  | cons c src ih =>
    intro spacesPresent equals n n' equals' x hle h
    -- a character of the alphabet, or `=`
    have hcount {next : Nat} (hnext : next ≤ 2)
        (hequals : next = equals + 1 ∨ next = equals ∧ equals = 0)
        (hnext' : (if c = 0x3d then equals + 1 else equals) = next)
        (hskip : ¬(c = 0x0d ∨ c = 0x0a ∨ c = 0x20))
        (h : decodeCheck false next (n + 1) src = some (n', equals')) :
        equals' ≤ 2 ∧ writtenLength n equals + (decodeWrite x (n % 4) equals (c :: src)).length =
          writtenLength n' equals' := by
      rw [decodeWrite, if_neg hskip, hnext']
      dsimp only
      obtain ⟨hle', hlen⟩ := ih ((x * 64 + (decValue c).getD 0) % 4294967296) hnext h
      rw [writtenLength_succ hnext hequals] at hlen
      refine ⟨hle', ?_⟩
      by_cases hgroup : n % 4 + 1 = 4
      · have hzero : (n + 1) % 4 = 0 := by omega
        rw [if_pos hgroup, hzero] at hlen
        rw [if_pos hgroup, List.length_append, length_decGroup hnext, ← hlen]
        omega
      · have hmod : (n + 1) % 4 = n % 4 + 1 := by omega
        rw [if_neg hgroup, hmod] at hlen
        rwa [if_neg hgroup]
    rw [decodeCheck] at h
    split_ifs at h with hspace hline hrefuse hequals hmany hdigit
    · rw [decodeWrite, if_pos (Or.inr (Or.inr hspace))]
      exact ih x hle h
    · rw [decodeWrite, if_pos (hline.elim (fun h => Or.inl h.1) fun h => Or.inr (Or.inl h))]
      exact ih x hle h
    · refine hcount (Nat.le_of_not_lt hmany) (Or.inl rfl) (if_pos hequals) ?_ h
      rw [hequals]
      decide
    · rw [not_or, not_not] at hdigit
      refine hcount hle (Or.inr ⟨rfl, hdigit.1⟩) (if_neg hequals) ?_ h
      rintro (rfl | rfl | rfl)
      · exact hdigit.2 (by decide)
      · exact hline (Or.inr rfl)
      · exact hspace rfl

theorem length_decodeWrite_le {src : Bytes} {n equals : Nat}
    (h : decodeCheck false 0 0 src = some (n, equals)) :
    (decodeWrite 0 0 0 src).length ≤ 6 * (n / 8) + (6 * (n % 8) + 7) / 8 - equals := by
  obtain ⟨hle, hlen⟩ := length_decodeWrite 0 (Nat.zero_le 2) h
  have hzero : writtenLength 0 0 = 0 := rfl
  rw [hzero, Nat.zero_add, Nat.zero_mod] at hlen
  rw [hlen, writtenLength]
  split_ifs <;> omega

/-- **Round trip.** What is encoded is decoded. -/
theorem tuyaBase64Decode_encode (bindata : Bytes) :
    tuyaBase64Decode (tuyaBase64Encode bindata) = bindata := by
  obtain ⟨equals, hcheck⟩ := decodeCheck_encode 0 bindata
  rw [tuyaBase64Decode, tuyaBase64Encode, mbedtlsBase64Decode, hcheck, Nat.zero_add]
  dsimp only
  split_ifs with h
  · -- the first pass asks for no more bytes than there are characters
    have hzero : (mbedtlsBase64Encode bindata).length = 0 := by omega
    rw [length_encode] at hzero
    have hlen : bindata.length = 0 := by
      split_ifs at hzero with hmod
      omega
    exact (List.eq_nil_of_length_eq_zero hlen).symm
  · exact decodeWrite_encode 0 bindata

end TuyaOpen.Utilities
