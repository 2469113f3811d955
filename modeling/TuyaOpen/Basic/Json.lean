import TuyaOpen.Basic.Text

/-!
# JSON texts

The values of JSON and a parser for JSON texts, at the level of bytes: a string is the bytes that it
stands for, and a number is a decimal mantissa with an exponent. The parser reads one value and does
not look at what follows it, or asks that nothing follows it. The standard does not allow control
characters in a string that are not escaped, but not every parser refuses them: this is a
parameter.

## Main results

* `parseString_plain`: a string of such bytes is read as it is.
* `cString_ne_of_parseString`: any other text between quotes is read as something else.
* `parseNumber_intText`: an integer is read as it is.
-/

namespace TuyaOpen

inductive Json
  | null
  | bool (b : Bool)
  | number (mantissa exponent : ℤ)
  | string (s : Bytes)
  | array (items : List Json)
  | object (members : List (Bytes × Json))

namespace Json

/-! ### Tokens -/

def isWs (b : UInt8) : Bool := b = 0x20 ∨ b = 0x09 ∨ b = 0x0a ∨ b = 0x0d

def skipWs (bs : Bytes) : Bytes := bs.dropWhile isWs

def expect (b : UInt8) : Bytes → Option Bytes
  | [] => none
  | c :: bs => if c = b then some bs else none

def expectText (text bs : Bytes) : Option Bytes :=
  if bs.take text.length = text then some (bs.drop text.length) else none

/-! ### Strings -/

def hexValue (b : UInt8) : Option Nat :=
  if 48 ≤ b.toNat ∧ b.toNat ≤ 57 then some (b.toNat - 48)
  else if 65 ≤ b.toNat ∧ b.toNat ≤ 70 then some (b.toNat - 55)
  else if 97 ≤ b.toNat ∧ b.toNat ≤ 102 then some (b.toNat - 87)
  else none

/-- The value of `n` hexadecimal digits, and what follows them. -/
def parseHex : Nat → Nat → Bytes → Option (Nat × Bytes)
  | 0, acc, bs => some (acc, bs)
  | _ + 1, _, [] => none
  | n + 1, acc, b :: bs => (hexValue b).bind fun v => parseHex n (acc * 16 + v) bs

def utf8 (code : Nat) : Bytes :=
  if code < 0x80 then [UInt8.ofNat code]
  else if code < 0x800 then [UInt8.ofNat (0xc0 + code / 64), UInt8.ofNat (0x80 + code % 64)]
  else if code < 0x10000 then
    [UInt8.ofNat (0xe0 + code / 4096), UInt8.ofNat (0x80 + code / 64 % 64),
      UInt8.ofNat (0x80 + code % 64)]
  else
    [UInt8.ofNat (0xf0 + code / 262144), UInt8.ofNat (0x80 + code / 4096 % 64),
      UInt8.ofNat (0x80 + code / 64 % 64), UInt8.ofNat (0x80 + code % 64)]

def simpleEscape (c : UInt8) : Option UInt8 :=
  if c = 0x22 ∨ c = 0x5c ∨ c = 0x2f then some c
  else if c = 0x62 then some 0x08
  else if c = 0x66 then some 0x0c
  else if c = 0x6e then some 0x0a
  else if c = 0x72 then some 0x0d
  else if c = 0x74 then some 0x09
  else none

def parseLowSurrogate (high : Nat) (bs : Bytes) : Option (Bytes × Bytes) :=
  (expectText [0x5c, 0x75] bs).bind fun bs =>
    (parseHex 4 0 bs).bind fun r =>
      if 0xdc00 ≤ r.1 ∧ r.1 ≤ 0xdfff then
        some (utf8 (0x10000 + (high - 0xd800) * 1024 + (r.1 - 0xdc00)), r.2)
      else none

/-- An escape behind its backslash: the bytes that it stands for, and what follows it. -/
def parseEscape : Bytes → Option (Bytes × Bytes)
  | [] => none
  | c :: bs =>
    if c = 0x75 then
      (parseHex 4 0 bs).bind fun r =>
        if 0xdc00 ≤ r.1 ∧ r.1 ≤ 0xdfff then none
        else if 0xd800 ≤ r.1 ∧ r.1 ≤ 0xdbff then parseLowSurrogate r.1 r.2
        else some (utf8 r.1, r.2)
    else (simpleEscape c).map fun b => ([b], bs)

def Plain (strict : Bool) (b : UInt8) : Prop :=
  b ≠ 0x22 ∧ b ≠ 0x5c ∧ (strict = true → 0x20 ≤ b.toNat)

instance (strict : Bool) (b : UInt8) : Decidable (Plain strict b) :=
  inferInstanceAs (Decidable (_ ∧ _ ∧ _))

/-- The characters of a string behind its first quote, and what follows the string. -/
def parseChars (strict : Bool) : Nat → Bytes → Option (Bytes × Bytes)
  | 0, _ => none
  | _ + 1, [] => none
  | fuel + 1, b :: bs =>
    if b = 0x22 then some ([], bs)
    else if b = 0x5c then
      (parseEscape bs).bind fun e =>
        (parseChars strict fuel e.2).map fun r => (e.1 ++ r.1, r.2)
    else if Plain strict b then (parseChars strict fuel bs).map fun r => (b :: r.1, r.2)
    else none

def parseString (strict : Bool) (bs : Bytes) : Option (Bytes × Bytes) :=
  parseChars strict (bs.length + 1) bs

/-! ### Numbers -/

def isDigit (b : UInt8) : Bool := 48 ≤ b.toNat ∧ b.toNat ≤ 57

def digitsValue (digits : Bytes) : Nat := digits.foldl (fun acc b => 10 * acc + (b.toNat - 48)) 0

def parseDigits (bs : Bytes) : Option (Bytes × Bytes) :=
  if bs.takeWhile isDigit = [] then none else some (bs.takeWhile isDigit, bs.dropWhile isDigit)

def parseIntPart (bs : Bytes) : Option (Bytes × Bytes) :=
  (parseDigits bs).bind fun r =>
    if r.1.head? = some 0x30 ∧ r.1.length ≠ 1 then none else some r

def parseFraction (bs : Bytes) : Option (Bytes × Bytes) :=
  match expect 0x2e bs with
  | none => some ([], bs)
  | some bs => parseDigits bs

def parseExponent (bs : Bytes) : Option (ℤ × Bytes) :=
  match (expect 0x65 bs).or (expect 0x45 bs) with
  | none => some (0, bs)
  | some bs =>
    match expect 0x2d bs with
    | some bs => (parseDigits bs).map fun r => (-(digitsValue r.1 : ℤ), r.2)
    | none => (parseDigits ((expect 0x2b bs).getD bs)).map fun r => ((digitsValue r.1 : ℤ), r.2)

def parseMagnitude (bs : Bytes) : Option ((Nat × ℤ) × Bytes) :=
  (parseIntPart bs).bind fun i =>
    (parseFraction i.2).bind fun f =>
      (parseExponent f.2).map fun e =>
        ((digitsValue (i.1 ++ f.1), e.1 - f.1.length), e.2)

def parseNumber (bs : Bytes) : Option (Json × Bytes) :=
  match expect 0x2d bs with
  | some bs => (parseMagnitude bs).map fun r => (number (-r.1.1) r.1.2, r.2)
  | none => (parseMagnitude bs).map fun r => (number r.1.1 r.1.2, r.2)

/-! ### Values -/

mutual

def parseValue (strict : Bool) : Nat → Bytes → Option (Json × Bytes)
  | 0, _ => none
  | fuel + 1, bs =>
    let bs := skipWs bs
    match expect 0x22 bs, expect 0x7b bs, expect 0x5b bs with
    | some bs, _, _ => (parseString strict bs).map fun r => (string r.1, r.2)
    | none, some bs, _ =>
      match expect 0x7d (skipWs bs) with
      | some bs => some (object [], bs)
      | none => (parseMembers strict fuel bs).map fun r => (object r.1, r.2)
    | none, none, some bs =>
      match expect 0x5d (skipWs bs) with
      | some bs => some (array [], bs)
      | none => (parseItems strict fuel bs).map fun r => (array r.1, r.2)
    | none, none, none =>
      match expectText (asciiBytes ['n', 'u', 'l', 'l']) bs with
      | some bs => some (null, bs)
      | none =>
        match expectText (asciiBytes ['t', 'r', 'u', 'e']) bs with
        | some bs => some (bool true, bs)
        | none =>
          match expectText (asciiBytes ['f', 'a', 'l', 's', 'e']) bs with
          | some bs => some (bool false, bs)
          | none => parseNumber bs

def parseMembers (strict : Bool) : Nat → Bytes → Option (List (Bytes × Json) × Bytes)
  | 0, _ => none
  | fuel + 1, bs =>
    (expect 0x22 (skipWs bs)).bind fun bs =>
      (parseString strict bs).bind fun name =>
        (expect 0x3a (skipWs name.2)).bind fun bs =>
          (parseValue strict fuel bs).bind fun v =>
            match expect 0x7d (skipWs v.2) with
            | some bs => some ([(name.1, v.1)], bs)
            | none =>
              (expect 0x2c (skipWs v.2)).bind fun bs =>
                (parseMembers strict fuel bs).map fun r => ((name.1, v.1) :: r.1, r.2)

def parseItems (strict : Bool) : Nat → Bytes → Option (List Json × Bytes)
  | 0, _ => none
  | fuel + 1, bs =>
    (parseValue strict fuel bs).bind fun v =>
      match expect 0x5d (skipWs v.2) with
      | some bs => some ([v.1], bs)
      | none =>
        (expect 0x2c (skipWs v.2)).bind fun bs =>
          (parseItems strict fuel bs).map fun r => (v.1 :: r.1, r.2)

end

def parse (strict : Bool) (text : Bytes) : Option Json :=
  (parseValue strict (text.length + 1) text).map Prod.fst

def parseText (strict : Bool) (text : Bytes) : Option Json :=
  (parseValue strict (text.length + 1) text).bind fun r =>
    if skipWs r.2 = [] then some r.1 else none

/-! ### Strings of plain bytes -/

section Strings

variable {strict : Bool} {rest : Bytes}

theorem expect_cons_self (b : UInt8) (bs : Bytes) : expect b (b :: bs) = some bs := if_pos rfl

theorem expect_cons_of_ne {b c : UInt8} (h : c ≠ b) (bs : Bytes) : expect b (c :: bs) = none :=
  if_neg h

theorem parseChars_plain {s : Bytes} (hs : ∀ b ∈ s, Plain strict b) {fuel : Nat}
    (hfuel : s.length < fuel) :
    parseChars strict fuel (s ++ 0x22 :: rest) = some (s, rest) := by
  induction s generalizing fuel with
  | nil =>
    obtain ⟨fuel, rfl⟩ := Nat.exists_eq_succ_of_ne_zero (Nat.ne_of_gt hfuel)
    exact if_pos rfl
  | cons b s ih =>
    obtain ⟨fuel, rfl⟩ := Nat.exists_eq_succ_of_ne_zero (Nat.ne_of_gt (Nat.zero_lt_of_lt hfuel))
    obtain ⟨hb, hs⟩ := List.forall_mem_cons.1 hs
    rw [List.cons_append, parseChars, if_neg hb.1, if_neg hb.2.1, if_pos hb,
      ih hs (Nat.lt_of_succ_lt_succ hfuel)]
    rfl

theorem parseString_plain {s : Bytes} (hs : ∀ b ∈ s, Plain strict b) :
    parseString strict (s ++ 0x22 :: rest) = some (s, rest) := by
  refine parseChars_plain hs ?_
  rw [List.length_append]
  omega

/-! ### Other strings -/

theorem parseHex_append {n acc : Nat} {t : Bytes} {r : Nat × Bytes}
    (h : parseHex n acc (t ++ 0x22 :: rest) = some r) :
    ∃ pre t', t = pre ++ t' ∧ pre.length = n ∧ r.2 = t' ++ 0x22 :: rest := by
  induction n generalizing acc t with
  | zero =>
    rw [parseHex] at h
    obtain rfl := Option.some.inj h
    exact ⟨[], t, rfl, rfl, rfl⟩
  | succ n ih =>
    cases t with
    | nil => cases h
    | cons b t =>
      rw [List.cons_append, parseHex, Option.bind_eq_some_iff] at h
      obtain ⟨v, -, h⟩ := h
      obtain ⟨pre, t', rfl, rfl, hr⟩ := ih h
      exact ⟨b :: pre, t', rfl, rfl, hr⟩

theorem length_utf8_le (code : Nat) : (utf8 code).length ≤ 4 := by
  rw [utf8]
  split_ifs
  all_goals simp

theorem expectText_append {x y : UInt8} {t bs : Bytes} (hx : x ≠ 0x22) (hy : y ≠ 0x22)
    (h : expectText [x, y] (t ++ 0x22 :: rest) = some bs) :
    ∃ t', t = x :: y :: t' ∧ bs = t' ++ 0x22 :: rest := by
  rw [expectText] at h
  split_ifs at h with htake
  obtain rfl := Option.some.inj h
  match t, htake with
  | [], htake => exact absurd (List.cons.inj htake).1.symm hx
  | [a], htake => exact absurd (List.cons.inj (List.cons.inj htake).2).1.symm hy
  | a :: b :: t', htake =>
    have ha : a = x := (List.cons.inj htake).1
    have hb : b = y := (List.cons.inj (List.cons.inj htake).2).1
    rw [ha, hb]
    exact ⟨t', rfl, rfl⟩

theorem parseEscape_append {t : Bytes} {e : Bytes × Bytes}
    (h : parseEscape (t ++ 0x22 :: rest) = some e) :
    (t = [] ∧ e = ([0x22], rest)) ∨
      ∃ pre t', t = pre ++ t' ∧ e.2 = t' ++ 0x22 :: rest ∧ e.1.length ≤ pre.length := by
  cases t with
  | nil => exact .inl ⟨rfl, (Option.some.inj h).symm⟩
  | cons c t =>
    right
    rw [List.cons_append, parseEscape] at h
    split_ifs at h with hu
    · rw [Option.bind_eq_some_iff] at h
      obtain ⟨r, hr, h⟩ := h
      obtain ⟨pre, t', rfl, hpre, hr'⟩ := parseHex_append hr
      split_ifs at h with hlow hhigh
      · rw [parseLowSurrogate, hr', Option.bind_eq_some_iff] at h
        obtain ⟨bs, hbs, h⟩ := h
        obtain ⟨t₂, rfl, rfl⟩ := expectText_append (by decide) (by decide) hbs
        rw [Option.bind_eq_some_iff] at h
        obtain ⟨r₂, hr₂, h⟩ := h
        obtain ⟨pre₂, t₃, rfl, hpre₂, hr₂'⟩ := parseHex_append hr₂
        split_ifs at h with hrange
        obtain rfl := Option.some.inj h
        refine ⟨c :: (pre ++ 0x5c :: 0x75 :: pre₂), t₃, by simp, hr₂', ?_⟩
        have hlen := length_utf8_le (0x10000 + (r.1 - 0xd800) * 1024 + (r₂.1 - 0xdc00))
        dsimp only
        rw [List.length_cons, List.length_append, hpre]
        omega
      · obtain rfl := Option.some.inj h
        refine ⟨c :: pre, t', rfl, hr', (length_utf8_le _).trans ?_⟩
        rw [List.length_cons, hpre]
        omega
    · rw [Option.map_eq_some_iff] at h
      obtain ⟨b, -, rfl⟩ := h
      exact ⟨[c], t, rfl, rfl, le_rfl⟩

theorem cString_append_of_notMem {s : Bytes} (h : 0 ∉ s) (t : Bytes) :
    cString (s ++ t) = s ++ cString t := by
  refine List.takeWhile_append_of_pos fun b hb => decide_eq_true ?_
  rintro rfl
  exact h hb

theorem length_cString_append_of_mem {s : Bytes} (h : 0 ∈ s) (t : Bytes) :
    (cString (s ++ t)).length < s.length := by
  induction s with
  | nil => cases h
  | cons b s ih =>
    by_cases hb : b = 0
    · rw [List.cons_append, cString, List.takeWhile_cons_of_neg (by simp [hb])]
      exact Nat.succ_pos _
    · rcases List.mem_cons.1 h with h | h
      · exact absurd h.symm hb
      · rw [List.cons_append, cString, List.takeWhile_cons_of_pos (by simp [hb])]
        exact Nat.succ_lt_succ (ih h)

theorem cString_append_cases (s t : Bytes) :
    cString (s ++ t) = s ++ cString t ∨ (cString (s ++ t)).length < s.length := by
  by_cases h : 0 ∈ s
  · exact .inr (length_cString_append_of_mem h t)
  · exact .inl (cString_append_of_notMem h t)

/-- What is read is shorter than the text `s`, or it goes on behind an escaped quote. -/
def Differs (s d : Bytes) : Prop :=
  (cString d).length < s.length ∨
    (s.getLast? = some 0x5c ∧ (cString d).getLast? = some 0x2c)

theorem Differs.ne {s d : Bytes} (h : Differs s d) : cString d ≠ s := by
  rintro rfl
  rcases h with h | ⟨h, h'⟩
  · exact absurd h (Nat.lt_irrefl _)
  · rw [h] at h'
    cases h'

theorem Differs.append {t d : Bytes} (h : Differs t d) {w pre : Bytes}
    (hw : w.length ≤ pre.length) : Differs (pre ++ t) (w ++ d) := by
  rw [Differs, List.length_append]
  rcases cString_append_cases w d with hd | hd
  · rw [hd, List.length_append]
    rcases h with h | ⟨h, h'⟩
    · left
      omega
    · right
      rw [List.getLast?_append, List.getLast?_append, h, h']
      exact ⟨rfl, rfl⟩
  · left
    omega

theorem parseChars_cases
    (hrest : ∀ fuel r, parseChars strict fuel rest = some r → r.1 = [0x2c]) {fuel : Nat}
    {s : Bytes} {r : Bytes × Bytes} (h : parseChars strict fuel (s ++ 0x22 :: rest) = some r) :
    (r.1 = s ∧ ∀ b ∈ s, Plain strict b) ∨ Differs s r.1 := by
  induction fuel generalizing s r with
  | zero => cases h
  | succ fuel ih =>
    cases s with
    | nil =>
      obtain rfl := Option.some.inj h
      exact .inl ⟨rfl, fun _ h => by cases h⟩
    | cons b s =>
      rw [List.cons_append, parseChars] at h
      split_ifs at h with hquote hslash hplain
      · obtain rfl := Option.some.inj h
        exact .inr (.inl (Nat.succ_pos _))
      · rw [Option.bind_eq_some_iff] at h
        obtain ⟨e, he, h⟩ := h
        obtain ⟨r', hr', rfl⟩ := Option.map_eq_some_iff.1 h
        right
        rcases parseEscape_append he with ⟨rfl, rfl⟩ | ⟨pre, t', rfl, he2, hlen⟩
        · -- the last quote is escaped
          right
          rw [hrest fuel r' hr', hslash]
          exact ⟨rfl, rfl⟩
        · rw [he2] at hr'
          rcases ih hr' with ⟨hsame, -⟩ | hdiffers
          · left
            dsimp only
            rw [hsame]
            have hle : (cString (e.1 ++ t')).length ≤ (e.1 ++ t').length :=
              (List.takeWhile_sublist _).length_le
            rw [List.length_append] at hle
            rw [List.length_cons, List.length_append]
            omega
          · exact @Differs.append t' r'.1 hdiffers e.1 (b :: pre) (hlen.trans (Nat.le_succ _))
      · obtain ⟨r', hr', rfl⟩ := Option.map_eq_some_iff.1 h
        rcases ih hr' with ⟨hsame, hs⟩ | hdiffers
        · exact .inl ⟨congrArg (b :: ·) hsame, List.forall_mem_cons.2 ⟨hplain, hs⟩⟩
        · exact .inr (@Differs.append s r'.1 hdiffers [b] [b] le_rfl)

theorem cString_ne_of_parseString
    (hrest : ∀ fuel r, parseChars strict fuel rest = some r → r.1 = [0x2c]) {s : Bytes}
    (hs : ¬∀ b ∈ s, Plain strict b) {r : Bytes × Bytes}
    (h : parseString strict (s ++ 0x22 :: rest) = some r) : cString r.1 ≠ s := by
  rcases parseChars_cases hrest h with ⟨-, hplain⟩ | hdiffers
  · exact absurd hplain hs
  · exact hdiffers.ne

end Strings

/-! ### Integers -/

/-- An integer that is printed with `%d`. -/
def intText (v : ℤ) : Bytes := if v < 0 then 0x2d :: decimal v.natAbs else decimal v.natAbs

section Integers

theorem toNat_ofNat_toNat {c : Char} (hc : c.isDigit = true) :
    (UInt8.ofNat c.toNat).toNat = c.toNat := by
  have hle : 48 ≤ c.toNat ∧ c.toNat ≤ 57 := Char.isDigit_iff_toNat.1 hc
  rw [UInt8.toNat_ofNat', Nat.mod_eq_of_lt (by omega)]

theorem isDigit_of_mem_decimal {n : Nat} : ∀ b ∈ decimal n, isDigit b = true := by
  intro b hb
  obtain ⟨c, hc, rfl⟩ := List.mem_map.1 hb
  have hdigit := Nat.isDigit_of_mem_toDigits (by decide) (by decide) hc
  have hle : 48 ≤ c.toNat ∧ c.toNat ≤ 57 := Char.isDigit_iff_toNat.1 hdigit
  refine decide_eq_true ?_
  rw [toNat_ofNat_toNat hdigit]
  exact hle

theorem digitsValue_decimal (n : Nat) : digitsValue (decimal n) = n := by
  have hfold (cs : List Char) (hcs : ∀ c ∈ cs, c.isDigit = true) (acc : Nat) :
      (asciiBytes cs).foldl (fun acc b => 10 * acc + (b.toNat - 48)) acc =
        Nat.ofDigitChars 10 cs acc := by
    induction cs generalizing acc with
    | nil => rfl
    | cons c cs ih =>
      obtain ⟨hc, hcs⟩ := List.forall_mem_cons.1 hcs
      rw [asciiBytes, List.map_cons, List.foldl_cons, toNat_ofNat_toNat hc,
        Nat.ofDigitChars_cons]
      exact ih hcs _
  have hdigits : ∀ c ∈ Nat.toDigits 10 n, c.isDigit = true :=
    fun c hc => Nat.isDigit_of_mem_toDigits (by decide) (by decide) hc
  rw [digitsValue, decimal, hfold _ hdigits, Nat.ofDigitChars_ten_toDigits]

theorem decimal_ne_nil (n : Nat) : decimal n ≠ [] := by
  rw [decimal, asciiBytes, ne_eq, List.map_eq_nil_iff]
  exact Nat.toDigits_ne_nil

theorem head?_decimal {n : Nat} (hn : n ≠ 0) : (decimal n).head? ≠ some 0x30 := by
  induction n using Nat.strongRecOn with
  | ind n ih =>
    by_cases hlt : n < 10
    · have hdigit : ∀ n < 10, n ≠ 0 → UInt8.ofNat n.digitChar.toNat ≠ 0x30 := by decide
      rw [decimal, Nat.toDigits_of_lt_base hlt]
      exact fun h => hdigit n hlt hn (Option.some.inj h)
    · have hdiv := ih (n / 10) (by omega) (by omega)
      rw [decimal, Nat.toDigits_of_base_le (by decide) (by omega), asciiBytes, List.map_append,
        List.head?_append_of_ne_nil]
      · exact hdiv
      · exact decimal_ne_nil _

def EndsNumber (rest : Bytes) : Prop :=
  ∀ b ∈ rest.head?, isDigit b = false ∧ b ≠ 0x2e ∧ b ≠ 0x65 ∧ b ≠ 0x45

variable {rest : Bytes}

theorem parseIntPart_decimal (n : Nat) (hrest : EndsNumber rest) :
    parseIntPart (decimal n ++ rest) = some (decimal n, rest) := by
  have htail : rest.takeWhile isDigit = [] ∧ rest.dropWhile isDigit = rest := by
    cases rest with
    | nil => exact ⟨rfl, rfl⟩
    | cons b rest =>
      have hb := (hrest b rfl).1
      rw [List.takeWhile_cons_of_neg (by simp [hb]), List.dropWhile_cons_of_neg (by simp [hb])]
      exact ⟨rfl, rfl⟩
  have hzero : ¬((decimal n).head? = some 0x30 ∧ (decimal n).length ≠ 1) := by
    rintro ⟨hhead, hlen⟩
    by_cases hn : n = 0
    · subst hn
      exact hlen rfl
    · exact head?_decimal hn hhead
  rw [parseIntPart, parseDigits, List.takeWhile_append_of_pos isDigit_of_mem_decimal,
    List.dropWhile_append_of_pos isDigit_of_mem_decimal, htail.1, htail.2, List.append_nil,
    if_neg (decimal_ne_nil n), Option.bind_some, if_neg hzero]

theorem parseMagnitude_decimal (n : Nat) (hrest : EndsNumber rest) :
    parseMagnitude (decimal n ++ rest) = some ((n, 0), rest) := by
  have hexpect {c : UInt8} (hc : ∀ b ∈ rest.head?, b ≠ c) : expect c rest = none := by
    cases rest with
    | nil => rfl
    | cons b rest => exact if_neg (hc b rfl)
  rw [parseMagnitude, parseIntPart_decimal n hrest, Option.bind_some, parseFraction,
    hexpect fun b hb => (hrest b hb).2.1, Option.bind_some, parseExponent,
    hexpect fun b hb => (hrest b hb).2.2.1, hexpect fun b hb => (hrest b hb).2.2.2, Option.or_none,
    Option.map_some, List.append_nil, digitsValue_decimal]
  rfl

theorem parseNumber_intText (v : ℤ) (hrest : EndsNumber rest) :
    parseNumber (intText v ++ rest) = some (number v 0, rest) := by
  rw [intText]
  split_ifs with hv
  · rw [List.cons_append, parseNumber, expect_cons_self]
    dsimp only
    rw [parseMagnitude_decimal _ hrest]
    show some (number (-(v.natAbs : ℤ)) 0, rest) = _
    rw [Int.ofNat_natAbs_of_nonpos hv.le, neg_neg]
  · have hminus : expect 0x2d (decimal v.natAbs ++ rest) = none := by
      obtain ⟨b, bs, hbs⟩ := List.exists_cons_of_ne_nil (decimal_ne_nil v.natAbs)
      have hb := @isDigit_of_mem_decimal v.natAbs b (by rw [hbs]; exact List.mem_cons_self)
      rw [hbs, List.cons_append, expect_cons_of_ne]
      rintro rfl
      cases hb
    rw [parseNumber, hminus, parseMagnitude_decimal _ hrest]
    show some (number (v.natAbs : ℤ) 0, rest) = _
    rw [Int.natAbs_of_nonneg (not_lt.1 hv)]

end Integers

/-! ### Values and members -/

section Values

variable {strict : Bool} {fuel : Nat} {rest : Bytes}

theorem skipWs_cons {b : UInt8} (hb : isWs b = false) (bs : Bytes) :
    skipWs (b :: bs) = b :: bs := List.dropWhile_cons_of_neg (by simp [hb])

theorem parseValue_string (bs : Bytes) :
    parseValue strict (fuel + 1) (0x22 :: bs) =
      (parseString strict bs).map fun r => (string r.1, r.2) := by
  rw [parseValue, skipWs_cons (by decide), expect_cons_self]

theorem parseValue_null :
    parseValue strict (fuel + 1) (asciiBytes ['n', 'u', 'l', 'l'] ++ rest) = some (null, rest) :=
  rfl

theorem parseValue_true :
    parseValue strict (fuel + 1) (asciiBytes ['t', 'r', 'u', 'e'] ++ rest) =
      some (bool true, rest) :=
  rfl

theorem parseValue_false :
    parseValue strict (fuel + 1) (asciiBytes ['f', 'a', 'l', 's', 'e'] ++ rest) =
      some (bool false, rest) :=
  rfl

theorem exists_intText_eq (v : ℤ) :
    ∃ b bs, intText v = b :: bs ∧ (b = 0x2d ∨ isDigit b = true) := by
  obtain ⟨b, bs, hbs⟩ := List.exists_cons_of_ne_nil (decimal_ne_nil v.natAbs)
  rw [intText]
  split_ifs
  · exact ⟨_, _, rfl, .inl rfl⟩
  · refine ⟨b, bs, hbs, .inr (@isDigit_of_mem_decimal v.natAbs b ?_)⟩
    rw [hbs]
    exact List.mem_cons_self

theorem parseValue_intText (v : ℤ) (hrest : EndsNumber rest) :
    parseValue strict (fuel + 1) (intText v ++ rest) = some (number v 0, rest) := by
  obtain ⟨b, bs, hbs, hb⟩ := exists_intText_eq v
  have hne {c : UInt8} (hc : c ≠ 0x2d) (hc' : isDigit c = false) : b ≠ c := by
    rintro rfl
    rcases hb with rfl | hb
    · exact hc rfl
    · rw [hb] at hc'
      cases hc'
  have hws : isWs b = false := by
    refine decide_eq_false ?_
    rintro (h | h | h | h)
    all_goals exact hne (by decide) (by decide) h
  have htext {c : Char} {cs : List Char} (h : b ≠ UInt8.ofNat c.toNat) :
      expectText (asciiBytes (c :: cs)) (b :: (bs ++ rest)) = none :=
    if_neg fun heq => h (List.cons.inj heq).1
  have hnumber := parseNumber_intText v hrest
  rw [hbs] at hnumber ⊢
  rw [List.cons_append] at hnumber ⊢
  rw [parseValue, skipWs_cons hws, expect_cons_of_ne (hne (by decide) (by decide)),
    expect_cons_of_ne (hne (by decide) (by decide)),
    expect_cons_of_ne (hne (by decide) (by decide))]
  dsimp only
  rw [htext (hne (by decide) (by decide)), htext (hne (by decide) (by decide)),
    htext (hne (by decide) (by decide))]
  exact hnumber

theorem parseValue_members (bs : Bytes) :
    parseValue strict (fuel + 1) (0x7b :: 0x22 :: bs) =
      (parseMembers strict fuel (0x22 :: bs)).map fun r => (object r.1, r.2) := by
  rw [parseValue, skipWs_cons (by decide), expect_cons_of_ne (by decide), expect_cons_self]
  dsimp only
  rw [skipWs_cons (by decide), expect_cons_of_ne (by decide)]

theorem plain_of_all {name : Bytes} (h : (name.all fun b => decide (Plain strict b)) = true)
    (b : UInt8) (hb : b ∈ name) : Plain strict b :=
  of_decide_eq_true (List.all_eq_true.mp h b hb)

theorem parseMembers_name {name : Bytes} (hname : ∀ b ∈ name, Plain strict b) (bs : Bytes) :
    parseMembers strict (fuel + 1) (0x22 :: (name ++ 0x22 :: 0x3a :: bs)) =
      (parseValue strict fuel bs).bind fun v =>
        match expect 0x7d (skipWs v.2) with
        | some bs => some ([(name, v.1)], bs)
        | none =>
          (expect 0x2c (skipWs v.2)).bind fun bs =>
            (parseMembers strict fuel bs).map fun r => ((name, v.1) :: r.1, r.2) := by
  rw [parseMembers, skipWs_cons (by decide), expect_cons_self, Option.bind_some,
    parseString_plain hname, Option.bind_some, skipWs_cons (by decide), expect_cons_self,
    Option.bind_some]

theorem parseMembers_string {name s : Bytes} (hname : ∀ b ∈ name, Plain strict b)
    (hs : ∀ b ∈ s, Plain strict b) :
    parseMembers strict (fuel + 2) (0x22 :: (name ++ 0x22 :: 0x3a :: 0x22 :: (s ++ 0x22 :: rest))) =
      match expect 0x7d (skipWs rest) with
      | some bs => some ([(name, string s)], bs)
      | none =>
        (expect 0x2c (skipWs rest)).bind fun bs =>
          (parseMembers strict (fuel + 1) bs).map fun r => ((name, string s) :: r.1, r.2) := by
  rw [parseMembers_name hname, parseValue_string, parseString_plain hs, Option.map_some,
    Option.bind_some]

theorem parseMembers_intText {name : Bytes} (hname : ∀ b ∈ name, Plain strict b) (v : ℤ)
    (hrest : EndsNumber rest) :
    parseMembers strict (fuel + 2) (0x22 :: (name ++ 0x22 :: 0x3a :: (intText v ++ rest))) =
      match expect 0x7d (skipWs rest) with
      | some bs => some ([(name, number v 0)], bs)
      | none =>
        (expect 0x2c (skipWs rest)).bind fun bs =>
          (parseMembers strict (fuel + 1) bs).map fun r => ((name, number v 0) :: r.1, r.2) := by
  rw [parseMembers_name hname, parseValue_intText v hrest, Option.bind_some]

theorem exists_of_parseMembers_name {name bs : Bytes} (hname : ∀ b ∈ name, Plain strict b)
    {r : List (Bytes × Json) × Bytes}
    (h : parseMembers strict (fuel + 1) (0x22 :: (name ++ 0x22 :: 0x3a :: bs)) = some r) :
    ∃ v more, parseValue strict fuel bs = some v ∧ r.1 = (name, v.1) :: more := by
  rw [parseMembers_name hname, Option.bind_eq_some_iff] at h
  obtain ⟨v, hv, h⟩ := h
  split at h
  · obtain rfl := Option.some.inj h
    exact ⟨v, [], hv, rfl⟩
  · obtain ⟨bs, -, h⟩ := Option.bind_eq_some_iff.1 h
    obtain ⟨r', -, rfl⟩ := Option.map_eq_some_iff.1 h
    exact ⟨v, r'.1, hv, rfl⟩

theorem parseChars_after (bs : Bytes) (fuel : Nat) (r : Bytes × Bytes)
    (h : parseChars strict fuel (0x2c :: 0x22 :: bs) = some r) : r.1 = [0x2c] := by
  match fuel, h with
  | 0, h => cases h
  | 1, h => cases strict <;> cases h
  | fuel + 2, h =>
    rw [parseChars, if_neg (by decide), if_neg (by decide)] at h
    split_ifs at h with hplain
    rw [parseChars, if_pos rfl] at h
    obtain rfl := Option.some.inj h
    rfl

theorem exists_of_parseMembers_ne {name s : Bytes} (hname : ∀ b ∈ name, Plain strict b)
    (hs : ¬∀ b ∈ s, Plain strict b)
    (hrest : ∀ fuel r, parseChars strict fuel rest = some r → r.1 = [0x2c])
    {r : List (Bytes × Json) × Bytes}
    (h : parseMembers strict fuel (0x22 :: (name ++ 0x22 :: 0x3a :: 0x22 :: (s ++ 0x22 :: rest))) =
      some r) :
    ∃ d more, r.1 = (name, string d) :: more ∧ cString d ≠ s := by
  match fuel, h with
  | 0, h => cases h
  | fuel + 1, h =>
    obtain ⟨v, more, hv, hr⟩ := exists_of_parseMembers_name hname h
    cases fuel with
    | zero => cases hv
    | succ fuel =>
      rw [parseValue_string] at hv
      obtain ⟨d, hd, rfl⟩ := Option.map_eq_some_iff.1 hv
      exact ⟨d.1, more, hr, cString_ne_of_parseString hrest hs hd⟩

theorem parseItems_last {bs : Bytes} {v : Json}
    (h : parseValue strict fuel bs = some (v, 0x5d :: rest)) :
    parseItems strict (fuel + 1) bs = some ([v], rest) := by
  rw [parseItems, h, Option.bind_some, skipWs_cons (by decide), expect_cons_self]

theorem parseItems_next {bs : Bytes} {v : Json}
    (h : parseValue strict fuel bs = some (v, 0x2c :: rest)) :
    parseItems strict (fuel + 1) bs =
      (parseItems strict fuel rest).map fun r => (v :: r.1, r.2) := by
  rw [parseItems, h, Option.bind_some, skipWs_cons (by decide), expect_cons_of_ne (by decide),
    expect_cons_self]
  rfl

theorem exists_of_parseItems {bs : Bytes} {r : List Json × Bytes}
    (h : parseItems strict (fuel + 1) bs = some r) :
    ∃ v more, parseValue strict fuel bs = some v ∧ r.1 = v.1 :: more := by
  rw [parseItems, Option.bind_eq_some_iff] at h
  obtain ⟨v, hv, h⟩ := h
  split at h
  · obtain rfl := Option.some.inj h
    exact ⟨v, [], hv, rfl⟩
  · obtain ⟨bs, -, h⟩ := Option.bind_eq_some_iff.1 h
    obtain ⟨r', -, rfl⟩ := Option.map_eq_some_iff.1 h
    exact ⟨v, r'.1, hv, rfl⟩

theorem parseValue_items {bs : Bytes} {b : UInt8} (hws : isWs b = false) (hb : b ≠ 0x5d) :
    parseValue strict (fuel + 1) (0x5b :: b :: bs) =
      (parseItems strict fuel (b :: bs)).map fun r => (array r.1, r.2) := by
  rw [parseValue, skipWs_cons (by decide), expect_cons_of_ne (by decide),
    expect_cons_of_ne (by decide), expect_cons_self]
  dsimp only
  rw [skipWs_cons hws, expect_cons_of_ne hb]

theorem parseValue_array_nil :
    parseValue strict (fuel + 1) (0x5b :: 0x5d :: rest) = some (array [], rest) := by
  rw [parseValue, skipWs_cons (by decide), expect_cons_of_ne (by decide),
    expect_cons_of_ne (by decide), expect_cons_self]
  dsimp only
  rw [skipWs_cons (by decide), expect_cons_self]

end Values

end Json

end TuyaOpen
