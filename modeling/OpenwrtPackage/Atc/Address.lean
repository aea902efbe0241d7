/-
**The address that the AT back-end stores.**

`atc.c` asks an ASR modem with `AT+CGPADDR` and the others with `AT+QNETDEVSTATUS` for the IPv4
address, and packs its four parts into a number, the first part lowest.  `udhcpc.c` takes the number
out of the profile as the QMI back-end stores it: the first part highest.

* `Atc.qmi2addr`, `Atc.ipv4Str`, `Atc.qlNetcardIpv4AddressCheck` — what is done with the number;
* `Atc.requestGetIPAddress` — `requestGetIPAddress` of `atc.c`;
* `Atc.Reports` — the lines with which a modem reports an address;
* `Atc.requestGetIPAddress_expected_iff` — **the number is the expected one exactly when the address
  reads the same in either direction, or comes as hexadecimal digits in order**;
* `Atc.requestGetIPAddress_turned` — 10.201.80.91.
-/
import OpenwrtPackage.Atc.AtTok
import OpenwrtPackage.Lib.ByteOrder
import OpenwrtPackage.QuectelCM.Profile

set_option relaxedAutoImplicit false
set_option autoImplicit false

namespace Atc

open CScan Bytes QuectelCM

/-! ### Addresses -/

/-- The parts of an address in the order in which it is written. -/
structure Octets where
  a : UInt8
  b : UInt8
  c : UInt8
  d : UInt8
  deriving DecidableEq

/-- `a.b.c.d` -/
def dotted (o : Octets) : List Char :=
  dec o.a.toNat ++ '.' :: (dec o.b.toNat ++ '.' :: (dec o.c.toNat ++ '.' :: dec o.d.toNat))

/-- The `in_addr_t` in network order: the first part stands first in memory. -/
def inAddr (o : Octets) : UInt32 := le32At [o.a, o.b, o.c, o.d] 0

/-! ### What the number is used for -/

/-- `qmi2addr` -/
def qmi2addr (x : UInt32) : UInt32 :=
  x >>> 24 ||| x >>> 8 &&& (0xff00 : UInt32) ||| x <<< 8 &&& (0xff0000 : UInt32) ||| x <<< 24

/-- `ipv4Str`: the bytes of the number in memory, the last one first, printed into 16 bytes. -/
def ipv4Str (address : UInt32) : List Char :=
  let ip := le32 address
  (dotted ⟨byteAt ip 3, byteAt ip 2, byteAt ip 1, byteAt ip 0⟩).take 15

/-- `ql_netcard_ipv4_address_check`, where the interface has the address `addr`. -/
def qlNetcardIpv4AddressCheck (addr ip : UInt32) : Bool := addr = ip

/-- The number stands for the address: it is printed as the address, and the check of an interface
succeeds exactly when that has the address. -/
structure Expected (o : Octets) (address : UInt32) : Prop where
  printed : ipv4Str address = dotted o
  turned : qmi2addr address = inAddr o
  check : ∀ addr, qlNetcardIpv4AddressCheck addr (qmi2addr address) = true ↔ addr = inAddr o

/-! ### `atc.c` -/

/-- `ATResponse` -/
structure AtResponse where
  success : ℤ
  finalResponse : Option (List Char)
  pIntermediates : List (List Char)

/-- What `at_send_command_singleline` returns, and `p_response`. -/
structure AtAnswer where
  err : ℤ
  pResponse : Option AtResponse

/-- The lines of a response that passes `at_response_error`. -/
def AtAnswer.lines (a : AtAnswer) : Option (List (List Char)) :=
  match a.pResponse with
  | some r => if a.err ≠ 0 ∨ r.finalResponse = none ∨ r.success = 0 then none
      else some r.pIntermediates
  | none => none

/-- A number stored into one of the parts by `sscanf`. -/
def scanfInt (n : ℤ) : ℤ := toInt (clampLong n)

/-- The numbers that `sscanf(s, "%d.%d.…", …)` stores, at most `n` of them. -/
def sscanfDotted : ℕ → List Char → List ℤ
  | 0, _ => []
  | n + 1, s =>
      match scanInt 10 s with
      | none => []
      | some (v, '.' :: rest) => scanfInt v :: sscanfDotted n rest
      | some (v, _) => [scanfInt v]

/-- `%02X`: blanks are skipped, and then at most two characters are read. -/
def scanHexByte (s : List Char) : Option (ℤ × List Char) :=
  let s := s.dropWhile isspace
  let field := s.take 2
  if field = ['0', 'x'] ∨ field = ['0', 'X'] then none
  else (scanInt 16 field).map fun r => (scanfInt r.1, r.2 ++ s.drop 2)

/-- The numbers that `sscanf(s, "%02X%02X…", …)` stores, at most `n` of them. -/
def sscanfHex : ℕ → List Char → List ℤ
  | 0, _ => []
  | n + 1, s =>
      match scanHexByte s with
      | none => []
      | some (v, rest) => v :: sscanfHex n rest

/-- `(addr[0]) | (addr[1]<<8) | (addr[2]<<16) | (addr[3]<<24)` -/
def packAddr (addr0 addr1 addr2 addr3 : ℤ) : UInt32 :=
  UInt32.ofInt addr0 ||| UInt32.ofInt addr1 <<< 8 ||| UInt32.ofInt addr2 <<< 16 |||
    UInt32.ofInt addr3 <<< 24

/-- `sscanf` of `"%d.%d.%d.%d"` into `addr`, which is zero before. -/
def parseDotted (s : List Char) : UInt32 :=
  let addr := sscanfDotted 4 s
  packAddr (addr.getD 0 0) (addr.getD 1 0) (addr.getD 2 0) (addr.getD 3 0)

/-- `sscanf` of `"%02X%02X%02X%02X"` into `addr[3]`, `addr[2]`, `addr[1]` and `addr[0]`. -/
def parseHex (s : List Char) : UInt32 :=
  let addr := sscanfHex 4 s
  packAddr (addr.getD 3 0) (addr.getD 2 0) (addr.getD 1 0) (addr.getD 0 0)

/-- `at_netdevstatus`: `*pV4Addr`; the result is 0. -/
def atNetdevstatus (a : AtAnswer) : UInt32 :=
  match a.lines with
  | some (line :: _) =>
      let r := atTokScanf line (List.replicate 10 .s)
      match strOut r 0 with
      | some (x :: ipv4Address) =>
          if 0 < r.1 then
            if '.' ∈ x :: ipv4Address then parseDotted (x :: ipv4Address)
            else parseHex (x :: ipv4Address)
          else 0
      | _ => 0
  | _ => 0

/-- The loop of `requestGetIPAddress` over the lines of `+CGPADDR`: the address in the first line
about this context.  The variable `pdp` is left as it is by a line without a number. -/
def cgpaddrLoop (profilePdp : ℤ) : ℤ → List (List Char) → UInt32
  | _, [] => 0
  | pdp, line :: lines =>
      let r := atTokScanf line [.d, .s, .s]
      let pdp := intOut r 0 pdp
      if r.1 < 2 ∨ pdp ≠ profilePdp then cgpaddrLoop profilePdp pdp lines
      else
        match strOut r 1 with
        | some ipv4 => parseDotted ipv4
        | none => cgpaddrLoop profilePdp pdp lines

/-- `requestGetIPAddress`: the result and the profile. -/
def requestGetIPAddress (asrStyleAtc : Bool) (a : AtAnswer) (p : Profile) : ℤ × Profile :=
  let v4Addr :=
    if asrStyleAtc then (a.lines.map (cgpaddrLoop p.pdp p.pdp)).getD 0 else atNetdevstatus a
  if v4Addr = 0 then (-1, p)
  else (0, { p with ipv4 := { p.ipv4 with address := v4Addr } })

/-! ### Reports -/

/-- How the address is written: with dots, or as hexadecimal digits that begin with the first or
with the last part. -/
inductive AddressForm where
  | dotted
  | hexFirst
  | hexLast
  deriving DecidableEq

/-- Two hexadecimal digits, of either case. -/
def HexByte (b : UInt8) (t : List Char) : Prop :=
  ∃ x y, t = [x, y] ∧ digitVal x = some (b.toNat / 16) ∧ digitVal y = some (b.toNat % 16)

/-- The eight digits of four bytes. -/
def HexText (w x y z : UInt8) (t : List Char) : Prop :=
  ∃ s1 s2 s3 s4, HexByte w s1 ∧ HexByte x s2 ∧ HexByte y s3 ∧ HexByte z s4 ∧
    t = s1 ++ (s2 ++ (s3 ++ s4))

def AddressText (o : Octets) : AddressForm → List Char → Prop
  | .dotted, t => t = dotted o
  | .hexFirst, t => HexText o.a o.b o.c o.d t
  | .hexLast, t => HexText o.d o.c o.b o.a t

/-- A field, with or without quotes. -/
def Field (t field : List Char) : Prop := field = t ∨ field = '"' :: (t ++ ['"'])

/-- A line in which a modem reports the address for the context `pdp`; more fields may follow. -/
inductive Reports (pdp : ℕ) (o : Octets) : Bool → AddressForm → List Char → Prop where
  | cgpaddr {blanks field rest : List Char} (hblanks : blanks = [] ∨ blanks = [' '])
      (hfield : Field (dotted o) field) (hrest : Ends rest) :
      Reports pdp o true .dotted
        ("+CGPADDR:".toList ++ (blanks ++ (dec pdp ++ ',' :: (field ++ rest))))
  | qnetdevstatus {form : AddressForm} {blanks t field rest : List Char}
      (hblanks : blanks = [] ∨ blanks = [' ']) (ht : AddressText o form t)
      (hfield : Field t field) (hrest : Ends rest) :
      Reports pdp o false form ("+QNETDEVSTATUS:".toList ++ (blanks ++ (field ++ rest)))

/-! ### The number and the address -/

theorem inAddr_toNat (o : Octets) : (inAddr o).toNat =
    o.a.toNat + o.b.toNat * 2 ^ 8 + o.c.toNat * 2 ^ 16 + o.d.toNat * 2 ^ 24 := by
  have hn := @toNat_le32At_bytes _ _ _ _ o.a.toNat_lt o.b.toNat_lt o.c.toNat_lt o.d.toNat_lt []
  simp only [UInt8.ofNat_toNat] at hn
  exact hn

theorem le32_inAddr (o : Octets) : le32 (inAddr o) = [o.a, o.b, o.c, o.d] := by
  rw [le32_eq o.a.toNat_lt o.b.toNat_lt o.c.toNat_lt (inAddr_toNat o)]
  simp only [UInt8.ofNat_toNat]

theorem length_dec_le (b : UInt8) : (dec b.toNat).length ≤ 3 :=
  (Nat.length_toDigits_le_iff (by decide) (by decide)).2
    (Nat.lt_of_lt_of_le b.toNat_lt (by decide))

theorem length_dotted_le (o : Octets) : (dotted o).length ≤ 15 := by
  have ha := length_dec_le o.a
  have hb := length_dec_le o.b
  have hc := length_dec_le o.c
  have hd := length_dec_le o.d
  simp only [dotted, List.length_append, List.length_cons]
  omega

/-- The expected number is the one with the first part highest. -/
theorem expected_iff (o : Octets) (address : UInt32) :
    Expected o address ↔ address = bswap32 (inAddr o) := by
  constructor
  · intro h
    have hturned : bswap32 address = inAddr o := h.turned
    rw [← hturned, bswap32_bswap32]
  · rintro rfl
    have hturned : qmi2addr (bswap32 (inAddr o)) = inAddr o := bswap32_bswap32 _
    refine ⟨?_, hturned, fun addr => ?_⟩
    · have hbytes : le32 (bswap32 (inAddr o)) = [o.d, o.c, o.b, o.a] := by
        rw [le32_bswap32, be32, le32_inAddr]
        rfl
      rw [ipv4Str, hbytes]
      exact List.take_of_length_le (length_dotted_le o)
    · rw [hturned]
      exact decide_eq_true_iff

/-- An address that reads the same in either direction. -/
theorem inAddr_eq_bswap32_iff (o : Octets) :
    inAddr o = bswap32 (inAddr o) ↔ o.a = o.d ∧ o.b = o.c := by
  rw [eq_comm, bswap32_eq_self_iff, be32, le32_inAddr]
  constructor
  · intro h
    simp only [List.reverse_cons, List.reverse_nil, List.nil_append, List.cons_append,
      List.cons.injEq, and_true] at h
    exact ⟨h.1.symm, h.2.1.symm⟩
  · rintro ⟨had, hbc⟩
    simp [had, hbc]

theorem inAddr_eq_zero_iff (o : Octets) : inAddr o = 0 ↔ o = ⟨0, 0, 0, 0⟩ := by
  constructor
  · intro h
    have hbytes := le32_inAddr o
    rw [h] at hbytes
    obtain ⟨a, b, c, d⟩ := o
    have hzero : ([0, 0, 0, 0] : List UInt8) = [a, b, c, d] := hbytes
    simp only [List.cons.injEq, and_true] at hzero
    obtain ⟨rfl, rfl, rfl, rfl⟩ := hzero
    rfl
  · rintro rfl
    rfl

theorem toNat_ofInt {n : ℕ} (h : n < 2 ^ 32) : (UInt32.ofInt n).toNat = n := by
  have hmod : ((n : ℤ) % 2 ^ 32).toNat = n := by omega
  rw [UInt32.ofInt, hmod]
  exact UInt32.toNat_ofNat_of_lt h

theorem packAddr_toNat (o : Octets) :
    packAddr o.a.toNat o.b.toNat o.c.toNat o.d.toNat = inAddr o := by
  have ha := o.a.toNat_lt
  have hb := o.b.toNat_lt
  have hc := o.c.toNat_lt
  have hd := o.d.toNat_lt
  refine UInt32.toNat_inj.1 ?_
  rw [inAddr_toNat]
  simp only [packAddr, UInt32.toNat_or, UInt32.toNat_shiftLeft, UInt32.reduceToNat, Nat.reduceMod,
    Nat.shiftLeft_eq]
  rw [toNat_ofInt (by omega), toNat_ofInt (by omega), toNat_ofInt (by omega),
    toNat_ofInt (by omega), Nat.mod_eq_of_lt (by omega), Nat.mod_eq_of_lt (by omega),
    Nat.mod_eq_of_lt (by omega), @or_mul_two_pow _ 8 (by omega), @or_mul_two_pow _ 16 (by omega),
    @or_mul_two_pow _ 24 (by omega)]

/-! ### Reading the parts -/

theorem scanfInt_of_lt {n : ℕ} (h : n < 2 ^ 31) : scanfInt n = n :=
  toInt_clampLong (by omega) (by omega)

/-- A part with a dot behind it. -/
theorem sscanfDotted_dot (n : ℕ) (b : UInt8) (rest : List Char) :
    sscanfDotted (n + 1) (dec b.toNat ++ '.' :: rest) = (b.toNat : ℤ) :: sscanfDotted n rest := by
  have hb := b.toNat_lt
  have hscan := @scanInt_dec b.toNat ('.' :: rest) (by rintro c ⟨rfl⟩; decide)
  conv => lhs; unfold sscanfDotted
  rw [hscan]
  show scanfInt (b.toNat : ℤ) :: sscanfDotted n rest = _
  rw [scanfInt_of_lt (by omega)]

/-- The last part. -/
theorem sscanfDotted_last (n : ℕ) (b : UInt8) :
    sscanfDotted (n + 1) (dec b.toNat) = [(b.toNat : ℤ)] := by
  have hb := b.toNat_lt
  have hscan := @scanInt_dec b.toNat [] (by rintro c ⟨⟩)
  rw [List.append_nil] at hscan
  unfold sscanfDotted
  rw [hscan]
  show [scanfInt (b.toNat : ℤ)] = _
  rw [scanfInt_of_lt (by omega)]

theorem parseDotted_dotted (o : Octets) : parseDotted (dotted o) = inAddr o := by
  rw [parseDotted, dotted, sscanfDotted_dot, sscanfDotted_dot, sscanfDotted_dot, sscanfDotted_last]
  exact packAddr_toNat o

theorem isDigit_of_digitVal {c : Char} {v : ℕ} (h : digitVal c = some v) (hv : v < 16) :
    isDigit 16 c = true := by
  rw [isDigit, h]
  simpa using hv

theorem scanHexByte_append {b : UInt8} {t : List Char} (h : HexByte b t) (rest : List Char) :
    scanHexByte (t ++ rest) = some ((b.toNat : ℤ), rest) := by
  obtain ⟨x, y, rfl, hx, hy⟩ := h
  have hb := b.toNat_lt
  have hxd := isDigit_of_digitVal hx (by omega)
  have hyd := isDigit_of_digitVal hy (by omega)
  have hspace : ([x, y] ++ rest).dropWhile isspace = [x, y] ++ rest :=
    List.dropWhile_cons_of_neg (by rw [isspace_eq_false (le_toNat_of_isDigit hxd)]; decide)
  have hfield : ([x, y] ++ rest).take 2 = [x, y] ∧ ([x, y] ++ rest).drop 2 = rest := ⟨rfl, rfl⟩
  -- `0x` would be read as a prefix and not as a digit, but `x` is no hexadecimal digit.
  have hbits : ¬ ([x, y] = ['0', 'x'] ∨ [x, y] = ['0', 'X']) := by
    rintro (heq | heq)
    · obtain ⟨rfl, rfl⟩ : x = '0' ∧ y = 'x' := by simpa using heq
      exact absurd hyd (by decide)
    · obtain ⟨rfl, rfl⟩ : x = '0' ∧ y = 'X' := by simpa using heq
      exact absurd hyd (by decide)
  have hscan : scanInt 16 [x, y] = some ((b.toNat : ℤ), []) := by
    have hblank : [x, y].dropWhile isspace = [x, y] :=
      List.dropWhile_cons_of_neg (by rw [isspace_eq_false (le_toNat_of_isDigit hxd)]; decide)
    have hskip : skipPrefix 16 [x, y] = [x, y] := by
      unfold skipPrefix
      split
      · next heq => simp at heq
      · rfl
    have hdigits : ∀ c ∈ [x, y], isDigit 16 c = true := by
      intro c hc
      rcases List.mem_cons.1 hc with rfl | hc
      · exact hxd
      · exact List.mem_singleton.1 hc ▸ hyd
    have hvalue : value 16 [x, y] = b.toNat := by
      simp only [value, List.foldl_cons, List.foldl_nil, hx, hy, Option.getD_some]
      omega
    obtain ⟨htake, hdrop⟩ := @takeWhile_digits 16 [x, y] [] hdigits (by rintro c ⟨⟩)
    rw [List.append_nil] at htake hdrop
    rw [scanInt, hblank, scanSign_of_le (le_toNat_of_isDigit hxd)]
    dsimp only
    rw [hskip, scanDigits, htake, hdrop, if_neg (List.cons_ne_nil _ _), hvalue]
    rfl
  unfold scanHexByte
  simp only [hspace, hfield.1, hfield.2]
  rw [if_neg hbits, hscan, Option.map_some, scanfInt_of_lt (by omega)]
  rfl

theorem sscanfHex_append {b : UInt8} {t : List Char} (h : HexByte b t) (n : ℕ) (rest : List Char) :
    sscanfHex (n + 1) (t ++ rest) = (b.toNat : ℤ) :: sscanfHex n rest := by
  rw [sscanfHex, scanHexByte_append h]

theorem parseHex_hexText {w x y z : UInt8} {t : List Char} (h : HexText w x y z t) :
    parseHex t = inAddr ⟨z, y, x, w⟩ := by
  obtain ⟨s1, s2, s3, s4, h1, h2, h3, h4, rfl⟩ := h
  have hlast : sscanfHex 1 s4 = [(z.toNat : ℤ)] := by
    have happend := sscanfHex_append h4 0 []
    rw [List.append_nil] at happend
    exact happend
  rw [parseHex, sscanfHex_append h1, sscanfHex_append h2, sscanfHex_append h3, hlast]
  exact packAddr_toNat ⟨z, y, x, w⟩

/-! ### Reading the line -/

/-- What an address is written with. -/
def TextChar (c : Char) : Prop := c = '.' ∨ isDigit 16 c = true

theorem TextChar.plain {c : Char} (h : TextChar c) :
    isspace c = false ∧ c ≠ '"' ∧ c ≠ ',' ∧ c ≠ '-' := by
  rcases h with rfl | h
  · decide
  · have hle := le_toNat_of_isDigit h
    refine ⟨isspace_eq_false hle, ?_, ?_, ?_⟩ <;> rintro rfl <;> exact absurd hle (by decide)

theorem isDigit_mono {c : Char} (h : isDigit 10 c = true) : isDigit 16 c = true := by
  unfold isDigit at h ⊢
  cases hv : digitVal c with
  | none => rw [hv] at h; cases h
  | some v =>
      rw [hv, Option.any_some, decide_eq_true_iff] at h
      rw [Option.any_some, decide_eq_true_iff]
      omega

theorem textChar_of_mem_dec {n : ℕ} {c : Char} (h : c ∈ dec n) : TextChar c :=
  .inr (isDigit_mono (isDigit_of_mem_toDigits (by decide) (by decide) n c h))

theorem textChar_of_mem_dotted {o : Octets} {c : Char} (h : c ∈ dotted o) : TextChar c := by
  simp only [dotted, List.mem_append, List.mem_cons] at h
  rcases h with h | rfl | h | rfl | h | rfl | h
  · exact textChar_of_mem_dec h
  · exact .inl rfl
  · exact textChar_of_mem_dec h
  · exact .inl rfl
  · exact textChar_of_mem_dec h
  · exact .inl rfl
  · exact textChar_of_mem_dec h

theorem isDigit_of_mem_hexByte {b : UInt8} {t : List Char} (h : HexByte b t) {c : Char}
    (hc : c ∈ t) : isDigit 16 c = true := by
  obtain ⟨x, y, rfl, hx, hy⟩ := h
  have hb := b.toNat_lt
  rcases List.mem_cons.1 hc with rfl | hc
  · exact isDigit_of_digitVal hx (by omega)
  · exact List.mem_singleton.1 hc ▸ isDigit_of_digitVal hy (by omega)

theorem isDigit_of_mem_hexText {w x y z : UInt8} {t : List Char} (h : HexText w x y z t) {c : Char}
    (hc : c ∈ t) : isDigit 16 c = true := by
  obtain ⟨s1, s2, s3, s4, h1, h2, h3, h4, rfl⟩ := h
  simp only [List.mem_append] at hc
  rcases hc with hc | hc | hc | hc
  · exact isDigit_of_mem_hexByte h1 hc
  · exact isDigit_of_mem_hexByte h2 hc
  · exact isDigit_of_mem_hexByte h3 hc
  · exact isDigit_of_mem_hexByte h4 hc

theorem length_hexText {w x y z : UInt8} {t : List Char} (h : HexText w x y z t) :
    t.length = 8 := by
  obtain ⟨s1, s2, s3, s4, ⟨_, _, rfl, -⟩, ⟨_, _, rfl, -⟩, ⟨_, _, rfl, -⟩, ⟨_, _, rfl, -⟩, rfl⟩ := h
  rfl

/-- The text of an address: its characters, its size, and the number that is stored for it. -/
theorem AddressText.spec {o : Octets} {form : AddressForm} {t : List Char}
    (h : AddressText o form t) : (∀ c ∈ t, TextChar c) ∧ t ≠ [] ∧ t.length ≤ 15 ∧
      (if '.' ∈ t then parseDotted t else parseHex t) =
        if form = .hexFirst then bswap32 (inAddr o) else inAddr o := by
  have hhex : ∀ {w x y z : UInt8}, HexText w x y z t → (∀ c ∈ t, TextChar c) ∧ t ≠ [] ∧
      t.length ≤ 15 ∧ (if '.' ∈ t then parseDotted t else parseHex t) = inAddr ⟨z, y, x, w⟩ := by
    intro w x y z ht
    have hdot : '.' ∉ t := fun hmem => absurd (isDigit_of_mem_hexText ht hmem) (by decide)
    have hlen := length_hexText ht
    refine ⟨fun c hc => .inr (isDigit_of_mem_hexText ht hc), ?_, by omega, ?_⟩
    · rintro rfl
      cases hlen
    · rw [if_neg hdot, parseHex_hexText ht]
  cases form with
  | dotted =>
      subst h
      have hdot : '.' ∈ dotted o := by simp [dotted]
      refine ⟨fun c hc => textChar_of_mem_dotted hc, List.ne_nil_of_mem hdot,
        length_dotted_le o, ?_⟩
      rw [if_pos hdot, if_neg (by decide), parseDotted_dotted]
  | hexFirst =>
      have hturned : inAddr ⟨o.d, o.c, o.b, o.a⟩ = bswap32 (inAddr o) := by
        refine UInt32.toNat_inj.1 ?_
        rw [toNat_bswap32 o.a.toNat_lt o.b.toNat_lt o.c.toNat_lt o.d.toNat_lt (inAddr_toNat o)]
        exact inAddr_toNat _
      rw [if_pos rfl, ← hturned]
      exact hhex h
  | hexLast => exact hhex h

/-- A field with the text of an address. -/
theorem next_field {blanks t field rest : List Char} (hblanks : blanks = [] ∨ blanks = [' '])
    (ht : ∀ c ∈ t, TextChar c) (hne : t ≠ []) (hfield : Field t field) (hrest : Ends rest) :
    ∃ line, AtConv.s.next (some (blanks ++ (field ++ rest))) = ⟨true, some (.str t), line⟩ := by
  have hspace : ∀ c ∈ blanks, isspace c = true := by
    rcases hblanks with rfl | rfl
    · intro c hc
      cases hc
    · intro c hc
      rw [List.mem_singleton.1 hc]
      rfl
  rcases hfield with rfl | rfl
  · have htok := nextTok_plain hspace hne
      (fun c hc => ⟨(ht c hc).plain.1, (ht c hc).plain.2.1, (ht c hc).plain.2.2.1⟩) hrest
    refine ⟨if rest = [] then none else some rest.tail, ?_⟩
    show atTokNextstr _ = _
    rw [atTokNextstr, htok]
  · have hquote : '"' ∉ t := fun hc => (ht _ hc).plain.2.1 rfl
    have htok := nextTok_quoted hspace hquote hrest
    refine ⟨some rest.tail, ?_⟩
    show atTokNextstr _ = _
    rw [atTokNextstr, List.cons_append, List.append_assoc, List.singleton_append, htok]

/-- A field with a decimal number, with more fields behind it. -/
theorem next_dec {blanks rest : List Char} (hblanks : blanks = [] ∨ blanks = [' ']) {n : ℕ}
    (hn : n < 2 ^ 31) : AtConv.d.next (some (blanks ++ (dec n ++ ',' :: rest))) =
      ⟨true, some (.int n), some rest⟩ := by
  have hspace : ∀ c ∈ blanks, isspace c = true := by
    rcases hblanks with rfl | rfl
    · intro c hc
      cases hc
    · intro c hc
      rw [List.mem_singleton.1 hc]
      rfl
  have hplain : ∀ c ∈ dec n, isspace c = false ∧ c ≠ '"' ∧ c ≠ ',' := fun c hc =>
    ⟨(textChar_of_mem_dec hc).plain.1, (textChar_of_mem_dec hc).plain.2.1,
      (textChar_of_mem_dec hc).plain.2.2.1⟩
  have htok := @nextTok_plain blanks (dec n) (',' :: rest) hspace Nat.toDigits_ne_nil hplain
    (by rintro c ⟨rfl⟩; rfl)
  have hscan := @scanInt_dec n [] (by rintro c ⟨⟩)
  rw [List.append_nil] at hscan
  have hstrtol : strtol 10 (dec n) = (clampLong n, true) := by rw [strtol, hscan]
  show atTokNextintBase 10 false _ = _
  unfold atTokNextintBase
  rw [htok]
  simp only [Bool.false_eq_true, if_false, hstrtol, reduceCtorEq, List.tail_cons]
  rw [toInt_clampLong (by omega) (by omega)]

/-- The first character is no dash. -/
theorem head_field {blanks t field rest : List Char} (hblanks : blanks = [] ∨ blanks = [' '])
    (ht : ∀ c ∈ t, TextChar c) (hne : t ≠ []) (hfield : Field t field) :
    blanks ++ (field ++ rest) ≠ [] ∧ ∀ rest', blanks ++ (field ++ rest) ≠ '-' :: ',' :: rest' := by
  have hhead : blanks ++ (field ++ rest) ≠ [] ∧
      (blanks ++ (field ++ rest)).head? ≠ some '-' := by
    rcases hblanks with rfl | rfl
    · rcases hfield with rfl | rfl
      · obtain ⟨x, xs, rfl⟩ := List.exists_cons_of_ne_nil hne
        refine ⟨List.cons_ne_nil _ _, fun heq => ?_⟩
        exact (ht x (List.mem_cons_self ..)).plain.2.2.2 (Option.some.inj heq)
      · exact ⟨List.cons_ne_nil _ _, by simp⟩
    · exact ⟨List.cons_ne_nil _ _, by simp⟩
  refine ⟨hhead.1, fun rest' heq => hhead.2 ?_⟩
  rw [heq]
  rfl

/-- The number that the back-end takes out of a line. -/
def storedAddr (form : AddressForm) (o : Octets) : UInt32 :=
  if form = .hexFirst then bswap32 (inAddr o) else inAddr o

theorem length_field_le {t field : List Char} (hfield : Field t field) :
    field.length ≤ t.length + 2 := by
  rcases hfield with rfl | rfl <;> simp

theorem length_blanks_le {blanks : List Char} (hblanks : blanks = [] ∨ blanks = [' ']) :
    blanks.length ≤ 1 := by
  rcases hblanks with rfl | rfl <;> simp

section

variable {pdp : ℕ} {o : Octets} {line : List Char} {a : AtAnswer}

theorem atNetdevstatus_eq {form : AddressForm} (h : Reports pdp o false form line)
    (ha : a.lines = some [line]) : atNetdevstatus a = storedAddr form o := by
  cases h with
  | @qnetdevstatus form blanks t field rest hblanks ht hfield hrest =>
      obtain ⟨htext, hne, hlen, hstored⟩ := ht.spec
      have hblen := length_blanks_le hblanks
      have hflen := length_field_le hfield
      obtain ⟨rest', hrest', hscan⟩ := @atTokScanf_append "+QNETDEVSTATUS".toList (blanks ++ field)
        rest (by decide) (by simp [sLineSize]; omega) hrest (List.replicate 10 .s)
      rw [List.append_assoc, List.append_assoc] at hscan
      obtain ⟨next, hnext⟩ := next_field hblanks htext hne hfield hrest'
      obtain ⟨hline, hhead⟩ := @head_field blanks t field rest' hblanks htext hne hfield
      have hloop := atTokScanfLoop_of_ok (List.replicate 9 .s) hline hhead hnext
      have hr : atTokScanf ("+QNETDEVSTATUS:".toList ++ (blanks ++ (field ++ rest)))
          (List.replicate 10 .s) = ((atTokScanfLoop (List.replicate 9 .s) next).1 + 1,
            some (.str t) :: (atTokScanfLoop (List.replicate 9 .s) next).2) := by
        have hcolon : "+QNETDEVSTATUS:".toList = "+QNETDEVSTATUS".toList ++ [':'] := by
          simp only [String.reduceToList, List.cons_append, List.nil_append]
        rw [hcolon, List.append_assoc]
        exact hscan.trans hloop
      obtain ⟨x, xs, rfl⟩ := List.exists_cons_of_ne_nil hne
      unfold atNetdevstatus
      rw [ha]
      dsimp only
      rw [hr]
      exact hstored

theorem cgpaddrLoop_eq {form : AddressForm} (h : Reports pdp o true form line)
    (hpdp : pdp < 2 ^ 31) (old : ℤ) : cgpaddrLoop pdp old [line] = storedAddr form o := by
  cases h with
  | @cgpaddr blanks field rest hblanks hfield hrest =>
      have htext : ∀ c ∈ dotted o, TextChar c := fun c hc => textChar_of_mem_dotted hc
      have hne : dotted o ≠ [] := List.ne_nil_of_mem (a := '.') (by simp [dotted])
      have hdec : ∀ c ∈ dec pdp, TextChar c := fun c hc => textChar_of_mem_dec hc
      have hblen := length_blanks_le hblanks
      have hflen := length_field_le hfield
      have hlen := length_dotted_le o
      have hdlen : (dec pdp).length ≤ 10 :=
        (Nat.length_toDigits_le_iff (by decide) (by decide)).2
          (Nat.lt_of_lt_of_le hpdp (by decide))
      -- The format is read item by item: the context id, the address, and whatever is behind it.
      obtain ⟨rest', hrest', hscan⟩ := @atTokScanf_append "+CGPADDR".toList
        (blanks ++ (dec pdp ++ ',' :: field)) rest (by decide) (by simp [sLineSize]; omega) hrest
        [.d, .s, .s]
      simp only [List.append_assoc, List.cons_append] at hscan
      have hdhead := @head_field blanks (dec pdp) (dec pdp) (',' :: (field ++ rest')) hblanks hdec
        Nat.toDigits_ne_nil (.inl rfl)
      have hdloop := atTokScanfLoop_of_ok [.s, .s] hdhead.1 hdhead.2
        (@next_dec blanks (field ++ rest') hblanks pdp hpdp)
      obtain ⟨next, hnext⟩ := @next_field [] (dotted o) field rest' (.inl rfl) htext hne hfield
        hrest'
      have hshead := @head_field [] (dotted o) field rest' (.inl rfl) htext hne hfield
      have hsloop := atTokScanfLoop_of_ok [.s] hshead.1 hshead.2 hnext
      rw [List.nil_append] at hsloop
      rw [hsloop] at hdloop
      have hr : atTokScanf ("+CGPADDR:".toList ++ (blanks ++ (dec pdp ++ ',' :: (field ++ rest))))
          [.d, .s, .s] = ((atTokScanfLoop [.s] next).1 + 1 + 1,
            some (.int pdp) :: some (.str (dotted o)) :: (atTokScanfLoop [.s] next).2) := by
        have hcolon : "+CGPADDR:".toList = "+CGPADDR".toList ++ [':'] := by
          simp only [String.reduceToList, List.cons_append, List.nil_append]
        rw [hcolon, List.append_assoc]
        exact hscan.trans hdloop
      unfold cgpaddrLoop
      rw [hr]
      have hfound : ¬ ((atTokScanfLoop [.s] next).1 + 1 + 1 < 2 ∨ (pdp : ℤ) ≠ pdp) := by omega
      exact (if_neg hfound).trans (parseDotted_dotted o)

/-- **The number in the profile is the expected one exactly when the address reads the same in
either direction, or comes as hexadecimal digits that begin with its first part**; and for 0.0.0.0,
which is not stored, when there was no address before. -/
theorem requestGetIPAddress_expected_iff {asrStyleAtc : Bool} {form : AddressForm}
    (h : Reports pdp o asrStyleAtc form line) (ha : a.lines = some [line]) {p : Profile}
    (hpdp : p.pdp = pdp) (hint : pdp < 2 ^ 31) :
    Expected o (requestGetIPAddress asrStyleAtc a p).2.ipv4.address ↔
      (form = .hexFirst ∨ o.a = o.d ∧ o.b = o.c) ∧
        (o = ⟨0, 0, 0, 0⟩ → p.ipv4.address = 0) := by
  have hv4Addr : (if asrStyleAtc then (a.lines.map (cgpaddrLoop p.pdp p.pdp)).getD 0
      else atNetdevstatus a) = storedAddr form o := by
    cases asrStyleAtc with
    | false => exact atNetdevstatus_eq h ha
    | true =>
        rw [if_pos rfl, ha, Option.map_some, Option.getD_some, hpdp]
        exact cgpaddrLoop_eq h hint pdp
  have hzero : storedAddr form o = 0 ↔ o = ⟨0, 0, 0, 0⟩ := by
    unfold storedAddr
    split
    · rw [← inAddr_eq_zero_iff]
      exact ⟨fun hz => bswap32_inj.1 hz, congrArg bswap32⟩
    · exact inAddr_eq_zero_iff o
  have haddress : (requestGetIPAddress asrStyleAtc a p).2.ipv4.address =
      if o = ⟨0, 0, 0, 0⟩ then p.ipv4.address else storedAddr form o := by
    unfold requestGetIPAddress
    dsimp only
    rw [hv4Addr]
    by_cases ho : o = ⟨0, 0, 0, 0⟩
    · rw [if_pos (hzero.2 ho), if_pos ho]
    · rw [if_neg (mt hzero.1 ho), if_neg ho]
  rw [haddress, expected_iff]
  -- An address of zero counts as none, and the profile keeps the one it had.
  by_cases ho : o = ⟨0, 0, 0, 0⟩
  · subst ho
    rw [if_pos rfl]
    exact ⟨fun hp => ⟨.inr ⟨rfl, rfl⟩, fun _ => hp⟩, fun hp => hp.2 rfl⟩
  · rw [if_neg ho, and_iff_left (fun hc => absurd hc ho)]
    unfold storedAddr
    by_cases hform : form = .hexFirst
    · simp [hform]
    · rw [if_neg hform, inAddr_eq_bswap32_iff]
      simp [hform]

end

/-- An `OK` with one line in front of it. -/
def oneLine (line : List Char) : AtAnswer := ⟨0, some ⟨1, some "OK".toList, [line]⟩⟩

/-- 10.0.0.10 reads the same in either direction. -/
theorem requestGetIPAddress_symmetric : Expected ⟨10, 0, 0, 10⟩
    (requestGetIPAddress true (oneLine "+CGPADDR: 1,\"10.0.0.10\"".toList)
      (.default true false)).2.ipv4.address :=
  (@requestGetIPAddress_expected_iff 1 _ _ _ _ .dotted
    (Reports.cgpaddr (.inr rfl) (.inr rfl) (by rintro c ⟨⟩)) rfl _ rfl (by decide)).2
    ⟨.inr ⟨rfl, rfl⟩, fun hc => absurd hc (by decide)⟩

/-- 10.201.80.91 is printed, and looked for, as 91.80.201.10. -/
theorem requestGetIPAddress_turned : ¬ ∀ (pdp : ℕ) (o : Octets) (asrStyleAtc : Bool)
    (form : AddressForm) (line : List Char) (a : AtAnswer) (p : Profile),
    Reports pdp o asrStyleAtc form line → a.lines = some [line] → p.pdp = pdp → pdp < 2 ^ 31 →
      Expected o (requestGetIPAddress asrStyleAtc a p).2.ipv4.address := by
  intro hall
  have hexpected := hall 1 ⟨10, 201, 80, 91⟩ true .dotted _
    (oneLine "+CGPADDR: 1,\"10.201.80.91\"".toList) (.default true false)
    (Reports.cgpaddr (.inr rfl) (.inr rfl) (by rintro c ⟨⟩)) rfl rfl (by decide)
  exact absurd hexpected.turned (by decide +kernel)

end Atc
