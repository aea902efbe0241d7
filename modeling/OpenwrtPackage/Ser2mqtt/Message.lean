/-
**Messages from the broker.**

A message on `/data/recv` is a JSON text.  `on_message` takes the string out of the field `msg` of
it and has its digits written to the serial line.  What the report of a frame says can come back
this way, since it is such a text itself.

* `Ser2mqtt.msgOf` — what `on_message` takes out of a payload;
* `Ser2mqtt.onMessage_delivers` — **the bytes of a command are written whichever way the command is
  spelled as a JSON text**;
* `Ser2mqtt.onMessage_report` — **the report of a frame, sent back, writes the frame, or nothing
  when the report was cut**.
-/
import OpenwrtPackage.CJson.Text
import OpenwrtPackage.Ser2mqtt.Command
import OpenwrtPackage.Ser2mqtt.Report

set_option relaxedAutoImplicit false
set_option autoImplicit false

namespace Ser2mqtt

open CJson (Json Parsed cJSONParse cJSONGetObjectItem Padded Text nestingLimit Body byteOrderMark)

/-! ### The function -/

/-- The bytes of a string in C. -/
def bytesOf (s : List Char) : List UInt8 := s.map fun c => UInt8.ofNat c.toNat

/-- The string in C of some bytes. -/
def charsOf (s : List UInt8) : List Char := s.map fun b => Char.ofNat b.toNat

variable {ν : Type} (double : List UInt8 → ν)

/-- The `valuestring` of the field `msg`, if the payload is a JSON text with such a field.  There is
a NUL behind the payload. -/
def msgOf (payload : List Char) : Option (List Char) :=
  match cJSONParse double (bytesOf payload ++ [0]) with
  | .ok json _ =>
      match cJSONGetObjectItem json [0x6D, 0x73, 0x67] with
      | some (.string valuestring) => some (charsOf valuestring)
      | _ => none
  | _ => none

/-! ### Bytes and characters -/

theorem charsOf_bytesOf {s : List Char} (h : ∀ c ∈ s, c.toNat < 256) : charsOf (bytesOf s) = s := by
  rw [charsOf, bytesOf, List.map_map]
  refine (List.map_congr_left fun c hc => ?_).trans (List.map_id s)
  rw [Function.comp, UInt8.toNat_ofNat', Nat.mod_eq_of_lt (h c hc), Char.ofNat_toNat, id]

theorem bytesOf_charsOf (s : List UInt8) : bytesOf (charsOf s) = s := by
  have hcodes : ∀ n < 256, (Char.ofNat n).toNat = n := by decide +kernel
  rw [charsOf, bytesOf, List.map_map]
  refine (List.map_congr_left fun b _ => ?_).trans (List.map_id s)
  rw [Function.comp, hcodes b.toNat b.toNat_lt, UInt8.ofNat_toNat, id]

/-- What is a printed digit in lower case is a digit. -/
theorem digit_of_toLower {bytes : List UInt8} {s : List Char}
    (hs : s.map Char.toLower = hexDigits bytes) {c : Char} (hc : c ∈ s) :
    (hexVal c).isSome = true := by
  have hmem : c.toLower ∈ hexDigits bytes := hs ▸ List.mem_map_of_mem hc
  obtain ⟨b, -, hb⟩ := List.mem_flatMap.1 hmem
  have hlt := b.toNat_lt
  simp only [fmt02x, List.mem_cons, List.not_mem_nil, or_false] at hb
  rcases hb with hb | hb
  · rw [hexVal_of_toLower (by omega) hb]
    rfl
  · rw [hexVal_of_toLower (Nat.mod_lt _ (by decide)) hb]
    rfl

/-- The digits of a frame in another case, perhaps, are read as the frame. -/
theorem hexStringToBytes_of_digits {bytes : List UInt8} {s : List Char}
    (hs : s.map Char.toLower = hexDigits bytes) (hlen : bytes.length ≤ sendSize) :
    hexStringToBytes s sendSize = bytes := by
  have hlength := congrArg List.length hs
  rw [List.length_map, length_hexDigits] at hlength
  have hdigits : ∀ c ∈ s, (hexVal c).isSome = true := fun c hc => digit_of_toLower hs hc
  have hread : hexStringToBytes s sendSize = hexToBytes s sendSize := by
    have hsmall : (s.length : ℤ) < 2 ^ 31 := by
      rw [sendSize] at hlen
      omega
    rw [hexStringToBytes, strlenInt, MachineInt.int_of_lt (by omega) (by omega), Int.toNat_natCast,
      List.take_length]
  have hback : hexDigits (hexToBytes s sendSize) = hexDigits bytes := by
    rw [(hexDigits_hexToBytes_iff s sendSize).2 ⟨hdigits, by omega, by omega⟩, hs]
  have hshort : (hexToBytes s sendSize).length ≤ sendSize := by
    rw [length_hexToBytes]
    omega
  rw [hread, ← hexToBytes_hexDigits hshort, hback, hexToBytes_hexDigits hlen]

/-! ### Messages -/

/-- The bytes of what the field `msg` holds are written. -/
theorem onMessage_of_msg {msgOf : List Char → Option (List Char)} (opened : Bool)
    {payload s : List Char} (h : msgOf payload = some s) :
    onMessage msgOf opened "/data/recv".toList payload =
      if opened then hexStringToBytes s sendSize else [] := by
  rw [← serialSendHex_written, onMessage, if_pos rfl, h]

theorem onMessage_of_none {topic payload : List Char} (h : msgOf double payload = none) :
    onMessage (msgOf double) true topic payload = [] := by
  unfold onMessage
  split
  · rw [h]
  · rfl

/-- The field `msg` of a text that has been spelled. -/
theorem msgOf_text {members : List (List UInt8 × Json ν)} {t : List UInt8} {s : List Char}
    (ht : Padded (Text double nestingLimit) (.object members) t) {bom : List UInt8}
    (hbom : bom = [] ∨ bom = byteOrderMark)
    (hmsg : cJSONGetObjectItem (.object members) [0x6D, 0x73, 0x67] = some (.string (bytesOf s)))
    (hs : ∀ c ∈ s, c.toNat < 256) {payload : List Char} (hpayload : bytesOf payload = bom ++ t) :
    msgOf double payload = some s := by
  obtain ⟨rest, hparse⟩ := CJson.parses_text ht hbom []
  rw [msgOf, hpayload, hparse]
  simp only [hmsg, charsOf_bytesOf hs]

/-- A character that stands as it is in a string. -/
def Plain (c : Char) : Prop := 0x20 ≤ c.toNat ∧ c.toNat < 0x80 ∧ c ≠ '\x22' ∧ c ≠ '\x5c'

theorem body_bytesOf {s : List Char} (h : ∀ c ∈ s, Plain c) : Body s (bytesOf s) := by
  induction s with
  | nil => exact Body.nil
  | cons c s ih =>
      obtain ⟨⟨hlow, hhigh, hq, hb⟩, hs⟩ := List.forall_mem_cons.1 h
      have hc := CJson.Spelled.plain hlow hq hb
      rw [Unicode.utf8EncodeChar_one hhigh] at hc
      exact Body.cons hc (ih hs)

theorem plain_of_mem_bytesOf {s : List Char} (h : ∀ c ∈ s, Plain c) {b : UInt8}
    (hb : b ∈ bytesOf s) : b ≠ CJson.quote ∧ b ≠ CJson.backslash := by
  obtain ⟨c, hc, rfl⟩ := List.mem_map.1 hb
  obtain ⟨-, hhigh, hq, hs⟩ := h c hc
  have hmem : UInt8.ofNat c.toNat ∈ String.utf8EncodeChar c := by
    rw [Unicode.utf8EncodeChar_one hhigh]
    exact List.mem_singleton_self _
  exact CJson.plain_of_mem_utf8EncodeChar hq hs hmem

theorem utf8_of_plain {s : List Char} (h : ∀ c ∈ s, Plain c) : CJson.utf8 s = bytesOf s := by
  induction s with
  | nil => rfl
  | cons c s ih =>
      obtain ⟨⟨-, hhigh, -, -⟩, hs⟩ := List.forall_mem_cons.1 h
      rw [CJson.utf8, List.flatMap_cons, ← CJson.utf8, ih hs, Unicode.utf8EncodeChar_one hhigh]
      rfl

theorem nulFree_of_plain {s : List Char} (h : ∀ c ∈ s, Plain c) : CJson.NulFree (bytesOf s) :=
  (body_bytesOf h).nulFree

theorem plain_of_mem_hexDigits {bytes : List UInt8} {c : Char} (h : c ∈ hexDigits bytes) :
    Plain c := by
  have hdigit : ∀ d < 16, 0x20 ≤ (Nat.digitChar d).toNat ∧ (Nat.digitChar d).toNat < 0x80 ∧
      Nat.digitChar d ≠ '\x22' ∧ Nat.digitChar d ≠ '\x5c' := by
    decide
  obtain ⟨b, -, hb⟩ := List.mem_flatMap.1 h
  have hlt := b.toNat_lt
  simp only [fmt02x, List.mem_cons, List.not_mem_nil, or_false] at hb
  rcases hb with rfl | rfl
  · exact hdigit _ (by omega)
  · exact hdigit _ (Nat.mod_lt _ (by decide))

/-- The text of a report, as far as it is not cut, is spelled as an object with one field. -/
theorem text_jsonMsg (bytes : List UInt8) :
    Padded (Text double nestingLimit)
      (.object [([0x6D, 0x73, 0x67], .string (bytesOf (hexDigits bytes)))])
      (bytesOf (jsonMsg (hexDigits bytes))) := by
  have hplain : ∀ c ∈ hexDigits bytes, Plain c := fun c hc => plain_of_mem_hexDigits hc
  have hblank : CJson.Blanks [] := fun _ h => absurd h List.not_mem_nil
  have hname : ∀ c ∈ ['m', 's', 'g'], Plain c := by
    intro c hc
    simp only [List.mem_cons, List.not_mem_nil, or_false] at hc
    rcases hc with rfl | rfl | rfl <;> exact ⟨by decide, by decide, by decide, by decide⟩
  have hcstr : CJson.cstr (CJson.utf8 (hexDigits bytes)) = bytesOf (hexDigits bytes) := by
    rw [utf8_of_plain hplain]
    exact List.takeWhile_eq_self_iff.2 fun b hb => decide_eq_true (nulFree_of_plain hplain b hb)
  have hvalue : Padded (Text double 999) (.string (bytesOf (hexDigits bytes)))
      (CJson.quote :: (bytesOf (hexDigits bytes) ++ [CJson.quote])) := by
    have hleaf := @CJson.Leaf.string ν double _ _ (body_bytesOf hplain)
    rw [hcstr] at hleaf
    exact Padded.of (Or.inl hleaf)
  have hmember : CJson.Member (Text double 999)
      ([0x6D, 0x73, 0x67], .string (bytesOf (hexDigits bytes)))
      (CJson.quote :: ([0x6D, 0x73, 0x67] ++ CJson.quote :: ([] ++ 0x3A ::
        (CJson.quote :: (bytesOf (hexDigits bytes) ++ [CJson.quote]))))) :=
    ⟨[], ['m', 's', 'g'], [0x6D, 0x73, 0x67], [], _, hblank, body_bytesOf hname, hblank, rfl,
      hvalue, rfl⟩
  have htext : Text double nestingLimit _ _ :=
    Or.inr (CJson.Nest.object (CJson.Members.last hmember))
  have hpadded := Padded.of htext
  simpa [bytesOf, jsonMsg, CJson.quote] using hpadded

/-- A string that is not closed is none. -/
theorem scan_open {s : List UInt8} (hs : ∀ b ∈ s, b ≠ CJson.quote ∧ b ≠ CJson.backslash) :
    CJson.scan s = none := by
  induction s with
  | nil => rfl
  | cons b s ih =>
      obtain ⟨⟨hq, hb⟩, hs⟩ := List.forall_mem_cons.1 hs
      rw [CJson.scan.eq_def]
      simp only [if_neg hq, if_neg hb, ih hs, Option.map_none]

/-- What a report begins with. -/
def reportFront : List UInt8 :=
  [0x7B, CJson.quote, 0x6D, 0x73, 0x67, CJson.quote, 0x3A, CJson.quote]

/-- The string behind it is not closed, or the object is not. -/
theorem parse_open {t : List UInt8} (h : CJson.parseString (CJson.quote :: t) = .fail ∨
    ∃ text, CJson.parseString (CJson.quote :: t) = .ok text [0]) :
    CJson.cJSONParseWithLength double (reportFront ++ t) = .fail := by
  have hskip : ∀ {b : UInt8}, 32 < b → ∀ rest : List UInt8,
      CJson.skipWhitespace (b :: rest) = b :: rest := fun hb rest =>
    CJson.skipWhitespace_append (s := []) (fun _ h => absurd h List.not_mem_nil) hb rest
  have hbom : CJson.skipUtf8Bom (reportFront ++ t) = reportFront ++ t := if_neg fun h => by
    simp [reportFront] at h
  have hname : CJson.parseString (CJson.quote :: 0x6D :: 0x73 :: 0x67 :: CJson.quote :: 0x3A ::
      CJson.quote :: t) = .ok [0x6D, 0x73, 0x67] (0x3A :: CJson.quote :: t) := rfl
  have hlimit : nestingLimit = 999 + 1 := rfl
  rw [CJson.cJSONParseWithLength, if_neg (by simp [reportFront]), hbom, reportFront,
    List.cons_append, hskip (by decide), hlimit, CJson.parseValue_brace]
  simp only [List.cons_append, List.nil_append, CJson.parseObject]
  rw [if_neg (by decide), hskip (by decide)]
  simp only
  rw [if_neg (by decide), CJson.parseMembers, if_neg (List.cons_ne_nil _ _), hskip (by decide),
    hname]
  simp only [Parsed.andThen, hskip (b := 0x3A) (by decide), hskip (b := CJson.quote) (by decide),
    CJson.parseValue_quote]
  rcases h with h | ⟨text, h⟩
  · rw [h]
    rfl
  · rw [h]
    rfl

/-- A report that is cut inside its digits, or behind them, is no JSON text. -/
theorem msgOf_cut {digits closing : List Char} (h : ∀ c ∈ digits, Plain c)
    (hclosing : closing = [] ∨ closing = ['\x22']) :
    msgOf double (['\x7b', '\x22', 'm', 's', 'g', '\x22', ':', '\x22'] ++ (digits ++ closing)) =
      none := by
  have hfree : CJson.NulFree (reportFront ++ (bytesOf digits ++ bytesOf closing)) := by
    refine (CJson.NulFree.of_not_mem (by decide)).append ((nulFree_of_plain h).append ?_)
    rcases hclosing with rfl | rfl
    · exact CJson.NulFree.nil
    · exact CJson.NulFree.of_not_mem (by decide)
  have hbytes : bytesOf (['\x7b', '\x22', 'm', 's', 'g', '\x22', ':', '\x22'] ++
      (digits ++ closing)) = reportFront ++ (bytesOf digits ++ bytesOf closing) := by
    simp [bytesOf, reportFront, CJson.quote]
  have hopen :
      CJson.parseString (CJson.quote :: (bytesOf digits ++ bytesOf closing ++ [0])) = .fail ∨
        ∃ text, CJson.parseString (CJson.quote :: (bytesOf digits ++ bytesOf closing ++ [0])) =
          .ok text [0] := by
    rcases hclosing with rfl | rfl
    · have hnil : bytesOf digits ++ bytesOf [] = bytesOf digits := List.append_nil _
      have hscan : CJson.scan (bytesOf digits ++ [0]) = none := by
        refine scan_open fun b hb => ?_
        rcases List.mem_append.1 hb with hb | hb
        · exact plain_of_mem_bytesOf h hb
        · rw [List.mem_singleton.1 hb]
          exact ⟨by decide, by decide⟩
      left
      rw [hnil, CJson.parseString, if_neg (not_not.2 rfl), hscan]
    · right
      have hparse := CJson.parseString_of_body (body_bytesOf h) [0]
      refine ⟨CJson.cstr (CJson.utf8 digits), ?_⟩
      rw [List.append_assoc]
      exact hparse
  have hparse : cJSONParse double (reportFront ++ (bytesOf digits ++ bytesOf closing) ++ [0]) =
      .fail := by
    rw [cJSONParse, CJson.cstr_append hfree, List.append_assoc]
    exact parse_open double hopen
  rw [msgOf, hbytes, hparse]

/-- **The report of a frame, sent back as a command, writes the frame**; when the frame is so long
that its report was cut, it writes nothing. -/
theorem onMessage_report (macAddress : List Char) (stack : Stack) {b : List UInt8}
    (h1 : 1 ≤ b.length) (h2 : b.length ≤ 255) (hok : checkModbusRtuFormat b = 0) :
    ∃ p, report macAddress stack b = some p ∧
      onMessage (msgOf double) true "/data/recv".toList p.payload =
        if b.length ≤ 250 then b else [] := by
  have hplain : ∀ c ∈ hexDigits b, Plain c := fun c hc => plain_of_mem_hexDigits hc
  refine ⟨_, report_eq macAddress stack h1 h2 hok, ?_⟩
  have hlen := length_jsonMsg b
  dsimp only
  by_cases hshort : b.length ≤ 250
  · have hsmall : b.length ≤ sendSize := Nat.le_trans h2 (by decide)
    have hmsg := msgOf_text double (text_jsonMsg double b) (Or.inl rfl) rfl
      (fun c hc => Nat.lt_trans (hplain c hc).2.1 (by decide)) rfl
    rw [if_pos hshort, List.take_of_length_le (by omega), onMessage_of_msg true hmsg, if_pos rfl]
    exact hexStringToBytes_of_digits (map_toLower_hexDigits b) hsmall
  · obtain ⟨closing, hclosing, hcut⟩ : ∃ closing : List Char,
        (closing = [] ∨ closing = ['\x22']) ∧ (jsonMsg (hexDigits b)).take 511 =
          ['\x7b', '\x22', 'm', 's', 'g', '\x22', ':', '\x22'] ++
            ((hexDigits b).take 503 ++ closing) := by
      refine ⟨(['\x22', '\x7d'] : List Char).take (503 - (hexDigits b).length), ?_, ?_⟩
      · have hdigits := length_hexDigits b
        rcases Nat.lt_or_ge (hexDigits b).length 503 with hlt | hge
        · have hone : 503 - (hexDigits b).length = 1 := by omega
          rw [hone]
          exact Or.inr rfl
        · rw [Nat.sub_eq_zero_of_le hge]
          exact Or.inl rfl
      · rw [jsonMsg, List.append_assoc, List.take_append, List.take_append]
        rfl
    have htake : ∀ c ∈ (hexDigits b).take 503, Plain c := fun c hc =>
      hplain c (List.mem_of_mem_take hc)
    rw [if_neg hshort, hcut]
    exact onMessage_of_none double (msgOf_cut double htake hclosing)

/-- A frame of eight bytes that came in goes out again. -/
theorem onMessage_report_readRegister :
    ∃ p, report ['m'] zeroStack [0x01, 0x03, 0x00, 0x00, 0x00, 0x01, 0x84, 0x0A] = some p ∧
      onMessage (msgOf id) true "/data/recv".toList p.payload =
        if 8 ≤ 250 then [0x01, 0x03, 0x00, 0x00, 0x00, 0x01, 0x84, 0x0A] else [] :=
  onMessage_report id ['m'] zeroStack (by decide) (by decide) (by decide +kernel)

end Ser2mqtt
