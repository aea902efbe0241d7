/-
**The report of a frame.**

`main` of `ser2mqtt` takes a frame from the serial line, writes it out in hexadecimal digits, puts
the digits into a JSON text and publishes that.  The digits and the text have 512 bytes of memory
each.  The longest frame has 255 bytes; its digits fit, but the text around them does not.

* `Ser2mqtt.Stack` — the memory of the loop body, with whatever is in it;
* `Ser2mqtt.report` — what the loop body publishes for a packet;
* `Ser2mqtt.report_eq` — the text, and where it is cut;
* `Ser2mqtt.report_lossless_iff` — **a frame is reported whole exactly when it has at most 250
  bytes**;
* `Ser2mqtt.not_report_lossless` — a frame of 251 bytes.
-/
import OpenwrtPackage.Ser2mqtt.Hex
import OpenwrtPackage.Ser2mqtt.Modbus

set_option relaxedAutoImplicit false
set_option autoImplicit false

namespace Ser2mqtt

open CString

/-! ### The loop body -/

/-- The arrays of the loop body, which nobody has written yet. -/
structure Stack where
  hexString : {mem : List Char // mem.length = 512}
  message : {mem : List Char // mem.length = 512}
  topic : {mem : List Char // mem.length = 64}

/-- What is handed to `mqtt_publish`. -/
structure Publish where
  topic : List Char
  payload : List Char
  deriving DecidableEq

/-- The loop that prints the bytes from the `i`-th on into `hex_string`. -/
def printHex (mem : List Char) (i : ℕ) : List UInt8 → List Char
  | [] => mem
  | b :: bytes => printHex (snprintf mem (i * 2) (512 - i * 2) (fmt02x b)) (i + 1) bytes

/-- `{"msg":"%s"}`. -/
def jsonMsg (hexString : List Char) : List Char :=
  ['\x7b', '\x22', 'm', 's', 'g', '\x22', ':', '\x22'] ++ hexString ++ ['\x22', '\x7d']

/-- `/ser2mqtt/report/%s`. -/
def reportTopic (macAddress : List Char) : List Char :=
  ['/', 's', 'e', 'r', '2', 'm', 'q', 't', 't', '/', 'r', 'e', 'p', 'o', 'r', 't', '/'] ++ macAddress

/-- The body of the loop of `main`, for the `bytes_read` bytes that `serial_receive_modbus` has put
into the front of `buf`. -/
def report (macAddress : List Char) (stack : Stack) (buf : List UInt8) : Option Publish :=
  if 0 < buf.length then
    if checkModbusRtuFormat buf = 0 then
      let hexString := printHex stack.hexString 0 buf
      let message := snprintf stack.message 0 512 (jsonMsg (cstr hexString))
      let topic := snprintf stack.topic 0 64 (reportTopic macAddress)
      some ⟨cstr topic, cstr message⟩
    else none
  else none

/-! ### What is published -/

/-- The digits stand one behind the other, and a NUL behind them. -/
theorem printHex_eq {bytes : List UInt8} {i : ℕ} {front tail : List Char}
    (hfront : front.length = i * 2) (hlen : front.length + tail.length = 512)
    (hfit : 2 * (i + bytes.length) < 512) (htail : bytes = [] → ∃ rest, tail = nul :: rest) :
    ∃ rest, printHex (front ++ tail) i bytes = front ++ hexDigits bytes ++ nul :: rest := by
  induction bytes generalizing i front tail with
  | nil =>
      obtain ⟨rest, rfl⟩ := htail rfl
      exact ⟨rest, by simp [printHex, hexDigits]⟩
  | cons b bytes ih =>
      rw [List.length_cons] at hfit
      have htwo : (fmt02x b).length = 2 := rfl
      obtain ⟨tail', hprint, hlen'⟩ := @snprintf_append front tail (fmt02x b) (i * 2)
        (512 - i * 2) hfront.symm (by omega) (by omega)
      have hfront' : (front ++ fmt02x b).length = (i + 1) * 2 := by
        rw [List.length_append]
        omega
      obtain ⟨rest, hrest⟩ := @ih (i + 1) (front ++ fmt02x b) (nul :: tail') hfront' (by omega)
        (by omega) fun _ => ⟨tail', rfl⟩
      refine ⟨rest, ?_⟩
      rw [printHex, hprint, hrest, hexDigits, hexDigits, List.flatMap_cons, List.append_assoc front]

/-- All digits of a packet fit into `hex_string`. -/
theorem cstr_printHex (mem : {mem : List Char // mem.length = 512}) {bytes : List UInt8}
    (h1 : 1 ≤ bytes.length) (h2 : bytes.length ≤ 255) :
    cstr (printHex mem 0 bytes) = hexDigits bytes := by
  have hne : bytes ≠ [] := List.length_pos_iff.1 h1
  obtain ⟨rest, hrest⟩ := @printHex_eq bytes 0 [] mem.1 rfl (by simpa using mem.2) (by omega)
    fun h => absurd h hne
  rw [List.nil_append] at hrest
  rw [hrest, List.nil_append]
  exact cstr_append_nul (nul_not_mem_hexDigits bytes) rest

theorem nul_not_mem_jsonMsg (bytes : List UInt8) : nul ∉ jsonMsg (hexDigits bytes) := by
  have hdigits := nul_not_mem_hexDigits bytes
  have hopen : nul ∉ ['\x7b', '\x22', 'm', 's', 'g', '\x22', ':', '\x22'] := by decide
  have hclose : nul ∉ ['\x22', '\x7d'] := by decide
  simp only [jsonMsg, List.mem_append, not_or]
  exact ⟨⟨hopen, hdigits⟩, hclose⟩

theorem length_jsonMsg (bytes : List UInt8) :
    (jsonMsg (hexDigits bytes)).length = 10 + 2 * bytes.length := by
  simp only [jsonMsg, List.length_append, length_hexDigits, List.length_cons, List.length_nil]
  omega

/-- **What is published for a frame**: the first 511 characters of the text. -/
theorem report_eq (macAddress : List Char) (stack : Stack) {b : List UInt8} (h1 : 1 ≤ b.length)
    (h2 : b.length ≤ 255) (hok : checkModbusRtuFormat b = 0) :
    report macAddress stack b =
      some ⟨cstr (snprintf stack.topic 0 64 (reportTopic macAddress)),
        (jsonMsg (hexDigits b)).take 511⟩ := by
  have hpos : 0 < b.length := h1
  rw [report, if_pos hpos, if_pos hok]
  simp only [cstr_printHex stack.hexString h1 h2]
  rw [cstr_snprintf stack.message (by decide) (nul_not_mem_jsonMsg b)]

/-- The payload for the frame is the whole text, and its digits are read back as the frame. -/
def Lossless (macAddress : List Char) (stack : Stack) (b : List UInt8) : Prop :=
  (∃ p, report macAddress stack b = some p ∧ p.payload = jsonMsg (hexDigits b)) ∧
    hexToBytes (hexDigits b) 256 = b

/-- **A frame that passes the test is reported without loss exactly when it has at most 250
bytes**, whatever was in memory before. -/
theorem report_lossless_iff (macAddress : List Char) (stack : Stack) {b : List UInt8}
    (h1 : 1 ≤ b.length) (h2 : b.length ≤ 255) (hok : checkModbusRtuFormat b = 0) :
    Lossless macAddress stack b ↔ b.length ≤ 250 := by
  have hreport := report_eq macAddress stack h1 h2 hok
  have hlen := length_jsonMsg b
  constructor
  · rintro ⟨⟨p, hp, hpayload⟩, -⟩
    rw [hreport, Option.some_inj] at hp
    subst hp
    have hcut := congrArg List.length hpayload
    rw [List.length_take] at hcut
    omega
  · intro hshort
    refine ⟨⟨_, hreport, ?_⟩, hexToBytes_hexDigits (by omega)⟩
    exact List.take_of_length_le (by omega)

/-- Memory that is all zero. -/
def zeroStack : Stack :=
  ⟨⟨List.replicate 512 nul, List.length_replicate⟩, ⟨List.replicate 512 nul, List.length_replicate⟩,
    ⟨List.replicate 64 nul, List.length_replicate⟩⟩

theorem report_lossless_readRegister :
    Lossless ['m'] zeroStack [0x01, 0x03, 0x00, 0x00, 0x00, 0x01, 0x84, 0x0A] :=
  (report_lossless_iff ['m'] zeroStack (by decide) (by decide) (by decide +kernel)).2 (by decide)

/-- The answer of the device 1 with many registers: 249 bytes and their checksum. -/
def longFrame : List UInt8 := withCrc (0x01 :: 0x03 :: List.replicate 247 0)

/-- Its payload lacks the closing brace. -/
theorem not_report_lossless : ¬ ∀ (macAddress : List Char) (stack : Stack) (b : List UInt8),
    1 ≤ b.length → b.length ≤ 255 → checkModbusRtuFormat b = 0 → Lossless macAddress stack b := by
  intro hall
  have hdata : (0x01 :: 0x03 :: List.replicate 247 (0 : UInt8)).length = 249 := by
    rw [List.length_cons, List.length_cons, List.length_replicate]
  have hlength : longFrame.length = 251 := by rw [longFrame, length_withCrc, hdata]
  have hok : checkModbusRtuFormat longFrame = 0 :=
    checkModbusRtuFormat_withCrc (by omega) (by decide)
  obtain ⟨⟨p, hp, hpayload⟩, -⟩ := hall [] zeroStack longFrame (by omega) (by omega) hok
  rw [report_eq [] zeroStack (by omega) (by omega) hok, Option.some_inj] at hp
  subst hp
  have hcut := congrArg List.length hpayload
  rw [List.length_take, length_jsonMsg] at hcut
  omega

end Ser2mqtt
