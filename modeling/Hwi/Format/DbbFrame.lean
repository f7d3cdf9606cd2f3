import Hwi.Spec.DbbFrame
import Mathlib.Logic.Relation

/-! The reports of a framed message, and the streams of reports that `read_frame` reads
to the announced length. -/

namespace Hwi

namespace Dbb

/-- An unsigned integer of `k` bytes, the highest first. -/
def bigEndian (k n : ℕ) : Bytes := (toLE k n).reverse

/-- The writes of a message: the first has its length, the others are numbered. -/
structure Framed (data : Bytes) (writes : List Bytes) : Prop where
  report : ∀ w ∈ writes, ∃ body, w = 0x00 :: body ∧ body.length = usbReportSize
  init : ∃ payload, writes.head? = some
    (0x00 :: (bigEndian 4 HWW_CID ++ bigEndian 1 HWW_CMD ++ bigEndian 2 data.length ++ payload))
  length : data.length < 2 ^ 16
  cont : ∀ i w, writes[i + 1]? = some w → i < 256 ∧
    ∃ payload, w = 0x00 :: (bigEndian 4 HWW_CID ++ bigEndian 1 i ++ payload)

/-- A device that gives the reports of a list. -/
def feed (reports : List Bytes) : Reports := fun n =>
  match reports[n]? with
  | some read => .ok read
  | none => .error (.exception "read error")

/-- What is read from the bodies of the writes is the message. -/
def ReadsBack (data : Bytes) (writes : List Bytes) : Prop :=
  ∃ turns, readFrame (feed (writes.map List.tail)) turns = some (.ok data)

/-- The loop reads a report and goes on. -/
def Continues (reports : Reports) (dataLen : ℕ) (s s' : Reading) : Prop :=
  s.next reports dataLen = .inr s'

/-- `read_frame` ends, with the announced number of bytes unless it raises, and each
report it reads brings it closer to them. -/
structure ReadsExactly (reports : Reports) : Prop where
  ends : ∃ turns result, readFrame reports turns = some result
  payload : ∀ init turns data, firstReport reports = .ok init →
    readFrame reports turns = some (.ok data) → data.length = init.dataLen
  advances : ∀ init s s', firstReport reports = .ok init →
    Relation.ReflTransGen (Continues reports init.dataLen) init.start s →
    Continues reports init.dataLen s s' → s.idx < s'.idx

/-- The first report is not for this client. -/
def Init.Foreign (init : Init) : Prop := init.cid ≠ HWW_CID ∨ init.cmd ≠ HWW_CMD

/-- From a read on, reports longer than their header arrive until no announced byte is
missing, and none has a byte too many, unless the message is refused in the end anyway. -/
inductive Arrives (reports : Reports) (refused : Prop) : ℕ → ℕ → Prop
  | complete (n : ℕ) : Arrives reports refused n 0
  | raised {n missing : ℕ} {e : Exc} (h : reports n = .error e) :
    Arrives reports refused n (missing + 1)
  | report {n missing : ℕ} {read : Bytes} (h : reports n = .ok read) (header : 5 < read.length)
    (fits : read.length - 5 ≤ missing + 1 ∨ refused)
    (rest : Arrives reports refused (n + 1) (missing + 1 - (read.length - 5))) :
    Arrives reports refused n (missing + 1)

/-- The reports of one message fit its length. -/
def Fitting (reports : Reports) : Prop :=
  ∀ init, firstReport reports = .ok init → (init.data.length ≤ init.dataLen ∨ init.Foreign) ∧
    Arrives reports init.Foreign 1 (init.dataLen - init.data.length)

end Dbb

end Hwi
