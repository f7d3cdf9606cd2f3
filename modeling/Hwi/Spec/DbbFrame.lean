import Hwi.Lib.Procedure
import Hwi.Spec.Serialize

/-! `send_frame` and `read_frame` of `digitalbitbox.py`. A device takes the reports that
are written to it, and gives one report a read, or the read raises. -/

namespace Hwi

namespace Dbb

def usbReportSize : ℕ := 64

def HWW_CID : ℕ := 0xFF000000

def HWW_CMD : ℕ := 0x80 + 0x40 + 0x01

/-- One field of `struct.pack(">...")`. -/
def packBE (k n : ℕ) : Except Exc Bytes := do
  let b ← pack k n
  return b.reverse

/-! ### Writing -/

/-- A computation that writes reports. -/
abbrev Sending := Procedure Exc (List Bytes)

def deviceWrite (report : Bytes) : Sending Unit := modify fun written => written ++ [report]

/-- `data[idx: idx + min(data_len, size)]` -/
def chunk (data : Bytes) (idx size : ℕ) : Bytes := (data.drop idx).take (min data.length size)

theorem chunk_pos {data : Bytes} {idx : ℕ} (size : ℕ) (h : idx < data.length) (hsize : 0 < size) :
    0 < (chunk data idx size).length := by
  rw [chunk, List.length_take, List.length_drop]
  omega

/-- The loop of `send_frame` from a position in the data. -/
def sendFrameLoop (data : Bytes) (idx seq : ℕ) : Sending Unit :=
  if h : idx < data.length then
    if idx = 0 then do
      -- INIT frame
      let write := chunk data idx (usbReportSize - 7)
      let cid ← Procedure.ofExcept (packBE 4 HWW_CID)
      let cmd ← Procedure.ofExcept (packBE 1 HWW_CMD)
      let len ← Procedure.ofExcept (packBE 2 (data.length &&& 0xFFFF))
      deviceWrite (0x00 :: (cid ++ cmd ++ len ++ write ++
        List.replicate (usbReportSize - 7 - write.length) 0xEE))
      sendFrameLoop data (idx + (chunk data idx (usbReportSize - 7)).length) seq
    else do
      -- CONT frame
      let write := chunk data idx (usbReportSize - 5)
      let cid ← Procedure.ofExcept (packBE 4 HWW_CID)
      let number ← Procedure.ofExcept (packBE 1 seq)
      deviceWrite (0x00 :: (cid ++ number ++ write ++
        List.replicate (usbReportSize - 5 - write.length) 0xEE))
      sendFrameLoop data (idx + (chunk data idx (usbReportSize - 5)).length) (seq + 1)
  else pure ()
termination_by data.length - idx
decreasing_by
  · have hpos := chunk_pos (usbReportSize - 7) h (by decide)
    omega
  · have hpos := chunk_pos (usbReportSize - 5) h (by decide)
    omega

def sendFrame (data : Bytes) : Sending Unit := sendFrameLoop data 0 0

/-! ### Reading -/

/-- What each read of the device gives. -/
abbrev Reports := ℕ → Except Exc Bytes

/-- The fields of the first report. -/
structure Init where
  cid : ℕ
  cmd : ℕ
  dataLen : ℕ
  data : Bytes
deriving DecidableEq, Repr

def readInit : Bytes → Except Exc Init
  | c0 :: c1 :: c2 :: c3 :: cmd :: l0 :: l1 :: data => .ok
    { cid := ((c0.toNat * 256 + c1.toNat) * 256 + c2.toNat) * 256 + c3.toNat
      cmd := cmd.toNat
      dataLen := l0.toNat * 256 + l1.toNat
      data }
  | _ => .error .indexError

/-- The state of the loop of `read_frame`: how many reports were read, their data, and
the counter, which also counts the missing header bytes of a short report. -/
structure Reading where
  reads : ℕ
  data : Bytes
  idx : ℤ
deriving DecidableEq, Repr

/-- One turn of the loop: it reads a report, or it ends. -/
def Reading.next (reports : Reports) (dataLen : ℕ) (s : Reading) : Except Exc Bytes ⊕ Reading :=
  if s.idx < dataLen then
    -- CONT response
    match reports s.reads with
    | .error e => .inl (.error e)
    | .ok read => .inr
      { reads := s.reads + 1, data := s.data ++ read.drop 5, idx := s.idx + (read.length - 5) }
  else .inl (.ok s.data)

/-- The loop for some turns; `none` while it goes on. -/
def readLoop (reports : Reports) (dataLen : ℕ) : ℕ → Reading → Option (Except Exc Bytes)
  | 0, _ => none
  | turns + 1, s =>
    match s.next reports dataLen with
    | .inl result => some result
    | .inr s => readLoop reports dataLen turns s

def Init.start (init : Init) : Reading where
  reads := 1
  data := init.data
  idx := init.data.length

/-- The assertions after the loop. -/
def Init.check (init : Init) (data : Bytes) : Except Exc Bytes :=
  if init.cid ≠ HWW_CID then .error .assertionError
  else if init.cmd ≠ HWW_CMD then .error .assertionError
  else .ok data

def firstReport (reports : Reports) : Except Exc Init := do
  let read ← reports 0
  readInit read

def readFrame (reports : Reports) (turns : ℕ) : Option (Except Exc Bytes) :=
  match firstReport reports with
  | .error e => some (.error e)
  | .ok init => (readLoop reports init.dataLen turns init.start).map fun result => result >>= init.check

end Dbb

end Hwi
