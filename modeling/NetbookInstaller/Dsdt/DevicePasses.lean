import NetbookInstaller.Dsdt.BraceCount

/-! The passes of the DSDT patcher over the RTC and HPET devices. Their loops are
one step function each, the loops within loops being told apart by `pc`. -/
namespace Dsdt

def RTCDevice : Line := "Device (RTC".toList
def RTCDevice2 : Line := "PNP0B00".toList
def HPETDevice : Line := "Device (HPET".toList
def HPETDevice2 : Line := "PNP0103".toList
def IRQ : Line := "IRQNoFlags ()".toList
def RESOURCETEMP : Line := "ResourceTemplate ()".toList

def HPETIRQ : Line := String.toList <|
  "                        IRQNoFlags ()\n" ++
  "                            \x7b0\x7d\n" ++
  "                        IRQNoFlags ()\n" ++
  "                            \x7b8\x7d\n"

def fixedHPET : Line := String.toList <|
  "\t\tDevice (HPET)\n" ++
  "                \x7b\n" ++
  "                    Name (_HID, EisaId (\"PNP0103\"))\n" ++
  "                    Name (ATT3, ResourceTemplate ()\n" ++
  "                    \x7b\n" ++
  "                        IRQNoFlags ()\n" ++
  "                            \x7b0\x7d\n" ++
  "                        IRQNoFlags ()\n" ++
  "                            \x7b8\x7d\n" ++
  "                        Memory32Fixed (ReadWrite,\n" ++
  "                            0xFED00000,         // Address Base\n" ++
  "                            0x00000400,         // Address Length\n" ++
  "                            )\n" ++
  "                    \x7d)\n" ++
  "                    Name (ATT4, ResourceTemplate ()\n" ++
  "                    \x7b\n" ++
  "                    \x7d)\n" ++
  "                    Method (_STA, 0, NotSerialized)\n" ++
  "                    \x7b\n" ++
  "                        Return (0x0F)\n" ++
  "                    \x7d\n" ++
  "                    Method (_CRS, 0, NotSerialized)\n" ++
  "                    \x7b\n" ++
  "                        Return (ATT3)\n" ++
  "                    \x7d\n" ++
  "                \x7d\n"

/-- The loop that a pass is in. `find`, `overwriteOuter` and `overwriteDevice` are
those of `writeFixedHPET`, `addOuter` and `addDevice` those that write a new HPET
device behind the RTC device. -/
inductive DevicePc where
  | outer | device | irqs | find | overwriteOuter | overwriteDevice | addOuter | addDevice
  deriving DecidableEq, Repr

/-- `text` is the file that the pass reads, `rest` what is left of it; `output` are
the formats passed to `fprintf` since the output was opened. -/
structure DevicePass where
  pc : DevicePc
  text : List Line
  rest : List Line
  buffer : Line
  openBrackets : Count
  rtcDeviceFound : Bool
  hpetDeviceFound : Bool
  written : Bool
  output : List Line
  deriving DecidableEq, Repr

namespace DevicePass

/-- At the end of the file `fgets` fails and leaves the buffer as it is. -/
def fgets (s : DevicePass) : DevicePass :=
  { s with rest := s.rest.tail, buffer := s.rest.head?.getD s.buffer }

def fprintf (s : DevicePass) (format : Line) : DevicePass :=
  { s with output := s.output ++ [format] }

/-- The two brace tests behind most reads. -/
def count (s : DevicePass) : DevicePass :=
  { s with openBrackets := s.openBrackets + bracketDelta s.buffer }

/-- Whether a line names a device, with what that adds to `openBrackets`: the PNP id
stands inside the device, whose brace has been read already. -/
def foundName (device device2 : Line) (found : Bool) (s : Line) : Option Count :=
  if cmpStr s device then some 0 else if cmpStr s device2 && !found then some 1 else none

def foundRTCDevice (s : DevicePass) : Option DevicePass :=
  (foundName RTCDevice RTCDevice2 s.rtcDeviceFound s.buffer).map fun opened =>
    { s with rtcDeviceFound := true, openBrackets := s.openBrackets + opened }

def foundHPETDevice (s : DevicePass) : Option DevicePass :=
  (foundName HPETDevice HPETDevice2 s.hpetDeviceFound s.buffer).map fun opened =>
    { s with hpetDeviceFound := true, openBrackets := s.openBrackets + opened }

/-- One pass of an outer loop that copies lines up to a device. -/
def outerStep (found : DevicePass → Option DevicePass) (inner : DevicePc) (s : DevicePass) :
    DevicePass :=
  let s := s.fgets
  match found s with
  | some s => { s.fprintf s.buffer with pc := inner }
  | none => s.fprintf s.buffer

end DevicePass

open DevicePass

/-- `patchRTC` on the lines of a file, the RTC device not having been found before. -/
def patchRTC.startOn (lines : List Line) : DevicePass :=
  ⟨.outer, lines, lines, [], 0, false, false, false, []⟩

/-- The file is one that `fprintf` has written, so that its lines are strings. -/
def patchRTC.start (file : List Char) : DevicePass := patchRTC.startOn (buffers file)

/-- One pass of `while(start)`. -/
def patchRTC.deviceStep (s : DevicePass) : DevicePass :=
  let s := s.fgets.count
  if s.openBrackets = 0 then { s.fprintf s.buffer with pc := .outer }
  else if cmpStr s.buffer IRQ then
    -- the loop is left with the device's braces still counted
    let s := s.fgets.fgets
    { s.fprintf s.buffer with pc := .outer }
  else s.fprintf s.buffer

def patchRTC.step (s : DevicePass) : Option DevicePass :=
  match s.pc, s.rest with
  | .outer, [] => none
  | .outer, _ :: _ => some (s.outerStep foundRTCDevice .device)
  | .device, _ => some (patchRTC.deviceStep s)
  | _, _ => none

/-- `patchHPET` on the lines of a file, the HPET device not having been found before. -/
def patchHPET.startOn (writeFixedHPET : Bool) (lines : List Line) : DevicePass :=
  ⟨if writeFixedHPET then .find else .outer, lines, lines, [], 0, false, false, false, []⟩

def patchHPET.start (writeFixedHPET : Bool) (file : List Char) : DevicePass :=
  patchHPET.startOn writeFixedHPET (buffers file)

/-- What `patchHPET` adds to `openBrackets` in the device: one of the two tests. -/
def bracketElse (buffer : Line) : Count :=
  if cmpStr buffer ['{'] then 1 else if cmpStr buffer ['}'] then -1 else 0

def patchHPET.deviceStep (s : DevicePass) : DevicePass :=
  let s := s.fgets
  let s := { s with openBrackets := s.openBrackets + bracketElse s.buffer }
  if s.openBrackets = 0 then { s.fprintf s.buffer with pc := .outer }
  else if cmpStr s.buffer RESOURCETEMP then
    let s := (s.fprintf s.buffer).fgets
    let s := ((s.fprintf s.buffer).fprintf HPETIRQ).fgets
    { s with pc := .irqs }
  else s.fprintf s.buffer

/-- One test of `while(cmpStr(buffer, IRQ))`; `start` stays set behind that loop. -/
def patchHPET.irqStep (s : DevicePass) : DevicePass :=
  if cmpStr s.buffer IRQ then s.fgets.fgets
  else { s.fprintf s.buffer with openBrackets := 0, pc := .device }

def patchHPET.overwriteDeviceStep (s : DevicePass) : DevicePass :=
  let s := s.fgets.count
  if s.openBrackets = 0 then
    let s := if s.written then s else { s.fprintf fixedHPET with written := true }.fgets
    { s.fprintf s.buffer with pc := .overwriteOuter }
  else s

def patchHPET.addDeviceStep (s : DevicePass) : DevicePass :=
  let s := s.fgets.count
  let s := s.fprintf s.buffer
  if s.openBrackets = 0 then
    let s := if s.written then s else { s.fprintf fixedHPET with written := true }.fgets
    { s.fprintf s.buffer with pc := .addOuter }
  else s

/-- The code from `nextone` on, which opens both files again. -/
def patchHPET.nextone (s : DevicePass) : Option DevicePass :=
  if s.hpetDeviceFound then none
  else some { s with
    pc := .addOuter, rest := s.text, openBrackets := 0, written := false,
    rtcDeviceFound := false, output := [] }

def patchHPET.step (s : DevicePass) : Option DevicePass :=
  match s.pc, s.rest with
  | .find, [] =>
    if s.hpetDeviceFound then some { s with pc := .overwriteOuter, rest := s.text }
    else patchHPET.nextone s
  | .find, _ :: _ => some ((foundHPETDevice s.fgets).getD s.fgets)
  | .overwriteOuter, [] => none
  | .overwriteOuter, _ :: _ =>
    match foundHPETDevice s.fgets with
    | some s => some { s with pc := .overwriteDevice }
    | none => some (s.fgets.fprintf s.fgets.buffer)
  | .overwriteDevice, _ => some (patchHPET.overwriteDeviceStep s)
  | .outer, [] => patchHPET.nextone s
  | .outer, _ :: _ => some (s.outerStep foundHPETDevice .device)
  | .device, _ => some (patchHPET.deviceStep s)
  | .irqs, _ => some (patchHPET.irqStep s)
  | .addOuter, [] => none
  | .addOuter, _ :: _ => some (s.outerStep foundRTCDevice .addDevice)
  | .addDevice, _ => some (patchHPET.addDeviceStep s)

namespace DevicePass

section Fields
variable (s : DevicePass) (format : Line)

@[simp] theorem fgets_pc : s.fgets.pc = s.pc := rfl
@[simp] theorem fgets_rest : s.fgets.rest = s.rest.tail := rfl
@[simp] theorem fgets_openBrackets : s.fgets.openBrackets = s.openBrackets := rfl
@[simp] theorem fgets_buffer : s.fgets.buffer = s.rest.head?.getD s.buffer := rfl
@[simp] theorem fprintf_pc : (s.fprintf format).pc = s.pc := rfl
@[simp] theorem fprintf_rest : (s.fprintf format).rest = s.rest := rfl
@[simp] theorem fprintf_openBrackets : (s.fprintf format).openBrackets = s.openBrackets := rfl
@[simp] theorem count_pc : s.count.pc = s.pc := rfl
@[simp] theorem count_rest : s.count.rest = s.rest := rfl
@[simp] theorem count_buffer : s.count.buffer = s.buffer := rfl

@[simp] theorem count_openBrackets :
    s.count.openBrackets = s.openBrackets + bracketDelta s.buffer := rfl

end Fields

end DevicePass

theorem bracketElse_cases (line : Line) :
    bracketElse line = 0 ∨ bracketElse line = 1 ∨ bracketElse line = -1 := by
  unfold bracketElse
  split
  · simp
  · split <;> simp

namespace patchRTC

theorem step_outer (s : DevicePass) (hpc : s.pc = .outer) (hrest : s.rest ≠ []) :
    patchRTC.step s = some (s.outerStep foundRTCDevice .device) := by
  obtain ⟨line, rest, hrest⟩ := List.exists_cons_of_ne_nil hrest
  simp [patchRTC.step, hpc, hrest]

theorem step_halt (s : DevicePass) (hpc : s.pc = .outer) (hrest : s.rest = []) :
    patchRTC.step s = none := by
  simp [patchRTC.step, hpc, hrest]

theorem step_device (s : DevicePass) (hpc : s.pc = .device) :
    patchRTC.step s = some (patchRTC.deviceStep s) := by
  simp [patchRTC.step, hpc]

end patchRTC

namespace patchHPET

theorem step_addOuter (s : DevicePass) (hpc : s.pc = .addOuter) (hrest : s.rest ≠ []) :
    patchHPET.step s = some (s.outerStep foundRTCDevice .addDevice) := by
  obtain ⟨line, rest, hrest⟩ := List.exists_cons_of_ne_nil hrest
  simp [patchHPET.step, hpc, hrest]

theorem step_addHalt (s : DevicePass) (hpc : s.pc = .addOuter) (hrest : s.rest = []) :
    patchHPET.step s = none := by
  simp [patchHPET.step, hpc, hrest]

theorem step_addDevice (s : DevicePass) (hpc : s.pc = .addDevice) :
    patchHPET.step s = some (patchHPET.addDeviceStep s) := by
  simp [patchHPET.step, hpc]

theorem step_outer (s : DevicePass) (hpc : s.pc = .outer) (hrest : s.rest ≠ []) :
    patchHPET.step s = some (s.outerStep foundHPETDevice .device) := by
  obtain ⟨line, rest, hrest⟩ := List.exists_cons_of_ne_nil hrest
  simp [patchHPET.step, hpc, hrest]

theorem step_device (s : DevicePass) (hpc : s.pc = .device) :
    patchHPET.step s = some (patchHPET.deviceStep s) := by
  simp [patchHPET.step, hpc]

theorem step_irqs (s : DevicePass) (hpc : s.pc = .irqs) :
    patchHPET.step s = some (patchHPET.irqStep s) := by
  simp [patchHPET.step, hpc]

theorem step_halt (s : DevicePass) (hpc : s.pc = .outer) (hrest : s.rest = [])
    (hfound : s.hpetDeviceFound = true) : patchHPET.step s = none := by
  simp [patchHPET.step, nextone, hpc, hrest, hfound]

end patchHPET
end Dsdt
