import I3CHost.Field
import I3CHost.Layout
import I3CHost.Text.Folded

/-!
# Register map

The registers of an I3C host controller (HCI 1.2), by offset from the start of the window, with
their fields and the values they hold after reset.

    0x000  capability and operational registers
    0x080  PIO queues, thresholds and control
    0x100  extended capabilities
    0x400  Device Address Table
    0x800  Device Characteristics Table

`named` lists the registers that can be asked for by name; the queue registers and the extended
capabilities have offsets but no such name.
-/
namespace I3CHost

namespace Register

def hciVersion : Address := 0x000
def hcControl : Address := 0x004
def controllerDeviceAddr : Address := 0x008
def hcCapabilities : Address := 0x00C
def resetControl : Address := 0x010
def presentState : Address := 0x014
def intrStatus : Address := 0x020
def intrStatusEnable : Address := 0x024
def intrSignalEnable : Address := 0x028
def intrForce : Address := 0x02C
def datSectionOffset : Address := 0x030
def dctSectionOffset : Address := 0x034
def ringHeadersSectionOffset : Address := 0x038
def pioSectionOffset : Address := 0x03C
def extCapsSectionOffset : Address := 0x040
def intCtrlCmdsEn : Address := 0x04C
def ibiNotifyCtrl : Address := 0x058
def ibiDataAbortCtrl : Address := 0x05C
def devCtxBaseLo : Address := 0x060
def devCtxBaseHi : Address := 0x064
def devCtxSg : Address := 0x068

def commandQueue : Address := 0x080
def responseQueue : Address := 0x084
/-- Transmit and receive data share one offset. -/
def transferData : Address := 0x088
def ibiQueue : Address := 0x08C
def queueThldCtrl : Address := 0x090
def dataBufferThldCtrl : Address := 0x094
def queueSize : Address := 0x098
def altQueueSize : Address := 0x09C
def pioIntrStatus : Address := 0x0A0
def pioIntrStatusEnable : Address := 0x0A4
def pioIntrSignalEnable : Address := 0x0A8
def pioIntrForce : Address := 0x0AC
def pioControl : Address := 0x0B0

def extCapBase : Address := 0x100

/-- Every register that has a name, in order of offset. -/
def named : List (String × Address) :=
  [("HCI_VERSION", hciVersion), ("HC_CONTROL", hcControl),
    ("CONTROLLER_DEVICE_ADDR", controllerDeviceAddr), ("HC_CAPABILITIES", hcCapabilities),
    ("RESET_CONTROL", resetControl), ("PRESENT_STATE", presentState),
    ("INTR_STATUS", intrStatus), ("INTR_STATUS_ENABLE", intrStatusEnable),
    ("INTR_SIGNAL_ENABLE", intrSignalEnable), ("INTR_FORCE", intrForce),
    ("DAT_SECTION_OFFSET", datSectionOffset), ("DCT_SECTION_OFFSET", dctSectionOffset),
    ("RING_HEADERS_SECTION_OFFSET", ringHeadersSectionOffset),
    ("PIO_SECTION_OFFSET", pioSectionOffset), ("EXT_CAPS_SECTION_OFFSET", extCapsSectionOffset),
    ("INT_CTRL_CMDS_EN", intCtrlCmdsEn), ("IBI_NOTIFY_CTRL", ibiNotifyCtrl),
    ("IBI_DATA_ABORT_CTRL", ibiDataAbortCtrl), ("DEV_CTX_BASE_LO", devCtxBaseLo),
    ("DEV_CTX_BASE_HI", devCtxBaseHi), ("DEV_CTX_SG", devCtxSg),
    ("QUEUE_THLD_CTRL", queueThldCtrl), ("DATA_BUFFER_THLD_CTRL", dataBufferThldCtrl),
    ("QUEUE_SIZE", queueSize), ("ALT_QUEUE_SIZE", altQueueSize),
    ("PIO_INTR_STATUS", pioIntrStatus), ("PIO_INTR_STATUS_ENABLE", pioIntrStatusEnable),
    ("PIO_INTR_SIGNAL_ENABLE", pioIntrSignalEnable), ("PIO_INTR_FORCE", pioIntrForce),
    ("PIO_CONTROL", pioControl)]

/-- The offset of the register called `name`, in either letter case. -/
def byName? (name : String) : Option Address :=
  (named.find? fun r => Text.sameFolded r.1 name).map Prod.snd

/-- The request bits of `RESET_CONTROL`. -/
def resetControlWritable : Word := 0x3F

/-- The software-writable bits of `PIO_CONTROL`. -/
def pioControlWritable : Word := 0x7

end Register

/-! ## Fields -/

namespace HcControl
def ibaInclude : Field := .ofMask 0 0x00000001
def autocmdDataRpt : Field := .ofMask 3 0x00000008
def dataByteOrderMode : Field := .ofMask 4 0x00000010
def modeSelector : Field := .ofMask 6 0x00000040
def i2cDevPresent : Field := .ofMask 7 0x00000080
def hotJoinCtrl : Field := .ofMask 8 0x00000100
def haltOnCmdSeqTimeout : Field := .ofMask 12 0x00001000
def abort : Field := .ofMask 29 0x20000000
def resume : Field := .ofMask 30 0x40000000
def busEnable : Field := .ofMask 31 0x80000000

/-- Every field of the register. -/
def all : List Field :=
  [ibaInclude, autocmdDataRpt, dataByteOrderMode, modeSelector, i2cDevPresent, hotJoinCtrl,
    haltOnCmdSeqTimeout, abort, resume, busEnable]
end HcControl

namespace HciVersion
def version : Field := .ofMask 0 0xFFFFFFFF
end HciVersion

namespace ControllerDeviceAddr
def dynamicAddr : Field := .ofMask 16 0x007F0000
def dynamicAddrValid : Field := .ofMask 31 0x80000000
end ControllerDeviceAddr

namespace ResetControl
def softRst : Field := .ofMask 0 0x01
def cmdQueueRst : Field := .ofMask 1 0x02
def respQueueRst : Field := .ofMask 2 0x04
def txFifoRst : Field := .ofMask 3 0x08
def rxFifoRst : Field := .ofMask 4 0x10
def ibiQueueRst : Field := .ofMask 5 0x20
end ResetControl

namespace IntrStatus
def hcInternalErr : Field := .ofMask 10 0x0400
def hcSeqCancel : Field := .ofMask 11 0x0800
def hcWarnCmdSeqStall : Field := .ofMask 12 0x1000
def hcErrCmdSeqTimeout : Field := .ofMask 13 0x2000
def schedCmdMissedTick : Field := .ofMask 14 0x4000
end IntrStatus

/-! The two section registers share one shape. -/
namespace SectionOffset
def tableOffset : Field := .ofMask 0 0x00000FFF
def tableSize : Field := .ofMask 12 0x0007F000
/-- In the DCT register only: the next entry to be filled. -/
def tableIndex : Field := .ofMask 19 0x00F80000
/-- 0 stands for the standard entry width. -/
def entrySize : Field := .ofMask 28 0xF0000000
end SectionOffset

namespace QueueSize
def crQueueSize : Field := .ofMask 0 0x000000FF
def ibiStatusSize : Field := .ofMask 8 0x0000FF00
def rxDataBufferSize : Field := .ofMask 16 0x00FF0000
def txDataBufferSize : Field := .ofMask 24 0xFF000000

/-- A data buffer size of `n` in the register stands for `2 ^ (n + 1)` words. -/
def bufferWords (encoded : Word) : Word := 1 <<< (encoded + 1)
end QueueSize

namespace PioControl
def enable : Field := .ofMask 0 0x1
def runStop : Field := .ofMask 1 0x2
def abort : Field := .ofMask 2 0x4
end PioControl

/-! ## Values after reset -/

namespace ResetValue
/-- HCI version 1.2. -/
def hciVersion : Word := 0x120
/-- Only the mode selector is set. -/
def hcControl : Word := 0x40
/-- The DAT at its standard offset with 127 entries. -/
def datSectionOffset : Word := SectionOffset.tableSize.set TableLayout.dat.offset.toUInt32 0x7F
/-- The DCT at its standard offset with 127 entries. -/
def dctSectionOffset : Word := SectionOffset.tableSize.set TableLayout.dct.offset.toUInt32 0x7F
def intCtrlCmdsEn : Word := 0x6B
/-- Every threshold at 1. -/
def queueThldCtrl : Word := 0x01010101
def dataBufferThldCtrl : Word := 0x01010101
/-- Data buffers of 64 words, queues of 64 entries. -/
def queueSize : Word := 0x05054040
end ResetValue

end I3CHost
