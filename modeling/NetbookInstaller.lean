import NetbookInstaller.Battery.Arithmetic
import NetbookInstaller.Battery.Manager
import NetbookInstaller.Battery.ReadTimer
import NetbookInstaller.Dsdt.Aliases
import NetbookInstaller.Dsdt.BalancedPasses
import NetbookInstaller.Dsdt.ConfigStage
import NetbookInstaller.Dsdt.RTCEntries
import NetbookInstaller.Dsdt.OverwrittenHPET
import NetbookInstaller.Dsdt.InsertedIRQs
import NetbookInstaller.Dsdt.FreePrefix
import NetbookInstaller.Dsdt.LineFixes
import NetbookInstaller.PS2.KeyboardOrder
import NetbookInstaller.PS2.KeyboardQueue
import NetbookInstaller.PS2.PowerControl
import NetbookInstaller.Mouse.Reset
import NetbookInstaller.Mouse.Knock
import NetbookInstaller.Keyboard.Alternation
import NetbookInstaller.Keyboard.Resync
import NetbookInstaller.Keyboard.Framing
import NetbookInstaller.Keyboard.PrintScreen
import NetbookInstaller.Installer.BackupLoss
import NetbookInstaller.Installer.HexEditor
import NetbookInstaller.Installer.KernelVersion
import NetbookInstaller.Installer.PropertyLists
import NetbookInstaller.Installer.ReturnValues
import NetbookInstaller.Installer.Rollback
import NetbookInstaller.Installer.RunCommand
import NetbookInstaller.Keyboard.EscapeRelease
import NetbookInstaller.TouchPad.PacketStream
import NetbookInstaller.TouchPad.Assembly
import NetbookInstaller.TouchPad.StreamTime
import NetbookInstaller.TouchPad.Capabilities
import NetbookInstaller.TouchPad.Lift
import NetbookInstaller.TouchPad.FingerCount
import NetbookInstaller.TouchPad.Recovery
import NetbookInstaller.TouchPad.Preferences
import NetbookInstaller.TouchPad.Tap
import NetbookInstaller.Audio.MuteControl
import NetbookInstaller.PostbootMounter.Hooks
import NetbookInstaller.PS2.Composite
import NetbookInstaller.PS2.TryLoop
import NetbookInstaller.Ethernet.TransmitRuns
import NetbookInstaller.Ethernet.Receive
import NetbookInstaller.Ethernet.Multicast
import NetbookInstaller.Ata.ChannelCommands
import NetbookInstaller.Ata.ChannelDrivers
import NetbookInstaller.Smbios.DimmStrings
import NetbookInstaller.Ata.SerialPorts
import NetbookInstaller.Pointing.Direction
