import LinuxDrivers.Lib.Run
import LinuxDrivers.Lib.Heap
import LinuxDrivers.Lib.Prog
import LinuxDrivers.Lib.Party
import LinuxDrivers.Lib.Slice
import LinuxDrivers.Lib.Lifecycle
import LinuxDrivers.Lib.Ring
import LinuxDrivers.Lib.Simulation
import LinuxDrivers.Lib.Chain
import LinuxDrivers.Lib.Parts
import LinuxDrivers.Lib.Lock
import LinuxDrivers.Lib.Registry
import LinuxDrivers.Lib.Serial
import LinuxDrivers.Kernel.CTypes
import LinuxDrivers.Kernel.Memory
import LinuxDrivers.Kernel.Chrdev
import LinuxDrivers.Kernel.Platform
import LinuxDrivers.DummyChar.Driver
import LinuxDrivers.DummyChar.Instances
import LinuxDrivers.Eeprom.Chip
import LinuxDrivers.Eeprom.Driver
import LinuxDrivers.Eeprom.Write
import LinuxDrivers.Eeprom.Calls
import LinuxDrivers.Eeprom.Bounds
import LinuxDrivers.Eeprom.RoundTrip
import LinuxDrivers.Eeprom.Sessions
import LinuxDrivers.Eeprom.Requests
import LinuxDrivers.Eeprom.Probe
import LinuxDrivers.Eeprom.Messages
import LinuxDrivers.Eeprom.Lockstep
import LinuxDrivers.Eeprom.Returned
import LinuxDrivers.Eeprom.Reads
import LinuxDrivers.Eeprom.Disclosure
import LinuxDrivers.Eeprom.Seek
import LinuxDrivers.Eeprom.Cells
import LinuxDrivers.Eeprom.Storage
import LinuxDrivers.Eeprom.Tape
import LinuxDrivers.Eeprom.Accesses
import LinuxDrivers.Eeprom.Interrupted
import LinuxDrivers.Eeprom.Concurrent
import LinuxDrivers.Gpio.Chip
import LinuxDrivers.Gpio.Driver
import LinuxDrivers.Gpio.Commands
import LinuxDrivers.Gpio.GetValue
import LinuxDrivers.Gpio.Clients
import LinuxDrivers.Gpio.OtherPins
import LinuxDrivers.Gpio.BusErrors
import LinuxDrivers.Gpio.Glitch
import LinuxDrivers.Gpio.Banks
import LinuxDrivers.Gpio.Leds
import LinuxDrivers.Gpio.Lines
import LinuxDrivers.SysfsPoll.Driver
import LinuxDrivers.SysfsPoll.Store
import LinuxDrivers.SysfsPoll.Select
import LinuxDrivers.SysfsPoll.Module
import LinuxDrivers.Sdma.Driver
import LinuxDrivers.Sdma.Completion
import LinuxDrivers.Sdma.Buffers
import LinuxDrivers.Sdma.CopyPassed
import LinuxDrivers.Sdma.Ownership
import LinuxDrivers.Sdma.Coverage
import LinuxDrivers.Sdma.Progress
import LinuxDrivers.Sdma.Module
import LinuxDrivers.Deferred.Modules
import LinuxDrivers.Deferred.Unload
import LinuxDrivers.Deferred.SharedWorkqueue
import LinuxDrivers.VmaList.Walk
import LinuxDrivers.Platform.Drivers
import LinuxDrivers.Platform.AllOrNothing
import LinuxDrivers.Platform.Devices
import LinuxDrivers.Platform.Chips
import LinuxDrivers.Platform.ChipsSound
import LinuxDrivers.Input.Button
import LinuxDrivers.Input.Keys
import LinuxDrivers.Rtc.Driver
import LinuxDrivers.Rtc.Independence
import LinuxDrivers.Rtc.Rounding
import LinuxDrivers.Net.FakeEth
