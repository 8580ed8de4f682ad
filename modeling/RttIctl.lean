import RttIctl.Lib.StepSystem
import RttIctl.Lib.ByteLock
import RttIctl.Lib.Rollover
import RttIctl.Lib.PagedMemory
import RttIctl.Lib.LittleEndian
import RttIctl.Lib.ShiftRegister
import RttIctl.Lib.Burst
import RttIctl.Lib.WriteBack
import RttIctl.Lib.Block
import RttIctl.Lib.Probe
import RttIctl.Lib.CString
import RttIctl.Lib.Stamp
import RttIctl.Lib.Strtol
import RttIctl.Lib.Decimal
import RttIctl.Lib.Registry
import RttIctl.Lib.SerialPort
import RttIctl.Net.Client
import RttIctl.Net.Start
import RttIctl.Net.State
import RttIctl.Net.Step
import RttIctl.Net.StepCases
import RttIctl.Net.Lock
import RttIctl.Net.Frame
import RttIctl.Net.Handle
import RttIctl.Net.Teardown
import RttIctl.Net.Single
import RttIctl.Net.Wait
import RttIctl.Net.Disconnect
import RttIctl.Net.Ready
import RttIctl.Net.Connect
import RttIctl.Net.SelectHandle
import RttIctl.Net.LoopExit
import RttIctl.Drivers.Ringbuffer
import RttIctl.Net.Output
import RttIctl.Net.PipeName
import RttIctl.Drivers.Pwm
import RttIctl.Drivers.PwmGet
import RttIctl.Packages.At24cxx
import RttIctl.Netdev.Ipaddr
import RttIctl.Lwip.Udp
import RttIctl.Bsp.Encoder
import RttIctl.Bsp.Snapshot
import RttIctl.Bsp.Motor
import RttIctl.Bsp.StepRate
import RttIctl.Bsp.Hcrc32
import RttIctl.Bsp.CrcBurst
import RttIctl.Bsp.Dio
import RttIctl.Bsp.DoCache
import RttIctl.Bsp.DoReadback
import RttIctl.Bsp.Di
import RttIctl.Bsp.Led
import RttIctl.Bsp.Lamp
import RttIctl.Bsp.LedArrays
import RttIctl.Bsp.LedSteady
import RttIctl.Bsp.LedBlink
import RttIctl.Bsp.NetCfg
import RttIctl.Bsp.Ads111x
import RttIctl.Bsp.Cs5532
import RttIctl.Applications.UsrParam
import RttIctl.Bsp.SetNetCfg
import RttIctl.Applications.EthSet
import RttIctl.Applications.TaskEth
import RttIctl.Applications.ParamChange
import RttIctl.Applications.TaskI2c1
import RttIctl.Applications.AdcReading
import RttIctl.Kernel.Mem
import RttIctl.Kernel.MemBlocks
import RttIctl.Kernel.MemCalls
import RttIctl.Kernel.MemRealloc
import RttIctl.Kernel.MemRuns
import RttIctl.Kernel.Event
import RttIctl.Kernel.EventRuns
import RttIctl.Kernel.Mailbox
import RttIctl.Kernel.MailboxRuns
import RttIctl.Kernel.Semaphore
import RttIctl.Kernel.Mutex
import RttIctl.Kernel.MutexRuns
import RttIctl.Drivers.RingbufferForce
