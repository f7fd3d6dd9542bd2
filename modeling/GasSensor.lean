import GasSensor.Lib.Run
import GasSensor.Lib.FloatingPoint
import GasSensor.Lib.Memory
import GasSensor.Lib.Rounds
import GasSensor.Lib.Words
import GasSensor.Lib.ShiftRegister
import GasSensor.Lib.Preempt
import GasSensor.Lib.Scan
import GasSensor.Lib.CString
import GasSensor.Lib.Numerals
import GasSensor.Lib.Shortest
import GasSensor.Lib.Trace
import GasSensor.Lib.Lines
import GasSensor.Lib.Dialect
import GasSensor.Global
import GasSensor.Sampler.Basic
import GasSensor.Sampler.Configure
import GasSensor.Sampler.Visit
import GasSensor.Sampler.RoundEnd
import GasSensor.Sampler.Rounds
import GasSensor.Sampler.RoundRobin
import GasSensor.Sampler.Averaging
import GasSensor.Sampler.Exactness
import GasSensor.Sampler.Nested
import GasSensor.Sampler.Outputs
import GasSensor.Modbus.Crc
import GasSensor.Modbus.BitSerial
import GasSensor.Modbus.ErrorDetection
import GasSensor.Modbus.Server
import GasSensor.Modbus.Frame
import GasSensor.Modbus.Receiver
import GasSensor.Modbus.Progress
import GasSensor.Modbus.Respond
import GasSensor.Modbus.Bounds
import GasSensor.Modbus.Machine
import GasSensor.Modbus.Corruption
import GasSensor.HotPlate.Basic
import GasSensor.HotPlate.Waveform
import GasSensor.HotPlate.Overdrive
import GasSensor.HotPlate.Playback
import GasSensor.HotPlate.Range
import GasSensor.HotPlate.Amplitude
import GasSensor.Firmware.Initialize
import GasSensor.Firmware.Applied
import GasSensor.Firmware.ModbusLoop
import GasSensor.Firmware.ByteLoop
import GasSensor.Firmware.Reported
import GasSensor.Firmware.Ranges
import GasSensor.Firmware.Validator
import GasSensor.Firmware.RegisterMap
import GasSensor.Firmware.WriteOrder
import GasSensor.Firmware.LiveLoop
import GasSensor.Firmware.Bus
import GasSensor.Firmware.Exchanges
import GasSensor.Firmware.SetUp
import GasSensor.Firmware.Serviceable
import GasSensor.Firmware.Device
import GasSensor.Firmware.Representation
import GasSensor.Firmware.InputRegisters
import GasSensor.Firmware.PreemptedRead
import GasSensor.Firmware.Command
import GasSensor.Firmware.Gui
import GasSensor.Firmware.Uptime
import GasSensor.Firmware.RejectedLine
import GasSensor.Firmware.FlagBytes
import GasSensor.Firmware.StaleBytes
import GasSensor.Firmware.Fields
import GasSensor.Firmware.LineBuffer
import GasSensor.Firmware.Divisors
import GasSensor.Firmware.Resets
import GasSensor.Firmware.Independence
import GasSensor.Firmware.MainThread
import GasSensor.Firmware.Stage
import GasSensor.Firmware.Reconfigure
import GasSensor.Host.Csv
import GasSensor.Host.Parameters
import GasSensor.Host.DataSet
import GasSensor.Host.Serial
import GasSensor.Host.Application
import GasSensor.Host.Measurement
import GasSensor.Host.Session
import GasSensor.Host.Console
import GasSensor.Host.EndToEnd
