import Esp32Battery.Lib.Prog
import Esp32Battery.Lib.Duration
import Esp32Battery.Charging.ChargeSupervisor
import Esp32Battery.Automaton
import Esp32Battery.Proofs.Step
import Esp32Battery.Proofs.Gauntlet
import Esp32Battery.Charging.Run
import Esp32Battery.Proofs.Tick
import Esp32Battery.Board
import Esp32Battery.Proofs.FaultFinal
import Esp32Battery.Proofs.EnergiseGate
import Esp32Battery.Proofs.Windows
import Esp32Battery.Proofs.PackTempDeadline
import Esp32Battery.Proofs.ParkChance
import Esp32Battery.Data.History
import Esp32Battery.Data.SensorData
import Esp32Battery.Proofs.SensorLoss
import Esp32Battery.ErrorLog
import Esp32Battery.Xy.Boot
import Esp32Battery.Xy.Run
import Esp32Battery.Proofs.Loop
import Esp32Battery.Proofs.Session
import Esp32Battery.Proofs.ReverseCurrent
import Esp32Battery.Proofs.Agreement
import Esp32Battery.Proofs.NoPanic
import Esp32Battery.Proofs.Deadlines
import Esp32Battery.Proofs.Evidence
import Esp32Battery.Proofs.FlapBudget
import Esp32Battery.Proofs.Glitch
import Esp32Battery.Proofs.ChargeCap
import Esp32Battery.Proofs.Freshness
import Esp32Battery.Lib.Spans
import Esp32Battery.Proofs.HistorySpans
import Esp32Battery.Proofs.HistoryMeans
import Esp32Battery.Proofs.TransitionLog
import Esp32Battery.Lib.Past
import Esp32Battery.Net.Credentials
import Esp32Battery.Net.Supervisor
import Esp32Battery.Proofs.NetTimers
import Esp32Battery.Lib.Slice
import Esp32Battery.LogRing
import Esp32Battery.Proofs.Inhibit
import Esp32Battery.Dns.Message
import Esp32Battery.Dns.Packet
import Esp32Battery.Proofs.DnsFraming
import Esp32Battery.Lib.Extended
import Esp32Battery.Proofs.Chronology
import Esp32Battery.Http.Form
import Esp32Battery.Http.Save
import Esp32Battery.Proofs.SaveForm
import Esp32Battery.Http.Ota
import Esp32Battery.Proofs.OtaUpload
import Esp32Battery.Net.Main
import Esp32Battery.Net.Device
import Esp32Battery.Proofs.NetAgreement
import Esp32Battery.Proofs.Submissions
import Esp32Battery.Proofs.StoredCreds
import Esp32Battery.Http.WifiReset
import Esp32Battery.Proofs.Handlers
import Esp32Battery.Lib.Reflected
import Esp32Battery.Proofs.LeakyWindow
import Esp32Battery.Proofs.EventTotals
import Esp32Battery.Lib.ExactField
import Esp32Battery.Lib.Polyline
import Esp32Battery.Proofs.SocCurve
import Esp32Battery.Lib.Check
import Esp32Battery.Proofs.BuiltBoots
import Esp32Battery.Proofs.HoldExit
import Esp32Battery.Proofs.Cadence
import Esp32Battery.Lib.Conversation
import Esp32Battery.Proofs.Conversation
import Esp32Battery.Proofs.BuckLog
import Esp32Battery.Proofs.BootTalk
import Esp32Battery.Proofs.Aim
import Esp32Battery.Proofs.Energising
import Esp32Battery.Proofs.Published
import Esp32Battery.Proofs.LoadFed
import Esp32Battery.Lib.Locks
import Esp32Battery.Locking
import Esp32Battery.Proofs.NoDeadlock
import Esp32Battery.Proofs.AbsorbStay
import Esp32Battery.Proofs.StepDown
import Esp32Battery.Lib.Layers
import Esp32Battery.Lcd
import Esp32Battery.Proofs.Repaint
import Esp32Battery.Proofs.Recovery
import Esp32Battery.Ina
import Esp32Battery.Proofs.InaSamples
import Esp32Battery.Lib.Tops
import Esp32Battery.Net.Scan
import Esp32Battery.Proofs.ScanCache
import Esp32Battery.Proofs.Hazards
import Esp32Battery.LogCapture
import Esp32Battery.Proofs.LogServed
import Esp32Battery.WallClock
import Esp32Battery.Proofs.Stamps
import Esp32Battery.Lib.Elapsed
import Esp32Battery.Proofs.Watchdog
