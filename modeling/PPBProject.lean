import PPBProject.Order
import PPBProject.Barrier
import PPBProject.Facade
import PPBProject.Wakeup
import PPBProject.Cut
import PPBProject.Parsed
import PPBProject.Settings
import PPBProject.Firmware
import PPBProject.Prbs
import PPBProject.Volume
import PPBProject.Logging
import PPBProject.FuRequest
import PPBProject.Gratten
import PPBProject.Answers
import PPBProject.Evidence
import PPBProject.Akip
import PPBProject.Generator
import PPBProject.GroupStart
import PPBProject.Cancel
import PPBProject.Dangling
import PPBProject.Station
import PPBProject.Scenario
import PPBProject.Verdicts
import PPBProject.ScenarioThread
import PPBProject.Restore
import PPBProject.Fidelity
import PPBProject.Crc24
import PPBProject.StatusCodes
import PPBProject.Framing
import PPBProject.SetCommand
import PPBProject.Precedence
import PPBProject.Offer
import PPBProject.Drain
import PPBProject.Returns
import PPBProject.Installer
import PPBProject.LogView
import PPBProject.Panels
import PPBProject.Transcript
import PPBProject.Network
import PPBProject.ScriptRun
import PPBProject.Laboratory
