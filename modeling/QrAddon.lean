import QrAddon.Effect
import QrAddon.Lifecycle
import QrAddon.Average
import QrAddon.ModeRace
import QrAddon.Atomicity
import QrAddon.Handover
import QrAddon.Receiver
import QrAddon.Connections
import QrAddon.ReadBack
import QrAddon.PoseRead
import QrAddon.ReadLoops
import QrAddon.Connect
import QrAddon.Geometry
import QrAddon.Deviation
import QrAddon.Recommend
import QrAddon.Validated
import QrAddon.Forward
import QrAddon.Requests
import QrAddon.Login
import QrAddon.Renaming
import QrAddon.Isolation
import QrAddon.Interference
import QrAddon.Backup
import QrAddon.BackupDate
import QrAddon.Window
import QrAddon.Landmark
import QrAddon.SeedCheck
import QrAddon.Heading
import QrAddon.Reply
import QrAddon.Delivery
import QrAddon.Serial
import QrAddon.Restart
import QrAddon.Balance
import QrAddon.Resume
import QrAddon.Recover
import QrAddon.Lib.JsonWriter
import QrAddon.Documents
import QrAddon.Lib.Words
import QrAddon.Accounts
import QrAddon.Diagnostics
