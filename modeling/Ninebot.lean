import Ninebot.Codec
import Ninebot.Snapshots
import Ninebot.Wire
import Ninebot.FakeScooter
import Ninebot.Requests
import Ninebot.Reads
import Ninebot.Polls
import Ninebot.Outcomes
import Ninebot.Queue
import Ninebot.Memory
import Ninebot.Handshake
import Ninebot.Pacing
import Ninebot.Connect
import Ninebot.PairingKey
import Ninebot.Runs
import Ninebot.Histories
import Ninebot.Flags
import Ninebot.Diagnostics
import Ninebot.Entities
import Ninebot.Cells
import Ninebot.Deciphered
import Ninebot.Statics
import Ninebot.Dump
import Ninebot.Texts
import Ninebot.Devices
import Ninebot.Hex
import Ninebot.StoredKey
import Ninebot.EntryKey
import Ninebot.Sessions
import Ninebot.Verification
import Ninebot.Links
import Ninebot.Repair
import Ninebot.Unload
import Ninebot.Freshness
import Ninebot.Mirror
import Ninebot.Readings
import Ninebot.Schedule
import Ninebot.Sensors
import Ninebot.Button
import Ninebot.Probe
import Ninebot.ConfigFlow
