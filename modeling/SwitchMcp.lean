import SwitchMcp.Bytes
import SwitchMcp.Unicode
import SwitchMcp.JsonText
import SwitchMcp.Double
import SwitchMcp.Json
import SwitchMcp.JsonParse
import SwitchMcp.PyJson
import SwitchMcp.JsonRequest
import SwitchMcp.JsonReply
import SwitchMcp.Protocol
import SwitchMcp.Fields
import SwitchMcp.Debug
import SwitchMcp.MemSearch
import SwitchMcp.Quantities
import SwitchMcp.Path
import SwitchMcp.Fs
import SwitchMcp.Names
import SwitchMcp.Frame
import SwitchMcp.Server
import SwitchMcp.Client
import SwitchMcp.History
import SwitchMcp.Sync
import SwitchMcp.Retry
import SwitchMcp.Downgrade
import SwitchMcp.Confirm
import SwitchMcp.JsonDepth
import SwitchMcp.JsonDump
import SwitchMcp.Saves
import SwitchMcp.SaveCopy
import SwitchMcp.Search
import SwitchMcp.Trace
import SwitchMcp.Config
import SwitchMcp.SearchRuns
import SwitchMcp.ConfigBoot
import SwitchMcp.Symlinks
import SwitchMcp.LocalPaths
import SwitchMcp.HostTools
import SwitchMcp.Pieces
import SwitchMcp.Replies
import SwitchMcp.Card
import SwitchMcp.CardFiles
import SwitchMcp.Watchdog
import SwitchMcp.Autopilot
import SwitchMcp.Recording
import SwitchMcp.HexIds
import SwitchMcp.SaveMounts
import SwitchMcp.Album
import SwitchMcp.VirtualPad
import SwitchMcp.Replay
import SwitchMcp.Legacy
import SwitchMcp.JsonUtf8
import SwitchMcp.Reports
import SwitchMcp.Transfer
import SwitchMcp.CallErrors
import SwitchMcp.UpdateAgent
import SwitchMcp.PathForms
import SwitchMcp.Find
import SwitchMcp.SearchReplies
import SwitchMcp.ScanBudget
import SwitchMcp.DebugSearch
import SwitchMcp.FileCopy
import SwitchMcp.GrepLines
import SwitchMcp.Journal
import SwitchMcp.SaveListing
import SwitchMcp.ScreenChange
import SwitchMcp.WaitEvent
import SwitchMcp.ConfigComments
import SwitchMcp.JsonCursor
import SwitchMcp.JsonTokens
import SwitchMcp.SaveFaults
import SwitchMcp.Between
import SwitchMcp.PowerState
import SwitchMcp.AuditTrail
import SwitchMcp.MemoryMap
import SwitchMcp.DebugSession
import SwitchMcp.Backtrace
import SwitchMcp.Discovery
import SwitchMcp.HwBreakpoints
import SwitchMcp.ThreadRegisters
import SwitchMcp.ScreenBurst
import SwitchMcp.Deploy
import SwitchMcp.Gates
