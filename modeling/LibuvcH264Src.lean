import LibuvcH264Src.AnnexB
import LibuvcH264Src.Nal
import LibuvcH264Src.AccessUnit
import LibuvcH264Src.FramePipeline
import LibuvcH264Src.FrameOutput
import LibuvcH264Src.Session
import LibuvcH264Src.ParameterSets
import LibuvcH264Src.Pictures
import LibuvcH264Src.Alignment
import LibuvcH264Src.Runs
import LibuvcH264Src.Rebaseline
import LibuvcH264Src.Caps
import LibuvcH264Src.Quirks
import LibuvcH264Src.Prog
import LibuvcH264Src.DeviceSelector
import LibuvcH264Src.Element
import LibuvcH264Src.Negotiate
import LibuvcH264Src.Recovery
import LibuvcH264Src.Lifecycle
import LibuvcH264Src.Reopen
import LibuvcH264Src.Calls
import LibuvcH264Src.Stages
import LibuvcH264Src.Simulation
import LibuvcH264Src.Latches
import LibuvcH264Src.Ledger
import LibuvcH264Src.Resources
import LibuvcH264Src.Selection
import LibuvcH264Src.StreamCaps
import LibuvcH264Src.OfferedModes
import LibuvcH264Src.Contest
import LibuvcH264Src.Candidates
import LibuvcH264Src.BestMode
import LibuvcH264Src.Arithmetic
import LibuvcH264Src.Tiling
import LibuvcH264Src.Partition
import LibuvcH264Src.CacheFile
import LibuvcH264Src.PayloadFallback
import LibuvcH264Src.Atomicity
import LibuvcH264Src.Talks
import LibuvcH264Src.RecoveredHandle
import LibuvcH264Src.WedgeRecovery
import LibuvcH264Src.Provenance
import LibuvcH264Src.CacheRoundTrip
import LibuvcH264Src.Timestamps
import LibuvcH264Src.ModeSets
import LibuvcH264Src.Codes
import LibuvcH264Src.CachePath
import LibuvcH264Src.Numerals
import LibuvcH264Src.SelectorGrammar
import LibuvcH264Src.UsbPortRecovery
import LibuvcH264Src.PtzControl
import LibuvcH264Src.PtzRuns
import LibuvcH264Src.History
import LibuvcH264Src.Credits
import LibuvcH264Src.Deadlines
import LibuvcH264Src.Watches
import LibuvcH264Src.FrameQueue
import LibuvcH264Src.Silence
import LibuvcH264Src.Feeding
import LibuvcH264Src.Resumption
import LibuvcH264Src.Continuity
import LibuvcH264Src.EndToEnd
import LibuvcH264Src.ControlSocket
import LibuvcH264Src.Monitor
import LibuvcH264Src.Wakeup
import LibuvcH264Src.Reports
import LibuvcH264Src.CreateEnds
import LibuvcH264Src.Printed
import LibuvcH264Src.PtzFrontEnds
import LibuvcH264Src.UsbTree
import LibuvcH264Src.Ladder
import LibuvcH264Src.CacheStore
import LibuvcH264Src.PadTimes
import LibuvcH264Src.LatencyQuery
