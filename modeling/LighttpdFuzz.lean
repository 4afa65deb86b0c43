import LighttpdFuzz.Replay
import LighttpdFuzz.ShutdownRule
import LighttpdFuzz.ReportDedup
import LighttpdFuzz.AssocMap
import LighttpdFuzz.PosixPath
import LighttpdFuzz.BuildVerdict
import LighttpdFuzz.BuildScheduler
import LighttpdFuzz.Connection
import LighttpdFuzz.FrontModes
import LighttpdFuzz.FastcgiResponse
import LighttpdFuzz.HttpDivision
import LighttpdFuzz.HeaderLimit
import LighttpdFuzz.ScgiRoundTrip
import LighttpdFuzz.FastcgiParams
import LighttpdFuzz.ScgiGrammar
import LighttpdFuzz.ArchiveInspection
import LighttpdFuzz.CrashLoop
import LighttpdFuzz.ProfileExclusion
import LighttpdFuzz.Transition
import LighttpdFuzz.Custody
import LighttpdFuzz.BackendStop
import LighttpdFuzz.CorpusPreparation
import LighttpdFuzz.Http2Seeds
import LighttpdFuzz.ConfigDiscovery
import LighttpdFuzz.ActiveProfiles
import LighttpdFuzz.StatusReport
import LighttpdFuzz.StopCampaigns
import LighttpdFuzz.StopRecords
import LighttpdFuzz.ArtifactDiscovery
import LighttpdFuzz.PortCheck
import LighttpdFuzz.RecursiveBuild
import LighttpdFuzz.BuildCleanup
import LighttpdFuzz.ReadyFile
import LighttpdFuzz.FrontStreams
import LighttpdFuzz.LaunchLog
import LighttpdFuzz.LogArchive
